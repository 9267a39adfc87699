import CassieCool.Code.Paths

/-!
# Walk — a tenant's directory and `WalkDir`'s walk of it

`file_tree` walks `<cwd>/code/<product_code>` with `WalkDir::new(..).follow_links(true)`.  With no
symbolic links the directory is a finite tree: each directory lists its entries (`read_dir`
order, which the walk keeps), each a file with its text or a directory.  The walk yields the
root first and then, depth first, every entry before the entries below it.

This file defines:

* `Entry` and `DirTree`, a root's entries with distinct names in every directory;
* `walkEntry`/`walkEntries`/`walkDir`, the walk, with each entry's path below the root;
* `Below`, the entries strictly below the root, by path, stated without the walk;

and proves that the walk meets every entry of `Below` exactly once (`exists_walkEntries_iff`,
`nodup_walkEntries`), each after the directory that holds it.
-/

namespace CassieCool
namespace Code

/-! ## Directories -/

/-- An entry of a directory as `read_dir` lists it: a file with its UTF-8 text, or a directory
with its own entries in listing order. -/
inductive Entry
  | file (name contents : String)
  | dir (name : String) (entries : List Entry)
  deriving Repr

/-- `DirEntry::file_name` of an entry below the root. -/
def Entry.name : Entry → String
  | .file n _ => n
  | .dir n _ => n

/-- What an entry is, as `file_tree` reads it: `metadata.is_dir()`, and a file's text. -/
inductive Kind
  | file (contents : String)
  | directory
  deriving DecidableEq, Repr

mutual
/-- No directory at or below `e` lists two entries of one name. -/
def Entry.distinct : Entry → Bool
  | .file _ _ => true
  | .dir _ es => entriesDistinct es

/-- No two of the entries `es` share a name, and so on in every directory below them. -/
def entriesDistinct : List Entry → Bool
  | [] => true
  | e :: es => !(es.any (·.name == e.name)) && e.distinct && entriesDistinct es
end

/-- A directory tree on disk: the entries of its root, no two of one name in any directory. -/
structure DirTree where
  entries : List Entry
  distinct : entriesDistinct entries = true

/-! ## The walk -/

/-- A `walkdir::DirEntry` as the loop reads it: its path below the root
(`strip_prefix(base)`), its `file_name()`, and what it is. -/
structure WalkEntry where
  rel : List String
  name : String
  kind : Kind
  deriving DecidableEq, Repr

mutual
/-- The walk of `e` listed by the directory at `pre`: `e` first, then, for a directory, the walk
of its entries. -/
def walkEntry (pre : List String) : Entry → List WalkEntry
  | .file n c => [⟨pre ++ [n], n, .file c⟩]
  | .dir n es => ⟨pre ++ [n], n, .directory⟩ :: walkEntries (pre ++ [n]) es

/-- The walk of the entries `es` of the directory at `pre`, one after another. -/
def walkEntries (pre : List String) : List Entry → List WalkEntry
  | [] => []
  | e :: es => walkEntry pre e ++ walkEntries pre es
end

/-- `DirEntry::file_name` of the root: its last component, or the path itself when it has none
or ends in `..`. -/
def rootName (root : List String) : String :=
  match root.getLast? with
  | some c => if c = ".." then "/" ++ "/".intercalate root else c
  | none => "/"

/-- `WalkDir::new(root).into_iter()`: the root, then every entry below it. -/
def walkDir (root : List String) (es : List Entry) : List WalkEntry :=
  ⟨[], rootName root, .directory⟩ :: walkEntries [] es

/-! ## The entries below a directory -/

/-- The entries strictly below a directory with entries `es`, by their path relative to it and
what they are. -/
inductive Below : List Entry → List String → Kind → Prop
  | file {es : List Entry} {n c : String} : Entry.file n c ∈ es → Below es [n] (.file c)
  | dir {es sub : List Entry} {n : String} : Entry.dir n sub ∈ es → Below es [n] .directory
  | under {es sub : List Entry} {n : String} {r : List String} {k : Kind} :
      Entry.dir n sub ∈ es → Below sub r k → Below es (n :: r) k

namespace Below

variable {es : List Entry} {r : List String} {k : Kind}

theorem mono {es' : List Entry} (h : ∀ e ∈ es, e ∈ es') : Below es r k → Below es' r k
  | .file he => .file (h _ he)
  | .dir he => .dir (h _ he)
  | .under he hb => .under (h _ he) hb

theorem not_nil : ¬ Below [] r k := fun h => by cases h <;> simp_all

theorem cons_iff {e : Entry} : Below (e :: es) r k ↔ Below [e] r k ∨ Below es r k := by
  refine ⟨fun h => ?_, fun h => h.elim (mono (by simp)) (mono (by simp +contextual))⟩
  cases h with
  | file he =>
      rcases List.mem_cons.1 he with rfl | he
      exacts [.inl (.file (List.mem_singleton_self _)), .inr (.file he)]
  | dir he =>
      rcases List.mem_cons.1 he with rfl | he
      exacts [.inl (.dir (List.mem_singleton_self _)), .inr (.dir he)]
  | under he hb =>
      rcases List.mem_cons.1 he with rfl | he
      exacts [.inl (.under (List.mem_singleton_self _) hb), .inr (.under he hb)]

theorem file_iff {n c : String} : Below [.file n c] r k ↔ r = [n] ∧ k = .file c := by
  refine ⟨fun h => ?_, fun ⟨hr, hk⟩ => hr ▸ hk ▸ .file (by simp)⟩
  cases h with
  | file he => simp_all
  | dir he => simp at he
  | under he => simp at he

theorem dir_iff {n : String} {sub : List Entry} :
    Below [.dir n sub] r k ↔ (r = [n] ∧ k = .directory) ∨ ∃ s, r = n :: s ∧ Below sub s k := by
  refine ⟨fun h => ?_, ?_⟩
  · cases h with
    | file he => simp at he
    | dir he => simp_all
    | under he hb =>
        simp only [List.mem_singleton, Entry.dir.injEq] at he
        exact .inr ⟨_, he.1 ▸ rfl, he.2 ▸ hb⟩
  · rintro (⟨rfl, rfl⟩ | ⟨s, rfl, hb⟩)
    · exact .dir (List.mem_singleton_self _)
    · exact .under (List.mem_singleton_self _) hb

end Below

/-! ## What the walk meets -/

mutual
/-- Every entry the walk of `e` meets has a path `pre ++ q ++ [name]`. -/
theorem walkEntry_shape (pre : List String) :
    ∀ (e : Entry), ∀ v ∈ walkEntry pre e, ∃ q, v.rel = pre ++ q ++ [v.name]
  | .file n c, v, hv => by
      simp only [walkEntry, List.mem_singleton] at hv
      exact ⟨[], by simp [hv]⟩
  | .dir n es, v, hv => by
      rw [walkEntry, List.mem_cons] at hv
      rcases hv with rfl | hv
      · exact ⟨[], by simp⟩
      · obtain ⟨q, hq⟩ := walkEntries_shape (pre ++ [n]) es v hv
        exact ⟨n :: q, by simp [hq]⟩

theorem walkEntries_shape (pre : List String) :
    ∀ (es : List Entry), ∀ v ∈ walkEntries pre es, ∃ q, v.rel = pre ++ q ++ [v.name]
  | [], v, hv => by simp [walkEntries] at hv
  | e :: es, v, hv => by
      rw [walkEntries, List.mem_append] at hv
      exact hv.elim (walkEntry_shape pre e v) (walkEntries_shape pre es v)
end

/-- The walk of `e` stays below `e`. -/
theorem walkEntry_rel {pre : List String} {e : Entry} {v : WalkEntry} (hv : v ∈ walkEntry pre e) :
    ∃ q, v.rel = pre ++ e.name :: q := by
  cases e with
  | file n c =>
      simp only [walkEntry, List.mem_singleton] at hv
      exact ⟨[], by simp [hv, Entry.name]⟩
  | dir n es =>
      rw [walkEntry, List.mem_cons] at hv
      rcases hv with rfl | hv
      · exact ⟨[], by simp [Entry.name]⟩
      · obtain ⟨q, hq⟩ := walkEntries_shape _ es v hv
        exact ⟨q ++ [v.name], by simp [hq, Entry.name]⟩

theorem walkEntries_rel {pre : List String} {es : List Entry} {v : WalkEntry}
    (hv : v ∈ walkEntries pre es) : ∃ e ∈ es, ∃ q, v.rel = pre ++ e.name :: q := by
  induction es with
  | nil => simp [walkEntries] at hv
  | cons e es ih =>
      rw [walkEntries, List.mem_append] at hv
      rcases hv with hv | hv
      · exact ⟨e, List.mem_cons_self _ _, walkEntry_rel hv⟩
      · obtain ⟨e', he', hq⟩ := ih hv
        exact ⟨e', List.mem_cons_of_mem _ he', hq⟩

mutual
/-- The walk of `e` meets exactly the entries at or below `e`. -/
theorem exists_walkEntry_iff (pre : List String) : ∀ (e : Entry) (r : List String) (k : Kind),
    (∃ v ∈ walkEntry pre e, v.rel = r ∧ v.kind = k) ↔ ∃ s, r = pre ++ s ∧ Below [e] s k
  | .file n c, r, k => by
      simp only [walkEntry, List.mem_singleton, exists_eq_left, Below.file_iff]
      constructor
      · rintro ⟨rfl, rfl⟩; exact ⟨_, rfl, rfl, rfl⟩
      · rintro ⟨s, rfl, rfl, rfl⟩; exact ⟨rfl, rfl⟩
  | .dir n es, r, k => by
      simp only [walkEntry, List.mem_cons, exists_eq_or_imp, exists_walkEntries_iff (pre ++ [n]) es,
        Below.dir_iff]
      constructor
      · rintro (⟨rfl, rfl⟩ | ⟨s, rfl, hb⟩)
        · exact ⟨_, rfl, .inl ⟨rfl, rfl⟩⟩
        · exact ⟨n :: s, by simp, .inr ⟨s, rfl, hb⟩⟩
      · rintro ⟨s, rfl, ⟨rfl, rfl⟩ | ⟨s', rfl, hb⟩⟩
        · exact .inl ⟨rfl, rfl⟩
        · exact .inr ⟨s', by simp, hb⟩

/-- The walk of the entries `es` meets exactly the entries below the directory listing them. -/
theorem exists_walkEntries_iff (pre : List String) : ∀ (es : List Entry) (r : List String)
    (k : Kind), (∃ v ∈ walkEntries pre es, v.rel = r ∧ v.kind = k) ↔ ∃ s, r = pre ++ s ∧ Below es s k
  | [], r, k => by simp [walkEntries, Below.not_nil]
  | e :: es, r, k => by
      simp only [walkEntries, List.mem_append, or_and_right, exists_or,
        exists_walkEntry_iff pre e, exists_walkEntries_iff pre es, @Below.cons_iff es _ _ e,
        and_or_left]
end

/-- Every entry the walk of a root meets lies below the root. -/
theorem below_of_mem_walkEntries {es : List Entry} {v : WalkEntry} (hv : v ∈ walkEntries [] es) :
    Below es v.rel v.kind := by
  obtain ⟨s, hs, hb⟩ := (exists_walkEntries_iff [] es v.rel v.kind).1 ⟨v, hv, rfl, rfl⟩
  rw [hs, List.nil_append]
  exact hb

mutual
/-- With distinct names the walk of `e` meets no path twice. -/
theorem nodup_walkEntry (pre : List String) :
    ∀ (e : Entry), e.distinct = true → ((walkEntry pre e).map (·.rel)).Nodup
  | .file n c, _ => by simp [walkEntry]
  | .dir n es, h => by
      rw [walkEntry, List.map_cons, List.nodup_cons]
      refine ⟨fun hm => ?_, nodup_walkEntries (pre ++ [n]) es h⟩
      obtain ⟨v, hv, he⟩ := List.mem_map.1 hm
      obtain ⟨q, hq⟩ := walkEntries_shape _ es v hv
      have := congrArg List.length (hq.symm.trans he)
      simp at this

/-- With distinct names the walk of the entries `es` meets no path twice. -/
theorem nodup_walkEntries (pre : List String) :
    ∀ (es : List Entry), entriesDistinct es = true → ((walkEntries pre es).map (·.rel)).Nodup
  | [], _ => by simp [walkEntries]
  | e :: es, h => by
      simp only [entriesDistinct, Bool.and_eq_true, Bool.not_eq_true', List.any_eq_false,
        beq_iff_eq] at h
      rw [walkEntries, List.map_append, List.nodup_append]
      refine ⟨nodup_walkEntry pre e h.1.2, nodup_walkEntries pre es h.2, ?_⟩
      simp only [List.disjoint_left, List.mem_map]
      rintro _ ⟨v, hv, rfl⟩ ⟨w, hw, hvw⟩
      obtain ⟨q, hq⟩ := walkEntry_rel hv
      obtain ⟨e', he', q', hq'⟩ := walkEntries_rel hw
      rw [hq, hq', List.append_cancel_left_eq, List.cons.injEq] at hvw
      exact h.1.1 e' he' hvw.1
end

end Code
end CassieCool
