import CassieCool.Code.Walk

/-!
# FileTree — `file_tree`

`file_tree` walks `<cwd>/code/<product_code>` and, for each entry the walk yields, skips it when
`path.ends_with(product_code)`, and otherwise draws an id, stores it in `path_map` under the
entry's path below the root joined with `|`, and looks the parent up there: the parent path is
`root` for an entry of the root, and a parent path `path_map` does not hold is kept as the parent.

The guard is there for the root, which the walk yields first; but it skips every entry whose
path ends with the product code, so an entry named like the tenant is never listed.  And the
parent path `root` is also the key of a top-level entry named `root`, whose id then becomes the
parent of the top-level entries walked after it.  Away from these two names the list is the
tree (`file_tree_lists_below`): the loop lists `entriesFiles`, the files of the tree in walk
order (`fileTree_eq_entriesFiles`), and those describe every entry once.
-/

namespace CassieCool
namespace Code

/-! ## The handler -/

/-- `[String]::join(sep)`. -/
def join (sep : String) : List String → String
  | [] => ""
  | [a] => a
  | a :: b :: l => a ++ sep ++ join sep (b :: l)

/-- `Path::ends_with(child)` on a walked path, which is absolute: the components of `child` are
the last components of `path`.  An absolute `child` starts with `RootDir` and so must be all of
`path`; a relative one whose first component is `.` keeps it as `CurDir`, which no walked path
has. -/
def endsWith (path : List String) (child : String) : Bool :=
  if isAbsolute child then path == components child
  else if (splitStr child '/').head? == some "." then false
  else (components child).isSuffixOf path

/-- The `type` of an entry. -/
def Kind.typeName : Kind → String
  | .file _ => "file"
  | .directory => "directory"

/-- The `contents` of an entry: a file's text. -/
def Kind.contents : Kind → Option String
  | .file c => some c
  | .directory => none

/-- A directory's path as `file_tree` gives it as a parent path: `root` for the root, else its
components below the root joined with `|`. -/
def dirPath (p : List String) : String := if p = [] then "root" else join "|" p

/-- What the loop of `file_tree` carries: `path_map`, the number of ids drawn, and `result`. -/
structure TreeState where
  pathMap : AList (fun _ : String => String)
  drawn : Nat
  result : List CodeFile

/-- One pass of the loop for `entry`, whose id is `uuid st.drawn` (`Uuid::new_v4()`). -/
def visit (root : List String) (code : String) (uuid : Nat → String) (st : TreeState)
    (entry : WalkEntry) : TreeState :=
  if endsWith (root ++ entry.rel) code then st
  else
    let id := uuid st.drawn
    let pathMap := st.pathMap.insert (join "|" entry.rel) id
    let parentPath := dirPath entry.rel.dropLast
    { pathMap := pathMap
      drawn := st.drawn + 1
      result := st.result ++
        [{ id := id
           name := entry.name
           type := entry.kind.typeName
           parent := (pathMap.lookup parentPath).getD parentPath
           parentPath := parentPath
           createdAt := 0
           contents := entry.kind.contents }] }

/-- How `file_tree` ends: `Res { code, data }` with a text or with the files, or a panic. -/
inductive TreeReply
  | res (code : Int) (data : String)
  | files (code : Int) (data : List CodeFile)
  | panic
  deriving DecidableEq, Repr

/-- `file_tree` (`GET /code/file_tree`) on the root `<cwd>/code/<product_code>`, which lists
`entries`; `uuid k` is the `k`-th id drawn. -/
def fileTree (cwd : List String) (uuid : Nat → String) (req : HttpRequest)
    (entries : List Entry) : TreeReply :=
  match productCode req with
  | none => .res 0 "product_code not found"
  | some none => .panic
  | some (some code) =>
      let root := tenantRoot cwd code
      .files 0 ((walkDir root entries).foldl (visit root code uuid) ⟨∅, 0, []⟩).result

/-! ## What the list should be -/

/-- The file `f` stands for the entry at path `e.1` of kind `e.2`, among the pairs `pairs` of
entries and files: it has the entry's name and kind; its parent path and parent are `root` for
an entry of the root, and otherwise its directory's path joined with `|` and the id of the file
paired with that directory. -/
def Describes (pairs : List ((List String × Kind) × CodeFile)) (e : List String × Kind)
    (f : CodeFile) : Prop :=
  e.1.getLast? = some f.name ∧ f.type = e.2.typeName ∧ f.contents = e.2.contents ∧
    (e.1.length = 1 → f.parentPath = "root" ∧ f.parent = "root") ∧
    (1 < e.1.length → f.parentPath = join "|" e.1.dropLast ∧
      ∃ q ∈ pairs, q.1.1 = e.1.dropLast ∧ f.parent = q.2.id)

/-- `files` lists the tree below a root with entries `es`: there is one file for each entry
strictly below the root, and each describes its entry. -/
def ListsTree (es : List Entry) (files : List CodeFile) : Prop :=
  ∃ rels : List (List String × Kind), (rels.map (·.1)).Nodup ∧
    (∀ r k, (r, k) ∈ rels ↔ Below es r k) ∧ rels.length = files.length ∧
    ∀ x ∈ rels.zip files, Describes (rels.zip files) x.1 x.2

/-- Under the tenant `demo`, a directory named `demo` is not listed; and a top-level directory
named `root` is listed as its own parent and as the parent of the top-level file after it. -/
theorem file_tree_name_collisions :
    let req : HttpRequest := ⟨[("product_code", "demo".toList.map (·.toNat.toUInt8))], "/", none⟩
    let uuid : Nat → String := fun k => ["u0", "u1"].getD k ""
    fileTree ["srv"] uuid req [.dir "demo" []] = .files 0 [] ∧
      ¬ ListsTree [.dir "demo" []] [] ∧
      fileTree ["srv"] uuid req [.dir "root" [], .file "a" "x"] =
        .files 0 [⟨"u0", "root", "directory", "u0", "root", 0, none⟩,
          ⟨"u1", "a", "file", "u0", "root", 0, some "x"⟩] ∧
      ¬ ListsTree [.dir "root" [], .file "a" "x"]
        [⟨"u0", "root", "directory", "u0", "root", 0, none⟩,
          ⟨"u1", "a", "file", "u0", "root", 0, some "x"⟩] := by
  intro req uuid
  refine ⟨by decide, ?_, by decide, ?_⟩
  · rintro ⟨rels, -, hmem, hlen, -⟩
    rw [List.length_nil, List.length_eq_zero] at hlen
    subst hlen
    exact List.not_mem_nil _ ((hmem _ _).2 (.dir (List.mem_singleton_self _)))
  · rintro ⟨rels, -, hmem, hlen, hdesc⟩
    obtain ⟨⟨r, k⟩, rest, rfl⟩ := List.exists_cons_of_length_pos (by rw [hlen]; decide)
    have hr : r.length = 1 := by
      cases (hmem r k).1 (List.mem_cons_self _ _) with
      | file => rfl
      | dir => rfl
      | under he hb =>
          simp at he
          exact absurd (he.2 ▸ hb) Below.not_nil
    have h := ((hdesc _ (List.mem_cons_self _ _)).2.2.2.1 hr).2
    simp at h

/-! ## The files of a tree -/

mutual
/-- The files for `e` and the entries below it, listed by the directory at `pre` whose file has
id `parent`, in walk order and with ids drawn from the `k`-th on. -/
def entryFiles (uuid : Nat → String) (pre : List String) (parent : String) (k : Nat) :
    Entry → List CodeFile
  | .file n c => [⟨uuid k, n, "file", parent, dirPath pre, 0, some c⟩]
  | .dir n es => ⟨uuid k, n, "directory", parent, dirPath pre, 0, none⟩ ::
      entriesFiles uuid (pre ++ [n]) (uuid k) (k + 1) es

/-- The files for the entries `es` of the directory at `pre`, one entry after another. -/
def entriesFiles (uuid : Nat → String) (pre : List String) (parent : String) (k : Nat) :
    List Entry → List CodeFile
  | [] => []
  | e :: es => entryFiles uuid pre parent k e ++
      entriesFiles uuid pre parent (k + (walkEntry pre e).length) es
end

/-! ## Paths joined with `|` -/

theorem join_append {l m : List String} (hl : l ≠ []) (hm : m ≠ []) (sep : String) :
    join sep (l ++ m) = join sep l ++ sep ++ join sep m := by
  induction l with
  | nil => exact absurd rfl hl
  | cons a l ih =>
      rcases l with _ | ⟨b, l⟩
      · obtain ⟨c, m, rfl⟩ := List.exists_cons_of_ne_nil hm
        rfl
      · calc join sep ((a :: b :: l) ++ m) = a ++ sep ++ join sep ((b :: l) ++ m) := rfl
          _ = a ++ sep ++ (join sep (b :: l) ++ sep ++ join sep m) := by
            rw [ih (List.cons_ne_nil _ _)]
          _ = join sep (a :: b :: l) ++ sep ++ join sep m := by simp only [join, String.append_assoc]

/-- A path below a directory is joined to a longer text than the directory. -/
theorem join_append_ne {p q : List String} (hp : p ≠ []) (hq : q ≠ []) :
    join "|" (p ++ q) ≠ join "|" p := fun h => by
  have := congrArg String.length h
  rw [join_append hp hq, String.length_append, String.length_append] at this
  have : "|".length = 1 := rfl
  omega

/-- Two or more components are joined around a `|`, which `root` does not have. -/
theorem join_ne_root {l : List String} (hl : 2 ≤ l.length) : join "|" l ≠ "root" := fun h => by
  obtain ⟨a, b, t, rfl⟩ : ∃ a b t, l = a :: b :: t := by
    rcases l with _ | ⟨a, _ | ⟨b, t⟩⟩ <;> simp_all
  have hm : '|' ∈ (join "|" (a :: b :: t)).data := by simp [join, String.data_append]
  rw [h] at hm
  exact absurd hm (by decide)

theorem splitChars_ne_nil (sep : Char) : ∀ cs : List Char, splitChars sep cs ≠ []
  | [] => List.cons_ne_nil _ _
  | c :: cs => by
      unfold splitChars
      split
      · exact List.cons_ne_nil _ _
      · split <;> exact List.cons_ne_nil _ _

/-- Splitting at a separator: the pieces before it, then the pieces after it. -/
theorem splitChars_append_cons (sep : Char) (u v : List Char) :
    splitChars sep (u ++ sep :: v) = splitChars sep u ++ splitChars sep v := by
  induction u with
  | nil => exact if_pos rfl
  | cons c u ih =>
      obtain ⟨p, ps, hp⟩ := List.exists_cons_of_ne_nil (splitChars_ne_nil sep u)
      by_cases hc : c = sep <;>
        simp only [List.cons_append, splitChars, hc, ↓reduceIte, List.append_eq, ih, hp]

/-- A piece holds no separator, and only characters of the text split. -/
theorem mem_splitChars {sep : Char} : ∀ {cs p : List Char}, p ∈ splitChars sep cs →
    sep ∉ p ∧ p ⊆ cs
  | [], p, hp => by simp_all [splitChars]
  | c :: cs, p, hp => by
      have ih : ∀ {q}, q ∈ splitChars sep cs → sep ∉ q ∧ q ⊆ c :: cs := fun hq =>
        ⟨(mem_splitChars hq).1, (mem_splitChars hq).2.trans (List.subset_cons_self _ _)⟩
      unfold splitChars at hp
      split at hp
      · rcases List.mem_cons.1 hp with rfl | hp
        · simp
        · exact ih hp
      · rename_i hc
        split at hp
        · simp_all [Ne.symm hc]
        · rename_i q qs hq
          have hq' : ∀ r ∈ q :: qs, r ∈ splitChars sep cs := fun r hr => hq ▸ hr
          rcases List.mem_cons.1 hp with rfl | hp
          · obtain ⟨hs, hsub⟩ := mem_splitChars (hq' _ (List.mem_cons_self _ _))
            exact ⟨by simp [Ne.symm hc, hs], List.cons_subset_cons _ hsub⟩
          · exact ih (hq' _ (List.mem_cons_of_mem _ hp))

theorem mem_splitStr {sep : Char} {a s : String} (hs : s ∈ splitStr a sep) :
    sep ∉ s.data ∧ s.data ⊆ a.data := by
  obtain ⟨p, hp, rfl⟩ := List.mem_map.1 hs
  exact mem_splitChars hp

/-- Splitting a `|`-joined text at `|` splits each part. -/
theorem splitStr_join {l : List String} (hl : l ≠ []) :
    splitStr (join "|" l) '|' = l.flatMap (splitStr · '|') := by
  induction l with
  | nil => exact absurd rfl hl
  | cons a l ih =>
      rcases l with _ | ⟨b, l⟩
      · simp [join]
      · have hj : (join "|" (a :: b :: l)).data = a.data ++ '|' :: (join "|" (b :: l)).data := by
          simp [join, String.data_append]
        rw [splitStr, hj, splitChars_append_cons, List.map_append, ← splitStr, ← splitStr,
          ih (List.cons_ne_nil _ _)]
        rfl

/-- Pieces without `/` are pushed as one component each, and the empty piece and `.` as none. -/
theorem foldl_push_plain (root : List String) {ps : List String} (h : ∀ s ∈ ps, '/' ∉ s.data) :
    ps.foldl push root = root ++ ps.filter (fun c => c != "" && c != ".") := by
  induction ps generalizing root with
  | nil => simp
  | cons a ps ih =>
      rw [List.foldl_cons, ih _ fun s hs => h s (List.mem_cons_of_mem _ hs), List.filter_cons]
      by_cases hk : a ≠ "" ∧ a ≠ "."
      · rw [push_name ⟨hk.1, hk.2, h a (List.mem_cons_self _ _)⟩]
        simp [hk.1, hk.2]
      · have ha : isAbsolute a = false ∧ components a = [] := by
          rcases not_and_or.1 hk with ha | ha <;> rw [not_not.1 ha] <;> decide
        have hf : (a != "" && a != ".") = false := by
          rcases not_and_or.1 hk with hk | hk <;> simp [not_not.1 hk]
        simp [push, ha.1, ha.2, hf]

/-- What `operation` and `update_content` make of a parent path `file_tree` reports, which they
split at `|` and push: for a directory below the root, reached by names a directory can hold
(not empty or `.`, no `/`), the pushed path walks down exactly those names when none holds a
`|`, and never when one does; the text `root` given for the root itself names a directory
`root` in it. -/
theorem pushPieces_dirPath (root : List String) :
    pushPieces root (dirPath []) = root ++ ["root"] ∧
      ∀ l : List String, l ≠ [] → (∀ s ∈ l, s ≠ "" ∧ s ≠ "." ∧ '/' ∉ s.data) →
        (pushPieces root (dirPath l) = root ++ l ↔ ∀ s ∈ l, '|' ∉ s.data) := by
  refine ⟨?_, fun l hl hn => ?_⟩
  · have hname : "root" ≠ "" ∧ "root" ≠ "." ∧ '/' ∉ "root".data := by decide
    rw [pushPieces, dirPath, if_pos rfl, show splitStr "root" '|' = ["root"] by decide]
    exact push_name hname root
  have hslash : ∀ s ∈ l.flatMap (splitStr · '|'), '/' ∉ s.data := fun s hs => by
    obtain ⟨a, ha, hs⟩ := List.mem_flatMap.1 hs
    exact fun h => (hn a ha).2.2 ((mem_splitStr hs).2 h)
  rw [dirPath, if_neg hl, pushPieces, splitStr_join hl, foldl_push_plain root hslash,
    List.append_cancel_left_eq]
  constructor
  · intro h s hs
    rw [← h] at hs
    obtain ⟨a, -, ha⟩ := List.mem_flatMap.1 (List.mem_of_mem_filter hs)
    exact (mem_splitStr ha).1
  · intro hb
    have hsplit : ∀ s ∈ l, splitStr s '|' = [s] := fun s hs => by
      simp [splitStr, splitChars_of_not_mem (hb s hs)]
    rw [List.flatMap_congr hsplit, List.flatMap_singleton']
    exact List.filter_eq_self.2 fun s hs => by simp [(hn s hs).1, (hn s hs).2.1]

/-- The directory `src|lib` of the tenant `demo`, and a directory named `a|b`. -/
example : pushPieces ["srv"] (dirPath ["src", "lib"]) = ["srv", "src", "lib"] ∧
    pushPieces ["srv"] (dirPath ["a|b"]) = ["srv", "a", "b"] := by decide

theorem dirPath_of_ne_nil {p : List String} (hp : p ≠ []) : dirPath p = join "|" p := if_neg hp

/-! ## The loop over a walk that skips nothing -/

section Loop

variable {root : List String} {code : String} {uuid : Nat → String}

theorem visit_of_skipped {st : TreeState} {v : WalkEntry}
    (h : endsWith (root ++ v.rel) code = true) : visit root code uuid st v = st := by
  simp [visit, h]

/-- A listed entry draws the next id, is entered in `path_map`, and gets its file. -/
theorem visit_of_listed {st : TreeState} {v : WalkEntry}
    (h : endsWith (root ++ v.rel) code = false) :
    visit root code uuid st v =
      ⟨st.pathMap.insert (join "|" v.rel) (uuid st.drawn), st.drawn + 1,
        st.result ++ [⟨uuid st.drawn, v.name, v.kind.typeName,
          (((st.pathMap.insert (join "|" v.rel) (uuid st.drawn)).lookup
            (dirPath v.rel.dropLast)).getD (dirPath v.rel.dropLast)),
          dirPath v.rel.dropLast, 0, v.kind.contents⟩]⟩ := by
  simp [visit, h]

mutual
/-- The loop over the walk of `e` from the directory at `pre`, when it skips nothing and no
entry is joined to the directory's parent path: it draws one id per entry, lists `entryFiles`
with the parent `path_map` holds for the directory, and changes `path_map` only at the keys
of the walk. -/
theorem foldl_walkEntry (pre : List String) : ∀ (e : Entry) (st : TreeState),
    (∀ v ∈ walkEntry pre e, endsWith (root ++ v.rel) code = false) →
    (∀ v ∈ walkEntry pre e, join "|" v.rel ≠ dirPath pre) →
    ∃ m : AList (fun _ : String => String),
      (walkEntry pre e).foldl (visit root code uuid) st =
        ⟨m, st.drawn + (walkEntry pre e).length, st.result ++
          entryFiles uuid pre ((st.pathMap.lookup (dirPath pre)).getD (dirPath pre)) st.drawn e⟩ ∧
      ∀ key, (∀ v ∈ walkEntry pre e, join "|" v.rel ≠ key) → m.lookup key = st.pathMap.lookup key
  | .file n c, st, hg, hk => by
      have hv : endsWith (root ++ (pre ++ [n])) code = false :=
        hg ⟨pre ++ [n], n, .file c⟩ (List.mem_singleton_self _)
      have hne : join "|" (pre ++ [n]) ≠ dirPath pre := hk _ (List.mem_singleton_self _)
      refine ⟨st.pathMap.insert (join "|" (pre ++ [n])) (uuid st.drawn), ?_,
        fun key hkey => AList.lookup_insert_ne (hkey _ (List.mem_singleton_self _)).symm⟩
      rw [walkEntry, List.foldl_cons, List.foldl_nil,
        @visit_of_listed _ _ _ st ⟨pre ++ [n], n, .file c⟩ hv, List.dropLast_concat,
        AList.lookup_insert_ne hne.symm]
      rfl
  | .dir n es, st, hg, hk => by
      have hv : endsWith (root ++ (pre ++ [n])) code = false :=
        hg ⟨pre ++ [n], n, .directory⟩ (List.mem_cons_self _ _)
      have hne : join "|" (pre ++ [n]) ≠ dirPath pre := hk _ (List.mem_cons_self _ _)
      have hk' : ∀ v ∈ walkEntries (pre ++ [n]) es, join "|" v.rel ≠ dirPath (pre ++ [n]) := by
        intro v hw
        obtain ⟨q, hq⟩ := walkEntries_shape _ es v hw
        rw [hq, List.append_assoc, dirPath_of_ne_nil (by simp)]
        exact join_append_ne (by simp) (by simp)
      obtain ⟨m, heq, hm⟩ := foldl_walkEntries (pre ++ [n]) es
        (visit root code uuid st ⟨pre ++ [n], n, .directory⟩)
        (fun v h => hg v (List.mem_cons_of_mem _ h)) hk'
      refine ⟨m, ?_, fun key hkey => ?_⟩
      · rw [walkEntry, List.foldl_cons, heq, @visit_of_listed _ _ _ st ⟨pre ++ [n], n, .directory⟩ hv]
        dsimp only
        rw [List.dropLast_concat, AList.lookup_insert_ne hne.symm,
          dirPath_of_ne_nil (by simp : pre ++ [n] ≠ []), AList.lookup_insert]
        simp only [Option.getD_some, List.length_cons, entryFiles, List.append_assoc,
          List.singleton_append, Kind.typeName, Kind.contents]
        congr 1
        omega
      · rw [hm key fun v h => hkey v (List.mem_cons_of_mem _ h),
          @visit_of_listed _ _ _ st ⟨pre ++ [n], n, .directory⟩ hv]
        exact AList.lookup_insert_ne (hkey _ (List.mem_cons_self _ _)).symm

/-- The loop over the walk of the entries `es` of the directory at `pre`: `entriesFiles`, as
for each entry in turn. -/
theorem foldl_walkEntries (pre : List String) : ∀ (es : List Entry) (st : TreeState),
    (∀ v ∈ walkEntries pre es, endsWith (root ++ v.rel) code = false) →
    (∀ v ∈ walkEntries pre es, join "|" v.rel ≠ dirPath pre) →
    ∃ m : AList (fun _ : String => String),
      (walkEntries pre es).foldl (visit root code uuid) st =
        ⟨m, st.drawn + (walkEntries pre es).length, st.result ++
          entriesFiles uuid pre ((st.pathMap.lookup (dirPath pre)).getD (dirPath pre)) st.drawn es⟩ ∧
      ∀ key, (∀ v ∈ walkEntries pre es, join "|" v.rel ≠ key) →
        m.lookup key = st.pathMap.lookup key
  | [], st, _, _ => ⟨st.pathMap, by simp [walkEntries, entriesFiles], fun _ _ => rfl⟩
  | e :: es, st, hg, hk => by
      simp only [walkEntries, List.mem_append] at hg hk ⊢
      obtain ⟨m₁, h₁, hm₁⟩ := foldl_walkEntry pre e st (fun v h => hg v (.inl h))
        (fun v h => hk v (.inl h))
      obtain ⟨m₂, h₂, hm₂⟩ := foldl_walkEntries pre es ((walkEntry pre e).foldl (visit root code uuid) st)
        (fun v h => hg v (.inr h)) (fun v h => hk v (.inr h))
      rw [h₁] at h₂ hm₂
      refine ⟨m₂, ?_, fun key hkey => (hm₂ key fun v h => hkey v (.inr h)).trans
        (hm₁ key fun v h => hkey v (.inl h))⟩
      rw [List.foldl_append, h₁, h₂]
      dsimp only
      rw [hm₁ _ fun v h => hk v (.inl h)]
      simp only [entriesFiles, List.length_append, Nat.add_assoc, List.append_assoc]
end

end Loop

/-! ## The files describe the tree -/

mutual
theorem length_entryFiles (uuid : Nat → String) (pre : List String) :
    ∀ (parent : String) (k : Nat) (e : Entry),
      (entryFiles uuid pre parent k e).length = (walkEntry pre e).length
  | _, _, .file _ _ => rfl
  | _, _, .dir n es => by
      simp only [entryFiles, walkEntry, List.length_cons, length_entriesFiles uuid (pre ++ [n])]

theorem length_entriesFiles (uuid : Nat → String) (pre : List String) :
    ∀ (parent : String) (k : Nat) (es : List Entry),
      (entriesFiles uuid pre parent k es).length = (walkEntries pre es).length
  | _, _, [] => rfl
  | _, _, e :: es => by
      simp only [entriesFiles, walkEntries, List.length_append, length_entryFiles uuid pre,
        length_entriesFiles uuid pre]
end

/-- The file of an entry of the directory at `pre`, whose own file has id `parent`. -/
theorem describes_entry {P : List ((List String × Kind) × CodeFile)} {pre : List String}
    {parent n id : String} (k : Kind) (hroot : pre = [] → parent = "root")
    (hpar : pre ≠ [] → ∃ q ∈ P, q.1.1 = pre ∧ parent = q.2.id) :
    Describes P (pre ++ [n], k) ⟨id, n, k.typeName, parent, dirPath pre, 0, k.contents⟩ := by
  refine ⟨List.getLast?_concat pre, rfl, rfl, fun h => ?_, fun h => ?_⟩
  · have hp : pre = [] := by simpa using h
    exact ⟨if_pos hp, hroot hp⟩
  · have hp : pre ≠ [] := by rintro rfl; simp at h
    simpa only [List.dropLast_concat, dirPath_of_ne_nil hp, true_and] using hpar hp

mutual
/-- Paired in walk order, the files of `e` describe the entries they stand for, given that the
directory's own file is among the pairs `P`. -/
theorem describes_entryFiles (P : List ((List String × Kind) × CodeFile)) (uuid : Nat → String)
    (pre : List String) : ∀ (parent : String) (k : Nat) (e : Entry),
    (pre = [] → parent = "root") → (pre ≠ [] → ∃ q ∈ P, q.1.1 = pre ∧ parent = q.2.id) →
    ((walkEntry pre e).map (fun v => (v.rel, v.kind))).zip (entryFiles uuid pre parent k e) ⊆ P →
    ∀ x ∈ ((walkEntry pre e).map (fun v => (v.rel, v.kind))).zip (entryFiles uuid pre parent k e),
      Describes P x.1 x.2
  | _, _, .file n c, hroot, hpar, _, x, hx => by
      simp only [walkEntry, entryFiles, List.map_cons, List.map_nil, List.zip_cons_cons,
        List.zip_nil_right, List.mem_singleton] at hx
      exact hx ▸ describes_entry (.file c) hroot hpar
  | _, k, .dir n es, hroot, hpar, hsub, x, hx => by
      simp only [walkEntry, entryFiles, List.map_cons, List.zip_cons_cons, List.mem_cons] at hx hsub
      rcases hx with rfl | hx
      · exact describes_entry .directory hroot hpar
      · exact describes_entriesFiles P uuid (pre ++ [n]) (uuid k) (k + 1) es (by simp)
          (fun _ => ⟨_, hsub (List.mem_cons_self _ _), rfl, rfl⟩)
          (fun y hy => hsub (List.mem_cons_of_mem _ hy)) x hx

/-- Paired in walk order, the files of the entries `es` describe the entries they stand for. -/
theorem describes_entriesFiles (P : List ((List String × Kind) × CodeFile)) (uuid : Nat → String)
    (pre : List String) : ∀ (parent : String) (k : Nat) (es : List Entry),
    (pre = [] → parent = "root") → (pre ≠ [] → ∃ q ∈ P, q.1.1 = pre ∧ parent = q.2.id) →
    ((walkEntries pre es).map (fun v => (v.rel, v.kind))).zip (entriesFiles uuid pre parent k es) ⊆ P →
    ∀ x ∈ ((walkEntries pre es).map (fun v => (v.rel, v.kind))).zip
      (entriesFiles uuid pre parent k es), Describes P x.1 x.2
  | _, _, [], _, _, _, x, hx => by simp [walkEntries] at hx
  | parent, k, e :: es, hroot, hpar, hsub, x, hx => by
      simp only [walkEntries, entriesFiles, List.map_append] at hx hsub
      rw [List.zip_append (by simp [length_entryFiles])] at hx hsub
      rcases List.mem_append.1 hx with hx | hx
      · exact describes_entryFiles P uuid pre parent k e hroot hpar
          (fun y hy => hsub (List.mem_append_left _ hy)) x hx
      · exact describes_entriesFiles P uuid pre parent _ es hroot hpar
          (fun y hy => hsub (List.mem_append_right _ hy)) x hx
end

/-- With distinct names in every directory, the files of the tree list it. -/
theorem listsTree_entriesFiles (uuid : Nat → String) {es : List Entry}
    (hd : entriesDistinct es = true) : ListsTree es (entriesFiles uuid [] "root" 0 es) := by
  refine ⟨(walkEntries [] es).map (fun v => (v.rel, v.kind)), ?_, fun r k => ?_, ?_,
    describes_entriesFiles _ uuid [] "root" 0 es (fun _ => rfl) (fun h => absurd rfl h)
      (fun _ h => h)⟩
  · simpa [List.map_map, Function.comp_def] using nodup_walkEntries [] es hd
  · simpa [List.mem_map] using exists_walkEntries_iff [] es r k
  · simp [length_entriesFiles]

/-! ## `file_tree` lists the tree -/

section Handler

variable {cwd : List String} {uuid : Nat → String} {req : HttpRequest} {code : String}

/-- When the guard skips the root and nothing below it, and no entry of the root is joined to
`root`, the loop lists the files of the tree. -/
theorem fileTree_eq_entriesFiles {es : List Entry} (hc : productCode req = some (some code))
    (hroot : endsWith (tenantRoot cwd code) code = true)
    (hguard : ∀ v ∈ walkEntries [] es, endsWith (tenantRoot cwd code ++ v.rel) code = false)
    (hsentinel : ∀ v ∈ walkEntries [] es, join "|" v.rel ≠ "root") :
    fileTree cwd uuid req es = .files 0 (entriesFiles uuid [] "root" 0 es) := by
  have hk : ∀ v ∈ walkEntries [] es, join "|" v.rel ≠ dirPath [] := by
    simpa [dirPath] using hsentinel
  obtain ⟨m, h, -⟩ := @foldl_walkEntries (tenantRoot cwd code) code uuid [] es ⟨∅, 0, []⟩ hguard hk
  have hskip : endsWith (tenantRoot cwd code ++ ([] : List String)) code = true := by
    rwa [List.append_nil]
  simp only [fileTree, hc, walkDir, List.foldl_cons,
    @visit_of_skipped _ _ uuid _ ⟨[], rootName (tenantRoot cwd code), .directory⟩ hskip, h]
  simp [dirPath]

/-- For every directory tree at `<cwd>/code/<product_code>` whose root the guard skips, in which
the guard skips no entry and no entry of the root is named `root`, `file_tree` returns one file
for each entry strictly below the root, with its name and kind; the parent path and parent of
an entry of the root are `root`, and those of any other entry are its directory's path joined
with `|` and the id of its directory's file. -/
theorem file_tree_lists_below (t : DirTree) (hc : productCode req = some (some code))
    (hroot : endsWith (tenantRoot cwd code) code = true)
    (hguard : ∀ r k, Below t.entries r k → endsWith (tenantRoot cwd code ++ r) code = false)
    (hsentinel : ∀ k, ¬ Below t.entries ["root"] k) :
    ∃ files, fileTree cwd uuid req t.entries = .files 0 files ∧ ListsTree t.entries files := by
  refine ⟨_, fileTree_eq_entriesFiles hc hroot
    (fun v hv => hguard _ _ (below_of_mem_walkEntries hv)) (fun v hv => ?_),
    listsTree_entriesFiles uuid t.distinct⟩
  obtain ⟨q, hq⟩ := walkEntries_shape [] t.entries v hv
  rcases q with _ | ⟨a, q⟩
  · have hb := below_of_mem_walkEntries hv
    simp only [List.nil_append] at hq
    rw [hq] at hb ⊢
    intro h
    have hn : v.name = "root" := h
    rw [hn] at hb
    exact hsentinel _ hb
  · exact hq ▸ join_ne_root (by simp)

/-- The tenant `demo` with a source directory and a readme at the top. -/
theorem file_tree_lists_demo :
    let req : HttpRequest := ⟨[("product_code", "demo".toList.map (·.toNat.toUInt8))], "/", none⟩
    let t : DirTree :=
      ⟨[.dir "src" [.file "app.ts" "x", .dir "lib" []], .file "README" "r"], by decide⟩
    ∃ files, fileTree ["srv"] (fun k => ["u0", "u1", "u2", "u3"].getD k "") req t.entries =
      .files 0 files ∧ ListsTree t.entries files := by
  intro req t
  have hguard : ∀ v ∈ walkEntries [] t.entries,
      endsWith (tenantRoot ["srv"] "demo" ++ v.rel) "demo" = false := by decide
  have hsentinel : ∀ v ∈ walkEntries [] t.entries, v.rel ≠ ["root"] := by decide
  have hc : productCode req = some (some "demo") := by decide
  have hroot : endsWith (tenantRoot ["srv"] "demo") "demo" = true := by decide
  refine file_tree_lists_below t hc hroot (fun r k hb => ?_) (fun k hb => ?_)
  · obtain ⟨v, hv, rfl, -⟩ := (exists_walkEntries_iff [] t.entries r k).2 ⟨r, rfl, hb⟩
    exact hguard v hv
  · obtain ⟨v, hv, hr, -⟩ := (exists_walkEntries_iff [] t.entries _ k).2 ⟨_, rfl, hb⟩
    exact hsentinel v hv hr

end Handler

end Code
end CassieCool
