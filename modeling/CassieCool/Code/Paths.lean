import CassieCool.Proxy

/-!
# Paths — where the code controller reads and writes

`get_code`, `operation` and `update_content` start from `current_dir()`, push `code` and the
text of the `product_code` header, then push every piece of a `|`-separated string of the
request, and last a name from the request body.  `PathBuf::push` appends a relative piece but
*replaces* the path with an absolute one, and it keeps `..` components, which the kernel
resolves by going up.

A path is modelled by its components (`Path::components`); `resolve` is the kernel's walk of
them from `/` when no component is a symbolic link.  A piece keeps the path below the tenant's
directory exactly when it is not absolute and has no `..` component (`Inside.push`).
-/

namespace CassieCool
namespace Code

/-! ## Paths -/

/-- `str::split(sep)` over the characters: the pieces between the occurrences of `sep`, empty
ones included. -/
def splitChars (sep : Char) : List Char → List (List Char)
  | [] => [[]]
  | c :: cs =>
      if c = sep then [] :: splitChars sep cs
      else
        match splitChars sep cs with
        | [] => [[c]]
        | p :: ps => (c :: p) :: ps

/-- `s.split(sep)`. -/
def splitStr (s : String) (sep : Char) : List String := (splitChars sep s.data).map String.mk

/-- `Path::is_absolute` on Unix: a leading `/`. -/
def isAbsolute (s : String) : Bool := s.data.head? == some '/'

/-- `Path::components` of a piece, less its root: the parts between `/`, without empty parts
and `.`; `..` stays. -/
def components (s : String) : List String :=
  (splitStr s '/').filter fun c => c != "" && c != "."

/-- `PathBuf::push`: an absolute piece replaces the path, any other is appended. -/
def push (path : List String) (piece : String) : List String :=
  if isAbsolute piece then components piece else path ++ components piece

/-- `pieces.split("|").for_each(|item| path.push(item))`. -/
def pushPieces (path : List String) (pieces : String) : List String :=
  (splitStr pieces '|').foldl push path

/-- `current_dir()` with `code` and the header's text pushed: `<cwd>/code/<product_code>`. -/
def tenantRoot (cwd : List String) (productCode : String) : List String :=
  push (push cwd "code") productCode

/-- The entry the kernel reaches by walking the components from `/`: `..` goes up one level,
and stays at `/`. -/
def resolve (path : List String) : List String :=
  path.foldl (fun acc c => if c = ".." then acc.dropLast else acc ++ [c]) []

/-- `path` names `root` or an entry below it. -/
def Inside (root path : List String) : Prop := resolve root <+: resolve path

instance (root path : List String) : Decidable (Inside root path) :=
  inferInstanceAs (Decidable (_ <+: _))

/-- A piece that `push` keeps below the path: not absolute, and no `..` component. -/
def SafePiece (s : String) : Prop := isAbsolute s = false ∧ ".." ∉ components s

instance (s : String) : Decidable (SafePiece s) := inferInstanceAs (Decidable (_ ∧ _))

theorem safePiece_empty : SafePiece "" := by decide

theorem foldl_resolve_of_not_mem {cs : List String} (h : ".." ∉ cs) (acc : List String) :
    cs.foldl (fun acc c => if c = ".." then acc.dropLast else acc ++ [c]) acc = acc ++ cs := by
  induction cs generalizing acc with
  | nil => simp
  | cons c cs ih =>
      have hc : c ≠ ".." := fun hc => h (hc ▸ List.mem_cons_self _ _)
      rw [List.foldl_cons, if_neg hc, ih (fun hm => h (List.mem_cons_of_mem _ hm))]
      simp

/-- Components without `..` are walked down one by one. -/
theorem resolve_append {path cs : List String} (h : ".." ∉ cs) :
    resolve (path ++ cs) = resolve path ++ cs := by
  unfold resolve
  rw [List.foldl_append, foldl_resolve_of_not_mem h]

variable {root path : List String}

theorem Inside.refl (root : List String) : Inside root root := List.prefix_refl _

theorem Inside.push (h : Inside root path) {s : String} (hs : SafePiece s) :
    Inside root (push path s) := by
  unfold Code.push Inside at *
  rw [if_neg (by simp [hs.1]), resolve_append hs.2]
  exact h.trans (List.prefix_append _ _)

theorem Inside.foldl_push (h : Inside root path) {l : List String}
    (hs : ∀ s ∈ l, SafePiece s) : Inside root (l.foldl Code.push path) := by
  induction l generalizing path with
  | nil => exact h
  | cons s l ih =>
      exact ih (h.push (hs s (List.mem_cons_self _ _))) fun t ht => hs t (List.mem_cons_of_mem _ ht)

theorem Inside.pushPieces (h : Inside root path) {pieces : String}
    (hs : ∀ s ∈ splitStr pieces '|', SafePiece s) : Inside root (pushPieces path pieces) :=
  h.foldl_push hs

theorem splitChars_of_not_mem {sep : Char} {w : List Char} (hw : sep ∉ w) :
    splitChars sep w = [w] := by
  induction w with
  | nil => rfl
  | cons c w ih =>
      have hc : c ≠ sep := fun h => hw (h ▸ List.mem_cons_self _ _)
      rw [splitChars, if_neg hc, ih fun h => hw (List.mem_cons_of_mem _ h)]

/-- A name with no `/` that is not empty or `.` is pushed as one component. -/
theorem push_name {s : String} (hs : s ≠ "" ∧ s ≠ "." ∧ '/' ∉ s.data) (path : List String) :
    push path s = path ++ [s] := by
  have habs : isAbsolute s = false := by
    rcases hd : s.data with _ | ⟨c, cs⟩
    · simp [isAbsolute, hd]
    · have hc : c ≠ '/' := fun h => hs.2.2 (hd ▸ h ▸ List.mem_cons_self _ _)
      simp [isAbsolute, hd, hc]
  have hcomp : components s = [s] := by
    simp [components, splitStr, splitChars_of_not_mem hs.2.2, hs.1, hs.2.1]
  rw [push, habs, hcomp]
  rfl

/-! ## The handlers -/

/-- What is at a path: nothing, a directory, or a file with its text when it is UTF-8. -/
inductive FsEntry
  | missing
  | dir
  | file (text : Option String)
  deriving DecidableEq, Repr

/-- A filesystem call of a handler. -/
inductive FsOp
  /-- `File::open`, then `read_to_string`. -/
  | read (path : List String)
  /-- `MergeableFileSystemTree::from(dir! { name => file!(contents) })`, or `dir! {}` for
  `none`, then `.build(base)`: it makes `base` and `base/name`. -/
  | build (base : List String) (name : String) (contents : Option String)
  | removeFile (path : List String)
  | removeDirAll (path : List String)
  | rename (src dst : List String)
  deriving DecidableEq, Repr

/-- The paths a filesystem call reads, makes, removes or renames. -/
def FsOp.paths : FsOp → List (List String)
  | .read p => [p]
  | .build base name _ => [base, push base name]
  | .removeFile p => [p]
  | .removeDirAll p => [p]
  | .rename src dst => [src, dst]

/-- How a handler ends: `Res { code, data }`, or a panic. -/
inductive CodeReply
  | res (code : Int) (data : String)
  | panic
  deriving DecidableEq, Repr

/-- The header's text as the handlers read it, `get("product_code")` and
`to_str().unwrap()`: `none` without the header, `some none` for the panic. -/
def productCode (req : HttpRequest) : Option (Option String) :=
  (List.lookup "product_code" req.headers).map headerToStr

/-- `get_code` (`GET /code/{id}/get`): open and read `<cwd>/code/<product_code>` with the
pieces of the path segment pushed.  `fs` tells what is at a path. -/
def getCode (cwd : List String) (fs : List String → FsEntry) (req : HttpRequest)
    (path : String) : CodeReply × List FsOp :=
  match productCode req with
  | none => (.res 0 "product_code not found", [])
  | some none => (.panic, [])
  | some (some code) =>
      let file := pushPieces (tenantRoot cwd code) path
      (match fs file with
        | .missing => .res 0 "失敗了"
        | .file (some text) => .res 0 text
        | .file none | .dir => .panic,
       [.read file])

/-- `OpFile`, the body of `operation`. -/
structure OpFile where
  id : String
  bname : Option String
  cname : Option String
  parentPath : String
  type : String
  deriving DecidableEq, Repr

/-- The `file_table` shared by the workers of the server: the ids of entries created without a
name, and whether its mutex is poisoned. -/
structure FileTable where
  ids : List String
  poisoned : Bool
  deriving DecidableEq, Repr

/-- `operation` (`POST /code/file/{op}/operation`): on `<cwd>/code/<product_code>` with the
pieces of `parent_path` pushed, `create`, `delete` or `rename` the entry `cname`, a file when
`type` is `file`.  `info.bname.unwrap()` panics while the `file_table` guard is held. -/
def operation (cwd : List String) (req : HttpRequest) (action : String) (info : OpFile)
    (table : FileTable) : CodeReply × List FsOp × FileTable :=
  match productCode req with
  | none => (.res 0 "product_code not found", [], table)
  | some none => (.panic, [], table)
  | some (some code) =>
      let base := pushPieces (tenantRoot cwd code) info.parentPath
      let cname := info.cname.getD ""
      let isfile := info.type == "file"
      let entry : Option String := if isfile then some "" else none
      let done : CodeReply := .res 0 "更新成功"
      if table.poisoned then (.panic, [], table)
      else if action = "create" then
        if cname.isEmpty then (done, [], { table with ids := table.ids.insert info.id })
        else (done, [.build base cname entry], table)
      else if action = "delete" then
        (done, [if isfile then .removeFile (push base cname) else .removeDirAll (push base cname)],
          table)
      else if action = "rename" then
        if info.id ∈ table.ids then
          (done, [.build base cname entry], { table with ids := table.ids.erase info.id })
        else
          match info.bname with
          | none => (.panic, [], { table with poisoned := true })
          | some bname => (done, [.rename (push base bname) (push base cname)], table)
      else (done, [], table)

/-- `CodeFile`, the body of `update_content` and the entries `file_tree` returns. -/
structure CodeFile where
  id : String
  name : String
  type : String
  parent : String
  parentPath : String
  createdAt : Nat
  contents : Option String
  deriving DecidableEq, Repr

/-- `update_content` (`POST /code/update_content`): build the entry `name` (a file with
`contents` when `type` is `file`, else a directory) on `<cwd>/code/<product_code>` with the
pieces of `parent_path` pushed; `built` is what `.build` returns. -/
def updateContent (cwd : List String) (req : HttpRequest) (info : CodeFile)
    (built : Except String Unit) : CodeReply × List FsOp :=
  match productCode req with
  | none => (.res 0 "product_code not found", [])
  | some none => (.panic, [])
  | some (some code) =>
      let base := pushPieces (tenantRoot cwd code) info.parentPath
      (match built with
        | .ok _ => .res 0 "更新成功"
        | .error err => .res (-1) err,
       [.build base info.name (if info.type = "file" then some (info.contents.getD "") else none)])

/-! ## Confinement -/

/-- Every path the calls touch lies inside `root`. -/
def OpsInside (root : List String) (ops : List FsOp) : Prop :=
  ∀ op ∈ ops, ∀ p ∈ op.paths, Inside root p

theorem opsInside_build (h : Inside root path) {name : String} (hs : SafePiece name)
    (c : Option String) : OpsInside root [.build path name c] := by
  simp only [OpsInside, List.mem_singleton, forall_eq, FsOp.paths, List.mem_cons,
    List.not_mem_nil, or_false, forall_eq_or_imp]
  exact ⟨h, h.push hs⟩

variable {cwd : List String} {req : HttpRequest} {code : String}

/-- The paths `operation` touches: its base, the base with `cname` pushed, or the base with
`bname` pushed. -/
theorem operation_paths (hc : productCode req = some (some code)) {action : String}
    {info : OpFile} {table : FileTable} :
    ∀ op ∈ (operation cwd req action info table).2.1, ∀ p ∈ op.paths,
      p = pushPieces (tenantRoot cwd code) info.parentPath ∨
      p = push (pushPieces (tenantRoot cwd code) info.parentPath) (info.cname.getD "") ∨
      ∃ b, info.bname = some b ∧ p = push (pushPieces (tenantRoot cwd code) info.parentPath) b := by
  unfold operation
  rw [hc]
  dsimp only
  by_cases h0 : table.poisoned = true
  · simp [h0]
  rw [if_neg h0]
  by_cases h1 : action = "create"
  · rw [if_pos h1]
    by_cases he : (info.cname.getD "").isEmpty = true <;> simp [he, FsOp.paths]
  rw [if_neg h1]
  by_cases h2 : action = "delete"
  · rw [if_pos h2]
    split <;> simp [FsOp.paths]
  rw [if_neg h2]
  by_cases h3 : action = "rename"
  · rw [if_pos h3]
    by_cases hi : info.id ∈ table.ids
    · simp [hi, FsOp.paths]
    · rw [if_neg hi]
      cases info.bname <;> simp [FsOp.paths]
  · simp [h3]

/-- When no piece of the `|`-separated path strings and no name of the body is absolute or has
a `..` component, every path the three handlers touch lies inside the tenant root, whatever the
header's text. -/
theorem ops_inside_tenantRoot (hc : productCode req = some (some code)) :
    (∀ fs path, (∀ s ∈ splitStr path '|', SafePiece s) →
      OpsInside (tenantRoot cwd code) (getCode cwd fs req path).2) ∧
    (∀ action info table, (∀ s ∈ splitStr info.parentPath '|', SafePiece s) →
      (∀ s ∈ info.cname, SafePiece s) → (∀ s ∈ info.bname, SafePiece s) →
      OpsInside (tenantRoot cwd code) (operation cwd req action info table).2.1) ∧
    (∀ info built, (∀ s ∈ splitStr info.parentPath '|', SafePiece s) → SafePiece info.name →
      OpsInside (tenantRoot cwd code) (updateContent cwd req info built).2) := by
  refine ⟨fun fs path hs => ?_, fun action info table hs hcn hbn => ?_, fun info built hs hn => ?_⟩
  · simp only [getCode, hc, OpsInside, List.mem_singleton, forall_eq, FsOp.paths]
    exact (Inside.refl _).pushPieces hs
  · have h := (Inside.refl (tenantRoot cwd code)).pushPieces hs
    have hcn' : SafePiece (info.cname.getD "") := by
      cases hcv : info.cname with
      | none => exact safePiece_empty
      | some c => exact hcn c (by simp [hcv])
    intro op hop p hp
    rcases operation_paths hc op hop p hp with rfl | rfl | ⟨b, hb, rfl⟩
    · exact h
    · exact h.push hcn'
    · exact h.push (hbn b (by simp [hb]))
  · simp only [updateContent, hc]
    exact opsInside_build ((Inside.refl _).pushPieces hs) hn _

/-- A header that reads as one name (not empty or `.`, no `/`) is pushed as one component: the
tenant root is `<cwd>/code/<product_code>`. -/
theorem tenantRoot_of_name (hn : code ≠ "" ∧ code ≠ "." ∧ '/' ∉ code.data) :
    tenantRoot cwd code = cwd ++ ["code", code] := by
  have hcode : "code" ≠ "" ∧ "code" ≠ "." ∧ '/' ∉ "code".data := by decide
  rw [tenantRoot, push_name hn, push_name hcode, List.append_assoc]
  rfl

/-- For a header that reads as one name, when no piece of the `|`-separated path strings and no
name of the body is absolute or has a `..` component, every path `get_code` reads, `operation`
makes, removes or renames and `update_content` builds lies inside `<cwd>/code/<product_code>`. -/
theorem code_paths_confined (hc : productCode req = some (some code))
    (hn : code ≠ "" ∧ code ≠ "." ∧ '/' ∉ code.data) :
    (∀ fs path, (∀ s ∈ splitStr path '|', SafePiece s) →
      OpsInside (cwd ++ ["code", code]) (getCode cwd fs req path).2) ∧
    (∀ action info table, (∀ s ∈ splitStr info.parentPath '|', SafePiece s) →
      (∀ s ∈ info.cname, SafePiece s) → (∀ s ∈ info.bname, SafePiece s) →
      OpsInside (cwd ++ ["code", code]) (operation cwd req action info table).2.1) ∧
    (∀ info built, (∀ s ∈ splitStr info.parentPath '|', SafePiece s) → SafePiece info.name →
      OpsInside (cwd ++ ["code", code]) (updateContent cwd req info built).2) := by
  rw [← tenantRoot_of_name hn]
  exact ops_inside_tenantRoot hc

/-- The tenant `demo`, with `/srv` as working directory. -/
theorem code_paths_confined_demo :
    let req : HttpRequest := ⟨[("product_code", "demo".toList.map (·.toNat.toUInt8))], "/", none⟩
    productCode req = some (some "demo") ∧ ("demo" ≠ "" ∧ "demo" ≠ "." ∧ '/' ∉ "demo".data) ∧
    ((∀ fs path, (∀ s ∈ splitStr path '|', SafePiece s) →
      OpsInside ["srv", "code", "demo"] (getCode ["srv"] fs req path).2) ∧
    (∀ action info table, (∀ s ∈ splitStr info.parentPath '|', SafePiece s) →
      (∀ s ∈ info.cname, SafePiece s) → (∀ s ∈ info.bname, SafePiece s) →
      OpsInside ["srv", "code", "demo"] (operation ["srv"] req action info table).2.1) ∧
    (∀ info built, (∀ s ∈ splitStr info.parentPath '|', SafePiece s) → SafePiece info.name →
      OpsInside ["srv", "code", "demo"] (updateContent ["srv"] req info built).2)) := by
  intro req
  have hc : productCode req = some (some "demo") := by decide
  have hn : "demo" ≠ "" ∧ "demo" ≠ "." ∧ '/' ∉ "demo".data := by decide
  exact ⟨hc, hn, code_paths_confined hc hn⟩

/-- A tenant's `get_code` with the path `..|other|app.ts` reads another tenant's file, and with
`/etc/passwd` reads that file; with the header `/etc` instead of a name, the path `passwd` reads
`/etc/passwd`. -/
theorem get_code_escapes_tenant :
    let req : HttpRequest := ⟨[("product_code", "demo".toList.map (·.toNat.toUInt8))], "/", none⟩
    let etc : HttpRequest := ⟨[("product_code", "/etc".toList.map (·.toNat.toUInt8))], "/", none⟩
    (getCode ["srv"] (fun _ => .missing) req "..|other|app.ts").2 =
        [.read ["srv", "code", "demo", "..", "other", "app.ts"]] ∧
      ¬ Inside ["srv", "code", "demo"] ["srv", "code", "demo", "..", "other", "app.ts"] ∧
      (getCode ["srv"] (fun _ => .missing) req "/etc/passwd").2 = [.read ["etc", "passwd"]] ∧
      ¬ Inside ["srv", "code", "demo"] ["etc", "passwd"] ∧
      (getCode ["srv"] (fun _ => .missing) etc "passwd").2 = [.read ["etc", "passwd"]] ∧
      ¬ Inside ["srv", "code", "etc"] ["etc", "passwd"] := by
  decide

end Code
end CassieCool
