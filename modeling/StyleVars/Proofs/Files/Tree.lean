import Mathlib.Data.List.DropRight
import Mathlib.Tactic.SplitIfs
import StyleVars.Files.Tree
import StyleVars.Proofs.Dictionary
import StyleVars.Proofs.Files.Laws
import StyleVars.Proofs.Result

/-!
The tree of files in memory keeps the laws of file systems. A file is told by the names that lead
to it from the root. When a file is written, each directory stays a directory and keeps its entries,
so the path that was followed to the file can be followed again.
-/

namespace StyleVars

namespace Node

/-- What a file holds. -/
def content? : Node → Option Utf8.Bytes
  | file content => some content
  | directory _ => none

@[simp] lemma at?_nil (node : Node) : node.at? [] = some node := by
  cases node <;> rfl

@[simp] lemma at?_file_cons (content : Utf8.Bytes) (name : Utf8.Bytes) (names : List Utf8.Bytes) :
    (file content).at? (name :: names) = none := rfl

lemma at?_directory_cons (es : List (Utf8.Bytes × Node)) (name : Utf8.Bytes)
    (names : List Utf8.Bytes) :
    (directory es).at? (name :: names) = (Dictionary.find? name es).bind (·.at? names) := by
  rw [at?]
  cases Dictionary.find? name es <;> rfl

lemma at?_append (node : Node) (names rest : List Utf8.Bytes) :
    node.at? (names ++ rest) = (node.at? names).bind (·.at? rest) := by
  induction names generalizing node with
  | nil => simp
  | cons name names ih =>
    cases node with
    | file content => rfl
    | directory es =>
      rw [List.cons_append, at?_directory_cons, at?_directory_cons]
      cases Dictionary.find? name es with
      | none => rfl
      | some child => exact ih child

/-- The tree with a file under a name in the directory to which the names `up` lead. -/
def put (content : Utf8.Bytes) (up : List Utf8.Bytes) (last : Utf8.Bytes) (node : Node) : Node :=
  node.update (fun _ => some (file content)) (up ++ [last])

variable (content : Utf8.Bytes) {up : List Utf8.Bytes} {last : Utf8.Bytes}
  {es : List (Utf8.Bytes × Node)}

lemma put_nil (last : Utf8.Bytes) (es : List (Utf8.Bytes × Node)) :
    (directory es).put content [] last = directory (Dictionary.insert last (file content) es) := rfl

lemma put_cons {name : Utf8.Bytes} {child : Node} (up : List Utf8.Bytes) (last : Utf8.Bytes)
    (h : Dictionary.find? name es = some child) :
    (directory es).put content (name :: up) last =
      directory (Dictionary.insert name (child.put content up last) es) := by
  rw [put, List.cons_append, update, h]
  · rfl
  · simp

/-! ### Writing one file -/

lemma at?_put_nil_cons (last name : Utf8.Bytes) (names : List Utf8.Bytes) :
    ((directory es).put content [] last).at? (name :: names) =
      if name = last then (file content).at? names else (directory es).at? (name :: names) := by
  rw [put_nil, at?_directory_cons, at?_directory_cons, Dictionary.find?_insert]
  split <;> rfl

lemma at?_put_cons_cons {first : Utf8.Bytes} {child : Node}
    (h : Dictionary.find? first es = some child) (last name : Utf8.Bytes)
    (names : List Utf8.Bytes) :
    ((directory es).put content (first :: up) last).at? (name :: names) =
      if name = first then (child.put content up last).at? names
      else (directory es).at? (name :: names) := by
  rw [put_cons content up last h, at?_directory_cons, at?_directory_cons, Dictionary.find?_insert]
  split <;> rfl

/-- Along `up` there are directories only. -/
lemma exists_child {node : Node} {first : Utf8.Bytes}
    (h : node.at? (first :: up) = some (directory es)) :
    ∃ fs child, node = directory fs ∧ Dictionary.find? first fs = some child ∧
      child.at? up = some (directory es) := by
  cases node with
  | file content => cases h
  | directory fs =>
    rw [at?_directory_cons] at h
    obtain ⟨child, hchild, hup⟩ := Option.bind_eq_some_iff.mp h
    exact ⟨fs, child, rfl, hchild, hup⟩

lemma at?_put_self {node : Node} (h : node.at? up = some (directory es)) (last : Utf8.Bytes) :
    (node.put content up last).at? (up ++ [last]) = some (file content) := by
  induction up generalizing node with
  | nil =>
    rw [at?_nil, Option.some.injEq] at h
    rw [h, List.nil_append, at?_put_nil_cons, if_pos rfl, at?_nil]
  | cons first up ih =>
    obtain ⟨fs, child, rfl, hchild, hup⟩ := exists_child h
    rw [List.cons_append, at?_put_cons_cons content hchild, if_pos rfl]
    exact ih hup

/-- Nothing lies under the name of a file or under one that is not there. -/
lemma at?_below (hlast : ∀ fs, Dictionary.find? last es ≠ some (directory fs)) (name : Utf8.Bytes)
    (names : List Utf8.Bytes) : (directory es).at? (last :: name :: names) = none := by
  rw [at?_directory_cons]
  cases hold : Dictionary.find? last es with
  | none => rfl
  | some old =>
    cases old with
    | file _ => rfl
    | directory fs => exact absurd hold (hlast fs)

/-- All other files hold what they did, if no directory was under the name. -/
lemma content?_put_of_ne {node : Node} (h : node.at? up = some (directory es))
    (hlast : ∀ fs, Dictionary.find? last es ≠ some (directory fs)) {names : List Utf8.Bytes}
    (hne : names ≠ up ++ [last]) :
    ((node.put content up last).at? names).bind Node.content? =
      (node.at? names).bind Node.content? := by
  induction up generalizing node names with
  | nil =>
    rw [at?_nil, Option.some.injEq] at h
    subst h
    cases names with
    | nil => rfl
    | cons name names =>
      rw [at?_put_nil_cons]
      split
      · next hname =>
        subst hname
        -- the file itself is excluded, and under it there is nothing before and behind the edit
        cases names with
        | nil => exact absurd rfl hne
        | cons below names => rw [at?_file_cons, at?_below hlast]
      · rfl
  | cons first up ih =>
    obtain ⟨fs, child, rfl, hchild, hup⟩ := exists_child h
    cases names with
    | nil =>
      rw [put_cons content up last hchild]
      rfl
    | cons name names =>
      rw [at?_put_cons_cons content hchild]
      split
      · next hname =>
        subst hname
        rw [at?_directory_cons, hchild, Option.bind_some]
        exact ih hup fun hnames => hne (by rw [hnames, List.cons_append])
      · rfl

/-- Every directory stays one and keeps its entries. -/
lemma directory_put {node : Node} (h : node.at? up = some (directory es))
    (hlast : ∀ fs, Dictionary.find? last es ≠ some (directory fs)) {names : List Utf8.Bytes}
    {old : List (Utf8.Bytes × Node)} (hold : node.at? names = some (directory old)) :
    ∃ new, (node.put content up last).at? names = some (directory new) ∧
      ∀ name, (Dictionary.find? name old).isSome → (Dictionary.find? name new).isSome := by
  induction up generalizing node names with
  | nil =>
    rw [at?_nil, Option.some.injEq] at h
    subst h
    cases names with
    | nil =>
      cases hold
      exact ⟨_, at?_nil _, fun _ hmem => Dictionary.isSome_find?_insert hmem last _⟩
    | cons name names =>
      have hname : name ≠ last := by
        rintro rfl
        cases names with
        | nil =>
          rw [at?_directory_cons] at hold
          obtain ⟨_, hfind, hdir⟩ := Option.bind_eq_some_iff.mp hold
          rw [at?_nil] at hdir
          exact hlast old (hfind.trans hdir)
        | cons below names =>
          rw [at?_below hlast] at hold
          cases hold
      rw [at?_put_nil_cons, if_neg hname]
      exact ⟨old, hold, fun _ hmem => hmem⟩
  | cons first up ih =>
    obtain ⟨fs, child, rfl, hchild, hup⟩ := exists_child h
    cases names with
    | nil =>
      cases hold
      rw [put_cons content up last hchild]
      exact ⟨_, at?_nil _, fun _ hmem => Dictionary.isSome_find?_insert hmem first _⟩
    | cons name names =>
      rw [at?_put_cons_cons content hchild]
      split
      · next hname =>
        subst hname
        rw [at?_directory_cons, hchild, Option.bind_some] at hold
        exact ih hup hold
      · exact ⟨old, hold, fun _ hmem => hmem⟩

end Node

namespace Disk

/-- What the file with these names holds. -/
def content? (d : Disk) (names : List Utf8.Bytes) : Option Utf8.Bytes :=
  (d.root.at? names).bind Node.content?

/-- The names of the file to which a path leads. -/
def fileAt? (d : Disk) (p : Path) : Option (List Utf8.Bytes) :=
  (d.locate p).toOption.filter fun names => (d.content? names).isSome

/-! ### Following a path again -/

/-- Each directory of `d` is one of `e` and has entries under the same names at least. -/
structure Keeps (d e : Disk) : Prop where
  workingNames : e.workingNames = d.workingNames
  directory {names : List Utf8.Bytes} {old : List (Utf8.Bytes × Node)}
    (h : d.root.at? names = some (.directory old)) :
    ∃ new, e.root.at? names = some (.directory new) ∧
      ∀ name, (Dictionary.find? name old).isSome → (Dictionary.find? name new).isSome

variable {d e : Disk} {names up : List Utf8.Bytes} {piece last : Utf8.Bytes} {p : Path}

/-- A name leads from a directory to the entry under it. -/
lemma step_name {es : List (Utf8.Bytes × Node)} (h : d.root.at? names = some (.directory es))
    (hvoid : Path.isVoid piece = false) (hup : piece ≠ [Path.dot, Path.dot])
    (hlength : piece.length ≤ maxName) (hmem : (Dictionary.find? piece es).isSome) :
    d.step names piece = .ok (names ++ [piece]) := by
  obtain ⟨node, hnode⟩ := Option.isSome_iff_exists.mp hmem
  rw [step, h]
  dsimp only
  rw [hvoid, if_neg Bool.false_ne_true, if_neg hup, if_neg (by omega), hnode]

lemma Keeps.step (h : Keeps d e) {found : List Utf8.Bytes} (hd : d.step names piece = .ok found) :
    e.step names piece = .ok found := by
  rw [Disk.step] at hd
  split at hd
  · next es hes =>
    obtain ⟨new, hnew, hmem⟩ := h.directory hes
    by_cases hvoid : Path.isVoid piece
    · simp only [hvoid, if_true] at hd
      simpa [Disk.step, hnew, hvoid] using hd
    · by_cases hup : piece = [Path.dot, Path.dot]
      · simp only [hup, if_true] at hd
        simpa [Disk.step, hnew, hvoid, hup] using hd
      · rw [if_neg hvoid, if_neg hup] at hd
        split at hd
        · cases hd
        · next hlength =>
          cases hfind : Dictionary.find? piece es with
          | none =>
            rw [hfind] at hd
            cases hd
          | some node =>
            rw [hfind] at hd
            cases hd
            have hfound : (Dictionary.find? piece new).isSome := hmem piece (by simp [hfind])
            exact step_name hnew (by simpa using hvoid) hup (by omega) hfound
  · cases hd
  · cases hd

lemma walk_cons (d : Disk) (names : List Utf8.Bytes) (piece : Utf8.Bytes) (ps : List Utf8.Bytes) :
    d.walk names (piece :: ps) = d.step names piece >>= fun next => d.walk next ps := by
  rw [walk]
  cases d.step names piece <;> rfl

lemma Keeps.walk (h : Keeps d e) {ps found : List Utf8.Bytes} (hd : d.walk names ps = .ok found) :
    e.walk names ps = .ok found := by
  induction ps generalizing names with
  | nil => exact hd
  | cons piece ps ih =>
    rw [walk_cons] at hd ⊢
    obtain ⟨next, hnext, hd⟩ := bind_eq_ok_iff.mp hd
    rw [h.step hnext]
    exact ih hd

lemma walk_concat {ps : List Utf8.Bytes} (h : d.walk names ps = .ok up) (last : Utf8.Bytes) :
    d.walk names (ps ++ [last]) = d.step up last := by
  induction ps generalizing names with
  | nil =>
    cases h
    rw [List.nil_append, walk_cons]
    cases d.step up last <;> rfl
  | cons piece ps ih =>
    rw [walk_cons] at h
    obtain ⟨next, hnext, h⟩ := bind_eq_ok_iff.mp h
    rw [List.cons_append, walk_cons, hnext]
    exact ih h

/-! ### Where a file is written -/

/-- Where the path of a file that is written leads: to the directory with the names `up` and from
there to a name that is not that of a directory. -/
structure Leads (d : Disk) (p : Path) (up : List Utf8.Bytes) (last : Utf8.Bytes) : Prop where
  checked : checkPath p = .ok ()
  walked : ∃ ps, pieces Path.slash p.bytes = ps ++ [last] ∧ d.walk (d.origin p) ps = .ok up
  notVoid : Path.isVoid last = false
  notUp : last ≠ [Path.dot, Path.dot]
  length_le : last.length ≤ maxName
  entry : ∃ es, d.root.at? up = some (.directory es) ∧
    ∀ fs, Dictionary.find? last es ≠ some (.directory fs)

/-- Nothing has been dropped from a list that has not become shorter. -/
lemma eq_of_not_length_lt {α : Type} {f : α → Bool} {l : List α}
    (h : ¬ (l.reverse.dropWhile f).reverse.length < l.length) :
    (l.reverse.dropWhile f).reverse = l := by
  have hprefix : (l.reverse.dropWhile f).reverse <+: l := List.rdropWhile_prefix f l
  exact hprefix.eq_of_length_le (Nat.le_of_not_lt h)

/-- A file is written only where its path names one. -/
lemma leads_of_target (h : d.target p = .ok names) :
    ∃ up last, names = up ++ [last] ∧ Leads d p up last := by
  obtain ⟨_, hcheck, h⟩ := bind_eq_ok_iff.mp h
  obtain ⟨up, hwalk, h⟩ := bind_eq_ok_iff.mp h
  dsimp only at h
  split at h
  · next es hes =>
    split_ifs at h with hlength hname hshort
    split at h
    · cases h
    · next hentry =>
      cases h
      -- there is no slash at the end, so the last piece is the name
      rw [eq_of_not_length_lt hlength] at hwalk hname hshort hentry ⊢
      simp only [Bool.or_eq_true, not_or, beq_iff_eq, Bool.not_eq_true] at hname
      have hne : pieces Path.slash p.bytes ≠ [] := pieces_ne_nil _ _
      rw [List.getLast?_eq_some_getLast hne, Option.getD_some] at hname hshort hentry ⊢
      exact ⟨up, _, rfl, hcheck, ⟨_, (List.dropLast_append_getLast hne).symm, hwalk⟩, hname.1,
        hname.2, Nat.le_of_not_lt hshort, es, hes, hentry⟩
  · cases h
  · cases h

/-! ### The laws -/

/-- The disk with a file under a name in the directory with the names `up`. -/
def put (d : Disk) (content : Utf8.Bytes) (up : List Utf8.Bytes) (last : Utf8.Bytes) : Disk :=
  { d with root := d.root.put content up last }

lemma eq_put_of_write {content : Utf8.Bytes} (h : d.write p content = .ok e) :
    ∃ up last, Leads d p up last ∧ e = d.put content up last := by
  obtain ⟨names, htarget, h⟩ := bind_eq_ok_iff.mp h
  obtain ⟨up, last, rfl, hleads⟩ := leads_of_target htarget
  cases h
  exact ⟨up, last, hleads, rfl⟩

lemma Leads.keeps (h : Leads d p up last) (content : Utf8.Bytes) :
    Keeps d (d.put content up last) := by
  obtain ⟨es, hes, hentry⟩ := h.entry
  exact ⟨rfl, fun hold => Node.directory_put content hes hentry hold⟩

/-- The path to a file that has been written leads to the file. -/
lemma Leads.locate_put (h : Leads d p up last) (content : Utf8.Bytes) :
    (d.put content up last).locate p = .ok (up ++ [last]) := by
  have hkeeps := h.keeps content
  obtain ⟨es, hes, -⟩ := h.entry
  obtain ⟨ps, hps, hwalk⟩ := h.walked
  obtain ⟨new, hnew, -⟩ := hkeeps.directory hes
  -- the entry may be new, so it is found through the file that lies there
  have hmem : (Dictionary.find? last new).isSome := by
    have hself : (d.put content up last).root.at? (up ++ [last]) = some (.file content) :=
      Node.at?_put_self content hes last
    rw [Node.at?_append, hnew, Option.bind_some, Node.at?_directory_cons] at hself
    obtain ⟨node, hnode, -⟩ := Option.bind_eq_some_iff.mp hself
    rw [hnode]
    rfl
  rw [locate, h.checked]
  calc (d.put content up last).walk (d.origin p) (pieces Path.slash p.bytes)
      = (d.put content up last).walk (d.origin p) (ps ++ [last]) := by rw [hps]
    _ = (d.put content up last).step up last := walk_concat (hkeeps.walk hwalk) last
    _ = .ok (up ++ [last]) := step_name hnew h.notVoid h.notUp h.length_le hmem

lemma Leads.content?_put_self (h : Leads d p up last) (content : Utf8.Bytes) :
    (d.put content up last).content? (up ++ [last]) = some content := by
  obtain ⟨es, hes, -⟩ := h.entry
  rw [content?, put, Node.at?_put_self content hes last]
  rfl

lemma Leads.content?_put_of_ne (h : Leads d p up last) (content : Utf8.Bytes)
    (hne : names ≠ up ++ [last]) : (d.put content up last).content? names = d.content? names := by
  obtain ⟨es, hes, hentry⟩ := h.entry
  exact Node.content?_put_of_ne content hes hentry hne

lemma locate_of_hasFile (h : d.hasFile p = true) :
    ∃ names content, d.locate p = .ok names ∧ d.root.at? names = some (.file content) := by
  rw [hasFile] at h
  split at h
  · next content hlookup =>
    obtain ⟨names, hnames, hlookup⟩ := bind_eq_ok_iff.mp hlookup
    split at hlookup
    · next node hnode =>
      cases hlookup
      exact ⟨names, content, hnames, hnode⟩
    · cases hlookup
  · cases h

lemma fileAt?_eq_some {content : Utf8.Bytes} (hnames : d.locate p = .ok names)
    (hcontent : d.content? names = some content) : d.fileAt? p = some names := by
  rw [fileAt?, toOption_eq_some_iff.mpr hnames]
  simp [hcontent]

instance : FileState.Lawful Disk where
  File := List Utf8.Bytes
  fileAt? := fileAt?
  content? := content?
  read_of_hasFile {d p} h := by
    obtain ⟨names, content, hnames, hat⟩ := locate_of_hasFile h
    have hcontent : d.content? names = some content := by
      rw [content?, hat]
      rfl
    have hlookup : d.lookup p = .ok (.file content) :=
      bind_eq_ok_iff.mpr ⟨names, hnames, by rw [hat]; rfl⟩
    have hread : d.read p = .ok content := bind_eq_ok_iff.mpr ⟨_, hlookup, rfl⟩
    exact ⟨names, content, fileAt?_eq_some hnames hcontent, hcontent, hread⟩
  of_write {d e p content} h := by
    obtain ⟨up, last, hleads, rfl⟩ := eq_put_of_write h
    have hcontent := hleads.content?_put_self content
    exact ⟨up ++ [last], fileAt?_eq_some (hleads.locate_put content) hcontent, hcontent,
      fun _ hne => hleads.content?_put_of_ne content hne⟩

end Disk

end StyleVars
