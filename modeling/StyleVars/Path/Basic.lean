import StyleVars.Text.Pieces
import StyleVars.Text.Utf8

/-!
File paths as they are written: rows of bytes, with slashes between the components. Repeated
slashes, a slash at the end and a dot as a component say nothing, except for a dot at the very
beginning.
-/

namespace StyleVars

structure Path where
  bytes : Utf8.Bytes
deriving DecidableEq, Repr

namespace Path

def slash : UInt8 := 0x2F

def dot : UInt8 := 0x2E

def ofText (s : Text) : Path := ⟨Utf8.encode s⟩

/-- The path as it is shown to people. -/
def display (p : Path) : Text := Utf8.decodeLossy p.bytes

def isAbsolute (p : Path) : Bool := p.bytes.head? == some slash

/-! ### Components -/

inductive Component where
  /-- The slash at the beginning of an absolute path. -/
  | root
  /-- A dot at the beginning of a relative path. -/
  | current
  | parent
  | name (n : Utf8.Bytes)
deriving DecidableEq, Repr

/-- What stands between two slashes and says nothing. -/
def isVoid (piece : Utf8.Bytes) : Bool := piece == [] || piece == [dot]

def componentOf (piece : Utf8.Bytes) : Component :=
  if piece = [dot, dot] then .parent else .name piece

/-- What stands before the pieces that count: the root, a leading dot or nothing. -/
inductive Lead where
  | root
  | current
  | nothing
deriving DecidableEq, Repr

/-- The lead of a path and the bytes behind it. -/
def split (p : Path) : Lead × Utf8.Bytes :=
  match p.bytes with
  | [] => (.nothing, [])
  | a :: r =>
    if a = slash then (.root, r)
    else if a = dot ∧ (r.head? = none ∨ r.head? = some slash) then (.current, r)
    else (.nothing, a :: r)

namespace Lead

def components : Lead → List Component
  | root => [.root]
  | current => [.current]
  | nothing => []

def bytes : Lead → Utf8.Bytes
  | root => [slash]
  | current => [dot]
  | nothing => []

end Lead

def components (p : Path) : List Component :=
  p.split.1.components ++
    ((pieces slash p.split.2).filter fun piece => !isVoid piece).map componentOf

/-- Paths are the same when their components are. -/
def Same (p q : Path) : Prop := p.components = q.components

instance (p q : Path) : Decidable (Same p q) :=
  inferInstanceAs (Decidable (p.components = q.components))

/-! ### Parent and file name -/

/-- Pieces without those at the end that say nothing. -/
def trimEnd (ps : List Utf8.Bytes) : List Utf8.Bytes := (ps.reverse.dropWhile isVoid).reverse

/-- The path without its last component and without what says nothing before it; the root and the
empty path have no parent. -/
def parent? (p : Path) : Option Path :=
  let (lead, body) := p.split
  let ps := trimEnd (pieces slash body)
  if ps.isEmpty then
    match lead with
    | .current => some ⟨[]⟩
    | _ => none
  else some ⟨lead.bytes ++ joinPieces slash (trimEnd ps.dropLast)⟩

def fileName? (p : Path) : Option Utf8.Bytes :=
  match p.components.getLast? with
  | some (.name n) => some n
  | _ => none

/-- A file name up to its last dot; a dot that comes first is part of the stem. -/
def stem (n : Utf8.Bytes) : Utf8.Bytes :=
  match (pieces dot n).dropLast with
  | [] => n
  | [[]] => n
  | ps => joinPieces dot ps

def fileStem? (p : Path) : Option Utf8.Bytes := p.fileName?.map stem

/-! ### Joining -/

/-- The path `q` as seen from the directory `p`. -/
def join (p q : Path) : Path :=
  if q.isAbsolute then q
  else match p.bytes.getLast? with
    | none => q
    | some b => if b = slash then ⟨p.bytes ++ q.bytes⟩ else ⟨p.bytes ++ slash :: q.bytes⟩

/-- The names from the root down that a row of components leads to; a name takes one step down and
a double dot one step up, where there is a step up. -/
def namesAlong (cs : List Component) : List Utf8.Bytes :=
  (cs.foldl (fun up c =>
    match c with
    | .root => []
    | .current => up
    | .parent => up.drop 1
    | .name n => n :: up) []).reverse

/-- The absolute path with these names. -/
def ofNames (ns : List Utf8.Bytes) : Path := ⟨slash :: joinPieces slash ns⟩

/-- The path from the root without dots, double dots and needless slashes. Nothing is looked up: a
double dot takes away the name before it. -/
def normal (p : Path) : Path := ofNames (namesAlong p.components)

variable {ε : Type}

/-- The path as seen from the root. Only a relative path needs the working directory. -/
def fromRoot (cwd : Except ε Path) (p : Path) : Except ε Path :=
  if p.isAbsolute then .ok p else cwd.map (·.join p)

/-- The absolute path without dots that `p` names. -/
def absolute (cwd : Except ε Path) (p : Path) : Except ε Path := (p.fromRoot cwd).map normal

end Path

end StyleVars
