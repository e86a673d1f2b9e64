import StyleVars.Dictionary
import StyleVars.Files.State

/-!
Files kept in memory: a tree of directories, without links and without permissions. A path is
followed name by name, and each name but the last has to be that of a directory; a double dot
goes back up.
-/

namespace StyleVars

inductive Node where
  | file (content : Utf8.Bytes)
  | directory (entries : List (Utf8.Bytes × Node))

namespace Node

/-- What the names lead to. -/
def at? : Node → List Utf8.Bytes → Option Node
  | node, [] => some node
  | directory es, name :: names =>
    match Dictionary.find? name es with
    | some node => node.at? names
    | none => none
  | file _, _ :: _ => none

/-- The tree with `f` applied where the names lead; missing directories on the way are made. -/
def update (f : Option Node → Option Node) : List Utf8.Bytes → Node → Node
  | [], node => (f (some node)).getD node
  | [name], directory es =>
    match f (Dictionary.find? name es) with
    | some node => directory (Dictionary.insert name node es)
    | none => directory (Dictionary.erase name es)
  | name :: names, directory es =>
    let below := update f names ((Dictionary.find? name es).getD (directory []))
    directory (Dictionary.insert name below es)
  | _ :: _, file content => file content

end Node

/-- A tree of files and the directory in which relative paths begin, by the names that lead
there. The directory may have been taken away. -/
structure Disk where
  root : Node
  workingNames : List Utf8.Bytes

namespace Disk

/-- The longest name that an entry may have, in bytes. -/
def maxName : Nat := 255

/-- Paths of this many bytes and more are refused. -/
def maxPath : Nat := 4096

/-- One step from the directory to which `names` lead. -/
def step (d : Disk) (names : List Utf8.Bytes) (piece : Utf8.Bytes) :
    Except Fault (List Utf8.Bytes) :=
  match d.root.at? names with
  | some (.directory es) =>
    if Path.isVoid piece then .ok names
    else if piece = [Path.dot, Path.dot] then .ok names.dropLast
    else if maxName < piece.length then .error .nameTooLong
    else match Dictionary.find? piece es with
      | some _ => .ok (names ++ [piece])
      | none => .error .notFound
  | some (.file _) => .error .notDirectory
  | none => .error .notFound

def walk (d : Disk) : List Utf8.Bytes → List Utf8.Bytes → Except Fault (List Utf8.Bytes)
  | names, [] => .ok names
  | names, piece :: pieces =>
    match d.step names piece with
    | .ok names => d.walk names pieces
    | .error f => .error f

/-- Where a path begins. -/
def origin (d : Disk) (p : Path) : List Utf8.Bytes := if p.isAbsolute then [] else d.workingNames

def checkPath (p : Path) : Except Fault Unit :=
  if p.bytes = [] then .error .notFound
  else if maxPath ≤ p.bytes.length then .error .nameTooLong
  else .ok ()

/-- The names that a path leads to. -/
def locate (d : Disk) (p : Path) : Except Fault (List Utf8.Bytes) := do
  checkPath p
  d.walk (d.origin p) (pieces Path.slash p.bytes)

/-- What a path leads to. -/
def lookup (d : Disk) (p : Path) : Except Fault Node := do
  match d.root.at? (← d.locate p) with
  | some node => return node
  | none => throw .notFound

def read (d : Disk) (p : Path) : Except Fault Utf8.Bytes := do
  match ← d.lookup p with
  | .file content => return content
  | .directory _ => throw .isDirectory

def hasFile (d : Disk) (p : Path) : Bool :=
  match d.lookup p with
  | .ok (.file _) => true
  | _ => false

/-- The names of the file that is written to at `p`, which may be new. Slashes at the end of `p` ask
for a directory. -/
def target (d : Disk) (p : Path) : Except Fault (List Utf8.Bytes) := do
  checkPath p
  let ps := pieces Path.slash p.bytes
  let named := (ps.reverse.dropWhile (·.isEmpty)).reverse
  let up ← d.walk (d.origin p) named.dropLast
  let last := named.getLast?.getD []
  match d.root.at? up with
  | some (.directory es) =>
    if named.length < ps.length then throw .isDirectory
    else if Path.isVoid last || last == [Path.dot, Path.dot] then throw .isDirectory
    else if maxName < last.length then throw .nameTooLong
    else match Dictionary.find? last es with
      | some (.directory _) => throw .isDirectory
      | _ => return up ++ [last]
  | some (.file _) => throw .notDirectory
  | none => throw .notFound

def write (d : Disk) (p : Path) (content : Utf8.Bytes) : Except Fault Disk := do
  let names ← d.target p
  return { d with root := d.root.update (fun _ => some (.file content)) names }

/-- Makes the directory to which the names lead, and those above it, if they are not there. -/
def makeDirectory (d : Disk) (names : List Utf8.Bytes) : Disk :=
  { d with root := d.root.update (fun old => some (old.getD (.directory []))) names }

/-- Takes away what the names lead to. -/
def remove (d : Disk) (names : List Utf8.Bytes) : Disk :=
  { d with root := d.root.update (fun _ => none) names }

def workingDirectory (d : Disk) : Except Fault Path :=
  match d.root.at? d.workingNames with
  | some (.directory _) => .ok (Path.ofNames d.workingNames)
  | _ => .error .notFound

instance : FileState Disk where
  workingDirectory := workingDirectory
  hasFile := hasFile
  read := read
  write := write

end Disk

end StyleVars
