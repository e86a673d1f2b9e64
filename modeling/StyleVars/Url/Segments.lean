import StyleVars.Text.Pieces
import StyleVars.Url.Percent
import StyleVars.Url.Scheme

/-!
The segments of a path. A single dot stands for nothing and two dots take a segment away, but never
one that looks like a drive letter. A drive letter that opens the path of a file URL ends with a
colon, and the empty segments that such a path begins with are dropped.
-/

namespace StyleVars.Url

/-! ### Drive letters -/

def isDriveLetter : Text → Bool
  | [c, d] => c.isAlpha && (d == ':' || d == '|')
  | _ => false

/-- Whether a segment is a drive letter, with nothing or a backslash behind it. -/
def isDrive : Text → Bool
  | c :: d :: cs => isDriveLetter [c, d] && (cs.isEmpty || cs.head? == some '\\')
  | _ => false

/-- A drive letter and what stands behind it, if a tab or line break comes between the two. -/
def splitDrive? (piece : Text) : Option (Text × Text) :=
  match solid (piece.takeWhile (· != ':')), piece.dropWhile (· != ':') with
  | [c], _ :: g :: rest =>
    if c.isAlpha && isGap g && !(solid rest).isEmpty then some ([c, ':'], solid rest) else none
  | _, _ => none

/-- The segments that the first piece of a file path becomes, last first. -/
def openingSegments (piece : Text) : List Text :=
  match splitDrive? piece with
  | some (drive, rest) => [percentEncodeText .path rest, drive]
  | none =>
    if isDriveLetter (solid piece) then [(solid piece).take 1 ++ [':']]
    else [percentEncodeText .path (solid piece)]

/-! ### Dots -/

/-- A dot may also be written as an encoded byte. -/
def isDot (s : Text) : Bool := s == ['.'] || s.map Char.toLower == "%2e".toList

def isDoubleDot (s : Text) : Bool :=
  s == "..".toList || ["%2e%2e".toList, "%2e.".toList, ".%2e".toList].contains (s.map Char.toLower)

/-- Takes the last segment away, unless it is a drive. The segments stand last first. -/
def shorten : List Text → List Text
  | [] => []
  | s :: up => if isDrive s then s :: up else up

/-! ### Paths -/

/-- The segments up to a piece of a path, behind the segments `up`. All stand last first. -/
def addPiece (k : SchemeKind) (up : List Text) (isLast : Bool) (piece : Text) : List Text :=
  if isDoubleDot (solid piece) then
    if isLast then [] :: shorten up else shorten up
  else if isDot (solid piece) then
    if isLast then [] :: up else up
  else if k = .file ∧ up = [] then openingSegments piece
  else percentEncodeText .path (solid piece) :: up

def addPieces (k : SchemeKind) (up : List Text) : List Text → List Text
  | [] => up
  | p :: ps => addPieces k (addPiece k up ps.isEmpty p) ps

/-- Without the empty segments at the beginning. -/
def dropEmpty (segments : List Text) : List Text :=
  match segments.dropWhile (·.isEmpty) with
  | [] => [[]]
  | list => list

/-- What stands between the slashes of a path. -/
def piecesOf (k : SchemeKind) (path : Text) : List Text :=
  pieces '/' (path.map fun c => if k.isSlash c then '/' else c)

/-- The segments of a path that is written behind its first slash. -/
def segmentsOf (k : SchemeKind) (path : Text) : List Text :=
  let segments := (addPieces k [] (piecesOf k path)).reverse
  if k = .file then dropEmpty segments else segments

/-- Whether a drive letter opens a path, when the segments `up` come before the pieces. -/
def opensWithDrive (up : List Text) : List Text → Bool
  | [] => false
  | p :: ps =>
    up.isEmpty && isDriveLetter (solid p) || opensWithDrive (addPiece .file up ps.isEmpty p) ps

end StyleVars.Url
