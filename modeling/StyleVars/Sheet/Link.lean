import StyleVars.Text.Pieces
import StyleVars.Text.Position

/-!
Internal links: `var:` and two or more segments with bars between them, where a segment is a
row of letters, digits, underscores and hyphens. A link stands for a custom property, whose name has
the segments with two hyphens between them. Links are found from left to right and are as long as
possible.
-/

namespace StyleVars.Sheet

def isSegmentChar (c : Char) : Bool := c.isAlphanum || c == '_' || c == '-'

/-- The segments at the beginning of a text; the last of them ends where no bar with another one
follows. -/
def segmentsAt (s : Text) : List Text :=
  (pieces '|' (s.takeWhile fun c => isSegmentChar c || c == '|')).takeWhile (!·.isEmpty)

/-- The segments of the link at the beginning of a text. -/
def linkAt? : Text → Option (List Text)
  | 'v' :: 'a' :: 'r' :: ':' :: cs =>
    if 2 ≤ (segmentsAt cs).length then some (segmentsAt cs) else none
  | _ => none

/-- A link as it is written in a document. -/
def linkText (segments : List Text) : Text := "var:".toList ++ joinPieces '|' segments

/-- The custom property that a link stands for. -/
def linkTarget (segments : List Text) : Text :=
  "var(--wp--".toList ++ "--".toList.intercalate segments ++ [')']

/-- The text with its links resolved, where the next `n` characters are those of a link that has
already been written. -/
def resolveFrom : Nat → Text → Text
  | _, [] => []
  | n + 1, _ :: cs => resolveFrom n cs
  | 0, c :: cs =>
    match linkAt? (c :: cs) with
    | some segments => linkTarget segments ++ resolveFrom ((linkText segments).length - 1) cs
    | none => c :: resolveFrom 0 cs

def resolveLinks (s : Text) : Text := resolveFrom 0 s

end StyleVars.Sheet
