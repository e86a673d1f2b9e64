import StyleVars.Number.Notation
import StyleVars.Text.Pieces

/-!
Why a document cannot be written as a stylesheet.
-/

namespace StyleVars.Sheet

inductive Error where
  | nestingTooDeep (depth limit : Nat)
  | unsupportedRoot (found : String)
  /-- A NaN or an infinity, and the keys and indices that lead to it. -/
  | nonFinite (x : Double) (path : List Text)
deriving DecidableEq, Repr

def Error.message : Error → String
  | nestingTooDeep depth limit => s!"value nested {depth} levels deep exceeds limit of {limit}"
  | unsupportedRoot found =>
    "top-level value must be an object or an array, found " ++ found
  | nonFinite x path =>
    "number " ++ String.ofList x.plain ++ " at '" ++ String.ofList (joinPieces '.' path)
      ++ "' has no SCSS representation"

end StyleVars.Sheet
