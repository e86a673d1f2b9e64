import StyleVars.Text.Position

/-!
Which keys of a document become names. A key whose first character means something else in a
stylesheet is left out. One colon at the beginning is overlooked, and is no part of the name.
-/

namespace StyleVars.Sheet

/-- The key without one colon at its beginning. -/
def stripColon : Text → Text
  | ':' :: cs => cs
  | cs => cs

theorem stripColon_cons_of_ne {c : Char} (hc : c ≠ ':') (cs : Text) :
    stripColon (c :: cs) = c :: cs := by
  unfold stripColon
  split
  · next heq => exact absurd (List.cons.inj heq).1 hc
  · rfl

/-- Characters with a meaning of their own at the beginning of a name. -/
def isMarker (c : Char) : Bool := c == '$' || c == '@' || c == ':'

def isEligible (key : Text) : Bool :=
  match stripColon key with
  | c :: _ => !isMarker c
  | [] => true

end StyleVars.Sheet
