/-!
Sets of characters as ascending closed ranges of code points.
-/

namespace StyleVars.Unicode

/-- Closed ranges of code points, ascending and apart. -/
abbrev Ranges := List (Nat × Nat)

namespace Ranges

/-- Whether a code point lies in one of the ranges. The search ends at the first range beyond it. -/
def contains : Ranges → Nat → Bool
  | [], _ => false
  | (a, b) :: rs, n => if n < a then false else n ≤ b || contains rs n

/-- Each range is in order and ends before the next one begins. -/
def Ascending : Ranges → Prop
  | [] => True
  | [(a, b)] => a ≤ b
  | (a, b) :: (c, d) :: rs => a ≤ b ∧ b < c ∧ Ascending ((c, d) :: rs)

instance decidableAscending : (rs : Ranges) → Decidable (Ascending rs)
  | [] => .isTrue trivial
  | [(a, b)] => inferInstanceAs (Decidable (a ≤ b))
  | (a, b) :: (c, d) :: rs =>
    have := decidableAscending ((c, d) :: rs)
    inferInstanceAs (Decidable (a ≤ b ∧ b < c ∧ Ascending ((c, d) :: rs)))

end Ranges

end StyleVars.Unicode
