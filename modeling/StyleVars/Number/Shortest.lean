import StyleVars.Number.Double
import StyleVars.Text.Numeral

/-!
The shortest decimal that identifies a magnitude: the fewest digits that read back to it, of two
such decimals the nearer, and of two equally near the one that a tie rule names. The decimals that
read back are those between the midpoints to the two neighbouring magnitudes; the midpoints
themselves belong to the magnitude of even rank.
-/

namespace StyleVars

/-- The number `digits * 10 ^ exponent`. -/
structure Decimal where
  digits : Nat
  exponent : Int
deriving DecidableEq, Repr

namespace Decimal

/-- Which of two neighbouring decimals stands for a magnitude in the middle between them. -/
inductive Tie where
  | up
  | even
deriving DecidableEq, Repr

/-- Whether it is the upper one, where the lower one has the digits `below`. -/
def Tie.takesUpper : Tie → Nat → Bool
  | up, _ => true
  | even, below => below % 2 = 1

/-- How `d` compares with `n * 2 ^ -1075`, that is, with `n` halves of a quantum. -/
def compareHalves (d : Decimal) (n : Nat) : Ordering :=
  compare (2 * Double.one * d.digits * Nat.pow 10 d.exponent.toNat)
    (n * Nat.pow 10 (-d.exponent).toNat)

/-- Whether the magnitude of the positive rank `r` is the nearest one to `d`. -/
def readsBack (r : Nat) (d : Decimal) : Bool :=
  let lower := d.compareHalves (Double.quanta (r - 1) + Double.quanta r)
  let upper := d.compareHalves (Double.quanta r + Double.quanta (r + 1))
  if r % 2 = 0 then lower != .lt && upper != .gt else lower == .gt && upper == .lt

/-- The least `k` with `u * 2 ^ -1074 < 10 ^ k`, for a positive `u`. -/
def scale (u : Nat) : Int :=
  let whole := u / Double.one
  if whole = 0 then 1 - (Numeral.width ((Double.one - 1) / u) : Int) else Numeral.width whole

/-- Of the two multiples of `10 ^ e` around the magnitude of rank `r`, the one that reads back; if
both do, the nearer. -/
def onGrid (tie : Tie) (r : Nat) (e : Int) : Option Decimal :=
  let u := Double.quanta r
  let below := u * Nat.pow 10 (-e).toNat / (Double.one * Nat.pow 10 e.toNat)
  let lower : Decimal := ⟨below, e⟩
  let upper : Decimal := ⟨below + 1, e⟩
  match readsBack r lower, readsBack r upper with
  | true, true =>
    match compareHalves ⟨2 * below + 1, e⟩ (4 * u) with
    | .gt => some lower
    | .eq => if tie.takesUpper below then some upper else some lower
    | .lt => some upper
  | true, false => some lower
  | false, true => some upper
  | false, false => none

/-- The first hit on the grids `10 ^ e`, `10 ^ (e - 1)` and so on, or the exact value. -/
def search (tie : Tie) (r : Nat) (e : Int) : Nat → Decimal
  | 0 => ⟨Double.quanta r * Nat.pow 5 1074, -1074⟩
  | n + 1 =>
    match onGrid tie r e with
    | some d => d
    | none => search tie r (e - 1) n

/-- Moves trailing zeros of the digits into the exponent. -/
def strip (d : Decimal) : Decimal :=
  if d.digits ≠ 0 ∧ d.digits % 10 = 0 then strip ⟨d.digits / 10, d.exponent + 1⟩ else d
termination_by d.digits
decreasing_by omega

/-- The shortest decimal for the magnitude of the positive rank `r`. Seventeen digits are enough to
tell any two magnitudes apart. -/
def shortest (tie : Tie) (r : Nat) : Decimal :=
  strip (search tie r (scale (Double.quanta r) - 1) 17)

/-- The power of ten of the leading digit. -/
def leading (d : Decimal) : Int := d.exponent + (Numeral.width d.digits : Int) - 1

end Decimal

end StyleVars
