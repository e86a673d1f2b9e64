import StyleVars.Number.Shortest

/-!
How numbers are written. `Double.plain` writes any number with its shortest digits and never an
exponent; `Double.pointed` shows of each number that it is no integer, and rounds ties to even
digits where the other forms round them up. `Double.canonical` is the form used in stylesheets: no
literal for a NaN or an infinity, one zero, whole numbers in full, and an exponent with its sign
from `10 ^ 21` up and below `10 ^ -6`.
-/

namespace StyleVars

namespace Decimal

/-- Digits with a point where needed, and no exponent. -/
def positional (d : Decimal) : Text :=
  let ds := Numeral.ofNat d.digits
  let places := (-d.exponent).toNat
  if places = 0 then ds ++ List.replicate d.exponent.toNat '0'
  else if places < ds.length then
    ds.take (ds.length - places) ++ '.' :: ds.drop (ds.length - places)
  else '0' :: '.' :: (List.replicate (places - ds.length) '0' ++ ds)

/-- One digit and the others behind a point. -/
def mantissa (d : Decimal) : Text :=
  match Numeral.ofNat d.digits with
  | [] => []
  | [c] => [c]
  | c :: cs => c :: '.' :: cs

/-- The mantissa and an exponent that always has a sign. -/
def scientific (d : Decimal) : Text :=
  d.mantissa ++ 'e' :: (if d.leading < 0 then '-' else '+') :: Numeral.ofNat d.leading.natAbs

/-- A point even in a whole number, or else an exponent: from `10 ^ 16` up and below
`10 ^ -5`. -/
def pointed (d : Decimal) : Text :=
  if 16 ≤ d.leading ∨ d.leading < -5 then
    d.mantissa ++ 'e' :: ((if d.leading < 0 then ['-'] else []) ++ Numeral.ofNat d.leading.natAbs)
  else if d.exponent < 0 then d.positional
  else d.positional ++ ['.', '0']

end Decimal

namespace Double

def signText (negative : Bool) : Text := if negative then ['-'] else []

/-- Shortest digits, never an exponent. -/
def plain : Double → Text
  | .nan => "NaN".toList
  | .infinite negative => signText negative ++ "inf".toList
  | .finite negative r =>
    signText negative ++ if r.val = 0 then ['0'] else (Decimal.shortest .up r).positional

/-- Shortest digits, with a point or an exponent in every finite number. -/
def pointed : Double → Text
  | .finite negative r =>
    signText negative ++ if r.val = 0 then ['0', '.', '0'] else (Decimal.shortest .even r).pointed
  | x => x.plain

/-- The whole number that the magnitude of rank `r` is, if it is one. -/
def whole? (r : Nat) : Option Nat :=
  if quanta r % one = 0 then some (quanta r / one) else none

/-- The text of a positive magnitude in a stylesheet. -/
def canonicalMagnitude (r : Nat) : Text :=
  let d := Decimal.shortest .up r
  if 21 ≤ d.leading ∨ d.leading < -6 then d.scientific
  else match whole? r with
    | some n => Numeral.ofNat n
    | none => d.positional

/-- The text of a number in a stylesheet; there is none for a NaN or an infinity. -/
def canonical : Double → Option Text
  | .nan => none
  | .infinite _ => none
  | .finite negative r =>
    if r.val = 0 then some ['0'] else some (signText negative ++ canonicalMagnitude r)

end Double

end StyleVars
