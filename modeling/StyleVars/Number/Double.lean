/-!
Binary floating-point numbers of 64 bits. The finite magnitudes are numbered in ascending order,
from zero up; that number is the `rank` of a magnitude and the lower 63 bits of its binary form.
Every finite magnitude is a whole number of `quanta` of size `2 ^ -1074`, which makes all
arithmetic on values arithmetic of natural numbers.
-/

namespace StyleVars

namespace Double

/-- How many magnitudes have the same exponent. -/
def binade : Nat := Nat.pow 2 52

/-- The number of finite magnitudes. -/
def rankCount : Nat := 2047 * binade

/-- How many quanta make up the number one. -/
def one : Nat := Nat.pow 2 1074

/-- The sign in a binary form. -/
def signBit : Nat := Nat.pow 2 63

end Double

/-- A number of 64 bits; all NaNs are one. -/
inductive Double where
  | nan
  | infinite (negative : Bool)
  | finite (negative : Bool) (rank : Fin Double.rankCount)
deriving DecidableEq, Repr

namespace Double

/-- How many quanta the magnitude of rank `r` is. -/
def quanta (r : Nat) : Nat :=
  if r < binade then r else (binade + r % binade) * Nat.pow 2 (r / binade - 1)

/-- The magnitude of rank `r`, or an infinity beyond the last rank. -/
def ofRank (negative : Bool) (r : Nat) : Double :=
  if h : r < rankCount then .finite negative ⟨r, h⟩ else .infinite negative

def zero (negative : Bool) : Double := ofRank negative 0

/-- The number whose binary form is `bits`. -/
def ofBits (bits : UInt64) : Double :=
  let negative := decide (signBit ≤ bits.toNat)
  let r := bits.toNat % signBit
  if r = rankCount then .infinite negative
  else if h : r < rankCount then .finite negative ⟨r, h⟩
  else .nan

def signBits (negative : Bool) : Nat := if negative then signBit else 0

/-- The binary form of a number. -/
def toBits : Double → UInt64
  | .nan => UInt64.ofNat (rankCount + binade / 2)
  | .infinite negative => UInt64.ofNat (signBits negative + rankCount)
  | .finite negative r => UInt64.ofNat (signBits negative + r)

def isFinite : Double → Bool
  | .finite _ _ => true
  | _ => false

/-- The quotient rounded to the nearest whole number, a half to the even neighbour. -/
def divNearest (n d : Nat) : Nat :=
  let q := n / d
  let r := n % d
  if 2 * r < d then q else if d < 2 * r then q + 1 else q + q % 2

/-- The rank of the magnitude nearest to `n / d`, of two equally near the even one. -/
def rankOfRatio (n d : Nat) : Nat :=
  let scaled := n * one
  let q := scaled / d
  let e := if q < 2 * binade then 0 else q.log2 - 52
  e * binade + divNearest scaled (d * Nat.pow 2 e)

/-- The number nearest to `n / d`. -/
def ofRatio (negative : Bool) (n d : Nat) : Double := ofRank negative (rankOfRatio n d)

/-- The number nearest to `digits * 10 ^ exponent`. Exponents so large or so small that the result
is an infinity or zero whatever the digits are not computed with. -/
def ofDecimal (negative : Bool) (digits : Nat) (exponent : Int) : Double :=
  if digits = 0 then zero negative
  else if 400 < exponent then .infinite negative
  else if exponent + digits.log2 + 1 < -400 then zero negative
  else ofRatio negative (digits * Nat.pow 10 exponent.toNat) (Nat.pow 10 (-exponent).toNat)

end Double

end StyleVars
