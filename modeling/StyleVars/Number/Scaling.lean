import StyleVars.Number.Double

/-!
Products and quotients of magnitudes, rounded to the nearest, and scaling by powers of ten in steps
that are rounded each. A result of rank `rankCount` or more is an infinity.
-/

namespace StyleVars.Double

def rankOfProduct (a b : Nat) : Nat := rankOfRatio (quanta a * quanta b) (one * one)

def rankOfQuotient (a b : Nat) : Nat := rankOfRatio (quanta a) (quanta b)

def rankOfPower (n : Nat) : Nat := rankOfRatio (Nat.pow 10 n) 1

/-- The largest `n` for which `10 ^ n` is finite. -/
def maxPower : Nat := 308

/-- The magnitude of rank `r` times `10 ^ e`, or nothing if that is an infinity. Divisions by more
than the largest power are made one after another. -/
def scaleRank? (r : Nat) (e : Int) : Option Nat :=
  if 0 ≤ e then
    if r = 0 then some 0
    else if maxPower < e then none
    else
      let s := rankOfProduct r (rankOfPower e.toNat)
      if s < rankCount then some s else none
  else if -e ≤ maxPower then some (rankOfQuotient r (rankOfPower (-e).toNat))
  else if r = 0 then some 0
  else scaleRank? (rankOfQuotient r (rankOfPower maxPower)) (e + maxPower)
termination_by (-e).toNat
decreasing_by simp only [maxPower] at *; omega

end StyleVars.Double
