import StyleVars.Number.Shortest
import StyleVars.Proofs.Number.Neighbours
import StyleVars.Proofs.Text.Numeral

/-!
Decimals as rational numbers. A decimal reads back to a magnitude if it is rounded to it; how many
digits it has says between which powers of ten it lies.
-/

namespace StyleVars.Decimal

open Double (Near magnitude quanta ten_zpow_eq)

/-- The number that a decimal stands for. -/
def value (d : Decimal) : ℚ := d.digits * 10 ^ d.exponent

variable {d d' : Decimal} {r : Nat}

/-! ### Powers of ten -/

lemma ten_zpow_pos (e : ℤ) : (0 : ℚ) < 10 ^ e := zpow_pos (by norm_num) e

lemma ten_zpow_le {e f : ℤ} (h : e ≤ f) : (10 : ℚ) ^ e ≤ 10 ^ f :=
  zpow_le_zpow_right₀ (by norm_num) h

lemma pow_ten_pos (n : Nat) : (0 : ℚ) < (Nat.pow 10 n : ℕ) := by
  exact_mod_cast Nat.pow_pos (by decide)

/-- A multiple of a power of ten is a multiple of each lower one. -/
lemma exists_multiple (k : Nat) {e f : ℤ} (h : e ≤ f) :
    ∃ j : Nat, (k : ℚ) * 10 ^ f = j * 10 ^ e := by
  obtain ⟨n, rfl⟩ : ∃ n : Nat, f = n + e := ⟨(f - e).toNat, by omega⟩
  refine ⟨k * 10 ^ n, ?_⟩
  rw [zpow_add₀ (by norm_num), zpow_natCast]
  push_cast
  ring

/-! ### Between which powers of ten a decimal lies -/

lemma value_lt (d : Decimal) : d.value < 10 ^ (Numeral.width d.digits + d.exponent) := by
  have hdigits : (d.digits : ℚ) < 10 ^ Numeral.width d.digits := by
    exact_mod_cast Numeral.lt_pow_width d.digits
  rw [value, zpow_add₀ (by norm_num), zpow_natCast]
  exact mul_lt_mul_of_pos_right hdigits (ten_zpow_pos _)

lemma le_value (hd : 0 < d.digits) : (10 : ℚ) ^ d.leading ≤ d.value := by
  have hwidth := Numeral.width_pos d.digits
  have hleading : d.leading = (Numeral.width d.digits - 1 : ℕ) + d.exponent := by
    rw [leading]
    omega
  have hdigits : (10 : ℚ) ^ (Numeral.width d.digits - 1) ≤ d.digits := by
    exact_mod_cast Numeral.pow_width_le hd
  rw [value, hleading, zpow_add₀ (by norm_num), zpow_natCast]
  exact mul_le_mul_of_nonneg_right hdigits (ten_zpow_pos _).le

lemma value_lt_of_leading (d : Decimal) : d.value < 10 ^ (d.leading + 1) := by
  have hlt := d.value_lt
  rwa [show (Numeral.width d.digits : ℤ) + d.exponent = d.leading + 1 by rw [leading]; ring] at hlt

/-- The power of the leading digit tells apart what lies below a power of ten. -/
lemma leading_lt_iff (hd : 0 < d.digits) {e : ℤ} : d.leading < e ↔ d.value < 10 ^ e := by
  constructor
  · intro h
    exact d.value_lt_of_leading.trans_le (ten_zpow_le h)
  · intro h
    by_contra hle
    exact absurd ((ten_zpow_le (not_lt.mp hle)).trans (le_value hd)) (not_le.mpr h)

lemma digits_pos (h : Near r d.value) : 0 < d.digits := by
  rw [Nat.pos_iff_ne_zero]
  intro h0
  have hpos := h.pos
  rw [value, h0, Nat.cast_zero, zero_mul] at hpos
  exact lt_irrefl _ hpos

/-! ### Comparing with midpoints -/

lemma compareHalves_spec (d : Decimal) (n : Nat) :
    (d.compareHalves n = .lt ↔ d.value < n / (2 * Double.one)) ∧
      (d.compareHalves n = .eq ↔ d.value = n / (2 * Double.one)) ∧
      (d.compareHalves n = .gt ↔ n / (2 * Double.one) < d.value) := by
  have hone : (0 : ℚ) < 2 * Double.one := mul_pos two_pos Double.one_pos
  have hden := pow_ten_pos (-d.exponent).toNat
  have hvalue : d.value =
      (d.digits * Nat.pow 10 d.exponent.toNat : ℕ) / (Nat.pow 10 (-d.exponent).toNat : ℕ) := by
    rw [value, ten_zpow_eq]
    push_cast
    ring
  have hscaled : 2 * Double.one * d.digits * Nat.pow 10 d.exponent.toNat =
      d.digits * Nat.pow 10 d.exponent.toNat * (2 * Double.one) := by
    rw [Nat.mul_assoc, Nat.mul_comm]
  rw [compareHalves, hscaled, Nat.compare_eq_lt, Nat.compare_eq_eq, Nat.compare_eq_gt, hvalue]
  generalize d.digits * Nat.pow 10 d.exponent.toNat = a
  generalize Nat.pow 10 (-d.exponent).toNat = b at hden ⊢
  generalize Double.one = u at hone ⊢
  refine ⟨?_, ?_, ?_⟩
  · rw [div_lt_div_iff₀ hden hone]
    exact_mod_cast Iff.rfl
  · rw [div_eq_div_iff hden.ne' hone.ne']
    exact_mod_cast Iff.rfl
  · rw [div_lt_div_iff₀ hone hden]
    exact_mod_cast Iff.rfl

lemma midpoint_eq (r : Nat) :
    Double.midpoint r = (quanta r + quanta (r + 1) : ℕ) / (2 * Double.one) := by
  have hone := Double.one_pos.ne'
  rw [Double.midpoint, magnitude, magnitude]
  push_cast
  field_simp

/-- **The test whether a decimal reads back** is that it is rounded to the magnitude. -/
lemma readsBack_iff (hr : 0 < r) (d : Decimal) : readsBack r d = true ↔ Near r d.value := by
  obtain ⟨hlt, -, hgt⟩ := d.compareHalves_spec (quanta (r - 1) + quanta r)
  obtain ⟨hlt', -, hgt'⟩ := d.compareHalves_spec (quanta r + quanta (r + 1))
  have hpred : Double.midpoint (r - 1) =
      (quanta (r - 1) + quanta r : ℕ) / (2 * Double.one) := by
    rw [midpoint_eq, Nat.sub_add_cancel hr]
  rw [← hpred] at hlt hgt
  rw [← midpoint_eq] at hlt' hgt'
  rw [readsBack, Near]
  split
  · rw [Bool.and_eq_true, bne_iff_ne, bne_iff_ne, ne_eq, ne_eq, hlt, hgt', not_lt, not_lt]
  · rw [Bool.and_eq_true, beq_iff_eq, beq_iff_eq, hgt, hlt']

end StyleVars.Decimal
