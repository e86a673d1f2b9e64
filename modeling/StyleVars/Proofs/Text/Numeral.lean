import Mathlib.Data.List.Induction
import Mathlib.Data.Nat.Log
import Mathlib.Tactic.Ring
import StyleVars.Text.Numeral

/-!
Numerals and powers of ten: how long a numeral is, what zeros behind it mean, and that it does not
begin with one.
-/

namespace StyleVars.Numeral

lemma value_append (a b : Text) : value (a ++ b) = value a * 10 ^ b.length + value b := by
  induction b using List.reverseRecOn with
  | nil => simp
  | append_singleton b c ih =>
    rw [← List.append_assoc, value_append_singleton, ih, value_append_singleton,
      List.length_append, List.length_singleton, pow_succ]
    ring

/-! ### How long a numeral is -/

lemma width_eq (n : Nat) : width n = Nat.log 10 n + 1 := by
  fun_induction width n with
  | case1 n h => rw [Nat.log_of_lt h]
  | case2 n h ih => rw [ih, Nat.log_of_one_lt_of_le (by decide) (Nat.le_of_not_lt h)]

lemma width_of_lt {n : Nat} (h : n < 10) : width n = 1 := by
  rw [width_eq, Nat.log_of_lt h]

lemma width_pos (n : Nat) : 0 < width n := by
  rw [width_eq]
  exact Nat.succ_pos _

lemma lt_pow_width (n : Nat) : n < 10 ^ width n := by
  rw [width_eq]
  exact Nat.lt_pow_succ_log_self (by decide) n

lemma pow_width_le {n : Nat} (hn : 0 < n) : 10 ^ (width n - 1) ≤ n := by
  rw [width_eq, Nat.add_sub_cancel]
  exact Nat.pow_log_le_self 10 hn.ne'

lemma width_le_of_lt {n k : Nat} (hk : 0 < k) (h : n < 10 ^ k) : width n ≤ k := by
  rw [width_eq]
  exact Nat.log_lt_of_lt_pow' hk.ne' h

/-! ### Zeros -/

lemma ofNat_zero : ofNat 0 = ['0'] := by
  rw [ofNat]
  rfl

lemma ofNat_mul_ten {n : Nat} (hn : 0 < n) : ofNat (n * 10) = ofNat n ++ ['0'] := by
  rw [ofNat, if_neg (by omega), Nat.mul_div_cancel n (by decide), Nat.mul_mod_left]
  rfl

/-- Behind a numeral each zero is a factor of ten. -/
lemma ofNat_mul_pow {n : Nat} (hn : 0 < n) (k : Nat) :
    ofNat (n * 10 ^ k) = ofNat n ++ List.replicate k '0' := by
  induction k with
  | zero => simp
  | succ k ih =>
    have hpos : 0 < n * 10 ^ k := Nat.mul_pos hn (Nat.pow_pos (by decide))
    rw [pow_succ, ← Nat.mul_assoc, ofNat_mul_ten hpos, ih, List.append_assoc, List.replicate_succ']

lemma ofNat_ne_nil (n : Nat) : ofNat n ≠ [] := by
  rw [ofNat]
  split <;> simp

lemma head?_ofNat {n : Nat} (hn : 0 < n) : (ofNat n).head? ≠ some '0' := by
  fun_induction ofNat n with
  | case1 n h =>
    have all : ∀ d : Fin 10, d.val ≠ 0 → [digitChar d].head? ≠ some '0' := by decide
    exact all ⟨n, h⟩ hn.ne'
  | case2 n h ih =>
    rw [List.head?_append, List.head?_eq_some_head (ofNat_ne_nil _), Option.some_or,
      ← List.head?_eq_some_head]
    exact ih (by omega)

end StyleVars.Numeral
