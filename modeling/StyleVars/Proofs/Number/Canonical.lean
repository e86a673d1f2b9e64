import StyleVars.Number.Notation
import StyleVars.Proofs.Number.Shortest

/-!
Which form a number takes in a stylesheet. The shortest digits lie on the same side of `10 ^ 21` and
of `10 ^ -6` as the number itself, so these are the magnitudes from which and below which there is
an exponent. In between whole numbers are written in full.
-/

namespace StyleVars.Double

open Decimal (shortest shortest_spec)

variable {r s : Nat} {e : ℤ}

/-! ### Where an exponent begins -/

/-- The shortest digits stay on one side of a power of ten, if that is rounded to a magnitude to
which no decimal of one digit below it is rounded. -/
lemma leading_shortest_lt_iff (hs : 0 < s) (hten : Near s (10 ^ e))
    (hnine : ¬ Near s (9 * 10 ^ (e - 1))) (hr : 0 < r) :
    (shortest .up r).leading < e ↔ r < s := by
  obtain ⟨hspec, -⟩ := shortest_spec .up hr
  have hpos := Decimal.digits_pos hspec.holds
  obtain ⟨hlo, hhi⟩ := hspec.holds.bounds
  rw [Decimal.leading_lt_iff hpos]
  rcases lt_trichotomy r s with hrs | rfl | hrs
  · refine iff_of_true (lt_of_le_of_ne ?_ ?_) hrs
    · have hmono : midpoint r ≤ midpoint (s - 1) := midpoint_strictMono.monotone (by omega)
      exact hhi.trans (hmono.trans hten.bounds.1)
    · intro heq
      exact (heq ▸ hspec.holds).not_lt hten hrs
  · refine iff_of_false (fun hlt => hnine ?_) (lt_irrefl r)
    -- The power of ten itself has one digit, so the shortest decimal has only one as well.
    have hone : Numeral.width (shortest .up r).digits ≤ 1 := by
      have hle := hspec.width_le ⟨1, e⟩ (by rwa [Decimal.value, Nat.cast_one, one_mul])
      exact hle.trans_eq (Numeral.width_of_lt (n := 1) (by decide))
    have hdigits : (shortest .up r).digits ≤ 9 := by
      have hlt := Numeral.lt_pow_width (shortest .up r).digits
      have hle := Nat.pow_le_pow_right (n := 10) (by decide) hone
      omega
    have hexponent : (shortest .up r).exponent ≤ e - 1 := by
      rw [← Decimal.leading_lt_iff hpos, Decimal.leading] at hlt
      have := Numeral.width_pos (shortest .up r).digits
      omega
    refine hspec.holds.between hten ?_ ?_
    · rw [Decimal.value]
      exact mul_le_mul (by exact_mod_cast hdigits) (Decimal.ten_zpow_le hexponent)
        (Decimal.ten_zpow_pos _).le (by norm_num)
    · rw [zpow_sub_one₀ (by norm_num)]
      have := Decimal.ten_zpow_pos e
      linarith
  · refine iff_of_false (fun hlt => ?_) (by omega)
    have hmono : midpoint s ≤ midpoint (r - 1) := midpoint_strictMono.monotone (by omega)
    linarith [hten.bounds.2]

/-- The rank of `10 ^ 21`. -/
def upperRank : Nat := 1091 * binade + 7629394531250000

/-- The rank of the number nearest to `10 ^ -6`. -/
def lowerRank : Nat := 1002 * binade + 4722366482869645

lemma upperRank_pos : 0 < upperRank := by
  unfold upperRank
  omega

lemma lowerRank_pos : 0 < lowerRank := by
  unfold lowerRank
  omega

/-- The steps of the magnitudes that begin with `10 ^ 21`. -/
lemma unit_upperRank : (2 : ℚ) ^ 1091 / one = 2 ^ 17 := by
  rw [one_eq, div_eq_iff (by positivity), ← pow_add]

lemma magnitude_upperRank : magnitude upperRank = 10 ^ 21 := by
  have hm : 7629394531250000 ≤ 2 * binade := by norm_num [binade_eq]
  have he : 1091 = 0 ∨ binade ≤ 7629394531250000 := .inr (by norm_num [binade_eq])
  unfold upperRank
  rw [magnitude_of_steps hm he, unit_upperRank]
  norm_num

lemma midpoint_pred_upperRank : midpoint (upperRank - 1) = 10 ^ 21 - 2 ^ 16 := by
  have hm : 7629394531249999 < 2 * binade := by norm_num [binade_eq]
  have he : 1091 = 0 ∨ binade ≤ 7629394531249999 := .inr (by norm_num [binade_eq])
  have hrank : upperRank - 1 = 1091 * binade + 7629394531249999 := by
    unfold upperRank
    omega
  rw [hrank, midpoint_of_steps hm he, unit_upperRank]
  norm_num

/-- **From `10 ^ 21` on** the leading digit stands for that much at least. -/
lemma leading_lt_upper_iff (hr : 0 < r) :
    (shortest .up r).leading < 21 ↔ magnitude r < 10 ^ 21 := by
  have hten : Near upperRank (10 ^ (21 : ℤ)) := by
    have h := near_magnitude upperRank_pos
    rwa [magnitude_upperRank] at h
  have hnine : ¬ Near upperRank (9 * 10 ^ ((21 : ℤ) - 1)) := by
    intro h
    have hlo := h.bounds.1
    rw [midpoint_pred_upperRank] at hlo
    norm_num at hlo
  rw [leading_shortest_lt_iff upperRank_pos hten hnine hr, ← magnitude_upperRank,
    magnitude_strictMono.lt_iff_lt]

lemma midpoint_lowerRank :
    midpoint (lowerRank - 1) = (4722366482869645 - 1 / 2) / 2 ^ 72 ∧
      midpoint lowerRank = (4722366482869645 + 1 / 2) / 2 ^ 72 := by
  have hm : 4722366482869645 < 2 * binade := by norm_num [binade_eq]
  have he : 1002 = 0 ∨ binade ≤ 4722366482869644 := .inr (by norm_num [binade_eq])
  have hrank : lowerRank - 1 = 1002 * binade + 4722366482869644 := by
    unfold lowerRank
    omega
  have hunit : (2 : ℚ) ^ 1002 / one = 1 / 2 ^ 72 := by
    rw [one_eq, div_eq_div_iff (by positivity) (by positivity), ← pow_add, one_mul]
  constructor
  · rw [hrank, midpoint_of_steps (by omega) he, hunit]
    norm_num
  · unfold lowerRank
    rw [midpoint_of_steps hm (he.imp id (·.trans (by norm_num))), hunit]
    norm_num

lemma near_lowerRank : Near lowerRank (10 ^ (-6 : ℤ)) := by
  obtain ⟨hlo, hhi⟩ := midpoint_lowerRank
  refine near_of_lt ?_ ?_
  · rw [hlo]
    norm_num
  · rw [hhi]
    norm_num

/-- **Below the number nearest to `10 ^ -6`** the leading digit stands for less than that. -/
lemma leading_lt_lower_iff (hr : 0 < r) : (shortest .up r).leading < -6 ↔ r < lowerRank := by
  have hnine : ¬ Near lowerRank (9 * 10 ^ ((-6 : ℤ) - 1)) := by
    intro h
    have hlo := h.bounds.1
    rw [midpoint_lowerRank.1] at hlo
    norm_num at hlo
  exact leading_shortest_lt_iff lowerRank_pos near_lowerRank hnine hr

/-! ### Forms -/

/-- The text `t` of the magnitude of rank `r`: its shortest digits with an exponent or without one,
or all its digits if it is a whole number. -/
inductive Form (r : Nat) : Text → Prop where
  | scientific :
      10 ^ 21 ≤ magnitude r ∨ r < lowerRank → Form r (shortest .up r).scientific
  | whole {n : Nat} : magnitude r < 10 ^ 21 → magnitude r = n → Form r (Numeral.ofNat n)
  | positional :
      magnitude r < 10 ^ 21 → lowerRank ≤ r → (∀ n : Nat, magnitude r ≠ n) →
      Form r (shortest .up r).positional

lemma whole?_eq_some_iff {n : Nat} : whole? r = some n ↔ magnitude r = n := by
  have hone : 0 < one := by exact_mod_cast one_pos
  have hmag : magnitude r = n ↔ quanta r = n * one := by
    rw [magnitude, div_eq_iff one_pos.ne']
    exact_mod_cast Iff.rfl
  rw [hmag, whole?]
  generalize one = a at hone ⊢
  constructor
  · intro h
    split at h
    · next hmod =>
      cases h
      exact (Nat.div_mul_cancel (Nat.dvd_of_mod_eq_zero hmod)).symm
    · cases h
  · intro h
    rw [h, if_pos (Nat.mul_mod_left n a), Nat.mul_div_cancel n hone]

lemma form_canonicalMagnitude (hr : 0 < r) : Form r (canonicalMagnitude r) := by
  have hupper := leading_lt_upper_iff hr
  have hlower := leading_lt_lower_iff hr
  rw [canonicalMagnitude]
  split
  · next h =>
    refine .scientific (h.imp (fun h => ?_) hlower.mp)
    exact not_lt.mp fun hlt => absurd (hupper.mpr hlt) (by omega)
  · next h =>
    obtain ⟨hlt, hge⟩ := not_or.mp h
    have hbelow : magnitude r < 10 ^ 21 := hupper.mp (not_le.mp hlt)
    split
    · next n hn => exact .whole hbelow (whole?_eq_some_iff.mp hn)
    · next hnone =>
      refine .positional hbelow (not_lt.mp fun hlt => hge (hlower.mpr hlt)) fun n hn => ?_
      rw [whole?_eq_some_iff.mpr hn] at hnone
      cases hnone

/-- The number itself, with the positive zero for either zero. -/
def withOneZero : Double → Double
  | .finite negative r => if r.val = 0 then zero false else .finite negative r
  | x => x

/-! ### The size of exponents -/

lemma two_pow_lt (n : Nat) (hn : n < 3 * 999) : (2 : ℚ) ^ n < 10 ^ 999 :=
  calc (2 : ℚ) ^ n < 2 ^ (3 * 999) := pow_lt_pow_right₀ (by norm_num) hn
    _ = (2 ^ 3) ^ 999 := pow_mul _ _ _
    _ ≤ 10 ^ 999 := pow_le_pow_left₀ (by norm_num) (by norm_num) 999

/-- Three digits are enough for an exponent. -/
lemma natAbs_leading_lt (hr : 0 < r) (hfinite : r < rankCount) :
    (shortest .up r).leading.natAbs < 1000 := by
  obtain ⟨hspec, -⟩ := shortest_spec .up hr
  have hpos := Decimal.digits_pos hspec.holds
  obtain ⟨hlo, hhi⟩ := hspec.holds.bounds
  have hlow : ¬ (shortest .up r).leading < -999 := by
    have hleast : midpoint 0 ≤ midpoint (r - 1) := midpoint_strictMono.monotone (Nat.zero_le _)
    have hten : (10 : ℚ) ^ (-999 : ℤ) ≤ midpoint 0 := by
      rw [midpoint, magnitude_zero, zero_add, zero_add, magnitude_one, one_eq, div_div, ← pow_succ,
        zpow_neg, ← one_div]
      exact one_div_le_one_div_of_le (by positivity) (two_pow_lt _ (by norm_num)).le
    rw [Decimal.leading_lt_iff hpos]
    linarith
  have hhigh : (shortest .up r).leading < 999 := by
    have hmost : midpoint r ≤ midpoint (rankCount - 1) := midpoint_strictMono.monotone (by omega)
    have hten : overflow < 10 ^ (999 : ℤ) :=
      (sub_le_self _ (by positivity)).trans_lt (two_pow_lt 1024 (by norm_num))
    rw [Decimal.leading_lt_iff hpos]
    linarith [midpoint_last]
  omega

end StyleVars.Double
