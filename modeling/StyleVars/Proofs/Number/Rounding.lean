import Mathlib.Algebra.Order.Field.Power
import Mathlib.Data.Nat.Log
import Mathlib.Data.Rat.Floor
import Mathlib.Order.Monotone.Basic
import Mathlib.Tactic.FieldSimp
import Mathlib.Tactic.Linarith
import Mathlib.Tactic.NormNum
import Mathlib.Tactic.Positivity
import Mathlib.Tactic.Ring
import StyleVars.Number.Double

/-!
Rounding to the nearest number of 64 bits, of two equally near the one whose last bit is zero. From
half a step above the largest finite magnitude on the result is an infinity, and below half of the
smallest one it is a zero; a sign is kept in both.
-/

namespace StyleVars.Double

/-! ### Magnitudes -/

/-- The magnitude of rank `r`. Ranks from `rankCount` on stand for magnitudes with greater
exponents than there are. -/
def magnitude (r : Nat) : ℚ := quanta r / one

lemma one_eq : (one : ℚ) = 2 ^ 1074 := by
  unfold one
  simp only [Nat.pow_eq, Nat.cast_pow, Nat.cast_ofNat]

lemma one_pos : (0 : ℚ) < one := by
  rw [one_eq]
  positivity

lemma binade_eq : binade = 4503599627370496 := rfl

/-- Ranks from one power of two up to the next, and below the first one, are steps of one size. -/
lemma quanta_of_steps {e m : Nat} (hm : m ≤ 2 * binade) (he : e = 0 ∨ binade ≤ m) :
    quanta (e * binade + m) = m * 2 ^ e := by
  rw [binade_eq] at hm he
  rw [quanta, binade_eq, Nat.pow_eq]
  split
  · obtain rfl : e = 0 := by omega
    omega
  · by_cases hlast : m = 2 * 4503599627370496
    · have hdiv : (e * 4503599627370496 + m) / 4503599627370496 - 1 = e + 1 := by omega
      have hmod : (e * 4503599627370496 + m) % 4503599627370496 = 0 := by omega
      rw [hdiv, hmod, hlast]
      ring
    · have hdiv : (e * 4503599627370496 + m) / 4503599627370496 - 1 = e := by omega
      have hmod : 4503599627370496 + (e * 4503599627370496 + m) % 4503599627370496 = m := by omega
      rw [hdiv, hmod]

lemma eq_steps (r : Nat) :
    ∃ e m, r = e * binade + m ∧ m < 2 * binade ∧ (e = 0 ∨ binade ≤ m) := by
  rw [binade_eq]
  by_cases hr : r < 4503599627370496
  · exact ⟨0, r, by omega, by omega, .inl rfl⟩
  · exact ⟨r / 4503599627370496 - 1, r % 4503599627370496 + 4503599627370496, by omega, by omega,
      .inr (by omega)⟩

lemma quanta_strictMono : StrictMono quanta := by
  refine strictMono_nat_of_lt_succ fun r => ?_
  obtain ⟨e, m, rfl, hm, he⟩ := eq_steps r
  rw [quanta_of_steps hm.le he, add_assoc, quanta_of_steps (by omega) (by omega)]
  exact Nat.mul_lt_mul_of_pos_right (by omega) (Nat.two_pow_pos e)

lemma magnitude_strictMono : StrictMono magnitude := by
  intro r s h
  have hq : (quanta r : ℚ) < quanta s := by exact_mod_cast quanta_strictMono h
  exact div_lt_div_of_pos_right hq one_pos

/-! ### The nearest magnitude -/

variable {q : ℚ} {r s : Nat} {ranks : Set Nat}

lemma distance_below {lo : Nat} (hlo : magnitude lo ≤ q) (h : r ≤ lo) :
    |q - magnitude r| = q - magnitude r :=
  abs_of_nonneg (by linarith [magnitude_strictMono.monotone h])

lemma distance_above {hi : Nat} (hhi : q ≤ magnitude hi) (h : hi ≤ r) :
    |q - magnitude r| = magnitude r - q := by
  rw [abs_sub_comm]
  exact abs_of_nonneg (by linarith [magnitude_strictMono.monotone h])

/-- Of the magnitudes of these ranks that of `r` is nearest to `q`, or one of two equally near and
its rank is even. -/
def Nearest (ranks : Set Nat) (q : ℚ) (r : Nat) : Prop :=
  ∀ s ∈ ranks, s ≠ r → |q - magnitude r| < |q - magnitude s| ∨
    |q - magnitude r| = |q - magnitude s| ∧ r % 2 = 0

lemma Nearest.mono {ranks' : Set Nat} (h : Nearest ranks q r) (hsub : ranks' ⊆ ranks) :
    Nearest ranks' q r :=
  fun s hs => h s (hsub hs)

lemma Nearest.le (h : Nearest ranks q r) (hs : s ∈ ranks) :
    |q - magnitude r| ≤ |q - magnitude s| := by
  by_cases hsr : s = r
  · rw [hsr]
  · rcases h s hs hsr with hlt | ⟨heq, -⟩
    · exact hlt.le
    · exact heq.le

/-- Of two ranks that are equally near and nearest only one is even, for they are neighbours. -/
lemma Nearest.not_lt {n : Nat} (hr : Nearest (Set.Iio n) q r) (hs : Nearest (Set.Iio n) q s)
    (hsn : s < n) : ¬ r < s := by
  intro hrs
  have heq := le_antisymm (hr.le hsn) (hs.le (hrs.trans hsn))
  have hreven : r % 2 = 0 := by
    rcases hr s hsn hrs.ne' with h | h
    · exact absurd heq h.ne
    · exact h.2
  have hseven : s % 2 = 0 := by
    rcases hs r (hrs.trans hsn) hrs.ne with h | h
    · exact absurd heq h.ne'
    · exact h.2
  have hbelow : magnitude r < magnitude (r + 1) := magnitude_strictMono (by omega)
  have habove : magnitude (r + 1) < magnitude s := magnitude_strictMono (by omega)
  have hr' : |q - magnitude r| = q - magnitude r := by
    rcases abs_eq_abs.mp heq with h | h
    · linarith
    · exact abs_of_nonneg (by linarith)
  have hmid : 2 * q = magnitude r + magnitude s := by
    rcases abs_eq_abs.mp heq with h | h <;> linarith
  have hnear : |q - magnitude (r + 1)| < q - magnitude r := by
    rw [abs_lt]
    constructor <;> linarith
  have hle := hr.le (show r + 1 ∈ Set.Iio n from Set.mem_Iio.mpr (by omega))
  linarith

/-- Of the two neighbours that enclose a number, the nearer one is nearest of all. -/
lemma nearest_of_enclosed (lo : Nat) (hlo : magnitude lo ≤ q) (hhi : q ≤ magnitude (lo + 1))
    (hr : r = lo ∨ r = lo + 1)
    (hdown : 2 * q < magnitude lo + magnitude (lo + 1) → r = lo)
    (hup : magnitude lo + magnitude (lo + 1) < 2 * q → r = lo + 1)
    (heven : 2 * q = magnitude lo + magnitude (lo + 1) → r % 2 = 0) : Nearest ranks q r := by
  intro s _ hs
  have hmono := magnitude_strictMono.monotone
  rcases lt_trichotomy (2 * q) (magnitude lo + magnitude (lo + 1)) with hx | hx | hx
  · obtain rfl := hdown hx
    left
    rw [distance_below hlo le_rfl]
    rcases lt_or_ge r s with h | h
    · rw [distance_above hhi h]
      linarith [hmono (show r + 1 ≤ s from h)]
    · rw [distance_below hlo h]
      linarith [magnitude_strictMono (lt_of_le_of_ne h hs)]
  · -- Both neighbours are equally near, so nothing is nearer than either.
    have hr' : |q - magnitude r| = q - magnitude lo := by
      rcases hr with rfl | rfl
      · exact distance_below hlo le_rfl
      · rw [distance_above hhi le_rfl]
        linarith
    have hle : |q - magnitude r| ≤ |q - magnitude s| := by
      rw [hr']
      rcases le_or_gt s lo with h | h
      · rw [distance_below hlo h]
        linarith [hmono h]
      · rw [distance_above hhi h]
        linarith [hmono (show lo + 1 ≤ s from h)]
    rcases hle.lt_or_eq with h | h
    · exact .inl h
    · exact .inr ⟨h, heven hx⟩
  · obtain rfl := hup hx
    left
    rw [distance_above hhi le_rfl]
    rcases le_or_gt s lo with h | h
    · rw [distance_below hlo h]
      linarith [hmono h]
    · rw [distance_above hhi h]
      linarith [magnitude_strictMono (lt_of_le_of_ne (show lo + 1 ≤ s from h) hs.symm)]

/-! ### Rounding a ratio -/

/-- How the quotient `n / d` is rounded: to itself or to the next number, and which. -/
lemma divNearest_spec (n d : Nat) :
    (divNearest n d = n / d ∨ divNearest n d = n / d + 1) ∧
      (2 * n < (2 * (n / d) + 1) * d → divNearest n d = n / d) ∧
      ((2 * (n / d) + 1) * d < 2 * n → divNearest n d = n / d + 1) ∧
      (2 * n = (2 * (n / d) + 1) * d → divNearest n d % 2 = 0) := by
  have hn : (2 * (n / d) + 1) * d + 2 * (n % d) = 2 * n + d := by
    have := Nat.div_add_mod n d
    nlinarith
  unfold divNearest
  dsimp only
  split
  · exact ⟨.inl rfl, fun _ => rfl, by omega, by omega⟩
  · split
    · exact ⟨.inr rfl, by omega, fun _ => rfl, by omega⟩
    · refine ⟨by omega, by omega, by omega, by omega⟩

/-- The scale at which a whole number of quanta has 53 digits, or fewer if it is small. -/
lemma div_two_pow_bounds {q e : Nat} (he : e = if q < 2 * binade then 0 else q.log2 - 52) :
    q / 2 ^ e < 2 * binade ∧ (e = 0 ∨ binade ≤ q / 2 ^ e) := by
  split at he
  · subst he
    simpa
  · next hq =>
    have hbinade : binade = 2 ^ 52 := rfl
    have hq0 : q ≠ 0 := by
      rintro rfl
      simp [binade_eq] at hq
    have hlog : 53 ≤ q.log2 := by
      rw [Nat.le_log2 hq0]
      omega
    have hsum : q.log2 = 52 + e := by omega
    have hle : 2 ^ 52 * 2 ^ e ≤ q := by
      rw [← pow_add, ← hsum]
      exact Nat.log2_self_le hq0
    have hlt : q < 2 ^ 53 * 2 ^ e := by
      rw [← pow_add, show 53 + e = q.log2 + 1 by omega]
      exact Nat.lt_log2_self
    refine ⟨?_, .inr ?_⟩
    · rw [Nat.div_lt_iff_lt_mul (Nat.two_pow_pos e), hbinade]
      omega
    · rw [Nat.le_div_iff_mul_le (Nat.two_pow_pos e), hbinade]
      exact hle

lemma magnitude_of_steps {e m : Nat} (hm : m ≤ 2 * binade) (he : e = 0 ∨ binade ≤ m) :
    magnitude (e * binade + m) = m * (2 ^ e / one) := by
  rw [magnitude, quanta_of_steps hm he]
  push_cast
  ring

/-- Rounding in steps: the nearest of two neighbours is nearest of all. -/
lemma nearest_of_steps {e f m : Nat} {y : ℚ} (hf : f < 2 * binade) (he : e = 0 ∨ binade ≤ f)
    (hlo : f ≤ y) (hhi : y ≤ f + 1) (hm : m = f ∨ m = f + 1)
    (hdown : 2 * y < 2 * f + 1 → m = f) (hup : 2 * f + 1 < 2 * y → m = f + 1)
    (heven : 2 * y = 2 * f + 1 → m % 2 = 0) :
    Nearest ranks (y * (2 ^ e / one)) (e * binade + m) := by
  have hu : (0 : ℚ) < 2 ^ e / one := div_pos (by positivity) one_pos
  have hlow := magnitude_of_steps hf.le he
  have hhigh := magnitude_of_steps (show f + 1 ≤ 2 * binade by omega)
    (show e = 0 ∨ binade ≤ f + 1 by omega)
  rw [← add_assoc] at hhigh
  push_cast at hhigh
  have hsum : (f : ℚ) * (2 ^ e / one) + (f + 1) * (2 ^ e / one) =
      (2 * f + 1) * (2 ^ e / one) := by ring
  have hbinade : binade % 2 = 0 := rfl
  have hparity : m % 2 = 0 → (e * binade + m) % 2 = 0 := fun h => by
    rw [Nat.add_mod, Nat.mul_mod, hbinade, h]
    simp
  refine nearest_of_enclosed (e * binade + f) ?_ ?_ ?_ ?_ ?_ ?_
  · rw [hlow]
    exact mul_le_mul_of_nonneg_right hlo hu.le
  · rw [hhigh]
    exact mul_le_mul_of_nonneg_right hhi hu.le
  · omega
  all_goals rw [hlow, hhigh, hsum, ← mul_assoc]
  · intro h
    rw [hdown (lt_of_mul_lt_mul_right h hu.le)]
  · intro h
    rw [hup (lt_of_mul_lt_mul_right h hu.le), add_assoc]
  · intro h
    exact hparity (heven (mul_right_cancel₀ hu.ne' h))

/-- **A ratio is rounded to the nearest rank.** -/
theorem nearest_rankOfRatio (n : Nat) {d : Nat} (hd : 0 < d) :
    Nearest ranks (n / d) (rankOfRatio n d) := by
  obtain ⟨e, he⟩ : ∃ e, e = if n * one / d < 2 * binade then 0 else (n * one / d).log2 - 52 :=
    ⟨_, rfl⟩
  have hrank : rankOfRatio n d = e * binade + divNearest (n * one) (d * 2 ^ e) := by
    rw [he]
    rfl
  obtain ⟨hlt, hge⟩ := div_two_pow_bounds he
  rw [Nat.div_div_eq_div_mul] at hlt hge
  obtain ⟨hround, hdown, hup, heven⟩ := divNearest_spec (n * one) (d * 2 ^ e)
  have hD : 0 < d * 2 ^ e := Nat.mul_pos hd (Nat.two_pow_pos e)
  have hDq : (0 : ℚ) < (d * 2 ^ e : ℕ) := by exact_mod_cast hD
  have hx : (n / d : ℚ) = (n * one : ℕ) / (d * 2 ^ e : ℕ) * (2 ^ e / one) := by
    have hone := one_pos.ne'
    have hd' : (d : ℚ) ≠ 0 := by exact_mod_cast hd.ne'
    push_cast
    field_simp
  have hfloor := Nat.div_mul_le_self (n * one) (d * 2 ^ e)
  have hceil := (Nat.lt_mul_div_succ (n * one) hD).le
  rw [mul_comm (d * 2 ^ e)] at hceil
  rw [hrank, hx]
  generalize n * one = N at *
  generalize d * 2 ^ e = D at *
  refine nearest_of_steps hlt hge ?_ ?_ hround ?_ ?_ ?_
  · rw [le_div_iff₀ hDq]
    exact_mod_cast hfloor
  · rw [div_le_iff₀ hDq]
    exact_mod_cast hceil
  · intro h
    refine hdown ?_
    rw [← mul_div_assoc, div_lt_iff₀ hDq] at h
    exact_mod_cast h
  · intro h
    refine hup ?_
    rw [← mul_div_assoc, lt_div_iff₀ hDq] at h
    exact_mod_cast h
  · intro h
    refine heven ?_
    rw [← mul_div_assoc, div_eq_iff hDq.ne'] at h
    exact_mod_cast h

/-! ### Rounding to a number -/

/-- The least magnitude that is rounded to an infinity: the one half a step above the largest
finite magnitude. -/
def overflow : ℚ := 2 ^ 1024 - 2 ^ 970

/-- The number is the magnitude `q` with a sign, rounded to the nearest. -/
inductive Rounds (negative : Bool) (q : ℚ) : Double → Prop where
  | infinite : overflow ≤ q → Rounds negative q (.infinite negative)
  | finite {r : Fin rankCount} :
      q < overflow → Nearest (Set.Iio rankCount) q r → Rounds negative q (.finite negative r)

/-- Half-way between the largest finite magnitude and the next one an infinity takes over. -/
lemma two_mul_overflow : 2 * overflow = magnitude (rankCount - 1) + magnitude rankCount := by
  have hrank : rankCount - 1 = 2045 * binade + (2 * binade - 1) := rfl
  have hlast : magnitude (rankCount - 1) = (2 * binade - 1 : ℕ) * (2 ^ 2045 / one) := by
    rw [hrank]
    exact magnitude_of_steps (by omega) (.inr (by rw [binade_eq]; omega))
  have hcount : rankCount = 2045 * binade + 2 * binade := rfl
  have hnext : magnitude rankCount = (2 * binade : ℕ) * (2 ^ 2045 / one) := by
    rw [hcount]
    exact magnitude_of_steps le_rfl (.inr (by omega))
  have hscale : (2 : ℚ) ^ 2045 / one = 2 * 2 ^ 970 := by
    rw [one_eq, div_eq_iff (by positivity), ← pow_succ', ← pow_add]
  have htop : (2 : ℚ) ^ 1024 = 2 ^ 54 * 2 ^ 970 := by rw [← pow_add]
  rw [hlast, hnext, hscale, overflow, htop, binade_eq]
  generalize (2 : ℚ) ^ 970 = u
  push_cast
  ring

lemma magnitude_last_lt : magnitude (rankCount - 1) < magnitude rankCount :=
  magnitude_strictMono (by decide)

lemma lt_overflow_of_nearest (h : Nearest Set.univ q r) (hr : r < rankCount) : q < overflow := by
  by_contra hq
  have hsum := two_mul_overflow
  have hstep := magnitude_last_lt
  have hle : magnitude r ≤ magnitude (rankCount - 1) := magnitude_strictMono.monotone (by omega)
  have hr' : |q - magnitude r| = q - magnitude r := distance_below (by linarith) le_rfl
  have hnext : |q - magnitude rankCount| ≤ q - magnitude r := by
    rw [abs_le]
    constructor <;> linarith
  rcases h rankCount (Set.mem_univ _) hr.ne' with hlt | ⟨heq, heven⟩
  · linarith
  · -- The rank of the largest finite magnitude is odd, so it does not win the tie.
    have hodd : (rankCount - 1) % 2 = 1 := rfl
    have hlt : magnitude r < magnitude (rankCount - 1) := magnitude_strictMono (by omega)
    rw [hr'] at heq
    rcases abs_eq_abs.mp (heq.symm.trans hr'.symm) with h | h <;> linarith

lemma overflow_le_of_nearest (h : Nearest Set.univ q r) (hr : rankCount ≤ r) : overflow ≤ q := by
  by_contra hq
  have hsum := two_mul_overflow
  have hstep := magnitude_last_lt
  have hle : magnitude rankCount ≤ magnitude r := magnitude_strictMono.monotone hr
  have hr' : |q - magnitude r| = magnitude r - q := distance_above (by linarith) le_rfl
  have hlast : |q - magnitude (rankCount - 1)| < magnitude r - q := by
    rw [abs_lt]
    constructor <;> linarith
  have hpos : 0 < rankCount := by decide
  rcases h (rankCount - 1) (Set.mem_univ _) (by omega) with hlt | ⟨heq, -⟩ <;> linarith

/-- The number of the nearest rank is the rounded one. -/
lemma rounds_ofRank (negative : Bool) (h : Nearest Set.univ q r) :
    Rounds negative q (ofRank negative r) := by
  rw [ofRank]
  split
  · next hr => exact .finite (lt_overflow_of_nearest h hr) (h.mono (Set.subset_univ _))
  · next hr => exact .infinite (overflow_le_of_nearest h (by omega))

theorem rounds_ofRatio (negative : Bool) (n : Nat) {d : Nat} (hd : 0 < d) :
    Rounds negative (n / d) (ofRatio negative n d) :=
  rounds_ofRank negative (nearest_rankOfRatio n hd)

/-- **A magnitude is rounded to one number only.** -/
theorem Rounds.unique {negative : Bool} {x y : Double} (hx : Rounds negative q x)
    (hy : Rounds negative q y) : x = y := by
  cases hx with
  | infinite hq =>
    cases hy with
    | infinite => rfl
    | finite hq' _ => exact absurd hq (not_le.mpr hq')
  | @finite r hq hr =>
    cases hy with
    | infinite hq' => exact absurd hq' (not_le.mpr hq)
    | @finite s _ hs =>
      have hle : r ≤ s := not_lt.mp (hs.not_lt hr r.isLt)
      have hge : s ≤ r := not_lt.mp (hr.not_lt hs s.isLt)
      rw [le_antisymm hle hge]

/-! ### Decimal numbers -/

lemma magnitude_zero : magnitude 0 = 0 := by
  have hquanta : quanta 0 = 0 := rfl
  rw [magnitude, hquanta, Nat.cast_zero, zero_div]

lemma magnitude_one : magnitude 1 = 1 / one := by
  have hquanta : quanta 1 = 1 := rfl
  rw [magnitude, hquanta, Nat.cast_one]

lemma rounds_zero (negative : Bool) (h0 : 0 ≤ q) (hq : 2 * q < 1 / one) :
    Rounds negative q (zero negative) := by
  rw [← magnitude_one] at hq
  refine rounds_ofRank negative (nearest_of_enclosed 0 ?_ ?_ (.inl rfl) ?_ ?_ ?_)
  · rw [magnitude_zero]
    exact h0
  · rw [zero_add]
    linarith
  · exact fun _ => rfl
  · intro h
    rw [magnitude_zero, zero_add, zero_add] at h
    linarith
  · exact fun _ => rfl

lemma rounds_zero_self (negative : Bool) : Rounds negative 0 (zero negative) := by
  refine rounds_zero negative le_rfl ?_
  rw [mul_zero]
  exact one_div_pos.mpr one_pos

lemma overflow_le_of_exponent {digits : Nat} {exponent : Int} (hdigits : digits ≠ 0)
    (h : 400 < exponent) : overflow ≤ digits * 10 ^ exponent := by
  have hone : (1 : ℚ) ≤ digits := by exact_mod_cast Nat.one_le_iff_ne_zero.mpr hdigits
  have hover : overflow ≤ 2 ^ 1024 := sub_le_self _ (by positivity)
  calc overflow ≤ 2 ^ 1024 := hover
    _ ≤ 2 ^ (3 * 400) := pow_le_pow_right₀ (by norm_num) (by norm_num)
    _ = (2 ^ 3) ^ 400 := pow_mul _ _ _
    _ ≤ 10 ^ 400 := pow_le_pow_left₀ (by norm_num) (by norm_num) 400
    _ = 10 ^ (400 : ℤ) := (zpow_natCast 10 400).symm
    _ ≤ 10 ^ exponent := zpow_le_zpow_right₀ (by norm_num) h.le
    _ = 1 * 10 ^ exponent := (one_mul _).symm
    _ ≤ digits * 10 ^ exponent := mul_le_mul_of_nonneg_right hone (by positivity)

lemma two_mul_lt_of_exponent {digits : Nat} {exponent : Int}
    (h : exponent + digits.log2 + 1 < -400) : 2 * (digits * 10 ^ exponent : ℚ) < 1 / one := by
  have hdigits : (digits : ℚ) < 2 ^ (digits.log2 + 1) := by exact_mod_cast Nat.lt_log2_self
  -- A power of ten with a negative exponent is no more than that of eight.
  have hpow : (10 : ℚ) ^ exponent ≤ 2 ^ (3 * exponent) := by
    obtain ⟨n, rfl⟩ : ∃ n : Nat, exponent = -n := ⟨(-exponent).toNat, by omega⟩
    have h8 : ((2 : ℚ) ^ 3) ^ n ≤ 10 ^ n := pow_le_pow_left₀ (by norm_num) (by norm_num) n
    rw [mul_neg, zpow_neg, zpow_neg, zpow_mul, zpow_natCast, zpow_natCast]
    exact inv_anti₀ (by positivity) h8
  calc 2 * (digits * 10 ^ exponent : ℚ)
      < 2 * (2 ^ (digits.log2 + 1) * 2 ^ (3 * exponent)) :=
        mul_lt_mul_of_pos_left (mul_lt_mul hdigits hpow (by positivity) (by positivity)) two_pos
    _ = 2 ^ (1 + ((digits.log2 + 1 : ℕ) : ℤ) + 3 * exponent) := by
      rw [zpow_add₀ (by norm_num), zpow_add₀ (by norm_num), zpow_one, zpow_natCast, mul_assoc]
    _ ≤ 2 ^ (-(1074 : ℕ) : ℤ) := zpow_le_zpow_right₀ (by norm_num) (by push_cast; omega)
    _ = 1 / one := by rw [zpow_neg, zpow_natCast, one_eq, one_div]

/-- A power of ten as a quotient of whole numbers, one of which is one. -/
lemma ten_zpow_eq (e : ℤ) :
    (10 : ℚ) ^ e = (Nat.pow 10 e.toNat : ℕ) / (Nat.pow 10 (-e).toNat : ℕ) := by
  have he : e = e.toNat - (-e).toNat := by omega
  simp only [Nat.pow_eq]
  push_cast
  conv_lhs => rw [he, zpow_sub₀ (by norm_num), zpow_natCast, zpow_natCast]

/-- **A decimal number is rounded to the nearest**, however large or small its exponent is. -/
theorem rounds_ofDecimal (negative : Bool) (digits : Nat) (exponent : Int) :
    Rounds negative (digits * 10 ^ exponent) (ofDecimal negative digits exponent) := by
  rw [ofDecimal]
  split
  · next h0 =>
    rw [h0, Nat.cast_zero, zero_mul]
    exact rounds_zero_self negative
  · next h0 =>
    split
    · next h => exact .infinite (overflow_le_of_exponent h0 h)
    · split
      · next h => exact rounds_zero negative (by positivity) (two_mul_lt_of_exponent h)
      · have hratio := rounds_ofRatio negative (digits * Nat.pow 10 exponent.toNat)
          (d := Nat.pow 10 (-exponent).toNat) (Nat.pow_pos (by decide))
        rwa [ten_zpow_eq, ← mul_div_assoc, ← Nat.cast_mul]

end StyleVars.Double
