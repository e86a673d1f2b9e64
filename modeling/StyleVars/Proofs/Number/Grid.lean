import Mathlib.Data.Nat.Cast.Order.Field
import StyleVars.Proofs.Number.Decimal

/-!
The decimals with one exponent are a grid of numbers, and the magnitude lies between two neighbours
on it. If any decimal of a grid reads back, then one of these two does, and the nearer of those that
do is found. The coarsest grid that matters is the one of the leading digit.
-/

namespace StyleVars.Decimal

open Double (Near magnitude quanta near_magnitude near_of_lt)

variable {d d' : Decimal} {tie : Tie} {r : Nat} {e : ℤ}

/-! ### Scale -/

/-- The scale of a magnitude is the power of ten right above it. -/
lemma scale_spec {u : Nat} (hu : 0 < u) :
    (10 : ℚ) ^ (scale u - 1) ≤ u / Double.one ∧ (u / Double.one : ℚ) < 10 ^ scale u := by
  have hone : 0 < Double.one := by exact_mod_cast Double.one_pos
  rw [scale]
  generalize Double.one = a at hone ⊢
  have ha : (0 : ℚ) < a := by exact_mod_cast hone
  split
  · next h0 =>
    -- `u` is smaller than `a`, so the digits of the inverse ratio count.
    have hua : u < a := (Nat.div_eq_zero_iff_lt hone).mp h0
    have hm : 0 < (a - 1) / u := Nat.div_pos (by omega) hu
    obtain ⟨w, hw⟩ : ∃ w, Numeral.width ((a - 1) / u) = w + 1 :=
      ⟨_, (Nat.sub_add_cancel (Numeral.width_pos _)).symm⟩
    have hlow := Numeral.pow_width_le hm
    have hhigh := Numeral.lt_pow_width ((a - 1) / u)
    rw [hw, Nat.add_sub_cancel] at hlow
    rw [hw] at hhigh
    have hle : u * 10 ^ w < a := by
      have hmul := (Nat.mul_le_mul_left u hlow).trans (Nat.mul_div_le (a - 1) u)
      omega
    have hge : a ≤ u * 10 ^ (w + 1) :=
      (Nat.le_of_pred_lt (Nat.lt_mul_div_succ (a - 1) hu)).trans (Nat.mul_le_mul_left u hhigh)
    have hscale : 1 - ((w + 1 : ℕ) : ℤ) = -(w : ℕ) := by omega
    have hpred : 1 - ((w + 1 : ℕ) : ℤ) - 1 = -((w + 1 : ℕ) : ℤ) := by omega
    rw [hw, hpred, hscale, zpow_neg, zpow_neg, zpow_natCast, zpow_natCast, ← one_div, ← one_div]
    constructor
    · rw [div_le_div_iff₀ (by positivity) ha, one_mul]
      exact_mod_cast hge
    · rw [div_lt_div_iff₀ ha (by positivity), one_mul]
      exact_mod_cast hle
  · next h0 =>
    have hw := Numeral.width_pos (u / a)
    have hpred : (Numeral.width (u / a) : ℤ) - 1 = (Numeral.width (u / a) - 1 : ℕ) := by omega
    have hlow : 10 ^ (Numeral.width (u / a) - 1) * a ≤ u :=
      (Nat.mul_le_mul_right a (Numeral.pow_width_le (Nat.pos_of_ne_zero h0))).trans
        (Nat.div_mul_le_self u a)
    have hhigh : u < 10 ^ Numeral.width (u / a) * a :=
      (Nat.div_lt_iff_lt_mul hone).mp (Numeral.lt_pow_width (u / a))
    rw [hpred, zpow_natCast, zpow_natCast, le_div_iff₀ ha, div_lt_iff₀ ha]
    exact ⟨by exact_mod_cast hlow, by exact_mod_cast hhigh⟩

lemma quanta_pos (hr : 0 < r) : 0 < quanta r := Double.quanta_strictMono hr

/-- The exponent of the coarsest grid that the search looks at. -/
def topExponent (r : Nat) : ℤ := scale (quanta r) - 1

lemma le_magnitude (hr : 0 < r) : (10 : ℚ) ^ topExponent r ≤ magnitude r :=
  (scale_spec (quanta_pos hr)).1

lemma magnitude_lt (hr : 0 < r) : magnitude r < (10 : ℚ) ^ (topExponent r + 1) := by
  rw [topExponent, sub_add_cancel]
  exact (scale_spec (quanta_pos hr)).2

/-! ### One grid -/

/-- How often `10 ^ e` goes into the magnitude of rank `r`. -/
def steps (r : Nat) (e : ℤ) : Nat :=
  quanta r * Nat.pow 10 (-e).toNat / (Double.one * Nat.pow 10 e.toNat)

lemma magnitude_eq (r : Nat) (e : ℤ) :
    magnitude r = (quanta r * Nat.pow 10 (-e).toNat : ℕ) / (Double.one * Nat.pow 10 e.toNat : ℕ) *
      10 ^ e := by
  have hone := Double.one_pos.ne'
  have hnum := (pow_ten_pos e.toNat).ne'
  have hden := (pow_ten_pos (-e).toNat).ne'
  rw [magnitude, Double.ten_zpow_eq]
  generalize Double.one = a at hone ⊢
  push_cast at *
  field_simp

lemma steps_le (r : Nat) (e : ℤ) : (steps r e : ℚ) * 10 ^ e ≤ magnitude r := by
  rw [magnitude_eq r e]
  exact mul_le_mul_of_nonneg_right Nat.cast_div_le (ten_zpow_pos e).le

lemma lt_steps_add_one (r : Nat) (e : ℤ) : magnitude r < (steps r e + 1 : ℕ) * 10 ^ e := by
  have hpos : 0 < Double.one * Nat.pow 10 e.toNat :=
    Nat.mul_pos (by exact_mod_cast Double.one_pos) (Nat.pow_pos (by decide))
  rw [magnitude_eq r e, steps]
  refine mul_lt_mul_of_pos_right ?_ (ten_zpow_pos e)
  generalize quanta r * Nat.pow 10 (-e).toNat = a
  generalize Double.one * Nat.pow 10 e.toNat = b at hpos ⊢
  rw [div_lt_iff₀ (by exact_mod_cast hpos)]
  have hlt := Nat.lt_mul_div_succ a hpos
  rw [Nat.mul_comm] at hlt
  exact_mod_cast hlt

/-- A point of a grid lies beyond one of the two that enclose the magnitude. If it is near to the
magnitude, so is that one. -/
lemma near_steps (hr : 0 < r) {k : Nat} (hk : Near r (k * 10 ^ e)) :
    Near r (steps r e * 10 ^ e) ∧ (k : ℚ) * 10 ^ e ≤ steps r e * 10 ^ e ∨
      Near r ((steps r e + 1 : ℕ) * 10 ^ e) ∧
        ((steps r e + 1 : ℕ) : ℚ) * 10 ^ e ≤ k * 10 ^ e := by
  have hpos := ten_zpow_pos e
  rcases Nat.lt_or_ge (steps r e) k with h | h
  · have hle : ((steps r e + 1 : ℕ) : ℚ) * 10 ^ e ≤ k * 10 ^ e :=
      mul_le_mul_of_nonneg_right (by exact_mod_cast h) hpos.le
    exact .inr ⟨(near_magnitude hr).between hk (lt_steps_add_one r e).le hle, hle⟩
  · have hle : (k : ℚ) * 10 ^ e ≤ steps r e * 10 ^ e :=
      mul_le_mul_of_nonneg_right (by exact_mod_cast h) hpos.le
    exact .inl ⟨hk.between (near_magnitude hr) hle (steps_le r e), hle⟩

/-- The decimal `d` reads back, and no other decimal of the grid `10 ^ e` that does so is nearer to
the magnitude. Of two that are equally near it is the one that the tie rule names. -/
structure Closest (tie : Tie) (r : Nat) (e : ℤ) (d : Decimal) : Prop where
  exponent_eq : d.exponent = e
  digits_le : d.digits ≤ steps r e + 1
  near : Near r d.value
  le : ∀ k : Nat, Near r (k * 10 ^ e) → |magnitude r - d.value| ≤ |magnitude r - k * 10 ^ e|
  upper : tie = .up → ∀ k : Nat, Near r (k * 10 ^ e) →
    |magnitude r - d.value| = |magnitude r - k * 10 ^ e| → k * 10 ^ e ≤ d.value

lemma closest_lower (hr : 0 < r) (hnear : Near r (steps r e * 10 ^ e))
    (hcloser : Near r ((steps r e + 1 : ℕ) * 10 ^ e) →
      magnitude r - steps r e * 10 ^ e < (steps r e + 1 : ℕ) * 10 ^ e - magnitude r ∨
        magnitude r - steps r e * 10 ^ e = (steps r e + 1 : ℕ) * 10 ^ e - magnitude r ∧
          tie ≠ .up) :
    Closest tie r e ⟨steps r e, e⟩ := by
  have hle := steps_le r e
  have hlt := lt_steps_add_one r e
  have habs : |magnitude r - value ⟨steps r e, e⟩| = magnitude r - steps r e * 10 ^ e :=
    abs_of_nonneg (sub_nonneg.mpr hle)
  refine ⟨rfl, Nat.le_succ _, hnear, fun k hk => ?_, fun htie k hk heq => ?_⟩
  · rw [habs]
    rcases near_steps hr hk with ⟨-, hkle⟩ | ⟨hup, hkge⟩
    · rw [abs_of_nonneg (by linarith)]
      linarith
    · rw [abs_of_neg (by linarith)]
      rcases hcloser hup with h | ⟨h, -⟩ <;> linarith
  · rw [habs] at heq
    rcases near_steps hr hk with ⟨-, hkle⟩ | ⟨hup, hkge⟩
    · exact hkle
    · rw [abs_of_neg (by linarith)] at heq
      rcases hcloser hup with h | ⟨-, h⟩
      · linarith
      · exact absurd htie h

lemma closest_upper (hr : 0 < r) (hnear : Near r ((steps r e + 1 : ℕ) * 10 ^ e))
    (hcloser : Near r (steps r e * 10 ^ e) →
      (steps r e + 1 : ℕ) * 10 ^ e - magnitude r ≤ magnitude r - steps r e * 10 ^ e) :
    Closest tie r e ⟨steps r e + 1, e⟩ := by
  have hle := steps_le r e
  have hlt := lt_steps_add_one r e
  have habs : |magnitude r - value ⟨steps r e + 1, e⟩| =
      (steps r e + 1 : ℕ) * 10 ^ e - magnitude r := by
    rw [abs_sub_comm]
    exact abs_of_pos (sub_pos.mpr hlt)
  refine ⟨rfl, le_rfl, hnear, fun k hk => ?_, fun _ k hk heq => ?_⟩
  · rw [habs]
    rcases near_steps hr hk with ⟨hlow, hkle⟩ | ⟨-, hkge⟩
    · rw [abs_of_nonneg (by linarith)]
      linarith [hcloser hlow]
    · rw [abs_of_neg (by linarith)]
      linarith
  · rw [habs] at heq
    rw [value]
    rcases near_steps hr hk with ⟨-, hkle⟩ | ⟨-, hkge⟩
    · linarith
    · rw [abs_of_neg (by linarith)] at heq
      linarith

/-- How the middle between the two enclosing points compares with the magnitude. -/
lemma compare_middle (r : Nat) (e : ℤ) :
    (compareHalves ⟨2 * steps r e + 1, e⟩ (4 * quanta r) = .lt →
        (steps r e + 1 : ℕ) * 10 ^ e - magnitude r < magnitude r - steps r e * 10 ^ e) ∧
      (compareHalves ⟨2 * steps r e + 1, e⟩ (4 * quanta r) = .eq →
        magnitude r - steps r e * 10 ^ e = (steps r e + 1 : ℕ) * 10 ^ e - magnitude r) ∧
      (compareHalves ⟨2 * steps r e + 1, e⟩ (4 * quanta r) = .gt →
        magnitude r - steps r e * 10 ^ e < (steps r e + 1 : ℕ) * 10 ^ e - magnitude r) := by
  obtain ⟨hlt, heq, hgt⟩ := compareHalves_spec ⟨2 * steps r e + 1, e⟩ (4 * quanta r)
  have hvalue : value ⟨2 * steps r e + 1, e⟩ =
      steps r e * 10 ^ e + (steps r e + 1 : ℕ) * 10 ^ e := by
    rw [value]
    push_cast
    ring
  have htwice : ((4 * quanta r : ℕ) : ℚ) / (2 * Double.one) = 2 * magnitude r := by
    have hone := Double.one_pos.ne'
    rw [magnitude]
    push_cast
    field_simp
    ring
  rw [hvalue, htwice] at hlt heq hgt
  refine ⟨fun h => ?_, fun h => ?_, fun h => ?_⟩
  · linarith [hlt.mp h]
  · linarith [heq.mp h]
  · linarith [hgt.mp h]

lemma onGrid_eq (tie : Tie) (r : Nat) (e : ℤ) :
    onGrid tie r e =
      match readsBack r ⟨steps r e, e⟩, readsBack r ⟨steps r e + 1, e⟩ with
      | true, true =>
        match compareHalves ⟨2 * steps r e + 1, e⟩ (4 * quanta r) with
        | .gt => some ⟨steps r e, e⟩
        | .eq =>
          if tie.takesUpper (steps r e) then some ⟨steps r e + 1, e⟩ else some ⟨steps r e, e⟩
        | .lt => some ⟨steps r e + 1, e⟩
      | true, false => some ⟨steps r e, e⟩
      | false, true => some ⟨steps r e + 1, e⟩
      | false, false => none := rfl

/-- **A hit on a grid** is the nearest decimal of that grid that reads back. -/
lemma closest_of_onGrid (hr : 0 < r) (h : onGrid tie r e = some d) : Closest tie r e d := by
  have hlower : readsBack r ⟨steps r e, e⟩ = true ↔ Near r (steps r e * 10 ^ e) :=
    readsBack_iff hr _
  have hupper : readsBack r ⟨steps r e + 1, e⟩ = true ↔ Near r ((steps r e + 1 : ℕ) * 10 ^ e) :=
    readsBack_iff hr _
  obtain ⟨hlt, heq, hgt⟩ := compare_middle r e
  rw [onGrid_eq] at h
  generalize readsBack r ⟨steps r e, e⟩ = l at h hlower
  generalize readsBack r ⟨steps r e + 1, e⟩ = u at h hupper
  generalize compareHalves ⟨2 * steps r e + 1, e⟩ (4 * quanta r) = c at h hlt heq hgt
  cases l with
  | true =>
    cases u with
    | true =>
      cases c with
      | gt =>
        cases h
        exact closest_lower hr (hlower.mp rfl) fun _ => .inl (hgt rfl)
      | eq =>
        by_cases htie : tie.takesUpper (steps r e) = true
        · obtain rfl : _ = d := Option.some.inj ((if_pos htie).symm.trans h)
          exact closest_upper hr (hupper.mp rfl) fun _ => (heq rfl).ge
        · obtain rfl : _ = d := Option.some.inj ((if_neg htie).symm.trans h)
          refine closest_lower hr (hlower.mp rfl) fun _ => .inr ⟨heq rfl, ?_⟩
          rintro rfl
          exact htie rfl
      | lt =>
        cases h
        exact closest_upper hr (hupper.mp rfl) fun _ => (hlt rfl).le
    | false =>
      cases h
      exact closest_lower hr (hlower.mp rfl) fun hnear => absurd (hupper.mpr hnear) (by decide)
  | false =>
    cases u with
    | true =>
      cases h
      exact closest_upper hr (hupper.mp rfl) fun hnear => absurd (hlower.mpr hnear) (by decide)
    | false => cases h

/-- Without a hit no decimal of the grid reads back. -/
lemma not_near_of_onGrid (hr : 0 < r) (h : onGrid tie r e = none) (k : Nat) :
    ¬ Near r (k * 10 ^ e) := by
  intro hk
  rw [onGrid_eq] at h
  rcases near_steps hr hk with ⟨hnear, -⟩ | ⟨hnear, -⟩
  · have hlower : readsBack r ⟨steps r e, e⟩ = true := (readsBack_iff hr _).mpr hnear
    rw [hlower] at h
    generalize readsBack r ⟨steps r e + 1, e⟩ = u at h
    generalize compareHalves ⟨2 * steps r e + 1, e⟩ (4 * quanta r) = c at h
    generalize tie.takesUpper (steps r e) = t at h
    cases u <;> cases c <;> cases t <;> cases h
  · have hupper : readsBack r ⟨steps r e + 1, e⟩ = true := (readsBack_iff hr _).mpr hnear
    rw [hupper] at h
    generalize readsBack r ⟨steps r e, e⟩ = l at h
    generalize compareHalves ⟨2 * steps r e + 1, e⟩ (4 * quanta r) = c at h
    generalize tie.takesUpper (steps r e) = t at h
    cases l <;> cases c <;> cases t <;> cases h

end StyleVars.Decimal
