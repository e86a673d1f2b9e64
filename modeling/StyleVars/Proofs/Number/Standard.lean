import StyleVars.Proofs.Number.Canonical

/-!
The text that ECMAScript gives a number, and how far the text in a stylesheet is the same. Both have
an exponent for the same numbers and use the same digits, except in whole numbers between `2 ^ 53`
and `10 ^ 21`: there ECMAScript fills up the shortest digits with zeros, and a stylesheet has all
digits of the number.
-/

namespace StyleVars

/-! ### The layout of digits -/

namespace Decimal

/-- The text of a positive decimal in ECMAScript. -/
def layout (d : Decimal) : Text :=
  let ds := Numeral.ofNat d.digits
  -- As many digits stand in front of the point where there is no exponent.
  let n := d.leading + 1
  if n < -5 ∨ 21 < n then
    (if ds.length = 1 then ds else ds.take 1 ++ '.' :: ds.drop 1) ++
      'e' :: (if n < 0 then '-' else '+') :: Numeral.ofNat (n - 1).natAbs
  else if ds.length ≤ n then ds ++ List.replicate (n - ds.length).toNat '0'
  else if 0 < n then ds.take n.toNat ++ '.' :: ds.drop n.toNat
  else '0' :: '.' :: (List.replicate (-n).toNat '0' ++ ds)

variable {d : Decimal} {n : Nat}

lemma mantissa_eq (d : Decimal) :
    d.mantissa = if (Numeral.ofNat d.digits).length = 1 then Numeral.ofNat d.digits
      else (Numeral.ofNat d.digits).take 1 ++ '.' :: (Numeral.ofNat d.digits).drop 1 := by
  have hne := Numeral.ofNat_ne_nil d.digits
  rw [mantissa]
  generalize Numeral.ofNat d.digits = ds at hne ⊢
  split
  · exact absurd rfl hne
  · rfl
  · next c cs hcs =>
    have hlength : (c :: cs).length ≠ 1 := by simpa using hcs
    rw [if_neg hlength]
    rfl

lemma layout_eq_scientific (h : 21 ≤ d.leading ∨ d.leading < -6) : d.layout = d.scientific := by
  have hsign : d.leading + 1 < 0 ↔ d.leading < 0 := by omega
  rw [layout, if_pos (by omega), ← mantissa_eq, scientific]
  simp only [hsign, add_sub_cancel_right]

lemma layout_eq_positional (hlo : -6 ≤ d.leading) (hhi : d.leading < 21) :
    d.layout = d.positional := by
  have hlength := Numeral.length_ofNat d.digits
  have hleading : d.leading + 1 = d.exponent + (Numeral.ofNat d.digits).length := by
    rw [leading, hlength]
    omega
  rw [layout, if_neg (by omega), positional]
  simp only [hleading]
  generalize Numeral.ofNat d.digits = ds
  by_cases hexponent : 0 ≤ d.exponent
  · rw [if_pos (by omega), if_pos (by omega), add_sub_cancel_right]
  · rw [if_neg (by omega)]
    by_cases hcut : 0 < d.exponent + ds.length
    · rw [if_pos hcut, if_neg (by omega), if_pos (by omega),
        show (d.exponent + ds.length).toNat = ds.length - (-d.exponent).toNat by omega]
    · rw [if_neg hcut, if_neg (by omega), if_neg (by omega),
        show (-(d.exponent + ds.length)).toNat = (-d.exponent).toNat - ds.length by omega]

/-- The layout of a whole number whose trailing zeros are in the exponent. -/
lemma layout_eq_ofNat (htrimmed : d.digits % 10 ≠ 0) (hn : d.value = n) (hlt : n < 10 ^ 21) :
    d.layout = Numeral.ofNat n := by
  have hpos : 0 < d.digits := by omega
  have hexponent : 0 ≤ d.exponent := by
    by_contra hneg
    obtain ⟨j, hj⟩ := exists_multiple n (show (1 : ℤ) ≤ -d.exponent by omega)
    have hdigits : (d.digits : ℚ) = (10 * j : ℕ) := by
      rw [← hn, value, mul_assoc, ← zpow_add₀ (by norm_num), add_neg_cancel, zpow_zero, mul_one,
        zpow_one, mul_comm] at hj
      exact_mod_cast hj
    have := Nat.cast_injective hdigits
    omega
  have hwhole : n = d.digits * 10 ^ d.exponent.toNat := by
    rw [value, ← Int.toNat_of_nonneg hexponent, zpow_natCast] at hn
    exact_mod_cast hn.symm
  have hhi : d.leading < 21 := by
    rw [leading_lt_iff hpos, hn]
    exact_mod_cast hlt
  have hwidth := Numeral.width_pos d.digits
  have hleading : d.leading = d.exponent + Numeral.width d.digits - 1 := rfl
  rw [layout_eq_positional (by omega) hhi, positional, if_pos (by omega), hwhole,
    Numeral.ofNat_mul_pow hpos]

/-- Only a whole number has a layout of nothing but digits, and they are its own. -/
lemma value_eq_of_layout_eq (hd : 0 < d.digits) (h : d.layout = Numeral.ofNat n) : d.value = n := by
  have hdigit : ∀ c ∈ d.layout, Numeral.isDigit c = true := fun c hc =>
    Numeral.isDigit_of_mem_ofNat (h ▸ hc)
  have hlength := Numeral.length_ofNat d.digits
  have hleading : d.leading + 1 = d.exponent + Numeral.width d.digits := by
    rw [leading]
    omega
  rw [layout] at h hdigit
  split at hdigit
  · exact absurd (hdigit 'e' (by simp)) (by decide)
  · next hplain =>
    rw [if_neg hplain] at h
    split at hdigit
    · next hwhole =>
      rw [if_pos hwhole, ← Numeral.ofNat_mul_pow hd] at h
      have hn : d.digits * 10 ^ d.exponent.toNat = n := by
        have hvalue := congrArg Numeral.value h
        rw [Numeral.value_ofNat, Numeral.value_ofNat] at hvalue
        rw [← hvalue, show d.leading + 1 - (Numeral.ofNat d.digits).length = d.exponent by omega]
      rw [value, ← hn, ← Int.toNat_of_nonneg (show 0 ≤ d.exponent by omega), zpow_natCast]
      push_cast
      rfl
    · split at hdigit <;> exact absurd (hdigit '.' (by simp)) (by decide)

end Decimal

namespace Double

open Decimal (Fewest Shortest shortest shortest_spec layout)

variable {r : Nat} {d : Decimal} {n : Nat}

/-! ### The text of a number in ECMAScript -/

/-- A decimal with the fewest digits of all that are rounded to the magnitude. ECMAScript admits
each of these. -/
def Permitted (r : Nat) (d : Decimal) : Prop := Fewest (Rounds false · (ofRank false r)) d

/-- The permitted decimal nearest to the magnitude, of two that are equally near the upper one. -/
def Preferred (r : Nat) (d : Decimal) : Prop :=
  Shortest .up (Rounds false · (ofRank false r)) (magnitude r) d

/-- The text of a finite number in ECMAScript, with the digits of one of the decimals that may be
picked for its magnitude. -/
inductive EcmaText (Picks : Nat → Decimal → Prop) : Double → Text → Prop where
  | zero {negative : Bool} {r : Fin rankCount} :
      r.val = 0 → EcmaText Picks (.finite negative r) ['0']
  | number {negative : Bool} {r : Fin rankCount} {d : Decimal} :
      0 < r.val → Picks r d → EcmaText Picks (.finite negative r) (signText negative ++ d.layout)

lemma rounds_eq_near (hr : 0 < r) (hfinite : r < rankCount) :
    (Rounds false · (ofRank false r)) = Near r := by
  funext q
  rw [ofRank, dif_pos hfinite]
  exact propext (rounds_iff_near (r := ⟨r, hfinite⟩) hr)

lemma preferred_shortest (hr : 0 < r) (hfinite : r < rankCount) : Preferred r (shortest .up r) := by
  rw [Preferred, rounds_eq_near hr hfinite]
  exact (shortest_spec .up hr).1

/-! ### Whole numbers -/

/-- Magnitudes with 53 bits in front of the point are no more than one apart, and no more than two
with one bit more. -/
lemma magnitude_succ_le {j : Nat} (h : magnitude r < 2 ^ (53 + j)) :
    magnitude (r + 1) ≤ magnitude r + 2 ^ j := by
  obtain ⟨e, m, rfl, hm, he⟩ := eq_steps r
  rw [magnitude_of_steps hm.le he, one_eq] at h
  have hunit : (2 : ℚ) ^ e / 2 ^ 1074 ≤ 2 ^ j := by
    by_contra hlarge
    have hexponent : j + 1075 ≤ e := by
      by_contra hsmall
      refine hlarge ((div_le_iff₀ (by positivity)).mpr ?_)
      rw [← pow_add]
      exact pow_le_pow_right₀ (by norm_num) (by omega)
    have hstep : (2 : ℚ) ^ (j + 1) ≤ 2 ^ e / 2 ^ 1074 := by
      rw [le_div_iff₀ (by positivity), ← pow_add]
      exact pow_le_pow_right₀ (by norm_num) (by omega)
    have hbits : (2 : ℚ) ^ 52 ≤ m := by
      have hm : binade ≤ m := he.resolve_left (by omega)
      rw [binade_eq] at hm
      exact le_trans (by norm_num) (Nat.cast_le.mpr hm)
    have hmul := mul_le_mul hbits hstep (by positivity) (by positivity)
    rw [← pow_add, show 52 + (j + 1) = 53 + j by omega] at hmul
    exact absurd h (not_lt.mpr hmul)
  rw [add_assoc, magnitude_of_steps hm.le he, magnitude_of_steps (by omega) (by omega), one_eq,
    Nat.cast_succ, add_mul, one_mul]
  exact add_le_add_right hunit _

/-- Beyond 53 bits all magnitudes are whole numbers. -/
lemma exists_whole (h : 2 ^ 53 ≤ magnitude r) : ∃ n : Nat, magnitude r = n := by
  obtain ⟨e, m, rfl, hm, he⟩ := eq_steps r
  rw [magnitude_of_steps hm.le he, one_eq] at h ⊢
  have hexponent : 1074 ≤ e := by
    by_contra hsmall
    have hunit : (2 : ℚ) ^ e / 2 ^ 1074 ≤ 1 :=
      (div_le_one (by positivity)).mpr (pow_le_pow_right₀ (by norm_num) (by omega))
    have hbits : (m : ℚ) < 2 ^ 53 := by
      rw [binade_eq] at hm
      exact (Nat.cast_lt.mpr hm).trans_le (by norm_num)
    exact absurd (h.trans (mul_le_of_le_one_right (Nat.cast_nonneg m) hunit)) (not_le.mpr hbits)
  refine ⟨m * 2 ^ (e - 1074), ?_⟩
  rw [div_eq_mul_inv, ← pow_sub₀ 2 (by norm_num) hexponent]
  push_cast
  rfl

/-- What is rounded to a whole number of 53 bits is no further away from it than a half, or one
above the greatest of them. -/
lemma Near.of_whole {q : ℚ} (h : Near r q) (hr : 0 < r) (hn : magnitude r = n) (hle : n ≤ 2 ^ 53) :
    2 * n ≤ 2 * q + 1 ∧ q ≤ n + 1 ∧ (n < 2 ^ 53 → 2 * q ≤ 2 * n + 1) := by
  obtain ⟨hlo, hhi⟩ := h.bounds
  have hnq : (n : ℚ) ≤ 2 ^ 53 := by exact_mod_cast hle
  rw [midpoint, Nat.sub_add_cancel hr, hn] at hlo
  rw [midpoint, hn] at hhi
  refine ⟨?_, ?_, fun hlt => ?_⟩
  · have hpred : magnitude (r - 1) < 2 ^ (53 + 0) :=
      (magnitude_strictMono (by omega : r - 1 < r)).trans_le (hn ▸ hnq)
    have hstep := magnitude_succ_le hpred
    rw [Nat.sub_add_cancel hr, hn] at hstep
    linarith
  · have hwide : magnitude r < 2 ^ (53 + 1) := by
      rw [hn]
      exact hnq.trans_lt (by norm_num)
    have hstep := magnitude_succ_le hwide
    rw [hn] at hstep
    linarith
  · have hnarrow : magnitude r < 2 ^ (53 + 0) := by
      rw [hn]
      exact_mod_cast hlt
    have hstep := magnitude_succ_le hnarrow
    rw [hn] at hstep
    linarith

/-- The shortest decimal for a whole number of 53 bits is the number itself. -/
lemma value_eq_of_whole (hd : Shortest .up (Near r) (magnitude r) d) (hr : 0 < r)
    (hn : magnitude r = n) (hle : n ≤ 2 ^ 53) : d.value = n := by
  obtain ⟨hlo, hhi, hhalf⟩ := hd.holds.of_whole hr hn hle
  rcases le_or_gt d.exponent 0 with hexponent | hexponent
  · -- The number itself has no more digits, so it would be nearer.
    have hdigits : d.value ≤ d.digits := by
      rw [Decimal.value]
      exact mul_le_of_le_one_right (Nat.cast_nonneg _)
        ((Decimal.ten_zpow_le hexponent).trans_eq (zpow_zero 10))
    have hn_le : n ≤ d.digits := by
      have hcast : ((2 * n : ℕ) : ℚ) ≤ (2 * d.digits + 1 : ℕ) := by
        push_cast
        linarith
      have := Nat.cast_le.mp hcast
      omega
    have hwidth : Numeral.width n ≤ Numeral.width d.digits :=
      Numeral.width_le_of_lt (Numeral.width_pos _) (hn_le.trans_lt (Numeral.lt_pow_width _))
    have hself : (⟨n, 0⟩ : Decimal).value = magnitude r := by
      rw [Decimal.value, zpow_zero, mul_one, hn]
    have hnear := hd.nearest ⟨n, 0⟩ (hself ▸ near_magnitude hr) hwidth
    rw [hself, sub_self, abs_zero, abs_nonpos_iff, sub_eq_zero] at hnear
    rw [← hnear, hn]
  · obtain ⟨j, hj⟩ := Decimal.exists_multiple d.digits (show (1 : ℤ) ≤ d.exponent by omega)
    have hten : d.value = (10 * j : ℕ) := by
      rw [Decimal.value, hj, zpow_one, mul_comm]
      push_cast
      rfl
    rw [hten] at hlo hhi hhalf ⊢
    have hlo : 2 * n ≤ 2 * (10 * j) + 1 := by exact_mod_cast hlo
    have hhi : 10 * j ≤ n + 1 := by exact_mod_cast hhi
    have hhalf : n < 2 ^ 53 → 2 * (10 * j) ≤ 2 * n + 1 := by exact_mod_cast hhalf
    have hj : 10 * j = n := by omega
    rw [hj]

/-! ### The text of a number in a stylesheet -/

lemma canonicalMagnitude_eq_layout (hr : 0 < r)
    (hrange : magnitude r ≤ 2 ^ 53 ∨ 10 ^ 21 ≤ magnitude r) :
    canonicalMagnitude r = (shortest .up r).layout := by
  obtain ⟨hspec, -⟩ := shortest_spec .up hr
  have hform := form_canonicalMagnitude hr
  generalize canonicalMagnitude r = t at *
  cases hform with
  | scientific h =>
    refine (Decimal.layout_eq_scientific (h.imp (fun h => ?_) (leading_lt_lower_iff hr).mpr)).symm
    exact not_lt.mp fun hlt => absurd ((leading_lt_upper_iff hr).mp hlt) (not_lt.mpr h)
  | @whole n hlt hn =>
    have hle : n ≤ 2 ^ 53 := by
      have hle := hrange.resolve_right (not_le.mpr hlt)
      rw [hn] at hle
      exact_mod_cast hle
    have hvalue := value_eq_of_whole hspec hr hn hle
    exact (Decimal.layout_eq_ofNat hspec.trimmed hvalue (by omega)).symm
  | positional hlt hge _ =>
    refine (Decimal.layout_eq_positional (not_lt.mp fun h => ?_)
      ((leading_lt_upper_iff hr).mpr hlt)).symm
    exact absurd ((leading_lt_lower_iff hr).mp h) (not_lt.mpr hge)

lemma magnitude_lowerRank_lt : magnitude lowerRank < 1 := by
  refine (magnitude_lt_midpoint lowerRank).trans ?_
  rw [midpoint_lowerRank.2]
  norm_num

lemma canonicalMagnitude_eq_ofNat (hr : 0 < r) (hlo : 2 ^ 53 < magnitude r)
    (hhi : magnitude r < 10 ^ 21) :
    ∃ n : Nat, magnitude r = n ∧ canonicalMagnitude r = Numeral.ofNat n := by
  have hform := form_canonicalMagnitude hr
  generalize canonicalMagnitude r = t at *
  cases hform with
  | scientific h =>
    have hsmall := magnitude_strictMono (h.resolve_left (not_le.mpr hhi))
    linarith [magnitude_lowerRank_lt]
  | @whole n _ hn => exact ⟨n, hn, rfl⟩
  | positional _ _ hnot =>
    obtain ⟨n, hn⟩ := exists_whole hlo.le
    exact absurd hn (hnot n)

/-- All digits of a whole number are its text in ECMAScript exactly if the shortest decimal is the
number itself. -/
lemma ecmaText_ofNat_iff {negative : Bool} {r : Fin rankCount} (hr : 0 < r.val)
    (hlt : n < 10 ^ 21) :
    EcmaText Preferred (.finite negative r) (signText negative ++ Numeral.ofNat n) ↔
      ∃ d, Preferred r d ∧ d.value = n := by
  constructor
  · intro h
    generalize ht : signText negative ++ Numeral.ofNat n = t at h
    cases h with
    | zero hzero => exact absurd hzero hr.ne'
    | @number _ _ d _ hd =>
      have hpos : 0 < d.digits := Nat.pos_of_ne_zero fun h => hd.trimmed (by rw [h])
      exact ⟨d, hd, Decimal.value_eq_of_layout_eq hpos (List.append_cancel_left ht).symm⟩
  · rintro ⟨d, hd, hn⟩
    rw [← Decimal.layout_eq_ofNat hd.trimmed hn hlt]
    exact .number hr hd

/-- **Numbers are written as in ECMAScript**, with the nearest of the shortest decimals, except for
whole numbers between `2 ^ 53` and `10 ^ 21`. These are written with all their digits, and so as in
ECMAScript exactly if the shortest decimal is the number itself. -/
theorem ecmaText_canonical (negative : Bool) (r : Fin rankCount) :
    ∃ t, (finite negative r).canonical = some t ∧
      (magnitude r ≤ 2 ^ 53 ∨ 10 ^ 21 ≤ magnitude r →
        EcmaText Preferred (.finite negative r) t) ∧
      (2 ^ 53 < magnitude r → magnitude r < 10 ^ 21 →
        ∃ n : Nat, magnitude r = n ∧ t = signText negative ++ Numeral.ofNat n ∧
          (EcmaText Preferred (.finite negative r) t ↔ ∃ d, Preferred r d ∧ d.value = n)) := by
  by_cases hzero : r.val = 0
  · refine ⟨['0'], by rw [canonical, if_pos hzero], fun _ => .zero hzero, fun hlo => ?_⟩
    rw [hzero, magnitude_zero] at hlo
    exact absurd hlo (by norm_num)
  · have hr : 0 < r.val := Nat.pos_of_ne_zero hzero
    refine ⟨_, by rw [canonical, if_neg hzero], fun hrange => ?_, fun hlo hhi => ?_⟩
    · rw [canonicalMagnitude_eq_layout hr hrange]
      exact .number hr (preferred_shortest hr r.isLt)
    · obtain ⟨n, hn, ht⟩ := canonicalMagnitude_eq_ofNat hr hlo hhi
      have hlt : n < 10 ^ 21 := by
        rw [hn] at hhi
        exact_mod_cast hhi
      rw [ht]
      exact ⟨n, hn, rfl, ecmaText_ofNat_iff hr hlt⟩

/-! ### A number with other digits -/

/-- The rank of `2 ^ 60`. -/
def wideRank : Nat := 1082 * binade + binade

lemma wideRank_pos : 0 < wideRank := by
  norm_num [wideRank, binade_eq]

lemma wideRank_lt : wideRank < rankCount := by
  norm_num [wideRank, rankCount, binade_eq]

lemma unit_wideRank : (2 : ℚ) ^ 1082 / one = 2 ^ 8 ∧ (2 : ℚ) ^ 1081 / one = 2 ^ 7 := by
  rw [one_eq, div_eq_iff (by positivity), div_eq_iff (by positivity), ← pow_add, ← pow_add]
  exact ⟨rfl, rfl⟩

lemma magnitude_wideRank : magnitude wideRank = 2 ^ 60 := by
  have hm : binade ≤ 2 * binade := by omega
  unfold wideRank
  rw [magnitude_of_steps hm (.inr le_rfl), unit_wideRank.1, binade_eq]
  norm_num

/-- Below a power of two the steps are half as large as above it. -/
lemma midpoint_wideRank :
    midpoint (wideRank - 1) = 2 ^ 60 - 64 ∧ midpoint wideRank = 2 ^ 60 + 128 := by
  have hbelow : wideRank - 1 = 1081 * binade + 9007199254740991 := by
    norm_num [wideRank, binade_eq]
  have hm : 9007199254740991 < 2 * binade := by norm_num [binade_eq]
  have he : 1081 = 0 ∨ binade ≤ 9007199254740991 := .inr (by norm_num [binade_eq])
  have hm' : binade < 2 * binade := by norm_num [binade_eq]
  constructor
  · rw [hbelow, midpoint_of_steps hm he, unit_wideRank.2]
    norm_num
  · unfold wideRank
    rw [midpoint_of_steps hm' (.inr le_rfl), unit_wideRank.1, binade_eq]
    norm_num

/-- Sixteen digits are enough for `2 ^ 60`, and only one decimal with so few is rounded to it. -/
lemma value_of_permitted_wideRank (h : Permitted wideRank d) :
    d.value = (1152921504606847000 : ℕ) := by
  obtain ⟨hbelow, habove⟩ := midpoint_wideRank
  rw [Permitted, rounds_eq_near wideRank_pos wideRank_lt] at h
  obtain ⟨hlo, hhi⟩ := h.holds.bounds
  rw [hbelow] at hlo
  rw [habove] at hhi
  have hsixteen : Near wideRank (⟨1152921504606847, 3⟩ : Decimal).value := by
    refine near_of_lt ?_ ?_
    · rw [hbelow, Decimal.value]
      norm_num
    · rw [habove, Decimal.value]
      norm_num
  have hwidth : Numeral.width d.digits ≤ 16 :=
    (h.width_le _ hsixteen).trans (Numeral.width_le_of_lt (by decide) (by norm_num))
  have hexponent : 3 ≤ d.exponent := by
    by_contra hsmall
    have hlt := d.value_lt.trans_le
      (Decimal.ten_zpow_le (show (Numeral.width d.digits : ℤ) + d.exponent ≤ 18 by omega))
    norm_num at hlo hlt
    linarith
  obtain ⟨j, hj⟩ := Decimal.exists_multiple d.digits hexponent
  have hthousands : d.value = (1000 * j : ℕ) := by
    rw [Decimal.value, hj]
    push_cast
    ring
  rw [hthousands] at hlo hhi ⊢
  have hlo : 2 ^ 60 ≤ 1000 * j + 64 := by
    have hcast : (2 ^ 60 : ℚ) ≤ (1000 * j : ℕ) + 64 := by linarith
    exact_mod_cast hcast
  have hhi : 1000 * j ≤ 2 ^ 60 + 128 := by exact_mod_cast hhi
  rw [show 1000 * j = 1152921504606847000 by omega]

/-- All digits of `2 ^ 60`, where ECMAScript has sixteen of them and zeros. -/
theorem not_ecmaText_canonical :
    (finite false ⟨wideRank, wideRank_lt⟩).canonical = some "1152921504606846976".toList ∧
      ∀ t, EcmaText Permitted (.finite false ⟨wideRank, wideRank_lt⟩) t ↔
        t = "1152921504606847000".toList := by
  have hlayout {d : Decimal} (h : Permitted wideRank d) :
      d.layout = "1152921504606847000".toList := by
    rw [Decimal.layout_eq_ofNat h.trimmed (value_of_permitted_wideRank h) (by norm_num)]
    simp [Numeral.ofNat, Numeral.digitChar]
  refine ⟨?_, fun t => ⟨fun h => ?_, ?_⟩⟩
  · obtain ⟨n, hn, ht⟩ := canonicalMagnitude_eq_ofNat wideRank_pos
      (by rw [magnitude_wideRank]; norm_num) (by rw [magnitude_wideRank]; norm_num)
    have hn : n = 1152921504606846976 := by
      rw [magnitude_wideRank] at hn
      exact_mod_cast hn.symm
    rw [canonical, if_neg wideRank_pos.ne', ht, hn]
    simp [Numeral.ofNat, Numeral.digitChar, signText]
  · cases h with
    | zero hzero => exact absurd hzero wideRank_pos.ne'
    | number _ hd => exact hlayout hd
  · rintro rfl
    have hd := (preferred_shortest wideRank_pos wideRank_lt).toFewest
    rw [← hlayout hd]
    exact .number wideRank_pos hd

end Double

end StyleVars
