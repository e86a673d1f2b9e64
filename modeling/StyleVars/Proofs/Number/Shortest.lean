import StyleVars.Proofs.Number.Grid

/-!
The shortest decimal of a magnitude. The search goes from the coarsest grid to finer ones and finds
a decimal that reads back on one of the first seventeen. The first hit has the fewest digits of all
decimals that read back, and is the nearest of those with as few.
-/

namespace StyleVars.Decimal

open Double (Near magnitude near_magnitude near_of_lt)

variable {d d' : Decimal} {tie : Tie} {r : Nat} {e f : ℤ}

/-! ### Seventeen digits -/

/-- No decimal with the exponent `e` reads back. -/
def Misses (r : Nat) (e : ℤ) : Prop := ∀ k : Nat, ¬ Near r (k * 10 ^ e)

/-- On a grid as fine as the seventeenth digit something reads back: there is room for it between
the midpoints. -/
lemma not_misses_of_fine (hr : 0 < r) (he : (10 : ℚ) ^ e * 10 ^ 16 ≤ magnitude r) :
    ¬ Misses r e := by
  intro hmiss
  obtain ⟨m, w, hw, hm, hmag, hmid, hpred⟩ := Double.exists_step hr
  have hlo := steps_le r e
  have hhi := lt_steps_add_one r e
  have hbelow := Double.midpoint_pred_lt hr
  have hsum : ((steps r e + 1 : ℕ) : ℚ) * 10 ^ e = steps r e * 10 ^ e + 10 ^ e := by
    push_cast
    ring
  have hlower := hmiss (steps r e)
  have hupper := hmiss (steps r e + 1)
  rw [Double.binade_eq] at hm hpred
  rcases hpred with hpower | hpred
  · -- The smallest of the magnitudes with this step has enough room above it.
    have hmq : (m : ℚ) ≤ 4503599627370496 := by exact_mod_cast hpower
    refine hupper (near_of_lt (by linarith) ?_)
    rw [hmid, hsum]
    nlinarith
  · have hmq : (m : ℚ) ≤ 9007199254740992 := by exact_mod_cast hm.le
    by_cases hhalf : m * w - w / 2 < steps r e * 10 ^ e
    · refine hlower (near_of_lt (by linarith) ?_)
      rw [hmid]
      linarith
    · refine hupper (near_of_lt (by linarith) ?_)
      rw [hmid, hsum]
      nlinarith

/-! ### The search -/

/-- What the search returns: a decimal on the first grid with one that reads back, or the exact
value if there is none on any of the `n` grids. -/
lemma search_cases (hr : 0 < r) (e : ℤ) (n : Nat) :
    (∃ f, e - n < f ∧ f ≤ e ∧ Closest tie r f (search tie r e n) ∧
      ∀ g, f < g → g ≤ e → Misses r g) ∨
      ∀ g, e - n < g → g ≤ e → Misses r g := by
  induction n generalizing e with
  | zero => exact .inr fun g hlo hhi => by omega
  | succ n ih =>
    rw [search]
    cases hgrid : onGrid tie r e with
    | some d =>
      refine .inl ⟨e, by omega, le_rfl, closest_of_onGrid hr hgrid, fun g hlo hhi => ?_⟩
      omega
    | none =>
      have hmiss : Misses r e := not_near_of_onGrid hr hgrid
      have hstep : ∀ {g : ℤ}, g ≤ e → g ≤ e - 1 ∨ g = e := fun h => by omega
      rcases ih (e - 1) with ⟨f, hlo, hhi, hclosest, hfirst⟩ | hnone
      · refine .inl ⟨f, by omega, by omega, hclosest, fun g hfg hge => ?_⟩
        rcases hstep hge with h | rfl
        · exact hfirst g hfg h
        · exact hmiss
      · refine .inr fun g hlo hhi => ?_
        rcases hstep hhi with h | rfl
        · exact hnone g (by omega) h
        · exact hmiss

/-- **Seventeen grids are enough.** -/
lemma search_closest (tie : Tie) (hr : 0 < r) :
    ∃ f, topExponent r - 17 < f ∧ f ≤ topExponent r ∧
      Closest tie r f (search tie r (topExponent r) 17) ∧
      ∀ g, f < g → g ≤ topExponent r → Misses r g := by
  rcases @search_cases tie r hr (topExponent r) 17 with h | h
  · exact h
  · have hfine : (10 : ℚ) ^ (topExponent r - 16) * 10 ^ 16 ≤ magnitude r := by
      rw [zpow_sub₀ (by norm_num), zpow_ofNat, div_mul_cancel₀ _ (by norm_num)]
      exact le_magnitude hr
    exact absurd (h (topExponent r - 16) (by omega) (by omega)) (not_misses_of_fine hr hfine)

/-! ### Trailing zeros -/

/-- Zeros at the end of the digits become part of the exponent. -/
lemma strip_spec (d : Decimal) :
    ∃ k : Nat, d.digits = d.strip.digits * 10 ^ k ∧ d.strip.exponent = d.exponent + k := by
  fun_induction strip d with
  | case1 d h ih =>
    obtain ⟨k, hdigits, hexponent⟩ := ih
    refine ⟨k + 1, ?_, ?_⟩
    · rw [pow_succ, ← Nat.mul_assoc, ← hdigits]
      exact (Nat.div_mul_cancel (Nat.dvd_of_mod_eq_zero h.2)).symm
    · rw [hexponent]
      push_cast
      ring
  | case2 d h => exact ⟨0, by simp, by simp⟩

lemma value_strip (d : Decimal) : d.strip.value = d.value := by
  obtain ⟨k, hdigits, hexponent⟩ := d.strip_spec
  rw [value, value, hdigits, hexponent, zpow_add₀ (by norm_num), zpow_natCast]
  push_cast
  ring

lemma strip_digits_mod (hd : 0 < d.digits) : d.strip.digits % 10 ≠ 0 := by
  fun_induction strip d with
  | case1 d h ih => exact ih (by dsimp only; omega)
  | case2 d h => omega

/-- Digits up to a power of ten become fewer than it has. -/
lemma width_strip_le {n : Nat} (hd : 0 < d.digits) (hn : 0 < n) (h : d.digits ≤ 10 ^ n) :
    Numeral.width d.strip.digits ≤ n := by
  obtain ⟨k, hdigits, -⟩ := d.strip_spec
  have hmod := strip_digits_mod hd
  refine Numeral.width_le_of_lt hn (lt_of_le_of_ne ?_ ?_)
  · calc d.strip.digits ≤ d.strip.digits * 10 ^ k := Nat.le_mul_of_pos_right _ (by positivity)
      _ ≤ 10 ^ n := hdigits ▸ h
  · intro heq
    rw [heq] at hmod
    exact hmod (Nat.mod_eq_zero_of_dvd (dvd_pow_self 10 hn.ne'))

/-! ### The shortest decimal -/

/-- The decimal `d` stands for a number with the property `P`, has no zero at its end, and no
decimal with fewer digits stands for such a number. -/
structure Fewest (P : ℚ → Prop) (d : Decimal) : Prop where
  holds : P d.value
  trimmed : d.digits % 10 ≠ 0
  width_le : ∀ d' : Decimal, P d'.value → Numeral.width d.digits ≤ Numeral.width d'.digits

/-- A decimal with the fewest digits, and of those the nearest one to `q`. Of two that are equally
near it is the upper one if the tie rule says so. -/
structure Shortest (tie : Tie) (P : ℚ → Prop) (q : ℚ) (d : Decimal) : Prop extends Fewest P d where
  nearest : ∀ d' : Decimal, P d'.value → Numeral.width d'.digits ≤ Numeral.width d.digits →
    |q - d.value| ≤ |q - d'.value|
  upper : tie = .up → ∀ d' : Decimal, P d'.value →
    Numeral.width d'.digits ≤ Numeral.width d.digits → |q - d.value| = |q - d'.value| →
    d'.value ≤ d.value

/-- A decimal with no more digits than there are from the leading one down to `10 ^ f` is a point of
that grid or lies below the leading digit. -/
lemma onGrid_or_lt (h : (Numeral.width d.digits : ℤ) ≤ topExponent r - f + 1) :
    (∃ k : Nat, d.value = k * 10 ^ f) ∨ d.value < 10 ^ topExponent r := by
  rcases le_or_gt f d.exponent with he | he
  · exact .inl (exists_multiple d.digits he)
  · exact .inr (d.value_lt.trans_le (ten_zpow_le (by omega)))

/-- If something below the leading digit reads back, so does the power of ten in between, which is
a point of each grid. -/
lemma exists_near_top (hr : 0 < r) (hf : f ≤ topExponent r) (hd : Near r d.value)
    (hlt : d.value < 10 ^ topExponent r) :
    ∃ k : Nat, Near r (k * 10 ^ f) ∧ (k : ℚ) * 10 ^ f = 10 ^ topExponent r := by
  obtain ⟨k, hk⟩ := exists_multiple 1 hf
  rw [Nat.cast_one, one_mul] at hk
  refine ⟨k, ?_, hk.symm⟩
  rw [← hk]
  exact hd.between (near_magnitude hr) hlt.le (le_magnitude hr)

lemma steps_lt {n : Nat} (hr : 0 < r) (hn : (n : ℤ) = topExponent r - f + 1) :
    steps r f < 10 ^ n := by
  have hlt := (steps_le r f).trans_lt (magnitude_lt hr)
  rw [show topExponent r + 1 = n + f by omega, zpow_add₀ (by norm_num), zpow_natCast] at hlt
  exact_mod_cast lt_of_mul_lt_mul_right hlt (ten_zpow_pos f).le

/-- On the first grid with a hit there are as many digits as the fewest that read back have. -/
lemma fewest_of_first (hr : 0 < r) (hf : f ≤ topExponent r)
    (hfirst : ∀ g, f < g → g ≤ topExponent r → Misses r g) (hd : Near r d.value) :
    topExponent r - f + 1 ≤ Numeral.width d.digits := by
  by_contra hlt
  have hwidth := Numeral.width_pos d.digits
  have hnext : f + 1 ≤ topExponent r := by omega
  rcases onGrid_or_lt (r := r) (f := f + 1) (d := d) (by omega) with ⟨k, hk⟩ | hlow
  · rw [hk] at hd
    exact hfirst (f + 1) (by omega) hnext k hd
  · obtain ⟨k, hk, -⟩ := exists_near_top hr hnext hd hlow
    exact hfirst (f + 1) (by omega) hnext k hk

/-- What is nearest on a grid is nearest among all decimals that read back with no more digits, and
those that are equally near are points of the grid as well. -/
lemma Closest.onGrid_or_nearer (h : Closest tie r f d) (hr : 0 < r) (hf : f ≤ topExponent r)
    (hd' : Near r d'.value) (hwidth : (Numeral.width d'.digits : ℤ) ≤ topExponent r - f + 1) :
    (∃ k : Nat, d'.value = k * 10 ^ f) ∨ |magnitude r - d.value| < |magnitude r - d'.value| := by
  rcases onGrid_or_lt hwidth with hgrid | hlt
  · exact .inl hgrid
  · obtain ⟨k, hk, htop⟩ := exists_near_top hr hf hd' hlt
    have hmag := le_magnitude hr
    have hle := h.le k hk
    rw [htop, abs_of_nonneg (sub_nonneg.mpr hmag)] at hle
    rw [abs_of_nonneg (a := magnitude r - d'.value) (by linarith)]
    exact .inr (by linarith)

/-- **The search finds the shortest decimal**: it reads back with the fewest digits, of those with
as few it is the nearest, and of two equally near ones it is the upper one, if the tie rule says
so. It never has more than seventeen digits. -/
theorem shortest_spec (tie : Tie) (hr : 0 < r) :
    Shortest tie (Near r) (magnitude r) (shortest tie r) ∧
      Numeral.width (shortest tie r).digits ≤ 17 := by
  obtain ⟨f, hlo, hf, hclosest, hfirst⟩ := search_closest tie hr
  obtain ⟨n, hn⟩ : ∃ n : Nat, (n : ℤ) = topExponent r - f + 1 :=
    ⟨(topExponent r - f + 1).toNat, by omega⟩
  have hvalue : (shortest tie r).value = (search tie r (topExponent r) 17).value := value_strip _
  have hdigits : 0 < (search tie r (topExponent r) 17).digits := digits_pos hclosest.near
  have hwidth : Numeral.width (shortest tie r).digits ≤ n :=
    width_strip_le hdigits (by omega) (hclosest.digits_le.trans (steps_lt hr hn))
  refine ⟨⟨⟨?_, strip_digits_mod hdigits, fun d' hd' => ?_⟩, fun d' hd' hle => ?_,
    fun htie d' hd' hle heq => ?_⟩, by omega⟩
  · rw [hvalue]
    exact hclosest.near
  · have := fewest_of_first hr hf hfirst hd'
    omega
  · rw [hvalue]
    rcases hclosest.onGrid_or_nearer hr hf hd' (by omega) with ⟨k, hk⟩ | hlt
    · rw [hk] at hd' ⊢
      exact hclosest.le k hd'
    · exact hlt.le
  · rw [hvalue] at heq ⊢
    rcases hclosest.onGrid_or_nearer hr hf hd' (by omega) with ⟨k, hk⟩ | hlt
    · rw [hk] at hd' heq ⊢
      exact hclosest.upper htie k hd' heq
    · exact absurd heq hlt.ne

end StyleVars.Decimal
