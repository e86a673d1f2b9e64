import StyleVars.Proofs.Number.Rounding

/-!
What is rounded to a magnitude: everything between the midpoints to its two neighbours. A midpoint
itself belongs to the one of its two magnitudes that has the even rank.
-/

namespace StyleVars.Double

/-- Half-way from the magnitude of rank `r` to the next one. -/
def midpoint (r : Nat) : ℚ := (magnitude r + magnitude (r + 1)) / 2

/-- The number `q` lies between the midpoints on both sides of the magnitude of the positive rank
`r`, or is one of them and the rank is even. -/
def Near (r : Nat) (q : ℚ) : Prop :=
  if r % 2 = 0 then midpoint (r - 1) ≤ q ∧ q ≤ midpoint r
  else midpoint (r - 1) < q ∧ q < midpoint r

variable {q x y : ℚ} {r s : Nat}

/-! ### Midpoints -/

lemma two_mul_midpoint (r : Nat) : 2 * midpoint r = magnitude r + magnitude (r + 1) := by
  rw [midpoint]
  ring

lemma two_mul_midpoint_pred (hr : 0 < r) :
    2 * midpoint (r - 1) = magnitude (r - 1) + magnitude r := by
  rw [two_mul_midpoint, Nat.sub_add_cancel hr]

/-- An infinity takes over from the midpoint above the last magnitude on. -/
lemma midpoint_last : midpoint (rankCount - 1) = overflow := by
  rw [midpoint, div_eq_iff two_ne_zero, mul_comm, two_mul_overflow]
  rfl

lemma magnitude_lt_midpoint (r : Nat) : magnitude r < midpoint r := by
  have hstep : magnitude r < magnitude (r + 1) := magnitude_strictMono (Nat.lt_succ_self r)
  rw [midpoint]
  linarith

lemma midpoint_lt_magnitude (h : r < s) : midpoint r < magnitude s := by
  have hstep : magnitude r < magnitude (r + 1) := magnitude_strictMono (Nat.lt_succ_self r)
  have hle : magnitude (r + 1) ≤ magnitude s := magnitude_strictMono.monotone h
  rw [midpoint]
  linarith

lemma midpoint_strictMono : StrictMono midpoint :=
  strictMono_nat_of_lt_succ fun r =>
    (midpoint_lt_magnitude (Nat.lt_succ_self r)).trans (magnitude_lt_midpoint (r + 1))

lemma midpoint_pred_lt (hr : 0 < r) : midpoint (r - 1) < magnitude r :=
  midpoint_lt_magnitude (by omega)

lemma midpoint_of_steps {e m : Nat} (hm : m < 2 * binade) (he : e = 0 ∨ binade ≤ m) :
    midpoint (e * binade + m) = (m + 1 / 2) * (2 ^ e / one) := by
  rw [midpoint, Nat.add_assoc, magnitude_of_steps hm.le he,
    magnitude_of_steps (by omega) (by omega)]
  push_cast
  ring

/-- A magnitude is a whole number of steps, fewer than `2 ^ 53`. The next midpoint is half a step
above it, and the one below it is half a step away unless steps become smaller there. -/
lemma exists_step (hr : 0 < r) :
    ∃ (m : Nat) (w : ℚ), 0 < w ∧ m < 2 * binade ∧ magnitude r = m * w ∧
      midpoint r = m * w + w / 2 ∧ (m ≤ binade ∨ midpoint (r - 1) = m * w - w / 2) := by
  obtain ⟨e, m, hrank, hm, he⟩ := eq_steps r
  have hmag : magnitude r = m * (2 ^ e / one) := by
    rw [hrank]
    exact magnitude_of_steps hm.le he
  refine ⟨m, 2 ^ e / one, div_pos (by positivity) one_pos, hm, hmag, ?_, ?_⟩
  · rw [hrank, midpoint_of_steps hm he]
    ring
  · by_cases hpower : m ≤ binade
    · exact .inl hpower
    · have hrank' : r - 1 = e * binade + (m - 1) := by omega
      refine .inr ?_
      rw [hrank', midpoint_of_steps (by omega) (by omega), Nat.cast_sub (by omega), Nat.cast_one]
      ring

/-! ### What is near to a magnitude -/

lemma Near.bounds (h : Near r q) : midpoint (r - 1) ≤ q ∧ q ≤ midpoint r := by
  rw [Near] at h
  split at h
  · exact h
  · exact ⟨h.1.le, h.2.le⟩

lemma near_of_lt (hlo : midpoint (r - 1) < q) (hhi : q < midpoint r) : Near r q := by
  rw [Near]
  split
  · exact ⟨hlo.le, hhi.le⟩
  · exact ⟨hlo, hhi⟩

lemma near_magnitude (hr : 0 < r) : Near r (magnitude r) :=
  near_of_lt (midpoint_pred_lt hr) (magnitude_lt_midpoint r)

/-- What lies between two numbers near to a magnitude is near to it as well. -/
lemma Near.between (hx : Near r x) (hy : Near r y) (hxq : x ≤ q) (hqy : q ≤ y) : Near r q := by
  rw [Near] at *
  split at hx
  · next heven =>
    rw [if_pos heven] at hy ⊢
    exact ⟨hx.1.trans hxq, hqy.trans hy.2⟩
  · next hodd =>
    rw [if_neg hodd] at hy ⊢
    exact ⟨hx.1.trans_le hxq, hqy.trans_lt hy.2⟩

lemma Near.pos (h : Near r q) : 0 < q := by
  have hzero : magnitude 0 < midpoint 0 := magnitude_lt_midpoint 0
  have hmono : magnitude 0 ≤ magnitude (r - 1) := magnitude_strictMono.monotone (Nat.zero_le _)
  have hlo := h.bounds.1
  have hlt := magnitude_lt_midpoint (r - 1)
  rw [magnitude_zero] at hmono
  linarith

/-- No number is near to two magnitudes. -/
lemma Near.not_lt (hr : Near r q) (hs : Near s q) : ¬ r < s := by
  intro hlt
  have hmono : midpoint r ≤ midpoint (s - 1) := midpoint_strictMono.monotone (by omega)
  have hq : q = midpoint r := le_antisymm hr.bounds.2 (hmono.trans hs.bounds.1)
  have hsucc : r = s - 1 :=
    midpoint_strictMono.injective (le_antisymm hmono (hs.bounds.1.trans hr.bounds.2))
  -- The midpoint between them belongs to one of the two only.
  rw [Near] at hr hs
  split at hr
  · rw [if_neg (by omega), ← hsucc] at hs
    exact hs.1.ne' hq
  · exact hr.2.ne hq

/-! ### What is rounded to a magnitude -/

/-- Of two numbers the greater one is nearer only from the middle on. -/
lemma add_lt_two_mul_of_nearer (hxy : x < y) (h : |q - y| < |q - x|) : x + y < 2 * q := by
  by_contra hq
  have hx : q - y < 0 := by linarith
  rw [abs_of_neg hx, lt_abs] at h
  rcases h with h | h <;> linarith

lemma two_mul_lt_add_of_nearer (hxy : x < y) (h : |q - x| < |q - y|) : 2 * q < x + y := by
  by_contra hq
  have hx : 0 < q - x := by linarith
  rw [abs_of_pos hx, lt_abs] at h
  rcases h with h | h <;> linarith

lemma two_mul_eq_add_of_equally_near (hxy : x < y) (h : |q - x| = |q - y|) : 2 * q = x + y := by
  rcases abs_eq_abs.mp h with h | h <;> linarith

lemma near_of_nearest {ranks : Set Nat} (h : Nearest ranks q r) (hr : 0 < r)
    (hlo : r - 1 ∈ ranks) (hhi : r + 1 ∈ ranks ∨ r % 2 = 1 ∧ q < midpoint r) : Near r q := by
  have hbelow : magnitude (r - 1) < magnitude r := magnitude_strictMono (by omega)
  have habove : magnitude r < magnitude (r + 1) := magnitude_strictMono (by omega)
  have hpred := two_mul_midpoint_pred hr
  have hmid := two_mul_midpoint r
  have hleft : midpoint (r - 1) < q ∨ midpoint (r - 1) = q ∧ r % 2 = 0 := by
    rcases h (r - 1) hlo (by omega) with hlt | ⟨heq, heven⟩
    · exact .inl (by linarith [add_lt_two_mul_of_nearer hbelow hlt])
    · exact .inr ⟨by linarith [two_mul_eq_add_of_equally_near hbelow heq.symm], heven⟩
  have hright : q < midpoint r ∨ q = midpoint r ∧ r % 2 = 0 := by
    rcases hhi with hhi | ⟨-, hlt⟩
    · rcases h (r + 1) hhi (by omega) with hlt | ⟨heq, heven⟩
      · exact .inl (by linarith [two_mul_lt_add_of_nearer habove hlt])
      · exact .inr ⟨by linarith [two_mul_eq_add_of_equally_near habove heq], heven⟩
    · exact .inl hlt
  rw [Near]
  split
  · exact ⟨hleft.elim le_of_lt fun h => h.1.le, hright.elim le_of_lt fun h => h.1.le⟩
  · next hodd =>
    exact ⟨hleft.resolve_right fun h => hodd h.2, hright.resolve_right fun h => hodd h.2⟩

lemma nearest_of_near {ranks : Set Nat} (h : Near r q) (hr : 0 < r) : Nearest ranks q r := by
  have hpred := two_mul_midpoint (r - 1)
  have hmid := two_mul_midpoint r
  have hsucc : r - 1 + 1 = r := Nat.sub_add_cancel hr
  obtain ⟨hlo, hhi⟩ := h.bounds
  rcases le_total q (magnitude r) with hq | hq
  · have hbelow := magnitude_lt_midpoint (r - 1)
    refine nearest_of_enclosed (r - 1) (by linarith) (by rwa [hsucc]) (.inr hsucc.symm) ?_
      (fun _ => hsucc.symm) ?_
    · intro hlt
      linarith
    · intro heq
      by_contra hodd
      rw [Near, if_neg hodd] at h
      linarith [h.1]
  · have habove := midpoint_lt_magnitude (Nat.lt_succ_self r)
    refine nearest_of_enclosed r hq (hhi.trans habove.le) (.inl rfl) (fun _ => rfl) ?_ ?_
    · intro hlt
      linarith
    · intro heq
      by_contra hodd
      rw [Near, if_neg hodd] at h
      linarith [h.2]

/-- **A number is rounded to a positive magnitude exactly if it is near to it.** -/
theorem rounds_iff_near {negative : Bool} {r : Fin rankCount} (hr : 0 < r.val) :
    Rounds negative q (.finite negative r) ↔ Near r q := by
  constructor
  · intro h
    cases h with
    | finite hq h =>
      refine near_of_nearest h hr (Set.mem_Iio.mpr (by omega)) ?_
      by_cases hlast : r.val + 1 < rankCount
      · exact .inl hlast
      · -- There is no next magnitude, but an infinity instead.
        have heq : r.val = rankCount - 1 := by omega
        rw [← midpoint_last] at hq
        rw [heq]
        exact .inr ⟨rfl, hq⟩
  · intro h
    have hround := rounds_ofRank negative (nearest_of_near h hr)
    rwa [ofRank, dif_pos r.isLt] at hround

end StyleVars.Double
