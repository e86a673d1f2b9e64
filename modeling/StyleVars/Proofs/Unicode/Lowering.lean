import Mathlib.Data.List.Basic
import StyleVars.Unicode.Lowering

/-!
Lower-casing leaves alone what it has given. No run of letters is mapped to a letter that is mapped
further, and a capital sigma is never the form of another letter; so the context of a sigma, which
decides between its two forms, has nothing to decide the second time.
-/

namespace StyleVars.Unicode

namespace CaseRun

/-- The code point to which the run maps `n`. -/
def image (r : CaseRun) (n : Nat) : Nat := (n + r.offset).toNat

/-- Whether the images of `r` and the code points of `s` lie in ranges that overlap. -/
def overlaps (r s : CaseRun) : Bool :=
  Nat.ble s.first (r.image r.last) && Nat.ble (r.image r.first) s.last

lemma covers_iff (r : CaseRun) (n : Nat) :
    r.covers n = true ↔ r.first ≤ n ∧ n ≤ r.last ∧ (n - r.first) % r.stride = 0 := by
  simp [covers, and_assoc]

lemma overlaps_of_covers {r s : CaseRun} {n : Nat} (hn : r.covers n = true)
    (hs : s.covers (r.image n) = true) : r.overlaps s = true := by
  obtain ⟨hfirst, hlast, -⟩ := (covers_iff r n).mp hn
  obtain ⟨hsfirst, hslast, -⟩ := (covers_iff s _).mp hs
  simp only [image] at hsfirst hslast
  simp only [overlaps, image, Bool.and_eq_true, Nat.ble_eq]
  omega

end CaseRun

/-- Everything that lower-casing changes: the runs, and the capital `I` with a dot. -/
def capitals : List CaseRun := ⟨0x130, 0x130, 1, 0⟩ :: lowerRuns

/-- Only ranges that overlap are searched code point by code point. -/
lemma not_covers_of_overlaps :
    ∀ r ∈ lowerRuns, ∀ s ∈ capitals.filter r.overlaps,
      ∀ n ∈ List.range' r.first (r.last + 1 - r.first), r.covers n = true →
        s.covers (r.image n) = false := by
  decide +kernel

/-- No letter is mapped to a letter that is mapped further. -/
lemma not_covers_image {r s : CaseRun} {n : Nat} (hr : r ∈ lowerRuns) (hs : s ∈ capitals)
    (hn : r.covers n = true) : s.covers (r.image n) = false := by
  by_contra hcovers
  have hoverlaps := CaseRun.overlaps_of_covers hn (Bool.of_not_eq_false hcovers)
  obtain ⟨hfirst, hlast, -⟩ := (CaseRun.covers_iff r n).mp hn
  have hmem : n ∈ List.range' r.first (r.last + 1 - r.first) := by
    rw [List.mem_range'_1]
    omega
  exact hcovers
    (not_covers_of_overlaps r hr s (List.mem_filter.mpr ⟨hs, hoverlaps⟩) n hmem hn)

/-! ### Single characters -/

/-- Lower-casing leaves the character alone. -/
def IsLowered (c : Char) : Prop := lowerChar c = [c]

lemma isLowered_of_not_covers {c : Char} (h : ∀ s ∈ capitals, s.covers c.toNat = false) :
    IsLowered c := by
  obtain ⟨hdotted, hruns⟩ := List.forall_mem_cons.mp h
  have hc : c ≠ '\u0130' := by
    rintro rfl
    revert hdotted
    decide +kernel
  have hfind : lowerRuns.find? (·.covers c.toNat) = none := by
    rw [List.find?_eq_none]
    intro s hs
    rw [hruns s hs]
    exact Bool.false_ne_true
  rw [IsLowered, lowerChar, if_neg hc, hfind]

/-- The character zero stands for all numbers that are no code point. -/
lemma toNat_ofNat_cases (n : Nat) : (Char.ofNat n).toNat = n ∨ (Char.ofNat n).toNat = 0 := by
  by_cases hv : n.isValidChar
  · left
    rw [Char.ofNat, dif_pos hv]
    rfl
  · right
    rw [Char.ofNat, dif_neg hv]
    rfl

lemma isLowered_ofNat {n : Nat} (h : ∀ s ∈ capitals, s.covers n = false) :
    IsLowered (Char.ofNat n) := by
  refine isLowered_of_not_covers ?_
  rcases toNat_ofNat_cases n with heq | heq <;> rw [heq]
  · exact h
  · decide +kernel

lemma isLowered_of_mem_lowerChar {c d : Char} (h : d ∈ lowerChar c) : IsLowered d := by
  rw [lowerChar] at h
  split at h
  · refine isLowered_of_not_covers ?_
    rcases List.mem_pair.mp h with rfl | rfl <;> decide +kernel
  · next hc =>
    split at h
    · next r hr =>
      obtain rfl := List.mem_singleton.mp h
      have hcovers := List.find?_some hr
      exact isLowered_ofNat fun s hs =>
        not_covers_image (List.mem_of_find?_eq_some hr) hs hcovers
    · next hnone =>
      obtain rfl := List.mem_singleton.mp h
      rw [IsLowered, lowerChar, if_neg hc, hnone]

lemma isLowered_of_mem_lowerBetween {before after : Text} {c d : Char}
    (h : d ∈ lowerBetween before c after) : IsLowered d := by
  rw [lowerBetween] at h
  split at h
  · obtain rfl := List.mem_singleton.mp h
    split <;> exact isLowered_of_not_covers (by decide +kernel)
  · exact isLowered_of_mem_lowerChar h

/-- What holds of 26 characters holds of all ASCII capitals. -/
lemma forall_isUpper {P : Char → Prop} (h : ∀ n ∈ List.range' 65 26, P (Char.ofNat n)) {c : Char}
    (hc : c.isUpper = true) : P c := by
  have hval : 'A'.val ≤ c.val ∧ c.val ≤ 'Z'.val := of_decide_eq_true hc
  have hfirst : 65 ≤ c.toNat := UInt32.le_iff_toNat_le.mp hval.1
  have hlast : c.toNat ≤ 90 := UInt32.le_iff_toNat_le.mp hval.2
  have hmem : c.toNat ∈ List.range' 65 26 := by
    rw [List.mem_range'_1]
    omega
  have hP := h c.toNat hmem
  rwa [Char.ofNat_toNat] at hP

/-- No ASCII capital is left alone. -/
lemma IsLowered.isUpper_eq_false {c : Char} (h : IsLowered c) : c.isUpper = false := by
  by_contra hupper
  exact forall_isUpper (P := fun c => lowerChar c ≠ [c]) (by decide +kernel)
    (Bool.of_not_eq_false hupper) h

/-! ### Texts -/

lemma isLowered_of_mem_lowerFrom {before s : Text} {d : Char} (h : d ∈ lowerFrom before s) :
    IsLowered d := by
  induction s generalizing before with
  | nil => cases h
  | cons c s ih =>
    rw [lowerFrom, List.mem_append] at h
    rcases h with h | h
    · exact isLowered_of_mem_lowerBetween h
    · exact ih h

/-- A text of such characters has no capital sigma, so what stands around makes no difference. -/
lemma lowerFrom_of_isLowered (before : Text) {s : Text} (h : ∀ c ∈ s, IsLowered c) :
    lowerFrom before s = s := by
  induction s generalizing before with
  | nil => rfl
  | cons c s ih =>
    obtain ⟨hc, hs⟩ := List.forall_mem_cons.mp h
    have hsigma : c ≠ '\u03A3' := by
      rintro rfl
      revert hc
      rw [IsLowered]
      decide +kernel
    rw [lowerFrom, lowerBetween, if_neg hsigma, hc, ih _ hs, List.singleton_append]

/-- **Lower-casing twice is lower-casing once.** -/
theorem toLower_toLower (s : Text) : toLower (toLower s) = toLower s :=
  lowerFrom_of_isLowered [] fun _ => isLowered_of_mem_lowerFrom

end StyleVars.Unicode
