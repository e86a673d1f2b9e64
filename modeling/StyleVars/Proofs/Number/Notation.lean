import Mathlib.Data.List.Basic
import StyleVars.Number.Notation

/-!
The alphabet of written numbers: decimal digits, signs, a point and the letter of an exponent.
-/

namespace StyleVars

/-- The characters of numbers in a stylesheet. -/
def isNumeric (c : Char) : Bool :=
  Numeral.isDigit c || c == '+' || c == '-' || c == '.' || c == 'e'

/-- Every character of a text is one of those that numbers are written with. -/
def Numeric (s : Text) : Prop := ∀ c ∈ s, isNumeric c = true

/-- These characters take one byte each. -/
lemma utf8Size_of_isNumeric {c : Char} (h : isNumeric c = true) : c.utf8Size = 1 := by
  rw [Char.utf8Size_eq_one_iff]
  simp only [isNumeric, Numeral.isDigit, Bool.or_eq_true, Bool.and_eq_true, decide_eq_true_eq,
    beq_iff_eq] at h
  rcases h with (((h | rfl) | rfl) | rfl) | rfl
  · exact UInt32.le_trans h.2 (by decide)
  all_goals decide

namespace Numeric

variable {s t : Text} {c : Char}

lemma nil : Numeric [] := fun _ h => nomatch h

lemma cons (hc : isNumeric c = true) (hs : Numeric s) : Numeric (c :: s) :=
  List.forall_mem_cons.mpr ⟨hc, hs⟩

lemma append (hs : Numeric s) (ht : Numeric t) : Numeric (s ++ t) :=
  List.forall_mem_append.mpr ⟨hs, ht⟩

lemma replicate (hc : isNumeric c = true) (n : Nat) : Numeric (List.replicate n c) :=
  fun d hd => by rw [List.eq_of_mem_replicate hd, hc]

lemma take (hs : Numeric s) (n : Nat) : Numeric (s.take n) :=
  fun c hc => hs c (List.mem_of_mem_take hc)

lemma drop (hs : Numeric s) (n : Nat) : Numeric (s.drop n) :=
  fun c hc => hs c (List.mem_of_mem_drop hc)

lemma ofNat (n : Nat) : Numeric (Numeral.ofNat n) :=
  fun c hc => by rw [isNumeric, Numeral.isDigit_of_mem_ofNat hc]; rfl

end Numeric

namespace Decimal

lemma numeric_positional (d : Decimal) : Numeric d.positional := by
  have hds := Numeric.ofNat d.digits
  rw [positional]
  split
  · exact hds.append (.replicate rfl _)
  · split
    · exact (hds.take _).append (.cons rfl (hds.drop _))
    · exact .cons rfl (.cons rfl ((Numeric.replicate rfl _).append hds))

lemma numeric_mantissa (d : Decimal) : Numeric d.mantissa := by
  have hds := Numeric.ofNat d.digits
  rw [mantissa]
  split
  · exact .nil
  · next heq => rwa [heq] at hds
  · next c cs _ heq =>
    rw [heq] at hds
    obtain ⟨hc, hcs⟩ := List.forall_mem_cons.mp hds
    exact .cons hc (.cons rfl hcs)

lemma numeric_scientific (d : Decimal) : Numeric d.scientific := by
  refine d.numeric_mantissa.append (.cons rfl (.cons ?_ (.ofNat _)))
  split <;> rfl

end Decimal

namespace Double

lemma numeric_canonicalMagnitude (r : Nat) : Numeric (canonicalMagnitude r) := by
  rw [canonicalMagnitude]
  split
  · exact Decimal.numeric_scientific _
  · split
    · exact .ofNat _
    · exact Decimal.numeric_positional _

lemma exists_canonical (negative : Bool) (r : Fin rankCount) :
    ∃ t, (finite negative r).canonical = some t := by
  rw [canonical]
  split <;> exact ⟨_, rfl⟩

/-- Only finite numbers have a text: zero has one, and the others have that of their magnitude with
a sign. -/
lemma canonical_eq_some {x : Double} {s : Text} (h : x.canonical = some s) :
    ∃ negative r, x = .finite negative r ∧
      (r.val = 0 ∧ s = ['0'] ∨ 0 < r.val ∧ s = signText negative ++ canonicalMagnitude r) := by
  cases x with
  | nan => cases h
  | infinite => cases h
  | finite negative r =>
    refine ⟨negative, r, rfl, ?_⟩
    rw [canonical] at h
    split at h
    · next hr =>
      cases h
      exact .inl ⟨hr, rfl⟩
    · next hr =>
      cases h
      exact .inr ⟨Nat.pos_of_ne_zero hr, rfl⟩

/-- **Numbers are written with digits, signs, points and exponents** and nothing else. -/
theorem numeric_canonical {x : Double} {s : Text} (h : x.canonical = some s) : Numeric s := by
  obtain ⟨negative, r, -, ⟨-, rfl⟩ | ⟨-, rfl⟩⟩ := canonical_eq_some h
  · exact .cons rfl .nil
  · have hsign : Numeric (signText negative) := by
      cases negative
      · exact .nil
      · exact .cons rfl .nil
    exact hsign.append (numeric_canonicalMagnitude r)

end Double

end StyleVars
