import StyleVars.Proofs.Unicode.Lowering
import StyleVars.Sheet.Expression

/-!
How keys in kebab case begin. No letter is lower-cased to a character that means something at the
beginning of a name, and a colon there is no part of a word; so it makes no difference whether a
key is turned into kebab case before or after the colon is taken away.
-/

namespace StyleVars.Unicode

open Sheet (isMarker)

/-- Capital letters lie behind the markers, and so do the small letters that belong to them. -/
lemma lower_bound_of_mem_lowerRuns :
    ∀ r ∈ lowerRuns, 0x41 ≤ r.first ∧ 0x41 ≤ (r.first : Int) + r.offset := by
  decide +kernel

lemma toNat_of_isMarker {c : Char} (h : isMarker c = true) : 0 < c.toNat ∧ c.toNat < 0x41 := by
  simp only [isMarker, Bool.or_eq_true, beq_iff_eq] at h
  rcases h with (rfl | rfl) | rfl <;> decide

lemma isMarker_ofNat {n : Nat} (h : 0x41 ≤ n) : isMarker (Char.ofNat n) = false := by
  by_contra hm
  obtain ⟨hpos, hlt⟩ := toNat_of_isMarker (Bool.of_not_eq_false hm)
  rcases toNat_ofNat_cases n with hn | hn <;> omega

/-- The first character of the lower-case form of `c`: a marker stands for itself, and nothing
else becomes one. -/
lemma lowerChar_eq_cons (c : Char) :
    ∃ d ds, lowerChar c = d :: ds ∧ (d = c ∨ isMarker c = false ∧ isMarker d = false) := by
  rw [lowerChar]
  split
  · next hc => exact ⟨'i', ['\u0307'], rfl, .inr ⟨by rw [hc]; rfl, rfl⟩⟩
  · split
    · next r hr =>
      obtain ⟨hfirst, hoffset⟩ := lower_bound_of_mem_lowerRuns r (List.mem_of_find?_eq_some hr)
      have hcovers : r.first ≤ c.toNat := by
        have hc := List.find?_some hr
        simp only [CaseRun.covers, Bool.and_eq_true, decide_eq_true_eq] at hc
        exact hc.1.1
      refine ⟨_, [], rfl, .inr ⟨?_, isMarker_ofNat (by omega)⟩⟩
      by_contra hm
      have hlt := (toNat_of_isMarker (Bool.of_not_eq_false hm)).2
      omega
    · exact ⟨c, [], rfl, .inl rfl⟩

lemma lowerBetween_eq_cons (before : Text) (c : Char) (after : Text) :
    ∃ d ds, lowerBetween before c after = d :: ds ∧
      (d = c ∨ isMarker c = false ∧ isMarker d = false) := by
  rw [lowerBetween]
  split
  · next hc =>
    refine ⟨_, [], rfl, .inr ⟨by rw [hc]; rfl, ?_⟩⟩
    split <;> rfl
  · exact lowerChar_eq_cons c

/-- A colon before a text is not seen from within it. -/
lemma meetsCased_append_colon (s : Text) : meetsCased (s ++ [':']) = meetsCased s := by
  have hcolon : isCaseIgnorable ':' = true := by decide +kernel
  induction s with
  | nil => simp [meetsCased, hcolon]
  | cons c s ih =>
    by_cases hc : isCaseIgnorable c = true
    · simpa [meetsCased, hc] using ih
    · simp [meetsCased, hc]

lemma lowerFrom_append_colon (before s : Text) :
    lowerFrom (before ++ [':']) s = lowerFrom before s := by
  induction s generalizing before with
  | nil => rfl
  | cons c s ih =>
    rw [lowerFrom, lowerFrom, ← List.cons_append, ih, lowerBetween, lowerBetween,
      meetsCased_append_colon]

end StyleVars.Unicode

namespace StyleVars.Sheet

lemma hyphenate_cons (c : Char) (cs : Text) :
    hyphenate none (c :: cs) = c :: hyphenate (some c) cs := by
  simp [hyphenate, beginsWord]

/-- No word begins because of a colon before it. -/
lemma hyphenate_colon (cs : Text) : hyphenate (some ':') cs = hyphenate none cs := by
  cases cs with
  | nil => rfl
  | cons c cs =>
    have hbegins : beginsWord (some ':') c cs.head? = beginsWord none c cs.head? := rfl
    rw [hyphenate, hyphenate, hbegins]

theorem kebab_colon (key : Text) : kebab (':' :: key) = ':' :: kebab key := by
  have hlower : Unicode.lowerBetween [] ':' (hyphenate none key) = [':'] := by
    rw [Unicode.lowerBetween, if_neg (by decide)]
    decide +kernel
  rw [kebab, hyphenate_cons, hyphenate_colon, Unicode.toLower, Unicode.lowerFrom, hlower, kebab]
  exact congrArg (':' :: ·) (Unicode.lowerFrom_append_colon [] (hyphenate none key))

/-- The kebab form of a key begins as the key does, or neither begins with a marker. -/
lemma kebab_cons (c : Char) (cs : Text) :
    ∃ d ds, kebab (c :: cs) = d :: ds ∧ (d = c ∨ isMarker c = false ∧ isMarker d = false) := by
  obtain ⟨d, ds, heq, h⟩ := Unicode.lowerBetween_eq_cons [] c (hyphenate (some c) cs)
  refine ⟨d, ds ++ Unicode.lowerFrom [c] (hyphenate (some c) cs), ?_, h⟩
  rw [kebab, hyphenate_cons, Unicode.toLower, Unicode.lowerFrom, heq, List.cons_append]

/-- **The colon can be taken away before or after the conversion.** -/
theorem stripColon_kebab (key : Text) : stripColon (kebab key) = kebab (stripColon key) := by
  rcases key with _ | ⟨c, key⟩
  · rfl
  · by_cases hc : c = ':'
    · subst hc
      rw [kebab_colon]
      rfl
    · rw [stripColon_cons_of_ne hc]
      obtain ⟨d, ds, heq, h⟩ := kebab_cons c key
      have hd : d ≠ ':' := by
        rintro rfl
        rcases h with rfl | ⟨-, h⟩
        · exact hc rfl
        · cases h
      rw [heq, stripColon_cons_of_ne hd]

/-- **The conversion makes no key eligible or ineligible.** -/
theorem isEligible_kebab (key : Text) : isEligible (kebab key) = isEligible key := by
  rw [isEligible, isEligible, stripColon_kebab]
  rcases stripColon key with _ | ⟨c, cs⟩
  · rfl
  · obtain ⟨d, ds, heq, h⟩ := kebab_cons c cs
    rw [heq]
    rcases h with rfl | ⟨hc, hd⟩
    · rfl
    · simp only [hc, hd]

/-- The form of a key that becomes a name when the colon is taken away. -/
def keyForm (o : Settings) (key : Text) : Text := if o.convertCase then kebab key else key

lemma nameOf_eq (o : Settings) (key : Text) : nameOf o key = stripColon (keyForm o key) := rfl

lemma isEligible_keyForm (o : Settings) (key : Text) :
    isEligible (keyForm o key) = isEligible key := by
  rw [keyForm]
  split
  · exact isEligible_kebab key
  · rfl

end StyleVars.Sheet
