import StyleVars.Proofs.Json.WrittenNumber
import StyleVars.Proofs.Sheet.Link
import StyleVars.Proofs.Sheet.Written

/-!
Numbers as values in a stylesheet. They are written like strings, and of the characters that put a
string in quotes a number can only have the plus sign of an exponent. So numbers from `10 ^ 21` on
are in quotes, wherever they stand, and no others.
-/

namespace StyleVars

/-! ### Plus signs -/

lemma plus_notMem_ofNat (n : Nat) : '+' ∉ Numeral.ofNat n := fun h =>
  absurd (Numeral.isDigit_of_mem_ofNat h) (by decide)

namespace Decimal

variable {d : Decimal}

lemma plus_notMem_positional (d : Decimal) : '+' ∉ d.positional := by
  have hds := plus_notMem_ofNat d.digits
  have htake {n : Nat} : '+' ∉ (Numeral.ofNat d.digits).take n := fun h =>
    hds (List.mem_of_mem_take h)
  have hdrop {n : Nat} : '+' ∉ (Numeral.ofNat d.digits).drop n := fun h =>
    hds (List.mem_of_mem_drop h)
  rw [positional]
  split
  · simp [hds]
  · split
    · simp [htake, hdrop]
    · simp [hds]

lemma plus_notMem_mantissa (d : Decimal) : '+' ∉ d.mantissa := by
  have hds := plus_notMem_ofNat d.digits
  rw [mantissa]
  split
  · simp
  · next heq => rwa [heq] at hds
  · next heq =>
    rw [heq] at hds
    simp_all

/-- The plus sign of an exponent that is not negative. -/
lemma plus_mem_scientific_iff : '+' ∈ d.scientific ↔ 0 ≤ d.leading := by
  have hmantissa := d.plus_notMem_mantissa
  have hexponent := plus_notMem_ofNat d.leading.natAbs
  rw [scientific]
  by_cases hsign : d.leading < 0
  · simp [hsign, hmantissa, hexponent]
  · simp [hsign, not_lt.mp hsign]

end Decimal

namespace Double

variable {r : Nat}

lemma plus_mem_canonicalMagnitude_iff (hr : 0 < r) :
    '+' ∈ canonicalMagnitude r ↔ 10 ^ 21 ≤ magnitude r := by
  have hupper := leading_lt_upper_iff hr
  have hform := form_canonicalMagnitude hr
  generalize canonicalMagnitude r = t at *
  cases hform with
  | scientific h =>
    rw [Decimal.plus_mem_scientific_iff]
    rcases h with h | h
    · have hlead := hupper.not.mpr (not_lt.mpr h)
      exact iff_of_true (by omega) h
    · have hlead := (leading_lt_lower_iff hr).mpr h
      exact iff_of_false (by omega) (not_le.mpr (hupper.mp (by omega)))
  | whole hlt _ => exact iff_of_false (plus_notMem_ofNat _) (not_le.mpr hlt)
  | positional hlt _ _ => exact iff_of_false (Decimal.plus_notMem_positional _) (not_le.mpr hlt)

end Double

namespace Sheet

open Double (magnitude signText)
open Json (Value Entries)

variable {x : Double} {t : Text}

/-! ### Quotes around numbers -/

/-- The only reserved character of numbers is the plus sign. -/
lemma needsQuotes_canonical (h : x.canonical = some t) : needsQuotes t = true ↔ '+' ∈ t := by
  have hnumeric := Double.numeric_canonical h
  have hplus : reserved.all (fun c => !isNumeric c || c == '+') = true := rfl
  obtain ⟨n, hn, -⟩ := Json.spelled_canonical h
  obtain ⟨c, cs, rfl, -⟩ := hn.eq_cons
  rw [needsQuotes, List.isEmpty_cons, Bool.false_or, List.any_eq_true]
  constructor
  · rintro ⟨d, hd, hreserved⟩
    have hd' := List.all_eq_true.mp hplus d (List.contains_iff_mem.mp hreserved)
    rw [hnumeric d hd, Bool.not_true, Bool.false_or, beq_iff_eq] at hd'
    rwa [← hd']
  · exact fun hd => ⟨'+', hd, rfl⟩

/-- No link begins in a number. -/
lemma stringExpression_canonical (o : Settings) (h : x.canonical = some t) :
    stringExpression o t = if '+' ∈ t then quote '\'' t else t := by
  have hlink : 'v' ∉ t := fun hv => absurd (Double.numeric_canonical h _ hv) (by decide)
  rw [stringExpression_eq, linked_of_notMem hlink, quoteIfNeeded]
  simp only [needsQuotes_canonical h]

/-- What is written for a number of the magnitude `q` with the text `t`. -/
def numberExpression (q : ℚ) (t : Text) : Text := if 10 ^ 21 ≤ q then quote '\'' t else t

lemma plus_mem_canonical_iff {negative : Bool} {r : Fin Double.rankCount}
    (h : (Double.finite negative r).canonical = some t) : '+' ∈ t ↔ 10 ^ 21 ≤ magnitude r := by
  obtain ⟨_, _, hx, ⟨hr, rfl⟩ | ⟨hr, rfl⟩⟩ := Double.canonical_eq_some h
  · cases hx
    rw [hr, Double.magnitude_zero]
    exact iff_of_false (by decide) (by norm_num)
  · cases hx
    have hsign : '+' ∉ signText negative := by cases negative <;> decide
    rw [List.mem_append, or_iff_right hsign, Double.plus_mem_canonicalMagnitude_iff hr]

lemma stringExpression_number (o : Settings) {negative : Bool} {r : Fin Double.rankCount}
    (h : (Double.finite negative r).canonical = some t) :
    stringExpression o t = numberExpression (magnitude r) t := by
  rw [stringExpression_canonical o h, numberExpression]
  simp only [plus_mem_canonical_iff h]

lemma written_eq_numberExpression (o : Settings) {negative : Bool} {r : Fin Double.rankCount}
    (h : (Double.finite negative r).canonical = some t) :
    written o (.number (.finite negative r)) = numberExpression (magnitude r) t := by
  rw [written, scalarText, h, Option.getD_some, stringExpression_number o h]
  all_goals simp

/-- **Numbers are written without quotes exactly below `10 ^ 21`**, with every option and in every
place: as a value, in a declaration, as an item of a list and as an entry of a map. -/
theorem number_written (o : Settings) (negative : Bool) (r : Fin Double.rankCount) :
    ∃ t, (Double.finite negative r).canonical = some t ∧
      (∀ depth path, expressionAt o depth path (.number (.finite negative r)) =
        .ok (numberExpression (magnitude r) t)) ∧
      (∀ document lines key, declarations o document = .ok lines →
        (key, Value.number (.finite negative r)) ∈ document → isEligible key = true →
        declaration (nameOf o key) (numberExpression (magnitude r) t) ∈ lines) ∧
      (∀ depth path index items es (i : Nat), itemsAt o depth path index items = .ok es →
        items[i]? = some (.number (.finite negative r)) →
        es[i]? = some (numberExpression (magnitude r) t)) ∧
      ∀ depth path entries es key, entriesAt o depth path entries = .ok es →
        (key, Value.number (.finite negative r)) ∈ entries → isEligible key = true →
        entryText o (nameOf o key) (numberExpression (magnitude r) t) ∈ es := by
  obtain ⟨t, ht⟩ := Double.exists_canonical negative r
  have hwritten := written_eq_numberExpression o ht
  have hmem {es : Entries} {key : Text} (hin : (key, Value.number (.finite negative r)) ∈ es)
      (hkey : isEligible key = true) : (key, Value.number (.finite negative r)) ∈ survivors es := by
    refine mem_survivors.mpr ⟨hin, ?_⟩
    rw [survives, hkey]
    rfl
  refine ⟨t, ht, fun depth path => ?_, fun document lines key h hin hkey => ?_,
    fun depth path index items es i h hin => ?_, fun depth path entries es key h hin hkey => ?_⟩
  · rw [expressionAt, ht]
    exact congrArg _ (stringExpression_number o ht)
  · rw [eq_writtenDeclarations_of_eq_ok h, writtenDeclarations, ← hwritten]
    exact List.mem_map_of_mem (hmem hin hkey)
  · rw [eq_writtenItems_of_eq_ok h, writtenItems_eq, List.getElem?_map, hin, Option.map_some,
      hwritten]
  · rw [eq_writtenEntries_of_eq_ok h, writtenEntries_eq, ← hwritten]
    exact List.mem_map_of_mem (hmem hin hkey)

/-! ### The least number in quotes -/

lemma shortest_upperRank : Decimal.shortest .up Double.upperRank = ⟨1, 21⟩ := by
  obtain ⟨hspec, -⟩ := Decimal.shortest_spec .up Double.upperRank_pos
  have hlead := (Double.leading_lt_upper_iff Double.upperRank_pos).not.mpr
    (not_lt.mpr Double.magnitude_upperRank.ge)
  have hpos := Decimal.digits_pos hspec.holds
  generalize Decimal.shortest .up Double.upperRank = d at *
  have hself : (⟨1, 21⟩ : Decimal).value = magnitude Double.upperRank := by
    rw [Decimal.value, Double.magnitude_upperRank]
    norm_num
  have hten : Double.Near Double.upperRank (⟨1, 21⟩ : Decimal).value := by
    rw [hself]
    exact Double.near_magnitude Double.upperRank_pos
  have hone : Numeral.width 1 = 1 := Numeral.width_of_lt (by decide)
  have hwidth : Numeral.width d.digits = 1 :=
    le_antisymm ((hspec.width_le _ hten).trans_eq hone) (Numeral.width_pos _)
  have hvalue : d.value = 10 ^ 21 := by
    have hnear := hspec.nearest _ hten (by rw [hone, hwidth])
    rw [hself, sub_self, abs_zero, abs_nonpos_iff, sub_eq_zero, Double.magnitude_upperRank] at hnear
    exact hnear.symm
  have hexponent : d.exponent = 21 := by
    have hlt : d.leading < 22 := by
      rw [Decimal.leading_lt_iff hpos, hvalue]
      norm_num
    rw [Decimal.leading] at hlt hlead
    omega
  have hdigits : d.digits = 1 := by
    rw [Decimal.value, hexponent] at hvalue
    norm_num at hvalue
    exact hvalue
  rw [← hdigits, ← hexponent]

lemma upperRank_lt : Double.upperRank < Double.rankCount := by
  have hsteps : 7629394531250000 < 2 * Double.binade := by norm_num [Double.binade_eq]
  unfold Double.upperRank Double.rankCount
  omega

/-- `10 ^ 21` has a text without quotes, and is written with them. -/
theorem not_number_unquoted :
    (Double.finite false ⟨Double.upperRank, upperRank_lt⟩).canonical = some "1e+21".toList ∧
      expression {} (.number (.finite false ⟨Double.upperRank, upperRank_lt⟩)) =
        .ok "'1e+21'".toList := by
  have hcanonical : (Double.finite false ⟨Double.upperRank, upperRank_lt⟩).canonical =
      some "1e+21".toList := by
    rw [Double.canonical, if_neg Double.upperRank_pos.ne', Double.canonicalMagnitude,
      shortest_upperRank]
    simp [Decimal.leading, Decimal.scientific, Decimal.mantissa, Numeral.width, Numeral.ofNat,
      Numeral.digitChar, signText]
  refine ⟨hcanonical, ?_⟩
  rw [expression, expressionAt, hcanonical]
  rfl

end Sheet

end StyleVars
