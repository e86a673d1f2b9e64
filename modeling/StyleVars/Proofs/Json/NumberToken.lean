import StyleVars.Proofs.Json.Layout
import StyleVars.Proofs.Number.Rounding
import StyleVars.Proofs.Text.Numeral

/-!
Numbers as tokens. The reader takes the longest number that stands at the beginning of a text,
unless the text goes on as if there were more of it, and rounds what it says to the nearest number
of 64 bits.
-/

namespace StyleVars.Json

/-! ### What a number says -/

/-- The magnitude that a number is written as. -/
def NumberText.magnitude (t : NumberText) : ℚ :=
  (Numeral.value t.whole + Numeral.value t.fraction / 10 ^ t.fraction.length) * 10 ^ t.exponent

/-- **A number is rounded to the nearest** from what is written. -/
theorem rounds_value (t : NumberText) : Double.Rounds t.negative t.magnitude t.value := by
  have hround := Double.rounds_ofDecimal t.negative (Numeral.value (t.whole ++ t.fraction))
    (t.exponent - t.fraction.length)
  have hmagnitude : (Numeral.value (t.whole ++ t.fraction) : ℚ) *
      10 ^ (t.exponent - t.fraction.length) = t.magnitude := by
    rw [NumberText.magnitude, Numeral.value_append, zpow_sub₀ (by norm_num), zpow_natCast]
    push_cast
    field_simp
  rw [hmagnitude] at hround
  exact hround

/-! ### The longest number -/

/-- The number `g`, which says `n`, is the longest one at the beginning of the text `r`. -/
structure LongestNumber (g : Text) (n : NumberText) (r : Text) : Prop where
  spelled : NumberSpelled g n
  isPrefix : g <+: r
  longest : ∀ v m, NumberSpelled v m → v <+: r → v.length ≤ g.length

lemma number?_eq_ok_iff {cs u r : Text} {n : NumberText} :
    number? cs = .ok (n, u, r) ↔ LongestNumber u n cs ∧ NumberEnds u r ∧ cs = u ++ r := by
  constructor
  · intro h
    obtain ⟨hu, hr⟩ := spelled_of_number? h
    obtain rfl := (number?_taken h).1
    refine ⟨⟨hu, List.prefix_append u r, fun v m hv => hr.length_le hu hv⟩, hr, rfl⟩
  · rintro ⟨hu, hr, rfl⟩
    exact number?_of_ends hu.spelled hr

/-- The literals that stand for decimal numbers at large: perhaps a sign, digits with a point among
them or without one, at least one digit, and perhaps an exponent. -/
inductive DecimalLiteral : Text → Prop where
  | mk {sign whole point digits exponent : Text} :
      sign = [] ∨ sign = ['+'] ∨ sign = ['-'] →
      (∀ c ∈ whole ++ digits, Numeral.isDigit c = true) → whole ++ digits ≠ [] →
      point = ['.'] ∨ point = [] ∧ digits = [] →
      (∃ n, ExponentSpelled exponent n) →
      DecimalLiteral (sign ++ whole ++ (point ++ digits) ++ exponent)

/-- Every number is such a literal. -/
lemma decimalLiteral_of_spelled {g : Text} {n : NumberText} (h : NumberSpelled g n) :
    DecimalLiteral g := by
  cases h with
  | @mk negative whole digits f e exponent hw hf he =>
    have hsign : (if negative then ['-'] else []) = [] ∨ (if negative then ['-'] else []) = ['+'] ∨
        (if negative then ['-'] else []) = ['-'] := by
      cases negative <;> simp
    have hwhole := hw.isDigits
    cases hf with
    | none =>
      exact @DecimalLiteral.mk _ whole [] [] e hsign (by simpa using hwhole.isDigit)
        (by simpa using hwhole.ne_nil) (.inr ⟨rfl, rfl⟩) ⟨_, he⟩
    | some hds =>
      refine @DecimalLiteral.mk _ whole ['.'] digits e hsign ?_ (by simp [hwhole.ne_nil])
        (.inl rfl) ⟨_, he⟩
      intro c hc
      rcases List.mem_append.mp hc with hc | hc
      · exact hwhole.isDigit c hc
      · exact hds.isDigit c hc

variable {p : Position} {c : Char} {cs : Text}

lemma tokenAt_number_eq_ok_iff {t : Token} {k : Cursor} (hc : c = '-' ∨ Numeral.isDigit c = true) :
    tokenAt p c cs = .ok (t, k) ↔
      ∃ n g, number? (c :: cs) = .ok (n, g, k.rest) ∧ t = .number n.value ∧
        k.pos = p.right g.length := by
  rw [tokenAt_number hc]
  cases number? (c :: cs) with
  | error literal => simp
  | ok r =>
    obtain ⟨n, g, rest⟩ := r
    obtain ⟨pos, rest'⟩ := k
    simp only [Except.ok.injEq, Prod.mk.injEq, Cursor.mk.injEq]
    constructor
    · rintro ⟨rfl, rfl, rfl⟩
      exact ⟨n, g, ⟨rfl, rfl, rfl⟩, rfl, rfl⟩
    · rintro ⟨_, _, ⟨rfl, rfl, rfl⟩, rfl, rfl⟩
      exact ⟨rfl, rfl, rfl⟩

/-- **A number is read exactly where the longest one ends**: the reader takes it whole, and the
token is what it says, rounded to the nearest. Whatever else begins like a number is reported as
ill-formed. -/
theorem number_token_iff (hc : c = '-' ∨ Numeral.isDigit c = true) :
    (∀ t k, tokenAt p c cs = .ok (t, k) ↔
      ∃ g n x, LongestNumber g n (c :: cs) ∧ NumberEnds g k.rest ∧ c :: cs = g ++ k.rest ∧
        k.pos = p.right g.length ∧ t = .number x ∧ Double.Rounds n.negative n.magnitude x) ∧
    (∀ g n, LongestNumber g n (c :: cs) → DecimalLiteral g) ∧
    ∀ e, tokenAt p c cs = .error e → ∃ literal, e = .invalidNumber literal p := by
  refine ⟨fun t k => ?_, fun g n hg => decimalLiteral_of_spelled hg.spelled, fun e h => ?_⟩
  · rw [tokenAt_number_eq_ok_iff hc]
    constructor
    · rintro ⟨n, g, hn, rfl, hpos⟩
      obtain ⟨hg, hends, hcs⟩ := number?_eq_ok_iff.mp hn
      exact ⟨g, n, n.value, hg, hends, hcs, hpos, rfl, rounds_value n⟩
    · rintro ⟨g, n, x, hg, hends, hcs, hpos, rfl, hx⟩
      have hn := number?_eq_ok_iff.mpr ⟨hg, hends, hcs⟩
      exact ⟨n, g, hn, by rw [hx.unique (rounds_value n)], hpos⟩
  · rw [tokenAt_number hc] at h
    split at h
    · cases h
    · cases h
      exact ⟨_, rfl⟩

/-- A number with every part, and a literal that ends in the middle of a fraction. -/
theorem number_token_everyPart :
    ('-' = '-' ∨ Numeral.isDigit '-' = true) ∧
      (∃ g n x, LongestNumber g n "-0.250E+4]".toList ∧ NumberEnds g [']'] ∧
        "-0.250E+4]".toList = g ++ [']'] ∧ (⟨1, 10⟩ : Position) = Position.start.right g.length ∧
        Token.number (NumberText.value ⟨true, ['0'], ['2', '5', '0'], 4⟩) = .number x ∧
        Double.Rounds n.negative n.magnitude x) ∧
      ∃ literal, Error.invalidNumber "-0.".toList .start = .invalidNumber literal .start := by
  refine ⟨.inl rfl, ?_, ?_⟩
  · exact ((number_token_iff (.inl rfl)).1 _ ⟨⟨1, 10⟩, [']']⟩).mp rfl
  · exact (@number_token_iff .start '-' "0.]".toList (.inl rfl)).2.2 _ rfl

end StyleVars.Json
