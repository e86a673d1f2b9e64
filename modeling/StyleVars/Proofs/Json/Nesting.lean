import StyleVars.Proofs.Json.Layout
import StyleVars.Proofs.Json.Parsing

/-!
What is known of the value of a text: the nesting of its lists and objects is bounded, and none of
its numbers is a NaN. Both hold of a phrase that the grammar derives, whatever becomes of members
with the same key.
-/

namespace StyleVars.Json

/-- At most `d` arrays and objects inside each other, and no NaN. -/
inductive Value.Fits : Nat → Value → Prop where
  | null {d : Nat} : Fits d .null
  | bool {d : Nat} {b : Bool} : Fits d (.bool b)
  | number {d : Nat} {x : Double} : x ≠ .nan → Fits d (.number x)
  | string {d : Nat} {s : Text} : Fits d (.string s)
  | array {d : Nat} {vs : List Value} : (∀ v ∈ vs, Fits d v) → Fits (d + 1) (.array vs)
  | object {d : Nat} {es : Entries} : (∀ e ∈ es, Fits d e.2) → Fits (d + 1) (.object es)

def Phrase.Fits (d : Nat) : Phrase → Prop
  | .value v => v.Fits d
  | .items vs => ∀ v ∈ vs, v.Fits d
  | .members ps => ∀ p ∈ ps, p.2.Fits d

/-- A phrase fits the depth of its derivation. -/
theorem fits_of_derives {d : Nat} {x : Phrase} {ts : List Token} (h : Derives d x ts)
    (hnan : Token.number .nan ∉ ts) : x.Fits d := by
  induction h with
  | null => exact .null
  | bool => exact .bool
  | number =>
    refine .number ?_
    rintro rfl
    exact hnan (by simp)
  | string => exact .string
  | array _ ih => exact .array (ih (by simpa using hnan))
  | @object _ _ _ _ _ hes ih =>
    have hps := ih (by simpa using hnan)
    refine .object fun e he => hps e ?_
    rw [hes.eq_ofPairs] at he
    exact Dictionary.mem_of_mem_ofPairs he
  | noItems => simp [Phrase.Fits]
  | lastItem _ ih =>
    have hv := ih hnan
    simpa [Phrase.Fits] using hv
  | item _ _ ihv ihs =>
    simp only [List.mem_append, List.mem_cons, reduceCtorEq, false_or, not_or] at hnan
    have hv := ihv hnan.1
    have hvs := ihs hnan.2
    exact List.forall_mem_cons.mpr ⟨hv, hvs⟩
  | noMembers => simp [Phrase.Fits]
  | lastMember _ ih =>
    have hv := ih (by simpa using hnan)
    simpa [Phrase.Fits] using hv
  | member _ _ ihv ihs =>
    simp only [List.mem_append, List.mem_cons, reduceCtorEq, false_or, not_or] at hnan
    have hv := ihv hnan.1
    have hps := ihs hnan.2
    exact List.forall_mem_cons.mpr ⟨hv, hps⟩

/-! ### Numbers -/

lemma ofRank_ne_nan (negative : Bool) (r : Nat) : Double.ofRank negative r ≠ .nan := by
  rw [Double.ofRank]
  split <;> simp

lemma ofDecimal_ne_nan (negative : Bool) (digits : Nat) (exponent : Int) :
    Double.ofDecimal negative digits exponent ≠ .nan := by
  rw [Double.ofDecimal]
  split
  · exact ofRank_ne_nan negative 0
  · split
    · simp
    · split
      · exact ofRank_ne_nan negative 0
      · exact ofRank_ne_nan negative _

lemma ne_nan_of_tokenAt {p : Position} {c : Char} {cs : Text} {k : Cursor} {t : Token}
    (h : tokenAt p c cs = .ok (t, k)) : t ≠ .number .nan := by
  rintro rfl
  by_cases hc : c = '-' ∨ Numeral.isDigit c = true
  · rw [tokenAt_number hc] at h
    split at h
    · simp only [Except.ok.injEq, Prod.mk.injEq, Token.number.injEq] at h
      exact ofDecimal_ne_nan _ _ _ h.1
    · cases h
  · unfold tokenAt at h
    split at h
    case h_7 => 
      cases hs : stringBody p [] (p.right 1) cs <;> simp [hs, Except.map] at h
    case h_8 | h_9 | h_10 =>
      obtain ⟨ht, -⟩ := eq_append_of_map_word h
      cases ht
    case h_11 =>
      rw [if_neg hc] at h
      cases h
    all_goals cases h

lemma notMem_nan_of_reads {k : Cursor} {ls : List Lexeme} {p : Position} (h : k.Reads ls p) :
    Token.number .nan ∉ ls.map Lexeme.token := by
  induction h with
  | ending => simp
  | token hn _ ih =>
    obtain ⟨c, cs, -, ht⟩ := Cursor.next_eq_some_iff.mp hn
    rw [List.map_cons, List.mem_cons, not_or]
    exact ⟨(ne_nan_of_tokenAt ht).symm, ih⟩

/-- **The value of a text fits the limit** that the text was read with. -/
theorem fits_of_parse {limits : Limits} {s : Text} {v : Value} (h : parse limits s = .ok v) :
    v.Fits limits.maxNestingDepth := by
  obtain ⟨ls, p, hl, hv⟩ := derives_of_parse h
  exact fits_of_derives hv (notMem_nan_of_reads hl)

end StyleVars.Json
