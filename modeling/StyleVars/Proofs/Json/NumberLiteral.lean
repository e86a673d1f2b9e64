import Mathlib.Data.List.TakeWhile
import StyleVars.Json.Token.Scan

/-!
The spellings of numbers: an optional minus, a whole number without needless zeros, an optional
fraction and an optional exponent. The reader takes a number only where such a spelling stands, and
takes every spelling whole that is followed by a character which could not go on with it.
-/

namespace StyleVars.Json

/-! ### The grammar -/

/-- A row of digits, at least one. -/
structure IsDigits (ds : Text) : Prop where
  ne_nil : ds ≠ []
  isDigit : ∀ c ∈ ds, Numeral.isDigit c = true

/-- Digits without needless zeros at the beginning. -/
structure IsWhole (ds : Text) : Prop where
  isDigits : IsDigits ds
  zero : ds.head? = some '0' → ds = ['0']

/-- The spelling of a fraction, and its digits. -/
inductive FractionSpelled : Text → Text → Prop where
  | none : FractionSpelled [] []
  | some {ds : Text} : IsDigits ds → FractionSpelled ('.' :: ds) ds

/-- The spelling of the sign of an exponent, and whether it is negative. -/
inductive SignSpelled : Text → Bool → Prop where
  | none : SignSpelled [] false
  | plus : SignSpelled ['+'] false
  | minus : SignSpelled ['-'] true

/-- The spelling of an exponent, and its value. -/
inductive ExponentSpelled : Text → Int → Prop where
  | none : ExponentSpelled [] 0
  | some {c : Char} {sign ds : Text} {negative : Bool} :
      c = 'e' ∨ c = 'E' → SignSpelled sign negative → IsDigits ds →
      ExponentSpelled (c :: sign ++ ds)
        (if negative = true then -(Numeral.value ds : Int) else Numeral.value ds)

/-- The spelling of a number. -/
inductive NumberSpelled : Text → NumberText → Prop where
  | mk {negative : Bool} {whole digits f e : Text} {exponent : Int} :
      IsWhole whole → FractionSpelled f digits → ExponentSpelled e exponent →
      NumberSpelled ((if negative then ['-'] else []) ++ whole ++ f ++ e)
        ⟨negative, whole, digits, exponent⟩

/-- The text `r` does not go on with the number `u`: neither with another digit, nor with a point
where there might be a fraction, nor with the letter of an exponent where there might be one. -/
structure NumberEnds (u r : Text) : Prop where
  digit : startsWithDigit r = false
  point : '.' ∉ u → 'e' ∉ u → 'E' ∉ u → r.head? ≠ some '.'
  exponent : 'e' ∉ u → 'E' ∉ u → r.head? ≠ some 'e' ∧ r.head? ≠ some 'E'

/-- No character at the beginning of `r` could go on with a number. -/
def Quiet (r : Text) : Prop :=
  ∀ c, r.head? = some c → Numeral.isDigit c = false ∧ c ≠ '.' ∧ c ≠ 'e' ∧ c ≠ 'E'

/-! ### Digits -/

lemma startsWithDigit_append {ds : Text} (h : IsDigits ds) (r : Text) :
    startsWithDigit (ds ++ r) = true := by
  cases ds with
  | nil => exact absurd rfl h.ne_nil
  | cons c ds => exact h.isDigit c (by simp)

lemma digitsOf_append {ds r : Text} (h : ∀ c ∈ ds, Numeral.isDigit c = true)
    (hr : startsWithDigit r = false) : digitsOf (ds ++ r) = ds := by
  rw [digitsOf, List.takeWhile_append_of_pos h]
  cases r with
  | nil => simp
  | cons c r =>
    have hc : Numeral.isDigit c = false := hr
    simp [hc]

lemma afterDigits_append {ds r : Text} (h : ∀ c ∈ ds, Numeral.isDigit c = true)
    (hr : startsWithDigit r = false) : afterDigits (ds ++ r) = r := by
  have hcut := taken_digits (ds ++ r)
  rw [digitsOf_append h hr] at hcut
  exact List.append_cancel_left hcut

lemma isDigits_digitsOf {cs : Text} (h : startsWithDigit cs = true) : IsDigits (digitsOf cs) := by
  constructor
  · cases cs with
    | nil => cases h
    | cons c cs =>
      have hc : Numeral.isDigit c = true := h
      simp [digitsOf, hc]
  · intro c hc
    exact List.mem_takeWhile_imp hc

lemma startsWithDigit_afterDigits (cs : Text) : startsWithDigit (afterDigits cs) = false := by
  induction cs with
  | nil => rfl
  | cons c cs ih =>
    by_cases hc : Numeral.isDigit c = true
    · simpa [afterDigits, hc] using ih
    · simp [afterDigits, hc, startsWithDigit]

/-! ### The parts of a number -/

lemma wholePart_of_head_ne {cs : Text} (h : cs.head? ≠ some '0') :
    wholePart cs =
      ⟨if startsWithDigit cs then some (digitsOf cs) else none, digitsOf cs, afterDigits cs⟩ := by
  rw [wholePart]
  rintro r rfl
  exact h rfl

lemma wholePart_append {w r : Text} (h : IsWhole w) (hr : startsWithDigit r = false) :
    wholePart (w ++ r) = ⟨some w, w, r⟩ := by
  by_cases h0 : w.head? = some '0'
  · rw [h.zero h0]
    simp [wholePart, hr]
  · have hhead : (w ++ r).head? ≠ some '0' := by
      cases w with
      | nil => exact absurd rfl h.isDigits.ne_nil
      | cons c w => exact h0
    rw [wholePart_of_head_ne hhead, startsWithDigit_append h.isDigits,
      digitsOf_append h.isDigits.isDigit hr, afterDigits_append h.isDigits.isDigit hr]
    rfl

lemma head?_digitsOf {cs : Text} (h : startsWithDigit cs = true) :
    (digitsOf cs).head? = cs.head? := by
  cases cs with
  | nil => cases h
  | cons c cs =>
    have hc : Numeral.isDigit c = true := h
    simp [digitsOf, hc]

lemma isWhole_of_wholePart {cs w : Text} (h : (wholePart cs).meaning = some w) :
    IsWhole w ∧ (wholePart cs).taken = w ∧ startsWithDigit (wholePart cs).rest = false := by
  by_cases h0 : cs.head? = some '0'
  · obtain ⟨r, rfl⟩ : ∃ r, cs = '0' :: r := by
      cases cs with
      | nil => cases h0
      | cons c r => exact ⟨r, congrArg (· :: r) (Option.some.inj h0)⟩
    rw [wholePart] at h ⊢
    split at h
    · cases h
    · next hd =>
      cases h
      exact ⟨⟨⟨by simp, by simp [Numeral.isDigit]⟩, fun _ => rfl⟩, rfl, by simpa using hd⟩
  · rw [wholePart_of_head_ne h0] at h ⊢
    split at h
    · next hd =>
      cases h
      refine ⟨⟨isDigits_digitsOf hd, fun hz => ?_⟩, rfl, startsWithDigit_afterDigits _⟩
      exact absurd (head?_digitsOf hd ▸ hz) h0
    · cases h

lemma fractionPart_append {f ds r : Text} (h : FractionSpelled f ds)
    (hr : startsWithDigit r = false) (hdot : f = [] → r.head? ≠ some '.') :
    fractionPart (f ++ r) = ⟨some ds, f, r⟩ := by
  cases h with
  | none =>
    rw [List.nil_append, fractionPart]
    rintro cs rfl
    exact hdot rfl rfl
  | some hds =>
    rw [List.cons_append, fractionPart, startsWithDigit_append hds,
      digitsOf_append hds.isDigit hr, afterDigits_append hds.isDigit hr]
    rfl

lemma fractionSpelled_of_fractionPart {cs ds : Text} (h : (fractionPart cs).meaning = some ds)
    (hcs : startsWithDigit cs = false) :
    FractionSpelled (fractionPart cs).taken ds ∧
      startsWithDigit (fractionPart cs).rest = false := by
  unfold fractionPart at h ⊢
  split at h
  · next cs =>
    split at h
    · next hd =>
      cases h
      exact ⟨.some (isDigits_digitsOf hd), startsWithDigit_afterDigits _⟩
    · cases h
  · cases h
    exact ⟨.none, hcs⟩

lemma exponentSign_append {sign ds r : Text} {negative : Bool} (h : SignSpelled sign negative)
    (hds : IsDigits ds) :
    exponentSign (sign ++ (ds ++ r)) = ⟨some negative, sign, ds ++ r⟩ := by
  cases h with
  | plus => rfl
  | minus => rfl
  | none =>
    have hd := startsWithDigit_append hds r
    rw [List.nil_append, exponentSign]
    all_goals
      rintro cs hcs
      rw [hcs] at hd
      cases hd

lemma signSpelled_exponentSign (cs : Text) :
    ∃ negative, (exponentSign cs).meaning = some negative ∧
      SignSpelled (exponentSign cs).taken negative := by
  unfold exponentSign
  split
  · exact ⟨_, rfl, .plus⟩
  · exact ⟨_, rfl, .minus⟩
  · exact ⟨_, rfl, .none⟩

lemma exponentPart_append {e r : Text} {n : Int} (h : ExponentSpelled e n)
    (hr : startsWithDigit r = false) (he : e = [] → r.head? ≠ some 'e' ∧ r.head? ≠ some 'E') :
    exponentPart (e ++ r) = ⟨some n, e, r⟩ := by
  cases h with
  | none =>
    rw [List.nil_append]
    cases r with
    | nil => rfl
    | cons c r =>
      have hc := he rfl
      simp only [List.head?_cons, ne_eq, Option.some.injEq] at hc
      rw [exponentPart, if_neg (not_or.mpr hc)]
  | @some c sign ds negative hc hsign hds =>
    rw [List.cons_append, List.cons_append, List.append_assoc, exponentPart, if_pos hc,
      exponentSign_append hsign hds]
    dsimp only
    rw [startsWithDigit_append hds, digitsOf_append hds.isDigit hr,
      afterDigits_append hds.isDigit hr]
    simp

lemma exponentSpelled_of_exponentPart {cs : Text} {n : Int}
    (h : (exponentPart cs).meaning = some n) (hcs : startsWithDigit cs = false) :
    ExponentSpelled (exponentPart cs).taken n ∧ startsWithDigit (exponentPart cs).rest = false := by
  unfold exponentPart at h ⊢
  split at h
  · next c cs =>
    split at h
    · next hc =>
      rw [if_pos hc]
      dsimp only at h ⊢
      split at h
      · next hd =>
        obtain ⟨negative, hm, hs⟩ := signSpelled_exponentSign cs
        rw [hm] at h
        cases h
        refine ⟨?_, startsWithDigit_afterDigits _⟩
        simpa using ExponentSpelled.some hc hs (isDigits_digitsOf hd)
      · cases h
    · next hc =>
      rw [if_neg hc]
      cases h
      exact ⟨.none, hcs⟩
  · cases h
    exact ⟨.none, rfl⟩

/-! ### Whole numbers with their signs and parts -/

lemma signPart_append {w r : Text} (h : IsDigits w) (negative : Bool) :
    signPart ((if negative then ['-'] else []) ++ (w ++ r)) =
      ⟨some negative, if negative then ['-'] else [], w ++ r⟩ := by
  cases negative with
  | true => rfl
  | false =>
    have hd := startsWithDigit_append h r
    simp only [Bool.false_eq_true, if_false, List.nil_append]
    rw [signPart]
    rintro cs hcs
    rw [hcs] at hd
    cases hd

lemma signPart_meaning (cs : Text) :
    ∃ negative : Bool, (signPart cs).meaning = some negative ∧
      (signPart cs).taken = if negative then ['-'] else [] := by
  unfold signPart
  split
  · exact ⟨true, rfl, rfl⟩
  · exact ⟨false, rfl, rfl⟩

lemma startsWithDigit_of_quiet {r : Text} (h : Quiet r) : startsWithDigit r = false := by
  cases r with
  | nil => rfl
  | cons c r => exact (h c rfl).1

lemma startsWithDigit_exponent {e r : Text} {n : Int} (h : ExponentSpelled e n)
    (hr : startsWithDigit r = false) : startsWithDigit (e ++ r) = false := by
  cases h with
  | none => exact hr
  | some hc _ _ => rcases hc with rfl | rfl <;> rfl

lemma startsWithDigit_fraction {f ds r : Text} (h : FractionSpelled f ds)
    (hr : startsWithDigit r = false) : startsWithDigit (f ++ r) = false := by
  cases h with
  | none => exact hr
  | some _ => rfl

lemma NumberSpelled.eq_cons {u : Text} {n : NumberText} (h : NumberSpelled u n) :
    ∃ c x, u = c :: x ∧ (c = '-' ∨ Numeral.isDigit c = true) := by
  cases h with
  | @mk negative whole digits f e exponent hw _ _ =>
    cases negative with
    | true => exact ⟨'-', whole ++ f ++ e, by simp, .inl rfl⟩
    | false =>
      cases whole with
      | nil => exact absurd rfl hw.isDigits.ne_nil
      | cons c w => exact ⟨c, w ++ f ++ e, by simp, .inr (hw.isDigits.isDigit c (by simp))⟩

lemma Quiet.numberEnds {r : Text} (h : Quiet r) (u : Text) : NumberEnds u r where
  digit := startsWithDigit_of_quiet h
  point _ _ _ hr := (h '.' hr).2.1 rfl
  exponent _ _ := ⟨fun hr => (h 'e' hr).2.2.1 rfl, fun hr => (h 'E' hr).2.2.2 rfl⟩

lemma IsDigits.notMem {ds : Text} (h : IsDigits ds) {c : Char}
    (hc : Numeral.isDigit c = false) : c ∉ ds :=
  fun hmem => by simp [h.isDigit c hmem] at hc

lemma FractionSpelled.notMem {f ds : Text} (h : FractionSpelled f ds) {c : Char}
    (hc : Numeral.isDigit c = false) (hdot : c ≠ '.') : c ∉ f := by
  cases h with
  | none => simp
  | some hds => simp [hdot, hds.notMem hc]

/-- What stands before the exponent. -/
lemma notMem_mantissa {whole f : Text} {negative : Bool} {c : Char} (hw : IsDigits whole)
    (hf : c ∉ f) (hc : Numeral.isDigit c = false) (hminus : c ≠ '-') :
    c ∉ (if negative then ['-'] else []) ++ whole ++ f := by
  have hwhole : c ∉ whole := hw.notMem hc
  cases negative <;> simp [hwhole, hf, hminus]

/-- Without an exponent a number ends where no exponent begins. -/
lemma NumberEnds.head_of_noExponent {whole f ds r : Text} {negative : Bool}
    (h : NumberEnds ((if negative then ['-'] else []) ++ whole ++ f ++ []) r)
    (hw : IsDigits whole) (hf : FractionSpelled f ds) :
    r.head? ≠ some 'e' ∧ r.head? ≠ some 'E' := by
  rw [List.append_nil] at h
  refine h.exponent ?_ ?_
  · exact notMem_mantissa hw (hf.notMem (by decide) (by decide)) (by decide) (by decide)
  · exact notMem_mantissa hw (hf.notMem (by decide) (by decide)) (by decide) (by decide)

/-- Without a fraction and an exponent a number ends where no fraction begins. -/
lemma NumberEnds.head_of_noFraction {whole r : Text} {negative : Bool}
    (h : NumberEnds ((if negative then ['-'] else []) ++ whole ++ [] ++ []) r)
    (hw : IsDigits whole) : r.head? ≠ some '.' := by
  rw [List.append_nil] at h
  refine h.point ?_ ?_ ?_
  all_goals exact notMem_mantissa hw List.not_mem_nil (by decide) (by decide)

/-- **Completeness**: a spelling is read whole before a text that does not go on with it. -/
theorem number?_of_ends {u r : Text} {n : NumberText} (h : NumberSpelled u n)
    (hr : NumberEnds u r) : number? (u ++ r) = .ok (n, u, r) := by
  cases h with
  | @mk negative whole digits f e exponent hw hf he =>
    have hde := startsWithDigit_exponent he hr.digit
    have hexp : e = [] → r.head? ≠ some 'e' ∧ r.head? ≠ some 'E' := by
      rintro rfl
      exact hr.head_of_noExponent hw.isDigits hf
    have hdot : f = [] → (e ++ r).head? ≠ some '.' := by
      rintro rfl
      cases he with
      | none => exact hr.head_of_noFraction hw.isDigits
      | some hc _ _ => rcases hc with rfl | rfl <;> simp
    simp only [List.append_assoc, number?]
    rw [signPart_append hw.isDigits]
    dsimp only
    rw [wholePart_append hw (startsWithDigit_fraction hf hde)]
    dsimp only
    rw [fractionPart_append hf hde hdot]
    dsimp only
    rw [exponentPart_append he hr.digit hexp]
    simp

/-- A spelling is read whole before any character that cannot go on with a number. -/
theorem number?_of_spelled {u r : Text} {n : NumberText} (h : NumberSpelled u n) (hr : Quiet r) :
    number? (u ++ r) = .ok (n, u, r) :=
  number?_of_ends h (hr.numberEnds u)

lemma fractionPart_ends {cs : Text} (h : '.' ∉ (fractionPart cs).taken) :
    (fractionPart cs).rest = cs ∧ cs.head? ≠ some '.' := by
  unfold fractionPart at h ⊢
  split
  · simp at h
  · next hcs =>
    refine ⟨rfl, fun hhead => ?_⟩
    obtain ⟨r, rfl⟩ := List.head?_eq_some_iff.mp hhead
    exact hcs r rfl

lemma exponentPart_ends {cs : Text} (he : 'e' ∉ (exponentPart cs).taken)
    (hE : 'E' ∉ (exponentPart cs).taken) :
    (exponentPart cs).rest = cs ∧ cs.head? ≠ some 'e' ∧ cs.head? ≠ some 'E' := by
  cases cs with
  | nil => simp [exponentPart]
  | cons c r =>
    rw [exponentPart] at he hE ⊢
    by_cases hc : c = 'e' ∨ c = 'E'
    · rw [if_pos hc] at he hE
      rcases hc with rfl | rfl
      · simp at he
      · simp at hE
    · rw [if_neg hc]
      rw [not_or] at hc
      simpa using hc

/-- **Soundness**: what is read is a spelling, and what follows does not go on with it. -/
theorem spelled_of_number? {cs u r : Text} {n : NumberText} (h : number? cs = .ok (n, u, r)) :
    NumberSpelled u n ∧ NumberEnds u r := by
  unfold number? at h
  dsimp only at h
  obtain ⟨negative, hm, hsign⟩ := signPart_meaning cs
  split at h
  · cases h
  · next w hw =>
    obtain ⟨hwhole, htaken, hd⟩ := isWhole_of_wholePart hw
    split at h
    · cases h
    · next f hf =>
      obtain ⟨hfrac, hd⟩ := fractionSpelled_of_fractionPart hf hd
      split at h
      · cases h
      · next e he =>
        obtain ⟨hexp, hd⟩ := exponentSpelled_of_exponentPart he hd
        simp only [Except.ok.injEq, Prod.mk.injEq] at h
        obtain ⟨rfl, rfl, rfl⟩ := h
        constructor
        · rw [hm, hsign, htaken]
          simpa using NumberSpelled.mk hwhole hfrac hexp
        · -- Where no part was taken, the rest is what that part was looked for in.
          refine ⟨hd, ?_, ?_⟩
          · intro hpoint hce hcE
            simp only [List.mem_append, not_or] at hpoint hce hcE
            obtain ⟨hrest, -⟩ := exponentPart_ends hce.2 hcE.2
            obtain ⟨hrest', hhead⟩ := fractionPart_ends hpoint.1.2
            rw [hrest, hrest']
            exact hhead
          · intro hce hcE
            simp only [List.mem_append, not_or] at hce hcE
            obtain ⟨hrest, hhead⟩ := exponentPart_ends hce.2 hcE.2
            rw [hrest]
            exact hhead

/-- A number that ends is the longest one at the beginning of the text. -/
lemma NumberEnds.length_le {u v r : Text} {n m : NumberText} (h : NumberEnds u r)
    (hu : NumberSpelled u n) (hv : NumberSpelled v m) (hpre : v <+: u ++ r) :
    v.length ≤ u.length := by
  by_contra hlt
  obtain ⟨x, rfl⟩ : u <+: v :=
    List.prefix_of_prefix_length_le (List.prefix_append u r) hpre (by omega)
  obtain ⟨y, rfl⟩ : x <+: r := (List.prefix_append_right_inj u).mp hpre
  cases x with
  | nil => simp at hlt
  | cons c x =>
    -- The reader would have to stop before `c` and behind it.
    have hends : NumberEnds u (c :: x) := ⟨h.digit, h.point, h.exponent⟩
    have hwhole : NumberEnds (u ++ c :: x) [] := ⟨rfl, by simp, by simp⟩
    have hread := number?_of_ends hv hwhole
    rw [List.append_nil, number?_of_ends hu hends] at hread
    simp at hread

end StyleVars.Json
