import StyleVars.Proofs.Result
import StyleVars.Proofs.Settings.Spelling

/-!
The readers of values without parts. Each of them takes exactly the value that comes next, or fails.
-/

namespace StyleVars.Settings.Reader

open Json (IsDigits IsWhole FractionSpelled ExponentSpelled NumberSpelled SignSpelled Spelled
  StringSpelled Quiet startsWithDigit)

variable {α β : Type}

/-! ### One reader after another -/

lemma run_bind (x : Reader α) (f : α → Reader β) (s : Text) :
    (x >>= f) s = x s >>= fun p => f p.1 p.2 := rfl

lemma bind_of_ok {x : Reader α} {a : α} {s r : Text} (h : x s = .ok (a, r)) (f : α → Reader β) :
    (x >>= f) s = f a r := by
  rw [run_bind, h]
  rfl

lemma discard_of_ok {x : Reader α} {a : α} {s r : Text} (h : x s = .ok (a, r)) :
    discard x s = .ok ((), r) := by
  have hmap : discard x s = x s >>= fun p => .ok ((), p.2) := rfl
  rw [hmap, h]
  rfl

lemma run_bind_eq_ok_iff {x : Reader α} {f : α → Reader β} {s : Text} {p : β × Text} :
    (x >>= f) s = .ok p ↔ ∃ a r, x s = .ok (a, r) ∧ f a r = .ok p := by
  rw [run_bind, bind_eq_ok_iff]
  exact Prod.exists

lemma next_blanks {b : Text} (hb : IsBlanks b) {c : Char} (hc : Json.isBlank c = false) (s : Text) :
    next (b ++ c :: s) = .ok (c, c :: s) := by
  have hdrop : (b ++ c :: s).dropWhile Json.isBlank = c :: s := by
    rw [List.dropWhile_append_of_pos hb, List.dropWhile_cons_of_neg (by simp [hc])]
  rw [next, hdrop]

/-- What a reader does behind blanks hangs on the first character behind them. -/
lemma next_bind {b : Text} (hb : IsBlanks b) {c : Char} (hc : Json.isBlank c = false) (s : Text)
    (f : Char → Reader α) : (next >>= f) (b ++ c :: s) = f c (c :: s) :=
  bind_of_ok (next_blanks hb hc s) f

/-- The value `v` is taken whole, behind blanks and in front of all that does not go on with it, and
the reader comes to `a`. -/
def Reads (x : Reader α) (v : Text) (a : α) : Prop :=
  ∀ b r, IsBlanks b → Quiet r → x (b ++ (v ++ r)) = .ok (a, r)

/-- The value `v` is taken whole if the reader does not fail. -/
def Exact (x : Reader α) (v : Text) : Prop :=
  ∀ b r p, IsBlanks b → Quiet r → x (b ++ (v ++ r)) = .ok p → p.2 = r

/-- The value `v` is taken in some place. -/
def Accepts (x : Reader α) (v : Text) : Prop :=
  ∃ b r p, IsBlanks b ∧ Quiet r ∧ x (b ++ (v ++ r)) = .ok p

lemma Reads.exact {x : Reader α} {v : Text} {a : α} (h : Reads x v a) : Exact x v := by
  intro b r p hb hr hp
  rw [h b r hb hr] at hp
  cases hp
  rfl

lemma Reads.bind_pure {x : Reader α} {v : Text} {a : α} (h : Reads x v a) (f : α → β) :
    Reads (x >>= fun a => pure (f a)) v (f a) := by
  intro b r hb hr
  rw [bind_of_ok (h b r hb hr)]
  rfl

lemma Exact.bind_pure {x : Reader α} {v : Text} (h : Exact x v) (f : α → β) :
    Exact (x >>= fun a => pure (f a)) v := by
  intro b r p hb hr hp
  obtain ⟨a, s, hx, hp⟩ := run_bind_eq_ok_iff.mp hp
  cases hp
  exact h b r (a, s) hb hr hx

lemma Accepts.of_bind {x : Reader α} {v : Text} {f : α → Reader β} (h : Accepts (x >>= f) v) :
    Accepts x v := by
  obtain ⟨b, r, p, hb, hr, hp⟩ := h
  obtain ⟨a, s, hx, -⟩ := run_bind_eq_ok_iff.mp hp
  exact ⟨b, r, (a, s), hb, hr, hx⟩

/-! ### Words -/

lemma word_append (w r : Text) : word w (w ++ r) = .ok ((), r) := by
  induction w with
  | nil => cases r <;> rfl
  | cons c w ih => rw [List.cons_append, word, if_pos rfl, ih]

/-! ### Strings -/

/-- Completeness of the reader of strings. It does not see the characters that surrogates stand for
if they need not stand in pairs. -/
lemma exists_stringRest_of_spelled {u s : Text} (h : Spelled u s) (paired : Bool) (acc r : Text) :
    ∃ t, stringRest paired acc (u ++ '"' :: r) = .ok (t, r) ∧
      (paired = true → t = acc.reverse ++ s) := by
  induction h generalizing acc with
  | nil => exact ⟨_, by rw [List.nil_append, stringRest], by simp⟩
  | @plain c u s hq hb hc _ ih =>
    obtain ⟨t, ht, hs⟩ := ih (c :: acc)
    refine ⟨t, ?_, by simpa using hs⟩
    rw [List.cons_append, stringRest, if_neg (by omega), ht]
    all_goals simp_all
  | @short c e u s he _ ih =>
    obtain ⟨t, ht, hs⟩ := ih (e :: acc)
    refine ⟨t, ?_, by simpa using hs⟩
    have hu : c ≠ 'u' := by
      rintro rfl
      cases he
    rw [List.cons_append, List.cons_append, stringRest]
    · rw [he]
      exact ht
    all_goals simp_all
  | @unit a b c d n u s hn hhigh hlow _ ih =>
    obtain ⟨t, ht, hs⟩ := ih (Char.ofNat n :: acc)
    refine ⟨t, ?_, by simpa using hs⟩
    simp [stringRest, hn, hhigh, hlow, ht]
  | @pair a b c d e f g h m n u s hm hhigh hn hlow _ ih =>
    cases paired with
    | true =>
      obtain ⟨t, ht, hs⟩ := ih (Json.surrogatePair m n :: acc)
      refine ⟨t, ?_, by simpa using hs⟩
      simp [stringRest, hm, hhigh, hn, hlow, ht]
    | false =>
      obtain ⟨t, ht, -⟩ := ih (Char.ofNat n :: Char.ofNat m :: acc)
      refine ⟨t, ?_, by simp⟩
      simp [stringRest, hm, hn, ht]

lemma exists_string_of_spelled {x s : Text} (h : StringSpelled x s) (paired : Bool) (r : Text) :
    ∃ t, string paired (x ++ r) = .ok (t, r) ∧ (paired = true → t = s) := by
  obtain ⟨us, hus, rfl⟩ := h
  obtain ⟨t, ht, hs⟩ := exists_stringRest_of_spelled (Json.spelled_of_forall₂ hus) paired [] r
  refine ⟨t, ?_, by simpa using hs⟩
  rw [string, ← ht]
  simp

lemma string_of_spelled {x s : Text} (h : StringSpelled x s) (r : Text) :
    string true (x ++ r) = .ok (s, r) := by
  obtain ⟨t, ht, hs⟩ := exists_string_of_spelled h true r
  rw [ht, hs rfl]

/-! ### Numbers -/

lemma digits_append {ds r : Text} (h : IsDigits ds) (hr : startsWithDigit r = false)
    (atEnd : ReadError) : digits atEnd (ds ++ r) = .ok (ds, r) := by
  obtain ⟨c, cs, rfl⟩ := List.exists_cons_of_ne_nil h.ne_nil
  have hcs : ∀ d ∈ cs, Numeral.isDigit d = true :=
    fun d hd => h.isDigit d (List.mem_cons_of_mem c hd)
  have htake := Json.digitsOf_append hcs hr
  have hdrop := Json.afterDigits_append hcs hr
  rw [Json.digitsOf] at htake
  rw [Json.afterDigits] at hdrop
  rw [List.cons_append, digits, if_pos (h.isDigit c List.mem_cons_self), htake, hdrop]

lemma checkWhole_eq {whole : Text} (h : IsWhole whole) (s : Text) :
    checkWhole whole s = .ok ((), s) := by
  rw [checkWhole]
  · rfl
  · rintro c cs rfl
    simpa using h.zero rfl

lemma optionally_of_head {c : Char} {r : Text} (h : r.head? ≠ some c) :
    optionally c r = .ok (false, r) := by
  cases r with
  | nil => rfl
  | cons d r =>
    have hd : d ≠ c := fun hd => h (congrArg some hd)
    rw [optionally, if_neg hd]

lemma optionally_cons (c : Char) (r : Text) : optionally c (c :: r) = .ok (true, r) := by
  rw [optionally, if_pos rfl]

lemma fraction_append {f ds r : Text} (h : FractionSpelled f ds) (hr : startsWithDigit r = false)
    (hdot : f = [] → r.head? ≠ some '.') (atEnd : ReadError) :
    ∃ o, fraction atEnd (f ++ r) = .ok (o, r) ∧ (f = [] → o = none) := by
  cases h with
  | none =>
    refine ⟨none, ?_, fun _ => rfl⟩
    rw [List.nil_append, fraction, bind_of_ok (optionally_of_head (hdot rfl))]
    rfl
  | some hds =>
    refine ⟨some ds, ?_, by simp⟩
    rw [List.cons_append, fraction, bind_of_ok (optionally_cons '.' _)]
    rw [if_pos rfl, bind_of_ok (digits_append hds hr atEnd)]
    rfl

lemma head?_ne_of_startsWithDigit {s : Text} (hs : startsWithDigit s = true) {c : Char}
    (hc : Numeral.isDigit c = false) : s.head? ≠ some c := by
  intro h
  obtain ⟨r, rfl⟩ := List.head?_eq_some_iff.mp h
  exact absurd hs (by rw [startsWithDigit, hc]; decide)

/-- Behind the letter of an exponent come a sign, or none, and digits. -/
lemma exponent_cons {c : Char} (hc : c = 'e' ∨ c = 'E') {sign s : Text} {negative : Bool}
    (hsign : SignSpelled sign negative) (hs : startsWithDigit s = true) (atEnd : ReadError) :
    exponent atEnd (c :: (sign ++ s)) =
      (digits atEnd >>= fun ds => pure (some (negative, ds))) s := by
  have hletter : exponent atEnd (c :: (sign ++ s)) = exponent atEnd ('e' :: (sign ++ s)) := by
    rcases hc with rfl | rfl <;> rfl
  rw [hletter]
  cases hsign with
  | plus => rfl
  | minus => rfl
  | none =>
    have hhead (d : Char) := head?_ne_of_startsWithDigit hs (c := d)
    have hplus : discard (optionally '+') s = .ok ((), s) :=
      discard_of_ok (optionally_of_head (hhead '+' rfl))
    rw [List.nil_append, exponent, bind_of_ok (optionally_cons 'e' s), if_pos rfl, pure_bind]
    beta_reduce
    rw [if_pos rfl, bind_of_ok (optionally_of_head (hhead '-' rfl))]
    exact bind_of_ok hplus _

lemma exponent_append {e r : Text} {n : Int} (h : ExponentSpelled e n)
    (hr : startsWithDigit r = false) (he : e = [] → r.head? ≠ some 'e' ∧ r.head? ≠ some 'E')
    (atEnd : ReadError) :
    ∃ o, exponent atEnd (e ++ r) = .ok (o, r) ∧ (e = [] → o = none) := by
  cases h with
  | none =>
    refine ⟨none, ?_, fun _ => rfl⟩
    rw [List.nil_append, exponent, bind_of_ok (optionally_of_head (he rfl).1),
      if_neg Bool.false_ne_true, bind_of_ok (optionally_of_head (he rfl).2)]
    rfl
  | @some c sign ds negative hc hsign hds =>
    refine ⟨some (negative, ds), ?_, by simp⟩
    rw [List.cons_append, List.cons_append, List.append_assoc,
      exponent_cons hc hsign (Json.startsWithDigit_append hds r),
      bind_of_ok (digits_append hds hr atEnd)]
    rfl

lemma optionally_minus {w r : Text} (hw : IsDigits w) (negative : Bool) :
    optionally '-' ((if negative then ['-'] else []) ++ (w ++ r)) = .ok (negative, w ++ r) := by
  cases negative with
  | true => rfl
  | false =>
    exact optionally_of_head (head?_ne_of_startsWithDigit (Json.startsWithDigit_append hw r) rfl)

/-- A number is taken whole, with its whole part as it is written. -/
lemma numberText_append (negative : Bool) {w f ds e r : Text} {n : Int} (hw : IsWhole w)
    (hf : FractionSpelled f ds) (he : ExponentSpelled e n) (hr : Quiet r) (atEnd : ReadError) :
    ∃ fr ex, numberText atEnd ((if negative then ['-'] else []) ++ (w ++ (f ++ (e ++ r)))) =
      .ok (⟨negative, w, fr, ex⟩, r) ∧ (f = [] → fr = none) ∧ (e = [] → ex = none) := by
  have hd := Json.startsWithDigit_of_quiet hr
  have hde := Json.startsWithDigit_exponent he hd
  have hends := hr.numberEnds []
  have hdot : f = [] → (e ++ r).head? ≠ some '.' := by
    rintro rfl
    cases he with
    | none => exact hends.point (by simp) (by simp) (by simp)
    | some hc _ _ => rcases hc with rfl | rfl <;> simp
  obtain ⟨fr, hfr, hnone⟩ := fraction_append hf hde hdot atEnd
  obtain ⟨ex, hex, hnone'⟩ :=
    exponent_append he hd (fun _ => hends.exponent (by simp) (by simp)) atEnd
  refine ⟨fr, ex, ?_, hnone, hnone'⟩
  rw [numberText, bind_of_ok (optionally_minus hw.isDigits negative),
    bind_of_ok (digits_append hw.isDigits (Json.startsWithDigit_fraction hf hde) atEnd),
    bind_of_ok (checkWhole_eq hw _), bind_of_ok hfr, bind_of_ok hex]
  rfl

lemma exists_numberText_of_spelled {u r : Text} {n : Json.NumberText} (h : NumberSpelled u n)
    (hr : Quiet r) (atEnd : ReadError) : ∃ t, numberText atEnd (u ++ r) = .ok (t, r) := by
  cases h with
  | mk hw hf he =>
    obtain ⟨fr, ex, h, -⟩ := numberText_append _ hw hf he hr atEnd
    exact ⟨_, by simpa using h⟩

/-- Without a sign and other parts a number below the bound is a natural number. -/
lemma number_of_whole {w r : Text} (hw : IsWhole w) (hlt : Numeral.value w < integerBound)
    (hr : Quiet r) : number (w ++ r) = .ok (.natural (Numeral.value w), r) := by
  obtain ⟨fr, ex, h, hfr, hex⟩ :=
    numberText_append false hw .none .none hr .unfinished
  obtain rfl := hfr rfl
  obtain rfl := hex rfl
  have hnumeric : NumberText.numeric ⟨false, w, none, none⟩ = .ok (.natural (Numeral.value w)) := by
    rw [NumberText.numeric]
    simp [hlt]
  rw [number]
  simp only [List.nil_append, if_false, Bool.false_eq_true] at h
  rw [bind_of_ok h, hnumeric]
  rfl

lemma number_exact {u r s : Text} {n : Json.NumberText} {x : Numeric} (hu : NumberSpelled u n)
    (hr : Quiet r) (h : number (u ++ r) = .ok (x, s)) : s = r := by
  obtain ⟨t, ht⟩ := exists_numberText_of_spelled hu hr .unfinished
  rw [number, bind_of_ok ht] at h
  cases hx : t.numeric with
  | error e =>
    rw [hx] at h
    cases h
  | ok y =>
    rw [hx] at h
    cases h
    rfl

/-! ### Values of one kind -/

lemma refuse_ne_ok (wanted : Wanted) (c : Char) (s : Text) (p : α × Text) :
    refuse wanted c s ≠ .ok p := by
  rw [refuse, ne_eq, run_bind_eq_ok_iff]
  rintro ⟨found, r, -, h⟩
  cases h

/-- A reader that turns down a value by its first character does not get over it. -/
lemma exact_of_head (wanted : Wanted) {v : Text} (hv : IsJson v) {c : Char}
    (hc : v.head? = some c) {f : Char → Reader α} (hf : f c = refuse wanted c) :
    Exact (next >>= f) v := by
  intro b r p hb _ h
  obtain ⟨d, hd, hopens⟩ := hv.exists_opens
  obtain rfl := Option.some.inj (hc.symm.trans hd)
  obtain ⟨cs, rfl⟩ := List.head?_eq_some_iff.mp hc
  rw [List.cons_append, next_bind hb hopens.1, hf] at h
  exact absurd h (refuse_ne_ok wanted c _ p)

lemma reads_bool (b : Bool) : Reads bool (boolText b) b := by
  intro a r ha _
  have hword (w : Text) (b : Bool) : (word w >>= fun _ => pure b) (w ++ r) = .ok (b, r) :=
    bind_of_ok (word_append w r) _
  cases b with
  | true => exact (next_bind ha (by decide) _ _).trans (hword "true".toList true)
  | false => exact (next_bind ha (by decide) _ _).trans (hword "false".toList false)

lemma exact_bool {v : Text} (h : IsJson v) : Exact bool v := by
  have hv := h
  cases h with
  | bool b => exact (reads_bool b).exact
  | null => exact exact_of_head .bool hv rfl rfl
  | string hx => exact exact_of_head .bool hv (head?_of_stringSpelled hx) rfl
  | array hx => exact exact_of_head .bool hv hx.head? rfl
  | object hx => exact exact_of_head .bool hv hx.head? rfl
  | number hu =>
    obtain ⟨c, hc, hn⟩ := startsNumber_of_spelled hu
    refine exact_of_head .bool hv hc ?_
    split
    · cases hn
    · cases hn
    · rfl

lemma reads_path {x s : Text} (h : StringSpelled x s) : Reads path x (Path.ofText s) := by
  intro b r hb _
  have hread := bind_of_ok (string_of_spelled h r) (fun s => pure (Path.ofText s))
  obtain ⟨us, -, rfl⟩ := h
  exact (next_bind hb (by decide) _ _).trans hread

lemma exact_path {v : Text} (h : IsJson v) : Exact path v := by
  have hv := h
  cases h with
  | string hx => exact (reads_path hx).exact
  | null => exact exact_of_head .path hv rfl rfl
  | bool b => cases b <;> exact exact_of_head .path hv rfl rfl
  | array hx => exact exact_of_head .path hv hx.head? rfl
  | object hx => exact exact_of_head .path hv hx.head? rfl
  | number hu =>
    obtain ⟨c, hc, hn⟩ := startsNumber_of_spelled hu
    refine exact_of_head .path hv hc ?_
    split
    · cases hn
    · rfl

lemma exact_natural {v : Text} (h : IsJson v) (wanted : Wanted) : Exact (natural wanted) v := by
  have hv := h
  cases h with
  | null => exact exact_of_head wanted hv rfl rfl
  | bool b => cases b <;> exact exact_of_head wanted hv rfl rfl
  | string hx => exact exact_of_head wanted hv (head?_of_stringSpelled hx) rfl
  | array hx => exact exact_of_head wanted hv hx.head? rfl
  | object hx => exact exact_of_head wanted hv hx.head? rfl
  | number hu =>
    intro b r p hb hr h
    obtain ⟨c, hc, hn⟩ := startsNumber_of_spelled hu
    obtain ⟨cs, rfl⟩ := List.head?_eq_some_iff.mp hc
    rw [natural, List.cons_append, next_bind hb (opens_of_startsNumber hn).1, if_pos hn,
      run_bind_eq_ok_iff] at h
    obtain ⟨n, s, hnumber, h⟩ := h
    obtain rfl := number_exact hu hr hnumber
    cases n <;> cases h
    rfl

lemma reads_natural {w : Text} (hw : IsWhole w) (hlt : Numeral.value w < integerBound)
    (wanted : Wanted) : Reads (natural wanted) w (Numeral.value w) := by
  intro b r hb hr
  have hread := number_of_whole hw hlt hr
  obtain ⟨c, cs, rfl⟩ := List.exists_cons_of_ne_nil hw.isDigits.ne_nil
  have hc : startsNumber c = true := by
    rw [startsNumber, hw.isDigits.isDigit c List.mem_cons_self, Bool.or_true]
  refine (next_bind hb (opens_of_startsNumber hc).1 _ _).trans ?_
  rw [if_pos hc]
  exact bind_of_ok hread _

end StyleVars.Settings.Reader
