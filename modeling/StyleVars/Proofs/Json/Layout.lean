import StyleVars.Proofs.Json.NumberLiteral
import StyleVars.Proofs.Json.Reading
import StyleVars.Proofs.Json.StringLiteral
import StyleVars.Proofs.Json.Trivia

/-!
The layout of a text: its tokens, each in a spelling, with trivia before each and behind the last.
A text is read to its end exactly when it has a layout, and the tokens are those of the layout.
-/

namespace StyleVars.Json

/-- The text `r` does not go on with the token `t`. -/
def Token.EndsBefore (t : Token) (r : Text) : Prop := ∀ x, t = .number x → Quiet r

/-- The characters `u` are read as the token `t` before any text that does not go on with it. -/
def Spells (u : Text) (t : Token) : Prop :=
  ∃ c x, u = c :: x ∧
    ∀ p r, t.EndsBefore r → tokenAt p c (x ++ r) = .ok (t, ⟨p.right u.length, r⟩)

/-! ### The kinds of tokens -/

variable {p : Position} {c : Char} {cs : Text} {t : Token} {k : Cursor}

lemma word_append (w es r : Text) (start p : Position) :
    word w start es p (es ++ r) = .ok ⟨p.right es.length, r⟩ := by
  induction es generalizing p with
  | nil => simp [word, Position.right]
  | cons e es ih =>
    rw [List.cons_append, word, if_pos rfl, ih]
    simp [Position.right]
    omega

lemma eq_append_of_word {w es : Text} {start : Position} (h : word w start es p cs = .ok k) :
    cs = es ++ k.rest := by
  fun_induction word w start es p cs with
  | case1 =>
    cases h
    rfl
  | case2 => cases h
  | case3 e es p cs ih => rw [ih h, List.cons_append]
  | case4 => cases h

lemma tokenAt_number (hc : c = '-' ∨ Numeral.isDigit c = true) :
    tokenAt p c cs =
      match number? (c :: cs) with
      | .ok (n, taken, rest) => .ok (.number n.value, ⟨p.right taken.length, rest⟩)
      | .error literal => .error (.invalidNumber literal p) := by
  unfold tokenAt
  split
  case h_11 => exact if_pos hc
  all_goals exact absurd hc (by decide)

lemma spells_string {u s : Text} (h : Spelled u s) : Spells ('"' :: u ++ ['"']) (.string s) := by
  refine ⟨'"', u ++ ['"'], by simp, fun p r _ => ?_⟩
  rw [tokenAt, List.append_assoc, List.singleton_append, stringBody_of_spelled h]
  simp [Except.map, Position.right]
  omega

lemma spells_number {u : Text} {n : NumberText} (h : NumberSpelled u n) :
    Spells u (.number n.value) := by
  obtain ⟨c, x, rfl, hc⟩ := h.eq_cons
  refine ⟨c, x, rfl, fun p r hr => ?_⟩
  rw [tokenAt_number hc, ← List.cons_append, number?_of_spelled h (hr _ rfl)]

/-- Words are read wherever they stand. -/
lemma spells_word {w x : Text} (hw : w = c :: x)
    (h : ∀ p cs, tokenAt p c cs = (word w p w p (c :: cs)).map (t, ·)) : Spells w t := by
  refine ⟨c, x, hw, fun p r _ => ?_⟩
  rw [h, ← List.cons_append, ← hw, word_append]
  rfl

lemma eq_append_of_map_word {w : Text} {start : Position} {t' : Token}
    (h : (word w start w p cs).map (t', ·) = .ok (t, k)) : t' = t ∧ cs = w ++ k.rest := by
  cases hw : word w start w p cs with
  | error e => simp [hw, Except.map] at h
  | ok k' =>
    simp only [hw, Except.map, Except.ok.injEq, Prod.mk.injEq] at h
    obtain ⟨rfl, rfl⟩ := h
    exact ⟨rfl, eq_append_of_word hw⟩

/-- What is read as a token spells it, and no digit stands behind a number. -/
theorem spells_of_tokenAt (h : tokenAt p c cs = .ok (t, k)) :
    ∃ u, c :: cs = u ++ k.rest ∧ Spells u t ∧
      ∀ x, t = .number x → startsWithDigit k.rest = false := by
  unfold tokenAt at h
  split at h
  case h_7 =>
    cases hs : stringBody p [] (p.right 1) cs with
    | error e => simp [hs, Except.map] at h
    | ok r =>
      obtain ⟨s, k'⟩ := r
      simp only [hs, Except.map, Except.ok.injEq, Prod.mk.injEq] at h
      obtain ⟨rfl, rfl⟩ := h
      obtain ⟨u, s', hu, rfl, rfl⟩ := spelled_of_stringBody hs
      exact ⟨_, by simp, spells_string hu, by simp⟩
  case h_8 =>
    obtain ⟨rfl, hcs⟩ := eq_append_of_map_word h
    exact ⟨_, hcs, spells_word rfl fun p cs => rfl, by simp⟩
  case h_9 =>
    obtain ⟨rfl, hcs⟩ := eq_append_of_map_word h
    exact ⟨_, hcs, spells_word rfl fun p cs => rfl, by simp⟩
  case h_10 =>
    obtain ⟨rfl, hcs⟩ := eq_append_of_map_word h
    exact ⟨_, hcs, spells_word rfl fun p cs => rfl, by simp⟩
  case h_11 =>
    split at h
    · split at h
      · next n taken rest hn =>
        simp only [Except.ok.injEq, Prod.mk.injEq] at h
        obtain ⟨rfl, rfl⟩ := h
        obtain ⟨hu, hends⟩ := spelled_of_number? hn
        exact ⟨taken, (number?_taken hn).1.symm, spells_number hu, fun _ _ => hends.digit⟩
      · cases h
    · cases h
  all_goals
    cases h
    exact ⟨[_], rfl, ⟨_, [], rfl, fun p r _ => rfl⟩, by simp⟩

/-- Characters that no token begins with. -/
lemma head_of_tokenAt (h : tokenAt p c cs = .ok (t, k)) :
    isBlank c = false ∧ c ≠ '/' ∧ c ≠ '.' ∧ c ≠ 'e' ∧ c ≠ 'E' := by
  refine ⟨?_, ?_, ?_, ?_, ?_⟩
  · rw [← Bool.not_eq_true]
    intro hb
    simp only [isBlank, Bool.or_eq_true, beq_iff_eq] at hb
    rcases hb with ((rfl | rfl) | rfl) | rfl <;> cases h
  all_goals
    rintro rfl
    cases h

lemma endsBefore_nil (t : Token) : t.EndsBefore [] := by
  rintro x - c hc
  cases hc

/-- A spelling begins with a character that a token may begin with. -/
lemma Spells.head {u : Text} (h : Spells u t) :
    ∃ c x, u = c :: x ∧ isBlank c = false ∧ c ≠ '/' ∧ c ≠ '.' ∧ c ≠ 'e' ∧ c ≠ 'E' := by
  obtain ⟨c, x, hu, hread⟩ := h
  exact ⟨c, x, hu, head_of_tokenAt (hread .start [] (endsBefore_nil t))⟩

/-! ### Layouts -/

/-- The text is laid out as the tokens. -/
inductive Layout : Text → List Token → Prop where
  | ending {w r : Text} : Trivia w → OpenComment r → Layout (w ++ r) []
  | token {w u r : Text} {t : Token} {ts : List Token} :
      Trivia w → Spells u t → t.EndsBefore r → Layout r ts → Layout (w ++ (u ++ r)) (t :: ts)

lemma Layout.prepend {v s : Text} {ts : List Token} (hv : Trivia v) (h : Layout s ts) :
    Layout (v ++ s) ts := by
  cases h with
  | ending hw hr =>
    rw [← List.append_assoc]
    exact .ending (hv.append hw) hr
  | token hw hu ht hr =>
    rw [← List.append_assoc]
    exact .token (hv.append hw) hu ht hr

lemma quiet_of_trivia_head {c : Char} (hc : isBlank c = true ∨ c = '/') :
    Numeral.isDigit c = false ∧ c ≠ '.' ∧ c ≠ 'e' ∧ c ≠ 'E' := by
  simp only [isBlank, Bool.or_eq_true, beq_iff_eq] at hc
  rcases hc with (((rfl | rfl) | rfl) | rfl) | rfl <;> decide

lemma Trivia.quiet_append {w r : Text} (hw : Trivia w) (hr : Quiet r) : Quiet (w ++ r) := by
  cases w with
  | nil => exact hr
  | cons a w =>
    rintro c hc
    obtain rfl := Option.some.inj hc
    exact quiet_of_trivia_head hw.head

lemma quiet_of_openComment {r : Text} (h : OpenComment r) : Quiet r := by
  rcases h with rfl | ⟨s, -, rfl⟩
  · rintro c hc
    cases hc
  · rintro c hc
    obtain rfl := Option.some.inj hc
    exact quiet_of_trivia_head (.inr rfl)

/-- No layout begins with a character that goes on with a number, a digit apart. -/
lemma Layout.head {s : Text} {ts : List Token} (h : Layout s ts) {c : Char}
    (hc : s.head? = some c) : c ≠ '.' ∧ c ≠ 'e' ∧ c ≠ 'E' := by
  cases h with
  | ending hw hr => exact (hw.quiet_append (quiet_of_openComment hr) c hc).2
  | @token w u r t ts hw hu _ _ =>
    cases w with
    | nil =>
      obtain ⟨c', x, rfl, -, -, hne⟩ := hu.head
      obtain rfl := Option.some.inj hc
      exact hne
    | cons a w =>
      obtain rfl := Option.some.inj hc
      exact (quiet_of_trivia_head hw.head).2

lemma Layout.endsBefore {r : Text} {ts : List Token} (h : Layout r ts)
    (hr : ∀ x, t = .number x → startsWithDigit r = false) : t.EndsBefore r := by
  rintro x hx c hc
  refine ⟨?_, h.head hc⟩
  cases r with
  | nil => cases hc
  | cons a r =>
    obtain rfl := Option.some.inj hc
    exact hr x hx

/-- Before the next token stands trivia, then a spelling of it; no digit follows a number. -/
lemma parts_of_next {k' : Cursor} {l : Lexeme} (h : k.next = .ok (some l, k')) :
    ∃ w u j, Trivia w ∧ Spells u l.token ∧ skip .blank k.pos k.rest = .ok j ∧
      k.rest = w ++ j.rest ∧ j.rest = u ++ k'.rest ∧
      ∀ x, l.token = .number x → startsWithDigit k'.rest = false := by
  obtain ⟨c, cs, hs, ht⟩ := Cursor.next_eq_some_iff.mp h
  obtain ⟨w, hw, hcs⟩ := trivia_of_skip hs (by simp)
  obtain ⟨u, hu, hspell, hd⟩ := spells_of_tokenAt ht
  exact ⟨w, u, _, hw, hspell, hs, hcs, hu, hd⟩

/-- **A text that is read to its end has a layout** with the tokens that are read. -/
theorem layout_of_reads {ls : List Lexeme} {q : Position} (h : k.Reads ls q) :
    Layout k.rest (ls.map Lexeme.token) := by
  induction h with
  | ending hn =>
    obtain ⟨hs, hk⟩ := Cursor.next_eq_none_iff.mp hn
    obtain ⟨w, r, hw, hr, hcs⟩ := trivia_of_skip_end hs hk
    rw [hcs]
    exact .ending hw hr
  | token hn _ ih =>
    obtain ⟨w, u, j, hw, hu, -, hk, hj, hd⟩ := parts_of_next hn
    rw [hk, hj]
    exact .token hw hu (ih.endsBefore hd) ih

/-- **A layout is read to its end** from any place, with its tokens. -/
theorem reads_of_layout {s : Text} {ts : List Token} (h : Layout s ts) (p : Position) :
    ∃ ls q, Cursor.Reads ⟨p, s⟩ ls q ∧ ls.map Lexeme.token = ts := by
  induction h generalizing p with
  | @ending w r hw hr =>
    have hs : skip .blank p (w ++ r) = .ok ⟨(p.after w).after r, []⟩ := by
      rw [skip_trivia hw, skip_openComment hr]
    exact ⟨[], _, .ending (Cursor.next_eq_none_iff.mpr ⟨hs, rfl⟩), rfl⟩
  | @token w u r t ts hw hu ht _ ih =>
    obtain ⟨c, x, rfl, hb, hslash, -⟩ := hu.head
    obtain ⟨c', x', hcx, hread⟩ := hu
    obtain ⟨rfl, rfl⟩ := List.cons.inj hcx
    obtain ⟨ls, q, hls, rfl⟩ := ih ((p.after w).right (c :: x).length)
    have hs : skip .blank p (w ++ (c :: x ++ r)) = .ok ⟨p.after w, c :: (x ++ r)⟩ := by
      rw [skip_trivia hw, List.cons_append, skip_token hb hslash]
    have hn : Cursor.next ⟨p, w ++ (c :: x ++ r)⟩ = .ok (some ⟨t, p.after w⟩, _) :=
      Cursor.next_eq_some_iff.mpr ⟨c, x ++ r, hs, hread _ r ht⟩
    exact ⟨⟨t, p.after w⟩ :: ls, q, .token hn hls, rfl⟩

end StyleVars.Json
