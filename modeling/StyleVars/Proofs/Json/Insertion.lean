import StyleVars.Proofs.Json.Layout
import StyleVars.Proofs.Json.Parsing

/-!
Trivia that is put where a token begins or ends. The layout of the text stays one of the same
tokens, and a run of the parser depends on the places of the tokens only in the places of its
errors.
-/

namespace StyleVars.Json

/-! ### The places -/

/-- A token that is read from the place on begins or ends right before the last part `b` of the
text. -/
inductive Cursor.Borders : Cursor → Text → Prop where
  | first {k j k' : Cursor} {l : Lexeme} :
      k.next = .ok (some l, k') → skip .blank k.pos k.rest = .ok j → Borders k j.rest
  | last {k k' : Cursor} {l : Lexeme} : k.next = .ok (some l, k') → Borders k k'.rest
  | later {k k' : Cursor} {l : Lexeme} {b : Text} :
      k.next = .ok (some l, k') → Borders k' b → Borders k b

variable {a b w : Text} {k : Cursor}

lemma quiet_insert (hw : Trivia w) (h : Quiet (a ++ b)) : Quiet (a ++ (w ++ b)) := by
  cases a with
  | nil => exact hw.quiet_append h
  | cons c a => exact h

lemma Token.EndsBefore.insert {t : Token} (hw : Trivia w) (h : t.EndsBefore (a ++ b)) :
    t.EndsBefore (a ++ (w ++ b)) :=
  fun x hx => quiet_insert hw (h x hx)

/-- What is read from a place on splits at each border, and trivia there leaves the tokens as they
are. -/
theorem layout_insert {ls : List Lexeme} {p : Position} (h : k.Reads ls p) (hb : k.Borders b) :
    ∃ a, k.rest = a ++ b ∧ ∀ w, Trivia w → Layout (a ++ (w ++ b)) (ls.map Lexeme.token) := by
  induction hb generalizing ls with
  | first hn hs =>
    obtain ⟨ms, rfl, hr⟩ := h.of_next hn
    obtain ⟨v, u, j, hv, hu, hs', hk, hj, hd⟩ := parts_of_next hn
    obtain rfl : _ = j := by simpa [hs] using hs'
    have hlay := layout_of_reads hr
    refine ⟨v, hk, fun w hw => ?_⟩
    rw [← List.append_assoc, hj]
    exact .token (hv.append hw) hu (hlay.endsBefore hd) hlay
  | @last k k' l hn =>
    obtain ⟨ms, rfl, hr⟩ := h.of_next hn
    obtain ⟨v, u, j, hv, hu, -, hk, hj, hd⟩ := parts_of_next hn
    have hlay := layout_of_reads hr
    have hends : l.token.EndsBefore ([] ++ k'.rest) := hlay.endsBefore hd
    refine ⟨v ++ u, by rw [hk, hj, List.append_assoc], fun w hw => ?_⟩
    rw [List.append_assoc]
    exact .token hv hu (hends.insert hw) (hlay.prepend hw)
  | later hn _ ih =>
    obtain ⟨ms, rfl, hr⟩ := h.of_next hn
    obtain ⟨v, u, j, hv, hu, -, hk, hj, hd⟩ := parts_of_next hn
    obtain ⟨a, ha, hins⟩ := ih hr
    -- What follows the token begins as before, unless the border is right behind it.
    have hends := (layout_of_reads hr).endsBefore hd
    rw [ha] at hends
    refine ⟨v ++ (u ++ a), by simp [hk, hj, ha], fun w hw => ?_⟩
    simp only [List.append_assoc]
    exact .token hv hu (hends.insert hw) (hins w hw)

/-! ### The byte order mark -/

lemma length_dropMark_le (s : Text) : (Scan.dropMark s).length ≤ s.length := by
  unfold Scan.dropMark
  split <;> simp

lemma dropMark_cons {c : Char} (hc : c ≠ '\uFEFF') (s : Text) :
    Scan.dropMark (c :: s) = c :: s := by
  unfold Scan.dropMark
  split
  · simp_all
  · rfl

lemma Trivia.dropMark_append (hw : Trivia w) (hb : Scan.dropMark b = b) :
    Scan.dropMark (w ++ b) = w ++ b := by
  cases w with
  | nil => exact hb
  | cons c w =>
    refine dropMark_cons ?_ (w ++ b)
    rintro rfl
    exact absurd hw.head (by decide)

/-- Trivia does not move a byte order mark into the text or out of it. -/
lemma dropMark_insert {a' : Text} (hw : Trivia w) (h : Scan.dropMark (a ++ b) = a' ++ b) :
    Scan.dropMark (a ++ (w ++ b)) = a' ++ (w ++ b) := by
  cases a with
  | nil =>
    have hlen : (a' ++ b).length ≤ b.length := h ▸ length_dropMark_le b
    obtain rfl : a' = [] := by
      rw [List.length_append] at hlen
      exact List.length_eq_zero_iff.mp (by omega)
    exact hw.dropMark_append h
  | cons c a =>
    by_cases hc : c = '\uFEFF'
    · subst hc
      obtain rfl : a = a' := List.append_cancel_right h
      rfl
    · rw [List.cons_append, dropMark_cons hc, ← List.cons_append] at h
      obtain rfl : c :: a = a' := List.append_cancel_right h
      exact dropMark_cons hc _

/-! ### The run of the parser -/

/-- What is wrong, without the place. -/
def Error.unplaced : Error → Error
  | unexpectedCharacter found _ => unexpectedCharacter found .start
  | unexpectedToken found expected _ => unexpectedToken found expected .start
  | unexpectedEnd expected _ => unexpectedEnd expected .start
  | unterminatedString _ => unterminatedString .start
  | unterminatedComment _ => unterminatedComment .start
  | controlCharacter found _ => controlCharacter found .start
  | invalidEscape _ => invalidEscape .start
  | invalidNumber literal _ => invalidNumber literal .start
  | trailingContent _ => trailingContent .start
  | inputTooLarge size limit => inputTooLarge size limit
  | nestingTooDeep depth limit _ => nestingTooDeep depth limit .start

namespace Stage

variable {limits : Limits} {p q : Position}

lemma enter_unplaced (outer : List Frame) (s : Stage) :
    (enter limits p outer s).mapError Error.unplaced =
      (enter limits q outer s).mapError Error.unplaced := by
  rw [enter, enter]
  split <;> rfl

lemma begin_unplaced (outer : List Frame) (t : Token) :
    (begin limits p outer t).mapError Error.unplaced =
      (begin limits q outer t).mapError Error.unplaced := by
  cases t with
  | openBracket => exact enter_unplaced outer _
  | openBrace => exact enter_unplaced outer _
  | _ => rfl

/-- The place of a token decides nothing but the place of the error. -/
lemma step_unplaced (s : Stage) (t : Token) :
    (step limits p s t).mapError Error.unplaced = (step limits q s t).mapError Error.unplaced := by
  cases s with
  | value outer => exact begin_unplaced outer t
  | items before outer =>
    by_cases ht : t = .closeBracket
    · subst ht
      rfl
    · rw [step_items ht, step_items ht]
      exact begin_unplaced _ t
  | itemEnd before outer => cases t <;> rfl
  | members before outer => cases t <;> rfl
  | colon before key outer => cases t <;> rfl
  | memberEnd before outer => cases t <;> rfl
  | finished v => rfl

lemma close_unplaced (s : Stage) :
    (s.close p).mapError Error.unplaced = (s.close q).mapError Error.unplaced := by
  cases s <;> rfl

/-- **Runs on the same tokens at other places** differ at most in the place of the error. -/
theorem run_unplaced {ls ms : List Lexeme} (s : Stage)
    (h : ls.map Lexeme.token = ms.map Lexeme.token) :
    (run limits (.ok p) s ls).mapError Error.unplaced =
      (run limits (.ok q) s ms).mapError Error.unplaced := by
  induction ls generalizing s ms with
  | nil =>
    obtain rfl := List.map_eq_nil_iff.mp h.symm
    exact close_unplaced s
  | cons l ls ih =>
    obtain ⟨m, ms, rfl, hm, hms⟩ := List.map_eq_cons_iff.mp h.symm
    have hstep := @step_unplaced limits l.pos m.pos s l.token
    rw [run, run, hm]
    cases hl : s.step limits l.pos l.token with
    | error e =>
      cases hr : s.step limits m.pos l.token with
      | error f =>
        have he : e.unplaced = f.unplaced := by simpa [hl, hr, Except.mapError] using hstep
        exact congrArg Except.error he
      | ok s' => simp [hl, hr, Except.mapError] at hstep
    | ok s' =>
      cases hr : s.step limits m.pos l.token with
      | error f => simp [hl, hr, Except.mapError] at hstep
      | ok s'' =>
        obtain rfl : s' = s'' := by simpa [hl, hr, Except.mapError] using hstep
        exact ih s' hms.symm

end Stage

/-! ### Whole texts -/

lemma lexes_insert {ls : List Lexeme} {p : Position} (h : Lexes (a ++ b) ls p)
    (hb : (Cursor.ofText (a ++ b)).Borders b) (hw : Trivia w) :
    ∃ ms q, Lexes (a ++ (w ++ b)) ms q ∧ ms.map Lexeme.token = ls.map Lexeme.token := by
  obtain ⟨a', ha', hins⟩ := layout_insert h hb
  have hmark := dropMark_insert hw ha'
  obtain ⟨ms, q, hms, htokens⟩ := reads_of_layout (hins w hw) .start
  refine ⟨ms, q, ?_, htokens⟩
  rw [Lexes, Cursor.ofText, hmark]
  exact hms

/-- **Trivia may be put wherever a token begins or ends**: the text gives the same value, or the
same error at another place. -/
theorem parse_insert_trivia (limits : Limits) {ls : List Lexeme} {p : Position}
    (h : Lexes (a ++ b) ls p) (hb : (Cursor.ofText (a ++ b)).Borders b) (hw : Trivia w)
    (hsize : (Utf8.encode (a ++ (w ++ b))).length ≤ limits.maxInputSize) :
    (parse limits (a ++ (w ++ b))).mapError Error.unplaced =
      (parse limits (a ++ b)).mapError Error.unplaced := by
  obtain ⟨ms, q, hms, htokens⟩ := lexes_insert h hb hw
  have hsize' : (Utf8.encode (a ++ b)).length ≤ limits.maxInputSize := by
    simp only [Utf8.encode, List.flatMap_append, List.length_append] at hsize ⊢
    omega
  rw [parse_of_lexes hms hsize, parse_of_lexes h hsize']
  exact Stage.run_unplaced (.value []) htokens

/-- A comment to the end of a line that looks like the end of the array, and a block comment,
behind a number that a block comment follows at once. -/
theorem parse_insert_trivia_behind_number :
    (parse ⟨30, 1⟩ (['[', '1'] ++ (['/', '/', ']', '\n', '/', '*', '*', '/'] ++
        ['/', '*', '"', '*', '/', ']']))).mapError Error.unplaced =
      (parse ⟨30, 1⟩ (['[', '1'] ++ ['/', '*', '"', '*', '/', ']'])).mapError Error.unplaced := by
  have hl : Lexes (['[', '1'] ++ ['/', '*', '"', '*', '/', ']']) _ _ :=
    .token rfl (.token rfl (.token rfl (.ending rfl)))
  have hb : (Cursor.ofText (['[', '1'] ++ ['/', '*', '"', '*', '/', ']'])).Borders
      ['/', '*', '"', '*', '/', ']'] :=
    .later rfl (@Cursor.Borders.last _ ⟨⟨1, 3⟩, _⟩ _ rfl)
  have hw : Trivia ['/', '/', ']', '\n', '/', '*', '*', '/'] :=
    .line (s := [']']) (by decide) (.block (s := []) (by decide) .nil)
  exact parse_insert_trivia ⟨30, 1⟩ hl hb hw (by decide)

end StyleVars.Json
