import StyleVars.Proofs.Json.Parsing
import StyleVars.Proofs.Result

/-!
Where the parser stops. A step is refused at its own token, and the run at the first such step or
at the end of its tokens. How many brackets are open, the parser knows from the tokens so far.
-/

namespace StyleVars.Json

/-- How many brackets and braces are open behind a token, if `n` are open before it. -/
def Token.openAfter (n : Nat) : Token → Nat
  | .openBrace | .openBracket => n + 1
  | .closeBrace | .closeBracket => n - 1
  | _ => n

/-- How many brackets and braces are open behind some tokens. -/
def openCount (ts : List Token) : Nat := ts.foldl Token.openAfter 0

namespace Stage

variable {limits : Limits} {pos : Position} {s r : Stage} {outer : List Frame} {t : Token}
  {ts : List Token} {ls : List Lexeme} {e : Error}

/-! ### Depth -/

/-- How many containers are open. -/
def depth : Stage → Nat
  | value outer => outer.length
  | items _ outer | itemEnd _ outer => outer.length + 1
  | members _ outer | colon _ _ outer | memberEnd _ outer => outer.length + 1
  | finished _ => 0

@[simp] lemma depth_accept (v : Value) (outer : List Frame) :
    (accept v outer).depth = outer.length := by
  cases outer with
  | nil => rfl
  | cons f outer => cases f <;> rfl

lemma depth_begin (h : begin limits pos outer t = .ok r) :
    r.depth = t.openAfter outer.length := by
  cases t with
  | null | bool | number | string =>
    cases h
    exact depth_accept _ _
  | openBracket | openBrace =>
    obtain ⟨-, rfl⟩ := lt_of_enter h
    rfl
  | closeBrace | closeBracket | colon | comma => cases h

/-- **One token further** the parser has counted its bracket. -/
theorem depth_step (h : s.step limits pos t = .ok r) : r.depth = t.openAfter s.depth := by
  cases s with
  | value outer => exact depth_begin h
  | items before outer =>
    by_cases ht : t = .closeBracket
    · subst ht
      cases h
      exact depth_accept _ _
    · rw [step_items ht] at h
      exact depth_begin h
  | itemEnd | members | colon | memberEnd =>
    -- What is taken here either ends the container or leaves it as it is.
    cases t <;> cases h <;> first | exact depth_accept _ _ | rfl
  | finished v => cases h

theorem depth_advance (h : s.advance limits ls = .ok r) :
    r.depth = (ls.map Lexeme.token).foldl Token.openAfter s.depth := by
  induction ls generalizing s with
  | nil =>
    cases h
    rfl
  | cons l ls ih =>
    rw [advance_cons] at h
    obtain ⟨s', hs', h⟩ := bind_eq_ok_iff.mp h
    rw [ih h, depth_step hs']
    rfl

lemma Opens.length_le {limit : Nat} (h : Opens limit outer ts) : outer.length ≤ limit := by
  cases h with
  | nil => exact Nat.zero_le _
  | item _ hlt _ => exact hlt
  | member _ hlt _ => exact hlt

lemma Reached.depth_le {limit : Nat} (h : Reached limit s ts) : s.depth ≤ limit := by
  cases h with
  | value ho => exact ho.length_le
  | items ho => exact ho.length_le
  | itemEnd ho _ => exact ho.length_le
  | members _ hlt _ => exact hlt
  | colon _ hlt _ => exact hlt
  | memberEnd ho _ => exact ho.length_le
  | finished _ => exact Nat.zero_le _

/-! ### Steps and runs that fail -/

/-- How a stage refuses a token at `pos`. -/
inductive Refuses (limits : Limits) (pos : Position) (s : Stage) (t : Token) : Error → Prop where
  | unexpected {x : Expectation} : Refuses limits pos s t (.unexpectedToken t x pos)
  | tooDeep :
      t = .openBracket ∨ t = .openBrace → limits.maxNestingDepth < s.depth + 1 →
      Refuses limits pos s t (.nestingTooDeep (s.depth + 1) limits.maxNestingDepth pos)
  | trailing {v : Value} : s = .finished v → Refuses limits pos s t (.trailingContent pos)

lemma refuses_of_enter {inside : Stage} (ht : t = .openBracket ∨ t = .openBrace)
    (hs : s.depth = outer.length) (h : enter limits pos outer inside = .error e) :
    Refuses limits pos s t e := by
  rw [enter, ← hs] at h
  split at h
  · next hlt =>
    cases h
    exact .tooDeep ht hlt
  · cases h

lemma refuses_of_begin (hs : s.depth = outer.length) (h : begin limits pos outer t = .error e) :
    Refuses limits pos s t e := by
  cases t with
  | null | bool | number | string => cases h
  | openBracket => exact refuses_of_enter (.inl rfl) hs h
  | openBrace => exact refuses_of_enter (.inr rfl) hs h
  | closeBrace | closeBracket | colon | comma =>
    cases h
    exact .unexpected

lemma refuses_of_step (h : s.step limits pos t = .error e) : Refuses limits pos s t e := by
  cases s with
  | value outer => exact refuses_of_begin rfl h
  | items before outer =>
    by_cases ht : t = .closeBracket
    · subst ht
      cases h
    · rw [step_items ht] at h
      exact refuses_of_begin rfl h
  | itemEnd | members | colon | memberEnd =>
    cases t <;> cases h <;> exact .unexpected
  | finished v =>
    cases h
    exact .trailing rfl

lemma unexpectedEnd_of_close (h : s.close pos = .error e) :
    ∃ x, e = .unexpectedEnd x pos ∧ ∀ w, x ≠ .word w := by
  cases s with
  | finished v => cases h
  | value | items | itemEnd | members | colon | memberEnd =>
    cases h
    exact ⟨_, rfl, by simp⟩

/-- **A run fails** at a token that is refused, or at the end of its tokens. -/
theorem stops_of_run {ending : Except Error Position} (h : run limits ending s ls = .error e) :
    (∃ ls₁ l ls₂ r, ls = ls₁ ++ l :: ls₂ ∧ s.advance limits ls₁ = .ok r ∧
        Refuses limits l.pos r l.token e) ∨
      ending = .error e ∨
      ∃ p x, ending = .ok p ∧ e = .unexpectedEnd x p ∧ ∀ w, x ≠ .word w := by
  induction ls generalizing s with
  | nil =>
    cases ending with
    | error e' =>
      cases h
      exact .inr (.inl rfl)
    | ok p =>
      obtain ⟨x, rfl, hx⟩ := unexpectedEnd_of_close h
      exact .inr (.inr ⟨p, x, rfl, rfl, hx⟩)
  | cons l ls ih =>
    rw [run] at h
    cases hs : s.step limits l.pos l.token with
    | error e' =>
      rw [hs] at h
      cases h
      exact .inl ⟨[], l, ls, s, rfl, rfl, refuses_of_step hs⟩
    | ok s' =>
      rw [hs] at h
      rcases ih h with ⟨ls₁, l', ls₂, r, rfl, hr, hrefuses⟩ | hend
      · exact .inl ⟨l :: ls₁, l', ls₂, r, rfl, (advance_cons_of_step hs).trans hr, hrefuses⟩
      · exact .inr hend

end Stage

end StyleVars.Json
