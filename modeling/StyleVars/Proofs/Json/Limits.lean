import StyleVars.Proofs.Json.ErrorPlaces

/-!
What limits have an influence on. Within wider limits a text has the same value or the same error,
unless it was a limit that stopped the parser before. The two runs are in step up to there: they
are in the same stage, and so they count the same brackets.
-/

namespace StyleVars.Json

namespace Limits

/-- Limits that are at least as wide, both in size and in nesting. -/
instance : LE Limits where
  le a b := a.maxInputSize ≤ b.maxInputSize ∧ a.maxNestingDepth ≤ b.maxNestingDepth

instance (a b : Limits) : Decidable (a ≤ b) :=
  inferInstanceAs (Decidable (_ ∧ _))

end Limits

/-- The error is that of a limit. -/
inductive Error.IsLimit : Error → Prop where
  | inputTooLarge {size limit : Nat} : IsLimit (.inputTooLarge size limit)
  | nestingTooDeep {depth limit : Nat} {pos : Position} :
      IsLimit (.nestingTooDeep depth limit pos)

variable {α : Type} {tight wide : Limits} {s : Text}

/-- The results within two limits are the same, unless the error of a limit is the first. -/
def SameUnlessLimited (r r' : Except Error α) : Prop :=
  r = r' ∨ ∃ e, r = .error e ∧ e.IsLimit

namespace Stage

variable {pos : Position} {ending : Except Error Position}

lemma enter_limited (h : tight ≤ wide) (outer : List Frame) (inside : Stage) :
    SameUnlessLimited (enter tight pos outer inside) (enter wide pos outer inside) := by
  rw [enter, enter]
  by_cases htight : tight.maxNestingDepth < outer.length + 1
  · rw [if_pos htight]
    exact .inr ⟨_, rfl, .nestingTooDeep⟩
  · have hwide : ¬ wide.maxNestingDepth < outer.length + 1 := fun hlt =>
      htight (Nat.lt_of_le_of_lt h.2 hlt)
    rw [if_neg htight, if_neg hwide]
    exact .inl rfl

lemma begin_limited (h : tight ≤ wide) (outer : List Frame) (t : Token) :
    SameUnlessLimited (begin tight pos outer t) (begin wide pos outer t) := by
  cases t with
  | openBracket => exact enter_limited h outer _
  | openBrace => exact enter_limited h outer _
  | _ => exact .inl rfl

/-- **One token further** the two runs are still in the same stage, or a limit has stopped the
first one. -/
theorem step_limited (h : tight ≤ wide) (s : Stage) (t : Token) :
    SameUnlessLimited (step tight pos s t) (step wide pos s t) := by
  cases s with
  | value outer => exact begin_limited h outer t
  | items before outer =>
    by_cases ht : t = .closeBracket
    · subst ht
      exact .inl rfl
    · rw [step_items ht, step_items ht]
      exact begin_limited h _ t
  | itemEnd | members | colon | memberEnd =>
    -- Here no container is opened.
    cases t <;> exact .inl rfl
  | finished v => exact .inl rfl

theorem run_limited (h : tight ≤ wide) (s : Stage) (ls : List Lexeme) :
    SameUnlessLimited (run tight ending s ls) (run wide ending s ls) := by
  induction ls generalizing s with
  | nil => exact .inl rfl
  | cons l ls ih =>
    rw [run, run]
    rcases step_limited h s l.token with hsame | ⟨e, he, hlimit⟩
    · rw [hsame]
      cases step wide l.pos s l.token with
      | error e => exact .inl rfl
      | ok s' => exact ih s'
    · rw [he]
      exact .inr ⟨e, rfl, hlimit⟩

end Stage

lemma parse_limited (h : tight ≤ wide) (s : Text) :
    SameUnlessLimited (parse tight s) (parse wide s) := by
  rw [parse, parse, scan, scan]
  by_cases htight : tight.maxInputSize < utf8Size s
  · rw [if_pos htight]
    exact .inr ⟨_, rfl, .inputTooLarge⟩
  · have hwide : ¬ wide.maxInputSize < utf8Size s := fun hlt =>
      htight (Nat.lt_of_le_of_lt h.1 hlt)
    rw [if_neg htight, if_neg hwide]
    exact Stage.run_limited h _ _

/-- **Wider limits** change neither a value nor an error other than that of a limit. A text that is
nested too deep is so by one. -/
theorem parse_of_le (h : tight ≤ wide) (s : Text) :
    (∀ v, parse tight s = .ok v → parse wide s = .ok v) ∧
      (∀ e, parse tight s = .error e → ¬ e.IsLimit → parse wide s = .error e) ∧
      ∀ depth limit pos, parse tight s = .error (.nestingTooDeep depth limit pos) →
        depth = limit + 1 ∧ limit = tight.maxNestingDepth := by
  refine ⟨fun v hv => ?_, fun e he hno => ?_, fun depth limit pos he => ?_⟩
  · rcases parse_limited h s with hsame | ⟨e, he, -⟩
    · rw [← hsame, hv]
    · rw [hv] at he
      cases he
  · rcases parse_limited h s with hsame | ⟨e', he', hlimit⟩
    · rw [← hsame, he]
    · rw [he] at he'
      cases he'
      exact absurd hlimit hno
  · obtain ⟨hlimit, hdepth, -⟩ := isAbout_of_parse he
    exact ⟨hdepth, hlimit⟩

/-- A list that is not closed, with a list and an object in it. -/
def openSiblings : Text := "[[],\x7b\"a\":null\x7d".toList

/-- Containers beside each other do not add up. -/
theorem parse_of_le_openSiblings :
    (⟨14, 2⟩ : Limits) ≤ .standard ∧
      parse ⟨14, 2⟩ openSiblings = .error (.unexpectedEnd .commaOrBracket ⟨1, 15⟩) ∧
      parse .standard openSiblings = .error (.unexpectedEnd .commaOrBracket ⟨1, 15⟩) := by
  have hle : (⟨14, 2⟩ : Limits) ≤ .standard := by decide
  have hl : Lexes openSiblings _ _ :=
    .token rfl (.token rfl (.token rfl (.token rfl (.token rfl (.token rfl (.token rfl
      (.token rfl (.token rfl (.ending rfl)))))))))
  have he : parse ⟨14, 2⟩ openSiblings = .error (.unexpectedEnd .commaOrBracket ⟨1, 15⟩) := by
    rw [parse_of_lexes hl (by decide)]
    rfl
  exact ⟨hle, he, (parse_of_le hle _).2.1 _ he (by rintro ⟨⟩)⟩

end StyleVars.Json
