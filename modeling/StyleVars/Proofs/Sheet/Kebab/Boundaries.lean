import StyleVars.Proofs.Sheet.Kebab

/-!
Kebab case step by step. The hyphens can be put into one kind of boundary after the other: no
capital stands before a boundary of the first kind, so a hyphen there parts no two capitals, and it
is no capital itself. A text in kebab case has no capitals, and so no boundaries either. Capitals,
small letters and digits are those of ASCII throughout; only lower-casing looks beyond them.
-/

namespace StyleVars.Sheet

/-- The text with a hyphen in each boundary. Whether there is one behind a character hangs on the
character and on the text that follows. -/
def hyphenateAt (boundary : Char → Text → Bool) : Text → Text
  | [] => []
  | c :: cs =>
    if boundary c cs then c :: '-' :: hyphenateAt boundary cs
    else c :: hyphenateAt boundary cs

/-- Between a small letter or digit and a capital. -/
def isWordBoundary (b : Char) : Text → Bool
  | c :: _ => (b.isLower || b.isDigit) && c.isUpper
  | [] => false

/-- Between two capitals, of which the second is followed by a small letter. -/
def isAcronymBoundary (b : Char) : Text → Bool
  | c :: d :: _ => b.isUpper && c.isUpper && d.isLower
  | _ => false

lemma isLower_or_isDigit_eq_false {c : Char} (h : c.isUpper = true) :
    (c.isLower || c.isDigit) = false :=
  Unicode.forall_isUpper (P := fun c => (c.isLower || c.isDigit) = false) (by decide) h

/-- A word begins in a boundary of one kind or the other. -/
lemma beginsWord_eq (b c : Char) (cs : Text) :
    beginsWord (some b) c cs.head? =
      (isWordBoundary b (c :: cs) || isAcronymBoundary b (c :: cs)) := by
  cases cs with
  | nil => simp [beginsWord, isWordBoundary, isAcronymBoundary, Bool.and_comm]
  | cons d cs =>
    simp only [beginsWord, isWordBoundary, isAcronymBoundary, List.head?_cons, Option.any_some]
    cases c.isUpper <;> simp

lemma hyphenateAt_cons (boundary : Char → Text → Bool) (c : Char) (cs : Text) :
    ∃ t, hyphenateAt boundary (c :: cs) = c :: t := by
  rw [hyphenateAt]
  split <;> exact ⟨_, rfl⟩

/-- A hyphen is no capital, so it makes no boundary between capitals. -/
lemma isAcronymBoundary_hyphen (b : Char) (cs : Text) :
    isAcronymBoundary b ('-' :: cs) = false ∧ isAcronymBoundary '-' cs = false := by
  constructor
  · cases cs <;> simp [isAcronymBoundary]
  · rcases cs with _ | ⟨c, _ | ⟨d, cs⟩⟩ <;> simp [isAcronymBoundary]

/-- The hyphens of the first kind neither make nor destroy a boundary of the second kind. -/
lemma isAcronymBoundary_hyphenateAt (b : Char) (cs : Text) :
    isAcronymBoundary b (hyphenateAt isWordBoundary cs) = isAcronymBoundary b cs := by
  rcases cs with _ | ⟨c, _ | ⟨d, cs⟩⟩
  · rfl
  · rfl
  · obtain ⟨t, ht⟩ := hyphenateAt_cons isWordBoundary d cs
    rw [hyphenateAt]
    split
    · next hword =>
      have hc : c.isUpper = false := by
        by_contra hupper
        rw [isWordBoundary, isLower_or_isDigit_eq_false (Bool.of_not_eq_false hupper)] at hword
        cases hword
      simp [isAcronymBoundary, hc]
    · rw [ht]
      rfl

lemma hyphenateAt_hyphenateAt (b : Char) (cs : Text) :
    hyphenateAt isAcronymBoundary (hyphenateAt isWordBoundary (b :: cs)) =
      b :: hyphenate (some b) cs := by
  induction cs generalizing b with
  | nil => rfl
  | cons c cs ih =>
    rw [hyphenate, beginsWord_eq, hyphenateAt]
    by_cases hword : isWordBoundary b (c :: cs) = true
    · -- behind the hyphen the second step goes on as from a beginning
      rw [if_pos hword, hyphenateAt, (isAcronymBoundary_hyphen b _).1, hyphenateAt,
        (isAcronymBoundary_hyphen b _).2, ih, hword]
      rfl
    · rw [if_neg hword, hyphenateAt, isAcronymBoundary_hyphenateAt, ih,
        Bool.of_not_eq_true hword, Bool.false_or]
      split <;> rfl

/-- **Kebab case in three steps**: hyphens between small letters or digits and capitals, then
hyphens between two capitals before a small letter, then small letters throughout. -/
theorem kebab_eq_steps (key : Text) :
    kebab key =
      Unicode.toLower (hyphenateAt isAcronymBoundary (hyphenateAt isWordBoundary key)) := by
  cases key with
  | nil => rfl
  | cons c cs => rw [kebab, hyphenate_cons, hyphenateAt_hyphenateAt]

/-! ### Keys in kebab case -/

/-- Words begin with capitals only. -/
lemma hyphenate_of_isUpper_eq_false (before : Option Char) {s : Text}
    (h : ∀ c ∈ s, c.isUpper = false) : hyphenate before s = s := by
  induction s generalizing before with
  | nil => rfl
  | cons c s ih =>
    obtain ⟨hc, hs⟩ := List.forall_mem_cons.mp h
    have hbegins : beginsWord before c s.head? = false := by simp [beginsWord, hc]
    rw [hyphenate, hbegins, ih (some c) hs]
    rfl

/-- **A key in kebab case stays as it is.** -/
theorem kebab_kebab (key : Text) : kebab (kebab key) = kebab key := by
  have hlowered : ∀ c ∈ kebab key, Unicode.IsLowered c := fun _ =>
    Unicode.isLowered_of_mem_lowerFrom
  have hhyphens : hyphenate none (kebab key) = kebab key :=
    hyphenate_of_isUpper_eq_false none fun c hc => (hlowered c hc).isUpper_eq_false
  calc kebab (kebab key) = Unicode.toLower (kebab key) := congrArg Unicode.toLower hhyphens
    _ = kebab key := Unicode.toLower_toLower (hyphenate none key)

end StyleVars.Sheet
