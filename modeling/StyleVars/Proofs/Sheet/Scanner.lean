import Mathlib.Data.List.Basic
import StyleVars.Sheet.Expression

/-!
Reading a stylesheet for its structure only. A backslash takes the meaning from the character
behind it, quotes hide what is between them, parentheses nest, and a semicolon outside of all of
these ends a declaration. A text that leaves the reader in the place where it found him can be
written anywhere.
-/

namespace StyleVars.Sheet

/-- Where the reader of a stylesheet is. -/
structure Scanner where
  /-- The delimiter of the string that is being read. -/
  delimiter : Option Char
  /-- Whether there is a backslash right before. -/
  escaped : Bool
  /-- How many parentheses are open. -/
  depth : Nat
  /-- How many declarations have ended. -/
  ends : Nat
deriving DecidableEq, Repr

namespace Scanner

/-- Outside of strings and behind no backslash. -/
def outside (depth ends : Nat) : Scanner := ⟨none, false, depth, ends⟩

/-- One character outside of strings and behind no backslash; nothing, if it closes a parenthesis
that is not open. -/
def stepOutside (depth ends : Nat) (c : Char) : Option Scanner :=
  if c = '\'' ∨ c = '"' then some ⟨some c, false, depth, ends⟩
  else if c = '(' then some (outside (depth + 1) ends)
  else if c = ')' then if depth = 0 then none else some (outside (depth - 1) ends)
  else if c = ';' ∧ depth = 0 then some (outside depth (ends + 1))
  else some (outside depth ends)

def step : Scanner → Char → Option Scanner
  | ⟨q, true, depth, ends⟩, _ => some ⟨q, false, depth, ends⟩
  | ⟨q, false, depth, ends⟩, c =>
    if c = '\\' then some ⟨q, true, depth, ends⟩
    else match q with
      | some d => some (if c = d then outside depth ends else ⟨q, false, depth, ends⟩)
      | none => stepOutside depth ends c

def run (s : Scanner) (t : Text) : Option Scanner := t.foldlM step s

@[simp] lemma run_nil (s : Scanner) : run s [] = some s := rfl

@[simp] lemma run_cons (s : Scanner) (c : Char) (t : Text) :
    run s (c :: t) = (step s c).bind (run · t) := rfl

lemma run_append (s : Scanner) (t u : Text) : run s (t ++ u) = (run s t).bind (run · u) := by
  simp [run, List.foldlM_append]

lemma step_string {c : Char} (hc : c ≠ '\\') (q : Char) (depth ends : Nat) :
    step ⟨some q, false, depth, ends⟩ c =
      some (if c = q then outside depth ends else ⟨some q, false, depth, ends⟩) :=
  if_neg hc

lemma step_outside {c : Char} (hc : c ≠ '\\') (depth ends : Nat) :
    step (outside depth ends) c = stepOutside depth ends c :=
  if_neg hc

lemma run_cons_of_step {s s' : Scanner} {c : Char} (h : step s c = some s') (t : Text) :
    run s (c :: t) = run s' t := by
  rw [run_cons, h, Option.bind_some]

lemma run_append_of_run {s s' : Scanner} {t : Text} (h : run s t = some s') (u : Text) :
    run s (t ++ u) = run s' u := by
  rw [run_append, h, Option.bind_some]

/-! ### The same text in another place -/

/-- The same place, with `d` more open parentheses around it and `n` more declarations before it.
Inside of parentheses no declaration ends, so `n` is all that counts there. -/
def within (d n : Nat) (s : Scanner) : Scanner :=
  { s with depth := s.depth + d, ends := if d = 0 then s.ends + n else n }

lemma outside_within (d n depth ends : Nat) :
    (outside depth ends).within d n = outside (depth + d) (if d = 0 then ends + n else n) := rfl

lemma stepOutside_within (d n depth ends : Nat) {c : Char} {s : Scanner}
    (h : stepOutside depth ends c = some s) :
    stepOutside (depth + d) (if d = 0 then ends + n else n) c = some (s.within d n) := by
  unfold stepOutside at h ⊢
  grind [within, outside]

/-- What can be read without closing the parentheses around it is read likewise inside of them. -/
lemma step_within (d n : Nat) {s s' : Scanner} {c : Char} (h : step s c = some s') :
    step (s.within d n) c = some (s'.within d n) := by
  obtain ⟨q, escaped, depth, ends⟩ := s
  cases escaped with
  | true =>
    cases h
    rfl
  | false =>
    by_cases hc : c = '\\'
    · subst hc
      cases h
      rfl
    · cases q with
      | some q =>
        rw [step_string hc] at h
        rw [within, step_string hc]
        cases h
        split <;> rfl
      | none =>
        refine (step_outside hc _ _).trans (stepOutside_within d n depth ends ?_)
        rwa [← outside, step_outside hc] at h

lemma run_within (d n : Nat) {s s' : Scanner} {t : Text} (h : run s t = some s') :
    run (s.within d n) t = some (s'.within d n) := by
  induction t generalizing s with
  | nil =>
    cases h
    rfl
  | cons c t ih =>
    obtain ⟨s₁, hstep, hrun⟩ := Option.bind_eq_some_iff.mp h
    rw [run_cons_of_step (step_within d n hstep)]
    exact ih hrun

end Scanner

open Scanner

/-! ### Texts that change nothing -/

/-- A text with all its strings, escapes and parentheses complete and no closing parenthesis of
others. -/
def Level (t : Text) : Prop := ∃ n, run (outside 0 0) t = some (outside 0 n)

/-- A text that is level and ends no declaration. -/
def Closed (t : Text) : Prop := run (outside 0 0) t = some (outside 0 0)

instance (t : Text) : Decidable (Closed t) := inferInstanceAs (Decidable (_ = _))

variable {t u : Text}

lemma Closed.level (h : Closed t) : Level t := ⟨0, h⟩

lemma Closed.run_eq (h : Closed t) (depth ends : Nat) :
    run (outside depth ends) t = some (outside depth ends) := by
  have hw := run_within depth ends h
  simpa [outside_within] using hw

lemma Level.run_eq (h : Level t) (depth ends : Nat) :
    run (outside (depth + 1) ends) t = some (outside (depth + 1) ends) := by
  obtain ⟨n, h⟩ := h
  have hw := run_within (depth + 1) ends h
  simpa [outside_within] using hw

lemma Closed.append (ht : Closed t) (hu : Closed u) : Closed (t ++ u) := by
  rw [Closed, run_append_of_run ht, hu]

lemma Level.append (ht : Level t) (hu : Level u) : Level (t ++ u) := by
  obtain ⟨n, ht⟩ := ht
  obtain ⟨k, hu⟩ := hu
  refine ⟨k + n, ?_⟩
  have hw := run_within 0 n hu
  rw [run_append_of_run ht]
  simpa [outside_within] using hw

/-- The characters that mean something to the reader. -/
def marks : List Char := ['\\', '\'', '"', '(', ')', ';']

/-- Characters that mean nothing to the reader. -/
def isPlain (c : Char) : Bool := !marks.contains c

lemma step_plain {c : Char} (hc : isPlain c = true) (depth ends : Nat) :
    step (outside depth ends) c = some (outside depth ends) := by
  simp only [isPlain, marks, List.contains_eq_mem, List.mem_cons, List.not_mem_nil, or_false,
    Bool.not_eq_true', decide_eq_false_iff_not, not_or] at hc
  simp [outside, step, stepOutside, hc]

lemma closed_nil : Closed [] := rfl

lemma Closed.cons {c : Char} (hc : isPlain c = true) (ht : Closed t) : Closed (c :: t) := by
  rw [Closed, run_cons_of_step (step_plain hc 0 0), ht]

lemma closed_of_plain (h : ∀ c ∈ t, isPlain c = true) : Closed t := by
  induction t with
  | nil => exact closed_nil
  | cons c t ih =>
    obtain ⟨hc, ht⟩ := List.forall_mem_cons.mp h
    exact .cons hc (ih ht)

lemma level_joinPieces {sep : Char} (hsep : isPlain sep = true) :
    ∀ ps : List Text, (∀ p ∈ ps, Level p) → Level (joinPieces sep ps)
  | [], _ => closed_nil.level
  | [p], h => h p (by simp)
  | p :: q :: ps, h => by
    obtain ⟨hp, hps⟩ := List.forall_mem_cons.mp h
    have hsingle : Closed [sep] := closed_nil.cons hsep
    rw [joinPieces, ← List.singleton_append]
    exact hp.append (hsingle.level.append (level_joinPieces hsep (q :: ps) hps))

/-- **Level parts in parentheses** change nothing, whatever semicolons are in them. -/
lemma closed_parenthesized {parts : List Text} (h : ∀ p ∈ parts, Level p) :
    Closed (parenthesized parts) := by
  have hparts : Level (joinPieces ',' parts) := level_joinPieces rfl parts h
  have hopen : step (outside 0 0) '(' = some (outside 1 0) := rfl
  rw [Closed, parenthesized, run_cons_of_step hopen, run_append_of_run (hparts.run_eq 0 0)]
  rfl

/-! ### Strings in quotes -/

/-- No backslash takes the meaning from a delimiter, neither from one inside of the text nor from
the one behind it; `escaped` says whether there is a backslash right before the text. -/
def unbrokenFrom (delimiter : Char) (escaped : Bool) : Text → Bool
  | [] => !escaped
  | c :: cs =>
    if escaped then c != delimiter && unbrokenFrom delimiter false cs
    else unbrokenFrom delimiter (c == '\\') cs

/-- The backslashes of a text do no harm when it is put in quotes. -/
def Unbroken (delimiter : Char) (s : Text) : Prop := unbrokenFrom delimiter false s = true

instance (delimiter : Char) (s : Text) : Decidable (Unbroken delimiter s) :=
  inferInstanceAs (Decidable (_ = true))

lemma run_escape {d : Char} (hd : d ≠ '\\') (depth ends : Nat) {s : Text} {escaped : Bool}
    (h : unbrokenFrom d escaped s = true) :
    run ⟨some d, escaped, depth, ends⟩ (escape d s ++ [d]) = some (outside depth ends) := by
  induction s generalizing escaped with
  | nil =>
    cases escaped with
    | true => cases h
    | false => simp [escape, step, hd]
  | cons c s ih =>
    rw [unbrokenFrom] at h
    rw [escape]
    cases escaped with
    | true =>
      rw [if_pos rfl, Bool.and_eq_true, bne_iff_ne] at h
      rw [if_neg h.1]
      exact ih h.2
    | false =>
      rw [if_neg Bool.false_ne_true] at h
      by_cases hc : c = d
      · -- the delimiter gets a backslash of its own
        have hb : (c == '\\') = false := by simpa [hc] using hd
        rw [hb] at h
        rw [if_pos hc]
        exact ih h
      · rw [if_neg hc, List.cons_append]
        by_cases hb : c = '\\'
        · subst hb
          exact ih h
        · have hstep : step ⟨some d, false, depth, ends⟩ c = some ⟨some d, false, depth, ends⟩ := by
            simp [step, hb, hc]
          rw [beq_eq_false_iff_ne.mpr hb] at h
          rw [run_cons_of_step hstep]
          exact ih h

/-- **Quotes hide whatever is between them** unless a backslash breaks them open. -/
lemma closed_quote {d : Char} {s : Text} (hd : d = '\'' ∨ d = '"') (h : Unbroken d s) :
    Closed (quote d s) := by
  have hne : d ≠ '\\' := by
    rcases hd with rfl | rfl <;> decide
  have hopen : step (outside 0 0) d = some ⟨some d, false, 0, 0⟩ := by
    simp [outside, step, stepOutside, hne, hd]
  rw [Closed, quote, run_cons_of_step hopen, run_escape hne 0 0 h]

end StyleVars.Sheet
