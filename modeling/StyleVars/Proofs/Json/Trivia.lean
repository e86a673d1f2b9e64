import Mathlib.Data.List.Basic
import StyleVars.Json.Token.Scan

/-!
What may stand between two tokens: blanks, block comments, and comments to the end of a line. The
reader passes over it, and whatever it has passed over is of this kind, except that the last line
of a text needs no end.
-/

namespace StyleVars.Json

/-- Blanks and whole comments. -/
inductive Trivia : Text → Prop where
  | nil : Trivia []
  | blank {c : Char} {w : Text} : isBlank c = true → Trivia w → Trivia (c :: w)
  | line {s w : Text} : '\n' ∉ s → Trivia w → Trivia ('/' :: '/' :: s ++ '\n' :: w)
  | block {s w : Text} :
      ¬ ['*', '/'] <:+: s → Trivia w → Trivia ('/' :: '*' :: s ++ '*' :: '/' :: w)

lemma Trivia.append {v w : Text} (hv : Trivia v) (hw : Trivia w) : Trivia (v ++ w) := by
  induction hv with
  | nil => exact hw
  | blank hc _ ih => exact .blank hc ih
  | line hs _ ih => simpa using Trivia.line hs ih
  | block hs _ ih => simpa using Trivia.block hs ih

/-- Trivia begins with a blank or a slash. -/
lemma Trivia.head {c : Char} {w : Text} (h : Trivia (c :: w)) : isBlank c = true ∨ c = '/' := by
  cases h with
  | blank hc _ => exact .inl hc
  | line => exact .inr rfl
  | block => exact .inr rfl

/-! ### Passing over trivia -/

variable {p : Position} {c : Char} {cs k : Text}

lemma skip_blank (hc : isBlank c = true) :
    skip .blank p (c :: cs) = skip .blank (p.next c) cs := by
  have hslash : c ≠ '/' := by
    rintro rfl
    cases hc
  rw [skip]
  · rw [if_pos hc]
  all_goals simp_all

lemma skip_token (hc : isBlank c = false) (hslash : c ≠ '/') :
    skip .blank p (c :: cs) = .ok ⟨p, c :: cs⟩ := by
  rw [skip]
  · simp [hc]
  all_goals simp_all

lemma skip_line {s : Text} (hs : '\n' ∉ s) :
    skip .line p (s ++ '\n' :: cs) = skip .blank (p.after (s ++ ['\n'])) cs := by
  induction s generalizing p with
  | nil => simp [skip]
  | cons a s ih =>
    simp only [List.mem_cons, not_or] at hs
    have ha : a ≠ '\n' := fun h => hs.1 h.symm
    rw [List.cons_append, skip, if_neg ha, ih hs.2]
    rfl

lemma skip_line_end {s : Text} (hs : '\n' ∉ s) : skip .line p s = .ok ⟨p.after s, []⟩ := by
  induction s generalizing p with
  | nil => rfl
  | cons a s ih =>
    simp only [List.mem_cons, not_or] at hs
    have ha : a ≠ '\n' := fun h => hs.1 h.symm
    rw [skip, if_neg ha, ih hs.2]
    rfl

lemma skip_block {start : Position} {s : Text} (hs : ¬ ['*', '/'] <:+: s) :
    skip (.block start) p (s ++ '*' :: '/' :: cs) = skip .blank (p.after (s ++ ['*', '/'])) cs := by
  induction s generalizing p with
  | nil => rfl
  | cons a s ih =>
    rw [List.infix_cons_iff, not_or] at hs
    rw [List.cons_append, skip, ih hs.2]
    · rfl
    · rintro r rfl hr
      refine hs.1 ?_
      cases s with
      | nil => cases hr
      | cons b s =>
        cases hr
        exact ⟨s, rfl⟩

/-- **Trivia is passed over**, whatever stands behind it. -/
theorem skip_trivia {w : Text} (h : Trivia w) (p : Position) (r : Text) :
    skip .blank p (w ++ r) = skip .blank (p.after w) r := by
  induction h generalizing p with
  | nil => rfl
  | blank hc _ ih => rw [List.cons_append, skip_blank hc, ih, Position.after_cons]
  | @line s w hs _ ih =>
    simp only [List.cons_append, List.append_assoc]
    rw [skip, skip_line hs, ih]
    simp [Position.right, Position.next]
  | @block s w hs _ ih =>
    simp only [List.cons_append, List.append_assoc]
    rw [skip, skip_block hs, ih]
    simp [Position.right, Position.next]

/-! ### What was passed over -/

/-- The text `w` completes a gap, so that a token may follow. -/
def Gap.Fills : Gap → Text → Prop
  | .blank, w => Trivia w
  | .line, w => ∃ s v, '\n' ∉ s ∧ Trivia v ∧ w = s ++ '\n' :: v
  | .block _, w => ∃ s v, ¬ ['*', '/'] <:+: s ∧ Trivia v ∧ w = s ++ '*' :: '/' :: v

/-- Nothing, or a comment to the end of a line at the end of the text. -/
def OpenComment (r : Text) : Prop := r = [] ∨ ∃ s, '\n' ∉ s ∧ r = '/' :: '/' :: s

/-- The text `cs` completes a gap up to `rest`, or up to the end of the text. -/
def Gap.Spans (g : Gap) (cs rest : Text) : Prop :=
  (∃ w r, cs = w ++ r ∧ g.Fills w ∧ (r = rest ∨ rest = [] ∧ OpenComment r)) ∨
    (g = .line ∧ '\n' ∉ cs ∧ rest = [])

lemma spans_of_skip {g : Gap} {p : Position} {cs : Text} {k : Cursor}
    (h : skip g p cs = .ok k) : g.Spans cs k.rest := by
  fun_induction skip g p cs with
  | case1 p cs ih =>
    rcases ih h with ⟨w, r, rfl, ⟨s, v, hs, hv, rfl⟩, hr⟩ | ⟨-, hs, hk⟩
    · exact .inl ⟨'/' :: '/' :: s ++ '\n' :: v, r, by simp, .line hs hv, hr⟩
    · exact .inl ⟨[], _, rfl, .nil, .inr ⟨hk, .inr ⟨_, hs, rfl⟩⟩⟩
  | case2 p cs ih =>
    rcases ih h with ⟨w, r, rfl, ⟨s, v, hs, hv, rfl⟩, hr⟩ | ⟨hg, _⟩
    · exact .inl ⟨'/' :: '*' :: s ++ '*' :: '/' :: v, r, by simp, .block hs hv, hr⟩
    · cases hg
  | case3 p c cs _ _ hc ih =>
    rcases ih h with ⟨w, r, rfl, hw, hr⟩ | ⟨hg, _⟩
    · exact .inl ⟨c :: w, r, rfl, .blank hc hw, hr⟩
    · cases hg
  | case4 p c cs =>
    cases h
    exact .inl ⟨[], _, rfl, .nil, .inl rfl⟩
  | case5 p =>
    cases h
    exact .inl ⟨[], _, rfl, .nil, .inl rfl⟩
  | case6 p c cs ih =>
    by_cases hc : c = '\n'
    · rw [if_pos hc] at ih h
      rcases ih h with ⟨w, r, rfl, hw, hr⟩ | ⟨hg, _⟩
      · exact .inl ⟨'\n' :: w, r, by simp [hc], ⟨[], w, by simp, hw, rfl⟩, hr⟩
      · cases hg
    · rw [if_neg hc] at ih h
      have hcs : ∀ s : Text, '\n' ∉ s → '\n' ∉ c :: s := fun s hs => by
        simp [hs, Ne.symm hc]
      rcases ih h with ⟨w, r, rfl, ⟨s, v, hs, hv, rfl⟩, hr⟩ | ⟨-, hs, hk⟩
      · exact .inl ⟨c :: s ++ '\n' :: v, r, by simp, ⟨c :: s, v, hcs s hs, hv, rfl⟩, hr⟩
      · exact .inr ⟨rfl, hcs _ hs, hk⟩
  | case7 p =>
    cases h
    exact .inr ⟨rfl, by simp, rfl⟩
  | case8 start p cs ih =>
    rcases ih h with ⟨w, r, rfl, hw, hr⟩ | ⟨hg, _⟩
    · exact .inl ⟨'*' :: '/' :: w, r, rfl, ⟨[], w, by simp, hw, rfl⟩, hr⟩
    · cases hg
  | case9 start p c cs hc ih =>
    rcases ih h with ⟨w, r, rfl, ⟨s, v, hs, hv, rfl⟩, hr⟩ | ⟨hg, _⟩
    · refine .inl ⟨c :: s ++ '*' :: '/' :: v, r, by simp, ⟨c :: s, v, ?_, hv, rfl⟩, hr⟩
      rw [List.infix_cons_iff, not_or]
      refine ⟨?_, hs⟩
      rintro ⟨t, ht⟩
      simp only [List.cons_append, List.nil_append, List.cons.injEq] at ht
      obtain ⟨rfl, rfl⟩ := ht
      exact hc _ rfl rfl
    · cases hg
  | case10 => cases h

/-- Trivia stands before what the reader goes on to. -/
theorem trivia_of_skip {p : Position} {cs : Text} {k : Cursor} (h : skip .blank p cs = .ok k)
    (hk : k.rest ≠ []) : ∃ w, Trivia w ∧ cs = w ++ k.rest := by
  rcases spans_of_skip h with ⟨w, r, hcs, hw, rfl | ⟨he, -⟩⟩ | ⟨hg, -⟩
  · exact ⟨w, hw, hcs⟩
  · exact absurd he hk
  · cases hg

/-- Trivia and perhaps an open comment stand before the end. -/
theorem trivia_of_skip_end {p : Position} {cs : Text} {k : Cursor} (h : skip .blank p cs = .ok k)
    (hk : k.rest = []) : ∃ w r, Trivia w ∧ OpenComment r ∧ cs = w ++ r := by
  rcases spans_of_skip h with ⟨w, r, hcs, hw, rfl | ⟨-, hr⟩⟩ | ⟨hg, -⟩
  · exact ⟨w, _, hw, .inl hk, hcs⟩
  · exact ⟨w, r, hw, hr, hcs⟩
  · cases hg

lemma skip_openComment {r : Text} (h : OpenComment r) (p : Position) :
    skip .blank p r = .ok ⟨p.after r, []⟩ := by
  rcases h with rfl | ⟨s, hs, rfl⟩
  · rfl
  · rw [skip, skip_line_end hs]
    simp [Position.right, Position.next]

end StyleVars.Json
