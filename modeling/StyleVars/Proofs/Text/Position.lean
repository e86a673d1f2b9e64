import Mathlib.Data.List.DropRight
import StyleVars.Text.Position

/-!
Positions as places in a text. What is further on in a text has a later position, so a position
determines what stands behind it. The position behind a text can be counted.
-/

namespace StyleVars.Position

/-- The position `q` is later than `p`. -/
def Before (p q : Position) : Prop := p.line < q.line ∨ p.line = q.line ∧ p.column < q.column

lemma Before.ne {p q : Position} (h : p.Before q) : p ≠ q := by
  rintro rfl
  simp [Before] at h

lemma Before.trans {p q r : Position} (h : p.Before q) (h' : q.Before r) : p.Before r := by
  unfold Before at *
  omega

lemma before_next (p : Position) (c : Char) : p.Before (p.next c) := by
  unfold Before next
  split <;> simp

lemma before_after (p : Position) (c : Char) (s : Text) : p.Before (p.after (c :: s)) := by
  induction s generalizing p c with
  | nil => exact before_next p c
  | cons d s ih => exact (before_next p c).trans (ih (p.next c) d)

/-! ### Counting -/

/-- The position behind the text `s`, counted: its line feeds, and the characters behind the last
of them. -/
def behind (s : Text) : Position :=
  ⟨1 + s.count '\n', 1 + (s.rtakeWhile (· ≠ '\n')).length⟩

theorem start_after (s : Text) : start.after s = behind s := by
  induction s using List.reverseRecOn with
  | nil => rfl
  | append_singleton s c ih =>
    rw [after_append, ih, after_cons, after_nil, next]
    by_cases hc : c = '\n'
    · subst hc
      simp [behind, Nat.add_assoc]
    · simp [behind, hc, Nat.add_assoc]

/-! ### What stands at a position -/

/-- What stands at the position `q` and behind it in a text that begins at `p`. -/
def textFrom? (q p : Position) : Text → Option Text
  | [] => if p = q then some [] else none
  | c :: s => if p = q then some (c :: s) else textFrom? q (p.next c) s

/-- What stands at the position `q` and behind it in the text `s`, if `s` has that position. The
position right behind the last character is one of them. -/
def textIn? (q : Position) (s : Text) : Option Text := q.textFrom? .start s

lemma textFrom?_self (p : Position) (s : Text) : p.textFrom? p s = some s := by
  cases s <;> simp [textFrom?]

lemma textFrom?_after (p : Position) (a r : Text) :
    (p.after a).textFrom? p (a ++ r) = some r := by
  induction a generalizing p with
  | nil => exact textFrom?_self p r
  | cons c a ih =>
    rw [List.cons_append, textFrom?, if_neg (before_after p c a).ne]
    exact ih (p.next c)

lemma eq_append_of_textFrom? {p q : Position} {s r : Text} (h : q.textFrom? p s = some r) :
    ∃ a, s = a ++ r ∧ q = p.after a := by
  induction s generalizing p with
  | nil =>
    rw [textFrom?] at h
    split at h
    · next hp =>
      cases h
      exact ⟨[], rfl, hp.symm⟩
    · cases h
  | cons c s ih =>
    rw [textFrom?] at h
    split at h
    · next hp =>
      cases h
      exact ⟨[], rfl, hp.symm⟩
    · obtain ⟨a, rfl, rfl⟩ := ih h
      exact ⟨c :: a, rfl, rfl⟩

/-- **A text has a position where one of its parts begins**, and nowhere else. -/
theorem textIn?_eq_some_iff {q : Position} {s r : Text} :
    q.textIn? s = some r ↔ ∃ a, s = a ++ r ∧ q = start.after a := by
  constructor
  · exact eq_append_of_textFrom?
  · rintro ⟨a, rfl, rfl⟩
    exact textFrom?_after start a r

lemma textIn?_eq_nil_iff {q : Position} {s : Text} :
    q.textIn? s = some [] ↔ q = start.after s := by
  simp [textIn?_eq_some_iff]

/-- The text `x` stands at the position `q` in the text `s`. -/
def Shows (q : Position) (s x : Text) : Prop := ∃ r, q.textIn? s = some (x ++ r)

end StyleVars.Position
