/-!
Texts as lists of characters, and positions in them. Lines and columns count from one, a column
counts characters, and a line feed starts the next line.
-/

namespace StyleVars

/-- A text, character by character. -/
abbrev Text := List Char

/-- A place in a text. -/
structure Position where
  line : Nat
  column : Nat
deriving DecidableEq, Repr

namespace Position

/-- The place of the first character. -/
def start : Position := ⟨1, 1⟩

/-- The place right after the character `c` that stands at `p`. -/
def next (p : Position) (c : Char) : Position :=
  if c = '\n' then ⟨p.line + 1, 1⟩ else ⟨p.line, p.column + 1⟩

/-- The place right after a text that begins at `p`. -/
def after (p : Position) (s : Text) : Position := s.foldl next p

/-- The place `n` columns further on in the same line. -/
def right (p : Position) (n : Nat) : Position := ⟨p.line, p.column + n⟩

@[simp] theorem after_nil (p : Position) : p.after [] = p := rfl

@[simp] theorem after_cons (p : Position) (c : Char) (s : Text) :
    p.after (c :: s) = (p.next c).after s := rfl

@[simp] theorem after_append (p : Position) (s t : Text) :
    p.after (s ++ t) = (p.after s).after t := by
  simp [after]

theorem after_eq_right {p : Position} {s : Text} (h : '\n' ∉ s) : p.after s = p.right s.length := by
  induction s generalizing p with
  | nil => rfl
  | cons c s ih =>
    simp only [List.mem_cons, not_or] at h
    have hc : c ≠ '\n' := fun e => h.1 e.symm
    simp only [after_cons, ih h.2, next, if_neg hc, right, List.length_cons, Position.mk.injEq,
      true_and]
    omega

def message (p : Position) : String := s!"line {p.line}, column {p.column}"

end Position

end StyleVars
