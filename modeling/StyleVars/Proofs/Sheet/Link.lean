import Mathlib.Data.List.Basic
import StyleVars.Sheet.Expression

/-!
Strings with their links resolved. Nothing but links changes, so a text in which no link can begin
stays as it is, and the string that marks an entry to be left out arises from no other.
-/

namespace StyleVars.Sheet

/-- A string as it is written, apart from quotes. -/
def linked (o : Settings) (s : Text) : Text := if o.resolveLinks then resolveLinks s else s

lemma stringExpression_eq (o : Settings) (s : Text) :
    stringExpression o s = quoteIfNeeded (linked o s) := rfl

lemma linkAt?_cons_of_ne {c : Char} (hc : c ≠ 'v') (cs : Text) : linkAt? (c :: cs) = none := by
  unfold linkAt?
  split
  · next heq => exact absurd (List.cons.inj heq).1 hc
  · rfl

lemma resolveFrom_cons_of_ne {c : Char} (hc : c ≠ 'v') (cs : Text) :
    resolveFrom 0 (c :: cs) = c :: resolveFrom 0 cs := by
  rw [resolveFrom, linkAt?_cons_of_ne hc]

lemma resolveLinks_of_notMem {s : Text} (h : 'v' ∉ s) : resolveLinks s = s := by
  induction s with
  | nil => rfl
  | cons c s ih =>
    have hc : c ≠ 'v' := (List.ne_of_not_mem_cons h).symm
    have hs : 'v' ∉ s := List.not_mem_of_not_mem_cons h
    rw [resolveLinks, resolveFrom_cons_of_ne hc, ← resolveLinks, ih hs]

lemma linked_of_notMem {s : Text} (h : 'v' ∉ s) (o : Settings) : linked o s = s := by
  rw [linked, resolveLinks_of_notMem h, ite_self]

/-- A text and what is written for it begin with the same character. -/
lemma head?_resolveFrom (s : Text) : (resolveFrom 0 s).head? = s.head? := by
  rcases s with _ | ⟨c, s⟩
  · rfl
  · by_cases hc : c = 'v'
    · subst hc
      rw [resolveFrom]
      split <;> rfl
    · rw [resolveFrom_cons_of_ne hc]
      rfl

lemma resolveLinks_eq_singleton_iff {s : Text} {c : Char} (hc : c ≠ 'v') :
    resolveLinks s = [c] ↔ s = [c] := by
  rcases s with _ | ⟨d, s⟩
  · simp [resolveLinks, resolveFrom]
  · have hhead := head?_resolveFrom (d :: s)
    have hrest := head?_resolveFrom s
    constructor
    · intro h
      rw [resolveLinks] at h
      rw [h] at hhead
      obtain rfl : c = d := by simpa using hhead
      rw [resolveFrom_cons_of_ne hc] at h
      rw [(List.cons.inj h).2] at hrest
      rw [List.head?_eq_none_iff.mp hrest.symm]
    · intro h
      cases h
      rw [resolveLinks, resolveFrom_cons_of_ne hc]
      rfl

end StyleVars.Sheet
