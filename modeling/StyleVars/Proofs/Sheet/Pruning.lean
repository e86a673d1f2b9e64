import Mathlib.Data.List.Basic
import StyleVars.Sheet.Expression

/-!
Documents without the entries that are left out. What is left out has no influence on the text of
a stylesheet or on the error, at whatever depth it stands.
-/

namespace StyleVars.Sheet

open Json (Value Entries)

/-! ### What is left out -/

/-- The beginnings of the keys that are left out: a character that means something else, behind
at most one colon. -/
def excludedBeginnings : List Text := [['$'], ['@'], [':', '$'], [':', '@'], [':', ':']]

/-- Whether an entry is left out, for its key or for its value. -/
def isExcluded (key : Text) (v : Value) : Bool :=
  excludedBeginnings.any (·.isPrefixOf key) || v.string? == some ['#']

mutual

/-- A value without the entries that are left out, at every depth. -/
def prune : Value → Value
  | .array items => .array (pruneItems items)
  | .object entries => .object (pruneEntries entries)
  | v => v

/-- No item of a list is left out. -/
def pruneItems : List Value → List Value
  | [] => []
  | v :: vs => prune v :: pruneItems vs

def pruneEntries : Entries → Entries
  | [] => []
  | (key, v) :: es =>
    if isExcluded key v then pruneEntries es else (key, prune v) :: pruneEntries es

end

lemma isEligible_eq (key : Text) :
    isEligible key = !excludedBeginnings.any (·.isPrefixOf key) := by
  rcases key with _ | ⟨c, key⟩
  · rfl
  · by_cases hc : c = ':'
    · subst hc
      rcases key with _ | ⟨d, key⟩
      · rfl
      · simp [isEligible, stripColon, isMarker, excludedBeginnings, List.isPrefixOf, BEq.comm,
          Bool.and_assoc]
    · have hc' : (c == ':') = false := by simpa using hc
      simp [isEligible, stripColon_cons_of_ne hc, isMarker, excludedBeginnings, List.isPrefixOf,
        BEq.comm, hc']

lemma isSentinel_eq (v : Value) : isSentinel v = (v.string? == some ['#']) := by
  cases v <;> rfl

/-- An entry survives unless it is left out. -/
lemma survives_eq (key : Text) (v : Value) : survives key v = !isExcluded key v := by
  rw [survives, isEligible_eq, isSentinel_eq, isExcluded, Bool.not_or]

/-- One colon at the beginning is overlooked, a second one is not. -/
example : survives [':', 'a'] .null = true ∧ survives [':', ':', 'a'] .null = false := by
  decide

lemma survives_prune (key : Text) (v : Value) : survives key (prune v) = survives key v := by
  have hs : isSentinel (prune v) = isSentinel v := by cases v <;> rfl
  rw [survives, survives, hs]

lemma pruneEntries_cons (key : Text) (v : Value) (es : Entries) :
    pruneEntries ((key, v) :: es) =
      if survives key v then (key, prune v) :: pruneEntries es else pruneEntries es := by
  rw [pruneEntries, survives_eq]
  cases isExcluded key v <;> rfl

/-! ### Expressions -/

mutual

/-- **A value and its pruned form** give the same text or the same error. -/
theorem expressionAt_prune (o : Settings) (depth : Nat) (path : List Text) :
    ∀ v, expressionAt o depth path (prune v) = expressionAt o depth path v
  | .null => rfl
  | .bool _ => rfl
  | .number _ => rfl
  | .string _ => rfl
  | .array items => by
    rw [prune, expressionAt, expressionAt, itemsAt_prune]
  | .object entries => by
    rw [prune, expressionAt, expressionAt, entriesAt_prune]

theorem itemsAt_prune (o : Settings) (depth : Nat) (path : List Text) (index : Nat) :
    ∀ vs, itemsAt o depth path index (pruneItems vs) = itemsAt o depth path index vs
  | [] => rfl
  | v :: vs => by
    rw [pruneItems, itemsAt, itemsAt, expressionAt_prune, itemsAt_prune]

theorem entriesAt_prune (o : Settings) (depth : Nat) (path : List Text) :
    ∀ es, entriesAt o depth path (pruneEntries es) = entriesAt o depth path es
  | [] => rfl
  | (key, v) :: es => by
    rw [pruneEntries_cons, entriesAt]
    by_cases hs : survives key v = true
    · rw [if_pos hs, if_pos hs, entriesAt, survives_prune, if_pos hs, expressionAt_prune,
        entriesAt_prune]
    · rw [if_neg hs, if_neg hs, entriesAt_prune]

end

lemma declarations_prune (o : Settings) (es : Entries) :
    declarations o (pruneEntries es) = declarations o es := by
  induction es with
  | nil => rfl
  | cons e es ih =>
    obtain ⟨key, v⟩ := e
    rw [pruneEntries_cons, declarations]
    by_cases hs : survives key v = true
    · rw [if_pos hs, if_pos hs, declarations, survives_prune, if_pos hs, expressionAt_prune, ih]
    · rw [if_neg hs, if_neg hs, ih]

/-- **Entries that are left out have no influence** on the text or on the error, neither in a value
nor in a document. -/
theorem written_prune (o : Settings) :
    (∀ v, expression o (prune v) = expression o v) ∧
      ∀ es, stylesheet o (pruneEntries es) = stylesheet o es := by
  refine ⟨fun v => expressionAt_prune o 0 [] v, fun es => ?_⟩
  rw [stylesheet, stylesheet, declarations_prune]

end StyleVars.Sheet
