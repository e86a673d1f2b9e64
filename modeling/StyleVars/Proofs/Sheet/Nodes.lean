import Mathlib.Data.List.Basic
import StyleVars.Sheet.Expression

/-!
The values that a stylesheet is written from, a list or a map before what it contains. The first
of them that cannot be written gives the error; if all can be written there is none.
-/

namespace StyleVars.Sheet

open Json (Value Entries)

/-- A value that is written inside `depth` lists and maps, and the keys and indices that lead to
it. -/
structure Node where
  depth : Nat
  path : List Text
  value : Value

mutual

/-- A value and whatever is written inside it. -/
def nodesAt (depth : Nat) (path : List Text) : Value → List Node
  | .array items => ⟨depth, path, .array items⟩ :: itemNodes (depth + 1) path 0 items
  | .object entries => ⟨depth, path, .object entries⟩ :: entryNodes (depth + 1) path entries
  | v => [⟨depth, path, v⟩]

/-- The items of a list from `index` on. -/
def itemNodes (depth : Nat) (path : List Text) (index : Nat) : List Value → List Node
  | [] => []
  | v :: vs =>
    nodesAt depth (path ++ [Numeral.ofNat index]) v ++ itemNodes depth path (index + 1) vs

/-- The entries of a map that survive. -/
def entryNodes (depth : Nat) (path : List Text) : Entries → List Node
  | [] => []
  | (key, v) :: es =>
    if survives key v then nodesAt depth (path ++ [key]) v ++ entryNodes depth path es
    else entryNodes depth path es

end

/-- The values of a document, which is no map itself. -/
def documentNodes (document : Entries) : List Node := entryNodes 0 [] document

/-- Why a value cannot be written, whatever it contains. -/
def Node.fault? (limit : Nat) : Node → Option Error
  | ⟨_, path, .number x⟩ => if x.isFinite then none else some (.nonFinite x path)
  | ⟨depth, _, .array _⟩ | ⟨depth, _, .object _⟩ =>
    if limit < depth + 1 then some (.nestingTooDeep (depth + 1) limit) else none
  | _ => none

/-! ### Failures in sequence -/

/-- The error of a result, if it is one. -/
def failure? {α : Type} : Except Error α → Option Error
  | .error e => some e
  | .ok _ => none

variable {α β : Type}

lemma failure?_eq_some_iff {r : Except Error α} {e : Error} :
    failure? r = some e ↔ r = .error e := by
  cases r <;> simp [failure?]

lemma failure?_bind {r : Except Error α} {f : α → Except Error β} {g : Option Error}
    (h : ∀ a, failure? (f a) = g) : failure? (r >>= f) = (failure? r).or g := by
  cases r with
  | error e => rfl
  | ok a => exact h a

lemma failure?_map (r : Except Error α) (f : α → β) :
    failure? (r >>= fun a => pure (f a)) = failure? r := by
  cases r <;> rfl

lemma failure?_cons {r : Except Error α} {rs : Except Error (List β)} (f : α → β) :
    failure? (do let a ← r; return f a :: (← rs)) = (failure? r).or (failure? rs) :=
  failure?_bind fun a => failure?_map rs (f a :: ·)

/-! ### Single values -/

lemma canonical_eq_none_iff (x : Double) : x.canonical = none ↔ x.isFinite = false := by
  cases x with
  | nan => simp [Double.canonical, Double.isFinite]
  | infinite b => simp [Double.canonical, Double.isFinite]
  | finite b r =>
    rw [Double.canonical]
    split <;> simp [Double.isFinite]

lemma failure?_number (o : Settings) (depth : Nat) (path : List Text) (x : Double) :
    failure? (expressionAt o depth path (.number x)) =
      Node.fault? o.limits.maxNestingDepth ⟨depth, path, .number x⟩ := by
  rw [expressionAt, Node.fault?]
  cases hx : x.canonical with
  | none => simp [failure?, (canonical_eq_none_iff x).mp hx]
  | some s =>
    have hfin : x.isFinite = true := by
      rw [← Bool.not_eq_false, ← canonical_eq_none_iff, hx]
      simp
    simp [failure?, hfin]

/-- A list or a map fails for its depth before it fails for what it contains. -/
lemma failure?_container (o : Settings) (depth : Nat) {rs : Except Error (List Text)}
    {ns : List Node} {n : Node}
    (hn : n.fault? o.limits.maxNestingDepth =
      if o.limits.maxNestingDepth < depth then some (.nestingTooDeep depth o.limits.maxNestingDepth)
      else none)
    (hrs : failure? rs = ns.findSome? (Node.fault? o.limits.maxNestingDepth)) :
    failure? (do checkDepth o depth; return parenthesized (← rs)) =
      (n :: ns).findSome? (Node.fault? o.limits.maxNestingDepth) := by
  rw [failure?_bind fun _ => failure?_map rs parenthesized, List.findSome?_cons, hn, hrs,
    checkDepth]
  by_cases hd : o.limits.maxNestingDepth < depth
  · rw [if_pos hd, if_pos hd]
    rfl
  · rw [if_neg hd, if_neg hd]
    rfl

/-! ### The first fault -/

section

variable (o : Settings)

mutual

/-- **The first value that cannot be written gives the error.** -/
theorem failure?_expressionAt (depth : Nat) (path : List Text) :
    ∀ v, failure? (expressionAt o depth path v) =
      (nodesAt depth path v).findSome? (Node.fault? o.limits.maxNestingDepth)
  | .null => rfl
  | .bool _ => rfl
  | .number x => by
    rw [failure?_number]
    exact List.findSome?_singleton.symm
  | .string _ => rfl
  | .array items => by
    rw [expressionAt, nodesAt]
    exact failure?_container o _ rfl (failure?_itemsAt _ path 0 items)
  | .object entries => by
    rw [expressionAt, nodesAt]
    exact failure?_container o _ rfl (failure?_entriesAt _ path entries)

theorem failure?_itemsAt (depth : Nat) (path : List Text) (index : Nat) :
    ∀ vs, failure? (itemsAt o depth path index vs) =
      (itemNodes depth path index vs).findSome? (Node.fault? o.limits.maxNestingDepth)
  | [] => rfl
  | v :: vs => by
    rw [itemsAt, itemNodes, List.findSome?_append, ← failure?_expressionAt, ← failure?_itemsAt]
    exact failure?_cons id

theorem failure?_entriesAt (depth : Nat) (path : List Text) :
    ∀ es, failure? (entriesAt o depth path es) =
      (entryNodes depth path es).findSome? (Node.fault? o.limits.maxNestingDepth)
  | [] => rfl
  | (key, v) :: es => by
    rw [entriesAt, entryNodes]
    by_cases hs : survives key v = true
    · rw [if_pos hs, if_pos hs, List.findSome?_append, ← failure?_expressionAt,
        ← failure?_entriesAt]
      exact failure?_cons _
    · rw [if_neg hs, if_neg hs, failure?_entriesAt]

end

end

theorem failure?_stylesheet (o : Settings) (document : Entries) :
    failure? (stylesheet o document) =
      (documentNodes document).findSome? (Node.fault? o.limits.maxNestingDepth) := by
  rw [stylesheet, failure?_map _ (joinPieces '\n')]
  induction document with
  | nil => rfl
  | cons e es ih =>
    obtain ⟨key, v⟩ := e
    rw [declarations, documentNodes, entryNodes]
    by_cases hs : survives key v = true
    · rw [if_pos hs, if_pos hs, List.findSome?_append, List.nil_append, ← failure?_expressionAt,
        ← documentNodes, ← ih]
      exact failure?_cons _
    · rw [if_neg hs, if_neg hs]
      exact ih

/-! ### Where the values come from -/

lemma mem_itemNodes {depth index : Nat} {path : List Text} {vs : List Value} {n : Node}
    (h : n ∈ itemNodes depth path index vs) : ∃ v ∈ vs, ∃ p, n ∈ nodesAt depth p v := by
  induction vs generalizing index with
  | nil => cases h
  | cons v vs ih =>
    rw [itemNodes, List.mem_append] at h
    rcases h with h | h
    · exact ⟨v, by simp, _, h⟩
    · obtain ⟨w, hw, hn⟩ := ih h
      exact ⟨w, by simp [hw], hn⟩

lemma mem_entryNodes {depth : Nat} {path : List Text} {es : Entries} {n : Node}
    (h : n ∈ entryNodes depth path es) : ∃ e ∈ es, ∃ p, n ∈ nodesAt depth p e.2 := by
  induction es with
  | nil => cases h
  | cons e es ih =>
    obtain ⟨key, v⟩ := e
    rw [entryNodes] at h
    split at h
    · rcases List.mem_append.mp h with h | h
      · exact ⟨(key, v), by simp, _, h⟩
      · obtain ⟨f, hf, hn⟩ := ih h
        exact ⟨f, by simp [hf], hn⟩
    · obtain ⟨f, hf, hn⟩ := ih h
      exact ⟨f, by simp [hf], hn⟩

end StyleVars.Sheet
