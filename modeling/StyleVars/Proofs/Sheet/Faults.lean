import Mathlib.Data.List.Lex
import StyleVars.Proofs.Json.Value
import StyleVars.Proofs.Sheet.Nodes

/-!
Where a value cannot be written. Whatever is written has a place, which is given by how far it
stands in each list and each object around it; in pre-order the places increase. Writing fails
exactly if some place has a fault, and with the error of the first one.
-/

namespace StyleVars.Sheet

open Json (Value Entries)

/-! ### Places -/

/-- The numbers lead from a value to one that is written inside of it, through items of lists and
entries of objects that survive, counted from zero. The names are the indices and keys on the
way. -/
inductive Reaches : Value → List Nat → List Text → Value → Prop where
  | here {v : Value} : Reaches v [] [] v
  | item {items : List Value} {i : Nat} {u w : Value} {is : List Nat} {names : List Text} :
      items[i]? = some u → Reaches u is names w →
      Reaches (.array items) (i :: is) (Numeral.ofNat i :: names) w
  | entry {entries : Entries} {i : Nat} {key : Text} {u w : Value} {is : List Nat}
      {names : List Text} :
      entries[i]? = some (key, u) → survives key u = true → Reaches u is names w →
      Reaches (.object entries) (i :: is) (key :: names) w

/-- A place has one value, and one row of names leads there. -/
lemma Reaches.unique {v w w' : Value} {is : List Nat} {names names' : List Text}
    (h : Reaches v is names w) (h' : Reaches v is names' w') : names = names' ∧ w = w' := by
  induction h generalizing names' with
  | here =>
    cases h'
    exact ⟨rfl, rfl⟩
  | item hu _ ih =>
    cases h' with
    | item hu' h' =>
      obtain rfl := Option.some.inj (hu.symm.trans hu')
      obtain ⟨rfl, rfl⟩ := ih h'
      exact ⟨rfl, rfl⟩
  | entry hu _ _ ih =>
    cases h' with
    | entry hu' _ h' =>
      cases hu.symm.trans hu'
      obtain ⟨rfl, rfl⟩ := ih h'
      exact ⟨rfl, rfl⟩

/-! ### The parts of a value -/

/-- What is written directly inside of a list or an object: how far it stands, its index or its
key, and the value. -/
structure Part where
  index : Nat
  name : Text
  value : Value

/-- The items of a list, counted from `n` on. -/
def itemParts (n : Nat) (items : List Value) : List Part :=
  (items.zipIdx n).map fun x => ⟨x.2, Numeral.ofNat x.2, x.1⟩

/-- The entries of an object that survive, where all its entries are counted from `n` on. -/
def entryParts (n : Nat) (entries : Entries) : List Part :=
  ((entries.zipIdx n).filter fun x => survives x.1.1 x.1.2).map fun x => ⟨x.2, x.1.1, x.1.2⟩

def parts : Value → List Part
  | .array items => itemParts 0 items
  | .object entries => entryParts 0 entries
  | _ => []

/-- Numbers that are counted on increase. -/
lemma pairwise_zipIdx {α : Type} (l : List α) (n : Nat) :
    (l.zipIdx n).Pairwise fun x y => x.2 < y.2 := by
  rw [← List.pairwise_map (f := Prod.snd) (R := (· < ·)), List.zipIdx_map_snd]
  exact List.pairwise_lt_range' 1

/-- The parts of a value stand one behind the other. -/
lemma pairwise_parts (v : Value) : (parts v).Pairwise fun c d => c.index < d.index := by
  cases v with
  | array items => exact (pairwise_zipIdx items 0).map _ fun _ _ h => h
  | object entries => exact ((pairwise_zipIdx entries 0).filter _).map _ fun _ _ h => h
  | _ => exact .nil

lemma mem_itemParts {items : List Value} {i : Nat} {name : Text} {u : Value} :
    ⟨i, name, u⟩ ∈ itemParts 0 items ↔ name = Numeral.ofNat i ∧ items[i]? = some u := by
  simp only [itemParts, List.mem_map, Prod.exists, List.mk_mem_zipIdx_iff_getElem?, Part.mk.injEq]
  constructor
  · rintro ⟨u, i, hu, rfl, rfl, rfl⟩
    exact ⟨rfl, hu⟩
  · rintro ⟨rfl, hu⟩
    exact ⟨u, i, hu, rfl, rfl, rfl⟩

lemma mem_entryParts {entries : Entries} {i : Nat} {key : Text} {u : Value} :
    ⟨i, key, u⟩ ∈ entryParts 0 entries ↔
      entries[i]? = some (key, u) ∧ survives key u = true := by
  simp only [entryParts, List.mem_map, List.mem_filter, Prod.exists,
    List.mk_mem_zipIdx_iff_getElem?, Part.mk.injEq]
  constructor
  · rintro ⟨key, u, i, ⟨hu, hs⟩, rfl, rfl, rfl⟩
    exact ⟨hu, hs⟩
  · rintro ⟨hu, hs⟩
    exact ⟨key, u, i, ⟨hu, hs⟩, rfl, rfl, rfl⟩

/-- A way into a value begins with one of its parts. -/
lemma reaches_cons_iff {v w : Value} {i : Nat} {is : List Nat} {names : List Text} :
    Reaches v (i :: is) names w ↔
      ∃ c ∈ parts v, c.index = i ∧ ∃ ns, names = c.name :: ns ∧ Reaches c.value is ns w := by
  constructor
  · intro h
    cases h with
    | item hu h => exact ⟨_, mem_itemParts.mpr ⟨rfl, hu⟩, rfl, _, rfl, h⟩
    | entry hu hs h => exact ⟨_, mem_entryParts.mpr ⟨hu, hs⟩, rfl, _, rfl, h⟩
  · rintro ⟨⟨i, name, u⟩, hc, rfl, ns, rfl, h⟩
    cases v with
    | array items =>
      obtain ⟨rfl, hu⟩ := mem_itemParts.mp hc
      exact .item hu h
    | object entries =>
      obtain ⟨hu, hs⟩ := mem_entryParts.mp hc
      exact .entry hu hs h
    | _ => cases hc

/-- Induction over the parts of a value. -/
@[elab_as_elim]
lemma partsInduction {P : Value → Prop} (v : Value)
    (h : ∀ v, (∀ c ∈ parts v, P c.value) → P v) : P v := by
  induction v using Value.inductionOn with
  | null => exact h _ (by simp [parts])
  | bool => exact h _ (by simp [parts])
  | number => exact h _ (by simp [parts])
  | string => exact h _ (by simp [parts])
  | array items ih =>
    exact h _ fun c hc => ih _ (List.mem_of_getElem? (mem_itemParts.mp hc).2)
  | object entries ih =>
    exact h _ fun c hc => ih _ (List.mem_of_getElem? (mem_entryParts.mp hc).1)

/-! ### Nodes -/

lemma itemNodes_eq (depth : Nat) (path : List Text) (n : Nat) (vs : List Value) :
    itemNodes depth path n vs =
      (itemParts n vs).flatMap fun c => nodesAt depth (path ++ [c.name]) c.value := by
  induction vs generalizing n with
  | nil => rfl
  | cons v vs ih =>
    rw [itemNodes, ih]
    rfl

lemma entryNodes_eq (depth : Nat) (path : List Text) (n : Nat) (es : Entries) :
    entryNodes depth path es =
      (entryParts n es).flatMap fun c => nodesAt depth (path ++ [c.name]) c.value := by
  induction es generalizing n with
  | nil => rfl
  | cons e es ih =>
    obtain ⟨key, v⟩ := e
    rw [entryNodes, entryParts, List.zipIdx_cons, List.filter_cons]
    by_cases hs : survives key v = true
    · rw [if_pos hs, if_pos hs, ih (n + 1)]
      rfl
    · rw [if_neg hs, if_neg hs, ih (n + 1)]
      rfl

lemma nodesAt_eq (depth : Nat) (path : List Text) (v : Value) :
    nodesAt depth path v =
      ⟨depth, path, v⟩ ::
        (parts v).flatMap fun c => nodesAt (depth + 1) (path ++ [c.name]) c.value := by
  cases v with
  | array items => rw [nodesAt, itemNodes_eq, parts]
  | object entries => rw [nodesAt, entryNodes_eq (n := 0), parts]
  | _ => rfl

/-! ### Faults -/

/-- What is wrong with a value itself, which is at the nesting level `level` if it is a list or an
object, and to which the `names` lead. -/
inductive Fault (limit level : Nat) (names : List Text) : Value → Error → Prop where
  | array {items : List Value} :
      limit < level → Fault limit level names (.array items) (.nestingTooDeep level limit)
  | object {entries : Entries} :
      limit < level → Fault limit level names (.object entries) (.nestingTooDeep level limit)
  | number {x : Double} :
      x.isFinite = false → Fault limit level names (.number x) (.nonFinite x names)

/-- The value at the place `is` inside of `v` has a fault, where `v` itself is at the nesting level
`level` and the names `path` lead to it. -/
def FaultAt (limit level : Nat) (path : List Text) (v : Value) (is : List Nat) (e : Error) : Prop :=
  ∃ names w, Reaches v is names w ∧ Fault limit (level + is.length) (path ++ names) w e

variable {limit level depth : Nat} {path names : List Text} {v : Value} {is : List Nat}
  {e e' : Error}

lemma Fault.unique (h : Fault limit level names v e) (h' : Fault limit level names v e') :
    e = e' := by
  cases h <;> cases h' <;> rfl

lemma FaultAt.unique (h : FaultAt limit level path v is e) (h' : FaultAt limit level path v is e') :
    e = e' := by
  obtain ⟨names, w, hw, h⟩ := h
  obtain ⟨names', w', hw', h'⟩ := h'
  obtain ⟨rfl, rfl⟩ := hw.unique hw'
  exact h.unique h'

lemma fault?_eq_some_iff :
    Node.fault? limit ⟨depth, path, v⟩ = some e ↔ Fault limit (depth + 1) path v e := by
  constructor
  · intro h
    cases v with
    | number x =>
      obtain ⟨hx, rfl⟩ : x.isFinite = false ∧ .nonFinite x path = e := by
        simpa [Node.fault?] using h
      exact .number hx
    | array items =>
      obtain ⟨hlt, rfl⟩ : limit < depth + 1 ∧ .nestingTooDeep (depth + 1) limit = e := by
        simpa only [Node.fault?, Option.ite_none_right_eq_some, Option.some.injEq] using h
      exact .array hlt
    | object entries =>
      obtain ⟨hlt, rfl⟩ : limit < depth + 1 ∧ .nestingTooDeep (depth + 1) limit = e := by
        simpa only [Node.fault?, Option.ite_none_right_eq_some, Option.some.injEq] using h
      exact .object hlt
    | _ => cases h
  · intro h
    cases h with
    | array hlt => exact if_pos hlt
    | object hlt => exact if_pos hlt
    | number hx => simp [Node.fault?, hx]

lemma faultAt_nil : FaultAt limit level path v [] e ↔ Fault limit level path v e := by
  constructor
  · rintro ⟨names, w, hw, h⟩
    cases hw
    simpa using h
  · intro h
    exact ⟨[], v, .here, by simpa using h⟩

lemma faultAt_cons {i : Nat} :
    FaultAt limit level path v (i :: is) e ↔
      ∃ c ∈ parts v, c.index = i ∧
        FaultAt limit (level + 1) (path ++ [c.name]) c.value is e := by
  have hlevel : level + (i :: is).length = level + 1 + is.length := by
    simp only [List.length_cons]
    omega
  simp only [FaultAt, reaches_cons_iff, hlevel]
  constructor
  · rintro ⟨_, w, ⟨c, hc, hi, ns, rfl, hw⟩, h⟩
    exact ⟨c, hc, hi, ns, w, hw, by simpa using h⟩
  · rintro ⟨c, hc, hi, ns, w, hw, h⟩
    exact ⟨_, w, ⟨c, hc, hi, ns, rfl, hw⟩, by simpa using h⟩

/-! ### The first place -/

/-- The error `e` is that of the first place with one, in pre-order: a value comes before what is
inside of it, and what is inside of one part before all the later parts. -/
def First (S : List Nat → Error → Prop) (e : Error) : Prop :=
  ∃ is, S is e ∧ ∀ js e', S js e' → js = is ∨ List.Lex (· < ·) is js

/-- An error is the first one, or there is none. -/
def Decides (S : List Nat → Error → Prop) : Option Error → Prop
  | some e => First S e
  | none => ∀ is e, ¬ S is e

variable {S : List Nat → Error → Prop}

/-- At each place there is one error at most. -/
def Functional (S : List Nat → Error → Prop) : Prop := ∀ is e e', S is e → S is e' → e = e'

lemma functional_faultAt : Functional (FaultAt limit level path v) := fun _ _ _ => FaultAt.unique

lemma First.unique (hS : Functional S) (h : First S e) (h' : First S e') : e = e' := by
  obtain ⟨is, hs, hfirst⟩ := h
  obtain ⟨is', hs', hfirst'⟩ := h'
  rcases hfirst is' e' hs' with rfl | hlt
  · exact hS _ _ _ hs hs'
  · rcases hfirst' is e hs with rfl | hlt'
    · exact hS _ _ _ hs hs'
    · exact absurd hlt' (Std.Asymm.asymm _ _ hlt)

namespace Decides

variable {o o' : Option Error}

lemma congr {S' : List Nat → Error → Prop} (h : Decides S o) (hS : ∀ is e, S' is e ↔ S is e) :
    Decides S' o := by
  obtain rfl : S = S' := funext₂ fun is e => propext (hS is e).symm
  exact h

lemma exists_iff (h : Decides S o) : (∃ e, o = some e) ↔ ∃ is e, S is e := by
  cases o with
  | none =>
    constructor
    · rintro ⟨e, he⟩
      cases he
    · rintro ⟨is, e, hs⟩
      exact absurd hs (h is e)
  | some e =>
    obtain ⟨is, hs, -⟩ := h
    exact ⟨fun _ => ⟨is, e, hs⟩, fun _ => ⟨e, rfl⟩⟩

lemma eq_some_iff (h : Decides S o) (hS : Functional S) : o = some e ↔ First S e := by
  constructor
  · rintro rfl
    exact h
  · intro he
    obtain ⟨is, hs, -⟩ := id he
    obtain ⟨e', rfl⟩ := h.exists_iff.mpr ⟨is, e, hs⟩
    exact congrArg some (First.unique hS h he)

/-- A value itself comes before what is inside of it. -/
lemma or (ho : ∀ e, S [] e ↔ o = some e)
    (h : Decides (fun js e => js ≠ [] ∧ S js e) o') : Decides S (o.or o') := by
  cases o with
  | some e =>
    refine ⟨[], (ho e).mpr rfl, fun js e' _ => ?_⟩
    cases js with
    | nil => exact .inl rfl
    | cons j js => exact .inr .nil
  | none =>
    have hnil : ∀ {js e}, S js e → js ≠ [] := by
      rintro js e hs rfl
      cases (ho e).mp hs
    exact h.congr fun js e => ⟨fun hs => ⟨hnil hs, hs⟩, And.right⟩

/-- The parts come one behind the other, if each is decided for itself. -/
lemma findSome? {cs : List Part} {T : Part → List Nat → Error → Prop} {r : Part → Option Error}
    (hcs : cs.Pairwise fun c d => c.index < d.index) (h : ∀ c ∈ cs, Decides (T c) (r c)) :
    Decides (fun js e => ∃ c ∈ cs, ∃ is, js = c.index :: is ∧ T c is e) (cs.findSome? r) := by
  induction cs with
  | nil =>
    rintro is e ⟨c, hc, -⟩
    cases hc
  | cons c cs ih =>
    obtain ⟨hfirst, hcs⟩ := List.pairwise_cons.mp hcs
    obtain ⟨hc, hrest⟩ := List.forall_mem_cons.mp h
    rw [List.findSome?_cons]
    cases hr : r c with
    | some e =>
      rw [hr] at hc
      obtain ⟨is, hs, hleast⟩ := hc
      refine ⟨c.index :: is, ⟨c, by simp, is, rfl, hs⟩, ?_⟩
      rintro _ e' ⟨d, hd, js, rfl, hs'⟩
      -- Another error is in the same part, or in one that stands further on.
      rcases List.mem_cons.mp hd with rfl | hd
      · rcases hleast js e' hs' with rfl | hlt
        · exact .inl rfl
        · exact .inr (.cons hlt)
      · exact .inr (.rel (hfirst d hd))
    | none =>
      rw [hr] at hc
      refine (ih hcs hrest).congr fun js e => ?_
      constructor
      · rintro ⟨d, hd, is, rfl, hs⟩
        rcases List.mem_cons.mp hd with rfl | hd
        · exact absurd hs (hc is e)
        · exact ⟨d, hd, is, rfl, hs⟩
      · rintro ⟨d, hd, hs⟩
        exact ⟨d, by simp [hd], hs⟩

end Decides

/-! ### The first fault -/

lemma findSome?_flatMap {α β γ : Type} (l : List α) (f : α → List β) (g : β → Option γ) :
    (l.flatMap f).findSome? g = l.findSome? fun a => (f a).findSome? g := by
  induction l with
  | nil => rfl
  | cons a l ih =>
    rw [List.flatMap_cons, List.findSome?_append, ih, List.findSome?_cons]
    cases (f a).findSome? g <;> rfl

/-- The nodes of what is written inside of a value, in order. -/
def nodesInside (depth : Nat) (path : List Text) (v : Value) : List Node :=
  (parts v).flatMap fun c => nodesAt depth (path ++ [c.name]) c.value

lemma decides_inside
    (h : ∀ c ∈ parts v, ∀ depth path, Decides (FaultAt limit (depth + 1) path c.value)
      ((nodesAt depth path c.value).findSome? (Node.fault? limit))) :
    Decides (fun js e => js ≠ [] ∧ FaultAt limit level path v js e)
      ((nodesInside level path v).findSome? (Node.fault? limit)) := by
  rw [nodesInside, findSome?_flatMap]
  refine (Decides.findSome? (pairwise_parts v) fun c hc => h c hc _ _).congr fun js e => ?_
  cases js with
  | nil => simp
  | cons j js =>
    rw [faultAt_cons]
    constructor
    · rintro ⟨-, c, hc, rfl, hs⟩
      exact ⟨c, hc, js, rfl, hs⟩
    · rintro ⟨c, hc, is, heq, hs⟩
      cases heq
      exact ⟨by simp, c, hc, rfl, hs⟩

/-- **The first node with a fault** is at the first place with one. -/
theorem decides_nodesAt (limit depth : Nat) (path : List Text) (v : Value) :
    Decides (FaultAt limit (depth + 1) path v)
      ((nodesAt depth path v).findSome? (Node.fault? limit)) := by
  induction v using partsInduction generalizing depth path with
  | h v ih =>
    rw [nodesAt_eq, ← List.singleton_append, List.findSome?_append, List.findSome?_singleton]
    refine .or (fun e => ?_) (decides_inside ih)
    rw [faultAt_nil, fault?_eq_some_iff]

lemma decides_expressionAt (o : Settings) (depth : Nat) (path : List Text) (v : Value) :
    Decides (FaultAt o.limits.maxNestingDepth (depth + 1) path v)
      (failure? (expressionAt o depth path v)) :=
  failure?_expressionAt o depth path v ▸ decides_nodesAt _ depth path v

lemma decides_documentNodes (limit : Nat) (document : Entries) :
    Decides (FaultAt limit 0 [] (.object document))
      ((documentNodes document).findSome? (Node.fault? limit)) := by
  -- At level zero the map of the document itself is never nested too deep.
  have hnone : ∀ e, FaultAt limit 0 [] (.object document) [] e ↔ none = some e := by
    intro e
    rw [faultAt_nil]
    constructor
    · intro h
      cases h with
      | object hlt => exact absurd hlt (Nat.not_lt_zero limit)
    · intro h
      cases h
  have h := Decides.or hnone (decides_inside fun c _ depth path => decides_nodesAt _ depth path _)
  rwa [Option.none_or, nodesInside, parts, ← entryNodes_eq, ← documentNodes] at h

/-- **Writing fails exactly if some value that survives has a fault, and then with the error of the
first of them.** A value on its own is at nesting level one, and the map of a document counts for
nothing. To a number lead the keys as they stand in the document and the indices; the message has
dots between them. -/
theorem error_iff_first_fault (o : Settings) :
    (∀ v,
      ((∃ e, expression o v = .error e) ↔ ∃ is e, FaultAt o.limits.maxNestingDepth 1 [] v is e) ∧
        ∀ e, expression o v = .error e ↔ First (FaultAt o.limits.maxNestingDepth 1 [] v) e) ∧
      (∀ document,
        ((∃ e, stylesheet o document = .error e) ↔
          ∃ is e, FaultAt o.limits.maxNestingDepth 0 [] (.object document) is e) ∧
        ∀ e, stylesheet o document = .error e ↔
          First (FaultAt o.limits.maxNestingDepth 0 [] (.object document)) e) ∧
      ∀ x names, (Error.nonFinite x names).message =
        "number " ++ String.ofList x.plain ++ " at '" ++ String.ofList (['.'].intercalate names)
          ++ "' has no SCSS representation" := by
  refine ⟨fun v => ?_, fun document => ?_, fun x names => ?_⟩
  · have h := decides_expressionAt o 0 [] v
    simp only [← failure?_eq_some_iff]
    exact ⟨h.exists_iff, fun e => h.eq_some_iff functional_faultAt⟩
  · have h := decides_documentNodes o.limits.maxNestingDepth document
    rw [← failure?_stylesheet] at h
    simp only [← failure?_eq_some_iff]
    exact ⟨h.exists_iff, fun e => h.eq_some_iff functional_faultAt⟩
  · rw [← joinPieces_eq_intercalate]
    rfl

/-- The keys are those of the document, and what does not survive is passed over. -/
example :
    expression { convertCase := true } (.object [("aB".toList, .object [("c".toList, .array [])]),
        ("$c".toList, .number .nan), ("dE".toList, .object [("fG".toList, .number .nan)])]) =
      .error (.nonFinite .nan ["dE".toList, "fG".toList]) :=
  rfl

end StyleVars.Sheet
