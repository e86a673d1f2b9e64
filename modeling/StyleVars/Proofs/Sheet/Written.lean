import StyleVars.Proofs.Json.Value
import StyleVars.Proofs.Number.Notation
import StyleVars.Proofs.Result
import StyleVars.Sheet.Expression

/-!
What is written when nothing fails, as a function on values. The items of a list are written one
by one, and so are the entries of an object that survive; the errors of the other modules have no
part in it.
-/

namespace StyleVars.Sheet

open Json (Value Entries)

/-- The entries that survive. -/
def survivors (es : Entries) : Entries := es.filter fun e => survives e.1 e.2

/-- The text of a value that is no list and no object; a number that has no text counts as empty. -/
def scalarText : Value → Text
  | .bool b => if b then "true".toList else "false".toList
  | .number x => x.canonical.getD []
  | .string s => s
  | _ => []

/-- The characters of numbers and truth values. -/
def isScalarChar (c : Char) : Bool :=
  isNumeric c || "true".toList.contains c || "false".toList.contains c

/-- With any other character only strings are written. -/
lemma isScalarChar_of_mem {v : Value} (hv : v.string? = none) :
    ∀ c ∈ scalarText v, isScalarChar c = true := by
  intro c hc
  cases v with
  | bool b => cases b <;> simp_all [scalarText, isScalarChar]
  | number x =>
    rw [scalarText] at hc
    cases hx : x.canonical with
    | none =>
      rw [hx] at hc
      cases hc
    | some s =>
      rw [hx] at hc
      rw [isScalarChar, Double.numeric_canonical hx c hc]
      rfl
  | string s => cases hv
  | _ => cases hc

lemma notMem_scalarText {c : Char} (hc : isScalarChar c = false) {v : Value}
    (hv : v.string? = none) : c ∉ scalarText v := fun h => by
  rw [isScalarChar_of_mem hv c h] at hc
  cases hc

lemma disjoint_scalarText {cs : List Char} (hcs : cs.all (!isScalarChar ·) = true) {v : Value}
    (hv : v.string? = none) : (scalarText v).Disjoint cs := fun c hc hmem => by
  have hno : isScalarChar c = false := by simpa using List.all_eq_true.mp hcs c hmem
  exact notMem_scalarText hno hv hc

/-- An entry of a map under a name, with the text of its value. -/
def entryText (o : Settings) (name e : Text) : Text := mapKey o name ++ ": ".toList ++ e

mutual

/-- The text of a value. -/
def written (o : Settings) : Value → Text
  | .array items => parenthesized (writtenItems o items)
  | .object entries => parenthesized (writtenEntries o entries)
  | v => stringExpression o (scalarText v)

def writtenItems (o : Settings) : List Value → List Text
  | [] => []
  | v :: vs => written o v :: writtenItems o vs

def writtenEntries (o : Settings) : Entries → List Text
  | [] => []
  | (key, v) :: es =>
    if survives key v then entryText o (nameOf o key) (written o v) :: writtenEntries o es
    else writtenEntries o es

end

/-- The declarations of a document. -/
def writtenDeclarations (o : Settings) (document : Entries) : List Text :=
  (survivors document).map fun e => declaration (nameOf o e.1) (written o e.2)

section

variable (o : Settings)

lemma survivors_cons (key : Text) (v : Value) (es : Entries) :
    survivors ((key, v) :: es) =
      if survives key v then (key, v) :: survivors es else survivors es :=
  List.filter_cons

lemma mem_survivors {es : Entries} {e : Text × Value} :
    e ∈ survivors es ↔ e ∈ es ∧ survives e.1 e.2 = true :=
  List.mem_filter

lemma writtenItems_eq (vs : List Value) : writtenItems o vs = vs.map (written o) := by
  induction vs with
  | nil => rfl
  | cons v vs ih => rw [writtenItems, ih, List.map_cons]

lemma writtenEntries_eq (es : Entries) :
    writtenEntries o es =
      (survivors es).map fun e => entryText o (nameOf o e.1) (written o e.2) := by
  induction es with
  | nil => rfl
  | cons e es ih =>
    obtain ⟨key, v⟩ := e
    rw [writtenEntries, survivors_cons, ih]
    split <;> rfl

lemma written_array (items : List Value) :
    written o (.array items) = parenthesized (items.map (written o)) := by
  rw [written, writtenItems_eq]

lemma written_object (entries : Entries) :
    written o (.object entries) =
      parenthesized
        ((survivors entries).map fun e => entryText o (nameOf o e.1) (written o e.2)) := by
  rw [written, writtenEntries_eq]

end

/-! ### Results that are no errors -/

section

variable {o : Settings} {depth : Nat} {path : List Text}

lemma parenthesized_of_eq_ok {r : Except Error (List Text)} {t : Text}
    (h : (do checkDepth o depth; return parenthesized (← r)) = .ok t) :
    ∃ parts, r = .ok parts ∧ parenthesized parts = t := by
  obtain ⟨_, -, h⟩ := bind_eq_ok_iff.mp h
  obtain ⟨parts, hparts, h⟩ := bind_eq_ok_iff.mp h
  cases h
  exact ⟨parts, hparts, rfl⟩

lemma cons_of_eq_ok {r : Except Error Text} {rs : Except Error (List Text)} {f : Text → Text}
    {ts : List Text} (h : (do let e ← r; return f e :: (← rs)) = .ok ts) :
    ∃ e es, r = .ok e ∧ rs = .ok es ∧ f e :: es = ts := by
  obtain ⟨e, he, h⟩ := bind_eq_ok_iff.mp h
  obtain ⟨es, hes, h⟩ := bind_eq_ok_iff.mp h
  cases h
  exact ⟨e, es, he, hes, rfl⟩

mutual

/-- **A value that can be written** has the text that is written without regard to errors. -/
theorem eq_written_of_eq_ok {depth : Nat} {path : List Text} :
    ∀ {v t}, expressionAt o depth path v = .ok t → t = written o v
  | .null, t, h => by
    cases h
    rfl
  | .bool b, t, h => by
    cases h
    rfl
  | .number x, t, h => by
    rw [expressionAt] at h
    split at h
    · next s hs =>
      cases h
      simp [written, scalarText, hs]
    · cases h
  | .string s, t, h => by
    cases h
    rfl
  | .array items, t, h => by
    rw [expressionAt] at h
    obtain ⟨parts, hparts, rfl⟩ := parenthesized_of_eq_ok h
    rw [written, eq_writtenItems_of_eq_ok hparts]
  | .object entries, t, h => by
    rw [expressionAt] at h
    obtain ⟨parts, hparts, rfl⟩ := parenthesized_of_eq_ok h
    rw [written, eq_writtenEntries_of_eq_ok hparts]

theorem eq_writtenItems_of_eq_ok {depth : Nat} {path : List Text} {index : Nat} :
    ∀ {vs ts}, itemsAt o depth path index vs = .ok ts → ts = writtenItems o vs
  | [], ts, h => by
    cases h
    rfl
  | v :: vs, ts, h => by
    rw [itemsAt] at h
    obtain ⟨e, es, he, hes, rfl⟩ := cons_of_eq_ok (f := id) h
    rw [writtenItems, ← eq_written_of_eq_ok he, ← eq_writtenItems_of_eq_ok hes]
    rfl

theorem eq_writtenEntries_of_eq_ok {depth : Nat} {path : List Text} :
    ∀ {es ts}, entriesAt o depth path es = .ok ts → ts = writtenEntries o es
  | [], ts, h => by
    cases h
    rfl
  | (key, v) :: es, ts, h => by
    rw [entriesAt] at h
    rw [writtenEntries]
    by_cases hs : survives key v = true
    · rw [if_pos hs] at h ⊢
      obtain ⟨e, rest, he, hrest, rfl⟩ := cons_of_eq_ok h
      rw [entryText, ← eq_written_of_eq_ok he, ← eq_writtenEntries_of_eq_ok hrest]
    · rw [if_neg hs] at h ⊢
      exact eq_writtenEntries_of_eq_ok h

end

lemma eq_writtenDeclarations_of_eq_ok {es : Entries} {ts : List Text}
    (h : declarations o es = .ok ts) : ts = writtenDeclarations o es := by
  induction es generalizing ts with
  | nil =>
    cases h
    rfl
  | cons e es ih =>
    obtain ⟨key, v⟩ := e
    rw [declarations] at h
    rw [writtenDeclarations, survivors_cons]
    by_cases hs : survives key v = true
    · rw [if_pos hs] at h ⊢
      obtain ⟨e, rest, he, hrest, rfl⟩ := cons_of_eq_ok h
      rw [List.map_cons, ← eq_written_of_eq_ok he, ih hrest]
      rfl
    · rw [if_neg hs] at h ⊢
      exact ih h

theorem eq_written_of_stylesheet {document : Entries} {t : Text}
    (h : stylesheet o document = .ok t) : t = joinPieces '\n' (writtenDeclarations o document) := by
  rw [stylesheet] at h
  obtain ⟨ts, hts, h⟩ := bind_eq_ok_iff.mp h
  cases h
  rw [eq_writtenDeclarations_of_eq_ok hts]

end

end StyleVars.Sheet
