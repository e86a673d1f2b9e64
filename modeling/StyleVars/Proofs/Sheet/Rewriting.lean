import StyleVars.Proofs.Dictionary
import StyleVars.Proofs.Json.Value
import StyleVars.Proofs.Sheet.Kebab
import StyleVars.Proofs.Sheet.Link
import StyleVars.Proofs.Sheet.Written

/-!
The conversion of keys and the resolution of links as steps before the writing. A tree with all its
keys and strings rewritten, written as it is, gives the text that the tree itself gives when both
are switched on: no entry is left out for its new key or its new value, and what is no string has no
links.
-/

namespace StyleVars.Sheet

open Json (Value Entries)
open Dictionary (keys)

mutual

/-- A value with the form of each key in the place of the key, and with the links of each string
resolved. -/
def rewrite (o : Settings) : Value → Value
  | .string s => .string (linked o s)
  | .array items => .array (rewriteItems o items)
  | .object entries => .object (Dictionary.ofPairs (rewritePairs o entries))
  | v => v

def rewriteItems (o : Settings) : List Value → List Value
  | [] => []
  | v :: vs => rewrite o v :: rewriteItems o vs

/-- The pairs from which a new object arises. -/
def rewritePairs (o : Settings) : Entries → List (Text × Value)
  | [] => []
  | (key, v) :: es => (keyForm o key, rewrite o v) :: rewritePairs o es

end

/-- A document with its keys and strings rewritten. -/
def rewriteDocument (o : Settings) (document : Entries) : Entries :=
  Dictionary.ofPairs (rewritePairs o document)

/-- The same settings, but keys and strings are written as they are. -/
def plainly (o : Settings) : Settings := { o with convertCase := false, resolveLinks := false }

/-- The forms of the keys are distinct in every object inside of a value. -/
def KeepsKeysApart (o : Settings) (v : Value) : Prop :=
  v.EachObject fun es => ((keys es).map (keyForm o)).Nodup

/-! ### Single entries -/

variable {o : Settings}

lemma keys_rewritePairs (es : Entries) : keys (rewritePairs o es) = (keys es).map (keyForm o) := by
  induction es with
  | nil => rfl
  | cons e es ih =>
    obtain ⟨key, v⟩ := e
    simp only [rewritePairs, keys, List.map_cons] at ih ⊢
    rw [ih]

lemma ofPairs_rewritePairs {es : Entries} (h : ((keys es).map (keyForm o)).Nodup) :
    Dictionary.ofPairs (rewritePairs o es) = rewritePairs o es :=
  Dictionary.ofPairs_of_nodup (by rwa [keys_rewritePairs])

lemma isSentinel_rewrite (v : Value) : isSentinel (rewrite o v) = isSentinel v := by
  cases v with
  | string s =>
    have hiff : linked o s = ['#'] ↔ s = ['#'] := by
      rw [linked]
      split
      · exact resolveLinks_eq_singleton_iff (by decide)
      · rfl
    rw [rewrite, isSentinel, isSentinel, Bool.eq_iff_iff, beq_iff_eq, beq_iff_eq, hiff]
  | _ => rfl

/-- An entry survives the conversion if and only if it survives without it. -/
lemma survives_rewrite (key : Text) (v : Value) :
    survives (keyForm o key) (rewrite o v) = survives key v := by
  rw [survives, survives, isEligible_keyForm, isSentinel_rewrite]

lemma stringExpression_plainly (s : Text) :
    stringExpression (plainly o) (linked o s) = stringExpression o s := rfl

/-- There are no links in numbers and truth values. -/
lemma stringExpression_plainly_scalar {v : Value} (hv : v.string? = none) :
    stringExpression (plainly o) (scalarText v) = stringExpression o (scalarText v) := by
  have hlinked : linked o (scalarText v) = scalarText v :=
    linked_of_notMem (notMem_scalarText rfl hv) o
  have h := stringExpression_plainly (o := o) (scalarText v)
  rwa [hlinked] at h

/-! ### Results apart from errors -/

lemma toOption_itemsAt_rewrite {vs : List Value} {depth : Nat} {path path' : List Text}
    {index : Nat} (h : ∀ v ∈ vs, ∀ depth path path', (expressionAt o depth path v).toOption =
      (expressionAt (plainly o) depth path' (rewrite o v)).toOption) :
    (itemsAt o depth path index vs).toOption =
      (itemsAt (plainly o) depth path' index (rewriteItems o vs)).toOption := by
  induction vs generalizing index with
  | nil => rfl
  | cons v vs ih =>
    obtain ⟨hv, hvs⟩ := List.forall_mem_cons.mp h
    rw [itemsAt, rewriteItems, itemsAt, toOption_bind, toOption_bind]
    simp only [toOption_bind]
    rw [ih hvs, hv]

lemma toOption_entriesAt_rewrite {es : Entries} {depth : Nat} {path path' : List Text}
    (h : ∀ e ∈ es, ∀ depth path path', (expressionAt o depth path e.2).toOption =
      (expressionAt (plainly o) depth path' (rewrite o e.2)).toOption) :
    (entriesAt o depth path es).toOption =
      (entriesAt (plainly o) depth path' (rewritePairs o es)).toOption := by
  induction es with
  | nil => rfl
  | cons e es ih =>
    obtain ⟨key, v⟩ := e
    obtain ⟨hv, hes⟩ := List.forall_mem_cons.mp h
    rw [entriesAt, rewritePairs, entriesAt, survives_rewrite]
    by_cases hs : survives key v = true
    · rw [if_pos hs, if_pos hs]
      simp only [toOption_bind]
      rw [ih hes, hv _ _ (path' ++ [keyForm o key])]
      rfl
    · rw [if_neg hs, if_neg hs, ih hes]

/-- A value and its rewritten form fail together or give the same text. -/
theorem toOption_expressionAt_rewrite {v : Value} (h : KeepsKeysApart o v) (depth : Nat)
    (path path' : List Text) :
    (expressionAt o depth path v).toOption =
      (expressionAt (plainly o) depth path' (rewrite o v)).toOption := by
  induction h generalizing depth path path' with
  | null => exact congrArg some (stringExpression_plainly_scalar (v := .null) rfl).symm
  | bool b => exact congrArg some (stringExpression_plainly_scalar (v := .bool b) rfl).symm
  | number x =>
    have hs := stringExpression_plainly_scalar (o := o) (v := .number x) rfl
    rw [rewrite, expressionAt, expressionAt]
    · cases hx : x.canonical with
      | none => rfl
      | some s =>
        rw [scalarText, hx, Option.getD_some] at hs
        exact congrArg some hs.symm
    all_goals nofun
  | string s => rfl
  | array _ ih =>
    rw [expressionAt, rewrite, expressionAt]
    simp only [toOption_bind]
    rw [toOption_itemsAt_rewrite ih]
    rfl
  | object here _ ih =>
    rw [expressionAt, rewrite, ofPairs_rewritePairs here, expressionAt]
    simp only [toOption_bind]
    rw [toOption_entriesAt_rewrite ih]
    rfl

lemma toOption_declarations_rewrite {es : Entries} (h : ∀ e ∈ es, KeepsKeysApart o e.2) :
    (declarations o es).toOption =
      (declarations (plainly o) (rewritePairs o es)).toOption := by
  induction es with
  | nil => rfl
  | cons e es ih =>
    obtain ⟨key, v⟩ := e
    obtain ⟨hv, hes⟩ := List.forall_mem_cons.mp h
    rw [declarations, rewritePairs, declarations, survives_rewrite]
    by_cases hs : survives key v = true
    · rw [if_pos hs, if_pos hs]
      simp only [toOption_bind]
      rw [ih hes, toOption_expressionAt_rewrite hv 0 [key] [keyForm o key]]
      rfl
    · rw [if_neg hs, if_neg hs, ih hes]

/-- **Conversion and links can be done beforehand.** As long as no two keys of an object get the
same form, a value can be written if and only if its rewritten form can be written plainly, with the
same text, and so it is with a document. -/
theorem written_rewrite (o : Settings) :
    (∀ v, KeepsKeysApart o v → ∀ t,
        expression o v = .ok t ↔ expression (plainly o) (rewrite o v) = .ok t) ∧
      ∀ document, KeepsKeysApart o (.object document) → ∀ t,
        stylesheet o document = .ok t ↔
          stylesheet (plainly o) (rewriteDocument o document) = .ok t := by
  refine ⟨fun v hv t => ?_, fun document hdoc t => ?_⟩
  · rw [← toOption_eq_some_iff, ← toOption_eq_some_iff, expression, expression,
      toOption_expressionAt_rewrite hv 0 [] []]
  · cases hdoc with
    | object here h =>
      rw [← toOption_eq_some_iff, ← toOption_eq_some_iff, stylesheet, stylesheet, toOption_bind,
        toOption_bind, rewriteDocument, ofPairs_rewritePairs here, toOption_declarations_rewrite h]

/-- Settings with conversion and links. -/
def convertingSettings : Settings := { convertCase := true, resolveLinks := true }

/-- A document with capitals in its keys and with a link, a hash and a colon. -/
def linkedDocument : Entries :=
  [("aB".toList, .string "var:b|c".toList), ("gone".toList, .string ['#']),
    (":xY".toList, .object [("Z".toList, .array [.string ['#'], .string "var:d".toList])])]

theorem linkedDocument_rewrite :
    KeepsKeysApart convertingSettings (.object linkedDocument) ∧
      stylesheet (plainly convertingSettings)
          (rewriteDocument convertingSettings linkedDocument) =
        .ok "$a-b: var(--wp--b--c);\n$x-y: (z: (#,'var:d'));".toList := by
  have hlist : KeepsKeysApart convertingSettings
      (.array [.string ['#'], .string "var:d".toList]) :=
    .array (List.forall_mem_cons.mpr ⟨.string _, List.forall_mem_singleton.mpr (.string _)⟩)
  have hinner : KeepsKeysApart convertingSettings
      (.object [("Z".toList, .array [.string ['#'], .string "var:d".toList])]) :=
    .object (by decide +kernel) (List.forall_mem_singleton.mpr hlist)
  have happart : KeepsKeysApart convertingSettings (.object linkedDocument) :=
    .object (by decide +kernel) (List.forall_mem_cons.mpr ⟨.string _,
      List.forall_mem_cons.mpr ⟨.string _, List.forall_mem_singleton.mpr hinner⟩⟩)
  have htext : stylesheet convertingSettings linkedDocument =
      .ok "$a-b: var(--wp--b--c);\n$x-y: (z: (#,'var:d'));".toList := by
    decide +kernel
  exact ⟨happart, ((written_rewrite _).2 linkedDocument happart _).mp htext⟩

end StyleVars.Sheet
