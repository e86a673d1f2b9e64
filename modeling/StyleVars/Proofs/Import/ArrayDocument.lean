import StyleVars.Proofs.Import.Conversion
import StyleVars.Proofs.Sheet.Faults
import StyleVars.Proofs.Sheet.Written

/-!
Documents that hold a list. The list becomes the declaration of a variable with the name of the
file, unless no key of that name would become one: then nothing is declared.
-/

namespace StyleVars.Sheet

open Json (Value)

variable {o : Settings} {limit level depth : Nat} {path : List Text} {v : Value} {is : List Nat}
  {e : Error} {t : Text}

/-- A fault is there on whatever way one comes to it. -/
lemma FaultAt.of_path (h : FaultAt limit level path v is e) (path' : List Text) :
    ∃ e', FaultAt limit level path' v is e' := by
  obtain ⟨names, w, hw, h⟩ := h
  cases h with
  | array hlt => exact ⟨_, names, _, hw, .array hlt⟩
  | object hlt => exact ⟨_, names, _, hw, .object hlt⟩
  | number hx => exact ⟨_, names, _, hw, .number hx⟩

/-- **The way to a value** has no influence on its text. -/
theorem expressionAt_of_path (h : expressionAt o depth path v = .ok t) (path' : List Text) :
    expressionAt o depth path' v = .ok t := by
  cases hr : expressionAt o depth path' v with
  | ok t' => rw [eq_written_of_eq_ok hr, eq_written_of_eq_ok h]
  | error e =>
    -- The fault would be there on the other way as well.
    obtain ⟨is, e, hfault⟩ := (decides_expressionAt o depth path' v).exists_iff.mp
      ⟨e, failure?_eq_some_iff.mpr hr⟩
    obtain ⟨e', hfault'⟩ := hfault.of_path path
    obtain ⟨e'', herr⟩ := (decides_expressionAt o depth path v).exists_iff.mpr ⟨is, e', hfault'⟩
    rw [failure?_eq_some_iff.mp herr] at h
    cases h

/-- A document of one list has one declaration, or none. -/
lemma stylesheet_array {key : Text} {items : List Value}
    (h : expression o (.array items) = .ok t) :
    stylesheet o [(key, .array items)] =
      .ok (if isEligible key then declaration (nameOf o key) t else []) := by
  have hkey := expressionAt_of_path h [key]
  have hs : survives key (.array items) = isEligible key := Bool.and_true _
  rw [stylesheet, declarations, hs]
  by_cases he : isEligible key = true
  · rw [if_pos he, if_pos he, hkey]
    rfl
  · rw [if_neg he, if_neg he]
    rfl

end StyleVars.Sheet

namespace StyleVars.Import

open Json (Value)

variable {o : Settings} {path : Path} {s : Text} {items : List Value} {n : Utf8.Bytes} {t : Text}

/-- **A list that can be written** is declared under the name of its file, and by nothing else; or
nothing is declared, if the name of the file is one that no key may have. -/
theorem convert_array (hparse : Json.parse o.limits s = .ok (.array items))
    (hstem : path.fileStem? = some n) (ht : Sheet.expression o (.array items) = .ok t) :
    convert o path s =
      .ok (if Sheet.isEligible (Utf8.decodeLossy n) then
        Sheet.declaration (Sheet.nameOf o (Utf8.decodeLossy n)) t else []) := by
  have hname : stemName path = Utf8.decodeLossy n := by rw [stemName, hstem]
  rw [convert_of_parse_ok hparse, sheetOf, rootEntries, hname]
  exact congrArg (Except.mapError _) (Sheet.stylesheet_array ht)

/-- Capitals in the name of a file, behind a colon. -/
theorem convert_array_capitals :
    Json.parse Json.Limits.standard "[[]]".toList = .ok (.array [.array []]) ∧
      (Path.ofText "x/:aB.json".toList).fileStem? = some (Utf8.encode ":aB".toList) ∧
      Sheet.expression { convertCase := true } (.array [.array []]) = .ok "(())".toList ∧
      convert { convertCase := true } (Path.ofText "x/:aB.json".toList) "[[]]".toList =
        .ok "$a-b: (());".toList := by
  have hl : Json.Lexes "[[]]".toList _ _ :=
    .token rfl (.token rfl (.token rfl (.token rfl (.ending rfl))))
  have hparse : Json.parse Json.Limits.standard "[[]]".toList = .ok (.array [.array []]) := by
    rw [Json.parse_of_lexes hl (by decide)]
    rfl
  have hstem : (Path.ofText "x/:aB.json".toList).fileStem? = some (Utf8.encode ":aB".toList) := by
    decide +kernel
  refine ⟨hparse, hstem, rfl, ?_⟩
  rw [convert_array (o := { convertCase := true }) hparse hstem rfl]
  refine congrArg Except.ok ?_
  decide +kernel

/-- **A list is lost** if its file has a name that no key may have. -/
theorem not_convert_array :
    ¬ ∀ (o : Settings) (path : Path) (s : Text) (items : List Value) (n : Utf8.Bytes) (t : Text),
      Json.parse o.limits s = .ok (.array items) → path.fileStem? = some n →
        Sheet.expression o (.array items) = .ok t →
          convert o path s =
            .ok (Sheet.declaration (Sheet.nameOf o (Utf8.decodeLossy n)) t) := by
  intro h
  have hl : Json.Lexes "[]".toList _ _ :=
    .token rfl (.token rfl (.ending rfl))
  have hparse : Json.parse Json.Limits.standard "[]".toList = .ok (.array []) := by
    rw [Json.parse_of_lexes hl (by decide)]
    rfl
  have hstem : (Path.ofText "$a.json".toList).fileStem? = some (Utf8.encode "$a".toList) := by
    decide +kernel
  have hsheet := h {} _ _ [] _ "()".toList hparse hstem rfl
  have hlost : convert {} (Path.ofText "$a.json".toList) "[]".toList = .ok [] := by
    rw [convert_of_parse_ok hparse, sheetOf, rootEntries, stemName, hstem]
    decide +kernel
  rw [hlost] at hsheet
  cases hsheet

end StyleVars.Import
