import StyleVars.Import.Document
import StyleVars.Proofs.Json.Nesting
import StyleVars.Proofs.Sheet.Nodes

/-!
When the text of a document becomes a stylesheet. The parser and the stylesheet count lists and
objects from different places, but what has been parsed fits its limit, and so does every value
that is written from it. Only a root of the wrong kind or an infinity is left to fail for.
-/

namespace StyleVars.Import

open Json (Value Entries)
open Sheet (nodesAt documentNodes failure?)

/-! ### Nesting -/

/-- What fits leaves room for each value inside it. -/
theorem fits_of_mem_nodesAt {d depth : Nat} {path : List Text} {v : Value} {n : Sheet.Node}
    (h : v.Fits d) (hn : n ∈ nodesAt depth path v) :
    ∃ e, n.depth + e = depth + d ∧ n.value.Fits e := by
  induction h generalizing depth path with
  | null =>
    obtain rfl := List.mem_singleton.mp hn
    exact ⟨_, rfl, .null⟩
  | bool =>
    obtain rfl := List.mem_singleton.mp hn
    exact ⟨_, rfl, .bool⟩
  | number hx =>
    obtain rfl := List.mem_singleton.mp hn
    exact ⟨_, rfl, .number hx⟩
  | string =>
    obtain rfl := List.mem_singleton.mp hn
    exact ⟨_, rfl, .string⟩
  | @array d vs hvs ih =>
    rcases List.mem_cons.mp hn with rfl | hn
    · exact ⟨d + 1, rfl, .array hvs⟩
    · obtain ⟨w, hw, p, hn⟩ := Sheet.mem_itemNodes hn
      obtain ⟨e, he, hfits⟩ := ih w hw hn
      exact ⟨e, by omega, hfits⟩
  | @object d es hes ih =>
    rcases List.mem_cons.mp hn with rfl | hn
    · exact ⟨d + 1, rfl, .object hes⟩
    · obtain ⟨f, hf, p, hn⟩ := Sheet.mem_entryNodes hn
      obtain ⟨e, he, hfits⟩ := ih f hf hn
      exact ⟨e, by omega, hfits⟩

/-- A value that fits can be written unless it is an infinity. -/
lemma fault?_of_fits {limit e : Nat} {n : Sheet.Node} (h : n.value.Fits e)
    (hlimit : n.depth + e ≤ limit) :
    n.fault? limit =
      match n.value with
      | .number (.infinite negative) => some (.nonFinite (.infinite negative) n.path)
      | _ => none := by
  obtain ⟨depth, path, v⟩ := n
  cases h with
  | null => rfl
  | bool => rfl
  | @number _ x hx =>
    cases x with
    | nan => exact absurd rfl hx
    | infinite => rfl
    | finite => rfl
  | string => rfl
  | array => exact if_neg (by simp only at hlimit; omega)
  | object => exact if_neg (by simp only at hlimit; omega)

/-- The entries that become declarations fit the limit of the root. -/
lemma fits_of_rootEntries {limit : Nat} {path : Path} {v : Value} {es : Entries}
    (h : v.Fits limit) (hes : rootEntries path v = .ok es) :
    ∃ d ≤ limit, ∀ e ∈ es, e.2.Fits d := by
  cases h with
  | array hvs =>
    cases hes
    refine ⟨_, le_refl _, fun e he => ?_⟩
    obtain rfl := List.mem_singleton.mp he
    exact .array hvs
  | object hfs =>
    cases hes
    exact ⟨_, Nat.le_succ _, hfs⟩
  | _ => cases hes

/-! ### Infinities -/

/-- A number that is written is an infinity. -/
def HasInfinity (es : Entries) : Prop :=
  ∃ n ∈ documentNodes es, ∃ negative, n.value = .number (.infinite negative)

variable {o : Settings} {path : Path} {s : Text} {v : Value} {es : Entries} {d : Nat}

lemma fault?_of_mem_documentNodes {limit : Nat} {n : Sheet.Node} (hes : ∀ e ∈ es, e.2.Fits d)
    (hd : d ≤ limit) (hn : n ∈ documentNodes es) :
    n.fault? limit =
      match n.value with
      | .number (.infinite negative) => some (.nonFinite (.infinite negative) n.path)
      | _ => none := by
  obtain ⟨e, he, p, hn⟩ := Sheet.mem_entryNodes hn
  obtain ⟨r, hr, hfits⟩ := fits_of_mem_nodesAt (hes e he) hn
  exact fault?_of_fits hfits (by omega)

/-- Entries that fit fail for an infinity and for nothing else. -/
theorem stylesheet_eq_error {e : Sheet.Error} (hes : ∀ e ∈ es, e.2.Fits d)
    (hd : d ≤ o.limits.maxNestingDepth) (h : Sheet.stylesheet o es = .error e) :
    HasInfinity es ∧ ∃ x p, e = .nonFinite x p := by
  rw [← Sheet.failure?_eq_some_iff, Sheet.failure?_stylesheet] at h
  obtain ⟨n, hn, hfault⟩ := List.exists_of_findSome?_eq_some h
  rw [fault?_of_mem_documentNodes hes hd hn] at hfault
  split at hfault
  · next negative hv =>
    cases hfault
    exact ⟨⟨n, hn, negative, hv⟩, _, _, rfl⟩
  · cases hfault

theorem stylesheet_of_hasInfinity (h : HasInfinity es) : ∃ e, Sheet.stylesheet o es = .error e := by
  obtain ⟨n, hn, negative, hv⟩ := h
  obtain ⟨depth, p, v⟩ := n
  cases hv
  have hsome : (failure? (Sheet.stylesheet o es)).isSome := by
    rw [Sheet.failure?_stylesheet, List.findSome?_isSome_iff]
    exact ⟨_, hn, rfl⟩
  obtain ⟨e, he⟩ := Option.isSome_iff_exists.mp hsome
  exact ⟨e, Sheet.failure?_eq_some_iff.mp he⟩

/-! ### Roots -/

/-- A root that is no list and no map. -/
def IsScalar (v : Value) : Prop := (∀ items, v ≠ .array items) ∧ ∀ entries, v ≠ .object entries

lemma rootEntries_of_isScalar (h : IsScalar v) :
    rootEntries path v = .error (.unsupportedRoot v.typeName) := by
  cases v with
  | array items => exact absurd rfl (h.1 items)
  | object entries => exact absurd rfl (h.2 entries)
  | _ => rfl

lemma rootEntries_eq_error {e : Sheet.Error} (h : rootEntries path v = .error e) :
    IsScalar v ∧ e = .unsupportedRoot v.typeName := by
  cases v with
  | array items => cases h
  | object entries => cases h
  | _ =>
    cases h
    exact ⟨⟨by simp, by simp⟩, rfl⟩

/-- Why a value that fits cannot be written: it is no list and no map, or it has an infinity. -/
def Unwritable (path : Path) (v : Value) : Prop :=
  IsScalar v ∨ ∃ es, rootEntries path v = .ok es ∧ HasInfinity es

theorem sheetOf_eq_error {e : Sheet.Error} (hv : v.Fits o.limits.maxNestingDepth)
    (h : sheetOf o path v = .error e) :
    Unwritable path v ∧ ∀ depth limit, e ≠ .nestingTooDeep depth limit := by
  rw [sheetOf] at h
  cases hes : rootEntries path v with
  | error e' =>
    rw [hes] at h
    cases h
    obtain ⟨hscalar, rfl⟩ := rootEntries_eq_error hes
    exact ⟨.inl hscalar, by simp⟩
  | ok es =>
    rw [hes] at h
    obtain ⟨d, hd, hfits⟩ := fits_of_rootEntries hv hes
    obtain ⟨hinf, x, p, rfl⟩ := stylesheet_eq_error hfits hd h
    exact ⟨.inr ⟨es, hes, hinf⟩, by simp⟩

theorem sheetOf_of_unwritable (h : Unwritable path v) : ∃ e, sheetOf o path v = .error e := by
  rw [sheetOf]
  rcases h with hscalar | ⟨es, hes, hinf⟩
  · rw [rootEntries_of_isScalar hscalar]
    exact ⟨_, rfl⟩
  · rw [hes]
    exact stylesheet_of_hasInfinity hinf

/-! ### Texts -/

/-- The conversion fails while doing `phase`. -/
def FailsIn (phase : Phase) (r : Except LoadError Text) : Prop :=
  ∃ e, r = .error e ∧ e.cause.phase = phase

lemma convert_of_parse_error {e : Json.Error} (h : Json.parse o.limits s = .error e) :
    convert o path s = .error ⟨path, .notJson e⟩ := by
  rw [convert, h]

lemma convert_of_parse_ok (h : Json.parse o.limits s = .ok v) :
    convert o path s = (sheetOf o path v).mapError fun e => ⟨path, .notSheet e⟩ := by
  rw [convert, h]
  cases hr : sheetOf o path v <;> simp [hr, Except.mapError]

/-- **A conversion fails while parsing exactly when the text is no document within the limits, and
while transforming exactly when the root is no list and no map or an infinity is written**; in
every other case there is a stylesheet, and no document that was parsed is nested too deep. -/
theorem convert_fails_iff (o : Settings) (path : Path) (s : Text) :
    (FailsIn .parse (convert o path s) ↔ ∃ e, Json.parse o.limits s = .error e) ∧
      (FailsIn .transform (convert o path s) ↔
        ∃ v, Json.parse o.limits s = .ok v ∧ Unwritable path v) ∧
      ((∃ sheet, convert o path s = .ok sheet) ↔
        ∃ v, Json.parse o.limits s = .ok v ∧ ¬ Unwritable path v) ∧
      ∀ p depth limit,
        convert o path s ≠ .error ⟨p, .notSheet (.nestingTooDeep depth limit)⟩ := by
  cases hparse : Json.parse o.limits s with
  | error e =>
    rw [convert_of_parse_error hparse]
    simp [FailsIn, Cause.phase]
  | ok v =>
    have hfits := Json.fits_of_parse hparse
    rw [convert_of_parse_ok hparse]
    cases hsheet : sheetOf o path v with
    | error e =>
      obtain ⟨hun, hdeep⟩ := sheetOf_eq_error hfits hsheet
      simp [FailsIn, Cause.phase, Except.mapError, hun, hdeep]
    | ok sheet =>
      have hwr : ¬ Unwritable path v := fun hun => by
        obtain ⟨e, he⟩ := sheetOf_of_unwritable (o := o) hun
        rw [hsheet] at he
        cases he
      simp [FailsIn, Except.mapError, hwr]

end StyleVars.Import
