import Mathlib.Data.List.Forall2
import StyleVars.Import.Search
import StyleVars.Proofs.Files.Asking
import StyleVars.Proofs.Path.Parent

/-!
Which document a reference means. Directories that are the same as an earlier one are not searched
again; nothing is lost by that, because a reference leads to the same place from both.
-/

namespace StyleVars.Import

open FileState (Yields)

/-! ### Repeated directories -/

/-- Nothing in `seen` is the same as `p`. -/
def isNew (seen : List Path) (p : Path) : Bool := seen.all fun q => !decide (q.Same p)

lemma isNew_concat (seen : List Path) (p q : Path) :
    isNew (seen ++ [p]) q = (isNew seen q && !decide (p.Same q)) := by
  simp [isNew]

/-- What is the same as a repetition repeats the same path. -/
lemma isNew_eq_false_of_same {seen : List Path} {p q : Path} (hp : isNew seen p = false)
    (h : p.Same q) : isNew seen q = false := by
  obtain ⟨r, hr, hrp⟩ := List.all_eq_false.mp hp
  refine List.all_eq_false.mpr ⟨r, hr, ?_⟩
  have hrq : r.Same q := (by simpa using hrp : r.Same p).trans h
  simp [hrq]

/-- The members of a list that are not the same as an earlier one. -/
def firsts (ps : List Path) : List Path :=
  (ps.zipIdx.filter fun e => isNew (ps.take e.2) e.1).map Prod.fst

/-- The members that are not the same as an earlier one nor as one of `seen`. -/
def firstsAfter (seen ps : List Path) : List Path :=
  (ps.zipIdx.filter fun e => isNew (seen ++ ps.take e.2) e.1).map Prod.fst

lemma firstsAfter_cons (seen : List Path) (p : Path) (ps : List Path) :
    firstsAfter seen (p :: ps) =
      (if isNew seen p then [p] else []) ++ firstsAfter (seen ++ [p]) ps := by
  have hrest : ps.zipIdx 1 = ps.zipIdx.map fun e => (e.1, e.2 + 1) := List.zipIdx_succ
  rw [firstsAfter, List.zipIdx_cons, Nat.zero_add, hrest, List.filter_cons, List.filter_map,
    firstsAfter]
  simp only [List.take_zero, List.append_nil, Function.comp_def, List.take_succ_cons,
    List.append_assoc, List.singleton_append]
  split <;> simp

/-- It only matters what is new beside `seen`. -/
lemma withoutRepeats_eq {seen seen' : List Path} (h : ∀ p, isNew seen p = isNew seen' p)
    (ps : List Path) : withoutRepeats seen ps = firstsAfter seen' ps := by
  induction ps generalizing seen seen' with
  | nil => rfl
  | cons p ps ih =>
    have hany : (seen.any fun q => decide (q.Same p)) = !isNew seen' p := by
      rw [← h, isNew, List.all_eq_not_any_not]
      simp
    rw [withoutRepeats, firstsAfter_cons, hany]
    cases hp : isNew seen' p with
    | true =>
      have hcons : ∀ q, isNew (p :: seen) q = isNew (seen' ++ [p]) q := by
        intro q
        rw [isNew_concat, ← h, Bool.and_comm]
        rfl
      simp [ih hcons]
    | false =>
      have hsame : ∀ q, isNew seen q = isNew (seen' ++ [p]) q := by
        intro q
        rw [h, isNew_concat]
        by_cases hpq : p.Same q
        · rw [isNew_eq_false_of_same hp hpq]
          rfl
        · simp [hpq]
      simp [ih hsame]

/-- The directory of the importing file and then the others, repetitions included. -/
def searched (roots : List Path) (containing : Option Path) : List Path :=
  (containing.bind Path.parent?).toList ++ roots

/-- A directory is searched unless it is the same as an earlier one. -/
lemma candidates_eq (roots : List Path) (containing : Option Path) :
    candidates roots containing = firsts (searched roots containing) :=
  withoutRepeats_eq (fun _ => rfl) _

/-- What comes of the same directories alike is found among all as it is found without repetitions. -/
lemma findSome?_withoutRepeats {α : Type} {f : Path → Option α}
    (hf : ∀ p q : Path, p.Same q → f p = f q) {seen : List Path} (hseen : ∀ q ∈ seen, f q = none)
    (ps : List Path) : (withoutRepeats seen ps).findSome? f = ps.findSome? f := by
  induction ps generalizing seen with
  | nil => rfl
  | cons p ps ih =>
    rw [withoutRepeats, List.findSome?_cons]
    split
    · next hany =>
      obtain ⟨q, hq, hqp⟩ := List.any_eq_true.mp hany
      have hp : f p = none := by rw [← hf q p (by simpa using hqp), hseen q hq]
      rw [hp, ih hseen]
    · rw [List.findSome?_cons]
      cases hp : f p with
      | some a => rfl
      | none =>
        refine ih fun q hq => ?_
        rcases List.mem_cons.mp hq with rfl | hq
        · exact hp
        · exact hseen q hq

/-! ### First hits -/

lemma path_of_ofPath? {p : Path} {l : Locator} (h : Locator.ofPath? p = some l) : l.path = p := by
  obtain ⟨u, -, rfl⟩ := Option.map_eq_some_iff.mp h
  rfl

section Hits

variable {σ : Type} [FileState σ] (s : σ) (reference : Text) (directory : Path)

/-- The place of the document in a directory. A relative one has none without a working
directory. -/
def placeIn : Except Fault Path :=
  Path.absolute (FileState.workingDirectory s) (directory.join (Path.ofText reference))

/-- In the directory the reference leads to a path that opens as a regular file. -/
def Hits (path : Path) : Prop :=
  placeIn s reference directory = .ok path ∧ FileState.opens s path = true

/-- The document that a directory holds. -/
def hit? : Option Locator :=
  match placeIn s reference directory with
  | .error _ => none
  | .ok path => if FileState.opens s path then Locator.ofPath? path else none

lemma yields_probe : Yields (probe reference directory) s (hit? s reference directory) := by
  refine (FileState.yields_workingDirectory s).bind ?_
  rw [hit?, placeIn]
  cases Path.absolute (FileState.workingDirectory s) (directory.join (Path.ofText reference)) with
  | error f => exact .pure s none
  | ok path =>
    refine (FileState.yields_isFile s path).bind ?_
    dsimp only
    split
    · exact .pure s _
    · exact .pure s none

variable {directory} in
/-- The same directories hold the same document. -/
lemma hit?_same {other : Path} (h : directory.Same other) :
    hit? s reference directory = hit? s reference other := by
  rw [hit?, hit?, placeIn, placeIn, h.absolute_join]

lemma isSome_ofPath? (p : Path) : (Locator.ofPath? p).isSome = p.isAbsolute := by
  rw [Locator.ofPath?, Url.ofPath?]
  split <;> simp_all

lemma hit?_eq_none_iff :
    hit? s reference directory = none ↔ ∀ path, ¬ Hits s reference directory path := by
  rw [hit?]
  cases hplace : placeIn s reference directory with
  | error f => simp [Hits, hplace]
  | ok path =>
    have hlocator : (Locator.ofPath? path).isSome = true := by
      rw [isSome_ofPath?, Path.isAbsolute_of_absolute hplace]
    obtain ⟨l, hl⟩ := Option.isSome_iff_exists.mp hlocator
    simp [Hits, hplace, hl]

lemma hit?_eq_some_iff (l : Locator) :
    hit? s reference directory = some l ↔
      ∃ path, Hits s reference directory path ∧ Locator.ofPath? path = some l := by
  rw [hit?]
  cases hplace : placeIn s reference directory with
  | error f => simp [Hits, hplace]
  | ok path => simp [Hits, hplace]

end Hits

variable {σ : Type} [FileState σ] (s : σ) (roots : List Path) (reference : Text)
  (containing : Option Path)

lemma yields_resolve (h : isJsonFile reference = true) :
    Yields (resolve roots reference containing) s
      ((searched roots containing).findSome? (hit? s reference)) := by
  have hsame : ∀ p q : Path, p.Same q → hit? s reference p = hit? s reference q :=
    fun p q hpq => hit?_same s reference hpq
  have hnone : ∀ q ∈ ([] : List Path), hit? s reference q = none := by simp
  rw [resolve, if_pos h, ← findSome?_withoutRepeats hsame hnone]
  exact Yields.findSomeM? (yields_probe s reference) _

lemma yields_resolve_of_not_json (h : ¬ isJsonFile reference = true) :
    Yields (resolve roots reference containing) s none := by
  rw [resolve, if_neg h]
  exact .pure s none

variable {s roots reference containing} in
/-- Only what a directory holds is found. -/
lemma exists_hit?_of_resolve {l : Locator}
    (h : Yields (resolve roots reference containing) s (some l)) :
    isJsonFile reference = true ∧
      ∃ directory ∈ searched roots containing, hit? s reference directory = some l := by
  by_cases hjson : isJsonFile reference = true
  · have hfound := (yields_resolve s roots reference containing hjson).unique h
    exact ⟨hjson, List.exists_of_findSome?_eq_some hfound⟩
  · cases (yields_resolve_of_not_json s roots reference containing hjson).unique h

/-- **A reference means the document in the first directory where its place opens as a regular
file**, among the parent of the importing file and all roots, repetitions included; and a directory
is a candidate unless it is the same as an earlier one. -/
theorem resolve_first_hit :
    (∃ found, Yields (resolve roots reference containing) s found ∧
      (∀ l, found = some l ↔
        ".json".toList <:+ reference ∧ ∃ before directory after,
          searched roots containing = before ++ directory :: after ∧
          (∀ d ∈ before, ∀ path, ¬ Hits s reference d path) ∧
          ∃ path, Hits s reference directory path ∧ Locator.ofPath? path = some l) ∧
      (found = none ↔
        ¬ ".json".toList <:+ reference ∨
          ∀ d ∈ searched roots containing, ∀ path, ¬ Hits s reference d path)) ∧
    candidates roots containing = firsts (searched roots containing) := by
  refine ⟨?_, candidates_eq roots containing⟩
  by_cases h : ".json".toList <:+ reference
  · have hjson : isJsonFile reference = true := List.isSuffixOf_iff_suffix.mpr h
    refine ⟨_, yields_resolve s roots reference containing hjson, fun l => ?_, ?_⟩
    · simp only [List.findSome?_eq_some_iff, hit?_eq_some_iff, hit?_eq_none_iff, h, true_and]
      constructor
      · rintro ⟨before, d, after, hsplit, hd, hbefore⟩
        exact ⟨before, d, after, hsplit, hbefore, hd⟩
      · rintro ⟨before, d, after, hsplit, hbefore, hd⟩
        exact ⟨before, d, after, hsplit, hd, hbefore⟩
    · simp only [List.findSome?_eq_none_iff, hit?_eq_none_iff, h, not_true_eq_false, false_or]
  · have hjson : ¬ isJsonFile reference = true := fun hj => h (List.isSuffixOf_iff_suffix.mp hj)
    have hnone := yields_resolve_of_not_json s roots reference containing hjson
    refine ⟨none, hnone, fun l => ?_, ?_⟩
    · constructor
      · intro hl
        cases hl
      · intro hl
        exact absurd hl.1 h
    · exact ⟨fun _ => .inl h, fun _ => rfl⟩

end StyleVars.Import
