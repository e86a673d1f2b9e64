import Mathlib.Data.List.Basic
import StyleVars.Path.Basic

/-!
The components of paths that are joined. Behind its lead a path counts for the pieces between its
slashes, wherever it stands; so what is joined to paths that are the same leads to the same place.
-/

namespace StyleVars.Path

open Utf8 (Bytes)

/-! ### Pieces -/

/-- The components that pieces stand for behind the lead. -/
def counted (ps : List Bytes) : List Component :=
  (ps.filter fun piece => !isVoid piece).map componentOf

/-- The lead of a path with these pieces: a slash ends an empty first piece. -/
def leadOf : List Bytes → Lead
  | [] => .nothing
  | p :: ps => if p = [] ∧ ps ≠ [] then .root else if p = [dot] then .current else .nothing

@[simp] lemma counted_nil : counted [] = [] := rfl

@[simp] lemma counted_append (ps qs : List Bytes) :
    counted (ps ++ qs) = counted ps ++ counted qs := by
  simp [counted]

@[simp] lemma counted_empty (ps : List Bytes) : counted ([] :: ps) = counted ps := rfl

@[simp] lemma counted_dot (ps : List Bytes) : counted ([dot] :: ps) = counted ps := rfl

lemma leadOf_root {ps : List Bytes} (h : ps ≠ []) : leadOf ([] :: ps) = .root := by
  simp [leadOf, h]

lemma leadOf_current (ps : List Bytes) : leadOf ([dot] :: ps) = .current := by
  simp [leadOf]

lemma leadOf_nothing {p : Bytes} (ps : List Bytes) (h0 : p ≠ []) (h1 : p ≠ [dot]) :
    leadOf (p :: ps) = .nothing := by
  simp [leadOf, h0, h1]

/-- The lead hangs on the first piece and on whether it is the only one. -/
lemma leadOf_append {ps qs : List Bytes} (hps : ps ≠ []) (hempty : ps ≠ [[]]) :
    leadOf (ps ++ qs) = leadOf ps := by
  obtain ⟨p, ps, rfl⟩ := List.exists_cons_of_ne_nil hps
  cases ps with
  | nil => simp_all [leadOf]
  | cons r ps => simp [leadOf]

lemma leadOf_append_eq {ps qs rs : List Bytes} (hps : ps ≠ []) (hqs : qs ≠ []) (hrs : rs ≠ []) :
    leadOf (ps ++ qs) = leadOf (ps ++ rs) := by
  obtain ⟨p, ps, rfl⟩ := List.exists_cons_of_ne_nil hps
  simp [leadOf, hqs, hrs]

lemma pieces_ne_empty {bs : Bytes} (h : bs ≠ []) : pieces slash bs ≠ [[]] := fun hbs =>
  h (by rw [← joinPieces_pieces slash bs, hbs]; rfl)

lemma pieces_eq_nil_cons_iff (r : Bytes) :
    (∃ qs, pieces slash r = [] :: qs) ↔ r.head? = none ∨ r.head? = some slash := by
  cases r with
  | nil => simp
  | cons b r =>
    obtain ⟨q, qs, hr⟩ := List.exists_cons_of_ne_nil (pieces_ne_nil slash r)
    by_cases hb : b = slash
    · simp [hb]
    · simp [hb, pieces_cons_of_ne hb hr]

lemma split_cons (a : UInt8) (r : Bytes) :
    split ⟨a :: r⟩ =
      if a = slash then (.root, r)
      else if a = dot ∧ (r.head? = none ∨ r.head? = some slash) then (.current, r)
      else (.nothing, a :: r) := rfl

/-- The lead and what stands behind it, in pieces. -/
lemma split_eq (p : Path) :
    p.split.1 = leadOf (pieces slash p.bytes) ∧
      counted (pieces slash p.split.2) = counted (pieces slash p.bytes) := by
  obtain ⟨bs⟩ := p
  cases bs with
  | nil => exact ⟨rfl, rfl⟩
  | cons a r =>
    obtain ⟨q, qs, hr⟩ := List.exists_cons_of_ne_nil (pieces_ne_nil slash r)
    have hhead := pieces_eq_nil_cons_iff r
    simp only [hr, List.cons.injEq] at hhead
    rw [split_cons]
    split_ifs with ha hd
    · rw [ha, pieces_cons_self, leadOf_root (pieces_ne_nil slash r)]
      exact ⟨rfl, rfl⟩
    · obtain ⟨_, rfl, rfl⟩ := hhead.mpr hd.2
      rw [pieces_cons_of_ne ha hr, hr, hd.1, leadOf_current]
      exact ⟨rfl, rfl⟩
    · have hne : a :: q ≠ [dot] := by
        intro h
        obtain ⟨rfl, rfl⟩ := List.cons.inj h
        exact hd ⟨rfl, hhead.mp ⟨qs, rfl, rfl⟩⟩
      rw [pieces_cons_of_ne ha hr, leadOf_nothing qs (by simp) hne]
      exact ⟨rfl, rfl⟩

/-- A path has a component for its lead and then one for each piece that counts. -/
theorem components_eq (p : Path) :
    p.components =
      (leadOf (pieces slash p.bytes)).components ++ counted (pieces slash p.bytes) := by
  obtain ⟨hlead, hbody⟩ := split_eq p
  rw [← hlead, ← hbody]
  rfl

lemma isAbsolute_iff {p : Path} : p.isAbsolute = true ↔ ∃ r, p.bytes = slash :: r := by
  rw [isAbsolute]
  cases p.bytes <;> simp

lemma leadOf_of_isAbsolute {p : Path} (h : p.isAbsolute = true) :
    leadOf (pieces slash p.bytes) = .root := by
  obtain ⟨r, hr⟩ := isAbsolute_iff.mp h
  rw [hr, pieces_cons_self, leadOf_root (pieces_ne_nil slash r)]

lemma leadOf_ne_root {p : Path} (h : p.isAbsolute = false) :
    leadOf (pieces slash p.bytes) ≠ .root := by
  intro hroot
  obtain ⟨bs⟩ := p
  cases bs with
  | nil => cases hroot
  | cons a r =>
    have ha : a ≠ slash := by simpa [isAbsolute] using h
    obtain ⟨q, qs, hr⟩ := List.exists_cons_of_ne_nil (pieces_ne_nil slash r)
    rw [pieces_cons_of_ne ha hr, leadOf] at hroot
    split at hroot
    · simp_all
    · split at hroot <;> cases hroot

/-- The root is a component of absolute paths only. -/
lemma root_mem_components_iff {p : Path} : .root ∈ p.components ↔ p.isAbsolute = true := by
  have hcounted (ps : List Bytes) : .root ∉ counted ps := by
    intro hroot
    obtain ⟨piece, -, hpiece⟩ := List.mem_map.mp hroot
    rw [componentOf] at hpiece
    split at hpiece <;> cases hpiece
  rw [components_eq, List.mem_append, or_iff_left (hcounted _)]
  cases hp : p.isAbsolute with
  | true => simp [leadOf_of_isAbsolute hp, Lead.components]
  | false =>
    have hlead := leadOf_ne_root hp
    cases h : leadOf (pieces slash p.bytes) <;> simp_all [Lead.components]

/-! ### Joining -/

lemma join_of_isAbsolute {q : Path} (p : Path) (hq : q.isAbsolute = true) : p.join q = q := by
  rw [join, if_pos hq]

lemma join_of_nil {p : Path} (q : Path) (hp : p.bytes = []) : p.join q = q := by
  rw [join, hp]
  split <;> rfl

lemma isAbsolute_join (p q : Path) :
    (p.join q).isAbsolute = (q.isAbsolute || p.isAbsolute) := by
  cases hq : q.isAbsolute with
  | true => rw [join_of_isAbsolute p hq, hq, Bool.true_or]
  | false =>
    by_cases hp : p.bytes = []
    · rw [join_of_nil q hp, hq, isAbsolute, hp]
      rfl
    · obtain ⟨a, r, hr⟩ := List.exists_cons_of_ne_nil hp
      rw [Bool.false_or, join, if_neg (by simp [hq]), List.getLast?_eq_some_getLast hp]
      dsimp only
      split <;> simp [isAbsolute, hr]

/-- The pieces of two paths that are joined. A slash at the end of the first is not doubled. -/
lemma pieces_join {p q : Path} (hp : p.bytes ≠ []) (hq : q.isAbsolute = false) :
    ∃ ps, counted ps = counted (pieces slash p.bytes) ∧
      leadOf (ps ++ pieces slash q.bytes) = leadOf (pieces slash p.bytes) ∧
      pieces slash (p.join q).bytes = ps ++ pieces slash q.bytes := by
  obtain ⟨d, b, hb⟩ : ∃ d b, p.bytes = d ++ [b] :=
    ⟨_, _, (List.dropLast_append_getLast hp).symm⟩
  by_cases hs : b = slash
  · have hj : (p.join q).bytes = d ++ slash :: q.bytes := by simp [join, hq, hb, hs]
    have hpieces : pieces slash p.bytes = pieces slash d ++ [[]] := by
      rw [hb, hs, pieces_append_cons, pieces_nil]
    refine ⟨pieces slash d, ?_, ?_, ?_⟩
    · rw [hpieces, counted_append]
      simp
    · rw [hpieces]
      exact leadOf_append_eq (pieces_ne_nil slash d) (pieces_ne_nil slash _) (by simp)
    · rw [hj, pieces_append_cons]
  · have hj : (p.join q).bytes = p.bytes ++ slash :: q.bytes := by simp [join, hq, hb, hs]
    refine ⟨pieces slash p.bytes, rfl, ?_, ?_⟩
    · exact leadOf_append (pieces_ne_nil slash _) (pieces_ne_empty hp)
    · rw [hj, pieces_append_cons]

/-- Joined paths have the components of the first and then those of the second but for its lead. -/
theorem components_join {p q : Path} (hp : p.bytes ≠ []) (hq : q.isAbsolute = false) :
    (p.join q).components = p.components ++ counted (pieces slash q.bytes) := by
  obtain ⟨ps, hcounted, hlead, hj⟩ := pieces_join hp hq
  rw [components_eq, components_eq p, hj, hlead, counted_append, hcounted, List.append_assoc]

/-! ### Following components -/

/-- One step along a path, from the names that lead to where it begins, last first. -/
def climb (up : List Bytes) : Component → List Bytes
  | .root => []
  | .current => up
  | .parent => up.drop 1
  | .name n => n :: up

lemma namesAlong_eq (cs : List Component) : namesAlong cs = (cs.foldl climb []).reverse := by
  rw [namesAlong]
  congr 1

/-- The names, last first, that a path leads to from where `up` leads. -/
def follow (up : List Bytes) (p : Path) : List Bytes := p.components.foldl climb up

/-- Two paths that are joined lead where the second leads from where the first leads. -/
theorem follow_join (up : List Bytes) (p q : Path) :
    (p.join q).follow up = q.follow (p.follow up) := by
  by_cases hq : q.isAbsolute = true
  · have hroot := components_eq q
    rw [leadOf_of_isAbsolute hq] at hroot
    rw [join_of_isAbsolute p hq, follow, follow, hroot]
    rfl
  · rw [Bool.not_eq_true] at hq
    by_cases hp : p.bytes = []
    · have hnil : p.components = [] := by rw [components_eq, hp]; rfl
      rw [join_of_nil q hp, follow.eq_def up p, hnil]
      rfl
    · have hlead : ∀ up, (leadOf (pieces slash q.bytes)).components.foldl climb up = up := by
        intro up
        cases h : leadOf (pieces slash q.bytes) with
        | root => exact absurd h (leadOf_ne_root hq)
        | current => rfl
        | nothing => rfl
      rw [follow, follow, follow, components_join hp hq, components_eq q, List.foldl_append,
        List.foldl_append, hlead]

lemma normal_eq (p : Path) : p.normal = ofNames (p.follow []).reverse := by
  rw [normal, namesAlong_eq]
  rfl

variable {ε : Type} {cwd : Except ε Path} {p q : Path}

/-- The path leads from the root or from the working directory. -/
lemma exists_normal_of_absolute (h : p.absolute cwd = .ok q) :
    (p.isAbsolute = true ∧ q = p.normal) ∨ ∃ d, cwd = .ok d ∧ q = (d.join p).normal := by
  rw [absolute, fromRoot] at h
  split at h
  · next hp =>
    cases h
    exact .inl ⟨hp, rfl⟩
  · cases cwd with
    | error e => cases h
    | ok d =>
      cases h
      exact .inr ⟨d, rfl, rfl⟩

lemma isAbsolute_of_absolute (h : p.absolute cwd = .ok q) : q.isAbsolute = true := by
  rcases exists_normal_of_absolute h with ⟨-, rfl⟩ | ⟨d, -, rfl⟩ <;> rfl

namespace Same

lemma isAbsolute_eq (h : p.Same q) : p.isAbsolute = q.isAbsolute := by
  rw [Bool.eq_iff_iff, ← root_mem_components_iff, ← root_mem_components_iff, h]

lemma follow_join_eq (h : p.Same q) (r : Path) (up : List Bytes) :
    (p.join r).follow up = (q.join r).follow up := by
  rw [follow_join, follow_join, follow.eq_def up p, h]
  rfl

/-- **The same directories lead to the same place**: what is joined to them has one absolute path,
from any working directory and from none. -/
theorem absolute_join (h : p.Same q) (cwd : Except ε Path) (r : Path) :
    (p.join r).absolute cwd = (q.join r).absolute cwd := by
  rw [absolute, absolute, fromRoot, fromRoot, isAbsolute_join, isAbsolute_join, h.isAbsolute_eq]
  split
  · simp only [Except.map, normal_eq, h.follow_join_eq]
  · cases cwd with
    | error e => rfl
    | ok d => simp only [Except.map, normal_eq, follow_join _ d, h.follow_join_eq]

end Same

end StyleVars.Path
