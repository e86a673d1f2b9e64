import Mathlib.Data.List.DropRight
import Mathlib.Data.List.Forall2
import StyleVars.Proofs.Path.Components

/-!
The components of parents. What says nothing at the end of a path is dropped before the last component
is taken away, and again behind it; the lead stays.
-/

namespace StyleVars.Path

open Utf8 (Bytes)

/-! ### Pieces at the end -/

/-- Pieces count as before when they are joined and cut again. -/
lemma counted_pieces_joinPieces {qs : List Bytes} (h : ∀ q ∈ qs, slash ∉ q) :
    counted (pieces slash (joinPieces slash qs)) = counted qs := by
  by_cases hqs : qs = []
  · rw [hqs]
    rfl
  · rw [pieces_joinPieces hqs h]

lemma counted_trimEnd (ps : List Bytes) : counted (trimEnd ps) = counted ps := by
  induction ps using List.reverseRecOn with
  | nil => rfl
  | append_singleton ps p ih =>
    have htrim : trimEnd (ps ++ [p]) = if isVoid p then trimEnd ps else ps ++ [p] :=
      List.rdropWhile_concat isVoid ps p
    rw [htrim]
    split
    · next hp => rw [ih, counted_append, counted, counted]; simp [hp]
    · rfl

lemma trimEnd_isPrefixOf (ps : List Bytes) : trimEnd ps <+: ps := List.rdropWhile_prefix isVoid ps

/-- What is left ends in a piece that counts. -/
lemma counted_eq_concat {ps : List Bytes} (h : trimEnd ps ≠ []) :
    ∃ c, c ≠ .root ∧ counted ps = counted (trimEnd ps).dropLast ++ [c] := by
  have hlast : ¬ isVoid ((trimEnd ps).getLast h) = true := List.rdropWhile_last_not isVoid ps h
  refine ⟨componentOf ((trimEnd ps).getLast h), ?_, ?_⟩
  · rw [componentOf]
    split <;> simp
  · rw [← counted_trimEnd ps]
    conv_lhs => rw [← List.dropLast_append_getLast h]
    rw [counted_append]
    simp [counted, hlast]

/-! ### Behind the lead -/

lemma split_bytes (p : Path) : p.bytes = p.split.1.bytes ++ p.split.2 := by
  obtain ⟨bs⟩ := p
  cases bs with
  | nil => rfl
  | cons a r =>
    rw [split_cons]
    split_ifs with ha hd
    · rw [ha]
      rfl
    · rw [hd.1]
      rfl
    · rfl

/-- Behind a leading dot stands a slash or nothing. -/
lemma pieces_of_current {p : Path} (h : p.split.1 = .current) :
    ∃ qs, pieces slash p.split.2 = [] :: qs := by
  rw [pieces_eq_nil_cons_iff]
  obtain ⟨bs⟩ := p
  cases bs with
  | nil => cases h
  | cons a r =>
    rw [split_cons] at h ⊢
    split_ifs at h ⊢ with ha hd
    exact hd.2

lemma leadOf_of_isPrefixOf {ps qs : List Bytes} (hqs : qs <+: ps) (hps : leadOf ps = .nothing) :
    leadOf qs = .nothing := by
  obtain ⟨rs, rfl⟩ := hqs
  by_cases hnil : qs = []
  · rw [hnil]
    rfl
  · by_cases hempty : qs = [[]]
    · rw [hempty]
      rfl
    · rwa [leadOf_append hnil hempty] at hps

/-- The first pieces behind a lead make a path with that lead. -/
lemma components_lead_append {p : Path} {qs : List Bytes} (h : qs <+: pieces slash p.split.2) :
    components ⟨p.split.1.bytes ++ joinPieces slash qs⟩ = p.split.1.components ++ counted qs := by
  have hslash : ∀ q ∈ qs, slash ∉ q := fun q hq => not_mem_of_mem_pieces (h.subset hq)
  rw [components_eq]
  cases hlead : p.split.1 with
  | root =>
    simp only [Lead.bytes, List.singleton_append, pieces_cons_self]
    rw [leadOf_root (pieces_ne_nil slash _), counted_empty, counted_pieces_joinPieces hslash]
  | current =>
    have hpieces : pieces slash (dot :: joinPieces slash qs) = [dot] :: qs.tail := by
      obtain ⟨rs, hrs⟩ := pieces_of_current hlead
      rw [hrs] at h
      rcases qs with _ | ⟨q, _ | ⟨r, qs⟩⟩
      · rfl
      · obtain rfl : q = [] := (List.cons_prefix_cons.mp h).1
        rfl
      · obtain rfl : q = [] := (List.cons_prefix_cons.mp h).1
        have hjoin : dot :: joinPieces slash ([] :: r :: qs) =
            [dot] ++ slash :: joinPieces slash (r :: qs) := rfl
        rw [hjoin, pieces_append_cons,
          pieces_joinPieces (by simp) fun p hp => hslash p (List.mem_cons_of_mem _ hp)]
        rfl
    have htail : counted qs.tail = counted qs := by
      obtain ⟨rs, hrs⟩ := pieces_of_current hlead
      rw [hrs] at h
      cases qs with
      | nil => rfl
      | cons q qs =>
        obtain rfl : q = [] := (List.cons_prefix_cons.mp h).1
        rfl
    simp only [Lead.bytes, List.singleton_append, hpieces]
    rw [leadOf_current, counted_dot, htail]
  | nothing =>
    have hps : leadOf (pieces slash p.split.2) = .nothing := by
      have hbody : p.bytes = p.split.2 := by rw [split_bytes p, hlead]; rfl
      rw [← hbody, ← (split_eq p).1, hlead]
    simp only [Lead.bytes, List.nil_append]
    rw [counted_pieces_joinPieces hslash]
    by_cases hqs : qs = []
    · rw [hqs]
      rfl
    · rw [pieces_joinPieces hqs hslash, leadOf_of_isPrefixOf h hps]

/-! ### The last component -/

/-- **A parent has all components but the last**; what has no component but the root has no
parent. -/
theorem components_parent? (p : Path) :
    (p.parent? = none ∧ (p.components = [] ∨ p.components = [.root])) ∨
      ∃ d, p.parent? = some d ∧ d.components = p.components.dropLast ∧ p.components ≠ [] ∧
        p.components ≠ [.root] := by
  have hdef : p.components = p.split.1.components ++ counted (pieces slash p.split.2) := rfl
  by_cases hps : trimEnd (pieces slash p.split.2) = []
  · have hcounted : counted (pieces slash p.split.2) = [] := by
      rw [← counted_trimEnd, hps, counted_nil]
    rw [hcounted, List.append_nil] at hdef
    rw [hdef]
    cases hlead : p.split.1 with
    | root => exact .inl ⟨by simp [parent?, hps, hlead], .inr rfl⟩
    | current => exact .inr ⟨⟨[]⟩, by simp [parent?, hps, hlead], rfl, by simp [Lead.components]⟩
    | nothing => exact .inl ⟨by simp [parent?, hps, hlead], .inl rfl⟩
  · obtain ⟨c, hroot, hc⟩ := counted_eq_concat hps
    set qs := trimEnd (trimEnd (pieces slash p.split.2)).dropLast with hqs
    have hdrop : (trimEnd (pieces slash p.split.2)).dropLast <+: trimEnd (pieces slash p.split.2) :=
      List.dropLast_prefix _
    have hprefix : qs <+: pieces slash p.split.2 :=
      (trimEnd_isPrefixOf _).trans (hdrop.trans (trimEnd_isPrefixOf _))
    refine .inr ⟨⟨p.split.1.bytes ++ joinPieces slash qs⟩, by simp [parent?, hps, hqs], ?_⟩
    rw [components_lead_append hprefix, hqs, counted_trimEnd, hdef, hc, ← List.append_assoc,
      List.dropLast_concat]
    refine ⟨rfl, by simp, fun h => hroot ?_⟩
    simpa using congrArg List.getLast? h

/-- The same paths have the same parents. -/
theorem Same.parent? {p q : Path} (h : p.Same q) :
    List.Forall₂ Same p.parent?.toList q.parent?.toList := by
  have hpq : p.components = q.components := h
  rcases components_parent? p with ⟨hp, hroot⟩ | ⟨d, hp, hd, hne, hroot⟩
  · rcases components_parent? q with ⟨hq, -⟩ | ⟨e, -, -, hne, hroot'⟩
    · rw [hp, hq]
      exact .nil
    · rw [hpq] at hroot
      exact absurd hroot (not_or.mpr ⟨hne, hroot'⟩)
  · rcases components_parent? q with ⟨-, hroot'⟩ | ⟨e, hq, he, -⟩
    · rw [← hpq] at hroot'
      exact absurd hroot' (not_or.mpr ⟨hne, hroot⟩)
    · have hde : d.Same e := by rw [Same, hd, he, hpq]
      rw [hp, hq]
      exact .cons hde .nil

end StyleVars.Path
