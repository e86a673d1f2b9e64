/-!
Cutting a list at each occurrence of a separator. There is one piece more than there are
separators, and joining the pieces again gives the list back.
-/

namespace StyleVars

variable {α : Type} [DecidableEq α]

/-- The pieces of a list between its separators, empty ones included. -/
def pieces (sep : α) : List α → List (List α)
  | [] => [[]]
  | a :: as =>
    if a = sep then [] :: pieces sep as
    else match pieces sep as with
      | [] => [[a]]
      | p :: ps => (a :: p) :: ps

/-- Pieces with the separator between each two. -/
def joinPieces (sep : α) : List (List α) → List α
  | [] => []
  | [p] => p
  | p :: q :: ps => p ++ sep :: joinPieces sep (q :: ps)

theorem pieces_ne_nil (sep : α) (l : List α) : pieces sep l ≠ [] := by
  cases l with
  | nil => simp [pieces]
  | cons a as =>
    unfold pieces
    split
    · simp
    · split <;> simp

omit [DecidableEq α] in
theorem joinPieces_cons_head (sep a : α) (p : List α) (ps : List (List α)) :
    joinPieces sep ((a :: p) :: ps) = a :: joinPieces sep (p :: ps) := by
  cases ps <;> simp [joinPieces]

omit [DecidableEq α] in
theorem joinPieces_eq_intercalate (sep : α) (ps : List (List α)) :
    joinPieces sep ps = [sep].intercalate ps := by
  induction ps with
  | nil => rfl
  | cons p ps ih =>
    cases ps with
    | nil => simp [joinPieces]
    | cons q ps => simp [joinPieces, ih, List.intercalate_cons_cons]

theorem joinPieces_pieces (sep : α) (l : List α) : joinPieces sep (pieces sep l) = l := by
  induction l with
  | nil => rfl
  | cons a as ih =>
    unfold pieces
    split
    · rename_i h
      cases hp : pieces sep as with
      | nil => exact absurd hp (pieces_ne_nil sep as)
      | cons p ps => rw [hp] at ih; simp [joinPieces, ih, h]
    · cases hp : pieces sep as with
      | nil => exact absurd hp (pieces_ne_nil sep as)
      | cons p ps => rw [hp] at ih; simp only [joinPieces_cons_head, ih]

theorem not_mem_of_mem_pieces {sep : α} {l p : List α} (h : p ∈ pieces sep l) : sep ∉ p := by
  induction l generalizing p with
  | nil => simp [pieces] at h; simp [h]
  | cons a as ih =>
    unfold pieces at h
    split at h
    · rcases List.mem_cons.mp h with rfl | h
      · simp
      · exact ih h
    · rename_i hne
      cases hp : pieces sep as with
      | nil => exact absurd hp (pieces_ne_nil sep as)
      | cons q qs =>
        rw [hp] at h ih
        rcases List.mem_cons.mp h with rfl | h
        · have := ih (List.mem_cons_self ..)
          simp only [List.mem_cons, not_or]
          exact ⟨fun e => hne e.symm, this⟩
        · exact ih (List.mem_cons_of_mem _ h)

@[simp] theorem pieces_nil (sep : α) : pieces sep [] = [[]] := rfl

@[simp] theorem pieces_cons_self (sep : α) (l : List α) :
    pieces sep (sep :: l) = [] :: pieces sep l := by
  rw [pieces, if_pos rfl]

theorem pieces_cons_of_ne {sep a : α} {l p : List α} {ps : List (List α)} (ha : a ≠ sep)
    (hl : pieces sep l = p :: ps) : pieces sep (a :: l) = (a :: p) :: ps := by
  rw [pieces, if_neg ha, hl]

/-- A separator cuts a list, whatever stands on its two sides. -/
theorem pieces_append_cons (sep : α) (l r : List α) :
    pieces sep (l ++ sep :: r) = pieces sep l ++ pieces sep r := by
  induction l with
  | nil => simp
  | cons a l ih =>
    by_cases ha : a = sep
    · simp [ha, ih]
    · cases hl : pieces sep l with
      | nil => exact absurd hl (pieces_ne_nil sep l)
      | cons p ps =>
        rw [hl] at ih
        rw [List.cons_append, pieces_cons_of_ne ha ih, pieces_cons_of_ne ha hl]
        rfl

theorem pieces_of_notMem {sep : α} {l : List α} (h : sep ∉ l) : pieces sep l = [l] := by
  induction l with
  | nil => rfl
  | cons a l ih =>
    simp only [List.mem_cons, not_or] at h
    exact pieces_cons_of_ne (fun e => h.1 e.symm) (ih h.2)

theorem pieces_joinPieces {sep : α} {ps : List (List α)} (hps : ps ≠ [])
    (h : ∀ p ∈ ps, sep ∉ p) : pieces sep (joinPieces sep ps) = ps := by
  induction ps with
  | nil => exact absurd rfl hps
  | cons p ps ih =>
    have hp : sep ∉ p := h p (by simp)
    cases ps with
    | nil => exact pieces_of_notMem hp
    | cons q ps =>
      rw [joinPieces, pieces_append_cons, pieces_of_notMem hp,
        ih (by simp) fun r hr => h r (by simp [hr])]
      rfl

/-- What has no separator joins the first piece of what stands behind it. -/
theorem pieces_append_of_notMem {sep : α} {l r p : List α} {ps : List (List α)} (hl : sep ∉ l)
    (hr : pieces sep r = p :: ps) : pieces sep (l ++ r) = (l ++ p) :: ps := by
  induction l with
  | nil => exact hr
  | cons a l ih =>
    simp only [List.mem_cons, not_or] at hl
    exact pieces_cons_of_ne (fun e => hl.1 e.symm) (ih hl.2)

/-- What has no separator joins the last piece of what stands before it. -/
theorem pieces_append_of_notMem_right {sep : α} {l r : List α} (hr : sep ∉ r) :
    ∃ ps p, pieces sep l = ps ++ [p] ∧ pieces sep (l ++ r) = ps ++ [p ++ r] := by
  induction l with
  | nil => exact ⟨[], [], rfl, pieces_of_notMem hr⟩
  | cons a l ih =>
    obtain ⟨ps, p, hl, happend⟩ := ih
    by_cases ha : a = sep
    · refine ⟨[] :: ps, p, ?_, ?_⟩
      · rw [ha, pieces_cons_self, hl, List.cons_append]
      · rw [ha, List.cons_append, pieces_cons_self, happend, List.cons_append]
    · cases ps with
      | nil => exact ⟨[], a :: p, pieces_cons_of_ne ha hl, pieces_cons_of_ne ha happend⟩
      | cons q ps =>
        exact ⟨(a :: q) :: ps, p, pieces_cons_of_ne ha hl, pieces_cons_of_ne ha happend⟩

omit [DecidableEq α] in
theorem isSuffix_joinPieces (sep : α) (ps : List (List α)) (p : List α) :
    p <:+ joinPieces sep (ps ++ [p]) := by
  induction ps with
  | nil => exact List.suffix_refl p
  | cons q ps ih =>
    obtain ⟨r, rs, hrs⟩ := List.exists_cons_of_ne_nil (l := ps ++ [p]) (by simp)
    rw [List.cons_append, hrs, joinPieces, ← hrs]
    exact (ih.trans (List.suffix_cons sep _)).trans (List.suffix_append q _)

omit [DecidableEq α] in
theorem mem_joinPieces {sep a : α} {p : List α} {ps : List (List α)} (hp : p ∈ ps) (ha : a ∈ p) :
    a ∈ joinPieces sep ps := by
  induction ps with
  | nil => cases hp
  | cons q ps ih =>
    cases ps with
    | nil =>
      obtain rfl := List.mem_singleton.mp hp
      exact ha
    | cons r ps =>
      rw [joinPieces]
      rcases List.mem_cons.mp hp with rfl | hp
      · exact List.mem_append_left _ ha
      · exact List.mem_append_right _ (List.mem_cons_of_mem _ (ih hp))

omit [DecidableEq α] in
theorem isPrefix_joinPieces (sep : α) {ps qs : List (List α)} (h : ps <+: qs) :
    joinPieces sep ps <+: joinPieces sep qs := by
  induction ps generalizing qs with
  | nil => exact List.nil_prefix
  | cons p ps ih =>
    obtain ⟨t, rfl⟩ := h
    cases ps with
    | nil =>
      cases t with
      | nil => exact List.prefix_refl p
      | cons q t => exact List.prefix_append p _
    | cons q ps =>
      have hrest : joinPieces sep (q :: ps) <+: joinPieces sep (q :: ps ++ t) :=
        ih (List.prefix_append _ t)
      exact (List.prefix_append_right_inj p).mpr (List.cons_prefix_cons.mpr ⟨rfl, hrest⟩)

omit [DecidableEq α] in
theorem forall_mem_intercalate {P : α → Prop} {sep : List α} {ps : List (List α)}
    (hsep : ∀ a ∈ sep, P a) (hps : ∀ p ∈ ps, ∀ a ∈ p, P a) : ∀ a ∈ sep.intercalate ps, P a := by
  induction ps with
  | nil => nofun
  | cons p ps ih =>
    obtain ⟨hp, hps⟩ := List.forall_mem_cons.mp hps
    cases ps with
    | nil => simpa [List.intercalate] using hp
    | cons q ps =>
      rw [List.intercalate_cons_cons]
      exact List.forall_mem_append.mpr ⟨List.forall_mem_append.mpr ⟨hp, hsep⟩, ih hps⟩

end StyleVars
