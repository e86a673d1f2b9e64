import StyleVars.Proofs.Sheet.Link.Parts
import StyleVars.Proofs.Sheet.Quoted

/-!
Quotes around strings with links. The decision is made on the string with its links resolved, and no
custom property contains a reserved character. So a string is in quotes if it is empty or has a
reserved character outside of its links; those inside, which every link has, do not count.
-/

namespace StyleVars.Sheet

/-- A reserved character is outside of the links. -/
def ReservedOutside (parts : List LinkPart) : Prop := ∃ c, .kept c ∈ parts ∧ isReserved c = true

/-- A text that keeps links apart and needs no quotes. White space does so. -/
def IsGap (w : Text) : Prop := w ≠ [] ∧ ∀ c ∈ w, isSegmentChar c = false ∧ isReserved c = false

/-- Links one after the other with texts between them, where `f` says how a link is written. -/
def spaced (f : List Text → Text) : List Text → List (Text × List Text) → Text
  | first, [] => f first
  | first, (w, next) :: more => f first ++ w ++ spaced f next more

variable {segments first : List Text} {more : List (Text × List Text)} {s w : Text}
  {parts : List LinkPart} {c : Char}

/-! ### Reserved characters -/

/-- The reserved characters that are written are those outside of the links. -/
lemma Parted.exists_isReserved_iff (h : Parted s parts) :
    (∃ c ∈ resolveLinks s, isReserved c = true) ↔ ReservedOutside parts := by
  rw [h.resolveLinks_eq]
  constructor
  · rintro ⟨c, hc, hreserved⟩
    obtain ⟨part, hpart, hc⟩ := List.mem_flatMap.mp hc
    cases part with
    | kept d =>
      obtain rfl := List.mem_singleton.mp hc
      exact ⟨c, hpart, hreserved⟩
    | link segments =>
      rw [isReserved_of_mem_linkTarget (h.isLink_of_mem hpart) hc] at hreserved
      cases hreserved
  · rintro ⟨c, hpart, hreserved⟩
    exact ⟨c, List.mem_flatMap.mpr ⟨.kept c, hpart, List.mem_singleton_self c⟩, hreserved⟩

lemma resolveLinks_eq_nil_iff : resolveLinks s = [] ↔ s = [] := by
  rw [← List.head?_eq_none_iff, ← List.head?_eq_none_iff, resolveLinks, head?_resolveFrom]

lemma Parted.needsQuotes_resolveLinks (h : Parted s parts) :
    needsQuotes (resolveLinks s) = true ↔ s = [] ∨ ReservedOutside parts := by
  rw [needsQuotes_iff, resolveLinks_eq_nil_iff, h.exists_isReserved_iff]

/-! ### Links with gaps between them -/

lemma isGap_of_isWhitespace (hne : w ≠ []) (h : ∀ c ∈ w, c.isWhitespace = true) : IsGap w := by
  refine ⟨hne, fun c hc => ?_⟩
  have hcases := h c hc
  simp only [Char.isWhitespace, Bool.or_eq_true, decide_eq_true_eq] at hcases
  rcases hcases with ((rfl | rfl) | rfl) | rfl <;> exact ⟨rfl, rfl⟩

lemma isLinkChar_of_not_reserved (hsegment : isSegmentChar c = false)
    (hreserved : isReserved c = false) : isLinkChar c = false := by
  have hcolon : c ≠ ':' := by
    rintro rfl
    cases hreserved
  have hbar : c ≠ '|' := by
    rintro rfl
    cases hreserved
  simp [isLinkChar, hsegment, hcolon, hbar]

/-- What has no character of a link is kept in front of any text. -/
lemma resolveLinks_gap_append (hw : ∀ c ∈ w, isLinkChar c = false) (s : Text) :
    resolveLinks (w ++ s) = w ++ resolveLinks s := by
  induction w with
  | nil => rfl
  | cons c w ih =>
    obtain ⟨hc, hw⟩ := List.forall_mem_cons.mp hw
    rw [List.cons_append, resolveLinks_cons fun _ => not_begins_cons hc _, ih hw, List.cons_append]

lemma resolveLinks_linkText (h : IsLink segments) :
    resolveLinks (linkText segments) = linkTarget segments := by
  have hlongest : Longest segments (linkText segments ++ []) := by
    rw [List.append_nil]
    exact ⟨⟨h, List.prefix_refl _⟩, fun others hothers => hothers.2.length_le⟩
  have hresolved := resolveLinks_linkText_append hlongest
  rwa [List.append_nil, resolveLinks_eq_nil_iff.mpr rfl, List.append_nil] at hresolved

lemma resolveLinks_spaced (hfirst : IsLink first) (hmore : ∀ e ∈ more, IsGap e.1 ∧ IsLink e.2) :
    resolveLinks (spaced linkText first more) = spaced linkTarget first more := by
  induction more generalizing first with
  | nil => exact resolveLinks_linkText hfirst
  | cons e more ih =>
    obtain ⟨w, next⟩ := e
    obtain ⟨⟨⟨hne, hw⟩, hnext⟩, hrest⟩ := List.forall_mem_cons.mp hmore
    have hends : ∀ c ∈ w, isLinkChar c = false := fun c hc =>
      isLinkChar_of_not_reserved (hw c hc).1 (hw c hc).2
    obtain ⟨c, w, rfl⟩ := List.exists_cons_of_ne_nil hne
    obtain ⟨hc, hends⟩ := List.forall_mem_cons.mp hends
    rw [spaced, spaced, List.append_assoc, List.cons_append, resolveLinks_append_cons hc,
      resolveLinks_linkText hfirst, resolveLinks_gap_append hends, ih hnext hrest,
      List.append_assoc, List.cons_append]

lemma isReserved_of_mem_spaced (hfirst : IsLink first)
    (hmore : ∀ e ∈ more, IsGap e.1 ∧ IsLink e.2) :
    ∀ c ∈ spaced linkTarget first more, isReserved c = false := by
  induction more generalizing first with
  | nil => exact fun c hc => isReserved_of_mem_linkTarget hfirst hc
  | cons e more ih =>
    obtain ⟨⟨⟨-, hw⟩, hnext⟩, hrest⟩ := List.forall_mem_cons.mp hmore
    refine List.forall_mem_append.mpr ⟨List.forall_mem_append.mpr ⟨?_, ?_⟩, ih hnext hrest⟩
    · exact fun c hc => isReserved_of_mem_linkTarget hfirst hc
    · exact fun c hc => (hw c hc).2

lemma not_needsQuotes_spaced (hfirst : IsLink first)
    (hmore : ∀ e ∈ more, IsGap e.1 ∧ IsLink e.2) :
    ¬ needsQuotes (spaced linkTarget first more) = true := by
  rw [needsQuotes_iff, not_or]
  constructor
  · cases more <;> exact List.cons_ne_nil _ _
  · rintro ⟨c, hc, hreserved⟩
    rw [isReserved_of_mem_spaced hfirst hmore c hc] at hreserved
    cases hreserved

/-! ### Strings -/

/-- **A string with links is in quotes exactly if it is empty or has a reserved character outside of
its links**, and otherwise it is written as it is. A link alone, and links with white space between
them, are written without quotes. -/
theorem quoted_iff_reservedOutside {o : Settings} (ho : o.resolveLinks = true) (depth : Nat)
    (path : List Text) :
    (∀ s, ∃! parts, Parted s parts) ∧
      (∀ s parts, Parted s parts → resolveLinks s = parts.flatMap LinkPart.written ∧
        (expressionAt o depth path (.string s) = .ok (quote '\'' (resolveLinks s)) ↔
          s = [] ∨ ReservedOutside parts) ∧
        (expressionAt o depth path (.string s) = .ok (resolveLinks s) ↔
          ¬ (s = [] ∨ ReservedOutside parts))) ∧
      (∀ segments, IsLink segments →
        expressionAt o depth path (.string (linkText segments)) = .ok (linkTarget segments)) ∧
      ∀ first more, IsLink first → (∀ e ∈ more, IsGap e.1 ∧ IsLink e.2) →
        expressionAt o depth path (.string (spaced linkText first more)) =
          .ok (spaced linkTarget first more) := by
  have hexpression (s : Text) :
      expressionAt o depth path (.string s) = .ok (quoteIfNeeded (resolveLinks s)) := by
    rw [expressionAt, stringExpression_eq, linked, if_pos ho]
  have hspaced {first : List Text} {more : List (Text × List Text)} (hfirst : IsLink first)
      (hmore : ∀ e ∈ more, IsGap e.1 ∧ IsLink e.2) :
      expressionAt o depth path (.string (spaced linkText first more)) =
        .ok (spaced linkTarget first more) := by
    rw [hexpression, resolveLinks_spaced hfirst hmore,
      quoteIfNeeded_eq_self_iff.mpr (not_needsQuotes_spaced hfirst hmore)]
  refine ⟨fun s => ?_, fun s parts h => ⟨h.resolveLinks_eq, ?_, ?_⟩,
    fun segments hlink => @hspaced segments [] hlink (List.forall_mem_nil _),
    fun first more hfirst hmore => hspaced hfirst hmore⟩
  · obtain ⟨parts, h⟩ := exists_parted s
    exact ⟨parts, h, fun others hothers => hothers.unique h⟩
  · rw [hexpression, Except.ok.injEq, quoteIfNeeded_eq_quote_iff, h.needsQuotes_resolveLinks]
  · rw [hexpression, Except.ok.injEq, quoteIfNeeded_eq_self_iff, h.needsQuotes_resolveLinks]

/-- A bar behind a link, and two links with white space between them. -/
theorem quoted_danglingBar :
    ({ resolveLinks := true } : Settings).resolveLinks = true ∧
      Parted "var:a|b|".toList [.link [['a'], ['b']], .kept '|'] ∧
      expression { resolveLinks := true } (.string "var:a|b|".toList) =
        .ok "'var(--wp--a--b)|'".toList ∧
      IsGap " \n".toList ∧
      expression { resolveLinks := true } (.string "var:a|b \nvar:c-d|e|f".toList) =
        .ok "var(--wp--a--b) \nvar(--wp--c-d--e--f)".toList := by
  have hfirst : IsLink [['a'], ['b']] := by decide
  have hsecond : IsLink ["c-d".toList, ['e'], ['f']] := by decide
  have hgap : IsGap " \n".toList := isGap_of_isWhitespace nofun (List.all_eq_true.mp rfl)
  have hlongest : Longest [['a'], ['b']] "var:a|b|".toList := linkAt?_eq_some_iff.mp (by decide)
  have hbar : ∀ segments, ¬ Begins segments ['|'] := linkAt?_eq_none_iff.mp rfl
  have hparts : Parted "var:a|b|".toList [.link [['a'], ['b']], .kept '|'] :=
    .link hlongest rfl (.kept hbar .nil)
  have hquotes := quoted_iff_reservedOutside (o := { resolveLinks := true }) rfl 0 []
  have hmore : ∀ e ∈ [(" \n".toList, ["c-d".toList, ['e'], ['f']])], IsGap e.1 ∧ IsLink e.2 :=
    List.forall_mem_singleton.mpr ⟨hgap, hsecond⟩
  exact ⟨rfl, hparts, (hquotes.2.1 _ _ hparts).2.1.mpr (.inr ⟨'|', by decide, rfl⟩), hgap,
    hquotes.2.2.2 _ _ hfirst hmore⟩

end StyleVars.Sheet
