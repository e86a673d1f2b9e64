import StyleVars.Proofs.Sheet.Link.Pattern

/-!
A text cut at its links. From left to right the longest links are taken out, and what is between
them is kept character by character; there is exactly one way to do so. A text with its links
resolved is what is written for the parts one after the other, so it contains no link, and what
stands on the two sides of a character that ends all links is resolved apart.
-/

namespace StyleVars.Sheet

/-- A part of a text: a character that is kept, or a link. -/
inductive LinkPart where
  | kept (c : Char)
  | link (segments : List Text)
deriving DecidableEq, Repr

/-- What is written for a part. -/
def LinkPart.written : LinkPart → Text
  | kept c => [c]
  | link segments => linkTarget segments

/-- The parts of a text: a character is kept only if no link begins with it, and a link is the
longest that begins where it does. -/
inductive Parted : Text → List LinkPart → Prop where
  | nil : Parted [] []
  | kept {c : Char} {s : Text} {parts : List LinkPart} (h : ∀ segments, ¬ Begins segments (c :: s))
    (rest : Parted s parts) : Parted (c :: s) (.kept c :: parts)
  | link {segments : List Text} {t s : Text} {parts : List LinkPart} (h : Longest segments t)
    (ht : t = linkText segments ++ s) (rest : Parted s parts) : Parted t (.link segments :: parts)

variable {segments : List Text} {s t : Text} {parts : List LinkPart} {c : Char}

/-- The induction is on the length, since behind a link many characters are left at once. -/
theorem exists_parted (s : Text) : ∃ parts, Parted s parts := by
  induction hn : s.length using Nat.strong_induction_on generalizing s with
  | _ n ih =>
    subst hn
    cases s with
    | nil => exact ⟨[], .nil⟩
    | cons c s =>
      cases hlink : linkAt? (c :: s) with
      | none =>
        obtain ⟨parts, hparts⟩ := ih s.length (Nat.lt_succ_self _) s rfl
        exact ⟨.kept c :: parts, .kept (linkAt?_eq_none_iff.mp hlink) hparts⟩
      | some segments =>
        have hlongest := linkAt?_eq_some_iff.mp hlink
        obtain ⟨r, hr⟩ := hlongest.begins.2
        have hlt : r.length < (c :: s).length := by
          obtain ⟨t, ht⟩ := linkText_eq_cons segments
          rw [← hr, ht, List.length_append, List.length_cons]
          omega
        obtain ⟨parts, hparts⟩ := ih r.length hlt r rfl
        exact ⟨.link segments :: parts, .link hlongest hr.symm hparts⟩

/-- **A text has its parts in one way only.** -/
theorem Parted.unique {others : List LinkPart} (h : Parted s parts) (h' : Parted s others) :
    parts = others := by
  induction h generalizing others with
  | nil =>
    cases h' with
    | nil => rfl
    | link h => exact absurd h.begins not_begins_nil
  | kept hno _ ih =>
    cases h' with
    | kept _ rest => rw [ih rest]
    | link h => exact absurd h.begins (hno _)
  | @link segments t s parts h ht _ ih =>
    cases h' with
    | nil => exact absurd h.begins not_begins_nil
    | kept hno => exact absurd h.begins (hno _)
    | @link segments' _ s' _ h₁ ht₁ rest =>
      have hfound := linkAt?_eq_some_iff.mpr h
      rw [linkAt?_eq_some_iff.mpr h₁] at hfound
      obtain rfl := Option.some.inj hfound
      obtain rfl := List.append_cancel_left (ht₁.symm.trans ht)
      rw [ih rest]

lemma Parted.isLink_of_mem (h : Parted s parts) (hmem : .link segments ∈ parts) :
    IsLink segments := by
  induction h with
  | nil => cases hmem
  | kept _ _ ih => exact ih ((List.mem_cons.mp hmem).resolve_left nofun)
  | link h _ _ ih =>
    rcases List.mem_cons.mp hmem with heq | hmem
    · cases heq
      exact h.begins.1
    · exact ih hmem

/-! ### Part by part -/

lemma resolveFrom_append (t s : Text) : resolveFrom t.length (t ++ s) = resolveFrom 0 s := by
  induction t with
  | nil => rfl
  | cons c t ih => rw [List.length_cons, List.cons_append, resolveFrom, ih]

lemma resolveLinks_cons (h : ∀ segments, ¬ Begins segments (c :: s)) :
    resolveLinks (c :: s) = c :: resolveLinks s := by
  rw [resolveLinks, resolveFrom, linkAt?_eq_none_iff.mpr h]
  rfl

lemma resolveLinks_linkText_append (h : Longest segments (linkText segments ++ s)) :
    resolveLinks (linkText segments ++ s) = linkTarget segments ++ resolveLinks s := by
  have hfound := linkAt?_eq_some_iff.mpr h
  obtain ⟨t, ht⟩ := linkText_eq_cons segments
  rw [ht, List.cons_append] at hfound ⊢
  rw [resolveLinks, resolveFrom, hfound]
  simp only [ht, List.length_cons, Nat.add_sub_cancel]
  rw [resolveFrom_append, resolveLinks]

theorem Parted.resolveLinks_eq (h : Parted s parts) :
    resolveLinks s = parts.flatMap LinkPart.written := by
  induction h with
  | nil => rfl
  | kept hno _ ih =>
    rw [resolveLinks_cons hno, ih]
    rfl
  | link h ht _ ih =>
    subst ht
    rw [resolveLinks_linkText_append h, ih]
    rfl

/-! ### Two sides of a separator -/

/-- No link stands across a character that no link contains. -/
lemma Parted.append_cons {others : List LinkPart} (hc : isLinkChar c = false) (hs : Parted s parts)
    (ht : Parted t others) : Parted (s ++ c :: t) (parts ++ .kept c :: others) := by
  induction hs with
  | nil => exact .kept (fun segments => not_begins_cons hc t) ht
  | kept hno _ ih =>
    refine .kept (fun segments h => ?_) ih
    exact hno segments ((begins_append_cons_iff hc t).mp h)
  | link h hs _ ih =>
    refine .link ((longest_append_cons_iff hc t).mpr h) ?_ ih
    rw [hs, List.append_assoc]

lemma resolveLinks_append_cons (hc : isLinkChar c = false) (s t : Text) :
    resolveLinks (s ++ c :: t) = resolveLinks s ++ c :: resolveLinks t := by
  obtain ⟨parts, hs⟩ := exists_parted s
  obtain ⟨others, ht⟩ := exists_parted t
  rw [(hs.append_cons hc ht).resolveLinks_eq, hs.resolveLinks_eq, ht.resolveLinks_eq,
    List.flatMap_append, List.flatMap_cons]
  rfl

/-- **Links on the two sides of a separator are resolved apart**, and the separator is kept, however
many texts with links there are. -/
theorem resolveLinks_between_separators (hc : isLinkChar c = false) :
    (∀ s t, resolveLinks (s ++ c :: t) = resolveLinks s ++ c :: resolveLinks t) ∧
      ∀ texts, resolveLinks (joinPieces c texts) = joinPieces c (texts.map resolveLinks) := by
  refine ⟨resolveLinks_append_cons hc, fun texts => ?_⟩
  induction texts with
  | nil => rfl
  | cons s texts ih =>
    cases texts with
    | nil => rfl
    | cons t texts =>
      rw [joinPieces, resolveLinks_append_cons hc, ih]
      rfl

/-- Bars and colons that belong to no link, on both sides of a parenthesis. -/
theorem resolveLinks_between_parentheses :
    isLinkChar '(' = false ∧
      resolveLinks ("var:a|b|".toList ++ '(' :: "var:var:c|d:".toList) =
        "var(--wp--a--b)|".toList ++ '(' :: "var:var(--wp--c--d):".toList :=
  ⟨rfl, (resolveLinks_between_separators rfl).1 "var:a|b|".toList "var:var:c|d:".toList⟩

/-! ### Custom properties -/

lemma isReserved_of_isSegmentChar (h : isSegmentChar c = true) : isReserved c = false := by
  have hreserved : reserved.all (!isSegmentChar ·) = true := rfl
  by_contra hc
  have hmem : c ∈ reserved := List.contains_iff_mem.mp (eq_true_of_ne_false hc)
  have hno := List.all_eq_true.mp hreserved c hmem
  rw [h] at hno
  cases hno

/-- No custom property contains a reserved character. -/
lemma isReserved_of_mem_linkTarget (h : IsLink segments) (hc : c ∈ linkTarget segments) :
    isReserved c = false := by
  have hopening : ∀ d ∈ "var(--wp--".toList, isReserved d = false := by simp [isReserved, reserved]
  have hhyphens : ∀ d ∈ "--".toList, isReserved d = false := by simp [isReserved, reserved]
  have hclosing : ∀ d ∈ [')'], isReserved d = false := by simp [isReserved, reserved]
  have hsegments : ∀ d ∈ "--".toList.intercalate segments, isReserved d = false :=
    forall_mem_intercalate hhyphens fun p hp d hd => isReserved_of_isSegmentChar ((h.2 p hp).2 d hd)
  exact List.forall_mem_append.mpr
    ⟨List.forall_mem_append.mpr ⟨hopening, hsegments⟩, hclosing⟩ c hc

lemma linkTarget_append (segments : List Text) (r : Text) :
    linkTarget segments ++ r =
      ("var(--wp--".toList ++ "--".toList.intercalate segments) ++ ')' :: r :=
  List.append_assoc _ [')'] r

/-! ### What is left -/

/-- Somewhere in the text stands a link. -/
def HasLink (t : Text) : Prop :=
  ∃ before segments behind, IsLink segments ∧ t = before ++ linkText segments ++ behind

lemma not_hasLink_of_colon_notMem (h : ':' ∉ t) : ¬ HasLink t := by
  rintro ⟨before, segments, behind, -, rfl⟩
  exact h (by simp [linkText])

lemma hasLink_cons_iff : HasLink (c :: t) ↔ (∃ segments, Begins segments (c :: t)) ∨ HasLink t := by
  constructor
  · rintro ⟨before, segments, behind, hlink, h⟩
    cases before with
    | nil => exact .inl ⟨segments, hlink, behind, h.symm⟩
    | cons d before => exact .inr ⟨before, segments, behind, hlink, (List.cons.inj h).2⟩
  · rintro (⟨segments, hlink, behind, h⟩ | ⟨before, segments, behind, hlink, rfl⟩)
    · exact ⟨[], segments, behind, hlink, h.symm⟩
    · exact ⟨c :: before, segments, behind, hlink, rfl⟩

lemma resolveLinks_of_not_hasLink (h : ¬ HasLink t) : resolveLinks t = t := by
  induction t with
  | nil => rfl
  | cons c t ih =>
    obtain ⟨hbegins, ht⟩ := not_or.mp (hasLink_cons_iff.not.mp h)
    rw [resolveLinks_cons (not_exists.mp hbegins), ih ht]

/-- A link is on one side of a character that no link contains. -/
lemma HasLink.of_append_cons (hc : isLinkChar c = false) (h : HasLink (s ++ c :: t)) :
    HasLink s ∨ HasLink t := by
  induction s with
  | nil =>
    rcases hasLink_cons_iff.mp h with ⟨segments, h⟩ | h
    · exact absurd h (not_begins_cons hc t)
    · exact .inr h
  | cons d s ih =>
    rcases hasLink_cons_iff.mp h with ⟨segments, h⟩ | h
    · exact .inl (hasLink_cons_iff.mpr (.inl ⟨segments, (begins_append_cons_iff hc t).mp h⟩))
    · exact (ih h).imp_left fun h => hasLink_cons_iff.mpr (.inr h)

/-- The characters of links at the beginning are the same after the resolution: a custom property
goes on with a parenthesis where its link goes on with a colon. -/
lemma isPrefix_of_isPrefix_resolveLinks (h : Parted s parts) (ht : ∀ c ∈ t, isLinkChar c = true)
    (hbegins : t <+: resolveLinks s) : t <+: s := by
  induction h generalizing t with
  | nil => exact hbegins
  | kept hno _ ih =>
    rw [resolveLinks_cons hno] at hbegins
    cases t with
    | nil => exact List.nil_prefix
    | cons d t =>
      obtain ⟨rfl, hrest⟩ := List.cons_prefix_cons.mp hbegins
      exact List.cons_prefix_cons.mpr ⟨rfl, ih (List.forall_mem_cons.mp ht).2 hrest⟩
  | @link segments _ s _ h hs _ _ =>
    subst hs
    rw [resolveLinks_linkText_append h] at hbegins
    have hopen : '(' ∉ t := fun hmem => absurd (ht _ hmem) (by decide)
    have hmarker : t <+: "var".toList := (isPrefix_append_cons_iff hopen).mp hbegins
    exact hmarker.trans (List.prefix_append "var".toList _)

lemma Parted.not_hasLink (h : Parted s parts) : ¬ HasLink (resolveLinks s) := by
  induction h with
  | nil => exact not_hasLink_of_colon_notMem (t := []) nofun
  | @kept c s _ hno rest ih =>
    rw [resolveLinks_cons hno, hasLink_cons_iff]
    rintro (⟨segments, hlink, hbegins⟩ | hlink)
    · -- A link that begins with the kept character would begin with it in the text as well.
      refine hno segments ⟨hlink, ?_⟩
      obtain ⟨t, ht⟩ := linkText_eq_cons segments
      have hchars : ∀ d ∈ t, isLinkChar d = true := fun d hd =>
        mem_linkText hlink (ht ▸ List.mem_cons_of_mem 'v' hd)
      rw [ht] at hbegins ⊢
      obtain ⟨rfl, hrest⟩ := List.cons_prefix_cons.mp hbegins
      exact List.cons_prefix_cons.mpr ⟨rfl, isPrefix_of_isPrefix_resolveLinks rest hchars hrest⟩
    · exact ih hlink
  | @link segments _ s _ h hs _ ih =>
    subst hs
    rw [resolveLinks_linkText_append h, linkTarget_append]
    intro hlink
    have hclosing : isLinkChar ')' = false := rfl
    rcases hlink.of_append_cons hclosing with hlink | hlink
    · refine not_hasLink_of_colon_notMem (fun hcolon => ?_) hlink
      have hreserved := isReserved_of_mem_linkTarget h.begins.1 (List.mem_append_left [')'] hcolon)
      cases hreserved
    · exact ih hlink

/-- **No link is left and none arises.** So exactly the texts without links stay as they are, and
what has been resolved is one of them. -/
theorem resolveLinks_leaves_no_link (s : Text) :
    ¬ HasLink (resolveLinks s) ∧ (resolveLinks s = s ↔ ¬ HasLink s) ∧
      resolveLinks (resolveLinks s) = resolveLinks s := by
  obtain ⟨parts, h⟩ := exists_parted s
  have hnone := h.not_hasLink
  exact ⟨hnone, ⟨fun heq => heq ▸ hnone, resolveLinks_of_not_hasLink⟩,
    resolveLinks_of_not_hasLink hnone⟩

/-- A link that is cut short by the beginning of another one. -/
example : resolveLinks "var:a|var:b|c".toList = "var(--wp--a--var):b|c".toList := by decide

end StyleVars.Sheet
