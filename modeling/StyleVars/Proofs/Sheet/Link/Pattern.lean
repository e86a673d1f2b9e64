import Mathlib.Data.List.TakeWhile
import StyleVars.Proofs.Sheet.Link

/-!
What a link is, apart from the way it is looked for: the marker, and two or more segments with bars
between them. The search finds a link at the beginning of a text if there is one, and of all that
begin there it finds the longest.
-/

namespace StyleVars.Sheet

/-- A row of one or more segment characters. -/
def IsSegment (p : Text) : Prop := p ≠ [] ∧ ∀ c ∈ p, isSegmentChar c = true

/-- The segments of a link. -/
def IsLink (segments : List Text) : Prop := 2 ≤ segments.length ∧ ∀ p ∈ segments, IsSegment p

instance (p : Text) : Decidable (IsSegment p) :=
  decidable_of_iff (p ≠ [] ∧ p.all isSegmentChar = true) (and_congr_right' List.all_eq_true)

instance (segments : List Text) : Decidable (IsLink segments) :=
  decidable_of_iff (2 ≤ segments.length ∧ segments.all (IsSegment ·) = true)
    (and_congr_right' (by simp))

/-- The text begins with a link. -/
def Begins (segments : List Text) (s : Text) : Prop := IsLink segments ∧ linkText segments <+: s

/-- The longest link with which the text begins. -/
structure Longest (segments : List Text) (s : Text) : Prop where
  begins : Begins segments s
  length_le : ∀ others, Begins others s → (linkText others).length ≤ (linkText segments).length

/-- The characters of links. -/
def isLinkChar (c : Char) : Bool := isSegmentChar c || c == ':' || c == '|'

variable {segments : List Text} {s p : Text} {c : Char}

/-! ### Characters of a link -/

lemma IsSegment.bar_notMem (hp : IsSegment p) : '|' ∉ p := fun h =>
  absurd (hp.2 _ h) (by decide)

lemma mem_linkText (h : IsLink segments) (hc : c ∈ linkText segments) : isLinkChar c = true := by
  have hmarker : ∀ d ∈ "var:".toList, isLinkChar d = true := List.all_eq_true.mp rfl
  have hsegments : ∀ d ∈ joinPieces '|' segments, isLinkChar d = true := by
    rw [joinPieces_eq_intercalate]
    refine forall_mem_intercalate (List.forall_mem_singleton.mpr rfl) fun p hp d hd => ?_
    rw [isLinkChar, (h.2 p hp).2 d hd]
    rfl
  exact List.forall_mem_append.mpr ⟨hmarker, hsegments⟩ c hc

lemma linkText_eq_cons (segments : List Text) : ∃ t, linkText segments = 'v' :: t := ⟨_, rfl⟩

lemma linkText_inj {others : List Text} (h : IsLink segments) (h' : IsLink others)
    (heq : linkText segments = linkText others) : segments = others := by
  have hcut {ps : List Text} (hps : IsLink ps) : pieces '|' (joinPieces '|' ps) = ps := by
    have hne : ps ≠ [] := by
      rintro rfl
      exact absurd hps.1 (by decide)
    exact pieces_joinPieces hne fun p hp => (hps.2 p hp).bar_notMem
  rw [← hcut h, ← hcut h', List.append_cancel_left heq]

/-! ### The segments that are found -/

/-- The segment characters and bars at the beginning of a text. -/
def segmentRun (s : Text) : Text := s.takeWhile fun c => isSegmentChar c || c == '|'

lemma segmentsAt_eq (s : Text) :
    segmentsAt s = (pieces '|' (segmentRun s)).takeWhile fun p => !p.isEmpty := rfl

lemma mem_segmentsAt (hp : p ∈ segmentsAt s) : IsSegment p := by
  rw [segmentsAt_eq] at hp
  have hne := List.mem_takeWhile_imp (p := fun q : Text => !q.isEmpty) hp
  have hpiece := (List.takeWhile_prefix _).subset hp
  refine ⟨by simpa using hne, fun c hc => ?_⟩
  have hrun : c ∈ segmentRun s := by
    rw [← joinPieces_pieces '|' (segmentRun s)]
    exact mem_joinPieces hpiece hc
  have hbar : c ≠ '|' := fun h => not_mem_of_mem_pieces hpiece (h ▸ hc)
  simpa [hbar] using List.mem_takeWhile_imp hrun

/-- They stand at the beginning of the text. -/
lemma joinPieces_segmentsAt (s : Text) : joinPieces '|' (segmentsAt s) <+: s := by
  have hrun : joinPieces '|' (segmentsAt s) <+: segmentRun s := by
    have h := isPrefix_joinPieces '|'
      (List.takeWhile_prefix (l := pieces '|' (segmentRun s)) fun p => !p.isEmpty)
    rwa [joinPieces_pieces, ← segmentsAt_eq] at h
  exact hrun.trans (List.takeWhile_prefix _)

lemma segmentRun_append (hp : IsSegment p) (r : Text) :
    segmentRun (p ++ r) = p ++ segmentRun r :=
  List.takeWhile_append_of_pos fun c hc => by simp [hp.2 c hc]

lemma segmentRun_bar (r : Text) : segmentRun ('|' :: r) = '|' :: segmentRun r :=
  List.takeWhile_cons_of_pos rfl

lemma takeWhile_nonempty_cons (hp : p ≠ []) (ps : List Text) :
    (p :: ps).takeWhile (fun q => !q.isEmpty) = p :: ps.takeWhile fun q => !q.isEmpty :=
  List.takeWhile_cons_of_pos (p := fun q : Text => !q.isEmpty) (by simpa using hp)

lemma segmentsAt_bar (hp : IsSegment p) (r : Text) :
    segmentsAt (p ++ '|' :: r) = p :: segmentsAt r := by
  rw [segmentsAt_eq, segmentRun_append hp, segmentRun_bar, pieces_append_cons,
    pieces_of_notMem hp.bar_notMem, List.singleton_append, takeWhile_nonempty_cons hp.1,
    segmentsAt_eq]

/-- A segment at the beginning may go on behind its end. -/
lemma segmentsAt_segment (hp : IsSegment p) (r : Text) :
    ∃ q qs, segmentsAt (p ++ r) = (p ++ q) :: qs := by
  obtain ⟨q, qs, hr⟩ := List.exists_cons_of_ne_nil (pieces_ne_nil '|' (segmentRun r))
  have hne : p ++ q ≠ [] := List.append_ne_nil_of_left_ne_nil hp.1 q
  rw [segmentsAt_eq, segmentRun_append hp, pieces_append_of_notMem hp.bar_notMem hr,
    takeWhile_nonempty_cons hne]
  exact ⟨q, _, rfl⟩

/-- Whatever segments stand at the beginning, at least these are found. -/
lemma segmentsAt_joinPieces (hs : ∀ p ∈ segments, IsSegment p) (r : Text) :
    joinPieces '|' segments <+: joinPieces '|' (segmentsAt (joinPieces '|' segments ++ r)) ∧
      segments.length ≤ (segmentsAt (joinPieces '|' segments ++ r)).length := by
  induction segments with
  | nil => exact ⟨List.nil_prefix, Nat.zero_le _⟩
  | cons p ps ih =>
    obtain ⟨hp, hps⟩ := List.forall_mem_cons.mp hs
    cases ps with
    | nil =>
      -- The last segment is found together with what continues it in the text.
      obtain ⟨q, qs, h⟩ := segmentsAt_segment hp r
      rw [joinPieces, h]
      refine ⟨?_, Nat.succ_le_succ (Nat.zero_le _)⟩
      exact (List.prefix_append p q).trans
        (isPrefix_joinPieces '|' (List.prefix_append [p ++ q] qs))
    | cons q ps =>
      obtain ⟨hjoined, hlength⟩ := ih hps
      rw [joinPieces, List.append_assoc, List.cons_append, segmentsAt_bar hp]
      refine ⟨?_, Nat.succ_le_succ hlength⟩
      obtain ⟨q', qs', hfound⟩ := List.exists_cons_of_length_pos
        (lt_of_lt_of_le (Nat.succ_pos _) hlength)
      rw [hfound] at hjoined ⊢
      exact (List.prefix_append_right_inj p).mpr (List.cons_prefix_cons.mpr ⟨rfl, hjoined⟩)

/-! ### The link that is found -/

lemma linkAt?_marker (s : Text) :
    linkAt? ("var:".toList ++ s) =
      if 2 ≤ (segmentsAt s).length then some (segmentsAt s) else none := rfl

lemma Begins.exists_linkAt? (h : Begins segments s) :
    ∃ found, linkAt? s = some found ∧ linkText segments <+: linkText found := by
  obtain ⟨hlink, r, rfl⟩ := h
  obtain ⟨hjoined, hlength⟩ := segmentsAt_joinPieces hlink.2 r
  rw [linkText, List.append_assoc, linkAt?_marker, if_pos (hlink.1.trans hlength)]
  exact ⟨_, rfl, (List.prefix_append_right_inj _).mpr hjoined⟩

lemma begins_of_linkAt? (h : linkAt? s = some segments) : Begins segments s := by
  unfold linkAt? at h
  split at h
  · next cs =>
    split at h
    · next hlength =>
      cases h
      have hjoined := (List.prefix_append_right_inj "var:".toList).mpr (joinPieces_segmentsAt cs)
      exact ⟨⟨hlength, fun p hp => mem_segmentsAt hp⟩, hjoined⟩
    · cases h
  · cases h

theorem linkAt?_eq_none_iff : linkAt? s = none ↔ ∀ segments, ¬ Begins segments s := by
  constructor
  · intro h segments hbegins
    obtain ⟨found, hfound, -⟩ := hbegins.exists_linkAt?
    rw [h] at hfound
    cases hfound
  · intro h
    cases hs : linkAt? s with
    | none => rfl
    | some segments => exact absurd (begins_of_linkAt? hs) (h segments)

/-- **The search finds the longest link** with which a text begins. -/
theorem linkAt?_eq_some_iff : linkAt? s = some segments ↔ Longest segments s := by
  constructor
  · intro h
    refine ⟨begins_of_linkAt? h, fun others hothers => ?_⟩
    obtain ⟨found, hfound, hjoined⟩ := hothers.exists_linkAt?
    obtain rfl := Option.some.inj (hfound.symm.trans h)
    exact hjoined.length_le
  · rintro ⟨hbegins, hle⟩
    obtain ⟨found, hfound, hjoined⟩ := hbegins.exists_linkAt?
    have hbegins' := begins_of_linkAt? hfound
    have htext := hjoined.eq_of_length_le (hle found hbegins')
    rw [hfound, linkText_inj hbegins.1 hbegins'.1 htext]

/-! ### Characters that end a link -/

/-- A character that no link contains ends whatever stands before it. -/
lemma isPrefix_append_cons_iff {t r : Text} (hc : c ∉ t) : t <+: s ++ c :: r ↔ t <+: s := by
  constructor
  · intro h
    induction t generalizing s with
    | nil => exact List.nil_prefix
    | cons d t ih =>
      obtain ⟨hd, ht⟩ := not_or.mp (List.mem_cons.not.mp hc)
      cases s with
      | nil => exact absurd (List.cons_prefix_cons.mp h).1.symm hd
      | cons e s =>
        obtain ⟨rfl, hrest⟩ := List.cons_prefix_cons.mp h
        exact List.cons_prefix_cons.mpr ⟨rfl, ih ht hrest⟩
  · exact fun h => h.trans (List.prefix_append s _)

lemma begins_append_cons_iff (hc : isLinkChar c = false) (r : Text) :
    Begins segments (s ++ c :: r) ↔ Begins segments s := by
  refine and_congr_right fun h => isPrefix_append_cons_iff fun hmem => ?_
  rw [mem_linkText h hmem] at hc
  cases hc

lemma not_begins_nil : ¬ Begins segments [] := by
  rintro ⟨-, h⟩
  cases List.prefix_nil.mp h

lemma not_begins_cons (hc : isLinkChar c = false) (r : Text) : ¬ Begins segments (c :: r) :=
  fun h => not_begins_nil ((begins_append_cons_iff (s := []) hc r).mp h)

lemma longest_append_cons_iff (hc : isLinkChar c = false) (r : Text) :
    Longest segments (s ++ c :: r) ↔ Longest segments s := by
  constructor
  · rintro ⟨hbegins, hle⟩
    exact ⟨(begins_append_cons_iff hc r).mp hbegins, fun others hothers =>
      hle others ((begins_append_cons_iff hc r).mpr hothers)⟩
  · rintro ⟨hbegins, hle⟩
    exact ⟨(begins_append_cons_iff hc r).mpr hbegins, fun others hothers =>
      hle others ((begins_append_cons_iff hc r).mp hothers)⟩

end StyleVars.Sheet
