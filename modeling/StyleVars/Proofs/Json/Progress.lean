import StyleVars.Proofs.Json.Places

/-!
The reader, called again and again. Its position counts the lines and columns behind it, and each
token has the position of its first character. What it finds stands further and further on until it
finds the end of the text, and then it finds nothing else.
-/

namespace StyleVars.Json

/-- What a call of the reader finds: a token and the place of its first character, or the end of
the text and its place. -/
structure Finding where
  token : Option Token
  pos : Position

/-- What a later call may find: something further on, or the end once more. -/
def Finding.Allows (f g : Finding) : Prop :=
  match f.token with
  | some _ => f.pos.Before g.pos
  | none => g = f

namespace Cursor

/-- A call of the reader. -/
def find (k : Cursor) : Except Error (Finding × Cursor) :=
  k.next.map fun
    | (some l, k') => (⟨some l.token, l.pos⟩, k')
    | (none, k') => (⟨none, k'.pos⟩, k')

/-- Calls one after another find the `fs` and lead from a place to another one. -/
inductive Finds : Cursor → List Finding → Cursor → Prop where
  | nil {k : Cursor} : Finds k [] k
  | cons {k k' k'' : Cursor} {f : Finding} {fs : List Finding} :
      k.find = .ok (f, k') → Finds k' fs k'' → Finds k (f :: fs) k''

variable {j k k' : Cursor} {f g : Finding} {fs gs : List Finding}

lemma Finds.split (h : j.Finds (fs ++ gs) k') : ∃ k, j.Finds fs k ∧ k.Finds gs k' := by
  induction fs generalizing j with
  | nil => exact ⟨j, .nil, h⟩
  | cons f fs ih =>
    cases h with
    | cons hf h =>
      obtain ⟨k, hfs, hgs⟩ := ih h
      exact ⟨k, .cons hf hfs, hgs⟩

/-! ### One call -/

/-- Where a call of the reader at `k` leads to. A token is found behind trivia, at the place of its
first character; the end is found at the end. -/
inductive Comes (k : Cursor) : Finding → Cursor → Prop where
  | token {t : Token} {w u r : Text} :
      Trivia w → Spells u t → k.rest = w ++ (u ++ r) →
      Comes k ⟨some t, k.pos.after w⟩ ⟨(k.pos.after w).after u, r⟩
  | ending : Comes k ⟨none, k.pos.after k.rest⟩ ⟨k.pos.after k.rest, []⟩

/-- **All that a call may come to.** -/
theorem comes_of_find (h : k.find = .ok (f, k')) : k.Comes f k' := by
  obtain ⟨⟨_ | l, i⟩, hn, heq⟩ := map_eq_ok_iff.mp h
  · cases heq
    obtain ⟨hs, hrest⟩ := next_eq_none_iff.mp hn
    obtain ⟨a, hk, hpos⟩ := precedes_skip hs
    obtain ⟨pos, rest⟩ := k'
    obtain rfl : rest = [] := hrest
    obtain rfl : k.rest = a := by simpa using hk
    obtain rfl : pos = k.pos.after k.rest := hpos
    exact .ending
  · cases heq
    obtain ⟨w, u, i', hw, hu, hs, hk, hi, -⟩ := parts_of_next hn
    obtain ⟨c, cs, hs', ht⟩ := next_eq_some_iff.mp hn
    obtain rfl : (⟨l.pos, c :: cs⟩ : Cursor) = i' := by simpa [hs] using hs'.symm
    obtain ⟨w', hk', hpos⟩ := precedes_skip hs
    obtain ⟨u', hi', hpos'⟩ := precedes_tokenAt ht
    -- What is spelled is also what the positions are counted along.
    obtain rfl : w = w' := List.append_cancel_right (hk.symm.trans hk')
    obtain rfl : u = u' := List.append_cancel_right (hi.symm.trans hi')
    obtain ⟨pos, rest⟩ := k'
    obtain rfl : pos = l.pos.after u := hpos'
    rw [show l.pos = k.pos.after w from hpos]
    exact .token hw hu (by rw [hk, hi])

lemma Comes.precedes (h : k.Comes f k') : k.Precedes k' := by
  cases h with
  | @token t w u r hw hu hk => exact ⟨w ++ u, by rw [hk, List.append_assoc], by simp⟩
  | ending => exact ⟨k.rest, by simp, rfl⟩

/-- Nothing is found before the place where the reader is called. -/
lemma Comes.pos_eq (h : k.Comes f k') : ∃ a, f.pos = k.pos.after a := by
  cases h with
  | token => exact ⟨_, rfl⟩
  | ending => exact ⟨_, rfl⟩

/-- At the end there is nothing to find but the end. -/
lemma find_of_rest_eq_nil (h : k.rest = []) : k.find = .ok (⟨none, k.pos⟩, k) := by
  obtain ⟨pos, rest⟩ := k
  obtain rfl : rest = [] := h
  rfl

/-! ### Calls one after another -/

lemma Finds.precedes (h : j.Finds fs k) : j.Precedes k := by
  induction h with
  | nil => exact .refl _
  | cons hf _ ih => exact (comes_of_find hf).precedes.trans ih

lemma Finds.pos_eq (h : j.Finds fs k) (hf : f ∈ fs) : ∃ a, f.pos = j.pos.after a := by
  induction h with
  | nil => cases hf
  | cons hg _ ih =>
    have hcomes := comes_of_find hg
    rcases List.mem_cons.mp hf with rfl | hf
    · exact hcomes.pos_eq
    · obtain ⟨a, ha⟩ := ih hf
      obtain ⟨b, -, hb⟩ := hcomes.precedes
      exact ⟨b ++ a, by rw [ha, hb, Position.after_append]⟩

lemma Finds.of_rest_eq_nil (h : j.Finds fs k) (hj : j.rest = []) :
    k = j ∧ ∀ f ∈ fs, f = ⟨none, j.pos⟩ := by
  induction h with
  | nil => exact ⟨rfl, by simp⟩
  | cons hf _ ih =>
    rw [find_of_rest_eq_nil hj] at hf
    cases hf
    obtain ⟨rfl, hfs⟩ := ih hj
    exact ⟨rfl, List.forall_mem_cons.mpr ⟨rfl, hfs⟩⟩

/-- What is found from the place behind a finding on, that finding allows. -/
lemma Comes.allows (h : j.Comes f k) (hfs : k.Finds fs k') : ∀ g ∈ fs, f.Allows g := by
  intro g hg
  cases h with
  | @token t w u r hw hu hj =>
    obtain ⟨c, x, rfl, -⟩ := hu
    obtain ⟨a, ha⟩ := hfs.pos_eq hg
    rw [← Position.after_append] at ha
    rw [Finding.Allows, ha]
    exact Position.before_after _ c (x ++ a)
  | ending => exact (hfs.of_rest_eq_nil rfl).2 g hg

/-- **Each finding allows all the later ones.** -/
theorem Finds.pairwise (h : j.Finds fs k) : fs.Pairwise Finding.Allows := by
  induction h with
  | nil => exact .nil
  | cons hf hfs ih => exact .cons ((comes_of_find hf).allows hfs) ih

/-- Whoever has found the end stands there. -/
lemma Finds.find_of_end {p : Position} (h : j.Finds fs k) (hp : ⟨none, p⟩ ∈ fs) :
    p = j.pos.after j.rest ∧ k.find = .ok (⟨none, p⟩, k) := by
  obtain ⟨gs, hs, rfl⟩ := List.append_of_mem hp
  obtain ⟨i, hgs, hrest⟩ := h.split
  cases hrest with
  | cons hf hrest =>
    obtain ⟨a, hj, hi⟩ := hgs.precedes
    cases comes_of_find hf with
    | ending =>
      obtain ⟨rfl, -⟩ := hrest.of_rest_eq_nil rfl
      refine ⟨?_, find_of_rest_eq_nil rfl⟩
      rw [hi, hj, Position.after_append]

end Cursor

/-! ### Whole texts -/

/-- What has been read of a text is counted by the position. -/
lemma counted_of_precedes {s : Text} {k : Cursor} (h : (Cursor.ofText s).Precedes k) :
    ∃ a, Scan.dropMark s = a ++ k.rest ∧ k.pos = .behind a := by
  obtain ⟨a, hs, hpos⟩ := h
  exact ⟨a, hs, hpos.trans (Position.start_after a)⟩

variable {s : Text} {fs : List Finding} {k : Cursor}

/-- What holds when the calls from the beginning of the text `s` have found the `fs` and the reader
has come to the place `k`. -/
structure Placed (s : Text) (fs : List Finding) (k : Cursor) : Prop where
  /-- The position counts what has been read. -/
  counted : ∃ a, Scan.dropMark s = a ++ k.rest ∧ k.pos = .behind a
  /-- A token has the position of its first character, behind what the calls before it have read
  and behind trivia. -/
  token : ∀ gs t p hs, fs = gs ++ ⟨some t, p⟩ :: hs →
    ∃ i j a w u, (Cursor.ofText s).Finds gs i ∧ i.find = .ok (⟨some t, p⟩, j) ∧
      Scan.dropMark s = a ++ i.rest ∧ i.rest = w ++ (u ++ j.rest) ∧ Trivia w ∧ Spells u t ∧
      p = .behind (a ++ w)
  /-- Positions increase up to the end of the text, and behind it nothing else is found. -/
  increasing : fs.Pairwise Finding.Allows
  /-- The end is found behind the whole text, and the next call finds it again. -/
  ending : ∀ p, ⟨none, p⟩ ∈ fs → p = .behind (Scan.dropMark s) ∧ k.find = .ok (⟨none, p⟩, k)

lemma token_of_finds {gs hs : List Finding} {t : Token} {p : Position}
    (h : (Cursor.ofText s).Finds (gs ++ ⟨some t, p⟩ :: hs) k) :
    ∃ i j a w u, (Cursor.ofText s).Finds gs i ∧ i.find = .ok (⟨some t, p⟩, j) ∧
      Scan.dropMark s = a ++ i.rest ∧ i.rest = w ++ (u ++ j.rest) ∧ Trivia w ∧ Spells u t ∧
      p = .behind (a ++ w) := by
  obtain ⟨i, hgs, hi⟩ := h.split
  cases hi with
  | cons hf _ =>
    obtain ⟨a, ha, hpos⟩ := hgs.precedes
    cases Cursor.comes_of_find hf with
    | token hw hu hrest =>
      refine ⟨i, _, a, _, _, hgs, hf, ha, hrest, hw, hu, ?_⟩
      rw [hpos, ← Position.after_append]
      exact Position.start_after _

/-- **Any number of calls** keep the count of lines and columns and find one token behind the
other, and the end of the text for ever after. -/
theorem placed_of_finds (h : (Cursor.ofText s).Finds fs k) : Placed s fs k where
  counted := counted_of_precedes h.precedes
  token := by
    rintro gs t p hs rfl
    exact token_of_finds h
  increasing := h.pairwise
  ending := by
    intro p hp
    obtain ⟨rfl, hk⟩ := h.find_of_end hp
    exact ⟨Position.start_after _, hk⟩

/-- A byte order mark, a letter of two bytes, an escape, and both kinds of comments. -/
def fourLines : Text := "\uFEFF[\"é\\n\", // x\n/*\n*/ true \n".toList

/-- What six calls find in `fourLines`; the last two find its end. -/
def fourLinesFindings : List Finding :=
  [⟨some .openBracket, ⟨1, 1⟩⟩, ⟨some (.string ['é', '\n']), ⟨1, 2⟩⟩, ⟨some .comma, ⟨1, 7⟩⟩,
    ⟨some (.bool true), ⟨3, 4⟩⟩, ⟨none, ⟨4, 1⟩⟩, ⟨none, ⟨4, 1⟩⟩]

theorem placed_fourLines :
    (Cursor.ofText fourLines).Finds fourLinesFindings ⟨⟨4, 1⟩, []⟩ ∧
      Placed fourLines fourLinesFindings ⟨⟨4, 1⟩, []⟩ := by
  have h : (Cursor.ofText fourLines).Finds fourLinesFindings ⟨⟨4, 1⟩, []⟩ :=
    .cons rfl (.cons rfl (.cons rfl (.cons rfl (.cons rfl (.cons rfl .nil)))))
  exact ⟨h, placed_of_finds h⟩

end StyleVars.Json
