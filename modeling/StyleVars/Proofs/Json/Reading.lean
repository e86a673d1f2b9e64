import Mathlib.Data.List.Basic
import StyleVars.Json.Token.Scan
import StyleVars.Text.Utf8

/-!
Reading tokens one after another from a place to the end of the text. A scan that comes to the end
holds exactly the tokens that are read in this way.
-/

namespace StyleVars.Json

/-- At the end there is nothing but what is passed over. -/
lemma Cursor.next_eq_none_iff {k k' : Cursor} :
    k.next = .ok (none, k') ↔ skip .blank k.pos k.rest = .ok k' ∧ k'.rest = [] := by
  rw [Cursor.next]
  cases hs : skip .blank k.pos k.rest with
  | error e => simp [bind, Except.bind]
  | ok j =>
    obtain ⟨pos, rest⟩ := j
    cases rest with
    | nil =>
      simp only [bind, Except.bind, pure, Except.pure, Except.ok.injEq, Prod.mk.injEq, true_and]
      constructor
      · rintro rfl
        exact ⟨rfl, rfl⟩
      · exact And.left
    | cons c cs =>
      simp only [bind, Except.bind, Except.ok.injEq]
      constructor
      · intro h
        cases ht : tokenAt pos c cs with
        | error e => simp [ht] at h
        | ok r => simp [ht, pure, Except.pure] at h
      · rintro ⟨rfl, h⟩
        cases h

/-- A token stands where the reader comes to after passing over what is in between. -/
lemma Cursor.next_eq_some_iff {k k' : Cursor} {l : Lexeme} :
    k.next = .ok (some l, k') ↔
      ∃ c cs, skip .blank k.pos k.rest = .ok ⟨l.pos, c :: cs⟩ ∧
        tokenAt l.pos c cs = .ok (l.token, k') := by
  obtain ⟨t, q⟩ := l
  rw [Cursor.next]
  cases hs : skip .blank k.pos k.rest with
  | error e => simp [bind, Except.bind]
  | ok j =>
    obtain ⟨pos, rest⟩ := j
    cases rest with
    | nil => simp [bind, Except.bind, pure, Except.pure]
    | cons c cs =>
      simp only [bind, Except.bind, Except.ok.injEq, Cursor.mk.injEq, List.cons.injEq]
      constructor
      · intro h
        cases ht : tokenAt pos c cs with
        | error e => simp [ht] at h
        | ok r =>
          simp only [ht, pure, Except.pure, Except.ok.injEq, Prod.mk.injEq, Option.some.injEq,
            Lexeme.mk.injEq] at h
          obtain ⟨⟨rfl, rfl⟩, rfl⟩ := h
          exact ⟨c, cs, ⟨rfl, rfl, rfl⟩, ht⟩
      · rintro ⟨c', cs', ⟨rfl, rfl, rfl⟩, ht⟩
        rw [ht]
        rfl

/-- Reading fails in what is to be passed over, or in the token behind it. -/
lemma Cursor.next_eq_error_iff {k : Cursor} {e : Error} :
    k.next = .error e ↔
      skip .blank k.pos k.rest = .error e ∨
        ∃ q c cs, skip .blank k.pos k.rest = .ok ⟨q, c :: cs⟩ ∧ tokenAt q c cs = .error e := by
  rw [Cursor.next]
  cases hs : skip .blank k.pos k.rest with
  | error e' => simp [bind, Except.bind]
  | ok j =>
    obtain ⟨pos, rest⟩ := j
    cases rest with
    | nil => simp [bind, Except.bind, pure, Except.pure]
    | cons c cs =>
      simp only [bind, Except.bind, reduceCtorEq, Except.ok.injEq, Cursor.mk.injEq,
        List.cons.injEq, false_or]
      constructor
      · intro h
        cases ht : tokenAt pos c cs with
        | error e' =>
          obtain rfl : e' = e := by simpa [ht] using h
          exact ⟨pos, c, cs, ⟨rfl, rfl, rfl⟩, ht⟩
        | ok r => simp [ht, pure, Except.pure] at h
      · rintro ⟨_, _, _, ⟨rfl, rfl, rfl⟩, ht⟩
        rw [ht]

/-- Reading the tokens one after another leads from a place to another one. -/
inductive Cursor.Leads : Cursor → List Lexeme → Cursor → Prop where
  | nil {k : Cursor} : Leads k [] k
  | cons {k k' k'' : Cursor} {l : Lexeme} {ls : List Lexeme} :
      k.next = .ok (some l, k') → Leads k' ls k'' → Leads k (l :: ls) k''

lemma Cursor.Leads.split {k k'' : Cursor} {ls ms : List Lexeme} (h : k.Leads (ls ++ ms) k'') :
    ∃ k', k.Leads ls k' ∧ k'.Leads ms k'' := by
  induction ls generalizing k with
  | nil => exact ⟨k, .nil, h⟩
  | cons l ls ih =>
    cases h with
    | cons hn h =>
      obtain ⟨k', hls, hms⟩ := ih h
      exact ⟨k', .cons hn hls, hms⟩

/-- The tokens from a place on, up to the end of the text at `p`. -/
inductive Cursor.Reads : Cursor → List Lexeme → Position → Prop where
  | ending {k k' : Cursor} : k.next = .ok (none, k') → Reads k [] k'.pos
  | token {k k' : Cursor} {l : Lexeme} {ls : List Lexeme} {p : Position} :
      k.next = .ok (some l, k') → Reads k' ls p → Reads k (l :: ls) p

/-- The reader has no choice: the first of the tokens is the next one. -/
lemma Cursor.Reads.of_next {k k' : Cursor} {l : Lexeme} {ls : List Lexeme} {p : Position}
    (h : k.Reads ls p) (hn : k.next = .ok (some l, k')) : ∃ ms, ls = l :: ms ∧ k'.Reads ms p := by
  cases h with
  | ending hn' =>
    rw [hn] at hn'
    cases hn'
  | token hn' hr =>
    rw [hn] at hn'
    cases hn'
    exact ⟨_, rfl, hr⟩

/-- The place where a text begins, behind a byte order mark. -/
def Cursor.ofText (s : Text) : Cursor := ⟨.start, Scan.dropMark s⟩

/-- The tokens of a whole text, which ends at `p`. -/
def Lexes (s : Text) (ls : List Lexeme) (p : Position) : Prop := (Cursor.ofText s).Reads ls p

lemma Scan.go_of_reads {k : Cursor} {ls : List Lexeme} {p : Position} (h : k.Reads ls p)
    (acc : List Lexeme) : Scan.go acc k = ⟨acc.reverse ++ ls, .ok p⟩ := by
  induction h generalizing acc with
  | ending hn =>
    rw [Scan.go]
    split <;> simp_all
  | token hn _ ih =>
    rw [Scan.go]
    split <;> simp_all

lemma Scan.reads_of_go {acc : List Lexeme} {k : Cursor} {p : Position}
    (h : (Scan.go acc k).ending = .ok p) :
    ∃ ls, (Scan.go acc k).lexemes = acc.reverse ++ ls ∧ k.Reads ls p := by
  fun_induction Scan.go acc k with
  | case1 acc k e hn => cases h
  | case2 acc k k' hn =>
    cases h
    exact ⟨[], by simp, .ending hn⟩
  | case3 acc k l k' hn ih =>
    obtain ⟨ls, hls, hr⟩ := ih h
    exact ⟨l :: ls, by simp [hls], .token hn hr⟩

/-- The tokens of a scan lead to the place where it stops. -/
lemma Scan.leads_go (acc : List Lexeme) (k : Cursor) :
    ∃ ls k', (Scan.go acc k).lexemes = acc.reverse ++ ls ∧ k.Leads ls k' ∧
      ((∃ e, (Scan.go acc k).ending = .error e ∧ k'.next = .error e) ∨
        ∃ j, (Scan.go acc k).ending = .ok j.pos ∧ k'.next = .ok (none, j)) := by
  fun_induction Scan.go acc k with
  | case1 acc k e hn => exact ⟨[], k, by simp, .nil, .inl ⟨e, rfl, hn⟩⟩
  | case2 acc k j hn => exact ⟨[], k, by simp, .nil, .inr ⟨j, rfl, hn⟩⟩
  | case3 acc k l k' hn ih =>
    obtain ⟨ls, k'', hls, hleads, hend⟩ := ih
    exact ⟨l :: ls, k'', by simp [hls], .cons hn hleads, hend⟩

lemma Scan.leads_ofText (s : Text) :
    ∃ k, (Cursor.ofText s).Leads (Scan.ofText s).lexemes k ∧
      ((∃ e, (Scan.ofText s).ending = .error e ∧ k.next = .error e) ∨
        ∃ j, (Scan.ofText s).ending = .ok j.pos ∧ k.next = .ok (none, j)) := by
  obtain ⟨ls, k, hls, hleads, hend⟩ := Scan.leads_go [] (Cursor.ofText s)
  obtain rfl : (Scan.ofText s).lexemes = ls := hls
  exact ⟨k, hleads, hend⟩

lemma Scan.go_of_leads {k k' : Cursor} {ls : List Lexeme} {e : Error} (h : k.Leads ls k')
    (hn : k'.next = .error e) (acc : List Lexeme) :
    Scan.go acc k = ⟨acc.reverse ++ ls, .error e⟩ := by
  induction h generalizing acc with
  | nil =>
    rw [Scan.go]
    split <;> simp_all
  | cons hn' _ ih =>
    rw [Scan.go]
    split <;> simp_all

/-- **A scan comes to its end with the tokens that are read one after another.** -/
theorem Scan.ofText_eq_iff {s : Text} {ls : List Lexeme} {p : Position} :
    Scan.ofText s = ⟨ls, .ok p⟩ ↔ Lexes s ls p := by
  refine ⟨fun h => ?_, fun h => Scan.go_of_reads h []⟩
  have hgo : Scan.go [] (Cursor.ofText s) = ⟨ls, .ok p⟩ := h
  obtain ⟨ls', hls, hr⟩ := Scan.reads_of_go (congrArg Scan.ending hgo)
  have hls' : ls = ls' := by simpa [hgo] using hls
  exact hls' ▸ hr

/-! ### The size of a text -/

lemma foldl_utf8Size (n : Nat) (s : Text) :
    s.foldl (fun n c => n + c.utf8Size) n = n + (Utf8.encode s).length := by
  induction s generalizing n with
  | nil => rfl
  | cons c s ih =>
    rw [List.foldl_cons, ih]
    simp [Utf8.encode]
    omega

lemma utf8Size_eq (s : Text) : utf8Size s = (Utf8.encode s).length := by
  rw [utf8Size, foldl_utf8Size, Nat.zero_add]

lemma scan_eq_error_iff {limits : Limits} {s : Text} {e : Error} :
    scan limits s = .error e ↔
      limits.maxInputSize < (Utf8.encode s).length ∧
        e = .inputTooLarge (Utf8.encode s).length limits.maxInputSize := by
  rw [scan, utf8Size_eq]
  split
  · next hlt => simp [hlt, eq_comm]
  · next hle => simp [hle]

lemma eq_ofText_of_scan {limits : Limits} {s : Text} {tokens : Scan}
    (h : scan limits s = .ok tokens) : tokens = Scan.ofText s := by
  rw [scan] at h
  split at h
  · cases h
  · cases h
    rfl

end StyleVars.Json
