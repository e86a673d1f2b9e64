import StyleVars.Proofs.Json.Places
import StyleVars.Proofs.Json.Stopping

/-!
What an error says of the text. Each error has a position in the text, and there stands what the
error names: a character, a token, the beginning of a comment, of a string or of a number, or a
bracket too many.
-/

namespace StyleVars.Json

variable {limits : Limits} {s : Text} {e : Error} {ls : List Lexeme} {j k : Cursor}

/-! ### Places between tokens -/

lemma Cursor.Leads.precedes (h : j.Leads ls k) : j.Precedes k := by
  induction h with
  | nil => exact .refl _
  | cons hn _ ih =>
    obtain ⟨c, cs, hs, ht⟩ := Cursor.next_eq_some_iff.mp hn
    exact ((precedes_skip hs).trans (precedes_tokenAt ht)).trans ih

/-- Behind the tokens `ls` of the text `s`, and what is passed over, the next token would begin at
the place `j`. -/
def Awaits (s : Text) (ls : List Lexeme) (j : Cursor) : Prop :=
  ∃ k, (Cursor.ofText s).Leads ls k ∧ skip .blank k.pos k.rest = .ok j

lemma Awaits.precedes (h : Awaits s ls j) : (Cursor.ofText s).Precedes j := by
  obtain ⟨k, hk, hs⟩ := h
  exact hk.precedes.trans (precedes_skip hs)

/-- The token `l` stands in the text `s` at its position, behind the tokens `ls`. -/
def Lexeme.StandsIn (l : Lexeme) (s : Text) (ls : List Lexeme) : Prop :=
  ∃ c cs k, Awaits s ls ⟨l.pos, c :: cs⟩ ∧
    l.pos.textIn? (Scan.dropMark s) = some (c :: cs) ∧ tokenAt l.pos c cs = .ok (l.token, k)

lemma standsIn_of_leads {l : Lexeme} {ms : List Lexeme}
    (h : (Cursor.ofText s).Leads (ls ++ l :: ms) k) : l.StandsIn s ls := by
  obtain ⟨k', hls, hl⟩ := h.split
  cases hl with
  | cons hn _ =>
    obtain ⟨c, cs, hs, ht⟩ := Cursor.next_eq_some_iff.mp hn
    have hawaits : Awaits s ls ⟨l.pos, c :: cs⟩ := ⟨k', hls, hs⟩
    exact ⟨c, cs, _, hawaits, Cursor.precedes_iff.mp hawaits.precedes, ht⟩

/-- The characters `x` are the beginning of a token, or of what should be one, at `pos` in the text
`s`. -/
def Begins (s : Text) (pos : Position) (x : Text) : Prop :=
  pos.Shows (Scan.dropMark s) x ∧ ∃ ls r, Awaits s ls ⟨pos, x ++ r⟩

/-- The position `pos` is inside of a string of the text `s`: behind its opening quote and
well-formed parts. -/
def InString (s : Text) (pos : Position) : Prop :=
  ∃ ls q u t r, Awaits s ls ⟨q, '"' :: u ++ r⟩ ∧ Spelled u t ∧ pos = q.after ('"' :: u)

/-! ### What an error is about -/

/-- What the error says is so in the text `s`. -/
def Error.IsAbout (limits : Limits) (s : Text) : Error → Prop
  | unexpectedCharacter found pos => pos.Shows (Scan.dropMark s) [found]
  | unexpectedToken found _ pos => ∃ ls, Lexeme.StandsIn ⟨found, pos⟩ s ls
  | unexpectedEnd (.word w) pos =>
    ∃ u, pos.textIn? (Scan.dropMark s) = some u ∧ CutOff w u
  | unexpectedEnd _ pos => pos.textIn? (Scan.dropMark s) = some []
  | unterminatedString pos => Begins s pos ['"']
  | unterminatedComment pos => pos.Shows (Scan.dropMark s) ['/', '*']
  | controlCharacter found pos =>
    found.toNat < 0x20 ∧ pos.Shows (Scan.dropMark s) [found] ∧ InString s pos
  | invalidEscape pos => pos.Shows (Scan.dropMark s) ['\\'] ∧ InString s pos
  | invalidNumber literal pos => Begins s pos literal
  | trailingContent pos =>
    ∃ ls t v, Lexeme.StandsIn ⟨t, pos⟩ s ls ∧
      Derives limits.maxNestingDepth (.value v) (ls.map Lexeme.token)
  | inputTooLarge size limit =>
    size = (Utf8.encode s).length ∧ limit = limits.maxInputSize ∧ limit < size
  | nestingTooDeep depth limit pos =>
    limit = limits.maxNestingDepth ∧ depth = limit + 1 ∧
      ∃ ls t, Lexeme.StandsIn ⟨t, pos⟩ s ls ∧ (t = .openBracket ∨ t = .openBrace) ∧
        openCount (ls.map Lexeme.token ++ [t]) = limit + 1

lemma shows_of_precedes {pos : Position} {x r : Text}
    (h : (Cursor.ofText s).Precedes ⟨pos, x ++ r⟩) : pos.Shows (Scan.dropMark s) x :=
  ⟨r, Cursor.precedes_iff.mp h⟩

lemma Awaits.begins {pos : Position} {x r : Text} (h : Awaits s ls ⟨pos, x ++ r⟩) :
    Begins s pos x :=
  ⟨shows_of_precedes h.precedes, ls, r, h⟩

/-! ### Errors of the reader -/

/-- Inside of the string that begins at a place where a token is awaited. -/
lemma inString_of_awaits {q : Position} {u t r : Text} (h : Awaits s ls ⟨q, '"' :: u ++ r⟩)
    (hu : Spelled u t) :
    InString s ((q.right 1).right u.length) ∧
      (Cursor.ofText s).Precedes ⟨(q.right 1).right u.length, r⟩ := by
  have hpos : q.after ('"' :: u) = (q.right 1).right u.length := by
    rw [Position.after_eq_right (by simp [hu.newline_notMem])]
    simp [Position.right]
    omega
  rw [← hpos]
  exact ⟨⟨ls, q, u, t, r, h, hu, rfl⟩, h.precedes.trans (Cursor.precedes_append q ('"' :: u) r)⟩

lemma isAbout_of_tokenFault (h : Awaits s ls j) (he : TokenFault j e) : e.IsAbout limits s := by
  obtain ⟨q, rest⟩ := j
  cases he with
  | character hfound => exact shows_of_precedes (x := [_]) (h.precedes.trans hfound)
  | cut hcut => exact ⟨rest, Cursor.precedes_iff.mp h.precedes, hcut⟩
  | number hliteral =>
    obtain ⟨r, rfl⟩ := hliteral
    exact h.begins
  | string hrest hstring =>
    dsimp only at hrest hstring
    subst hrest
    cases hstring with
    | unterminated => exact h.begins (x := ['"'])
    | escape hu hr =>
      dsimp only at hr
      subst hr
      obtain ⟨hin, hplace⟩ := inString_of_awaits h hu
      exact ⟨shows_of_precedes (x := ['\\']) hplace, hin⟩
    | control hu hr hc =>
      dsimp only at hr
      subst hr
      obtain ⟨hin, hplace⟩ := inString_of_awaits h hu
      exact ⟨hc, shows_of_precedes (x := [_]) hplace, hin⟩

/-- **What stops the reader** is what its error says. -/
theorem isAbout_of_next_error (h : (Cursor.ofText s).Leads ls k) (he : k.next = .error e) :
    e.IsAbout limits s := by
  rcases Cursor.next_eq_error_iff.mp he with hs | ⟨q, c, cs, hs, ht⟩
  · obtain ⟨q, rfl, hg | ⟨r, hr⟩⟩ := blames_of_skip_error hs
    · cases hg
    · exact shows_of_precedes (x := ['/', '*']) (h.precedes.trans hr)
  · exact isAbout_of_tokenFault ⟨k, h, hs⟩ (tokenFault_of_tokenAt ht)

/-! ### Errors of the scan -/

lemma isAbout_of_scan (h : scan limits s = .error e) : e.IsAbout limits s := by
  obtain ⟨hlt, rfl⟩ := scan_eq_error_iff.mp h
  exact ⟨rfl, rfl, hlt⟩

lemma isAbout_of_ending (h : (Scan.ofText s).ending = .error e) : e.IsAbout limits s := by
  obtain ⟨k, hleads, ⟨e', he', hn⟩ | ⟨j, hj, -⟩⟩ := Scan.leads_ofText s
  · obtain rfl : e' = e := by simpa [he'] using h
    exact isAbout_of_next_error hleads hn
  · rw [hj] at h
    cases h

/-- The place where a scan ends is the end of the text. -/
lemma textIn?_of_ending {p : Position} (h : (Scan.ofText s).ending = .ok p) :
    p.textIn? (Scan.dropMark s) = some [] := by
  obtain ⟨k, hleads, ⟨e, he, -⟩ | ⟨⟨q, r⟩, hj, hn⟩⟩ := Scan.leads_ofText s
  · rw [he] at h
    cases h
  · obtain rfl : q = p := by simpa [hj] using h
    obtain ⟨hs, hr⟩ := Cursor.next_eq_none_iff.mp hn
    obtain rfl : r = [] := hr
    exact Cursor.precedes_iff.mp (hleads.precedes.trans (precedes_skip hs))

/-! ### Errors of the parser -/

lemma standsIn_of_scan {l : Lexeme} {ls₂ : List Lexeme}
    (h : (Scan.ofText s).lexemes = ls ++ l :: ls₂) : l.StandsIn s ls := by
  obtain ⟨k, hleads, -⟩ := Scan.leads_ofText s
  rw [h] at hleads
  exact standsIn_of_leads hleads

/-- A token that the parser refuses stands in the text behind the tokens that it has taken. -/
lemma isAbout_of_refuses {l : Lexeme} {r : Stage} (hl : l.StandsIn s ls)
    (hr : Stage.advance limits (.value []) ls = .ok r) (h : r.Refuses limits l.pos l.token e) :
    e.IsAbout limits s := by
  have hreached : Stage.Reached limits.maxNestingDepth r (ls.map Lexeme.token) := by
    simpa using Stage.reached_advance (.value .nil) hr
  cases h with
  | unexpected => exact ⟨ls, hl⟩
  | tooDeep ht hlt =>
    have hdepth : r.depth = limits.maxNestingDepth := by
      have := hreached.depth_le
      omega
    have hopen : openCount (ls.map Lexeme.token) = limits.maxNestingDepth :=
      (Stage.depth_advance hr).symm.trans hdepth
    refine ⟨rfl, by rw [hdepth], ls, l.token, hl, ht, ?_⟩
    rw [openCount, List.foldl_append, ← openCount, hopen]
    rcases ht with ht | ht <;> rw [ht] <;> rfl
  | trailing hfinished =>
    subst hfinished
    cases hreached with
    | finished hv => exact ⟨ls, l.token, _, hl, hv⟩

/-- **What stops the parser** is what its error says. -/
theorem isAbout_of_parse (h : parse limits s = .error e) : e.IsAbout limits s := by
  rw [parse] at h
  split at h
  · next hscan =>
    cases h
    exact isAbout_of_scan hscan
  · next tokens hscan =>
    obtain rfl := eq_ofText_of_scan hscan
    rcases Stage.stops_of_run h with
      ⟨ls₁, l, ls₂, r, hls, hr, hrefuses⟩ | hend | ⟨p, x, hp, rfl, hx⟩
    · exact isAbout_of_refuses (standsIn_of_scan hls) hr hrefuses
    · exact isAbout_of_ending hend
    · have hpos := textIn?_of_ending hp
      cases x with
      | word w => exact absurd rfl (hx w)
      | _ => exact hpos

/-! ### Errors of a text -/

/-- Reading the tokens of the text `s` comes to the error `e`, or parsing it does. -/
def FailsWith (limits : Limits) (s : Text) (e : Error) : Prop :=
  scan limits s >>= Scan.ending = .error e ∨ parse limits s = .error e

lemma FailsWith.isAbout (h : FailsWith limits s e) : e.IsAbout limits s := by
  rcases h with h | h
  · rcases bind_eq_error_iff.mp h with hscan | ⟨tokens, hscan, hend⟩
    · exact isAbout_of_scan hscan
    · obtain rfl := eq_ofText_of_scan hscan
      exact isAbout_of_ending hend
  · exact isAbout_of_parse h

/-- What the reader stumbles over is the error, if the parser does not stop before. -/
lemma parse_of_leads (hsize : (Utf8.encode s).length ≤ limits.maxInputSize)
    (hleads : (Cursor.ofText s).Leads ls k) (hn : k.next = .error e) :
    parse limits s = Stage.run limits (.error e) (.value []) ls := by
  have hgo : Scan.ofText s = ⟨ls, .error e⟩ := Scan.go_of_leads hleads hn []
  rw [← utf8Size_eq] at hsize
  rw [parse, scan, if_neg (by omega), hgo]

/-- **An error is about what stands at its position**, whether the reader or the parser has found
it. -/
theorem error_isAbout (h : FailsWith limits s e) : e.IsAbout limits s := h.isAbout

/-- A tabulator in a string, behind a byte order mark, a comment and an escape. -/
theorem error_isAbout_controlCharacter :
    FailsWith .strict "\uFEFF[1, /* é\n */ \"\\n\t".toList (.controlCharacter '\t' ⟨2, 8⟩) ∧
      (Error.controlCharacter '\t' ⟨2, 8⟩).IsAbout .strict
        "\uFEFF[1, /* é\n */ \"\\n\t".toList := by
  have hparse : parse .strict "\uFEFF[1, /* é\n */ \"\\n\t".toList =
      .error (.controlCharacter '\t' ⟨2, 8⟩) := by
    rw [parse_of_leads (by decide) (.cons rfl (.cons rfl (.cons rfl .nil))) rfl]
    rfl
  exact ⟨.inr hparse, error_isAbout (.inr hparse)⟩

/-! ### The end of the text -/

lemma place_of_cutOff {pos : Position} {w u : Text} (hu : CutOff w u)
    (h : pos.textIn? (Scan.dropMark s) = some u) :
    ∃ a, Scan.dropMark s = a ++ u ∧ pos = Position.start.after a ∧
      Position.start.after (Scan.dropMark s) = pos.right u.length := by
  obtain ⟨a, hs, rfl⟩ := Position.textIn?_eq_some_iff.mp h
  have hnewline : '\n' ∉ u := fun hmem =>
    newline_notMem_of_keyword hu.keyword (hu.begins.subset hmem)
  refine ⟨a, hs, rfl, ?_⟩
  rw [hs, Position.after_append, Position.after_eq_right hnewline]

/-- **Where a text is said to end too early**: at its end, except in a keyword. A keyword that is
cut off is reported where it begins, by as many columns before the end as there are characters of
it. -/
theorem unexpectedEnd_place {x : Expectation} {pos : Position}
    (h : FailsWith limits s (.unexpectedEnd x pos)) :
    (∀ w, x ≠ .word w) ∧ pos = Position.start.after (Scan.dropMark s) ∨
      ∃ w a u, x = .word w ∧ CutOff w u ∧ Scan.dropMark s = a ++ u ∧
        pos = Position.start.after a ∧
        Position.start.after (Scan.dropMark s) = pos.right u.length := by
  have habout := h.isAbout
  cases x with
  | word w =>
    obtain ⟨u, hpos, hu⟩ := habout
    obtain ⟨a, hs, ha, hend⟩ := place_of_cutOff hu hpos
    exact .inr ⟨w, a, u, rfl, hu, hs, ha, hend⟩
  | _ => exact .inl ⟨by simp, Position.textIn?_eq_nil_iff.mp habout⟩

/-- A keyword is cut off in the second line. -/
theorem unexpectedEnd_place_secondLine :
    FailsWith .strict "[null,\n fals".toList (.unexpectedEnd (.word "false".toList) ⟨2, 2⟩) ∧
      ((∀ w, Expectation.word "false".toList ≠ .word w) ∧
          (⟨2, 2⟩ : Position) = Position.start.after (Scan.dropMark "[null,\n fals".toList) ∨
        ∃ w a u, Expectation.word "false".toList = .word w ∧ CutOff w u ∧
          Scan.dropMark "[null,\n fals".toList = a ++ u ∧
          (⟨2, 2⟩ : Position) = Position.start.after a ∧
          Position.start.after (Scan.dropMark "[null,\n fals".toList) =
            Position.right ⟨2, 2⟩ u.length) := by
  have hparse : parse .strict "[null,\n fals".toList =
      .error (.unexpectedEnd (.word "false".toList) ⟨2, 2⟩) := by
    rw [parse_of_leads (by decide) (.cons rfl (.cons rfl (.cons rfl .nil))) rfl]
    rfl
  exact ⟨.inr hparse, unexpectedEnd_place (.inr hparse)⟩

/-- The end of the text is not what is reported in the middle of a keyword. -/
theorem unexpectedEnd_inKeyword :
    ¬ ∀ (limits : Limits) (s : Text) (x : Expectation) (pos : Position),
      FailsWith limits s (.unexpectedEnd x pos) →
        pos = Position.start.after (Scan.dropMark s) := by
  intro h
  have hparse : parse .standard "tru".toList =
      .error (.unexpectedEnd (.word "true".toList) .start) := by
    rw [parse_of_leads (by decide) .nil rfl]
    rfl
  have hend := h _ _ _ _ (.inr hparse)
  exact absurd hend (by decide)

end StyleVars.Json
