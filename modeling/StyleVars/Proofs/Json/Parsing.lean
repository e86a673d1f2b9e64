import StyleVars.Json.Value.Parser
import StyleVars.Proofs.Json.Grammar
import StyleVars.Proofs.Json.Reading

/-!
The parser accepts exactly what the grammar derives.

One way, a derivation drives the parser through its tokens, whatever containers are open around
them. The other way, what the parser has read is at any time a derivation in progress: `Opens` says
so of the containers that are still open, and `Reached` of the whole stage.
-/

namespace StyleVars.Json

namespace Stage

variable {limits : Limits}

/-- The stage after some tokens. -/
def advance (limits : Limits) (s : Stage) (ls : List Lexeme) : Except Error Stage :=
  ls.foldlM (fun s l => s.step limits l.pos l.token) s

@[simp] lemma advance_nil (s : Stage) : s.advance limits [] = .ok s := rfl

lemma advance_cons (s : Stage) (l : Lexeme) (ls : List Lexeme) :
    s.advance limits (l :: ls) = (s.step limits l.pos l.token).bind (·.advance limits ls) := rfl

lemma advance_cons_of_step {s r : Stage} {l : Lexeme} {ls : List Lexeme}
    (h : s.step limits l.pos l.token = .ok r) :
    s.advance limits (l :: ls) = r.advance limits ls := by
  rw [advance_cons, h]
  rfl

lemma advance_append (s : Stage) (ls ls' : List Lexeme) :
    s.advance limits (ls ++ ls') = (s.advance limits ls).bind (·.advance limits ls') := by
  induction ls generalizing s with
  | nil => rfl
  | cons l ls ih =>
    rw [List.cons_append, advance_cons, advance_cons]
    cases s.step limits l.pos l.token with
    | error e => rfl
    | ok s' => exact ih s'

lemma advance_append_of_advance {s r : Stage} {ls ls' : List Lexeme}
    (h : s.advance limits ls = .ok r) :
    s.advance limits (ls ++ ls') = r.advance limits ls' := by
  rw [advance_append, h]
  rfl

lemma close_eq_ok_iff {pos : Position} {s : Stage} {v : Value} :
    s.close pos = .ok v ↔ s = .finished v := by
  cases s <;> simp [close]

lemma run_eq_ok_iff {ending : Except Error Position} {s : Stage} {ls : List Lexeme} {v : Value} :
    run limits ending s ls = .ok v ↔
      (∃ p, ending = .ok p) ∧ s.advance limits ls = .ok (.finished v) := by
  induction ls generalizing s with
  | nil =>
    cases ending with
    | error e => simp [run]
    | ok p => simp [run, close_eq_ok_iff]
  | cons l ls ih =>
    rw [run, advance_cons]
    cases s.step limits l.pos l.token with
    | error e => simp [Except.bind]
    | ok s' => exact ih

/-! ### Completeness -/

/-- Before any other token an item is read as any value is. -/
lemma step_items {pos : Position} {before : List Value} {outer : List Frame} {t : Token}
    (ht : t ≠ .closeBracket) :
    step limits pos (.items before outer) t =
      step limits pos (.value (.item before :: outer)) t := by
  cases t <;> first | rfl | exact absurd rfl ht

lemma enter_eq_ok {pos : Position} {outer : List Frame} {s : Stage}
    (h : outer.length + 1 ≤ limits.maxNestingDepth) : enter limits pos outer s = .ok s := by
  rw [enter, if_neg (by omega)]

/-- Tokens that stand for the phrase take the parser through it, inside any open containers that
leave room for `d` more. -/
def Passes (limits : Limits) (d : Nat) (ts : List Token) : Phrase → Prop
  | .value v => ∀ outer ls, outer.length + d ≤ limits.maxNestingDepth → ls.map Lexeme.token = ts →
      advance limits (.value outer) ls = .ok (accept v outer)
  | .items vs => ∀ before outer ls l, outer.length + d + 1 ≤ limits.maxNestingDepth →
      ls.map Lexeme.token = ts → l.token = .closeBracket →
      advance limits (.items before outer) (ls ++ [l]) =
        .ok (accept (.array (before.reverse ++ vs)) outer)
  | .members ps => ∀ qs outer ls l, outer.length + d + 1 ≤ limits.maxNestingDepth →
      ls.map Lexeme.token = ts → l.token = .closeBrace →
      advance limits (.members (Dictionary.ofPairs qs) outer) (ls ++ [l]) =
        .ok (accept (.object (Dictionary.ofPairs (qs ++ ps))) outer)

lemma passes_scalar {d : Nat} {v : Value} {t : Token}
    (h : ∀ pos outer, begin limits pos outer t = .ok (accept v outer)) :
    Passes limits d [t] (.value v) := by
  intro outer ls hd hls
  obtain ⟨l, rfl, rfl⟩ := List.map_eq_singleton_iff.mp hls
  exact advance_cons_of_step (h l.pos outer)

lemma advance_items {d : Nat} {v : Value} {ls : List Lexeme} (before : List Value)
    (outer : List Frame) (h : Derives d (.value v) (ls.map Lexeme.token)) :
    advance limits (.items before outer) ls =
      advance limits (.value (.item before :: outer)) ls := by
  obtain ⟨t, us, hls, ht⟩ := h.value_eq_cons
  obtain ⟨l, ls', rfl, rfl, -⟩ := List.map_eq_cons_iff.mp hls
  rw [advance_cons, advance_cons, step_items ht]

/-- An item takes the parser to the place behind it. -/
lemma advance_item {d : Nat} {v : Value} {before : List Value} {outer : List Frame}
    {ls : List Lexeme} (hv : Derives d (.value v) (ls.map Lexeme.token))
    (hp : Passes limits d (ls.map Lexeme.token) (.value v))
    (hd : outer.length + d + 1 ≤ limits.maxNestingDepth) :
    advance limits (.items before outer) ls = .ok (.itemEnd (v :: before) outer) := by
  rw [advance_items before outer hv]
  exact hp (.item before :: outer) ls (by simp only [List.length_cons]; omega) rfl

/-- A member takes the parser to the place behind it. -/
lemma advance_member {d : Nat} {v : Value} {qs : List (Text × Value)} {outer : List Frame}
    {k c : Lexeme} {key : Text} {ls : List Lexeme} (hk : k.token = .string key)
    (hc : c.token = .colon) (hp : Passes limits d (ls.map Lexeme.token) (.value v))
    (hd : outer.length + d + 1 ≤ limits.maxNestingDepth) :
    advance limits (.members (Dictionary.ofPairs qs) outer) (k :: c :: ls) =
      .ok (.memberEnd (Dictionary.ofPairs (qs ++ [(key, v)])) outer) := by
  have hv := hp (.member (Dictionary.ofPairs qs) key :: outer) ls
    (by simp only [List.length_cons]; omega) rfl
  rw [advance_cons_of_step (r := .colon (Dictionary.ofPairs qs) key outer) (by rw [hk]; rfl),
    advance_cons_of_step (r := .value (.member (Dictionary.ofPairs qs) key :: outer))
      (by rw [hc]; rfl), hv, Dictionary.ofPairs_concat]
  rfl

/-- A container is read when what stands inside it is. -/
lemma passes_container {d : Nat} {v : Value} {ts : List Token} {opening closing : Token}
    {inside : List Frame → Stage}
    (hopen : ∀ pos outer, step limits pos (.value outer) opening =
      enter limits pos outer (inside outer))
    (hin : ∀ outer ls l, outer.length + d + 1 ≤ limits.maxNestingDepth →
      ls.map Lexeme.token = ts → l.token = closing →
      advance limits (inside outer) (ls ++ [l]) = .ok (accept v outer)) :
    Passes limits (d + 1) (opening :: ts ++ [closing]) (.value v) := by
  intro outer ls hd hls
  obtain ⟨l, ls', rfl, rfl, hls'⟩ := List.map_eq_cons_iff.mp hls
  obtain ⟨mid, last, rfl, hmid, hlast⟩ := List.map_eq_append_iff.mp hls'
  obtain ⟨r, rfl, hr⟩ := List.map_eq_singleton_iff.mp hlast
  rw [advance_cons_of_step ((hopen l.pos outer).trans (enter_eq_ok (by omega)))]
  exact hin outer mid r (by omega) hmid hr

lemma passes_lastItem {d : Nat} {v : Value} {ts : List Token} (hv : Derives d (.value v) ts)
    (hp : Passes limits d ts (.value v)) : Passes limits d ts (.items [v]) := by
  intro before outer ls l hd hls hl
  subst hls
  rw [advance_append_of_advance (advance_item hv hp hd)]
  refine (advance_cons_of_step (by rw [hl]; rfl)).trans ?_
  rw [List.reverse_cons]
  rfl

lemma passes_item {d : Nat} {v : Value} {vs : List Value} {ts us : List Token}
    (hv : Derives d (.value v) ts) (hp : Passes limits d ts (.value v))
    (hps : Passes limits d us (.items vs)) :
    Passes limits d (ts ++ .comma :: us) (.items (v :: vs)) := by
  intro before outer ls l hd hls hl
  obtain ⟨ls₁, ls', rfl, rfl, hls'⟩ := List.map_eq_append_iff.mp hls
  obtain ⟨c, ls₂, rfl, hc, hls₂⟩ := List.map_eq_cons_iff.mp hls'
  rw [List.append_assoc, advance_append_of_advance (advance_item hv hp hd), List.cons_append,
    advance_cons_of_step (r := .items (v :: before) outer) (by rw [hc]; rfl),
    hps (v :: before) outer ls₂ l hd hls₂ hl, List.reverse_cons, List.append_assoc]
  rfl

lemma passes_lastMember {d : Nat} {key : Text} {v : Value} {ts : List Token}
    (hp : Passes limits d ts (.value v)) :
    Passes limits d (.string key :: .colon :: ts) (.members [(key, v)]) := by
  intro qs outer ls l hd hls hl
  obtain ⟨k, ls', rfl, hk, hls'⟩ := List.map_eq_cons_iff.mp hls
  obtain ⟨c, ls₁, rfl, hc, rfl⟩ := List.map_eq_cons_iff.mp hls'
  rw [advance_append_of_advance (advance_member hk hc hp hd)]
  exact advance_cons_of_step (by rw [hl]; rfl)

lemma passes_member {d : Nat} {key : Text} {v : Value} {ps : List (Text × Value)}
    {ts us : List Token} (hp : Passes limits d ts (.value v))
    (hps : Passes limits d us (.members ps)) :
    Passes limits d (.string key :: .colon :: ts ++ .comma :: us) (.members ((key, v) :: ps)) := by
  intro qs outer ls l hd hls hl
  obtain ⟨k, ls', rfl, hk, hls'⟩ := List.map_eq_cons_iff.mp hls
  obtain ⟨c, ls'', rfl, hc, hls''⟩ := List.map_eq_cons_iff.mp hls'
  obtain ⟨ls₁, ls₃, rfl, rfl, hls₃⟩ := List.map_eq_append_iff.mp hls''
  obtain ⟨m, ls₂, rfl, hm, hls₂⟩ := List.map_eq_cons_iff.mp hls₃
  rw [show k :: c :: (ls₁ ++ m :: ls₂) ++ [l] = (k :: c :: ls₁) ++ (m :: (ls₂ ++ [l])) by simp,
    advance_append_of_advance (advance_member hk hc hp hd),
    advance_cons_of_step (r := .members (Dictionary.ofPairs (qs ++ [(key, v)])) outer)
      (by rw [hm]; rfl), hps (qs ++ [(key, v)]) outer ls₂ l hd hls₂ hl, List.append_assoc]
  rfl

/-- **Completeness**: what the grammar derives, the parser reads. -/
theorem passes_of_derives {d : Nat} {x : Phrase} {ts : List Token} (h : Derives d x ts) :
    Passes limits d ts x := by
  induction h with
  | null => exact passes_scalar fun pos outer => rfl
  | bool => exact passes_scalar fun pos outer => rfl
  | number => exact passes_scalar fun pos outer => rfl
  | string => exact passes_scalar fun pos outer => rfl
  | array _ ih => exact passes_container (fun pos outer => rfl) fun outer => ih [] outer
  | object _ hes ih =>
    rw [hes.eq_ofPairs]
    exact passes_container (fun pos outer => rfl) fun outer => ih [] outer
  | noItems =>
    intro before outer ls l hd hls hl
    obtain rfl := List.map_eq_nil_iff.mp hls
    rw [List.append_nil]
    exact advance_cons_of_step (by rw [hl]; rfl)
  | lastItem hv ihv => exact passes_lastItem hv ihv
  | item hv _ ihv ihs => exact passes_item hv ihv ihs
  | noMembers =>
    intro qs outer ls l hd hls hl
    obtain rfl := List.map_eq_nil_iff.mp hls
    rw [List.append_nil]
    exact advance_cons_of_step (by rw [hl]; rfl)
  | lastMember _ ihv => exact passes_lastMember ihv
  | member _ _ ihv ihs => exact passes_member ihv ihs

/-! ### Soundness -/

/-- The tokens `ts` open the containers `outer` and stand before a value inside them. -/
inductive Opens (limit : Nat) : List Frame → List Token → Prop where
  | nil : Opens limit [] []
  | item {outer : List Frame} {vs : List Value} {ts us : List Token} :
      Opens limit outer ts → outer.length < limit →
      ItemsBefore (limit - (outer.length + 1)) vs us →
      Opens limit (.item vs.reverse :: outer) (ts ++ .openBracket :: us)
  | member {outer : List Frame} {ps : List (Text × Value)} {key : Text} {ts us : List Token} :
      Opens limit outer ts → outer.length < limit →
      MembersBefore (limit - (outer.length + 1)) ps us →
      Opens limit (.member (Dictionary.ofPairs ps) key :: outer)
        (ts ++ .openBrace :: us ++ [.string key, .colon])

/-- The tokens `ts` lead the parser to a stage. -/
inductive Reached (limit : Nat) : Stage → List Token → Prop where
  | value {outer : List Frame} {ts : List Token} :
      Opens limit outer ts → Reached limit (.value outer) ts
  | items {before : List Value} {outer : List Frame} {ts : List Token} :
      Opens limit (.item before :: outer) ts → Reached limit (.items before outer) ts
  | itemEnd {before : List Value} {v : Value} {outer : List Frame} {ts us : List Token} :
      Opens limit (.item before :: outer) ts →
      Derives (limit - (outer.length + 1)) (.value v) us →
      Reached limit (.itemEnd (v :: before) outer) (ts ++ us)
  | members {ps : List (Text × Value)} {outer : List Frame} {ts us : List Token} :
      Opens limit outer ts → outer.length < limit →
      MembersBefore (limit - (outer.length + 1)) ps us →
      Reached limit (.members (Dictionary.ofPairs ps) outer) (ts ++ .openBrace :: us)
  | colon {ps : List (Text × Value)} {key : Text} {outer : List Frame} {ts us : List Token} :
      Opens limit outer ts → outer.length < limit →
      MembersBefore (limit - (outer.length + 1)) ps us →
      Reached limit (.colon (Dictionary.ofPairs ps) key outer)
        (ts ++ .openBrace :: us ++ [.string key])
  | memberEnd {before : Entries} {key : Text} {v : Value} {outer : List Frame}
      {ts us : List Token} :
      Opens limit (.member before key :: outer) ts →
      Derives (limit - (outer.length + 1)) (.value v) us →
      Reached limit (.memberEnd (Dictionary.insert key v before) outer) (ts ++ us)
  | finished {v : Value} {ts : List Token} :
      Derives limit (.value v) ts → Reached limit (.finished v) ts

variable {limit : Nat}

lemma reached_accept {outer : List Frame} {v : Value} {ts us : List Token}
    (ho : Opens limit outer ts) (hv : Derives (limit - outer.length) (.value v) us) :
    Reached limit (accept v outer) (ts ++ us) := by
  cases outer with
  | nil =>
    cases ho
    exact .finished hv
  | cons f outer =>
    cases f with
    | item before => exact .itemEnd ho hv
    | member before key => exact .memberEnd ho hv

lemma derives_array {outer : List Frame} {vs : List Value} {us : List Token}
    (hd : outer.length < limit) (hvs : Derives (limit - (outer.length + 1)) (.items vs) us) :
    Derives (limit - outer.length) (.value (.array vs))
      (.openBracket :: us ++ [.closeBracket]) := by
  rw [show limit - outer.length = limit - (outer.length + 1) + 1 by omega]
  exact .array hvs

lemma derives_object {outer : List Frame} {ps : List (Text × Value)} {us : List Token}
    (hd : outer.length < limit) (hps : Derives (limit - (outer.length + 1)) (.members ps) us) :
    Derives (limit - outer.length) (.value (.object (Dictionary.ofPairs ps)))
      (.openBrace :: us ++ [.closeBrace]) := by
  rw [show limit - outer.length = limit - (outer.length + 1) + 1 by omega]
  exact .object hps (Dictionary.merges_ofPairs ps)

lemma lt_of_enter {pos : Position} {outer : List Frame} {s r : Stage}
    (h : enter limits pos outer s = .ok r) :
    outer.length < limits.maxNestingDepth ∧ s = r := by
  rw [enter] at h
  split at h
  · cases h
  · cases h
    exact ⟨by omega, rfl⟩

/-- The first token of a value keeps what has been read a derivation in progress. -/
lemma reached_begin {pos : Position} {outer : List Frame} {t : Token} {s : Stage} {ts : List Token}
    (ho : Opens limits.maxNestingDepth outer ts) (h : begin limits pos outer t = .ok s) :
    Reached limits.maxNestingDepth s (ts ++ [t]) := by
  cases t with
  | null =>
    cases h
    exact reached_accept ho .null
  | bool b =>
    cases h
    exact reached_accept ho .bool
  | number x =>
    cases h
    exact reached_accept ho .number
  | string s =>
    cases h
    exact reached_accept ho .string
  | openBracket =>
    obtain ⟨hlt, rfl⟩ := lt_of_enter h
    exact .items (@Opens.item _ _ [] _ _ ho hlt (itemsBefore_nil _))
  | openBrace =>
    obtain ⟨hlt, rfl⟩ := lt_of_enter h
    exact @Reached.members _ [] _ _ _ ho hlt (membersBefore_nil _)
  | closeBrace | closeBracket | colon | comma => cases h

/-- **One token further** the parser is still in a derivation in progress. -/
theorem reached_step {pos : Position} {s r : Stage} {t : Token} {ts : List Token}
    (hs : Reached limits.maxNestingDepth s ts) (h : s.step limits pos t = .ok r) :
    Reached limits.maxNestingDepth r (ts ++ [t]) := by
  cases hs with
  | value ho => exact reached_begin ho h
  | @items before outer _ ho =>
    by_cases ht : t = .closeBracket
    · subst ht
      cases h
      cases ho with
      | item ho hlt hvs =>
        have hv := derives_array hlt hvs.items
        simpa using reached_accept ho hv
    · rw [step_items ht] at h
      exact reached_begin ho h
  | @itemEnd before v outer us ws ho hv =>
    cases t with
    | comma =>
      cases h
      cases ho with
      | @item _ vs _ _ ho hlt hvs =>
        have hopen := Opens.item ho hlt (hvs.concat hv)
        simpa using Reached.items hopen
    | closeBracket =>
      cases h
      cases ho with
      | item ho hlt hvs =>
        have hw := derives_array hlt (hvs.items_concat hv)
        simpa using reached_accept ho hw
    | _ => cases h
  | @members ps outer us ws ho hlt hps =>
    cases t with
    | closeBrace =>
      cases h
      simpa using reached_accept ho (derives_object hlt hps.members)
    | string key =>
      cases h
      simpa using Reached.colon ho hlt hps
    | _ => cases h
  | @colon ps key outer us ws ho hlt hps =>
    cases t with
    | colon =>
      cases h
      simpa using Reached.value (@Opens.member _ _ _ key _ _ ho hlt hps)
    | _ => cases h
  | @memberEnd before key v outer us ws ho hv =>
    cases t with
    | comma =>
      cases h
      cases ho with
      | @member _ ps _ _ _ ho hlt hps =>
        have hr := Reached.members ho hlt (hps.concat key hv)
        simpa [Dictionary.ofPairs_concat] using hr
    | closeBrace =>
      cases h
      cases ho with
      | @member _ ps _ _ _ ho hlt hps =>
        have hw := derives_object hlt (hps.members_concat key hv)
        simpa [Dictionary.ofPairs_concat] using reached_accept ho hw
    | _ => cases h
  | finished hv => cases h

theorem reached_advance {s r : Stage} {ls : List Lexeme} {ts : List Token}
    (hs : Reached limits.maxNestingDepth s ts) (h : s.advance limits ls = .ok r) :
    Reached limits.maxNestingDepth r (ts ++ ls.map Lexeme.token) := by
  induction ls generalizing s ts with
  | nil =>
    cases h
    simpa using hs
  | cons l ls ih =>
    rw [advance_cons] at h
    cases hstep : s.step limits l.pos l.token with
    | error e => simp [hstep, Except.bind] at h
    | ok s' =>
      rw [hstep] at h
      simpa using ih (reached_step hs hstep) h

end Stage

/-! ### Whole texts -/

variable {limits : Limits} {s : Text}

lemma parse_of_lexes {ls : List Lexeme} {p : Position} (h : Lexes s ls p)
    (hsize : (Utf8.encode s).length ≤ limits.maxInputSize) :
    parse limits s = Stage.run limits (.ok p) (.value []) ls := by
  rw [← utf8Size_eq] at hsize
  rw [parse, scan, if_neg (by omega), Scan.ofText_eq_iff.mpr h]

lemma lexes_of_parse {v : Value} (h : parse limits s = .ok v) :
    (Utf8.encode s).length ≤ limits.maxInputSize ∧ ∃ ls p, Lexes s ls p := by
  rw [parse, scan, utf8Size_eq] at h
  split at h
  · cases h
  · next tokens htokens =>
    split at htokens
    · cases htokens
    · cases htokens
      obtain ⟨⟨p, hp⟩, -⟩ := Stage.run_eq_ok_iff.mp h
      exact ⟨by omega, _, p, Scan.ofText_eq_iff.mp (by rw [← hp])⟩

lemma derives_of_run {ls : List Lexeme} {p : Position} {v : Value}
    (h : Stage.run limits (.ok p) (.value []) ls = .ok v) :
    Derives limits.maxNestingDepth (.value v) (ls.map Lexeme.token) := by
  have hr := Stage.reached_advance (.value .nil) (Stage.run_eq_ok_iff.mp h).2
  cases hr with
  | finished hv => exact hv

/-- What the parser accepts is derived from the tokens of the text. -/
lemma derives_of_parse {v : Value} (h : parse limits s = .ok v) :
    ∃ ls p, Lexes s ls p ∧ Derives limits.maxNestingDepth (.value v) (ls.map Lexeme.token) := by
  obtain ⟨hsize, ls, p, hl⟩ := lexes_of_parse h
  rw [parse_of_lexes hl hsize] at h
  exact ⟨ls, p, hl, derives_of_run h⟩

/-- **The parser accepts exactly the texts within the size limit whose tokens the grammar derives
as one value, and gives that value.** -/
theorem parse_eq_ok_iff (limits : Limits) (s : Text) (v : Value) :
    parse limits s = .ok v ↔
      (Utf8.encode s).length ≤ limits.maxInputSize ∧
        ∃ ls p, Lexes s ls p ∧
          Derives limits.maxNestingDepth (.value v) (ls.map Lexeme.token) := by
  constructor
  · intro h
    exact ⟨(lexes_of_parse h).1, derives_of_parse h⟩
  · rintro ⟨hsize, ls, p, hl, hv⟩
    have hadv : Stage.advance limits (.value []) ls = .ok (.finished v) :=
      Stage.passes_of_derives hv [] ls (by simp) rfl
    rw [parse_of_lexes hl hsize, Stage.run_eq_ok_iff]
    exact ⟨⟨p, rfl⟩, hadv⟩

end StyleVars.Json
