import Mathlib.Data.List.Forall2
import StyleVars.Proofs.Settings.Scalar
import StyleVars.Settings.Reader.Skip

/-!
Reading over a value. However deep the value is nested, its end is found, and what it stands in is
still open there.
-/

namespace StyleVars.Settings.Reader

open Json (StringSpelled Quiet)

/-! ### Loops -/

section Loop

variable {σ α : Type} {step : σ → Reader (Round σ α)} {state next : σ} {s r : Text}

lemma loop_done {a : α} (h : step state s = .ok (.done a, r)) :
    loop step state s = .ok (a, r) := by
  rw [loop, h]

lemma loop_again (h : step state s = .ok (.again next, r)) (hr : r.length < s.length) :
    loop step state s = loop step next r := by
  rw [loop, h]
  exact if_pos hr

lemma loop_cases {a : α} {t : Text} (h : loop step state s = .ok (a, t)) :
    step state s = .ok (.done a, t) ∨
      ∃ next r, step state s = .ok (.again next, r) ∧ loop step next r = .ok (a, t) := by
  rw [loop] at h
  split at h
  · cases h
  · next hstep =>
    cases h
    exact .inl hstep
  · next hstep =>
    split at h
    · exact .inr ⟨_, _, hstep, h⟩
    · cases h

end Loop

/-! ### Entries -/

lemma advance_bind {α : Type} (f : Unit → Reader α) (c : Char) (s : Text) :
    (advance >>= f) (c :: s) = f () s := rfl

lemma colon_append {b : Text} (hb : IsBlanks b) (s : Text) :
    colon (b ++ ':' :: s) = .ok ((), s) :=
  next_bind hb (by decide) s _

lemma Nest.closing_eq (n : Nest) : n.closing = ']' ∨ n.closing = '\x7d' := by
  cases n <;> simp [closing]

lemma Nest.isBlank_closing (n : Nest) : Json.isBlank n.closing = false := by
  cases n <;> rfl

/-- The text `e` is an entry of a list or map, and `v` is its value. -/
def Nest.Entry : Nest → Text → Text → Prop
  | list, e, v => Padded e v
  | map, e, v => ∃ key, MemberSpelled e (key, v)

variable {n : Nest} {e v : Text}

/-- An entry does not begin as the end of its list or map does. -/
lemma next_entry (h : n.Entry e v) (hv : IsJson v) (s : Text) :
    ∃ c e', next (e ++ s) = .ok (c, e' ++ s) ∧ c ≠ n.closing ∧ n.Entry e' v ∧
      e'.length ≤ e.length := by
  cases n with
  | list =>
    obtain ⟨ha, hb⟩ := h
    rename_i a b
    obtain ⟨c, cs, rfl, hopens⟩ := hv.eq_cons
    refine ⟨c, [] ++ (c :: cs ++ b), ?_, hopens.2.2.1, .mk isBlanks_nil hb, by simp⟩
    simpa using next_blanks ha hopens.1 (cs ++ (b ++ s))
  | map =>
    obtain ⟨key, h⟩ := h
    cases h with
    | @mk a _ k b x _ ha hkey hb hx =>
      obtain ⟨us, rfl⟩ := eq_cons_of_stringSpelled hkey
      refine ⟨'"', _, ?_, by decide, ⟨key, .mk isBlanks_nil hkey hb hx⟩, by simp⟩
      simpa using next_blanks ha (c := '"') rfl (us ++ (b ++ ':' :: (x ++ s)))

/-- What stands before the value of an entry is taken. -/
lemma lead_entry (h : n.Entry e v) (s : Text) :
    ∃ a b, IsBlanks a ∧ IsBlanks b ∧ n.lead (e ++ s) = .ok ((), a ++ (v ++ (b ++ s))) ∧
      (a ++ (v ++ b)).length ≤ e.length := by
  cases n with
  | list =>
    obtain ⟨ha, hb⟩ := h
    exact ⟨_, _, ha, hb, by simp [Nest.lead]; rfl, le_rfl⟩
  | map =>
    obtain ⟨key, h⟩ := h
    cases h with
    | @mk a _ k b x _ ha hkey hb hx =>
      obtain ⟨ha', hb'⟩ := hx
      rename_i a' b'
      refine ⟨a', b', ha', hb', ?_, by simp; omega⟩
      obtain ⟨t, ht, -⟩ := exists_string_of_spelled hkey false
        (b ++ ':' :: (a' ++ (v ++ (b' ++ s))))
      obtain ⟨us, rfl⟩ := eq_cons_of_stringSpelled hkey
      have hlead : Nest.map.lead (a ++ '"' :: (us ++ (b ++ ':' :: (a' ++ (v ++ (b' ++ s)))))) =
          .ok ((), a' ++ (v ++ (b' ++ s))) := by
        refine (next_bind ha (by decide) _ _).trans ?_
        exact (bind_of_ok (discard_of_ok ht) _).trans (colon_append hb _)
      simpa using hlead

/-! ### Values -/

/-- The value `v` is read over, wherever it stands. -/
def Skipped (v : Text) : Prop :=
  ∀ outer b r, IsBlanks b → Quiet r →
    loop skipStep (.value outer) (b ++ (v ++ r)) = loop skipStep (.ended outer) r

lemma skipped_of_start {v : Text} (hv : IsJson v)
    (h : ∀ outer b r, IsBlanks b → Quiet r →
      skipStart outer (b ++ (v ++ r)) = .ok (.ended outer, r)) : Skipped v := by
  intro outer b r hb hr
  obtain ⟨c, cs, rfl, -⟩ := hv.eq_cons
  refine loop_again (bind_of_ok (h outer b r hb hr) _) ?_
  simp
  omega

/-- From the end of a value the reader comes to the end of what the value stands in. -/
lemma skip_remains {n : Nest} {es vs : List Text} (hes : List.Forall₂ n.Entry es vs)
    (hvs : ∀ v ∈ vs, Skipped v) {outer : List Nest} {r s : Text}
    (hs : Remains n.closing r false s es) :
    loop skipStep (.ended (n :: outer)) s = loop skipStep (.ended outer) r := by
  -- The blanks behind a value belong to what is still to come: the induction is on the entries, and
  -- the text is general.
  induction hes generalizing s with
  | nil =>
    cases hs with
    | @last _ b hb =>
      have hend : skipEnd n outer (b ++ n.closing :: r) = .ok (.ended outer, r) := by
        refine (next_bind hb n.isBlank_closing _ _).trans ?_
        rw [if_neg (by cases n <;> decide), if_pos rfl]
        rfl
      exact loop_again (bind_of_ok hend _) (by simp; omega)
  | @cons e v es vs he _ ih =>
    obtain ⟨hv, hvs⟩ := List.forall_mem_cons.mp hvs
    cases hs with
    | @next b _ s _ hb hs =>
      obtain ⟨a, d, ha, hd, hlead, hle⟩ := lead_entry he s
      have hend : skipEnd n outer (b ++ ',' :: (e ++ s)) =
          .ok (.value (n :: outer), a ++ (v ++ (d ++ s))) := by
        refine (next_bind hb (by decide) _ _).trans ?_
        rw [if_pos rfl, advance_bind]
        exact bind_of_ok hlead _
      have hquiet : Quiet s := hs.quiet n.closing_eq
      rw [loop_again (bind_of_ok hend _) (by simp at hle ⊢; omega),
        hv (n :: outer) a (d ++ s) ha (hd.quiet_append hquiet)]
      exact ih hvs (hs.blanks_append hd)

lemma skipped_of_nest {n : Nest} {left : Char} {x : Text} {es vs : List Text}
    (hx : Enclosed left n.closing x es) (hes : List.Forall₂ n.Entry es vs)
    (hvs : ∀ v ∈ vs, IsJson v ∧ Skipped v)
    (hstart : ∀ outer b s, IsBlanks b →
      skipStart outer (b ++ left :: s) = enter n outer (left :: s)) : Skipped x := by
  intro outer b r hb hr
  obtain ⟨s, hcut, hremains⟩ := hx.remains r
  rw [hcut]
  cases hremains with
  | @last _ d hd =>
    have henter : enter n outer (left :: (d ++ n.closing :: r)) = .ok (.ended outer, r) := by
      rw [enter, advance_bind, next_bind hd n.isBlank_closing, if_pos rfl]
      rfl
    exact loop_again (bind_of_ok ((hstart outer b _ hb).trans henter) _) (by simp; omega)
  | @first e s es hs =>
    cases hes with
    | @cons _ v _ vs he hes =>
      obtain ⟨⟨hjson, hv⟩, hvs⟩ := List.forall_mem_cons.mp hvs
      obtain ⟨c, e', hnext, hc, he', hle⟩ := next_entry he hjson s
      obtain ⟨a, d, ha, hd, hlead, hle'⟩ := lead_entry he' s
      have henter : enter n outer (left :: (e ++ s)) =
          .ok (.value (n :: outer), a ++ (v ++ (d ++ s))) := by
        rw [enter, advance_bind, bind_of_ok hnext, if_neg hc]
        exact bind_of_ok hlead _
      have hquiet : Quiet s := hs.quiet n.closing_eq
      rw [loop_again (bind_of_ok ((hstart outer b _ hb).trans henter) _)
          (by simp at hle hle' ⊢; omega), hv (n :: outer) a (d ++ s) ha (hd.quiet_append hquiet)]
      exact skip_remains hes (fun v hv => (hvs v hv).2) (hs.blanks_append hd)

lemma skipped_of_json {v : Text} (hv : IsJson v) : Skipped v := by
  induction hv with
  | null =>
    refine skipped_of_start .null fun outer b r hb _ => ?_
    exact (next_bind hb (by decide) _ _).trans (bind_of_ok (word_append "null".toList r) _)
  | bool b =>
    refine skipped_of_start (.bool b) fun outer a r ha _ => ?_
    cases b with
    | true =>
      exact (next_bind ha (by decide) _ _).trans (bind_of_ok (word_append "true".toList r) _)
    | false =>
      exact (next_bind ha (by decide) _ _).trans (bind_of_ok (word_append "false".toList r) _)
  | number hu =>
    refine skipped_of_start (.number hu) fun outer b r hb hr => ?_
    obtain ⟨t, ht⟩ := exists_numberText_of_spelled hu hr .malformed
    obtain ⟨c, hc, hn⟩ := startsNumber_of_spelled hu
    obtain ⟨cs, rfl⟩ := List.head?_eq_some_iff.mp hc
    refine (next_bind hb (opens_of_startsNumber hn).1 _ _).trans ?_
    split
    case h_7 =>
      rw [if_pos hn]
      exact bind_of_ok (discard_of_ok ht) _
    all_goals cases hn
  | string hx =>
    refine skipped_of_start (.string hx) fun outer b r hb _ => ?_
    obtain ⟨t, ht, -⟩ := exists_string_of_spelled hx false r
    obtain ⟨us, rfl⟩ := eq_cons_of_stringSpelled hx
    exact (next_bind hb (by decide) _ _).trans (bind_of_ok (discard_of_ok ht) _)
  | @array x vs hx hvs ih =>
    obtain ⟨es, hes, hvalues⟩ := hx
    exact skipped_of_nest (n := .list) hes hvalues (fun v hv => ⟨hvs v hv, ih v hv⟩)
      fun outer b s hb => next_bind hb rfl s _
  | @object x ms hx hms ih =>
    obtain ⟨es, hes, hmembers⟩ := hx
    have hvalues : List.Forall₂ Nest.map.Entry es (ms.map Prod.snd) := by
      rw [List.forall₂_map_right_iff]
      exact hmembers.imp fun e m h => ⟨m.1, h⟩
    refine skipped_of_nest (n := .map) hes hvalues ?_ fun outer b s hb => next_bind hb rfl s _
    rw [List.forall_mem_map]
    exact fun m hm => ⟨hms m hm, ih m hm⟩

/-- **A value is read over whole.** -/
theorem reads_skip {v : Text} (hv : IsJson v) : Reads skip v () := by
  intro b r hb hr
  rw [skip, skipped_of_json hv [] b r hb hr]
  exact loop_done rfl

end StyleVars.Settings.Reader
