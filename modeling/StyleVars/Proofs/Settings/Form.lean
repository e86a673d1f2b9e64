import Mathlib.Data.List.Nodup
import StyleVars.Proofs.Settings.Skip
import StyleVars.Settings.Reader.Form

/-!
Lists and records. If the readers of the parts take exactly their values, then so do the readers of
lists and records; and a record that is written as a map has each field at most once.
-/

namespace StyleVars.Settings.Reader

open Json (StringSpelled Quiet)

variable {α : Type}

/-! ### Items -/

section Items

variable {r s : Text} {first : Bool} {es : List Text}

lemma hasItem_last (h : Remains ']' r first s []) : hasItem first s = .ok (false, ']' :: r) := by
  cases h with
  | last hb =>
    rw [hasItem, next_bind hb (by decide), if_pos rfl]
    rfl

lemma hasItem_item {e v : Text} (h : Remains ']' r first s (e :: es)) (he : Padded e v)
    (hv : IsJson v) :
    ∃ t, hasItem first s = .ok (true, v ++ t) ∧ Remains ']' r false t es ∧
      t.length < s.length := by
  obtain ⟨c, cs, rfl, hopens⟩ := hv.eq_cons
  obtain ⟨ha, hb⟩ := he
  rename_i a b
  cases h with
  | @first _ s _ hs =>
    refine ⟨b ++ s, ?_, hs.blanks_append hb, by simp; omega⟩
    rw [hasItem, List.append_assoc, List.append_assoc, List.cons_append, next_bind ha hopens.1,
      if_neg hopens.2.2.1, if_pos rfl]
    rfl
  | @next d _ s _ hd hs =>
    refine ⟨b ++ s, ?_, hs.blanks_append hb, by simp; omega⟩
    rw [hasItem, next_bind hd (by decide), if_neg (by decide), if_neg Bool.false_ne_true,
      if_pos rfl, advance_bind, List.append_assoc, List.append_assoc, List.cons_append,
      next_bind ha hopens.1, if_neg hopens.2.2.1]
    rfl

/-- A list ends behind its last item only. -/
lemma endList_exact {vs : List Text} {t : Text} (hs : Remains ']' r first s es)
    (hes : List.Forall₂ Padded es vs) (hvs : ∀ v ∈ vs, IsJson v)
    (h : endList s = .ok ((), t)) : t = r := by
  cases hs with
  | last hb =>
    rw [endList, next_bind hb (by decide)] at h
    cases h
    rfl
  | next hb _ =>
    rw [endList, next_bind hb (by decide)] at h
    cases h
  | first _ =>
    cases hes with
    | cons he _ =>
      obtain ⟨c, cs, rfl, hopens⟩ := (hvs _ List.mem_cons_self).eq_cons
      obtain ⟨ha, _⟩ := he
      rw [endList, List.append_assoc, List.append_assoc, List.cons_append,
        next_bind ha hopens.1] at h
      split at h
      · exact absurd rfl hopens.2.2.1
      · cases h

end Items

/-! ### Lists -/

section List

variable {item : Reader α} {r s : Text} {es vs : List Text}

lemma loop_listStep (before : List α) {as : List α} (hs : Remains ']' r before.isEmpty s es)
    (hes : List.Forall₂ Padded es vs)
    (hvs : List.Forall₂ (fun v a => IsJson v ∧ Reads item v a) vs as) :
    loop (listStep item) before s = .ok (before.reverse ++ as, ']' :: r) := by
  induction hes generalizing before s as with
  | nil =>
    cases hvs
    refine loop_done ?_
    rw [listStep, bind_of_ok (hasItem_last hs), List.append_nil]
    rfl
  | @cons e v es vs he _ ih =>
    cases hvs with
    | @cons _ a _ as hv hvs =>
      obtain ⟨t, ht, hremains, hlt⟩ := hasItem_item hs he hv.1
      have hitem := hv.2 [] t isBlanks_nil (hremains.quiet (.inl rfl))
      have hstep : listStep item before s = .ok (.again (a :: before), t) := by
        rw [listStep, bind_of_ok ht, if_pos rfl, ← List.nil_append (v ++ t), bind_of_ok hitem]
        rfl
      rw [loop_again hstep hlt, ih (a :: before) hremains hvs]
      simp

lemma list_bracket {b : Text} (hb : IsBlanks b) (s : Text) :
    list item (b ++ '[' :: s) =
      (loop (listStep item) [] >>= fun items => endList >>= fun _ => pure items) s :=
  next_bind hb (by decide) s _

lemma reads_list {x : Text} {as : List α} (hx : ArraySpelled x vs)
    (hvs : List.Forall₂ (fun v a => IsJson v ∧ Reads item v a) vs as) : Reads (list item) x as := by
  intro b r hb _
  obtain ⟨es, hes, hvalues⟩ := hx
  obtain ⟨s, hcut, hs⟩ := hes.remains r
  rw [hcut, list_bracket hb, bind_of_ok (loop_listStep [] hs hvalues hvs)]
  rfl

lemma loop_listStep_exact (before : List α) {as : List α} {t : Text}
    (hs : Remains ']' r before.isEmpty s es)
    (hes : List.Forall₂ Padded es vs) (hvs : ∀ v ∈ vs, IsJson v ∧ Exact item v)
    (h : loop (listStep item) before s = .ok (as, t)) : t = ']' :: r := by
  induction hes generalizing before s with
  | nil =>
    have hdone : listStep item before s = .ok (.done before.reverse, ']' :: r) := by
      rw [listStep, bind_of_ok (hasItem_last hs)]
      rfl
    rw [loop_done hdone] at h
    cases h
    rfl
  | @cons e v es vs he _ ih =>
    obtain ⟨hv, hvs⟩ := List.forall_mem_cons.mp hvs
    obtain ⟨u, hu, hremains, hlt⟩ := hasItem_item hs he hv.1
    have hstep : listStep item before s =
        (item >>= fun a => pure (.again (a :: before))) (v ++ u) := by
      rw [listStep, bind_of_ok hu, if_pos rfl]
    rcases loop_cases h with hdone | ⟨next, w, hagain, h⟩
    · rw [hstep, run_bind_eq_ok_iff] at hdone
      obtain ⟨a, w, -, hdone⟩ := hdone
      cases hdone
    · rw [hstep, run_bind_eq_ok_iff] at hagain
      obtain ⟨a, w, hitem, hagain⟩ := hagain
      cases hagain
      obtain rfl := hv.2 [] u (a, w) isBlanks_nil (hremains.quiet (.inl rfl)) hitem
      exact ih (a :: before) hremains hvs h

lemma exact_list {x : Text} (hx : IsJson x) (hitem : ∀ v, IsJson v → Exact item v) :
    Exact (list item) x := by
  have hv := hx
  cases hx with
  | null => exact exact_of_head .sequence hv rfl rfl
  | bool b => cases b <;> exact exact_of_head .sequence hv rfl rfl
  | string hx => exact exact_of_head .sequence hv (head?_of_stringSpelled hx) rfl
  | object hx => exact exact_of_head .sequence hv hx.head? rfl
  | number hu =>
    obtain ⟨c, hc, hn⟩ := startsNumber_of_spelled hu
    refine exact_of_head .sequence hv hc ?_
    split
    · cases hn
    · rfl
  | array hx hvs =>
    intro b r p hb _ h
    obtain ⟨es, hes, hvalues⟩ := hx
    obtain ⟨s, hcut, hs⟩ := hes.remains r
    rw [hcut, list_bracket hb, run_bind_eq_ok_iff] at h
    obtain ⟨as, t, hloop, h⟩ := h
    obtain rfl := loop_listStep_exact [] hs hvalues
      (fun v hv => ⟨hvs v hv, hitem v (hvs v hv)⟩) hloop
    cases h
    rfl

end List

/-! ### Members -/

section Members

variable {r s : Text} {first : Bool} {es : List Text}

lemma key?_last (h : Remains '\x7d' r first s []) : key? first s = .ok (none, '\x7d' :: r) := by
  cases h with
  | last hb =>
    rw [key?, next_bind hb (by decide), if_pos rfl]
    rfl

lemma key?_member {e key v : Text} (h : Remains '\x7d' r first s (e :: es))
    (he : MemberSpelled e (key, v)) :
    ∃ t a u, key? first s = .ok (some key, t) ∧ colon t = .ok ((), a ++ (v ++ u)) ∧ IsBlanks a ∧
      Remains '\x7d' r false u es ∧ u.length < s.length := by
  cases he with
  | @mk a _ k b x _ ha hkey hb hx =>
    obtain ⟨hc, hd⟩ := hx
    rename_i c d
    obtain ⟨us, rfl⟩ := eq_cons_of_stringSpelled hkey
    have hread (s : Text) : (do return some (← string true) : Reader (Option Text))
        ('"' :: (us ++ (b ++ ':' :: (c ++ (v ++ d)) ++ s))) =
          .ok (some key, b ++ ':' :: (c ++ (v ++ (d ++ s)))) := by
      simp only [List.append_assoc, List.cons_append]
      exact bind_of_ok (string_of_spelled hkey _) _
    cases h with
    | @first _ s _ hs =>
      refine ⟨b ++ ':' :: (c ++ (v ++ (d ++ s))), c, d ++ s, ?_, colon_append hb _, hc,
        hs.blanks_append hd, by simp; omega⟩
      rw [key?, List.append_assoc, List.append_assoc, List.cons_append,
        next_bind ha (by decide), if_neg (by decide), if_pos rfl]
      refine (next_bind isBlanks_nil (c := '"') (by decide) _ _).trans ?_
      exact hread s
    | @next g _ s _ hg hs =>
      refine ⟨b ++ ':' :: (c ++ (v ++ (d ++ s))), c, d ++ s, ?_, colon_append hb _, hc,
        hs.blanks_append hd, by simp; omega⟩
      rw [key?, next_bind hg (by decide), if_neg (by decide), if_neg Bool.false_ne_true, if_pos rfl,
        advance_bind, List.append_assoc, List.append_assoc, List.cons_append]
      refine (next_bind ha (by decide) _ _).trans ?_
      exact hread s

end Members

/-! ### Records -/

namespace Form

variable {φ : Type}

/-- The fields that the members of a map fill, in order. -/
def mentioned (f : Form φ α) (ms : List (Text × Text)) : List φ :=
  ms.filterMap fun m => f.field? m.1

/-- The value behind the key of no field is read over. -/
def Passes (f : Form φ α) (key : Text) : Prop := f.stranger key = (colon >>= fun _ => skip)

/-- The key of no field is turned down. -/
def Refuses (f : Form φ α) (key : Text) : Prop := ∀ s p, f.stranger key s ≠ .ok p

/-- Each part of the record is taken whole, whatever its value. -/
structure Sound (f : Form φ α) : Prop where
  fill (x : φ) (a : α) {v : Text} : IsJson v → Exact (f.fill x a) v
  stranger (key : Text) : f.Passes key ∨ f.Refuses key

lemma mentioned_cons (f : Form φ α) (m : Text × Text) (ms : List (Text × Text)) :
    f.mentioned (m :: ms) = (f.field? m.1).toList ++ f.mentioned ms := by
  rw [mentioned, List.filterMap_cons]
  cases f.field? m.1 <;> rfl

lemma Passes.run {f : Form φ α} {key v b t u : Text} (h : f.Passes key)
    (hcolon : colon t = .ok ((), b ++ (v ++ u))) (hb : IsBlanks b) (hu : Quiet u) (hv : IsJson v) :
    f.stranger key t = .ok ((), u) := by
  rw [Passes] at h
  rw [h, bind_of_ok hcolon]
  exact reads_skip hv b u hb hu

variable [DecidableEq φ] (f : Form φ α) {d : Draft φ α} {key s t u : Text} {x : φ}

lemma mapStep_last {r : Text} (hs : Remains '\x7d' r d.first s []) :
    f.mapStep d s = .ok (.done d.record, r) := by
  rw [mapStep, bind_of_ok (key?_last hs)]
  rfl

lemma mapStep_field (hkey : key? d.first s = .ok (some key, t)) (hcolon : colon t = .ok ((), u))
    (hx : f.field? key = some x) (hseen : x ∉ d.seen) :
    f.mapStep d s =
      (f.fill x d.record >>= fun b => pure (.again ⟨false, x :: d.seen, b⟩)) u := by
  rw [mapStep, bind_of_ok hkey]
  dsimp only
  rw [hx]
  dsimp only
  rw [if_neg hseen, bind_of_ok hcolon]

lemma mapStep_repeated (hkey : key? d.first s = .ok (some key, t)) (hx : f.field? key = some x)
    (hseen : x ∈ d.seen) : f.mapStep d s = .error (.repeatedField (f.name x)) := by
  rw [mapStep, bind_of_ok hkey]
  dsimp only
  rw [hx]
  dsimp only
  rw [if_pos hseen]
  rfl

lemma mapStep_stranger (hkey : key? d.first s = .ok (some key, t)) (hx : f.field? key = none) :
    f.mapStep d s =
      (f.stranger key >>= fun _ => pure (.again ⟨false, d.seen, d.record⟩)) t := by
  rw [mapStep, bind_of_ok hkey]
  dsimp only
  rw [hx]

variable {r : Text} {es : List Text} {ms : List (Text × Text)}

/-- A map is read member by member, each field with what its value makes of the record. -/
lemma loop_mapStep {update : φ → α → α} (hs : Remains '\x7d' r d.first s es)
    (hes : List.Forall₂ MemberSpelled es ms) (hjson : ∀ m ∈ ms, IsJson m.2)
    (hfill : ∀ m ∈ ms, ∀ x, f.field? m.1 = some x → ∀ a, Reads (f.fill x a) m.2 (update x a))
    (hpass : ∀ m ∈ ms, f.field? m.1 = none → f.Passes m.1)
    (hnodup : (f.mentioned ms ++ d.seen).Nodup) :
    loop f.mapStep d s = .ok ((f.mentioned ms).foldl (fun a x => update x a) d.record, r) := by
  induction hes generalizing d s with
  | nil => exact loop_done (f.mapStep_last hs)
  | @cons e m es ms he _ ih =>
    obtain ⟨hv, hjson⟩ := List.forall_mem_cons.mp hjson
    obtain ⟨hm, hfill⟩ := List.forall_mem_cons.mp hfill
    obtain ⟨hp, hpass⟩ := List.forall_mem_cons.mp hpass
    obtain ⟨t, b, u, hkey, hcolon, hb, hu, hlt⟩ := key?_member hs he
    have hquiet : Quiet u := hu.quiet (.inr rfl)
    rw [mentioned_cons] at hnodup ⊢
    cases hx : f.field? m.1 with
    | none =>
      have hstep : f.mapStep d s = .ok (.again ⟨false, d.seen, d.record⟩, u) := by
        rw [f.mapStep_stranger hkey hx, bind_of_ok ((hp hx).run hcolon hb hquiet hv)]
        rfl
      rw [hx] at hnodup
      rw [loop_again hstep hlt]
      exact ih (d := ⟨false, d.seen, d.record⟩) hu hjson hfill hpass hnodup
    | some x =>
      rw [hx] at hnodup
      have hnodup : (x :: (f.mentioned ms ++ d.seen)).Nodup := hnodup
      have hseen : x ∉ d.seen := fun hmem =>
        (List.nodup_cons.mp hnodup).1 (List.mem_append_right _ hmem)
      have hread := hm x hx d.record b u hb hquiet
      have hstep : f.mapStep d s =
          .ok (.again ⟨false, x :: d.seen, update x d.record⟩, u) := by
        rw [f.mapStep_field hkey hcolon hx hseen, bind_of_ok hread]
        rfl
      rw [loop_again hstep hlt]
      exact ih (d := ⟨false, x :: d.seen, update x d.record⟩) hu hjson hfill hpass
        (List.nodup_middle.mpr hnodup)

/-- A round that takes a member goes on behind it, and it fills a field that has not been filled or
leaves the record as it is. -/
lemma mapStep_ok (hf : f.Sound) {v b : Text} (hkey : key? d.first s = .ok (some key, t))
    (hcolon : colon t = .ok ((), b ++ (v ++ u))) (hb : IsBlanks b) (hu : Quiet u) (hv : IsJson v)
    {round : Round (Draft φ α) α} {w : Text} (h : f.mapStep d s = .ok (round, w)) :
    w = u ∧ ((f.field? key = none ∧ f.Passes key ∧ round = .again ⟨false, d.seen, d.record⟩) ∨
      ∃ x a, f.field? key = some x ∧ Accepts (f.fill x d.record) v ∧ x ∉ d.seen ∧
        round = .again ⟨false, x :: d.seen, a⟩) := by
  cases hx : f.field? key with
  | none =>
    rw [f.mapStep_stranger hkey hx] at h
    rcases hf.stranger key with hpass | hrefuse
    · rw [bind_of_ok (hpass.run hcolon hb hu hv)] at h
      cases h
      exact ⟨rfl, .inl ⟨rfl, hpass, rfl⟩⟩
    · obtain ⟨_, _, hstranger, -⟩ := run_bind_eq_ok_iff.mp h
      exact absurd hstranger (hrefuse _ _)
  | some x =>
    by_cases hseen : x ∈ d.seen
    · rw [f.mapStep_repeated hkey hx hseen] at h
      cases h
    · rw [f.mapStep_field hkey hcolon hx hseen, run_bind_eq_ok_iff] at h
      obtain ⟨a, w, hfill, h⟩ := h
      cases h
      exact ⟨hf.fill x d.record hv b u _ hb hu hfill,
        .inr ⟨x, a, rfl, ⟨b, u, _, hb, hu, hfill⟩, hseen, rfl⟩⟩

/-- What the members of a map are like that is read. -/
structure Admits (ms : List (Text × Text)) : Prop where
  passes : ∀ m ∈ ms, f.field? m.1 = none → f.Passes m.1
  accepts : ∀ m ∈ ms, ∀ x, f.field? m.1 = some x → ∃ a, Accepts (f.fill x a) m.2

/-- A map that is read has no field twice, no key that is turned down and no value that is not
taken. -/
lemma loop_mapStep_exact (hf : f.Sound) (hs : Remains '\x7d' r d.first s es)
    (hes : List.Forall₂ MemberSpelled es ms) (hjson : ∀ m ∈ ms, IsJson m.2) (hseen : d.seen.Nodup)
    {a : α} (h : loop f.mapStep d s = .ok (a, t)) :
    t = r ∧ (f.mentioned ms ++ d.seen).Nodup ∧ f.Admits ms := by
  induction hes generalizing d s with
  | nil =>
    rw [loop_done (f.mapStep_last hs)] at h
    cases h
    exact ⟨rfl, hseen, by simp, by simp⟩
  | @cons e m es ms he _ ih =>
    obtain ⟨hv, hjson⟩ := List.forall_mem_cons.mp hjson
    obtain ⟨u, b, w, hkey, hcolon, hb, hw, -⟩ := key?_member hs he
    have hstep {round w'} (h : f.mapStep d s = .ok (round, w')) :=
      f.mapStep_ok hf hkey hcolon hb (hw.quiet (.inr rfl)) hv h
    rw [mentioned_cons]
    rcases loop_cases h with hdone | ⟨next, w', hagain, h⟩
    · obtain ⟨-, ⟨-, -, hround⟩ | ⟨x, c, -, -, -, hround⟩⟩ := hstep hdone
      all_goals cases hround
    · obtain ⟨rfl, ⟨hx, hpass, hround⟩ | ⟨x, c, hx, haccept, hnew, hround⟩⟩ := hstep hagain
      · cases hround
        obtain ⟨ht, hnodup, hms⟩ := ih (d := ⟨false, d.seen, d.record⟩) hw hjson hseen h
        rw [hx]
        refine ⟨ht, hnodup, List.forall_mem_cons.mpr ⟨fun _ => hpass, hms.passes⟩,
          List.forall_mem_cons.mpr ⟨fun x hsome => ?_, hms.accepts⟩⟩
        exact nomatch hx.symm.trans hsome
      · cases hround
        obtain ⟨ht, hnodup, hms⟩ :=
          ih (d := ⟨false, x :: d.seen, c⟩) hw hjson (List.nodup_cons.mpr ⟨hnew, hseen⟩) h
        rw [hx]
        refine ⟨ht, List.nodup_middle.mp hnodup,
          List.forall_mem_cons.mpr ⟨fun hnone => ?_, hms.passes⟩,
          List.forall_mem_cons.mpr ⟨fun y hsome => ?_, hms.accepts⟩⟩
        · exact nomatch hx.symm.trans hnone
        · obtain rfl := Option.some.inj (hx.symm.trans hsome)
          exact ⟨d.record, haccept⟩

/-! ### Whole records -/

lemma read_brace {b : Text} (hb : IsBlanks b) (a : α) (s : Text) :
    f.read a (b ++ '\x7b' :: s) = loop f.mapStep ⟨true, [], a⟩ s :=
  next_bind hb (by decide) s _

lemma read_bracket {b : Text} (hb : IsBlanks b) (a : α) (s : Text) :
    f.read a (b ++ '[' :: s) =
      (f.fillInOrder true a f.fields >>= fun c => endList >>= fun _ => pure c) s :=
  next_bind hb (by decide) s _

/-- **Completeness**: a map with each field at most once is read. -/
theorem reads_object {x : Text} (hx : ObjectSpelled x ms) (hjson : ∀ m ∈ ms, IsJson m.2)
    {update : φ → α → α}
    (hfill : ∀ m ∈ ms, ∀ x, f.field? m.1 = some x → ∀ a, Reads (f.fill x a) m.2 (update x a))
    (hpass : ∀ m ∈ ms, f.field? m.1 = none → f.Passes m.1) (hnodup : (f.mentioned ms).Nodup)
    (a : α) : Reads (f.read a) x ((f.mentioned ms).foldl (fun a x => update x a) a) := by
  intro b r hb _
  obtain ⟨es, hes, hmembers⟩ := hx
  obtain ⟨s, hcut, hs⟩ := hes.remains r
  rw [hcut, f.read_brace hb]
  exact f.loop_mapStep (d := ⟨true, [], a⟩) hs hmembers hjson hfill hpass
    (by rwa [List.append_nil])

/-- **Soundness**: a map that is read is taken whole, and it has each field at most once. -/
theorem object_of_read (hf : f.Sound) {x b r : Text} (hx : ObjectSpelled x ms)
    (hjson : ∀ m ∈ ms, IsJson m.2) (hb : IsBlanks b) {a : α} {p : α × Text}
    (h : f.read a (b ++ (x ++ r)) = .ok p) :
    p.2 = r ∧ (f.mentioned ms).Nodup ∧ f.Admits ms := by
  obtain ⟨es, hes, hmembers⟩ := hx
  obtain ⟨s, hcut, hs⟩ := hes.remains r
  rw [hcut, f.read_brace hb] at h
  have hexact := f.loop_mapStep_exact hf (d := ⟨true, [], a⟩) hs hmembers hjson List.nodup_nil h
  rwa [List.append_nil] at hexact

omit [DecidableEq φ] in
/-- After some fields of a list, the rest of its items are still to come. -/
lemma fillInOrder_exact (hf : f.Sound) {first : Bool} {vs : List Text}
    (hs : Remains ']' r first s es) (hes : List.Forall₂ Padded es vs) (hvs : ∀ v ∈ vs, IsJson v)
    {a b : α} {xs : List φ} (h : fillInOrder f first a xs s = .ok (b, t)) :
    ∃ first es vs, Remains ']' r first t es ∧ List.Forall₂ Padded es vs ∧ ∀ v ∈ vs, IsJson v := by
  induction xs generalizing first a s es vs with
  | nil =>
    cases h
    exact ⟨first, es, vs, hs, hes, hvs⟩
  | cons x xs ih =>
    rw [fillInOrder] at h
    cases hes with
    | nil =>
      rw [bind_of_ok (hasItem_last hs)] at h
      cases h
      exact ⟨true, [], [], .last isBlanks_nil, .nil, by simp⟩
    | @cons e v es vs he hes =>
      obtain ⟨hv, hvs⟩ := List.forall_mem_cons.mp hvs
      obtain ⟨u, hu, hremains, -⟩ := hasItem_item hs he hv
      rw [bind_of_ok hu, if_pos rfl, run_bind_eq_ok_iff] at h
      obtain ⟨c, w, hfill, h⟩ := h
      obtain rfl := hf.fill x a hv [] u _ isBlanks_nil (hremains.quiet (.inl rfl)) hfill
      exact ih hremains hes hvs h

/-- A record is taken whole if each of its parts is. -/
theorem exact_read (hf : f.Sound) {x : Text} (hx : IsJson x) (a : α) : Exact (f.read a) x := by
  have hv := hx
  cases hx with
  | null => exact exact_of_head f.wanted hv rfl rfl
  | bool b => cases b <;> exact exact_of_head f.wanted hv rfl rfl
  | string hx => exact exact_of_head f.wanted hv (head?_of_stringSpelled hx) rfl
  | number hu =>
    obtain ⟨c, hc, hn⟩ := startsNumber_of_spelled hu
    refine exact_of_head f.wanted hv hc ?_
    split
    · cases hn
    · cases hn
    · rfl
  | object hx hms =>
    intro b r p hb _ h
    exact (f.object_of_read hf hx hms hb h).1
  | array hx hvs =>
    intro b r p hb _ h
    obtain ⟨es, hes, hvalues⟩ := hx
    obtain ⟨s, hcut, hs⟩ := hes.remains r
    rw [hcut, f.read_bracket hb, run_bind_eq_ok_iff] at h
    obtain ⟨c, t, hfill, h⟩ := h
    obtain ⟨first, es, vs, hremains, hitems, hjson⟩ := f.fillInOrder_exact hf hs hvalues hvs hfill
    obtain ⟨_, u, hend, h⟩ := run_bind_eq_ok_iff.mp h
    cases h
    exact endList_exact hremains hitems hjson hend

end Form

end StyleVars.Settings.Reader
