import StyleVars.Proofs.Json.Escapes
import StyleVars.Proofs.Json.NumberLiteral
import StyleVars.Settings.Reader.Scalar

/-!
Strict JSON as it is written, character by character: blanks may stand around every part, a comma
stands between two entries and nowhere else, and there are no comments.
-/

namespace StyleVars.Settings

open Json (StringSpelled NumberSpelled Quiet)

/-! ### The grammar -/

def IsBlanks (b : Text) : Prop := ∀ c ∈ b, Json.isBlank c = true

/-- The text `x` is the text `v` with blanks around it. -/
inductive Padded : Text → Text → Prop where
  | mk {a v b : Text} : IsBlanks a → IsBlanks b → Padded (a ++ (v ++ b)) v

/-- The text `x` is a member of an object, with blanks around its parts: a key and the text of its
value. -/
inductive MemberSpelled : Text → Text × Text → Prop where
  | mk {a k key b x v : Text} : IsBlanks a → StringSpelled k key → IsBlanks b → Padded x v →
      MemberSpelled (a ++ (k ++ (b ++ ':' :: x))) (key, v)

/-- The entries `es` between two brackets, with a comma before each but the first. -/
inductive Enclosed (left right : Char) : Text → List Text → Prop where
  | empty {b : Text} : IsBlanks b → Enclosed left right (left :: (b ++ [right])) []
  | entries {e : Text} {es : List Text} :
      Enclosed left right (left :: (e ++ es.flatMap (',' :: ·) ++ [right])) (e :: es)

/-- The text `x` is an array of the values `vs`. -/
def ArraySpelled (x : Text) (vs : List Text) : Prop :=
  ∃ es, Enclosed '[' ']' x es ∧ List.Forall₂ Padded es vs

/-- The text `x` is an object with the members `ms`. -/
def ObjectSpelled (x : Text) (ms : List (Text × Text)) : Prop :=
  ∃ es, Enclosed '\x7b' '\x7d' x es ∧ List.Forall₂ MemberSpelled es ms

def boolText (b : Bool) : Text := if b then "true".toList else "false".toList

/-- A value. -/
inductive IsJson : Text → Prop where
  | null : IsJson "null".toList
  | bool (b : Bool) : IsJson (boolText b)
  | number {u : Text} {n : Json.NumberText} : NumberSpelled u n → IsJson u
  | string {x s : Text} : StringSpelled x s → IsJson x
  | array {x : Text} {vs : List Text} : ArraySpelled x vs → (∀ v ∈ vs, IsJson v) → IsJson x
  | object {x : Text} {ms : List (Text × Text)} :
      ObjectSpelled x ms → (∀ m ∈ ms, IsJson m.2) → IsJson x

/-! ### Blanks -/

lemma isBlanks_nil : IsBlanks [] := by simp [IsBlanks]

lemma IsBlanks.append {a b : Text} (ha : IsBlanks a) (hb : IsBlanks b) : IsBlanks (a ++ b) :=
  List.forall_mem_append.mpr ⟨ha, hb⟩

lemma isBlank_iff {c : Char} : Json.isBlank c = true ↔ c ∈ [' ', '\t', '\n', '\r'] := by
  simp [Json.isBlank, or_assoc]

lemma quiet_cons {c : Char} {r : Text} (hd : Numeral.isDigit c = false)
    (hc : c ≠ '.' ∧ c ≠ 'e' ∧ c ≠ 'E') : Quiet (c :: r) := by
  intro d hhead
  obtain rfl := Option.some.inj hhead
  exact ⟨hd, hc⟩

lemma IsBlanks.quiet_append {b r : Text} (hb : IsBlanks b) (hr : Quiet r) : Quiet (b ++ r) := by
  cases b with
  | nil => exact hr
  | cons c b =>
    have hc := isBlank_iff.mp (hb c List.mem_cons_self)
    simp only [List.mem_cons, List.not_mem_nil, or_false] at hc
    rcases hc with rfl | rfl | rfl | rfl
    all_goals exact quiet_cons (by decide) (by decide)

/-! ### What is still to come between brackets -/

/-- The entries `es`, the right bracket and the text `r` are still to come in the text `s`; `first`
says that no entry has come yet. -/
inductive Remains (right : Char) (r : Text) : Bool → Text → List Text → Prop where
  | last {first : Bool} {b : Text} : IsBlanks b → Remains right r first (b ++ right :: r) []
  | first {e s : Text} {es : List Text} :
      Remains right r false s es → Remains right r true (e ++ s) (e :: es)
  | next {b e s : Text} {es : List Text} : IsBlanks b →
      Remains right r false s es → Remains right r false (b ++ ',' :: (e ++ s)) (e :: es)

namespace Remains

variable {right : Char} {r s : Text} {es : List Text}

lemma blanks_append {b : Text} (hb : IsBlanks b) (h : Remains right r false s es) :
    Remains right r false (b ++ s) es := by
  cases h with
  | last ha =>
    rw [← List.append_assoc]
    exact .last (hb.append ha)
  | next ha hs =>
    rw [← List.append_assoc]
    exact .next (hb.append ha) hs

lemma of_flatMap (right : Char) (r : Text) (es : List Text) :
    Remains right r false (es.flatMap (',' :: ·) ++ right :: r) es := by
  induction es with
  | nil => exact .last isBlanks_nil
  | cons e es ih =>
    rw [List.flatMap_cons, List.append_assoc, List.cons_append]
    exact .next isBlanks_nil ih

lemma quiet (h : Remains right r false s es) (hright : right = ']' ∨ right = '\x7d') :
    Quiet s := by
  cases h with
  | last hb =>
    refine hb.quiet_append ?_
    rcases hright with rfl | rfl
    all_goals exact quiet_cons (by decide) (by decide)
  | next hb _ => exact hb.quiet_append (quiet_cons (by decide) (by decide))

end Remains

lemma Enclosed.remains {left right : Char} {x : Text} {es : List Text}
    (h : Enclosed left right x es) (r : Text) :
    ∃ s, x ++ r = left :: s ∧ Remains right r true s es := by
  cases h with
  | @empty b hb => exact ⟨b ++ right :: r, by simp, .last hb⟩
  | @entries e es =>
    refine ⟨e ++ (es.flatMap (',' :: ·) ++ right :: r), by simp, .first (.of_flatMap right r es)⟩

/-! ### How values begin -/

/-- A value does not begin with a blank, a comma or a right bracket. -/
def Opens (c : Char) : Prop := Json.isBlank c = false ∧ c ≠ ',' ∧ c ≠ ']' ∧ c ≠ '\x7d'

instance (c : Char) : Decidable (Opens c) := inferInstanceAs (Decidable (_ ∧ _))

lemma opens_of_startsNumber {c : Char} (h : Reader.startsNumber c = true) : Opens c := by
  have hc : c ∉ [' ', '\t', '\n', '\r', ',', ']', '\x7d'] := by
    intro hmem
    simp only [List.mem_cons, List.not_mem_nil, or_false] at hmem
    rcases hmem with rfl | rfl | rfl | rfl | rfl | rfl | rfl
    all_goals cases h
  rw [Opens, ← Bool.not_eq_true, isBlank_iff]
  simp_all

lemma startsNumber_of_spelled {u : Text} {n : Json.NumberText} (h : NumberSpelled u n) :
    ∃ c, u.head? = some c ∧ Reader.startsNumber c = true := by
  obtain ⟨c, cs, rfl, hc⟩ := h.eq_cons
  refine ⟨c, rfl, ?_⟩
  rcases hc with rfl | hc
  · rfl
  · simp [Reader.startsNumber, hc]

lemma eq_cons_of_stringSpelled {x s : Text} (h : StringSpelled x s) : ∃ u, x = '"' :: u := by
  obtain ⟨us, -, rfl⟩ := h
  exact ⟨_, rfl⟩

lemma head?_of_stringSpelled {x s : Text} (h : StringSpelled x s) : x.head? = some '"' := by
  obtain ⟨u, rfl⟩ := eq_cons_of_stringSpelled h
  rfl

lemma Enclosed.head? {left right : Char} {x : Text} {es : List Text}
    (h : Enclosed left right x es) : x.head? = some left := by
  cases h <;> rfl

lemma ArraySpelled.head? {x : Text} {vs : List Text} (h : ArraySpelled x vs) :
    x.head? = some '[' := by
  obtain ⟨es, hes, -⟩ := h
  exact hes.head?

lemma ObjectSpelled.head? {x : Text} {ms : List (Text × Text)} (h : ObjectSpelled x ms) :
    x.head? = some '\x7b' := by
  obtain ⟨es, hes, -⟩ := h
  exact hes.head?

lemma IsJson.exists_opens {v : Text} (h : IsJson v) : ∃ c, v.head? = some c ∧ Opens c := by
  cases h with
  | null => exact ⟨_, rfl, by decide⟩
  | bool b => cases b <;> exact ⟨_, rfl, by decide⟩
  | number hu =>
    obtain ⟨c, hc, hn⟩ := startsNumber_of_spelled hu
    exact ⟨c, hc, opens_of_startsNumber hn⟩
  | string hx => exact ⟨_, head?_of_stringSpelled hx, by decide⟩
  | array hx _ => exact ⟨_, hx.head?, by decide⟩
  | object hx _ => exact ⟨_, hx.head?, by decide⟩

lemma IsJson.eq_cons {v : Text} (h : IsJson v) : ∃ c cs, v = c :: cs ∧ Opens c := by
  obtain ⟨c, hc, hopens⟩ := h.exists_opens
  obtain ⟨cs, rfl⟩ := List.head?_eq_some_iff.mp hc
  exact ⟨c, cs, rfl, hopens⟩

/-! ### Without blanks and escapes -/

lemma spelled_self {s : Text}
    (h : (s.all fun c => c != '"' && c != '\\' && decide (0x20 ≤ c.toNat)) = true) :
    Json.Spelled s s := by
  induction s with
  | nil => exact .nil
  | cons c s ih =>
    simp only [List.all_cons, Bool.and_eq_true, bne_iff_ne, decide_eq_true_eq] at h
    exact .plain h.1.1.1 h.1.1.2 h.1.2 (ih (by simpa using h.2))

lemma padded_self (v : Text) : Padded v v := by
  simpa using Padded.mk (v := v) isBlanks_nil isBlanks_nil

lemma memberSpelled_tight {u key : Text} (h : Json.Spelled u key) (v : Text) :
    MemberSpelled ('"' :: u ++ ['"'] ++ ':' :: v) (key, v) := by
  obtain ⟨us, hus, rfl⟩ := Json.forall₂_of_spelled h
  simpa using MemberSpelled.mk isBlanks_nil ⟨us, hus, rfl⟩ isBlanks_nil (padded_self v)

lemma objectSpelled_pair {e e' : Text} {m m' : Text × Text} (h : MemberSpelled e m)
    (h' : MemberSpelled e' m') : ObjectSpelled ('\x7b' :: (e ++ ',' :: e' ++ ['\x7d'])) [m, m'] :=
  ⟨[e, e'], by simpa using @Enclosed.entries _ _ e [e'], .cons h (.cons h' .nil)⟩

end StyleVars.Settings
