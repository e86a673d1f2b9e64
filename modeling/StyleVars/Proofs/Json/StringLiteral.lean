import Mathlib.Data.List.Basic
import StyleVars.Json.Token.Scan

/-!
The spellings of strings. What stands between the quotes is a row of plain characters, escapes of
two characters, and sixteen-bit units, where surrogates come in pairs; `Spelled` says which string
a row denotes. The reader takes a string exactly where such a row and a quote stand.
-/

namespace StyleVars.Json

/-- The characters `u` between quotes denote the string `s`. -/
inductive Spelled : Text → Text → Prop where
  | nil : Spelled [] []
  | plain {c : Char} {u s : Text} :
      c ≠ '"' → c ≠ '\\' → 0x20 ≤ c.toNat → Spelled u s → Spelled (c :: u) (c :: s)
  | short {c e : Char} {u s : Text} :
      shortEscape? c = some e → Spelled u s → Spelled ('\\' :: c :: u) (e :: s)
  | unit {a b c d : Char} {n : Nat} {u s : Text} :
      unit? a b c d = some n → isHighSurrogate n = false → isLowSurrogate n = false →
      Spelled u s → Spelled ('\\' :: 'u' :: a :: b :: c :: d :: u) (Char.ofNat n :: s)
  | pair {a b c d e f g h : Char} {m n : Nat} {u s : Text} :
      unit? a b c d = some m → isHighSurrogate m = true →
      unit? e f g h = some n → isLowSurrogate n = true → Spelled u s →
      Spelled ('\\' :: 'u' :: a :: b :: c :: d :: '\\' :: 'u' :: e :: f :: g :: h :: u)
        (surrogatePair m n :: s)

/-! ### Single steps of the reader -/

variable {start p : Position} {acc cs : Text}

lemma stringBody_quote :
    stringBody start acc p ('"' :: cs) = .ok (acc.reverse, ⟨p.right 1, cs⟩) := by
  simp [stringBody]

lemma stringBody_plain {c : Char} (hq : c ≠ '"') (hb : c ≠ '\\') (hc : 0x20 ≤ c.toNat) :
    stringBody start acc p (c :: cs) = stringBody start (c :: acc) (p.right 1) cs := by
  rw [stringBody]
  · rw [if_neg (by omega)]
  all_goals simp_all

lemma stringBody_short {c e : Char} (h : shortEscape? c = some e) :
    stringBody start acc p ('\\' :: c :: cs) = stringBody start (e :: acc) (p.right 2) cs := by
  have hu : c ≠ 'u' := by
    rintro rfl
    cases h
  rw [stringBody]
  · rw [h]
  all_goals simp_all

lemma stringBody_unit {a b c d : Char} {n : Nat} (h : unit? a b c d = some n)
    (hhigh : isHighSurrogate n = false) (hlow : isLowSurrogate n = false) :
    stringBody start acc p ('\\' :: 'u' :: a :: b :: c :: d :: cs) =
      stringBody start (Char.ofNat n :: acc) (p.right 6) cs := by
  simp [stringBody, h, hhigh, hlow]

lemma stringBody_pair {a b c d e f g h : Char} {m n : Nat} (hm : unit? a b c d = some m)
    (hhigh : isHighSurrogate m = true) (hn : unit? e f g h = some n)
    (hlow : isLowSurrogate n = true) :
    stringBody start acc p
        ('\\' :: 'u' :: a :: b :: c :: d :: '\\' :: 'u' :: e :: f :: g :: h :: cs) =
      stringBody start (surrogatePair m n :: acc) (p.right 12) cs := by
  simp [stringBody, hm, hhigh, hn, hlow]

/-! ### The reader against the spellings -/

/-- **Completeness**: a spelling and a quote are read, whatever stands behind. -/
theorem stringBody_of_spelled {u s : Text} (h : Spelled u s) (start p : Position) (acc r : Text) :
    stringBody start acc p (u ++ '"' :: r) =
      .ok (acc.reverse ++ s, ⟨p.right (u.length + 1), r⟩) := by
  induction h generalizing acc p with
  | nil => simp [stringBody_quote]
  | plain hq hb hc _ ih =>
    rw [List.cons_append, stringBody_plain hq hb hc, ih]
    simp [Position.right]
    omega
  | short he _ ih =>
    rw [List.cons_append, List.cons_append, stringBody_short he, ih]
    simp [Position.right]
    omega
  | unit hn hhigh hlow _ ih =>
    simp only [List.cons_append]
    rw [stringBody_unit hn hhigh hlow, ih]
    simp [Position.right]
    omega
  | pair hm hhigh hn hlow _ ih =>
    simp only [List.cons_append]
    rw [stringBody_pair hm hhigh hn hlow, ih]
    simp [Position.right]
    omega

/-- **Soundness**: what is read is a spelling and a quote. -/
theorem spelled_of_stringBody {start p : Position} {acc cs t : Text} {k : Cursor}
    (h : stringBody start acc p cs = .ok (t, k)) :
    ∃ u s, Spelled u s ∧ cs = u ++ '"' :: k.rest ∧ t = acc.reverse ++ s := by
  fun_induction stringBody start acc p cs with
  | case2 acc p cs =>
    cases h
    exact ⟨[], [], .nil, rfl, by simp⟩
  | case5 acc p a b c d m hm hhigh e f g h' cs n hn hlow ih =>
    obtain ⟨u, s, hu, rfl, rfl⟩ := ih h
    exact ⟨_, _, .pair hm hhigh hn hlow hu, rfl, by simp⟩
  | case9 acc p a b c d cs n hn hhigh hlow ih =>
    obtain ⟨u, s, hu, rfl, rfl⟩ := ih h
    exact ⟨_, _, .unit hn (by simpa using hhigh) (by simpa using hlow) hu, rfl, by simp⟩
  | case10 acc p c cs _ e he ih =>
    obtain ⟨u, s, hu, rfl, rfl⟩ := ih h
    exact ⟨_, _, .short he hu, rfl, by simp⟩
  | case14 acc p c cs hq _ hb₁ hb₂ hc ih =>
    obtain ⟨u, s, hu, rfl, rfl⟩ := ih h
    have hb : c ≠ '\\' := by
      rintro rfl
      cases hcs : u ++ '"' :: k.rest with
      | nil => exact hb₂ rfl hcs
      | cons d ds => exact hb₁ d ds rfl hcs
    exact ⟨_, _, .plain hq hb (by omega) hu, rfl, by simp⟩
  | _ => cases h

/-- The reader stops right behind the quote that ends the string. -/
lemma stringBody_eq_ok_iff {start p : Position} {cs s : Text} {k : Cursor} :
    stringBody start [] p cs = .ok (s, k) ↔
      ∃ u, Spelled u s ∧ cs = u ++ '"' :: k.rest ∧ k.pos = p.right (u.length + 1) := by
  constructor
  · intro h
    obtain ⟨u, s', hu, rfl, rfl⟩ := spelled_of_stringBody h
    rw [stringBody_of_spelled hu] at h
    have hk : ⟨p.right (u.length + 1), k.rest⟩ = k := (Prod.mk.inj (Except.ok.inj h)).2
    exact ⟨u, hu, rfl, congrArg Cursor.pos hk.symm⟩
  · rintro ⟨u, hu, rfl, hpos⟩
    rw [stringBody_of_spelled hu, ← hpos]
    rfl

end StyleVars.Json
