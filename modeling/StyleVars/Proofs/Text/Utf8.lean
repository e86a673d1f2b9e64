import Mathlib.Data.List.Induction
import Mathlib.Tactic.Lemma
import Mathlib.Tactic.SplitIfs
import StyleVars.Text.Utf8

/-!
Decoding undoes encoding, and only encoded texts can be decoded: bytes are UTF-8 when they are the
encoding of a text.
-/

namespace StyleVars.Utf8

/-! ### Bytes as numbers -/

lemma isContinuation_iff (b : UInt8) :
    isContinuation b = true ↔ 0x80 ≤ b.toNat ∧ b.toNat ≤ 0xBF := by
  simp [isContinuation, UInt8.le_iff_toNat_le]

lemma leadsTwo_iff (a : UInt8) : leadsTwo a = true ↔ 0xC2 ≤ a.toNat ∧ a.toNat ≤ 0xDF := by
  simp [leadsTwo, UInt8.le_iff_toNat_le]

lemma leadsThree_iff (a b : UInt8) :
    leadsThree a b = true ↔ 0xE0 ≤ a.toNat ∧ a.toNat ≤ 0xEF ∧ 0x80 ≤ b.toNat ∧ b.toNat ≤ 0xBF ∧
      (a.toNat = 0xE0 → 0xA0 ≤ b.toNat) ∧ (a.toNat = 0xED → b.toNat ≤ 0x9F) := by
  simp only [leadsThree, Bool.and_eq_true, Bool.or_eq_true, bne_iff_ne, decide_eq_true_eq,
    isContinuation_iff, UInt8.le_iff_toNat_le, ne_eq, ← UInt8.toNat_inj, UInt8.reduceToNat]
  omega

lemma leadsFour_iff (a b : UInt8) :
    leadsFour a b = true ↔ 0xF0 ≤ a.toNat ∧ a.toNat ≤ 0xF4 ∧ 0x80 ≤ b.toNat ∧ b.toNat ≤ 0xBF ∧
      (a.toNat = 0xF0 → 0x90 ≤ b.toNat) ∧ (a.toNat = 0xF4 → b.toNat ≤ 0x8F) := by
  simp only [leadsFour, Bool.and_eq_true, Bool.or_eq_true, bne_iff_ne, decide_eq_true_eq,
    isContinuation_iff, UInt8.le_iff_toNat_le, ne_eq, ← UInt8.toNat_inj, UInt8.reduceToNat]
  omega

/-! ### Characters as numbers -/

lemma isValidChar_toNat (c : Char) : c.toNat < 0xD800 ∨ 0xDFFF < c.toNat ∧ c.toNat < 0x110000 :=
  c.valid

lemma ofNat_eq {c : Char} {n : Nat} (h : n = c.toNat) : Char.ofNat n = c := by
  rw [h, Char.ofNat_toNat]

lemma toNat_ofNat {n : Nat} (h : n < 0xD800 ∨ 0xDFFF < n ∧ n < 0x110000) :
    (Char.ofNat n).toNat = n := by
  have hvalid : n.isValidChar := h
  rw [Char.ofNat, dif_pos hvalid]
  rfl

lemma toNat_byte {n m : Nat} (h : n = m ∧ m < 256) : (UInt8.ofNat n).toNat = m := by
  rw [UInt8.toNat_ofNat', Nat.mod_eq_of_lt (by omega), h.1]

/-- The bytes of a character, by their number and as numbers. -/
lemma utf8EncodeChar_cases (c : Char) :
    (∃ x, String.utf8EncodeChar c = [x] ∧ c.toNat ≤ 0x7F ∧ x.toNat = c.toNat) ∨
    (∃ x y, String.utf8EncodeChar c = [x, y] ∧ 0x7F < c.toNat ∧ c.toNat ≤ 0x7FF ∧
      x.toNat = c.toNat / 64 + 0xC0 ∧ y.toNat = c.toNat % 64 + 0x80) ∨
    (∃ x y z, String.utf8EncodeChar c = [x, y, z] ∧ 0x7FF < c.toNat ∧ c.toNat ≤ 0xFFFF ∧
      x.toNat = c.toNat / 4096 + 0xE0 ∧ y.toNat = c.toNat / 64 % 64 + 0x80 ∧
      z.toNat = c.toNat % 64 + 0x80) ∨
    ∃ x y z w, String.utf8EncodeChar c = [x, y, z, w] ∧ 0xFFFF < c.toNat ∧
      x.toNat = c.toNat / 262144 + 0xF0 ∧ y.toNat = c.toNat / 4096 % 64 + 0x80 ∧
      z.toNat = c.toNat / 64 % 64 + 0x80 ∧ w.toNat = c.toNat % 64 + 0x80 := by
  have hvalid := isValidChar_toNat c
  have hdef : String.utf8EncodeChar c =
      if c.toNat ≤ 0x7F then [UInt8.ofNat c.toNat]
      else if c.toNat ≤ 0x7FF then
        [UInt8.ofNat (c.toNat / 64 % 32 + 0xC0), UInt8.ofNat (c.toNat % 64 + 0x80)]
      else if c.toNat ≤ 0xFFFF then
        [UInt8.ofNat (c.toNat / 4096 % 16 + 0xE0), UInt8.ofNat (c.toNat / 64 % 64 + 0x80),
          UInt8.ofNat (c.toNat % 64 + 0x80)]
      else
        [UInt8.ofNat (c.toNat / 262144 % 8 + 0xF0), UInt8.ofNat (c.toNat / 4096 % 64 + 0x80),
          UInt8.ofNat (c.toNat / 64 % 64 + 0x80), UInt8.ofNat (c.toNat % 64 + 0x80)] := rfl
  rw [hdef]
  split_ifs with h1 h2 h3
  · exact .inl ⟨_, rfl, h1, toNat_byte (by omega)⟩
  · exact .inr (.inl ⟨_, _, rfl, by omega, h2, toNat_byte (by omega), toNat_byte (by omega)⟩)
  · exact .inr (.inr (.inl ⟨_, _, _, rfl, by omega, h3, toNat_byte (by omega),
      toNat_byte (by omega), toNat_byte (by omega)⟩))
  · exact .inr (.inr (.inr ⟨_, _, _, _, rfl, by omega, toNat_byte (by omega),
      toNat_byte (by omega), toNat_byte (by omega), toNat_byte (by omega)⟩))

/-! ### One character -/

lemma lt_iff (a : UInt8) : a < 0x80 ↔ a.toNat < 0x80 := UInt8.lt_iff_toNat_lt

lemma unit_one {a : UInt8} (r : Bytes) (ha : a.toNat < 0x80) :
    unit a r = (some (Char.ofNat a.toNat), 0) := by
  simp only [unit, (lt_iff a).mpr ha, if_true]

lemma unit_two {a b : UInt8} (r : Bytes) (ha : leadsTwo a = true) (hb : isContinuation b = true) :
    unit a (b :: r) = (some (Char.ofNat ((a.toNat - 0xC0) * 0x40 + low b)), 1) := by
  have hlt : ¬ a < 0x80 := by
    rw [lt_iff]
    have := (leadsTwo_iff a).mp ha
    omega
  simp [unit, hlt, ha, hb]

lemma unit_three {a b c : UInt8} (r : Bytes) (hab : leadsThree a b = true)
    (hc : isContinuation c = true) :
    unit a (b :: c :: r) =
      (some (Char.ofNat (((a.toNat - 0xE0) * 0x40 + low b) * 0x40 + low c)), 2) := by
  have hnat := (leadsThree_iff a b).mp hab
  have hlt : ¬ a < 0x80 := by
    rw [lt_iff]
    omega
  have htwo : ¬ leadsTwo a = true := by
    rw [leadsTwo_iff]
    omega
  simp [unit, hlt, htwo, hab, hc]

lemma unit_four {a b c d : UInt8} (r : Bytes) (hab : leadsFour a b = true)
    (hc : isContinuation c = true) (hd : isContinuation d = true) :
    unit a (b :: c :: d :: r) =
      (some (Char.ofNat ((((a.toNat - 0xF0) * 0x40 + low b) * 0x40 + low c) * 0x40 + low d)), 3) := by
  have hnat := (leadsFour_iff a b).mp hab
  have hlt : ¬ a < 0x80 := by
    rw [lt_iff]
    omega
  have htwo : ¬ leadsTwo a = true := by
    rw [leadsTwo_iff]
    omega
  have hthree : ¬ leadsThree a b = true := by
    rw [leadsThree_iff]
    omega
  simp [unit, hlt, htwo, hthree, hab, hc, hd]

/-- The encoding of a character is read as that character, whatever follows. -/
lemma unit_encode {c : Char} {a : UInt8} {t : Bytes} (h : String.utf8EncodeChar c = a :: t)
    (r : Bytes) : unit a (t ++ r) = (some c, t.length) := by
  have hvalid := isValidChar_toNat c
  rcases utf8EncodeChar_cases c with ⟨x, hc, h1, hx⟩ | ⟨x, y, hc, h1, h2, hx, hy⟩ |
    ⟨x, y, z, hc, h1, h2, hx, hy, hz⟩ | ⟨x, y, z, w, hc, h1, hx, hy, hz, hw⟩
  · obtain ⟨rfl, rfl⟩ := List.cons.inj (hc.symm.trans h)
    rw [unit_one _ (by omega), ofNat_eq hx]
    rfl
  · obtain ⟨rfl, rfl⟩ := List.cons.inj (hc.symm.trans h)
    rw [List.singleton_append,
      unit_two r (by rw [leadsTwo_iff]; omega) (by rw [isContinuation_iff]; omega)]
    refine Prod.ext (congrArg some (ofNat_eq ?_)) rfl
    unfold low
    omega
  · obtain ⟨rfl, rfl⟩ := List.cons.inj (hc.symm.trans h)
    rw [List.cons_append, List.singleton_append,
      unit_three r (by rw [leadsThree_iff]; omega) (by rw [isContinuation_iff]; omega)]
    refine Prod.ext (congrArg some (ofNat_eq ?_)) rfl
    unfold low
    omega
  · obtain ⟨rfl, rfl⟩ := List.cons.inj (hc.symm.trans h)
    rw [List.cons_append, List.cons_append, List.singleton_append,
      unit_four r (by rw [leadsFour_iff]; omega) (by rw [isContinuation_iff]; omega)
        (by rw [isContinuation_iff]; omega)]
    refine Prod.ext (congrArg some (ofNat_eq ?_)) rfl
    unfold low
    omega

lemma encode_one {a : UInt8} (ha : a.toNat < 0x80) :
    String.utf8EncodeChar (Char.ofNat a.toNat) = [a] := by
  have hn := toNat_ofNat (n := a.toNat) (by omega)
  rcases utf8EncodeChar_cases (Char.ofNat a.toNat) with ⟨x, hc, h1, hx⟩ | ⟨x, y, hc, h1, -⟩ |
    ⟨x, y, z, hc, h1, -⟩ | ⟨x, y, z, w, hc, h1, -⟩
  · rw [hc, ← UInt8.toNat_inj.mp (hx.trans hn)]
  all_goals omega

lemma encode_two {a b : UInt8} (ha : leadsTwo a = true) (hb : isContinuation b = true) :
    String.utf8EncodeChar (Char.ofNat ((a.toNat - 0xC0) * 0x40 + low b)) = [a, b] := by
  rw [leadsTwo_iff] at ha
  rw [isContinuation_iff] at hb
  unfold low
  have hn := toNat_ofNat (n := (a.toNat - 0xC0) * 0x40 + (b.toNat - 0x80)) (by omega)
  rcases utf8EncodeChar_cases (Char.ofNat ((a.toNat - 0xC0) * 0x40 + (b.toNat - 0x80))) with
    ⟨x, hc, h1, -⟩ | ⟨x, y, hc, h1, h2, hx, hy⟩ | ⟨x, y, z, hc, h1, -⟩ | ⟨x, y, z, w, hc, h1, -⟩
  · omega
  · have hxa : x = a := UInt8.toNat_inj.mp (by omega)
    have hyb : y = b := UInt8.toNat_inj.mp (by omega)
    rw [hc, hxa, hyb]
  all_goals omega

lemma encode_three {a b c : UInt8} (hab : leadsThree a b = true) (hc : isContinuation c = true) :
    String.utf8EncodeChar (Char.ofNat (((a.toNat - 0xE0) * 0x40 + low b) * 0x40 + low c)) =
      [a, b, c] := by
  rw [leadsThree_iff] at hab
  rw [isContinuation_iff] at hc
  unfold low
  have hn := toNat_ofNat
    (n := ((a.toNat - 0xE0) * 0x40 + (b.toNat - 0x80)) * 0x40 + (c.toNat - 0x80)) (by omega)
  rcases utf8EncodeChar_cases
      (Char.ofNat (((a.toNat - 0xE0) * 0x40 + (b.toNat - 0x80)) * 0x40 + (c.toNat - 0x80))) with
    ⟨x, he, h1, -⟩ | ⟨x, y, he, h1, h2, -⟩ | ⟨x, y, z, he, h1, h2, hx, hy, hz⟩ |
    ⟨x, y, z, w, he, h1, -⟩
  · omega
  · omega
  · have hxa : x = a := UInt8.toNat_inj.mp (by omega)
    have hyb : y = b := UInt8.toNat_inj.mp (by omega)
    have hzc : z = c := UInt8.toNat_inj.mp (by omega)
    rw [he, hxa, hyb, hzc]
  · omega

lemma encode_four {a b c d : UInt8} (hab : leadsFour a b = true) (hc : isContinuation c = true)
    (hd : isContinuation d = true) :
    String.utf8EncodeChar
      (Char.ofNat ((((a.toNat - 0xF0) * 0x40 + low b) * 0x40 + low c) * 0x40 + low d)) =
      [a, b, c, d] := by
  rw [leadsFour_iff] at hab
  rw [isContinuation_iff] at hc hd
  unfold low
  have hn := toNat_ofNat (n := (((a.toNat - 0xF0) * 0x40 + (b.toNat - 0x80)) * 0x40 +
    (c.toNat - 0x80)) * 0x40 + (d.toNat - 0x80)) (by omega)
  rcases utf8EncodeChar_cases (Char.ofNat ((((a.toNat - 0xF0) * 0x40 + (b.toNat - 0x80)) * 0x40 +
      (c.toNat - 0x80)) * 0x40 + (d.toNat - 0x80))) with
    ⟨x, he, h1, -⟩ | ⟨x, y, he, h1, h2, -⟩ | ⟨x, y, z, he, h1, h2, -⟩ |
    ⟨x, y, z, w, he, h1, hx, hy, hz, hw⟩
  · omega
  · omega
  · omega
  · have hxa : x = a := UInt8.toNat_inj.mp (by omega)
    have hyb : y = b := UInt8.toNat_inj.mp (by omega)
    have hzc : z = c := UInt8.toNat_inj.mp (by omega)
    have hwd : w = d := UInt8.toNat_inj.mp (by omega)
    rw [he, hxa, hyb, hzc, hwd]

/-- What is read as one character is the encoding of that character. -/
lemma encode_of_unit {a : UInt8} {r : Bytes} {c : Char} {k : Nat} (h : unit a r = (some c, k)) :
    String.utf8EncodeChar c = a :: r.take k := by
  have hinj {n j : Nat} (h : (some (Char.ofNat n), j) = (some c, k)) : Char.ofNat n = c ∧ j = k :=
    ⟨Option.some.inj (Prod.mk.inj h).1, (Prod.mk.inj h).2⟩
  have hnone {j : Nat} (h : ((none : Option Char), j) = (some c, k)) : False :=
    Option.some_ne_none c (Prod.mk.inj h).1.symm
  unfold unit at h
  repeat' split at h
  any_goals exact (hnone h).elim
  all_goals obtain ⟨rfl, rfl⟩ := hinj h
  · next ha =>
    exact encode_one ((lt_iff a).mp ha)
  · next b r hab =>
    rw [Bool.and_eq_true] at hab
    exact encode_two hab.1 hab.2
  · next b _ hab _ c r hc =>
    exact encode_three hab hc
  · next b _ _ hab _ c hc _ d r hd =>
    exact encode_four hab hc hd

/-! ### Texts -/

/-- Bytes are taken away unit by unit. -/
theorem unitInduction {motive : Bytes → Prop} (nil : motive [])
    (cons : ∀ a r, motive (r.drop (unit a r).2) → motive (a :: r)) (bs : Bytes) : motive bs :=
  match bs with
  | [] => nil
  | a :: r => cons a r (unitInduction nil cons (r.drop (unit a r).2))
termination_by bs.length
decreasing_by rw [List.length_drop, List.length_cons]; omega

lemma unitsOnto_eq (acc : List (Option Char)) (bs : Bytes) :
    unitsOnto acc bs = acc.reverse ++ units bs := by
  unfold units
  induction bs using unitInduction generalizing acc with
  | nil => simp [unitsOnto]
  | cons a r ih =>
    rw [unitsOnto, unitsOnto, ih, ih [(unit a r).1]]
    simp

lemma decode?_nil : decode? [] = some [] := by simp [decode?, units, unitsOnto]

lemma decode?_cons (a : UInt8) (r : Bytes) :
    decode? (a :: r) =
      (unit a r).1.bind fun c => (decode? (r.drop (unit a r).2)).map (c :: ·) := by
  have hunits : units (a :: r) = (unit a r).1 :: units (r.drop (unit a r).2) := by
    rw [units, unitsOnto, unitsOnto_eq]
    rfl
  rw [decode?, decode?, hunits, List.mapM_cons]
  cases (unit a r).1 with
  | none => rfl
  | some c => cases (units (r.drop (unit a r).2)).mapM id <;> rfl

/-- An encoded text is decoded to that text. -/
theorem decode?_encode (s : Text) : decode? (encode s) = some s := by
  induction s with
  | nil => exact decode?_nil
  | cons c s ih =>
    obtain ⟨a, t, h⟩ := List.exists_cons_of_ne_nil (String.utf8EncodeChar_ne_nil (c := c))
    have hcons : encode (c :: s) = a :: (t ++ encode s) := by
      rw [encode, List.flatMap_cons, h]
      rfl
    rw [hcons, decode?_cons, unit_encode h, Option.bind_some, List.drop_left, ih]
    rfl

/-- What can be decoded is the encoding of the text. -/
theorem encode_of_decode? {bs : Bytes} {s : Text} (h : decode? bs = some s) : encode s = bs := by
  induction bs using unitInduction generalizing s with
  | nil =>
    obtain rfl : [] = s := Option.some.inj (decode?_nil.symm.trans h)
    rfl
  | cons a r ih =>
    rw [decode?_cons] at h
    obtain ⟨c, hc, h⟩ := Option.bind_eq_some_iff.mp h
    obtain ⟨s, hs, rfl⟩ := Option.map_eq_some_iff.mp h
    have hcons : encode (c :: s) = String.utf8EncodeChar c ++ encode s := rfl
    rw [hcons, encode_of_unit (Prod.ext hc rfl), ih hs, List.cons_append, List.take_append_drop]

/-- **Bytes are decoded to a text if they are its encoding**, and not at all otherwise. -/
theorem decode?_eq_some_iff {bs : Bytes} {s : Text} : decode? bs = some s ↔ bs = encode s :=
  ⟨fun h => (encode_of_decode? h).symm, fun h => h ▸ decode?_encode s⟩

/-! ### Endings -/

lemma encode_append (s t : Text) : encode (s ++ t) = encode s ++ encode t := List.flatMap_append

lemma encode_singleton (c : Char) : encode [c] = String.utf8EncodeChar c := List.append_nil _

/-- The last byte of a character is its number, or a byte that only goes on with it. -/
lemma exists_getLast?_utf8EncodeChar (c : Char) :
    ∃ x, (String.utf8EncodeChar c).getLast? = some x ∧
      (x.toNat = c.toNat ∨ 0x80 ≤ x.toNat ∧ 0x80 ≤ c.toNat) := by
  rcases utf8EncodeChar_cases c with ⟨x, hc, -, hx⟩ | ⟨_, x, hc, hlt, -, -, hx⟩ |
    ⟨_, _, x, hc, hlt, -, -, -, hx⟩ | ⟨_, _, _, x, hc, hlt, -, -, -, hx⟩
  · exact ⟨x, by rw [hc]; rfl, .inl hx⟩
  all_goals exact ⟨x, by rw [hc]; rfl, .inr (by omega)⟩

/-- Encodings that end alike end in the same character if one of them ends in an ASCII character. -/
lemma eq_of_append_utf8EncodeChar {c d : Char} {bs bs' : Bytes} (hc : c.toNat < 0x80)
    (h : bs ++ String.utf8EncodeChar c = bs' ++ String.utf8EncodeChar d) : c = d := by
  obtain ⟨x, hcx, hx⟩ := exists_getLast?_utf8EncodeChar c
  obtain ⟨y, hdy, hy⟩ := exists_getLast?_utf8EncodeChar d
  have hlast := congrArg List.getLast? h
  rw [List.getLast?_append, List.getLast?_append, hcx, hdy] at hlast
  obtain rfl : x = y := Option.some.inj hlast
  exact Char.toNat_inj.mp (by omega)

/-- **An ASCII ending of an encoding is an ending of the text.** -/
theorem isSuffix_of_isSuffix_encode {s t : Text} (hs : ∀ c ∈ s, c.toNat < 0x80)
    (h : encode s <:+ encode t) : s <:+ t := by
  induction s using List.reverseRecOn generalizing t with
  | nil => exact List.nil_suffix
  | append_singleton s c ih =>
    obtain ⟨hinit, hc⟩ := List.forall_mem_append.mp hs
    obtain ⟨bs, hbs⟩ := h
    rw [encode_append, encode_singleton, ← List.append_assoc] at hbs
    rcases List.eq_nil_or_concat t with rfl | ⟨t, d, rfl⟩
    · simp [encode, String.utf8EncodeChar_ne_nil] at hbs
    · rw [List.concat_eq_append, encode_append, encode_singleton] at hbs
      obtain rfl := eq_of_append_utf8EncodeChar (hc c List.mem_cons_self) hbs
      obtain ⟨r, rfl⟩ := ih hinit ⟨bs, List.append_cancel_right hbs⟩
      exact ⟨r, by simp⟩

end StyleVars.Utf8
