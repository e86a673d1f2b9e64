import StyleVars.Proofs.Json.StringLiteral
import StyleVars.Proofs.Result
import StyleVars.Proofs.Text.Utf8

/-!
Spellings of strings, character by character: a character stands for itself, has an escape of two
characters, or is escaped by the sixteen-bit units of its UTF-16 form. The reader takes exactly the
strings that are put together from such spellings.
-/

namespace StyleVars.Json

/-! ### The spellings of a character -/

/-- The hexadecimal digits of either case with what they stand for. -/
def hexDigits : List (Char × Nat) :=
  "0123456789abcdef".toList.zipIdx ++ "0123456789ABCDEF".toList.zipIdx

/-- The escape of a sixteen-bit unit. -/
inductive UnitSpelled : Text → Nat → Prop where
  | mk {a b c d : Char} {i j k l : Nat} :
      (a, i) ∈ hexDigits → (b, j) ∈ hexDigits → (c, k) ∈ hexDigits → (d, l) ∈ hexDigits →
      UnitSpelled ['\\', 'u', a, b, c, d] (i * 0x1000 + j * 0x100 + k * 0x10 + l)

/-- The UTF-16 form of a character: one unit, or a high and a low surrogate with ten bits each. -/
def utf16 (c : Char) : List Nat :=
  if c.toNat < 0x10000 then [c.toNat]
  else [0xD800 + (c.toNat - 0x10000) / 0x400, 0xDC00 + (c.toNat - 0x10000) % 0x400]

/-- What may stand behind a backslash on its own, and what that denotes. -/
def shortEscapes : List (Char × Char) :=
  [('"', '"'), ('\\', '\\'), ('/', '/'), ('b', '\x08'), ('f', '\x0c'), ('n', '\n'), ('r', '\r'),
    ('t', '\t')]

/-- A spelling of a character inside a string. -/
inductive CharSpelled : Text → Char → Prop where
  | plain {c : Char} : 0x20 ≤ c.toNat → c ≠ '"' → c ≠ '\\' → CharSpelled [c] c
  | short {a c : Char} : (a, c) ∈ shortEscapes → CharSpelled ['\\', a] c
  | units {us : List Text} {c : Char} :
      List.Forall₂ UnitSpelled us (utf16 c) → CharSpelled us.flatten c

/-- A spelling of a string: the spellings of its characters between quotes. -/
def StringSpelled (x s : Text) : Prop :=
  ∃ us, List.Forall₂ CharSpelled us s ∧ x = '"' :: us.flatten ++ ['"']

/-! ### The units -/

lemma toNat_lt_of_hexValue? {c : Char} {d : Nat} (h : Numeral.hexValue? c = some d) :
    c.toNat < 128 := by
  have hle : ∀ e : Char, c ≤ e → e.toNat < 128 → c.toNat < 128 := fun e hc he =>
    Nat.lt_of_le_of_lt (UInt32.le_iff_toNat_le.mp hc) he
  unfold Numeral.hexValue? at h
  split at h
  · next hc =>
    simp only [Numeral.isDigit, Bool.and_eq_true, decide_eq_true_eq] at hc
    exact hle '9' hc.2 (by decide)
  · split at h
    · next hc => exact hle 'f' hc.2 (by decide)
    · split at h
      · next hc => exact hle 'F' hc.2 (by decide)
      · cases h

lemma hexValue?_eq_some_iff {c : Char} {d : Nat} :
    Numeral.hexValue? c = some d ↔ (c, d) ∈ hexDigits := by
  constructor
  · intro h
    have all : ∀ n : Fin 128, ∀ e ∈ Numeral.hexValue? (Char.ofNat n),
        (Char.ofNat n, e) ∈ hexDigits := by decide
    have hc := all ⟨c.toNat, toNat_lt_of_hexValue? h⟩ d
    rw [Utf8.ofNat_eq rfl] at hc
    exact hc h
  · intro h
    have all : ∀ e ∈ hexDigits, Numeral.hexValue? e.1 = some e.2 := by decide
    exact all (c, d) h

lemma unit?_eq_some_iff {a b c d : Char} {n : Nat} :
    unit? a b c d = some n ↔ UnitSpelled ['\\', 'u', a, b, c, d] n := by
  have hvalue : ∀ i j k l : Nat,
      ((i * 16 + j) * 16 + k) * 16 + l = i * 0x1000 + j * 0x100 + k * 0x10 + l := by omega
  simp only [unit?, Option.bind_eq_bind, Option.bind_eq_some_iff, Option.pure_def,
    Option.some.injEq, hexValue?_eq_some_iff, hvalue]
  constructor
  · rintro ⟨i, hi, j, hj, k, hk, l, hl, rfl⟩
    exact .mk hi hj hk hl
  · intro h
    cases h with
    | mk hi hj hk hl => exact ⟨_, hi, _, hj, _, hk, _, hl, rfl⟩

lemma UnitSpelled.eq_cons {u : Text} {n : Nat} (h : UnitSpelled u n) :
    ∃ a b c d, u = ['\\', 'u', a, b, c, d] ∧ unit? a b c d = some n := by
  cases h with
  | mk hi hj hk hl => exact ⟨_, _, _, _, rfl, unit?_eq_some_iff.mpr (.mk hi hj hk hl)⟩

lemma unit?_lt {a b c d : Char} {n : Nat} (h : unit? a b c d = some n) : n < 0x10000 := by
  have digit : ∀ e ∈ hexDigits, e.2 < 16 := by decide
  cases unit?_eq_some_iff.mp h with
  | @mk _ _ _ _ i j k l hi hj hk hl =>
    have hi' : i < 16 := digit _ hi
    have hj' : j < 16 := digit _ hj
    have hk' : k < 16 := digit _ hk
    have hl' : l < 16 := digit _ hl
    omega

/-! ### Surrogates -/

lemma isHighSurrogate_iff {n : Nat} :
    isHighSurrogate n = true ↔ 0xD800 ≤ n ∧ n < 0xDC00 := by
  simp [isHighSurrogate]

lemma isLowSurrogate_iff {n : Nat} : isLowSurrogate n = true ↔ 0xDC00 ≤ n ∧ n < 0xE000 := by
  simp [isLowSurrogate]

lemma utf16_ofNat {n : Nat} (hn : n < 0x10000) (hhigh : isHighSurrogate n = false)
    (hlow : isLowSurrogate n = false) : utf16 (Char.ofNat n) = [n] := by
  rw [← Bool.not_eq_true, isHighSurrogate_iff] at hhigh
  rw [← Bool.not_eq_true, isLowSurrogate_iff] at hlow
  rw [utf16, Utf8.toNat_ofNat (by omega), if_pos hn]

/-- Every pair of a high and a low surrogate is the form of a character. -/
lemma utf16_surrogatePair {m n : Nat} (hm : isHighSurrogate m = true)
    (hn : isLowSurrogate n = true) : utf16 (surrogatePair m n) = [m, n] := by
  rw [isHighSurrogate_iff] at hm
  rw [isLowSurrogate_iff] at hn
  have hc : (surrogatePair m n).toNat = 0x10000 + (m - 0xD800) * 0x400 + (n - 0xDC00) :=
    Utf8.toNat_ofNat (by omega)
  have hhigh : 0xD800 + ((surrogatePair m n).toNat - 0x10000) / 0x400 = m := by omega
  have hlow : 0xDC00 + ((surrogatePair m n).toNat - 0x10000) % 0x400 = n := by omega
  rw [utf16, if_neg (by omega), hhigh, hlow]

/-- The form of a character is one unit that is no surrogate, or a pair of surrogates, and gives
the character back. -/
lemma utf16_cases (c : Char) :
    (∃ n, utf16 c = [n] ∧ isHighSurrogate n = false ∧ isLowSurrogate n = false ∧
      Char.ofNat n = c) ∨
    ∃ m n, utf16 c = [m, n] ∧ isHighSurrogate m = true ∧ isLowSurrogate n = true ∧
      surrogatePair m n = c := by
  have hvalid := Utf8.isValidChar_toNat c
  by_cases hc : c.toNat < 0x10000
  · refine .inl ⟨c.toNat, if_pos hc, ?_, ?_, Utf8.ofNat_eq rfl⟩
    · rw [← Bool.not_eq_true, isHighSurrogate_iff]
      omega
    · rw [← Bool.not_eq_true, isLowSurrogate_iff]
      omega
  · refine .inr ⟨_, _, if_neg hc, ?_, ?_, Utf8.ofNat_eq ?_⟩
    · rw [isHighSurrogate_iff]
      omega
    · rw [isLowSurrogate_iff]
      omega
    · omega

/-! ### Whole strings -/

lemma shortEscape?_eq_some_iff {a c : Char} : shortEscape? a = some c ↔ (a, c) ∈ shortEscapes := by
  constructor
  · intro h
    unfold shortEscape? at h
    split at h
    case h_9 => cases h
    all_goals
      obtain rfl := Option.some.inj h
      decide
  · intro h
    have all : ∀ e ∈ shortEscapes, shortEscape? e.1 = some e.2 := by decide
    exact all (a, c) h

/-- What the reader takes between quotes is made up of spellings of characters. -/
lemma forall₂_of_spelled {u s : Text} (h : Spelled u s) :
    ∃ us, List.Forall₂ CharSpelled us s ∧ u = us.flatten := by
  induction h with
  | nil => exact ⟨[], .nil, rfl⟩
  | plain hq hb hc _ ih =>
    obtain ⟨us, hus, rfl⟩ := ih
    exact ⟨_ :: us, .cons (.plain hc hq hb) hus, rfl⟩
  | short he _ ih =>
    obtain ⟨us, hus, rfl⟩ := ih
    exact ⟨_ :: us, .cons (.short (shortEscape?_eq_some_iff.mp he)) hus, rfl⟩
  | @unit a b c d n _ _ hn hhigh hlow _ ih =>
    obtain ⟨us, hus, rfl⟩ := ih
    have hform := utf16_ofNat (unit?_lt hn) hhigh hlow
    have hunits : List.Forall₂ UnitSpelled [['\\', 'u', a, b, c, d]] (utf16 (Char.ofNat n)) := by
      rw [hform]
      exact .cons (unit?_eq_some_iff.mp hn) .nil
    exact ⟨_ :: us, .cons (.units hunits) hus, rfl⟩
  | @pair a b c d e f g h m n _ _ hm hhigh hn hlow _ ih =>
    obtain ⟨us, hus, rfl⟩ := ih
    have hunits : List.Forall₂ UnitSpelled
        [['\\', 'u', a, b, c, d], ['\\', 'u', e, f, g, h]] (utf16 (surrogatePair m n)) := by
      rw [utf16_surrogatePair hhigh hlow]
      exact .cons (unit?_eq_some_iff.mp hm) (.cons (unit?_eq_some_iff.mp hn) .nil)
    exact ⟨_ :: us, .cons (.units hunits) hus, rfl⟩

lemma spelled_append {u s v : Text} {c : Char} (h : CharSpelled v c) (hu : Spelled u s) :
    Spelled (v ++ u) (c :: s) := by
  cases h with
  | plain hc hq hb => exact .plain hq hb hc hu
  | short he => exact .short (shortEscape?_eq_some_iff.mpr he) hu
  | units hus =>
    rcases utf16_cases c with ⟨n, hn, hhigh, hlow, rfl⟩ | ⟨m, n, hmn, hhigh, hlow, rfl⟩
    · rw [hn] at hus
      obtain _ | ⟨hw, _ | _⟩ := hus
      obtain ⟨a, b, c, d, rfl, hunit⟩ := hw.eq_cons
      exact .unit hunit hhigh hlow hu
    · rw [hmn] at hus
      obtain _ | ⟨hw, _ | ⟨hx, _ | _⟩⟩ := hus
      obtain ⟨a, b, c, d, rfl, hm⟩ := hw.eq_cons
      obtain ⟨e, f, g, h, rfl, hn⟩ := hx.eq_cons
      exact .pair hm hhigh hn hlow hu

lemma spelled_of_forall₂ {us : List Text} {s : Text} (h : List.Forall₂ CharSpelled us s) :
    Spelled us.flatten s := by
  induction h with
  | nil => exact .nil
  | cons hc _ ih => exact spelled_append hc ih

/-! ### Where a string ends -/

lemma UnitSpelled.newline_notMem {u : Text} {n : Nat} (h : UnitSpelled u n) : '\n' ∉ u := by
  have digit : ∀ e ∈ hexDigits, e.1 ≠ '\n' := by decide
  cases h with
  | mk hi hj hk hl =>
    have ha := digit _ hi
    have hb := digit _ hj
    have hc := digit _ hk
    have hd := digit _ hl
    simp_all [eq_comm]

lemma CharSpelled.newline_notMem {u : Text} {c : Char} (h : CharSpelled u c) : '\n' ∉ u := by
  cases h with
  | plain hc _ _ =>
    rw [List.mem_singleton]
    rintro rfl
    exact absurd hc (by decide)
  | short he =>
    have escape : ∀ e ∈ shortEscapes, '\n' ∉ ['\\', e.1] := by decide
    exact escape _ he
  | units hus =>
    generalize utf16 c = ns at hus
    induction hus with
    | nil => simp
    | cons hu _ ih => simp [hu.newline_notMem, ih]

/-- No line ends inside a string. -/
lemma Spelled.newline_notMem {u s : Text} (h : Spelled u s) : '\n' ∉ u := by
  obtain ⟨us, hus, rfl⟩ := forall₂_of_spelled h
  clear h
  induction hus with
  | nil => simp
  | cons hc _ ih => simp [hc.newline_notMem, ih]

lemma after_quoted {u s : Text} (h : Spelled u s) (p : Position) :
    p.after ('"' :: u ++ ['"']) = (p.right 1).right (u.length + 1) := by
  have hnewline : '\n' ∉ '"' :: u ++ ['"'] := by simp [h.newline_notMem]
  rw [Position.after_eq_right hnewline]
  simp [Position.right]
  omega

lemma tokenAt_quote_eq_ok_iff {p : Position} {cs : Text} {t : Token} {k : Cursor} :
    tokenAt p '"' cs = .ok (t, k) ↔
      ∃ s, t = .string s ∧ stringBody p [] (p.right 1) cs = .ok (s, k) := by
  have hread : tokenAt p '"' cs =
      (stringBody p [] (p.right 1) cs).map fun r => (.string r.1, r.2) := rfl
  rw [hread, map_eq_ok_iff]
  constructor
  · rintro ⟨⟨s, k'⟩, hbody, h⟩
    cases h
    exact ⟨s, rfl, hbody⟩
  · rintro ⟨s, rfl, hbody⟩
    exact ⟨(s, k), hbody, rfl⟩

/-- **A string is read exactly where one is spelled**: the reader takes the whole spelling, and the
token is the string that its characters spell. -/
theorem string_token_iff (p : Position) (cs : Text) (t : Token) (k : Cursor) :
    tokenAt p '"' cs = .ok (t, k) ↔
      ∃ x s, StringSpelled x s ∧ t = .string s ∧ '"' :: cs = x ++ k.rest ∧ k.pos = p.after x := by
  rw [tokenAt_quote_eq_ok_iff]
  constructor
  · rintro ⟨s, rfl, h⟩
    obtain ⟨u, hu, rfl, hpos⟩ := stringBody_eq_ok_iff.mp h
    obtain ⟨us, hus, rfl⟩ := forall₂_of_spelled hu
    refine ⟨_, s, ⟨us, hus, rfl⟩, rfl, by simp, ?_⟩
    rw [after_quoted hu, hpos]
  · rintro ⟨_, s, ⟨us, hus, rfl⟩, rfl, hcs, hpos⟩
    have hu := spelled_of_forall₂ hus
    refine ⟨s, rfl, stringBody_eq_ok_iff.mpr ⟨us.flatten, hu, by simpa using hcs, ?_⟩⟩
    rw [hpos, after_quoted hu]

end StyleVars.Json
