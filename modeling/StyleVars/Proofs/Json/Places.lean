import StyleVars.Proofs.Json.Escapes
import StyleVars.Proofs.Json.Layout
import StyleVars.Proofs.Json.NumberToken
import StyleVars.Proofs.Text.Position

/-!
Places in the text that is read. Whatever the reader takes, it stands behind it with the position
that belongs there, and an error in a token has its position inside of the token.
-/

namespace StyleVars.Json

/-! ### Moving on -/

/-- The place `k` is `j` or further on in the same text. -/
def Cursor.Precedes (j k : Cursor) : Prop := ∃ a, j.rest = a ++ k.rest ∧ k.pos = j.pos.after a

namespace Cursor

lemma Precedes.refl (k : Cursor) : k.Precedes k := ⟨[], rfl, rfl⟩

lemma Precedes.trans {i j k : Cursor} (h : i.Precedes j) (h' : j.Precedes k) : i.Precedes k := by
  obtain ⟨a, ha, hpos⟩ := h
  obtain ⟨b, hb, hpos'⟩ := h'
  exact ⟨a ++ b, by rw [ha, hb, List.append_assoc], by rw [hpos', hpos, Position.after_append]⟩

lemma precedes_append (p : Position) (a r : Text) : Precedes ⟨p, a ++ r⟩ ⟨p.after a, r⟩ :=
  ⟨a, rfl, rfl⟩

lemma precedes_cons (p : Position) (c : Char) (r : Text) : Precedes ⟨p, c :: r⟩ ⟨p.next c, r⟩ :=
  precedes_append p [c] r

lemma precedes_right (p : Position) {a : Text} (h : '\n' ∉ a) (r : Text) :
    Precedes ⟨p, a ++ r⟩ ⟨p.right a.length, r⟩ := by
  rw [← Position.after_eq_right h]
  exact precedes_append p a r

/-- The place where a text has a position is one that its beginning precedes. -/
lemma precedes_iff {s : Text} {k : Cursor} :
    (ofText s).Precedes k ↔ k.pos.textIn? (Scan.dropMark s) = some k.rest :=
  Position.textIn?_eq_some_iff.symm

end Cursor

open Cursor (Precedes)

variable {p : Position} {c : Char} {cs : Text} {t : Token} {k : Cursor} {e : Error}

lemma precedes_skip {g : Gap} (h : skip g p cs = .ok k) : Precedes ⟨p, cs⟩ k := by
  fun_induction skip g p cs with
  | case1 p cs ih => exact (Cursor.precedes_right p (a := ['/', '/']) (by decide) cs).trans (ih h)
  | case2 p cs ih => exact (Cursor.precedes_right p (a := ['/', '*']) (by decide) cs).trans (ih h)
  | case3 p c cs _ _ _ ih => exact (Cursor.precedes_cons p c cs).trans (ih h)
  | case4 p c cs =>
    cases h
    exact .refl _
  | case5 =>
    cases h
    exact .refl _
  | case6 p c cs ih => exact (Cursor.precedes_cons p c cs).trans (ih h)
  | case7 =>
    cases h
    exact .refl _
  | case8 start p cs ih =>
    exact (Cursor.precedes_right p (a := ['*', '/']) (by decide) cs).trans (ih h)
  | case9 start p c cs _ ih => exact (Cursor.precedes_cons p c cs).trans (ih h)
  | case10 => cases h

/-- The error names a comment that the gap is in, or one that begins further on. -/
def Gap.Blames (g : Gap) (j : Cursor) (e : Error) : Prop :=
  ∃ q, e = .unterminatedComment q ∧ (g = .block q ∨ ∃ r, j.Precedes ⟨q, '/' :: '*' :: r⟩)

lemma Gap.Blames.back {g g' : Gap} {j j' : Cursor} (h : g'.Blames j' e) (hj : j.Precedes j')
    (hg : ∀ q, g' = .block q → g = .block q ∨ ∃ r, j.Precedes ⟨q, '/' :: '*' :: r⟩) :
    g.Blames j e := by
  obtain ⟨q, rfl, hblock | ⟨r, hr⟩⟩ := h
  · exact ⟨q, rfl, hg q hblock⟩
  · exact ⟨q, rfl, .inr ⟨r, hj.trans hr⟩⟩

lemma blames_of_skip_error {g : Gap} (h : skip g p cs = .error e) : g.Blames ⟨p, cs⟩ e := by
  fun_induction skip g p cs with
  | case1 p cs ih =>
    exact (ih h).back (Cursor.precedes_right p (a := ['/', '/']) (by decide) cs) (by simp)
  | case2 p cs ih =>
    -- The comment that begins here may be the one.
    refine (ih h).back (Cursor.precedes_right p (a := ['/', '*']) (by decide) cs) ?_
    rintro q ⟨⟩
    exact .inr ⟨cs, .refl _⟩
  | case3 p c cs _ _ _ ih => exact (ih h).back (Cursor.precedes_cons p c cs) (by simp)
  | case4 => cases h
  | case5 => cases h
  | case6 p c cs ih =>
    refine (ih h).back (Cursor.precedes_cons p c cs) fun q hq => ?_
    split at hq <;> cases hq
  | case7 => cases h
  | case8 start p cs ih =>
    exact (ih h).back (Cursor.precedes_right p (a := ['*', '/']) (by decide) cs) (by simp)
  | case9 start p c cs _ ih => exact (ih h).back (Cursor.precedes_cons p c cs) fun q => .inl
  | case10 start =>
    cases h
    exact ⟨start, rfl, .inl rfl⟩

/-! ### Inside of a token -/

/-- The words that are tokens. -/
def keywords : List Text := ["true".toList, "false".toList, "null".toList]

lemma newline_notMem_of_keyword {w : Text} (h : w ∈ keywords) : '\n' ∉ w := by
  revert w
  decide

/-- How the reader goes about a token, by its first character. -/
lemma tokenAt_cases (p : Position) (c : Char) (cs : Text) :
    (c ≠ '\n' ∧ ∃ t, tokenAt p c cs = .ok (t, ⟨p.right 1, cs⟩)) ∨
    (c = '"' ∧ tokenAt p c cs =
      (stringBody p [] (p.right 1) cs).map fun r => (.string r.1, r.2)) ∨
    (∃ w t, w ∈ keywords ∧
      tokenAt p c cs = (word w p w p (c :: cs)).map (t, ·)) ∨
    (c = '-' ∨ Numeral.isDigit c = true) ∨
    tokenAt p c cs = .error (.unexpectedCharacter c p) := by
  unfold tokenAt
  split
  case h_7 => exact .inr (.inl ⟨rfl, rfl⟩)
  case h_8 => exact .inr (.inr (.inl ⟨"true".toList, _, by decide, rfl⟩))
  case h_9 => exact .inr (.inr (.inl ⟨"false".toList, _, by decide, rfl⟩))
  case h_10 => exact .inr (.inr (.inl ⟨"null".toList, _, by decide, rfl⟩))
  case h_11 =>
    split
    · next hc => exact .inr (.inr (.inr (.inl hc)))
    · exact .inr (.inr (.inr (.inr rfl)))
  all_goals exact .inl ⟨by decide, _, rfl⟩

lemma eq_of_word {w es : Text} {start : Position} (h : word w start es p cs = .ok k) :
    cs = es ++ k.rest ∧ k.pos = p.right es.length := by
  have hcs := eq_append_of_word h
  rw [hcs, word_append] at h
  exact ⟨hcs, congrArg Cursor.pos (Except.ok.inj h).symm⟩

lemma NumberSpelled.newline_notMem {u : Text} {n : NumberText} (h : NumberSpelled u n) :
    '\n' ∉ u := by
  cases h with
  | @mk negative whole digits f e exponent hw hf he =>
    have hfraction : '\n' ∉ f := hf.notMem (by decide) (by decide)
    have hexponent : '\n' ∉ e := by
      cases he with
      | none => simp
      | some hc hsign hds =>
        have hdigits := hds.notMem (c := '\n') (by decide)
        rcases hc with rfl | rfl <;> cases hsign <;> simp [hdigits]
    rw [List.mem_append, not_or]
    exact ⟨notMem_mantissa hw.isDigits hfraction (by decide) (by decide), hexponent⟩

/-- **The place behind a token** is where the text goes on. -/
theorem precedes_tokenAt (h : tokenAt p c cs = .ok (t, k)) : Precedes ⟨p, c :: cs⟩ k := by
  obtain ⟨pos, rest⟩ := k
  rcases tokenAt_cases p c cs with ⟨hc, t', ht⟩ | ⟨rfl, ht⟩ | ⟨w, t', hw, ht⟩ | hc | ht
  · rw [ht] at h
    cases h
    exact Cursor.precedes_right p (a := [c]) (by simpa using hc.symm) cs
  · obtain ⟨s, rfl, hbody⟩ := tokenAt_quote_eq_ok_iff.mp h
    obtain ⟨u, hu, rfl, rfl⟩ := stringBody_eq_ok_iff.mp hbody
    rw [← after_quoted hu]
    simpa using Cursor.precedes_append p ('"' :: u ++ ['"']) rest
  · rw [ht, map_eq_ok_iff] at h
    obtain ⟨_, hword, rfl, rfl⟩ := h
    obtain ⟨hcs, rfl⟩ := eq_of_word hword
    rw [hcs]
    exact Cursor.precedes_right p (newline_notMem_of_keyword hw) rest
  · obtain ⟨n, g, hn, rfl, rfl⟩ := (tokenAt_number_eq_ok_iff hc).mp h
    rw [← (number?_taken hn).1]
    exact Cursor.precedes_right p (spelled_of_number? hn).1.newline_notMem rest
  · rw [ht] at h
    cases h

/-! ### Errors inside of a token -/

/-- What is wrong with a string that began at `start` and goes on at the place `j`: it has no end,
or behind well-formed parts an escape is ill-formed or a control character stands. -/
inductive StringFault (start : Position) (j : Cursor) : Error → Prop where
  | unterminated : StringFault start j (.unterminatedString start)
  | escape {u s r : Text} :
      Spelled u s → j.rest = u ++ '\\' :: r →
      StringFault start j (.invalidEscape (j.pos.right u.length))
  | control {u s r : Text} {c : Char} :
      Spelled u s → j.rest = u ++ c :: r → c.toNat < 0x20 →
      StringFault start j (.controlCharacter c (j.pos.right u.length))

/-- A fault stays one behind another well-formed part. -/
lemma StringFault.back {start : Position} {v : Text}
    (h : StringFault start ⟨p.right v.length, cs⟩ e)
    (hv : ∀ u s, Spelled u s → ∃ s', Spelled (v ++ u) s') : StringFault start ⟨p, v ++ cs⟩ e := by
  have hpos : ∀ u : Text, (p.right v.length).right u.length = p.right (v ++ u).length := fun u => by
    simp [Position.right]
    omega
  cases h with
  | unterminated => exact .unterminated
  | @escape u s r hu hcs =>
    obtain ⟨s', hvu⟩ := hv u s hu
    dsimp only at hcs ⊢
    rw [hpos]
    exact .escape (j := ⟨p, v ++ cs⟩) hvu (by rw [hcs, List.append_assoc])
  | @control u s r c hu hcs hc =>
    obtain ⟨s', hvu⟩ := hv u s hu
    dsimp only at hcs ⊢
    rw [hpos]
    exact .control (j := ⟨p, v ++ cs⟩) hvu (by rw [hcs, List.append_assoc]) hc

lemma stringFault_of_stringBody {start : Position} {acc : Text}
    (h : stringBody start acc p cs = .error e) : StringFault start ⟨p, cs⟩ e := by
  have hescape : ∀ (p : Position) (r : Text), StringFault start ⟨p, '\\' :: r⟩ (.invalidEscape p) :=
    fun p r => .escape (j := ⟨p, '\\' :: r⟩) .nil rfl
  fun_induction stringBody start acc p cs with
  | case1 =>
    cases h
    exact .unterminated
  | case2 => cases h
  | case5 acc p a b c d m hm hhigh e f g h' cs n hn hlow ih =>
    exact (ih h).back (v := ['\\', 'u', a, b, c, d, '\\', 'u', e, f, g, h']) fun u s hu =>
      ⟨_, .pair hm hhigh hn hlow hu⟩
  | case9 acc p a b c d cs n hn hhigh hlow ih =>
    exact (ih h).back (v := ['\\', 'u', a, b, c, d]) fun u s hu =>
      ⟨_, .unit hn (by simpa using hhigh) (by simpa using hlow) hu⟩
  | case10 acc p c cs _ _ he ih =>
    exact (ih h).back (v := ['\\', c]) fun u s hu => ⟨_, .short he hu⟩
  | case13 acc p c cs _ _ _ _ hc =>
    cases h
    exact .control (j := ⟨p, c :: cs⟩) .nil rfl hc
  | case14 acc p c cs hq _ hb₁ hb₂ hc ih =>
    have hb : c ≠ '\\' := by
      rintro rfl
      cases cs with
      | nil => exact hb₂ rfl rfl
      | cons d ds => exact hb₁ d ds rfl rfl
    exact (ih h).back (v := [c]) fun u s hu => ⟨_, .plain hq hb (by omega) hu⟩
  | case3 | case4 | case6 | case7 | case8 | case11 | case12 =>
    cases h
    exact hescape _ _

/-- A word ends too early, or another character stands in its place. -/
lemma fault_of_word {w es : Text} {start : Position} (h : word w start es p cs = .error e) :
    e = .unexpectedEnd (.word w) start ∧ cs <+: es ∧ cs ≠ es ∨
      ∃ v c r, v <+: es ∧ cs = v ++ c :: r ∧ e = .unexpectedCharacter c (p.right v.length) := by
  fun_induction word w start es p cs with
  | case1 => cases h
  | case2 a es p =>
    cases h
    exact .inl ⟨rfl, List.nil_prefix, by simp⟩
  | case3 es p a cs ih =>
    rcases ih h with ⟨rfl, hpre, hne⟩ | ⟨v, c, r, hpre, rfl, rfl⟩
    · exact .inl ⟨rfl, (List.prefix_cons_inj a).mpr hpre, by simpa using hne⟩
    · refine .inr ⟨a :: v, c, r, (List.prefix_cons_inj a).mpr hpre, rfl, ?_⟩
      simp [Position.right]
      omega
  | case4 a es p c cs =>
    cases h
    exact .inr ⟨[], c, cs, List.nil_prefix, rfl, rfl⟩

/-- A literal that is no number stands at the beginning of the text. -/
lemma prefix_of_number? {literal : Text} (h : number? cs = .error literal) : literal <+: cs := by
  have htail : ∀ x r : Text, cs = x ++ r → x ++ r.takeWhile isNumberTail <+: cs := by
    rintro x r rfl
    exact (List.prefix_append_right_inj x).mpr (List.takeWhile_prefix _)
  have hsign := taken_signPart cs
  have hwhole := taken_wholePart (signPart cs).rest
  have hfraction := taken_fractionPart (wholePart (signPart cs).rest).rest
  have hexponent := taken_exponentPart (fractionPart (wholePart (signPart cs).rest).rest).rest
  unfold number? at h
  dsimp only at h
  split at h
  · cases h
    refine htail _ _ ?_
    rw [List.append_assoc, hwhole, hsign]
  · split at h
    · cases h
      refine htail _ _ ?_
      simp only [List.append_assoc]
      rw [hfraction, hwhole, hsign]
    · split at h
      · cases h
        refine htail _ _ ?_
        simp only [List.append_assoc]
        rw [hexponent, hfraction, hwhole, hsign]
      · cases h

/-- The text `u` is the keyword `w`, cut off. -/
structure CutOff (w u : Text) : Prop where
  keyword : w ∈ keywords
  ne_nil : u ≠ []
  begins : u <+: w
  ne : u ≠ w

/-- What is wrong with the token that begins at the place `j`. -/
inductive TokenFault (j : Cursor) : Error → Prop where
  | character {found : Char} {pos : Position} {r : Text} :
      j.Precedes ⟨pos, found :: r⟩ → TokenFault j (.unexpectedCharacter found pos)
  | cut {w : Text} : CutOff w j.rest → TokenFault j (.unexpectedEnd (.word w) j.pos)
  | string {r : Text} {e : Error} :
      j.rest = '"' :: r → StringFault j.pos ⟨j.pos.right 1, r⟩ e → TokenFault j e
  | number {literal : Text} :
      literal <+: j.rest → TokenFault j (.invalidNumber literal j.pos)

/-- **The error of a token** names something inside of it. -/
theorem tokenFault_of_tokenAt (h : tokenAt p c cs = .error e) : TokenFault ⟨p, c :: cs⟩ e := by
  rcases tokenAt_cases p c cs with ⟨hc, t', ht⟩ | ⟨rfl, ht⟩ | ⟨w, t', hw, ht⟩ | hc | ht
  · rw [ht] at h
    cases h
  · rw [ht, map_eq_error_iff] at h
    exact .string rfl (stringFault_of_stringBody h)
  · rw [ht, map_eq_error_iff] at h
    rcases fault_of_word h with ⟨rfl, hpre, hne⟩ | ⟨v, d, r, hpre, hcs, rfl⟩
    · exact .cut (j := ⟨p, c :: cs⟩) ⟨hw, by simp, hpre, hne⟩
    · have hv : '\n' ∉ v := fun hmem => newline_notMem_of_keyword hw (hpre.subset hmem)
      rw [hcs]
      exact .character (Cursor.precedes_right p hv (d :: r))
  · rw [tokenAt_number hc] at h
    split at h
    · cases h
    · next literal hliteral =>
      cases h
      exact .number (prefix_of_number? hliteral)
  · rw [ht] at h
    cases h
    exact .character (.refl _)

end StyleVars.Json
