import StyleVars.Proofs.Sheet.Scanner

/-!
Strings in quotes as tokens. A backslash escapes the character behind it, and only delimiters get
one of their own when a string is put in quotes. So the literal is complete unless backslashes of
the string itself escape a delimiter: each pair of them is an escaped backslash, and an odd one
takes the meaning from what stands behind it. Even a literal that is not complete belongs to one
string only, since no delimiter of it but the outer ones lacks its backslash.
-/

namespace StyleVars.Sheet

/-! ### Literals -/

/-- What stands behind the first delimiter that is not escaped; `escaped` says whether there is a
backslash right before the text that escapes its first character. -/
def behindDelimiter? (delimiter : Char) : Bool → Text → Option Text
  | _, [] => none
  | true, _ :: cs => behindDelimiter? delimiter false cs
  | false, c :: cs =>
    if c = '\\' then behindDelimiter? delimiter true cs
    else if c = delimiter then some cs
    else behindDelimiter? delimiter false cs

/-- The text is one string token: it begins with the delimiter, and the first delimiter behind it
that is not escaped is its last character. -/
def IsLiteral (delimiter : Char) (t : Text) : Prop :=
  t.head? = some delimiter ∧ behindDelimiter? delimiter false t.tail = some []

instance (delimiter : Char) (t : Text) : Decidable (IsLiteral delimiter t) :=
  inferInstanceAs (Decidable (_ ∧ _))

variable {d c : Char} {s p : Text}

/-- A literal is complete exactly if no backslash breaks it open. -/
lemma behindDelimiter?_escape (hd : d ≠ '\\') (escaped : Bool) (s : Text) :
    behindDelimiter? d escaped (escape d s ++ [d]) = some [] ↔ unbrokenFrom d escaped s = true := by
  induction s generalizing escaped with
  | nil => cases escaped <;> simp [escape, behindDelimiter?, unbrokenFrom, hd]
  | cons c s ih =>
    rw [escape, unbrokenFrom]
    by_cases hc : c = d
    · -- The delimiter has a backslash of its own, which must not be escaped itself.
      subst hc
      have hb : (c == '\\') = false := beq_eq_false_iff_ne.mpr hd
      cases escaped with
      | true => simp [behindDelimiter?, hd]
      | false => simpa [behindDelimiter?, hb] using ih false
    · rw [if_neg hc, List.cons_append]
      cases escaped with
      | true => simpa [behindDelimiter?, hc] using ih false
      | false =>
        by_cases hb : c = '\\'
        · simpa [behindDelimiter?, hb] using ih true
        · have hb' : (c == '\\') = false := beq_eq_false_iff_ne.mpr hb
          simpa [behindDelimiter?, hb, hb', hc] using ih false

lemma isLiteral_quote_iff (hd : d ≠ '\\') : IsLiteral d (quote d s) ↔ Unbroken d s := by
  rw [IsLiteral, quote, List.head?_cons, List.tail_cons, behindDelimiter?_escape hd]
  exact and_iff_right rfl

/-! ### Backslashes -/

/-- How many backslashes stand at the end of a text. -/
def backslashes (s : Text) : Nat := (s.reverse.takeWhile (· == '\\')).length

lemma backslashes_append_singleton (p : Text) (c : Char) :
    backslashes (p ++ [c]) = if c = '\\' then backslashes p + 1 else 0 := by
  rw [backslashes, List.reverse_append, List.reverse_singleton, List.singleton_append,
    List.takeWhile_cons]
  simp only [beq_iff_eq]
  split <;> rfl

/-- Right before each delimiter in the text, and at its end, stands an even number of
backslashes. -/
def EvenBackslashes (delimiter : Char) (s : Text) : Prop :=
  ∀ before after, s = before ++ after → after = [] ∨ after.head? = some delimiter →
    backslashes before % 2 = 0

/-- A text is cut before its first character or behind it. -/
lemma forall_cut_cons_iff {P : Text → Text → Prop} :
    (∀ before after, c :: s = before ++ after → P before after) ↔
      P [] (c :: s) ∧ ∀ before after, s = before ++ after → P (c :: before) after := by
  constructor
  · refine fun h => ⟨h [] (c :: s) rfl, fun before after heq => h (c :: before) after ?_⟩
    rw [heq, List.cons_append]
  · rintro ⟨hfirst, hrest⟩ before after heq
    rcases List.cons_eq_append_iff.mp heq with ⟨rfl, rfl⟩ | ⟨before, rfl, hs⟩
    · exact hfirst
    · exact hrest before after hs

/-- The text `p` has been read before; it escapes the next character if it ends with an odd number
of backslashes. -/
lemma unbrokenFrom_iff (d : Char) (p s : Text) :
    unbrokenFrom d (backslashes p % 2 == 1) s = true ↔
      ∀ before after, s = before ++ after → after = [] ∨ after.head? = some d →
        backslashes (p ++ before) % 2 = 0 := by
  induction s generalizing p with
  | nil => simp [unbrokenFrom]
  | cons c s ih =>
    have hnext := ih (p ++ [c])
    rw [backslashes_append_singleton] at hnext
    simp only [List.append_assoc, List.singleton_append] at hnext
    rw [forall_cut_cons_iff, ← hnext, unbrokenFrom]
    rcases Nat.mod_two_eq_zero_or_one (backslashes p) with heven | hodd
    · have hb : ((if c = '\\' then backslashes p + 1 else 0) % 2 == 1) = (c == '\\') := by
        split
        · simp_all
          omega
        · simp_all
      simp [heven, hb]
    · have hb : ((if c = '\\' then backslashes p + 1 else 0) % 2 == 1) = false := by
        split
        · simp
          omega
        · rfl
      simp [hodd, hb]

lemma unbroken_iff (d : Char) (s : Text) : Unbroken d s ↔ EvenBackslashes d s :=
  unbrokenFrom_iff d [] s

/-- **Strings and keys in quotes are complete tokens exactly if their own backslashes come in
pairs** wherever a delimiter or the end of the string follows. -/
theorem isLiteral_iff (o : Settings) :
    (∀ s, needsQuotes s = true →
      (IsLiteral '\'' (quoteIfNeeded s) ↔ EvenBackslashes '\'' s)) ∧
      ∀ name, o.quoteKeys = true → (IsLiteral '"' (mapKey o name) ↔ EvenBackslashes '"' name) := by
  constructor
  · intro s hs
    rw [quoteIfNeeded, if_pos hs, isLiteral_quote_iff (by decide), unbroken_iff]
  · intro name ho
    rw [mapKey, if_pos ho, isLiteral_quote_iff (by decide), unbroken_iff]

/-- A backslash before a quote that gets one of its own. -/
theorem isLiteral_iff_escapedQuote :
    (needsQuotes "a\\'b:".toList = true ∧
      (IsLiteral '\'' (quoteIfNeeded "a\\'b:".toList) ↔ EvenBackslashes '\'' "a\\'b:".toList)) ∧
      ({ quoteKeys := true } : Settings).quoteKeys = true ∧
      (IsLiteral '"' (mapKey { quoteKeys := true } "a\\\\".toList) ↔
        EvenBackslashes '"' "a\\\\".toList) :=
  ⟨⟨rfl, (isLiteral_iff {}).1 _ rfl⟩, rfl, (isLiteral_iff { quoteKeys := true }).2 _ rfl⟩

/-- A string that ends with a backslash, which escapes the delimiter behind it. -/
theorem not_isLiteral :
    (needsQuotes ",\\".toList = true ∧ ¬ IsLiteral '\'' (quoteIfNeeded ",\\".toList)) ∧
      ¬ IsLiteral '"' (mapKey { quoteKeys := true } "\\".toList) := by
  decide

/-! ### Strings that are written alike -/

/-- A delimiter with its backslash is no other character that is written as it is. -/
lemma escaped_ne_kept (hc : c ≠ d) (s t : Text) : '\\' :: d :: escape d s ≠ c :: escape d t := by
  intro h
  obtain ⟨rfl, htail⟩ := List.cons.inj h
  -- The character is the backslash, so the next text begins with a delimiter that has none.
  cases t with
  | nil => cases htail
  | cons e t =>
    rw [escape] at htail
    split at htail
    · exact hc (List.cons.inj htail).1.symm
    · next he => exact he (List.cons.inj htail).1.symm

lemma escape_cons_ne_nil (d c : Char) (s : Text) : escape d (c :: s) ≠ [] := by
  rw [escape]
  split <;> exact List.cons_ne_nil _ _

lemma escape_injective (d : Char) : Function.Injective (escape d) := by
  intro s t h
  induction s generalizing t with
  | nil =>
    cases t with
    | nil => rfl
    | cons c t => exact absurd h.symm (escape_cons_ne_nil d c t)
  | cons b s ih =>
    cases t with
    | nil => exact absurd h (escape_cons_ne_nil d b s)
    | cons c t =>
      rw [escape, escape] at h
      by_cases hb : b = d <;> by_cases hc : c = d
      · subst hb hc
        rw [if_pos rfl, if_pos rfl] at h
        rw [ih (List.cons.inj (List.cons.inj h).2).2]
      · subst hb
        rw [if_pos rfl, if_neg hc] at h
        exact absurd h (escaped_ne_kept hc s t)
      · subst hc
        rw [if_neg hb, if_pos rfl] at h
        exact absurd h.symm (escaped_ne_kept hb t s)
      · rw [if_neg hb, if_neg hc] at h
        obtain ⟨rfl, htail⟩ := List.cons.inj h
        rw [ih htail]

lemma quote_injective (d : Char) : Function.Injective (quote d) := by
  intro s t h
  exact escape_injective d (List.append_cancel_right (List.cons.inj h).2)

lemma mem_quote (hc : c ∈ s) : c ∈ quote d s := by
  have hescape : c ∈ escape d s := by
    induction s with
    | nil => cases hc
    | cons b s ih =>
      rw [escape]
      rcases List.mem_cons.mp hc with rfl | hc
      · split <;> simp
      · split <;> simp [ih hc]
  exact List.mem_cons_of_mem d (List.mem_append_left [d] hescape)

lemma length_le_escape (d : Char) (s : Text) : s.length ≤ (escape d s).length := by
  induction s with
  | nil => exact Nat.le_refl _
  | cons c s ih =>
    rw [escape]
    split
    · exact Nat.le_succ_of_le (Nat.succ_le_succ ih)
    · exact Nat.succ_le_succ ih

lemma quote_ne_self (d : Char) (s : Text) : quote d s ≠ s := by
  intro h
  have hlength := congrArg List.length h
  have hle := length_le_escape d s
  rw [quote, List.length_cons, List.length_append] at hlength
  omega

lemma quoteIfNeeded_eq_quote_iff : quoteIfNeeded s = quote '\'' s ↔ needsQuotes s = true := by
  rw [quoteIfNeeded]
  split
  · next h => exact iff_of_true rfl h
  · next h => exact iff_of_false (quote_ne_self '\'' s).symm h

lemma quoteIfNeeded_eq_self_iff : quoteIfNeeded s = s ↔ ¬ needsQuotes s = true := by
  rw [quoteIfNeeded]
  split
  · next h => exact iff_of_false (quote_ne_self '\'' s) (not_not_intro h)
  · next h => exact iff_of_true rfl h

lemma needsQuotes_iff : needsQuotes s = true ↔ s = [] ∨ ∃ c ∈ s, isReserved c = true := by
  rw [needsQuotes, Bool.or_eq_true, List.isEmpty_iff, List.any_eq_true]

/-- Quotes do not hide a reserved character from the rule, so only the quotes around nothing can be
taken for a string of their own. -/
lemma eq_nil_of_not_needsQuotes_quote (hs : needsQuotes s = true)
    (hq : ¬ needsQuotes (quote d s) = true) : s = [] := by
  rcases needsQuotes_iff.mp hs with hs | ⟨c, hc, hreserved⟩
  · exact hs
  · exact absurd (needsQuotes_iff.mpr (.inr ⟨c, mem_quote hc, hreserved⟩)) hq

/-- **Two strings are written alike only if they are equal**, but for the empty string and the
string of two quotes. In quotes, whether needed or not, no two strings are alike. -/
theorem quoteIfNeeded_eq_iff :
    (∀ s t, quoteIfNeeded s = quoteIfNeeded t ↔
      s = t ∨ (s = [] ∧ t = "''".toList) ∨ (s = "''".toList ∧ t = [])) ∧
      ∀ delimiter, Function.Injective (quote delimiter) := by
  have hmixed {s t : Text} (hs : needsQuotes s = true) (ht : ¬ needsQuotes t = true)
      (h : quote '\'' s = t) : s = [] ∧ t = "''".toList := by
    subst h
    obtain rfl := eq_nil_of_not_needsQuotes_quote hs ht
    exact ⟨rfl, rfl⟩
  refine ⟨fun s t => ⟨fun h => ?_, ?_⟩, quote_injective⟩
  · rw [quoteIfNeeded, quoteIfNeeded] at h
    by_cases hs : needsQuotes s = true <;> by_cases ht : needsQuotes t = true
    · rw [if_pos hs, if_pos ht] at h
      exact .inl (quote_injective '\'' h)
    · rw [if_pos hs, if_neg ht] at h
      exact .inr (.inl (hmixed hs ht h))
    · rw [if_neg hs, if_pos ht] at h
      exact .inr (.inr (hmixed ht hs h.symm).symm)
    · rw [if_neg hs, if_neg ht] at h
      exact .inl h
  · rintro (rfl | ⟨rfl, rfl⟩ | ⟨rfl, rfl⟩) <;> rfl

end StyleVars.Sheet
