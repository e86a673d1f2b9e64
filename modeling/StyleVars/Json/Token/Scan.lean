import StyleVars.Json.Token.Lexer

/-!
A whole text as a row of tokens. `Cursor.next_shortens` says that each token uses up some of the
text, so a scan comes to an end.
-/

namespace StyleVars.Json

/-! ### What is left behind each part is shorter -/

theorem length_skip_le {g : Gap} {p : Position} {cs : Text} {k : Cursor}
    (h : skip g p cs = .ok k) : k.rest.length ≤ cs.length := by
  fun_induction skip g p cs with
  | case1 p cs ih => have := ih h; simp; omega
  | case2 p cs ih => have := ih h; simp; omega
  | case3 p c cs _ _ _ ih => have := ih h; simp; omega
  | case4 p c cs => cases h; simp
  | case5 => cases h; simp
  | case6 p c cs ih => have := ih h; simp; omega
  | case7 => cases h; simp
  | case8 start p cs ih => have := ih h; simp; omega
  | case9 start p c cs _ ih => have := ih h; simp; omega
  | case10 => cases h

theorem length_stringBody_le {start p : Position} {acc cs s : Text} {k : Cursor}
    (h : stringBody start acc p cs = .ok (s, k)) : k.rest.length ≤ cs.length := by
  fun_induction stringBody start acc p cs with
  | case2 => cases h; simp
  | case5 => rename_i ih; have := ih h; simp only [List.length_cons]; omega
  | case9 => rename_i ih; have := ih h; simp only [List.length_cons]; omega
  | case10 => rename_i ih; have := ih h; simp only [List.length_cons]; omega
  | case14 => rename_i ih; have := ih h; simp only [List.length_cons]; omega
  | _ => cases h

theorem length_word {w es cs : Text} {start p : Position} {k : Cursor}
    (h : word w start es p cs = .ok k) : k.rest.length + es.length = cs.length := by
  fun_induction word w start es p cs with
  | case1 => cases h; simp
  | case2 => cases h
  | case3 e es p cs ih => have := ih h; simp; omega
  | case4 => cases h

theorem taken_digits (cs : Text) : digitsOf cs ++ afterDigits cs = cs := by
  simp [digitsOf, afterDigits]

theorem taken_signPart (cs : Text) : (signPart cs).taken ++ (signPart cs).rest = cs := by
  unfold signPart; split <;> simp

theorem taken_wholePart (cs : Text) : (wholePart cs).taken ++ (wholePart cs).rest = cs := by
  unfold wholePart; split <;> simp [taken_digits]

theorem taken_fractionPart (cs : Text) : (fractionPart cs).taken ++ (fractionPart cs).rest = cs := by
  unfold fractionPart; split <;> simp [taken_digits]

theorem taken_exponentSign (cs : Text) : (exponentSign cs).taken ++ (exponentSign cs).rest = cs := by
  unfold exponentSign; split <;> simp

theorem taken_exponentPart (cs : Text) : (exponentPart cs).taken ++ (exponentPart cs).rest = cs := by
  unfold exponentPart
  split
  · split
    · simp [taken_digits, taken_exponentSign]
    · simp
  · simp

theorem taken_wholePart_ne_nil {cs w : Text} (h : (wholePart cs).meaning = some w) :
    (wholePart cs).taken ≠ [] := by
  unfold wholePart at h ⊢
  split at h
  · simp
  · rename_i cs' _
    dsimp only at h ⊢
    cases cs with
    | nil => simp [startsWithDigit] at h
    | cons c r =>
      by_cases hc : Numeral.isDigit c = true
      · simp [digitsOf, hc]
      · simp [startsWithDigit, hc] at h

theorem number?_taken {cs taken rest : Text} {n : NumberText}
    (h : number? cs = .ok (n, taken, rest)) : taken ++ rest = cs ∧ taken ≠ [] := by
  unfold number? at h
  dsimp only at h
  split at h
  · cases h
  · rename_i w hw
    split at h
    · cases h
    · split at h
      · cases h
      · simp only [Except.ok.injEq, Prod.mk.injEq] at h
        obtain ⟨-, rfl, rfl⟩ := h
        constructor
        · simp only [List.append_assoc, taken_exponentPart, taken_fractionPart, taken_wholePart,
            taken_signPart]
        · have := taken_wholePart_ne_nil hw
          simp [this]

theorem length_tokenAt_lt {p : Position} {c : Char} {cs : Text} {t : Token} {k : Cursor}
    (h : tokenAt p c cs = .ok (t, k)) : k.rest.length < (c :: cs).length := by
  unfold tokenAt at h
  split at h
  case h_7 =>
    cases hs : stringBody p [] (p.right 1) cs with
    | error e => simp [hs, Except.map] at h
    | ok r =>
      obtain ⟨s, k'⟩ := r
      simp only [hs, Except.map, Except.ok.injEq, Prod.mk.injEq] at h
      obtain ⟨-, rfl⟩ := h
      have := length_stringBody_le hs
      simp only [List.length_cons]
      omega
  case h_11 =>
    split at h
    · split at h
      · rename_i n taken rest hn
        simp only [Except.ok.injEq, Prod.mk.injEq] at h
        obtain ⟨-, rfl⟩ := h
        obtain ⟨happ, hne⟩ := number?_taken hn
        have hpos : 0 < taken.length := List.length_pos_iff.mpr hne
        have := congrArg List.length happ
        simp only [List.length_append, List.length_cons] at this ⊢
        omega
      · cases h
    · cases h
  case h_8 | h_9 | h_10 =>
    generalize hw : word _ _ _ _ _ = r at h
    cases r with
    | error e => simp [Except.map] at h
    | ok k' =>
      simp only [Except.map, Except.ok.injEq, Prod.mk.injEq] at h
      obtain ⟨-, rfl⟩ := h
      have := length_word hw
      simp at this ⊢
      omega
  all_goals
    simp only [Except.ok.injEq, Prod.mk.injEq] at h
    obtain ⟨-, rfl⟩ := h
    simp

theorem Cursor.next_shortens {k after : Cursor} {l : Lexeme}
    (h : k.next = .ok (some l, after)) : after.rest.length < k.rest.length := by
  unfold Cursor.next at h
  cases hs : skip .blank k.pos k.rest with
  | error e => simp [hs, bind, Except.bind] at h
  | ok k' =>
    have hle := length_skip_le hs
    simp only [hs, bind, Except.bind] at h
    split at h
    · simp [pure, Except.pure] at h
    · rename_i c cs hr
      cases ht : tokenAt k'.pos c cs with
      | error e => simp [ht] at h
      | ok r =>
        have hlt := length_tokenAt_lt ht
        simp only [ht, pure, Except.pure, Except.ok.injEq, Prod.mk.injEq] at h
        obtain ⟨-, rfl⟩ := h
        rw [hr] at hle
        omega

/-! ### The scan -/

/-- The tokens of a text up to its end, whose place is then given, or up to an error. -/
structure Scan where
  lexemes : List Lexeme
  ending : Except Error Position

namespace Scan

/-- Scans on from a place; `acc` holds the tokens so far, last first. -/
def go (acc : List Lexeme) (k : Cursor) : Scan :=
  match _next : k.next with
  | .error e => ⟨acc.reverse, .error e⟩
  | .ok (none, k') => ⟨acc.reverse, .ok k'.pos⟩
  | .ok (some l, k') => go (l :: acc) k'
termination_by k.rest.length
decreasing_by exact Cursor.next_shortens _next

/-- A byte order mark at the beginning belongs to no token and takes no column. -/
def dropMark : Text → Text
  | '\uFEFF' :: cs => cs
  | cs => cs

/-- The tokens of a text. -/
def ofText (s : Text) : Scan := go [] ⟨.start, dropMark s⟩

end Scan

/-- The number of bytes that a text takes in UTF-8. -/
def utf8Size (s : Text) : Nat := s.foldl (fun n c => n + c.utf8Size) 0

/-- The tokens of a text within the size limit; a byte order mark counts. -/
def scan (limits : Limits) (s : Text) : Except Error Scan :=
  if limits.maxInputSize < utf8Size s then
    .error (.inputTooLarge (utf8Size s) limits.maxInputSize)
  else .ok (Scan.ofText s)

end StyleVars.Json
