import StyleVars.Text.Position

/-!
Decimal numerals: the digits of a natural number and the number that a row of digits stands for.
-/

namespace StyleVars.Numeral

/-- Decimal digits, ASCII only. -/
def isDigit (c : Char) : Bool := '0' ≤ c && c ≤ '9'

/-- The character of a digit below ten. -/
def digitChar (d : Nat) : Char := Char.ofNat ('0'.toNat + d)

/-- The number that a digit stands for. -/
def digitValue (c : Char) : Nat := c.toNat - '0'.toNat

/-- The decimal numeral of a number, without leading zeros. -/
def ofNat (n : Nat) : Text :=
  if n < 10 then [digitChar n] else ofNat (n / 10) ++ [digitChar (n % 10)]

/-- How many digits the decimal numeral of a number has. -/
def width (n : Nat) : Nat := if n < 10 then 1 else width (n / 10) + 1

/-- The number that a row of digits stands for; nothing stands for zero. -/
def value (ds : Text) : Nat := ds.foldl (fun n c => 10 * n + digitValue c) 0

/-- The number that a hexadecimal digit of either case stands for. -/
def hexValue? (c : Char) : Option Nat :=
  if isDigit c then some (digitValue c)
  else if 'a' ≤ c ∧ c ≤ 'f' then some (c.toNat - 'a'.toNat + 10)
  else if 'A' ≤ c ∧ c ≤ 'F' then some (c.toNat - 'A'.toNat + 10)
  else none

/-- The upper-case hexadecimal digit of a number below sixteen. -/
def hexChar (d : Nat) : Char :=
  if d < 10 then digitChar d else Char.ofNat ('A'.toNat + (d - 10))

/-- The hexadecimal numeral of a number, in lower case and without leading zeros. -/
def hexOfNat (n : Nat) : Text := Nat.toDigits 16 n

@[simp] theorem value_nil : value [] = 0 := rfl

theorem value_append_singleton (ds : Text) (c : Char) :
    value (ds ++ [c]) = 10 * value ds + digitValue c := by
  simp [value]

theorem digitValue_digitChar {d : Nat} (h : d < 10) : digitValue (digitChar d) = d := by
  have all : ∀ e : Fin 10, digitValue (digitChar e) = e := by decide
  exact all ⟨d, h⟩

theorem isDigit_digitChar {d : Nat} (h : d < 10) : isDigit (digitChar d) = true := by
  have all : ∀ e : Fin 10, isDigit (digitChar e) = true := by decide
  exact all ⟨d, h⟩

theorem value_ofNat (n : Nat) : value (ofNat n) = n := by
  fun_induction ofNat n with
  | case1 n h => simp [value, digitValue_digitChar h]
  | case2 n h ih =>
    rw [value_append_singleton, ih, digitValue_digitChar (Nat.mod_lt _ (by decide))]
    omega

theorem length_ofNat (n : Nat) : (ofNat n).length = width n := by
  fun_induction ofNat n with
  | case1 n h => simp [width, h]
  | case2 n h ih =>
    rw [List.length_append, ih, List.length_singleton]
    conv => rhs; rw [width, if_neg h]

theorem isDigit_of_mem_ofNat {n : Nat} {c : Char} (h : c ∈ ofNat n) : isDigit c = true := by
  fun_induction ofNat n with
  | case1 n hn =>
    rw [List.mem_singleton.mp h]
    exact isDigit_digitChar hn
  | case2 n hn ih =>
    rcases List.mem_append.mp h with h | h
    · exact ih h
    · rw [List.mem_singleton.mp h]
      exact isDigit_digitChar (Nat.mod_lt _ (by decide))

end StyleVars.Numeral
