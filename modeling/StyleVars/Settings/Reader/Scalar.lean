import StyleVars.Json.Escape
import StyleVars.Number.Scaling
import StyleVars.Path.Basic
import StyleVars.Settings.ReadError

/-!
Readers for strict JSON, and the values without parts: words, strings and numbers. A reader takes
what it reads from the beginning of a text and leaves the rest.
-/

namespace StyleVars.Settings

abbrev Reader := StateT Text (Except ReadError)

namespace Reader

/-- The next character that is no blank. It is not taken. -/
def next : Reader Char := fun s =>
  match s.dropWhile Json.isBlank with
  | [] => .error .unfinished
  | c :: cs => .ok (c, c :: cs)

def advance : Reader Unit := fun s => .ok ((), s.drop 1)

/-- Takes the word `w`. -/
def word (w : Text) : Reader Unit := fun s =>
  match w, s with
  | [], s => .ok ((), s)
  | _ :: _, [] => .error .unfinished
  | e :: w, c :: cs => if c = e then word w cs else .error .malformed

/-! ### Strings -/

/-- What is wrong where four hexadecimal digits should stand. A text of less than four bytes is too
short, whatever is in it. -/
def hexError (s : Text) : ReadError :=
  if (Utf8.encode (s.take 4)).length < 4 then .unfinished else .malformed

/-- What is wrong where the second half of a pair of surrogates should stand. -/
def pairError : Text → ReadError
  | [] => .unfinished
  | '\\' :: [] => .unfinished
  | '\\' :: 'u' :: s => hexError s
  | _ => .malformed

/-- Reads on behind an opening quote; `acc` holds the characters so far, last first. Surrogates
have to stand in pairs if `paired` says so. -/
def stringRest (paired : Bool) (acc : Text) : Text → Except ReadError (Text × Text)
  | [] => .error .unfinished
  | '"' :: cs => .ok (acc.reverse, cs)
  | '\\' :: 'u' :: a :: b :: c :: d :: cs =>
    match Json.unit? a b c d with
    | none => .error .malformed
    | some u =>
      if paired && Json.isHighSurrogate u then
        match cs with
        | '\\' :: 'u' :: e :: f :: g :: h :: cs =>
          match Json.unit? e f g h with
          | none => .error .malformed
          | some v =>
            if Json.isLowSurrogate v then stringRest paired (Json.surrogatePair u v :: acc) cs
            else .error .malformed
        | cs => .error (pairError cs)
      else if paired && Json.isLowSurrogate u then .error .malformed
      else stringRest paired (Char.ofNat u :: acc) cs
  | '\\' :: 'u' :: cs => .error (hexError cs)
  | '\\' :: c :: cs =>
    match Json.shortEscape? c with
    | some e => stringRest paired (e :: acc) cs
    | none => .error .malformed
  | '\\' :: [] => .error .unfinished
  | c :: cs => if c.toNat < 0x20 then .error .malformed else stringRest paired (c :: acc) cs

/-- A string whose opening quote comes next. -/
def string (paired : Bool) : Reader Text := fun s => stringRest paired [] (s.drop 1)

/-! ### Numbers -/

/-- A number as it is written: its digits before and behind the point, and the sign and the digits
of its exponent. -/
structure NumberText where
  negative : Bool
  whole : Text
  fraction : Option Text
  exponent : Option (Bool × Text)

/-- Takes the character `c` if it comes next. -/
def optionally (c : Char) : Reader Bool := fun s =>
  match s with
  | d :: cs => if d = c then .ok (true, cs) else .ok (false, d :: cs)
  | [] => .ok (false, [])

/-- Takes one digit or more. A text that ends before them is an error of its own. -/
def digits (atEnd : ReadError) : Reader Text := fun s =>
  match s with
  | [] => .error atEnd
  | c :: cs =>
    if Numeral.isDigit c then
      .ok (c :: cs.takeWhile Numeral.isDigit, cs.dropWhile Numeral.isDigit)
    else .error .malformed

/-- A number may begin with a zero only if that is all of its whole part. -/
def checkWhole (whole : Text) : Reader Unit :=
  match whole with
  | '0' :: _ :: _ => throw .malformed
  | _ => pure ()

def fraction (atEnd : ReadError) : Reader (Option Text) := do
  if ← optionally '.' then return some (← digits atEnd) else return none

def exponent (atEnd : ReadError) : Reader (Option (Bool × Text)) := do
  let small ← optionally 'e'
  let marked ← if small then pure true else optionally 'E'
  if marked then
    let negative ← optionally '-'
    if !negative then discard (optionally '+')
    return some (negative, ← digits atEnd)
  else return none

def numberText (atEnd : ReadError) : Reader NumberText := do
  let negative ← optionally '-'
  let whole ← digits atEnd
  checkWhole whole
  return ⟨negative, whole, ← fraction atEnd, ← exponent atEnd⟩

/-- A number by its value. -/
inductive Numeric where
  | natural (n : Nat)
  | negative (n : Nat)
  | floating (x : Double)

/-- Integers from here on do not fit into 64 bits. -/
def integerBound : Nat := Nat.pow 2 64

/-- The number that digits stand for, behind the number `n`, as long as it fits into 64 bits; and
how many digits are left then. -/
def gather (n : Nat) : Text → Nat × Nat
  | [] => (n, 0)
  | d :: ds =>
    let m := 10 * n + Numeral.digitValue d
    if m < integerBound then gather m ds else (n, ds.length + 1)

/-- Exponents beyond this are not computed with. -/
def maxExponent : Nat := Nat.pow 2 31 - 1

namespace NumberText

/-- The number as a floating-point number. As many digits as fit into 64 bits make up an integer,
which is rounded, scaled by a power of ten and rounded again. -/
def floating (t : NumberText) : Except ReadError Double :=
  let (w, more) := gather 0 t.whole
  let f := t.fraction.getD []
  let (significand, dropped) := gather w f
  let base : Int := more - (f.length - dropped : Nat)
  let (down, ds) := t.exponent.getD (false, [])
  let n := Numeral.value ds
  if maxExponent < n then
    if significand = 0 ∨ down then .ok (Double.zero t.negative) else .error .malformed
  else
    let e : Int := if down then base - n else base + n
    match Double.scaleRank? (Double.rankOfRatio significand 1) e with
    | some r => .ok (Double.ofRank t.negative r)
    | none => .error .malformed

/-- A number without point and exponent is an integer if it fits into 64 bits; minus zero is
none. -/
def numeric (t : NumberText) : Except ReadError Numeric :=
  let n := Numeral.value t.whole
  match t.fraction, t.exponent with
  | none, none =>
    if t.negative then
      if 0 < n ∧ n ≤ integerBound / 2 then .ok (.negative n) else t.floating.map .floating
    else if n < integerBound then .ok (.natural n)
    else t.floating.map .floating
  | _, _ => t.floating.map .floating

end NumberText

def number : Reader Numeric := do
  match (← numberText .unfinished).numeric with
  | .ok n => return n
  | .error e => throw e

/-! ### Values of one kind -/

def Numeric.found : Numeric → Found
  | natural n => .integer n
  | negative n => .integer (-n)
  | floating x => .floating x

def startsNumber (c : Char) : Bool := c == '-' || Numeral.isDigit c

/-- What the value is that begins with the character `c`, which comes next. -/
def found (c : Char) : Reader Found := do
  match c with
  | 'n' => word "null".toList; return .null
  | 't' => word "true".toList; return .bool true
  | 'f' => word "false".toList; return .bool false
  | '"' => return .string (← string true)
  | '[' => return .sequence
  | '\x7b' => return .map
  | c => if startsNumber c then return (← number).found else throw .malformed

/-- Turns down the value that begins with `c`. -/
def refuse {α : Type} (wanted : Wanted) (c : Char) : Reader α := do
  throw (.wrongType (← found c) wanted)

def bool : Reader Bool := do
  match ← next with
  | 't' => word "true".toList; return true
  | 'f' => word "false".toList; return false
  | c => refuse .bool c

def natural (wanted : Wanted) : Reader Nat := do
  let c ← next
  if startsNumber c then
    match ← number with
    | .natural n => return n
    | .negative n => throw (.outOfRange (-n) wanted)
    | .floating x => throw (.wrongType (.floating x) wanted)
  else refuse wanted c

def path : Reader Path := do
  match ← next with
  | '"' => return Path.ofText (← string true)
  | c => refuse .path c

end Reader

end StyleVars.Settings
