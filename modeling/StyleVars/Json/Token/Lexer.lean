import StyleVars.Json.Error
import StyleVars.Json.Escape
import StyleVars.Json.Limits

/-!
From text to tokens. Between tokens stand blanks and comments: `//` to the end of the line and
`/*` to the next `*/`. Nothing has to separate two tokens, and each token is as long as its kind
allows.
-/

namespace StyleVars.Json

/-- A place in a text and what follows it. -/
structure Cursor where
  pos : Position
  rest : Text
deriving DecidableEq, Repr

/-! ### Gaps -/

/-- What stands between two tokens: blanks, a comment to the end of the line, or a comment that
began with a slash at `start`. -/
inductive Gap where
  | blank
  | line
  | block (start : Position)

/-- Moves on to the next token or the end. -/
def skip : Gap → Position → Text → Except Error Cursor
  | .blank, p, '/' :: '/' :: cs => skip .line (p.right 2) cs
  | .blank, p, '/' :: '*' :: cs => skip (.block p) (p.right 2) cs
  | .blank, p, c :: cs => if isBlank c then skip .blank (p.next c) cs else .ok ⟨p, c :: cs⟩
  | .blank, p, [] => .ok ⟨p, []⟩
  | .line, p, c :: cs => skip (if c = '\n' then .blank else .line) (p.next c) cs
  | .line, p, [] => .ok ⟨p, []⟩
  | .block _, p, '*' :: '/' :: cs => skip .blank (p.right 2) cs
  | .block start, p, c :: cs => skip (.block start) (p.next c) cs
  | .block start, _, [] => .error (.unterminatedComment start)

/-! ### Strings -/

/-- Reads on behind the opening quote at `start`; `acc` holds the characters so far, last first. -/
def stringBody (start : Position) (acc : Text) : Position → Text → Except Error (Text × Cursor)
  | _, [] => .error (.unterminatedString start)
  | p, '"' :: cs => .ok (acc.reverse, ⟨p.right 1, cs⟩)
  | p, '\\' :: 'u' :: a :: b :: c :: d :: cs =>
    match unit? a b c d with
    | none => .error (.invalidEscape p)
    | some u =>
      if isHighSurrogate u then
        match cs with
        | '\\' :: 'u' :: e :: f :: g :: h :: cs =>
          match unit? e f g h with
          | none => .error (.invalidEscape p)
          | some v =>
            if isLowSurrogate v then stringBody start (surrogatePair u v :: acc) (p.right 12) cs
            else .error (.invalidEscape p)
        | _ => .error (.invalidEscape p)
      else if isLowSurrogate u then .error (.invalidEscape p)
      else stringBody start (Char.ofNat u :: acc) (p.right 6) cs
  | p, '\\' :: c :: cs =>
    match shortEscape? c with
    | some e => stringBody start (e :: acc) (p.right 2) cs
    | none => .error (.invalidEscape p)
  | p, '\\' :: [] => .error (.invalidEscape p)
  | p, c :: cs =>
    if c.toNat < 0x20 then .error (.controlCharacter c p)
    else stringBody start (c :: acc) (p.right 1) cs

/-! ### Numbers -/

/-- A number as it is written: its digits before and behind the point, and its power of ten. -/
structure NumberText where
  negative : Bool
  whole : Text
  fraction : Text
  exponent : Int
deriving DecidableEq, Repr

def NumberText.value (t : NumberText) : Double :=
  Double.ofDecimal t.negative (Numeral.value (t.whole ++ t.fraction)) (t.exponent - t.fraction.length)

/-- A part of a number, if it is well formed: what it says, the characters it takes and the text
behind it. Otherwise the characters up to the fault, and the text from there. -/
structure Part (α : Type) where
  meaning : Option α
  taken : Text
  rest : Text

def signPart : Text → Part Bool
  | '-' :: cs => ⟨some true, ['-'], cs⟩
  | cs => ⟨some false, [], cs⟩

def startsWithDigit : Text → Bool
  | c :: _ => Numeral.isDigit c
  | [] => false

def digitsOf (cs : Text) : Text := cs.takeWhile Numeral.isDigit

def afterDigits (cs : Text) : Text := cs.dropWhile Numeral.isDigit

/-- A zero stands alone; any other first digit may be followed by more. -/
def wholePart : Text → Part Text
  | '0' :: cs => ⟨if startsWithDigit cs then none else some ['0'], ['0'], cs⟩
  | cs => ⟨if startsWithDigit cs then some (digitsOf cs) else none, digitsOf cs, afterDigits cs⟩

def fractionPart : Text → Part Text
  | '.' :: cs =>
    ⟨if startsWithDigit cs then some (digitsOf cs) else none, '.' :: digitsOf cs, afterDigits cs⟩
  | cs => ⟨some [], [], cs⟩

def exponentSign : Text → Part Bool
  | '+' :: cs => ⟨some false, ['+'], cs⟩
  | '-' :: cs => ⟨some true, ['-'], cs⟩
  | cs => ⟨some false, [], cs⟩

def exponentPart : Text → Part Int
  | c :: cs =>
    if c = 'e' ∨ c = 'E' then
      let sign := exponentSign cs
      let n : Int := Numeral.value (digitsOf sign.rest)
      ⟨if startsWithDigit sign.rest then some (if sign.meaning = some true then -n else n) else none,
        c :: sign.taken ++ digitsOf sign.rest, afterDigits sign.rest⟩
    else ⟨some 0, [], c :: cs⟩
  | [] => ⟨some 0, [], []⟩

/-- Characters that an ill-formed number draws into its error message. -/
def isNumberTail (c : Char) : Bool := c.isAlphanum || c == '.'

/-- The number at the beginning of a text, with the characters it takes and the text behind it;
or the literal that is none. -/
def number? (cs : Text) : Except Text (NumberText × Text × Text) :=
  let sign := signPart cs
  let whole := wholePart sign.rest
  match whole.meaning with
  | none => .error (sign.taken ++ whole.taken ++ whole.rest.takeWhile isNumberTail)
  | some w =>
    let fraction := fractionPart whole.rest
    match fraction.meaning with
    | none =>
      .error (sign.taken ++ whole.taken ++ fraction.taken ++ fraction.rest.takeWhile isNumberTail)
    | some f =>
      let exponent := exponentPart fraction.rest
      let taken := sign.taken ++ whole.taken ++ fraction.taken ++ exponent.taken
      match exponent.meaning with
      | none => .error (taken ++ exponent.rest.takeWhile isNumberTail)
      | some e => .ok (⟨sign.meaning = some true, w, f, e⟩, taken, exponent.rest)

/-! ### Tokens -/

/-- Compares the text with what is left of the word `w`, which began at `start`. -/
def word (w : Text) (start : Position) : Text → Position → Text → Except Error Cursor
  | [], p, cs => .ok ⟨p, cs⟩
  | _ :: _, _, [] => .error (.unexpectedEnd (.word w) start)
  | e :: es, p, c :: cs =>
    if c = e then word w start es (p.right 1) cs else .error (.unexpectedCharacter c p)

/-- The token at the beginning of a text that is not empty and has no gap there. -/
def tokenAt (p : Position) (c : Char) (cs : Text) : Except Error (Token × Cursor) :=
  match c with
  | '\x7b' => .ok (.openBrace, ⟨p.right 1, cs⟩)
  | '\x7d' => .ok (.closeBrace, ⟨p.right 1, cs⟩)
  | '[' => .ok (.openBracket, ⟨p.right 1, cs⟩)
  | ']' => .ok (.closeBracket, ⟨p.right 1, cs⟩)
  | ':' => .ok (.colon, ⟨p.right 1, cs⟩)
  | ',' => .ok (.comma, ⟨p.right 1, cs⟩)
  | '"' => (stringBody p [] (p.right 1) cs).map fun (s, k) => (.string s, k)
  | 't' => (word "true".toList p "true".toList p (c :: cs)).map (.bool true, ·)
  | 'f' => (word "false".toList p "false".toList p (c :: cs)).map (.bool false, ·)
  | 'n' => (word "null".toList p "null".toList p (c :: cs)).map (.null, ·)
  | _ =>
    if c = '-' ∨ Numeral.isDigit c then
      match number? (c :: cs) with
      | .ok (n, taken, rest) => .ok (.number n.value, ⟨p.right taken.length, rest⟩)
      | .error literal => .error (.invalidNumber literal p)
    else .error (.unexpectedCharacter c p)

/-- A token and the place of its first character. -/
structure Lexeme where
  token : Token
  pos : Position
deriving DecidableEq, Repr

namespace Cursor

/-- The next token, if there is one, and the place behind it. At the end the place is the end. -/
def next (k : Cursor) : Except Error (Option Lexeme × Cursor) := do
  let k ← skip .blank k.pos k.rest
  match k.rest with
  | [] => return (none, k)
  | c :: cs =>
    let (t, after) ← tokenAt k.pos c cs
    return (some ⟨t, k.pos⟩, after)

end Cursor

end StyleVars.Json
