import StyleVars.Json.Token

/-!
Why a text is not a JSON document, and where. Positions count from the first character after a
byte order mark.
-/

namespace StyleVars.Json

/-- What the reader was looking for. -/
inductive Expectation where
  | value
  | keyOrEnd
  | colon
  | commaOrBrace
  | commaOrBracket
  | word (w : Text)
deriving DecidableEq, Repr

def Expectation.description : Expectation → String
  | .value => "a value"
  | .keyOrEnd => "a string key or '\x7d'"
  | .colon => "':'"
  | .commaOrBrace => "',' or '\x7d'"
  | .commaOrBracket => "',' or ']'"
  | .word w => String.ofList w

inductive Error where
  | unexpectedCharacter (found : Char) (pos : Position)
  | unexpectedToken (found : Token) (expected : Expectation) (pos : Position)
  | unexpectedEnd (expected : Expectation) (pos : Position)
  /-- The position is that of the opening quote. -/
  | unterminatedString (pos : Position)
  /-- The position is that of the opening slash. -/
  | unterminatedComment (pos : Position)
  | controlCharacter (found : Char) (pos : Position)
  /-- The position is that of the backslash. -/
  | invalidEscape (pos : Position)
  | invalidNumber (literal : Text) (pos : Position)
  | trailingContent (pos : Position)
  | inputTooLarge (size limit : Nat)
  | nestingTooDeep (depth limit : Nat) (pos : Position)
deriving DecidableEq, Repr

namespace Error

/-- Four upper-case hexadecimal digits of a number below `2 ^ 16`. -/
def codePoint (n : Nat) : String :=
  String.ofList ([n / 4096, n / 256 % 16, n / 16 % 16, n % 16].map Numeral.hexChar)

def message : Error → String
  | unexpectedCharacter found pos =>
    "unexpected character '" ++ String.ofList [found] ++ "' at " ++ pos.message
  | unexpectedToken found expected pos =>
    "unexpected " ++ String.ofList found.description ++ " at " ++ pos.message ++ ", expected "
      ++ expected.description
  | unexpectedEnd expected pos =>
    "unexpected end of input at " ++ pos.message ++ ", expected " ++ expected.description
  | unterminatedString pos => "unterminated string starting at " ++ pos.message
  | unterminatedComment pos => "unterminated block comment starting at " ++ pos.message
  | controlCharacter found pos =>
    "control character U+" ++ codePoint found.toNat ++ " in string at " ++ pos.message
  | invalidEscape pos => "invalid escape sequence at " ++ pos.message
  | invalidNumber literal pos =>
    "invalid number '" ++ String.ofList literal ++ "' at " ++ pos.message
  | trailingContent pos => "trailing content at " ++ pos.message
  | inputTooLarge size limit => s!"input of {size} bytes exceeds limit of {limit} bytes"
  | nestingTooDeep depth limit pos =>
    s!"nesting depth {depth} exceeds limit of {limit} at " ++ pos.message

end Error

end StyleVars.Json
