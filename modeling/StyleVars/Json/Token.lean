import StyleVars.Number.Notation

/-!
The tokens of JSON text. Strings are decoded and numbers are rounded.
-/

namespace StyleVars.Json

inductive Token where
  | openBrace
  | closeBrace
  | openBracket
  | closeBracket
  | colon
  | comma
  | null
  | bool (b : Bool)
  | number (x : Double)
  | string (s : Text)
deriving DecidableEq, Repr

/-- What error messages call a token. -/
def Token.description : Token → Text
  | .openBrace => "'\x7b'".toList
  | .closeBrace => "'\x7d'".toList
  | .openBracket => "'['".toList
  | .closeBracket => "']'".toList
  | .colon => "':'".toList
  | .comma => "','".toList
  | .null => "null".toList
  | .bool true => "true".toList
  | .bool false => "false".toList
  | .number x => "number ".toList ++ x.plain
  | .string s => "string \"".toList ++ s ++ ['"']

end StyleVars.Json
