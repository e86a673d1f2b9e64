import StyleVars.Dictionary
import StyleVars.Number.Double
import StyleVars.Text.Position

/-!
JSON documents as trees. An object keeps the order in which its keys first appeared, and each key
once, with the value that was given last.
-/

namespace StyleVars.Json

inductive Value where
  | null
  | bool (b : Bool)
  | number (x : Double)
  | string (s : Text)
  | array (items : List Value)
  | object (entries : List (Text × Value))
deriving Repr, Inhabited

/-- The entries of an object, in order. -/
abbrev Entries := Dictionary Text Value

namespace Value

/-- What error messages call the kind of a value. -/
def typeName : Value → String
  | null => "null"
  | bool _ => "boolean"
  | number _ => "number"
  | string _ => "string"
  | array _ => "array"
  | object _ => "object"

def string? : Value → Option Text
  | string s => some s
  | _ => none

def object? : Value → Option Entries
  | object es => some es
  | _ => none

/-- The value of a key, if this is an object that has it. -/
def get? (key : Text) : Value → Option Value
  | object es => Dictionary.find? key es
  | _ => none

end Value

end StyleVars.Json
