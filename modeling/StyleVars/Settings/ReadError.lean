import StyleVars.Number.Notation
import StyleVars.Settings.Field
import StyleVars.Text.Escaped

/-!
Why a text is no settings file. Of several faults the leftmost counts.
-/

namespace StyleVars.Settings

/-- A value of the wrong kind. -/
inductive Found where
  | null
  | bool (b : Bool)
  | integer (n : Int)
  | floating (x : Double)
  | string (s : Text)
  | sequence
  | map
deriving DecidableEq, Repr

/-- What should have stood in its place. -/
inductive Wanted where
  | settings
  | limits
  | sequence
  | path
  | bool
  | size
  | depth
deriving DecidableEq, Repr

inductive ReadError where
  /-- The text is not JSON from here on. -/
  | malformed
  /-- The text is the beginning of some JSON. -/
  | unfinished
  | wrongType (found : Found) (wanted : Wanted)
  | outOfRange (found : Int) (wanted : Wanted)
  | unknownField (key : Text)
  | repeatedField (name : String)
deriving DecidableEq, Repr

def quoted (s : String) : String := "`" ++ s ++ "`"

def Found.description : Found → String
  | null => "null"
  | bool b => "boolean " ++ quoted (if b then "true" else "false")
  | integer n => "integer " ++ quoted (toString n)
  | floating x => "floating point " ++ quoted (String.ofList x.pointed)
  | string s => "string " ++ String.ofList (escapedText s)
  | sequence => "sequence"
  | map => "map"

def Wanted.description : Wanted → String
  | settings => "struct ImporterOptions"
  | limits => "struct Limits"
  | sequence => "a sequence"
  | path => "path string"
  | bool => "a boolean"
  | size => "u64"
  | depth => "usize"

def ReadError.message : ReadError → String
  | malformed => "not valid JSON"
  | unfinished => "unexpected end of JSON"
  | wrongType found wanted =>
    "invalid type: " ++ found.description ++ ", expected " ++ wanted.description
  | outOfRange found wanted =>
    "invalid value: " ++ (Found.integer found).description ++ ", expected " ++ wanted.description
  | unknownField key =>
    "unknown field " ++ quoted (String.ofList key) ++ ", expected one of "
      ++ ", ".intercalate ((Field.all.flatMap Field.spellings).map quoted)
  | repeatedField name => "duplicate field " ++ quoted name

end StyleVars.Settings
