import StyleVars.Text.Position

/-!
The names of the settings in a settings file. Two of them have a second spelling.
-/

namespace StyleVars.Settings

inductive LimitField where
  | size
  | depth
deriving DecidableEq, Repr

namespace LimitField

def name : LimitField → String
  | size => "maxInputSize"
  | depth => "maxNestingDepth"

/-- In the order in which a list gives them. -/
def all : List LimitField := [size, depth]

def ofKey? (key : Text) : Option LimitField := all.find? fun x => x.name.toList == key

end LimitField

inductive Field where
  | loadPaths
  | convertCase
  | resolveLinks
  | quoteKeys
  | limits
deriving DecidableEq, Repr

namespace Field

def name : Field → String
  | loadPaths => "loadPaths"
  | convertCase => "convertCase"
  | resolveLinks => "resolveInternalLinks"
  | quoteKeys => "stringifyAllKeys"
  | limits => "limits"

/-- The name and the other spelling, if there is one. -/
def spellings : Field → List String
  | resolveLinks => [name resolveLinks, "resolveWordPressInternals"]
  | quoteKeys => [name quoteKeys, "stringifyKeys"]
  | x => [x.name]

/-- In the order in which a list gives them. -/
def all : List Field := [loadPaths, convertCase, resolveLinks, quoteKeys, limits]

def ofKey? (key : Text) : Option Field :=
  all.find? fun x => x.spellings.any fun s => s.toList == key

end Field

end StyleVars.Settings
