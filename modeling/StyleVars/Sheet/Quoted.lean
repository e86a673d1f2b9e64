import StyleVars.Text.Position

/-!
When and how strings are put in quotes. Only the delimiter itself is escaped; a backslash stays as
it is, so an escape means the same inside and outside of quotes.
-/

namespace StyleVars.Sheet

/-- Characters that mean something else outside of quotes. -/
def reserved : List Char := ['$', '%', '*', '+', ',', '/', ':', '@', '|']

def isReserved (c : Char) : Bool := reserved.contains c

/-- The text with a backslash before each delimiter. -/
def escape (delimiter : Char) : Text → Text
  | [] => []
  | c :: cs => if c = delimiter then '\\' :: c :: escape delimiter cs else c :: escape delimiter cs

def quote (delimiter : Char) (s : Text) : Text := delimiter :: (escape delimiter s ++ [delimiter])

def needsQuotes (s : Text) : Bool := s.isEmpty || s.any isReserved

def quoteIfNeeded (s : Text) : Text := if needsQuotes s then quote '\'' s else s

end StyleVars.Sheet
