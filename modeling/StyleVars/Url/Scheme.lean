import StyleVars.Text.Position

/-!
The scheme of a URL, and the characters whose meaning hangs on it or that mean nothing. A few
schemes are special: they always have an authority, and a backslash counts as a slash.
-/

namespace StyleVars.Url

inductive SchemeKind where
  | file
  | web (defaultPort : Nat)
  | plain
deriving DecidableEq, Repr

namespace SchemeKind

def ofScheme (scheme : Text) : SchemeKind :=
  if scheme = "file".toList then file
  else if scheme = "http".toList ∨ scheme = "ws".toList then web 80
  else if scheme = "https".toList ∨ scheme = "wss".toList then web 443
  else if scheme = "ftp".toList then web 21
  else plain

def isSpecial : SchemeKind → Bool
  | plain => false
  | _ => true

/-- Whether a character counts as a slash. -/
def isSlash (k : SchemeKind) (c : Char) : Bool := c == '/' || c == '\\' && k.isSpecial

end SchemeKind

/-- Without controls and blanks at the ends. -/
def trimmed (s : Text) : Text :=
  let trim (s : Text) := (s.dropWhile fun c => c ≤ ' ').reverse
  trim (trim s)

/-- Tabs and line breaks may stand anywhere. -/
def isGap (c : Char) : Bool := c == '\t' || c == '\n' || c == '\r'

/-- Without tabs and line breaks. -/
def solid (s : Text) : Text := s.filter fun c => !isGap c

/-- What stands behind the slash that `s` begins with. -/
def afterSlash? (k : SchemeKind) (s : Text) : Option Text :=
  match s.dropWhile isGap with
  | c :: cs => if k.isSlash c then some cs else none
  | [] => none

def isSchemeChar (c : Char) : Bool := c.isAlphanum || c == '+' || c == '-' || c == '.'

/-- The scheme in lower case and what stands behind its colon. -/
def splitScheme? (s : Text) : Option (Text × Text) :=
  let belongs (c : Char) := isSchemeChar c || isGap c
  match solid (s.takeWhile belongs), s.dropWhile belongs with
  | c :: cs, ':' :: rest => if c.isAlpha then some ((c :: cs).map Char.toLower, rest) else none
  | _, _ => none

end StyleVars.Url
