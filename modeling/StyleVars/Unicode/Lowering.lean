import StyleVars.Unicode.Lowercase
import StyleVars.Unicode.Cased

/-!
Lower-casing of whole texts. All characters but one are mapped on their own. A capital sigma
becomes the final form at the end of a word: when a cased character stands before it and none
behind it, where case-ignorable characters in between are passed over.
-/

namespace StyleVars.Unicode

/-- Whether the first character that is not case-ignorable is cased. -/
def meetsCased (s : Text) : Bool :=
  match s.dropWhile isCaseIgnorable with
  | c :: _ => isCased c
  | [] => false

/-- The lower-case form of `c` between the text `before`, last character first, and `after`. -/
def lowerBetween (before : Text) (c : Char) (after : Text) : Text :=
  if c = '\u03A3' then
    [if meetsCased before && !meetsCased after then '\u03C2' else '\u03C3']
  else lowerChar c

/-- The lower-case form of a text that follows on `before`, whose last character stands first. -/
def lowerFrom (before : Text) : Text → Text
  | [] => []
  | c :: cs => lowerBetween before c cs ++ lowerFrom (c :: before) cs

def toLower (s : Text) : Text := lowerFrom [] s

end StyleVars.Unicode
