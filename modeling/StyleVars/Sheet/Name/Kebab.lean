import StyleVars.Unicode.Lowering

/-!
Kebab case. A hyphen goes before an ASCII capital that follows on an ASCII small letter or digit,
and before the last of several ASCII capitals when a small letter follows it. Then the whole is
lower-cased.
-/

namespace StyleVars.Sheet

/-- Whether a word begins with `c`, between the characters `before` and `after`. -/
def beginsWord (before : Option Char) (c : Char) (after : Option Char) : Bool :=
  c.isUpper && match before with
    | none => false
    | some b => b.isLower || b.isDigit || b.isUpper && after.any Char.isLower

/-- Hyphens between the words of a text that follows on the character `before`. -/
def hyphenate (before : Option Char) : Text → Text
  | [] => []
  | c :: cs =>
    if beginsWord before c cs.head? then '-' :: c :: hyphenate (some c) cs
    else c :: hyphenate (some c) cs

def kebab (key : Text) : Text := Unicode.toLower (hyphenate none key)

end StyleVars.Sheet
