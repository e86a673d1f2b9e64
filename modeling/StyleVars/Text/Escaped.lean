import StyleVars.Text.Numeral
import StyleVars.Unicode.Unprintable

/-!
Texts between quotes for messages, on one line and with nothing in them that cannot be seen.
-/

namespace StyleVars

def escapedChar (c : Char) : Text :=
  match c with
  | '\x00' => ['\\', '0']
  | '\t' => ['\\', 't']
  | '\n' => ['\\', 'n']
  | '\r' => ['\\', 'r']
  | '"' => ['\\', '"']
  | '\\' => ['\\', '\\']
  | c =>
    if Unicode.isUnprintable c then ['\\', 'u', '\x7b'] ++ Numeral.hexOfNat c.toNat ++ ['\x7d']
    else [c]

def escapedText (s : Text) : Text := '"' :: (s.flatMap escapedChar ++ ['"'])

end StyleVars
