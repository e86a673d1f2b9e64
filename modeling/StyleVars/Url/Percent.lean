import StyleVars.Text.Numeral
import StyleVars.Text.Utf8

/-!
Percent encoding. A byte that may not stand for itself is written as a percent sign and two
upper-case hexadecimal digits; which bytes these are depends on the part of the URL.
-/

namespace StyleVars.Url

/-- Characters that are encoded besides controls and all that is not ASCII. -/
abbrev EncodeSet := List Char

namespace EncodeSet

def fragment : EncodeSet := [' ', '"', '<', '>', '\x60']

def path : EncodeSet := fragment ++ ['#', '?', '\x7b', '\x7d']

def userinfo : EncodeSet := path ++ ['/', ':', ';', '=', '@', '[', '\\', ']', '^', '|']

/-- For a file name: nothing in it may look like a separator or like an encoded byte. -/
def fileName : EncodeSet := path ++ ['/', '%', '\\']

def query : EncodeSet := [' ', '"', '#', '<', '>']

def specialQuery : EncodeSet := query ++ ['\'']

end EncodeSet

def mustEncode (set : EncodeSet) (b : UInt8) : Bool :=
  b < 0x20 || 0x7E < b || set.contains (Char.ofNat b.toNat)

def encodeByte (set : EncodeSet) (b : UInt8) : Text :=
  if mustEncode set b then
    ['%', Numeral.hexChar (b.toNat / 16), Numeral.hexChar (b.toNat % 16)]
  else [Char.ofNat b.toNat]

def percentEncode (set : EncodeSet) (bs : Utf8.Bytes) : Text := bs.flatMap (encodeByte set)

def percentEncodeText (set : EncodeSet) (s : Text) : Text := percentEncode set (Utf8.encode s)

/-- A percent sign without two hexadecimal digits behind it stands for itself. -/
def percentDecode : Text → Utf8.Bytes
  | [] => []
  | '%' :: a :: b :: cs =>
    match Numeral.hexValue? a, Numeral.hexValue? b with
    | some h, some l => UInt8.ofNat (16 * h + l) :: percentDecode cs
    | _, _ => 0x25 :: percentDecode (a :: b :: cs)
  | c :: cs => String.utf8EncodeChar c ++ percentDecode cs

end StyleVars.Url
