import StyleVars.Text.Position

/-!
UTF-8. Bytes that are no UTF-8 are taken in the longest pieces that could have begun a character,
and each such piece reads as one replacement character where a text must be had at any price.
-/

namespace StyleVars.Utf8

abbrev Bytes := List UInt8

def encode (s : Text) : Bytes := s.flatMap String.utf8EncodeChar

def isContinuation (b : UInt8) : Bool := 0x80 ≤ b && b ≤ 0xBF

def leadsTwo (a : UInt8) : Bool := 0xC2 ≤ a && a ≤ 0xDF

/-- Whether `a` and `b` begin a character of three bytes; no surrogate and no overlong form. -/
def leadsThree (a b : UInt8) : Bool :=
  0xE0 ≤ a && a ≤ 0xEF && isContinuation b && (a != 0xE0 || 0xA0 ≤ b) && (a != 0xED || b ≤ 0x9F)

/-- Whether `a` and `b` begin a character of four bytes, up to U+10FFFF. -/
def leadsFour (a b : UInt8) : Bool :=
  0xF0 ≤ a && a ≤ 0xF4 && isContinuation b && (a != 0xF0 || 0x90 ≤ b) && (a != 0xF4 || b ≤ 0x8F)

/-- The payload of a continuation byte. -/
def low (b : UInt8) : Nat := b.toNat - 0x80

/-- What the byte `a` begins when `r` follows: a character, or a piece that is no UTF-8; and how
many bytes of `r` belong to it. -/
def unit (a : UInt8) (r : Bytes) : Option Char × Nat :=
  if a < 0x80 then (some (Char.ofNat a.toNat), 0)
  else match r with
    | [] => (none, 0)
    | b :: r =>
      if leadsTwo a && isContinuation b then
        (some (Char.ofNat ((a.toNat - 0xC0) * 0x40 + low b)), 1)
      else if leadsThree a b then
        match r with
        | c :: _ =>
          if isContinuation c then
            (some (Char.ofNat (((a.toNat - 0xE0) * 0x40 + low b) * 0x40 + low c)), 2)
          else (none, 1)
        | [] => (none, 1)
      else if leadsFour a b then
        match r with
        | c :: r =>
          if isContinuation c then
            match r with
            | d :: _ =>
              if isContinuation d then
                (some (Char.ofNat
                  ((((a.toNat - 0xF0) * 0x40 + low b) * 0x40 + low c) * 0x40 + low d)), 3)
              else (none, 2)
            | [] => (none, 2)
          else (none, 1)
        | [] => (none, 1)
      else (none, 0)

/-- The characters that the bytes stand for, with `none` for each piece that is no UTF-8; `acc`
holds what stands before, last first. -/
def unitsOnto (acc : List (Option Char)) : Bytes → List (Option Char)
  | [] => acc.reverse
  | a :: r => unitsOnto ((unit a r).1 :: acc) (r.drop (unit a r).2)
termination_by bs => bs.length
decreasing_by rw [List.length_drop, List.length_cons]; omega

def units (bs : Bytes) : List (Option Char) := unitsOnto [] bs

/-- The text that the bytes encode, if they are UTF-8. -/
def decode? (bs : Bytes) : Option Text := (units bs).mapM id

/-- The text with a replacement character for each piece that is no UTF-8. -/
def decodeLossy (bs : Bytes) : Text := (units bs).map (·.getD '\uFFFD')

end StyleVars.Utf8
