import StyleVars.Text.Position
import StyleVars.Unicode.Ranges

/-!
How the letters of domain names are compared. A letter in another form, such as a capital, a
full-width or a mathematical one, counts as the plain small letter, a sign for several letters as
these, and characters that are not shown do not count. The mapping is of Unicode 17.
-/

namespace StyleVars.Unicode

/-- The code points from `first` to `last`, which stand for `letter` and the letters after it. -/
structure LetterRun where
  first : Nat
  last : Nat
  letter : Char

namespace LetterRun

def covers (r : LetterRun) (n : Nat) : Bool := r.first ≤ n && n ≤ r.last

end LetterRun

def letterRuns : List LetterRun := [
  ⟨0x41, 0x5A, 'a'⟩, ⟨0xAA, 0xAA, 'a'⟩, ⟨0xBA, 0xBA, 'o'⟩, ⟨0x17F, 0x17F, 's'⟩, ⟨0x2B0, 0x2B0, 'h'⟩,
  ⟨0x2B2, 0x2B2, 'j'⟩, ⟨0x2B3, 0x2B3, 'r'⟩, ⟨0x2B7, 0x2B7, 'w'⟩, ⟨0x2B8, 0x2B8, 'y'⟩,
  ⟨0x2E1, 0x2E1, 'l'⟩, ⟨0x2E2, 0x2E2, 's'⟩, ⟨0x2E3, 0x2E3, 'x'⟩, ⟨0x1D2C, 0x1D2C, 'a'⟩,
  ⟨0x1D2E, 0x1D2E, 'b'⟩, ⟨0x1D30, 0x1D31, 'd'⟩, ⟨0x1D33, 0x1D3A, 'g'⟩, ⟨0x1D3C, 0x1D3C, 'o'⟩,
  ⟨0x1D3E, 0x1D3E, 'p'⟩, ⟨0x1D3F, 0x1D3F, 'r'⟩, ⟨0x1D40, 0x1D41, 't'⟩, ⟨0x1D42, 0x1D42, 'w'⟩,
  ⟨0x1D43, 0x1D43, 'a'⟩, ⟨0x1D47, 0x1D47, 'b'⟩, ⟨0x1D48, 0x1D49, 'd'⟩, ⟨0x1D4D, 0x1D4D, 'g'⟩,
  ⟨0x1D4F, 0x1D4F, 'k'⟩, ⟨0x1D50, 0x1D50, 'm'⟩, ⟨0x1D52, 0x1D52, 'o'⟩, ⟨0x1D56, 0x1D56, 'p'⟩,
  ⟨0x1D57, 0x1D58, 't'⟩, ⟨0x1D5B, 0x1D5B, 'v'⟩, ⟨0x1D62, 0x1D62, 'i'⟩, ⟨0x1D63, 0x1D63, 'r'⟩,
  ⟨0x1D64, 0x1D65, 'u'⟩, ⟨0x1D9C, 0x1D9C, 'c'⟩, ⟨0x1DA0, 0x1DA0, 'f'⟩, ⟨0x1DBB, 0x1DBB, 'z'⟩,
  ⟨0x2071, 0x2071, 'i'⟩, ⟨0x207F, 0x207F, 'n'⟩, ⟨0x2090, 0x2090, 'a'⟩, ⟨0x2091, 0x2091, 'e'⟩,
  ⟨0x2092, 0x2092, 'o'⟩, ⟨0x2093, 0x2093, 'x'⟩, ⟨0x2095, 0x2095, 'h'⟩, ⟨0x2096, 0x2099, 'k'⟩,
  ⟨0x209A, 0x209A, 'p'⟩, ⟨0x209B, 0x209C, 's'⟩, ⟨0x2102, 0x2102, 'c'⟩, ⟨0x210A, 0x210B, 'g'⟩,
  ⟨0x210C, 0x210C, 'h'⟩, ⟨0x210D, 0x210D, 'h'⟩, ⟨0x210E, 0x210E, 'h'⟩, ⟨0x2110, 0x2110, 'i'⟩,
  ⟨0x2111, 0x2111, 'i'⟩, ⟨0x2112, 0x2112, 'l'⟩, ⟨0x2113, 0x2113, 'l'⟩, ⟨0x2115, 0x2115, 'n'⟩,
  ⟨0x2119, 0x211B, 'p'⟩, ⟨0x211C, 0x211C, 'r'⟩, ⟨0x211D, 0x211D, 'r'⟩, ⟨0x2124, 0x2124, 'z'⟩,
  ⟨0x2128, 0x2128, 'z'⟩, ⟨0x212A, 0x212A, 'k'⟩, ⟨0x212C, 0x212D, 'b'⟩, ⟨0x212F, 0x212F, 'e'⟩,
  ⟨0x2130, 0x2131, 'e'⟩, ⟨0x2133, 0x2133, 'm'⟩, ⟨0x2134, 0x2134, 'o'⟩, ⟨0x2139, 0x2139, 'i'⟩,
  ⟨0x2145, 0x2145, 'd'⟩, ⟨0x2146, 0x2147, 'd'⟩, ⟨0x2148, 0x2149, 'i'⟩, ⟨0x2160, 0x2160, 'i'⟩,
  ⟨0x2164, 0x2164, 'v'⟩, ⟨0x2169, 0x2169, 'x'⟩, ⟨0x216C, 0x216C, 'l'⟩, ⟨0x216D, 0x216E, 'c'⟩,
  ⟨0x216F, 0x216F, 'm'⟩, ⟨0x2170, 0x2170, 'i'⟩, ⟨0x2174, 0x2174, 'v'⟩, ⟨0x2179, 0x2179, 'x'⟩,
  ⟨0x217C, 0x217C, 'l'⟩, ⟨0x217D, 0x217E, 'c'⟩, ⟨0x217F, 0x217F, 'm'⟩, ⟨0x24B6, 0x24CF, 'a'⟩,
  ⟨0x24D0, 0x24E9, 'a'⟩, ⟨0x2C7C, 0x2C7C, 'j'⟩, ⟨0x2C7D, 0x2C7D, 'v'⟩, ⟨0xA7F1, 0xA7F1, 's'⟩,
  ⟨0xA7F2, 0xA7F2, 'c'⟩, ⟨0xA7F3, 0xA7F3, 'f'⟩, ⟨0xA7F4, 0xA7F4, 'q'⟩, ⟨0xFF21, 0xFF3A, 'a'⟩,
  ⟨0xFF41, 0xFF5A, 'a'⟩, ⟨0x107A5, 0x107A5, 'q'⟩, ⟨0x1CCD6, 0x1CCEF, 'a'⟩, ⟨0x1D400, 0x1D419, 'a'⟩,
  ⟨0x1D41A, 0x1D433, 'a'⟩, ⟨0x1D434, 0x1D44D, 'a'⟩, ⟨0x1D44E, 0x1D454, 'a'⟩,
  ⟨0x1D456, 0x1D467, 'i'⟩, ⟨0x1D468, 0x1D481, 'a'⟩, ⟨0x1D482, 0x1D49B, 'a'⟩,
  ⟨0x1D49C, 0x1D49C, 'a'⟩, ⟨0x1D49E, 0x1D49F, 'c'⟩, ⟨0x1D4A2, 0x1D4A2, 'g'⟩,
  ⟨0x1D4A5, 0x1D4A6, 'j'⟩, ⟨0x1D4A9, 0x1D4AC, 'n'⟩, ⟨0x1D4AE, 0x1D4B5, 's'⟩,
  ⟨0x1D4B6, 0x1D4B9, 'a'⟩, ⟨0x1D4BB, 0x1D4BB, 'f'⟩, ⟨0x1D4BD, 0x1D4C3, 'h'⟩,
  ⟨0x1D4C5, 0x1D4CF, 'p'⟩, ⟨0x1D4D0, 0x1D4E9, 'a'⟩, ⟨0x1D4EA, 0x1D503, 'a'⟩,
  ⟨0x1D504, 0x1D505, 'a'⟩, ⟨0x1D507, 0x1D50A, 'd'⟩, ⟨0x1D50D, 0x1D514, 'j'⟩,
  ⟨0x1D516, 0x1D51C, 's'⟩, ⟨0x1D51E, 0x1D537, 'a'⟩, ⟨0x1D538, 0x1D539, 'a'⟩,
  ⟨0x1D53B, 0x1D53E, 'd'⟩, ⟨0x1D540, 0x1D544, 'i'⟩, ⟨0x1D546, 0x1D546, 'o'⟩,
  ⟨0x1D54A, 0x1D550, 's'⟩, ⟨0x1D552, 0x1D56B, 'a'⟩, ⟨0x1D56C, 0x1D585, 'a'⟩,
  ⟨0x1D586, 0x1D59F, 'a'⟩, ⟨0x1D5A0, 0x1D5B9, 'a'⟩, ⟨0x1D5BA, 0x1D5D3, 'a'⟩,
  ⟨0x1D5D4, 0x1D5ED, 'a'⟩, ⟨0x1D5EE, 0x1D607, 'a'⟩, ⟨0x1D608, 0x1D621, 'a'⟩,
  ⟨0x1D622, 0x1D63B, 'a'⟩, ⟨0x1D63C, 0x1D655, 'a'⟩, ⟨0x1D656, 0x1D66F, 'a'⟩,
  ⟨0x1D670, 0x1D689, 'a'⟩, ⟨0x1D68A, 0x1D6A3, 'a'⟩, ⟨0x1F12B, 0x1F12B, 'c'⟩,
  ⟨0x1F12C, 0x1F12C, 'r'⟩, ⟨0x1F130, 0x1F149, 'a'⟩]

/-- Signs that stand for several letters. -/
def letterSigns : List (Nat × String) := [
  (0x132, "ij"), (0x133, "ij"), (0x1C7, "lj"), (0x1C8, "lj"), (0x1C9, "lj"), (0x1CA, "nj"),
  (0x1CB, "nj"), (0x1CC, "nj"), (0x1F1, "dz"), (0x1F2, "dz"), (0x1F3, "dz"), (0x20A8, "rs"),
  (0x2116, "no"), (0x2120, "sm"), (0x2121, "tel"), (0x2122, "tm"), (0x213B, "fax"), (0x2161, "ii"),
  (0x2162, "iii"), (0x2163, "iv"), (0x2165, "vi"), (0x2166, "vii"), (0x2167, "viii"),
  (0x2168, "ix"), (0x216A, "xi"), (0x216B, "xii"), (0x2171, "ii"), (0x2172, "iii"), (0x2173, "iv"),
  (0x2175, "vi"), (0x2176, "vii"), (0x2177, "viii"), (0x2178, "ix"), (0x217A, "xi"),
  (0x217B, "xii"), (0x3250, "pte"), (0x32CC, "hg"), (0x32CD, "erg"), (0x32CE, "ev"),
  (0x32CF, "ltd"), (0x3371, "hpa"), (0x3372, "da"), (0x3373, "au"), (0x3374, "bar"), (0x3375, "ov"),
  (0x3376, "pc"), (0x3377, "dm"), (0x337A, "iu"), (0x3380, "pa"), (0x3381, "na"), (0x3383, "ma"),
  (0x3384, "ka"), (0x3385, "kb"), (0x3386, "mb"), (0x3387, "gb"), (0x3388, "cal"), (0x3389, "kcal"),
  (0x338A, "pf"), (0x338B, "nf"), (0x338E, "mg"), (0x338F, "kg"), (0x3390, "hz"), (0x3391, "khz"),
  (0x3392, "mhz"), (0x3393, "ghz"), (0x3394, "thz"), (0x3396, "ml"), (0x3397, "dl"), (0x3398, "kl"),
  (0x3399, "fm"), (0x339A, "nm"), (0x339C, "mm"), (0x339D, "cm"), (0x339E, "km"), (0x33A9, "pa"),
  (0x33AA, "kpa"), (0x33AB, "mpa"), (0x33AC, "gpa"), (0x33AD, "rad"), (0x33B0, "ps"),
  (0x33B1, "ns"), (0x33B3, "ms"), (0x33B4, "pv"), (0x33B5, "nv"), (0x33B7, "mv"), (0x33B8, "kv"),
  (0x33B9, "mv"), (0x33BA, "pw"), (0x33BB, "nw"), (0x33BD, "mw"), (0x33BE, "kw"), (0x33BF, "mw"),
  (0x33C3, "bq"), (0x33C4, "cc"), (0x33C5, "cd"), (0x33C8, "db"), (0x33C9, "gy"), (0x33CA, "ha"),
  (0x33CB, "hp"), (0x33CC, "in"), (0x33CD, "kk"), (0x33CE, "km"), (0x33CF, "kt"), (0x33D0, "lm"),
  (0x33D1, "ln"), (0x33D2, "log"), (0x33D3, "lx"), (0x33D4, "mb"), (0x33D5, "mil"), (0x33D6, "mol"),
  (0x33D7, "ph"), (0x33D9, "ppm"), (0x33DA, "pr"), (0x33DB, "sr"), (0x33DC, "sv"), (0x33DD, "wb"),
  (0x33FF, "gal"), (0xFB00, "ff"), (0xFB01, "fi"), (0xFB02, "fl"), (0xFB03, "ffi"), (0xFB04, "ffl"),
  (0xFB05, "st"), (0xFB06, "st"), (0x1F12D, "cd"), (0x1F12E, "wz"), (0x1F14A, "hv"),
  (0x1F14B, "mv"), (0x1F14C, "sd"), (0x1F14D, "ss"), (0x1F14E, "ppv"), (0x1F14F, "wc"),
  (0x1F16A, "mc"), (0x1F16B, "md"), (0x1F16C, "mr"), (0x1F190, "dj")]

def uncountedRanges : Ranges := [
  (0xAD, 0xAD), (0x34F, 0x34F), (0x115F, 0x1160), (0x17B4, 0x17B5), (0x180B, 0x180F),
  (0x200B, 0x200B), (0x2060, 0x2064), (0x206A, 0x206F), (0x3164, 0x3164), (0xFE00, 0xFE0F),
  (0xFEFF, 0xFEFF), (0xFFA0, 0xFFA0), (0x1BCA0, 0x1BCA3), (0x1D173, 0x1D17A), (0xE0100, 0xE01EF)]

/-- What a character of a domain name counts as. -/
def domainChar (c : Char) : Text :=
  if uncountedRanges.contains c.toNat then []
  else match letterSigns.lookup c.toNat with
    | some s => s.toList
    | none =>
      match letterRuns.find? (·.covers c.toNat) with
      | some r => [Char.ofNat (r.letter.toNat + (c.toNat - r.first))]
      | none => [c]

def domainName (s : Text) : Text := s.flatMap domainChar

end StyleVars.Unicode
