import StyleVars.Path.Basic
import StyleVars.Url.Basic

/-!
File paths as URLs and back. Each component of an absolute path becomes an encoded segment, and each
segment of a local URL becomes a component.
-/

namespace StyleVars

namespace Path.Component

/-- A component as it is written in a path. -/
def bytes : Component → Utf8.Bytes
  | root => []
  | current => [dot]
  | parent => [dot, dot]
  | name n => n

end Path.Component

namespace Url

/-- The file URL of an absolute path; of the bare root there is one empty segment. -/
def ofPath? (p : Path) : Option Url :=
  if p.isAbsolute then
    let list := (p.components.drop 1).map fun c => percentEncode .fileName c.bytes
    some ⟨"file".toList, some {}, .segments (if list.isEmpty then [[]] else list), none, none⟩
  else none

/-- Whether the bytes end in a letter and a colon or bar, with something before them. -/
def endsInDriveLetter (bs : Utf8.Bytes) : Bool :=
  match bs.reverse with
  | d :: c :: _ :: _ => (d == 0x3A || d == 0x7C) && (Char.ofNat c.toNat).isAlpha
  | _ => false

/-- The path that a URL without a host, or with the local one, leads to, whatever its scheme. A
drive letter at the end gets a slash. -/
def toPath? (u : Url) : Option Path :=
  match u.place, u.host with
  | .segments [], _ => none
  | .segments list, .empty | .segments list, .localhost =>
    let bs := list.flatMap fun s => Path.slash :: percentDecode s
    some ⟨if endsInDriveLetter bs then bs ++ [Path.slash] else bs⟩
  | _, _ => none

end Url

end StyleVars
