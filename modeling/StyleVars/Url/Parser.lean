import StyleVars.Url.Authority
import StyleVars.Url.Segments

/-!
From text to URLs. A file URL has no user and no port, and its host does not count if it is the
local one or if the path opens with a drive letter.
-/

namespace StyleVars.Url

/-! ### Query and fragment -/

def endsPath (c : Char) : Bool := c == '?' || c == '#'

def fragmentOf : Text → Option Text
  | '#' :: f => some (percentEncodeText .fragment (solid f))
  | _ => none

/-- The query and the fragment that stand behind a path. -/
def tailOf (k : SchemeKind) : Text → Option Text × Option Text
  | '?' :: s =>
    let set := if k.isSpecial then EncodeSet.specialQuery else EncodeSet.query
    (some (percentEncodeText set (solid (s.takeWhile (· != '#')))),
      fragmentOf (s.dropWhile (· != '#')))
  | s => (none, fragmentOf s)

/-- The path at the beginning of `s`. -/
def pathOf (s : Text) : Text := s.takeWhile fun c => !endsPath c

/-- The URL that ends with the query and the fragment behind the path in `s`. -/
def withTail (k : SchemeKind) (scheme : Text) (authority : Option Authority) (place : Place)
    (s : Text) : Url :=
  let tail := tailOf k (s.dropWhile fun c => !endsPath c)
  ⟨scheme, authority, place, tail.1, tail.2⟩

/-! ### URLs with an authority -/

def endsAuthority (k : SchemeKind) (c : Char) : Bool := k.isSlash c || endsPath c

/-- The path that follows an authority, with its first slash or without it. There need be none if
the scheme is not special. -/
def placeAfter (k : SchemeKind) (path : Text) : Place :=
  if path.isEmpty && !k.isSpecial then .segments []
  else .segments (segmentsOf k ((afterSlash? k path).getD path))

/-- A URL whose scheme and two slashes have been read. -/
def parseAuthority (k : SchemeKind) (scheme s : Text) : Except Error Url := do
  let after := s.dropWhile fun c => !endsAuthority k c
  let (a, behind) ← authorityOf k (solid (s.takeWhile fun c => !endsAuthority k c)) after.isEmpty
  return withTail k scheme (some a) (placeAfter k (pathOf (behind ++ after))) (behind ++ after)

/-! ### File URLs -/

def fileUrl (host : Host) (segments : List Text) (s : Text) : Url :=
  withTail .file "file".toList (some ⟨[], host, none⟩) (.segments segments) s

/-- A file URL without a host, where the path in `s` is written behind its first slash. -/
def localFileUrl (s : Text) : Url := fileUrl .empty (segmentsOf .file (pathOf s)) s

/-- A file URL whose two slashes have been read. The slash behind the name of another host is not
part of the path; everywhere else it ends an empty first segment. -/
def parseFileHost (s : Text) : Except Error Url :=
  let name := solid (s.takeWhile fun c => !endsAuthority .file c)
  let after := s.dropWhile fun c => !endsAuthority .file c
  if isDriveLetter name then .ok (localFileUrl s)
  else if name.isEmpty then .ok (localFileUrl after)
  else match hostOf .file name with
    | .empty => .error .emptyHost
    | .localhost => .ok (localFileUrl after)
    | .other name =>
      let path := (afterSlash? .file (pathOf after)).getD (pathOf after)
      let host := if opensWithDrive [] (piecesOf .file path) then .empty else .other name
      .ok (fileUrl host (segmentsOf .file path) after)

def parseFile (s : Text) : Except Error Url :=
  match afterSlash? .file s with
  | none => .ok (localFileUrl s)
  | some r =>
    match afterSlash? .file r with
    | none => .ok (localFileUrl r)
    | some r => parseFileHost r

/-! ### All URLs -/

def parse (s : Text) : Except Error Url :=
  match splitScheme? (trimmed s) with
  | none => .error .noScheme
  | some (scheme, rest) =>
    match SchemeKind.ofScheme scheme with
    | .file => parseFile rest
    | .web port =>
      parseAuthority (.web port) scheme
        (rest.dropWhile fun c => (SchemeKind.web port).isSlash c || isGap c)
    | .plain =>
      match afterSlash? .plain rest with
      | none => .ok (withTail .plain scheme none (.opaquePath (solid (pathOf rest))) rest)
      | some r =>
        match afterSlash? .plain r with
        | none => .ok (withTail .plain scheme none (.segments (segmentsOf .plain (pathOf r))) r)
        | some r => parseAuthority .plain scheme r

end StyleVars.Url
