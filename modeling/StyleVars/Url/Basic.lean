import StyleVars.Text.Pieces
import StyleVars.Url.Percent

/-!
URLs, taken apart. Of hosts it only matters whether there is one and whether it is the local one.
-/

namespace StyleVars

namespace Url

inductive Host where
  | empty
  | localhost
  | other (name : Text)
deriving DecidableEq, Repr

/-- What stands between two slashes and the path. The user information is encoded and ends with
its at sign, if there is any. -/
structure Authority where
  userinfo : Text := []
  host : Host := .empty
  port : Option Nat := none
deriving DecidableEq, Repr

inductive Place where
  /-- A path without a slash at its beginning, which has no segments. -/
  | opaquePath (text : Text)
  /-- The encoded segments, each of which stands behind a slash. -/
  | segments (list : List Text)
deriving DecidableEq, Repr

end Url

structure Url where
  scheme : Text
  authority : Option Url.Authority
  place : Url.Place
  query : Option Text := none
  fragment : Option Text := none
deriving DecidableEq, Repr

namespace Url

def Host.text : Host → Text
  | empty => []
  | localhost => "localhost".toList
  | other name => name

def Authority.text (a : Authority) : Text :=
  a.userinfo ++ a.host.text ++ match a.port with
    | some n => ':' :: Numeral.ofNat n
    | none => []

def Place.text : Place → Text
  | opaquePath s => s
  | segments list => list.flatMap ('/' :: ·)

/-- The host; an URL without an authority has none either. -/
def host (u : Url) : Host :=
  match u.authority with
  | some a => a.host
  | none => .empty

/-- The URL in full. Where there is no authority, a path must not begin with two slashes. -/
def text (u : Url) : Text :=
  u.scheme ++ ':' :: (match u.authority, u.place with
    | some a, place => "//".toList ++ a.text ++ place.text
    | none, .segments ([] :: s :: list) => "/.".toList ++ (Place.segments ([] :: s :: list)).text
    | none, place => place.text)
    ++ (match u.query with
      | some q => '?' :: q
      | none => [])
    ++ match u.fragment with
      | some f => '#' :: f
      | none => []

end Url

end StyleVars
