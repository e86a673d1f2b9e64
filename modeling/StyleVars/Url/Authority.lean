import StyleVars.Text.Utf8
import StyleVars.Unicode.DomainName
import StyleVars.Url.Basic
import StyleVars.Url.Error
import StyleVars.Url.Scheme

/-!
What stands between two slashes and the path: a user, a host and a port.
-/

namespace StyleVars.Url

/-- The host that `s` is. Behind a special scheme it is a domain name, which may be encoded. -/
def hostOf (k : SchemeKind) (s : Text) : Host :=
  let name := if k.isSpecial then Unicode.domainName (Utf8.decodeLossy (percentDecode s)) else s
  if name.isEmpty then .empty
  else if name = "localhost".toList then .localhost
  else .other name

/-- Splits a host from what stands behind it. A colon between brackets belongs to the host. -/
def splitHost (inBrackets : Bool) : Text → Text × Text
  | [] => ([], [])
  | c :: cs =>
    if c = ':' ∧ !inBrackets then ([], c :: cs)
    else
      let r := splitHost (if c = '[' then true else if c = ']' then false else inBrackets) cs
      (c :: r.1, r.2)

/-- The port from its digits; the usual port of the scheme is not kept. -/
def portOf (k : SchemeKind) (digits : Text) : Except Error (Option Nat) :=
  let n := Numeral.value digits
  if digits.isEmpty then .ok none
  else if digits.all Numeral.isDigit && n < 65536 then
    .ok (if k = .web n then none else some n)
  else .error .invalidPort

/-- The user information as it stands before the host. -/
def userinfoOf (s : Text) : Text :=
  let name := s.takeWhile (· != ':')
  let password := (s.dropWhile (· != ':')).drop 1
  let text := percentEncodeText .userinfo name ++
    if password.isEmpty then [] else ':' :: percentEncodeText .userinfo password
  if text.isEmpty then [] else text ++ ['@']

/-- Splits the user information, which ends with the last at sign, from the host. -/
def splitUser (s : Text) : Option Text × Text :=
  match (pieces '@' s).reverse with
  | [] => (none, [])
  | [_] => (none, s)
  | host :: before => (some (joinPieces '@' before.reverse), host)

/-- The authority that `s` is, and a backslash behind its port with all that follows. An at sign
alone is no authority, unless it is the end of the URL. -/
def authorityOf (k : SchemeKind) (s : Text) (isEnd : Bool) : Except Error (Authority × Text) := do
  let (user, rest) := splitUser s
  if user = some [] ∧ rest = [] ∧ !isEnd then .error .emptyHost
  let userinfo := userinfoOf (user.getD [])
  let (name, port) := splitHost false rest
  let host := hostOf k name
  if host = .empty ∧ (k.isSpecial ∨ port ≠ [] ∨ userinfo ≠ []) then .error .emptyHost
  let behind := port.drop 1
  let port ← portOf k (behind.takeWhile (· != '\\'))
  return (⟨userinfo, host, port⟩, behind.dropWhile (· != '\\'))

end StyleVars.Url
