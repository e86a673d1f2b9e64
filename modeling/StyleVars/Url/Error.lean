/-!
Why a text is no URL.
-/

namespace StyleVars.Url

inductive Error where
  | noScheme
  | emptyHost
  | invalidPort
deriving DecidableEq, Repr

def Error.message : Error → String
  | noScheme => "relative URL without a base"
  | emptyHost => "empty host"
  | invalidPort => "invalid port number"

end StyleVars.Url
