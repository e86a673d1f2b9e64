import StyleVars.Files.Fault
import StyleVars.Json.Error
import StyleVars.Path.Basic
import StyleVars.Sheet.Error

/-!
Why a document that was found could not be turned into a stylesheet.
-/

namespace StyleVars.Import

/-- What was being done when it failed. -/
inductive Phase where
  | read
  | parse
  | transform
deriving DecidableEq, Repr

def Phase.name : Phase → String
  | read => "read"
  | parse => "parse"
  | transform => "transform"

inductive Cause where
  | unreadable (f : Fault)
  | notJson (e : Json.Error)
  | notSheet (e : Sheet.Error)
deriving DecidableEq, Repr

namespace Cause

def phase : Cause → Phase
  | unreadable _ => .read
  | notJson _ => .parse
  | notSheet _ => .transform

def message : Cause → String
  | unreadable f => f.message
  | notJson e => e.message
  | notSheet e => e.message

end Cause

/-- What is said about a failure, whatever its cause. -/
def describeFailure (phase : Phase) (path : Path) (cause : String) : String :=
  "Failed to " ++ phase.name ++ " JSON from file " ++ String.ofList path.display ++ ": " ++ cause

structure LoadError where
  path : Path
  cause : Cause
deriving DecidableEq, Repr

def LoadError.message (e : LoadError) : String :=
  describeFailure e.cause.phase e.path e.cause.message

end StyleVars.Import
