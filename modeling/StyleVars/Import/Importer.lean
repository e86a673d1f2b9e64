import StyleVars.Import.Document
import StyleVars.Import.Search

/-!
The two questions that a stylesheet compiler asks: which document a reference means, and what its
contents are.
-/

namespace StyleVars.Import

/-- How the contents are written. -/
inductive Dialect where
  | scss
deriving DecidableEq, Repr

def Dialect.name : Dialect → String
  | scss => "scss"

structure Loaded where
  contents : Text
  dialect : Dialect
  /-- Where the contents come from. -/
  source : Url
deriving DecidableEq, Repr

variable {m : Type → Type} [Monad m] [FileSystem m]

/-- The document that a reference in the file at the URL `containing` means. -/
def canonicalize (o : Settings) (reference : Text) (containing : Option Url) :
    m (Option Locator) :=
  resolve o.loadPaths reference (containing.bind Url.filePath?)

def load (o : Settings) (l : Locator) : m (Except LoadError Loaded) := do
  match ← l.path.readText with
  | .error f => return .error ⟨l.path, .unreadable f⟩
  | .ok s =>
    match convert o l.path s with
    | .error e => return .error e
    | .ok contents => return .ok ⟨contents, .scss, l.url⟩

end StyleVars.Import
