import StyleVars.Files.System
import StyleVars.Import.Locator

/-!
Finding the file that a reference means. The directory of the importing file is searched first and
then the other directories in their order; the first file that is there is the one that is meant.
Without a working directory nothing is found in relative ones.
-/

namespace StyleVars.Import

/-- Only references with this ending are looked for. -/
def isJsonFile (reference : Text) : Bool := ".json".toList.isSuffixOf reference

/-- The paths that are not the same as one before them or as one of those seen already. -/
def withoutRepeats (seen : List Path) : List Path → List Path
  | [] => []
  | p :: ps =>
    if seen.any fun q => decide (q.Same p) then withoutRepeats seen ps
    else p :: withoutRepeats (p :: seen) ps

/-- The directories to search, in order. -/
def candidates (roots : List Path) (containing : Option Path) : List Path :=
  withoutRepeats [] ((containing.bind Path.parent?).toList ++ roots)

variable {m : Type → Type} [Monad m] [FileSystem m]

/-- The document that the reference means if it is looked for in one directory. -/
def probe (reference : Text) (directory : Path) : m (Option Locator) := do
  match Path.absolute (← FileSystem.workingDirectory) (directory.join (Path.ofText reference)) with
  | .error _ => return none
  | .ok path => if ← path.isFile then return Locator.ofPath? path else return none

def resolve (roots : List Path) (reference : Text) (containing : Option Path) :
    m (Option Locator) :=
  if isJsonFile reference then (candidates roots containing).findSomeM? (probe reference)
  else pure none

end StyleVars.Import
