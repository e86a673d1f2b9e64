import StyleVars.Json.Limits
import StyleVars.Path.Basic

/-!
The settings of an importer, and how they are built up from the standard ones, one after another.
-/

namespace StyleVars

structure Settings where
  /-- Directories to search, after the directory of the importing file. -/
  loadPaths : List Path := []
  /-- Whether keys are turned into kebab case. -/
  convertCase : Bool := false
  /-- Whether internal links become references to custom properties. -/
  resolveLinks : Bool := false
  /-- Whether the keys of nested maps are written as quoted strings. -/
  quoteKeys : Bool := false
  limits : Json.Limits := .standard
deriving DecidableEq, Repr

namespace Settings

/-- One more directory, which is searched last. -/
def withLoadPath (o : Settings) (p : Path) : Settings :=
  { o with loadPaths := o.loadPaths ++ [p] }

/-- Other directories in place of those that were there. -/
def withLoadPaths (o : Settings) (ps : List Path) : Settings := { o with loadPaths := ps }

def withConvertCase (o : Settings) (enabled : Bool) : Settings := { o with convertCase := enabled }

def withResolveLinks (o : Settings) (enabled : Bool) : Settings :=
  { o with resolveLinks := enabled }

def withQuoteKeys (o : Settings) (enabled : Bool) : Settings := { o with quoteKeys := enabled }

def withLimits (o : Settings) (limits : Json.Limits) : Settings := { o with limits := limits }

/-- Directories that are added one by one come behind those that were there, in their order. -/
theorem foldl_withLoadPath (o : Settings) (ps : List Path) :
    ps.foldl withLoadPath o = o.withLoadPaths (o.loadPaths ++ ps) := by
  induction ps generalizing o with
  | nil =>
    rw [List.append_nil]
    rfl
  | cons p ps ih =>
    rw [List.foldl_cons, ih]
    simp [withLoadPath, withLoadPaths]

end Settings

end StyleVars
