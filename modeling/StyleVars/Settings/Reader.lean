import StyleVars.Settings
import StyleVars.Settings.Reader.Form

/-!
Settings files. They are strict JSON. A key that is not known is an error, except among the limits.
-/

namespace StyleVars.Settings

namespace LimitField

def fill (limits : Json.Limits) : LimitField → Reader Json.Limits
  | size => return { limits with maxInputSize := ← Reader.natural .size }
  | depth => return { limits with maxNestingDepth := ← Reader.natural .depth }

def form : Reader.Form LimitField Json.Limits where
  wanted := .limits
  fields := all
  field? := ofKey?
  name := name
  stranger _ := do
    Reader.colon
    Reader.skip
  fill x limits := x.fill limits

end LimitField

namespace Field

def fill (o : Settings) : Field → Reader Settings
  | loadPaths => return { o with loadPaths := ← Reader.list Reader.path }
  | convertCase => return { o with convertCase := ← Reader.bool }
  | resolveLinks => return { o with resolveLinks := ← Reader.bool }
  | quoteKeys => return { o with quoteKeys := ← Reader.bool }
  | limits => return { o with limits := ← LimitField.form.read .standard }

def form : Reader.Form Field Settings where
  wanted := .settings
  fields := all
  field? := ofKey?
  name := name
  stranger key := throw (.unknownField key)
  fill x o := x.fill o

end Field

/-- The settings that a text describes; what it does not mention has its default. -/
def read (s : Text) : Except ReadError Settings :=
  match Field.form.read {} s with
  | .error e => .error e
  | .ok (o, rest) =>
    if (rest.dropWhile Json.isBlank).isEmpty then .ok o else .error .malformed

end StyleVars.Settings
