import StyleVars.Import.LoadError
import StyleVars.Json.Value.Parser
import StyleVars.Sheet.Expression

/-!
The text of a document as a stylesheet. An array becomes the only entry of a document, under the
name of its file.
-/

namespace StyleVars.Import

/-- The name of a file without its extension. -/
def stemName (path : Path) : Text :=
  match path.fileStem? with
  | some n => Utf8.decodeLossy n
  | none => []

/-- The entries that become declarations. -/
def rootEntries (path : Path) : Json.Value → Except Sheet.Error Json.Entries
  | .object entries => .ok entries
  | .array items => .ok [(stemName path, .array items)]
  | v => .error (.unsupportedRoot v.typeName)

/-- The stylesheet for a document that holds the value `v`. -/
def sheetOf (o : Settings) (path : Path) (v : Json.Value) : Except Sheet.Error Text := do
  Sheet.stylesheet o (← rootEntries path v)

/-- The stylesheet for the text of the document at `path`. -/
def convert (o : Settings) (path : Path) (s : Text) : Except LoadError Text :=
  match Json.parse o.limits s with
  | .error e => .error ⟨path, .notJson e⟩
  | .ok v =>
    match sheetOf o path v with
    | .error e => .error ⟨path, .notSheet e⟩
    | .ok sheet => .ok sheet

end StyleVars.Import
