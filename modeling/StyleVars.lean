import StyleVars.Main
import StyleVars.Proofs.Command.SettingsFile
import StyleVars.Proofs.Import.ArrayDocument
import StyleVars.Proofs.Import.Found
import StyleVars.Proofs.Import.Locator
import StyleVars.Proofs.Import.RoundTrip
import StyleVars.Proofs.Json.Insertion
import StyleVars.Proofs.Json.Limits
import StyleVars.Proofs.Json.Progress
import StyleVars.Proofs.Number.Standard
import StyleVars.Proofs.Settings.Reading
import StyleVars.Proofs.Sheet.Containment
import StyleVars.Proofs.Sheet.Kebab.Boundaries
import StyleVars.Proofs.Sheet.Link.Quotes
import StyleVars.Proofs.Sheet.Names
import StyleVars.Proofs.Sheet.Numbers
import StyleVars.Proofs.Sheet.Pruning
import StyleVars.Proofs.Sheet.Rewriting
import StyleVars.Proofs.Sheet.Shape
import StyleVars.Url.Parser
