import StyleVars.Command.Arguments
import StyleVars.Import.Importer
import StyleVars.Settings.Reader

/-!
What the program does: it looks for the document that a reference means and writes the stylesheet
to a file or prints it. Flags add to what the settings file says. Nothing is printed when it fails.
-/

namespace StyleVars.Command

inductive Failure where
  | usage
  | unreadableSettings (p : Path) (f : Fault)
  | invalidSettings (p : Path) (e : Settings.ReadError)
  /-- It is not known where the stylesheet lies that contains the reference. -/
  | unresolved (p : Path) (f : Fault)
  /-- The stylesheet that contains the reference has no URL. -/
  | noUrl (p : Path)
  | notFound (reference : Text)
  | notLoaded (e : Import.LoadError)
  | unwritable (p : Path) (f : Fault)
deriving DecidableEq, Repr

namespace Failure

def code : Failure → Nat
  | usage => 2
  | notFound _ => 2
  | _ => 1

def message : Failure → String
  | usage => "usage: json2scss [OPTIONS] <REFERENCE>"
  | unreadableSettings p f => "cannot read config " ++ String.ofList p.display ++ ": " ++ f.message
  | invalidSettings p e => "invalid config " ++ String.ofList p.display ++ ": " ++ e.message
  | unresolved p f => "cannot resolve " ++ String.ofList p.display ++ ": " ++ f.message
  | noUrl p => "cannot build a file URL for " ++ String.ofList p.display
  | notFound reference => "Can't find JSON document to import: " ++ String.ofList reference
  | notLoaded e => e.message
  | unwritable p f => "cannot write " ++ String.ofList p.display ++ ": " ++ f.message

end Failure

/-- How a run ends. -/
structure Outcome where
  code : Nat
  printed : Text
  failure : Option Failure
deriving DecidableEq, Repr

namespace Outcome

def success (printed : Text) : Outcome := ⟨0, printed, none⟩

def failed (f : Failure) : Outcome := ⟨f.code, [], some f⟩

end Outcome

def versionText : Text := "json2scss 0.1.0\n".toList

def helpText : Text := (String.intercalate "\n"
  ["Convert JSON documents into SCSS variables", "",
    "Usage: json2scss [OPTIONS] <REFERENCE>", "",
    "Arguments:",
    "  <REFERENCE>  Reference to resolve, e.g. `tokens/colors.json`", "",
    "Options:",
    "  -I, --load-path <DIR>         " ++
      "Directory to search, after the directory of `--from` (repeatable)",
    "      --from <FILE>             Stylesheet the reference is imported from",
    "      --convert-case            Convert camelCase keys to kebab-case",
    "      --resolve-internal-links  Rewrite `var:a|b` links to `var(--wp--a--b)`",
    "      --stringify-keys          Quote nested map keys",
    "      --config <FILE>           JSON file with importer options",
    "  -o, --output <FILE>           Write output to a file instead of stdout",
    "  -v, --verbose...              Increase log verbosity (-v debug, -vv trace)",
    "  -h, --help                    Print help",
    "  -V, --version                 Print version", ""]).toList

/-- The settings of a run, where the settings file says `o`. If there is nowhere to search, the
working directory is searched. -/
def mergeSettings (c : Choices) (o : Settings) : Settings :=
  let loadPaths := o.loadPaths ++ c.loadPaths
  { o with
    loadPaths := if loadPaths.isEmpty && c.containing.isNone then [⟨[Path.dot]⟩] else loadPaths
    convertCase := o.convertCase || c.convertCase
    resolveLinks := o.resolveLinks || c.resolveLinks
    quoteKeys := o.quoteKeys || c.quoteKeys }

variable {m : Type → Type} [Monad m] [FileSystem m]

def readSettings (config : Option Path) : ExceptT Failure m Settings := do
  match config with
  | none => return {}
  | some p =>
    match ← (p.readText : m _) with
    | .error f => throw (.unreadableSettings p f)
    | .ok s =>
      match Settings.read s with
      | .error e => throw (.invalidSettings p e)
      | .ok o => return o

/-- The URL of the stylesheet that contains the reference. -/
def containingUrl (containing : Option Path) : ExceptT Failure m (Option Url) := do
  match containing with
  | none => return none
  | some p =>
    if p.bytes = [] then throw (.unresolved p .emptyPath)
    match p.fromRoot (← (FileSystem.workingDirectory : m _)) with
    | .error f => throw (.unresolved p f)
    | .ok path =>
      match Url.ofPath? path with
      | some u => return some u
      | none => throw (.noUrl path)

/-- Puts the contents where they belong. What is returned is to be printed. -/
def deliver (output : Option Path) (contents : Text) : ExceptT Failure m Text := do
  match output with
  | none => return contents
  | some p =>
    match ← (p.writeText contents : m _) with
    | .error f => throw (.unwritable p f)
    | .ok () => return []

/-- A run with arguments that were understood; what is returned is to be printed. -/
def execute (a : Arguments) : ExceptT Failure m Text := do
  let o := mergeSettings a.toChoices (← readSettings a.config)
  let containing ← containingUrl a.containing
  match ← (Import.canonicalize o a.reference containing : m _) with
  | none => throw (.notFound a.reference)
  | some l =>
    match ← (Import.load o l : m _) with
    | .error e => throw (.notLoaded e)
    | .ok loaded => deliver a.output (loaded.contents ++ ['\n'])

def run (as : List Utf8.Bytes) : m Outcome := do
  match Arguments.parse as with
  | .error .usage => return .failed .usage
  | .error .help => return .success helpText
  | .error .version => return .success versionText
  | .ok a =>
    match ← (execute a).run with
    | .error f => return .failed f
    | .ok printed => return .success printed

end StyleVars.Command
