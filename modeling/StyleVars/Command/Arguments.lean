import StyleVars.Path.Basic

/-!
The arguments of the program, which are rows of bytes. A path may be any bytes, but the reference
has to be a text. Flags may stand anywhere before a double hyphen, long or short; short ones may
share a hyphen, and a path may stand in the same argument as its flag or in the next one. Each flag
may be given once, except those for directories to search and for more messages.
-/

namespace StyleVars.Command

open Utf8 (Bytes)

/-- What the flags say. -/
structure Choices where
  loadPaths : List Path := []
  /-- The stylesheet in which the reference stands. -/
  containing : Option Path := none
  convertCase : Bool := false
  resolveLinks : Bool := false
  quoteKeys : Bool := false
  /-- The file with the settings. -/
  config : Option Path := none
  /-- The file to write to. -/
  output : Option Path := none
  verbosity : Nat := 0
deriving DecidableEq, Repr

structure Arguments extends Choices where
  reference : Text
deriving DecidableEq, Repr

/-- Why there are no arguments to go on with. -/
inductive Halt where
  | usage
  | help
  | version
deriving DecidableEq, Repr

/-! ### Flags -/

/-- A flag that a path belongs to. -/
inductive PathFlag where
  | loadPath
  | containing
  | config
  | output
deriving DecidableEq, Repr

/-- A flag that stands alone. -/
inductive Switch where
  | convertCase
  | resolveLinks
  | quoteKeys
  | verbose
  | help
  | version
deriving DecidableEq, Repr

inductive Flag where
  | path (p : PathFlag)
  | switch (s : Switch)
deriving DecidableEq, Repr

namespace Flag

def longNames : List (String × Flag) :=
  [("load-path", path .loadPath), ("from", path .containing), ("config", path .config),
    ("output", path .output), ("convert-case", switch .convertCase),
    ("resolve-internal-links", switch .resolveLinks), ("stringify-keys", switch .quoteKeys),
    ("verbose", switch .verbose), ("help", switch .help), ("version", switch .version)]

def shortNames : List (Char × Flag) :=
  [('I', path .loadPath), ('o', path .output), ('v', switch .verbose), ('h', switch .help),
    ('V', switch .version)]

def ofLong? (name : Bytes) : Option Flag :=
  (longNames.find? fun e => Utf8.encode e.1.toList == name).map (·.2)

def ofShort? (b : UInt8) : Option Flag :=
  (shortNames.find? fun e => Utf8.encode [e.1] == [b]).map (·.2)

end Flag

namespace Choices

/-- A value that may be given once. -/
def once (old : Option Path) (p : Path) : Except Halt (Option Path) :=
  match old with
  | none => .ok (some p)
  | some _ => .error .usage

def setPath (c : Choices) (flag : PathFlag) (p : Path) : Except Halt Choices :=
  if p.bytes.isEmpty then .error .usage
  else match flag with
    | .loadPath => .ok { c with loadPaths := c.loadPaths ++ [p] }
    | .containing => return { c with containing := ← once c.containing p }
    | .config => return { c with config := ← once c.config p }
    | .output => return { c with output := ← once c.output p }

def turnOn (c : Choices) : Switch → Except Halt Choices
  | .convertCase => if c.convertCase then .error .usage else .ok { c with convertCase := true }
  | .resolveLinks => if c.resolveLinks then .error .usage else .ok { c with resolveLinks := true }
  | .quoteKeys => if c.quoteKeys then .error .usage else .ok { c with quoteKeys := true }
  | .verbose => .ok { c with verbosity := c.verbosity + 1 }
  | .help => .error .help
  | .version => .error .version

end Choices

/-! ### One argument after another -/

@[match_pattern]
abbrev hyphen : UInt8 := 0x2D

def equals : UInt8 := 0x3D

/-- What the next argument may be. -/
inductive Stage where
  | anything
  /-- The path that belongs to a flag. -/
  | value (flag : PathFlag)
  /-- No flag. -/
  | operand
deriving DecidableEq, Repr

/-- Arguments that have been read in part. -/
structure Draft where
  stage : Stage := .anything
  choices : Choices := {}
  reference : Option Text := none
deriving DecidableEq, Repr

namespace Draft

def operand (d : Draft) (a : Bytes) : Except Halt Draft :=
  match d.reference, Utf8.decode? a with
  | none, some reference => .ok { d with reference := some reference }
  | _, _ => .error .usage

def setPath (d : Draft) (flag : PathFlag) (p : Path) : Except Halt Draft := do
  return { d with stage := .anything, choices := ← d.choices.setPath flag p }

/-- A flag in its long form, without its hyphens. -/
def long (d : Draft) (a : Bytes) : Except Halt Draft :=
  match Flag.ofLong? (a.takeWhile (· != equals)), a.dropWhile (· != equals) with
  | some (.path flag), [] => .ok { d with stage := .value flag }
  | some (.path flag), _ :: value => d.setPath flag ⟨value⟩
  | some (.switch s), [] => return { d with choices := ← d.choices.turnOn s }
  | some (.switch _), _ :: _ => .error .usage
  | none, _ => .error .usage

/-- Short flags behind one hyphen. What stands behind a flag with a path is the path. -/
def short (d : Draft) : Bytes → Except Halt Draft
  | [] => .ok d
  | b :: bs =>
    match Flag.ofShort? b with
    | some (.path flag) =>
      match bs with
      | [] => .ok { d with stage := .value flag }
      | c :: value => d.setPath flag ⟨if c = equals then value else c :: value⟩
    | some (.switch s) => do
      short { d with choices := ← d.choices.turnOn s } bs
    | none => .error .usage

/-- A single hyphen is no flag. -/
def looksLikeFlag : Bytes → Bool
  | hyphen :: _ :: _ => true
  | _ => false

def step (d : Draft) (a : Bytes) : Except Halt Draft :=
  match d.stage with
  | .operand => d.operand a
  | .value flag => if looksLikeFlag a then .error .usage else d.setPath flag ⟨a⟩
  | .anything =>
    match a with
    | [hyphen, hyphen] => .ok { d with stage := .operand }
    | hyphen :: hyphen :: name => d.long name
    | hyphen :: b :: bs => d.short (b :: bs)
    | a => d.operand a

def finish (d : Draft) : Except Halt Arguments :=
  match d.stage, d.reference with
  | .value _, _ => .error .usage
  | _, none => .error .usage
  | _, some reference => .ok { d.choices with reference }

end Draft

def Arguments.parse (as : List Bytes) : Except Halt Arguments := do
  (← as.foldlM Draft.step {}).finish

end StyleVars.Command
