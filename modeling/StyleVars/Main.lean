import StyleVars.Command.Run

/-!
The program on the files of the computer that it runs on.
-/

namespace StyleVars

/-- The fault with a number of the operating system, which may come negated. -/
def faultOfNumber (number : UInt32) (details : String) : Fault :=
  let n := if number < 0x80000000 then number else 0 - number
  if n = 2 then .notFound
  else if n = 20 then .notDirectory
  else if n = 21 then .isDirectory
  else if n = 36 then .nameTooLong
  else .other (details ++ " (os error " ++ toString n ++ ")")

def faultOf : IO.Error → Fault
  | .noFileOrDirectory _ number details => faultOfNumber number details
  | .inappropriateType _ number details => faultOfNumber number details
  | .invalidArgument _ number details => faultOfNumber number details
  | .permissionDenied _ number details => faultOfNumber number details
  | e => .other (toString e)

def attempt {α : Type} (action : IO α) : IO (Except Fault α) := do
  try return .ok (← action)
  catch e => return .error (faultOf e)

/-- The operating system is told names as texts, which cannot say all bytes. -/
def nameOf (p : Path) : IO String :=
  match Utf8.decode? p.bytes with
  | some name => return String.ofList name
  | none => throw (IO.userError "the name is no text")

/-- A path that the operating system tells as a text, with replacement characters where it is
none. -/
def pathOf (name : String) : IO Path :=
  if name.contains '\uFFFD' then throw (IO.userError "the name is no text")
  else return Path.ofText name.toList

def opensAsFile (name : String) : IO Bool := do
  let _ ← IO.FS.Handle.mk name .read
  return (← (← IO.FS.realPath name).metadata).type == .file

instance : FileSystem IO where
  workingDirectory := attempt do pathOf (toString (← IO.currentDir))
  hasFile p := do
    match ← attempt do opensAsFile (← nameOf p) with
    | .ok found => return found
    | .error _ => return false
  readBytes p := attempt do return (← IO.FS.readBinFile (← nameOf p)).data.toList
  writeBytes p content := attempt do IO.FS.writeBinFile (← nameOf p) ⟨content.toArray⟩

/-- The arguments byte for byte, from the record that the operating system keeps of them. -/
def givenArguments (arguments : List String) : IO (List Utf8.Bytes) := do
  match ← attempt (IO.FS.readBinFile "/proc/self/cmdline") with
  | .error _ => return arguments.map fun a => Utf8.encode a.toList
  | .ok record =>
    -- a zero byte ends each of them, and the name of the program comes first
    let all := (pieces 0 record.data.toList).dropLast
    return all.drop (all.length - arguments.length)

end StyleVars

def main (arguments : List String) : IO UInt32 := do
  let outcome ← (StyleVars.Command.run (← StyleVars.givenArguments arguments) : IO _)
  IO.print (String.ofList outcome.printed)
  if let some failure := outcome.failure then
    IO.eprintln ("error: " ++ failure.message)
  return UInt32.ofNat outcome.code
