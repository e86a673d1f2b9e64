import StyleVars.Files.System

/-!
File systems whose states are plain values. What is asked is answered by the state, which stays as it
is; what is written gives another state. A fault in writing is met before anything has changed.
-/

namespace StyleVars

class FileState (σ : Type) where
  workingDirectory : σ → Except Fault Path
  hasFile : σ → Path → Bool
  read : σ → Path → Except Fault Utf8.Bytes
  write : σ → Path → Utf8.Bytes → Except Fault σ

namespace FileState

variable {σ : Type} [FileState σ]

instance : FileSystem (StateM σ) where
  workingDirectory := do return workingDirectory (← get)
  hasFile p := do return hasFile (← get) p
  readBytes p := do return read (← get) p
  writeBytes p content := do
    match write (← get) p content with
    | .ok s =>
      set s
      return .ok ()
    | .error f => return .error f

end FileState

end StyleVars
