import StyleVars.Files.Fault
import StyleVars.Path.Basic

/-!
What programs may ask of the files around them. Paths with a zero byte name nothing, and no file
system is ever asked about them.
-/

namespace StyleVars

class FileSystem (m : Type → Type) where
  /-- Where relative paths begin, if there is such a directory. -/
  workingDirectory : m (Except Fault Path)
  /-- Whether the path opens as a regular file. -/
  hasFile : Path → m Bool
  readBytes : Path → m (Except Fault Utf8.Bytes)
  /-- Makes the file or replaces all that it holds. -/
  writeBytes : Path → Utf8.Bytes → m (Except Fault Unit)

namespace Path

variable {m : Type → Type} [Monad m] [FileSystem m]

def hasZeroByte (p : Path) : Bool := p.bytes.contains 0

def isFile (p : Path) : m Bool :=
  if p.hasZeroByte then pure false else FileSystem.hasFile p

def readText (p : Path) : m (Except Fault Text) :=
  if p.hasZeroByte then pure (.error .zeroByteInName)
  else do
    match ← FileSystem.readBytes p with
    | .error f => return .error f
    | .ok bs =>
      match Utf8.decode? bs with
      | some s => return .ok s
      | none => return .error .notText

def writeText (p : Path) (s : Text) : m (Except Fault Unit) :=
  if p.hasZeroByte then pure (.error .zeroByteInName)
  else FileSystem.writeBytes p (Utf8.encode s)

end Path

end StyleVars
