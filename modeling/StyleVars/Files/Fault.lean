import StyleVars.Text.Position

/-!
Why a file could not be read or written, or a path not be followed.
-/

namespace StyleVars

inductive Fault where
  | notFound
  | isDirectory
  | notDirectory
  | nameTooLong
  | zeroByteInName
  | emptyPath
  /-- The file was read, but it is no text. -/
  | notText
  | other (description : String)
deriving DecidableEq, Repr

def Fault.message : Fault → String
  | notFound => "No such file or directory (os error 2)"
  | isDirectory => "Is a directory (os error 21)"
  | notDirectory => "Not a directory (os error 20)"
  | nameTooLong => "File name too long (os error 36)"
  | zeroByteInName => "file name contained an unexpected NUL byte"
  | emptyPath => "cannot make an empty path absolute"
  | notText => "stream did not contain valid UTF-8"
  | other description => description

end StyleVars
