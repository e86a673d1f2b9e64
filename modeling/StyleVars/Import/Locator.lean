import StyleVars.Url.FilePath

/-!
Documents that have been found, by path and by URL.
-/

namespace StyleVars

structure Locator where
  path : Path
  url : Url
deriving DecidableEq, Repr

namespace Locator

/-- Only an absolute path has a URL. -/
def ofPath? (p : Path) : Option Locator := (Url.ofPath? p).map fun u => ⟨p, u⟩

def ofUrl? (u : Url) : Option Locator := u.toPath?.map fun p => ⟨p, u⟩

end Locator

/-- The path of an importing file that lies on this disk. -/
def Url.filePath? (u : Url) : Option Path :=
  if u.scheme = "file".toList then u.toPath? else none

end StyleVars
