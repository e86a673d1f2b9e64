/-!
Bounds on the size and the nesting of documents.
-/

namespace StyleVars.Json

/-- The size of a text in bytes and the number of arrays and objects inside each other. -/
structure Limits where
  maxInputSize : Nat
  maxNestingDepth : Nat
deriving DecidableEq, Repr

namespace Limits

def standard : Limits := ⟨16 * 1024 * 1024, 512⟩

/-- Tight bounds, for documents from unknown hands. -/
def strict : Limits := ⟨1024 * 1024, 32⟩

end Limits

end StyleVars.Json
