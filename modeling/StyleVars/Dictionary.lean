/-!
Entries with a key each, in order. An entry that is inserted under a key that is there keeps the
place of the old one; so the keys stand in the order in which they first appeared.
-/

namespace StyleVars

abbrev Dictionary (κ α : Type) := List (κ × α)

namespace Dictionary

variable {κ α : Type} [DecidableEq κ]

/-- A key that is there keeps its place and takes the new value; a new key goes to the end. -/
def insert (key : κ) (a : α) : Dictionary κ α → Dictionary κ α
  | [] => [(key, a)]
  | (k, b) :: es => if k = key then (k, a) :: es else (k, b) :: insert key a es

/-- The entries that arise when the pairs are inserted one after another. -/
def ofPairs (ps : List (κ × α)) : Dictionary κ α := ps.foldl (fun es p => insert p.1 p.2 es) []

def erase (key : κ) : Dictionary κ α → Dictionary κ α
  | [] => []
  | (k, b) :: es => if k = key then es else (k, b) :: erase key es

def find? (key : κ) : Dictionary κ α → Option α
  | [] => none
  | (k, b) :: es => if k = key then some b else find? key es

omit [DecidableEq κ] in
def keys (es : Dictionary κ α) : List κ := es.map (·.1)

@[simp] theorem find?_nil (key : κ) : find? key ([] : Dictionary κ α) = none := rfl

theorem find?_insert (key : κ) (a : α) (es : Dictionary κ α) (k : κ) :
    find? k (insert key a es) = if k = key then some a else find? k es := by
  induction es with
  | nil => grind [insert, find?]
  | cons e es ih => grind [insert, find?]

theorem keys_insert (key : κ) (a : α) (es : Dictionary κ α) :
    keys (insert key a es) = if key ∈ keys es then keys es else keys es ++ [key] := by
  induction es with
  | nil => simp [insert, keys]
  | cons e es ih => grind [insert, keys]

end Dictionary

end StyleVars
