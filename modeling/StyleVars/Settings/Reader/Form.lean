import StyleVars.Settings.Reader.Skip

/-!
Lists, and records with known fields. A record is written as a map with each field at most once, or
as a list of its fields in order, from which fields at the end may be missing.
-/

namespace StyleVars.Settings.Reader

/-! ### Lists -/

/-- Whether another item follows. The comma before it is taken; the end of the list is not. -/
def hasItem (first : Bool) : Reader Bool := do
  let c ← next
  if c = ']' then return false
  else if first then return true
  else if c = ',' then
    advance
    if (← next) = ']' then throw .malformed else return true
  else throw .malformed

def endList : Reader Unit := do
  match ← next with
  | ']' => advance
  | _ => throw .malformed

/-- One item more, or the end; the items so far stand last first. -/
def listStep {α : Type} (item : Reader α) (before : List α) :
    Reader (Round (List α) (List α)) := do
  if ← hasItem before.isEmpty then return .again ((← item) :: before)
  else return .done before.reverse

def list {α : Type} (item : Reader α) : Reader (List α) := do
  match ← next with
  | '[' =>
    advance
    let items ← loop (listStep item) []
    endList
    return items
  | c => refuse .sequence c

/-! ### Records -/

/-- The next key of a map with its comma, or nothing at the end of the map. -/
def key? (first : Bool) : Reader (Option Text) := do
  let c ← next
  if c = '\x7d' then return none
  else
    unless first do
      if c = ',' then advance else throw .malformed
    match ← next with
    | '"' => return some (← string true)
    | _ => throw .malformed

/-- How a record of type `α` with fields `φ` is written. -/
structure Form (φ α : Type) where
  wanted : Wanted
  /-- All fields, in order. -/
  fields : List φ
  field? : Text → Option φ
  name : φ → String
  /-- What to do behind a key that is that of no field. -/
  stranger : Text → Reader Unit
  /-- Puts the value that comes next into a field. -/
  fill : φ → α → Reader α

namespace Form

variable {φ α : Type} [DecidableEq φ] (f : Form φ α)

omit [DecidableEq φ] in
/-- The record `a` with the fields `fs`, as far as the list goes. -/
def fillInOrder (first : Bool) (a : α) : List φ → Reader α
  | [] => return a
  | x :: xs => do
    if ← hasItem first then fillInOrder false (← f.fill x a) xs
    else return a

/-- A map that has been read in part. -/
structure Draft (φ α : Type) where
  first : Bool
  /-- The fields that have been filled. -/
  seen : List φ
  record : α

/-- One key and its value more, or the end. -/
def mapStep (d : Draft φ α) : Reader (Round (Draft φ α) α) := do
  match ← key? d.first with
  | none =>
    advance
    return .done d.record
  | some k =>
    match f.field? k with
    | none =>
      f.stranger k
      return .again ⟨false, d.seen, d.record⟩
    | some x =>
      if x ∈ d.seen then throw (.repeatedField (f.name x))
      colon
      return .again ⟨false, x :: d.seen, ← f.fill x d.record⟩

/-- A record whose fields are those of `a` where nothing else is said. -/
def read (a : α) : Reader α := do
  match ← next with
  | '[' =>
    advance
    let b ← f.fillInOrder true a f.fields
    endList
    return b
  | '\x7b' =>
    advance
    loop f.mapStep ⟨true, [], a⟩
  | c => refuse f.wanted c

end Form

end StyleVars.Settings.Reader
