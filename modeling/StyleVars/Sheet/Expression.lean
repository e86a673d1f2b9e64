import StyleVars.Json.Value
import StyleVars.Settings
import StyleVars.Sheet.Error
import StyleVars.Sheet.Link
import StyleVars.Sheet.Name
import StyleVars.Sheet.Name.Kebab
import StyleVars.Sheet.Quoted

/-!
JSON values as stylesheet expressions, and documents as declarations. An array is written as a
list, an object as a map. Entries that are left out have no influence on the others, wherever
they stand.
-/

namespace StyleVars.Sheet

open Json (Value Entries)

/-- A single hash as a value says that the entry is to be left out. -/
def isSentinel : Value → Bool
  | .string s => s == ['#']
  | _ => false

/-- Whether an entry appears in the stylesheet. -/
def survives (key : Text) (v : Value) : Bool := isEligible key && !isSentinel v

/-- The name under which a key appears. -/
def nameOf (o : Settings) (key : Text) : Text :=
  stripColon (if o.convertCase then kebab key else key)

/-- A name as the key of a nested map. -/
def mapKey (o : Settings) (name : Text) : Text := if o.quoteKeys then quote '"' name else name

def stringExpression (o : Settings) (s : Text) : Text :=
  quoteIfNeeded (if o.resolveLinks then resolveLinks s else s)

def checkDepth (o : Settings) (depth : Nat) : Except Error Unit :=
  if o.limits.maxNestingDepth < depth then .error (.nestingTooDeep depth o.limits.maxNestingDepth)
  else .ok ()

def parenthesized (parts : List Text) : Text := '(' :: (joinPieces ',' parts ++ [')'])

mutual

/-- A value inside `depth` lists and maps, to which the keys and indices `path` lead. -/
def expressionAt (o : Settings) (depth : Nat) (path : List Text) : Value → Except Error Text
  | .null => .ok (stringExpression o [])
  | .bool b => .ok (stringExpression o (if b then "true".toList else "false".toList))
  | .number x =>
    match x.canonical with
    | some s => .ok (stringExpression o s)
    | none => .error (.nonFinite x path)
  | .string s => .ok (stringExpression o s)
  | .array items => do
    checkDepth o (depth + 1)
    return parenthesized (← itemsAt o (depth + 1) path 0 items)
  | .object entries => do
    checkDepth o (depth + 1)
    return parenthesized (← entriesAt o (depth + 1) path entries)

/-- The items of a list from `index` on. -/
def itemsAt (o : Settings) (depth : Nat) (path : List Text) (index : Nat) :
    List Value → Except Error (List Text)
  | [] => .ok []
  | v :: vs => do
    let e ← expressionAt o depth (path ++ [Numeral.ofNat index]) v
    return e :: (← itemsAt o depth path (index + 1) vs)

/-- The entries of a map. -/
def entriesAt (o : Settings) (depth : Nat) (path : List Text) :
    Entries → Except Error (List Text)
  | [] => .ok []
  | (key, v) :: es =>
    if survives key v then do
      let e ← expressionAt o depth (path ++ [key]) v
      return (mapKey o (nameOf o key) ++ ": ".toList ++ e) :: (← entriesAt o depth path es)
    else entriesAt o depth path es

end

/-- A value on its own. -/
def expression (o : Settings) (v : Value) : Except Error Text := expressionAt o 0 [] v

def declaration (name e : Text) : Text := '$' :: name ++ ": ".toList ++ e ++ [';']

/-- The declarations of a document, one for each entry that survives. -/
def declarations (o : Settings) : Entries → Except Error (List Text)
  | [] => .ok []
  | (key, v) :: es =>
    if survives key v then do
      let e ← expressionAt o 0 [key] v
      return declaration (nameOf o key) e :: (← declarations o es)
    else declarations o es

/-- A document as a stylesheet, one declaration on each line. -/
def stylesheet (o : Settings) (document : Entries) : Except Error Text := do
  return joinPieces '\n' (← declarations o document)

end StyleVars.Sheet
