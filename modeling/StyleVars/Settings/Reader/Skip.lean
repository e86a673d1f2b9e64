import StyleVars.Settings.Reader.Scalar

/-!
Reading over a value that nobody asked for, however deep it is nested. It has to be strict JSON,
except that surrogates need not stand in pairs and that numbers may have any size.
-/

namespace StyleVars.Settings.Reader

/-- What a loop does after one round. -/
inductive Round (σ α : Type) where
  | again (state : σ)
  | done (a : α)

/-- Goes on with `step` until it is done. A round that takes nothing from the text is not followed
by another one. -/
def loop {σ α : Type} (step : σ → Reader (Round σ α)) (state : σ) (s : Text) :
    Except ReadError (α × Text) :=
  match step state s with
  | .error e => .error e
  | .ok (.done a, rest) => .ok (a, rest)
  | .ok (.again state, rest) =>
    if rest.length < s.length then loop step state rest else .error .malformed
termination_by s.length

/-- Takes the colon behind a key. -/
def colon : Reader Unit := do
  match ← next with
  | ':' => advance
  | _ => throw .malformed

/-- A list or a map that is still open. -/
inductive Nest where
  | list
  | map
deriving DecidableEq, Repr

namespace Nest

def closing : Nest → Char
  | list => ']'
  | map => '\x7d'

/-- Takes what stands before a value: nothing in a list, a key and a colon in a map. -/
def lead : Nest → Reader Unit
  | list => pure ()
  | map => do
    match ← next with
    | '"' =>
      discard (string false)
      colon
    | _ => throw .malformed

end Nest

/-- Where a value is expected or has just ended, inside the lists and maps `outer`, the innermost
first. -/
inductive Place where
  | value (outer : List Nest)
  | ended (outer : List Nest)

/-- Takes the beginning of a list or map. -/
def enter (n : Nest) (outer : List Nest) : Reader Place := do
  advance
  if (← next) = n.closing then
    advance
    return .ended outer
  else
    n.lead
    return .value (n :: outer)

/-- Takes a value that has no parts, or the beginning of one that has. -/
def skipStart (outer : List Nest) : Reader Place := do
  match ← next with
  | 'n' => word "null".toList; return .ended outer
  | 't' => word "true".toList; return .ended outer
  | 'f' => word "false".toList; return .ended outer
  | '"' => discard (string false); return .ended outer
  | '[' => enter .list outer
  | '\x7b' => enter .map outer
  | c =>
    if startsNumber c then
      discard (numberText .malformed)
      return .ended outer
    else throw .malformed

/-- Takes what stands behind a value: the end of what it stands in, or a comma and what leads on to
the next value. -/
def skipEnd (n : Nest) (outer : List Nest) : Reader Place := do
  let c ← next
  if c = ',' then
    advance
    n.lead
    return .value (n :: outer)
  else if c = n.closing then
    advance
    return .ended outer
  else throw .malformed

def skipStep : Place → Reader (Round Place Unit)
  | .value outer => return .again (← skipStart outer)
  | .ended [] => return .done ()
  | .ended (n :: outer) => return .again (← skipEnd n outer)

/-- Takes a whole value. -/
def skip : Reader Unit := loop skipStep (.value [])

end StyleVars.Settings.Reader
