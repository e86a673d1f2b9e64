import StyleVars.Json.Value
import StyleVars.Json.Token.Scan

/-!
From tokens to a tree, in one pass. The state of the pass is what may come next together with the
arrays and objects that are still open, the innermost first. A comma may stand behind the last
item of an array or the last member of an object.
-/

namespace StyleVars.Json

/-- An array or an object in which a value is being read. -/
inductive Frame where
  /-- The items before it, last first. -/
  | item (before : List Value)
  /-- The entries before it, and its key. -/
  | member (before : Entries) (key : Text)

/-- What may come next, inside the containers `outer`. -/
inductive Stage where
  /-- A value. -/
  | value (outer : List Frame)
  /-- An item or the end of the array; the items so far stand last first. -/
  | items (before : List Value) (outer : List Frame)
  /-- A comma or the end of the array. -/
  | itemEnd (before : List Value) (outer : List Frame)
  /-- A key or the end of the object. -/
  | members (before : Entries) (outer : List Frame)
  /-- The colon behind a key. -/
  | colon (before : Entries) (key : Text) (outer : List Frame)
  /-- A comma or the end of the object. -/
  | memberEnd (before : Entries) (outer : List Frame)
  /-- Nothing but the end of the text. -/
  | finished (v : Value)

namespace Stage

/-- The stage after a whole value has been read. -/
def accept (v : Value) : List Frame → Stage
  | [] => finished v
  | .item before :: outer => itemEnd (v :: before) outer
  | .member before key :: outer => memberEnd (Dictionary.insert key v before) outer

/-- Opens a container, unless it is nested too deep. -/
def enter (limits : Limits) (pos : Position) (outer : List Frame) (s : Stage) : Except Error Stage :=
  let depth := outer.length + 1
  if limits.maxNestingDepth < depth then
    .error (.nestingTooDeep depth limits.maxNestingDepth pos)
  else .ok s

/-- The first token of a value. -/
def begin (limits : Limits) (pos : Position) (outer : List Frame) : Token → Except Error Stage
  | .null => .ok (accept .null outer)
  | .bool b => .ok (accept (.bool b) outer)
  | .number x => .ok (accept (.number x) outer)
  | .string s => .ok (accept (.string s) outer)
  | .openBracket => enter limits pos outer (items [] outer)
  | .openBrace => enter limits pos outer (members [] outer)
  | t => .error (.unexpectedToken t .value pos)

/-- One token further. -/
def step (limits : Limits) (pos : Position) : Stage → Token → Except Error Stage
  | value outer, t => begin limits pos outer t
  | items before outer, .closeBracket => .ok (accept (.array before.reverse) outer)
  | items before outer, t => begin limits pos (.item before :: outer) t
  | itemEnd before outer, .comma => .ok (items before outer)
  | itemEnd before outer, .closeBracket => .ok (accept (.array before.reverse) outer)
  | itemEnd _ _, t => .error (.unexpectedToken t .commaOrBracket pos)
  | members before outer, .closeBrace => .ok (accept (.object before) outer)
  | members before outer, .string key => .ok (colon before key outer)
  | members _ _, t => .error (.unexpectedToken t .keyOrEnd pos)
  | colon before key outer, .colon => .ok (value (.member before key :: outer))
  | colon _ _ _, t => .error (.unexpectedToken t .colon pos)
  | memberEnd before outer, .comma => .ok (members before outer)
  | memberEnd before outer, .closeBrace => .ok (accept (.object before) outer)
  | memberEnd _ _, t => .error (.unexpectedToken t .commaOrBrace pos)
  | finished _, _ => .error (.trailingContent pos)

/-- The end of the text, at `pos`. -/
def close (pos : Position) : Stage → Except Error Value
  | value _ => .error (.unexpectedEnd .value pos)
  | items _ _ => .error (.unexpectedEnd .value pos)
  | itemEnd _ _ => .error (.unexpectedEnd .commaOrBracket pos)
  | members _ _ => .error (.unexpectedEnd .keyOrEnd pos)
  | colon _ _ _ => .error (.unexpectedEnd .colon pos)
  | memberEnd _ _ => .error (.unexpectedEnd .commaOrBrace pos)
  | finished v => .ok v

/-- Reads the tokens of a scan to the end or to the first error. -/
def run (limits : Limits) (ending : Except Error Position) :
    Stage → List Lexeme → Except Error Value
  | s, [] =>
    match ending with
    | .error e => .error e
    | .ok pos => s.close pos
  | s, l :: ls =>
    match s.step limits l.pos l.token with
    | .error e => .error e
    | .ok s => run limits ending s ls

end Stage

/-- The document that a text holds. -/
def parse (limits : Limits) (s : Text) : Except Error Value :=
  match scan limits s with
  | .error e => .error e
  | .ok tokens => Stage.run limits tokens.ending (.value []) tokens.lexemes

end StyleVars.Json
