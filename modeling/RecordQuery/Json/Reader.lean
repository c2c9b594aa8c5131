import RecordQuery.Json
import RecordQuery.Json.Lexeme

/-! Reading a JSON text: the lexemes are taken one by one, and the open arrays and objects wait on
a stack. -/
namespace RecordQuery.Json

/-- An open container with what it holds so far, last first. -/
inductive Frame where
  | items (done : List Json)
  | members (done : List (Text × Json))
  | member (done : List (Text × Json)) (key : Text)

inductive State where
  /-- A value is due. -/
  | needValue (stack : List Frame)
  /-- After the opening of an array: a value, or its end. -/
  | firstItem (stack : List Frame)
  /-- After the opening of an object: a key, or its end. -/
  | firstKey (stack : List Frame)
  | needKey (stack : List Frame)
  | needColon (stack : List Frame) (key : Text)
  /-- After a value in a container. -/
  | afterValue (stack : List Frame)
  | finished (value : Json)

/-- How many containers may be open at once. -/
def maxNesting : Nat := 10000

/-- Hands a finished value to the innermost open container. -/
def State.give (value : Json) : List Frame → State
  | [] => .finished value
  | .items done :: stack => .afterValue (.items (value :: done) :: stack)
  | .member done key :: stack => .afterValue (.members ((key, value) :: done) :: stack)
  | .members done :: stack => .afterValue (.members done :: stack)

def startValue? (stack : List Frame) : Lexeme → Option State
  | .openObject =>
    if stack.length < maxNesting then some (.firstKey (.members [] :: stack)) else none
  | .openArray => if stack.length < maxNesting then some (.firstItem (.items [] :: stack)) else none
  | .string value => some (.give (.string value) stack)
  | .number text => some (.give (.number text) stack)
  | .bool value => some (.give (.bool value) stack)
  | .null => some (.give .null stack)
  | _ => none

def startKey? (stack : List Frame) : Lexeme → Option State
  | .string key => some (.needColon stack key)
  | _ => none

def State.step? (state : State) (lexeme : Lexeme) : Option State :=
  match state, lexeme with
  | .needValue stack, lexeme => startValue? stack lexeme
  | .firstItem (.items _ :: stack), .closeArray => some (.give (.array []) stack)
  | .firstItem stack, lexeme => startValue? stack lexeme
  | .firstKey (.members _ :: stack), .closeObject => some (.give (.object []) stack)
  | .firstKey stack, lexeme => startKey? stack lexeme
  | .needKey stack, lexeme => startKey? stack lexeme
  | .needColon (.members done :: stack) key, .colon => some (.needValue (.member done key :: stack))
  | .afterValue (.items done :: stack), .comma => some (.needValue (.items done :: stack))
  | .afterValue (.members done :: stack), .comma => some (.needKey (.members done :: stack))
  | .afterValue (.items done :: stack), .closeArray => some (.give (.array done.reverse) stack)
  | .afterValue (.members done :: stack), .closeObject => some (.give (.object done.reverse) stack)
  | _, _ => none

def State.run? (state : State) : List Lexeme → Option Json
  | [] =>
    match state with
    | .finished value => some value
    | _ => none
  | lexeme :: rest =>
    match state.step? lexeme with
    | none => none
    | some state => state.run? rest

/-- The value of a JSON text, none if it is malformed. -/
def parse? (t : Text) : Option Json := do (State.needValue []).run? (← lexemes? t)

end RecordQuery.Json
