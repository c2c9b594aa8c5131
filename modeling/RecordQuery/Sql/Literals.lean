import RecordQuery.Calendar
import RecordQuery.Error
import RecordQuery.Schema
import RecordQuery.Sql
import RecordQuery.Text.Blank
import RecordQuery.Value

namespace RecordQuery.Sql

/-- Why a query has no statement. -/
inductive RenderError where
  | schema (error : SchemaError)
  | noRestriction
  | noFormula
  | noColumns (type : Text)
  /-- What a choice of literals gives as its own reason. -/
  | refused (reason : Text)
  deriving DecidableEq, Repr

def RenderError.message : RenderError → Text
  | schema error => error.message
  | noRestriction => "unsupported restriction <nil>"
  | noFormula => "unsupported formula expression <nil>"
  | noColumns type =>
    "failed to build statement for " ++ type ++
      ": select statements must have at least one result column"
  | refused reason => reason

/-- A choice of literals: for comparisons, and for patterns with wildcards. -/
structure Literals where
  literal : Field → Value → Except RenderError Literal
  pattern : Field → Value → Except RenderError Literal

/-- The number that a value stands for. -/
def number? : Value → Option Decimal
  | .int n => some (.ofInt n)
  | .float x => some x.toDecimal
  | .decimal d => some d
  | .text t => Decimal.parse? (Text.trim t)
  | .bool _ | .unsigned _ | .null => none

def trueWords : List Text := ["1", "t", "T", "TRUE", "true", "True"]

def falseWords : List Text := ["0", "f", "F", "FALSE", "false", "False"]

def truth? (t : Text) : Option Bool :=
  if trueWords.contains t then some true
  else if falseWords.contains t then some false
  else none

/-- Whether a text is a value of the kind, for the kinds whose values are written in quotes. -/
def fits (kind : Kind) (t : Text) : Bool :=
  match kind with
  | .date => Calendar.isDate t
  | .dateTime => Calendar.isDateTime t
  | _ => true

def literal? (kind : Kind) (value : Value) : Option Literal :=
  match kind, value with
  | .number, value => (number? value).map .number
  | .boolean, .bool b => some (.truth b)
  | .boolean, value => (truth? value.written).map .truth
  | kind, value => if fits kind value.written then some (.quoted value.written) else none

/-- Numbers and truth values bare, all else in quotes. A pattern is text, whatever the field. -/
def Literals.standard : Literals where
  literal field value :=
    match literal? field.kind value with
    | some literal => .ok literal
    | none => .error (.schema ⟨.invalidLiteral value.written field.kind field.name, [field.name]⟩)
  pattern _ value := .ok (.quoted value.written)

end RecordQuery.Sql
