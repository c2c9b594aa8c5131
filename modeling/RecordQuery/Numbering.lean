import RecordQuery.Aggregate
import RecordQuery.Kind
import RecordQuery.Operator

/-! The vocabulary by number. Operators, functions and kinds count from one, directions from zero;
a number outside has a name too. -/
namespace RecordQuery.Numbering

private def item? {α : Type} (items : List α) (n : Int) : Option α :=
  if 0 < n then items[n.toNat - 1]? else none

def operatorSymbol (n : Int) : Text := ((item? Operator.all n).map (·.symbol)).getD "?"

def operatorName (n : Int) : Text := ((item? Operator.all n).map (·.name)).getD []

def aggregateName (n : Int) : Text := ((item? Aggregate.all n).map (·.name)).getD []

def directionName (n : Int) : Text := (if n = 1 then Direction.desc else .asc).name

def kindName (n : Int) : Text := ((item? Kind.all n).getD .unspecified).name

/-- Relationship, collection, primitive, numeric, textual: a letter for each that holds. -/
def flags (kind : Kind) : Text :=
  let letter (holds : Bool) (c : Char) : Text := if holds then [Text.ascii c] else []
  letter kind.isRelationship 'R' ++ letter kind.isCollection 'C' ++ letter kind.isPrimitive 'P' ++
    letter kind.isNumeric 'N' ++ letter kind.isTextual 'T'

/-- A kind outside the vocabulary is primitive, unless its number is zero. -/
def kindFlags (n : Int) : Text :=
  match item? Kind.all n with
  | some kind => flags kind
  | none => if n = 0 then [] else "P"

end RecordQuery.Numbering
