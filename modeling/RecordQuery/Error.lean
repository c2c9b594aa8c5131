import RecordQuery.Operator
import RecordQuery.Aggregate
import RecordQuery.Kind
import RecordQuery.Clause
import RecordQuery.Token
import RecordQuery.Text.Quoted

namespace RecordQuery

/-- What could have stood where something else was found. -/
inductive Expected where
  | selectItem | commaOrFrom | clause | commaOrGroupKey | commaOrOrderKey | commaOrDirection
  | operatorOrValue | connectiveOrClose | restrictionPart | property | value | commaOrClose
  deriving DecidableEq, Repr

def Expected.text : Expected → Text
  | selectItem => "a field or an aggregate function"
  | commaOrFrom => "',' or FROM"
  | clause => "WHERE, GROUP BY, ORDER BY, LIMIT or OFFSET"
  | commaOrGroupKey => "',' or a grouping property"
  | commaOrOrderKey => "',' or an ordering property"
  | commaOrDirection => "',', ASC or DESC"
  | operatorOrValue => "an operator or a value"
  | connectiveOrClose => "AND, OR or a closing bracket"
  | restrictionPart => "a property, an operator or a value"
  | property => "a property"
  | value => "a value"
  | commaOrClose => "',' or a closing bracket"

/-- The arguments that an operator takes in a document. -/
inductive Arity where
  | nestedOnly | oneNested | twoNested | none | queryOrValues | oneValue
  deriving DecidableEq, Repr

def Arity.text : Arity → Text
  | nestedOnly => "nested restrictions only"
  | oneNested => "exactly one nested restriction"
  | twoNested => "at least two nested restrictions"
  | none => "no arguments"
  | queryOrValues => "a subquery or at least one value"
  | oneValue => "exactly one value"

/-- Limits are given by a clause in a query and by a key in a document. -/
inductive RowCount where
  | limit | offset
  deriving DecidableEq, Repr

namespace RowCount

def clause : RowCount → Clause
  | limit => .limit
  | offset => .offset

def key : RowCount → Text
  | limit => "limit"
  | offset => "offset"

end RowCount

inductive Cause where
  | noSelect
  | emptySelect
  | noFrom
  | noType
  | unknownType (name : Text)
  | unknownField (field type : Text)
  | notRelationship (field type : Text)
  | wholeRelationship (path : Text)
  | noDefaultField (type : Text)
  | unexpected (expected : Expected)
  | misplaced (keyword : Text)
  | duplicateClause (clause : Clause)
  | danglingKeyword (keyword : Text)
  | emptyClause (clause : Clause)
  | aggregateProperty (function : Aggregate)
  | strayBracket
  | mixedAggregates
  | aggregateKind (function : Aggregate) (kind : Kind) (path : Text)
  | notGrouped (paths : List Text)
  | orderComma
  | orderEnd
  | groupComma
  | expectedInteger (count : RowCount)
  | missingInteger (count : RowCount)
  | unterminatedString
  | unmatchedBracket
  | emptyRestriction
  | incomplete
  | unclosedBrackets
  | mixedConnectives
  | operatorSet (operator : Operator)
  | missingOperand (operator : Operator)
  | missingOperator (property : Text)
  | isNullMisplaced
  | inNeedsBracket
  | emptyInList
  | nestedBracket
  | tooDeep (limit : Nat)
  | subqueryColumns
  | subqueryFormula (path : Text)
  | subqueryKind (selected path : Text)
  | idMismatch (name id path : Text)
  | unknownFieldId (id type : Text)
  | missingReference
  | unknownOperator (name : Text)
  | unexpectedObject (operator : Text)
  | argumentCount (operator : Text) (arity : Arity)
  | unsupportedArgument (operator : Text)
  | missingBaseType
  | unknownTypeId (id : Text)
  | baseTypeMismatch (name id type : Text)
  | unknownAggregate (name : Text)
  | unknownDirection (name : Text)
  | negativeCount (count : RowCount)
  | invalidLiteral (value : Text) (kind : Kind) (field : Text)
  deriving DecidableEq, Repr

def Cause.message : Cause → Text
  | noSelect => "query does not start with the SELECT keyword"
  | emptySelect => "the query does not select any fields or aggregate functions"
  | noFrom => "the query does not contain the FROM keyword"
  | noType => "type name expected after FROM"
  | unknownType name =>
    "no type found with API name " ++ name ++ " (API names are case-sensitive)"
  | unknownField field type => "field " ++ field ++ " not found on type " ++ type
  | notRelationship field type =>
    "property " ++ field ++ " on type " ++ type ++ " is neither a type reference nor a collection"
  | wholeRelationship path =>
    "cannot reference whole relationship '" ++ path ++
      "'; list specific fields of the relationship instead, e.g. '" ++ path ++ ".id'"
  | noDefaultField type => "type " ++ type ++ " has no default field"
  | unexpected expected => "unexpected token, expected " ++ expected.text
  | misplaced keyword =>
    "misplaced token " ++ keyword ++ "; clauses should appear in the following order: " ++
      "WHERE, GROUP BY, ORDER BY, LIMIT, OFFSET"
  | duplicateClause clause => "clause " ++ clause.name ++ " appears more than once"
  | danglingKeyword keyword => keyword ++ " must be followed by BY"
  | emptyClause clause => clause.name ++ " clause is empty"
  | aggregateProperty function =>
    "aggregate function " ++ function.name ++ " takes exactly one property"
  | strayBracket =>
    "bracket found in SELECT clause that is not preceded by an aggregate function name"
  | mixedAggregates => "cannot call aggregate function on both collections and non-collections"
  | aggregateKind function kind path =>
    "aggregate function " ++ function.name ++ " cannot be applied to " ++ kind.name ++ " field " ++
      path
  | notGrouped paths =>
    "the following properties should be used either in an aggregate function or a GROUP BY clause: "
      ++ Text.join ", " paths
  | orderComma => "error in ORDER BY clause: order by property not defined, comma encountered"
  | orderEnd =>
    "error in ORDER BY clause: order by property not defined, end of ORDER BY clause reached"
  | groupComma => "error in GROUP BY clause: grouping property not defined, comma encountered"
  | expectedInteger count =>
    "expected a non-negative integer after the " ++ count.clause.name ++ " keyword"
  | missingInteger count =>
    "row " ++ count.key ++ " expected after the " ++ count.clause.name ++ " keyword"
  | unterminatedString => "unterminated string literal"
  | unmatchedBracket => "unmatched bracket"
  | emptyRestriction => "empty restriction"
  | incomplete => "all brackets are closed, but the restriction is not completed"
  | unclosedBrackets => "restriction is completed, but not all brackets are closed"
  | mixedConnectives => "cannot mix AND and OR at the same level without brackets"
  | operatorSet operator => "operator " ++ operator.symbol ++ " already set for this restriction"
  | missingOperand operator =>
    "operator " ++ operator.symbol ++ " is missing its left-hand property"
  | missingOperator property => "operator expected after property " ++ property
  | isNullMisplaced => "ISNULL must directly follow a property"
  | inNeedsBracket => "IN must be followed by a bracketed list of values or a subquery"
  | emptyInList => "IN list is empty"
  | nestedBracket => "nested brackets are not allowed in an IN list"
  | tooDeep limit => "restriction nesting exceeds the maximum depth of " ++ Text.ofNat limit
  | subqueryColumns => "a subquery must select exactly one field"
  | subqueryFormula path => "a subquery cannot select formula field " ++ path
  | subqueryKind selected path =>
    "data type of field " ++ selected ++ " queried in subquery does not match the field " ++ path ++
      " in the IN condition"
  | idMismatch name id path =>
    "property name '" ++ name ++ "' does not match the property id " ++ id ++
      " (it identifies property " ++ path ++ ")"
  | unknownFieldId id type => "no field with id " ++ id ++ " on type " ++ type
  | missingReference => "property reference has neither an id nor a name"
  | unknownOperator name => "unknown restriction operator " ++ name.quoted
  | unexpectedObject operator =>
    "did not expect JSON object as restriction argument for operator " ++ operator
  | argumentCount operator arity => "operator " ++ operator ++ " expects " ++ arity.text
  | unsupportedArgument operator =>
    "unsupported JSON node as restriction argument for operator " ++ operator
  | missingBaseType => "document has neither a base type id nor a base type name"
  | unknownTypeId id => "no type found with id " ++ id
  | baseTypeMismatch name id type =>
    "base type name '" ++ name ++ "' does not match the base type id " ++ id ++
      " (it identifies type " ++ type ++ ")"
  | unknownAggregate name => "unknown aggregate function " ++ name.quoted
  | unknownDirection name => "unknown sort direction " ++ name.quoted
  | negativeCount count => count.key ++ " must not be negative"
  | invalidLiteral value kind field =>
    "value '" ++ value ++ "' is not a valid " ++ kind.name ++ " for field " ++ field

/-- The query or document is malformed. Documents have no positions. -/
structure SyntaxError where
  position : Option Position
  /-- The offending token or node. -/
  fragment : Text
  cause : Cause
  deriving DecidableEq, Repr

/-- The full text of a syntax error. -/
def SyntaxError.describe (position : Option Position) (fragment message : Text) : Text :=
  match position with
  | some p => "syntax error at " ++ p.describe ++ " near '" ++ fragment ++ "': " ++ message
  | none =>
    if fragment.isEmpty then "syntax error: " ++ message
    else "syntax error near '" ++ fragment ++ "': " ++ message

def SyntaxError.message (e : SyntaxError) : Text := describe e.position e.fragment e.cause.message

/-- The query or document is well formed but does not fit the schema. -/
structure SchemaError where
  cause : Cause
  /-- The offending paths, as far as known. -/
  fields : List Text
  deriving DecidableEq, Repr

/-- The full text of a schema error. -/
def SchemaError.describe (message : Text) : Text := "schema error: " ++ message

def SchemaError.message (e : SchemaError) : Text := describe e.cause.message

inductive QueryError where
  | malformed (error : SyntaxError)
  | schema (error : SchemaError)
  deriving DecidableEq, Repr

namespace QueryError

def message : QueryError → Text
  | malformed e => e.message
  | schema e => e.message

/-- A syntax error at a token. -/
def atToken (token : Token) (cause : Cause) : QueryError :=
  malformed ⟨token.position, token.display, cause⟩

/-- A malformed document node. -/
def atNode (fragment : Text) (cause : Cause) : QueryError := malformed ⟨none, fragment, cause⟩

end QueryError
end RecordQuery
