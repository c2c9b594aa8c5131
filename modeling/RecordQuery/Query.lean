import RecordQuery.Query.Binding
import RecordQuery.Query.Restriction
import RecordQuery.Query.Window
import RecordQuery.Token.Lexer

namespace RecordQuery

/-- What a query is compiled against. -/
structure Compiler where
  schema : Schema
  packages : Packages
  /-- The characters of operators; without any, the default ones. -/
  operators : Text := []
  /-- How deep restrictions and subqueries may be nested. -/
  maxDepth : Nat := 32

namespace Compiler

def defaultDepth : Nat := 32

/-- The depth for a setting, of which only positive numbers count. -/
def depthOf (setting : Int) : Nat := if setting > 0 then setting.toNat else defaultDepth

open Query

/-- The restriction of a window, which is read as if it stood in brackets. -/
def readWhere (read : RestrictionReader) (window : Window) (next : Token) :
    Except QueryError Restriction := do
  if window.tokens.isEmpty then throw (.atToken window.keyword (.emptyClause .where_))
  let opening : Token := ⟨.opening, "(", window.keyword.position⟩
  let closing : Token := ⟨.closing, ")", next.position⟩
  let (restriction, ⟨rest, _⟩) ← read next (opening :: window.tokens ++ [closing])
  match rest with
  | [] => return restriction
  | token :: _ => throw (.atToken token .unmatchedBracket)

/-- The query of a type with the given select list and clauses. -/
def assemble (schema : Schema) (read : RestrictionReader) (isSubquery : Bool) (ending : Token)
    (type : RecordType) (selected : List Selected) (windows : List Window) :
    Except QueryError Criteria := do
  let restriction ← (window? ending .where_ windows).mapM fun (window, next) => do
    let restriction ← readWhere read window next
    checkRestriction schema type restriction
    return restriction
  let groupBy ← match window? ending .groupBy windows with
    | none => pure []
    | some (window, _) => bindGroupKeys schema type (groupKeys window.keyword window.tokens)
  let criteria : Criteria :=
    { type, properties := (selected.filterMap (·.property?)).eraseDups
      aggregates := selected.filterMap (·.aggregate?), restriction, groupBy, orderBy := []
      limit := none, offset := none, aliases := [], isSubquery }
  criteria.checkGrouping.mapError .schema
  let orderBy ← match window? ending .orderBy windows with
    | none => pure []
    | some (window, next) => bindSortKeys schema type (orderKeys next none window.tokens)
  let limit ← (window? ending .limit windows).mapM fun (window, _) =>
    rowCount .limit window.keyword window.tokens
  let offset ← (window? ending .offset windows).mapM fun (window, _) =>
    rowCount .offset window.keyword window.tokens
  return { criteria with orderBy, limit, offset }.withAliases

/-- Compiles the tokens of a query or subquery; `read` reads its restriction. -/
def query (compiler : Compiler) (read : RestrictionReader) (isSubquery : Bool) (ending : Token)
    (tokens : List Token) : Except QueryError Criteria := do
  let first := tokens.headD ending
  if !first.isKeyword "SELECT" then throw (.atToken first .noSelect)
  let (items, rest) ← selectList ending .first (tokens.drop 1)
  let typeToken := rest.headD ending
  if typeToken.kind ≠ .word then throw (.atToken typeToken .noType)
  let some type := compiler.schema.resolve? compiler.packages typeToken.text
    | throw (.atToken typeToken (.unknownType typeToken.text))
  let selected ← bindSelect compiler.schema type none items
  let windows ← windows ending (rest.drop 1)
  assemble compiler.schema read isSubquery ending type selected windows

mutual

/-- Reads a restriction that may be nested so deep. -/
def restriction (compiler : Compiler) : (depth : Nat) → RestrictionReader
  | 0 => fun ending tokens =>
    .error (.atToken (tokens.headD ending) (.tooDeep compiler.maxDepth))
  | depth + 1 => fun ending tokens =>
    level (restriction compiler depth) (subquery compiler depth) ending 0 .start tokens

/-- Reads a subquery that may be nested so deep. -/
def subquery (compiler : Compiler) : (depth : Nat) → SubqueryReader
  | 0 => fun closing tokens =>
    .error (.atToken (tokens.headD closing) (.tooDeep compiler.maxDepth))
  | depth + 1 => fun closing tokens =>
    compiler.query (restriction compiler depth) true closing tokens

end

/-- Compiles a query text. -/
def compile (compiler : Compiler) (text : Text) : Except QueryError Criteria := do
  let (tokens, ending) ← (Lexer.start text compiler.operators).run.mapError .malformed
  compiler.query (compiler.restriction compiler.maxDepth) false ending tokens

end Compiler
end RecordQuery
