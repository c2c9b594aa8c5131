import RecordQuery.Error

namespace RecordQuery.Query

/-- One entry of a select list. The tokens are kept for error messages. -/
inductive SelectItem where
  | property (token : Token)
  /-- The wildcard, which stands for the default field. -/
  | wildcard (token : Token)
  | aggregate (function : Aggregate) (token : Token)
  deriving DecidableEq, Repr

/-- The word that selects the default field. -/
def wildcardText : Text := "*"

def SelectItem.token : SelectItem → Token
  | property token | wildcard token | aggregate _ token => token

/-- The entry of a single word. -/
def SelectItem.ofWord (token : Token) : SelectItem :=
  if token.text = wildcardText then .wildcard token else .property token

/-- The entry of a function and its argument. What is counted without a property is records. -/
def SelectItem.ofCall (function : Aggregate) (argument : Token) : SelectItem :=
  .aggregate function
    (if function = .count ∧ argument.text = wildcardText then { argument with text := "id" }
    else argument)

/-- The function that is called here: its name comes before an opening bracket. -/
def calls? (token : Token) (next : Option Token) : Option Aggregate :=
  if next.any (·.kind = .opening) then Aggregate.ofName? token.text else none

/-- Where in a select list a token stands. -/
inductive SelectPlace where
  | first | afterItem | afterComma
  deriving DecidableEq, Repr

/-- The entries up to `FROM`, and the tokens after it. -/
def selectList (ending : Token) (place : SelectPlace) :
    List Token → Except QueryError (List SelectItem × List Token)
  | [] => .error (.atToken ending .noFrom)
  | token :: rest =>
    if token.isKeyword "FROM" then
      match place with
      | .first => .error (.atToken token .emptySelect)
      | .afterComma => .error (.atToken token (.unexpected .selectItem))
      | .afterItem => .ok ([], rest)
    else if token.kind = .comma then
      if place = .afterItem then selectList ending .afterComma rest
      else .error (.atToken token (.unexpected .selectItem))
    else if place = .afterItem then .error (.atToken token (.unexpected .commaOrFrom))
    else if token.kind = .opening then .error (.atToken token .strayBracket)
    else if token.kind ≠ .word then .error (.atToken token (.unexpected .selectItem))
    else
      match calls? token rest.head?, rest with
      | some function, _ :: argument :: closing :: after =>
        if argument.kind ≠ .word then .error (.atToken argument (.aggregateProperty function))
        else if closing.kind ≠ .closing then
          .error (.atToken closing (.aggregateProperty function))
        else do
          let (items, after) ← selectList ending .afterItem after
          return (.ofCall function argument :: items, after)
      | some function, [_, argument] =>
        .error (.atToken (if argument.kind ≠ .word then argument else ending)
          (.aggregateProperty function))
      | some function, _ => .error (.atToken ending (.aggregateProperty function))
      | none, rest => do
        let (items, after) ← selectList ending .afterItem rest
        return (.ofWord token :: items, after)

end RecordQuery.Query
