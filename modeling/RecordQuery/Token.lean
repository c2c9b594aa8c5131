import RecordQuery.Position
import RecordQuery.Text.Case

namespace RecordQuery

inductive TokenKind where
  /-- The end of the query. -/
  | eof
  /-- Names, keywords, numbers, dotted paths. -/
  | word
  /-- Text in single quotes, the quotes included. -/
  | string
  | opening | closing | comma
  /-- A run of operator characters. -/
  | operator
  /-- A number that stands for no kind. -/
  | other (number : Int)
  deriving DecidableEq, Repr

namespace TokenKind

def name : TokenKind → Text
  | eof => "EOF"
  | word => "WORD"
  | string => "STRING"
  | opening => "("
  | closing => ")"
  | comma => ","
  | operator => "OPERATOR"
  | other n => "Kind(" ++ Text.ofInt n ++ ")"

def ofNumber (n : Int) : TokenKind :=
  match n with
  | 0 => eof
  | 1 => word
  | 2 => string
  | 3 => opening
  | 4 => closing
  | 5 => comma
  | 6 => operator
  | n => other n

end TokenKind

structure Token where
  kind : TokenKind
  text : Text
  position : Option Position
  deriving DecidableEq, Repr

namespace Token

/-- Whether the token is a keyword, in any case. -/
def isKeyword (token : Token) (keyword : Text) : Bool :=
  token.kind == .word && token.text.sameFold keyword

/-- What messages call the token. -/
def display (token : Token) : Text :=
  match token.kind with
  | .eof => "end of query"
  | _ => token.text

/-- Drops the backslash before a quote or a backslash; any other backslash stays. -/
def unescape : Text → Text
  | [] => []
  | [b] => [b]
  | a :: b :: rest =>
    if a = Text.ascii '\\' ∧ (b = Text.ascii '\'' ∨ b = Text.ascii '\\') then b :: unescape rest
    else a :: unescape (b :: rest)

/-- The value that a token stands for: what a string holds between its quotes. -/
def value (token : Token) : Text :=
  match token.kind, token.text with
  | .string, _ :: b :: rest => unescape (b :: rest).dropLast
  | _, text => text

end Token
end RecordQuery
