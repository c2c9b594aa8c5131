import RecordQuery.Text

namespace RecordQuery

/-- A place in a query: line and column count from one, the offset from zero, all in bytes. -/
structure Position where
  line : Nat
  column : Nat
  offset : Nat
  deriving DecidableEq, Repr

namespace Position

def start : Position := ⟨1, 1, 0⟩

/-- The place after one more byte. -/
def step (p : Position) (b : UInt8) : Position :=
  if b = 0x0A then ⟨p.line + 1, 1, p.offset + 1⟩ else ⟨p.line, p.column + 1, p.offset + 1⟩

def advance (p : Position) (read : Text) : Position := read.foldl step p

def isValid (p : Position) : Bool := 0 < p.line

def describe (p : Position) : Text :=
  "line " ++ Text.ofNat p.line ++ ", column " ++ Text.ofNat p.column

end Position
end RecordQuery
