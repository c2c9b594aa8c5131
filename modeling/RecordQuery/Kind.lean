import RecordQuery.Text.Case

namespace RecordQuery

/-- The family of values that a field holds; `unspecified` if its declaration names none. -/
inductive Kind where
  | unspecified
  | text | number | boolean | date | dateTime | id | enumeration | email
  /-- A link to one record. -/
  | reference
  /-- Many records, each of which links back. -/
  | inverse
  /-- Many records, through records that link to both sides. -/
  | association
  /-- Text computed from other fields of the record. -/
  | formula
  deriving DecidableEq, Repr

namespace Kind

def name : Kind → Text
  | unspecified => "unknown"
  | text => "text"
  | number => "number"
  | boolean => "boolean"
  | date => "date"
  | dateTime => "datetime"
  | id => "id"
  | enumeration => "enumeration"
  | email => "email"
  | reference => "reference"
  | inverse => "inverse"
  | association => "association"
  | formula => "formula"

def all : List Kind :=
  [text, number, boolean, date, dateTime, id, enumeration, email, reference, inverse, association,
    formula]

def ofName? (t : Text) : Option Kind := all.find? fun k => k.name == t.lower

def isRelationship : Kind → Bool
  | reference | inverse | association => true
  | _ => false

def isCollection : Kind → Bool
  | inverse | association => true
  | _ => false

/-- Whether a field of this kind holds one value of its own. -/
def isPrimitive (k : Kind) : Bool := k != unspecified && !k.isRelationship

def isNumeric : Kind → Bool
  | number => true
  | _ => false

/-- Whether values are stored as text. -/
def isTextual : Kind → Bool
  | text | email | enumeration | formula => true
  | _ => false

end Kind
end RecordQuery
