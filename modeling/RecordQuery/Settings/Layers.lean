import RecordQuery.Calendar
import RecordQuery.Number.Integer
import RecordQuery.Number.Shortest
import RecordQuery.Settings
import RecordQuery.Sql.Literals
import RecordQuery.Yaml.Reader

/-! Where settings come from: the defaults, a file, the environment and flags. A later layer goes
before an earlier one, key by key. -/
namespace RecordQuery

inductive Setting where
  | null
  | text (value : Text)
  | int (value : Int)
  | float (value : Double)
  | bool (value : Bool)
  /-- A list, a mapping or a date. -/
  | other
  deriving DecidableEq, Repr

abbrev Layer := List (Text × Setting)

namespace Setting

private def isMantissa (t : Text) : Bool :=
  match t.splitOn (Text.ascii '.') with
  | [whole] => !whole.isEmpty && whole.all Text.isDigit
  | [whole, fraction] =>
    whole.all Text.isDigit && fraction.all Text.isDigit && !(whole.isEmpty && fraction.isEmpty)
  | _ => false

private def isMark (b : UInt8) : Bool := b == Text.ascii 'e' || b == Text.ascii 'E'

private def unsigned (t : Text) : Text :=
  match t with
  | [] => []
  | b :: rest => if b = Text.ascii '-' ∨ b = Text.ascii '+' then rest else t

private def isFloat (t : Text) : Bool :=
  let t := unsigned t
  isMantissa (t.takeWhile (!isMark ·)) &&
    match t.dropWhile (!isMark ·) with
    | [] => true
    | _ :: exponent =>
      let digits := unsigned exponent
      !digits.isEmpty && digits.all Text.isDigit

private def numberStart (b : UInt8) : Bool :=
  Text.isDigit b || b == Text.ascii '-' || b == Text.ascii '+'

/-- A number; underscores count for nothing, unless a point comes first. -/
private def number? (t : Text) : Option Setting :=
  let digits := t.filter (· ≠ Text.ascii '_')
  if t.head? = some (Text.ascii '.') then (Double.parse? t).map .float
  else if !t.head?.any numberStart then none
  else
    match Integer.parse? digits with
    | some n => some (.int n)
    | none =>
      match (Integer.unsigned? digits).filter (· < 0x10000000000000000) with
      | some n => some (.int n)
      | none => if isFloat digits then (Double.parse? digits).map .float else none

private def infinity? (t : Text) : Option Setting :=
  let words : List Text := [".inf", ".Inf", ".INF"]
  if words.contains t || words.any (("+" : Text) ++ · == t) then
    some (.float (.ofMagnitude false Double.infinityBits))
  else if words.any (("-" : Text) ++ · == t) then
    some (.float (.ofMagnitude true Double.infinityBits))
  else if [Text.ofString ".nan", ".NaN", ".NAN"].contains t then some (.float .nan)
  else none

/-- What a plain scalar means. -/
def ofPlain (t : Text) : Setting :=
  if Yaml.nullWords.contains t then null
  else if [Text.ofString "true", "True", "TRUE"].contains t then bool true
  else if [Text.ofString "false", "False", "FALSE"].contains t then bool false
  else if Calendar.isTimestamp t then other
  else ((infinity? t).orElse fun _ => number? t).getD (text t)

def ofYaml : Yaml → Setting
  | .scalar t true => ofPlain t
  | .scalar t false => text t
  | .list _ | .map _ => other

def toText? : Setting → Option Text
  | null => some []
  | text t => some t
  | int n => some (Text.ofInt n)
  | float x => some x.plain
  | bool true => some "1"
  | bool false => some "0"
  | other => none

/-- The whole part of a number, or the least number of 64 bits where it does not fit. -/
private def wholePart (x : Double) : Int :=
  let least : Int := -0x8000000000000000
  match Text.toInt? (x.plain.takeWhile (· ≠ Text.ascii '.')) with
  | none => least
  | some n => if least ≤ n ∧ n < 0x8000000000000000 then n else least

/-- A fraction is cut off, a number without sign is taken as 64 bits, and empty text is zero. -/
def toInt? : Setting → Option Int
  | null => some 0
  | text t => if t.isEmpty then some 0 else Integer.parse? t
  | int n => some (Int.bmod n 0x10000000000000000)
  | float x => some (wholePart x)
  | bool true => some 1
  | bool false => some 0
  | other => none

def toBool? : Setting → Option Bool
  | null => some false
  | text t => if t.isEmpty then some false else Sql.truth? t
  | int n => some (n != 0)
  | float x => some (!x.isZero)
  | bool b => some b
  | other => none

end Setting

mutual

/-- Whether no mapping has a key twice. -/
def Yaml.distinctKeys : Yaml → Bool
  | .scalar _ _ => true
  | .list items => Yaml.distinctKeysAll items
  | .map entries =>
    (entries.map (·.1)).eraseDups.length = entries.length && Yaml.distinctKeysIn entries

def Yaml.distinctKeysAll : List Yaml → Bool
  | [] => true
  | item :: items => item.distinctKeys && Yaml.distinctKeysAll items

def Yaml.distinctKeysIn : List (Text × Yaml) → Bool
  | [] => true
  | (_, value) :: entries => value.distinctKeys && Yaml.distinctKeysIn entries

end

namespace Layer

/-- The settings of a file, which is empty or a mapping. -/
def ofFile? (content : Text) : Option Layer :=
  match Yaml.read? content with
  | none => none
  | some (.map entries) =>
    if (Yaml.map entries).distinctKeys then some (entries.map fun (key, value) => (key, .ofYaml value))
    else none
  | some value => if value.isNull then some [] else none

/-- What the names of its variables start with. -/
def variablePrefix : Text := "DALC_"

/-- The settings of the environment. -/
def ofEnvironment (environment : List (Text × Text)) : Layer :=
  environment.filterMap fun (name, value) =>
    (name.after? variablePrefix).map fun key => (Text.lower key, .text value)

end Layer

namespace Settings

/-- The last setting of a key in the last layer that has it. -/
private def last? (layers : List Layer) (key : Text) : Option Setting :=
  layers.flatten.reverse.lookup key

private def textAt? (layers : List Layer) (key default : Text) : Option Text :=
  match last? layers key with
  | none => some default
  | some setting => setting.toText?

/-- The settings of all layers over the defaults, if every value has a fitting form. -/
def ofLayers? (layers : List Layer) : Option Settings := do
  let initial : Settings := {}
  return { schema := ← textAt? layers "schema" initial.schema
           basePackage := ← textAt? layers "base_package" initial.basePackage
           systemPackage := ← textAt? layers "system_package" initial.systemPackage
           output := ← textAt? layers "output" initial.output
           maxDepth := ← match last? layers "max_depth" with
             | none => some initial.maxDepth
             | some setting => setting.toInt?
           verbose := ← match last? layers "verbose" with
             | none => some initial.verbose
             | some setting => setting.toBool? }

end Settings
end RecordQuery
