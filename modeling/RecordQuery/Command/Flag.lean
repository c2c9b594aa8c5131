import RecordQuery.Settings.Layers

namespace RecordQuery.Command

inductive FlagKind where
  | text | number
  /-- On without a value. -/
  | switch
  deriving DecidableEq, Repr

structure Flag where
  name : Text
  letter : Option Char := none
  kind : FlagKind := .text

namespace Flag

/-- The flags that every command has. -/
def shared : List Flag :=
  [⟨"config", none, .text⟩, ⟨"schema", some 's', .text⟩, ⟨"base-package", none, .text⟩,
    ⟨"system-package", none, .text⟩, ⟨"max-depth", none, .number⟩, ⟨"output", some 'o', .text⟩,
    ⟨"verbose", some 'v', .switch⟩]

def help : Flag := ⟨"help", some 'h', .switch⟩

def version : Flag := ⟨"version", none, .switch⟩

def named? (flags : List Flag) (name : Text) : Option Flag := flags.find? (·.name == name)

def lettered? (flags : List Flag) (letter : UInt8) : Option Flag :=
  flags.find? fun flag => flag.letter.map Text.ascii == some letter

/-- A value as the flag takes it. -/
def setting? (flag : Flag) (value : Text) : Option Setting :=
  match flag.kind with
  | .text => some (.text value)
  | .number => (Integer.parse? value).map .int
  | .switch => (Sql.truth? value).map .bool

end Flag

/-- The flags given, by name and in order, and the other arguments. -/
structure Arguments where
  flags : List (Text × Setting) := []
  words : List Text := []

/-- What one argument is. -/
inductive Piece where
  | word
  /-- The mark after which there are no flags. -/
  | mark
  /-- Flags with their settings, and perhaps one that waits for the next argument. -/
  | flags (given : List (Text × Setting)) (waiting : Option Flag)

namespace Piece

private def ofFlag? (flag : Flag) (value : Text) : Option Piece :=
  (flag.setting? value).map fun setting => .flags [(flag.name, setting)] none

/-- A flag without value. -/
private def ofBare (flag : Flag) : Piece :=
  if flag.kind = .switch then .flags [(flag.name, .bool true)] none else .flags [] (some flag)

private def isEqual (b : UInt8) : Bool := b == Text.ascii '='

/-- A name after two dashes, perhaps with `=` and a value. -/
private def ofName? (flags : List Flag) (body : Text) : Option Piece := do
  if body.head?.any fun b => isEqual b || b == Text.ascii '-' then none
  let flag ← Flag.named? flags (body.takeWhile (!isEqual ·))
  match body.dropWhile (!isEqual ·) with
  | [] => return ofBare flag
  | _ :: value => ofFlag? flag value

private def after (flag : Flag) : Piece → Piece
  | .flags given waiting => .flags ((flag.name, .bool true) :: given) waiting
  | other => other

/-- Letters after one dash: switches, and perhaps a flag with its value behind it. -/
private def ofLetters? (flags : List Flag) : Text → Option Piece
  | [] => some (.flags [] none)
  | letter :: rest =>
    match Flag.lettered? flags letter with
    | none => none
    | some flag =>
      if rest.head?.any isEqual && 1 < rest.length then ofFlag? flag rest.tail
      else if flag.kind = .switch then (ofLetters? flags rest).map (after flag)
      else if rest.isEmpty then some (ofBare flag)
      else ofFlag? flag rest

/-- What a test runner passes to the program it runs; such an argument counts for nothing. -/
private def isForeign (body : Text) : Bool := (body.after? "test.").isSome

def ofArgument? (flags : List Flag) (argument : Text) : Option Piece :=
  match argument.after? "--" with
  | some [] => some mark
  | some body => ofName? flags body
  | none =>
    match argument.after? "-" with
    | none | some [] => some word
    | some body => if isForeign body then some (.flags [] none) else ofLetters? flags body

end Piece

namespace Arguments

/-- The value that counts is the last one. -/
def flag? (arguments : Arguments) (name : Text) : Option Setting :=
  arguments.flags.reverse.lookup name

def isOn (arguments : Arguments) (flag : Flag) : Bool :=
  arguments.flag? flag.name == some (.bool true)

/-- Puts flags before the others. -/
private def withFlags (given : List (Text × Setting)) (others : Arguments) : Arguments :=
  { others with flags := given ++ others.flags }

private def withWord (word : Text) (others : Arguments) : Arguments :=
  { others with words := word :: others.words }

/-- Reads the arguments, if every flag among them is known and has a fitting value. -/
def parse? (flags : List Flag) : List Text → Option Arguments
  | [] => some {}
  | argument :: rest =>
    match Piece.ofArgument? flags argument with
    | none => none
    | some .word => (parse? flags rest).map (withWord argument)
    | some .mark => some { words := rest }
    | some (.flags given none) => (parse? flags rest).map (withFlags given)
    | some (.flags given (some flag)) =>
      match rest with
      | [] => none
      | value :: others => do
        let setting ← flag.setting? value
        return withFlags (given ++ [(flag.name, setting)]) (← parse? flags others)

end Arguments
end RecordQuery.Command
