import RecordQuery.Command.Flag

namespace RecordQuery.Command

inductive Verb where
  | compile | decode | schema | version
  deriving DecidableEq, Repr

def Verb.ofName? (name : Text) : Option Verb :=
  [((("compile" : Text)), Verb.compile), ("decode", .decode), ("schema", .schema),
    ("version", .version)].lookup name

inductive Invocation where
  | run (verb : Verb) (arguments : Arguments)
  /-- The name and version of the tool. -/
  | showVersion
  | showHelp
  /-- Completions for the last of these arguments. -/
  | complete (arguments : List Text)

namespace Invocation

/-- Whether the argument after this one is taken for its value while a command is sought. -/
private def takesNext (argument : Text) : Bool :=
  if argument.contains (Text.ascii '=') then false
  else
    match argument.after? "--" with
    | some name => !(Flag.named? Flag.shared name).any (·.kind == .switch)
    | none =>
      match argument with
      | [dash, letter] =>
        dash == Text.ascii '-' && !(Flag.lettered? Flag.shared letter).any (·.kind == .switch)
      | _ => false

private def isPlainWord (argument : Text) : Bool :=
  argument.head?.any (· != Text.ascii '-')

/-- The arguments that are neither flags nor their values. -/
def plainWords : List Text → List Text
  | [] => []
  | argument :: rest =>
    if argument == "--" then []
    else if takesNext argument then
      match rest with
      | [] | [_] => []
      | _ :: others => plainWords others
    else if isPlainWord argument then argument :: plainWords rest
    else plainWords rest

/-- The arguments without the word that names the command. -/
def without (word : Text) : List Text → List Text
  | [] => []
  | argument :: rest =>
    if argument == "--" then argument :: rest
    else if takesNext argument then
      match rest with
      | [] => [argument]
      | value :: others => argument :: value :: without word others
    else if argument == word then rest
    else argument :: without word rest

def completeNames : List Text := ["__complete", "__completeNoDesc"]

def helpNames : List Text := ["help", "completion"]

/-- The version belongs to the tool as a whole, so its flag stands without a command. -/
private def ofTool? (arguments : List Text) : Option Invocation := do
  let parsed ← Arguments.parse? (Flag.help :: Flag.version :: Flag.shared) arguments
  if !parsed.isOn .help && parsed.isOn .version then return .showVersion
  return .showHelp

private def ofVerb? (verb : Verb) (arguments : List Text) : Option Invocation := do
  let parsed ← Arguments.parse? (Flag.help :: Flag.shared) arguments
  if parsed.isOn .help then return .showHelp
  if verb = .decode ∧ 1 < parsed.words.length then none
  return .run verb parsed

/-- What the arguments ask for, if they are well formed. -/
def ofArguments? (arguments : List Text) : Option Invocation :=
  match plainWords arguments with
  | [] => ofTool? arguments
  | word :: _ =>
    match Verb.ofName? word with
    | some verb => ofVerb? verb (without word arguments)
    | none =>
      if completeNames.contains word then
        let others := without word arguments
        if others.isEmpty then none else some (.complete others)
      else if helpNames.contains word then some .showHelp
      else none

private def isFlag (argument : Text) : Bool :=
  match argument with
  | a :: b :: rest => a == Text.ascii '-' && (b != Text.ascii '-' || !rest.isEmpty)
  | _ => false

/-- The name or the last letter of a flag argument. -/
private def flagName (argument : Text) : Text :=
  match argument.after? "--" with
  | some name => name
  | none => argument.drop (argument.length - 1)

/-- Whether the last argument is the value of the flag for the output. -/
def completesOutput (arguments : List Text) : Bool :=
  let isMark (b : UInt8) : Bool := b == Text.ascii '='
  let names : List Text := ["output", "o"]
  match arguments.reverse with
  | [] => false
  | last :: before =>
    if last.head? == some (Text.ascii '-') then
      last.any isMark && names.contains (flagName (last.takeWhile (!isMark ·)))
    else
      match before with
      | [] => false
      | previous :: _ =>
        isFlag previous && !previous.any isMark && names.contains (flagName previous)

end Invocation
end RecordQuery.Command
