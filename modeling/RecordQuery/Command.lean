import RecordQuery.Command.Failure
import RecordQuery.Command.Invocation
import RecordQuery.Command.Report
import RecordQuery.Document.Decode
import RecordQuery.Document.Write
import RecordQuery.Log
import RecordQuery.Query
import RecordQuery.Schema.Catalog
import RecordQuery.Sql.Trail
import RecordQuery.Text.Blank

namespace RecordQuery.Command

/-- What the tool asks of the machine. -/
structure Host (m : Type → Type) where
  read : Text → m (Except FileError Text)
  isPresent : Text → m Bool
  environment : m (List (Text × Text))
  input : m Text

/-- A machine that holds nothing but files, an environment and standard input. -/
def Host.ofFiles (files : Files) (environment : List (Text × Text)) (input : Text) : Host Id where
  read path := files.read path
  isPresent path := files.contains path
  environment := environment
  input := input

structure Outcome where
  output : Text
  failure : Option Failure
  log : List Text

/-- Work that writes lines to a log, which stay if it fails. -/
abbrev Job (m : Type → Type) := ExceptT Failure (StateT (List Text) m)

section
variable {m : Type → Type} [Monad m]

private def ask {α : Type} (question : m α) : Job m α :=
  ExceptT.lift (StateT.lift question)

private def orFail {ε α : Type} (failure : ε → Failure) : Except ε α → Job m α
  | .ok value => pure value
  | .error error => throw (failure error)

private def note (settings : Settings) (message : Text) (attributes : List (Text × Text)) :
    Job m Unit :=
  if settings.verbose then modify (· ++ [Log.debug message attributes]) else pure ()

def settingsNames : List Text := ["dalc.yaml", "dalc.yml"]

private def firstPresent (host : Host m) : List Text → m (Option Text)
  | [] => pure none
  | name :: names => do if ← host.isPresent name then return some name else firstPresent host names

/-- The file with the settings: the one that is named, or the first of the usual ones. -/
def settingsFile (host : Host m) (arguments : Arguments) : m (Option Text) :=
  match arguments.flag? "config" with
  | some (.text path) => if path.isEmpty then firstPresent host settingsNames else pure (some path)
  | _ => firstPresent host settingsNames

/-- The flags as settings. -/
def flagLayer (arguments : Arguments) : Layer :=
  (arguments.flags.filter fun (name, _) => name != "config").map fun (name, value) =>
    (Text.replace name (Text.ascii '-') "_", value)

/-- A relative path of the schema starts at the file that names it. -/
def placeSchema (settings : Settings) (file : Option Text) (overridden : Bool) : Settings :=
  match file with
  | none => settings
  | some path =>
    if settings.schema.isEmpty || FileName.isRooted settings.schema || overridden then settings
    else { settings with schema := FileName.join (FileName.directory path) settings.schema }

def loadSettings (host : Host m) (arguments : Arguments) : Job m Settings := do
  let file ← ask (settingsFile host arguments)
  let fromFile : Layer ← match file with
    | none => pure []
    | some path => do
      let content ← orFail (fun _ => .settingsFile) (← ask (host.read path))
      match Layer.ofFile? content with
      | some layer => pure layer
      | none => throw .settingsFile
  let environment ← ask host.environment
  match Settings.ofLayers? [fromFile, .ofEnvironment environment, flagLayer arguments] with
  | none => throw .settingsForm
  | some settings =>
    let overridden := (arguments.flag? "schema").isSome ||
      (environment.lookup (Layer.variablePrefix ++ "SCHEMA")).isSome
    let settings := placeSchema settings file overridden
    orFail .settings settings.check
    match file with
    | some path => note settings "using config file" [("path", path)]
    | none => pure ()
    return settings

def loadSchema (host : Host m) (settings : Settings) : Job m Schema := do
  let path := settings.schema
  if path.isEmpty then throw .noSchema
  let content ← match ← ask (host.read path) with
    | .ok content => pure content
    | .error .isDirectory => throw (.schema path .undecodable)
    | .error error => throw (.schemaFile path error)
  let schema ← orFail (.schema path) (Declarations.load content)
  note settings "schema loaded" [("path", path), ("types", Text.ofNat schema.types.length)]
  return schema

def packages (settings : Settings) : Packages := ⟨settings.basePackage, settings.systemPackage⟩

/-- The statement of a query. -/
private def render (settings : Settings) (schema : Schema) (number : Option Nat)
    (criteria : Criteria) : Job m Compiled := do
  let renderer : Sql.Renderer := { schema }
  if settings.verbose then
    (renderer.trail criteria).forM fun rendered =>
      note settings "rendered criteria" [("type", rendered.type.name),
        ("joins", Text.ofNat (renderer.joinCount rendered)),
        ("subquery", if rendered.isSubquery then ("true" : Text) else ("false" : Text))]
  return ⟨criteria, ← orFail (.rendering number) (renderer.render criteria)⟩

private def document (settings : Settings) (schema : Schema) (result : Compiled) :
    Job m Document := do
  let document ← orFail .encoding (schema.encode result.criteria)
  note settings "encoded criteria" [("type", result.criteria.type.name),
    ("restrictions", Text.ofNat document.restrictions.length)]
  return document

/-- One document stands alone, several in a list. -/
def documentsText : List Document → Text
  | [document] => document.write
  | documents => (Json.array (documents.map Document.toJson)).indentedText

private def lines (parts : List Text) : Text := parts.flatMap (· ++ [10])

private def print (settings : Settings) (schema : Schema) (results : List Compiled) :
    Job m Text :=
  match OutputFormat.ofName? settings.output with
  | some .json => do return lines [documentsText (← results.mapM (document settings schema))]
  | some .dal => pure (lines (results.map (·.criteria.text)))
  | some .table => pure (queryTable results)
  | _ => pure (lines (results.map (·.sql)))

/-- From this length on a line is too long. -/
def lineLimit : Nat := 65536

/-- The queries of a text, one on a line. Blank lines and those that start with `--` are none. -/
def queriesOf (text : Text) : Except Failure (List Text) :=
  let all := text.splitOn 10
  if all.any (lineLimit ≤ ·.length) then .error .longLine
  else .ok ((all.map (·.trim)).filter fun line => !line.isEmpty && (line.after? "--").isNone)

private def compileQuery (settings : Settings) (compiler : Compiler) (number : Nat) (query : Text) :
    Job m Compiled := do
  let criteria ← orFail (.query number) (compiler.compile query)
  note settings "compiled DAL query" [("type", criteria.type.name),
    ("properties", Text.ofNat criteria.properties.length),
    ("aggregates", Text.ofNat criteria.aggregates.length),
    ("joins", Text.ofNat criteria.aliases.length)]
  render settings compiler.schema (some number) criteria

def compile (host : Host m) (settings : Settings) (words : List Text) : Job m Text := do
  let schema ← loadSchema host settings
  let queries ← if words.isEmpty then do orFail id (queriesOf (← ask host.input)) else pure words
  if queries.isEmpty then throw .noQueries
  let compiler : Compiler :=
    { schema, packages := packages settings, maxDepth := Compiler.depthOf settings.maxDepth }
  let results ← queries.zipIdx.mapM fun (query, i) => compileQuery settings compiler (i + 1) query
  print settings schema results

def decode (host : Host m) (settings : Settings) (words : List Text) : Job m Text := do
  let schema ← loadSchema host settings
  let path := words.head?.getD "-"
  let content ← if path == "-" then ask host.input
    else do orFail (.documentFile path) (← ask (host.read path))
  let document ← orFail .documentForm (Document.read content)
  let decoder : Decoder :=
    { schema, packages := packages settings, maxDepth := Compiler.depthOf settings.maxDepth }
  let criteria ← orFail .document (decoder.decode document)
  note settings "decoded JCR document" [("type", criteria.type.name),
    ("properties", Text.ofNat criteria.properties.length),
    ("aggregates", Text.ofNat criteria.aggregates.length)]
  print settings schema [← render settings schema none criteria]

def listTypes (host : Host m) (settings : Settings) (words : List Text) : Job m Text := do
  let schema ← loadSchema host settings
  if words.isEmpty then return schemaTable schema.sorted
  let types ← words.mapM fun name =>
    match schema.resolve? (packages settings) name with
    | some type => pure type
    | none => throw (.unknownType ⟨.unknownType name, []⟩)
  return schemaTable types

def versionNumber : Text := "0.1.0"

def runVerb (host : Host m) (verb : Verb) (arguments : Arguments) : Job m Text := do
  let settings ← loadSettings host arguments
  match verb with
  | .compile => compile host settings arguments.words
  | .decode => decode host settings arguments.words
  | .schema => listTypes host settings arguments.words
  | .version => return lines ["dalc v" ++ versionNumber, "built unknown from commit unknown"]

/-- Completions, and a number that tells the shell whether file names may be added. -/
def complete (arguments : List Text) : Job m Text := do
  let (words, code, name) : List Text × Text × Text :=
    if Invocation.completesOutput arguments then
      (OutputFormat.all.map (·.name), ":4", "ShellCompDirectiveNoFileComp")
    else ([], ":0", "ShellCompDirectiveDefault")
  modify (· ++ ["Completion ended with directive: " ++ name])
  return lines (words ++ [code])

def perform (host : Host m) (arguments : List Text) : Job m Text :=
  match Invocation.ofArguments? arguments with
  | none => throw .usage
  | some (.run verb parsed) => runVerb host verb parsed
  | some .showVersion => pure (lines ["dalc " ++ versionNumber])
  | some .showHelp => pure []
  | some (.complete words) => complete words

/-- Runs the tool. -/
def run (host : Host m) (arguments : List Text) : m Outcome := do
  let (result, log) ← (perform host arguments).run.run []
  match result with
  | .ok output => return ⟨output, none, log⟩
  | .error failure => return ⟨[], some failure, log⟩

end
end RecordQuery.Command
