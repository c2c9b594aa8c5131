import RecordQuery.Schema
import RecordQuery.Text.Quoted

namespace RecordQuery

/-- The settings of the command line tool. -/
structure Settings where
  /-- The file that declares the types. -/
  schema : Text := []
  basePackage : Text := []
  systemPackage : Text := Packages.defaultSystem
  maxDepth : Int := 32
  output : Text := "sql"
  verbose : Bool := false
  deriving DecidableEq, Repr

/-- What is printed of a query. -/
inductive OutputFormat where
  | sql | json | dal | table
  deriving DecidableEq, Repr

namespace OutputFormat

def name : OutputFormat → Text
  | sql => "sql"
  | json => "json"
  | dal => "dal"
  | table => "table"

def all : List OutputFormat := [sql, json, dal, table]

def ofName? (t : Text) : Option OutputFormat := all.find? (·.name == t)

end OutputFormat

inductive SettingsError where
  | unknownOutput (name : Text)
  | depth (value : Int)
  deriving DecidableEq, Repr

def SettingsError.message : SettingsError → Text
  | unknownOutput name =>
    "unknown output format " ++ name.quoted ++ " (expected one of [" ++
      Text.join " " (OutputFormat.all.map (·.name)) ++ "])"
  | depth value => "max_depth must be positive, got " ++ Text.ofInt value

/-- What the types of the settings do not say. -/
def Settings.check (settings : Settings) : Except SettingsError Unit :=
  if (OutputFormat.ofName? settings.output).isNone then .error (.unknownOutput settings.output)
  else if settings.maxDepth ≤ 0 then .error (.depth settings.maxDepth)
  else .ok ()

end RecordQuery
