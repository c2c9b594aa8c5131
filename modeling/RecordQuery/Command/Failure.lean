import RecordQuery.Document.Encode
import RecordQuery.Document.Read
import RecordQuery.Files
import RecordQuery.Schema.Declarations
import RecordQuery.Settings
import RecordQuery.Sql.Literals

namespace RecordQuery.Command

/-- Why a command ends early. Queries of the command line are numbered. -/
inductive Failure where
  /-- The arguments ask for nothing the tool does. -/
  | usage
  | settingsFile
  | settingsForm
  | settings (error : SettingsError)
  | noSchema
  | schemaFile (path : Text) (error : FileError)
  | schema (path : Text) (error : LoadError)
  | unknownType (error : SchemaError)
  | longLine
  | noQueries
  | query (number : Nat) (error : QueryError)
  | rendering (number : Option Nat) (error : Sql.RenderError)
  | documentFile (path : Text) (error : FileError)
  | documentForm (error : ReadError)
  | document (error : QueryError)
  | encoding (error : EncodeError)

namespace Failure

/-- What stands before the message of a numbered query. -/
def label : Option Nat → Text
  | some number => "query " ++ Text.ofNat number ++ ": "
  | none => []

def message : Failure → Text
  | usage => "invalid usage"
  | settingsFile => "error reading config file"
  | settingsForm => "unable to decode config"
  | settings error => "invalid configuration: " ++ error.message
  | noSchema => "no schema configured: pass --schema or set schema in dalc.yaml"
  | schemaFile path error =>
    "failed to load schema " ++ path ++ ": failed to open schema file: " ++ error.message path
  | schema path error => "failed to load schema " ++ path ++ ": " ++ error.message
  | unknownType error => error.message
  | longLine => "failed to read queries: bufio.Scanner: token too long"
  | noQueries => "no queries given"
  | query number error => label (some number) ++ error.message
  | rendering number error => label number ++ error.message
  | documentFile path error => "failed to read " ++ path ++ ": " ++ error.message path
  | documentForm error => error.message
  | document error => error.message
  | encoding error => error.message

end Failure
end RecordQuery.Command
