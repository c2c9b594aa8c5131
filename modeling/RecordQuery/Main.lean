import RecordQuery.Command

namespace RecordQuery.Command

private def nameOf (path : Text) : String := (String.fromUTF8? ⟨path.toArray⟩).getD ""

private def readFile (path : Text) : IO (Except FileError Text) := do
  try
    let content ← IO.FS.readBinFile (nameOf path)
    return .ok content.toList
  catch
    | .noFileOrDirectory .. => return .error .missing
    | .inappropriateType .. => return .error .isDirectory
    | _ => return .error .notDirectory

private def settingKeys : List String :=
  ["SCHEMA", "BASE_PACKAGE", "SYSTEM_PACKAGE", "MAX_DEPTH", "OUTPUT", "VERBOSE"]

private def readVariables : IO (List (Text × Text)) :=
  settingKeys.filterMapM fun key => do
    let name := "DALC_" ++ key
    return (← IO.getEnv name).map fun value => (Text.ofString name, Text.ofString value)

private partial def readAll (stream : IO.FS.Stream) (before : ByteArray) : IO ByteArray := do
  let part ← stream.read 65536
  if part.isEmpty then return before else readAll stream (before ++ part)

def Host.machine : Host IO where
  read := readFile
  isPresent path := do
    match ← readFile path with
    | .ok _ | .error .isDirectory => return true
    | .error _ => return false
  environment := readVariables
  input := do return (← readAll (← IO.getStdin) .empty).toList

end RecordQuery.Command

open RecordQuery in
def main (arguments : List String) : IO UInt32 := do
  let outcome ← Command.run Command.Host.machine (arguments.map Text.ofString)
  let put (stream : IO.FS.Stream) (t : Text) : IO Unit := stream.write ⟨t.toArray⟩
  let errors ← IO.getStderr
  outcome.log.forM fun line => put errors (line ++ [10])
  put (← IO.getStdout) outcome.output
  match outcome.failure with
  | none => return 0
  | some failure =>
    put errors (Text.ofString "Error: " ++ failure.message ++ [10])
    return 1
