import RecordQuery.Text

namespace RecordQuery

inductive FileError where
  | missing | isDirectory | notDirectory
  deriving DecidableEq, Repr

/-- The reason as the system words it, with the step that failed. -/
def FileError.message (path : Text) : FileError → Text
  | missing => "open " ++ path ++ ": no such file or directory"
  | isDirectory => "read " ++ path ++ ": is a directory"
  | notDirectory => "open " ++ path ++ ": not a directory"

namespace FileName

def slash : UInt8 := Text.ascii '/'

def isRooted (path : Text) : Bool := path.head? == some slash

/-- Takes back a step for every `..`; of those at the start, a relative path keeps all and a rooted
one none. The steps are in reverse. -/
private def goThrough (rooted : Bool) (steps : List Text) : List Text → List Text
  | [] => steps
  | part :: parts =>
    if part.isEmpty || part == "." then goThrough rooted steps parts
    else if part == ".." then
      match steps with
      | [] => goThrough rooted (if rooted then [] else [part]) parts
      | step :: before =>
        goThrough rooted (if step == ".." then part :: steps else before) parts
    else goThrough rooted (part :: steps) parts

/-- The shortest path that leads to the same place. -/
def clean (path : Text) : Text :=
  let steps := goThrough (isRooted path) [] (path.splitOn slash)
  let body := Text.join "/" steps.reverse
  if isRooted path then slash :: body else if body.isEmpty then "." else body

/-- The directory that a file is in. -/
def directory (path : Text) : Text :=
  match path.beforeLast? slash with
  | none => "."
  | some above => clean (above ++ "/")

/-- A path inside a directory. -/
def join (directory path : Text) : Text := clean (directory ++ "/" ++ path)

end FileName

/-- Files by their paths from the working directory. -/
structure Files where
  entries : List (Text × Text)

namespace Files

def isDirectory (files : Files) (path : Text) : Bool :=
  files.entries.any fun (name, _) => (name.after? (path ++ "/")).isSome

/-- Goes down from a directory, whose path is given by its steps. -/
private def descend (files : Files) (above : List Text) : List Text → Except FileError Text
  | [] => .error .isDirectory
  | part :: parts =>
    if part.isEmpty || part == "." then descend files above parts
    else if part == ".." then
      if above.isEmpty then .error .missing else descend files above.dropLast parts
    else
      let path := Text.join "/" (above ++ [part])
      match files.entries.lookup path with
      | some content => if parts.isEmpty then .ok content else .error .notDirectory
      | none =>
        if files.isDirectory path then descend files (above ++ [part]) parts
        else .error .missing

/-- The content of a file. -/
def read (files : Files) (path : Text) : Except FileError Text :=
  if path.isEmpty || FileName.isRooted path then .error .missing
  else files.descend [] (path.splitOn FileName.slash)

/-- Whether there is a file or a directory. -/
def contains (files : Files) (path : Text) : Bool :=
  match files.read path with
  | .ok _ | .error .isDirectory => true
  | .error _ => false

end Files
end RecordQuery
