import RecordQuery.Text

namespace RecordQuery

/-- From prefixes to their aliases. -/
abbrev Aliases := List (Text × Text)

namespace Aliases

/-- The alias of the queried table. -/
def base : Text := "this"

/-- What follows an alias in the name of the linking table of an association. -/
def linkSuffix : Text := "_link"

/-- The alias that a prefix gets if no other has it. -/
def preferred (path : Text) : Text :=
  let name := path.replace (Text.ascii '.') "_"
  if name = base then name ++ "_" else name

/-- The candidate itself, then with the suffixes 2, 3 and so on. -/
def candidate (name : Text) : Nat → Text
  | 0 => name
  | n + 1 => name ++ "_" ++ Text.ofNat (n + 2)

/-- Neither the alias nor its linking alias is taken. -/
def isFree (taken : List Text) (name : Text) : Bool :=
  !taken.contains name && !taken.contains (name ++ linkSuffix)

/-- The first free candidate from the `n`-th on, if there is one among the next ones; otherwise
the one after them. -/
def reserveFrom (taken : List Text) (name : Text) : (tries n : Nat) → Text
  | 0, n => candidate name n
  | tries + 1, n =>
    if isFree taken (candidate name n) then candidate name n
    else reserveFrom taken name tries (n + 1)

/-- The first free candidate. A taken name rules out two candidates at most. -/
def reserve (taken : List Text) (name : Text) : Text :=
  reserveFrom taken name (2 * taken.length) 0

/-- The taken names after an alias is given: its linking alias is taken along with it. -/
def occupy (taken : List Text) (name : Text) : List Text := name :: (name ++ linkSuffix) :: taken

/-- Gives aliases to prefixes in order. -/
def assignFrom (taken : List Text) : List Text → Aliases
  | [] => []
  | path :: paths =>
    let name := reserve taken (preferred path)
    (path, name) :: assignFrom (occupy taken name) paths

/-- The prefixes of a path that end before a dot, shortest first. -/
def strictPrefixes : Text → List Text
  | [] => []
  | b :: rest =>
    let longer := (strictPrefixes rest).map (b :: ·)
    if b = Text.ascii '.' then [] :: longer else longer

def dots (path : Text) : Nat := path.count (Text.ascii '.')

/-- Parents come before their children, prefixes of one depth in bytewise order. -/
def joinLe (p q : Text) : Bool := dots p < dots q || (dots p == dots q && p.le q)

def joinOrder (paths : List Text) : List Text := paths.mergeSort joinLe

/-- Aliases for a set of prefixes. -/
def assign (paths : List Text) : Aliases := assignFrom [base] (joinOrder paths)

def paths (aliases : Aliases) : List Text := joinOrder (aliases.map (·.1))

def name? (aliases : Aliases) (path : Text) : Option Text := aliases.lookup path

/-- Registers the strict prefixes of a path. If one is new, all aliases are assigned afresh, so
that they do not depend on the order in which paths come. -/
def addPath (aliases : Aliases) (path : Text) : Aliases :=
  let known := aliases.map (·.1)
  let new := (strictPrefixes path).filter (!known.contains ·)
  if new.isEmpty then aliases else assign (known ++ new)

def ofPaths (paths : List Text) : Aliases := paths.foldl addPath []

end Aliases
end RecordQuery
