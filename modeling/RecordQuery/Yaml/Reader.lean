import RecordQuery.Yaml.Lexeme

/-! Documents out of lexemes. Columns decide what belongs together, except in brackets. -/
namespace RecordQuery.Yaml

private def text? : Sign → Option (Text × Bool)
  | .plain text => some (text, true)
  | .quoted text => some (text, false)
  | _ => none

/-- Whether the next lexeme is a colon on the given line. -/
private def colonOn (line : Nat) : List Lexeme → Bool
  | next :: _ => next.sign == .colon && next.line == line
  | [] => false

/-- The further lines of a plain scalar, which stand at `least` or right of it. -/
private def moreLines (least line : Nat) : List Lexeme → Text × List Lexeme
  | [] => ([], [])
  | next :: rest =>
    match next.sign with
    | .plain text =>
      if next.line > line && next.column ≥ least && !colonOn next.line rest then
        let (more, after) := moreLines least next.line rest
        (fold (next.line - line - 1) ++ text ++ more, after)
      else ([], next :: rest)
    | _ => ([], next :: rest)

private def scalarAt (least : Nat) (first : Lexeme) (rest : List Lexeme) :
    Option (Yaml × List Lexeme) :=
  match first.sign with
  | .plain text =>
    let (more, after) := moreLines least first.line rest
    some (.scalar (text ++ more) true, after)
  | .quoted text => some (.scalar text false, rest)
  | _ => none

mutual

/-- A value in brackets, or a scalar among them. -/
private def flow : (fuel : Nat) → List Lexeme → Option (Yaml × List Lexeme)
  | 0, _ | _, [] => none
  | fuel + 1, first :: rest =>
    match first.sign with
    | .openList => (flowItems fuel rest).map fun (items, after) => (.list items, after)
    | .openMap => (flowEntries fuel rest).map fun (entries, after) => (.map entries, after)
    | _ => scalarAt 0 first rest

private def flowItems : (fuel : Nat) → List Lexeme → Option (List Yaml × List Lexeme)
  | 0, _ | _, [] => none
  | fuel + 1, first :: rest => do
    if first.sign = .closeList then return ([], rest)
    let (item, rest) ← flow fuel (first :: rest)
    let (item, rest) ← match item, rest with
      | .scalar key _, next :: rest' =>
        if next.sign = .colon then do
          let (value, rest) ← flowValue fuel rest'
          pure (.map [(key, value)], rest)
        else pure (item, rest)
      | _, _ => pure (item, rest)
    match rest with
    | [] => none
    | next :: rest =>
      if next.sign = .closeList then return ([item], rest)
      else if next.sign = .comma then
        let (items, rest) ← flowItems fuel rest
        return (item :: items, rest)
      else none

private def flowEntries : (fuel : Nat) → List Lexeme → Option (List (Text × Yaml) × List Lexeme)
  | 0, _ | _, [] => none
  | fuel + 1, first :: rest => do
    if first.sign = .closeMap then return ([], rest)
    let (key, _) ← text? first.sign
    let (value, rest) ← match rest with
      | next :: rest' => if next.sign = .colon then flowValue fuel rest' else pure (nothing, rest)
      | [] => none
    match rest with
    | [] => none
    | next :: rest =>
      if next.sign = .closeMap then return ([(key, value)], rest)
      else if next.sign = .comma then
        let (entries, rest) ← flowEntries fuel rest
        return ((key, value) :: entries, rest)
      else none

/-- The value after a colon in brackets. -/
private def flowValue : (fuel : Nat) → List Lexeme → Option (Yaml × List Lexeme)
  | 0, _ | _, [] => none
  | fuel + 1, first :: rest =>
    if [.comma, .closeMap, .closeList].contains first.sign then some (nothing, first :: rest)
    else flow fuel (first :: rest)

end

private def opensBracket (first : Lexeme) : Bool :=
  first.sign = .openList || first.sign = .openMap

/-- Nothing after a value may stand right of the entries it belongs to. -/
private def guardColumn (column : Nat) (rest : List Lexeme) : Option Unit :=
  if (rest.head?.map (·.column)).any (· > column) then none else some ()

mutual

/-- The value that starts here; the lines of a plain scalar stand at `least` or right of it. -/
private def block : (fuel least : Nat) → List Lexeme → Option (Yaml × List Lexeme)
  | 0, _, _ | _, _, [] => none
  | fuel + 1, least, first :: rest =>
    if first.sign = .dash then
      (items fuel first.column (first :: rest)).map fun (items, after) => (.list items, after)
    else if opensBracket first then flow (2 * rest.length + 2) (first :: rest)
    else if colonOn first.line rest then
      (entries fuel first.column (first :: rest)).map fun (entries, after) => (.map entries, after)
    else scalarAt least first rest

/-- The items whose dashes stand in this column. -/
private def items : (fuel column : Nat) → List Lexeme → Option (List Yaml × List Lexeme)
  | _, _, [] => some ([], [])
  | 0, _, _ => none
  | fuel + 1, column, first :: rest =>
    if first.sign = .dash && first.column = column then do
      let (item, rest) ← match rest with
        | next :: _ =>
          if next.column > column then block fuel (column + 1) rest else pure (nothing, rest)
        | [] => pure (nothing, [])
      guardColumn column rest
      let (more, rest) ← items fuel column rest
      return (item :: more, rest)
    else some ([], first :: rest)

/-- The entries whose keys stand in this column. -/
private def entries : (fuel column : Nat) → List Lexeme → Option (List (Text × Yaml) × List Lexeme)
  | _, _, [] => some ([], [])
  | 0, _, _ => none
  | fuel + 1, column, first :: rest =>
    if first.column < column then some ([], first :: rest)
    else do
      let (key, _) ← text? first.sign
      if !colonOn first.line rest then none
      let rest := rest.drop 1
      let (value, rest) ← match rest with
        | next :: after =>
          if next.line = first.line then
            if opensBracket next then flow (2 * after.length + 2) rest
            else if colonOn next.line after then none
            else scalarAt (column + 1) next after
          else if next.column > column then block fuel (column + 1) rest
          else if next.sign = .dash && next.column = column then
            (items fuel column rest).map fun (items, after) => (.list items, after)
          else pure (nothing, rest)
        | [] => pure (nothing, [])
      guardColumn column rest
      let (more, rest) ← entries fuel column rest
      return ((key, value) :: more, rest)

end

private def isDocumentMark (lexeme : Lexeme) : Bool :=
  lexeme.sign = .divider || lexeme.sign = .ending

/-- The lexemes of the first document. -/
private def firstDocument : List Lexeme → List Lexeme
  | [] => []
  | first :: rest =>
    (if first.sign = .divider then rest else first :: rest).takeWhile (!isDocumentMark ·)

/-- The first document of a text; an empty text holds nothing. -/
def read? (text : Text) : Option Yaml := do
  let document := firstDocument (← lexemes? text)
  if document.isEmpty then return nothing
  let (value, rest) ← block (2 * document.length + 2) 0 document
  if rest.isEmpty then return value else none

end RecordQuery.Yaml
