import RecordQuery.Yaml
import RecordQuery.Text.Rune

/-! The marks and scalars of a document, each with its line and column. Layout is meaning, so
nothing else of it is lost. -/
namespace RecordQuery.Yaml

inductive Sign where
  | dash | colon | comma
  | openList | closeList | openMap | closeMap
  /-- The line `---` before a document. -/
  | divider
  /-- The line `...` after a document. -/
  | ending
  | plain (text : Text)
  | quoted (text : Text)
  deriving DecidableEq, Repr

structure Lexeme where
  sign : Sign
  line : Nat
  column : Nat
  deriving DecidableEq, Repr

private def isBreak (b : UInt8) : Bool := b == 10 || b == 13

private def isSpaceOrTab (b : UInt8) : Bool := b == 32 || b == 9

/-- Whether a mark before this text stands alone. -/
private def standsAlone : Text → Bool
  | [] => true
  | b :: _ => isSpaceOrTab b || isBreak b

private def trimLeft (t : Text) : Text := t.dropWhile isSpaceOrTab

private def trimRight (t : Text) : Text := (trimLeft t.reverse).reverse

/-- The start of the text that belongs to a plain scalar on this line. -/
private def plainStart (nested afterBlank : Bool) : Text → Text
  | [] => []
  | b :: rest =>
    if isBreak b || (b == Text.ascii ':' && standsAlone rest) || (b == Text.ascii '#' && afterBlank) ||
        (nested && (Text.ofString ",?[]\x7b\x7d").contains b) then []
    else b :: plainStart nested (isSpaceOrTab b) rest

/-- What stands before a closing single quote, and what follows; a doubled quote is one quote. -/
private def singleQuoted : Text → Option (Text × Text)
  | [] => none
  | [b] => if b = Text.ascii '\'' then some ([], []) else none
  | b :: c :: rest =>
    if b ≠ Text.ascii '\'' then
      (singleQuoted (c :: rest)).map fun (body, after) => (b :: body, after)
    else if c = Text.ascii '\'' then
      (singleQuoted rest).map fun (body, after) => (b :: body, after)
    else some ([], c :: rest)

/-- What stands before a closing double quote, escapes and all, and what follows. -/
private def doubleQuoted : (escaped : Bool) → Text → Option (Text × Text)
  | _, [] => none
  | escaped, b :: rest =>
    if !escaped && b == Text.ascii '"' then some ([], rest)
    else
      (doubleQuoted (!escaped && b == Text.ascii '\\') rest).map fun (body, after) =>
        (b :: body, after)

/-- A line break in a scalar is a space; further breaks stay. -/
def fold (blankLines : Nat) : Text :=
  if blankLines = 0 then [32] else List.replicate blankLines 10

private def foldLines (blankLines : Nat) : List Text → Text
  | [] => []
  | [last] => fold blankLines ++ trimLeft last
  | line :: more =>
    let words := trimLeft (trimRight line)
    if words.isEmpty then foldLines (blankLines + 1) more
    else fold blankLines ++ words ++ foldLines 0 more

private def joinLines (body : Text) : Text :=
  match body.splitFirst 10 with
  | (_, []) => body
  | (first, more) => trimRight first ++ foldLines 0 (more.map (·.filter (· ≠ 13)))

private def simpleEscape? (b : UInt8) : Option Nat :=
  match Char.ofNat b.toNat with
  | '0' => some 0
  | 'a' => some 7
  | 'b' => some 8
  | 't' | '\t' => some 9
  | 'n' => some 10
  | 'v' => some 11
  | 'f' => some 12
  | 'r' => some 13
  | 'e' => some 27
  | ' ' => some 32
  | '"' => some 34
  | '/' => some 47
  | '\\' => some 92
  | 'N' => some 0x85
  | '_' => some 0xA0
  | 'L' => some 0x2028
  | 'P' => some 0x2029
  | _ => none

private def hexEscape? (b : UInt8) : Option Nat :=
  match Char.ofNat b.toNat with
  | 'x' => some 2
  | 'u' => some 4
  | 'U' => some 8
  | _ => none

private def hexValue? (b : UInt8) : Option Nat :=
  let c := Char.ofNat b.toNat
  if '0' ≤ c ∧ c ≤ '9' then some (c.toNat - 48)
  else if 'a' ≤ c ∧ c ≤ 'f' then some (c.toNat - 87)
  else if 'A' ≤ c ∧ c ≤ 'F' then some (c.toNat - 55)
  else none

/-- Reads the escapes of a double-quoted scalar; `digits` more digits make up `code`. -/
private def unescape (digits code : Nat) : Text → Option Text
  | [] => if digits = 0 then some [] else none
  | b :: rest =>
    match digits with
    | 0 =>
      if b = Text.ascii '\\' then
        match rest with
        | [] => none
        | c :: rest =>
          match simpleEscape? c with
          | some code => (unescape 0 0 rest).map (Text.ofCode code ++ ·)
          | none => (hexEscape? c).bind fun digits => unescape digits 0 rest
      else (unescape 0 0 rest).map (b :: ·)
    | digits + 1 => do
      let code := 16 * code + (← hexValue? b)
      if digits = 0 then
        if code > 0x10FFFF ∨ (0xD800 ≤ code ∧ code ≤ 0xDFFF) then none
        else (unescape 0 0 rest).map (Text.ofCode code ++ ·)
      else unescape digits code rest

structure Cursor where
  line : Nat := 0
  column : Nat := 0
  /-- How many lists and mappings in brackets are open. -/
  nesting : Nat := 0
  /-- Whether only indentation and dashes precede on this line; then it must not hold tabs. -/
  fresh : Bool := true

namespace Cursor

def nextLine (cursor : Cursor) : Cursor := { cursor with line := cursor.line + 1, column := 0, fresh := true }

def move (cursor : Cursor) (count : Nat) : Cursor := { cursor with column := cursor.column + count }

/-- Past a scalar, which may hold line breaks. -/
def pass (cursor : Cursor) (scalar : Text) : Cursor :=
  let breaks := scalar.count 10
  let column :=
    if breaks = 0 then cursor.column + scalar.length else (Text.afterLast 10 scalar).length
  { cursor with line := cursor.line + breaks, column := column, fresh := false }

end Cursor

private def markLine? (cursor : Cursor) (text : Text) : Option Sign :=
  if cursor.column ≠ 0 then none
  else if (text.after? "---").any standsAlone then some .divider
  else if (text.after? "...").any standsAlone then some .ending
  else none

private def bracket? (b : UInt8) : Option (Sign × Bool) :=
  match Char.ofNat b.toNat with
  | '[' => some (.openList, true)
  | '\x7b' => some (.openMap, true)
  | ']' => some (.closeList, false)
  | '\x7d' => some (.closeMap, false)
  | _ => none

/-- No plain scalar starts with one of these. -/
private def isReserved (b : UInt8) : Bool := (Text.ofString ",#&*!|>%@\x60").contains b

private def scan : (fuel : Nat) → Cursor → Text → Option (List Lexeme)
  | _, _, [] => some []
  | 0, _, _ => none
  | fuel + 1, cursor, b :: rest =>
    let here (sign : Sign) : Lexeme := ⟨sign, cursor.line, cursor.column⟩
    let nested := cursor.nesting > 0
    if b = 10 then scan fuel cursor.nextLine rest
    else if b = 13 then
      scan fuel (if rest.head? = some 10 then cursor else cursor.nextLine) rest
    else if b = 32 || (b = 9 && (nested || !cursor.fresh)) then scan fuel (cursor.move 1) rest
    else if b = Text.ascii '#' then scan fuel cursor (rest.dropWhile (!isBreak ·))
    else if let some sign := markLine? cursor (b :: rest) then
      (scan fuel { cursor.move 3 with fresh := false } (rest.drop 2)).map (here sign :: ·)
    else if let some (sign, opens) := bracket? b then
      let nesting := if opens then cursor.nesting + 1 else cursor.nesting - 1
      (scan fuel { cursor.move 1 with nesting := nesting, fresh := false } rest).map (here sign :: ·)
    else if b = Text.ascii ',' && nested then
      (scan fuel (cursor.move 1) rest).map (here .comma :: ·)
    else if b = Text.ascii '-' && standsAlone rest then
      if nested then none else (scan fuel (cursor.move 1) rest).map (here .dash :: ·)
    else if b = Text.ascii ':' && (nested || standsAlone rest) then
      (scan fuel { cursor.move 1 with fresh := false } rest).map (here .colon :: ·)
    else if b = Text.ascii '?' && (nested || standsAlone rest) then none
    else if b = Text.ascii '\'' then do
      let (body, after) ← singleQuoted rest
      let cursor := cursor.pass ((b :: rest).take (rest.length + 1 - after.length))
      (scan fuel cursor after).map (here (.quoted (joinLines body)) :: ·)
    else if b = Text.ascii '"' then do
      let (body, after) ← doubleQuoted false rest
      let text ← unescape 0 0 (joinLines body)
      let cursor := cursor.pass ((b :: rest).take (rest.length + 1 - after.length))
      (scan fuel cursor after).map (here (.quoted text) :: ·)
    else if isReserved b || b = 9 then none
    else
      let body := b :: plainStart nested false rest
      (scan fuel (cursor.pass body) (rest.drop (body.length - 1))).map
        (here (.plain (trimRight body)) :: ·)

/-- Whether a document may hold the character. -/
private def isAllowed : Rune → Bool
  | .stray _ => false
  | .char c =>
    let code := c.toNat
    code = 9 || code = 10 || code = 13 || (0x20 ≤ code && code ≤ 0x7E) || code = 0x85 ||
      (0xA0 ≤ code && code ≠ 0xFFFE && code ≠ 0xFFFF)

/-- The lexemes of a text. -/
def lexemes? (text : Text) : Option (List Lexeme) :=
  let text := (text.after? [0xEF, 0xBB, 0xBF]).getD text
  if text.runes.all isAllowed then scan (text.length + 1) {} text else none

end RecordQuery.Yaml
