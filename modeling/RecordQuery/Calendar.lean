import RecordQuery.Text

namespace RecordQuery.Calendar

def isLeap (year : Nat) : Bool := year % 4 == 0 && (year % 100 != 0 || year % 400 == 0)

def daysIn (year month : Nat) : Nat :=
  match month with
  | 2 => if isLeap year then 29 else 28
  | 4 | 6 | 9 | 11 => 30
  | _ => 31

/-- Exactly so many digits, and the text after them. -/
def digits? (count : Nat) (t : Text) : Option (Nat × Text) :=
  let digits := t.take count
  if digits.length = count ∧ digits.all Text.isDigit then
    some (Text.digitsValue digits, t.drop count)
  else none

/-- A number below the bound in exactly two digits. -/
def two? (bound : Nat) (t : Text) : Option Text :=
  (digits? 2 t).bind fun (n, rest) => if n < bound then some rest else none

/-- What follows a date of the calendar, written `YYYY-MM-DD`. -/
def afterDate? (t : Text) : Option Text := do
  let (year, t) ← digits? 4 t
  let t ← t.after? "-"
  let (month, t) ← digits? 2 t
  let t ← t.after? "-"
  let (day, t) ← digits? 2 t
  if 1 ≤ month ∧ month ≤ 12 ∧ 1 ≤ day ∧ day ≤ daysIn year month then some t else none

/-- What follows an hour of one or two digits. -/
def afterHour? (t : Text) : Option Text :=
  match digits? 2 t with
  | some (hour, rest) => if hour < 24 then some rest else none
  | none => (digits? 1 t).map (·.2)

/-- What follows a fraction of a second; a mark without digits is no fraction. -/
def afterFraction : Text → Text
  | [] => []
  | mark :: t =>
    if (mark = Text.ascii '.' ∨ mark = Text.ascii ',') ∧ t.head?.any Text.isDigit then
      t.dropWhile Text.isDigit
    else mark :: t

/-- What follows a time of day. -/
def afterTime? (t : Text) : Option Text := do
  let t ← afterHour? t
  let t ← two? 60 (← t.after? ":")
  let t ← two? 60 (← t.after? ":")
  return afterFraction t

/-- What follows a zone: `Z`, or a sign, hours and minutes. Full days and hours pass. -/
def afterZone? : Text → Option Text
  | [] => none
  | b :: t =>
    if b = Text.ascii 'Z' then some t
    else if b = Text.ascii '+' ∨ b = Text.ascii '-' then do
      two? 61 (← (← two? 25 t).after? ":")
    else none

def isDate (t : Text) : Bool := afterDate? t == some []

/-- What follows one space or more. -/
def afterSpaces? (t : Text) : Option Text :=
  (t.after? " ").map (·.dropWhile (· == Text.ascii ' '))

/-- A date, or a date and a time, with a zone only after the letter `T`. -/
def isDateTime (t : Text) : Bool :=
  isDate t ||
    (((afterDate? t).bind (·.after? "T")).bind afterTime?).any
      (fun rest => rest.isEmpty || afterZone? rest == some []) ||
    ((afterDate? t).bind afterSpaces?).bind afterTime? == some []

/-- A number of one or two digits, and the text after it. -/
def short? (t : Text) : Option (Nat × Text) := digits? 2 t <|> digits? 1 t

/-- What follows a short number below the bound. -/
def below? (bound : Nat) (t : Text) : Option Text :=
  (short? t).bind fun (n, rest) => if n < bound then some rest else none

/-- What follows a date whose month and day may have one digit. -/
def afterLooseDate? (t : Text) : Option Text := do
  let (year, t) ← digits? 4 t
  let (month, t) ← short? (← t.after? "-")
  let (day, t) ← short? (← t.after? "-")
  if 1 ≤ month ∧ month ≤ 12 ∧ 1 ≤ day ∧ day ≤ daysIn year month then some t else none

/-- What follows a time of day whose parts may have one digit. -/
def afterLooseTime? (t : Text) : Option Text := do
  let t ← below? 24 t
  let t ← below? 60 (← t.after? ":")
  let t ← below? 60 (← t.after? ":")
  return afterFraction t

/-- A moment as a plain scalar of a document: a date, perhaps with a time of day, which after the
letter `T` needs a zone. -/
def isTimestamp (t : Text) : Bool :=
  match afterLooseDate? t with
  | none => false
  | some rest =>
    rest.isEmpty ||
      (((rest.after? "T" <|> rest.after? "t").bind afterLooseTime?).bind afterZone?) == some [] ||
      (afterSpaces? rest).bind afterLooseTime? == some []

end RecordQuery.Calendar
