import RecordQuery.Proofs.Lexing.Literal
import RecordQuery.Sql.Print

/-! How the text of a statement falls into words, marks and quoted parts. A text that was taken apart
can be put together again, and texts that stand side by side are taken apart one by one if a mark is
between them. -/
namespace RecordQuery.Sql

/-- Names stand in double quotes, strings in single ones. -/
inductive Quote where
  | name
  | string
  deriving DecidableEq, Repr

namespace Quote

def byte : Quote → UInt8
  | name => Text.ascii '"'
  | string => Text.ascii '\''

def ofByte? (b : UInt8) : Option Quote :=
  if b = name.byte then some name else if b = string.byte then some string else none

/-- A quote among the contents is doubled. -/
def doubled (quote : Quote) (contents : Text) : Text := contents.replace quote.byte [quote.byte, quote.byte]

theorem ofByte?_byte (quote : Quote) : ofByte? quote.byte = some quote := by
  cases quote <;> decide

theorem byte_of_ofByte? {quote : Quote} (found : ofByte? b = some quote) : b = quote.byte := by
  rw [ofByte?] at found
  split at found
  · cases found
    assumption
  · split at found
    · cases found
      assumption
    · cases found

theorem doubled_cons (quote : Quote) (b : UInt8) (contents : Text) :
    quote.doubled (b :: contents) = (if b = quote.byte then [b, b] else [b]) ++ quote.doubled contents := by
  rw [doubled, Text.replace, List.flatMap_cons]
  split
  · rename_i same
    rw [same]
    rfl
  · rfl

end Quote

/-- Letters, digits, the underscore, and all that is not ASCII. -/
def inWord (b : UInt8) : Bool :=
  (Text.ascii 'a' ≤ b && b ≤ Text.ascii 'z') || (Text.ascii 'A' ≤ b && b ≤ Text.ascii 'Z') ||
    Text.isDigit b || b == Text.ascii '_' || 128 ≤ b

/-- Whether a byte stands for itself, such as a bracket, a comma or a space. -/
def isMark (b : UInt8) : Bool := !inWord b && (Quote.ofByte? b).isNone

inductive Lexeme where
  | word (text : Text)
  | mark (byte : UInt8)
  | quoted (quote : Quote) (contents : Text)
  deriving DecidableEq, Repr

def Lexeme.text : Lexeme → Text
  | word text => text
  | mark byte => [byte]
  | quoted quote contents => quote.byte :: quote.doubled contents ++ [quote.byte]

/-- Where a scan is: outside quotes, perhaps within a word, between quotes, or after a quote that ends
the contents unless another one follows. -/
inductive Scan where
  | outside (word : Text)
  | inside (quote : Quote) (contents : Text)
  | closing (quote : Quote) (contents : Text)
  deriving DecidableEq, Repr

namespace Scan

/-- The word so far, if any. -/
def ended (word : Text) : List Lexeme := if word.isEmpty then [] else [.word word]

/-- What has been read if the text ends here; it must not end between quotes. -/
def finish : Scan → Option (List Lexeme)
  | outside word => some (ended word)
  | inside _ _ => none
  | closing quote contents => some [.quoted quote contents]

/-- Reads a byte outside quotes. -/
def next (word : Text) (b : UInt8) : List Lexeme × Scan :=
  if inWord b then ([], outside (word ++ [b]))
  else
    match Quote.ofByte? b with
    | some quote => (ended word, inside quote [])
    | none => (ended word ++ [.mark b], outside [])

def step : Scan → UInt8 → List Lexeme × Scan
  | outside word, b => next word b
  | inside quote contents, b =>
    if b = quote.byte then ([], closing quote contents) else ([], inside quote (contents ++ [b]))
  | closing quote contents, b =>
    if b = quote.byte then ([], inside quote (contents ++ [b]))
    else (.quoted quote contents :: (next [] b).1, (next [] b).2)

def run (scan : Scan) : Text → List Lexeme × Scan
  | [] => ([], scan)
  | b :: rest => ((scan.step b).1 ++ ((scan.step b).2.run rest).1, ((scan.step b).2.run rest).2)

theorem run_append (scan : Scan) (t u : Text) :
    scan.run (t ++ u) = ((scan.run t).1 ++ ((scan.run t).2.run u).1, ((scan.run t).2.run u).2) := by
  induction t generalizing scan with
  | nil => rfl
  | cons b t ih => simp [run, ih]

end Scan

/-- The lexemes of a text, if it does not end between quotes. -/
def scan (t : Text) : Option (List Lexeme) :=
  (Scan.run (.outside []) t).2.finish.map ((Scan.run (.outside []) t).1 ++ ·)

theorem scan_eq_some : scan t = some lexemes ↔ ∃ out last final,
    Scan.run (.outside []) t = (out, last) ∧ last.finish = some final ∧ lexemes = out ++ final := by
  rw [scan]
  constructor
  · intro found
    obtain ⟨final, ends, rfl⟩ := Option.map_eq_some_iff.mp found
    exact ⟨_, _, final, rfl, ends, rfl⟩
  · rintro ⟨out, last, final, runs, ends, rfl⟩
    rw [runs, ends]
    rfl

section Texts

/-- What has been read of a lexeme that is not complete. -/
def Scan.text : Scan → Text
  | outside word => word
  | inside quote contents => quote.byte :: quote.doubled contents
  | closing quote contents => quote.byte :: quote.doubled contents ++ [quote.byte]

theorem text_ended (word : Text) : (Scan.ended word).flatMap Lexeme.text = word := by
  rw [Scan.ended]
  split
  · rename_i empty
    rw [List.isEmpty_iff.mp empty]
    rfl
  · simp [Lexeme.text]

theorem text_finish {state : Scan} (ends : state.finish = some final) :
    final.flatMap Lexeme.text = state.text := by
  cases state with
  | outside word =>
    cases ends
    exact text_ended word
  | inside quote contents => cases ends
  | closing quote contents =>
    cases ends
    simp [Lexeme.text, Scan.text]

theorem text_next (word : Text) (b : UInt8) :
    (Scan.next word b).1.flatMap Lexeme.text ++ (Scan.next word b).2.text = word ++ [b] := by
  rw [Scan.next]
  split
  · rfl
  · split
    · rename_i quote found
      rw [Quote.byte_of_ofByte? found]
      simp [text_ended, Scan.text, Quote.doubled, Text.replace]
    · simp [text_ended, Scan.text, Lexeme.text]

theorem text_step (state : Scan) (b : UInt8) :
    (state.step b).1.flatMap Lexeme.text ++ (state.step b).2.text = state.text ++ [b] := by
  cases state with
  | outside word => exact text_next word b
  | inside quote contents =>
    rw [Scan.step]
    split
    · rename_i same
      rw [same]
      rfl
    · rename_i other
      simp [Scan.text, Quote.doubled, Text.replace, other]
  | closing quote contents =>
    rw [Scan.step]
    split
    · rename_i same
      simp [Scan.text, Quote.doubled, Text.replace, same]
    · rw [List.flatMap_cons, List.append_assoc, text_next]
      rfl

theorem text_run (state : Scan) (t : Text) :
    (state.run t).1.flatMap Lexeme.text ++ (state.run t).2.text = state.text ++ t := by
  induction t generalizing state with
  | nil => simp [Scan.run]
  | cons b t ih =>
    calc ((state.run (b :: t)).1.flatMap Lexeme.text ++ (state.run (b :: t)).2.text)
        = (state.step b).1.flatMap Lexeme.text ++
            (((state.step b).2.run t).1.flatMap Lexeme.text ++ ((state.step b).2.run t).2.text) := by
          simp [Scan.run]
      _ = (state.step b).1.flatMap Lexeme.text ++ ((state.step b).2.text ++ t) := by rw [ih]
      _ = state.text ++ [b] ++ t := by rw [← List.append_assoc, text_step]
      _ = state.text ++ b :: t := by simp

/-- Nothing is lost. -/
theorem text_of_scan (found : scan t = some lexemes) : lexemes.flatMap Lexeme.text = t := by
  obtain ⟨out, last, final, runs, ends, rfl⟩ := scan_eq_some.mp found
  have whole := text_run (.outside []) t
  rw [runs] at whole
  rw [List.flatMap_append, text_finish ends]
  exact whole

end Texts

section Append

theorem next_of_isMark (mark : isMark b = true) (word : Text) :
    Scan.next word b = (Scan.ended word ++ [.mark b], .outside []) := by
  simp only [isMark, Bool.and_eq_true, Bool.not_eq_true', Option.isNone_iff_eq_none] at mark
  rw [Scan.next, mark.1, mark.2]
  rfl

theorem ne_byte_of_isMark (mark : isMark b = true) (quote : Quote) : b ≠ quote.byte := by
  rintro rfl
  simp [isMark, Quote.ofByte?_byte] at mark

/-- A mark ends whatever stands before it. -/
theorem step_of_isMark {state : Scan} (mark : isMark b = true) (ends : state.finish = some final) :
    state.step b = (final ++ [.mark b], .outside []) := by
  cases state with
  | outside word =>
    cases ends
    exact next_of_isMark mark word
  | inside quote contents => cases ends
  | closing quote contents =>
    cases ends
    rw [Scan.step, if_neg (ne_byte_of_isMark mark quote), next_of_isMark mark]
    rfl

theorem scan_append_cons (mark : isMark b = true) (first : scan t = some lexemes)
    (second : scan (b :: u) = some others) : scan (t ++ b :: u) = some (lexemes ++ others) := by
  obtain ⟨out, last, final, runs, ends, rfl⟩ := scan_eq_some.mp first
  obtain ⟨more, stop, rest, continues, closes, rfl⟩ := scan_eq_some.mp second
  have fresh : Scan.step (.outside []) b = ([.mark b], .outside []) := next_of_isMark mark []
  rw [Scan.run, fresh] at continues
  obtain ⟨rfl, rfl⟩ := Prod.mk.inj continues
  refine scan_eq_some.mpr ⟨out ++ (final ++ [.mark b] ++ (Scan.run (.outside []) u).1), _, rest, ?_, closes, ?_⟩
  · rw [Scan.run_append, runs, Scan.run, step_of_isMark mark ends]
  · simp

/-- Before a mark a scan is outside quotes or between them, and it stays there. -/
theorem outside_of_isMark {state : Scan} (mark : isMark b = true) (ends : (state.step b).2.finish = some final) :
    (state.step b).2 = .outside [] := by
  cases state with
  | outside word => rw [Scan.step, next_of_isMark mark]
  | inside quote contents =>
    rw [Scan.step, if_neg (ne_byte_of_isMark mark quote)] at ends
    cases ends
  | closing quote contents => rw [Scan.step, if_neg (ne_byte_of_isMark mark quote), next_of_isMark mark]

theorem scan_concat_append (mark : isMark b = true) (first : scan (t ++ [b]) = some lexemes)
    (second : scan u = some others) : scan (t ++ [b] ++ u) = some (lexemes ++ others) := by
  obtain ⟨out, last, final, runs, ends, rfl⟩ := scan_eq_some.mp first
  obtain ⟨more, stop, rest, continues, closes, rfl⟩ := scan_eq_some.mp second
  have outside : last = .outside [] := by
    rw [Scan.run_append] at runs
    obtain ⟨-, rfl⟩ := Prod.mk.inj runs
    exact outside_of_isMark mark ends
  rw [outside] at ends runs
  cases ends
  refine scan_eq_some.mpr ⟨out ++ more, stop, rest, ?_, closes, ?_⟩
  · rw [Scan.run_append, runs, continues]
  · simp [Scan.ended]

/-- A text that starts with a mark, if with anything. -/
def Opens (t : Text) : Prop := t.head?.all isMark = true

/-- A text that ends with a mark, if with anything. -/
def Closes (t : Text) : Prop := t.getLast?.all isMark = true

instance (t : Text) : Decidable (Opens t) := inferInstanceAs (Decidable (_ = true))

instance (t : Text) : Decidable (Closes t) := inferInstanceAs (Decidable (_ = true))

theorem Opens.append (first : Opens t) (second : Opens u) : Opens (t ++ u) := by
  cases t with
  | nil => exact second
  | cons b t => exact first

theorem Opens.extend (opens : Opens t) (filled : t ≠ []) (u : Text) : Opens (t ++ u) := by
  cases t with
  | nil => exact absurd rfl filled
  | cons b t => exact opens

theorem Closes.append (filled : u ≠ []) (second : Closes u) (t : Text) : Closes (t ++ u) := by
  rw [Closes, List.getLast?_append_of_ne_nil _ filled]
  exact second

/-- A text with marks at both ends. -/
def Seam (t : Text) : Prop := Opens t ∧ Closes t ∧ t ≠ []

instance (t : Text) : Decidable (Seam t) := inferInstanceAs (Decidable (_ ∧ _ ∧ _))

theorem Seam.opens (seam : Seam t) (u : Text) : Opens (t ++ u) := seam.1.extend seam.2.2 u

theorem Seam.closes (seam : Seam u) (t : Text) : Closes (t ++ u) := seam.2.1.append seam.2.2 t

theorem scan_nil : scan [] = some [] := rfl

/-- A mark at the end of the first text or at the start of the second one keeps them apart. -/
theorem scan_append (apart : Closes t ∨ Opens u) (first : scan t = some lexemes)
    (second : scan u = some others) : scan (t ++ u) = some (lexemes ++ others) := by
  rcases apart with marked | marked
  · rcases List.eq_nil_or_concat t with rfl | ⟨t, b, rfl⟩
    · obtain rfl := Option.some.inj (scan_nil.symm.trans first)
      exact second
    · rw [List.concat_eq_append] at first marked ⊢
      exact scan_concat_append (by simpa [Closes] using marked) first second
  · cases u with
    | nil =>
      obtain rfl := Option.some.inj (scan_nil.symm.trans second)
      simpa using first
    | cons b u => exact scan_append_cons marked first second

end Append

section Quoted

theorem run_doubled (quote : Quote) (before contents : Text) :
    Scan.run (.inside quote before) (quote.doubled contents) = ([], .inside quote (before ++ contents)) := by
  induction contents generalizing before with
  | nil => simp [Quote.doubled, Text.replace, Scan.run]
  | cons b contents ih =>
    rw [Quote.doubled_cons, Scan.run_append]
    split
    · rename_i same
      simp [Scan.run, Scan.step, same, ih]
    · rename_i other
      simp [Scan.run, Scan.step, other, ih]

/-- Whatever stands in quotes is read as it is. -/
theorem scan_quoted (quote : Quote) (contents : Text) :
    scan (quote.byte :: quote.doubled contents ++ [quote.byte]) = some [.quoted quote contents] := by
  have outside : inWord quote.byte = false := by cases quote <;> decide
  refine scan_eq_some.mpr ⟨[], .closing quote contents, _, ?_, rfl, rfl⟩
  rw [List.cons_append, Scan.run, Scan.step, Scan.next, outside, Quote.ofByte?_byte]
  simp [Scan.run_append, run_doubled, Scan.run, Scan.step, Scan.ended]

theorem quoted_eq (value : Text) : quoted value =
    Quote.string.byte :: Quote.string.doubled value ++ [Quote.string.byte] := rfl

end Quoted

section Bare

theorem run_of_bare (word t : Text) (bare : ∀ b ∈ t, Quote.ofByte? b = none) :
    ∃ rest, (Scan.run (.outside word) t).2 = .outside rest := by
  induction t generalizing word with
  | nil => exact ⟨word, rfl⟩
  | cons b t ih =>
    obtain ⟨plain, bare⟩ := List.forall_mem_cons.mp bare
    have stays : ∃ more, (Scan.next word b).2 = .outside more := by
      rw [Scan.next, plain]
      split
      · exact ⟨_, rfl⟩
      · exact ⟨_, rfl⟩
    obtain ⟨more, stays⟩ := stays
    obtain ⟨rest, runs⟩ := ih more bare
    refine ⟨rest, ?_⟩
    rw [Scan.run, Scan.step, stays]
    exact runs

/-- Without quotes there is nothing to close. -/
theorem exists_scan_of_bare (bare : ∀ b ∈ t, Quote.ofByte? b = none) : ∃ lexemes, scan t = some lexemes := by
  obtain ⟨rest, runs⟩ := run_of_bare [] t bare
  rw [scan, runs]
  exact ⟨_, rfl⟩

/-- Digits, the point and the minus sign. -/
def inNumeral (b : UInt8) : Bool := Text.isDigit b || b == Text.ascii '.' || b == Text.ascii '-'

theorem inNumeral_of_mem_ofNat (member : b ∈ Text.ofNat n) : inNumeral b = true := by
  simp [inNumeral, Text.isDigit_of_mem_ofNat member]

theorem inNumeral_of_mem_text {value : Decimal} (member : b ∈ value.text) : inNumeral b = true := by
  have magnitude : b ∈ (if value.coefficient = 0 then Text.ofNat value.coefficient.natAbs
      else if 0 ≤ value.exponent then
        Text.ofNat value.coefficient.natAbs ++ List.replicate value.exponent.toNat (Text.ascii '0')
      else Decimal.withPoint (Text.ofNat value.coefficient.natAbs) value.exponent.natAbs) →
      inNumeral b = true := by
    intro inside
    split at inside
    · exact inNumeral_of_mem_ofNat inside
    · split at inside
      · rcases List.mem_append.mp inside with digit | zero
        · exact inNumeral_of_mem_ofNat digit
        · rw [List.eq_of_mem_replicate zero]
          decide
      · rcases Decimal.mem_withPoint inside with digit | rfl | rfl
        · exact inNumeral_of_mem_ofNat digit
        · decide
        · decide
  rw [Decimal.text] at member
  split at member
  · rcases List.mem_cons.mp member with rfl | inside
    · decide
    · exact magnitude inside
  · exact magnitude member

theorem text_ne_nil (value : Decimal) : value.text ≠ [] := by
  have digits := Text.ofNat_ne_nil value.coefficient.natAbs
  rw [Decimal.text]
  split
  · exact List.cons_ne_nil _ _
  · split
    · exact digits
    · split
      · exact List.append_ne_nil_of_left_ne_nil digits _
      · exact Decimal.withPoint_ne_nil digits _

theorem ofByte?_of_inNumeral (numeral : inNumeral b = true) : Quote.ofByte? b = none := by
  rw [Quote.ofByte?, if_neg, if_neg]
  · rintro rfl
    revert numeral
    decide
  · rintro rfl
    revert numeral
    decide

end Bare

end RecordQuery.Sql
