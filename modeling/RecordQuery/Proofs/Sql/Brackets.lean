import RecordQuery.Proofs.Sql.Columns
import RecordQuery.Proofs.Sql.Scanning

namespace RecordQuery.Sql

/-- A lexeme, or all that stands between two brackets. -/
inductive Item where
  | single (lexeme : Lexeme)
  | group (items : List Item)
  deriving Repr

def opening : Lexeme := .mark (Text.ascii '(')

def closing : Lexeme := .mark (Text.ascii ')')

/-- A space. -/
def blank : Lexeme := .mark (Text.ascii ' ')

/-- Groups the lexemes. The items before the brackets that are open are kept apart, innermost first. -/
def nest : List Lexeme → List (List Item) → List Item → Option (List Item)
  | [], [], items => some items
  | [], _ :: _, _ => none
  | lexeme :: rest, outer, items =>
    if lexeme = opening then nest rest (items :: outer) []
    else if lexeme = closing then
      match outer with
      | [] => none
      | before :: outer => nest rest outer (before ++ [.group items])
    else nest rest outer (items ++ [.single lexeme])

def readItems (t : Text) : Option (List Item) := do nest (← scan t) [] []

mutual

def Item.lexemes : Item → List Lexeme
  | .single lexeme => [lexeme]
  | .group items => opening :: (Item.lexemesAll items ++ [closing])

def Item.lexemesAll : List Item → List Lexeme
  | [] => []
  | item :: items => item.lexemes ++ Item.lexemesAll items

end

mutual

/-- Brackets stand around groups and nowhere else. -/
def Item.Balanced : Item → Prop
  | .single lexeme => lexeme ≠ opening ∧ lexeme ≠ closing
  | .group items => Item.BalancedAll items

def Item.BalancedAll : List Item → Prop
  | [] => True
  | item :: items => item.Balanced ∧ Item.BalancedAll items

end

theorem lexemesAll_append (first second : List Item) :
    Item.lexemesAll (first ++ second) = Item.lexemesAll first ++ Item.lexemesAll second := by
  induction first with
  | nil => rfl
  | cons item first ih => simp [Item.lexemesAll, ih]

theorem balancedAll_append {first second : List Item} :
    Item.BalancedAll (first ++ second) ↔ Item.BalancedAll first ∧ Item.BalancedAll second := by
  induction first with
  | nil => simp [Item.BalancedAll]
  | cons item first ih => simp [Item.BalancedAll, ih, and_assoc]

theorem lexemesAll_lexemes (lexemes : List Lexeme) : Item.lexemesAll (lexemes.map .single) = lexemes := by
  induction lexemes with
  | nil => rfl
  | cons lexeme lexemes ih => simp [Item.lexemesAll, Item.lexemes, ih]

theorem balancedAll_lexemes {lexemes : List Lexeme} (opens : opening ∉ lexemes) (closes : closing ∉ lexemes) :
    Item.BalancedAll (lexemes.map .single) := by
  induction lexemes with
  | nil => trivial
  | cons lexeme lexemes ih =>
    simp only [List.mem_cons, not_or] at opens closes
    exact ⟨⟨fun same => opens.1 same.symm, fun same => closes.1 same.symm⟩, ih opens.2 closes.2⟩

mutual

theorem nest_lexemes : (item : Item) → item.Balanced → ∀ rest outer before,
    nest (item.lexemes ++ rest) outer before = nest rest outer (before ++ [item])
  | .single lexeme, balanced, rest, outer, before => by
    rw [Item.lexemes, List.singleton_append, nest.eq_def]
    exact (if_neg balanced.1).trans (if_neg balanced.2)
  | .group items, balanced, rest, outer, before => by
    have opens : nest (opening :: (Item.lexemesAll items ++ [closing] ++ rest)) outer before =
        nest (Item.lexemesAll items ++ (closing :: rest)) (before :: outer) [] := by
      rw [nest.eq_def, List.append_assoc]
      rfl
    have closes : nest (closing :: rest) (before :: outer) items = nest rest outer (before ++ [.group items]) := by
      rw [nest.eq_def]
      rfl
    rw [Item.lexemes, List.cons_append, opens, nest_lexemesAll items balanced, List.nil_append, closes]

theorem nest_lexemesAll : (items : List Item) → Item.BalancedAll items → ∀ rest outer before,
    nest (Item.lexemesAll items ++ rest) outer before = nest rest outer (before ++ items)
  | [], _, rest, outer, before => by rw [Item.lexemesAll, List.nil_append, List.append_nil]
  | item :: items, balanced, rest, outer, before => by
    rw [Item.lexemesAll, List.append_assoc, nest_lexemes item balanced.1, nest_lexemesAll items balanced.2,
      List.append_assoc, List.singleton_append]

end

theorem flatMap_intercalate (f : α → List β) (separator : List α) (lists : List (List α)) :
    (separator.intercalate lists).flatMap f =
      (separator.flatMap f).intercalate (lists.map (·.flatMap f)) := by
  induction lists with
  | nil => rfl
  | cons first lists ih =>
    cases lists with
    | nil => simp [List.intercalate]
    | cons second lists =>
      simp only [List.map_cons, List.intercalate_cons_cons, List.flatMap_append] at ih ⊢
      rw [ih]

theorem forall_mem_intercalate {P : α → Prop} {separator : List α} {lists : List (List α)}
    (between : ∀ x ∈ separator, P x) (each : ∀ list ∈ lists, ∀ x ∈ list, P x) :
    ∀ x ∈ separator.intercalate lists, P x := by
  induction lists with
  | nil => exact List.forall_mem_nil _
  | cons first lists ih =>
    obtain ⟨here, each⟩ := List.forall_mem_cons.mp each
    cases lists with
    | nil => simpa [List.intercalate] using here
    | cons second lists =>
      rw [List.intercalate_cons_cons]
      exact List.forall_mem_append.mpr ⟨List.forall_mem_append.mpr ⟨here, between⟩, ih each⟩

theorem map_intercalate (f : α → β) (separator : List α) (lists : List (List α)) :
    (separator.intercalate lists).map f = (separator.map f).intercalate (lists.map (·.map f)) := by
  simp only [List.map_eq_flatMap, flatMap_intercalate]

/-- The text is made of these items. -/
structure Reads (t : Text) (items : List Item) : Prop where
  scans : scan t = some (Item.lexemesAll items)
  balanced : Item.BalancedAll items

def bracketed (t : Text) : Text := Text.ascii '(' :: t ++ [Text.ascii ')']

theorem bracketed_append (t u : Text) : bracketed (t ++ u) = Text.ascii '(' :: t ++ (u ++ [Text.ascii ')']) := by
  simp [bracketed]

theorem opens_bracketed (t : Text) : Opens (bracketed t) :=
  Opens.extend (t := [Text.ascii '(']) (by decide) (by decide) _

namespace Reads

theorem readItems_eq (reads : Reads t items) : readItems t = some items := by
  have whole := nest_lexemesAll items reads.balanced [] [] []
  rw [List.append_nil] at whole
  exact Option.bind_eq_some_iff.mpr ⟨_, reads.scans, whole⟩

theorem nil : Reads [] [] := ⟨rfl, trivial⟩

theorem append (apart : Closes t ∨ Opens u) (first : Reads t items) (second : Reads u others) :
    Reads (t ++ u) (items ++ others) :=
  ⟨lexemesAll_append items others ▸ scan_append apart first.scans second.scans,
    balancedAll_append.mpr ⟨first.balanced, second.balanced⟩⟩

theorem bracketed (reads : Reads t items) : Reads (bracketed t) [.group items] := by
  refine ⟨?_, reads.balanced, trivial⟩
  have inner : scan (t ++ [Text.ascii ')']) = some (Item.lexemesAll items ++ [closing]) :=
    scan_append (.inr (by decide)) reads.scans rfl
  have whole : scan ([Text.ascii '('] ++ (t ++ [Text.ascii ')'])) =
      some ([opening] ++ (Item.lexemesAll items ++ [closing])) :=
    scan_append (.inl (by decide)) rfl inner
  simpa [Item.lexemesAll, Item.lexemes, Sql.bracketed] using whole

theorem of_scan (found : scan t = some lexemes) (opens : opening ∉ lexemes) (closes : closing ∉ lexemes) :
    Reads t (lexemes.map .single) :=
  ⟨found.trans (congrArg some (lexemesAll_lexemes lexemes).symm), balancedAll_lexemes opens closes⟩

/-- Texts with a separator between them. -/
theorem join (seam : Seam separator) (between : Reads separator middle) {parts : List Text}
    {lists : List (List Item)} (each : List.Forall₂ Reads parts lists) :
    Reads (Text.join separator parts) (middle.intercalate lists) := by
  induction each with
  | nil => exact nil
  | @cons part items parts lists first rest ih =>
    cases rest with
    | nil => simpa [Text.join, List.intercalate] using first
    | cons _ _ =>
      simp only [Text.join, List.intercalate_cons_cons] at ih ⊢
      exact append (.inl (seam.closes part)) (append (.inr seam.1) first between) ih

end Reads

/-- The capital of an ASCII letter. -/
def capital (b : UInt8) : UInt8 := if Text.ascii 'a' ≤ b && b ≤ Text.ascii 'z' then b - 32 else b

/-- Whether an item is this word, whatever the case. -/
def Item.spells (keyword : Text) : Item → Bool
  | .single (.word text) => text.map capital == keyword
  | _ => false

/-- The words that conditions are made with. -/
def connectors : List Text := ["NOT", "AND", "OR"]

/-- A text with matching brackets, and none of the words that conditions are made with outside them. -/
def Plain (t : Text) : Prop :=
  ∃ items, Reads t items ∧ ∀ item ∈ items, ∀ keyword ∈ connectors, item.spells keyword = false

namespace Plain

theorem nil : Plain [] := ⟨[], .nil, List.forall_mem_nil _⟩

theorem append (apart : Closes t ∨ Opens u) (first : Plain t) (second : Plain u) : Plain (t ++ u) := by
  obtain ⟨items, reads, plain⟩ := first
  obtain ⟨others, continues, more⟩ := second
  exact ⟨items ++ others, reads.append apart continues, List.forall_mem_append.mpr ⟨plain, more⟩⟩

theorem of_group (reads : Reads t [.group items]) : Plain t :=
  ⟨_, reads, List.forall_mem_singleton.mpr fun _ _ => rfl⟩

theorem bracketed (plain : Plain t) : Plain (bracketed t) := by
  obtain ⟨items, reads, -⟩ := plain
  exact of_group reads.bracketed

theorem of_lexemes (found : scan t = some lexemes) (opens : opening ∉ lexemes) (closes : closing ∉ lexemes)
    (other : ∀ lexeme ∈ lexemes, ∀ keyword ∈ connectors, (Item.single lexeme).spells keyword = false) :
    Plain t :=
  ⟨_, .of_scan found opens closes, List.forall_mem_map.mpr other⟩

theorem quotes (quote : Quote) (contents : Text) :
    Plain (quote.byte :: quote.doubled contents ++ [quote.byte]) :=
  of_lexemes (scan_quoted quote contents) (by simp [opening]) (by simp [closing])
    (List.forall_mem_singleton.mpr fun _ _ => rfl)

theorem quoted (value : Text) : Plain (quoted value) := quotes .string value

theorem identifier (name : Text) : Plain (identifier name) := quotes .name name

/-- Whether all lexemes of a text are plain; for the texts that stand in every statement. -/
def check (t : Text) : Bool :=
  match scan t with
  | none => false
  | some lexemes => lexemes.all fun lexeme =>
    lexeme ≠ opening && lexeme ≠ closing && connectors.all fun keyword => !(Item.single lexeme).spells keyword

theorem check_eq_true (checked : check t = true) (found : scan t = some lexemes) :
    opening ∉ lexemes ∧ closing ∉ lexemes ∧
      ∀ lexeme ∈ lexemes, ∀ keyword ∈ connectors, (Item.single lexeme).spells keyword = false := by
  rw [check, found] at checked
  have each := List.all_eq_true.mp checked
  simp only [Bool.and_eq_true, decide_eq_true_eq, List.all_eq_true, Bool.not_eq_true'] at each
  exact ⟨fun member => (each _ member).1.1 rfl, fun member => (each _ member).1.2 rfl,
    fun lexeme member => (each lexeme member).2⟩

theorem of_check (checked : check t = true) : Plain t := by
  cases found : scan t with
  | none =>
    rw [check, found] at checked
    cases checked
  | some lexemes =>
    obtain ⟨opens, closes, other⟩ := check_eq_true checked found
    exact of_lexemes found opens closes other

theorem capital_of_inNumeral (numeral : inNumeral b = true) : capital b = b := by
  have low : ¬ Text.ascii 'a' ≤ b := by
    simp only [inNumeral, Bool.or_eq_true, beq_iff_eq, Text.isDigit, Bool.and_eq_true, decide_eq_true_eq] at numeral
    rcases numeral with (⟨-, digit⟩ | rfl) | rfl
    · intro letter
      exact absurd (UInt8.le_trans letter digit) (by decide)
    · decide
    · decide
  simp [capital, low]

/-- A numeral has no letters, so it is no word that conditions are made with. -/
theorem numeral (digits : ∀ b ∈ t, inNumeral b = true) : Plain t := by
  obtain ⟨lexemes, found⟩ := exists_scan_of_bare fun b member => ofByte?_of_inNumeral (digits b member)
  have bytes : ∀ lexeme ∈ lexemes, ∀ b ∈ lexeme.text, inNumeral b = true := by
    intro lexeme member b inside
    refine digits b ?_
    rw [← text_of_scan found]
    exact List.mem_flatMap.mpr ⟨lexeme, member, inside⟩
  refine of_lexemes found ?_ ?_ ?_
  · intro opens
    exact absurd (bytes _ opens _ (.head _)) (by decide)
  · intro closes
    exact absurd (bytes _ closes _ (.head _)) (by decide)
  · intro lexeme member keyword listed
    cases lexeme with
    | mark byte => rfl
    | quoted quote contents => rfl
    | word text =>
      refine Bool.eq_false_iff.mpr ?_
      intro spells
      have same : text.map capital = keyword := beq_iff_eq.mp spells
      have letters : ∀ keyword ∈ connectors, ∃ c ∈ keyword, inNumeral c = false := by decide
      obtain ⟨c, spelled, letter⟩ := letters keyword listed
      rw [← same] at spelled
      obtain ⟨b, inside, rfl⟩ := List.mem_map.mp spelled
      have digit := bytes _ member b inside
      rw [capital_of_inNumeral digit, digit] at letter
      cases letter

/-- Whether a text that stands in every statement is plain and has marks at both ends. -/
def isLink (t : Text) : Bool := check t && decide (Seam t)

theorem isLink_iff : isLink t = true ↔ check t = true ∧ Seam t := by
  simp [isLink]

theorem join (link : isLink separator = true) {parts : List Text} (each : ∀ part ∈ parts, Plain part) :
    Plain (Text.join separator parts) := by
  obtain ⟨checked, seam⟩ := isLink_iff.mp link
  induction parts with
  | nil => exact nil
  | cons part parts ih =>
    obtain ⟨first, each⟩ := List.forall_mem_cons.mp each
    cases parts with
    | nil => simpa [Text.join, List.intercalate] using first
    | cons next parts =>
      have rest := ih each
      simp only [Text.join, List.intercalate_cons_cons] at rest ⊢
      exact append (.inl (seam.closes part)) (append (.inr seam.1) first (.of_check checked)) rest

end Plain

/-- A plain text that can follow any other. -/
structure Trailing (t : Text) : Prop where
  opens : Opens t
  plain : Plain t

theorem Plain.followed (first : Plain t) (second : Trailing u) : Plain (t ++ u) :=
  first.append (.inr second.opens) second.plain

namespace Trailing

theorem nil : Trailing [] := ⟨by decide, .nil⟩

theorem append (first : Trailing t) (second : Trailing u) : Trailing (t ++ u) :=
  ⟨first.opens.append second.opens, first.plain.followed second⟩

theorem flatten {parts : List Text} (each : ∀ part ∈ parts, Trailing part) : Trailing parts.flatten := by
  induction parts with
  | nil => exact nil
  | cons part parts ih =>
    obtain ⟨first, each⟩ := List.forall_mem_cons.mp each
    exact first.append (ih each)

theorem link (isLink : Plain.isLink t = true) (rest : Plain u) : Trailing (t ++ u) := by
  obtain ⟨checked, seam⟩ := Plain.isLink_iff.mp isLink
  exact ⟨seam.opens u, (Plain.of_check checked).append (.inl seam.2.1) rest⟩

theorem bracketed (inner : Plain t) : Trailing (bracketed t) := ⟨opens_bracketed t, inner.bracketed⟩

end Trailing

/-- A plain text that starts with a lexeme other than a space or a bracket. -/
def Solid (t : Text) : Prop :=
  ∃ lexeme items, Reads t (.single lexeme :: items) ∧ lexeme ≠ blank ∧
    ∀ item ∈ .single lexeme :: items, ∀ keyword ∈ connectors, item.spells keyword = false

namespace Solid

theorem plain (solid : Solid t) : Plain t := by
  obtain ⟨lexeme, items, reads, -, plain⟩ := solid
  exact ⟨_, reads, plain⟩

theorem append (apart : Closes t ∨ Opens u) (first : Solid t) (second : Plain u) : Solid (t ++ u) := by
  obtain ⟨lexeme, items, reads, other, plain⟩ := first
  obtain ⟨others, continues, more⟩ := second
  exact ⟨lexeme, items ++ others, reads.append apart continues, other, List.forall_mem_append.mpr ⟨plain, more⟩⟩

theorem followed (first : Solid t) (second : Trailing u) : Solid (t ++ u) :=
  first.append (.inr second.opens) second.plain

theorem identifier (name : Text) : Solid (identifier name) := by
  have reads := Reads.of_scan (scan_quoted .name name) (by simp [opening]) (by simp [closing])
  exact ⟨.quoted .name name, [], reads, nofun, List.forall_mem_singleton.mpr fun _ _ => rfl⟩

theorem of_check (checked : Plain.check t = true) (found : scan t = some (lexeme :: lexemes))
    (filled : lexeme ≠ blank) : Solid t := by
  obtain ⟨opens, closes, other⟩ := Plain.check_eq_true checked found
  have plain : ∀ item ∈ (lexeme :: lexemes).map Item.single, ∀ keyword ∈ connectors,
      item.spells keyword = false := List.forall_mem_map.mpr other
  exact ⟨lexeme, _, .of_scan found opens closes, filled, plain⟩

end Solid

section Parts

theorem Column.solid (column : Column) : Solid column.text := by
  rw [Column.text, List.append_assoc]
  exact (Solid.identifier _).followed (.link (by decide) (.identifier _))

theorem asText_print (value : Expression) :
    (Expression.asText value).print = Text.ofString "CAST" ++ bracketed (value.print ++ " AS TEXT") := by
  rw [Expression.print, bracketed_append, ← List.append_assoc]
  rfl

theorem orEmpty_print (value : Expression) :
    (Expression.orEmpty value).print = Text.ofString "COALESCE" ++ bracketed (value.print ++ ", ''") := by
  rw [Expression.print, bracketed_append, ← List.append_assoc]
  rfl

theorem ifPresent_print (key : Column) (value : Expression) : (Expression.ifPresent key value).print =
    Text.ofString "CASE WHEN " ++ (key.text ++ (Text.ofString " IS NULL THEN NULL ELSE " ++
      (bracketed value.print ++ " END"))) := by
  have opens : Text.ofString " IS NULL THEN NULL ELSE (" =
      Text.ofString " IS NULL THEN NULL ELSE " ++ [Text.ascii '('] := by decide
  have closes : Text.ofString ") END" = Text.ascii ')' :: Text.ofString " END" := by decide
  rw [Expression.print, opens, closes]
  simp [bracketed]

theorem solid_asText {value : Expression} (plain : Plain value.print) :
    Solid (Expression.asText value).print := by
  have start : Solid "CAST" := .of_check (by decide) (rfl : scan "CAST" = some [.word "CAST"]) nofun
  have named : Trailing " AS TEXT" := ⟨by decide, .of_check (by decide)⟩
  rw [asText_print]
  exact start.followed (.bracketed (plain.followed named))

theorem solid_ifPresent (key : Column) {value : Expression} (plain : Plain value.print) :
    Solid (Expression.ifPresent key value).print := by
  have start : Solid "CASE WHEN " :=
    .of_check (by decide) (rfl : scan "CASE WHEN " = some [.word "CASE", blank, .word "WHEN", blank]) nofun
  have finish : Trailing " END" := ⟨by decide, .of_check (by decide)⟩
  rw [ifPresent_print]
  refine start.append (.inl (by decide)) (key.solid.plain.followed (.link (by decide) ?_))
  exact plain.bracketed.followed finish

mutual

theorem Expression.plain : (value : Expression) → Plain value.print
  | .column reference => by
    rw [Expression.print]
    exact reference.solid.plain
  | .asText value => (solid_asText value.plain).plain
  | .orEmpty value => by
    have empty : Trailing ", ''" := ⟨by decide, .of_check (by decide)⟩
    rw [orEmpty_print]
    exact (Plain.of_check (by decide)).followed (.bracketed (value.plain.followed empty))
  | .text value => by
    rw [Expression.print]
    exact .quoted value
  | .concat parts => by
    rw [Expression.print]
    exact .join (by decide) (Expression.plainAll parts)
  | .ifPresent key value => (solid_ifPresent key value.plain).plain

theorem Expression.plainAll : (parts : List Expression) → ∀ part ∈ Expression.printAll parts, Plain part
  | [] => List.forall_mem_nil _
  | part :: parts => List.forall_mem_cons.mpr ⟨part.plain, Expression.plainAll parts⟩

end

theorem Output.plain (output : Output) : Plain output.print := by
  rw [Output.print, List.append_assoc]
  refine Plain.followed ?_ (.link (by decide) (.identifier _))
  split
  · exact output.value.plain
  · rename_i function _
    have called : function.name ++ "(" ++ output.value.print ++ ")" =
        function.name ++ bracketed output.value.print := by
      rw [bracketed, List.append_assoc, List.append_assoc]
      rfl
    have name : Plain function.name := by
      cases function <;> exact .of_check (by decide)
    rw [called]
    exact name.followed (.bracketed output.value.plain)

theorem Join.trailing (join : Join) : Trailing join.print := by
  rw [Join.print]
  simp only [List.append_assoc]
  refine .link (by decide) ((Plain.identifier _).followed (.link (by decide) ?_))
  refine (Plain.identifier _).followed (.link (by decide) ?_)
  exact join.key.solid.plain.followed (.link (by decide) join.onto.solid.plain)

theorem plain_printHead (outputs : List Output) (table : Text) (joins : List Join) :
    Plain (printHead outputs table joins) := by
  have select : Plain "SELECT " := .of_check (by decide)
  have listed : Plain (Text.join ", " (outputs.map (·.print))) :=
    .join (by decide) (List.forall_mem_map.mpr fun output _ => output.plain)
  have joined : Trailing (joins.map (·.print)).flatten :=
    .flatten (List.forall_mem_map.mpr fun join _ => join.trailing)
  rw [printHead]
  simp only [List.append_assoc]
  refine select.append (.inl (by decide)) (listed.followed (.link (by decide) ?_))
  exact (Plain.identifier _).followed (.link (by decide) ((Plain.identifier _).followed joined))

theorem trailing_printTail (groupBy : List Expression) (orderBy : List (Expression × Direction))
    (limit offset : Option Nat) : Trailing (printTail groupBy orderBy limit offset) := by
  rw [printTail]
  refine .append (.append (.append ?_ ?_) ?_) ?_
  · split
    · exact .nil
    · refine .link (by decide) (.join (by decide) ?_)
      exact List.forall_mem_map.mpr fun key _ => key.plain
  · split
    · exact .nil
    · refine .link (by decide) (.join (by decide) (List.forall_mem_map.mpr ?_))
      rintro ⟨key, direction⟩ -
      have name : Plain direction.name := by
        cases direction <;> exact .of_check (by decide)
      simp only [List.append_assoc]
      exact key.plain.followed (.link (by decide) name)
  · cases limit with
    | none => exact .nil
    | some n => exact .link (by decide) (.numeral fun _ => inNumeral_of_mem_ofNat)
  · cases offset with
    | none => exact .nil
    | some n => exact .link (by decide) (.numeral fun _ => inNumeral_of_mem_ofNat)

mutual

/-- The literals of a condition and of its subqueries, in the order in which they are written. -/
def Condition.literals : Condition → List Literal
  | .compare _ _ right => [right]
  | .isNull _ => []
  | .inValues _ values => values
  | .inQuery _ query => query.literals
  | .not condition => condition.literals
  | .junction _ conditions => Condition.literalsAll conditions

def Condition.literalsAll : List Condition → List Literal
  | [] => []
  | condition :: conditions => condition.literals ++ Condition.literalsAll conditions

def Statement.literals : Statement → List Literal
  | ⟨_, _, _, none, _, _, _, _⟩ => []
  | ⟨_, _, _, some condition, _, _, _, _⟩ => condition.literals

end

/-- What stands between the brackets of a condition. -/
def Condition.body : Condition → Text
  | .compare left comparator right =>
    left.print ++ (Text.ofString " " ++ (comparator.symbol ++ (Text.ofString " " ++ right.print)))
  | .isNull value => value.print ++ " IS NULL"
  | .inValues value values =>
    value.print ++ (Text.ofString " IN " ++ bracketed (Text.join ", " (values.map (·.print))))
  | .inQuery value query => value.print ++ (Text.ofString " IN " ++ bracketed query.print)
  | .not condition => Text.ofString "NOT " ++ condition.print
  | .junction connective conditions =>
    Text.join (" " ++ connective.symbol ++ " ") (Condition.printAll conditions)

theorem Condition.print_eq (condition : Condition) : condition.print = bracketed condition.body := by
  cases condition with
  | compare left comparator right =>
    simp only [print, body, bracketed, List.append_assoc, List.cons_append]
    rfl
  | isNull value =>
    rw [print, body, bracketed_append, List.append_assoc]
    rfl
  | inValues value values =>
    simp only [print, body, bracketed, List.append_assoc, List.cons_append]
    rfl
  | inQuery value query =>
    simp only [print, body, bracketed, List.append_assoc, List.cons_append]
    rfl
  | not condition =>
    simp only [print, body, bracketed, List.append_assoc, List.cons_append]
    rfl
  | junction connective conditions =>
    rw [print, body, bracketed, List.append_assoc]
    rfl

section Leaves

theorem trailing_compare (comparator : Comparator) (written : Plain right) :
    Trailing (Text.ofString " " ++ (comparator.symbol ++ (Text.ofString " " ++ right))) := by
  have symbol : Plain comparator.symbol := by
    cases comparator <;> exact .of_check (by decide)
  exact .link (by decide) (symbol.followed (.link (by decide) written))

theorem trailing_isNull : Trailing " IS NULL" := ⟨by decide, .of_check (by decide)⟩

theorem trailing_inValues {values : List Literal} (written : ∀ literal ∈ values, Plain literal.print) :
    Trailing (Text.ofString " IN " ++ bracketed (Text.join ", " (values.map (·.print)))) :=
  .link (by decide) (.bracketed (.join (by decide) (List.forall_mem_map.mpr written)))

theorem trailing_inQuery (written : Plain query) : Trailing (Text.ofString " IN " ++ bracketed query) :=
  .link (by decide) written.bracketed

end Leaves

theorem seam_separator (connective : Connective) : Seam (Text.ofString " " ++ connective.symbol ++ " ") := by
  cases connective <;> decide

theorem reads_separator (connective : Connective) : Reads (Text.ofString " " ++ connective.symbol ++ " ")
    [.single blank, .single (.word connective.symbol), .single blank] := by
  have found : scan (Text.ofString " " ++ connective.symbol ++ " ") =
      some [blank, .word connective.symbol, blank] := by
    cases connective <;> decide
  refine Reads.of_scan found ?_ ?_
  all_goals cases connective <;> decide

theorem reads_not : Reads "NOT " [.single (.word "NOT"), .single blank] := by
  have found : scan "NOT " = some [.word "NOT", blank] := by decide
  exact Reads.of_scan found (by decide) (by decide)

mutual

/-- Whatever its literals are, if they are plain, a condition is one group. -/
theorem Condition.plain : (condition : Condition) → (∀ literal ∈ condition.literals, Plain literal.print) →
    Plain condition.print
  | .compare left comparator right, written => by
    rw [Condition.print_eq]
    exact (left.plain.followed (trailing_compare comparator (written right (.head _)))).bracketed
  | .isNull value, _ => by
    rw [Condition.print_eq]
    exact (value.plain.followed trailing_isNull).bracketed
  | .inValues value values, written => by
    rw [Condition.print_eq]
    exact (value.plain.followed (trailing_inValues written)).bracketed
  | .inQuery value query, written => by
    rw [Condition.print_eq]
    exact (value.plain.followed (trailing_inQuery (query.plain written))).bracketed
  | .not condition, written => by
    obtain ⟨items, reads, -⟩ := condition.plain written
    rw [Condition.print_eq]
    exact .of_group (reads_not.append (.inl (by decide)) reads).bracketed
  | .junction connective conditions, written => by
    obtain ⟨lists, each⟩ := Condition.plainAll conditions written
    rw [Condition.print_eq]
    exact .of_group (Reads.join (seam_separator connective) (reads_separator connective) each).bracketed

theorem Condition.plainAll : (conditions : List Condition) →
    (∀ literal ∈ Condition.literalsAll conditions, Plain literal.print) →
    ∃ lists, List.Forall₂ Reads (Condition.printAll conditions) lists
  | [], _ => ⟨[], .nil⟩
  | condition :: conditions, written => by
    obtain ⟨first, rest⟩ := List.forall_mem_append.mp written
    obtain ⟨items, reads, -⟩ := condition.plain first
    obtain ⟨lists, each⟩ := Condition.plainAll conditions rest
    exact ⟨items :: lists, .cons reads each⟩

theorem Statement.plain : (statement : Statement) → (∀ literal ∈ statement.literals, Plain literal.print) →
    Plain statement.print
  | ⟨outputs, table, joins, none, groupBy, orderBy, limit, offset⟩, _ => by
    have tail := trailing_printTail groupBy orderBy limit offset
    rw [Statement.print]
    exact (plain_printHead outputs table joins).followed tail
  | ⟨outputs, table, joins, some condition, groupBy, orderBy, limit, offset⟩, written => by
    have tail := trailing_printTail groupBy orderBy limit offset
    rw [Statement.print]
    simp only [List.append_assoc]
    have restricted := (condition.plain written).followed tail
    exact (plain_printHead outputs table joins).followed (.link (by decide) restricted)

end

end Parts

end RecordQuery.Sql
