import RecordQuery.Proofs.Print.Lexemes
import RecordQuery.Query.Select

namespace RecordQuery

/-- A word that no operator spells. -/
def Text.isPath (path : Text) : Bool := path.isWord && (Operator.ofSymbol? path).isNone

/-- A keyword that opens a clause by itself. -/
def Text.opensClause (w : Text) : Bool :=
  w.sameFold "WHERE" || w.sameFold "LIMIT" || w.sameFold "OFFSET"

/-- Text without zero bytes. -/
def Value.IsQuotable : Value → Prop
  | .text t => ∀ b ∈ t, b ≠ 0
  | _ => False

/-- Keys that can follow `BY`. -/
structure SpelledKeys (keys : List Text) : Prop where
  words : ∀ key ∈ keys, key.isWord = true
  closed : ∀ key ∈ keys, key.opensClause = false
  unsigned : ∀ key ∈ keys.head?, key.isSigned = false

/-- The names of a query, its restriction apart, can be spelled and mean what they should. -/
structure Criteria.SpelledFrame (criteria : Criteria) : Prop where
  type : criteria.type.name.isWord = true
  selects : criteria.properties ≠ [] ∨ criteria.aggregates ≠ []
  properties : ∀ path ∈ criteria.properties, path.isWord = true
  wildcard : Query.wildcardText ∈ criteria.properties →
    criteria.type.defaultField = Query.wildcardText
  arguments : ∀ call ∈ criteria.aggregates, call.property.isWord = true
  counted : ∀ call ∈ criteria.aggregates, call.function = .count →
    call.property ≠ Query.wildcardText
  named : ∀ call ∈ criteria.aggregates, call.function ≠ .unnamed
  groupBy : SpelledKeys criteria.groupBy
  orderBy : SpelledKeys (criteria.orderBy.map (·.property))
  limit : ∀ count ∈ criteria.limit, 0 ≤ count
  offset : ∀ count ∈ criteria.offset, 0 ≤ count

/-- The path and the values of a leaf can be spelled. -/
def Restriction.SpelledLeaf : Restriction → Prop
  | .comparison _ path value => path.isPath = true ∧ value.IsQuotable
  | .isNull path => path.isPath = true
  | .inValues path values => path.isPath = true ∧ ∀ value ∈ values, value.IsQuotable
  | .inQuery path _ => path.isPath = true
  | .missing | .junction _ _ | .not _ => False

def Restriction.Spelled (restriction : Restriction) (place : Place) : Prop :=
  restriction.Holds Criteria.SpelledFrame (fun _ leaf => leaf.SpelledLeaf) place

def Criteria.Spelled (criteria : Criteria) : Prop :=
  criteria.Holds Criteria.SpelledFrame fun _ leaf => leaf.SpelledLeaf

theorem Text.isWord_of_isPath {path : Text} (spelled : path.isPath = true) : path.isWord = true := by
  simp only [isPath, Bool.and_eq_true] at spelled
  exact spelled.1

/-- A text falls into the tokens of a piece, whatever follows that ends a word. -/
def Scanned (text : Text) (piece : Piece) : Prop :=
  ∀ fresh rest lexemes, Text.Stops rest → Scans false rest lexemes →
    Scans fresh (text ++ rest) (piece fresh ++ lexemes)

namespace Text

/-- A word with a blank on either side. -/
def spaced (w : Text) : Text := ofString " " ++ (w ++ ofString " ")

theorem stops_nil : Stops [] := by
  intro b head
  cases head

theorem stops_space (rest : Text) : Stops (ofString " " ++ rest) := by
  intro b head
  cases head
  decide

theorem stops_comma (rest : Text) : Stops (ofString ", " ++ rest) := by
  intro b head
  cases head
  decide

theorem stops_opening (rest : Text) : Stops (ofString "(" ++ rest) := by
  intro b head
  cases head
  decide

theorem stops_closing (rest : Text) : Stops (ofString ")" ++ rest) := by
  intro b head
  cases head
  decide

end Text

section Pieces

theorem Scans.spaced {w : Text} (plain : w.isPlain = true) (scans : Scans false rest lexemes) :
    Scans fresh (w.spaced ++ rest) (Lexeme.word w :: lexemes) := by
  rw [Text.spaced, List.append_assoc, List.append_assoc]
  exact .space (.plain plain (Text.stops_space _) (.space scans))

theorem scanned_word {w : Text} (word : w.isWord = true) : Scanned w w.lexemes :=
  fun _ _ _ stops scans => .word word stops scans

theorem scanned_literal {value : Value} (quotable : value.IsQuotable) :
    Scanned value.literal value.piece := by
  cases value with
  | text t =>
    intro fresh rest lexemes _ scans
    rw [Value.piece, Text.literal_text]
    exact .quotedLiteral quotable scans
  | _ => exact quotable.elim

theorem Aggregate.isPlain_name {function : Aggregate} (named : function ≠ .unnamed) :
    function.name.isPlain = true := by
  cases function with
  | unnamed => exact absurd rfl named
  | _ => decide

theorem scanned_call {call : AggregateCall} (named : call.function ≠ .unnamed)
    (word : call.property.isWord = true) : Scanned call.text call.piece := by
  intro fresh rest lexemes _ scans
  have whole : call.property.lexemes true = [Lexeme.word call.property] := by
    simp [Text.lexemes]
  have argument : Scans true (call.property ++ (Text.ofString ")" ++ rest))
      (call.property.lexemes true ++ Lexeme.closing :: lexemes) :=
    .word word (Text.stops_closing rest) (.closing scans)
  rw [whole] at argument
  rw [AggregateCall.text, List.append_assoc, List.append_assoc, List.append_assoc]
  exact .plain (Aggregate.isPlain_name named) (Text.stops_opening _) (.opening argument)

theorem scanned_key {key : SortKey} (word : key.property.isWord = true) :
    Scanned key.text key.piece := by
  intro fresh rest lexemes stops scans
  have direction : key.direction.name.isPlain = true := by cases key.direction <;> decide
  rw [SortKey.text, SortKey.piece, List.append_assoc, List.append_assoc, List.append_assoc]
  exact .word word (Text.stops_space _) (.space (.plain direction stops scans))

theorem scanned_separated {texts : List Text} {pieces : List Piece}
    (all : List.Forall₂ Scanned texts pieces) (filled : texts ≠ []) :
    Scanned (Text.join ", " texts) fun fresh => separated fresh pieces := by
  induction all with
  | nil => exact absurd rfl filled
  | @cons text piece texts pieces first more ih =>
    cases more with
    | nil =>
      rw [Text.join, List.intercalate_singleton]
      exact first
    | @cons other next texts pieces second more =>
      intro fresh rest lexemes stops scans
      have later := ih (by simp) true rest lexemes stops scans
      rw [Text.join, List.intercalate_cons_cons, List.append_assoc, List.append_assoc]
      simp only [separated, List.append_assoc]
      exact first _ _ _ (Text.stops_comma _) (.comma (.space later))

/-- A value may begin after operator characters, but not after a word. -/
theorem Scans.compared {text : Text} {piece : Piece} (comparator : Comparator) (operand : Scanned text piece)
    (stops : Text.Stops rest) (scans : Scans false rest lexemes) :
    Scans fresh (comparator.symbol ++ (Text.ofString " " ++ (text ++ rest)))
      (comparator.lexeme :: (piece (!comparator.isPattern) ++ lexemes)) := by
  have literal := fun fresh => operand fresh rest lexemes stops scans
  by_cases pattern : comparator.isPattern = true
  · have plain : comparator.symbol.isPlain = true := by
      cases comparator <;> first | decide | cases pattern
    rw [Comparator.lexeme, if_pos pattern, pattern]
    exact .plain plain (Text.stops_space _) (.space (literal false))
  · rw [Comparator.lexeme, if_neg pattern, Bool.not_eq_true _ |>.mp pattern]
    refine .symbol ?_ ?_ ?_ (.space (literal true))
    · cases comparator <;> decide
    · cases comparator <;> first | decide +kernel | exact absurd rfl pattern
    · intro b head
      cases head
      decide

end Pieces

/-- The keywords before a clause, with the blanks around them. -/
def Clause.keywordText : Clause → Text
  | where_ => " WHERE "
  | groupBy => " GROUP BY "
  | orderBy => " ORDER BY "
  | limit => " LIMIT "
  | offset => " OFFSET "

theorem Clause.stops_keywordText (clause : Clause) (rest : Text) :
    Text.Stops (clause.keywordText ++ rest) := by
  cases clause
  all_goals
    intro b head
    cases head
    decide

theorem Clause.scans_keywords (clause : Clause) (scans : Scans false rest lexemes) :
    Scans fresh (clause.keywordText ++ rest) (clause.keywords ++ lexemes) := by
  have plain : ∀ w ∈ ["WHERE", "GROUP", "ORDER", "BY", "LIMIT", "OFFSET"],
      (Text.ofString w).isPlain = true := by
    decide
  have by_ := plain "BY" (by simp)
  cases clause with
  | where_ => exact .spaced (plain "WHERE" (by simp)) scans
  | groupBy =>
    exact .space (.plain (plain "GROUP" (by simp)) (Text.stops_space _) (.spaced by_ scans))
  | orderBy =>
    exact .space (.plain (plain "ORDER" (by simp)) (Text.stops_space _) (.spaced by_ scans))
  | limit => exact .spaced (plain "LIMIT" (by simp)) scans
  | offset => exact .spaced (plain "OFFSET" (by simp)) scans

/-- After the keyword of its clause a text falls into these tokens. -/
def ScannedClause (text : Text) (own : List Lexeme) : Prop :=
  ∀ rest lexemes, Text.Stops rest → Scans false rest lexemes →
    Scans false (text ++ rest) (own ++ lexemes)

/-- The texts of the clauses, those that are missing left out. -/
def clauseTexts (text : Clause → Option Text) (order : List Clause) : Text :=
  order.flatMap fun clause => (text clause).elim [] (clause.keywordText ++ ·)

/-- Clause by clause, the texts fall into the tokens. -/
theorem scans_clauses {text : Clause → Option Text} {own : Clause → Option (List Lexeme)}
    (each : ∀ clause ∈ order, Option.Rel ScannedClause (text clause) (own clause))
    (stops : Text.Stops rest) (scans : Scans false rest lexemes) :
    Text.Stops (clauseTexts text order ++ rest) ∧
      Scans false (clauseTexts text order ++ rest) (tailLexemes own order ++ lexemes) := by
  induction order with
  | nil => exact ⟨stops, scans⟩
  | cons clause order ih =>
    obtain ⟨stopsLater, later⟩ := ih fun other member => each other (.tail _ member)
    have here := each clause (.head _)
    simp only [clauseTexts, tailLexemes, List.flatMap_cons, List.append_assoc] at stopsLater later ⊢
    cases written : text clause with
    | none =>
      cases owned : own clause with
      | none => exact ⟨stopsLater, later⟩
      | some lexemes =>
        rw [written, owned] at here
        cases here
    | some t =>
      cases owned : own clause with
      | none =>
        rw [written, owned] at here
        cases here
      | some own =>
        rw [written, owned] at here
        cases here with
        | some here =>
          simp only [Option.elim_some, List.append_assoc]
          exact ⟨clause.stops_keywordText _,
            clause.scans_keywords (here _ _ stopsLater later)⟩

/-- The text of each clause of a query, its keywords apart. -/
def Criteria.clauseText (criteria : Criteria) : Clause → Option Text
  | .where_ => criteria.restriction.map (·.write false)
  | .groupBy => if criteria.groupBy.isEmpty then none else some (Text.join ", " criteria.groupBy)
  | .orderBy =>
    if criteria.orderBy.isEmpty then none
    else some (Text.join ", " (criteria.orderBy.map (·.text)))
  | .limit => criteria.limit.map Text.ofInt
  | .offset => criteria.offset.map Text.ofInt

theorem Criteria.text_eq (criteria : Criteria) :
    criteria.text = headText criteria.type criteria.properties criteria.aggregates ++
      clauseTexts criteria.clauseText Clause.all := by
  obtain ⟨_, _, _, restriction, groupBy, orderBy, limit, offset, _, _⟩ := criteria
  cases restriction <;> cases groupBy <;> cases orderBy <;> cases limit <;> cases offset <;>
    simp [Criteria.text, tailText, clauseTexts, Clause.all, Criteria.clauseText, Clause.keywordText]

/-- A list of things is scanned if each of them is. -/
theorem scanned_list {text : α → Text} {piece : α → Piece} {things : List α}
    (each : ∀ thing ∈ things, Scanned (text thing) (piece thing)) :
    List.Forall₂ Scanned (things.map text) (things.map piece) := by
  rw [List.forall₂_map_left_iff, List.forall₂_map_right_iff]
  exact List.forall₂_same.mpr each

theorem scans_head {criteria : Criteria} (spelled : criteria.SpelledFrame) (stops : Text.Stops rest)
    (scans : Scans false rest lexemes) :
    Scans fresh (headText criteria.type criteria.properties criteria.aggregates ++ rest)
      (headLexemes criteria.type criteria.properties criteria.aggregates ++ lexemes) := by
  have properties : List.Forall₂ Scanned (criteria.properties.map fun path => path) _ :=
    scanned_list fun path member => scanned_word (spelled.properties path member)
  have aggregates := scanned_list fun call member =>
    scanned_call (spelled.named call member) (spelled.arguments call member)
  have items := List.rel_append properties aggregates
  rw [List.map_id'] at items
  have filled : criteria.properties ++ criteria.aggregates.map (·.text) ≠ [] := by
    have selects := spelled.selects
    simpa [Classical.or_iff_not_imp_left] using selects
  have select : (Text.ofString "SELECT").isPlain = true := by decide
  have from_ : (Text.ofString "FROM").isPlain = true := by decide
  have type : Scans false (Text.spaced "FROM" ++ _) _ :=
    .spaced from_ (scanned_word spelled.type false rest lexemes stops scans)
  have list := scanned_separated items filled false _ _ (Text.stops_space _) type
  rw [headText, headLexemes]
  simp only [List.append_assoc, List.cons_append]
  exact .plain select (Text.stops_space _) (.space list)

theorem option_rel_map {related : β → γ → Prop} {left : α → β} {right : α → γ} {value : Option α}
    (each : ∀ x ∈ value, related (left x) (right x)) :
    Option.Rel related (value.map left) (value.map right) := by
  cases value with
  | none => exact .none
  | some x => exact .some (each x rfl)

/-- A clause with a list is there unless the list is empty. -/
theorem scanned_list_clause {text : α → Text} {piece : α → Piece} {things : List α}
    (each : ∀ thing ∈ things, Scanned (text thing) (piece thing)) :
    Option.Rel ScannedClause
      (if things.isEmpty then none else some (Text.join ", " (things.map text)))
      (if things.isEmpty then none else some (separated false (things.map piece))) := by
  cases things with
  | nil => exact .none
  | cons thing things => exact .some (scanned_separated (scanned_list each) (by simp) false)

theorem scanned_count_clause {limit : Option Int} (nonneg : ∀ count ∈ limit, 0 ≤ count) :
    Option.Rel ScannedClause (limit.map Text.ofInt)
      (limit.map fun count => [Lexeme.word (Text.ofInt count)]) := by
  apply option_rel_map
  intro count member rest lexemes stops scans
  exact .plain (Text.isPlain_ofInt (nonneg count member)) stops scans

/-- A query falls into its tokens if its restriction does. -/
theorem Criteria.scans_of_restriction {criteria : Criteria} (spelled : criteria.SpelledFrame)
    (restricted : ∀ restriction ∈ criteria.restriction,
      ScannedClause (restriction.write false) (restriction.lexemes .clause)) :
    Scanned criteria.text fun _ => criteria.lexemes := by
  intro fresh rest lexemes stops scans
  rw [criteria.text_eq, criteria.lexemes_eq, List.append_assoc, List.append_assoc]
  have each : ∀ clause ∈ Clause.all,
      Option.Rel ScannedClause (criteria.clauseText clause) (criteria.own clause) := by
    intro clause _
    cases clause with
    | where_ =>
      simp only [Criteria.own, clauseLexemes, Criteria.clauseText]
      exact option_rel_map restricted
    | groupBy =>
      have keys := scanned_list_clause fun key member => scanned_word (spelled.groupBy.words key member)
      rwa [List.map_id'] at keys
    | orderBy =>
      apply scanned_list_clause
      intro key member
      exact scanned_key (spelled.orderBy.words _ (List.mem_map_of_mem member))
    | limit => exact scanned_count_clause spelled.limit
    | offset => exact scanned_count_clause spelled.offset
  obtain ⟨stopsTail, tail⟩ := scans_clauses each stops scans
  exact scans_head spelled stopsTail tail

theorem Text.join_cons (separator text : Text) (texts : List Text) :
    Text.join separator (text :: texts) = text ++ texts.flatMap (separator ++ ·) := by
  induction texts generalizing text with
  | nil => simp [Text.join]
  | cons next texts ih =>
    have later := ih next
    rw [Text.join] at later ⊢
    rw [List.intercalate_cons_cons, later, List.flatMap_cons, List.append_assoc, List.append_assoc]

/-- A path and the opening bracket after `IN`. -/
theorem Scans.membership {path rest : Text} (word : path.isWord = true)
    (scans : Scans true rest lexemes) :
    Scans fresh (path ++ (Text.ofString " IN (" ++ rest))
      (path.lexemes fresh ++ Lexeme.word "IN" :: Lexeme.opening :: lexemes) := by
  have plain : (Text.ofString "IN").isPlain = true := by decide
  exact .word word (Text.stops_space _) (.spaced plain (.opening scans))

mutual

/-- A restriction falls into its tokens. -/
theorem Restriction.scans {rest : Text} {lexemes : List Lexeme} (stops : Text.Stops rest)
    (scans : Scans false rest lexemes) (place : Place) :
    (restriction : Restriction) → restriction.Spelled place →
      Scans place.isFresh (restriction.write place.isNested ++ rest)
        (restriction.lexemes place ++ lexemes)
  | .missing, spelled => spelled.elim
  | .comparison comparator path value, spelled => by
    rw [Restriction.write, Restriction.lexemes]
    simp only [List.append_assoc, List.cons_append]
    exact .word (Text.isWord_of_isPath spelled.1) (Text.stops_space _)
      (.space (.compared comparator (scanned_literal spelled.2) stops scans))
  | .isNull path, spelled => by
    have word : (Text.ofString "ISNULL").isPlain = true := by decide
    rw [Restriction.write, Restriction.lexemes]
    simp only [List.append_assoc]
    exact .word (Text.isWord_of_isPath spelled) (Text.stops_space _)
      (.space (.plain word stops scans))
  | .inValues path values, spelled => by
    have word := Text.isWord_of_isPath spelled.1
    rw [Restriction.write, Restriction.lexemes]
    simp only [List.append_assoc, List.cons_append, List.nil_append]
    cases values with
    | nil => exact .membership word (.closing scans)
    | cons value values =>
      have list := scanned_list fun value member => scanned_literal (spelled.2 value member)
      exact .membership word
        (scanned_separated list (by simp) true _ _ (Text.stops_closing _) (.closing scans))
  | .inQuery path query, spelled => by
    have inner := Criteria.scans query spelled.2 true _ _ (Text.stops_closing rest) (.closing scans)
    rw [Restriction.write, Restriction.lexemes]
    simp only [List.append_assoc, List.cons_append, List.nil_append]
    exact .membership (Text.isWord_of_isPath spelled.1) inner
  | .junction connective [], _ => by
    have empty : Text.join (" " ++ connective.symbol ++ " ") [] = [] := rfl
    rw [Restriction.write, Restriction.lexemes, Restriction.writeAll, empty, Place.bracket]
    cases place with
    | clause => exact scans
    | _ => exact .opening (.closing scans)
  | .junction connective (child :: children), spelled => by
    have chain : ∀ {rest lexemes}, Text.Stops rest → Scans false rest lexemes →
        Scans place.first.isFresh
          (child.write true ++
            ((Restriction.writeAll children).flatMap (connective.symbol.spaced ++ ·) ++ rest))
          (child.lexemes place.first ++
            (Restriction.linkLexemes connective place.first.next children ++ lexemes)) := by
      intro rest lexemes stops scans
      obtain ⟨stopsLater, later⟩ :=
        Restriction.scans_links stops scans connective place.first children spelled.2
      have here := Restriction.scans stopsLater later place.first child spelled.1
      rwa [Place.isNested_first] at here
    have joint : (" " ++ connective.symbol ++ " " : Text) = connective.symbol.spaced := by
      rw [Text.spaced, List.append_assoc]
    rw [Restriction.write, Restriction.lexemes, Restriction.writeAll, joint, Text.join_cons,
      Place.bracket]
    cases place with
    | clause =>
      have whole := chain stops scans
      rwa [← List.append_assoc, ← List.append_assoc] at whole
    | _ =>
      have whole := chain (Text.stops_closing rest) (.closing scans)
      simp only [Place.isNested, ↓reduceIte, List.append_assoc, List.cons_append, List.nil_append]
      exact .opening whole
  | .not child, spelled => by
    have word : (Text.ofString "NOT").isPlain = true := by decide
    have inner := Restriction.scans stops scans place.next child spelled
    rw [Place.isFresh_next, Place.isNested_next] at inner
    rw [Restriction.write, Restriction.lexemes]
    exact .plain word (Text.stops_space _) (.space inner)

/-- Restrictions fall into their tokens, each after a connective. -/
theorem Restriction.scans_links {rest : Text} {lexemes : List Lexeme} (stops : Text.Stops rest)
    (scans : Scans false rest lexemes) (connective : Connective) (place : Place) :
    (children : List Restriction) →
      Restriction.HoldsAll Criteria.SpelledFrame (fun _ leaf => leaf.SpelledLeaf) place.next children →
      Text.Stops ((Restriction.writeAll children).flatMap (connective.symbol.spaced ++ ·) ++ rest) ∧
        Scans false ((Restriction.writeAll children).flatMap (connective.symbol.spaced ++ ·) ++ rest)
          (Restriction.linkLexemes connective place.next children ++ lexemes)
  | [], _ => ⟨stops, scans⟩
  | child :: children, spelled => by
    obtain ⟨stopsLater, later⟩ := Restriction.scans_links stops scans connective place.next children
      spelled.2
    have word : connective.symbol.isPlain = true := by cases connective <;> decide
    have here := Restriction.scans stopsLater later place.next child spelled.1
    rw [Place.isFresh_next, Place.isNested_next, Place.next_next] at here
    rw [Restriction.writeAll, Restriction.linkLexemes, List.flatMap_cons]
    simp only [List.append_assoc, List.cons_append]
    exact ⟨Text.stops_space _, .spaced word here⟩

/-- A query falls into its tokens. -/
theorem Criteria.scans : (criteria : Criteria) → criteria.Spelled →
    Scanned criteria.text fun _ => criteria.lexemes
  | ⟨_, _, _, none, _, _, _, _, _, _⟩, spelled =>
    Criteria.scans_of_restriction spelled fun _ given => by cases given
  | ⟨_, _, _, some restriction, _, _, _, _, _, _⟩, spelled =>
    Criteria.scans_of_restriction spelled.1 fun _ given rest lexemes stops scans => by
      cases given
      exact Restriction.scans stops scans .clause restriction spelled.2

end

end RecordQuery
