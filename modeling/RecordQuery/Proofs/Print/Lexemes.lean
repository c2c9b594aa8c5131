import RecordQuery.Proofs.Lexing.Literal

/-! The tokens of a query in canonical form. Whether a signed name stays whole depends on what stands
before it, and whether a name is taken for a keyword on whether it stands in brackets; so both go by
the place. -/
namespace RecordQuery

/-- Where a restriction stands in the text of a query. -/
inductive Place where
  /-- The whole of a clause; there a junction goes without brackets. -/
  | clause
  /-- In a clause, outside of all brackets. -/
  | chain
  /-- Right after an opening bracket. -/
  | opening
  /-- In brackets, but not first. -/
  | inside
  deriving DecidableEq, Repr

namespace Place

def isNested : Place → Bool
  | clause => false
  | _ => true

/-- Whether a value may begin here, so that a sign belongs to a number. -/
def isFresh : Place → Bool
  | opening => true
  | _ => false

/-- Whether a keyword would open a clause here. -/
def isExposed : Place → Bool
  | clause | chain => true
  | opening | inside => false

/-- The place after something in the same brackets. -/
def next : Place → Place
  | clause | chain => chain
  | opening | inside => inside

/-- The place of the first restriction of a junction. -/
def first : Place → Place
  | clause => chain
  | _ => opening

end Place

/-- The tokens of a piece of text, by whether a value may begin there. -/
abbrev Piece := Bool → List Lexeme

/-- Pieces with commas between them. -/
def separated (fresh : Bool) : List Piece → List Lexeme
  | [] => []
  | [piece] => piece fresh
  | piece :: next :: pieces => piece fresh ++ Lexeme.comma :: separated true (next :: pieces)

def Comparator.lexeme (comparator : Comparator) : Lexeme :=
  (if comparator.isPattern then .word else .operator, comparator.symbol)

def Value.piece (value : Value) : Piece := fun _ => [(.string, value.literal)]

def AggregateCall.piece (call : AggregateCall) : Piece := fun _ =>
  [Lexeme.word call.function.name, Lexeme.opening, Lexeme.word call.property, Lexeme.closing]

def SortKey.piece (key : SortKey) : Piece := fun fresh =>
  key.property.lexemes fresh ++ [Lexeme.word key.direction.name]

def headLexemes (type : RecordType) (properties : List Text) (aggregates : List AggregateCall) :
    List Lexeme :=
  Lexeme.word "SELECT" ::
    (separated false (properties.map Text.lexemes ++ aggregates.map AggregateCall.piece) ++
      Lexeme.word "FROM" :: type.name.lexemes false)

def Clause.keywords : Clause → List Lexeme
  | where_ => [Lexeme.word "WHERE"]
  | groupBy => [Lexeme.word "GROUP", Lexeme.word "BY"]
  | orderBy => [Lexeme.word "ORDER", Lexeme.word "BY"]
  | limit => [Lexeme.word "LIMIT"]
  | offset => [Lexeme.word "OFFSET"]

/-- What stands in each clause of a query, its keywords apart. -/
def clauseLexemes (restriction : Option (List Lexeme)) (groupBy : List Text) (orderBy : List SortKey)
    (limit offset : Option Int) : Clause → Option (List Lexeme)
  | .where_ => restriction
  | .groupBy => if groupBy.isEmpty then none else some (separated false (groupBy.map Text.lexemes))
  | .orderBy => if orderBy.isEmpty then none else some (separated false (orderBy.map SortKey.piece))
  | .limit => limit.map fun count => [Lexeme.word (Text.ofInt count)]
  | .offset => offset.map fun count => [Lexeme.word (Text.ofInt count)]

/-- The clauses in the given order, those that are missing left out. -/
def tailLexemes (own : Clause → Option (List Lexeme)) (order : List Clause) : List Lexeme :=
  order.flatMap fun clause => (own clause).elim [] (clause.keywords ++ ·)

theorem tailLexemes_none {own : Clause → Option (List Lexeme)} (missing : own clause = none) :
    tailLexemes own (clause :: order) = tailLexemes own order := by
  simp [tailLexemes, missing]

theorem tailLexemes_some {own : Clause → Option (List Lexeme)} (given : own clause = some lexemes) :
    tailLexemes own (clause :: order) = clause.keywords ++ (lexemes ++ tailLexemes own order) := by
  simp [tailLexemes, given]

theorem own_eq_none_of_tailLexemes {own : Clause → Option (List Lexeme)}
    (nothing : tailLexemes own order = []) : ∀ clause ∈ order, own clause = none := by
  intro clause member
  have empty := List.flatMap_eq_nil_iff.mp nothing clause member
  cases given : own clause with
  | none => rfl
  | some lexemes =>
    rw [given] at empty
    cases clause <;> cases empty

def Clause.all : List Clause := [where_, groupBy, orderBy, limit, offset]

/-- What stands in the brackets of a junction, if it has some. -/
def Place.bracket (place : Place) (lexemes : List Lexeme) : List Lexeme :=
  if place.isNested then Lexeme.opening :: (lexemes ++ [Lexeme.closing]) else lexemes

mutual

/-- The tokens of a restriction. -/
def Restriction.lexemes (place : Place) : Restriction → List Lexeme
  | .missing => []
  | .comparison comparator path value =>
    path.lexemes place.isFresh ++ comparator.lexeme :: value.piece false
  | .isNull path => path.lexemes place.isFresh ++ [Lexeme.word "ISNULL"]
  | .inValues path values =>
    path.lexemes place.isFresh ++ Lexeme.word "IN" :: Lexeme.opening ::
      (separated true (values.map Value.piece) ++ [Lexeme.closing])
  | .inQuery path query =>
    path.lexemes place.isFresh ++ Lexeme.word "IN" :: Lexeme.opening ::
      (query.lexemes ++ [Lexeme.closing])
  | .junction _ [] => place.bracket []
  | .junction connective (child :: children) =>
    place.bracket
      (child.lexemes place.first ++ Restriction.linkLexemes connective place.first.next children)
  | .not child => Lexeme.word "NOT" :: child.lexemes place.next

/-- The tokens of restrictions that each follow a connective. -/
def Restriction.linkLexemes (connective : Connective) (place : Place) :
    List Restriction → List Lexeme
  | [] => []
  | child :: children =>
    Lexeme.word connective.symbol ::
      (child.lexemes place ++ Restriction.linkLexemes connective place children)

/-- The tokens of a query. -/
def Criteria.lexemes : Criteria → List Lexeme
  | ⟨type, properties, aggregates, none, groupBy, orderBy, limit, offset, _, _⟩ =>
    headLexemes type properties aggregates ++
      tailLexemes (clauseLexemes none groupBy orderBy limit offset) Clause.all
  | ⟨type, properties, aggregates, some restriction, groupBy, orderBy, limit, offset, _, _⟩ =>
    headLexemes type properties aggregates ++
      tailLexemes (clauseLexemes (some (restriction.lexemes .clause)) groupBy orderBy limit offset)
        Clause.all

end

mutual

/-- Every query in the restriction satisfies `frame`, and every leaf satisfies `leaf` at its place. -/
def Restriction.Holds (frame : Criteria → Prop) (leaf : Place → Restriction → Prop) (place : Place) :
    Restriction → Prop
  | .missing => leaf place .missing
  | .comparison comparator path value => leaf place (.comparison comparator path value)
  | .isNull path => leaf place (.isNull path)
  | .inValues path values => leaf place (.inValues path values)
  | .inQuery path query => leaf place (.inQuery path query) ∧ query.Holds frame leaf
  | .junction _ children => Restriction.HoldsAll frame leaf place.first children
  | .not child => child.Holds frame leaf place.next

def Restriction.HoldsAll (frame : Criteria → Prop) (leaf : Place → Restriction → Prop)
    (place : Place) : List Restriction → Prop
  | [] => True
  | child :: children =>
    child.Holds frame leaf place ∧ Restriction.HoldsAll frame leaf place.next children

/-- The query and all its subqueries satisfy `frame`, and every leaf satisfies `leaf`. -/
def Criteria.Holds (frame : Criteria → Prop) (leaf : Place → Restriction → Prop) : Criteria → Prop
  | ⟨type, properties, aggregates, none, groupBy, orderBy, limit, offset, aliases, isSubquery⟩ =>
    frame ⟨type, properties, aggregates, none, groupBy, orderBy, limit, offset, aliases, isSubquery⟩
  | ⟨type, properties, aggregates, some restriction, groupBy, orderBy, limit, offset, aliases,
      isSubquery⟩ =>
    frame ⟨type, properties, aggregates, some restriction, groupBy, orderBy, limit, offset, aliases,
      isSubquery⟩ ∧ restriction.Holds frame leaf .clause

end

theorem Place.next_next (place : Place) : place.next.next = place.next := by
  cases place <;> rfl

theorem Place.isFresh_next (place : Place) : place.next.isFresh = false := by
  cases place <;> rfl

theorem Place.isNested_next (place : Place) : place.next.isNested = true := by
  cases place <;> rfl

theorem Place.isNested_first (place : Place) : place.first.isNested = true := by
  cases place <;> rfl

/-- What stands in each clause of the query. -/
def Criteria.own (criteria : Criteria) : Clause → Option (List Lexeme) :=
  clauseLexemes (criteria.restriction.map (·.lexemes .clause)) criteria.groupBy criteria.orderBy
    criteria.limit criteria.offset

theorem Criteria.lexemes_eq (criteria : Criteria) :
    criteria.lexemes = headLexemes criteria.type criteria.properties criteria.aggregates ++
      tailLexemes criteria.own Clause.all := by
  obtain ⟨_, _, _, restriction, _, _, _, _, _, _⟩ := criteria
  cases restriction <;> rfl

/-- A list is the same wherever it starts if its first piece is. -/
theorem separated_fresh {pieces : List Piece}
    (same : ∀ piece ∈ pieces.head?, piece false = piece true) :
    separated false pieces = separated true pieces := by
  cases pieces with
  | nil => rfl
  | cons piece pieces =>
    have first := same piece rfl
    cases pieces with
    | nil => exact first
    | cons next pieces => rw [separated, separated, first]

theorem Text.lexemes_true (w : Text) : w.lexemes true = [Lexeme.word w] := by
  simp [Text.lexemes]

theorem Text.lexemes_of_unsigned {w : Text} (unsigned : w.isSigned = false) (fresh : Bool) :
    w.lexemes fresh = [Lexeme.word w] := by
  simp [Text.lexemes, unsigned]

/-- What stands in a list is a comma or a part of a piece. -/
theorem mem_separated {pieces : List Piece} {lexeme : Lexeme}
    (member : lexeme ∈ separated fresh pieces) :
    lexeme = Lexeme.comma ∨ ∃ piece ∈ pieces, ∃ fresh, lexeme ∈ piece fresh := by
  induction pieces generalizing fresh with
  | nil => cases member
  | cons piece pieces ih =>
    cases pieces with
    | nil => exact .inr ⟨piece, .head _, fresh, member⟩
    | cons next pieces =>
      rw [separated, List.mem_append, List.mem_cons] at member
      rcases member with inside | rfl | later
      · exact .inr ⟨piece, .head _, fresh, inside⟩
      · exact .inl rfl
      · rcases ih later with rfl | ⟨other, among, fresh, inside⟩
        · exact .inl rfl
        · exact .inr ⟨other, .tail _ among, fresh, inside⟩

section Holds

variable {frame other : Criteria → Prop} {leaf stronger : Place → Restriction → Prop} {place : Place}

theorem Criteria.holds_iff {criteria : Criteria} : criteria.Holds frame leaf ↔
    frame criteria ∧ ∀ restriction ∈ criteria.restriction, restriction.Holds frame leaf .clause := by
  obtain ⟨_, _, _, restriction, _, _, _, _, _, _⟩ := criteria
  cases restriction <;> simp [Criteria.Holds]

/-- All restrictions after the first have the same place. -/
theorem Restriction.holdsAll_next_iff : Restriction.HoldsAll frame leaf place.next children ↔
    ∀ child ∈ children, child.Holds frame leaf place.next := by
  induction children with
  | nil => simp [Restriction.HoldsAll]
  | cons child children ih => simp [Restriction.HoldsAll, Place.next_next, ih]

end Holds

end RecordQuery
