import RecordQuery.Criteria.Rules

namespace RecordQuery

def Restriction.isJunction : Restriction → Bool
  | .junction _ _ => true
  | _ => false

mutual

/-- How many levels a restriction takes. A subquery takes one for itself. -/
def Restriction.levels : Restriction → Nat
  | .missing | .comparison _ _ _ | .isNull _ | .inValues _ _ => 1
  | .inQuery _ query => query.levels + 2
  | .junction _ children => Restriction.levelsAll children + 1
  | .not child => child.levels + 1

def Restriction.levelsAll : List Restriction → Nat
  | [] => 0
  | child :: children => max child.levels (Restriction.levelsAll children)

/-- How many levels a query takes. Its restriction is read as if it stood in brackets, of which
only a junction makes use. -/
def Criteria.levels : Criteria → Nat
  | ⟨_, _, _, none, _, _, _, _, _, _⟩ => 0
  | ⟨_, _, _, some restriction, _, _, _, _, _, _⟩ =>
    if restriction.isJunction then restriction.levels else restriction.levels + 1

end

theorem Restriction.levelsAll_le_iff :
    Restriction.levelsAll children ≤ depth ↔ ∀ child ∈ children, child.levels ≤ depth := by
  induction children with
  | nil => simp [Restriction.levelsAll]
  | cons child children ih => rw [Restriction.levelsAll, Nat.max_le, ih, List.forall_mem_cons]

theorem Restriction.levels_pos (restriction : Restriction) : 0 < restriction.levels := by
  cases restriction <;> simp [Restriction.levels]

theorem Criteria.levels_of_none {criteria : Criteria} (without : criteria.restriction = none) :
    criteria.levels = 0 := by
  cases criteria
  cases without
  rfl

theorem Criteria.levels_of_some {criteria : Criteria} {restriction : Restriction}
    (given : criteria.restriction = some restriction) :
    criteria.levels =
      if restriction.isJunction then restriction.levels else restriction.levels + 1 := by
  cases criteria
  cases given
  rfl

theorem Criteria.levels_restriction_le {criteria : Criteria} {restriction : Restriction}
    (given : criteria.restriction = some restriction) : restriction.levels ≤ criteria.levels := by
  rw [levels_of_some given]
  split
  · exact Nat.le_refl _
  · exact Nat.le_succ _

namespace Schema

/-- The path leads to a single value. -/
def HasValue (schema : Schema) (type : RecordType) (path : Text) : Prop :=
  ∃ route, schema.walk type path = .ok route ∧ route.leaf.kind.isPrimitive = true

/-- The path leads to something that rows can be told apart by, which no collection is. -/
def HasKey (schema : Schema) (type : RecordType) (path : Text) : Prop :=
  ∃ route, schema.walk type path = .ok route ∧ route.leaf.kind.isCollection = false

/-- The function applies to what its path leads to. -/
def HasAggregate (schema : Schema) (type : RecordType) (overCollection : Bool)
    (call : AggregateCall) : Prop :=
  call.function ≠ .unnamed ∧ ∃ route, schema.walk type call.property = .ok route ∧
    route.leaf.kind.isPrimitive = true ∧
    checkAggregate call.function call.property route.leaf = .ok () ∧
    route.isCollection = overCollection

/-- Row counts fit 64 bits with sign. -/
def IsRowCount (count : Int) : Prop := 0 ≤ count ∧ count < 0x8000000000000000

/-- What a query needs apart from its restriction. -/
structure Frames (schema : Schema) (packages : Packages) (criteria : Criteria) : Prop where
  known : schema.resolve? packages criteria.type.name = some criteria.type
  selects : criteria.properties ≠ [] ∨ criteria.aggregates ≠ []
  properties : ∀ path ∈ criteria.properties, schema.HasValue criteria.type path
  distinct : criteria.properties.Nodup
  aggregates : ∃ overCollection, ∀ call ∈ criteria.aggregates,
    schema.HasAggregate criteria.type overCollection call
  grouped : criteria.checkGrouping = .ok ()
  groupBy : ∀ path ∈ criteria.groupBy, schema.HasKey criteria.type path
  distinctKeys : criteria.groupBy.Nodup
  orderBy : ∀ key ∈ criteria.orderBy, schema.HasKey criteria.type key.property
  limit : ∀ count ∈ criteria.limit, IsRowCount count
  offset : ∀ count ∈ criteria.offset, IsRowCount count
  aliases : criteria.aliases = Aliases.ofPaths criteria.paths

/-- The subquery can be held against what the path leads to. -/
def Compares (schema : Schema) (type : RecordType) (path : Text) (subquery : Criteria) : Prop :=
  ∃ route, schema.walk type path = .ok route ∧ route.leaf.kind.isCollection = false ∧
    schema.checkSubquery path route.leaf subquery = .ok ()

mutual

/-- The restriction makes sense for rows of this type. -/
def Admits (schema : Schema) (packages : Packages) (type : RecordType) : Restriction → Prop
  | .missing => False
  | .comparison _ path _ => schema.HasKey type path
  | .isNull path => schema.HasKey type path
  | .inValues path values => schema.HasKey type path ∧ values ≠ []
  | .inQuery path query =>
    schema.Compares type path query ∧ query.isSubquery = true ∧ schema.Accepts packages query
  | .junction _ children => 2 ≤ children.length ∧ schema.AdmitsAll packages type children
  | .not child => schema.Admits packages type child

def AdmitsAll (schema : Schema) (packages : Packages) (type : RecordType) :
    List Restriction → Prop
  | [] => True
  | child :: children =>
    schema.Admits packages type child ∧ schema.AdmitsAll packages type children

/-- The query makes sense. -/
def Accepts (schema : Schema) (packages : Packages) : Criteria → Prop
  | ⟨type, properties, aggregates, none, groupBy, orderBy, limit, offset, aliases, isSubquery⟩ =>
    schema.Frames packages ⟨type, properties, aggregates, none, groupBy, orderBy, limit, offset,
      aliases, isSubquery⟩
  | ⟨type, properties, aggregates, some restriction, groupBy, orderBy, limit, offset, aliases,
      isSubquery⟩ =>
    schema.Frames packages ⟨type, properties, aggregates, some restriction, groupBy, orderBy, limit,
      offset, aliases, isSubquery⟩ ∧ schema.Admits packages type restriction

end

variable {schema : Schema} {packages : Packages} {type : RecordType}

theorem admitsAll_iff : schema.AdmitsAll packages type children ↔
    ∀ child ∈ children, schema.Admits packages type child := by
  induction children with
  | nil => simp [AdmitsAll]
  | cons child children ih => simp [AdmitsAll, ih]

theorem accepts_iff {criteria : Criteria} : schema.Accepts packages criteria ↔
    schema.Frames packages criteria ∧
      ∀ restriction ∈ criteria.restriction, schema.Admits packages criteria.type restriction := by
  obtain ⟨_, _, _, restriction, _, _, _, _, _, _⟩ := criteria
  cases restriction <;> simp [Accepts]

end Schema
end RecordQuery
