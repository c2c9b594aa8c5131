import RecordQuery.Proofs.Document.Encoded
import RecordQuery.Proofs.Print.Compiled
import RecordQuery.Proofs.Print.Names
import RecordQuery.Proofs.Schema.Ids

namespace RecordQuery

/-- All names are ordinary ones: identifiers that the language has not reserved, with dots between them
in the names of types. -/
structure Schema.PlainlyNamed (schema : Schema) : Prop where
  types : ∀ type ∈ schema.types, type.name.isDotted = true
  fields : ∀ type ∈ schema.types, ∀ field ∈ type.fields,
    field.name.isIdentifier = true ∧ field.name.isReserved = false

/-- The path of a leaf is dotted. -/
def Restriction.DottedLeaf (leaf : Restriction) : Prop := ∀ path ∈ leaf.property?, path.isDotted = true

variable {schema : Schema} {packages : Packages}

section PlainlyNamed

variable (plain : schema.PlainlyNamed)

include plain

theorem Schema.PlainlyNamed.isDotted (member : type ∈ schema.types)
    (walked : schema.walk type path = .ok route) : path.isDotted = true := by
  have names : path.splitOn (Text.ascii '.') = route.names := (walkNames_names walked).symm
  rw [Text.isDotted, names, List.all_eq_true]
  intro segment listed
  obtain ⟨step, inside, rfl⟩ := List.mem_map.mp listed
  obtain ⟨known, owned⟩ := walkNames_steps member walked step inside
  obtain ⟨identifier, free⟩ := plain.fields _ known _ owned
  rw [identifier, free]
  rfl

theorem Schema.PlainlyNamed.isDotted_of_key (member : type ∈ schema.types) (key : schema.HasKey type path) :
    path.isDotted = true := by
  obtain ⟨route, walked, -⟩ := key
  exact plain.isDotted member walked

theorem Schema.PlainlyNamed.namedFrame {criteria : Criteria} (frames : schema.Frames packages criteria) :
    criteria.type ∈ schema.types ∧ criteria.NamedFrame := by
  have member := frames.mem_types
  refine ⟨member, plain.types _ member, ?_, ?_, ?_, ?_⟩
  · intro path listed
    obtain ⟨route, walked, -⟩ := frames.properties path listed
    exact plain.isDotted member walked
  · intro call listed
    obtain ⟨_, calls⟩ := frames.aggregates
    obtain ⟨-, route, walked, -⟩ := calls call listed
    exact plain.isDotted member walked
  · intro path listed
    exact plain.isDotted_of_key member (frames.groupBy path listed)
  · intro key listed
    exact plain.isDotted_of_key member (frames.orderBy key listed)

theorem Schema.PlainlyNamed.dottedLeaf {leaf : Restriction} (member : type ∈ schema.types)
    (given : leaf.property? = some path) (key : schema.HasKey type path) : leaf.DottedLeaf := by
  intro other same
  cases given.symm.trans same
  exact plain.isDotted_of_key member key

end PlainlyNamed

mutual

theorem Restriction.holds_of_plainlyNamed (plain : schema.PlainlyNamed) (member : type ∈ schema.types)
    (place : Place) :
    (restriction : Restriction) → schema.Admits packages type restriction →
      restriction.Holds Criteria.NamedFrame (fun _ leaf => leaf.DottedLeaf) place
  | .missing, admitted => admitted.elim
  | .comparison _ _ _, admitted => plain.dottedLeaf member rfl admitted
  | .isNull _, admitted => plain.dottedLeaf member rfl admitted
  | .inValues _ _, admitted => plain.dottedLeaf member rfl admitted.1
  | .inQuery _ query, ⟨⟨route, walked, single, _⟩, _, accepted⟩ =>
    ⟨plain.dottedLeaf member rfl ⟨route, walked, single⟩, query.holds_of_plainlyNamed plain accepted⟩
  | .junction _ children, admitted =>
    Restriction.holdsAll_of_plainlyNamed plain member place.first children admitted.2
  | .not child, admitted => child.holds_of_plainlyNamed plain member place.next admitted

theorem Restriction.holdsAll_of_plainlyNamed (plain : schema.PlainlyNamed) (member : type ∈ schema.types)
    (place : Place) :
    (children : List Restriction) → schema.AdmitsAll packages type children →
      Restriction.HoldsAll Criteria.NamedFrame (fun _ leaf => leaf.DottedLeaf) place children
  | [], _ => trivial
  | child :: children, admitted =>
    ⟨child.holds_of_plainlyNamed plain member place admitted.1,
      Restriction.holdsAll_of_plainlyNamed plain member place.next children admitted.2⟩

theorem Criteria.holds_of_plainlyNamed (plain : schema.PlainlyNamed) :
    (criteria : Criteria) → schema.Accepts packages criteria →
    criteria.Holds Criteria.NamedFrame fun _ leaf => leaf.DottedLeaf
  | ⟨_, _, _, none, _, _, _, _, _, _⟩, accepted => (plain.namedFrame accepted).2
  | ⟨_, _, _, some restriction, _, _, _, _, _, _⟩, accepted => by
    obtain ⟨member, named⟩ := plain.namedFrame accepted.1
    exact ⟨named, restriction.holds_of_plainlyNamed plain member .clause accepted.2⟩

end

theorem Schema.PlainlyNamed.worded {criteria : Criteria} (plain : schema.PlainlyNamed)
    (accepted : schema.Accepts packages criteria) : criteria.Worded := by
  refine Criteria.Holds.entailed ⟨?_, fun _ _ _ => trivial⟩ criteria accepted
    (criteria.holds_of_plainlyNamed plain accepted)
  intro query _ named
  exact ⟨Text.isWord_of_isDotted named.type, fun path listed =>
    Text.isWord_of_isDotted (named.properties path listed)⟩

theorem Schema.PlainlyNamed.placed {criteria : Criteria} (plain : schema.PlainlyNamed)
    (accepted : schema.Accepts packages criteria) : criteria.Placed := by
  refine Criteria.Holds.entailed ⟨fun _ _ named => named.placed, ?_⟩ criteria accepted
    (criteria.holds_of_plainlyNamed plain accepted)
  intro place leaf dotted path given
  have name := dotted path given
  exact ⟨fun _ => Text.not_isSigned_of_isDotted name, fun _ => Text.opensClause_of_isDotted name⟩

end RecordQuery
