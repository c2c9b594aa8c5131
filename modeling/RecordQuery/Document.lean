import RecordQuery.PropertyId
import RecordQuery.Value

/-! Queries as documents, the form in which visual builders exchange them. A property is given by
its id, by its name or by both. -/
namespace RecordQuery

structure PropertyRef where
  id : PropertyId := []
  name : Text := []
  deriving DecidableEq, Repr

/-- A selected property, perhaps with a function over it. -/
structure SelectedProperty where
  ref : PropertyRef := {}
  /-- The name on display. -/
  label : Text := []
  function : Text := []
  deriving DecidableEq, Repr

structure DocumentOrdering where
  ref : PropertyRef := {}
  direction : Text := []
  deriving DecidableEq, Repr

mutual

/-- A restriction. What its arguments are depends on the operator. -/
structure DocumentNode where
  operator : Text
  ref : PropertyRef
  args : List Argument

inductive Argument where
  | value (value : Value)
  | restriction (node : DocumentNode)
  | subquery (document : Document)

structure Document where
  typeId : Text
  typeName : Text
  properties : List SelectedProperty
  groupings : List PropertyRef
  /-- All of them hold. -/
  restrictions : List DocumentNode
  orderings : List DocumentOrdering
  limit : Option Int
  offset : Option Int

end

/-- A node without anything. -/
def DocumentNode.empty : DocumentNode := ⟨[], {}, []⟩

def Document.empty : Document := ⟨[], [], [], [], [], [], none, none⟩

end RecordQuery
