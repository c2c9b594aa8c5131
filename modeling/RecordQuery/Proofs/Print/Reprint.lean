import RecordQuery.Proofs.Print.Compiled
import RecordQuery.Proofs.Print.RefusedQuery
import RecordQuery.Proofs.Print.RoundTrip
import RecordQuery.Schema.Catalog

namespace RecordQuery

namespace Compiler

variable {compiler : Compiler} {text : Text} {criteria other : Criteria}

/-- What a text compiles to can be written again, if its names are words. -/
theorem expresses_of_compile (standard : compiler.IsStandard)
    (compiled : compiler.compile text = .ok criteria) (worded : criteria.Worded) :
    compiler.ExpressesQuery compiler.maxDepth false criteria := by
  obtain ⟨accepted, top, levels⟩ := accepts_of_compile compiled
  obtain ⟨tokens, ending, ran, compiled⟩ := compile_eq_ok_iff.mp compiled
  rw [standard.start] at ran
  obtain ⟨traced, finished⟩ := Lexer.run_traced ran
  have spelled := spelled_of_query (compiler.spellsDerived compiler.maxDepth).1 (by simp [finished])
    traced compiled worded
  exact ⟨accepted, top, spelled, levels⟩

/-- Nothing is compiled from the text of a query with a name that does not fit. -/
theorem placed_of_compile_text (standard : compiler.IsStandard)
    (expresses : compiler.ExpressesQuery compiler.maxDepth false criteria)
    (compiled : compiler.compile criteria.text = .ok other) : criteria.Placed := by
  obtain ⟨tokens, ending, ran, same, finished⟩ := tokens_of_text standard expresses.spelled
  obtain ⟨again, last, ranAgain, compiled⟩ := compile_eq_ok_iff.mp compiled
  cases ran.symm.trans ranAgain
  exact placed_of_query (fun less _ => derivesOnlyPlaced compiler less) expresses (by simp [finished])
    same compiled

end Compiler

/-- The canonical form of a compiled query compiles to the query again exactly if no name in it is
taken for something else, and never to another query. -/
theorem compile_text_iff_placed (compiler : Compiler) (standard : compiler.IsStandard) (text : Text)
    (criteria : Criteria) (compiled : compiler.compile text = .ok criteria)
    (worded : criteria.Worded) :
    (compiler.compile criteria.text = .ok criteria ↔ criteria.Placed) ∧
      ∀ other, compiler.compile criteria.text = .ok other → other = criteria := by
  have expresses := Compiler.expresses_of_compile standard compiled worded
  have back : criteria.Placed → compiler.compile criteria.text = .ok criteria :=
    compiler.compile_text standard expresses
  refine ⟨⟨Compiler.placed_of_compile_text standard expresses, back⟩, ?_⟩
  intro other again
  have placed := Compiler.placed_of_compile_text standard expresses again
  exact Except.ok.inj (again.symm.trans (back placed))

section Decidable

variable {frame : Criteria → Prop} {leaf : Place → Restriction → Prop} [DecidablePred frame]
  [∀ place, DecidablePred (leaf place)]

mutual

def Restriction.decideHolds (place : Place) :
    (restriction : Restriction) → Decidable (restriction.Holds frame leaf place)
  | .missing => inferInstanceAs (Decidable (leaf place .missing))
  | .comparison comparator path value =>
    inferInstanceAs (Decidable (leaf place (.comparison comparator path value)))
  | .isNull path => inferInstanceAs (Decidable (leaf place (.isNull path)))
  | .inValues path values => inferInstanceAs (Decidable (leaf place (.inValues path values)))
  | .inQuery path query =>
    have := query.decideHolds
    inferInstanceAs (Decidable (leaf place (.inQuery path query) ∧ query.Holds frame leaf))
  | .junction _ children => Restriction.decideHoldsAll place.first children
  | .not child => child.decideHolds place.next

def Restriction.decideHoldsAll (place : Place) :
    (children : List Restriction) → Decidable (Restriction.HoldsAll frame leaf place children)
  | [] => inferInstanceAs (Decidable True)
  | child :: children =>
    have := child.decideHolds place
    have := Restriction.decideHoldsAll place.next children
    inferInstanceAs
      (Decidable (child.Holds frame leaf place ∧ Restriction.HoldsAll frame leaf place.next children))

def Criteria.decideHolds : (criteria : Criteria) → Decidable (criteria.Holds frame leaf)
  | ⟨type, properties, aggregates, none, groupBy, orderBy, limit, offset, aliases, isSubquery⟩ =>
    inferInstanceAs (Decidable (frame ⟨type, properties, aggregates, none, groupBy, orderBy, limit,
      offset, aliases, isSubquery⟩))
  | ⟨type, properties, aggregates, some restriction, groupBy, orderBy, limit, offset, aliases,
      isSubquery⟩ =>
    have := restriction.decideHolds .clause
    inferInstanceAs (Decidable (frame ⟨type, properties, aggregates, some restriction, groupBy, orderBy,
      limit, offset, aliases, isSubquery⟩ ∧ restriction.Holds frame leaf .clause))

end

end Decidable

instance (place : Place) (path : Text) : Decidable (path.Fits place) :=
  decidable_of_iff ((place.isFresh = false → path.isSigned = false) ∧
    (place.isExposed = true → path.opensClause = false)) ⟨fun h => ⟨h.1, h.2⟩, fun h => ⟨h.whole, h.closed⟩⟩

instance (place : Place) : DecidablePred (Restriction.PlacedLeaf place) := fun leaf =>
  inferInstanceAs (Decidable (∀ path ∈ leaf.property?, path.Fits place))

instance : DecidablePred Criteria.PlacedFrame := fun criteria =>
  decidable_of_iff (criteria.type.name.isSigned = false ∧
    (∀ path ∈ criteria.properties.head?, path.isSigned = false) ∧
    (∀ path ∈ criteria.properties, path.sameFold "FROM" = false) ∧
    (criteria.orderBy = [] → criteria.limit = none → criteria.offset = none →
      ∀ key ∈ criteria.groupBy.getLast?, key.sameFold "GROUP" = false ∧ key.sameFold "ORDER" = false))
    ⟨fun h => ⟨h.1, h.2.1, h.2.2.1, h.2.2.2⟩, fun h => ⟨h.type, h.first, h.columns, h.last⟩⟩

instance : DecidablePred Criteria.WordedFrame := fun criteria =>
  decidable_of_iff (criteria.type.name.isWord = true ∧
    ∀ path ∈ criteria.properties, path.isWord = true) ⟨fun h => ⟨h.1, h.2⟩, fun h => ⟨h.type, h.properties⟩⟩

instance : DecidablePred Criteria.Placed := fun criteria => criteria.decideHolds

instance : DecidablePred Criteria.Worded := fun criteria => criteria.decideHolds

/-- Shelves have a limit, and go by a name of two words. -/
def shelfType : RecordType :=
  { id := "t1", name := "acme.Shelf", label := "Shelf", table := "shelf", defaultField := "full name"
    fields := [{ id := "f1", name := "id", label := "Id", column := "id", kind := .id },
      { id := "f2", name := "full name", label := "Name", column := "name", kind := .text },
      { id := "f3", name := "limit", label := "Limit", column := "limit", kind := .number }] }

def shelfCompiler : Compiler := ⟨⟨[shelfType]⟩, ⟨"acme", []⟩, [], 32⟩

/-- In brackets that are kept, a field may go by the name of a clause. -/
theorem shelves_compile_text : ∃ criteria : Criteria,
    shelfCompiler.compile "SELECT id FROM Shelf WHERE NOT (id ISNULL OR (limit > 2)) LIMIT 3" = .ok criteria ∧
      shelfCompiler.compile criteria.text = .ok criteria := by
  have checked : ((shelfCompiler.compile
      "SELECT id FROM Shelf WHERE NOT (id ISNULL OR (limit > 2)) LIMIT 3").toOption.map fun criteria =>
        decide (criteria.Worded ∧ criteria.Placed)) = some true := by
    decide +kernel
  obtain ⟨criteria, compiled, fits⟩ := Option.map_eq_some_iff.mp checked
  obtain ⟨worded, placed⟩ := of_decide_eq_true fits
  have compiled := toOption_eq_some.mp compiled
  exact ⟨criteria, compiled, (compile_text_iff_placed _ (.inl rfl) _ _ compiled worded).1.mpr placed⟩

/-- Elsewhere such a field is taken for the clause, and a name of two words cannot be written at all. -/
theorem shelves_refused : Schema.build [shelfType] = .ok shelfCompiler.schema ∧
    ∀ text ∈ [Text.ofString "SELECT id FROM Shelf WHERE (limit = 1)", Text.ofString "SELECT * FROM Shelf"],
      ∃ criteria : Criteria, shelfCompiler.compile text = .ok criteria ∧
        ∀ other, shelfCompiler.compile criteria.text ≠ .ok other := by
  refine ⟨rfl, ?_⟩
  intro text listed
  have refused : ((shelfCompiler.compile text).toOption.map fun criteria =>
      (shelfCompiler.compile criteria.text).toBool) = some false := by
    revert text
    decide +kernel
  obtain ⟨criteria, compiled, fails⟩ := Option.map_eq_some_iff.mp refused
  refine ⟨criteria, toOption_eq_some.mp compiled, ?_⟩
  intro other compiles
  rw [compiles] at fails
  cases fails

end RecordQuery
