import RecordQuery.Proofs.Compile.Accepted
import RecordQuery.Proofs.Criteria.Lawful

namespace RecordQuery

/-- A compiled query and its subqueries at any depth are about known types, under the aliases that
their paths need. -/
theorem Compiler.aliases_of_compile {compiler : Compiler} (compiled : compiler.compile text = .ok criteria) :
    ∀ query ∈ criteria :: criteria.subqueries,
      query.type ∈ compiler.schema.types ∧ query.aliases = Aliases.ofPaths query.paths := by
  obtain ⟨accepted, -, -⟩ := accepts_of_compile compiled
  intro query member
  have makesSense : compiler.schema.Accepts compiler.packages query := by
    rcases List.mem_cons.mp member with rfl | nested
    · exact accepted
    · exact Schema.accepts_of_accepts criteria accepted query nested
  obtain ⟨frames, -⟩ := Schema.accepts_iff.mp makesSense
  exact ⟨List.mem_of_find?_eq_some (Schema.typeNamed?_of_resolve? frames.known), frames.aliases⟩

/-- A compiled query and its subqueries at any depth obey the rules, with row counts of 64 bits. -/
theorem lawful_of_compile (compiler : Compiler) (text : Text) (criteria : Criteria)
    (compiled : compiler.compile text = .ok criteria) :
    criteria.isSubquery = false ∧
      ∀ query ∈ criteria :: criteria.subqueries, compiler.schema.Lawful query ∧
        (∀ count ∈ query.limit, count < 0x8000000000000000) ∧
          ∀ count ∈ query.offset, count < 0x8000000000000000 := by
  obtain ⟨accepted, top, -⟩ := Compiler.accepts_of_compile compiled
  refine ⟨top, ?_⟩
  intro query member
  have makesSense : compiler.schema.Accepts compiler.packages query := by
    rcases List.mem_cons.mp member with rfl | nested
    · exact accepted
    · exact Schema.accepts_of_accepts criteria accepted query nested
  obtain ⟨frames, -⟩ := Schema.accepts_iff.mp makesSense
  refine ⟨Schema.lawful_of_accepts makesSense, ?_, ?_⟩
  · intro count given
    exact (frames.limit count given).2
  · intro count given
    exact (frames.offset count given).2

/-- Coops have a size, and are parts of other coops. -/
def coopType : RecordType :=
  { id := "t1", name := "acme.Coop", label := "Coop", table := "coop", defaultField := "name"
    fields := [{ id := "f1", name := "id", label := "Id", column := "id", kind := .id },
      { id := "f2", name := "name", label := "Name", column := "name", kind := .text },
      { id := "f3", name := "size", label := "Size", column := "size", kind := .number },
      { id := "f4", name := "whole", label := "Whole", column := "whole", kind := .reference,
        target := "acme.Coop" },
      { id := "f5", name := "parts", label := "Parts", kind := .inverse, target := "acme.Coop",
        inverse := "whole" }] }

def coopCompiler : Compiler := ⟨⟨[coopType]⟩, ⟨"acme", []⟩, [], 32⟩

def coopText : Text :=
  Text.ofString "SELECT name, SUM(parts.size), COUNT(parts.id) FROM Coop WHERE NOT (size > 3 AND whole IN " ++
    Text.ofString "(SELECT id FROM Coop WHERE whole IN (SELECT id FROM Coop LIMIT 3))) GROUP BY name"

theorem coops_lawful : ∃ criteria, coopCompiler.compile coopText = .ok criteria ∧
    criteria.subqueries.length = 2 ∧
      ∀ query ∈ criteria :: criteria.subqueries, coopCompiler.schema.Lawful query := by
  have counted : ((coopCompiler.compile coopText).toOption.map fun criteria =>
      criteria.subqueries.length) = some 2 := by
    decide +kernel
  obtain ⟨criteria, compiled, two⟩ := Option.map_eq_some_iff.mp counted
  have compiled := toOption_eq_some.mp compiled
  refine ⟨criteria, compiled, two, ?_⟩
  intro query member
  exact ((lawful_of_compile coopCompiler coopText criteria compiled).2 query member).1

end RecordQuery
