import RecordQuery.Proofs.Compile.Accepted
import RecordQuery.Proofs.Print.Names

namespace RecordQuery

namespace Compiler

variable {compiler : Compiler} {criteria : Criteria}

/-- The compiler takes the default operator characters. -/
def IsStandard (compiler : Compiler) : Prop :=
  compiler.operators = [] ∨ compiler.operators = Lexer.defaultOperators

theorem IsStandard.start (standard : compiler.IsStandard) (text : Text) :
    Lexer.start text compiler.operators = ⟨Lexer.defaultOperators, text, .start, .eof⟩ := by
  rcases standard with empty | same
  · rw [empty]
    rfl
  · rw [same]
    rfl

/-- The text of a query that can be spelled has the tokens of the query. -/
theorem tokens_of_text (standard : compiler.IsStandard) (spelled : criteria.Spelled) :
    ∃ tokens ending, (Lexer.start criteria.text compiler.operators).run = .ok (tokens, ending) ∧
      tokens.map Token.lexeme = criteria.lexemes ∧ ending.kind = .eof := by
  have scanned := criteria.scans spelled false [] [] Text.stops_nil .nil
  rw [List.append_nil, List.append_nil] at scanned
  obtain ⟨tokens, ending, ran, same⟩ := scanned .start .eof rfl
  rw [← standard.start] at ran
  exact ⟨tokens, ending, ran, same, (Lexer.run_traced ran).2⟩

/-- A query whose names fit their places is compiled from its text. -/
theorem compile_text (standard : compiler.IsStandard)
    (expresses : compiler.ExpressesQuery compiler.maxDepth false criteria) (placed : criteria.Placed) :
    compiler.compile criteria.text = .ok criteria := by
  obtain ⟨tokens, ending, ran, same, finished⟩ := tokens_of_text standard expresses.spelled
  refine compile_eq_ok_iff.mpr ⟨tokens, ending, ran, ?_⟩
  exact query_of_lexemes (fun less _ => derivesWritten compiler less) expresses placed (by simp [finished])
    same

end Compiler

/-- Any query that makes sense in the schema, that is not nested too deep, and that has ordinary names
and text values is compiled from its canonical form. -/
theorem compile_text_of_named (compiler : Compiler) (standard : compiler.IsStandard)
    (criteria : Criteria) (accepted : compiler.schema.Accepts compiler.packages criteria)
    (top : criteria.isSubquery = false) (named : criteria.Named)
    (levels : criteria.levels ≤ compiler.maxDepth) :
    compiler.compile criteria.text = .ok criteria :=
  compiler.compile_text standard ⟨accepted, top, named.spelled accepted, levels⟩ (named.placed accepted)

/-- Ships have a name, a tonnage and an owner, which is another ship. -/
def shipType : RecordType :=
  { id := "t1", name := "acme.Ship", label := "Ship", table := "ship", defaultField := "name"
    fields := [{ id := "f1", name := "id", label := "Id", column := "id", kind := .id },
      { id := "f2", name := "name", label := "Name", column := "name", kind := .text },
      { id := "f3", name := "tonnage", label := "Tonnage", column := "tonnage", kind := .number },
      { id := "f4", name := "owner", label := "Owner", column := "owner", kind := .reference,
        target := "acme.Ship" }] }

def heavyShips : Criteria :=
  { type := shipType, properties := ["id"], aggregates := []
    restriction := some (.not (.comparison .le "tonnage" (.text "100")))
    groupBy := [], orderBy := [⟨"owner.name", .desc⟩], limit := some 3, offset := none
    aliases := Aliases.ofPaths ["id", "tonnage", "owner.name"], isSubquery := true }

def shipCounts : Criteria :=
  { type := shipType, properties := ["name"], aggregates := [⟨.count, "owner.id"⟩]
    restriction := some (.junction .and [.junction .or [.isNull "name",
      .comparison .like "owner.name" (.text "it's \\%")], .not (.inQuery "owner" heavyShips)])
    groupBy := ["name"], orderBy := [], limit := none, offset := some 7
    aliases := Aliases.ofPaths ["name", "owner.id", "name", "owner.name", "owner", "name"]
    isSubquery := false }

theorem shipCounts_compile_text :
    shipCounts.text = Text.ofString "SELECT name, COUNT(owner.id) FROM acme.Ship WHERE (name ISNULL " ++
      Text.ofString "OR owner.name LIKE 'it\\'s \\\\%') AND NOT owner IN (SELECT id FROM acme.Ship WHERE " ++
      Text.ofString "NOT tonnage <= '100' ORDER BY owner.name DESC LIMIT 3) GROUP BY name OFFSET 7" ∧
    (⟨⟨[shipType]⟩, ⟨[], []⟩, [], 7⟩ : Compiler).compile shipCounts.text = .ok shipCounts := by
  have heavy : Schema.Accepts ⟨[shipType]⟩ ⟨[], []⟩ heavyShips := by
    refine ⟨⟨rfl, .inl (by decide), ?_, by decide, ⟨false, ?_⟩, rfl, ?_, by decide, ?_, ?_, ?_, rfl⟩, ?_⟩
    · exact List.forall_mem_singleton.mpr ⟨_, rfl, rfl⟩
    · exact List.forall_mem_nil _
    · exact List.forall_mem_nil _
    · exact List.forall_mem_singleton.mpr ⟨_, rfl, rfl⟩
    · rintro count ⟨⟩
      exact ⟨by decide, by decide⟩
    · rintro count ⟨⟩
    · exact ⟨_, rfl, rfl⟩
  have accepted : Schema.Accepts ⟨[shipType]⟩ ⟨[], []⟩ shipCounts := by
    refine ⟨⟨rfl, .inl (by decide), ?_, by decide, ⟨false, ?_⟩, rfl, ?_, by decide, ?_, ?_, ?_, rfl⟩, ?_⟩
    · exact List.forall_mem_singleton.mpr ⟨_, rfl, rfl⟩
    · exact List.forall_mem_singleton.mpr ⟨by decide, _, rfl, rfl, rfl, rfl⟩
    · exact List.forall_mem_singleton.mpr ⟨_, rfl, rfl⟩
    · exact List.forall_mem_nil _
    · rintro count ⟨⟩
    · rintro count ⟨⟩
      exact ⟨by decide, by decide⟩
    · exact ⟨by decide, ⟨by decide, ⟨_, rfl, rfl⟩, ⟨_, rfl, rfl⟩, trivial⟩,
        ⟨⟨_, rfl, rfl, rfl⟩, rfl, heavy⟩, trivial⟩
  have named : shipCounts.Named := by
    refine ⟨⟨by decide, by decide, by decide, by decide, by decide⟩, ⟨?_, ⟨by decide, ?_⟩, trivial⟩,
      ⟨?_, ⟨by decide, by decide, by decide, by decide, by decide⟩, by decide, ?_⟩, trivial⟩
    · change (Text.ofString "name").isDotted = true
      decide
    · change ∀ b ∈ Text.ofString "it's \\%", b ≠ 0
      decide +kernel
    · change (Text.ofString "owner").isDotted = true
      decide
    · change ∀ b ∈ Text.ofString "100", b ≠ 0
      decide +kernel
  refine ⟨by decide +kernel, ?_⟩
  exact compile_text_of_named _ (.inl rfl) shipCounts accepted rfl named (by decide)

end RecordQuery
