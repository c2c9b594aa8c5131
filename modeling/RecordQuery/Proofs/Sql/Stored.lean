import RecordQuery.Proofs.Schema.Declared
import RecordQuery.Proofs.Schema.Ids
import RecordQuery.Proofs.Sql.Scoped

/-! Statements name the columns that they read and join by. A schema that was built has a name for the column of
every field that is stored, and an inverse is joined by the reference that it names. An association is joined by
two fields that need not be stored. -/
namespace RecordQuery

theorem Text.lower_ne_nil {t : Text} (filled : t ≠ []) : t.lower ≠ [] := by
  cases t with
  | nil => exact absurd rfl filled
  | cons b rest =>
    have encoded : ∀ c : Char, String.utf8EncodeChar c ≠ [] := by
      intro c empty
      have size := congrArg List.length empty
      rw [String.length_utf8EncodeChar] at size
      exact absurd size (Nat.ne_of_gt c.utf8Size_pos)
    exact List.append_ne_nil_of_left_ne_nil (encoded _) _

theorem Text.orElse_ne_nil {t default : Text} (filled : default ≠ []) : t.orElse default ≠ [] := by
  rw [orElse]
  split
  · exact filled
  · rename_i given
    simpa using given

theorem Kind.hasColumn_of_scalar {kind : Kind} (scalar : (kind.isPrimitive && kind != .formula) = true) :
    kind.hasColumn = true := by
  cases kind <;> first | rfl | cases scalar

namespace Schema

variable {schema : Schema} {declared : List RecordType}

/-- Whatever is stored has a column, and inverses lead back through what is stored. -/
structure Stored (schema : Schema) : Prop where
  fields : ∀ type ∈ schema.types, ∀ field ∈ type.fields, field.kind.hasColumn = true → field.column ≠ []
  ids : ∀ type ∈ schema.types, type.idColumn ≠ []
  inverses : ∀ type ∈ schema.types, ∀ field ∈ type.fields, field.kind = .inverse →
    ∃ target back, schema.typeNamed? field.target = some target ∧ target.field? field.inverse = some back ∧
      back.kind.hasColumn = true ∧ back.column ≠ []

theorem back_of_checkKind (checked : schema.checkKind owner field = .ok ()) (kind : field.kind = .inverse) :
    ∃ target back, schema.typeNamed? field.target = some target ∧ target.field? field.inverse = some back ∧
      back.kind = .reference := by
  simp only [checkKind, kind] at checked
  split at checked
  · rename_i target known
    split at checked
    · rename_i leadsBack
      obtain ⟨back, found, leads⟩ := (Option.any_eq_true _ _).mp leadsBack
      simp only [Bool.and_eq_true, beq_iff_eq] at leads
      exact ⟨target, back, known, found, leads.1⟩
    · cases checked
  · cases checked

theorem idField_of_checkType (checked : schema.checkType type = .ok ()) :
    ∃ field, type.idField? = some field ∧ field.kind = .id := by
  obtain ⟨_, -, checked⟩ := bind_eq_ok.mp checked
  simp only at checked
  split at checked
  · rename_i identified
    obtain ⟨field, found, kind⟩ := (Option.any_eq_true _ _).mp identified
    exact ⟨field, found, eq_of_beq kind⟩
  · cases checked

/-- A column is filled in from the name of its field, which is never empty. -/
theorem columns_of_build (built : build declared = .ok schema) :
    ∀ type ∈ schema.types, ∀ field ∈ type.fields, field.kind.hasColumn = true → field.column ≠ [] := by
  have completed (owner : Text) (field : Field) (stored : field.kind.hasColumn = true)
      (named : field.name ≠ []) : (field.complete owner).column ≠ [] := by
    rw [Field.complete, if_pos stored]
    exact Text.orElse_ne_nil (Text.lower_ne_nil named)
  have each : ∀ type ∈ schema.types, ∀ field ∈ type.fields,
      field.kind.hasColumn = true → field.name ≠ [] → field.column ≠ [] :=
    fields_of_build built (fun type _ field _ => completed type.name field) fun owner => completed owner _
  intro type member field owned stored
  exact each type member field owned stored ((named_of_build built).filled type member field owned)

theorem stored_of_build (built : build declared = .ok schema) : schema.Stored := by
  have fields := columns_of_build built
  refine ⟨fields, ?_, ?_⟩
  · intro type member
    obtain ⟨field, found, kind⟩ := idField_of_checkType (checkType_of_build built member)
    rw [RecordType.idColumn_eq found rfl]
    exact fields type member field (List.mem_of_find?_eq_some found) (by rw [kind]; rfl)
  · intro type member field owned kind
    obtain ⟨target, back, known, found, reference⟩ :=
      back_of_checkKind (checkKind_of_build built type member field owned) kind
    have hasColumn : back.kind.hasColumn = true := by
      rw [reference]
      rfl
    exact ⟨target, back, known, found, hasColumn,
      fields target (List.mem_of_find?_eq_some known) back (List.mem_of_find?_eq_some found) hasColumn⟩

/-- Both fields by which an association is joined have columns. -/
def linksStored (schema : Schema) (field : Field) : Bool :=
  (schema.typeNamed? field.linking).any fun link =>
    [field.linkSelf, field.linkForeign].all fun name => (link.field? name).any (!·.column.isEmpty)

end Schema

namespace Sql

variable {scope : Scope} {schema : Schema}

mutual

/-- A formula reads fields that are stored. -/
theorem named_of_formula (stored : ∀ field ∈ owner.fields, field.kind.hasColumn = true → field.column ≠ []) :
    (expression : Formula) → Schema.checkFormula owner expression = .ok () →
    Scope.formula source owner expression = .ok value → ∀ column ∈ value.columns, column.name ≠ []
  | .missing, _, made => by cases made
  | .text _, _, made => by
    cases made
    exact List.forall_mem_nil _
  | .field name, checked, made => by
    rw [Schema.checkFormula] at checked
    rw [Scope.formula] at made
    split at made
    · cases made
    · rename_i field found
      rw [found] at checked
      simp only at checked
      split at checked
      · rename_i scalar
        have named := stored field (List.mem_of_find?_eq_some found) (Kind.hasColumn_of_scalar scalar)
        cases made
        rw [Expression.columns]
        split
        · exact List.forall_mem_singleton.mpr named
        · rw [Expression.columns]
          exact List.forall_mem_singleton.mpr named
      · cases checked
  | .concat parts, checked, made => by
    rw [Schema.checkFormula] at checked
    rw [Scope.formula] at made
    obtain ⟨values, each, same⟩ := bind_eq_ok.mp made
    obtain rfl := pure_eq_ok.mp same
    rw [Expression.columns]
    exact named_of_formulas stored parts checked each

theorem named_of_formulas (stored : ∀ field ∈ owner.fields, field.kind.hasColumn = true → field.column ≠ []) :
    (parts : List Formula) → Schema.checkParts owner parts = .ok () →
    Scope.formulas source owner parts = .ok values →
    ∀ column ∈ Expression.columnsAll values, column.name ≠ []
  | [], _, made => by
    cases made
    exact List.forall_mem_nil _
  | part :: parts, checked, made => by
    rw [Schema.checkParts] at checked
    obtain ⟨_, here, there⟩ := bind_eq_ok.mp checked
    rw [Scope.formulas] at made
    obtain ⟨value, first, made⟩ := bind_eq_ok.mp made
    obtain ⟨others, rest, same⟩ := bind_eq_ok.mp made
    obtain rfl := pure_eq_ok.mp same
    rw [Expression.columnsAll]
    exact List.forall_mem_append.mpr ⟨named_of_formula stored part here first,
      named_of_formulas stored parts there rest⟩

end

namespace Scope

/-- The association that a prefix ends in, if it does. -/
def association? (scope : Scope) (above : Text) : Option Field :=
  (scope.walk above).toOption.bind fun route =>
    if route.leaf.kind = .association then some route.leaf else none

/-- The associations that are joined for the given paths. -/
def associations (scope : Scope) (paths : List Text) : List Field :=
  (scope.joined paths).filterMap scope.association?

theorem association?_eq (walked : scope.walk above = .ok route) :
    scope.association? above = if route.leaf.kind = .association then some route.leaf else none := by
  rw [association?, walked]
  rfl

theorem typeNamed_eq_ok_iff {type : RecordType} :
    scope.typeNamed name = .ok type ↔ scope.schema.typeNamed? name = some type := by
  rw [typeNamed]
  split <;> simp_all

theorem fieldNamed_eq_ok_iff {type : RecordType} :
    fieldNamed type name path = .ok field ↔ type.field? name = some field := by
  rw [fieldNamed]
  split <;> simp_all

section Stored

variable (stored : scope.schema.Stored) (member : scope.type ∈ scope.schema.types)
include stored member

/-- What a path stands for is read from named columns. -/
theorem named_of_means
    (linked : ∀ type ∈ scope.schema.types, ∀ field ∈ type.fields, scope.schema.Linked type field)
    (means : scope.Means path value) : ∀ column ∈ value.columns, column.name ≠ [] := by
  obtain ⟨field, found⟩ := means
  obtain ⟨route, walked, found⟩ := bind_eq_ok.mp found
  have steps := Schema.walkNames_steps member (mapError_eq_ok.mp walked)
  obtain ⟨known, owned⟩ := steps route.last (by simp [Route.steps])
  simp only at found
  split at found
  · rename_i reference key
    obtain ⟨rfl, -⟩ := Prod.mk.inj (pure_eq_ok.mp found)
    obtain ⟨init, step, above, -, kind, rfl⟩ := Route.foreignKey?_eq_some.mp key
    obtain ⟨known, owned⟩ := steps step (by simp [Route.steps, above])
    rw [Expression.columns]
    exact List.forall_mem_singleton.mpr (stored.fields _ known _ owned (by rw [kind]; rfl))
  · obtain ⟨single, found⟩ := guard_eq_ok.mp found
    split at found
    · rename_i kind
      obtain ⟨inner, made, same⟩ := bind_eq_ok.mp found
      obtain ⟨rfl, -⟩ := Prod.mk.inj (pure_eq_ok.mp same)
      rw [Expression.columns]
      exact List.forall_mem_cons.mpr ⟨stored.ids _ known,
        named_of_formula (stored.fields _ known) _ ((linked _ known _ owned).formula kind).2 made⟩
    · rename_i kind
      obtain ⟨rfl, -⟩ := Prod.mk.inj (pure_eq_ok.mp found)
      rw [Expression.columns]
      have hasColumn : route.leaf.kind.hasColumn = true := by simp [Kind.hasColumn, kind, single]
      exact List.forall_mem_singleton.mpr (stored.fields _ known _ owned hasColumn)

/-- A prefix is joined by named columns, unless it ends in an association by fields without any. -/
theorem named_joinsAt_iff {joins : List Join} (made : scope.joinsAt above = .ok joins) :
    (∀ join ∈ joins, join.key.name ≠ [] ∧ join.onto.name ≠ []) ↔
      ∀ field ∈ scope.association? above, scope.schema.linksStored field = true := by
  obtain ⟨route, walked, made⟩ := bind_eq_ok.mp made
  obtain ⟨known, owned⟩ :=
    Schema.walkNames_steps member (mapError_eq_ok.mp walked) route.last (by simp [Route.steps])
  obtain ⟨target, found, made⟩ := bind_eq_ok.mp made
  have found := typeNamed_eq_ok_iff.mp found
  have identified := stored.ids target (List.mem_of_find?_eq_some found)
  rw [association?_eq walked]
  split at made
  · rename_i kind
    obtain rfl := pure_eq_ok.mp made
    have hasColumn : route.leaf.kind.hasColumn = true := by
      rw [kind]
      rfl
    have column : route.leaf.column ≠ [] := stored.fields _ known _ owned hasColumn
    simp [kind, identified, column]
  · rename_i kind
    obtain ⟨back, leadsBack, same⟩ := bind_eq_ok.mp made
    obtain rfl := pure_eq_ok.mp same
    obtain ⟨_, _, again, leads, -, column⟩ := stored.inverses _ known _ owned kind
    cases found.symm.trans again
    cases (fieldNamed_eq_ok_iff.mp leadsBack).symm.trans leads
    simp [kind, column, stored.ids _ known]
  · rename_i kind
    obtain ⟨linking, link, made⟩ := bind_eq_ok.mp made
    obtain ⟨self, selfFound, made⟩ := bind_eq_ok.mp made
    obtain ⟨foreign, foreignFound, same⟩ := bind_eq_ok.mp made
    obtain rfl := pure_eq_ok.mp same
    have stands := stored.ids _ known
    simp [kind, identified, stands, Schema.linksStored, typeNamed_eq_ok_iff.mp link,
      fieldNamed_eq_ok_iff.mp selfFound, fieldNamed_eq_ok_iff.mp foreignFound]
  · cases made

theorem named_flatten_iff {prefixes : List Text} {lists : List (List Join)}
    (all : List.Forall₂ (fun above joins => scope.joinsAt above = .ok joins) prefixes lists) :
    (∀ join ∈ lists.flatten, join.key.name ≠ [] ∧ join.onto.name ≠ []) ↔
      ∀ field ∈ prefixes.filterMap scope.association?, scope.schema.linksStored field = true := by
  induction all with
  | nil => simp
  | @cons above joins prefixes lists here _ ih =>
    rw [List.flatten_cons, List.forall_mem_append, ih, named_joinsAt_iff stored member here]
    cases found : scope.association? above <;> simp [found]

theorem named_joins_iff {joins : List Join} (made : scope.joins paths = .ok joins) :
    (∀ join ∈ joins, join.key.name ≠ [] ∧ join.onto.name ≠ []) ↔
      ∀ field ∈ scope.associations paths, scope.schema.linksStored field = true := by
  obtain ⟨lists, each, same⟩ := bind_eq_ok.mp made
  obtain rfl := pure_eq_ok.mp same
  exact named_flatten_iff stored member (list_mapM_eq_ok.mp each)

end Stored
end Scope

/-- All columns of a statement have names, those of its subqueries apart, if the associations that it joins
allow it. -/
structure Named (schema : Schema) (query : Criteria) (statement : Statement) : Prop where
  columns : ∀ column ∈ statement.columns, column.name ≠ []
  joins : (∀ join ∈ statement.joins, join.key.name ≠ [] ∧ join.onto.name ≠ []) ↔
    ∀ field ∈ (Scope.ofCriteria schema query).associations query.paths, schema.linksStored field = true

theorem named_of_statement {declared : List RecordType} (built : Schema.build declared = .ok schema)
    {literals : Literals} {query : Criteria} {statement : Statement} (known : query.type ∈ schema.types)
    (rendered : (⟨schema, literals⟩ : Renderer).statement query = .ok statement) :
    Named schema query statement := by
  have stored := Schema.stored_of_build built
  have renders := renders_of_statement rendered
  refine ⟨?_, Scope.named_joins_iff stored known renders.joins⟩
  intro column member
  obtain ⟨path, -, value, means, reads⟩ := renders.covers.needed column member
  exact Scope.named_of_means stored known (Schema.linked_of_build built) means column reads

/-- In a schema that was built, all that is stored has a named column, and so has the field that an inverse
leads back through. So all columns that are read for a compiled or decoded query have names, in the statement
and in each subquery of it; those that tables are joined by do exactly if the fields that the joined
associations are linked by have columns. -/
theorem named_of_render (declared : List RecordType) (schema : Schema)
    (built : Schema.build declared = .ok schema) (criteria : Criteria)
    (read : (∃ compiler : Compiler, compiler.schema = schema ∧ ∃ text, compiler.compile text = .ok criteria) ∨
      ∃ decoder : Decoder, decoder.schema = schema ∧ ∃ document, decoder.decode document = .ok criteria)
    (literals : Literals) (sql : Text)
    (rendered : (⟨schema, literals⟩ : Renderer).render criteria = .ok sql) :
    (∀ type ∈ schema.types, ∀ field ∈ type.fields,
      (field.kind.hasColumn = true → field.column ≠ []) ∧
      (field.kind = .inverse → ∃ target back, schema.typeNamed? field.target = some target ∧
        target.field? field.inverse = some back ∧ back.kind.hasColumn = true ∧ back.column ≠ [])) ∧
    ∃ statement, (⟨schema, literals⟩ : Renderer).statement criteria = .ok statement ∧
      statement.print = sql ∧
      List.Forall₂ (Named schema) (criteria :: criteria.subqueries) (statement :: statement.subqueries) := by
  have stored := Schema.stored_of_build built
  have known : ∀ query ∈ criteria :: criteria.subqueries, query.type ∈ schema.types := by
    rcases read with ⟨compiler, rfl, text, compiled⟩ | ⟨decoder, rfl, document, decoded⟩
    · exact fun query member => (Compiler.aliases_of_compile compiled query member).1
    · exact fun query member => (Decoder.aliases_of_decode decoded query member).1
  constructor
  · intro type member field owned
    exact ⟨stored.fields type member field owned, stored.inverses type member field owned⟩
  · obtain ⟨statement, made, same⟩ := bind_eq_ok.mp rendered
    refine ⟨statement, made, pure_eq_ok.mp same, ?_⟩
    have parts : List.Forall₂ (fun query part => (⟨schema, literals⟩ : Renderer).statement query = .ok part)
        (criteria :: criteria.subqueries) (statement :: statement.subqueries) :=
      .cons made (statements_of_statement criteria made)
    refine (List.forall₂_and_left _ _ |>.mpr ⟨known, parts⟩).imp ?_
    rintro query part ⟨known, rendered⟩
    exact named_of_statement built known rendered

/-- Badges are joined by their references, so every table and every value has its column. -/
theorem birds_named : ∃ criteria statement, birdCompiler.compile birdText = .ok criteria ∧
    (⟨⟨birdTypes⟩, .standard⟩ : Renderer).statement criteria = .ok statement ∧
    (∀ column ∈ statement.columns, column.name ≠ []) ∧ statement.joins.length = 2 ∧
    ∀ join ∈ statement.joins, join.key.name ≠ [] ∧ join.onto.name ≠ [] := by
  let renderer : Renderer := ⟨⟨birdTypes⟩, .standard⟩
  have linked : ((birdCompiler.compile birdText).toOption.bind fun criteria =>
      (renderer.statement criteria).toOption.map fun statement => (statement.joins.length,
        ((Scope.ofCriteria ⟨birdTypes⟩ criteria).associations criteria.paths).map
          (Schema.linksStored ⟨birdTypes⟩))) = some (2, [true]) := by
    decide +kernel
  obtain ⟨criteria, compiled, linked⟩ := Option.bind_eq_some_iff.mp linked
  obtain ⟨statement, made, linked⟩ := Option.map_eq_some_iff.mp linked
  obtain ⟨length, linked⟩ := Prod.mk.inj linked
  have compiled := toOption_eq_some.mp compiled
  have made := toOption_eq_some.mp made
  have rendered : renderer.render criteria = .ok statement.print := bind_eq_ok.mpr ⟨statement, made, rfl⟩
  obtain ⟨-, other, again, -, named⟩ := named_of_render birdTypes ⟨birdTypes⟩ rfl criteria
    (.inl ⟨birdCompiler, rfl, birdText, compiled⟩) .standard statement.print rendered
  cases made.symm.trans again
  cases named with
  | cons named _ =>
    refine ⟨criteria, statement, compiled, made, named.columns, length, named.joins.mpr ?_⟩
    intro field member
    have listed := List.mem_map_of_mem (f := Schema.linksStored ⟨birdTypes⟩) member
    rw [linked] at listed
    exact List.mem_singleton.mp listed

/-- Here a badge is worn by many birds, and belongs to one club. -/
def flockTypes : List RecordType :=
  [{ id := "t1", name := "acme.Bird", label := "Bird", table := "bird"
     fields := [{ id := "f1", name := "id", label := "Id", column := "id", kind := .id },
       { id := "f2", name := "badge", label := "Badge", column := "badge", kind := .reference,
         target := "acme.Badge" },
       { id := "f3", name := "clubs", label := "Clubs", kind := .association, target := "acme.Club",
         linking := "acme.Badge", linkSelf := "birds", linkForeign := "club" }] },
   { id := "t2", name := "acme.Badge", label := "Badge", table := "badge"
     fields := [{ id := "f1", name := "id", label := "Id", column := "id", kind := .id },
       { id := "f2", name := "birds", label := "Birds", kind := .inverse, target := "acme.Bird",
         inverse := "badge" },
       { id := "f3", name := "club", label := "Club", column := "club", kind := .reference,
         target := "acme.Club" }] },
   { id := "t3", name := "acme.Club", label := "Club", table := "club"
     fields := [{ id := "f1", name := "id", label := "Id", column := "id", kind := .id },
       { id := "f2", name := "name", label := "Name", column := "name", kind := .text }] }]

/-- The birds of a badge are no column of it, but badges are joined by it. -/
theorem flocks_unnamed : Schema.build flockTypes = .ok ⟨flockTypes⟩ ∧ ∃ criteria statement,
    (⟨⟨flockTypes⟩, ⟨"acme", []⟩, [], 32⟩ : Compiler).compile "SELECT clubs.name FROM Bird" = .ok criteria ∧
    (⟨⟨flockTypes⟩, .standard⟩ : Renderer).statement criteria = .ok statement ∧
    ∃ join ∈ statement.joins, join.key.name = [] := by
  refine ⟨rfl, ?_⟩
  have joined : ((⟨⟨flockTypes⟩, ⟨"acme", []⟩, [], 32⟩ : Compiler).compile
      "SELECT clubs.name FROM Bird").toOption.any (fun criteria =>
        ((⟨⟨flockTypes⟩, .standard⟩ : Renderer).statement criteria).toOption.any fun statement =>
          statement.joins.any (·.key.name.isEmpty)) = true := by
    decide +kernel
  obtain ⟨criteria, compiled, joined⟩ := (Option.any_eq_true _ _).mp joined
  obtain ⟨statement, made, joined⟩ := (Option.any_eq_true _ _).mp joined
  obtain ⟨join, member, empty⟩ := List.any_eq_true.mp joined
  exact ⟨criteria, statement, toOption_eq_some.mp compiled, toOption_eq_some.mp made, join, member,
    List.isEmpty_iff.mp empty⟩

end Sql
end RecordQuery
