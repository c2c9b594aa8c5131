import RecordQuery.Proofs.Sql.Database
import RecordQuery.Proofs.Sql.Scoped

/-! Joins along references are navigation: they give every row of the queried table exactly one row of
each joined table, the one that a path leads to, or null where it leads nowhere. -/
namespace RecordQuery

namespace Sql

variable {α : Type} [DecidableEq α] {schema : Schema} {database : Database α} {row : Row α}

namespace Database

/-- The row at the end of some references, null where they lead nowhere. -/
def reach (database : Database α) (schema : Schema) (row : Row α) : List Step → Row α
  | [] => row
  | step :: steps =>
    match database.next? schema row step.field with
    | none => Row.null
    | some next => database.reach schema next steps

theorem next?_of_eq_none {reference : Field} (empty : row reference.column = none) :
    database.next? schema row reference = none := by
  rw [next?, empty]
  rfl

theorem next?_of_eq_some {reference : Field} {id : α} (held : row reference.column = some id)
    (leads : schema.typeNamed? reference.target = some target) :
    database.next? schema row reference =
      (database target.table).find? (· target.idColumn == some id) := by
  rw [next?, held, leads]
  rfl

theorem navigate_eq_reach (above : List Step) (last : Step) :
    database.navigate schema row above last = database.reach schema row above last.field.column := by
  induction above generalizing row with
  | nil => rfl
  | cons step above ih =>
    rw [navigate, reach]
    cases database.next? schema row step.field with
    | none => rfl
    | some next => exact ih

theorem reach_concat (steps : List Step) (step : Step) :
    database.reach schema row (steps ++ [step]) =
      (database.next? schema (database.reach schema row steps) step.field).getD Row.null := by
  induction steps generalizing row with
  | nil =>
    rw [List.nil_append, reach, reach]
    cases database.next? schema row step.field with
    | none => rfl
    | some next => rfl
  | cons first steps ih =>
    rw [List.cons_append, reach, reach]
    cases database.next? schema row first.field with
    | none => rfl
    | some next => exact ih

/-- References lead to null or to a row of the type that they lead to. -/
theorem reach_cases (leads : schema.Leads start steps goal) (member : row ∈ database start.table) :
    database.reach schema row steps = Row.null ∨
      database.reach schema row steps ∈ database goal.table := by
  induction steps generalizing row start with
  | nil =>
    obtain rfl := leads
    exact .inr member
  | cons step steps ih =>
    obtain ⟨-, -, target, named, leads⟩ := leads
    rw [reach]
    cases held : row step.field.column with
    | none =>
      rw [next?_of_eq_none held]
      exact .inl rfl
    | some id =>
      rw [next?_of_eq_some held named]
      cases found : (database target.table).find? (· target.idColumn == some id) with
      | none => exact .inl rfl
      | some next => exact ih leads (List.mem_of_find?_eq_some found)

end Database

theorem filter_of_key_nodup {β : Type} [BEq β] [LawfulBEq β] {key : γ → β} {values : List γ}
    (distinct : (values.map key).Nodup) (member : value ∈ values) :
    values.filter (key · == key value) = [value] := by
  induction values with
  | nil => cases member
  | cons first rest ih =>
    obtain ⟨fresh, distinct⟩ := List.nodup_cons.mp distinct
    rcases List.mem_cons.mp member with rfl | later
    · have unmatched : rest.filter (key · == key value) = [] := by
        rw [List.filter_eq_nil_iff]
        intro other inside same
        exact fresh (beq_iff_eq.mp same ▸ List.mem_map_of_mem inside)
      simp [unmatched]
    · have different : key first ≠ key value := by
        intro same
        exact fresh (same ▸ List.mem_map_of_mem later)
      simp [different, ih distinct later]

/-- A join by a reference adds the one row that the reference leads to. -/
theorem run_reference {joined : Joined α} {reference : Field} (owned : reference ∈ owner.fields)
    (isReference : reference.kind = .reference) (leads : schema.typeNamed? reference.target = some target)
    (keeps : database.Keeps schema owner) (keepsTarget : database.Keeps schema target)
    (held : joined parent = Row.null ∨ joined parent ∈ database owner.table) (different : parent ≠ name) :
    Join.run database ⟨target.table, name, ⟨name, target.idColumn⟩, ⟨parent, reference.column⟩⟩ joined =
      [joined.extend name ((database.next? schema (joined parent) reference).getD Row.null)] := by
  have condition : ∀ other : Row α,
      Join.holds ⟨target.table, name, ⟨name, target.idColumn⟩, ⟨parent, reference.column⟩⟩
        (joined.extend name other) =
      ((other target.idColumn).isSome && other target.idColumn == joined parent reference.column) := by
    intro other
    simp [Join.holds, Joined.read, Joined.extend_self, Joined.extend_of_ne _ _ different]
  rw [Join.run]
  simp only [condition]
  cases key : joined parent reference.column with
  | none =>
    have unmatched : (database target.table).filter
        (fun other => (other target.idColumn).isSome && other target.idColumn == none) = [] := by
      rw [List.filter_eq_nil_iff]
      intro other _ both
      simp only [Bool.and_eq_true, beq_iff_eq] at both
      rw [both.2] at both
      cases both.1
    rw [unmatched, Database.next?_of_eq_none key]
    rfl
  | some id =>
    have real : joined parent ∈ database owner.table := by
      rcases held with null | real
      · rw [null] at key
        cases key
      · exact real
    obtain ⟨found, member, same⟩ := keeps.references reference owned isReference _ real id key target leads
    have only : (database target.table).filter
        (fun other => (other target.idColumn).isSome && other target.idColumn == some id) = [found] := by
      rw [← filter_of_key_nodup keepsTarget.unique member, ← same]
      refine List.filter_congr ?_
      intro other inside
      have := keepsTarget.filled other inside
      cases held : other target.idColumn with
      | none => exact absurd held this
      | some value => rfl
    have first : (database target.table).find? (· target.idColumn == some id) = some found := by
      rw [← List.head?_filter, ← same, filter_of_key_nodup keepsTarget.unique member]
      rfl
    rw [only, Database.next?_of_eq_some key leads, first]
    rfl

/-- The id of the record that a reference leads to stands in the reference itself. -/
theorem id_of_next {reference : Field} (owned : reference ∈ owner.fields)
    (isReference : reference.kind = .reference) (leads : schema.typeNamed? reference.target = some target)
    (keeps : database.Keeps schema owner) (held : row = Row.null ∨ row ∈ database owner.table) :
    (database.next? schema row reference).getD Row.null target.idColumn = row reference.column := by
  cases key : row reference.column with
  | none =>
    rw [Database.next?_of_eq_none key]
    rfl
  | some id =>
    have real : row ∈ database owner.table := by
      rcases held with rfl | real
      · cases key
      · exact real
    obtain ⟨found, member, same⟩ := keeps.references reference owned isReference _ real id key target leads
    rw [Database.next?_of_eq_some key leads]
    cases first : (database target.table).find? (· target.idColumn == some id) with
    | none =>
      have missing := List.find?_eq_none.mp first found member
      simp [same] at missing
    | some other => simpa using List.find?_some first

/-- The paths lead along references, and the tables to join for them have names of their own. -/
structure Scope.Straight (scope : Scope) (paths : List Text) : Prop where
  undotted : ∀ path ∈ paths, path.head? ≠ some (Text.ascii '.')
  references : ∀ path ∈ paths, ∃ route, scope.walk path = .ok route ∧
    ∀ step ∈ route.above, step.field.kind = .reference
  apart : ∀ above ∈ scope.joined paths, ∀ other ∈ scope.joined paths,
    scope.joinName above = scope.joinName other → above = other
  fresh : ∀ above ∈ scope.joined paths, scope.joinName above ≠ Aliases.base

namespace Scope

variable {scope : Scope} {paths : List Text} {joined : Joined α}

/-- The row under the alias of a prefix is the one that the prefix leads to. -/
def Holds (scope : Scope) (database : Database α) (row : Row α) (joined : Joined α) (above : Text) : Prop :=
  ∀ route, scope.walk above = .ok route →
    joined (scope.source above) = database.reach scope.schema row route.steps

/-- The row of the queried table, and those of the joined ones. -/
structure Follows (scope : Scope) (database : Database α) (row : Row α) (joined : Joined α)
    (prefixes : List Text) : Prop where
  base : joined Aliases.base = row
  holds : ∀ above ∈ prefixes, scope.Holds database row joined above

/-- The row that a path is read from, or that a prefix is joined onto. -/
theorem Follows.row_of_parentPath {prefixes : List Text} (follows : scope.Follows database row joined prefixes)
    (undotted : path.head? ≠ some (Text.ascii '.')) (walked : scope.walk path = .ok route)
    (there : parentPath path ≠ [] → parentPath path ∈ prefixes) :
    joined (scope.source (parentPath path)) = database.reach scope.schema row route.above := by
  rcases Schema.walk_parentPath undotted (mapError_eq_ok.mp walked) with
    ⟨top, alone⟩ | ⟨below, shorter, walks, steps⟩
  · rw [top, alone]
    exact follows.base
  · rw [follows.holds _ (there below) shorter (mapError_eq_ok.mpr walks), steps]

namespace Straight

variable (straight : scope.Straight paths)

include straight

theorem walk_of_joined (member : above ∈ scope.joined paths) :
    ∃ route goal, scope.walk above = .ok route ∧ scope.schema.Leads scope.type route.steps goal ∧
      ∀ step ∈ route.steps, step.field.kind = .reference := by
  obtain ⟨path, inside, route, walked, nested⟩ := mem_strictPrefixes_of_joined member
  obtain ⟨same, again, references⟩ := straight.references path inside
  cases walked.symm.trans again
  have walked := mapError_eq_ok.mp walked
  obtain ⟨shorter, more, walks, above⟩ := Schema.walk_strictPrefix nested walked
  have leads := (Schema.leads_of_walk walked).1
  rw [above] at leads references
  obtain ⟨goal, leads, -⟩ := Schema.leads_append.mp leads
  exact ⟨shorter, goal, mapError_eq_ok.mpr walks, leads, (List.forall_mem_append.mp references).1⟩

theorem head?_of_joined (member : above ∈ scope.joined paths) : above.head? ≠ some (Text.ascii '.') := by
  obtain ⟨path, inside, -, -, nested⟩ := mem_strictPrefixes_of_joined member
  exact (head?_of_strictPrefix nested (straight.undotted path inside)).2

theorem parentSource_eq (member : above ∈ scope.joined paths) :
    scope.parentSource above = scope.source (parentPath above) ∧
      (parentPath above ≠ [] → parentPath above ∈ scope.joined paths ∧
        Aliases.dots (parentPath above) < Aliases.dots above) := by
  rcases parent_cases (fun path inside _ _ => straight.undotted path inside) member with
    ⟨single, base⟩ | ⟨top, last, rfl, fresh, inside, onto⟩
  · rw [base, parentPath_of_not_mem single]
    exact ⟨rfl, absurd rfl⟩
  · rw [onto, parentPath_append fresh, source_eq_joinName (mem_joined_iff.mp inside).1]
    exact ⟨rfl, fun _ => ⟨inside, Aliases.dots_lt (Aliases.mem_strictPrefixes_append top last)⟩⟩

theorem source_ne {other : Text} (member : above ∈ scope.joined paths) (different : other ≠ above)
    (there : other ≠ [] → other ∈ scope.joined paths) : scope.source other ≠ scope.source above := by
  rw [source_eq_joinName (mem_joined_iff.mp member).1]
  by_cases top : other = []
  · rw [top]
    exact (straight.fresh above member).symm
  · rw [source_eq_joinName top]
    exact fun same => different (straight.apart other (there top) above member same)

/-- What one join keeps: it adds the row of its prefix, and changes no other. -/
theorem follows_extend {known : List Text} (follows : scope.Follows database row joined known)
    (among : known ⊆ scope.joined paths) (member : above ∈ scope.joined paths) (new : above ∉ known)
    (walked : scope.walk above = .ok route) :
    scope.Follows database row
      (joined.extend (scope.source above) (database.reach scope.schema row route.steps)) (known ++ [above]) := by
  have others : ∀ other ∈ known, scope.source other ≠ scope.source above := by
    intro other inside
    refine straight.source_ne member ?_ fun _ => among inside
    rintro rfl
    exact new inside
  refine ⟨?_, List.forall_mem_append.mpr ⟨?_, List.forall_mem_singleton.mpr ?_⟩⟩
  · have base : Aliases.base ≠ scope.source above := by
      rw [source_eq_joinName (mem_joined_iff.mp member).1]
      exact (straight.fresh above member).symm
    rw [Joined.extend_of_ne _ _ base]
    exact follows.base
  · intro other inside found walks
    rw [Joined.extend_of_ne _ _ (others other inside)]
    exact follows.holds other inside found walks
  · intro found walks
    cases walked.symm.trans walks
    exact Joined.extend_self _ _ _

/-- Parents come first: when the turn of a prefix comes, the one before its last dot has been joined. -/
theorem parent_known {known prefixes : List Text} (whole : known ++ above :: prefixes = scope.joined paths)
    (below : parentPath above ≠ []) : parentPath above ∈ known := by
  have member : above ∈ scope.joined paths := whole ▸ List.mem_append_right _ (.head _)
  obtain ⟨inside, shallower⟩ := (straight.parentSource_eq member).2 below
  have sorted : (scope.joined paths).Pairwise fun p q => Aliases.dots p ≤ Aliases.dots q :=
    Aliases.pairwise_joinOrder _
  rw [← whole] at inside sorted
  rcases List.mem_append.mp inside with before | after
  · exact before
  · have deeper := (List.pairwise_cons.mp (List.pairwise_append.mp sorted).2.1).1
    rcases List.mem_cons.mp after with same | later
    · rw [same] at shallower
      exact absurd shallower (Nat.lt_irrefl _)
    · exact absurd shallower (Nat.not_lt.mpr (deeper _ later))

variable (keeps : ∀ type ∈ scope.type :: scope.schema.types, database.Keeps scope.schema type)
  (queried : row ∈ database scope.type.table)

include keeps queried

/-- One prefix is one join, which finds the one row that the prefix leads to. -/
theorem run_joinsAt {known : List Text} (follows : scope.Follows database row joined known)
    (member : above ∈ scope.joined paths) (there : parentPath above ≠ [] → parentPath above ∈ known) :
    ∃ join route, scope.joinsAt above = .ok [join] ∧ scope.walk above = .ok route ∧
      join.run database joined =
        [joined.extend (scope.source above) (database.reach scope.schema row route.steps)] := by
  obtain ⟨route, target, walked, leads, references⟩ := straight.walk_of_joined member
  obtain ⟨owner, onto, owns, owned, goal, found, rfl⟩ := Schema.leads_append.mp leads
  have isReference := references route.last (List.mem_append_right _ (.head _))
  obtain ⟨parent, inside⟩ := straight.parentSource_eq member
  have joins : scope.joinsAt above = .ok [⟨goal.table, scope.joinName above,
      ⟨scope.joinName above, goal.idColumn⟩, ⟨scope.parentSource above, route.last.field.column⟩⟩] := by
    have isNamed : scope.typeNamed route.leaf.target = .ok goal := by
      rw [typeNamed, Route.leaf, found]
    refine bind_eq_ok.mpr ⟨route, walked, bind_eq_ok.mpr ⟨goal, isNamed, ?_⟩⟩
    simp only [Route.leaf, isReference]
    rfl
  have held := follows.row_of_parentPath (straight.head?_of_joined member) walked there
  have different : scope.source (parentPath above) ≠ scope.source above := by
    refine straight.source_ne member ?_ fun below => (inside below).1
    intro same
    have below := (mem_joined_iff.mp member).1
    rw [same] at inside
    exact Nat.lt_irrefl _ (inside below).2
  refine ⟨_, route, joins, walked, ?_⟩
  rw [parent, ← source_eq_joinName (mem_joined_iff.mp member).1,
    run_reference (List.mem_of_find?_eq_some owned) isReference found (keeps owner (Schema.mem_of_leads onto))
      (keeps goal (Schema.mem_of_leads leads)) (held ▸ Database.reach_cases onto queried) different,
    held, Route.steps, Database.reach_concat]

/-- Joining prefix after prefix, parents first, finds the row of each. -/
theorem runAll_joins (prefixes known : List Text) (whole : known ++ prefixes = scope.joined paths)
    (follows : scope.Follows database row joined known) :
    ∃ lists final, prefixes.mapM scope.joinsAt = .ok lists ∧
      Join.runAll database lists.flatten joined = [final] ∧
      scope.Follows database row final (scope.joined paths) := by
  induction prefixes generalizing known joined with
  | nil =>
    rw [List.append_nil] at whole
    exact ⟨[], joined, rfl, rfl, whole ▸ follows⟩
  | cons above prefixes ih =>
    have among : known ⊆ scope.joined paths := whole ▸ List.subset_append_left _ _
    have member : above ∈ scope.joined paths := whole ▸ List.mem_append_right _ (.head _)
    have new : above ∉ known := by
      have distinct : (scope.joined paths).Nodup := nodup_joined paths
      rw [← whole] at distinct
      exact fun inside => (List.nodup_append.mp distinct).2.2 above inside above (.head _) rfl
    obtain ⟨join, route, made, walked, runs⟩ := straight.run_joinsAt keeps queried follows member
      (straight.parent_known whole)
    obtain ⟨lists, final, all, run, holds⟩ := ih (known ++ [above])
      (by rw [List.append_assoc]; exact whole)
      (straight.follows_extend follows among member new walked)
    refine ⟨[join] :: lists, final, ?_, ?_, holds⟩
    · rw [List.mapM_cons]
      exact bind_eq_ok.mpr ⟨_, made, bind_eq_ok.mpr ⟨_, all, rfl⟩⟩
    · rw [List.flatten_cons, List.singleton_append, Join.runAll, runs, List.flatMap_singleton]
      exact run

omit straight in
/-- The id that a path ends in stands in the reference before it. -/
theorem read_foreignKey (follows : scope.Follows database row joined (scope.joined paths))
    (undotted : path.head? ≠ some (Text.ascii '.')) (walked : scope.walk path = .ok route)
    (key : route.foreignKey? = some reference)
    (there : parentPath (parentPath path) ≠ [] → parentPath (parentPath path) ∈ scope.joined paths) :
    joined (scope.source (parentPath (parentPath path))) reference.column =
      database.reach scope.schema row route.above route.leaf.column := by
  obtain ⟨init, step, whole, isId, isReference, rfl⟩ := Route.foreignKey?_eq_some.mp key
  have walks := mapError_eq_ok.mp walked
  obtain ⟨leads, identified⟩ := Schema.leads_of_walk walks
  rw [whole] at leads ⊢
  obtain ⟨owner, onto, -, owned, target, found, rfl⟩ := Schema.leads_append.mp leads
  have above : ∃ shorter, scope.walk (parentPath path) = .ok shorter ∧ shorter.above = init := by
    rcases Schema.walk_parentPath undotted walks with ⟨-, alone⟩ | ⟨-, shorter, walks, steps⟩
    · rw [whole] at alone
      cases List.append_ne_nil_of_right_ne_nil _ (List.cons_ne_nil _ _) alone
    · exact ⟨shorter, mapError_eq_ok.mpr walks, List.append_inj_left' (steps.trans whole) rfl⟩
  obtain ⟨shorter, walks, rfl⟩ := above
  rw [follows.row_of_parentPath (head?_parentPath undotted) walks there, Database.reach_concat,
    ← RecordType.idColumn_eq identified isId]
  exact (id_of_next (List.mem_of_find?_eq_some owned) isReference found (keeps owner (Schema.mem_of_leads onto))
    (Database.reach_cases onto queried)).symm

/-- A path is a column of the row that leads to it; an id is taken from the reference before it. -/
theorem read_column (follows : scope.Follows database row joined (scope.joined paths))
    (member : path ∈ paths) (walked : scope.walk path = .ok route) (plain : route.leaf.kind ≠ .formula)
    (made : scope.column path = .ok (value, field)) :
    ∃ column, value = .column column ∧
      joined.read column = database.navigate scope.schema row route.above route.last := by
  have there : ∀ above, readFrom route path = above → above ≠ [] → above ∈ scope.joined paths :=
    fun above reads below => mem_joined_iff.mpr ⟨below, path, member, route, walked, .inl reads.symm⟩
  obtain ⟨again, walks, made⟩ := bind_eq_ok.mp made
  cases walked.symm.trans walks
  rw [Database.navigate_eq_reach]
  simp only at made
  split at made
  · rename_i reference key
    have reads : readFrom route path = parentPath (parentPath path) := by rw [readFrom, key]
    obtain ⟨rfl, -⟩ := Prod.mk.inj (pure_eq_ok.mp made)
    refine ⟨_, rfl, ?_⟩
    rw [reads]
    exact read_foreignKey keeps queried follows (straight.undotted path member) walked key
      (there _ reads)
  · rename_i key
    have reads : readFrom route path = parentPath path := by rw [readFrom, key]
    obtain ⟨-, made⟩ := guard_eq_ok.mp made
    rw [if_neg plain] at made
    obtain ⟨rfl, -⟩ := Prod.mk.inj (pure_eq_ok.mp made)
    refine ⟨_, rfl, ?_⟩
    rw [reads, Joined.read,
      follows.row_of_parentPath (straight.undotted path member) walked (there _ reads)]
    rfl

end Straight

theorem column_of_foreignKey (walked : scope.walk path = .ok route) (key : route.foreignKey? = some reference) :
    scope.column path =
      .ok (.column ⟨scope.source (parentPath (parentPath path)), reference.column⟩, route.leaf) := by
  refine bind_eq_ok.mpr ⟨route, walked, ?_⟩
  simp only [readFrom, key]
  rfl

theorem exists_column (walked : scope.walk path = .ok route) (plain : route.leaf.kind ≠ .formula)
    (single : route.leaf.kind.isCollection = false) : ∃ value field, scope.column path = .ok (value, field) := by
  cases key : route.foreignKey? with
  | some reference => exact ⟨_, _, column_of_foreignKey walked key⟩
  | none =>
    refine ⟨.column ⟨scope.source (parentPath path), route.leaf.column⟩, route.leaf,
      bind_eq_ok.mpr ⟨route, walked, ?_⟩⟩
    simp only [readFrom, key, single, if_neg plain]
    rfl

theorem not_mem_chain_parentPath (filled : path ≠ []) : path ∉ chain (parentPath path) := by
  intro inside
  obtain ⟨-, leads⟩ := mem_chain_iff.mp inside
  rcases parentPath_cases path with top | above
  · rw [top] at leads
    rcases leads with empty | nested
    · exact filled empty
    · cases nested
  · have shorter := Aliases.dots_lt above
    rcases leads with same | below
    · rw [← same] at shorter
      exact Nat.lt_irrefl _ shorter
    · exact Nat.lt_asymm shorter (Aliases.dots_lt below)

/-- The tables to join have names of their own. -/
def Separates (scope : Scope) (paths : List Text) : Prop :=
  (Aliases.base :: (scope.joined paths).map scope.joinName).Nodup

theorem separates_of_distinct {criteria : Criteria} (distinct : (aliasesOf criteria).Distinct) :
    (ofCriteria schema criteria).Separates criteria.paths := by
  refine List.nodup_cons.mpr ⟨?_, List.Nodup.map_on ?_ (nodup_joined _)⟩
  · intro taken
    obtain ⟨above, member, same⟩ := List.mem_map.mp taken
    exact distinct.ne_base (name?_of_joined member) (same ▸ .head _)
  · intro above member other inside same
    by_contra different
    have apart := distinct.disjoint (name?_of_joined member) (name?_of_joined inside) different
    exact apart (.head _) (same ▸ .head _)

end Scope

/-- Every path of the query leads along references, and to a field that is stored. -/
def OnlyReferences (schema : Schema) (criteria : Criteria) : Prop :=
  ∀ path ∈ criteria.paths, ∃ route, schema.walk criteria.type path = .ok route ∧
    (∀ step ∈ route.above, step.field.kind = .reference) ∧ route.leaf.kind ≠ .formula

/-- In every database that keeps its promises, the joins of a query give each queried row exactly one
row of joined tables. In it, each path of the query that has an expression is a column that holds what
navigation finds; an id after a reference is the column of the reference, whatever else is joined. -/
def Navigates (schema : Schema) (criteria : Criteria) : Prop :=
  ∀ (α : Type) [DecidableEq α] (database : Database α),
    (∀ type ∈ criteria.type :: schema.types, database.Keeps schema type) →
    ∀ row ∈ database criteria.type.table, ∃ joins joined,
      (Scope.ofCriteria schema criteria).joins criteria.paths = .ok joins ∧
      Join.runAll database joins (Joined.ofRow row) = [joined] ∧
      ∀ path ∈ criteria.paths, ∀ route, schema.walk criteria.type path = .ok route →
        (route.leaf.kind.isCollection = false →
          ∃ value field, (Scope.ofCriteria schema criteria).column path = .ok (value, field)) ∧
        (∀ value field, (Scope.ofCriteria schema criteria).column path = .ok (value, field) →
          ∃ column, value = .column column ∧
            joined.read column = database.navigate schema row route.above route.last) ∧
        (route.leaf.name = idName → ∀ step ∈ route.above.getLast?,
          (Scope.ofCriteria schema criteria).column path =
            .ok (.column ⟨(Scope.ofCriteria schema criteria).source (parentPath (parentPath path)),
              step.field.column⟩, route.leaf) ∧
          parentPath path ∉ (Scope.ofCriteria schema criteria).needs path)

theorem straight_of_separates {criteria : Criteria} (references : OnlyReferences schema criteria)
    (undotted : ∀ path ∈ criteria.paths, path.head? ≠ some (Text.ascii '.'))
    (separates : (Scope.ofCriteria schema criteria).Separates criteria.paths) :
    (Scope.ofCriteria schema criteria).Straight criteria.paths := by
  obtain ⟨fresh, distinct⟩ := List.nodup_cons.mp separates
  refine ⟨undotted, ?_, ?_, ?_⟩
  · intro path member
    obtain ⟨route, walked, only, -⟩ := references path member
    exact ⟨route, mapError_eq_ok.mpr walked, only⟩
  · intro above member other inside same
    exact List.inj_on_of_nodup_map distinct member inside same
  · rintro above member same
    exact fresh (same ▸ List.mem_map_of_mem member)

/-- Joins along references denote navigation. Where a query brings along aliases of its own, and enough
of them to be used, they have to tell the joined tables apart. -/
theorem navigates_of_onlyReferences (schema : Schema) (criteria : Criteria)
    (references : OnlyReferences schema criteria)
    (undotted : ∀ path ∈ criteria.paths, path.head? ≠ some (Text.ascii '.'))
    (separates : Scope.aliasesOf criteria = criteria.aliases →
      (Scope.ofCriteria schema criteria).Separates criteria.paths) : Navigates schema criteria := by
  intro α _ database keeps row queried
  let scope := Scope.ofCriteria schema criteria
  have separates : scope.Separates criteria.paths := by
    rcases aliasesOf_cases criteria with own | fresh
    · exact separates own
    · exact Scope.separates_of_distinct (fresh ▸ Aliases.distinct_ofPaths criteria.paths)
  have straight := straight_of_separates references undotted separates
  have start : scope.Follows database row (Joined.ofRow row) [] := ⟨if_pos rfl, List.forall_mem_nil _⟩
  obtain ⟨lists, joined, made, run, follows⟩ :=
    straight.runAll_joins keeps queried (scope.joined criteria.paths) [] rfl start
  refine ⟨lists.flatten, joined, bind_eq_ok.mpr ⟨lists, made, rfl⟩, run, ?_⟩
  intro path member route walked
  obtain ⟨same, again, only, plain⟩ := references path member
  cases walked.symm.trans again
  have walks : scope.walk path = .ok route := mapError_eq_ok.mpr walked
  refine ⟨Scope.exists_column walks plain, ?_, ?_⟩
  · intro value field found
    exact straight.read_column keeps queried follows member walks plain found
  · intro isId step last
    have key : route.foreignKey? = some step.field := by
      obtain ⟨init, whole⟩ := List.getLast?_eq_some_iff.mp last
      have isReference := only step (whole ▸ List.mem_append_right _ (.head _))
      exact Route.foreignKey?_eq_some.mpr ⟨init, step, whole, isId, isReference, rfl⟩
    refine ⟨Scope.column_of_foreignKey walks key, ?_⟩
    rw [Scope.needs, walks]
    simp only [Scope.readFrom, key]
    refine Scope.not_mem_chain_parentPath ?_
    intro top
    rcases Schema.walk_parentPath (undotted path member) walked with ⟨-, alone⟩ | ⟨below, -⟩
    · rw [alone] at last
      cases last
    · exact below top

/-- A row that holds the given values. -/
def Row.ofList (values : List (Text × α)) : Row α := fun column => values.lookup column

def nestTom : Row Nat := Row.ofList [("id", 1), ("name", 10), ("mate", 2)]

/-- Tom has a mate, who has none. -/
def nestTables : Database Nat := fun table =>
  if table = "bird" then [nestTom, Row.ofList [("id", 2), ("name", 20)]] else []

/-- Birds whose mate goes by the given name. -/
def nestType (mate : Text) : RecordType :=
  { id := "t1", name := "acme.Bird", label := "Bird", table := "bird", defaultField := "name"
    fields := [{ id := "f1", name := "id", label := "Id", column := "id", kind := .id },
      { id := "f2", name := "name", label := "Name", column := "name", kind := .text },
      { id := "f3", name := mate, label := "Mate", column := "mate", kind := .reference,
        target := "acme.Bird" }] }

def nestQuery (type : RecordType) (properties : List Text) (aliases : Aliases) : Criteria :=
  ⟨type, properties, [], none, [], [], none, none, aliases, false⟩

def nestPaths : Criteria :=
  (nestQuery (nestType "mate") ["name", "mate.id", "mate.name", "mate.mate.name"] []).withAliases

theorem nestTables_keeps (mate : Text) (type : RecordType) (member : type ∈ [nestType mate, nestType mate]) :
    nestTables.Keeps ⟨[nestType mate]⟩ type := by
  obtain rfl : type = nestType mate := by simpa using member
  refine ⟨?_, ?_, ?_⟩
  · change ∀ row ∈ nestTables "bird", row "id" ≠ none
    decide
  · change ((nestTables "bird").map (· "id")).Nodup
    decide
  · have mates : ∀ row ∈ nestTables "bird", ∀ id ∈ row "mate",
        ∃ found ∈ nestTables "bird", found "id" = some id := by decide
    intro field owned isReference row member id held target found
    rcases List.mem_cons.mp owned with rfl | owned
    · cases isReference
    rcases List.mem_cons.mp owned with rfl | owned
    · cases isReference
    obtain rfl := List.mem_singleton.mp owned
    obtain rfl := Option.some.inj found
    exact mates row member id held

/-- Tom's name is at hand, and so is the id of his mate. She is joined, and has no mate of her own. -/
theorem nest_navigates : ∃ joins joined columns,
    (Scope.ofCriteria ⟨[nestType "mate"]⟩ nestPaths).joins nestPaths.paths = .ok joins ∧
    Join.runAll nestTables joins (Joined.ofRow nestTom) = [joined] ∧
    List.Forall₂ (fun path column => ∃ field,
      (Scope.ofCriteria ⟨[nestType "mate"]⟩ nestPaths).column path = .ok (.column column, field))
      nestPaths.paths columns ∧
    columns.map joined.read = [some 10, some 2, some 20, none] := by
  have references : OnlyReferences ⟨[nestType "mate"]⟩ nestPaths := by
    refine List.forall_mem_cons.mpr ⟨?_, List.forall_mem_cons.mpr ⟨?_, List.forall_mem_cons.mpr
      ⟨?_, List.forall_mem_singleton.mpr ?_⟩⟩⟩
    all_goals exact ⟨_, rfl, by decide, by decide⟩
  obtain ⟨joins, joined, made, run, reads⟩ := navigates_of_onlyReferences ⟨[nestType "mate"]⟩ nestPaths
    references (by decide) (fun own => Scope.separates_of_distinct (own ▸ Aliases.distinct_ofPaths _))
    Nat nestTables (nestTables_keeps "mate") nestTom (.head _)
  have each : ∀ path ∈ nestPaths.paths, ∀ route,
      Schema.walk ⟨[nestType "mate"]⟩ nestPaths.type path = .ok route → route.leaf.kind.isCollection = false →
      ∃ column, (∃ field, (Scope.ofCriteria ⟨[nestType "mate"]⟩ nestPaths).column path =
          .ok (.column column, field)) ∧
        joined.read column = nestTables.navigate ⟨[nestType "mate"]⟩ nestTom route.above route.last := by
    intro path member route walked single
    obtain ⟨expressed, value, -⟩ := reads path member route walked
    obtain ⟨_, field, found⟩ := expressed single
    obtain ⟨column, rfl, holds⟩ := value _ field found
    exact ⟨column, ⟨field, found⟩, holds⟩
  obtain ⟨name, nameAt, nameIs⟩ := each "name" (by decide) _ rfl rfl
  obtain ⟨id, idAt, idIs⟩ := each "mate.id" (by decide) _ rfl rfl
  obtain ⟨mate, mateAt, mateIs⟩ := each "mate.name" (by decide) _ rfl rfl
  obtain ⟨next, nextAt, nextIs⟩ := each "mate.mate.name" (by decide) _ rfl rfl
  refine ⟨joins, joined, [name, id, mate, next], made, run,
    .cons nameAt (.cons idAt (.cons mateAt (.cons nextAt .nil))), ?_⟩
  rw [List.map_cons, List.map_cons, List.map_cons, List.map_singleton, nameIs, idIs, mateIs, nextIs]
  rfl

/-- Aliases that a query brings along may hide the queried table. A reference without a name is
not even joined. -/
theorem not_navigates :
    (OnlyReferences ⟨[nestType "mate"]⟩ (nestQuery (nestType "mate") ["name", "mate.name"] [("mate", "this")]) ∧
      ¬ Navigates ⟨[nestType "mate"]⟩ (nestQuery (nestType "mate") ["name", "mate.name"] [("mate", "this")])) ∧
    OnlyReferences ⟨[nestType []]⟩ (nestQuery (nestType []) [".name"] []) ∧
      ¬ Navigates ⟨[nestType []]⟩ (nestQuery (nestType []) [".name"] []) := by
  refine ⟨⟨?_, ?_⟩, ?_, ?_⟩
  · exact List.forall_mem_cons.mpr ⟨⟨_, rfl, by decide, by decide⟩,
      List.forall_mem_singleton.mpr ⟨_, rfl, by decide, by decide⟩⟩
  · intro navigates
    obtain ⟨joins, joined, made, run, reads⟩ := navigates Nat nestTables (nestTables_keeps "mate") _ (.head _)
    have hides : ((Scope.ofCriteria ⟨[nestType "mate"]⟩
        (nestQuery (nestType "mate") ["name", "mate.name"] [("mate", "this")])).joins
          ["name", "mate.name"]).toOption = some [⟨"bird", "this", ⟨"this", "id"⟩, ⟨"this", "mate"⟩⟩] := by
      decide +kernel
    cases made.symm.trans (toOption_eq_some.mp hides)
    obtain rfl := List.head_eq_of_cons_eq run
    obtain ⟨-, reads, -⟩ := reads "name" (.head _) _ rfl
    obtain ⟨column, same, reads⟩ := reads _ _ rfl
    cases same
    cases reads
  · exact List.forall_mem_singleton.mpr ⟨_, rfl, by decide, by decide⟩
  · intro navigates
    obtain ⟨joins, joined, made, run, reads⟩ := navigates Nat nestTables (nestTables_keeps []) _ (.head _)
    have lacks : ((Scope.ofCriteria ⟨[nestType []]⟩ (nestQuery (nestType []) [".name"] [])).joins
        [".name"]).toOption = some [] := by
      decide +kernel
    cases made.symm.trans (toOption_eq_some.mp lacks)
    obtain rfl := List.head_eq_of_cons_eq run
    obtain ⟨-, reads, -⟩ := reads ".name" (.head _) _ rfl
    obtain ⟨column, same, reads⟩ := reads _ _ rfl
    cases same
    cases reads

end Sql
end RecordQuery
