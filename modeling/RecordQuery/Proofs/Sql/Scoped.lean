import RecordQuery.Proofs.Aliases.Distinct
import RecordQuery.Proofs.Distinct
import RecordQuery.Proofs.Document.Subqueries
import RecordQuery.Proofs.Schema.Routes
import RecordQuery.Proofs.Sql.Columns

/-! A statement reads only from its own tables: the queried one and those it joins. The tables go by
different names, each is joined onto one that is there already, and none is joined in vain. -/
namespace RecordQuery

namespace Sql

mutual

theorem source_of_formula : (expression : Formula) → Scope.formula source owner expression = .ok value →
    ∀ column ∈ value.columns, column.source = source
  | .missing, made => by cases made
  | .text _, made => by
    cases made
    exact List.forall_mem_nil _
  | .field name, made => by
    rw [Scope.formula] at made
    split at made
    · cases made
    · cases made
      rw [Expression.columns]
      split
      · exact List.forall_mem_singleton.mpr rfl
      · rw [Expression.columns]
        exact List.forall_mem_singleton.mpr rfl
  | .concat parts, made => by
    rw [Scope.formula] at made
    obtain ⟨values, each, same⟩ := bind_eq_ok.mp made
    obtain rfl := pure_eq_ok.mp same
    rw [Expression.columns]
    exact source_of_formulas parts each

theorem source_of_formulas : (parts : List Formula) → Scope.formulas source owner parts = .ok values →
    ∀ column ∈ Expression.columnsAll values, column.source = source
  | [], made => by
    cases made
    exact List.forall_mem_nil _
  | part :: parts, made => by
    rw [Scope.formulas] at made
    obtain ⟨value, first, made⟩ := bind_eq_ok.mp made
    obtain ⟨others, rest, same⟩ := bind_eq_ok.mp made
    obtain rfl := pure_eq_ok.mp same
    rw [Expression.columnsAll]
    exact List.forall_mem_append.mpr ⟨source_of_formula part first, source_of_formulas parts rest⟩

end

namespace Scope

variable {scope : Scope} {paths : List Text}

/-- A path is read from one table, and it is read from there indeed. -/
theorem source_of_means (means : scope.Means path value) :
    ∃ route, scope.walk path = .ok route ∧ value.columns ≠ [] ∧
      ∀ column ∈ value.columns, column.source = scope.source (readFrom route path) := by
  obtain ⟨field, found⟩ := means
  obtain ⟨route, walked, found⟩ := bind_eq_ok.mp found
  refine ⟨route, walked, ?_⟩
  simp only at found
  split at found
  · obtain ⟨rfl, -⟩ := Prod.mk.inj (pure_eq_ok.mp found)
    simp [Expression.columns]
  · obtain ⟨-, found⟩ := guard_eq_ok.mp found
    split at found
    · obtain ⟨inner, made, same⟩ := bind_eq_ok.mp found
      obtain ⟨rfl, -⟩ := Prod.mk.inj (pure_eq_ok.mp same)
      refine ⟨by simp [Expression.columns], ?_⟩
      rw [Expression.columns]
      exact List.forall_mem_cons.mpr ⟨rfl, source_of_formula _ made⟩
    · obtain ⟨rfl, -⟩ := Prod.mk.inj (pure_eq_ok.mp found)
      simp [Expression.columns]

theorem readFrom_cases (route : Route) (path : Text) :
    readFrom route path = [] ∨ readFrom route path ∈ Aliases.strictPrefixes path := by
  rw [readFrom]
  split
  · rcases parentPath_cases (parentPath path) with top | above
    · exact .inl top
    · rcases parentPath_cases path with empty | nested
      · rw [empty] at above
        cases above
      · exact .inr (Aliases.strictPrefixes_trans above nested)
  · exact parentPath_cases path

theorem mem_chain_iff : above ∈ chain path ↔ above ≠ [] ∧ Aliases.AtOrAbove above path := by
  simp only [chain, List.mem_filter, List.mem_append, List.mem_singleton, Bool.not_eq_true',
    List.isEmpty_eq_false_iff, Aliases.AtOrAbove]
  tauto

theorem mem_joined_iff : above ∈ scope.joined paths ↔ above ≠ [] ∧ ∃ path ∈ paths, ∃ route,
    scope.walk path = .ok route ∧ Aliases.AtOrAbove above (readFrom route path) := by
  rw [joined, Aliases.mem_joinOrder, List.mem_eraseDups, List.mem_flatMap]
  constructor
  · rintro ⟨path, member, needed⟩
    rw [needs] at needed
    split at needed
    · rename_i route walked
      obtain ⟨filled, leads⟩ := mem_chain_iff.mp needed
      exact ⟨filled, path, member, route, walked, leads⟩
    · cases needed
  · rintro ⟨filled, path, member, route, walked, leads⟩
    refine ⟨path, member, ?_⟩
    rw [needs, walked]
    exact mem_chain_iff.mpr ⟨filled, leads⟩

theorem nodup_joined (paths : List Text) : (scope.joined paths).Nodup :=
  (List.mergeSort_perm _ _).nodup_iff.mpr (nodup_eraseDups _)

/-- A joined prefix ends before a dot of one of the paths. -/
theorem mem_strictPrefixes_of_joined (member : above ∈ scope.joined paths) :
    ∃ path ∈ paths, ∃ route, scope.walk path = .ok route ∧ above ∈ Aliases.strictPrefixes path := by
  obtain ⟨filled, path, inside, route, walked, leads⟩ := mem_joined_iff.mp member
  refine ⟨path, inside, route, walked, ?_⟩
  rcases readFrom_cases route path with top | nested
  · rw [top] at leads
    rcases leads with empty | nested
    · exact absurd empty filled
    · cases nested
  · rcases leads with rfl | higher
    · exact nested
    · exact Aliases.strictPrefixes_trans higher nested

/-- The alias of a prefix that is joined. -/
def joinName (scope : Scope) (above : Text) : Text := (scope.aliases.name? above).getD []

theorem source_eq_joinName (filled : above ≠ []) : scope.source above = scope.joinName above := by
  rw [source, if_neg (by simpa using filled), joinName]

/-- One join or, through a linking table, two. Each is made by a column of its own table and one of
the table that the prefix is joined onto or of the linking table. -/
theorem joinsAt_cases {joins : List Join} (made : scope.joinsAt above = .ok joins) :
    (∃ join, joins = [join] ∧ join.name = scope.joinName above ∧ join.key.source = join.name ∧
      join.onto.source = scope.parentSource above) ∨
    ∃ link join, joins = [link, join] ∧ link.name = scope.joinName above ++ Aliases.linkSuffix ∧
      link.key.source = link.name ∧ link.onto.source = scope.parentSource above ∧
      join.name = scope.joinName above ∧ join.key.source = join.name ∧ join.onto.source = link.name := by
  obtain ⟨route, -, made⟩ := bind_eq_ok.mp made
  obtain ⟨target, -, made⟩ := bind_eq_ok.mp made
  split at made
  · obtain rfl := pure_eq_ok.mp made
    exact .inl ⟨_, rfl, rfl, rfl, rfl⟩
  · obtain ⟨back, -, same⟩ := bind_eq_ok.mp made
    obtain rfl := pure_eq_ok.mp same
    exact .inl ⟨_, rfl, rfl, rfl, rfl⟩
  · obtain ⟨linking, -, made⟩ := bind_eq_ok.mp made
    obtain ⟨self, -, made⟩ := bind_eq_ok.mp made
    obtain ⟨foreign, -, same⟩ := bind_eq_ok.mp made
    obtain rfl := pure_eq_ok.mp same
    exact .inr ⟨_, _, rfl, rfl, rfl, rfl, rfl, rfl, rfl⟩
  · cases made

/-- A prefix is joined onto the queried table or onto the prefix before its last dot, which is joined
as well. -/
theorem parent_cases
    (undotted : ∀ path ∈ paths, ∀ route, scope.walk path = .ok route → path.head? ≠ some (Text.ascii '.'))
    (member : above ∈ scope.joined paths) :
    (Text.ascii '.' ∉ above ∧ scope.parentSource above = Aliases.base) ∨
      ∃ top last, above = top ++ Text.ascii '.' :: last ∧ Text.ascii '.' ∉ last ∧
        top ∈ scope.joined paths ∧ scope.parentSource above = scope.joinName top := by
  rw [parentSource]
  by_cases dotted : Text.ascii '.' ∈ above
  · obtain ⟨top, last, rfl, fresh⟩ := Text.exists_beforeLast dotted
    rw [Text.beforeLast?_append fresh]
    refine .inr ⟨top, last, rfl, fresh, ?_, rfl⟩
    have higher := Aliases.mem_strictPrefixes_append top last
    have filled : top ≠ [] := by
      obtain ⟨path, inside, route, walked, nested⟩ := mem_strictPrefixes_of_joined member
      exact (head?_of_strictPrefix (Aliases.strictPrefixes_trans higher nested)
        (undotted path inside route walked)).1
    obtain ⟨-, path, inside, route, walked, leads⟩ := mem_joined_iff.mp member
    refine mem_joined_iff.mpr ⟨filled, path, inside, route, walked, .inr ?_⟩
    rcases leads with whole | nested
    · exact whole ▸ higher
    · exact Aliases.strictPrefixes_trans higher nested
  · rw [Text.beforeLast?_of_not_mem dotted]
    exact .inl ⟨dotted, rfl⟩

theorem mem_joinsAt {joins : List Join} (made : scope.joinsAt above = .ok joins) :
    (∃ join ∈ joins, join.name = scope.joinName above) ∧ ∀ join ∈ joins,
      join.name = scope.joinName above ∨ join.name = scope.joinName above ++ Aliases.linkSuffix := by
  rcases joinsAt_cases made with ⟨join, rfl, name, -⟩ | ⟨link, join, rfl, linkName, -, -, name, -⟩
  · exact ⟨⟨join, .head _, name⟩, List.forall_mem_singleton.mpr (.inl name)⟩
  · refine ⟨⟨join, .tail _ (.head _), name⟩, List.forall_mem_cons.mpr ⟨.inr linkName, ?_⟩⟩
    exact List.forall_mem_singleton.mpr (.inl name)

end Scope

/-- Each join has a new name, and is made by columns of its own table and of tables that are there. -/
def Join.InOrder (known : List Text) : List Join → Prop
  | [] => True
  | join :: joins => join.name ∉ known ∧
    (∀ column ∈ [join.key, join.onto], column.source ∈ join.name :: known) ∧
    Join.InOrder (join.name :: known) joins

theorem Join.inOrder_append {known : List Text} {first second : List Join} :
    Join.InOrder known (first ++ second) ↔
      Join.InOrder known first ∧ Join.InOrder ((first.map (·.name)).reverse ++ known) second := by
  induction first generalizing known with
  | nil => simp [InOrder]
  | cons join first ih => simp [InOrder, ih, and_assoc]

/-- Parents are joined before their children, so every prefix finds the table it is joined onto. -/
theorem Scope.inOrder_joins {scope : Scope} {prefixes : List Text} {lists : List (List Join)}
    (all : List.Forall₂ (fun above joins => scope.joinsAt above = .ok joins) prefixes lists)
    (sorted : prefixes.Pairwise fun p q => Aliases.dots p ≤ Aliases.dots q)
    (apart : prefixes.Pairwise fun p q =>
      List.Disjoint [scope.joinName p, scope.joinName p ++ Aliases.linkSuffix]
        [scope.joinName q, scope.joinName q ++ Aliases.linkSuffix])
    (known : List Text)
    (fresh : ∀ above ∈ prefixes,
      List.Disjoint known [scope.joinName above, scope.joinName above ++ Aliases.linkSuffix])
    (there : ∀ above ∈ prefixes, scope.parentSource above ∈ known ∨
      ∃ top ∈ prefixes, Aliases.dots top < Aliases.dots above ∧ scope.joinName top = scope.parentSource above) :
    Join.InOrder known lists.flatten := by
  induction all generalizing known with
  | nil => trivial
  | @cons above joins prefixes lists made _ ih =>
    obtain ⟨deeper, sorted⟩ := List.pairwise_cons.mp sorted
    obtain ⟨separate, apart⟩ := List.pairwise_cons.mp apart
    obtain ⟨new, fresh⟩ := List.forall_mem_cons.mp fresh
    obtain ⟨onto, there⟩ := List.forall_mem_cons.mp there
    have parent : scope.parentSource above ∈ known := by
      rcases onto with here | ⟨top, member, shallower, -⟩
      · exact here
      · rcases List.mem_cons.mp member with rfl | later
        · omega
        · have := deeper top later
          omega
    have rest : ∀ added, scope.joinName above ∈ added →
        added ⊆ [scope.joinName above, scope.joinName above ++ Aliases.linkSuffix] →
        Join.InOrder (added ++ known) lists.flatten := by
      intro added itself only
      refine ih sorted apart _ ?_ ?_
      · intro other member
        rw [List.disjoint_append_left]
        exact ⟨fun _ inside => separate other member (only inside), fresh other member⟩
      · intro other member
        rcases there other member with here | ⟨top, inside, shallower, same⟩
        · exact .inl (List.mem_append_right _ here)
        · rcases List.mem_cons.mp inside with rfl | later
          · exact .inl (List.mem_append_left _ (same ▸ itself))
          · exact .inr ⟨top, later, shallower, same⟩
    rw [List.flatten_cons, Join.inOrder_append]
    rcases joinsAt_cases made with ⟨join, rfl, name, key, onto⟩ |
      ⟨link, join, rfl, linkName, linkKey, linkOnto, name, key, onto⟩
    · refine ⟨⟨?_, ?_, trivial⟩, rest _ (by simp [name]) (by simp [name])⟩
      · rw [name]
        exact fun taken => new taken (.head _)
      · simp [key, onto, parent]
    · refine ⟨⟨?_, ?_, ?_, ?_, trivial⟩, rest _ (by simp [name]) (by simp [name, linkName])⟩
      · rw [linkName]
        exact fun taken => new taken (.tail _ (.head _))
      · simp [linkKey, linkOnto, parent]
      · rw [name, linkName, List.mem_cons]
        rintro (same | taken)
        · exact absurd (List.append_right_eq_self.mp same.symm) (by decide)
        · exact new taken (.head _)
      · simp [key, onto]

theorem Join.InOrder.nodup {known : List Text} {joins : List Join} (ordered : Join.InOrder known joins)
    (distinct : known.Nodup) : ((joins.map (·.name)).reverse ++ known).Nodup := by
  induction joins generalizing known with
  | nil => simpa using distinct
  | cons join joins ih =>
    obtain ⟨fresh, -, rest⟩ := ordered
    simpa using ih rest (List.nodup_cons.mpr ⟨fresh, distinct⟩)

/-- The statement of a query reads only from tables that it names, each of which it needs. -/
structure InScope (query : Criteria) (statement : Statement) : Prop where
  distinct : (Aliases.base :: statement.joins.map (·.name)).Nodup
  joins : Join.InOrder [Aliases.base] statement.joins
  columns : ∀ column ∈ statement.columns, column.source = Aliases.base ∨
    (statement.joins.map (·.name)).count column.source = 1
  needed : ∀ join ∈ statement.joins, ∃ above name, query.aliases.name? above = some name ∧
    (join.name = name ∨ join.name = name ++ Aliases.linkSuffix) ∧
    ∃ path, Aliases.AtOrAbove above path ∧
      ∃ column ∈ statement.columns, query.aliases.name? path = some column.source

theorem aliasesOf_cases (criteria : Criteria) : Scope.aliasesOf criteria = criteria.aliases ∨
    Scope.aliasesOf criteria = Aliases.ofPaths criteria.paths :=
  ite_eq_or_eq _ _ _

theorem aliasesOf_eq {criteria : Criteria} (own : criteria.aliases = Aliases.ofPaths criteria.paths) :
    Scope.aliasesOf criteria = criteria.aliases :=
  (aliasesOf_cases criteria).elim id fun fresh => fresh.trans own.symm

theorem isSome_name?_aliasesOf {criteria : Criteria} (member : path ∈ criteria.paths)
    (nested : above ∈ Aliases.strictPrefixes path) :
    ((Scope.aliasesOf criteria).name? above).isSome = true := by
  have key := Aliases.mem_keys_ofPaths.mpr ⟨path, member, nested⟩
  rw [Scope.aliasesOf]
  split
  · rename_i covered
    obtain ⟨pair, inside, rfl⟩ := List.mem_map.mp key
    exact List.all_eq_true.mp covered pair inside
  · exact Aliases.isSome_name?_iff.mpr key

theorem name?_of_joined {criteria : Criteria}
    (member : above ∈ (Scope.ofCriteria schema criteria).joined criteria.paths) :
    (Scope.aliasesOf criteria).name? above = some ((Scope.ofCriteria schema criteria).joinName above) := by
  obtain ⟨path, inside, -, -, nested⟩ := Scope.mem_strictPrefixes_of_joined member
  obtain ⟨name, found⟩ := Option.isSome_iff_exists.mp (isSome_name?_aliasesOf inside nested)
  rw [Scope.joinName, Scope.ofCriteria, found, Option.getD_some]

/-- A path is read from a joined table, unless it is read from the queried one. -/
theorem Scope.readFrom_joined {scope : Scope} {paths : List Text} (member : path ∈ paths)
    (walked : scope.walk path = .ok route) (below : readFrom route path ≠ []) :
    readFrom route path ∈ scope.joined paths :=
  mem_joined_iff.mpr ⟨below, path, member, route, walked, .inl rfl⟩

section Statement

variable {renderer : Renderer} {criteria : Criteria} {statement : Statement}

/-- The joins of a statement are those for the prefixes to join, one after another. -/
theorem joins_of_statement (rendered : renderer.statement criteria = .ok statement) :
    ∃ lists, List.Forall₂ (fun above joins =>
      (Scope.ofCriteria renderer.schema criteria).joinsAt above = .ok joins)
        ((Scope.ofCriteria renderer.schema criteria).joined criteria.paths) lists ∧
      lists.flatten = statement.joins := by
  obtain ⟨lists, all, same⟩ := bind_eq_ok.mp (renders_of_statement rendered).joins
  exact ⟨lists, list_mapM_eq_ok.mp all, pure_eq_ok.mp same⟩

theorem exists_join_of_joined (rendered : renderer.statement criteria = .ok statement)
    (joined : above ∈ (Scope.ofCriteria renderer.schema criteria).joined criteria.paths) :
    ∃ join ∈ statement.joins, join.name = (Scope.ofCriteria renderer.schema criteria).joinName above := by
  obtain ⟨lists, made, joins⟩ := joins_of_statement rendered
  obtain ⟨list, listed, found⟩ := forall₂_mem_left made joined
  obtain ⟨join, own, name⟩ := (Scope.mem_joinsAt found).1
  exact ⟨join, joins ▸ List.mem_flatten_of_mem listed own, name⟩

theorem exists_joined_of_join (rendered : renderer.statement criteria = .ok statement)
    (member : join ∈ statement.joins) :
    ∃ above ∈ (Scope.ofCriteria renderer.schema criteria).joined criteria.paths,
      join.name = (Scope.ofCriteria renderer.schema criteria).joinName above ∨
        join.name = (Scope.ofCriteria renderer.schema criteria).joinName above ++ Aliases.linkSuffix := by
  obtain ⟨lists, made, joins⟩ := joins_of_statement rendered
  rw [← joins] at member
  obtain ⟨list, listed, inside⟩ := List.mem_flatten.mp member
  obtain ⟨above, joined, found⟩ := forall₂_mem_right made listed
  exact ⟨above, joined, (Scope.mem_joinsAt found).2 join inside⟩

theorem inOrder_of_statement (own : criteria.aliases = Aliases.ofPaths criteria.paths)
    (named : criteria.type.field? [] = none) (rendered : renderer.statement criteria = .ok statement) :
    Join.InOrder [Aliases.base] statement.joins := by
  obtain ⟨lists, made, joins⟩ := joins_of_statement rendered
  have distinct : (Scope.aliasesOf criteria).Distinct := by
    rw [aliasesOf_eq own, own]
    exact Aliases.distinct_ofPaths criteria.paths
  rw [← joins]
  refine Scope.inOrder_joins made (Aliases.pairwise_joinOrder _) ?_ _ ?_ ?_
  · refine (Scope.nodup_joined criteria.paths).pairwise_of_forall_ne ?_
    intro above member other inside different
    exact distinct.disjoint (name?_of_joined member) (name?_of_joined inside) different
  · intro above member
    exact List.singleton_disjoint.mpr (distinct.ne_base (name?_of_joined member))
  · intro above member
    have undotted : ∀ path ∈ criteria.paths, ∀ route,
        (Scope.ofCriteria renderer.schema criteria).walk path = .ok route →
          path.head? ≠ some (Text.ascii '.') :=
      fun _ _ _ walked => Schema.head?_of_walk named (mapError_eq_ok.mp walked)
    rcases Scope.parent_cases undotted member with ⟨-, base⟩ | ⟨top, last, rfl, -, joined, onto⟩
    · exact .inl (by rw [base]; exact .head _)
    · exact .inr ⟨top, joined, Aliases.dots_lt (Aliases.mem_strictPrefixes_append top last), onto.symm⟩

theorem inScope_of_statement (own : criteria.aliases = Aliases.ofPaths criteria.paths)
    (named : criteria.type.field? [] = none) (rendered : renderer.statement criteria = .ok statement) :
    InScope criteria statement := by
  have covers := (renders_of_statement rendered).covers
  have ordered := inOrder_of_statement own named rendered
  have tables : (Aliases.base :: statement.joins.map (·.name)).Nodup := by
    have reversed := ordered.nodup (List.nodup_singleton _)
    rwa [← List.reverse_cons, List.nodup_reverse] at reversed
  refine ⟨tables, ordered, ?_, ?_⟩
  · intro column member
    obtain ⟨path, inside, value, means, reads⟩ := covers.needed column member
    obtain ⟨route, walked, -, sources⟩ := Scope.source_of_means means
    rw [sources column reads]
    by_cases top : Scope.readFrom route path = []
    · rw [top]
      exact .inl rfl
    · obtain ⟨join, introduced, name⟩ :=
        exists_join_of_joined rendered (Scope.readFrom_joined inside walked top)
      rw [Scope.source_eq_joinName top, ← name]
      exact .inr (List.count_eq_one_of_mem (List.nodup_cons.mp tables).2 (List.mem_map_of_mem introduced))
  · intro join member
    obtain ⟨above, joined, name⟩ := exists_joined_of_join rendered member
    rw [← aliasesOf_eq own]
    refine ⟨above, _, name?_of_joined joined, name, ?_⟩
    obtain ⟨below, path, given, route, walked, leads⟩ := Scope.mem_joined_iff.mp joined
    have top : Scope.readFrom route path ≠ [] := by
      intro empty
      rw [empty] at leads
      rcases leads with same | nested
      · exact below same
      · cases nested
    obtain ⟨value, means, kept⟩ := covers.known path given
    obtain ⟨other, again, filled, sources⟩ := Scope.source_of_means means
    cases walked.symm.trans again
    obtain ⟨column, first⟩ := List.exists_mem_of_ne_nil _ filled
    refine ⟨_, leads, column, kept first, ?_⟩
    rw [sources column first, Scope.source_eq_joinName top]
    exact name?_of_joined (Scope.readFrom_joined given walked top)

end Statement

/-- All that is rendered of a compiled or decoded query is in scope: the statement itself and each
subquery in it, by tables of its own. -/
theorem inScope_of_render (declared : List RecordType) (schema : Schema)
    (built : Schema.build declared = .ok schema) (criteria : Criteria)
    (read : (∃ compiler : Compiler, compiler.schema = schema ∧ ∃ text, compiler.compile text = .ok criteria) ∨
      ∃ decoder : Decoder, decoder.schema = schema ∧ ∃ document, decoder.decode document = .ok criteria)
    (literals : Literals) (sql : Text)
    (rendered : (⟨schema, literals⟩ : Renderer).render criteria = .ok sql) :
    ∃ statement, (⟨schema, literals⟩ : Renderer).statement criteria = .ok statement ∧
      statement.print = sql ∧
      List.Forall₂ InScope (criteria :: criteria.subqueries) (statement :: statement.subqueries) := by
  have named := Schema.named_of_build built
  have sound : ∀ query ∈ criteria :: criteria.subqueries,
      query.type ∈ schema.types ∧ query.aliases = Aliases.ofPaths query.paths := by
    rcases read with ⟨compiler, rfl, text, compiled⟩ | ⟨decoder, rfl, document, decoded⟩
    · exact Compiler.aliases_of_compile compiled
    · exact Decoder.aliases_of_decode decoded
  obtain ⟨statement, made, same⟩ := bind_eq_ok.mp rendered
  refine ⟨statement, made, pure_eq_ok.mp same, ?_⟩
  have parts : List.Forall₂ (fun query part => (⟨schema, literals⟩ : Renderer).statement query = .ok part)
      (criteria :: criteria.subqueries) (statement :: statement.subqueries) :=
    .cons made (statements_of_statement criteria made)
  refine (List.forall₂_and_left _ _ |>.mpr ⟨sound, parts⟩).imp ?_
  rintro query part ⟨⟨known, own⟩, rendered⟩
  exact inScope_of_statement own (named.nameless known) rendered

/-- Birds have a mate, and wear badges of the clubs they are in. -/
def birdTypes : List RecordType :=
  [{ id := "t1", name := "acme.Bird", label := "Bird", table := "bird", defaultField := "name"
     fields := [{ id := "f1", name := "id", label := "Id", column := "id", kind := .id },
       { id := "f2", name := "name", label := "Name", column := "name", kind := .text },
       { id := "f3", name := "mate", label := "Mate", column := "mate", kind := .reference,
         target := "acme.Bird" },
       { id := "f4", name := "clubs", label := "Clubs", kind := .association, target := "acme.Club",
         linking := "acme.Badge", linkSelf := "bird", linkForeign := "club" }] },
   { id := "t2", name := "acme.Badge", label := "Badge", table := "badge"
     fields := [{ id := "f1", name := "id", label := "Id", column := "id", kind := .id },
       { id := "f2", name := "bird", label := "Bird", column := "bird", kind := .reference,
         target := "acme.Bird" },
       { id := "f3", name := "club", label := "Club", column := "club", kind := .reference,
         target := "acme.Club" }] },
   { id := "t3", name := "acme.Club", label := "Club", table := "club"
     fields := [{ id := "f1", name := "id", label := "Id", column := "id", kind := .id },
       { id := "f2", name := "name", label := "Name", column := "name", kind := .text }] }]

def birdCompiler : Compiler := ⟨⟨birdTypes⟩, ⟨"acme", []⟩, [], 32⟩

def birdText : Text :=
  "SELECT clubs.name FROM Bird WHERE mate.id IN (SELECT id FROM Bird WHERE mate.name = 'Tom')"

/-- The badges and clubs are joined; the mate is not, for its id is at hand, but in the subquery it is. -/
theorem birds_inScope : ∃ criteria statement, birdCompiler.compile birdText = .ok criteria ∧
    (statement :: statement.subqueries).map (·.joins.length) = [2, 1] ∧
    List.Forall₂ InScope (criteria :: criteria.subqueries) (statement :: statement.subqueries) := by
  let renderer : Renderer := ⟨⟨birdTypes⟩, .standard⟩
  have counted : ((birdCompiler.compile birdText).toOption.bind fun criteria =>
      (renderer.statement criteria).toOption.map fun statement =>
        (statement :: statement.subqueries).map (·.joins.length)) = some [2, 1] := by
    decide +kernel
  obtain ⟨criteria, compiled, counted⟩ := Option.bind_eq_some_iff.mp counted
  obtain ⟨statement, made, joined⟩ := Option.map_eq_some_iff.mp counted
  have compiled := toOption_eq_some.mp compiled
  have made := toOption_eq_some.mp made
  have rendered : renderer.render criteria = .ok statement.print := bind_eq_ok.mpr ⟨statement, made, rfl⟩
  obtain ⟨other, again, -, within⟩ := inScope_of_render birdTypes ⟨birdTypes⟩ rfl criteria
    (.inl ⟨birdCompiler, rfl, birdText, compiled⟩) .standard statement.print rendered
  cases made.symm.trans again
  exact ⟨criteria, statement, compiled, joined, within⟩

end Sql
end RecordQuery
