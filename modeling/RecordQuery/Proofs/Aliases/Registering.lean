import RecordQuery.Document.Decode
import RecordQuery.Proofs.Aliases.Canonical
import RecordQuery.Proofs.Compile.Layout
import RecordQuery.Proofs.Sql.Columns

/-! Aliases that are registered piecemeal. A query gets its aliases in the end, for all of its paths at once.
They may as well be registered while the query is put together, each path as soon as it is bound: a text and
a document bring the paths in different orders, and more often than the query has them, and both end up with
the same aliases. -/
namespace RecordQuery

/-- Aliases depend neither on the order of the paths nor on how often one is there. -/
theorem Aliases.ofPaths_eq_of_mem {paths others : List Text} (same : ∀ path, path ∈ paths ↔ path ∈ others) :
    ofPaths paths = ofPaths others := by
  have registers := registers_ofPaths paths
  have registers' := registers_ofPaths others
  refine (canonical_ofPaths paths).eq_of_keys (canonical_ofPaths others) registers.once registers'.once ?_
  intro above
  simp only [registers.keys, registers'.keys, same]

theorem Aliases.ofPaths_concat (paths : List Text) (path : Text) :
    ofPaths (paths ++ [path]) = (ofPaths paths).addPath path :=
  List.foldl_append

/-- A step in the making of a query, with its aliases so far at hand. -/
abbrev Registering := StateT Aliases (Except QueryError)

def register (path : Text) : Registering Unit := modify (·.addPath path)

/-- Takes the step, and registers the path of what it gives. -/
def registering (path : α → Text) (step : Except QueryError α) : Registering α := do
  let value ← step
  register (path value)
  return value

/-- The query with the aliases registered so far. -/
def Criteria.registered (criteria : Criteria) : Registering Criteria :=
  return { criteria with aliases := ← get }

namespace Query

def Selected.path : Selected → Text
  | property path => path
  | aggregate call _ => call.property

def registerSelect (schema : Schema) (type : RecordType) (seen : Option Bool) :
    List SelectItem → Registering (List Selected)
  | [] => return []
  | item :: items => do
    let selected ← bindItem schema type item
    let seen ← checkMixing seen item selected
    register selected.path
    return selected :: (← registerSelect schema type seen items)

def registerPath (schema : Schema) (type : RecordType) (token : Token) : Registering Field :=
  registering (fun _ => token.text) (bindPath schema type token)

def registerLeaf (schema : Schema) (type : RecordType) (node : Restriction) : Registering Unit :=
  match node.property? with
  | none => return
  | some path => do
    let field ← registerPath schema type ⟨.word, path, none⟩
    match node with
    | .inQuery _ subquery => (schema.checkSubquery path field subquery).mapError QueryError.schema
    | _ => return

def registerKeys {α : Type} (schema : Schema) (type : RecordType) (token : α → Token) (keys : Keys α) :
    Registering (List α) := do
  keys.keys.forM fun key => do
    let _ ← registerPath schema type (token key)
  match keys.failure with
  | some failure => throw failure
  | none => return keys.keys

end Query

namespace Compiler

open Query

def registerWhere (schema : Schema) (read : RestrictionReader) (type : RecordType)
    (window : Option (Window × Token)) : Registering (Option Restriction) :=
  window.mapM fun found => do
    let restriction ← readWhere read found.1 found.2
    (restriction.visit fun _ => true).forM (registerLeaf schema type)
    return restriction

def registerGroupBy (schema : Schema) (type : RecordType) (window : Option (Window × Token)) :
    Registering (List Text) :=
  window.elim (pure []) fun found => do
    let tokens ← registerKeys schema type id (groupKeys found.1.keyword found.1.tokens)
    return (tokens.map (·.text)).eraseDups

def registerOrderBy (schema : Schema) (type : RecordType) (window : Option (Window × Token)) :
    Registering (List SortKey) :=
  window.elim (pure []) fun found => do
    let keys ← registerKeys schema type (·.1) (orderKeys found.2 none found.1.tokens)
    return keys.map fun key => ⟨key.1.text, key.2⟩

/-- The query of a type with the given select list and clauses, under the aliases registered for them. -/
def registerClauses (schema : Schema) (read : RestrictionReader) (isSubquery : Bool) (ending : Token)
    (type : RecordType) (selected : List Selected) (windows : List Window) : Registering Criteria := do
  let restriction ← registerWhere schema read type (window? ending .where_ windows)
  let groupBy ← registerGroupBy schema type (window? ending .groupBy windows)
  let criteria : Criteria :=
    { type, properties := (selected.filterMap (·.property?)).eraseDups
      aggregates := selected.filterMap (·.aggregate?), restriction, groupBy, orderBy := []
      limit := none, offset := none, aliases := [], isSubquery }
  criteria.checkGrouping.mapError QueryError.schema
  let orderBy ← registerOrderBy schema type (window? ending .orderBy windows)
  let limit ← (window? ending .limit windows).mapM fun found =>
    rowCount .limit found.1.keyword found.1.tokens
  let offset ← (window? ending .offset windows).mapM fun found =>
    rowCount .offset found.1.keyword found.1.tokens
  { criteria with orderBy, limit, offset }.registered

/-- The query of tokens, with a table of aliases of its own. -/
def registerQuery (compiler : Compiler) (read : RestrictionReader) (isSubquery : Bool) (ending : Token)
    (tokens : List Token) : Except QueryError Criteria := do
  let first := tokens.headD ending
  if !first.isKeyword "SELECT" then throw (.atToken first .noSelect)
  let (items, rest) ← selectList ending .first (tokens.drop 1)
  let typeToken := rest.headD ending
  if typeToken.kind ≠ .word then throw (.atToken typeToken .noType)
  let some type := compiler.schema.resolve? compiler.packages typeToken.text
    | throw (.atToken typeToken (.unknownType typeToken.text))
  let registered : Registering Criteria := do
    let selected ← registerSelect compiler.schema type none items
    let windows ← windows ending (rest.drop 1)
    registerClauses compiler.schema read isSubquery ending type selected windows
  registered.run' []

mutual

def registerRestriction (compiler : Compiler) : (depth : Nat) → RestrictionReader
  | 0 => fun ending tokens =>
    .error (.atToken (tokens.headD ending) (.tooDeep compiler.maxDepth))
  | depth + 1 => fun ending tokens =>
    level (registerRestriction compiler depth) (registerSubquery compiler depth) ending 0 .start tokens

def registerSubquery (compiler : Compiler) : (depth : Nat) → SubqueryReader
  | 0 => fun closing tokens =>
    .error (.atToken (tokens.headD closing) (.tooDeep compiler.maxDepth))
  | depth + 1 => fun closing tokens =>
    compiler.registerQuery (registerRestriction compiler depth) true closing tokens

end

/-- Compiles a query text, and registers each path as soon as it is bound. -/
def registerText (compiler : Compiler) (text : Text) : Except QueryError Criteria := do
  let (tokens, ending) ← (Lexer.start text compiler.operators).run.mapError .malformed
  compiler.registerQuery (compiler.registerRestriction compiler.maxDepth) false ending tokens

end Compiler

namespace Decoder

def registerKey (decoder : Decoder) (type : RecordType) (ref : PropertyRef) :
    Registering (Text × Field) :=
  registering (·.1) (decoder.key type ref)

/-- The query of a type with the given parts, under the aliases registered for them. -/
def registerParts (decoder : Decoder) (type : RecordType) (restrictions : Registering (List Restriction))
    (isSubquery : Bool) (properties : List SelectedProperty) (groupings : List PropertyRef)
    (orderings : List DocumentOrdering) (limit offset : Option Int) : Registering Criteria := do
  let selected ← properties.mapM fun property => registering (·.1) (decoder.selected type property)
  let groupBy ← groupings.mapM fun ref => registering id do return (← decoder.key type ref).1
  let roots ← restrictions
  let orderBy ← orderings.mapM fun ordering => registering (·.property) (decoder.sortKey type ordering)
  checkCount .limit limit
  checkCount .offset offset
  let criteria : Criteria :=
    { type
      properties := (selected.filterMap fun (path, function) =>
        if function.isNone then some path else none).eraseDups
      aggregates := selected.filterMap fun (path, function) => function.map (⟨·, path⟩)
      restriction := conjunction roots, groupBy := groupBy.eraseDups, orderBy, limit, offset
      aliases := [], isSubquery }
  (decoder.schema.validate criteria).mapError QueryError.schema
  criteria.registered

mutual

def registerNode (decoder : Decoder) (type : RecordType) (depth : Nat) :
    DocumentNode → Registering Restriction
  | ⟨written, ref, args⟩ =>
    if depth = 0 then throw (.atNode written (.tooDeep decoder.maxDepth))
    else
      match Operator.ofName? written, args with
      | none, _ => throw (.atNode written (.unknownOperator written))
      | some (.connect connective), args => do
        combine written (some connective) (← decoder.registerChildren type (depth - 1) written args)
      | some .not, args => do
        combine written none (← decoder.registerChildren type (depth - 1) written args)
      | some .isNull, args => do
        let (path, _) ← decoder.registerKey type ref
        if !args.isEmpty then throw (.atNode written (.argumentCount written .none))
        return .isNull path
      | some .isIn, [.subquery document] => do
        let (path, field) ← decoder.registerKey type ref
        let subquery ← decoder.registerQuery (depth - 2) true document
        (decoder.schema.checkSubquery path field subquery).mapError QueryError.schema
        return .inQuery path subquery
      | some .isIn, args => do
        let (path, _) ← decoder.registerKey type ref
        let values ← values written args
        if values.isEmpty then throw (.atNode written (.argumentCount written .queryOrValues))
        return .inValues path values
      | some (.compare comparator), args => do
        let (path, _) ← decoder.registerKey type ref
        match ← values written args with
        | [value] => return .comparison comparator path value
        | _ => throw (.atNode written (.argumentCount written .oneValue))

def registerChildren (decoder : Decoder) (type : RecordType) (depth : Nat) (written : Text) :
    List Argument → Registering (List Restriction)
  | [] => return []
  | .restriction child :: args => do
    let first ← decoder.registerNode type depth child
    return first :: (← decoder.registerChildren type depth written args)
  | .value _ :: _ | .subquery _ :: _ =>
    throw (.atNode written (.argumentCount written .nestedOnly))

def registerNodes (decoder : Decoder) (type : RecordType) (depth : Nat) :
    List DocumentNode → Registering (List Restriction)
  | [] => return []
  | first :: rest => do
    let restriction ← decoder.registerNode type depth first
    return restriction :: (← decoder.registerNodes type depth rest)

/-- The query of a document, with a table of aliases of its own. -/
def registerQuery (decoder : Decoder) (depth : Nat) (isSubquery : Bool) :
    Document → Except QueryError Criteria
  | ⟨typeId, typeName, properties, groupings, restrictions, orderings, limit, offset⟩ => do
    let type ← decoder.baseType typeId typeName
    (decoder.registerParts type (decoder.registerNodes type depth restrictions) isSubquery properties groupings
      orderings limit offset).run' []

end

/-- Decodes a document, and registers each path as soon as it is resolved. -/
def registerDocument (decoder : Decoder) (document : Document) : Except QueryError Criteria :=
  decoder.registerQuery decoder.maxDepth false document

end Decoder

/-- From the aliases of the paths before it on, the step does what the other one does, and leaves the
aliases of the paths after it. -/
def Tracks (before : List Text) (step : Registering α) (plain : Except QueryError α)
    (after : α → List Text) : Prop :=
  step.run (.ofPaths before) = plain.map fun value => (value, .ofPaths (after value))

namespace Tracks

variable {before : List Text} {step : Registering α} {plain : Except QueryError α}

theorem pure {after : α → List Text} (same : ∀ path, path ∈ before ↔ path ∈ after value) :
    Tracks before (pure value) (.ok value) after :=
  congrArg (Except.ok <| Prod.mk value ·) (Aliases.ofPaths_eq_of_mem same)

theorem throw (error : QueryError) (after : α → List Text) :
    Tracks before (throw error) (.error error) after :=
  rfl

theorem lift (plain : Except QueryError α) : Tracks before (liftM plain) plain fun _ => before := by
  cases plain <;> rfl

theorem bind {next : α → Registering β} {later : α → Except QueryError β} {between : α → List Text}
    {after : β → List Text} (first : Tracks before step plain between)
    (rest : ∀ value, Tracks (between value) (next value) (later value) after) :
    Tracks before (step >>= next) (plain >>= later) after := by
  rw [Tracks, StateT.run_bind, first]
  cases plain with
  | error error => rfl
  | ok value => exact rest value

theorem lift_bind {next : α → Registering β} {later : α → Except QueryError β} {after : β → List Text}
    (rest : ∀ value, Tracks before (next value) (later value) after) :
    Tracks before (liftM plain >>= next) (plain >>= later) after :=
  (lift plain).bind rest

theorem register {next : Unit → Registering α} {after : α → List Text}
    (rest : Tracks (before ++ [path]) (next ()) plain after) :
    Tracks before (RecordQuery.register path >>= next) plain after := by
  rw [Tracks, Aliases.ofPaths_concat] at rest
  exact rest

theorem registering (path : α → Text) (plain : Except QueryError α) (before : List Text) :
    Tracks before (RecordQuery.registering path plain) plain fun value => before ++ [path value] := by
  have tracks : Tracks before (RecordQuery.registering path plain) (plain >>= fun value => .ok value)
      fun value => before ++ [path value] :=
    .lift_bind fun value => .register (.pure fun _ => .rfl)
  rwa [show plain >>= (fun value => .ok value) = plain from bind_pure plain] at tracks

theorem option_mapM {step : α → Registering β} {plain : α → Except QueryError β}
    {after : Option β → List Text} (given : Option α) (without : ∀ path, path ∈ before ↔ path ∈ after none)
    (each : ∀ value, Tracks before (step value) (plain value) fun result => after (some result)) :
    Tracks before (given.mapM step) (given.mapM plain) after := by
  cases given with
  | none => exact pure without
  | some value =>
    have made := each value
    rw [Tracks] at made ⊢
    rw [Option.mapM_some, Option.mapM_some, StateT.run_map, made]
    cases plain value <;> rfl

theorem option_lift (plain : α → Except QueryError β) (given : Option α) :
    Tracks before (given.mapM fun value => liftM (plain value)) (given.mapM plain) fun _ => before :=
  option_mapM given (fun _ => .rfl) fun value => lift (plain value)

theorem list_mapM (path : β → Text) (plain : α → Except QueryError β) (values : List α)
    (before : List Text) : Tracks before (values.mapM fun value => RecordQuery.registering path (plain value))
      (values.mapM plain) fun results => before ++ results.map path := by
  induction values generalizing before with
  | nil => exact pure (by simp)
  | cons value values ih =>
    rw [List.mapM_cons, List.mapM_cons]
    exact (registering path (plain value) before).bind fun result => (ih _).bind fun results => pure (by simp)

theorem list_forM {step : α → Registering Unit} {plain : α → Except QueryError Unit} {paths : α → List Text}
    (each : ∀ value before, Tracks before (step value) (plain value) fun _ => before ++ paths value)
    (values : List α) (before : List Text) :
    Tracks before (values.forM step) (values.forM plain) fun _ => before ++ values.flatMap paths := by
  induction values generalizing before with
  | nil => exact pure (by simp)
  | cons value values ih =>
    simp only [List.forM_eq_forM, List.forM_cons] at ih ⊢
    refine (each value before).bind fun _ => ?_
    simpa [List.append_assoc] using ih (before ++ paths value)

/-- The aliases of a query are there in the end if just its paths were registered. -/
theorem registered (criteria : Criteria) (same : ∀ path, path ∈ before ↔ path ∈ criteria.paths) :
    Tracks before criteria.registered (.ok criteria.withAliases) Criteria.paths := by
  rw [Criteria.withAliases, ← Aliases.ofPaths_eq_of_mem same]
  exact pure same

theorem eq (after : α → List Text) (tracks : Tracks [] step plain after) : step.run' [] = plain := by
  rw [Tracks] at tracks
  change (·.1) <$> step.run (Aliases.ofPaths []) = plain
  rw [tracks]
  cases plain <;> rfl

end Tracks

namespace Query

variable {schema : Schema} {type : RecordType}

theorem tracks_select (items : List SelectItem) (seen : Option Bool) (before : List Text) :
    Tracks before (registerSelect schema type seen items) (bindSelect schema type seen items)
      fun selected => before ++ selected.map (·.path) := by
  induction items generalizing seen before with
  | nil => exact .pure (by simp)
  | cons item items ih =>
    rw [registerSelect, bindSelect]
    refine .lift_bind fun selected => .lift_bind fun seen => .register ?_
    exact (ih seen _).bind fun others => .pure (by simp)

theorem tracks_leaf (node : Restriction) (before : List Text) :
    Tracks before (registerLeaf schema type node) (checkLeaf schema type node)
      fun _ => before ++ node.property?.toList := by
  rw [registerLeaf, checkLeaf]
  cases node.property? with
  | none => exact .pure (by simp)
  | some path =>
    refine (Tracks.registering _ _ before).bind fun field => ?_
    cases node
    case inQuery => exact .lift _
    all_goals exact .pure (by simp)

theorem tracks_restriction (restriction : Restriction) (before : List Text) :
    Tracks before (do
      (restriction.visit fun _ => true).forM (registerLeaf schema type)
      return restriction) (do
      checkRestriction schema type restriction
      return restriction) fun restriction => before ++ restriction.properties := by
  refine (Tracks.list_forM tracks_leaf _ before).bind fun _ => .pure ?_
  simp [Restriction.properties]

theorem tracks_key (token : α → Token) (key : α) (before : List Text) :
    Tracks before (do let _ ← registerPath schema type (token key))
      (do let _ ← bindPath schema type (token key)) fun _ => before ++ [(token key).text] :=
  (Tracks.registering _ _ before).bind fun _ => .pure fun _ => .rfl

theorem tracks_keys (token : α → Token) (keys : Keys α) (before : List Text) :
    Tracks before (registerKeys schema type token keys)
      (keys.check fun key => do let _ ← bindPath schema type (token key))
      fun found => before ++ found.map fun key => (token key).text := by
  rw [registerKeys, Keys.check]
  refine (Tracks.list_forM (tracks_key token) keys.keys before).bind fun _ => ?_
  cases keys.failure with
  | none => exact .pure (by simp [eq_comm])
  | some failure => exact .throw _ _

end Query

namespace Compiler

open Query

variable {compiler : Compiler} {read : RestrictionReader} {schema : Schema} {type : RecordType}

theorem tracks_where (window : Option (Window × Token)) (before : List Text) :
    Tracks before (registerWhere schema read type window) (window.mapM fun found => do
      let restriction ← readWhere read found.1 found.2
      checkRestriction schema type restriction
      return restriction) fun restriction => before ++ (restriction.map (·.properties)).getD [] := by
  refine .option_mapM window (by simp) fun found => ?_
  exact .lift_bind fun restriction => tracks_restriction restriction before

theorem tracks_groupBy (window : Option (Window × Token)) (before : List Text) :
    Tracks before (registerGroupBy schema type window) (window.elim (pure []) fun found =>
      bindGroupKeys schema type (groupKeys found.1.keyword found.1.tokens))
      fun groupBy => before ++ groupBy := by
  cases window with
  | none => exact .pure (by simp)
  | some found => exact (tracks_keys id _ before).bind fun tokens => .pure (by simp)

theorem tracks_orderBy (window : Option (Window × Token)) (before : List Text) :
    Tracks before (registerOrderBy schema type window) (window.elim (pure []) fun found =>
      bindSortKeys schema type (orderKeys found.2 none found.1.tokens))
      fun orderBy => before ++ orderBy.map (·.property) := by
  cases window with
  | none => exact .pure (by simp)
  | some found =>
    refine (tracks_keys (fun key : Token × Direction => key.1) _ before).bind fun keys => ?_
    exact .pure (by simp)

theorem mem_paths_iff (selected : List Selected) (path : Text) : path ∈ selected.map (·.path) ↔
    path ∈ (selected.filterMap (·.property?)).eraseDups ∨
      path ∈ (selected.filterMap (·.aggregate?)).map (·.property) := by
  induction selected with
  | nil => simp
  | cons first others ih =>
    rw [List.mem_eraseDups] at ih ⊢
    rw [List.map_cons, List.mem_cons, ih]
    cases first with
    | property _ =>
      simp only [Selected.path, Selected.property?, Selected.aggregate?, List.filterMap_cons, List.mem_cons,
        or_assoc]
    | aggregate _ _ =>
      simp only [Selected.path, Selected.property?, Selected.aggregate?, List.filterMap_cons, List.map_cons,
        List.mem_cons, or_left_comm]

theorem tracks_clauses (isSubquery : Bool) (ending : Token) (selected : List Selected)
    (windows : List Window) :
    Tracks (selected.map (·.path)) (registerClauses schema read isSubquery ending type selected windows)
      (assemble schema read isSubquery ending type selected windows) Criteria.paths := by
  rw [registerClauses, assemble_eq]
  refine (tracks_where _ _).bind fun restriction => (tracks_groupBy _ _).bind fun groupBy => ?_
  refine .lift_bind fun _ => (tracks_orderBy _ _).bind fun orderBy => ?_
  refine (Tracks.option_lift _ _).bind fun limit => (Tracks.option_lift _ _).bind fun offset => ?_
  -- A repeated property or key was registered again, which the aliases do not tell.
  refine .registered _ fun path => ?_
  simp only [Criteria.paths, List.mem_append, mem_paths_iff]

/-- Whatever reads the restriction, the query is the same. -/
theorem registerQuery_eq (isSubquery : Bool) (ending : Token) (tokens : List Token) :
    compiler.registerQuery read isSubquery ending tokens = compiler.query read isSubquery ending tokens := by
  rw [registerQuery, query]
  split
  · rfl
  · refine bind_congr ?_
    rintro ⟨items, rest⟩
    dsimp only
    split
    · rfl
    · cases compiler.schema.resolve? compiler.packages (rest.headD ending).text with
      | none => rfl
      | some type =>
        refine Tracks.eq Criteria.paths ?_
        refine (tracks_select items none []).bind fun selected => .lift_bind fun windows => ?_
        exact tracks_clauses isSubquery ending selected windows

theorem register_eq (compiler : Compiler) (depth : Nat) :
    compiler.registerRestriction depth = compiler.restriction depth ∧
      compiler.registerSubquery depth = compiler.subquery depth := by
  induction depth with
  | zero => exact ⟨rfl, rfl⟩
  | succ depth ih =>
    refine ⟨?_, ?_⟩
    · rw [registerRestriction, ih.1, ih.2, restriction]
    · rw [registerSubquery, ih.1, subquery]
      funext closing tokens
      exact registerQuery_eq true closing tokens

/-- A query text that is compiled with each path registered as soon as it is bound is the same query. -/
theorem registerText_eq (compiler : Compiler) (text : Text) :
    compiler.registerText text = compiler.compile text := by
  rw [registerText, compile]
  refine bind_congr ?_
  rintro ⟨tokens, ending⟩
  dsimp only
  rw [(register_eq compiler _).1, registerQuery_eq]

end Compiler

namespace Decoder

variable {decoder : Decoder} {type : RecordType}

theorem tracks_combine (operator : Option Connective) (children : List Restriction) :
    Tracks (before ++ children.flatMap (·.properties)) (liftM (combine written operator children))
      (combine written operator children) fun restriction => before ++ restriction.properties := by
  unfold combine
  split
  · refine .pure fun path => ?_
    simp [Restriction.mem_properties_not]
  · exact .throw _ _
  · refine .pure fun path => ?_
    simp [Restriction.mem_properties_junction]
  · exact .throw _ _

theorem tracks_inValues (decoder : Decoder) (type : RecordType) (written : Text) (ref : PropertyRef)
    (before : List Text) (args : List Argument) : Tracks before (do
      let (path, _) ← decoder.registerKey type ref
      let values ← values written args
      if values.isEmpty then throw (.atNode written (.argumentCount written .queryOrValues))
      return Restriction.inValues path values) (do
      let (path, _) ← decoder.key type ref
      let values ← values written args
      if values.isEmpty then throw (.atNode written (.argumentCount written .queryOrValues))
      return Restriction.inValues path values) fun restriction => before ++ restriction.properties := by
  refine (Tracks.registering _ _ before).bind ?_
  rintro ⟨path, field⟩
  refine .lift_bind fun values => ?_
  split
  · exact .throw _ _
  · exact .pure fun _ => .rfl

theorem mem_conjunction_properties (roots : List Restriction) (path : Text) :
    path ∈ ((conjunction roots).map (·.properties)).getD [] ↔ path ∈ roots.flatMap (·.properties) := by
  rcases roots with _ | ⟨first, _ | ⟨second, others⟩⟩
  · simp [conjunction]
  · simp [conjunction]
  · simp [conjunction, Restriction.mem_properties_junction]

theorem mem_selected_iff (selected : List (Text × Option Aggregate)) (path : Text) :
    path ∈ selected.map (·.1) ↔
      path ∈ (selected.filterMap fun (path, function) => if function.isNone then some path else none).eraseDups ∨
      path ∈ (selected.filterMap fun (path, function) =>
        function.map (AggregateCall.mk · path)).map (·.property) := by
  induction selected with
  | nil => simp
  | cons first others ih =>
    rw [List.mem_eraseDups] at ih ⊢
    rw [List.map_cons, List.mem_cons, ih]
    obtain ⟨_, _ | _⟩ := first <;> simp [or_assoc, or_left_comm]

theorem registerParts_eq {restrictions : List DocumentNode} (isSubquery : Bool)
    (nested : ∀ type before, Tracks before (decoder.registerNodes type depth restrictions)
      (decoder.nodes type depth restrictions) fun roots => before ++ roots.flatMap (·.properties)) :
    (do
      let type ← decoder.baseType typeId typeName
      (decoder.registerParts type (decoder.registerNodes type depth restrictions) isSubquery properties
        groupings orderings limit offset).run' []) =
      decoder.document depth isSubquery
        ⟨typeId, typeName, properties, groupings, restrictions, orderings, limit, offset⟩ := by
  rw [document]
  refine bind_congr fun type => Tracks.eq Criteria.paths ?_
  refine (Tracks.list_mapM _ _ properties []).bind fun selected => ?_
  refine (Tracks.list_mapM _ _ groupings _).bind fun groupBy => ?_
  refine (nested type _).bind fun roots => (Tracks.list_mapM _ _ orderings _).bind fun orderBy => ?_
  -- Here the grouping keys come before the restrictions; the paths of the query have them behind.
  refine .lift_bind fun _ => .lift_bind fun _ => .lift_bind fun _ => .registered _ fun path => ?_
  simp only [Criteria.paths, List.mem_append, mem_conjunction_properties, mem_selected_iff, List.map_id,
    List.mem_eraseDups, List.not_mem_nil, false_or, or_assoc, or_left_comm]

mutual

theorem tracks_node (type : RecordType) (depth : Nat) (before : List Text) : (given : DocumentNode) →
    Tracks before (decoder.registerNode type depth given) (decoder.node type depth given)
      fun restriction => before ++ restriction.properties
  | ⟨written, ref, args⟩ => by
    rw [registerNode.eq_def, node.eq_def]
    by_cases bottom : depth = 0
    · simp only [bottom, ↓reduceIte]
      exact .throw _ _
    · have nested := tracks_children type (depth - 1) written before args
      have listed := tracks_inValues decoder type written ref before args
      simp only [bottom, ↓reduceIte]
      rcases Operator.ofName? written with _ | operator
      · exact .throw _ _
      · cases operator with
        | connect connective => exact nested.bind fun children => tracks_combine (some connective) children
        | not => exact nested.bind fun children => tracks_combine none children
        | isNull =>
          refine (Tracks.registering _ _ before).bind ?_
          rintro ⟨path, field⟩
          dsimp only
          split
          · exact .throw _ _
          · exact .pure fun _ => .rfl
        | compare comparator =>
          refine (Tracks.registering _ _ before).bind ?_
          rintro ⟨path, field⟩
          refine .lift_bind fun values => ?_
          rcases values with _ | ⟨value, _ | ⟨second, others⟩⟩
          · exact .throw _ _
          · exact .pure fun _ => .rfl
          · exact .throw _ _
        | isIn =>
          rcases args with _ | ⟨first, _ | ⟨second, others⟩⟩
          · exact listed
          · cases first with
            | value _ => exact listed
            | restriction _ => exact listed
            | subquery document =>
              refine (Tracks.registering _ _ before).bind ?_
              rintro ⟨path, field⟩
              dsimp only
              rw [registerQuery_eq (depth - 2) true document]
              exact .lift_bind fun subquery => .lift_bind fun _ => .pure fun _ => .rfl
          · cases first <;> exact listed
termination_by given => sizeOf given

theorem tracks_children (type : RecordType) (depth : Nat) (written : Text) (before : List Text) :
    (args : List Argument) →
    Tracks before (decoder.registerChildren type depth written args) (decoder.children type depth written args)
      fun restrictions => before ++ restrictions.flatMap (·.properties)
  | [] => by
    rw [registerChildren, children]
    exact .pure (by simp)
  | .restriction child :: args => by
    rw [registerChildren, children]
    refine (tracks_node type depth before child).bind fun first => ?_
    exact (tracks_children type depth written _ args).bind fun others => .pure (by simp)
  | .value _ :: _ => by
    rw [registerChildren, children]
    exact .throw _ _
  | .subquery _ :: _ => by
    rw [registerChildren, children]
    exact .throw _ _
termination_by args => sizeOf args

theorem tracks_nodes (type : RecordType) (depth : Nat) (before : List Text) : (given : List DocumentNode) →
    Tracks before (decoder.registerNodes type depth given) (decoder.nodes type depth given)
      fun restrictions => before ++ restrictions.flatMap (·.properties)
  | [] => by
    rw [registerNodes, nodes]
    exact .pure (by simp)
  | first :: rest => by
    rw [registerNodes, nodes]
    refine (tracks_node type depth before first).bind fun restriction => ?_
    exact (tracks_nodes type depth _ rest).bind fun others => .pure (by simp)
termination_by given => sizeOf given

theorem registerQuery_eq (depth : Nat) (isSubquery : Bool) : (given : Document) →
    decoder.registerQuery depth isSubquery given = decoder.document depth isSubquery given
  | ⟨typeId, typeName, properties, groupings, restrictions, orderings, limit, offset⟩ => by
    rw [registerQuery]
    exact registerParts_eq isSubquery fun type before => tracks_nodes type depth before restrictions
termination_by given => sizeOf given

end

/-- A document that is decoded with each path registered as soon as it is resolved is the same query. -/
theorem registerDocument_eq (decoder : Decoder) (document : Document) :
    decoder.registerDocument document = decoder.decode document :=
  registerQuery_eq decoder.maxDepth false document

end Decoder
end RecordQuery
