import RecordQuery.Document.Decode
import RecordQuery.Proofs.Compile.Lawful
import RecordQuery.Proofs.Criteria.Lawful
import RecordQuery.Proofs.Distinct
import RecordQuery.Proofs.Grammar.Select
import RecordQuery.Proofs.Schema.Naming

namespace RecordQuery

/-- The restriction obeys the rules on rows of this type, and so do all queries in it. -/
structure Schema.LawfulTree (schema : Schema) (type : RecordType) (restriction : Restriction) :
    Prop where
  nodes : ∀ node ∈ restriction.nodes, schema.LawfulNode type node
  subqueries : ∀ query ∈ restriction.subqueries, schema.Lawful query

namespace Schema.LawfulTree

variable {schema : Schema} {type : RecordType} {children : List Restriction}

theorem all (each : ∀ child ∈ children, schema.LawfulTree type child) :
    (∀ node ∈ Restriction.nodesAll children, schema.LawfulNode type node) ∧
      ∀ query ∈ Restriction.subqueriesAll children, schema.Lawful query := by
  constructor
  · intro node member
    obtain ⟨child, inside, own⟩ := Restriction.mem_nodesAll_iff.mp member
    exact (each child inside).nodes node own
  · intro query member
    obtain ⟨child, inside, own⟩ := Restriction.mem_subqueriesAll_iff.mp member
    exact (each child inside).subqueries query own

theorem junction (many : 2 ≤ children.length)
    (each : ∀ child ∈ children, schema.LawfulTree type child) (connective : Connective) :
    schema.LawfulTree type (.junction connective children) := by
  obtain ⟨nodes, subqueries⟩ := all each
  exact ⟨List.forall_mem_cons.mpr ⟨many, nodes⟩, subqueries⟩

theorem not (lawful : schema.LawfulTree type child) : schema.LawfulTree type (.not child) :=
  ⟨List.forall_mem_cons.mpr ⟨trivial, lawful.nodes⟩, lawful.subqueries⟩

end Schema.LawfulTree

namespace Decoder

variable {decoder : Decoder} {type : RecordType} {path : Text}

theorem mem_of_baseType {typeId typeName : Text}
    (found : decoder.baseType typeId typeName = .ok type) : type ∈ decoder.schema.types := by
  rw [baseType] at found
  split at found
  · split at found
    · cases found
    · rename_i known
      split at found
      · cases found
        exact List.mem_of_find?_eq_some known
      · cases found
  · split at found
    · cases found
    · split at found
      · cases found
      · rename_i known
        cases found
        exact List.mem_of_find?_eq_some (Schema.typeNamed?_of_resolve? known)

section Resolve

variable (named : decoder.schema.Named) (member : type ∈ decoder.schema.types)

include named member

/-- The path of a reference leads where the reference does. -/
theorem walk_of_resolve (resolved : decoder.resolve type ref = .ok (path, route)) :
    decoder.schema.walk type path = .ok route := by
  rw [resolve] at resolved
  split at resolved
  · obtain ⟨⟨found, steps⟩, walked, checked⟩ := bind_eq_ok.mp resolved
    obtain ⟨-, same⟩ := guard_eq_ok.mp checked
    obtain ⟨rfl, rfl⟩ := Prod.mk.inj (pure_eq_ok.mp same)
    exact named.walk member (mapError_eq_ok.mp walked)
  · split at resolved
    · cases resolved
    · obtain ⟨steps, walked, same⟩ := bind_eq_ok.mp resolved
      obtain ⟨rfl, rfl⟩ := Prod.mk.inj (pure_eq_ok.mp same)
      exact mapError_eq_ok.mp walked

theorem walk_of_key (found : decoder.key type ref = .ok (path, field)) :
    ∃ route, decoder.schema.walk type path = .ok route ∧ route.leaf.kind.isCollection = false ∧
      route.leaf = field := by
  obtain ⟨⟨path, route⟩, resolved, checked⟩ := bind_eq_ok.mp found
  obtain ⟨single, same⟩ := guard_eq_ok.mp checked
  obtain ⟨rfl, rfl⟩ := Prod.mk.inj (pure_eq_ok.mp same)
  exact ⟨route, walk_of_resolve named member resolved, by simpa using single, rfl⟩

theorem hasKey_of_key (found : decoder.key type ref = .ok (path, field)) :
    decoder.schema.HasKey type path := by
  obtain ⟨route, walked, single, -⟩ := walk_of_key named member found
  exact ⟨route, walked, single⟩

theorem hasValue_of_selected (found : decoder.selected type property = .ok (path, function)) :
    decoder.schema.HasValue type path ∧ function ≠ some .unnamed := by
  obtain ⟨⟨other, route⟩, resolved, checked⟩ := bind_eq_ok.mp found
  obtain ⟨single, rest⟩ := guard_eq_ok.mp checked
  have walked := walk_of_resolve named member resolved
  have value : decoder.schema.HasValue type other := ⟨route, walked, by simpa using single⟩
  split at rest
  · obtain ⟨rfl, rfl⟩ := Prod.mk.inj (pure_eq_ok.mp rest)
    exact ⟨value, by simp⟩
  · split at rest
    · rename_i call known
      obtain ⟨rfl, rfl⟩ := Prod.mk.inj (pure_eq_ok.mp rest)
      exact ⟨value, by simpa using Query.Aggregate.ne_unnamed_of_ofName? known⟩
    · cases rest

theorem hasKey_of_sortKey (found : decoder.sortKey type ordering = .ok sorted) :
    decoder.schema.HasKey type sorted.property := by
  obtain ⟨⟨path, field⟩, keyed, rest⟩ := bind_eq_ok.mp found
  have isKey := hasKey_of_key named member keyed
  simp only at rest
  split at rest
  · obtain rfl := pure_eq_ok.mp rest
    exact isKey
  · split at rest
    · obtain rfl := pure_eq_ok.mp rest
      exact isKey
    · cases rest

end Resolve

theorem checkCount_eq_ok_iff : checkCount kind value = .ok () ↔ ∀ count ∈ value, 0 ≤ count := by
  cases value <;> simp [checkCount]

section Restrictions

theorem lawful_of_conjunction {roots : List Restriction}
    (each : ∀ root ∈ roots, decoder.schema.LawfulTree type root)
    (given : restriction ∈ conjunction roots) : decoder.schema.LawfulTree type restriction := by
  match roots with
  | [] => cases given
  | [root] =>
    cases given
    exact each _ (.head _)
  | first :: second :: others =>
    cases given
    exact .junction (by simp) each .and

theorem lawful_of_combine {children : List Restriction}
    (each : ∀ child ∈ children, decoder.schema.LawfulTree type child)
    (combined : combine written operator children = .ok restriction) :
    decoder.schema.LawfulTree type restriction := by
  unfold combine at combined
  split at combined
  · cases combined
    exact (each _ (.head _)).not
  · cases combined
  · cases combined
    exact .junction (by simp) each _
  · cases combined

/-- Nodes so deep only decode to restrictions that obey the rules. -/
def DecodesLawful (decoder : Decoder) (depth : Nat) : Prop :=
  ∀ type ∈ decoder.schema.types, ∀ source restriction,
    decoder.node type depth source = .ok restriction → decoder.schema.LawfulTree type restriction

variable (lawful : decoder.DecodesLawful depth) (member : type ∈ decoder.schema.types)

include lawful member

theorem lawful_of_children {args : List Argument} {found : List Restriction}
    (decoded : decoder.children type depth written args = .ok found) :
    ∀ child ∈ found, decoder.schema.LawfulTree type child := by
  induction args generalizing found with
  | nil =>
    rw [Decoder.children] at decoded
    cases decoded
    exact List.forall_mem_nil _
  | cons arg args ih =>
    cases arg with
    | restriction source =>
      rw [Decoder.children] at decoded
      obtain ⟨first, head, rest⟩ := bind_eq_ok.mp decoded
      obtain ⟨others, tail, same⟩ := bind_eq_ok.mp rest
      obtain rfl := pure_eq_ok.mp same
      exact List.forall_mem_cons.mpr ⟨lawful type member source first head, ih tail⟩
    | value _ =>
      rw [Decoder.children] at decoded
      cases decoded
    | subquery _ =>
      rw [Decoder.children] at decoded
      cases decoded

theorem lawful_of_nodes {sources : List DocumentNode}
    (decoded : decoder.nodes type depth sources = .ok roots) :
    ∀ root ∈ roots, decoder.schema.LawfulTree type root := by
  induction sources generalizing roots with
  | nil =>
    rw [nodes] at decoded
    cases decoded
    exact List.forall_mem_nil _
  | cons source sources ih =>
    rw [nodes] at decoded
    obtain ⟨first, head, rest⟩ := bind_eq_ok.mp decoded
    obtain ⟨others, tail, same⟩ := bind_eq_ok.mp rest
    obtain rfl := pure_eq_ok.mp same
    exact List.forall_mem_cons.mpr ⟨lawful type member source first head, ih tail⟩

end Restrictions

theorem validate_eq_ok_iff {schema : Schema} {criteria : Criteria} :
    schema.validate criteria = .ok () ↔
      (∀ call ∈ criteria.aggregates, ∃ route, schema.walk criteria.type call.property = .ok route ∧
        checkAggregate call.function call.property route.leaf = .ok ()) ∧
      criteria.checkGrouping = .ok () := by
  rw [Schema.validate]
  generalize criteria.aggregates = aggregates
  induction aggregates with
  | nil => simp [bind, Except.bind, pure, Except.pure]
  | cons call aggregates ih =>
    rw [List.forIn_cons, List.forall_mem_cons, and_assoc, ← ih]
    cases walked : schema.walk criteria.type call.property with
    | error error => simp [bind, Except.bind]
    | ok route =>
      cases checked : checkAggregate call.function call.property route.leaf with
      | error error => simp [bind, Except.bind, checked]
      | ok done => simp [bind, Except.bind, checked, pure, Except.pure]

/-- What is selected without a function, each once. -/
def plainPaths (chosen : List (Text × Option Aggregate)) : List Text :=
  (chosen.filterMap fun (path, function) => if function.isNone then some path else none).eraseDups

def aggregateCalls (chosen : List (Text × Option Aggregate)) : List AggregateCall :=
  chosen.filterMap fun (path, function) => function.map (⟨·, path⟩)

theorem mem_plainPaths_iff : path ∈ plainPaths chosen ↔ (path, none) ∈ chosen := by
  simp [plainPaths, List.mem_eraseDups]

theorem mem_aggregateCalls_iff :
    call ∈ aggregateCalls chosen ↔ (call.property, some call.function) ∈ chosen := by
  simp only [aggregateCalls, List.mem_filterMap, Prod.exists, Option.map_eq_some_iff]
  constructor
  · rintro ⟨path, _, member, function, rfl, rfl⟩
    exact member
  · intro member
    exact ⟨_, _, member, _, rfl, rfl⟩

/-- Nothing that is chosen gets lost. -/
theorem selects_iff : plainPaths chosen ≠ [] ∨ aggregateCalls chosen ≠ [] ↔ chosen ≠ [] := by
  constructor
  · rintro (filled | filled) rfl
    · exact filled rfl
    · exact filled rfl
  · intro filled
    obtain ⟨⟨path, function⟩, member⟩ := List.exists_mem_of_ne_nil chosen filled
    cases function with
    | none => exact .inl (List.ne_nil_of_mem (mem_plainPaths_iff.mpr member))
    | some function =>
      have call : ⟨function, path⟩ ∈ aggregateCalls chosen := mem_aggregateCalls_iff.mpr member
      exact .inr (List.ne_nil_of_mem call)

/-- What a document of restrictions so deep decodes to. -/
theorem consistent_of_document (named : decoder.schema.Named) (lawful : decoder.DecodesLawful depth)
    (decoded : decoder.document depth isSubquery source = .ok criteria) :
    decoder.schema.Consistent criteria ∧ criteria.isSubquery = isSubquery ∧
      (∀ query ∈ criteria.subqueries, decoder.schema.Lawful query) ∧
      (criteria.properties ≠ [] ∨ criteria.aggregates ≠ [] ↔ source.properties ≠ []) := by
  obtain ⟨typeId, typeName, properties, groupings, restrictions, orderings, limit, offset⟩ := source
  rw [document] at decoded
  obtain ⟨type, base, decoded⟩ := bind_eq_ok.mp decoded
  obtain ⟨chosen, selects, decoded⟩ := bind_eq_ok.mp decoded
  obtain ⟨groupBy, groups, decoded⟩ := bind_eq_ok.mp decoded
  obtain ⟨roots, decodes, decoded⟩ := bind_eq_ok.mp decoded
  obtain ⟨orderBy, orders, decoded⟩ := bind_eq_ok.mp decoded
  obtain ⟨_, limited, decoded⟩ := bind_eq_ok.mp decoded
  obtain ⟨_, skipped, decoded⟩ := bind_eq_ok.mp decoded
  obtain ⟨_, valid, same⟩ := bind_eq_ok.mp decoded
  obtain rfl := pure_eq_ok.mp same
  have member := mem_of_baseType base
  obtain ⟨applied, grouped⟩ := validate_eq_ok_iff.mp (mapError_eq_ok.mp valid)
  have selected := list_mapM_eq_ok.mp selects
  have trees := lawful_of_nodes lawful member decodes
  have chosenValue : ∀ {path function}, (path, function) ∈ chosen →
      decoder.schema.HasValue type path ∧ function ≠ some .unnamed := by
    intro path function inside
    obtain ⟨property, -, found⟩ := forall₂_mem_right selected inside
    exact hasValue_of_selected named member found
  refine ⟨⟨nodup_eraseDups _, ?_, ?_, Criteria.checkGrouping_eq_ok_iff.mp grouped, nodup_eraseDups _,
    ?_, ?_, ?_, checkCount_eq_ok_iff.mp limited, checkCount_eq_ok_iff.mp skipped, rfl⟩, rfl, ?_, ?_⟩
  · intro path inside
    exact (chosenValue (mem_plainPaths_iff.mp inside)).1
  · intro call inside
    obtain ⟨⟨route, walked, single⟩, isNamed⟩ := chosenValue (mem_aggregateCalls_iff.mp inside)
    obtain ⟨other, again, checked⟩ := applied call inside
    cases walked.symm.trans again
    exact ⟨by simpa using isNamed, route, walked, single, checkAggregate_eq_ok_iff.mp checked⟩
  · intro path inside
    obtain ⟨ref, -, found⟩ := forall₂_mem_right (list_mapM_eq_ok.mp groups) (List.mem_eraseDups.mp inside)
    obtain ⟨⟨key, field⟩, keyed, same⟩ := bind_eq_ok.mp found
    obtain rfl := pure_eq_ok.mp same
    exact hasKey_of_key named member keyed
  · intro key inside
    obtain ⟨ordering, -, found⟩ := forall₂_mem_right (list_mapM_eq_ok.mp orders) inside
    exact hasKey_of_sortKey named member found
  · intro restriction given
    exact (lawful_of_conjunction trees given).nodes
  · intro query nested
    obtain ⟨restriction, given, inside⟩ := Criteria.mem_subqueries_iff.mp nested
    exact (lawful_of_conjunction trees given).subqueries query inside
  · have length := selected.length_eq
    change plainPaths chosen ≠ [] ∨ aggregateCalls chosen ≠ [] ↔ properties ≠ []
    rw [selects_iff, ← List.length_pos_iff, ← List.length_pos_iff, length]

/-- Nodes decode to restrictions that obey the rules, however deep they are nested. -/
theorem decodesLawful (named : decoder.schema.Named) (depth : Nat) : decoder.DecodesLawful depth := by
  -- A subquery is two levels down, so the induction is on all smaller depths.
  induction depth using Nat.strongRecOn with
  | ind depth ih =>
    rintro type member ⟨written, ref, args⟩ restriction decoded
    rw [node.eq_def] at decoded
    simp only at decoded
    split at decoded
    · cases decoded
    rename_i deep
    have inner := ih (depth - 1) (by omega)
    split at decoded
    · cases decoded
    · obtain ⟨children, nested, combined⟩ := bind_eq_ok.mp decoded
      exact lawful_of_combine (lawful_of_children inner member nested) combined
    · obtain ⟨children, nested, combined⟩ := bind_eq_ok.mp decoded
      exact lawful_of_combine (lawful_of_children inner member nested) combined
    · obtain ⟨⟨path, field⟩, keyed, checked⟩ := bind_eq_ok.mp decoded
      obtain ⟨-, same⟩ := guard_eq_ok.mp checked
      obtain rfl := pure_eq_ok.mp same
      have isKey := hasKey_of_key named member keyed
      exact ⟨List.forall_mem_singleton.mpr isKey, List.forall_mem_nil _⟩
    · obtain ⟨⟨path, field⟩, keyed, decoded⟩ := bind_eq_ok.mp decoded
      obtain ⟨subquery, nested, decoded⟩ := bind_eq_ok.mp decoded
      obtain ⟨_, checked, same⟩ := bind_eq_ok.mp decoded
      obtain rfl := pure_eq_ok.mp same
      obtain ⟨route, walked, single, rfl⟩ := walk_of_key named member keyed
      obtain ⟨consistent, flag, below, -⟩ :=
        consistent_of_document named (ih (depth - 2) (by omega)) nested
      have like := Schema.checkSubquery_eq_ok_iff.mp (mapError_eq_ok.mp checked)
      refine ⟨List.forall_mem_singleton.mpr ⟨route, walked, single, like, flag⟩, ?_⟩
      exact List.forall_mem_cons.mpr ⟨⟨consistent, .of_selectsLike like⟩, below⟩
    · obtain ⟨⟨path, field⟩, keyed, decoded⟩ := bind_eq_ok.mp decoded
      obtain ⟨listed, -, checked⟩ := bind_eq_ok.mp decoded
      obtain ⟨filled, same⟩ := guard_eq_ok.mp checked
      obtain rfl := pure_eq_ok.mp same
      have isKey := hasKey_of_key named member keyed
      exact ⟨List.forall_mem_singleton.mpr ⟨isKey, by simpa using filled⟩, List.forall_mem_nil _⟩
    · obtain ⟨⟨path, field⟩, keyed, decoded⟩ := bind_eq_ok.mp decoded
      obtain ⟨listed, -, decoded⟩ := bind_eq_ok.mp decoded
      have isKey := hasKey_of_key named member keyed
      split at decoded
      · obtain rfl := pure_eq_ok.mp decoded
        exact ⟨List.forall_mem_singleton.mpr isKey, List.forall_mem_nil _⟩
      · cases decoded

end Decoder

/-- A decoded query obeys all rules but two, and its subqueries obey all. The two are those for the
whole select list: it may be empty, which it is if the document selects nothing, and it may mix
aggregates over collections with others. -/
theorem lawful_of_decode (declared : List RecordType) (schema : Schema)
    (built : Schema.build declared = .ok schema) (packages : Packages) (maxDepth : Nat)
    (document : Document) (criteria : Criteria)
    (decoded : (⟨schema, packages, maxDepth⟩ : Decoder).decode document = .ok criteria) :
    schema.Consistent criteria ∧ (∀ query ∈ criteria.subqueries, schema.Lawful query) ∧
      (schema.Lawful criteria ↔ document.properties ≠ [] ∧
        ∀ first ∈ criteria.aggregates, ∀ second ∈ criteria.aggregates,
          schema.OverCollection criteria.type first.property →
          schema.OverCollection criteria.type second.property) := by
  have named := Schema.named_of_build built
  obtain ⟨consistent, -, below, selects⟩ := Decoder.consistent_of_document named
    (Decoder.decodesLawful named maxDepth) decoded
  refine ⟨consistent, below, ?_⟩
  rw [← selects]
  constructor
  · intro lawful
    exact ⟨lawful.select.selects, lawful.select.unmixed⟩
  · rintro ⟨selects, unmixed⟩
    exact ⟨consistent, selects, unmixed⟩

def coopDecoder : Decoder := ⟨⟨[coopType]⟩, ⟨"acme", []⟩, 32⟩

/-- The names of coops that are part of another coop. -/
def coopDocument : Document :=
  ⟨[], "Coop", [⟨⟨["f2"], []⟩, [], []⟩], [], [⟨"in", ⟨["f4"], []⟩,
    [.subquery ⟨"t1", [], [⟨⟨[], "id"⟩, [], []⟩], [], [], [], some 3, none⟩]⟩], [], none, none⟩

theorem coops_decode : ∃ criteria, coopDecoder.decode coopDocument = .ok criteria ∧
    criteria.subqueries.length = 1 ∧ coopDecoder.schema.Lawful criteria := by
  have decoded : coopDecoder.decode coopDocument = .ok
      { type := coopType, properties := ["name"], aggregates := []
        restriction := some (.inQuery "whole"
          { type := coopType, properties := ["id"], aggregates := [], restriction := none, groupBy := []
            orderBy := [], limit := some 3, offset := none, aliases := [], isSubquery := true })
        groupBy := [], orderBy := [], limit := none, offset := none
        aliases := Aliases.ofPaths ["name", "whole"], isSubquery := false } := by
    rfl
  refine ⟨_, decoded, rfl, ?_⟩
  obtain ⟨-, -, lawful⟩ := lawful_of_decode [coopType] coopDecoder.schema rfl _ _ _ _ decoded
  refine lawful.mpr ⟨by decide, ?_⟩
  intro first member
  cases member

def emptyDocument : Document := ⟨[], "Coop", [], [], [], [], none, none⟩

def mixedDocument : Document :=
  ⟨[], "Coop", [⟨⟨[], "parts.id"⟩, [], "COUNT"⟩, ⟨⟨[], "id"⟩, [], "COUNT"⟩], [], [], [], none, none⟩

/-- A document that selects nothing and one that mixes aggregates are decoded all the same. -/
theorem coops_unlawful : Schema.build [coopType] = .ok coopDecoder.schema ∧
    ∀ document ∈ [emptyDocument, mixedDocument],
      ∃ criteria, coopDecoder.decode document = .ok criteria ∧ ¬ coopDecoder.schema.Lawful criteria := by
  refine ⟨rfl, List.forall_mem_cons.mpr ⟨?_, List.forall_mem_singleton.mpr ?_⟩⟩
  · refine ⟨_, rfl, ?_⟩
    rintro ⟨-, filled | filled, -⟩
    · exact filled rfl
    · exact filled rfl
  · refine ⟨_, rfl, ?_⟩
    rintro ⟨-, -, unmixed⟩
    have passes := unmixed ⟨.count, "parts.id"⟩ (.head _) ⟨.count, "id"⟩ (.tail _ (.head _)) ⟨_, rfl, rfl⟩
    obtain ⟨route, walked, isOver⟩ := passes
    cases walked
    cases isOver

end RecordQuery
