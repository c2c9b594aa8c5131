import RecordQuery.Proofs.Document.Lawful

namespace RecordQuery.Decoder

variable {decoder : Decoder} {type : RecordType}

/-- The query of some document, as a whole one or as a subquery. -/
def Decodes (decoder : Decoder) (criteria : Criteria) : Prop :=
  ∃ depth isSubquery source, decoder.document depth isSubquery source = .ok criteria

theorem exists_node_of_children {args : List Argument}
    (decoded : decoder.children type depth written args = .ok found) (member : child ∈ found) :
    ∃ source, decoder.node type depth source = .ok child := by
  induction args generalizing found with
  | nil =>
    rw [Decoder.children] at decoded
    cases decoded
    cases member
  | cons arg args ih =>
    cases arg with
    | restriction source =>
      rw [Decoder.children] at decoded
      obtain ⟨first, head, rest⟩ := bind_eq_ok.mp decoded
      obtain ⟨others, tail, same⟩ := bind_eq_ok.mp rest
      obtain rfl := pure_eq_ok.mp same
      rcases List.mem_cons.mp member with rfl | later
      · exact ⟨source, head⟩
      · exact ih tail later
    | value _ =>
      rw [Decoder.children] at decoded
      cases decoded
    | subquery _ =>
      rw [Decoder.children] at decoded
      cases decoded

theorem exists_node_of_nodes {sources : List DocumentNode}
    (decoded : decoder.nodes type depth sources = .ok roots) (member : root ∈ roots) :
    ∃ source, decoder.node type depth source = .ok root := by
  induction sources generalizing roots with
  | nil =>
    rw [nodes] at decoded
    cases decoded
    cases member
  | cons source sources ih =>
    rw [nodes] at decoded
    obtain ⟨first, head, rest⟩ := bind_eq_ok.mp decoded
    obtain ⟨others, tail, same⟩ := bind_eq_ok.mp rest
    obtain rfl := pure_eq_ok.mp same
    rcases List.mem_cons.mp member with rfl | later
    · exact ⟨source, head⟩
    · exact ih tail later

theorem exists_root_of_conjunction {roots : List Restriction}
    (given : restriction ∈ conjunction roots) (member : query ∈ restriction.subqueries) :
    ∃ root ∈ roots, query ∈ root.subqueries := by
  match roots with
  | [] => cases given
  | [root] =>
    cases given
    exact ⟨_, .head _, member⟩
  | first :: second :: others =>
    cases given
    exact Restriction.mem_subqueriesAll_iff.mp member

theorem exists_child_of_combine {children : List Restriction}
    (combined : combine written operator children = .ok restriction)
    (member : query ∈ restriction.subqueries) : ∃ child ∈ children, query ∈ child.subqueries := by
  unfold combine at combined
  split at combined
  · cases combined
    exact ⟨_, .head _, member⟩
  · cases combined
  · cases combined
    exact Restriction.mem_subqueriesAll_iff.mp member
  · cases combined

/-- Nodes so deep have only decoded queries in them. -/
def NodesDecode (decoder : Decoder) (depth : Nat) : Prop :=
  ∀ type source restriction, decoder.node type depth source = .ok restriction →
    ∀ query ∈ restriction.subqueries, decoder.Decodes query

theorem decodes_of_document (below : decoder.NodesDecode depth)
    (decoded : decoder.document depth isSubquery source = .ok criteria) :
    criteria.type ∈ decoder.schema.types ∧ criteria.aliases = Aliases.ofPaths criteria.paths ∧
      ∀ query ∈ criteria.subqueries, decoder.Decodes query := by
  obtain ⟨typeId, typeName, properties, groupings, restrictions, orderings, limit, offset⟩ := source
  rw [document] at decoded
  obtain ⟨type, base, decoded⟩ := bind_eq_ok.mp decoded
  obtain ⟨chosen, -, decoded⟩ := bind_eq_ok.mp decoded
  obtain ⟨groupBy, -, decoded⟩ := bind_eq_ok.mp decoded
  obtain ⟨roots, decodes, decoded⟩ := bind_eq_ok.mp decoded
  obtain ⟨orderBy, -, decoded⟩ := bind_eq_ok.mp decoded
  obtain ⟨_, -, decoded⟩ := bind_eq_ok.mp decoded
  obtain ⟨_, -, decoded⟩ := bind_eq_ok.mp decoded
  obtain ⟨_, -, same⟩ := bind_eq_ok.mp decoded
  obtain rfl := pure_eq_ok.mp same
  refine ⟨mem_of_baseType base, rfl, ?_⟩
  intro query nested
  obtain ⟨restriction, given, inside⟩ := Criteria.mem_subqueries_iff.mp nested
  obtain ⟨root, member, own⟩ := exists_root_of_conjunction given inside
  obtain ⟨node, found⟩ := exists_node_of_nodes decodes member
  exact below type node root found query own

theorem nodesDecode (depth : Nat) : decoder.NodesDecode depth := by
  -- A subquery is two levels down, so the induction is on all smaller depths.
  induction depth using Nat.strongRecOn with
  | ind depth ih =>
    rintro type ⟨written, ref, args⟩ restriction decoded query member
    rw [node.eq_def] at decoded
    simp only at decoded
    split at decoded
    · cases decoded
    rename_i deep
    have inner := ih (depth - 1) (by omega)
    have ofChildren : ∀ {operator children}, decoder.children type (depth - 1) written args = .ok children →
        combine written operator children = .ok restriction → decoder.Decodes query := by
      intro operator children nested combined
      obtain ⟨child, inside, own⟩ := exists_child_of_combine combined member
      obtain ⟨source, found⟩ := exists_node_of_children nested inside
      exact inner type source child found query own
    split at decoded
    · cases decoded
    · obtain ⟨children, nested, combined⟩ := bind_eq_ok.mp decoded
      exact ofChildren nested combined
    · obtain ⟨children, nested, combined⟩ := bind_eq_ok.mp decoded
      exact ofChildren nested combined
    · obtain ⟨⟨path, field⟩, -, checked⟩ := bind_eq_ok.mp decoded
      obtain ⟨-, same⟩ := guard_eq_ok.mp checked
      obtain rfl := pure_eq_ok.mp same
      cases member
    · obtain ⟨⟨path, field⟩, -, decoded⟩ := bind_eq_ok.mp decoded
      obtain ⟨subquery, nested, decoded⟩ := bind_eq_ok.mp decoded
      obtain ⟨_, -, same⟩ := bind_eq_ok.mp decoded
      obtain rfl := pure_eq_ok.mp same
      rcases List.mem_cons.mp member with rfl | within
      · exact ⟨_, _, _, nested⟩
      · exact (decodes_of_document (ih (depth - 2) (by omega)) nested).2.2 query within
    · obtain ⟨⟨path, field⟩, -, decoded⟩ := bind_eq_ok.mp decoded
      obtain ⟨listed, -, checked⟩ := bind_eq_ok.mp decoded
      obtain ⟨-, same⟩ := guard_eq_ok.mp checked
      obtain rfl := pure_eq_ok.mp same
      cases member
    · obtain ⟨⟨path, field⟩, -, decoded⟩ := bind_eq_ok.mp decoded
      obtain ⟨listed, -, decoded⟩ := bind_eq_ok.mp decoded
      split at decoded
      · obtain rfl := pure_eq_ok.mp decoded
        cases member
      · cases decoded

/-- A decoded query and its subqueries at any depth are about known types, under the aliases that
their paths need. -/
theorem aliases_of_decode (decoded : decoder.decode source = .ok criteria) :
    ∀ query ∈ criteria :: criteria.subqueries,
      query.type ∈ decoder.schema.types ∧ query.aliases = Aliases.ofPaths query.paths := by
  obtain ⟨known, aliases, below⟩ := decodes_of_document (nodesDecode _) decoded
  refine List.forall_mem_cons.mpr ⟨⟨known, aliases⟩, ?_⟩
  intro query member
  obtain ⟨depth, isSubquery, inner, again⟩ := below query member
  obtain ⟨type, named, -⟩ := decodes_of_document (nodesDecode _) again
  exact ⟨type, named⟩

end RecordQuery.Decoder
