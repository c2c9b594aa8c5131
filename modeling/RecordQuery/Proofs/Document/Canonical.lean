import RecordQuery.Proofs.Depth.Thresholds
import RecordQuery.Proofs.Document.Subqueries
import RecordQuery.Proofs.Schema.Ids

/-! The document of a decoded query is its canonical form: it decodes to the same query. It has one
restriction where the document that was decoded may list several, and so takes one level more there. -/
namespace RecordQuery

mutual

/-- How many levels a node takes once restrictions that are listed side by side are joined. -/
def DocumentNode.joinedLevels : DocumentNode → Nat
  | ⟨_, _, args⟩ => Argument.joinedLevelsAll args + 1

def Argument.joinedLevelsAll : List Argument → Nat
  | [] => 0
  | .value _ :: args => Argument.joinedLevelsAll args
  | .restriction node :: args => max node.joinedLevels (Argument.joinedLevelsAll args)
  | .subquery document :: args =>
    max (if document.joinedLevels = 0 then 0 else document.joinedLevels + 1) (Argument.joinedLevelsAll args)

def DocumentNode.joinedLevelsAll : List DocumentNode → Nat
  | [] => 0
  | node :: nodes => max node.joinedLevels (DocumentNode.joinedLevelsAll nodes)

/-- The node that joins several restrictions takes a level for itself. -/
def Document.joinedLevels : Document → Nat
  | ⟨_, _, _, _, restrictions, _, _, _⟩ =>
    if restrictions.length ≤ 1 then DocumentNode.joinedLevelsAll restrictions
    else DocumentNode.joinedLevelsAll restrictions + 1

end

mutual

/-- The documents nested in a node. -/
def DocumentNode.documents : DocumentNode → List Document
  | ⟨_, _, args⟩ => Argument.documentsAll args

def Argument.documentsAll : List Argument → List Document
  | [] => []
  | .value _ :: args => Argument.documentsAll args
  | .restriction node :: args => node.documents ++ Argument.documentsAll args
  | .subquery document :: args => document.documents ++ Argument.documentsAll args

def DocumentNode.documentsAll : List DocumentNode → List Document
  | [] => []
  | node :: nodes => node.documents ++ DocumentNode.documentsAll nodes

/-- The document and those nested in it. -/
def Document.documents : Document → List Document
  | ⟨typeId, typeName, properties, groupings, restrictions, orderings, limit, offset⟩ =>
    ⟨typeId, typeName, properties, groupings, restrictions, orderings, limit, offset⟩ ::
      DocumentNode.documentsAll restrictions

end

/-- The document lists one restriction at most, and so does every document nested in it. -/
def Document.IsJoined (document : Document) : Prop :=
  ∀ nested ∈ document.documents, nested.restrictions.length ≤ 1

instance (document : Document) : Decidable document.IsJoined :=
  inferInstanceAs (Decidable (∀ nested ∈ document.documents, nested.restrictions.length ≤ 1))

section Bounds

mutual

theorem DocumentNode.joinedLevels_lt : (node : DocumentNode) → node.joinedLevels + 1 ≤ 2 * node.levels
  | ⟨_, _, args⟩ => by
    have inner := Argument.joinedLevelsAll_le args
    rw [DocumentNode.joinedLevels, DocumentNode.levels]
    omega

theorem Argument.joinedLevelsAll_le : (args : List Argument) →
    Argument.joinedLevelsAll args ≤ 2 * Argument.levelsAll args
  | [] => Nat.le_refl _
  | .value _ :: args => Argument.joinedLevelsAll_le args
  | .restriction node :: args => by
    have first := node.joinedLevels_lt
    have rest := Argument.joinedLevelsAll_le args
    rw [Argument.joinedLevelsAll, Argument.levelsAll]
    omega
  | .subquery document :: args => by
    have first := document.joinedLevels_le
    have rest := Argument.joinedLevelsAll_le args
    rw [Argument.joinedLevelsAll, Argument.levelsAll]
    split <;> split <;> omega

theorem DocumentNode.joinedLevelsAll_lt : (nodes : List DocumentNode) → nodes ≠ [] →
    DocumentNode.joinedLevelsAll nodes + 1 ≤ 2 * DocumentNode.levelsAll nodes
  | [], filled => absurd rfl filled
  | [node], _ => by
    have only := node.joinedLevels_lt
    simpa [DocumentNode.joinedLevelsAll, DocumentNode.levelsAll] using only
  | node :: next :: nodes, _ => by
    have first := node.joinedLevels_lt
    have rest := DocumentNode.joinedLevelsAll_lt (next :: nodes) nofun
    rw [DocumentNode.joinedLevelsAll, DocumentNode.levelsAll]
    omega

/-- Joining restrictions takes at most as many levels more as there are. -/
theorem Document.joinedLevels_le : (document : Document) → document.joinedLevels ≤ 2 * document.levels
  | ⟨_, _, _, _, restrictions, _, _, _⟩ => by
    rw [Document.joinedLevels, Document.levels]
    cases restrictions with
    | nil => exact Nat.zero_le _
    | cons node nodes =>
      have within := DocumentNode.joinedLevelsAll_lt (node :: nodes) nofun
      split <;> omega

end

mutual

theorem DocumentNode.joinedLevels_eq : (node : DocumentNode) →
    (∀ nested ∈ node.documents, nested.restrictions.length ≤ 1) → node.joinedLevels = node.levels
  | ⟨_, _, args⟩, joined => by
    rw [DocumentNode.joinedLevels, DocumentNode.levels, Argument.joinedLevelsAll_eq args joined]

theorem Argument.joinedLevelsAll_eq : (args : List Argument) →
    (∀ nested ∈ Argument.documentsAll args, nested.restrictions.length ≤ 1) →
    Argument.joinedLevelsAll args = Argument.levelsAll args
  | [], _ => rfl
  | .value _ :: args, joined => Argument.joinedLevelsAll_eq args joined
  | .restriction node :: args, joined => by
    obtain ⟨first, rest⟩ := List.forall_mem_append.mp joined
    rw [Argument.joinedLevelsAll, Argument.levelsAll, node.joinedLevels_eq first,
      Argument.joinedLevelsAll_eq args rest]
  | .subquery document :: args, joined => by
    obtain ⟨first, rest⟩ := List.forall_mem_append.mp joined
    rw [Argument.joinedLevelsAll, Argument.levelsAll, document.joinedLevels_eq first,
      Argument.joinedLevelsAll_eq args rest]

theorem DocumentNode.joinedLevelsAll_eq : (nodes : List DocumentNode) →
    (∀ nested ∈ DocumentNode.documentsAll nodes, nested.restrictions.length ≤ 1) →
    DocumentNode.joinedLevelsAll nodes = DocumentNode.levelsAll nodes
  | [], _ => rfl
  | node :: nodes, joined => by
    obtain ⟨first, rest⟩ := List.forall_mem_append.mp joined
    rw [DocumentNode.joinedLevelsAll, DocumentNode.levelsAll, node.joinedLevels_eq first,
      DocumentNode.joinedLevelsAll_eq nodes rest]

/-- Where there is nothing to join, no level is added. -/
theorem Document.joinedLevels_eq : (document : Document) → document.IsJoined →
    document.joinedLevels = document.levels
  | ⟨_, _, _, _, restrictions, _, _, _⟩, joined => by
    obtain ⟨single, rest⟩ := List.forall_mem_cons.mp joined
    rw [Document.joinedLevels, Document.levels, if_pos single,
      DocumentNode.joinedLevelsAll_eq restrictions rest]

end

end Bounds

theorem Schema.encodeNodes_singleton {schema : Schema}
    (encoded : schema.encodeNode type restriction = .ok node) :
    schema.encodeNodes type [restriction] = .ok [.restriction node] := by
  rw [encodeNodes, encoded, encodeNodes]
  rfl

namespace Decoder

theorem joinedLevelsAll_of_values {args : List Argument} (made : values written args = .ok listed) :
    Argument.joinedLevelsAll args = 0 := by
  have within := Argument.joinedLevelsAll_le args
  rw [levelsAll_of_values made] at within
  exact Nat.le_zero.mp within

theorem junction_of_combine {children : List Restriction}
    (combined : combine written (some connective) children = .ok restriction) :
    restriction = .junction connective children := by
  match children with
  | [] | [_] => cases combined
  | _ :: _ :: _ =>
    cases combined
    rfl

theorem not_of_combine {children : List Restriction}
    (combined : combine written none children = .ok restriction) :
    ∃ child, children = [child] ∧ restriction = .not child := by
  match children with
  | [] | _ :: _ :: _ => cases combined
  | [child] =>
    cases combined
    exact ⟨child, rfl, rfl⟩

section Levels

variable (decoder : Decoder)

theorem length_of_nodes (type : RecordType) {given : List DocumentNode}
    (decoded : decoder.nodes type depth given = .ok roots) : roots.length = given.length := by
  induction given generalizing roots with
  | nil =>
    rw [nodes] at decoded
    cases decoded
    rfl
  | cons first rest ih =>
    rw [nodes] at decoded
    obtain ⟨_, -, decoded⟩ := bind_eq_ok.mp decoded
    obtain ⟨others, more, same⟩ := bind_eq_ok.mp decoded
    obtain rfl := pure_eq_ok.mp same
    rw [List.length_cons, List.length_cons, ih more]

mutual

/-- The node of what a node is decoded to takes the levels of the node, joined. -/
theorem levels_of_node (type : RecordType) : (given : DocumentNode) →
    decoder.node type depth given = .ok restriction →
    decoder.schema.encodeNode type restriction = .ok canonical → canonical.levels = given.joinedLevels
  | ⟨written, ref, args⟩, decoded, encoded => by
    rw [node.eq_def] at decoded
    simp only at decoded
    rw [DocumentNode.joinedLevels]
    split at decoded
    · cases decoded
    split at decoded
    · cases decoded
    · obtain ⟨children, nested, combined⟩ := bind_eq_ok.mp decoded
      obtain rfl := junction_of_combine combined
      obtain ⟨codes, inner, rfl⟩ := Schema.encodeNode_junction encoded
      rw [DocumentNode.levels, levels_of_children type _ nested inner]
    · obtain ⟨children, nested, combined⟩ := bind_eq_ok.mp decoded
      obtain ⟨child, rfl, rfl⟩ := not_of_combine combined
      obtain ⟨node, inner, rfl⟩ := Schema.encodeNode_not encoded
      rw [DocumentNode.levels, levels_of_children type _ nested (Schema.encodeNodes_singleton inner)]
    · obtain ⟨⟨path, _⟩, -, checked⟩ := bind_eq_ok.mp decoded
      obtain ⟨empty, same⟩ := guard_eq_ok.mp checked
      obtain rfl := pure_eq_ok.mp same
      obtain ⟨route, -, rfl⟩ := Schema.walk_of_referred encoded
      simp only [Bool.not_eq_true, Bool.not_eq_false', List.isEmpty_iff] at empty
      rw [empty]
      rfl
    · obtain ⟨⟨path, field⟩, -, decoded⟩ := bind_eq_ok.mp decoded
      obtain ⟨query, nested, decoded⟩ := bind_eq_ok.mp decoded
      obtain ⟨_, -, same⟩ := bind_eq_ok.mp decoded
      obtain rfl := pure_eq_ok.mp same
      obtain ⟨route, document, -, inner, rfl⟩ := Schema.encodeNode_inQuery encoded
      rw [DocumentNode.levels, Argument.levelsAll, Argument.joinedLevelsAll,
        levels_of_document _ nested inner]
      rfl
    · obtain ⟨⟨path, _⟩, -, decoded⟩ := bind_eq_ok.mp decoded
      obtain ⟨listed, made, checked⟩ := bind_eq_ok.mp decoded
      obtain ⟨-, same⟩ := guard_eq_ok.mp checked
      obtain rfl := pure_eq_ok.mp same
      obtain ⟨route, -, rfl⟩ := Schema.walk_of_referred encoded
      rw [DocumentNode.levels, levelsAll_of_values (values_map_value [] listed),
        joinedLevelsAll_of_values made]
    · obtain ⟨⟨path, _⟩, -, decoded⟩ := bind_eq_ok.mp decoded
      obtain ⟨listed, made, decoded⟩ := bind_eq_ok.mp decoded
      split at decoded
      · obtain rfl := pure_eq_ok.mp decoded
        obtain ⟨route, -, rfl⟩ := Schema.walk_of_referred encoded
        rw [joinedLevelsAll_of_values made]
        rfl
      · cases decoded
termination_by given => sizeOf given

theorem levels_of_children (type : RecordType) : (args : List Argument) →
    decoder.children type depth written args = .ok restrictions →
    decoder.schema.encodeNodes type restrictions = .ok codes →
    Argument.levelsAll codes = Argument.joinedLevelsAll args
  | [], decoded, encoded => by
    rw [children] at decoded
    cases decoded
    rw [Schema.encodeNodes] at encoded
    cases encoded
    rfl
  | .restriction child :: args, decoded, encoded => by
    rw [children] at decoded
    obtain ⟨first, made, decoded⟩ := bind_eq_ok.mp decoded
    obtain ⟨others, rest, same⟩ := bind_eq_ok.mp decoded
    obtain rfl := pure_eq_ok.mp same
    obtain ⟨node, more, head, tail, rfl⟩ := Schema.encodeNodes_cons encoded
    rw [Argument.levelsAll, Argument.joinedLevelsAll, levels_of_node type child made head,
      levels_of_children type args rest tail]
  | .value _ :: _, decoded, _ => by
    rw [children] at decoded
    cases decoded
  | .subquery _ :: _, decoded, _ => by
    rw [children] at decoded
    cases decoded
termination_by args => sizeOf args

theorem levels_of_nodes (type : RecordType) : (given : List DocumentNode) →
    decoder.nodes type depth given = .ok roots → decoder.schema.encodeNodes type roots = .ok codes →
    Argument.levelsAll codes = DocumentNode.joinedLevelsAll given
  | [], decoded, encoded => by
    rw [nodes] at decoded
    cases decoded
    rw [Schema.encodeNodes] at encoded
    cases encoded
    rfl
  | given :: rest, decoded, encoded => by
    rw [nodes] at decoded
    obtain ⟨first, made, decoded⟩ := bind_eq_ok.mp decoded
    obtain ⟨others, more, same⟩ := bind_eq_ok.mp decoded
    obtain rfl := pure_eq_ok.mp same
    obtain ⟨node, codes, head, tail, rfl⟩ := Schema.encodeNodes_cons encoded
    rw [Argument.levelsAll, DocumentNode.joinedLevelsAll, levels_of_node type given made head,
      levels_of_nodes type rest more tail]
termination_by given => sizeOf given

theorem levels_of_document : (given : Document) →
    decoder.document depth isSubquery given = .ok criteria →
    decoder.schema.encode criteria = .ok canonical → canonical.levels = given.joinedLevels
  | ⟨typeId, typeName, properties, groupings, restrictions, orderings, limit, offset⟩, decoded, encoded => by
    rw [document] at decoded
    obtain ⟨type, -, decoded⟩ := bind_eq_ok.mp decoded
    obtain ⟨selected, -, decoded⟩ := bind_eq_ok.mp decoded
    obtain ⟨groupBy, -, decoded⟩ := bind_eq_ok.mp decoded
    obtain ⟨roots, made, decoded⟩ := bind_eq_ok.mp decoded
    obtain ⟨orderBy, -, decoded⟩ := bind_eq_ok.mp decoded
    obtain ⟨_, -, decoded⟩ := bind_eq_ok.mp decoded
    obtain ⟨_, -, decoded⟩ := bind_eq_ok.mp decoded
    obtain ⟨_, -, same⟩ := bind_eq_ok.mp decoded
    obtain rfl := pure_eq_ok.mp same
    rw [Document.joinedLevels, ← length_of_nodes decoder type made]
    match roots with
    | [] =>
      have levels := levels_of_nodes type restrictions made (by rw [Schema.encodeNodes])
      rw [(Schema.encodes_of_none encoded rfl).same, ← levels]
      rfl
    | [root] =>
      obtain ⟨node, inner, encodes⟩ := Schema.encodes_of_some encoded rfl
      have levels := levels_of_nodes type restrictions made (Schema.encodeNodes_singleton inner)
      rw [encodes.same, ← levels]
      rfl
    | first :: second :: others =>
      obtain ⟨node, inner, encodes⟩ := Schema.encodes_of_some encoded rfl
      obtain ⟨args, joined, rfl⟩ := Schema.encodeNode_junction inner
      have levels := levels_of_nodes type restrictions made joined
      rw [encodes.same, ← levels]
      simp [Document.levels, DocumentNode.levelsAll, DocumentNode.levels]
termination_by given => sizeOf given

end

end Levels

variable {schema : Schema} {packages : Packages} {maxDepth : Nat} {document : Document}

/-- A decoded query and its subqueries can be said by documents. -/
theorem grounded_of_decode (addressed : schema.Addressed)
    (decoded : (⟨schema, packages, maxDepth⟩ : Decoder).decode document = .ok criteria) :
    ∀ query ∈ criteria :: criteria.subqueries, schema.Grounded query := by
  have known := aliases_of_decode decoded
  obtain ⟨consistent, -, lawful, -⟩ := consistent_of_document addressed.named
    (decodesLawful addressed.named maxDepth) decoded
  refine List.forall_mem_cons.mpr ⟨⟨addressed.typeNamed? (known _ (.head _)).1, consistent⟩, ?_⟩
  intro query nested
  exact ⟨addressed.typeNamed? (known query (.tail _ nested)).1, (lawful query nested).consistent⟩

/-- The document of a decoded query is read from the levels on that the decoded document has once its
restrictions are joined. -/
theorem readFrom_encode_of_decode (addressed : schema.Addressed)
    (decoded : (⟨schema, packages, maxDepth⟩ : Decoder).decode document = .ok criteria) :
    ∃ canonical, schema.encode criteria = .ok canonical ∧ ∀ others : Packages,
      ReadFrom document.joinedLevels
        (fun depth => (⟨schema, others, depth⟩ : Decoder).decode canonical) criteria := by
  obtain ⟨grounded, below⟩ := List.forall_mem_cons.mp (grounded_of_decode addressed decoded)
  obtain ⟨-, top, -⟩ := consistent_of_document addressed.named
    (decodesLawful addressed.named maxDepth) decoded
  have decodes (others : Packages) : ∃ canonical, schema.encode criteria = .ok canonical ∧
      (⟨schema, others, criteria.levels⟩ : Decoder).decode canonical = .ok criteria := by
    have back := encode_decodes_of_grounded ⟨schema, others, criteria.levels⟩ criteria.levels
      addressed.identified grounded fun restriction given =>
        encodeNode_decodes_of_grounded addressed.identified grounded.mem_types
          (grounded.consistent.restriction restriction given)
          (fun query inside => below query (Criteria.mem_subqueries_iff.mpr ⟨restriction, given, inside⟩))
          (Criteria.levels_restriction_le given)
    rwa [top] at back
  obtain ⟨canonical, encoded, -⟩ := decodes packages
  refine ⟨canonical, encoded, ?_⟩
  intro others
  obtain ⟨again, same, back⟩ := decodes others
  cases encoded.symm.trans same
  rw [← levels_of_document ⟨schema, packages, maxDepth⟩ document decoded encoded]
  exact readFrom_of_decode schema others back

end Decoder

/-- Decoding and encoding lead to a canonical document: whatever is decoded has a document, which decodes
to just the same query, with any packages. It may need twice the depth, for the restrictions that a
document lists are joined by a node of its own. Where no document lists several, it needs no more. -/
theorem decode_canonical_of_decode (declared : List RecordType) (schema : Schema)
    (built : Schema.build declared = .ok schema) (packages : Packages) (maxDepth : Nat) (document : Document)
    (criteria : Criteria)
    (decoded : (⟨schema, packages, maxDepth⟩ : Decoder).decode document = .ok criteria) :
    ∃ canonical, schema.encode criteria = .ok canonical ∧ ∀ others : Packages,
      (⟨schema, others, 2 * maxDepth⟩ : Decoder).decode canonical = .ok criteria ∧
      (document.IsJoined → (⟨schema, others, maxDepth⟩ : Decoder).decode canonical = .ok criteria) := by
  obtain ⟨canonical, encoded, reads⟩ :=
    Decoder.readFrom_encode_of_decode (Schema.addressed_of_build built) decoded
  have within : document.levels ≤ maxDepth := Decoder.levels_le_of_document _ document decoded
  refine ⟨canonical, encoded, fun others => ⟨?_, fun joined => ?_⟩⟩
  · have twice : document.joinedLevels ≤ 2 * maxDepth :=
      Nat.le_trans document.joinedLevels_le (Nat.mul_le_mul_left 2 within)
    exact (reads others).eq_ok twice
  · have once : document.joinedLevels ≤ maxDepth := by rwa [document.joinedLevels_eq joined]
    exact (reads others).eq_ok once

/-- Two restrictions of coops, one of them by a subquery with two restrictions of its own. -/
def crowdedDocument : Document :=
  ⟨[], "Coop", [⟨⟨[], "parts.id"⟩, [], "COUNT"⟩, ⟨⟨[], "size"⟩, [], "SUM"⟩], [],
    [⟨"isnull", ⟨[], "name"⟩, []⟩,
      ⟨"in", ⟨[], "whole"⟩, [.subquery ⟨"t1", [], [⟨⟨[], "id"⟩, [], []⟩], [],
        [⟨"gt", ⟨[], "size"⟩, [.value (.int 3)]⟩, ⟨"isnull", ⟨[], "whole.whole"⟩, []⟩], [], none, none⟩]⟩],
    [], none, none⟩

theorem coops_canonical :
    (∃ criteria canonical, (⟨⟨[coopType]⟩, ⟨"acme", []⟩, 3⟩ : Decoder).decode crowdedDocument = .ok criteria ∧
      Schema.encode ⟨[coopType]⟩ criteria = .ok canonical ∧
      (⟨⟨[coopType]⟩, ⟨[], "sys"⟩, 6⟩ : Decoder).decode canonical = .ok criteria) ∧
    ∃ criteria canonical, (⟨⟨[coopType]⟩, ⟨"acme", []⟩, 1⟩ : Decoder).decode coopDocument = .ok criteria ∧
      coopDocument.IsJoined ∧ Schema.encode ⟨[coopType]⟩ criteria = .ok canonical ∧
      (⟨⟨[coopType]⟩, ⟨[], "sys"⟩, 1⟩ : Decoder).decode canonical = .ok criteria := by
  constructor
  · have decodes : ((⟨⟨[coopType]⟩, ⟨"acme", []⟩, 3⟩ : Decoder).decode crowdedDocument).toBool = true := by
      decide +kernel
    obtain ⟨criteria, decoded⟩ := exists_ok_of_toBool decodes
    obtain ⟨canonical, encoded, back⟩ :=
      decode_canonical_of_decode [coopType] ⟨[coopType]⟩ rfl _ _ _ _ decoded
    exact ⟨criteria, canonical, decoded, encoded, (back _).1⟩
  · have decodes : ((⟨⟨[coopType]⟩, ⟨"acme", []⟩, 1⟩ : Decoder).decode coopDocument).toBool = true := by
      decide +kernel
    have joined : coopDocument.IsJoined := by decide
    obtain ⟨criteria, decoded⟩ := exists_ok_of_toBool decodes
    obtain ⟨canonical, encoded, back⟩ :=
      decode_canonical_of_decode [coopType] ⟨[coopType]⟩ rfl _ _ _ _ decoded
    exact ⟨criteria, canonical, decoded, joined, encoded, (back _).2 joined⟩

end RecordQuery
