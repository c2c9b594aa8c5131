import RecordQuery.Proofs.Depth.Guard
import RecordQuery.Proofs.Print.Plain
import RecordQuery.Proofs.Print.Reprint

/-! From which depth on a query is read back, from its text and from its document. A text is given up
below the levels of the query, a document below the levels of its nodes, which may be fewer: a document
needs no level for the brackets that a clause spares, nor for a subquery without restrictions. -/
namespace RecordQuery

/-- With so many levels the query is read, and with fewer it is given up. -/
def ReadFrom (levels : Nat) (outcome : Nat → Except QueryError Criteria) (criteria : Criteria) : Prop :=
  ∀ depth, if levels ≤ depth then outcome depth = .ok criteria else isTooDeep (outcome depth) = true

section ReadFrom

variable {outcome outcome' : Nat → Except QueryError Criteria} {criteria : Criteria}

theorem readFrom_of_extends
    (goesOn : ∀ depth depth', depth ≤ depth' → Extends (outcome depth) (outcome depth'))
    (needed : ∀ depth, outcome depth = .ok criteria → levels ≤ depth)
    (enough : ∀ depth, levels ≤ depth → outcome depth = .ok criteria) : ReadFrom levels outcome criteria := by
  intro depth
  split
  · rename_i within
    exact enough depth within
  · rename_i beyond
    rcases goesOn depth levels (Nat.le_of_not_le beyond) with tooDeep | same
    · exact tooDeep
    · exact absurd (needed depth (same.symm.trans (enough levels (Nat.le_refl _)))) beyond

theorem ReadFrom.eq_ok (reads : ReadFrom levels outcome criteria) (within : levels ≤ depth) :
    outcome depth = .ok criteria := by
  have here := reads depth
  rwa [if_pos within] at here

theorem ReadFrom.isTooDeep_eq (reads : ReadFrom levels outcome criteria) (depth : Nat) :
    isTooDeep (outcome depth) = decide (depth < levels) := by
  have here := reads depth
  split at here
  · rename_i within
    rw [isTooDeep_of_ok here, decide_eq_false (Nat.not_lt.mpr within)]
  · rename_i beyond
    rw [here, decide_eq_true (Nat.lt_of_not_le beyond)]

theorem ReadFrom.differ_iff (reads : ReadFrom levels outcome criteria)
    (reads' : ReadFrom levels' outcome' criteria) (fewer : levels' ≤ levels) (depth : Nat) :
    isTooDeep (outcome depth) ≠ isTooDeep (outcome' depth) ↔ levels' ≤ depth ∧ depth < levels := by
  rw [reads.isTooDeep_eq, reads'.isTooDeep_eq, ne_eq, decide_eq_decide]
  omega

end ReadFrom

mutual

/-- How many levels a node takes: one for itself, and those of what is nested in it. -/
def DocumentNode.levels : DocumentNode → Nat
  | ⟨_, _, args⟩ => Argument.levelsAll args + 1

/-- A subquery takes a level for itself, unless it has no restrictions. -/
def Argument.levelsAll : List Argument → Nat
  | [] => 0
  | .value _ :: args => Argument.levelsAll args
  | .restriction node :: args => max node.levels (Argument.levelsAll args)
  | .subquery document :: args =>
    max (if document.levels = 0 then 0 else document.levels + 1) (Argument.levelsAll args)

def DocumentNode.levelsAll : List DocumentNode → Nat
  | [] => 0
  | node :: nodes => max node.levels (DocumentNode.levelsAll nodes)

/-- How many levels a document takes. -/
def Document.levels : Document → Nat
  | ⟨_, _, _, _, restrictions, _, _, _⟩ => DocumentNode.levelsAll restrictions

end

namespace Decoder

theorem levelsAll_of_values {args : List Argument} (made : values written args = .ok listed) :
    Argument.levelsAll args = 0 := by
  induction args generalizing listed with
  | nil => rfl
  | cons arg args ih =>
    cases arg with
    | value value =>
      obtain ⟨others, made, -⟩ := bind_eq_ok.mp made
      exact ih made
    | restriction node => cases made
    | subquery document => cases made

section Needed

variable (decoder : Decoder)

mutual

/-- A node is decoded only if its levels are allowed. -/
theorem levels_le_of_node (type : RecordType) : (given : DocumentNode) →
    decoder.node type depth given = .ok restriction → given.levels ≤ depth
  | ⟨written, ref, args⟩, decoded => by
    rw [node.eq_def] at decoded
    simp only at decoded
    rw [DocumentNode.levels]
    split at decoded
    · cases decoded
    rename_i deep
    have within (flat : Argument.levelsAll args = 0) : Argument.levelsAll args + 1 ≤ depth := by omega
    split at decoded
    · cases decoded
    · obtain ⟨children, nested, -⟩ := bind_eq_ok.mp decoded
      have inner := levels_le_of_children type _ nested
      omega
    · obtain ⟨children, nested, -⟩ := bind_eq_ok.mp decoded
      have inner := levels_le_of_children type _ nested
      omega
    · obtain ⟨_, -, checked⟩ := bind_eq_ok.mp decoded
      have empty := (guard_eq_ok.mp checked).1
      simp only [Bool.not_eq_true, Bool.not_eq_false', List.isEmpty_iff] at empty
      exact within (by rw [empty, Argument.levelsAll])
    · obtain ⟨_, -, decoded⟩ := bind_eq_ok.mp decoded
      obtain ⟨query, nested, -⟩ := bind_eq_ok.mp decoded
      have inner := levels_le_of_document _ nested
      simp only [Argument.levelsAll]
      split <;> omega
    · obtain ⟨_, -, decoded⟩ := bind_eq_ok.mp decoded
      obtain ⟨listed, made, -⟩ := bind_eq_ok.mp decoded
      exact within (levelsAll_of_values made)
    · obtain ⟨_, -, decoded⟩ := bind_eq_ok.mp decoded
      obtain ⟨listed, made, -⟩ := bind_eq_ok.mp decoded
      exact within (levelsAll_of_values made)
termination_by given => sizeOf given

theorem levels_le_of_children (type : RecordType) : (args : List Argument) →
    decoder.children type depth written args = .ok restrictions → Argument.levelsAll args ≤ depth
  | [], _ => Nat.zero_le _
  | .restriction child :: args, decoded => by
    rw [children] at decoded
    obtain ⟨first, made, decoded⟩ := bind_eq_ok.mp decoded
    obtain ⟨others, rest, -⟩ := bind_eq_ok.mp decoded
    exact Nat.max_le.mpr ⟨levels_le_of_node type child made, levels_le_of_children type args rest⟩
  | .value _ :: _, decoded => by
    rw [children] at decoded
    cases decoded
  | .subquery _ :: _, decoded => by
    rw [children] at decoded
    cases decoded
termination_by args => sizeOf args

theorem levels_le_of_nodes (type : RecordType) : (given : List DocumentNode) →
    decoder.nodes type depth given = .ok restrictions → DocumentNode.levelsAll given ≤ depth
  | [], _ => Nat.zero_le _
  | first :: rest, decoded => by
    rw [nodes] at decoded
    obtain ⟨restriction, made, decoded⟩ := bind_eq_ok.mp decoded
    obtain ⟨others, more, -⟩ := bind_eq_ok.mp decoded
    exact Nat.max_le.mpr ⟨levels_le_of_node type first made, levels_le_of_nodes type rest more⟩
termination_by given => sizeOf given

theorem levels_le_of_document : (given : Document) →
    decoder.document depth isSubquery given = .ok criteria → given.levels ≤ depth
  | ⟨typeId, typeName, properties, groupings, restrictions, orderings, limit, offset⟩, decoded => by
    rw [document] at decoded
    obtain ⟨type, -, decoded⟩ := bind_eq_ok.mp decoded
    obtain ⟨selected, -, decoded⟩ := bind_eq_ok.mp decoded
    obtain ⟨groupBy, -, decoded⟩ := bind_eq_ok.mp decoded
    obtain ⟨roots, made, -⟩ := bind_eq_ok.mp decoded
    exact levels_le_of_nodes type restrictions made
termination_by given => sizeOf given

end

end Needed

section Enough

variable (schema : Schema) (packages : Packages) (limit limit' : Nat)

mutual

/-- From its levels on, a node is decoded the same way with any depth. -/
theorem node_of_levels (type : RecordType) : (given : DocumentNode) → given.levels ≤ depth →
    given.levels ≤ depth' → node ⟨schema, packages, limit⟩ type depth given =
      node ⟨schema, packages, limit'⟩ type depth' given
  | ⟨written, ref, args⟩, enough, enough' => by
    rw [DocumentNode.levels] at enough enough'
    have deep : depth ≠ 0 := by omega
    have deep' : depth' ≠ 0 := by omega
    have nested := children_of_levels type written args (Nat.le_sub_one_of_lt enough)
      (Nat.le_sub_one_of_lt enough')
    rw [node.eq_def ⟨schema, packages, limit⟩, node.eq_def ⟨schema, packages, limit'⟩]
    simp only [deep, deep', ↓reduceIte]
    split
    · rfl
    · rw [nested]
    · rw [nested]
    · rfl
    · rename_i document _
      simp only [Argument.levelsAll] at enough enough'
      have inside : document.levels ≤ depth - 2 := by split at enough <;> omega
      have inside' : document.levels ≤ depth' - 2 := by split at enough' <;> omega
      rw [document_of_levels true document inside inside']
      rfl
    · rfl
    · rfl
termination_by given => sizeOf given

theorem children_of_levels (type : RecordType) (written : Text) : (args : List Argument) →
    Argument.levelsAll args ≤ depth → Argument.levelsAll args ≤ depth' →
    children ⟨schema, packages, limit⟩ type depth written args =
      children ⟨schema, packages, limit'⟩ type depth' written args
  | [], _, _ => by rw [children, children]
  | .restriction child :: args, enough, enough' => by
    obtain ⟨first, others⟩ := Nat.max_le.mp enough
    obtain ⟨first', others'⟩ := Nat.max_le.mp enough'
    rw [children, children, node_of_levels type child first first',
      children_of_levels type written args others others']
  | .value _ :: _, _, _ => by rw [children, children]
  | .subquery _ :: _, _, _ => by rw [children, children]
termination_by args => sizeOf args

theorem nodes_of_levels (type : RecordType) : (given : List DocumentNode) →
    DocumentNode.levelsAll given ≤ depth → DocumentNode.levelsAll given ≤ depth' →
    nodes ⟨schema, packages, limit⟩ type depth given = nodes ⟨schema, packages, limit'⟩ type depth' given
  | [], _, _ => by rw [nodes, nodes]
  | node :: given, enough, enough' => by
    obtain ⟨first, others⟩ := Nat.max_le.mp enough
    obtain ⟨first', others'⟩ := Nat.max_le.mp enough'
    rw [nodes, nodes, node_of_levels type node first first', nodes_of_levels type given others others']
termination_by given => sizeOf given

theorem document_of_levels (isSubquery : Bool) : (given : Document) → given.levels ≤ depth →
    given.levels ≤ depth' → document ⟨schema, packages, limit⟩ depth isSubquery given =
      document ⟨schema, packages, limit'⟩ depth' isSubquery given
  | ⟨typeId, typeName, properties, groupings, restrictions, orderings, limit, offset⟩, enough, enough' => by
    rw [document, document]
    simp only [nodes_of_levels _ restrictions enough enough']
    rfl
termination_by given => sizeOf given

end

end Enough

/-- A document that is decoded at all is decoded from its levels on. -/
theorem readFrom_of_decode (schema : Schema) (packages : Packages) {maxDepth : Nat} {document : Document}
    (decoded : (⟨schema, packages, maxDepth⟩ : Decoder).decode document = .ok criteria) :
    ReadFrom document.levels (fun depth => (⟨schema, packages, depth⟩ : Decoder).decode document) criteria := by
  have needed (depth : Nat) (decoded : (⟨schema, packages, depth⟩ : Decoder).decode document = .ok criteria) :
      document.levels ≤ depth := levels_le_of_document _ document decoded
  refine readFrom_of_extends ?_ needed ?_
  · intro depth depth' more
    exact extends_document schema packages depth depth' false more document
  · intro depth within
    have same := document_of_levels schema packages depth maxDepth false document within (needed _ decoded)
    exact same.trans decoded

end Decoder

/-- The text of a compiled query with ordinary names is compiled from the levels of the query on. -/
theorem Compiler.readFrom_of_compile {schema : Schema} {packages : Packages} {operators : Text} {maxDepth : Nat}
    (standard : (⟨schema, packages, operators, maxDepth⟩ : Compiler).IsStandard)
    (plain : schema.PlainlyNamed)
    (compiled : (⟨schema, packages, operators, maxDepth⟩ : Compiler).compile text = .ok criteria) :
    ReadFrom criteria.levels
      (fun depth => (⟨schema, packages, operators, depth⟩ : Compiler).compile criteria.text) criteria := by
  obtain ⟨accepted, top, -⟩ := accepts_of_compile compiled
  have spelled := (expresses_of_compile standard compiled (plain.worded accepted)).spelled
  refine readFrom_of_extends ?_ ?_ ?_
  · intro depth depth' more
    exact extends_compile schema packages operators more criteria.text
  · intro depth again
    exact (accepts_of_compile again).2.2
  · intro depth within
    exact compile_text standard ⟨accepted, top, spelled, within⟩ (plain.placed accepted)

mutual

/-- Every subquery in the restriction is restricted, by a junction. -/
def Restriction.joinsInside : Restriction → Bool
  | .missing | .comparison _ _ _ | .isNull _ | .inValues _ _ => true
  | .inQuery _ query => query.restriction.isSome && query.joins
  | .junction _ children => Restriction.joinsInsideAll children
  | .not child => child.joinsInside

def Restriction.joinsInsideAll : List Restriction → Bool
  | [] => true
  | child :: children => child.joinsInside && Restriction.joinsInsideAll children

/-- A restriction of the query is a junction, and every subquery has such a restriction. -/
def Criteria.joins : Criteria → Bool
  | ⟨_, _, _, none, _, _, _, _, _, _⟩ => true
  | ⟨_, _, _, some restriction, _, _, _, _, _, _⟩ => restriction.isJunction && restriction.joinsInside

end

namespace Schema

variable {schema : Schema}

mutual

theorem levels_of_encodeNode {type : RecordType} : (restriction : Restriction) →
    restriction.joinsInside = true →
    ∀ node, schema.encodeNode type restriction = .ok node → node.levels = restriction.levels
  | .missing, _, _, encoded => by cases encoded
  | .comparison _ _ _, _, _, encoded => by
    obtain ⟨route, -, rfl⟩ := walk_of_referred encoded
    rfl
  | .isNull _, _, _, encoded => by
    obtain ⟨route, -, rfl⟩ := walk_of_referred encoded
    rfl
  | .inValues _ values, _, _, encoded => by
    obtain ⟨route, -, rfl⟩ := walk_of_referred encoded
    rw [DocumentNode.levels, Decoder.levelsAll_of_values (Decoder.values_map_value [] values)]
    rfl
  | .inQuery _ query, joins, _, encoded => by
    obtain ⟨route, document, -, inner, rfl⟩ := encodeNode_inQuery encoded
    obtain ⟨restricted, joins⟩ := Bool.and_eq_true_iff.mp joins
    have nested := levels_of_encode query joins document inner
    obtain ⟨restriction, given⟩ := Option.isSome_iff_exists.mp restricted
    have positive := Nat.lt_of_lt_of_le restriction.levels_pos (Criteria.levels_restriction_le given)
    simp only [DocumentNode.levels, Argument.levelsAll, nested, Restriction.levels]
    rw [if_neg (Nat.ne_of_gt positive)]
    omega
  | .junction _ children, joins, _, encoded => by
    obtain ⟨args, inner, rfl⟩ := encodeNode_junction encoded
    rw [DocumentNode.levels, levels_of_encodeNodes children joins args inner, Restriction.levels]
  | .not child, joins, _, encoded => by
    obtain ⟨node, inner, rfl⟩ := encodeNode_not encoded
    have nested := levels_of_encodeNode child joins node inner
    simp [DocumentNode.levels, Argument.levelsAll, Restriction.levels, nested]

theorem levels_of_encodeNodes {type : RecordType} : (children : List Restriction) →
    Restriction.joinsInsideAll children = true → ∀ args, schema.encodeNodes type children = .ok args →
    Argument.levelsAll args = Restriction.levelsAll children
  | [], _, args, encoded => by
    rw [encodeNodes] at encoded
    cases encoded
    rfl
  | child :: children, joins, args, encoded => by
    obtain ⟨joins, join⟩ := Bool.and_eq_true_iff.mp joins
    obtain ⟨node, rest, first, more, rfl⟩ := encodeNodes_cons encoded
    rw [Argument.levelsAll, levels_of_encodeNode child joins node first,
      levels_of_encodeNodes children join rest more, Restriction.levelsAll]

theorem levels_of_encode : (criteria : Criteria) → criteria.joins = true →
    ∀ document, schema.encode criteria = .ok document → document.levels = criteria.levels
  | ⟨_, _, _, none, _, _, _, _, _, _⟩, _, document, encoded => by
    rw [(encodes_of_none encoded rfl).same]
    rfl
  | ⟨_, _, _, some restriction, _, _, _, _, _, _⟩, joins, document, encoded => by
    obtain ⟨junction, joins⟩ := Bool.and_eq_true_iff.mp joins
    obtain ⟨node, inner, encodes⟩ := encodes_of_some encoded rfl
    have nested := levels_of_encodeNode restriction joins node inner
    rw [encodes.same, Criteria.levels, if_pos junction]
    simp [Document.levels, DocumentNode.levelsAll, nested]

end

end Schema

/-- The text of a compiled query with ordinary names is read back from the levels of the query on, its
document from the levels of the document on, and each is given up below. The document has no more levels
than the query, so only the text is given up at the depths between the two. There are none where all
restrictions are junctions and all subqueries have one. -/
theorem depths_of_text_and_document (declared : List RecordType) (schema : Schema)
    (built : Schema.build declared = .ok schema) (plain : schema.PlainlyNamed) (packages : Packages)
    (operators : Text) (maxDepth : Nat)
    (standard : (⟨schema, packages, operators, maxDepth⟩ : Compiler).IsStandard) (text : Text)
    (criteria : Criteria)
    (compiled : (⟨schema, packages, operators, maxDepth⟩ : Compiler).compile text = .ok criteria) :
    let recompiled (depth : Nat) := (⟨schema, packages, operators, depth⟩ : Compiler).compile criteria.text
    ∃ document, schema.encode criteria = .ok document ∧
      let decoded (depth : Nat) := (⟨schema, packages, depth⟩ : Decoder).decode document
      ReadFrom criteria.levels recompiled criteria ∧ ReadFrom document.levels decoded criteria ∧
        document.levels ≤ criteria.levels ∧
        (∀ depth, isTooDeep (recompiled depth) ≠ isTooDeep (decoded depth) ↔
          document.levels ≤ depth ∧ depth < criteria.levels) ∧
        (criteria.joins = true → document.levels = criteria.levels) := by
  intro recompiled
  obtain ⟨accepted, top, -⟩ := Compiler.accepts_of_compile compiled
  have identified := Schema.identified_of_build built
  obtain ⟨document, encoded, decoded⟩ := Decoder.encode_decodes ⟨schema, packages, criteria.levels⟩
    criteria.levels identified (fun _ _ => Decoder.encodeNode_decodes identified) accepted (Nat.le_refl _)
  rw [top] at decoded
  have reads := Compiler.readFrom_of_compile standard plain compiled
  have reads' := Decoder.readFrom_of_decode schema packages decoded
  have fewer : document.levels ≤ criteria.levels := Decoder.levels_le_of_document _ document decoded
  refine ⟨document, encoded, reads, reads', fewer, reads.differ_iff reads' fewer, ?_⟩
  intro joins
  exact Schema.levels_of_encode criteria joins document encoded

section Pigeons

/-- The query that a text asks of pigeons, and its document. -/
def pigeonQuery (text : Text) : Option (Criteria × Document) := do
  let criteria ← ((pigeonCompiler 32).compile text).toOption
  let document ← (Schema.encode ⟨[pigeonType]⟩ criteria).toOption
  return (criteria, document)

theorem pigeonQuery_eq_some (asked : pigeonQuery text = some (criteria, document)) :
    (pigeonCompiler 32).compile text = .ok criteria ∧ Schema.encode ⟨[pigeonType]⟩ criteria = .ok document := by
  obtain ⟨_, compiled, rest⟩ := Option.bind_eq_some_iff.mp asked
  obtain ⟨_, encoded, same⟩ := Option.bind_eq_some_iff.mp rest
  cases same
  exact ⟨toOption_eq_some.mp compiled, toOption_eq_some.mp encoded⟩

theorem plainlyNamed_pigeons : Schema.PlainlyNamed ⟨[pigeonType]⟩ := ⟨by decide, by decide⟩

def pairedPigeons : Text := Text.ofString
  "SELECT name FROM Pigeon WHERE name ISNULL OR mate IN (SELECT id FROM Pigeon WHERE id > 'a' AND id < 'x')"

theorem pigeons_depths :
    (∃ criteria document, pigeonQuery pigeonText = some (criteria, document) ∧
      ReadFrom 7 (fun depth => (pigeonCompiler depth).compile criteria.text) criteria ∧
      ReadFrom 5 (fun depth => (pigeonDecoder depth).decode document) criteria) ∧
    ∃ criteria document, pigeonQuery pairedPigeons = some (criteria, document) ∧
      criteria.joins = true ∧ document.levels = criteria.levels := by
  have depths (text : Text) (criteria : Criteria) :=
    depths_of_text_and_document [pigeonType] ⟨[pigeonType]⟩ rfl plainlyNamed_pigeons ⟨"acme", []⟩ [] 32
      (.inl rfl) text criteria
  constructor
  · have counted : (pigeonQuery pigeonText).map (fun query => (query.1.levels, query.2.levels)) =
        some (7, 5) := by decide +kernel
    obtain ⟨⟨criteria, document⟩, asked, counted⟩ := Option.map_eq_some_iff.mp counted
    obtain ⟨compiled, encoded⟩ := pigeonQuery_eq_some asked
    obtain ⟨_, same, reads, reads', -⟩ := depths pigeonText criteria compiled
    cases encoded.symm.trans same
    injection counted with seven five
    rw [seven] at reads
    rw [five] at reads'
    exact ⟨criteria, document, asked, reads, reads'⟩
  · have joined : (pigeonQuery pairedPigeons).map (fun query => query.1.joins) = some true := by
      decide +kernel
    obtain ⟨⟨criteria, document⟩, asked, joins⟩ := Option.map_eq_some_iff.mp joined
    obtain ⟨compiled, encoded⟩ := pigeonQuery_eq_some asked
    obtain ⟨_, same, -, -, -, -, alike⟩ := depths pairedPigeons criteria compiled
    cases encoded.symm.trans same
    exact ⟨criteria, document, asked, joins, alike joins⟩

/-- The text of a lone condition needs a level more than its document, as does that of a subquery without
restrictions. -/
theorem pigeons_given_up : Schema.build [pigeonType] = .ok ⟨[pigeonType]⟩ ∧
    Schema.PlainlyNamed ⟨[pigeonType]⟩ ∧
    ∀ given ∈ [(1, Text.ofString "SELECT name FROM Pigeon WHERE name ISNULL"),
        (2, Text.ofString "SELECT name FROM Pigeon WHERE name ISNULL AND mate IN (SELECT id FROM Pigeon)")],
      ∃ criteria document, (pigeonCompiler 32).compile given.2 = .ok criteria ∧
        Schema.encode ⟨[pigeonType]⟩ criteria = .ok document ∧
        isTooDeep ((pigeonCompiler given.1).compile criteria.text) = true ∧
        isTooDeep ((pigeonDecoder given.1).decode document) = false := by
  refine ⟨rfl, plainlyNamed_pigeons, ?_⟩
  intro given listed
  have differ : (pigeonQuery given.2).map (fun query =>
      (isTooDeep ((pigeonCompiler given.1).compile query.1.text),
        isTooDeep ((pigeonDecoder given.1).decode query.2))) = some (true, false) := by
    revert given
    decide +kernel
  obtain ⟨⟨criteria, document⟩, asked, differ⟩ := Option.map_eq_some_iff.mp differ
  obtain ⟨compiled, encoded⟩ := pigeonQuery_eq_some asked
  injection differ with tooDeep settled
  exact ⟨criteria, document, compiled, encoded, tooDeep, settled⟩

end Pigeons

end RecordQuery
