import RecordQuery.Document.Read
import RecordQuery.Proofs.Document.Legible
import RecordQuery.Proofs.Json.RoundTrip
import RecordQuery.Proofs.Schema.Naming
import RecordQuery.Proofs.Success

namespace RecordQuery

/-- A reference as it is read back. -/
def PropertyRef.reread (ref : PropertyRef) : Except ReadError PropertyRef := do
  return ⟨← Document.readId ref.id.toJson, ref.name⟩

def SelectedProperty.reread (property : SelectedProperty) : Except ReadError SelectedProperty := do
  return { property with ref := ← property.ref.reread }

def DocumentOrdering.reread (ordering : DocumentOrdering) : Except ReadError DocumentOrdering := do
  return { ordering with ref := ← ordering.ref.reread }

mutual

def DocumentNode.reread : DocumentNode → Except ReadError DocumentNode
  | ⟨operator, ref, args⟩ => do
    let ref ← ref.reread
    return ⟨operator, ref, ← Argument.rereadAll args⟩

def Argument.rereadAll : List Argument → Except ReadError (List Argument)
  | [] => .ok []
  | .value value :: args => do return .value value :: (← Argument.rereadAll args)
  | .restriction node :: args => do
    let first ← node.reread
    return .restriction first :: (← Argument.rereadAll args)
  | .subquery document :: args => do
    let first ← document.reread
    return .subquery first :: (← Argument.rereadAll args)

def DocumentNode.rereadAll : List DocumentNode → Except ReadError (List DocumentNode)
  | [] => .ok []
  | node :: nodes => do
    let first ← node.reread
    return first :: (← DocumentNode.rereadAll nodes)

/-- A document as it is read back. -/
def Document.reread : Document → Except ReadError Document
  | ⟨typeId, typeName, properties, groupings, restrictions, orderings, limit, offset⟩ => do
    let properties ← properties.mapM SelectedProperty.reread
    let groupings ← groupings.mapM PropertyRef.reread
    let restrictions ← DocumentNode.rereadAll restrictions
    let orderings ← orderings.mapM DocumentOrdering.reread
    return ⟨typeId, typeName, properties, groupings, restrictions, orderings, limit, offset⟩

end

namespace Document

section Members

variable {α : Type} {keys : List Text} {read : α → Text → Json → Except ReadError (Reading α)}
  {value : α} {rest : List (Text × Json)}

/-- A member that is left out if there is nothing to say. -/
theorem readMembers_optional {empty : Bool} (next : α) (known : keyFor? keys key = some key)
    (reads : read value key json = .ok (.ok next)) (blank : empty = true → next = value) :
    readMembers keys read (.ok value) ((if empty = true then [] else [(key, json)]) ++ rest) =
      readMembers keys read (.ok next) rest := by
  cases empty with
  | true => rw [blank rfl, if_pos rfl, List.nil_append]
  | false =>
    rw [if_neg Bool.false_ne_true, List.singleton_append, readMembers, known]
    simp only [Reading.ok, reads, bind, Except.bind, Bool.and_self]

theorem readMembers_failed {empty : Bool} (known : keyFor? keys key = some key) (given : empty = false)
    (fails : read value key json = .error error) :
    readMembers keys read (.ok value) ((if empty = true then [] else [(key, json)]) ++ rest) =
      .error error := by
  rw [given, if_neg Bool.false_ne_true, List.singleton_append, readMembers, known]
  simp only [Reading.ok, fails, bind, Except.bind]

/-- A list is read item by item. -/
theorem readItems_map {items : List α} {toJson : α → Json} {blank : α}
    {read : α → Json → Except ReadError (Reading α)} {reread : α → Except ReadError α}
    (reads : ∀ item, read blank (toJson item) = Reading.ok <$> reread item) :
    readItems read blank [] (items.map toJson) = Reading.ok <$> items.mapM reread := by
  induction items with
  | nil => rfl
  | cons item items ih =>
    rw [List.map_cons, readItems, List.headD_nil, List.tail_nil, reads, ih, List.mapM_cons]
    cases reread item with
    | error error => rfl
    | ok first => cases items.mapM reread <;> rfl

end Members

section Ids

variable {id other : PropertyId}

/-- No id is read back as no id. -/
theorem eq_nil_of_readId (parsed : readId id.toJson = .ok other) (empty : id.isEmpty = true) :
    other = [] := by
  rw [List.isEmpty_iff.mp empty] at parsed
  exact (Except.ok.inj parsed).symm

theorem isEmpty_of_readId (parsed : readId id.toJson = .error error) : id.isEmpty = false := by
  cases id with
  | nil => cases parsed
  | cons segment segments => rfl

theorem readRefMember_id {ref : PropertyRef} (parsed : readId id.toJson = .ok other) :
    readRefMember ref "property_id" id.toJson = .ok (.ok { ref with id := other }) := by
  rw [readRefMember, if_pos rfl, parsed]
  rfl

theorem readRefMember_failed {ref : PropertyRef} (parsed : readId id.toJson = .error error) :
    readRefMember ref "property_id" id.toJson = .error error := by
  rw [readRefMember, if_pos rfl, parsed]
  rfl

end Ids

theorem readRef_members (ref : PropertyRef) :
    readRef {} (.object ref.members) = Reading.ok <$> ref.reread := by
  obtain ⟨id, name⟩ := ref
  rw [PropertyRef.members, ← List.append_nil (textMember "property_name" name), readRef, readObject,
    idMember, textMember, PropertyRef.reread]
  cases parsed : readId id.toJson with
  | error error =>
    rw [readMembers_failed (by decide) (isEmpty_of_readId parsed) (readRefMember_failed parsed)]
    rfl
  | ok other =>
    have empty := eq_nil_of_readId parsed
    rw [readMembers_optional ⟨other, []⟩ (by decide) (readRefMember_id parsed),
      readMembers_optional ⟨other, name⟩ (by decide) rfl]
    · rfl
    · simp_all
    · simp_all

theorem readOrdering_toJson (ordering : DocumentOrdering) :
    readOrdering {} ordering.toJson = Reading.ok <$> ordering.reread := by
  obtain ⟨⟨id, name⟩, direction⟩ := ordering
  rw [DocumentOrdering.toJson, PropertyRef.members,
    ← List.append_nil (textMember "sortDirection" direction), List.append_assoc, readOrdering, readObject,
    idMember, textMember, textMember, DocumentOrdering.reread, PropertyRef.reread]
  cases parsed : readId id.toJson with
  | error error =>
    rw [readMembers_failed (by decide) (isEmpty_of_readId parsed)]
    · rfl
    · rw [if_neg (by decide), readRefMember_failed parsed]
      rfl
  | ok other =>
    have empty := eq_nil_of_readId parsed
    rw [readMembers_optional ⟨⟨other, []⟩, []⟩ (by decide),
      readMembers_optional ⟨⟨other, name⟩, []⟩ (by decide) rfl,
      readMembers_optional ⟨⟨other, name⟩, direction⟩ (by decide) rfl]
    · rfl
    · simp_all
    · simp_all
    · rw [if_neg (by decide), readRefMember_id parsed]
      rfl
    · simp_all

theorem readProperty_toJson (property : SelectedProperty) :
    readProperty {} property.toJson = Reading.ok <$> property.reread := by
  obtain ⟨⟨id, name⟩, label, function⟩ := property
  rw [SelectedProperty.toJson, ← List.append_nil (textMember "aggregateFunction" function), List.append_assoc,
    List.append_assoc, readProperty, readObject, idMember, textMember, textMember, textMember,
    SelectedProperty.reread, PropertyRef.reread]
  cases parsed : readId id.toJson with
  | error error =>
    rw [readMembers_failed (by decide) (isEmpty_of_readId parsed)]
    · rfl
    · rw [if_pos rfl, parsed]
      rfl
  | ok other =>
    have empty := eq_nil_of_readId parsed
    rw [readMembers_optional ⟨⟨other, []⟩, [], []⟩ (by decide),
      readMembers_optional ⟨⟨other, name⟩, [], []⟩ (by decide) rfl,
      readMembers_optional ⟨⟨other, name⟩, label, []⟩ (by decide) rfl,
      readMembers_optional ⟨⟨other, name⟩, label, function⟩ (by decide) rfl]
    · rfl
    · simp_all
    · simp_all
    · simp_all
    · rw [if_pos rfl, parsed]
      rfl
    · simp_all

section Nodes

variable {draft : Reading NodeDraft} {rest : List (Text × Json)}

theorem readDraft_cons (next : Except ReadError (Reading NodeDraft)) (known : keyFor? nodeKeys key = some key)
    (other : key ≠ "args") (reads : readNodeMember draft key json = next) :
    readDraft draft ((key, json) :: rest) = next >>= (readDraft · rest) := by
  cases json <;> simp [readDraft, known, other, reads]

theorem readDraft_optional {empty : Bool} (next : Reading NodeDraft)
    (known : keyFor? nodeKeys key = some key) (other : key ≠ "args")
    (reads : readNodeMember draft key json = .ok next) (blank : empty = true → next = draft) :
    readDraft draft ((if empty = true then [] else [(key, json)]) ++ rest) = readDraft next rest := by
  cases empty with
  | true => rw [blank rfl, if_pos rfl, List.nil_append]
  | false =>
    rw [if_neg Bool.false_ne_true, List.singleton_append]
    exact readDraft_cons (.ok next) known other reads

/-- The draft of a node before its arguments are read. -/
theorem readDraft_node (operator : Text) (ref : PropertyRef) :
    readDraft (.ok {}) ((Text.ofString "operator", .string operator) :: ref.members ++ rest) =
      ref.reread >>= fun ref => readDraft (.ok { operator, ref }) rest := by
  obtain ⟨id, name⟩ := ref
  rw [PropertyRef.members, List.cons_append, List.append_assoc,
    readDraft_cons (.ok (.ok { operator })) (by decide) (by decide) rfl, idMember, textMember,
    PropertyRef.reread]
  cases parsed : readId id.toJson with
  | error error =>
    rw [isEmpty_of_readId parsed, if_neg Bool.false_ne_true, List.singleton_append]
    change readDraft _ _ = .error error
    rw [readDraft_cons (.error error) (by decide) (by decide)]
    · rfl
    · rw [readNodeMember, if_neg (by decide), readRefMember_failed parsed]
      rfl
  | ok other =>
    have empty := eq_nil_of_readId parsed
    change readDraft _ _ = readDraft _ _
    rw [readDraft_optional (.ok { operator, ref := ⟨other, []⟩ }) (by decide) (by decide),
      readDraft_optional (.ok { operator, ref := ⟨other, name⟩ }) (by decide) (by decide) rfl]
    · simp_all
    · rw [readNodeMember, if_neg (by decide), readRefMember_id parsed]
      rfl
    · simp_all

/-- A node is read back if its arguments are. -/
theorem readNode_of_arguments {operator : Text} {args : List Argument} (ref : PropertyRef)
    (reads : readArguments operator (Argument.toJsons args) = Argument.rereadAll args) :
    readNode (DocumentNode.toJson ⟨operator, ref, args⟩) = DocumentNode.reread ⟨operator, ref, args⟩ := by
  rw [DocumentNode.toJson, readNode, readDraft_node, listMember, DocumentNode.reread]
  cases ref.reread with
  | error error => rfl
  | ok ref =>
    rw [← reads]
    generalize Argument.toJsons args = items
    cases items with
    | nil =>
      rw [readArguments]
      rfl
    | cons item items =>
      rw [if_neg (by simp)]
      change (readDraft _ _ >>= _) = _
      rw [readDraft, show keyFor? nodeKeys "args" = some (Text.ofString "args") by decide]
      simp only [↓reduceIte, readDraft]
      rfl

end Nodes

section Documents

variable {document : Document} {rest : List (Text × Json)}

theorem readDocumentMembers_cons (next : Except ReadError Document)
    (known : keyFor? documentKeys key = some key) (other : key ≠ "restrictions")
    (reads : readDocumentMember document key json = Reading.ok <$> next) :
    readDocumentMembers (.ok document) ((key, json) :: rest) =
      next >>= fun next => readDocumentMembers (.ok next) rest := by
  cases next <;> cases json <;>
    simp only [readDocumentMembers, known, other, reads, bind, Except.bind, Functor.map, Except.map,
      Reading.ok, Bool.and_self, ↓reduceIte]

variable {typeId typeName : Text} {properties : List SelectedProperty} {groupings : List PropertyRef}
  {restrictions : List DocumentNode} {orderings : List DocumentOrdering} {limit : Option Int}

theorem readDocumentMembers_typeId :
    readDocumentMembers (.ok empty) (textMember "baseTypeId" typeId ++ rest) =
      readDocumentMembers (.ok ⟨typeId, [], [], [], [], [], none, none⟩) rest := by
  cases typeId with
  | nil => rfl
  | cons byte bytes => exact readDocumentMembers_cons (.ok _) (by decide) (by decide) rfl

theorem readDocumentMembers_typeName :
    readDocumentMembers (.ok ⟨typeId, [], [], [], [], [], none, none⟩)
        (textMember "baseTypeName" typeName ++ rest) =
      readDocumentMembers (.ok ⟨typeId, typeName, [], [], [], [], none, none⟩) rest := by
  cases typeName with
  | nil => rfl
  | cons byte bytes => exact readDocumentMembers_cons (.ok _) (by decide) (by decide) rfl

/-- A list of plain entries, which is left out if there are none. -/
theorem readDocumentMembers_list {α : Type} {key : String} {items : List α} {toJson : α → Json}
    {reread : α → Except ReadError α} {set : List α → Document}
    (known : keyFor? documentKeys key = some (Text.ofString key)) (other : Text.ofString key ≠ "restrictions")
    (blank : set [] = document)
    (reads : readDocumentMember document key (.array (items.map toJson)) =
      Reading.ok <$> (set <$> items.mapM reread)) :
    readDocumentMembers (.ok document) (listMember key (items.map toJson) ++ rest) =
      items.mapM reread >>= fun items => readDocumentMembers (.ok (set items)) rest := by
  cases items with
  | nil =>
    rw [List.mapM_nil, pure_bind, blank]
    rfl
  | cons item items =>
    rw [listMember, if_neg (by simp), List.singleton_append, readDocumentMembers_cons _ known other reads,
      bind_map_left]

theorem readDocumentMembers_properties (properties : List SelectedProperty) :
    readDocumentMembers (.ok ⟨typeId, typeName, [], [], [], [], none, none⟩)
        (listMember "properties" (properties.map SelectedProperty.toJson) ++ rest) =
      properties.mapM SelectedProperty.reread >>= fun properties =>
        readDocumentMembers (.ok ⟨typeId, typeName, properties, [], [], [], none, none⟩) rest := by
  refine readDocumentMembers_list (by decide) (by decide) rfl ?_
  change readItems _ _ _ _ >>= _ = _
  rw [readItems_map readProperty_toJson]
  cases properties.mapM SelectedProperty.reread <;> rfl

theorem readDocumentMembers_groupings (groupings : List PropertyRef) :
    readDocumentMembers (.ok ⟨typeId, typeName, properties, [], [], [], none, none⟩)
        (listMember "groupings" (groupings.map fun ref => .object ref.members) ++ rest) =
      groupings.mapM PropertyRef.reread >>= fun groupings =>
        readDocumentMembers (.ok ⟨typeId, typeName, properties, groupings, [], [], none, none⟩) rest := by
  refine readDocumentMembers_list (by decide) (by decide) rfl ?_
  change readItems _ _ _ _ >>= _ = _
  rw [readItems_map readRef_members]
  cases groupings.mapM PropertyRef.reread <;> rfl

theorem readDocumentMembers_orderings (orderings : List DocumentOrdering) :
    readDocumentMembers (.ok ⟨typeId, typeName, properties, groupings, restrictions, [], none, none⟩)
        (listMember "orderings" (orderings.map DocumentOrdering.toJson) ++ rest) =
      orderings.mapM DocumentOrdering.reread >>= fun orderings =>
        readDocumentMembers
          (.ok ⟨typeId, typeName, properties, groupings, restrictions, orderings, none, none⟩) rest := by
  refine readDocumentMembers_list (by decide) (by decide) rfl ?_
  change readItems _ _ _ _ >>= _ = _
  rw [readItems_map readOrdering_toJson]
  cases orderings.mapM DocumentOrdering.reread <;> rfl

theorem readDocumentMembers_restrictions {nodes : List DocumentNode}
    (reads : readNodes (DocumentNode.toJsons nodes) = DocumentNode.rereadAll nodes) :
    readDocumentMembers (.ok ⟨typeId, typeName, properties, groupings, [], [], none, none⟩)
        (listMember "restrictions" (DocumentNode.toJsons nodes) ++ rest) =
      DocumentNode.rereadAll nodes >>= fun restrictions =>
        readDocumentMembers (.ok ⟨typeId, typeName, properties, groupings, restrictions, [], none, none⟩)
          rest := by
  cases nodes with
  | nil => rfl
  | cons node nodes =>
    rw [listMember, if_neg (by simp [DocumentNode.toJsons]), List.singleton_append, readDocumentMembers,
      show keyFor? documentKeys "restrictions" = some (Text.ofString "restrictions") by decide]
    simp only [↓reduceIte, Reading.ok, reads]

theorem readCount_ofInt {n : Int} (fits : IsInt64 n) (before : Option Int) :
    readCount before (.number (Text.ofInt n)) = .ok (some n) := by
  rw [readCount, int64?_ofInt fits.1 fits.2]

theorem readDocumentMembers_limit (fits : ∀ n ∈ limit, IsInt64 n) :
    readDocumentMembers (.ok ⟨typeId, typeName, properties, groupings, restrictions, orderings, none, none⟩)
        (countMember "limit" limit ++ rest) =
      readDocumentMembers
        (.ok ⟨typeId, typeName, properties, groupings, restrictions, orderings, limit, none⟩) rest := by
  cases limit with
  | none => rfl
  | some n =>
    refine readDocumentMembers_cons (.ok _) (by decide) (by decide) ?_
    change Except.ok (Reading.mk _ _) = _
    rw [readCount_ofInt (fits n rfl)]
    rfl

theorem readDocumentMembers_offset {offset : Option Int} (fits : ∀ n ∈ offset, IsInt64 n) :
    readDocumentMembers (.ok ⟨typeId, typeName, properties, groupings, restrictions, orderings, limit, none⟩)
        (countMember "offset" offset) =
      .ok (.ok ⟨typeId, typeName, properties, groupings, restrictions, orderings, limit, offset⟩) := by
  cases offset with
  | none => rfl
  | some n =>
    refine readDocumentMembers_cons (.ok _) (by decide) (by decide) ?_
    change Except.ok (Reading.mk _ _) = _
    rw [readCount_ofInt (fits n rfl)]
    rfl

end Documents

/-- A document is read back if its restrictions are. -/
theorem readDocument_of_nodes {ids : PropertyId → Prop} {document : Document} (legible : document.Legible ids)
    (reads : readNodes (DocumentNode.toJsons document.restrictions) =
      DocumentNode.rereadAll document.restrictions) :
    readDocument document.toJson = Reading.ok <$> document.reread := by
  obtain ⟨typeId, typeName, properties, groupings, restrictions, orderings, limit, offset⟩ := document
  obtain ⟨-, -, -, -, -, -, limited, skipped⟩ := legible
  simp only [toJson, readDocument, List.append_assoc, readDocumentMembers_typeId,
    readDocumentMembers_typeName, readDocumentMembers_properties, readDocumentMembers_groupings,
    readDocumentMembers_restrictions reads, readDocumentMembers_orderings, readDocumentMembers_limit limited, readDocumentMembers_offset skipped,
    Document.reread, map_bind, map_pure]
  rfl

section Arguments

variable {operator : Text} {items : List Json} {args : List Argument}

theorem readArguments_value {value : Value} (legible : value.Legible)
    (rest : readArguments operator items = Argument.rereadAll args) :
    readArguments operator (value.toJson :: items) = Argument.rereadAll (.value value :: args) := by
  rw [Argument.rereadAll, ← rest]
  cases value with
  | text t | bool b => rw [Value.toJson, readArguments]
  | int n =>
    rw [Value.toJson, readArguments, readNumber, int64?_ofInt legible.1 legible.2]
    rfl
  | unsigned _ | float _ | decimal _ | null => exact legible.elim

theorem readArguments_restriction {node : DocumentNode} (nested : nests operator = true)
    (reads : readNode node.toJson = node.reread)
    (rest : readArguments operator items = Argument.rereadAll args) :
    readArguments operator (node.toJson :: items) = Argument.rereadAll (.restriction node :: args) := by
  rw [Argument.rereadAll, ← rest, ← reads]
  obtain ⟨name, ref, arguments⟩ := node
  rw [nests] at nested
  rw [DocumentNode.toJson, readArguments]
  split at nested
  · next found => simp only [found, pure_bind]
  · next found => simp only [found, pure_bind]
  · cases nested

theorem readArguments_subquery {document : Document} (isIn : Operator.ofName? operator = some .isIn)
    (reads : readDocument document.toJson = Reading.ok <$> document.reread)
    (rest : readArguments operator items = Argument.rereadAll args) :
    readArguments operator (document.toJson :: items) = Argument.rereadAll (.subquery document :: args) := by
  rw [Argument.rereadAll, ← rest]
  obtain ⟨typeId, typeName, properties, groupings, restrictions, orderings, limit, offset⟩ := document
  rw [toJson] at reads ⊢
  simp only [readArguments, isIn, reads, bind_map_left, Reading.ok, ↓reduceIte, pure_bind]

end Arguments

mutual

theorem readNode_toJson {ids : PropertyId → Prop} : (node : DocumentNode) → node.Legible ids →
    readNode node.toJson = node.reread
  | ⟨_, ref, args⟩, ⟨_, _, all⟩ => readNode_of_arguments ref (readArguments_toJsons args all)

theorem readArguments_toJsons {ids : PropertyId → Prop} {operator : Text} : (args : List Argument) →
    Argument.AllLegible ids operator args →
    readArguments operator (Argument.toJsons args) = Argument.rereadAll args
  | [], _ => rfl
  | .value _ :: args, ⟨value, all⟩ => readArguments_value value (readArguments_toJsons args all)
  | .restriction node :: args, ⟨⟨nested, legible⟩, all⟩ =>
    readArguments_restriction nested (readNode_toJson node legible) (readArguments_toJsons args all)
  | .subquery document :: args, ⟨⟨isIn, legible⟩, all⟩ =>
    readArguments_subquery isIn (readDocument_toJson document legible) (readArguments_toJsons args all)

theorem readNodes_toJsons {ids : PropertyId → Prop} : (nodes : List DocumentNode) →
    DocumentNode.AllLegible ids nodes → readNodes (DocumentNode.toJsons nodes) = DocumentNode.rereadAll nodes
  | [], _ => rfl
  | node :: nodes, ⟨first, all⟩ => by
    rw [DocumentNode.toJsons, readNodes, DocumentNode.rereadAll, readNode_toJson node first,
      readNodes_toJsons nodes all]

theorem readDocument_toJson {ids : PropertyId → Prop} : (document : Document) → document.Legible ids →
    readDocument document.toJson = Reading.ok <$> document.reread
  | ⟨_, _, _, _, restrictions, _, _, _⟩, legible =>
    readDocument_of_nodes legible (readNodes_toJsons restrictions legible.2.2.2.2.1)

end

/-- What is read back from the text of a document, unless the text is nested too deep to be read. -/
theorem read_write {ids : PropertyId → Prop} {document : Document} (legible : document.Legible ids)
    (valid : ∀ id, ids id → id.text.isUtf8 = true) :
    read document.write =
      if document.toJson.nesting ≤ Json.maxNesting then document.reread else .error .undecodable := by
  rw [read, write, Json.indentedText, Json.parse?_write (document.writable valid legible)]
  by_cases shallow : document.toJson.nesting ≤ Json.maxNesting
  · simp only [shallow, ↓reduceIte, ofJson, readDocument_toJson document legible, bind_map_left, Reading.ok,
      bind_pure]
  · simp only [shallow, ↓reduceIte]

end Document

section Stable

variable {ids : PropertyId → Prop}

theorem PropertyRef.reread_eq_self {ref : PropertyRef}
    (stable : ∀ id, ids id → Document.readId id.toJson = .ok id) (legible : ref.Legible ids) :
    ref.reread = .ok ref := by
  rw [reread, stable _ legible.id]
  rfl

theorem SelectedProperty.reread_eq_self {property : SelectedProperty}
    (stable : ∀ id, ids id → Document.readId id.toJson = .ok id) (legible : property.Legible ids) :
    property.reread = .ok property := by
  rw [reread, PropertyRef.reread_eq_self stable legible.ref]
  rfl

theorem DocumentOrdering.reread_eq_self {ordering : DocumentOrdering}
    (stable : ∀ id, ids id → Document.readId id.toJson = .ok id) (legible : ordering.Legible ids) :
    ordering.reread = .ok ordering := by
  rw [reread, PropertyRef.reread_eq_self stable legible.ref]
  rfl

mutual

theorem DocumentNode.reread_eq_self (stable : ∀ id, ids id → Document.readId id.toJson = .ok id) :
    (node : DocumentNode) → node.Legible ids → node.reread = .ok node
  | ⟨_, _, args⟩, ⟨_, ref, all⟩ => by
    rw [DocumentNode.reread, PropertyRef.reread_eq_self stable ref,
      Argument.rereadAll_eq_self stable args all]
    rfl

theorem Argument.rereadAll_eq_self {operator : Text}
    (stable : ∀ id, ids id → Document.readId id.toJson = .ok id) :
    (args : List Argument) → Argument.AllLegible ids operator args → Argument.rereadAll args = .ok args
  | [], _ => rfl
  | .value _ :: args, ⟨_, all⟩ => by
    rw [Argument.rereadAll, Argument.rereadAll_eq_self stable args all]
    rfl
  | .restriction node :: args, ⟨⟨_, legible⟩, all⟩ => by
    rw [Argument.rereadAll, node.reread_eq_self stable legible,
      Argument.rereadAll_eq_self stable args all]
    rfl
  | .subquery document :: args, ⟨⟨_, legible⟩, all⟩ => by
    rw [Argument.rereadAll, document.reread_eq_self stable legible,
      Argument.rereadAll_eq_self stable args all]
    rfl

theorem DocumentNode.rereadAll_eq_self (stable : ∀ id, ids id → Document.readId id.toJson = .ok id) :
    (nodes : List DocumentNode) → DocumentNode.AllLegible ids nodes → DocumentNode.rereadAll nodes = .ok nodes
  | [], _ => rfl
  | node :: nodes, ⟨first, all⟩ => by
    rw [DocumentNode.rereadAll, node.reread_eq_self stable first,
      DocumentNode.rereadAll_eq_self stable nodes all]
    rfl

theorem Document.reread_eq_self (stable : ∀ id, ids id → Document.readId id.toJson = .ok id) :
    (document : Document) → document.Legible ids → document.reread = .ok document
  | ⟨_, _, _, _, restrictions, _, _, _⟩, ⟨_, _, properties, groupings, all, orderings, _, _⟩ => by
    rw [Document.reread,
      mapM_eq_self fun property member => SelectedProperty.reread_eq_self stable (properties property member),
      mapM_eq_self fun ref member => PropertyRef.reread_eq_self stable (groupings ref member),
      DocumentNode.rereadAll_eq_self stable restrictions all,
      mapM_eq_self fun ordering member => DocumentOrdering.reread_eq_self stable (orderings ordering member)]
    rfl

end

end Stable

/-- Joined by dots, the ids can be told apart again. -/
def PropertyId.Portable (id : PropertyId) : Prop :=
  ∀ segment ∈ id, segment ≠ [] ∧ Text.ascii '.' ∉ segment ∧ segment.isUtf8 = true

namespace PropertyId.Portable

variable {id : PropertyId}

instance : DecidablePred PropertyId.Portable := fun id =>
  inferInstanceAs (Decidable (∀ segment ∈ id, segment ≠ [] ∧ Text.ascii '.' ∉ segment ∧
    segment.isUtf8 = true))

theorem isUtf8 (portable : id.Portable) : id.text.isUtf8 = true :=
  Text.isUtf8_join (Text.isUtf8_ofString ".") fun segment member => (portable segment member).2.2

theorem parse_text (portable : id.Portable) : PropertyId.parse id.text = .ok id := by
  cases id with
  | nil => rfl
  | cons segment segments =>
    obtain ⟨⟨filled, undotted, -⟩, others⟩ := List.forall_mem_cons.mp portable
    have split : Text.splitOn (Text.ascii '.') (text (segment :: segments)) = segment :: segments := by
      rw [Text.splitOn, text, splitFirst_join undotted fun other member => (others other member).2.1]
    have allFilled : (segment :: segments).any (·.isEmpty) = false := by
      rw [List.any_eq_false]
      intro other member
      simpa using (portable other member).1
    have written : text (segment :: segments) ≠ [] := by
      intro empty
      rw [empty] at split
      exact filled (List.cons.inj split).1.symm
    simp only [parse, List.isEmpty_iff, written, split, allFilled, Bool.false_eq_true, ↓reduceIte]

theorem readId_toJson (portable : id.Portable) : Document.readId id.toJson = .ok id := by
  rw [Document.readId, PropertyId.toJson, PropertyId.ofJson, portable.parse_text]
  rfl

end PropertyId.Portable

/-- A document that JSON can carry with all its ids is read back from its text, unless the text is nested
too deep to be read. -/
theorem read_write_of_portable {document : Document} (legible : document.Legible PropertyId.Portable) :
    Document.read document.write =
      if document.toJson.nesting ≤ Json.maxNesting then .ok document else .error .undecodable := by
  rw [Document.read_write legible fun _ => PropertyId.Portable.isUtf8,
    document.reread_eq_self (fun _ => PropertyId.Portable.readId_toJson) legible]

/-- The owners, by name, of pigeons that are grey or have a ring of this year. -/
def ownerDocument : Document :=
  ⟨"t1", "acme.Pigeon",
    [⟨⟨["f3", "f1"], "owner.name"⟩, "Züchter <\"A&B\">", []⟩, ⟨⟨["f0"], "id"⟩, [], "COUNT"⟩],
    [⟨["f3", "f1"], "owner.name"⟩],
    [⟨"OR", {}, [
      .restriction ⟨"not", {}, [.restriction ⟨"ne", ⟨["f2"], []⟩, [.value (.text "gris\nfoncé")]⟩]⟩,
      .restriction ⟨"In", ⟨["f0"], "id"⟩,
        [.subquery ⟨[], "Ring", [⟨⟨[], "pigeon"⟩, [], []⟩], [],
          [⟨"eq", ⟨["r2"], "year"⟩, [.value (.int (-9223372036854775808)), .value (.bool false)]⟩], [],
          none, some 0⟩]⟩]⟩],
    [⟨⟨["f3", "f1"], []⟩, "DESC"⟩], some 5, none⟩

theorem owners_read : ownerDocument.Legible PropertyId.Portable ∧
    Document.read ownerDocument.write = .ok ownerDocument := by
  have legible : ownerDocument.Legible PropertyId.Portable := by decide
  refine ⟨legible, ?_⟩
  rw [read_write_of_portable legible, if_pos (by decide)]

/-- A condition that is negated so many times. -/
def negations : Nat → DocumentNode
  | 0 => ⟨"isnull", ⟨["f1"], []⟩, []⟩
  | n + 1 => ⟨"not", {}, [.restriction (negations n)]⟩

def negationsDocument (n : Nat) : Document :=
  ⟨[], "Pigeon", [⟨⟨["f1"], []⟩, [], []⟩], [], [negations n], [], none, none⟩

theorem legible_negations (n : Nat) : (negations n).Legible PropertyId.Portable := by
  induction n with
  | zero => exact ⟨by decide, by decide, trivial⟩
  | succ n ih => exact ⟨by decide, by decide, ⟨by decide, ih⟩, trivial⟩

theorem legible_negationsDocument (n : Nat) : (negationsDocument n).Legible PropertyId.Portable :=
  ⟨by decide, by decide, by decide, by decide, ⟨legible_negations n, trivial⟩, by decide, by decide,
    by decide⟩

theorem nesting_negations (n : Nat) : (negations n).toJson.nesting = 2 * n + 1 := by
  induction n with
  | zero => rfl
  | succ n ih =>
    have step : (negations (n + 1)).toJson.nesting =
        max 0 (max (max (negations n).toJson.nesting 0 + 1) 0) + 1 := rfl
    omega

theorem nesting_negationsDocument (n : Nat) : (negationsDocument n).toJson.nesting = 2 * n + 3 := by
  have step : (negationsDocument n).toJson.nesting =
      max 0 (max 2 (max (max (negations n).toJson.nesting 0 + 1) 0)) + 1 := rfl
  have nodes := nesting_negations n
  omega

/-- Nothing is wrong with a condition that is negated five thousand times but its depth. -/
theorem negations_refused : (negationsDocument 5000).Legible PropertyId.Portable ∧
    Document.read (negationsDocument 5000).write = .error .undecodable := by
  have legible := legible_negationsDocument 5000
  refine ⟨legible, ?_⟩
  rw [Document.read_write legible fun _ => PropertyId.Portable.isUtf8, nesting_negationsDocument]
  rfl

end RecordQuery
