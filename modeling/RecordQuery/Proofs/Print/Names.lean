import RecordQuery.Proofs.Print.Query

namespace RecordQuery

/-- The words of the language. -/
def reservedWords : List Text :=
  (["SELECT", "FROM", "WHERE", "GROUP", "ORDER", "BY", "LIMIT", "OFFSET"] : List Text) ++
    Operator.all.map Operator.symbol

namespace Text

def isLetter (b : UInt8) : Bool :=
  (ascii 'a' ≤ b && b ≤ ascii 'z') || (ascii 'A' ≤ b && b ≤ ascii 'Z')

/-- Letters, digits and underscores, a letter first. -/
def isIdentifier : Text → Bool
  | [] => false
  | b :: rest => isLetter b && rest.all fun c => isLetter c || isDigit c || c == ascii '_'

/-- Whether the language has this word, in any case. -/
def isReserved (w : Text) : Bool := reservedWords.any fun keyword => w.sameFold keyword

/-- Whether all segments of the path are identifiers that the language has not reserved. -/
def isDotted (path : Text) : Bool :=
  (path.splitOn (ascii '.')).all fun segment => segment.isIdentifier && !segment.isReserved

/-- The bytes of dotted names. -/
def isNameByte (b : UInt8) : Bool := isLetter b || isDigit b || b == ascii '_' || b == ascii '.'

theorem nameByte_low {b : UInt8} (name : isNameByte b = true) : b < 0x80 := by
  simp only [isNameByte, isLetter, isDigit, Bool.or_eq_true, Bool.and_eq_true, decide_eq_true_eq,
    beq_iff_eq, UInt8.le_iff_toNat_le] at name
  have bounds : b.toNat ≤ 122 := by
    rcases name with (((⟨-, high⟩ | ⟨-, high⟩) | ⟨-, high⟩) | rfl) | rfl
    · exact high
    · exact Nat.le_trans high (by decide)
    · exact Nat.le_trans high (by decide)
    · decide
    · decide
  exact UInt8.lt_iff_toNat_lt.mpr (by change b.toNat < 128; omega)

theorem isWordByte_of_isNameByte {b : UInt8} (name : isNameByte b = true) : isWordByte b = true := by
  have each : ∀ n : Fin 128, isNameByte (UInt8.ofNat n) = true → isWordByte (UInt8.ofNat n) = true := by
    decide
  have low : b.toNat < 128 := UInt8.lt_iff_toNat_lt.mp (nameByte_low name)
  have here := each ⟨b.toNat, low⟩
  rw [UInt8.ofNat_toNat] at here
  exact here name

theorem isNameByte_of_isIdentifier {w : Text} (identifier : w.isIdentifier = true) (member : b ∈ w) :
    isNameByte b = true := by
  cases w with
  | nil => cases member
  | cons first rest =>
    simp only [isIdentifier, Bool.and_eq_true, List.all_eq_true] at identifier
    rcases List.mem_cons.mp member with rfl | later
    · simp [isNameByte, identifier.1]
    · have other := identifier.2 b later
      simp only [isNameByte, other, Bool.true_or]

/-- A byte is a separator or stands in one of the parts. -/
theorem mem_splitOn {t : Text} (separator : UInt8) (member : b ∈ t) :
    b = separator ∨ ∃ part ∈ t.splitOn separator, b ∈ part := by
  induction t with
  | nil => cases member
  | cons first t ih =>
    simp only [splitOn, splitFirst, List.mem_cons, exists_eq_or_imp] at ih member ⊢
    by_cases same : first = separator
    · simp only [same, ↓reduceIte, List.mem_cons, exists_eq_or_imp, List.not_mem_nil, false_or]
      rcases member with rfl | later
      · exact .inl same
      · exact ih later
    · simp only [same, ↓reduceIte, List.mem_cons]
      rcases member with rfl | later
      · exact .inr (.inl (.inl rfl))
      · rcases ih later with here | inside | others
        · exact .inl here
        · exact .inr (.inl (.inr inside))
        · exact .inr (.inr others)

theorem splitOn_of_not_mem {t : Text} (without : separator ∉ t) : t.splitOn separator = [t] := by
  have whole : t.splitFirst separator = (t, []) := by
    induction t with
    | nil => rfl
    | cons first t ih =>
      have other : first ≠ separator := fun same => without (same ▸ .head _)
      rw [splitFirst, ih fun later => without (.tail _ later)]
      exact if_neg other
  rw [splitOn, whole]

variable {path : Text}

theorem isNameByte_of_isDotted (dotted : path.isDotted = true) (member : b ∈ path) :
    isNameByte b = true := by
  rcases mem_splitOn (ascii '.') member with rfl | ⟨part, among, inside⟩
  · decide
  · have segment := List.all_eq_true.mp dotted part among
    simp only [Bool.and_eq_true] at segment
    exact isNameByte_of_isIdentifier segment.1 inside

theorem isPlain_of_isDotted (dotted : path.isDotted = true) : path.isPlain = true := by
  have filled : path ≠ [] := by
    rintro rfl
    cases dotted
  have bytes : path.all isWordByte = true :=
    List.all_eq_true.mpr fun b member => isWordByte_of_isNameByte (isNameByte_of_isDotted dotted member)
  simp [isPlain, filled, bytes]

/-- A dotted name is no word of the language: it is a single segment or has a dot. -/
theorem sameFold_of_isDotted (dotted : path.isDotted = true) (reserved : w ∈ reservedWords) :
    path.sameFold w = false := by
  by_cases dot : ascii '.' ∈ path
  · have lacks : ∀ w ∈ reservedWords, foldCode (ascii '.').toNat ∉ w.codes.map foldCode := by decide
    exact sameFold_of_mem (fun b member => nameByte_low (isNameByte_of_isDotted dotted member)) dot
      (lacks w reserved)
  · rw [isDotted, splitOn_of_not_mem dot] at dotted
    simp only [List.all_cons, List.all_nil, Bool.and_true, Bool.and_eq_true, Bool.not_eq_true',
      isReserved, List.any_eq_false] at dotted
    simpa using dotted.2 w reserved

theorem isPath_of_isDotted (dotted : path.isDotted = true) : path.isPath = true := by
  have operator : Operator.ofSymbol? path = none := by
    refine ofSymbol?_of_ascii (fun b member => nameByte_low (isNameByte_of_isDotted dotted member)) ?_
    intro operator member
    exact sameFold_of_isDotted dotted (List.mem_append_right _ (List.mem_map_of_mem member))
  simp [isPath, isWord, isPlain_of_isDotted dotted, operator]

theorem opensClause_of_isDotted (dotted : path.isDotted = true) : path.opensClause = false := by
  simp only [opensClause, Bool.or_eq_false_iff]
  exact ⟨⟨sameFold_of_isDotted dotted (by decide), sameFold_of_isDotted dotted (by decide)⟩,
    sameFold_of_isDotted dotted (by decide)⟩

theorem not_isSigned_of_isDotted (dotted : path.isDotted = true) : path.isSigned = false :=
  not_isSigned_of_isPlain (isPlain_of_isDotted dotted)

theorem isWord_of_isDotted (dotted : path.isDotted = true) : path.isWord = true := by
  simp [isWord, isPlain_of_isDotted dotted]

end Text

/-- All names of a query, its restriction apart, are dotted. -/
structure Criteria.NamedFrame (criteria : Criteria) : Prop where
  type : criteria.type.name.isDotted = true
  properties : ∀ path ∈ criteria.properties, path.isDotted = true
  aggregates : ∀ call ∈ criteria.aggregates, call.property.isDotted = true
  groupBy : ∀ path ∈ criteria.groupBy, path.isDotted = true
  orderBy : ∀ key ∈ criteria.orderBy, key.property.isDotted = true

/-- The path of a leaf is dotted, and its values are texts without zero bytes. -/
def Restriction.NamedLeaf : Restriction → Prop
  | .comparison _ path value => path.isDotted = true ∧ value.IsQuotable
  | .isNull path | .inQuery path _ => path.isDotted = true
  | .inValues path values => path.isDotted = true ∧ ∀ value ∈ values, value.IsQuotable
  | .missing | .junction _ _ | .not _ => False

/-- All names in a query and its subqueries are dotted, and all values are texts. -/
def Criteria.Named (criteria : Criteria) : Prop :=
  criteria.Holds Criteria.NamedFrame fun _ leaf => leaf.NamedLeaf

section Named

variable {criteria : Criteria} {schema : Schema} {packages : Packages} {leaf : Restriction}

theorem spelledKeys_of_isDotted {keys : List Text} (dotted : ∀ key ∈ keys, key.isDotted = true) :
    SpelledKeys keys :=
  ⟨fun key member => Text.isWord_of_isDotted (dotted key member),
    fun key member => Text.opensClause_of_isDotted (dotted key member),
    fun key first => Text.not_isSigned_of_isDotted (dotted key (List.mem_of_mem_head? first))⟩

theorem Criteria.NamedFrame.spelled (named : criteria.NamedFrame)
    (frames : schema.Frames packages criteria) : criteria.SpelledFrame := by
  have star : Text.isDotted Query.wildcardText = false := by decide
  refine ⟨Text.isWord_of_isDotted named.type, frames.selects, ?_, ?_, ?_, ?_, ?_,
    spelledKeys_of_isDotted named.groupBy, ?_, ?_, ?_⟩
  · intro path member
    exact Text.isWord_of_isDotted (named.properties path member)
  · intro member
    cases star.symm.trans (named.properties _ member)
  · intro call member
    exact Text.isWord_of_isDotted (named.aggregates call member)
  · intro call member _ same
    have dotted := named.aggregates call member
    rw [same, star] at dotted
    cases dotted
  · intro call member
    obtain ⟨_, all⟩ := frames.aggregates
    exact (all call member).1
  · apply spelledKeys_of_isDotted
    simpa using named.orderBy
  · intro count member
    exact (frames.limit count member).1
  · intro count member
    exact (frames.offset count member).1

theorem Criteria.NamedFrame.placed (named : criteria.NamedFrame) : criteria.PlacedFrame := by
  refine ⟨Text.not_isSigned_of_isDotted named.type, ?_, ?_, ?_⟩
  · intro path first
    exact Text.not_isSigned_of_isDotted (named.properties path (List.mem_of_mem_head? first))
  · intro path member
    exact Text.sameFold_of_isDotted (named.properties path member) (by decide)
  · intro _ _ _ key final
    have dotted := named.groupBy key (List.mem_of_getLast? final)
    exact ⟨Text.sameFold_of_isDotted dotted (by decide), Text.sameFold_of_isDotted dotted (by decide)⟩

theorem Restriction.NamedLeaf.spelled (named : leaf.NamedLeaf) : leaf.SpelledLeaf := by
  cases leaf with
  | comparison comparator path value => exact ⟨Text.isPath_of_isDotted named.1, named.2⟩
  | isNull path => exact Text.isPath_of_isDotted named
  | inValues path values => exact ⟨Text.isPath_of_isDotted named.1, named.2⟩
  | inQuery path query => exact Text.isPath_of_isDotted named
  | _ => exact named.elim

theorem Restriction.NamedLeaf.placed (named : leaf.NamedLeaf) (place : Place) :
    leaf.PlacedLeaf place := by
  have fits : ∀ path : Text, path.isDotted = true → path.Fits place := fun path dotted =>
    ⟨fun _ => Text.not_isSigned_of_isDotted dotted, fun _ => Text.opensClause_of_isDotted dotted⟩
  intro path property
  cases leaf with
  | comparison comparator other value =>
    cases property
    exact fits path named.1
  | isNull other =>
    cases property
    exact fits path named
  | inValues other values =>
    cases property
    exact fits path named.1
  | inQuery other query =>
    cases property
    exact fits path named
  | _ => cases property

end Named

section Accepted

variable {schema : Schema} {packages : Packages} {frame other : Criteria → Prop}
  {leaf better : Place → Restriction → Prop}

/-- In queries that make sense, the first conditions imply the others query by query and leaf by
leaf. -/
structure Entails (schema : Schema) (packages : Packages) (frame other : Criteria → Prop)
    (leaf better : Place → Restriction → Prop) : Prop where
  frames : ∀ criteria, schema.Frames packages criteria → frame criteria → other criteria
  leaves : ∀ place restriction, leaf place restriction → better place restriction

mutual

theorem Restriction.Holds.entailed (entails : Entails schema packages frame other leaf better)
    (place : Place) (type : RecordType) :
    (restriction : Restriction) → schema.Admits packages type restriction →
      restriction.Holds frame leaf place → restriction.Holds other better place
  | .missing, _, holds => entails.leaves _ _ holds
  | .comparison _ _ _, _, holds => entails.leaves _ _ holds
  | .isNull _, _, holds => entails.leaves _ _ holds
  | .inValues _ _, _, holds => entails.leaves _ _ holds
  | .inQuery _ query, admitted, holds =>
    ⟨entails.leaves _ _ holds.1, Criteria.Holds.entailed entails query admitted.2.2 holds.2⟩
  | .junction _ children, admitted, holds =>
    Restriction.HoldsAll.entailed entails place.first type children admitted.2 holds
  | .not child, admitted, holds =>
    Restriction.Holds.entailed entails place.next type child admitted holds

theorem Restriction.HoldsAll.entailed (entails : Entails schema packages frame other leaf better)
    (place : Place) (type : RecordType) :
    (children : List Restriction) → schema.AdmitsAll packages type children →
      Restriction.HoldsAll frame leaf place children → Restriction.HoldsAll other better place children
  | [], _, _ => trivial
  | child :: children, admitted, holds =>
    ⟨Restriction.Holds.entailed entails place type child admitted.1 holds.1,
      Restriction.HoldsAll.entailed entails place.next type children admitted.2 holds.2⟩

theorem Criteria.Holds.entailed (entails : Entails schema packages frame other leaf better) :
    (criteria : Criteria) → schema.Accepts packages criteria → criteria.Holds frame leaf →
      criteria.Holds other better
  | ⟨_, _, _, none, _, _, _, _, _, _⟩, accepted, holds => entails.frames _ accepted holds
  | ⟨_, _, _, some restriction, _, _, _, _, _, _⟩, accepted, holds =>
    ⟨entails.frames _ accepted.1 holds.1,
      Restriction.Holds.entailed entails .clause _ restriction accepted.2 holds.2⟩

end

end Accepted

section Named

variable {criteria : Criteria} {schema : Schema} {packages : Packages}

theorem Criteria.Named.spelled (named : criteria.Named) (accepted : schema.Accepts packages criteria) :
    criteria.Spelled :=
  Criteria.Holds.entailed ⟨fun _ frames named => named.spelled frames, fun _ _ named => named.spelled⟩
    criteria accepted named

theorem Criteria.Named.placed (named : criteria.Named) (accepted : schema.Accepts packages criteria) :
    criteria.Placed :=
  Criteria.Holds.entailed ⟨fun _ _ named => named.placed, fun place _ named => named.placed place⟩
    criteria accepted named

end Named

end RecordQuery
