import RecordQuery.Proofs.Schema.Identity
import RecordQuery.Schema.Declarations

namespace RecordQuery

mutual

/-- No part of the formula is missing. -/
def Formula.Whole : Formula → Prop
  | .missing => False
  | .field _ | .text _ => True
  | .concat parts => Formula.WholeAll parts

def Formula.WholeAll : List Formula → Prop
  | [] => True
  | part :: parts => part.Whole ∧ Formula.WholeAll parts

end

theorem Formula.wholeAll_iff {parts : List Formula} :
    Formula.WholeAll parts ↔ ∀ part ∈ parts, part.Whole := by
  induction parts with
  | nil => simp [WholeAll]
  | cons part parts ih => simp [WholeAll, ih]

/-- The field has no formula, or a whole one. -/
def Field.FormulaWhole (field : Field) : Prop := field.formula.isMissing = false → field.formula.Whole

namespace Declarations

theorem whole_of_part? (found : part? value = some part) : part.Whole := by
  iterate 3 obtain ⟨_, -, found⟩ := Option.bind_eq_some_iff.mp found
  cases found
  split <;> trivial

theorem formula_cases {parts : List Formula} (each : ∀ part ∈ parts, part.Whole) :
    (formula parts).isMissing = true ∨ (formula parts).Whole := by
  match parts with
  | [] => exact .inl rfl
  | [part] => exact .inr (each part (.head _))
  | first :: second :: others => exact .inr (Formula.wholeAll_iff.mpr each)

theorem formulaWhole_of_field? (found : field? value = some (field, kind)) : field.FormulaWhole := by
  obtain ⟨entries, -, found⟩ := Option.bind_eq_some_iff.mp found
  obtain ⟨items, -, found⟩ := Option.bind_eq_some_iff.mp found
  obtain ⟨parts, read, found⟩ := Option.bind_eq_some_iff.mp found
  -- The ten texts that follow have no part in the formula.
  iterate 10 obtain ⟨_, -, found⟩ := Option.bind_eq_some_iff.mp found
  cases found
  intro given
  have whole : ∀ part ∈ parts, part.Whole := by
    intro part member
    obtain ⟨item, -, made⟩ := exists_of_mapM_eq_some read member
    exact whole_of_part? made
  exact (formula_cases whole).resolve_left (by simp [given])

theorem fields_of_type? (found : type? value = some (type, fields)) :
    ∀ entry ∈ fields, entry.1.FormulaWhole := by
  obtain ⟨entries, -, found⟩ := Option.bind_eq_some_iff.mp found
  iterate 5 obtain ⟨_, -, found⟩ := Option.bind_eq_some_iff.mp found
  obtain ⟨items, -, found⟩ := Option.bind_eq_some_iff.mp found
  obtain ⟨read, reads, found⟩ := Option.bind_eq_some_iff.mp found
  cases found
  intro entry member
  obtain ⟨item, -, made⟩ := exists_of_mapM_eq_some reads member
  exact formulaWhole_of_field? made

theorem fields_of_types? (found : types? value = some entries) :
    ∀ entry ∈ entries, ∀ source ∈ entry.2, source.1.FormulaWhole := by
  unfold types? at found
  split at found
  · cases found
    exact List.forall_mem_nil _
  · obtain ⟨_, -, found⟩ := Option.bind_eq_some_iff.mp found
    obtain ⟨items, -, found⟩ := Option.bind_eq_some_iff.mp found
    intro entry member
    obtain ⟨item, -, made⟩ := exists_of_mapM_eq_some found member
    exact fields_of_type? made

theorem formulaWhole_of_withKind (made : withKind type field kindName = .ok changed)
    (whole : field.FormulaWhole) : changed.FormulaWhole := by
  unfold withKind at made
  split at made
  · cases made
  · cases made
    intro given
    split at given
    · rename_i isFormula
      rw [if_pos isFormula]
      exact whole given
    · cases given

/-- Whatever is read has whole formulas. -/
theorem formulaWhole_of_read (made : read text = .ok declared) :
    ∀ type ∈ declared, ∀ field ∈ type.fields, field.FormulaWhole := by
  unfold read at made
  split at made
  · cases made
  · rename_i entries found
    obtain ⟨value, -, found⟩ := Option.bind_eq_some_iff.mp found
    intro type member field owned
    have all := list_mapM_eq_ok.mp (mapError_eq_ok.mp made)
    obtain ⟨⟨type', fields⟩, listed, withFields⟩ := forall₂_mem_right all member
    obtain ⟨changed, made, same⟩ := bind_eq_ok.mp withFields
    obtain rfl := pure_eq_ok.mp same
    obtain ⟨⟨source, kind⟩, inside, withKind⟩ := forall₂_mem_right (list_mapM_eq_ok.mp made) owned
    apply formulaWhole_of_withKind withKind
    exact fields_of_types? found _ listed _ inside

end Declarations

namespace Schema

variable {schema : Schema} {declared : List RecordType}

/-- What a field says of other types and fields is so. -/
structure Linked (schema : Schema) (owner : RecordType) (field : Field) : Prop where
  target : field.kind.isRelationship = true → ∃ target, schema.typeNamed? field.target = some target ∧
    (field.kind = .inverse → ∃ back, target.field? field.inverse = some back)
  linking : field.kind = .association → ∃ link, schema.typeNamed? field.linking = some link ∧
    (∃ self, link.field? field.linkSelf = some self) ∧
    ∃ foreign, link.field? field.linkForeign = some foreign
  formula : field.kind = .formula → field.formula.isMissing = false ∧ checkFormula owner field.formula = .ok ()

theorem exists_of_checkLink (checked : checkLink link name type = .ok ()) :
    ∃ field, link.field? name = some field := by
  unfold checkLink at checked
  split at checked
  · rename_i found
    obtain ⟨field, named, -⟩ := (Option.any_eq_true _ _).mp found
    exact ⟨field, named⟩
  · cases checked

theorem linked_of_checkKind (checked : schema.checkKind owner field = .ok ()) : schema.Linked owner field := by
  cases kind : field.kind
  case reference =>
    simp only [checkKind, kind] at checked
    split at checked
    · rename_i target known
      exact ⟨fun _ => ⟨target, known, by simp [kind]⟩, by simp [kind], by simp [kind]⟩
    · cases checked
  case inverse =>
    simp only [checkKind, kind] at checked
    split at checked
    · rename_i target known
      split at checked
      · rename_i leadsBack
        obtain ⟨back, found, -⟩ := (Option.any_eq_true _ _).mp leadsBack
        exact ⟨fun _ => ⟨target, known, fun _ => ⟨back, found⟩⟩, by simp [kind], by simp [kind]⟩
      · cases checked
    · cases checked
  case association =>
    simp only [checkKind, kind] at checked
    split at checked
    · rename_i target known
      split at checked
      · rename_i link linked
        obtain ⟨_, self, foreign⟩ := bind_eq_ok.mp checked
        exact ⟨fun _ => ⟨target, known, by simp [kind]⟩,
          fun _ => ⟨link, linked, exists_of_checkLink self, exists_of_checkLink foreign⟩, by simp [kind]⟩
      · cases checked
    · cases checked
  case formula =>
    simp only [checkKind, kind] at checked
    obtain ⟨given, checked⟩ := guard_eq_ok.mp checked
    exact ⟨by simp [kind, Kind.isRelationship], by simp [kind], fun _ => ⟨by simpa using given, checked⟩⟩
  all_goals exact ⟨by simp [kind, Kind.isRelationship], by simp [kind], by simp [kind]⟩

theorem checkFields_kinds (checked : checkFields schema owner before fields = .ok ()) :
    ∀ field ∈ fields, schema.checkKind owner field = .ok () := by
  induction fields generalizing before with
  | nil => exact List.forall_mem_nil _
  | cons field fields ih =>
    rw [checkFields] at checked
    obtain ⟨-, checked⟩ := guard_eq_ok.mp checked
    obtain ⟨-, checked⟩ := guard_eq_ok.mp checked
    obtain ⟨_, kind, checked⟩ := bind_eq_ok.mp checked
    exact List.forall_mem_cons.mpr ⟨mapError_eq_ok.mp kind, ih checked⟩

theorem checkType_of_build (built : build declared = .ok schema) (member : type ∈ schema.types) :
    schema.checkType type = .ok () := by
  obtain ⟨all, -, built⟩ := bind_eq_ok.mp built
  obtain ⟨_, checked, same⟩ := bind_eq_ok.mp built
  obtain rfl := pure_eq_ok.mp same
  exact checkTypes_eq_ok checked member

theorem checkKind_of_build (built : build declared = .ok schema) :
    ∀ type ∈ schema.types, ∀ field ∈ type.fields, schema.checkKind type field = .ok () := by
  intro type member field owned
  obtain ⟨_, fields, -⟩ := bind_eq_ok.mp (checkType_of_build built member)
  exact checkFields_kinds fields field owned

theorem linked_of_build (built : build declared = .ok schema) :
    ∀ type ∈ schema.types, ∀ field ∈ type.fields, schema.Linked type field :=
  fun type member field owned => linked_of_checkKind (checkKind_of_build built type member field owned)

/-- Everything that statements are made of is there. -/
structure Renderable (schema : Schema) : Prop where
  linked : ∀ type ∈ schema.types, ∀ field ∈ type.fields, schema.Linked type field
  formulas : ∀ type ∈ schema.types, ∀ field ∈ type.fields, field.FormulaWhole

theorem renderable_of_load (loaded : Declarations.load text = .ok schema) : schema.Renderable := by
  obtain ⟨declared, read, built⟩ := bind_eq_ok.mp loaded
  have built := mapError_eq_ok.mp built
  exact ⟨linked_of_build built,
    fields_of_build built (Declarations.formulaWhole_of_read read) fun _ given => nomatch given⟩

end Schema
end RecordQuery
