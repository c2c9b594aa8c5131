import RecordQuery.Proofs.Criteria.Accepted
import RecordQuery.Proofs.Success
import RecordQuery.Query.Binding

namespace RecordQuery.Query

variable {schema : Schema} {type : RecordType}

theorem bindPath_eq_ok_iff : bindPath schema type token = .ok field ↔
    ∃ route, schema.walk type token.text = .ok route ∧ route.leaf.kind.isCollection = false ∧
      route.leaf = field := by
  simp only [bindPath, bind_eq_ok, guard_eq_ok, mapError_eq_ok, pure_eq_ok, Bool.not_eq_true]

theorem hasKey_iff_bindPath : schema.HasKey type token.text ↔
    ∃ field, bindPath schema type token = .ok field := by
  simp only [bindPath_eq_ok_iff, Schema.HasKey]
  constructor
  · rintro ⟨route, walked, single⟩
    exact ⟨route.leaf, route, walked, single, rfl⟩
  · rintro ⟨_, route, walked, single, _⟩
    exact ⟨route, walked, single⟩

theorem bindItem_eq_ok_iff : bindItem schema type item = .ok selected ↔
    ∃ path route, item.path type = .ok path ∧ schema.walk type path = .ok route ∧
      route.leaf.kind.isPrimitive = true ∧
      match item with
      | .property _ | .wildcard _ => selected = .property path
      | .aggregate function _ => checkAggregate function path route.leaf = .ok () ∧
          selected = .aggregate ⟨function, path⟩ route.isCollection := by
  simp only [bindItem, bind_eq_ok, guard_eq_ok, mapError_eq_ok, Bool.not_eq_true, Bool.not_eq_false']
  cases item with
  | property token =>
    simp only [pure_eq_ok]
    constructor
    · rintro ⟨path, named, route, walked, single, rfl⟩
      exact ⟨path, route, named, walked, single, rfl⟩
    · rintro ⟨path, route, named, walked, single, rfl⟩
      exact ⟨path, named, route, walked, single, rfl⟩
  | wildcard token =>
    simp only [pure_eq_ok]
    constructor
    · rintro ⟨path, named, route, walked, single, rfl⟩
      exact ⟨path, route, named, walked, single, rfl⟩
    · rintro ⟨path, route, named, walked, single, rfl⟩
      exact ⟨path, named, route, walked, single, rfl⟩
  | aggregate function token =>
    simp only [bind_eq_ok, mapError_eq_ok, pure_eq_ok]
    constructor
    · rintro ⟨path, named, route, walked, single, _, checked, rfl⟩
      exact ⟨path, route, named, walked, single, checked, rfl⟩
    · rintro ⟨path, route, named, walked, single, checked, rfl⟩
      exact ⟨path, named, route, walked, single, (), checked, rfl⟩

/-- The aggregates of a select list, and those before it, are all over collections or none is. -/
def Unmixed (seen : Option Bool) (selected : List Selected) : Prop :=
  ∃ overCollection, (∀ before ∈ seen, before = overCollection) ∧
    ∀ call kind, .aggregate call kind ∈ selected → kind = overCollection

theorem checkMixing_eq_ok_iff : checkMixing seen item selected = .ok next ↔
    match selected with
    | .property _ => seen = next
    | .aggregate _ kind => (∀ before ∈ seen, before = kind) ∧ some kind = next := by
  cases selected with
  | property path => simp [checkMixing]
  | aggregate call kind =>
    cases seen with
    | none => simp [checkMixing]
    | some before => by_cases same : before = kind <;> simp [checkMixing, same]

theorem bindSelect_eq_ok_iff : bindSelect schema type seen items = .ok selected ↔
    List.Forall₂ (fun item entry => bindItem schema type item = .ok entry) items selected ∧
      Unmixed seen selected := by
  induction items generalizing seen selected with
  | nil =>
    cases selected with
    | nil =>
      have unmixed : Unmixed seen [] := by
        cases seen with
        | none => exact ⟨true, by simp, by simp⟩
        | some before => exact ⟨before, by simp, by simp⟩
      simp [bindSelect, unmixed]
    | cons entry selected => simp [bindSelect]
  | cons item items ih =>
    simp only [bindSelect, bind_eq_ok, pure_eq_ok, checkMixing_eq_ok_iff, ih]
    constructor
    · rintro ⟨entry, bound, next, allowed, others, ⟨all, overCollection, before, kinds⟩, rfl⟩
      refine ⟨.cons bound all, overCollection, ?_, ?_⟩
      · cases entry with
        | property path =>
          cases allowed
          exact before
        | aggregate call kind =>
          obtain ⟨same, rfl⟩ := allowed
          obtain rfl := before kind rfl
          exact same
      · intro call kind member
        rcases List.mem_cons.mp member with rfl | later
        · obtain ⟨-, rfl⟩ := allowed
          exact before kind rfl
        · exact kinds call kind later
    · rintro ⟨all, overCollection, before, kinds⟩
      cases all with
      | @cons _ entry _ others bound all =>
        have later : ∀ call kind, .aggregate call kind ∈ others → kind = overCollection :=
          fun call kind member => kinds call kind (.tail _ member)
        cases entry with
        | property path =>
          exact ⟨_, bound, seen, rfl, others, ⟨all, overCollection, before, later⟩, rfl⟩
        | aggregate call kind =>
          obtain rfl := kinds call kind (.head _)
          exact ⟨_, bound, some kind, ⟨before, rfl⟩, others, ⟨all, kind, by simp, later⟩, rfl⟩

theorem Keys.check_eq_ok_iff {keys : Keys α} {check : α → Except QueryError Unit} :
    keys.check check = .ok listed ↔
      (∀ key ∈ keys.keys, check key = .ok ()) ∧ keys.failure = none ∧ keys.keys = listed := by
  rw [Keys.check, bind_eq_ok]
  constructor
  · rintro ⟨_, all, rest⟩
    refine ⟨list_forM_eq_ok.mp all, ?_⟩
    cases failure : keys.failure with
    | some failure =>
      rw [failure] at rest
      cases rest
    | none =>
      rw [failure] at rest
      exact ⟨rfl, pure_eq_ok.mp rest⟩
  · rintro ⟨all, unfailed, rfl⟩
    refine ⟨(), list_forM_eq_ok.mpr all, ?_⟩
    rw [unfailed]
    rfl

theorem ignored_eq_ok {step : Except ε α} :
    (do let _ ← step : Except ε Unit) = .ok () ↔ ∃ value, step = .ok value := by
  cases step <;> simp [bind, Except.bind, pure, Except.pure]

theorem bindGroupKeys_eq_ok_iff : bindGroupKeys schema type keys = .ok groupBy ↔
    (∀ token ∈ keys.keys, schema.HasKey type token.text) ∧ keys.failure = none ∧
      (keys.keys.map (·.text)).eraseDups = groupBy := by
  rw [bindGroupKeys, bind_eq_ok]
  simp only [Keys.check_eq_ok_iff, ignored_eq_ok, ← hasKey_iff_bindPath, pure_eq_ok]
  constructor
  · rintro ⟨_, ⟨all, unfailed, rfl⟩, rfl⟩
    exact ⟨all, unfailed, rfl⟩
  · rintro ⟨all, unfailed, rfl⟩
    exact ⟨_, ⟨all, unfailed, rfl⟩, rfl⟩

theorem bindSortKeys_eq_ok_iff : bindSortKeys schema type keys = .ok orderBy ↔
    (∀ key ∈ keys.keys, schema.HasKey type key.1.text) ∧ keys.failure = none ∧
      keys.keys.map (fun (token, direction) => ⟨token.text, direction⟩) = orderBy := by
  rw [bindSortKeys, bind_eq_ok]
  simp only [Keys.check_eq_ok_iff, ignored_eq_ok, ← hasKey_iff_bindPath, pure_eq_ok]
  constructor
  · rintro ⟨_, ⟨all, unfailed, rfl⟩, rfl⟩
    exact ⟨all, unfailed, rfl⟩
  · rintro ⟨all, unfailed, rfl⟩
    exact ⟨_, ⟨all, unfailed, rfl⟩, rfl⟩

theorem mem_visitAll_iff : node ∈ Restriction.visitAll enter children ↔
    ∃ child ∈ children, node ∈ child.visit enter := by
  induction children with
  | nil => simp [Restriction.visitAll]
  | cons child children ih => simp [Restriction.visitAll, ih]

theorem checkRestriction_eq_ok : checkRestriction schema type restriction = .ok () ↔
    ∀ node ∈ restriction.visit fun _ => true, checkLeaf schema type node = .ok () := by
  rw [checkRestriction, list_forM_eq_ok]

/-- The check of a leaf other than a subquery. -/
theorem checkLeaf_eq_ok_iff (leaf : node.property? = some path)
    (plain : ∀ property query, node ≠ .inQuery property query) :
    checkLeaf schema type node = .ok () ↔ schema.HasKey type path := by
  have word : path = (⟨.word, path, none⟩ : Token).text := rfl
  rw [word, hasKey_iff_bindPath, checkLeaf, leaf]
  cases node with
  | inQuery property query => exact absurd rfl (plain property query)
  | _ => exact ignored_eq_ok

theorem checkLeaf_inQuery_eq_ok_iff :
    checkLeaf schema type (.inQuery path query) = .ok () ↔ schema.Compares type path query := by
  simp only [checkLeaf, Restriction.property?, bind_eq_ok, bindPath_eq_ok_iff, mapError_eq_ok,
    Schema.Compares]
  constructor
  · rintro ⟨_, ⟨route, walked, single, rfl⟩, checked⟩
    exact ⟨route, walked, single, checked⟩
  · rintro ⟨route, walked, single, checked⟩
    exact ⟨_, ⟨route, walked, single, rfl⟩, checked⟩

/-- A restriction is checked leaf by leaf. -/
theorem checkRestriction_eq_ok_iff : checkRestriction schema type restriction = .ok () ↔
    match restriction with
    | .missing => True
    | .comparison _ path _ | .isNull path | .inValues path _ => schema.HasKey type path
    | .inQuery path query => schema.Compares type path query
    | .junction _ children => ∀ child ∈ children, checkRestriction schema type child = .ok ()
    | .not child => checkRestriction schema type child = .ok () := by
  simp only [checkRestriction_eq_ok]
  cases restriction with
  | missing => simp [Restriction.visit]
  | comparison comparator path value =>
    simp only [Restriction.visit, List.mem_singleton, forall_eq]
    exact checkLeaf_eq_ok_iff rfl (by simp)
  | isNull path =>
    simp only [Restriction.visit, List.mem_singleton, forall_eq]
    exact checkLeaf_eq_ok_iff rfl (by simp)
  | inValues path values =>
    simp only [Restriction.visit, List.mem_singleton, forall_eq]
    exact checkLeaf_eq_ok_iff rfl (by simp)
  | inQuery path query =>
    simp only [Restriction.visit, List.mem_singleton, forall_eq]
    exact checkLeaf_inQuery_eq_ok_iff
  | junction connective children =>
    simp only [Restriction.visit, ↓reduceIte, List.forall_mem_cons, mem_visitAll_iff]
    constructor
    · rintro ⟨-, all⟩ child member node inside
      exact all node ⟨child, member, inside⟩
    · intro all
      refine ⟨rfl, ?_⟩
      rintro node ⟨child, member, inside⟩
      exact all child member node inside
  | not child =>
    simp only [Restriction.visit, ↓reduceIte, List.forall_mem_cons]
    exact and_iff_right rfl

mutual

/-- A restriction that makes sense passes the check. -/
theorem checkRestriction_of_admits : (restriction : Restriction) →
    schema.Admits packages type restriction → checkRestriction schema type restriction = .ok ()
  | .missing, admitted => admitted.elim
  | .comparison _ _ _, admitted => checkRestriction_eq_ok_iff.mpr admitted
  | .isNull _, admitted => checkRestriction_eq_ok_iff.mpr admitted
  | .inValues _ _, admitted => checkRestriction_eq_ok_iff.mpr admitted.1
  | .inQuery _ _, admitted => checkRestriction_eq_ok_iff.mpr admitted.1
  | .junction _ children, admitted =>
    checkRestriction_eq_ok_iff.mpr (checkRestriction_of_admitsAll children admitted.2)
  | .not child, admitted =>
    checkRestriction_eq_ok_iff.mpr (checkRestriction_of_admits child admitted)

theorem checkRestriction_of_admitsAll : (children : List Restriction) →
    schema.AdmitsAll packages type children →
      ∀ child ∈ children, checkRestriction schema type child = .ok ()
  | [], _ => by simp
  | child :: children, admitted => by
    rw [List.forall_mem_cons]
    exact ⟨checkRestriction_of_admits child admitted.1, checkRestriction_of_admitsAll children admitted.2⟩

end

end RecordQuery.Query
