import Mathlib.Data.List.Forall2
import RecordQuery.Text

namespace RecordQuery

variable {ε δ α β γ : Type}

theorem bind_eq_ok {step : Except ε α} {next : α → Except ε β} :
    step >>= next = .ok result ↔ ∃ value, step = .ok value ∧ next value = .ok result := by
  cases step with
  | error error => simp [bind, Except.bind]
  | ok value => simp [bind, Except.bind]

theorem ok_bind (value : α) (next : α → Except ε β) : Except.ok value >>= next = next value := rfl

theorem exists_bind_eq_ok {step : Except ε α} {next : α → Except ε β} (first : ∃ value, step = .ok value)
    (second : ∀ value, ∃ result, next value = .ok result) : ∃ result, step >>= next = .ok result := by
  obtain ⟨value, made⟩ := first
  obtain ⟨result, rest⟩ := second value
  exact ⟨result, bind_eq_ok.mpr ⟨value, made, rest⟩⟩

theorem pure_eq_ok {value : α} : (pure value : Except ε α) = .ok result ↔ value = result := by
  simp [pure, Except.pure]

/-- A step that only checks. -/
theorem guard_eq_ok {wrong : Prop} [Decidable wrong] {error : ε} {skipped : α → Except ε β}
    {next : Except ε β} :
    (if wrong then throw error >>= skipped else next) = .ok result ↔
      ¬ wrong ∧ next = .ok result := by
  by_cases holds : wrong
  · simp [holds, bind, Except.bind, throw, throwThe, MonadExceptOf.throw]
  · simp [holds]

theorem checked_eq_ok {step : Except ε α} {check : α → Except ε Unit} :
    (do let value ← step; check value; return value) = .ok result ↔
      step = .ok result ∧ check result = .ok () := by
  simp only [bind_eq_ok, pure_eq_ok]
  constructor
  · rintro ⟨value, made, _, checked, rfl⟩
    exact ⟨made, checked⟩
  · rintro ⟨made, checked⟩
    exact ⟨result, made, (), checked, rfl⟩

theorem exists_ok_of_toBool {step : Except ε α} (succeeds : step.toBool = true) :
    ∃ value, step = .ok value := by
  cases step with
  | error error => cases succeeds
  | ok value => exact ⟨value, rfl⟩

theorem toOption_eq_some {step : Except ε α} : step.toOption = some value ↔ step = .ok value := by
  cases step <;> simp [Except.toOption]

theorem map_eq_ok {step : Except ε α} {change : α → β} :
    step.map change = .ok result ↔ ∃ value, step = .ok value ∧ change value = result := by
  cases step <;> simp [Except.map]

theorem mapError_eq_ok {step : Except ε α} {change : ε → δ} :
    step.mapError change = .ok result ↔ step = .ok result := by
  cases step <;> simp [Except.mapError]

theorem option_mapM_eq_ok {step : α → Except ε β} {value : Option α} {result : Option β} :
    value.mapM step = .ok result ↔
      Option.Rel (fun value result => step value = .ok result) value result := by
  cases value with
  | none => cases result <;> simp [pure_eq_ok]
  | some value => cases made : step value <;> cases result <;> simp [made, Functor.map, Except.map]

theorem option_rel_some {related : α → β → Prop} {value : α} {result : Option β}
    (all : Option.Rel related (some value) result) : ∃ other, result = some other ∧ related value other := by
  cases all with
  | some holds => exact ⟨_, rfl, holds⟩

theorem list_mapM_eq_ok {step : α → Except ε β} {values : List α} {results : List β} :
    values.mapM step = .ok results ↔
      List.Forall₂ (fun value result => step value = .ok result) values results := by
  induction values generalizing results with
  | nil => cases results <;> simp [pure_eq_ok]
  | cons value values ih =>
    rw [List.mapM_cons, bind_eq_ok]
    constructor
    · rintro ⟨result, made, rest⟩
      obtain ⟨others, mades, same⟩ := bind_eq_ok.mp rest
      obtain rfl := pure_eq_ok.mp same
      exact .cons made (ih.mp mades)
    · intro all
      cases all with
      | cons made mades => exact ⟨_, made, bind_eq_ok.mpr ⟨_, ih.mpr mades, rfl⟩⟩

theorem mapM_eq_self {step : α → Except ε α} {values : List α}
    (each : ∀ value ∈ values, step value = .ok value) : values.mapM step = .ok values :=
  list_mapM_eq_ok.mpr (List.forall₂_same.mpr each)

theorem exists_mapM_eq_ok {step : α → Except ε β} {values : List α}
    (each : ∀ value ∈ values, ∃ result, step value = .ok result) :
    ∃ results, values.mapM step = .ok results := by
  induction values with
  | nil => exact ⟨[], rfl⟩
  | cons value values ih =>
    obtain ⟨result, made⟩ := each value (.head _)
    obtain ⟨results, rest⟩ := ih fun other member => each other (.tail _ member)
    exact ⟨result :: results, by rw [List.mapM_cons, made, ok_bind, rest, ok_bind]; rfl⟩

theorem exists_of_mapM_eq_some {step : α → Option β} {values : List α} {results : List β}
    (made : values.mapM step = some results) (member : result ∈ results) :
    ∃ value ∈ values, step value = some result := by
  induction values generalizing results with
  | nil =>
    cases made
    cases member
  | cons value values ih =>
    rw [List.mapM_cons] at made
    obtain ⟨first, here, made⟩ := Option.bind_eq_some_iff.mp made
    obtain ⟨others, later, same⟩ := Option.bind_eq_some_iff.mp made
    cases same
    rcases List.mem_cons.mp member with rfl | inside
    · exact ⟨value, .head _, here⟩
    · obtain ⟨other, known, found⟩ := ih later inside
      exact ⟨other, .tail _ known, found⟩

/-- If every value survives the two ways, so does a list of them. -/
theorem mapM_mapM {encode : α → Except ε β} {decode : β → Except δ γ} {image : α → γ}
    {values : List α} (each : ∀ value ∈ values, ∃ code, encode value = .ok code ∧
      decode code = .ok (image value)) :
    ∃ codes, values.mapM encode = .ok codes ∧ codes.mapM decode = .ok (values.map image) := by
  induction values with
  | nil => exact ⟨[], rfl, rfl⟩
  | cons value values ih =>
    obtain ⟨code, encoded, decoded⟩ := each value (.head _)
    obtain ⟨codes, rest, back⟩ := ih fun other member => each other (.tail _ member)
    refine ⟨code :: codes, ?_, ?_⟩
    · rw [List.mapM_cons, encoded, rest]
      rfl
    · rw [List.mapM_cons, decoded, back]
      rfl

theorem forall₂_mem_left {related : α → β → Prop} {values : List α} {results : List β}
    (all : List.Forall₂ related values results) (member : value ∈ values) :
    ∃ result ∈ results, related value result := by
  induction all with
  | nil => cases member
  | cons first _ ih =>
    rcases List.mem_cons.mp member with rfl | later
    · exact ⟨_, .head _, first⟩
    · obtain ⟨result, inside, holds⟩ := ih later
      exact ⟨result, .tail _ inside, holds⟩

theorem forall₂_mem_right {related : α → β → Prop} {values : List α} {results : List β}
    (all : List.Forall₂ related values results) (member : result ∈ results) :
    ∃ value ∈ values, related value result := by
  induction all with
  | nil => cases member
  | cons first _ ih =>
    rcases List.mem_cons.mp member with rfl | later
    · exact ⟨_, .head _, first⟩
    · obtain ⟨value, inside, holds⟩ := ih later
      exact ⟨value, .tail _ inside, holds⟩

/-- If a list survives three ways in a row, so does every value in it. -/
theorem exists_of_mapM {κ ω : Type} {encode : α → Except ε β} {carry : β → Except δ γ}
    {decode : γ → Except κ ω} {values : List α} {codes : List β} {carried : List γ}
    {results : List ω} (encoded : values.mapM encode = .ok codes) (moved : codes.mapM carry = .ok carried)
    (decoded : carried.mapM decode = .ok results) (member : value ∈ values) :
    ∃ code other result, encode value = .ok code ∧ carry code = .ok other ∧ decode other = .ok result := by
  obtain ⟨code, coded, first⟩ := forall₂_mem_left (list_mapM_eq_ok.mp encoded) member
  obtain ⟨other, kept, second⟩ := forall₂_mem_left (list_mapM_eq_ok.mp moved) coded
  obtain ⟨result, -, third⟩ := forall₂_mem_left (list_mapM_eq_ok.mp decoded) kept
  exact ⟨code, other, result, first, second, third⟩

/-- If two lists are made from values that correspond, and so does what is made of them, they correspond. -/
theorem forall₂_of_mapM {κ ω : Type} {step : α → Except ε β} {step' : γ → Except δ κ} {rename : α → γ}
    {change : β → ω} {related : ω → κ → Prop} {values : List α} {results : List β} {results' : List κ}
    (made : values.mapM step = .ok results) (made' : (values.map rename).mapM step' = .ok results')
    (each : ∀ value ∈ values, ∀ result result', step value = .ok result →
      step' (rename value) = .ok result' → related (change result) result') :
    List.Forall₂ related (results.map change) results' := by
  rw [list_mapM_eq_ok] at made made'
  induction made generalizing results' with
  | nil =>
    cases made'
    exact .nil
  | cons first rest ih =>
    cases made' with
    | cons first' rest' =>
      exact .cons (each _ (.head _) _ _ first first')
        (ih rest' fun value member => each value (.tail _ member))

theorem list_forM_eq_ok {check : α → Except ε Unit} {values : List α} :
    values.forM check = .ok () ↔ ∀ value ∈ values, check value = .ok () := by
  induction values with
  | nil =>
    refine iff_of_true rfl ?_
    intro value member
    cases member
  | cons value values ih =>
    rw [List.forM_eq_forM, List.forM_cons, ← List.forM_eq_forM, bind_eq_ok, List.forall_mem_cons, ← ih]
    constructor
    · rintro ⟨_, first, rest⟩
      exact ⟨first, rest⟩
    · rintro ⟨first, rest⟩
      exact ⟨(), first, rest⟩

end RecordQuery
