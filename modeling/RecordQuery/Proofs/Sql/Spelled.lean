import RecordQuery.Proofs.Number.Decimal
import RecordQuery.Proofs.Sql.Values
import RecordQuery.Proofs.Text.Ascii
import RecordQuery.Proofs.Text.Utf8

namespace RecordQuery

/-- ASCII text without white space is not trimmed. -/
theorem Text.trim_of_ascii {t : Text} (plain : ∀ b ∈ t, b < 0x80 ∧ isBlankCode b.toNat = false) :
    t.trim = t := by
  have keeps (runes : List Rune) (shown : ∀ rune ∈ runes, isBlankRune rune = false) :
      runes.dropWhile isBlankRune = runes := by
    cases runes with
    | nil => rfl
    | cons rune runes => rw [List.dropWhile_cons_of_neg (by simp [shown rune (.head _)])]
  have shown : ∀ rune ∈ t.runes, isBlankRune rune = false := by
    intro rune member
    have coded : rune.code ∈ t.codes := List.mem_map.mpr ⟨rune, member, rfl⟩
    rw [codes_of_ascii fun b inside => (plain b inside).1] at coded
    obtain ⟨b, inside, same⟩ := List.mem_map.mp coded
    rw [isBlankRune, ← same, (plain b inside).2, Bool.and_false]
  have shown' : ∀ rune ∈ t.runes.reverse, isBlankRune rune = false :=
    fun rune member => shown rune (List.mem_reverse.mp member)
  rw [trim, keeps t.runes shown, keeps t.runes.reverse shown', List.reverse_reverse, ofRunes_runes]

namespace Sql

section Alike

variable {ε α β γ δ : Type} {print : α → β} {print' : γ → δ}

/-- Both give up with the same error, or what they make is printed alike. -/
def Alike (print : α → β) (first second : Except ε α) : Prop := first.map print = second.map print

theorem Alike.pure (same : print value = print other) :
    Alike print (pure value : Except ε α) (pure other) :=
  congrArg Except.ok same

theorem Alike.bind {first second : Except ε α} {next next' : α → Except ε γ}
    (alike : Alike print first second)
    (goesOn : ∀ value other, print value = print other → Alike print' (next value) (next' other)) :
    Alike print' (first >>= next) (second >>= next') := by
  cases first with
  | error error =>
    cases second with
    | error other =>
      cases alike
      rfl
    | ok other => cases alike
  | ok value =>
    cases second with
    | error other => cases alike
    | ok other => exact goesOn value other (Except.ok.inj alike)

theorem Alike.bind_same (step : Except ε α) {next next' : α → Except ε γ}
    (goesOn : ∀ value, Alike print' (next value) (next' value)) :
    Alike print' (step >>= next) (step >>= next') := by
  cases step with
  | error error => rfl
  | ok value => exact goesOn value

theorem Alike.mapM {step : γ → Except ε α} {change : γ → γ} {values : List γ}
    (each : ∀ value ∈ values, Alike print (step (change value)) (step value)) :
    Alike (List.map print) ((values.map change).mapM step) (values.mapM step) := by
  induction values with
  | nil => rfl
  | cons value values ih =>
    rw [List.map_cons, List.mapM_cons, List.mapM_cons]
    refine (each value (.head _)).bind fun first first' head => ?_
    refine (ih fun other member => each other (.tail _ member)).bind fun rest rest' tail => .pure ?_
    rw [List.map_cons, List.map_cons, head, tail]

end Alike

/-- Which of two values is given makes no difference to the literals. -/
structure Literals.Equates (literals : Literals) (first second : Value) : Prop where
  literal : ∀ field, Alike Literal.print (literals.literal field first) (literals.literal field second)
  pattern : ∀ field, Alike Literal.print (literals.pattern field first) (literals.pattern field second)

section Render

variable {schema : Schema} {literals : Literals} {change : Value → Value}

theorem alike_complete (criteria : Criteria) {condition other : Condition} (scope : Scope)
    (outputs : List Output) (printed : condition.print = other.print) :
    Alike Statement.print (scope.complete (criteria.mapValues change) outputs (some condition))
      (scope.complete criteria outputs (some other)) := by
  have paths := criteria.paths_mapValues change
  rw [criteria.mapValues_eq] at paths ⊢
  rw [Scope.complete, Scope.complete, paths]
  refine .bind_same _ fun groupBy => .bind_same _ fun orderBy => .bind_same _ fun joins => ?_
  split
  · rfl
  · exact .pure (by rw [Statement.print, Statement.print, printed])

mutual

theorem alike_condition : (restriction : Restriction) → (scope : Scope) →
    (∀ value ∈ restriction.values, literals.Equates (change value) value) →
    Alike Condition.print ((⟨schema, literals⟩ : Renderer).condition scope (restriction.mapValues change))
      ((⟨schema, literals⟩ : Renderer).condition scope restriction)
  | .missing, _, _ => rfl
  | .isNull _, _, _ => rfl
  | .comparison comparator property value, scope, equates => by
    have same := List.forall_mem_singleton.mp equates
    rw [Restriction.mapValues, Renderer.condition, Renderer.condition]
    refine .bind_same _ fun ⟨column, field⟩ => ?_
    simp only
    split
    · exact (same.pattern field).bind fun _ _ printed =>
        .pure (by rw [Condition.print, Condition.print, printed])
    · exact (same.literal field).bind fun _ _ printed =>
        .pure (by rw [Condition.print, Condition.print, printed])
  | .inValues property values, scope, equates => by
    rw [Restriction.mapValues, Renderer.condition, Renderer.condition]
    refine .bind_same _ fun ⟨column, field⟩ => ?_
    have each := Alike.mapM fun value member => (equates value member).literal field
    exact each.bind fun _ _ printed => .pure (by rw [Condition.print, Condition.print, printed])
  | .inQuery property query, scope, equates => by
    rw [Restriction.mapValues, Renderer.condition, Renderer.condition]
    refine .bind_same _ fun ⟨column, field⟩ => ?_
    exact (alike_statement query equates).bind fun _ _ printed =>
      .pure (by rw [Condition.print, Condition.print, printed])
  | .junction connective children, scope, equates => by
    rw [Restriction.mapValues, Renderer.condition, Renderer.condition]
    exact (alike_conditions children scope equates).bind fun _ _ printed =>
      .pure (by rw [Condition.print, Condition.print, printed])
  | .not child, scope, equates => by
    rw [Restriction.mapValues, Renderer.condition, Renderer.condition]
    exact (alike_condition child scope equates).bind fun _ _ printed =>
      .pure (by rw [Condition.print, Condition.print, printed])

theorem alike_conditions : (children : List Restriction) → (scope : Scope) →
    (∀ value ∈ Restriction.valuesAll children, literals.Equates (change value) value) →
    Alike Condition.printAll
      ((⟨schema, literals⟩ : Renderer).conditions scope (Restriction.mapValuesAll change children))
      ((⟨schema, literals⟩ : Renderer).conditions scope children)
  | [], _, _ => rfl
  | child :: children, scope, equates => by
    obtain ⟨first, rest⟩ := List.forall_mem_append.mp equates
    rw [Restriction.mapValuesAll, Renderer.conditions, Renderer.conditions]
    refine (alike_condition child scope first).bind fun _ _ head => ?_
    refine (alike_conditions children scope rest).bind fun _ _ tail => .pure ?_
    rw [Condition.printAll, Condition.printAll, head, tail]

theorem alike_statement : (criteria : Criteria) →
    (∀ value ∈ criteria.values, literals.Equates (change value) value) →
    Alike Statement.print ((⟨schema, literals⟩ : Renderer).statement (criteria.mapValues change))
      ((⟨schema, literals⟩ : Renderer).statement criteria)
  | ⟨_, _, _, none, _, _, _, _, _, _⟩, _ => rfl
  | ⟨type, properties, aggregates, some restriction, groupBy, orderBy, limit, offset, aliases, isSubquery⟩,
      equates => by
    let criteria : Criteria :=
      ⟨type, properties, aggregates, some restriction, groupBy, orderBy, limit, offset, aliases, isSubquery⟩
    have scopes := Scope.ofCriteria_mapValues change schema criteria
    rw [Criteria.mapValues] at scopes ⊢
    rw [Renderer.statement, Renderer.statement]
    simp only [scopes]
    refine .bind_same _ fun outputs => ?_
    exact (alike_condition restriction _ equates).bind fun _ _ printed =>
      alike_complete criteria _ outputs printed

end

/-- A query is rendered alike if its values are changed to some that the literals do not tell apart. -/
theorem render_mapValues {criteria : Criteria}
    (equates : ∀ value ∈ criteria.values, literals.Equates (change value) value) :
    (⟨schema, literals⟩ : Renderer).render (criteria.mapValues change) =
      (⟨schema, literals⟩ : Renderer).render criteria := by
  have printed (outcome : Except RenderError Statement) :
      (do return (← outcome).print) = outcome.map Statement.print := by
    cases outcome <;> rfl
  rw [Renderer.render, Renderer.render, printed, printed]
  exact alike_statement criteria equates

end Render

end Sql

/-- What is written as a text that says all of it: texts, truth values, whole and decimal numbers, and null.
The exponent of a decimal has 32 bits. -/
def Value.isExact : Value → Bool
  | .text _ | .bool _ | .int _ | .null => true
  | .decimal d => Decimal.inInt32 d.exponent
  | .unsigned _ | .float _ => false

namespace Sql

theorem trim_text (d : Decimal) : d.text.trim = d.text := by
  apply Text.trim_of_ascii
  intro b member
  have numeral := inNumeral_of_mem_text member
  have bounds : 45 ≤ b.toNat ∧ b.toNat < 58 := by
    simp only [inNumeral, Text.isDigit, Bool.or_eq_true, Bool.and_eq_true, decide_eq_true_eq,
      UInt8.le_iff_toNat_le, beq_iff_eq] at numeral
    rcases numeral with (⟨low, high⟩ | rfl) | rfl
    · change 48 ≤ b.toNat at low
      change b.toNat ≤ 57 at high
      omega
    · decide
    · decide
  have each : ∀ code < 58, 45 ≤ code → Text.isBlankCode code = false := by decide
  refine ⟨UInt8.lt_iff_toNat_lt.mpr ?_, each b.toNat bounds.2 bounds.1⟩
  change b.toNat < 128
  omega

theorem number?_written (exact : value.isExact = true) :
    (number? (.text value.written)).map Decimal.text = (number? value).map Decimal.text := by
  cases value with
  | text t => rfl
  | bool b => cases b <;> decide
  | int n =>
    have read : number? (.text (Text.ofInt n)) = some (.ofInt n) := by
      rw [number?, Decimal.ofInt_eq, trim_text, Decimal.parse?_text_ofInt]
    rw [Value.written, read, number?]
  | unsigned n => cases exact
  | float x => cases exact
  | decimal d =>
    have fits : -2147483648 ≤ d.exponent := by
      have both : Decimal.inInt32 d.exponent = true := exact
      simp only [Decimal.inInt32, Bool.and_eq_true, decide_eq_true_eq] at both
      exact both.1
    obtain ⟨read, parsed, same⟩ := Decimal.exists_parse?_text fits
    have again : number? (.text d.text) = some read := by rw [number?, trim_text, parsed]
    rw [Value.written, again, number?, Option.map_some, Option.map_some, same]
  | null => decide

theorem literal?_written (exact : value.isExact = true) (kind : Kind) :
    (literal? kind (.text value.written)).map Literal.print = (literal? kind value).map Literal.print := by
  cases kind with
  | number =>
    simp only [literal?, Option.map_map]
    exact number?_written exact
  | boolean =>
    cases value with
    | bool b => cases b <;> rfl
    | _ => rfl
  | _ => rfl

/-- What the standard literals print, and the error if there is nothing to print. -/
theorem standard_literal (field : Field) (value : Value) :
    (Literals.standard.literal field value).map Literal.print =
      ((literal? field.kind value).map Literal.print).elim
        (.error (.schema ⟨.invalidLiteral value.written field.kind field.name, [field.name]⟩)) .ok := by
  simp only [Literals.standard]
  split
  · rename_i found
    rw [found]
    rfl
  · rename_i missing
    rw [missing]
    rfl

/-- The standard literals do not tell a value from the text that it is written as. -/
theorem standard_equates (exact : value.isExact = true) :
    Literals.standard.Equates (.text value.written) value := by
  refine ⟨fun field => ?_, fun field => rfl⟩
  rw [Alike, standard_literal, standard_literal, literal?_written exact]
  rfl

/-- A statement, or the error instead of it, does not depend on whether the values of a query are given as
what they are or as text. -/
theorem render_written (schema : Schema) (criteria : Criteria)
    (exact : ∀ value ∈ criteria.values, value.isExact = true) :
    (⟨schema, .standard⟩ : Renderer).render (criteria.mapValues fun value => .text value.written) =
      (⟨schema, .standard⟩ : Renderer).render criteria :=
  render_mapValues fun value member => standard_equates (exact value member)

/-- Pets by values of all kinds, with a number that may be none. -/
def pickyQuery (age : Value) : Criteria :=
  petQuery (.bool true) age (.bool false) [.int (-7), .null, .decimal ⟨5, 2⟩]

theorem pets_render_written :
    (∃ sql, (⟨⟨petTypes⟩, .standard⟩ : Renderer).render (pickyQuery (.decimal ⟨-1250, -3⟩)) = .ok sql ∧
      (⟨⟨petTypes⟩, .standard⟩ : Renderer).render (petQuery (.text "true") (.text "-1.25") (.text "false")
        [.text "-7", .text [], .text "500"]) = .ok sql) ∧
    ∃ error, (⟨⟨petTypes⟩, .standard⟩ : Renderer).render (pickyQuery (.bool true)) = .error error ∧
      (⟨⟨petTypes⟩, .standard⟩ : Renderer).render (petQuery (.text "true") (.text "true") (.text "false")
        [.text "-7", .text [], .text "500"]) = .error error := by
  constructor
  · have renders : ((⟨⟨petTypes⟩, .standard⟩ : Renderer).render
        (pickyQuery (.decimal ⟨-1250, -3⟩))).toBool = true := by decide +kernel
    obtain ⟨sql, rendered⟩ := exists_ok_of_toBool renders
    have same := render_written ⟨petTypes⟩ (pickyQuery (.decimal ⟨-1250, -3⟩)) (by decide)
    exact ⟨sql, rendered, same.trans rendered⟩
  · have same := render_written ⟨petTypes⟩ (pickyQuery (.bool true)) (by decide)
    exact ⟨_, rfl, same.trans rfl⟩

end Sql
end RecordQuery
