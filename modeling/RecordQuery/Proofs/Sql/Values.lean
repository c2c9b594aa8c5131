import RecordQuery.Proofs.Sql.Literals

/-! Values cannot change the structure of a statement. Its text is made of segments that are scanned one
by one, and two queries that differ in nothing but values have the same segments, up to what stands in
the literals. -/
namespace RecordQuery.Sql

/-- A literal, or the text between two literals. -/
inductive Segment where
  | fixed (text : Text)
  | value (literal : Literal)
  deriving Repr

namespace Segment

def text : Segment → Text
  | fixed text => text
  | value literal => literal.print

/-- The segment with its literal blank. -/
def blank : Segment → Segment
  | fixed text => fixed text
  | value literal => value literal.blank

def literals : Segment → List Literal
  | fixed _ => []
  | value literal => [literal]

end Segment

mutual

/-- The text of a condition, cut at its literals. -/
def Condition.segments : Condition → List Segment
  | .compare left comparator right =>
    [.fixed ("(" ++ left.print ++ " " ++ comparator.symbol ++ " "), .value right, .fixed ")"]
  | .isNull value => [.fixed ("(" ++ value.print ++ " IS NULL)")]
  | .inValues value values =>
    .fixed ("(" ++ value.print ++ " IN (") ::
      (List.intercalate [.fixed ", "] (values.map fun literal => [.value literal]) ++ [.fixed "))"])
  | .inQuery value query => .fixed ("(" ++ value.print ++ " IN (") :: (query.segments ++ [.fixed "))"])
  | .not condition => .fixed "(NOT " :: (condition.segments ++ [.fixed ")"])
  | .junction connective conditions =>
    .fixed "(" :: (List.intercalate [.fixed (" " ++ connective.symbol ++ " ")]
      (Condition.segmentsAll conditions) ++ [.fixed ")"])

def Condition.segmentsAll : List Condition → List (List Segment)
  | [] => []
  | condition :: conditions => condition.segments :: Condition.segmentsAll conditions

/-- The text of a statement, cut at its literals. -/
def Statement.segments : Statement → List Segment
  | ⟨outputs, table, joins, none, groupBy, orderBy, limit, offset⟩ =>
    [.fixed (printHead outputs table joins ++ printTail groupBy orderBy limit offset)]
  | ⟨outputs, table, joins, some condition, groupBy, orderBy, limit, offset⟩ =>
    .fixed (printHead outputs table joins ++ " WHERE ") ::
      (condition.segments ++ [.fixed (printTail groupBy orderBy limit offset)])

end

theorem nil_intercalate (lists : List (List α)) : ([] : List α).intercalate lists = lists.flatten := by
  induction lists with
  | nil => rfl
  | cons first lists ih =>
    cases lists with
    | nil => simp [List.intercalate]
    | cons second lists => simp [List.intercalate_cons_cons, ih]

mutual

theorem Condition.text_segments : (condition : Condition) →
    condition.segments.flatMap Segment.text = condition.print
  | .compare left comparator right => by simp [Condition.segments, Condition.print, Segment.text]
  | .isNull value => by simp [Condition.segments, Condition.print, Segment.text]
  | .inValues value values => by
    simp [Condition.segments, Condition.print, Segment.text, flatMap_intercalate, Text.join, Function.comp_def]
  | .inQuery value query => by
    simp [Condition.segments, Condition.print, Segment.text, Statement.text_segments query]
  | .not condition => by
    simp [Condition.segments, Condition.print, Segment.text, Condition.text_segments condition]
  | .junction connective conditions => by
    simp [Condition.segments, Condition.print, Segment.text, flatMap_intercalate, Text.join,
      Condition.text_segmentsAll conditions]

theorem Condition.text_segmentsAll : (conditions : List Condition) →
    (Condition.segmentsAll conditions).map (·.flatMap Segment.text) = Condition.printAll conditions
  | [] => rfl
  | condition :: conditions => by
    rw [Condition.segmentsAll, List.map_cons, Condition.text_segments condition,
      Condition.text_segmentsAll conditions, Condition.printAll]

theorem Statement.text_segments : (statement : Statement) →
    statement.segments.flatMap Segment.text = statement.print
  | ⟨outputs, table, joins, none, groupBy, orderBy, limit, offset⟩ => by
    simp [Statement.segments, Statement.print, Segment.text]
  | ⟨outputs, table, joins, some condition, groupBy, orderBy, limit, offset⟩ => by
    simp [Statement.segments, Statement.print, Segment.text, Condition.text_segments condition]

end

mutual

theorem Condition.literals_segments : (condition : Condition) →
    condition.segments.flatMap Segment.literals = condition.literals
  | .compare left comparator right => by simp [Condition.segments, Condition.literals, Segment.literals]
  | .isNull value => by simp [Condition.segments, Condition.literals, Segment.literals]
  | .inValues value values => by
    simp [Condition.segments, Condition.literals, Segment.literals, flatMap_intercalate, Function.comp_def,
      nil_intercalate, ← List.flatMap_def]
  | .inQuery value query => by
    simp [Condition.segments, Condition.literals, Segment.literals, Statement.literals_segments query]
  | .not condition => by
    simp [Condition.segments, Condition.literals, Segment.literals, Condition.literals_segments condition]
  | .junction connective conditions => by
    simp [Condition.segments, Condition.literals, Segment.literals, flatMap_intercalate,
      Condition.literals_segmentsAll conditions, nil_intercalate]

theorem Condition.literals_segmentsAll : (conditions : List Condition) →
    ((Condition.segmentsAll conditions).map (·.flatMap Segment.literals)).flatten =
      Condition.literalsAll conditions
  | [] => rfl
  | condition :: conditions => by
    rw [Condition.segmentsAll, List.map_cons, List.flatten_cons, Condition.literals_segments condition,
      Condition.literals_segmentsAll conditions, Condition.literalsAll]

theorem Statement.literals_segments : (statement : Statement) →
    statement.segments.flatMap Segment.literals = statement.literals
  | ⟨outputs, table, joins, none, groupBy, orderBy, limit, offset⟩ => rfl
  | ⟨outputs, table, joins, some condition, groupBy, orderBy, limit, offset⟩ => by
    simp [Statement.segments, Statement.literals, Segment.literals, Condition.literals_segments condition]

end

mutual

theorem Condition.segments_blank : (condition : Condition) →
    condition.blank.segments = condition.segments.map Segment.blank
  | .compare left comparator right => rfl
  | .isNull value => rfl
  | .inValues value values => by
    simp [Condition.segments, Condition.blank, Segment.blank, map_intercalate, Function.comp_def]
  | .inQuery value query => by
    simp [Condition.segments, Condition.blank, Segment.blank, Statement.segments_blank query]
  | .not condition => by
    simp [Condition.segments, Condition.blank, Segment.blank, Condition.segments_blank condition]
  | .junction connective conditions => by
    simp [Condition.segments, Condition.blank, Segment.blank, map_intercalate,
      Condition.segmentsAll_blank conditions]

theorem Condition.segmentsAll_blank : (conditions : List Condition) →
    Condition.segmentsAll (Condition.blankAll conditions) =
      (Condition.segmentsAll conditions).map (·.map Segment.blank)
  | [] => rfl
  | condition :: conditions => by
    rw [Condition.blankAll, Condition.segmentsAll, Condition.segmentsAll, List.map_cons,
      Condition.segments_blank condition, Condition.segmentsAll_blank conditions]

theorem Statement.segments_blank : (statement : Statement) →
    statement.blank.segments = statement.segments.map Segment.blank
  | ⟨outputs, table, joins, none, groupBy, orderBy, limit, offset⟩ => rfl
  | ⟨outputs, table, joins, some condition, groupBy, orderBy, limit, offset⟩ => by
    simp [Statement.segments, Statement.blank, Segment.blank, Condition.segments_blank condition]

end

/-- A text that does not end between quotes. -/
def Closed (t : Text) : Prop := (scan t).isSome = true

instance (t : Text) : Decidable (Closed t) := inferInstanceAs (Decidable ((scan t).isSome = true))

theorem Closed.append (apart : Closes t ∨ Opens u) (first : Closed t) (second : Closed u) : Closed (t ++ u) := by
  obtain ⟨lexemes, found⟩ := Option.isSome_iff_exists.mp first
  obtain ⟨others, continues⟩ := Option.isSome_iff_exists.mp second
  exact Option.isSome_iff_exists.mpr ⟨_, scan_append apart found continues⟩

theorem Plain.closed (plain : Plain t) : Closed t := by
  obtain ⟨items, reads, -⟩ := plain
  exact Option.isSome_iff_exists.mpr ⟨_, reads.scans⟩

/-- Each segment is scanned for itself: none ends between quotes, and no lexeme runs from one to the next. -/
def Segment.Scans (segments : List Segment) : Prop :=
  ∃ lists, List.Forall₂ (fun segment lexemes => scan segment.text = some lexemes) segments lists ∧
    scan (segments.flatMap Segment.text) = some lists.flatten

namespace Segment.Scans

theorem nil : Scans [] := ⟨[], .nil, rfl⟩

theorem single {segment : Segment} (closed : Closed segment.text) : Scans [segment] := by
  obtain ⟨lexemes, found⟩ := Option.isSome_iff_exists.mp closed
  exact ⟨[lexemes], .cons found .nil, by simpa using found⟩

theorem fixed (closed : Closed t) : Scans [.fixed t] := single closed

theorem append {first second : List Segment}
    (apart : Closes (first.flatMap Segment.text) ∨ Opens (second.flatMap Segment.text))
    (before : Scans first) (after : Scans second) : Scans (first ++ second) := by
  obtain ⟨lists, each, whole⟩ := before
  obtain ⟨others, more, rest⟩ := after
  refine ⟨lists ++ others, List.rel_append each more, ?_⟩
  rw [List.flatMap_append, List.flatten_append]
  exact scan_append apart whole rest

/-- Segments between two texts that have marks where they meet. -/
theorem framed {segments : List Segment} (before : Closed t) (closes : Closes t) (inner : Scans segments)
    (opens : Opens u) (after : Closed u) : Scans (.fixed t :: (segments ++ [.fixed u])) := by
  have rest : Scans (segments ++ [.fixed u]) := inner.append (.inr (by simpa [text] using opens)) (fixed after)
  exact append (.inl (by simpa [text] using closes)) (fixed before) rest

theorem join {separator : Text} (closed : Closed separator) (seam : Seam separator) {lists : List (List Segment)}
    (each : ∀ segments ∈ lists, Scans segments) : Scans (List.intercalate [.fixed separator] lists) := by
  induction lists with
  | nil => exact nil
  | cons first lists ih =>
    obtain ⟨scans, each⟩ := List.forall_mem_cons.mp each
    cases lists with
    | nil => simpa [List.intercalate] using scans
    | cons second lists =>
      rw [List.intercalate_cons_cons]
      refine append (.inl ?_) (append (.inr (by simpa [text] using seam.1)) scans (fixed closed)) (ih each)
      simpa [text] using seam.closes (first.flatMap text)

end Segment.Scans

/-- The first bracket of a condition, with the value that is restricted. -/
theorem Expression.closed_opening (value : Expression) (seam : Seam t) (closed : Closed t) :
    Closed (Text.ofString "(" ++ value.print ++ t) :=
  .append (.inr seam.1) (.append (.inl (by decide)) (by decide) value.plain.closed) closed

mutual

theorem Condition.scans : (condition : Condition) → (∀ literal ∈ condition.literals, Plain literal.print) →
    Segment.Scans condition.segments
  | .compare left comparator right, written => by
    have symbol : Closed comparator.symbol := by cases comparator <;> decide
    have space : Seam " " := by decide
    have column := left.closed_opening space (by decide)
    have opening : Closed (Text.ofString "(" ++ left.print ++ " " ++ comparator.symbol ++ " ") :=
      .append (.inr space.1) (.append (.inl (space.closes _)) column symbol) (by decide)
    have value : Segment.Scans [.value right] := .single (written right (.head _)).closed
    exact .framed opening (space.closes _) value (by decide) (by decide)
  | .isNull value, written => by
    have closed := (Condition.plain (.isNull value) written).closed
    rw [Condition.print] at closed
    exact .single closed
  | .inValues value values, written => by
    have membership : Seam " IN (" := by decide
    have opening := value.closed_opening membership (by decide)
    refine .framed opening (membership.closes _) ?_ (by decide) (by decide)
    refine .join (by decide) (by decide) (List.forall_mem_map.mpr ?_)
    exact fun literal member => .single (written literal member).closed
  | .inQuery value query, written => by
    have membership : Seam " IN (" := by decide
    have opening := value.closed_opening membership (by decide)
    exact .framed opening (membership.closes _) (query.scans written) (by decide) (by decide)
  | .not condition, written => .framed (by decide) (by decide) (condition.scans written) (by decide) (by decide)
  | .junction connective conditions, written => by
    have separator : Closed (Text.ofString " " ++ connective.symbol ++ " ") := by
      cases connective <;> decide
    have each := Condition.scansAll conditions written
    have joined := Segment.Scans.join separator (seam_separator connective) each
    exact .framed (by decide) (by decide) joined (by decide) (by decide)

theorem Condition.scansAll : (conditions : List Condition) →
    (∀ literal ∈ Condition.literalsAll conditions, Plain literal.print) →
    ∀ segments ∈ Condition.segmentsAll conditions, Segment.Scans segments
  | [], _ => List.forall_mem_nil _
  | condition :: conditions, written =>
    have both := List.forall_mem_append.mp written
    List.forall_mem_cons.mpr ⟨condition.scans both.1, Condition.scansAll conditions both.2⟩

theorem Statement.scans : (statement : Statement) → (∀ literal ∈ statement.literals, Plain literal.print) →
    Segment.Scans statement.segments
  | ⟨outputs, table, joins, none, groupBy, orderBy, limit, offset⟩, _ => by
    have tail := trailing_printTail groupBy orderBy limit offset
    exact .single ((plain_printHead outputs table joins).followed tail).closed
  | ⟨outputs, table, joins, some condition, groupBy, orderBy, limit, offset⟩, written => by
    have tail := trailing_printTail groupBy orderBy limit offset
    have restricted : Seam " WHERE " := by decide
    have head : Closed (printHead outputs table joins ++ " WHERE ") :=
      .append (.inr restricted.1) (plain_printHead outputs table joins).closed (by decide)
    exact .framed head (restricted.closes _) (condition.scans written) tail.opens tail.plain.closed

end

/-- The text is cut into segments that are scanned one by one, and their literals stand for the values. -/
structure Segment.Spells (values : List Value) (segments : List Segment) (sql : Text) : Prop where
  text : segments.flatMap Segment.text = sql
  scans : Segment.Scans segments
  values : List.Forall₂ (fun value (literal : Literal) => literal.Writes value) values
    (segments.flatMap Segment.literals)

theorem spells_of_statement {criteria : Criteria}
    (made : (⟨schema, .standard⟩ : Renderer).statement criteria = .ok statement) :
    Segment.Spells criteria.values statement.segments statement.print := by
  have writes := (mirrors_of_statement criteria made).2
  refine ⟨statement.text_segments, statement.scans (plain_of_writes writes), ?_⟩
  rw [statement.literals_segments]
  exact writes

/-- Queries that differ in nothing but values are written with the same segments, if literals are left
blank: a string, a numeral or a truth value in one stands where such a one stands in the other. -/
theorem blank_segments_of_render (schema : Schema) (criteria other : Criteria)
    (same : criteria.withoutValues = other.withoutValues) (sql text : Text)
    (rendered : (⟨schema, .standard⟩ : Renderer).render criteria = .ok sql)
    (renders : (⟨schema, .standard⟩ : Renderer).render other = .ok text) :
    ∃ segments others, Segment.Spells criteria.values segments sql ∧
      Segment.Spells other.values others text ∧ segments.map Segment.blank = others.map Segment.blank := by
  obtain ⟨statement, made, printed⟩ := bind_eq_ok.mp rendered
  obtain ⟨second, makes, prints⟩ := bind_eq_ok.mp renders
  obtain rfl := pure_eq_ok.mp printed
  obtain rfl := pure_eq_ok.mp prints
  refine ⟨statement.segments, second.segments, spells_of_statement made, spells_of_statement makes, ?_⟩
  have first := (mirrors_of_statement criteria made).1
  rw [same] at first
  have blank : statement.blank = second.blank :=
    Except.ok.inj (first.symm.trans (mirrors_of_statement other makes).1)
  rw [← statement.segments_blank, ← second.segments_blank, blank]

def petTypes : List RecordType :=
  [{ id := "t1", name := "acme.Pet", label := "Pet", table := "pet", defaultField := "name"
     fields := [{ id := "f1", name := "id", label := "Id", column := "id", kind := .id },
       { id := "f2", name := "name", label := "Name", column := "name", kind := .text },
       { id := "f3", name := "age", label := "Age", column := "age", kind := .number },
       { id := "f4", name := "tame", label := "Tame", column := "tame", kind := .boolean }] }]

/-- Pets by name, age and manners, with names that they must not have. -/
def petQuery (name age tame : Value) (others : List Value) : Criteria :=
  ⟨petTypes.headD {}, ["name"], [], some (.junction .and [.comparison .eq "name" name, .comparison .gt "age" age,
    .comparison .eq "tame" tame, .comparison .like "age" age, .not (.inQuery "id"
      ⟨petTypes.headD {}, ["id"], [], some (.inValues "name" others), [], [], none, none, [], true⟩)]),
    [], [], none, none, [], false⟩

def petHarmless : Criteria :=
  petQuery (.text "Tom") (.int 3) (.bool true) [.text "Kim", .text "Ann"]

/-- Quotes, brackets and comments in the names. -/
def petHostile : Criteria :=
  petQuery (.text "' OR (\"a\" = 'a") (.text "-12.50") (.text "f") [.text "')) --", .null]

theorem pets_blank_segments : ∃ sql text segments others,
    (⟨⟨petTypes⟩, .standard⟩ : Renderer).render petHarmless = .ok sql ∧
    (⟨⟨petTypes⟩, .standard⟩ : Renderer).render petHostile = .ok text ∧
    Segment.Spells [.text "Tom", .int 3, .bool true, .int 3, .text "Kim", .text "Ann"] segments sql ∧
    Segment.Spells [.text "' OR (\"a\" = 'a", .text "-12.50", .text "f", .text "-12.50", .text "')) --", .null]
      others text ∧
    segments.map Segment.blank = others.map Segment.blank := by
  have both : ((⟨⟨petTypes⟩, .standard⟩ : Renderer).render petHarmless).toOption.isSome = true ∧
      ((⟨⟨petTypes⟩, .standard⟩ : Renderer).render petHostile).toOption.isSome = true := by
    decide +kernel
  obtain ⟨sql, found⟩ := Option.isSome_iff_exists.mp both.1
  obtain ⟨text, finds⟩ := Option.isSome_iff_exists.mp both.2
  have rendered := toOption_eq_some.mp found
  have renders := toOption_eq_some.mp finds
  obtain ⟨segments, others, spells, spelled, blank⟩ :=
    blank_segments_of_render ⟨petTypes⟩ petHarmless petHostile rfl sql text rendered renders
  exact ⟨sql, text, segments, others, rendered, renders, spells, spelled, blank⟩

end RecordQuery.Sql
