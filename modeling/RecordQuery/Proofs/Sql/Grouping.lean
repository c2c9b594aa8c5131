import RecordQuery.Proofs.Sql.Literals

/-! The text of a condition keeps its grouping. A reader that knows nothing but brackets, quotes and the
precedence of connectives finds the restriction that was rendered. -/
namespace RecordQuery

/-- How conditions are put together. -/
inductive Tree where
  | leaf (text : Text)
  | not (child : Tree)
  | junction (connective : Connective) (children : List Tree)
  deriving Repr

mutual

/-- The tree without the texts of its leaves. -/
def Tree.shape : Tree → Tree
  | .leaf _ => .leaf []
  | .not child => .not child.shape
  | .junction connective children => .junction connective (Tree.shapes children)

def Tree.shapes : List Tree → List Tree
  | [] => []
  | child :: children => child.shape :: Tree.shapes children

end

namespace Restriction

mutual

/-- The tree of a restriction, with the given texts for its leaves. -/
def tree (leafText : Restriction → Text) : Restriction → Tree
  | not child => .not (child.tree leafText)
  | junction connective children => .junction connective (trees leafText children)
  | missing => .leaf (leafText missing)
  | comparison comparator property value => .leaf (leafText (comparison comparator property value))
  | isNull property => .leaf (leafText (isNull property))
  | inValues property values => .leaf (leafText (inValues property values))
  | inQuery property query => .leaf (leafText (inQuery property query))

def trees (leafText : Restriction → Text) : List Restriction → List Tree
  | [] => []
  | child :: children => child.tree leafText :: trees leafText children

end

theorem length_trees (leafText : Restriction → Text) (children : List Restriction) :
    (trees leafText children).length = children.length := by
  induction children with
  | nil => rfl
  | cons child children ih => rw [trees, List.length_cons, ih, List.length_cons]

/-- The connectives and negations of a restriction. -/
def shape (restriction : Restriction) : Tree := restriction.tree fun _ => []

mutual

theorem shape_tree (leafText : Restriction → Text) : (restriction : Restriction) →
    (restriction.tree leafText).shape = restriction.shape
  | not child => by
    rw [tree, Tree.shape, shape_tree leafText child]
    rfl
  | junction connective children => by
    rw [tree, Tree.shape, shapes_trees leafText children]
    rfl
  | missing | comparison _ _ _ | isNull _ | inValues _ _ | inQuery _ _ => rfl

theorem shapes_trees (leafText : Restriction → Text) : (children : List Restriction) →
    Tree.shapes (trees leafText children) = trees (fun _ => []) children
  | [] => rfl
  | child :: children => by
    rw [trees, Tree.shapes, shape_tree leafText child, shapes_trees leafText children]
    rfl

end

mutual

/-- Every junction has two children or more. -/
def Grouped : Restriction → Prop
  | junction _ children => 2 ≤ children.length ∧ GroupedAll children
  | not child => child.Grouped
  | missing | comparison _ _ _ | isNull _ | inValues _ _ | inQuery _ _ => True

def GroupedAll : List Restriction → Prop
  | [] => True
  | child :: children => child.Grouped ∧ GroupedAll children

end

end Restriction

namespace Sql

/-- An item, and what a group of them reads as. -/
inductive Part where
  | single (lexeme : Lexeme)
  | group (tree : Option Tree) (contents : Text)

namespace Part

def text : Part → Text
  | single lexeme => lexeme.text
  | group _ contents => bracketed contents

def isBlank : Part → Bool
  | single lexeme => lexeme = blank
  | group _ _ => false

/-- Whether a part is this word, whatever the case. -/
def spells (keyword : Text) : Part → Bool
  | single lexeme => (Item.single lexeme).spells keyword
  | group _ _ => false

end Part

/-- The text without the spaces at its end. -/
def trimEnd (t : Text) : Text := (t.reverse.dropWhile (· = Text.ascii ' ')).reverse

/-- A group that stands alone is what it holds; anything else is a leaf. -/
def term : Part → List Part → Option Tree
  | .group tree contents, parts =>
    if parts.all (·.isBlank) then tree
    else some (.leaf (trimEnd ((Part.group tree contents :: parts).flatMap Part.text)))
  | .single lexeme, parts => some (.leaf (trimEnd ((Part.single lexeme :: parts).flatMap Part.text)))

/-- Reads what has no connectives outside brackets. -/
def factor : List Part → Option Tree
  | [] => none
  | part :: parts =>
    if part.isBlank then factor parts
    else if part.spells "NOT" then (factor parts).map .not
    else term part parts

/-- One tree is itself; more of them are connected. -/
def connect (connective : Connective) : List Tree → Tree
  | [tree] => tree
  | trees => .junction connective trees

/-- Reads what has no alternatives outside brackets. -/
def conjunction (parts : List Part) : Option Tree :=
  ((parts.splitOnP (·.spells "AND")).mapM factor).map (connect .and)

/-- Negation binds more closely than `AND`, and that more closely than `OR`. -/
def assemble (parts : List Part) : Option Tree :=
  ((parts.splitOnP (·.spells "OR")).mapM conjunction).map (connect .or)

mutual

def Item.part : Item → Part
  | .single lexeme => .single lexeme
  | .group items => .group (assemble (Item.parts items)) ((Item.lexemesAll items).flatMap Lexeme.text)

def Item.parts : List Item → List Part
  | [] => []
  | item :: items => item.part :: Item.parts items

end

/-- Reads the text of a condition. -/
def readTree (t : Text) : Option Tree := do assemble (Item.parts (← readItems t))

theorem Item.parts_eq_map (items : List Item) : Item.parts items = items.map Item.part := by
  induction items with
  | nil => rfl
  | cons item items ih => rw [parts, ih, List.map_cons]

theorem parts_intercalate (separator : List Item) (lists : List (List Item)) :
    Item.parts (separator.intercalate lists) = (Item.parts separator).intercalate (lists.map Item.parts) := by
  have each : Item.parts = List.map Item.part := funext Item.parts_eq_map
  rw [each, map_intercalate]

theorem Item.text_part (item : Item) : item.part.text = item.lexemes.flatMap Lexeme.text := by
  cases item with
  | single lexeme => simp [part, Part.text, lexemes]
  | group items =>
    simp [part, Part.text, lexemes, bracketed, Lexeme.text, opening, closing]

theorem Item.spells_part (item : Item) (keyword : Text) : item.part.spells keyword = item.spells keyword := by
  cases item with
  | single lexeme => rfl
  | group items => rfl

theorem text_parts (items : List Item) :
    (Item.parts items).flatMap Part.text = (Item.lexemesAll items).flatMap Lexeme.text := by
  induction items with
  | nil => rfl
  | cons item items ih =>
    rw [Item.parts, List.flatMap_cons, ih, Item.text_part, Item.lexemesAll, List.flatMap_append]

section Reading

/-- Without connectives outside brackets there is one factor. -/
theorem conjunction_eq_factor {parts : List Part} (absent : ∀ part ∈ parts, part.spells "AND" = false) :
    conjunction parts = factor parts := by
  rw [conjunction, List.splitOnP_eq_singleton absent]
  cases found : factor parts with
  | none => simp [found]
  | some tree => simp [found, connect]

theorem assemble_eq_conjunction {parts : List Part} (absent : ∀ part ∈ parts, part.spells "OR" = false) :
    assemble parts = conjunction parts := by
  rw [assemble, List.splitOnP_eq_singleton absent]
  cases found : conjunction parts with
  | none => simp [found]
  | some tree => simp [found, connect]

theorem factor_group {lead trail : List Part} (before : ∀ part ∈ lead, part.isBlank = true)
    (after : ∀ part ∈ trail, part.isBlank = true) (tree : Option Tree) (contents : Text) :
    factor (lead ++ .group tree contents :: trail) = tree := by
  induction lead with
  | nil => exact if_pos (List.all_eq_true.mpr after)
  | cons part lead ih =>
    obtain ⟨here, before⟩ := List.forall_mem_cons.mp before
    rw [List.cons_append, factor, if_pos here]
    exact ih before

theorem spells_of_isBlank {part : Part} (isBlank : part.isBlank = true) (keyword : Text) :
    part.spells keyword = false := by
  cases part with
  | group tree contents => rfl
  | single lexeme =>
    obtain rfl : lexeme = blank := by simpa [Part.isBlank] using isBlank
    rfl

theorem spells_around {lead trail : List Part} (before : ∀ part ∈ lead, part.isBlank = true)
    (after : ∀ part ∈ trail, part.isBlank = true) (tree : Option Tree) (contents keyword : Text) :
    ∀ part ∈ lead ++ .group tree contents :: trail, part.spells keyword = false := by
  refine List.forall_mem_append.mpr ⟨?_, List.forall_mem_cons.mpr ⟨rfl, ?_⟩⟩
  · exact fun part member => spells_of_isBlank (before part member) keyword
  · exact fun part member => spells_of_isBlank (after part member) keyword

theorem conjunction_group {lead trail : List Part} (before : ∀ part ∈ lead, part.isBlank = true)
    (after : ∀ part ∈ trail, part.isBlank = true) (tree : Option Tree) (contents : Text) :
    conjunction (lead ++ .group tree contents :: trail) = tree := by
  rw [conjunction_eq_factor (spells_around before after tree contents "AND"), factor_group before after]

/-- A word with a space on both sides. -/
def spaced (word : Text) : List Part := [.single blank, .single (.word word), .single blank]

/-- A group that has been read. -/
def grouped (group : Tree × Text) : List Part := [.group (some group.1) group.2]

/-- Groups with a word between them are read one by one. -/
theorem mapM_splitOnP (word keyword : Text) {read : List Part → Option Tree}
    (reads : ∀ {lead trail : List Part}, (∀ part ∈ lead, part.isBlank = true) →
      (∀ part ∈ trail, part.isBlank = true) → ∀ tree contents,
        read (lead ++ .group tree contents :: trail) = tree)
    (spelled : (Part.single (.word word)).spells keyword = true) (first : Tree × Text)
    (groups : List (Tree × Text)) (lead : List Part) (before : ∀ part ∈ lead, part.isBlank = true) :
    ((lead ++ (spaced word).intercalate ((first :: groups).map grouped)).splitOnP (·.spells keyword)).mapM read =
      some ((first :: groups).map (·.1)) := by
  induction groups generalizing first lead with
  | nil =>
    have nothing := List.forall_mem_nil fun part : Part => part.isBlank = true
    have whole := spells_around before nothing (some first.1) first.2 keyword
    rw [List.map_singleton, List.intercalate_singleton, grouped, List.splitOnP_eq_singleton whole]
    simp [reads before nothing]
  | cons next groups ih =>
    have space : ∀ part ∈ [Part.single blank], part.isBlank = true := by decide
    have whole := spells_around before space (some first.1) first.2 keyword
    have parts : lead ++ (spaced word).intercalate ((first :: next :: groups).map grouped) =
        (lead ++ .group (some first.1) first.2 :: [.single blank]) ++
          .single (.word word) :: ([.single blank] ++ (spaced word).intercalate ((next :: groups).map grouped)) := by
      simp [List.intercalate_cons_cons, grouped, spaced]
    rw [parts, List.splitOnP_append_cons_of_forall_mem whole _ spelled, List.mapM_cons, reads before space,
      ih next _ space]
    rfl

theorem spells_spaced {keyword : Text} (other : (Part.single (.word word)).spells keyword = false)
    (groups : List (Tree × Text)) :
    ∀ part ∈ (spaced word).intercalate (groups.map grouped), part.spells keyword = false := by
  refine forall_mem_intercalate ?_ (List.forall_mem_map.mpr fun group _ => List.forall_mem_singleton.mpr rfl)
  exact List.forall_mem_cons.mpr ⟨rfl, List.forall_mem_cons.mpr ⟨other, List.forall_mem_singleton.mpr rfl⟩⟩

/-- Groups that are connected make a junction. -/
theorem assemble_groups (connective : Connective) (first second : Tree × Text) (groups : List (Tree × Text)) :
    assemble ((spaced connective.symbol).intercalate ((first :: second :: groups).map grouped)) =
      some (.junction connective ((first :: second :: groups).map (·.1))) := by
  cases connective with
  | and =>
    rw [assemble_eq_conjunction (spells_spaced (by decide) _), conjunction]
    have trees := mapM_splitOnP Connective.and.symbol "AND" factor_group (by decide) first (second :: groups) []
      (List.forall_mem_nil _)
    rw [List.nil_append] at trees
    rw [trees]
    rfl
  | or =>
    rw [assemble]
    have trees := mapM_splitOnP Connective.or.symbol "OR" conjunction_group (by decide) first (second :: groups) []
      (List.forall_mem_nil _)
    rw [List.nil_append] at trees
    rw [trees]
    rfl

/-- A text that ends in something other than a space. -/
def Filled (t : Text) : Prop := t.getLast?.any (· ≠ Text.ascii ' ') = true

instance (t : Text) : Decidable (Filled t) := inferInstanceAs (Decidable (_ = true))

theorem filled_iff : Filled t ↔ ∃ b, t.getLast? = some b ∧ b ≠ Text.ascii ' ' := by
  simp [Filled, Option.any_eq_true]

theorem Filled.append (filled : Filled u) (t : Text) : Filled (t ++ u) := by
  obtain ⟨b, last, other⟩ := filled_iff.mp filled
  refine filled_iff.mpr ⟨b, ?_, other⟩
  rw [List.getLast?_append, last]
  rfl

theorem filled_bracketed (t : Text) : Filled (bracketed t) := Filled.append (by decide) (Text.ascii '(' :: t)

theorem trimEnd_of_filled (filled : Filled t) : trimEnd t = t := by
  obtain ⟨b, last, other⟩ := filled_iff.mp filled
  obtain ⟨init, rfl⟩ := List.getLast?_eq_some_iff.mp last
  simp [trimEnd, other]

theorem Literal.Writes.filled {literal : Literal} (writes : literal.Writes value) : Filled literal.print := by
  cases writes with
  | @number n _ digits =>
    refine filled_iff.mpr ⟨n.text.getLast (text_ne_nil n), List.getLast?_eq_some_getLast _, ?_⟩
    intro space
    have digit := digits _ (List.getLast_mem (text_ne_nil n))
    rw [space] at digit
    revert digit
    decide
  | @truth b _ => cases b <;> decide
  | quoted _ =>
    rw [Literal.print, quoted_eq]
    exact Filled.append (by decide) _

/-- A text without connectives outside brackets is a leaf, as it stands. -/
theorem assemble_solid (solid : Solid t) (filled : Filled t) :
    ∃ items, Reads t items ∧ assemble (Item.parts items) = some (.leaf t) := by
  obtain ⟨lexeme, items, reads, other, plain⟩ := solid
  refine ⟨_, reads, ?_⟩
  have spells : ∀ keyword ∈ connectors, ∀ part ∈ Item.parts (.single lexeme :: items),
      part.spells keyword = false := by
    intro keyword listed
    rw [Item.parts_eq_map]
    refine List.forall_mem_map.mpr fun item member => ?_
    rw [Item.spells_part]
    exact plain item member keyword listed
  have text : (Item.parts (.single lexeme :: items)).flatMap Part.text = t := by
    rw [text_parts]
    exact text_of_scan reads.scans
  have first : (Part.single lexeme).spells "NOT" = false :=
    spells "NOT" (by decide) _ List.mem_cons_self
  rw [assemble_eq_conjunction (spells "OR" (by decide)), conjunction_eq_factor (spells "AND" (by decide)),
    Item.parts, Item.part, factor, if_neg (by simpa [Part.isBlank] using other), first]
  rw [Item.parts, Item.part] at text
  simp only [Bool.false_eq_true, ↓reduceIte, term, text, trimEnd_of_filled filled]

theorem assemble_not (tree : Tree) (contents : Text) :
    assemble [.single (.word "NOT"), .single blank, .group (some tree) contents] = some (.not tree) := by
  have spells : ∀ keyword, (Part.single (.word "NOT")).spells keyword = false →
      ∀ part ∈ [Part.single (.word "NOT"), .single blank, .group (some tree) contents],
        part.spells keyword = false := by
    intro keyword other
    exact List.forall_mem_cons.mpr ⟨other, List.forall_mem_cons.mpr ⟨rfl, List.forall_mem_singleton.mpr rfl⟩⟩
  have space : ∀ part ∈ [Part.single blank], part.isBlank = true := by decide
  have child := factor_group space (List.forall_mem_nil _) (some tree) contents
  rw [assemble_eq_conjunction (spells "OR" (by decide)), conjunction_eq_factor (spells "AND" (by decide)),
    factor, if_neg (by decide), if_pos (by decide)]
  exact congrArg (Option.map Tree.not) child

end Reading

section Rendering

variable {schema : Schema} {scope : Scope}

theorem solid_of_column (found : scope.column path = .ok (value, field)) : Solid value.print := by
  obtain ⟨route, -, found⟩ := bind_eq_ok.mp found
  simp only at found
  split at found
  · obtain ⟨rfl, -⟩ := Prod.mk.inj (pure_eq_ok.mp found)
    rw [Expression.print]
    exact Column.solid _
  · obtain ⟨-, found⟩ := guard_eq_ok.mp found
    split at found
    · obtain ⟨inner, -, same⟩ := bind_eq_ok.mp found
      obtain ⟨rfl, -⟩ := Prod.mk.inj (pure_eq_ok.mp same)
      exact solid_ifPresent _ inner.plain
    · obtain ⟨rfl, -⟩ := Prod.mk.inj (pure_eq_ok.mp found)
      rw [Expression.print]
      exact Column.solid _

/-- The text of a leaf that stands alone, without its brackets. -/
def leafText (schema : Schema) (scope : Scope) (leaf : Restriction) : Text :=
  (((⟨schema, .standard⟩ : Renderer).condition scope leaf).toOption.map Condition.body).getD []

theorem leafText_eq (rendered : (⟨schema, .standard⟩ : Renderer).condition scope leaf = .ok condition) :
    leafText schema scope leaf = condition.body := by
  rw [leafText, rendered]
  rfl

/-- What stands between the brackets of the condition is read as the restriction. -/
def ReadsAs (schema : Schema) (scope : Scope) (restriction : Restriction) (condition : Condition) : Prop :=
  ∃ items, Reads condition.body items ∧
    assemble (Item.parts items) = some (restriction.tree (leafText schema scope))

theorem readsAs_comparison (rendered : (⟨schema, .standard⟩ : Renderer).condition scope
      (.comparison comparator property value) = .ok condition) :
    ReadsAs schema scope (.comparison comparator property value) condition := by
  have written := (mirrors_of_condition _ rendered).values
  rw [ReadsAs, Restriction.tree, leafText_eq rendered]
  obtain ⟨left, literal, rfl, solid⟩ : ∃ left literal,
      condition = .compare left comparator literal ∧ Solid left.print := by
    rw [Renderer.condition] at rendered
    obtain ⟨⟨column, field⟩, found, made⟩ := bind_eq_ok.mp rendered
    simp only at made
    split at made
    · obtain ⟨literal, -, same⟩ := bind_eq_ok.mp made
      obtain rfl := pure_eq_ok.mp same
      refine ⟨_, literal, rfl, ?_⟩
      split
      · exact solid_of_column found
      · exact solid_asText column.plain
    · obtain ⟨literal, -, same⟩ := bind_eq_ok.mp made
      obtain rfl := pure_eq_ok.mp same
      exact ⟨column, literal, rfl, solid_of_column found⟩
  have writes : literal.Writes value := (List.forall₂_cons.mp written).1
  refine assemble_solid (solid.followed (trailing_compare comparator writes.plain)) ?_
  exact (((writes.filled.append _).append _).append _).append _

theorem readsAs_isNull (rendered : (⟨schema, .standard⟩ : Renderer).condition scope (.isNull property) =
      .ok condition) : ReadsAs schema scope (.isNull property) condition := by
  rw [ReadsAs, Restriction.tree, leafText_eq rendered]
  rw [Renderer.condition] at rendered
  obtain ⟨⟨value, field⟩, found, same⟩ := bind_eq_ok.mp rendered
  obtain rfl := pure_eq_ok.mp same
  exact assemble_solid ((solid_of_column found).followed trailing_isNull) (Filled.append (by decide) _)

theorem readsAs_inValues (rendered : (⟨schema, .standard⟩ : Renderer).condition scope
      (.inValues property values) = .ok condition) :
    ReadsAs schema scope (.inValues property values) condition := by
  have written := (mirrors_of_condition _ rendered).values
  rw [ReadsAs, Restriction.tree, leafText_eq rendered]
  rw [Renderer.condition] at rendered
  obtain ⟨⟨value, field⟩, found, made⟩ := bind_eq_ok.mp rendered
  obtain ⟨literals, -, same⟩ := bind_eq_ok.mp made
  obtain rfl := pure_eq_ok.mp same
  refine assemble_solid ((solid_of_column found).followed (trailing_inValues (plain_of_writes written))) ?_
  exact ((filled_bracketed _).append _).append _

theorem readsAs_inQuery (rendered : (⟨schema, .standard⟩ : Renderer).condition scope
      (.inQuery property query) = .ok condition) :
    ReadsAs schema scope (.inQuery property query) condition := by
  have written := (mirrors_of_condition _ rendered).values
  rw [ReadsAs, Restriction.tree, leafText_eq rendered]
  rw [Renderer.condition] at rendered
  obtain ⟨⟨value, field⟩, found, made⟩ := bind_eq_ok.mp rendered
  obtain ⟨statement, -, same⟩ := bind_eq_ok.mp made
  obtain rfl := pure_eq_ok.mp same
  have plain := statement.plain (plain_of_writes written)
  refine assemble_solid ((solid_of_column found).followed (trailing_inQuery plain)) ?_
  exact ((filled_bracketed _).append _).append _

/-- A condition in brackets is a group that reads as the restriction. -/
theorem ReadsAs.group (reads : ReadsAs schema scope restriction condition) :
    ∃ items contents, Reads condition.print items ∧
      Item.parts items = grouped (restriction.tree (leafText schema scope), contents) := by
  obtain ⟨items, body, tree⟩ := reads
  have reads : Reads condition.print [.group items] := by
    rw [condition.print_eq]
    exact body.bracketed
  refine ⟨_, (Item.lexemesAll items).flatMap Lexeme.text, reads, ?_⟩
  rw [Item.parts, Item.parts, Item.part, tree]
  rfl

theorem ReadsAs.readTree_eq (reads : ReadsAs schema scope restriction condition) :
    readTree condition.print = some (restriction.tree (leafText schema scope)) := by
  obtain ⟨items, contents, reads, parts⟩ := reads.group
  have whole := conjunction_group (List.forall_mem_nil _) (List.forall_mem_nil _)
    (some (restriction.tree (leafText schema scope))) contents
  rw [readTree, reads.readItems_eq]
  change assemble (Item.parts items) = _
  rw [parts, grouped, assemble_eq_conjunction (List.forall_mem_singleton.mpr rfl)]
  exact whole

mutual

theorem readsAs_of_condition : (restriction : Restriction) → {condition : Condition} →
    (⟨schema, .standard⟩ : Renderer).condition scope restriction = .ok condition → restriction.Grouped →
    ReadsAs schema scope restriction condition
  | .missing, _, rendered, _ => by cases rendered
  | .comparison _ _ _, _, rendered, _ => readsAs_comparison rendered
  | .isNull _, _, rendered, _ => readsAs_isNull rendered
  | .inValues _ _, _, rendered, _ => readsAs_inValues rendered
  | .inQuery _ _, _, rendered, _ => readsAs_inQuery rendered
  | .not child, _, rendered, grouped => by
    rw [Renderer.condition] at rendered
    obtain ⟨condition, inner, same⟩ := bind_eq_ok.mp rendered
    obtain rfl := pure_eq_ok.mp same
    obtain ⟨items, contents, reads, parts⟩ := (readsAs_of_condition child inner grouped).group
    refine ⟨_, reads_not.append (.inl (by decide)) reads, ?_⟩
    rw [Item.parts_eq_map, List.map_append, ← Item.parts_eq_map items, parts]
    exact assemble_not _ contents
  | .junction connective children, _, rendered, grouped => by
    rw [Renderer.condition] at rendered
    obtain ⟨conditions, inner, same⟩ := bind_eq_ok.mp rendered
    obtain rfl := pure_eq_ok.mp same
    obtain ⟨lists, groups, reads, parts, trees⟩ := readsAs_of_conditions children inner grouped.2
    refine ⟨_, Reads.join (seam_separator connective) (reads_separator connective) reads, ?_⟩
    have several : 2 ≤ groups.length := by
      rw [← List.length_map (·.1), trees, Restriction.length_trees]
      exact grouped.1
    obtain ⟨first, second, groups, rfl⟩ : ∃ first second rest, groups = first :: second :: rest := by
      match groups, several with
      | first :: second :: rest, _ => exact ⟨first, second, rest, rfl⟩
    rw [parts_intercalate, parts, Restriction.tree, ← trees]
    exact assemble_groups connective first second groups

theorem readsAs_of_conditions : (children : List Restriction) → {conditions : List Condition} →
    (⟨schema, .standard⟩ : Renderer).conditions scope children = .ok conditions →
    Restriction.GroupedAll children →
    ∃ (lists : List (List Item)) (groups : List (Tree × Text)),
      List.Forall₂ Reads (Condition.printAll conditions) lists ∧ lists.map Item.parts = groups.map grouped ∧
      groups.map (·.1) = Restriction.trees (leafText schema scope) children
  | [], _, rendered, _ => by
    cases rendered
    exact ⟨[], [], .nil, rfl, rfl⟩
  | child :: children, _, rendered, each => by
    rw [Renderer.conditions] at rendered
    obtain ⟨condition, first, made⟩ := bind_eq_ok.mp rendered
    obtain ⟨conditions, rest, same⟩ := bind_eq_ok.mp made
    obtain rfl := pure_eq_ok.mp same
    obtain ⟨items, contents, reads, parts⟩ := (readsAs_of_condition child first each.1).group
    obtain ⟨lists, groups, more, others, trees⟩ := readsAs_of_conditions children rest each.2
    refine ⟨items :: lists, (child.tree (leafText schema scope), contents) :: groups, .cons reads more, ?_, ?_⟩
    · rw [List.map_cons, List.map_cons, parts, others]
    · rw [List.map_cons, trees, Restriction.trees]

end

/-- The text of a grouped restriction is read as that restriction, leaf by leaf; so restrictions of
different structure have different texts, wherever they stand. -/
theorem readTree_of_condition (schema : Schema) (scope : Scope) (restriction : Restriction)
    (grouped : restriction.Grouped) (condition : Condition)
    (rendered : (⟨schema, .standard⟩ : Renderer).condition scope restriction = .ok condition) :
    readTree condition.print = some (restriction.tree (leafText schema scope)) ∧
      ∀ (other : Restriction) (place : Scope) (another : Condition), other.Grouped →
        (⟨schema, .standard⟩ : Renderer).condition place other = .ok another →
        another.print = condition.print → other.shape = restriction.shape := by
  have reading := (readsAs_of_condition restriction rendered grouped).readTree_eq
  refine ⟨reading, ?_⟩
  intro other place another groups renders same
  have again := (readsAs_of_condition other renders groups).readTree_eq
  rw [same, reading] at again
  have shapes := congrArg Tree.shape (Option.some.inj again)
  rw [Restriction.shape_tree, Restriction.shape_tree] at shapes
  exact shapes.symm

end Rendering

def hatType : RecordType :=
  { id := "t1", name := "acme.Hat", label := "Hat", table := "hat", defaultField := "name"
    fields := [{ id := "f1", name := "id", label := "Id", column := "id", kind := .id },
      { id := "f2", name := "name", label := "Name", column := "name", kind := .text },
      { id := "f3", name := "size", label := "Size", column := "size", kind := .number }] }

def hatQuery : Criteria :=
  ⟨hatType, ["id"], [], some (.junction .or [.isNull "name", .isNull "size"]), [], [], none, none, [], true⟩

/-- Brackets and connectives in a name, and in a subquery. -/
def hatRestriction : Restriction :=
  .junction .or [.junction .and [.comparison .eq "name" (.text "') OR ("), .not (.comparison .gt "size" (.int 7))],
    .inQuery "id" hatQuery]

def hatScope : Scope := ⟨⟨[hatType]⟩, hatType, []⟩

theorem hats_readTree : ∃ condition,
    (⟨⟨[hatType]⟩, .standard⟩ : Renderer).condition hatScope hatRestriction = .ok condition ∧
    readTree condition.print = some (.junction .or [
      .junction .and [.leaf "\"this\".\"name\" = ''') OR ('", .not (.leaf "\"this\".\"size\" > 7")],
      .leaf (Text.ofString "\"this\".\"id\" IN (SELECT \"this\".\"id\" AS \"id\" FROM \"hat\" AS \"this\" WHERE " ++
        "((\"this\".\"name\" IS NULL) OR (\"this\".\"size\" IS NULL)))")]) := by
  have found : ((⟨⟨[hatType]⟩, .standard⟩ : Renderer).condition hatScope hatRestriction).toOption.isSome = true := by
    decide +kernel
  obtain ⟨condition, rendered⟩ := Option.isSome_iff_exists.mp found
  have rendered := toOption_eq_some.mp rendered
  have reading := (readTree_of_condition ⟨[hatType]⟩ hatScope hatRestriction
    ⟨by decide, ⟨by decide, trivial, trivial, trivial⟩, trivial, trivial⟩ condition rendered).1
  have name : leafText ⟨[hatType]⟩ hatScope (.comparison .eq "name" (.text "') OR (")) =
      "\"this\".\"name\" = ''') OR ('" := by decide +kernel
  have size : leafText ⟨[hatType]⟩ hatScope (.comparison .gt "size" (.int 7)) = "\"this\".\"size\" > 7" := by
    decide +kernel
  have query : leafText ⟨[hatType]⟩ hatScope (.inQuery "id" hatQuery) =
      Text.ofString "\"this\".\"id\" IN (SELECT \"this\".\"id\" AS \"id\" FROM \"hat\" AS \"this\" WHERE " ++
        "((\"this\".\"name\" IS NULL) OR (\"this\".\"size\" IS NULL)))" := by decide +kernel
  refine ⟨condition, rendered, reading.trans ?_⟩
  simp only [hatRestriction, Restriction.tree, Restriction.trees, name, size, query]

end Sql
end RecordQuery
