import RecordQuery.Proofs.Document.RoundTrip
import RecordQuery.Proofs.Grammar.Move

/-! The depth that a compiler or a decoder allows decides when it gives up, and nothing else: with more
depth it does the same, up to where it gave up. -/
namespace RecordQuery

def QueryError.isTooDeep : QueryError → Bool
  | .malformed ⟨_, _, .tooDeep _⟩ => true
  | _ => false

section Extends

variable {α β : Type}

/-- Whether something was given up because it is nested too deep. -/
def isTooDeep : Except QueryError α → Bool
  | .error error => error.isTooDeep
  | .ok _ => false

theorem isTooDeep_of_ok {outcome : Except QueryError α} (made : outcome = .ok value) :
    isTooDeep outcome = false := by
  rw [made]
  rfl

/-- The second outcome is the first one, unless that came from giving up. -/
def Extends (shallow deep : Except QueryError α) : Prop := isTooDeep shallow = true ∨ deep = shallow

theorem Extends.refl (outcome : Except QueryError α) : Extends outcome outcome := .inr rfl

theorem extends_tooDeep (position : Option Position) (fragment : Text) (limit : Nat)
    (deep : Except QueryError α) : Extends (.error (.malformed ⟨position, fragment, .tooDeep limit⟩)) deep :=
  .inl rfl

theorem Extends.eq {shallow deep : Except QueryError α} (goesOn : Extends shallow deep)
    (settled : isTooDeep shallow = false) : deep = shallow :=
  goesOn.resolve_left (by simp [settled])

theorem isTooDeep_bind {step : Except QueryError α} (tooDeep : isTooDeep step = true)
    (next : α → Except QueryError β) : isTooDeep (step >>= next) = true := by
  cases step with
  | error error => exact tooDeep
  | ok value => cases tooDeep

theorem Extends.bind {shallow deep : Except QueryError α} {next after : α → Except QueryError β}
    (first : Extends shallow deep) (second : ∀ value, Extends (next value) (after value)) :
    Extends (shallow >>= next) (deep >>= after) := by
  rcases first with tooDeep | rfl
  · exact .inl (isTooDeep_bind tooDeep next)
  · cases deep with
    | error error => exact .refl _
    | ok value => exact second value

theorem Extends.bind_same {shallow deep : Except QueryError α} (first : Extends shallow deep)
    (next : α → Except QueryError β) : Extends (shallow >>= next) (deep >>= next) :=
  first.bind fun _ => .refl _

theorem extends_option_mapM {step step' : α → Except QueryError β}
    (each : ∀ value, Extends (step value) (step' value)) (value : Option α) :
    Extends (value.mapM step) (value.mapM step') := by
  cases value with
  | none => exact .refl _
  | some value =>
    rw [Option.mapM_some, Option.mapM_some, map_eq_pure_bind, map_eq_pure_bind]
    exact (each value).bind_same _

end Extends

namespace Query

variable {child child' : RestrictionReader} {subquery subquery' : SubqueryReader} {ending : Token}

theorem extends_membership
    (subqueries : ∀ closing tokens, Extends (subquery closing tokens) (subquery' closing tokens))
    (property opening closing : Token) (tokens : List Token) :
    Extends (membership subquery property opening closing tokens)
      (membership subquery' property opening closing tokens) := by
  cases tokens with
  | nil => exact .refl _
  | cons first rest =>
    rw [membership, membership]
    split
    · exact (subqueries _ _).bind_same _
    · exact .refl _

/-- A level is read the same way as long as what is nested in it is. -/
theorem extends_level (children : ∀ tokens, Extends (child ending tokens) (child' ending tokens))
    (subqueries : ∀ closing tokens, Extends (subquery closing tokens) (subquery' closing tokens))
    (opened : Nat) (phase : Phase) (tokens : List Token) :
    Extends (level child subquery ending opened phase tokens)
      (level child' subquery' ending opened phase tokens) := by
  induction size : tokens.length using Nat.strongRecOn generalizing opened phase tokens with
  | ind size ih =>
    subst size
    cases tokens with
    | nil =>
      rw [level, level]
      exact .refl _
    | cons token tokens =>
      rw [level_cons, level_cons]
      cases phase.move token opened (Part.ofToken token) with
      | finish made => exact .refl _
      | advance opened phase => exact (ih _ (Nat.lt_succ_self _) opened phase tokens rfl).bind_same _
      | descend opened phase =>
        refine (children tokens).bind ?_
        rintro ⟨first, rest, shorter⟩
        exact (ih _ (Nat.lt_succ_of_lt shorter) opened (phase first) rest rfl).bind_same _
      | negate => exact (children tokens).bind_same _
      | members property =>
        rw [Move.run, Move.run]
        split
        · exact (extends_membership subqueries _ _ _ _).bind_same _
        · exact .refl _

end Query

namespace Compiler

open Query

variable {compiler : Compiler} {read read' : RestrictionReader}

theorem extends_readWhere (reads : ∀ ending tokens, Extends (read ending tokens) (read' ending tokens))
    (window : Window) (next : Token) :
    Extends (readWhere read window next) (readWhere read' window next) := by
  rw [readWhere, readWhere]
  split
  · exact .refl _
  · exact (reads _ _).bind_same _

theorem extends_assemble (reads : ∀ ending tokens, Extends (read ending tokens) (read' ending tokens))
    (schema : Schema) (isSubquery : Bool) (ending : Token) (type : RecordType) (selected : List Selected)
    (windows : List Window) :
    Extends (assemble schema read isSubquery ending type selected windows)
      (assemble schema read' isSubquery ending type selected windows) := by
  rw [assemble, assemble]
  refine (extends_option_mapM ?_ _).bind_same _
  rintro ⟨window, next⟩
  exact (extends_readWhere reads window next).bind_same _

theorem extends_query (reads : ∀ ending tokens, Extends (read ending tokens) (read' ending tokens))
    (isSubquery : Bool) (ending : Token) (tokens : List Token) :
    Extends (compiler.query read isSubquery ending tokens)
      (compiler.query read' isSubquery ending tokens) := by
  rw [query, query]
  split
  · exact .refl _
  · refine (Extends.refl _).bind ?_
    rintro ⟨items, rest⟩
    dsimp only
    split
    · exact .refl _
    · split
      · refine (Extends.refl _).bind fun selected => (Extends.refl _).bind fun windows => ?_
        exact extends_assemble reads _ _ _ _ _ _
      · exact .refl _

/-- Restrictions and subqueries are read the same way with more depth, whatever limit is reported. -/
theorem extends_nested (schema : Schema) (packages : Packages) (operators : Text) (limit limit' : Nat)
    (more : depth ≤ depth') :
    (∀ ending tokens, Extends (restriction ⟨schema, packages, operators, limit⟩ depth ending tokens)
      (restriction ⟨schema, packages, operators, limit'⟩ depth' ending tokens)) ∧
    (∀ closing tokens, Extends (subquery ⟨schema, packages, operators, limit⟩ depth closing tokens)
      (subquery ⟨schema, packages, operators, limit'⟩ depth' closing tokens)) := by
  induction depth generalizing depth' with
  | zero => exact ⟨fun _ _ => extends_tooDeep .., fun _ _ => extends_tooDeep ..⟩
  | succ depth ih =>
    obtain ⟨deeper, rfl⟩ := Nat.exists_eq_add_of_le' more
    obtain ⟨restrictions, subqueries⟩ := ih (Nat.le_add_left depth deeper)
    constructor
    · intro ending tokens
      exact extends_level (restrictions ending) subqueries 0 .start tokens
    · intro closing tokens
      exact extends_query restrictions true closing tokens

theorem extends_compile (schema : Schema) (packages : Packages) (operators : Text) (more : depth ≤ depth')
    (text : Text) : Extends (compile ⟨schema, packages, operators, depth⟩ text)
      (compile ⟨schema, packages, operators, depth'⟩ text) := by
  rw [compile, compile]
  refine (Extends.refl _).bind ?_
  rintro ⟨tokens, ending⟩
  exact extends_query (extends_nested schema packages operators depth depth' more).1 false ending tokens

end Compiler

namespace Decoder

variable (schema : Schema) (packages : Packages) (limit limit' : Nat)

mutual

theorem extends_node (type : RecordType) (more : depth ≤ depth') : (given : DocumentNode) →
    Extends (node ⟨schema, packages, limit⟩ type depth given)
      (node ⟨schema, packages, limit'⟩ type depth' given)
  | ⟨written, ref, args⟩ => by
    by_cases shallow : depth = 0
    · rw [shallow, node.eq_def]
      exact extends_tooDeep ..
    · have deeper : depth' ≠ 0 := by omega
      have nested := extends_children type (Nat.sub_le_sub_right more 1) written args
      rw [node.eq_def ⟨schema, packages, limit⟩, node.eq_def ⟨schema, packages, limit'⟩]
      simp only [shallow, deeper, ↓reduceIte]
      split
      · exact .refl _
      · exact nested.bind_same _
      · exact nested.bind_same _
      · exact .refl _
      · rename_i document _
        refine (Extends.refl _).bind fun found => ?_
        exact (extends_document true (Nat.sub_le_sub_right more 2) document).bind_same _
      · exact .refl _
      · exact .refl _
termination_by given => sizeOf given

theorem extends_children (type : RecordType) (more : depth ≤ depth') (written : Text) :
    (args : List Argument) →
    Extends (children ⟨schema, packages, limit⟩ type depth written args)
      (children ⟨schema, packages, limit'⟩ type depth' written args)
  | [] => by
    rw [children, children]
    exact .refl _
  | .restriction child :: args => by
    rw [children, children]
    refine (extends_node type more child).bind fun first => ?_
    exact (extends_children type more written args).bind_same _
  | .value _ :: _ => by
    rw [children, children]
    exact .refl _
  | .subquery _ :: _ => by
    rw [children, children]
    exact .refl _
termination_by args => sizeOf args

theorem extends_nodes (type : RecordType) (more : depth ≤ depth') : (given : List DocumentNode) →
    Extends (nodes ⟨schema, packages, limit⟩ type depth given)
      (nodes ⟨schema, packages, limit'⟩ type depth' given)
  | [] => by
    rw [nodes, nodes]
    exact .refl _
  | first :: rest => by
    rw [nodes, nodes]
    refine (extends_node type more first).bind fun restriction => ?_
    exact (extends_nodes type more rest).bind_same _
termination_by given => sizeOf given

theorem extends_document (isSubquery : Bool) (more : depth ≤ depth') : (given : Document) →
    Extends (document ⟨schema, packages, limit⟩ depth isSubquery given)
      (document ⟨schema, packages, limit'⟩ depth' isSubquery given)
  | ⟨typeId, typeName, properties, groupings, restrictions, orderings, limit, offset⟩ => by
    rw [document, document]
    refine (Extends.refl _).bind fun type => (Extends.refl _).bind fun selected => ?_
    refine (Extends.refl _).bind fun groupBy => ?_
    exact (extends_nodes type more restrictions).bind_same _
termination_by given => sizeOf given

end

end Decoder

mutual

/-- How many connectives, negations and subqueries are nested in one another. -/
def Restriction.nesting : Restriction → Nat
  | .missing | .comparison _ _ _ | .isNull _ | .inValues _ _ => 0
  | .inQuery _ query => query.nesting + 1
  | .junction _ children => Restriction.nestingAll children + 1
  | .not child => child.nesting + 1

def Restriction.nestingAll : List Restriction → Nat
  | [] => 0
  | child :: children => max child.nesting (Restriction.nestingAll children)

def Criteria.nesting : Criteria → Nat
  | ⟨_, _, _, none, _, _, _, _, _, _⟩ => 0
  | ⟨_, _, _, some restriction, _, _, _, _, _, _⟩ => restriction.nesting

end

mutual

theorem Restriction.nesting_le_levels : (restriction : Restriction) →
    restriction.nesting ≤ restriction.levels
  | .missing | .comparison _ _ _ | .isNull _ | .inValues _ _ => Nat.zero_le _
  | .inQuery _ query => by
    have inner := query.nesting_le_levels
    simp only [Restriction.nesting, Restriction.levels]
    omega
  | .junction _ children => Nat.succ_le_succ (Restriction.nestingAll_le_levelsAll children)
  | .not child => Nat.succ_le_succ child.nesting_le_levels

theorem Restriction.nestingAll_le_levelsAll : (children : List Restriction) →
    Restriction.nestingAll children ≤ Restriction.levelsAll children
  | [] => Nat.zero_le _
  | child :: children => by
    have first := child.nesting_le_levels
    have others := Restriction.nestingAll_le_levelsAll children
    simp only [Restriction.nestingAll, Restriction.levelsAll]
    omega

theorem Criteria.nesting_le_levels : (criteria : Criteria) → criteria.nesting ≤ criteria.levels
  | ⟨_, _, _, none, _, _, _, _, _, _⟩ => Nat.zero_le _
  | ⟨_, _, _, some restriction, _, _, _, _, _, _⟩ => by
    have inner := restriction.nesting_le_levels
    simp only [Criteria.nesting, Criteria.levels]
    split <;> omega

end

/-- With more depth, a text is compiled and a document is decoded to the same query or the same error,
unless it was given up with less; and no compiled query has more connectives, negations and subqueries
in one another than the depth allows. -/
theorem same_outcome_of_more_depth (schema : Schema) (packages : Packages) (operators : Text)
    (depth depth' : Nat) (more : depth ≤ depth') :
    (∀ text, isTooDeep ((⟨schema, packages, operators, depth⟩ : Compiler).compile text) = false →
      (⟨schema, packages, operators, depth'⟩ : Compiler).compile text =
        (⟨schema, packages, operators, depth⟩ : Compiler).compile text) ∧
    (∀ document, isTooDeep ((⟨schema, packages, depth⟩ : Decoder).decode document) = false →
      (⟨schema, packages, depth'⟩ : Decoder).decode document =
        (⟨schema, packages, depth⟩ : Decoder).decode document) ∧
    (∀ text criteria, (⟨schema, packages, operators, depth⟩ : Compiler).compile text = .ok criteria →
      criteria.nesting ≤ depth) := by
  refine ⟨?_, ?_, ?_⟩
  · intro text settled
    exact (Compiler.extends_compile schema packages operators more text).eq settled
  · intro document settled
    exact (Decoder.extends_document schema packages depth depth' false more document).eq settled
  · intro text criteria compiled
    exact Nat.le_trans criteria.nesting_le_levels (Compiler.accepts_of_compile compiled).2.2

def pigeonCompiler (depth : Nat) : Compiler := ⟨⟨[pigeonType]⟩, ⟨"acme", []⟩, [], depth⟩

def pigeonDecoder (depth : Nat) : Decoder := ⟨⟨[pigeonType]⟩, ⟨"acme", []⟩, depth⟩

/-- Pigeons that have no mate. -/
def singlePigeons : Document :=
  ⟨[], "Pigeon", [{ ref := { name := "name" } }], [], [⟨"isnull", { name := "mate" }, []⟩], [], none, none⟩

theorem pigeons_more_depth :
    isTooDeep ((pigeonCompiler 6).compile pigeonText) = true ∧
      (∃ criteria, (pigeonCompiler 7).compile pigeonText = .ok criteria ∧
        (pigeonCompiler 32).compile pigeonText = .ok criteria ∧ criteria.nesting ≤ 7) ∧
      ∃ criteria, (pigeonDecoder 7).decode singlePigeons = .ok criteria ∧
        (pigeonDecoder 32).decode singlePigeons = .ok criteria := by
  obtain ⟨texts, documents, bounded⟩ :=
    same_outcome_of_more_depth ⟨[pigeonType]⟩ ⟨"acme", []⟩ [] 7 32 (by decide)
  have compiles : ((pigeonCompiler 7).compile pigeonText).toBool = true := by decide +kernel
  have decodes : ((pigeonDecoder 7).decode singlePigeons).toBool = true := by decide +kernel
  obtain ⟨criteria, compiled⟩ := exists_ok_of_toBool compiles
  obtain ⟨single, decoded⟩ := exists_ok_of_toBool decodes
  refine ⟨by decide +kernel, ⟨criteria, compiled, ?_, bounded _ _ compiled⟩, single, decoded, ?_⟩
  · exact (texts _ (isTooDeep_of_ok compiled)).trans compiled
  · exact (documents _ (isTooDeep_of_ok decoded)).trans decoded

end RecordQuery
