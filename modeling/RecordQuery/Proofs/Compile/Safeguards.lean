import RecordQuery.Proofs.Compile.Raised
import RecordQuery.Proofs.Depth.Guard

/-! The reader of restrictions is on its guard against brackets that do not match. It need not be: the
clauses of a query are read only if their brackets match, and then every window and every part of one that
is handed on is in brackets that match as well. A reader that raises an alarm wherever the other is on its
guard reads the same. -/
namespace RecordQuery

theorem bind_congr_of_ok {step other : Except ε α} {next after : α → Except ε β} (same : other = step)
    (later : ∀ value, step = .ok value → after value = next value) : other >>= after = step >>= next := by
  rw [same]
  cases step with
  | error error => rfl
  | ok value => exact later value rfl

namespace Query

/-- What the reader of restrictions is on its guard against. -/
inductive Safeguard where
  /-- On a level with an open bracket another one opens. -/
  | reopened
  /-- A bracket closes on a level and others are still open on it. -/
  | stillOpen
  /-- A comparison ends while a bracket is open on its level. -/
  | unclosed
  /-- A level goes on behind the last token. -/
  | ranOut
  /-- The bracket after `IN` is never closed. -/
  | noClosing
  /-- There are tokens behind the restriction of a window. -/
  | leftOver

variable (alarm : Safeguard → QueryError)

/-- Reads a level, and raises an alarm instead of being on its guard. -/
def guardedLevel (child : RestrictionReader) (subquery : SubqueryReader) (ending : Token) (opened : Nat)
    (phase : Phase) : (tokens : List Token) → Except QueryError (Parsed tokens)
  | [] => .error (alarm .ranOut)
  | token :: rest =>
    match phase, Part.ofToken token with
    | .start, .opening =>
      if opened ≠ 0 then .error (alarm .reopened)
      else do
        let (first, ⟨rest, _⟩) ← child ending rest
        let (whole, ⟨rest, _⟩) ←
          guardedLevel child subquery ending (opened + 1) (.chain none [first]) rest
        return (whole, ⟨rest, by simp only [List.length_cons]; omega⟩)
    | .predicate property .isIn _, .opening =>
      match found : splitClosing 0 rest with
      | none => .error (alarm .noClosing)
      | some (inner, closing, rest) => do
        let whole ← membership subquery property token closing inner
        return (whole, ⟨rest, Nat.lt_succ_of_lt (splitClosing_shorter found)⟩)
    | phase, .closing =>
      if opened > 1 then .error (alarm .stillOpen)
      else do return (← phase.close token, ⟨rest, by simp⟩)
    | .chain joined children, .connective connective =>
      if Phase.continues joined connective then do
        let (next, ⟨rest, _⟩) ← child ending rest
        let (whole, ⟨rest, _⟩) ←
          guardedLevel child subquery ending opened (.chain (some connective) (children ++ [next])) rest
        return (whole, ⟨rest, by simp only [List.length_cons]; omega⟩)
      else .error (.atToken token .mixedConnectives)
    | .start, .not => do
      let (inner, ⟨rest, _⟩) ← child ending rest
      return (.not inner, ⟨rest, by simp only [List.length_cons]; omega⟩)
    | .subject property, .isNull => .ok (.isNull property.text, ⟨rest, by simp⟩)
    | .subject property, .relation relation => do
      let (whole, ⟨rest, _⟩) ←
        guardedLevel child subquery ending opened (.predicate property relation token) rest
      return (whole, ⟨rest, by simp only [List.length_cons]; omega⟩)
    | .start, .operand =>
      if token.kind = .word then do
        let (whole, ⟨rest, _⟩) ← guardedLevel child subquery ending opened (.subject token) rest
        return (whole, ⟨rest, by simp only [List.length_cons]; omega⟩)
      else .error (.atToken token (.unexpected .property))
    | .predicate property (.compare comparator) _, .operand =>
      if opened ≠ 0 then .error (alarm .unclosed)
      else .ok (.comparison comparator property.text (.text token.value), ⟨rest, by simp⟩)
    | phase, part => .error (.atToken token (phase.refusal token part))
  termination_by tokens => tokens.length

/-- Reads a restriction that has to take all the tokens. -/
def guardedWhole (read : RestrictionReader) : RestrictionReader := fun ending tokens => do
  let (restriction, ⟨rest, shorter⟩) ← read ending tokens
  if rest.isEmpty then return (restriction, ⟨rest, shorter⟩) else throw (alarm .leftOver)

end Query

namespace Compiler

open Query

variable (alarm : Safeguard → QueryError)

mutual

/-- Reads a restriction as `restriction` does, with alarms. -/
def guardedRestriction (compiler : Compiler) : (depth : Nat) → RestrictionReader
  | 0 => fun ending tokens =>
    .error (.atToken (tokens.headD ending) (.tooDeep compiler.maxDepth))
  | depth + 1 => fun ending tokens =>
    guardedLevel alarm (guardedRestriction compiler depth) (guardedSubquery compiler depth) ending 0 .start
      tokens

/-- Reads a subquery as `subquery` does, with alarms. -/
def guardedSubquery (compiler : Compiler) : (depth : Nat) → SubqueryReader
  | 0 => fun closing tokens =>
    .error (.atToken (tokens.headD closing) (.tooDeep compiler.maxDepth))
  | depth + 1 => fun closing tokens =>
    compiler.query (guardedWhole alarm (guardedRestriction compiler depth)) true closing tokens

end

/-- Compiles a query text as `compile` does, with alarms. -/
def guardedCompile (compiler : Compiler) (text : Text) : Except QueryError Criteria := do
  let (tokens, ending) ← (Lexer.start text compiler.operators).run.mapError .malformed
  compiler.query (guardedWhole alarm (compiler.guardedRestriction alarm compiler.maxDepth)) false ending tokens

end Compiler

namespace Query

variable {alarm : Safeguard → QueryError}

theorem guardedLevel_isIn {child : RestrictionReader} {subquery : SubqueryReader} {ending token : Token}
    {tokens inner : List Token} (part : Part.ofToken token = .opening)
    (found : splitClosing 0 tokens = some (inner, closing, rest)) :
    guardedLevel alarm child subquery ending opened (.predicate property .isIn operator) (token :: tokens) = (do
      let whole ← membership subquery property token closing inner
      return (whole, ⟨rest, Nat.lt_succ_of_lt (splitClosing_shorter found)⟩)) := by
  rw [guardedLevel.eq_def]
  simp only [part]
  split
  · rename_i missing
    cases found.symm.trans missing
  · rename_i again
    cases found.symm.trans again
    rfl

/-- Readers of what is nested that do not notice the alarms. -/
structure Unalarmed (child guarded : RestrictionReader) (subquery guardedSubquery : SubqueryReader) : Prop where
  restrictions : ∀ depth ending tokens, Ahead (depth + 1) tokens → guarded ending tokens = child ending tokens
  ahead : ∀ depth ending tokens restriction rest, Ahead (depth + 1) tokens →
    Yields (child ending tokens) restriction rest → Ahead (depth + 1) rest
  subqueries : ∀ closing tokens, (∀ token ∈ tokens, token.kind.isWritten = true) →
    guardedSubquery closing tokens = subquery closing tokens

namespace Unalarmed

variable {child guarded : RestrictionReader} {subquery guardedSubquery : SubqueryReader} {ending token : Token}
  {tokens : List Token} {depth : Nat}

theorem membership_eq (nested : Unalarmed child guarded subquery guardedSubquery)
    (written : ∀ token ∈ tokens, token.kind.isWritten = true) (property opening closing : Token) :
    membership guardedSubquery property opening closing tokens =
      membership subquery property opening closing tokens := by
  cases tokens with
  | nil => rfl
  | cons first rest => rw [membership, membership, nested.subqueries closing _ written]

theorem predicate_eq (nested : Unalarmed child guarded subquery guardedSubquery)
    (ahead : Ahead (depth + 1) tokens) (property : Token) (relation : Relation) (operator : Token) :
    guardedLevel alarm guarded guardedSubquery ending 0 (.predicate property relation operator) tokens =
      level child subquery ending 0 (.predicate property relation operator) tokens := by
  cases tokens with
  | nil => exact absurd ahead Ahead.not_nil
  | cons token tokens =>
    by_cases listed : relation = .isIn ∧ Part.ofToken token = .opening
    · obtain ⟨rfl, part⟩ := listed
      have inside := ahead.of_opening (Part.ofToken_eq_opening.mp part)
      obtain ⟨inner, closing, rest, found, rfl, -⟩ := inside.exists_splitClosing
      have written : ∀ token ∈ inner, token.kind.isWritten = true :=
        fun token member => inside.written token (List.mem_append_left _ member)
      rw [guardedLevel_isIn part found, level_isIn part found, nested.membership_eq written]
    · rw [guardedLevel.eq_def, level.eq_def]
      cases relation <;> cases part : Part.ofToken token <;> simp only [part]
      case isIn.opening => exact absurd ⟨rfl, part⟩ listed
      all_goals rfl

theorem subject_eq (nested : Unalarmed child guarded subquery guardedSubquery)
    (ahead : Ahead (depth + 1) tokens) (property : Token) :
    guardedLevel alarm guarded guardedSubquery ending 0 (.subject property) tokens =
      level child subquery ending 0 (.subject property) tokens := by
  cases tokens with
  | nil => exact absurd ahead Ahead.not_nil
  | cons token tokens =>
    rw [guardedLevel.eq_def, level.eq_def]
    cases part : Part.ofToken token <;> simp only [part]
    case relation relation =>
      rw [nested.predicate_eq (ahead.of_part (by simp [part]) (by simp [part]))]
    all_goals rfl

/-- In brackets, up to the one that closes them. -/
theorem chain_eq (nested : Unalarmed child guarded subquery guardedSubquery)
    (ahead : Ahead (depth + 1) tokens) (joined : Option Connective) (children : List Restriction) :
    guardedLevel alarm guarded guardedSubquery ending 1 (.chain joined children) tokens =
      level child subquery ending 1 (.chain joined children) tokens := by
  induction size : tokens.length using Nat.strongRecOn generalizing tokens joined children with
  | ind size ih =>
    subst size
    cases tokens with
    | nil => exact absurd ahead Ahead.not_nil
    | cons token tokens =>
      rw [guardedLevel.eq_def, level.eq_def]
      cases part : Part.ofToken token <;> simp only [part]
      case connective connective =>
        have later := ahead.of_part (by simp [part]) (by simp [part])
        split
        · refine bind_congr_of_ok (nested.restrictions _ _ _ later) ?_
          rintro ⟨next, rest, shorter⟩ read
          dsimp only
          rw [ih rest.length (Nat.lt_succ_of_lt shorter) (nested.ahead _ _ _ _ _ later ⟨shorter, read⟩) _ _ rfl]
        · rfl
      all_goals rfl

theorem bracket_eq (nested : Unalarmed child guarded subquery guardedSubquery) (opens : token.kind = .opening)
    (ahead : Ahead (depth + 1) tokens) :
    guardedLevel alarm guarded guardedSubquery ending 0 .start (token :: tokens) =
      level child subquery ending 0 .start (token :: tokens) := by
  rw [guardedLevel.eq_def, level.eq_def]
  simp only [Part.ofToken_eq_opening.mpr opens]
  refine bind_congr_of_ok (nested.restrictions _ _ _ ahead) ?_
  rintro ⟨first, rest, shorter⟩ read
  dsimp only
  rw [nested.chain_eq (nested.ahead _ _ _ _ _ ahead ⟨shorter, read⟩)]

theorem start_eq (nested : Unalarmed child guarded subquery guardedSubquery) (ahead : Ahead (depth + 1) tokens) :
    guardedLevel alarm guarded guardedSubquery ending 0 .start tokens =
      level child subquery ending 0 .start tokens := by
  cases tokens with
  | nil => exact absurd ahead Ahead.not_nil
  | cons token tokens =>
    by_cases opens : Part.ofToken token = .opening
    · have opens := Part.ofToken_eq_opening.mp opens
      exact nested.bracket_eq opens (ahead.of_opening opens)
    · rw [guardedLevel.eq_def, level.eq_def]
      cases part : Part.ofToken token <;> simp only [part]
      case opening => exact absurd part opens
      case not => rw [nested.restrictions _ _ _ (ahead.of_part opens (by simp [part]))]
      case operand =>
        split
        · rw [nested.subject_eq (ahead.of_part opens (by simp [part]))]
        · rfl
      all_goals rfl

end Unalarmed

end Query

namespace Compiler

open Query

variable {compiler : Compiler} {alarm : Safeguard → QueryError} {read guarded : RestrictionReader}

theorem readWhere_congr (balanced : Balanced 0 window.tokens)
    (written : ∀ token ∈ window.tokens, token.kind.isWritten = true)
    (same : ∀ ending opening tokens, opening.kind = .opening → Ahead 1 tokens →
      guarded ending (opening :: tokens) = read ending (opening :: tokens)) (next : Token) :
    readWhere guarded window next = readWhere read window next := by
  have ahead : Ahead 1 (window.tokens ++ [⟨.closing, ")", next.position⟩]) :=
    .of_balanced balanced written rfl
  rw [readWhere, readWhere]
  simp only [List.cons_append]
  rw [same next ⟨.opening, "(", window.keyword.position⟩ _ rfl ahead]

theorem assemble_congr (balanced : ∀ window ∈ found, Balanced 0 window.tokens)
    (written : ∀ window ∈ found, ∀ token ∈ window.tokens, token.kind.isWritten = true)
    (same : ∀ ending opening tokens, opening.kind = .opening → Ahead 1 tokens →
      guarded ending (opening :: tokens) = read ending (opening :: tokens))
    (schema : Schema) (isSubquery : Bool) (ending : Token) (type : RecordType) (selected : List Selected) :
    assemble schema guarded isSubquery ending type selected found =
      assemble schema read isSubquery ending type selected found := by
  rw [assemble, assemble]
  cases where_ : window? ending .where_ found with
  | none => rfl
  | some place =>
    obtain ⟨window, next⟩ := place
    obtain ⟨member, -⟩ := mem_of_window? where_
    simp only [Option.mapM_some, readWhere_congr (balanced _ member) (written _ member) same]

/-- Readers that read the windows of a query alike make the same of it. -/
theorem query_congr (written : ∀ token ∈ tokens, token.kind.isWritten = true)
    (same : ∀ ending opening tokens, opening.kind = .opening → Ahead 1 tokens →
      guarded ending (opening :: tokens) = read ending (opening :: tokens))
    (isSubquery : Bool) (ending : Token) :
    compiler.query guarded isSubquery ending tokens = compiler.query read isSubquery ending tokens := by
  rw [query, query]
  split
  · rfl
  · refine bind_congr_of_ok rfl ?_
    rintro ⟨items, rest⟩ listed
    dsimp only
    split
    · rfl
    · split
      · refine bind_congr_of_ok rfl fun selected _ => bind_congr_of_ok rfl fun found split => ?_
        have clauses := windows_eq_ok_iff.mp split
        refine assemble_congr (fun window member => (clauses.each window member).2.1) ?_ same ..
        intro window member token inside
        have behind := (suffix_of_selectList listed).subset (List.mem_of_mem_drop (clauses.mem_tokens member inside))
        exact written token (List.mem_of_mem_drop behind)
      · rfl

/-- Behind the restriction of a window there is nothing. -/
theorem guardedWhole_eq (opens : opening.kind = .opening) (ahead : Ahead 1 tokens)
    (same : guarded ending (opening :: tokens) = compiler.restriction depth ending (opening :: tokens)) :
    guardedWhole alarm guarded ending (opening :: tokens) =
      compiler.restriction depth ending (opening :: tokens) := by
  rw [guardedWhole, same]
  cases read : compiler.restriction depth ending (opening :: tokens) with
  | error error => rfl
  | ok parsed =>
    obtain ⟨restriction, rest, shorter⟩ := parsed
    obtain rfl := eq_nil_of_restriction opens ahead ⟨shorter, read⟩
    rfl

/-- No alarm is raised in restrictions that stand in brackets, and none in subqueries. -/
theorem guarded_eq (compiler : Compiler) (depth : Nat) :
    (∀ opened ending tokens, Ahead (opened + 1) tokens →
      compiler.guardedRestriction alarm depth ending tokens = compiler.restriction depth ending tokens) ∧
    (∀ ending opening tokens, opening.kind = .opening → Ahead 1 tokens →
      guardedWhole alarm (compiler.guardedRestriction alarm depth) ending (opening :: tokens) =
        compiler.restriction depth ending (opening :: tokens)) ∧
    (∀ closing tokens, (∀ token ∈ tokens, token.kind.isWritten = true) →
      compiler.guardedSubquery alarm depth closing tokens = compiler.subquery depth closing tokens) := by
  induction depth with
  | zero =>
    refine ⟨fun _ _ _ _ => rfl, ?_, fun _ _ _ => rfl⟩
    intro ending opening tokens opens ahead
    exact guardedWhole_eq opens ahead rfl
  | succ depth ih =>
    obtain ⟨restrictions, wholes, subqueries⟩ := ih
    have nested : Unalarmed (compiler.restriction depth) (compiler.guardedRestriction alarm depth)
        (compiler.subquery depth) (compiler.guardedSubquery alarm depth) := by
      refine ⟨restrictions, ?_, subqueries⟩
      intro opened ending tokens restriction rest ahead read
      exact (ahead_of_restriction ahead read).2
    refine ⟨?_, ?_, ?_⟩
    · intro opened ending tokens ahead
      exact nested.start_eq ahead
    · intro ending opening tokens opens ahead
      exact guardedWhole_eq opens ahead (nested.bracket_eq opens ahead)
    · intro closing tokens written
      exact query_congr written wholes true closing

/-- Whatever the alarms are, none is raised. -/
theorem guardedCompile_eq (alarm : Safeguard → QueryError) (compiler : Compiler) (text : Text) :
    compiler.guardedCompile alarm text = compiler.compile text := by
  rw [guardedCompile, compile]
  refine bind_congr_of_ok rfl ?_
  rintro ⟨tokens, ending⟩ ran
  have written := (Lexer.run_traced (mapError_eq_ok.mp ran)).1.written
  exact query_congr written (guarded_eq compiler compiler.maxDepth).2.1 false ending

/-- Whatever alarms the safeguards of the reader are replaced by, a compiler makes the same of a text: no level
ever has more than one open bracket or one that is open behind its last token, the bracket after `IN` is
closed, and a restriction takes the whole window. If an error says that brackets do not match, it is one of
the scan of the outermost clauses; and the brackets of a text that compiles match. -/
theorem safeguards_unused (compiler : Compiler) (text : Text) :
    (∀ alarm, compiler.guardedCompile alarm text = compiler.compile text) ∧
    (∀ error, compiler.compile text = .error (.malformed error) → error.cause.isMismatch = true →
      ∃ tokens ending items rest, (Lexer.start text compiler.operators).run = .ok (tokens, ending) ∧
        selectList ending .first (tokens.drop 1) = .ok (items, rest) ∧
        windows ending (rest.drop 1) = .error (.malformed error)) ∧
    (∀ criteria, compiler.compile text = .ok criteria →
      ∃ tokens ending, (Lexer.start text compiler.operators).run = .ok (tokens, ending) ∧ Balanced 0 tokens) := by
  refine ⟨fun alarm => guardedCompile_eq alarm compiler text, ?_, ?_⟩
  · intro error failed mismatch
    generalize shape : QueryError.malformed error = failure at failed
    cases refusal_of_compile failed with
    | lexed unterminated =>
      cases shape
      obtain ⟨_, _, _, _, _, _, _, _, rfl⟩ := Lexer.run_error unterminated
      cases mismatch
    | @scanned tokens rest ending items _ ran listed found =>
      exact ⟨tokens, ending, items, rest, ran, listed, shape ▸ found⟩
    | raised ran raised =>
      rw [raised.isMismatch_cause shape.symm] at mismatch
      cases mismatch
  · intro criteria compiled
    obtain ⟨⟨tokens, ending⟩, ran, compiled⟩ := bind_eq_ok.mp compiled
    have ran := mapError_eq_ok.mp ran
    refine ⟨tokens, ending, ran, balanced_of_query ?_ compiled⟩
    simp [(Lexer.run_traced ran).2]

/-- A subquery that lacks a bracket. -/
def ajarText : Text := "SELECT name FROM Pigeon WHERE mate IN (SELECT id FROM Pigeon WHERE (name = 'x')"

def ajarError : SyntaxError := ⟨some ⟨1, 80, 79⟩, "end of query", .unmatchedBracket⟩

/-- Brackets in brackets raise no alarm, and a missing bracket is found by the scan of the outermost clauses. -/
theorem pigeons_unalarmed :
    ((pigeonCompiler 32).guardedCompile (fun _ => .atNode [] .noSelect) pigeonText).toBool = true ∧
      ∃ tokens ending items rest, (Lexer.start ajarText []).run = .ok (tokens, ending) ∧
        selectList ending .first (tokens.drop 1) = .ok (items, rest) ∧
        windows ending (rest.drop 1) = .error (.malformed ajarError) := by
  have compiles : ((pigeonCompiler 32).compile pigeonText).toBool = true := by decide +kernel
  have refused : failure? ((pigeonCompiler 32).compile ajarText) = some (.malformed ajarError) := by decide +kernel
  constructor
  · rw [(safeguards_unused (pigeonCompiler 32) pigeonText).1]
    exact compiles
  · exact (safeguards_unused (pigeonCompiler 32) ajarText).2.1 ajarError (failure?_eq_some.mp refused) rfl

end Compiler
end RecordQuery
