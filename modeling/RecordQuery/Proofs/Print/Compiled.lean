import RecordQuery.Proofs.Compile.Accepted
import RecordQuery.Proofs.Lexing.Words
import RecordQuery.Proofs.Print.Keys

/-! What is compiled from a text can be spelled again, apart from names that no text can spell: those
of types that go by a package, and those of default fields. -/
namespace RecordQuery

open Query

/-- The names that a query has from elsewhere than its text are words. -/
structure Criteria.WordedFrame (criteria : Criteria) : Prop where
  type : criteria.type.name.isWord = true
  properties : ∀ path ∈ criteria.properties, path.isWord = true

def Restriction.Worded (restriction : Restriction) (place : Place) : Prop :=
  restriction.Holds Criteria.WordedFrame (fun _ _ => True) place

/-- The types and the selected properties of a query and of all its subqueries have words for names. -/
def Criteria.Worded (criteria : Criteria) : Prop :=
  criteria.Holds Criteria.WordedFrame fun _ _ => True

section Windows

variable {operators : Text} {last : TokenKind} {seen : List Clause} {tokens : List Token}
  {found : List Window} {window : Window}

/-- What stands in a clause comes after a keyword. -/
theorem Query.Windows.traced (windows : Windows seen tokens found)
    (traced : Lexer.Traced operators last tokens) (member : window ∈ found) :
    Lexer.Traced operators .word window.tokens := by
  induction windows generalizing last with
  | nil => cases member
  | @cons seen token opened own after later opens ordered unbroken more ih =>
    obtain ⟨word, -, second, -⟩ := windowAt_eq_some opens
    have body : Lexer.Traced operators .word (own ++ after) := by
      have rest := traced.2
      rw [word] at rest
      cases shape : opened.second with
      | none => simpa [shape] using rest
      | some by_ =>
        have kind := second by_ shape
        simp only [shape, Option.toList_some, List.singleton_append] at rest
        exact kind ▸ rest.2
    obtain ⟨here, _, behind⟩ := body.append
    rcases List.mem_cons.mp member with rfl | inside
    · exact here
    · exact ih behind inside

theorem Query.Windows.unbroken (windows : Windows seen tokens found) (member : window ∈ found) :
    ∃ after, Unbroken after 0 window.tokens := by
  induction windows with
  | nil => cases member
  | cons _ _ unbroken _ ih =>
    rcases List.mem_cons.mp member with rfl | inside
    · exact ⟨_, unbroken⟩
    · exact ih inside

end Windows

/-- What is allowed outside of brackets is allowed everywhere if there are no brackets. -/
theorem allowed_of_surface {allowed : Token → List Token → Prop} {tokens : List Token}
    (surface : Surface allowed after 0 tokens)
    (plain : ∀ token ∈ tokens, token.kind = .word ∨ token.kind = .comma) (member : token ∈ tokens) :
    ∃ rest, allowed token rest := by
  induction tokens with
  | nil => cases member
  | cons first tokens ih =>
    have same : openAfter first 0 = 0 := by
      rcases plain first (.head _) with kind | kind <;> simp [openAfter, kind]
    have later := surface.2.2
    rw [same] at later
    rcases List.mem_cons.mp member with rfl | inside
    · exact ⟨_, surface.2.1 rfl⟩
    · exact ih later (fun other among => plain other (.tail _ among)) inside

/-- Keys that are taken from a clause, the first one from its start. -/
structure TakesKeys (tokens keys : List Token) : Prop where
  plain : ∀ token ∈ tokens, token.kind = .word ∨ token.kind = .comma
  inside : ∀ key ∈ keys, key ∈ tokens ∧ key.kind = .word
  first : keys.head? = tokens.head?

/-- Keys that are read from a clause can follow `BY` again. -/
theorem TakesKeys.spelled {tokens keys : List Token} (takes : TakesKeys tokens keys)
    (traced : Lexer.Traced Lexer.defaultOperators .word tokens) (unbroken : Unbroken after 0 tokens) :
    SpelledKeys (keys.map (·.text)) := by
  refine ⟨?_, ?_, ?_⟩
  · intro name member
    obtain ⟨key, listed, rfl⟩ := List.mem_map.mp member
    obtain ⟨inside, word⟩ := takes.inside key listed
    obtain ⟨_, origin⟩ := traced.origin inside
    exact origin.isWord word
  · intro name member
    obtain ⟨key, listed, rfl⟩ := List.mem_map.mp member
    obtain ⟨inside, word⟩ := takes.inside key listed
    obtain ⟨rest, quiet⟩ := allowed_of_surface unbroken takes.plain inside
    exact opensClause_of_quiet (Prod.ext word rfl) quiet
  · intro name head
    rw [List.head?_map] at head
    obtain ⟨key, front, rfl⟩ := Option.map_eq_some_iff.mp head
    obtain ⟨-, word⟩ := takes.inside key (List.mem_of_mem_head? front)
    rw [takes.first] at front
    cases tokens with
    | nil => cases front
    | cons token tokens =>
      cases front
      exact traced.1.unsigned word rfl

theorem SpelledKeys.eraseDups {keys : List Text} (spelled : SpelledKeys keys) :
    SpelledKeys keys.eraseDups := by
  refine ⟨?_, ?_, ?_⟩
  · intro key member
    exact spelled.words key (List.mem_eraseDups.mp member)
  · intro key member
    exact spelled.closed key (List.mem_eraseDups.mp member)
  · intro key head
    cases keys with
    | nil => cases head
    | cons first keys =>
      rw [List.eraseDups_cons] at head
      exact spelled.unsigned key head

/-- Keys are taken from lists of entries that are made up of words and start with their key. -/
theorem takesKeys_of_listed {α : Type} {entry : List Token → α → Prop} {tokens : List Token} {items : List α}
    (key : α → Token) (each : ∀ phrase item, entry phrase item →
      (∀ token ∈ phrase, token.kind = .word) ∧ phrase.head? = some (key item))
    (listed : Listed entry tokens items) : TakesKeys tokens (items.map key) := by
  refine ⟨?_, ?_, ?_⟩
  · intro token member
    rcases listed.comma_or_entry member with separator | ⟨phrase, item, entry, inside⟩
    · exact .inr separator
    · exact .inl ((each phrase item entry).1 token inside)
  · intro other member
    obtain ⟨item, among, rfl⟩ := List.mem_map.mp member
    obtain ⟨own, entry, inside⟩ := listed.exists_of_mem among
    obtain ⟨words, starts⟩ := each own item entry
    have front := List.mem_of_mem_head? starts
    exact ⟨inside _ front, words _ front⟩
  · cases listed with
    | one first => exact (each _ _ first).2.symm
    | cons first separator more =>
      rw [List.head?_append, (each _ _ first).2]
      rfl

theorem takesKeys_groupKeys {tokens : List Token}
    (unfailed : (groupKeys keyword tokens).failure = none) :
    TakesKeys tokens (groupKeys keyword tokens).keys := by
  have read : groupKeys keyword tokens = ⟨(groupKeys keyword tokens).keys, none⟩ := by rw [← unfailed]
  have takes := takesKeys_of_listed id ?_ (groupKeys_eq_iff.mp read)
  · rwa [List.map_id] at takes
  · rintro _ _ ⟨word⟩
    exact ⟨List.forall_mem_singleton.mpr word, rfl⟩

theorem takesKeys_orderKeys {tokens : List Token}
    (unfailed : (orderKeys next none tokens).failure = none) :
    TakesKeys tokens ((orderKeys next none tokens).keys.map (·.1)) := by
  have read : orderKeys next none tokens = ⟨(orderKeys next none tokens).keys, none⟩ := by rw [← unfailed]
  refine takesKeys_of_listed Prod.fst ?_ (orderKeys_eq_iff.mp read)
  rintro _ _ (word | ⟨word, directs, -⟩)
  · exact ⟨List.forall_mem_singleton.mpr word, rfl⟩
  · exact ⟨by simp [word, directs], rfl⟩

section Select

variable {schema : Schema} {type : RecordType} {selected : List Selected}

/-- The wildcard itself is selected only as the name of the default field. -/
theorem defaultField_of_wildcard (listed : Listed ItemPhrase phrase items)
    (bound : bindSelect schema type none items = .ok selected)
    (member : wildcardText ∈ selected.filterMap (·.property?)) : type.defaultField = wildcardText := by
  obtain ⟨all, -⟩ := bindSelect_eq_ok_iff.mp bound
  obtain ⟨entry, inside, selects⟩ := List.mem_filterMap.mp member
  obtain ⟨item, origin, made⟩ := forall₂_mem_right all inside
  obtain ⟨path, _, named, -, -, made⟩ := bindItem_eq_ok_iff.mp made
  obtain ⟨_, entry, -⟩ := listed.exists_of_mem origin
  cases entry with
  | @word token kind plain =>
    rw [SelectItem.ofWord] at named made
    split at named
    · rename_i wildcard
      rw [if_pos wildcard] at made
      subst made
      cases selects
      rw [SelectItem.path] at named
      split at named
      · cases named
      · exact Except.ok.inj named
    · rename_i other
      rw [if_neg other] at made
      subst made
      cases selects
      exact absurd (Except.ok.inj named) other
  | call _ _ _ _ _ _ =>
    obtain ⟨-, rfl⟩ := made
    cases selects

/-- The argument of a function is a word of the text, or the id that stands for records. -/
theorem argument_of_call (listed : Listed ItemPhrase phrase items)
    (traced : Lexer.Traced Lexer.defaultOperators last phrase)
    (bound : bindSelect schema type none items = .ok selected)
    (member : call ∈ selected.filterMap (·.aggregate?)) :
    call.property.isWord = true ∧ (call.function = .count → call.property ≠ wildcardText) := by
  obtain ⟨all, -⟩ := bindSelect_eq_ok_iff.mp bound
  obtain ⟨entry, inside, calls⟩ := List.mem_filterMap.mp member
  obtain ⟨item, origin, made⟩ := forall₂_mem_right all inside
  obtain ⟨path, _, named, -, -, made⟩ := bindItem_eq_ok_iff.mp made
  obtain ⟨_, entry, among⟩ := listed.exists_of_mem origin
  cases entry with
  | @word token kind plain =>
    by_cases wildcard : token.text = wildcardText
    · rw [SelectItem.ofWord, if_pos wildcard] at made
      subst made
      cases calls
    · rw [SelectItem.ofWord, if_neg wildcard] at made
      subst made
      cases calls
  | @call name opening argument closing function _ _ _ _ word _ =>
    obtain ⟨-, rfl⟩ := made
    cases calls
    rw [SelectItem.ofCall, SelectItem.path] at named
    split at named
    · have spelled : Text.isWord "id" = true := by decide
      have other : Text.ofString "id" ≠ wildcardText := by decide
      cases named
      exact ⟨spelled, fun _ => other⟩
    · rename_i other
      cases named
      obtain ⟨_, origin⟩ := traced.origin (among argument (by simp))
      refine ⟨origin.isWord word, ?_⟩
      intro count same
      exact other ⟨count, same⟩

end Select

theorem Query.ListPhrase.exists_of_mem (listed : ListPhrase tokens values) (member : value ∈ values) :
    ∃ token ∈ tokens, token.IsListValue ∧ .text token.value = value := by
  induction listed with
  | one kind =>
    obtain rfl := List.mem_singleton.mp member
    exact ⟨_, .head _, kind, rfl⟩
  | cons kind separator more ih =>
    rcases List.mem_cons.mp member with rfl | later
    · exact ⟨_, .head _, kind, rfl⟩
    · obtain ⟨other, inside, found⟩ := ih later
      exact ⟨other, .tail _ (.tail _ inside), found⟩

theorem Restriction.HoldsAll.imp {frame other : Criteria → Prop} {leaf better : Place → Restriction → Prop}
    {children : List Restriction} (holds : Restriction.HoldsAll frame leaf place children)
    (each : ∀ child ∈ children, ∀ place, child.Holds frame leaf place → child.Holds other better place) :
    Restriction.HoldsAll other better place children := by
  induction children generalizing place with
  | nil => trivial
  | cons child children ih =>
    refine ⟨each child (.head _) place holds.1, ?_⟩
    exact ih holds.2 fun other member => each other (.tail _ member)

namespace Compiler

variable {compiler : Compiler} {depth : Nat} {criteria : Criteria} {tokens : List Token}
  {last : TokenKind}

theorem Parts.phrase_within (parts : compiler.Parts tokens) : parts.phrase <:+: tokens := by
  refine ⟨[parts.select], parts.from_ :: parts.name :: parts.clauses, Eq.trans ?_ parts.shape.symm⟩
  simp

theorem Parts.clauses_within (parts : compiler.Parts tokens) : parts.clauses <:+: tokens := by
  refine ⟨parts.select :: (parts.phrase ++ [parts.from_, parts.name]), [], Eq.trans ?_ parts.shape.symm⟩
  simp

theorem spelledKeys_nil : SpelledKeys [] := ⟨by simp, by simp, by simp⟩

/-- A query that was put together can be spelled, its restriction apart, if its names are words. -/
theorem spelledFrame_of_assembly {read : RestrictionReader} (parts : compiler.Parts tokens)
    (traced : Lexer.Traced Lexer.defaultOperators last tokens)
    (assembly : Assembly compiler.schema read isSubquery ending parts.type parts.selected parts.found
      criteria) (worded : criteria.WordedFrame) : criteria.SpelledFrame := by
  have frames := frames_of_assembly parts.resolved parts.listed parts.bound assembly
  obtain ⟨_, tracedPhrase⟩ := traced.within parts.phrase_within
  obtain ⟨_, tracedClauses⟩ := traced.within parts.clauses_within
  have keys : ∀ {clause window next}, window? ending clause parts.found = some (window, next) →
      ∀ {keys}, TakesKeys window.tokens keys → SpelledKeys (keys.map (·.text)) := by
    intro clause window next found keys takes
    obtain ⟨member, -⟩ := mem_of_window? found
    obtain ⟨after, unbroken⟩ := parts.split.unbroken member
    exact takes.spelled (parts.split.traced tracedClauses member) unbroken
  refine ⟨worded.type, frames.selects, worded.properties, ?_, ?_, ?_, ?_, ?_, ?_, ?_, ?_⟩
  · intro member
    rw [assembly.properties, List.mem_eraseDups] at member
    rw [assembly.type]
    exact defaultField_of_wildcard parts.listed parts.bound member
  · intro call member
    rw [assembly.aggregates] at member
    exact (argument_of_call parts.listed tracedPhrase parts.bound member).1
  · intro call member
    rw [assembly.aggregates] at member
    exact (argument_of_call parts.listed tracedPhrase parts.bound member).2
  · intro call member
    obtain ⟨_, all⟩ := frames.aggregates
    exact (all call member).1
  · have groupBy := assembly.groupBy
    split at groupBy
    · rw [← groupBy]
      exact spelledKeys_nil
    · rename_i found
      obtain ⟨-, unfailed, same⟩ := bindGroupKeys_eq_ok_iff.mp groupBy
      rw [← same]
      exact (keys found (takesKeys_groupKeys unfailed)).eraseDups
  · have orderBy := assembly.orderBy
    split at orderBy
    · rw [← orderBy]
      exact spelledKeys_nil
    · rename_i found
      obtain ⟨-, unfailed, same⟩ := bindSortKeys_eq_ok_iff.mp orderBy
      have spelled := keys found (takesKeys_orderKeys unfailed)
      rw [← same]
      simpa [Function.comp_def] using spelled
  · intro count member
    exact (frames.limit count member).1
  · intro count member
    exact (frames.offset count member).1

/-- What the grammar derives from the tokens of a text can be spelled, if names are words. -/
def SpellsDerived (compiler : Compiler) (depth : Nat) : Prop :=
  ∀ last phrase restriction place, Lexer.Traced Lexer.defaultOperators last phrase →
    compiler.Derives depth phrase restriction → restriction.Worded place → restriction.Spelled place

/-- Subqueries that are compiled from the tokens of a text can be spelled, if names are words. -/
def SpellsSubqueries (compiler : Compiler) (depth : Nat) : Prop :=
  ∀ last closing tokens query, closing.kind = .closing →
    Lexer.Traced Lexer.defaultOperators last tokens →
    compiler.subquery depth closing tokens = .ok query → query.Worded → query.Spelled

theorem spelled_of_query (spells : compiler.SpellsDerived depth) (notWord : ending.kind ≠ .word)
    (traced : Lexer.Traced Lexer.defaultOperators last tokens)
    (compiled : compiler.query (compiler.restriction depth) isSubquery ending tokens = .ok criteria)
    (worded : criteria.Worded) : criteria.Spelled := by
  obtain ⟨parts, assembled⟩ := (query_eq_ok_iff notWord).mp compiled
  have assembly := assemble_eq_ok_iff.mp assembled
  obtain ⟨wordedFrame, wordedRestriction⟩ := Criteria.holds_iff.mp worded
  refine Criteria.holds_iff.mpr ⟨spelledFrame_of_assembly parts traced assembly wordedFrame, ?_⟩
  intro restriction given
  have related := assembly.restriction
  rw [Option.mem_def.mp given] at related
  generalize found : window? ending .where_ parts.found = window at related
  cases related with
  | @some pair _ related =>
    obtain ⟨window, next⟩ := pair
    obtain ⟨member, -⟩ := mem_of_window? found
    obtain ⟨_, tracedClauses⟩ := traced.within parts.clauses_within
    have inner := parts.split.traced tracedClauses member
    have brackets : Lexer.Traced Lexer.defaultOperators .eof (bracketed window next) :=
      ⟨.mark (.inl rfl), inner.opened.close rfl⟩
    obtain ⟨-, yields⟩ := readWhere_eq_ok_iff.mp related.1
    obtain ⟨phrase, shape, derived⟩ :=
      (reads_restriction compiler depth next _ brackets.written restriction []).mp yields
    rw [List.append_nil] at shape
    exact spells .eof phrase restriction .clause (shape ▸ brackets) derived
      (wordedRestriction restriction given)

theorem isPath_of_origin {token : Token} (origin : Lexer.Origin Lexer.defaultOperators last token)
    (path : token.IsPath) : token.text.isPath = true := by
  simp [Text.isPath, origin.isWord path.1, path.2]

/-- One level of the grammar, if what is nested in it can be spelled. -/
theorem spellsDerived_succ (spells : compiler.SpellsDerived depth)
    (queries : compiler.SpellsSubqueries depth) : compiler.SpellsDerived (depth + 1) := by
  intro last phrase restriction place traced derived worded
  have path : ∀ {token : Token}, token ∈ phrase → token.IsPath → token.text.isPath = true := by
    intro token member isPath
    obtain ⟨_, origin⟩ := traced.origin member
    exact isPath_of_origin origin isPath
  have quotable : ∀ {token : Token}, token ∈ phrase → token.kind = .word ∨ token.kind = .string →
      (Value.text token.value).IsQuotable := by
    intro token member kind
    obtain ⟨_, origin⟩ := traced.origin member
    exact origin.value_nonzero kind
  cases derived with
  | @bracket opening phrase _ closing opens inner closes =>
    obtain ⟨_, within⟩ := traced.within (List.infix_cons (List.prefix_append phrase [closing]).isInfix)
    exact spells _ phrase restriction place within inner worded
  | @junction opening phrase first connective tokens second others closing opens inner more closes =>
    have each : ∀ child ∈ first :: second :: others, ∀ place, child.Worded place → child.Spelled place := by
      intro child member place named
      rcases List.mem_cons.mp member with rfl | later
      · have inside : phrase <:+: opening :: (phrase ++ (tokens ++ [closing])) :=
          ⟨[opening], tokens ++ [closing], by simp⟩
        obtain ⟨_, within⟩ := traced.within inside
        exact spells _ phrase child place within inner named
      · obtain ⟨link, derived, among⟩ := more.exists_of_mem later
        have inside : tokens <:+: opening :: (phrase ++ (tokens ++ [closing])) :=
          ⟨opening :: phrase, [closing], by simp⟩
        obtain ⟨_, within⟩ := traced.within (among.trans inside)
        exact spells _ link child place within derived named
    exact worded.imp each
  | @not token phrase child negates inner =>
    exact spells _ phrase child place.next traced.2 inner worded
  | @comparison property token comparator value isPath compares operand =>
    refine ⟨path (by simp) isPath, quotable (by simp) ?_⟩
    rcases operand with string | isPath
    · exact .inr string
    · exact .inl isPath.1
  | isNull isPath tests => exact path (by simp) isPath
  | @inValues property token opening first tokens values closing isPath tests opens plain listed closes =>
    refine ⟨path (by simp) isPath, ?_⟩
    intro value member
    obtain ⟨token, inside, kind, rfl⟩ := listed.exists_of_mem member
    exact quotable (by simp only [List.mem_cons, List.mem_append] at inside ⊢; tauto) kind
  | @inQuery property token opening first closing tokens query isPath tests opens selects compiled closes =>
    have inside : first :: tokens <:+: property :: token :: opening :: (first :: tokens ++ [closing]) :=
      ⟨[property, token, opening], [closing], by simp⟩
    obtain ⟨_, within⟩ := traced.within inside
    exact ⟨path (by simp) isPath, queries _ closing _ query closes within compiled worded.2⟩

/-- Whatever is compiled from the tokens of a text can be spelled, however deep it is nested. -/
theorem spellsDerived (compiler : Compiler) (depth : Nat) :
    compiler.SpellsDerived depth ∧ compiler.SpellsSubqueries depth := by
  induction depth with
  | zero =>
    constructor
    · intro _ _ _ _ _ derived
      exact derived.elim
    · intro _ _ _ _ _ _ compiled
      cases compiled
  | succ depth ih =>
    obtain ⟨spells, queries⟩ := ih
    refine ⟨spellsDerived_succ spells queries, ?_⟩
    intro _ closing tokens query closes traced compiled
    exact spelled_of_query spells (by simp [closes]) traced compiled

end Compiler

end RecordQuery
