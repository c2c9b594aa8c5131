import RecordQuery.Proofs.Compile.Binding
import RecordQuery.Proofs.Grammar.Select
import RecordQuery.Proofs.Print.Placement

namespace RecordQuery

open Query

/-- The tokens of an entry. -/
def Query.Selected.piece : Selected → Piece
  | .property path => path.lexemes
  | .aggregate call _ => call.piece

/-- The entry is read back where it stands in a list. -/
def ReadsBack (schema : Schema) (type : RecordType) : Selected → Prop
  | .property path => path.sameFold "FROM" = false ∧
      (path = wildcardText → type.defaultField = wildcardText) ∧ schema.HasValue type path
  | .aggregate call overCollection => (call.function = .count → call.property ≠ wildcardText) ∧
      schema.HasAggregate type overCollection call

theorem Aggregate.ofName?_name {function : Aggregate} (named : function ≠ .unnamed) :
    Aggregate.ofName? function.name = some function := by
  cases function with
  | unnamed => exact absurd rfl named
  | _ => decide

theorem Aggregate.name_unlike_from {function : Aggregate} (named : function ≠ .unnamed) :
    function.name.sameFold "FROM" = false := by
  cases function with
  | unnamed => exact absurd rfl named
  | _ => decide

theorem bindItem_ofWord {schema : Schema} {type : RecordType} {token : Token}
    (wildcard : token.text = wildcardText → type.defaultField = wildcardText)
    (value : schema.HasValue type token.text) :
    bindItem schema type (.ofWord token) = .ok (.property token.text) := by
  obtain ⟨route, walked, single⟩ := value
  rw [bindItem_eq_ok_iff, SelectItem.ofWord]
  split
  · rename_i same
    refine ⟨token.text, route, ?_, walked, single, rfl⟩
    have given : type.defaultField.isEmpty = false := by
      rw [wildcard same]
      decide
    rw [SelectItem.path, given, wildcard same, same]
    rfl
  · exact ⟨token.text, route, rfl, walked, single, rfl⟩

theorem bindItem_ofCall {schema : Schema} {type : RecordType} {argument : Token}
    {call : AggregateCall} (text : argument.text = call.property)
    (counted : call.function = .count → call.property ≠ wildcardText)
    (aggregate : schema.HasAggregate type overCollection call) :
    bindItem schema type (.ofCall call.function argument) = .ok (.aggregate call overCollection) := by
  obtain ⟨-, route, walked, single, checked, rfl⟩ := aggregate
  have kept : ¬ (call.function = .count ∧ argument.text = wildcardText) := by
    rintro ⟨count, same⟩
    exact counted count (text ▸ same)
  rw [bindItem_eq_ok_iff, SelectItem.ofCall, if_neg kept]
  exact ⟨call.property, route, by rw [SelectItem.path, text], walked, single, checked, rfl⟩

/-- One entry is read back from its tokens. -/
theorem itemPhrase_of_lexemes {schema : Schema} {type : RecordType} {entry : Selected}
    {tokens : List Token} (reads : ReadsBack schema type entry)
    (same : tokens.map Token.lexeme = entry.piece true) :
    ∃ item, ItemPhrase tokens item ∧ bindItem schema type item = .ok entry := by
  cases entry with
  | property path =>
    obtain ⟨unlike, wildcard, value⟩ := reads
    rw [Selected.piece, path.lexemes_true] at same
    obtain ⟨token, rfl, is⟩ := List.map_eq_singleton_iff.mp same
    obtain ⟨kind, rfl⟩ := Token.lexeme_eq is
    refine ⟨.ofWord token, .word kind ?_, bindItem_ofWord wildcard value⟩
    simp [Token.isKeyword, unlike]
  | aggregate call overCollection =>
    obtain ⟨counted, aggregate⟩ := reads
    obtain ⟨name, more, rfl, is, rest⟩ := List.map_eq_cons_iff.mp same
    obtain ⟨opening, others, rfl, opens, inside⟩ := List.map_eq_cons_iff.mp rest
    obtain ⟨argument, last, rfl, argues, closed⟩ := List.map_eq_cons_iff.mp inside
    obtain ⟨closing, rfl, closes⟩ := List.map_eq_singleton_iff.mp closed
    obtain ⟨kind, text⟩ := Token.lexeme_eq is
    obtain ⟨argumentKind, argumentText⟩ := Token.lexeme_eq argues
    have plain : name.isKeyword "FROM" = false := by
      simp [Token.isKeyword, text, Aggregate.name_unlike_from aggregate.1]
    have named : Aggregate.ofName? name.text = some call.function := by
      rw [text, Aggregate.ofName?_name aggregate.1]
    exact ⟨_, .call kind plain named (Token.lexeme_eq opens).1 argumentKind (Token.lexeme_eq closes).1,
      bindItem_ofCall argumentText counted aggregate⟩

end RecordQuery
