import Mathlib.Data.List.Induction
import Mathlib.Logic.Function.Iterate
import RecordQuery.Proofs.Lexing.Tiling

/-! Where a lexer stands in its text. Lines and columns are counted as the text is read, and every token and
every error gets the line and the column of its offset, however often the lexer is asked. -/
namespace RecordQuery

namespace Position

/-- The line and the column are those of the offset. -/
structure IsExact (place : Position) (text : Text) : Prop where
  inside : place.offset ≤ text.length
  line : place.line = 1 + (text.take place.offset).count 0x0A
  column : place.column = 1 + (Text.afterLast 0x0A (text.take place.offset)).length

theorem line_advance (place : Position) (read : Text) :
    (place.advance read).line = place.line + read.count 0x0A := by
  induction read generalizing place with
  | nil => rfl
  | cons b read ih =>
    rw [advance, List.foldl_cons, ← advance, ih]
    by_cases newline : b = 0x0A
    · subst newline
      rw [List.count_cons_self, step, if_pos rfl]
      exact Nat.add_right_comm ..
    · rw [List.count_cons_of_ne newline, step, if_neg newline]

/-- The column starts again after each newline, so the induction is on the end of what is read. -/
theorem column_advance (read : Text) :
    (start.advance read).column = 1 + (Text.afterLast 0x0A read).length := by
  induction read using List.reverseRecOn with
  | nil => rfl
  | append_singleton read b ih =>
    have last : start.advance (read ++ [b]) = (start.advance read).step b := advance_append ..
    rw [last, Text.afterLast, List.reverse_concat, step]
    by_cases newline : b = 0x0A
    · simp [newline]
    · simp [newline, ih, Text.afterLast, Nat.add_assoc]

theorem isExact_advance (read rest : Text) : (start.advance read).IsExact (read ++ rest) := by
  have offset : (start.advance read).offset = read.length := by
    rw [offset_advance, start, Nat.zero_add]
  have before : (read ++ rest).take (start.advance read).offset = read := by
    rw [offset, List.take_left]
  refine ⟨?_, ?_, ?_⟩
  · rw [offset, List.length_append]
    exact Nat.le_add_right ..
  · rw [before, line_advance, start]
  · rw [before, column_advance]

end Position

namespace Lexer

variable {l : Lexer} {text read : Text}

/-- The lexer has read the start of the text and has the rest to read. -/
def Within (l : Lexer) (text : Text) : Prop :=
  ∃ read, text = read ++ l.rest ∧ l.position = Position.start.advance read

theorem within_start (text operators : Text) : (start text operators).Within text := ⟨[], rfl, rfl⟩

theorem Within.skip (within : l.Within text) (starts : read <+: l.rest) : (l.skip read).Within text := by
  obtain ⟨before, rfl, stands⟩ := within
  refine ⟨before ++ read, ?_, ?_⟩
  · rw [List.append_assoc, ← List.prefix_iff_eq_append.mp starts]
    simp [Lexer.skip]
  · rw [Position.advance_append, ← stands]
    rfl

/-- The place is exact, and what is read on is what stands there. -/
theorem Within.isExact (within : l.Within text) :
    l.position.IsExact text ∧ l.rest = text.drop l.position.offset := by
  obtain ⟨read, rfl, stands⟩ := within
  rw [stands]
  refine ⟨Position.isExact_advance read l.rest, ?_⟩
  rw [Position.offset_advance, Position.start, Nat.zero_add, List.drop_left]

/-- The result is reported for this place of the text, and stands there: the end at the end of the query, any
other token with its text, an error with all that follows. -/
def Reports (text : Text) (place : Position) : Except SyntaxError Token → Prop
  | .ok token => token.position = some place ∧ token.text <+: text.drop place.offset ∧
      (token.kind = .eof → ∀ b ∈ (text.drop place.offset).head?, b = 0)
  | .error error => error.position = some place ∧ error.fragment = text.drop place.offset

theorem Within.next (within : l.Within text) : l.next.2.Within text ∧
    ∃ place, place.IsExact text ∧ Reports text place l.next.1 := by
  have stands : l.skipBlanks.Within text := within.skip (List.takeWhile_prefix _)
  obtain ⟨exact_, rest⟩ := stands.isExact
  rw [Lexer.next]
  cases steps l.skipBlanks_unblank with
  | ended atEnd found =>
    rw [found]
    refine ⟨stands, _, exact_, rfl, List.nil_prefix, ?_⟩
    intro _
    rwa [rest] at atEnd
  | @failed after opens _ found =>
    rw [found]
    have starts : Text.ascii '\'' :: (stringTail after).1 <+: l.skipBlanks.rest := opens ▸ stringTail_starts _ after
    exact ⟨stands.skip starts, _, exact_, rfl, rest⟩
  | emits more _ _ starts found =>
    rw [found]
    refine ⟨stands.skip starts, _, exact_, rfl, rest ▸ starts, ?_⟩
    intro ended
    exact absurd ended more

theorem within_iterate (text operators : Text) (calls : Nat) :
    ((fun l => l.next.2)^[calls] (start text operators)).Within text := by
  induction calls with
  | zero => exact within_start text operators
  | succ calls ih =>
    rw [Function.iterate_succ_apply']
    exact ih.next.1

/-- Whatever was asked for before, be it strings with newlines in them or an error, the next token or error
stands where it is reported to stand, and its line and column are those of its offset. -/
theorem next_isExact (text operators : Text) (calls : Nat) :
    ∃ place, place.IsExact text ∧
      Reports text place ((fun l => l.next.2)^[calls] (start text operators)).next.1 :=
  (within_iterate text operators calls).next.2

end Lexer
end RecordQuery
