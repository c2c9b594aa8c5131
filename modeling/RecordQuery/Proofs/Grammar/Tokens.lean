import RecordQuery.Query.Restriction

namespace RecordQuery

/-- Kinds that tokens of a query have; the end is no token of it. -/
def TokenKind.isWritten : TokenKind → Bool
  | .eof | .other _ => false
  | _ => true

namespace Token

/-- A word that is no operator. -/
def IsPath (token : Token) : Prop :=
  token.kind = .word ∧ Operator.ofSymbol? token.text = none

/-- What a property may be compared with. -/
def IsOperand (token : Token) : Prop := token.kind = .string ∨ token.IsPath

/-- In a list operator words are values too. -/
def IsListValue (token : Token) : Prop := token.kind = .word ∨ token.kind = .string

def Spells (token : Token) (operator : Operator) : Prop :=
  (token.kind = .word ∨ token.kind = .operator) ∧ Operator.ofSymbol? token.text = some operator

/-- An end that is nowhere in a text. -/
def unplacedEnd : Token := ⟨.eof, [], none⟩

theorem kind_of_isKeyword {token : Token} {keyword : Text}
    (is : token.isKeyword keyword = true) : token.kind = .word := by
  simp only [isKeyword, Bool.and_eq_true, beq_iff_eq] at is
  exact is.1

theorem not_isKeyword_of_kind {token : Token} {keyword : Text} (other : token.kind ≠ .word) :
    token.isKeyword keyword = false := by
  simp [isKeyword, other]

end Token

namespace Query

/-- How many brackets are open after a token. -/
def openAfter (token : Token) (depth : Nat) : Nat :=
  if token.kind = .opening then depth + 1
  else if token.kind = .closing then depth - 1
  else depth

/-- A bracket that closes inside of others leaves those open. -/
theorem openAfter_add (inside : ¬ (token.kind = .closing ∧ depth = 0)) (more : Nat) :
    openAfter token (depth + more) = openAfter token depth + more := by
  unfold openAfter
  split
  · omega
  · split
    · rename_i closes
      simp only [closes, true_and] at inside
      omega
    · rfl

/-- Every bracket is closed, and so are `depth` more that were opened before. -/
def Balanced : Nat → List Token → Prop
  | depth, [] => depth = 0
  | depth, token :: rest =>
    ¬ (token.kind = .closing ∧ depth = 0) ∧ Balanced (openAfter token depth) rest

theorem Balanced.append (before : Balanced depth tokens) (after : Balanced 0 rest) :
    Balanced depth (tokens ++ rest) := by
  induction tokens generalizing depth with
  | nil =>
    cases before
    exact after
  | cons token tokens ih => exact ⟨before.1, ih before.2⟩

/-- Tokens that are no brackets are balanced. -/
theorem balanced_of_no_bracket
    (plain : ∀ token ∈ tokens, token.kind ≠ .opening ∧ token.kind ≠ .closing) :
    Balanced 0 tokens := by
  induction tokens with
  | nil => rfl
  | cons token tokens ih =>
    obtain ⟨opens, closes⟩ := plain token (by simp)
    refine ⟨by simp [closes], ?_⟩
    simp only [openAfter, opens, closes, ↓reduceIte]
    exact ih (fun other member => plain other (by simp [member]))

/-- The closing bracket is the first one before which everything is balanced. -/
theorem splitClosing_eq_some_iff {inner : List Token} :
    splitClosing depth tokens = some (inner, closing, rest) ↔
      tokens = inner ++ closing :: rest ∧ closing.kind = .closing ∧ Balanced depth inner := by
  induction tokens generalizing depth inner closing rest with
  | nil => simp [splitClosing]
  | cons token tokens ih =>
    rw [splitClosing]
    split
    · rename_i closes
      constructor
      · intro found
        simp only [Option.some.injEq, Prod.mk.injEq] at found
        obtain ⟨rfl, rfl, rfl⟩ := found
        exact ⟨rfl, closes⟩
      · rintro ⟨shape, _, balanced⟩
        cases inner with
        | nil =>
          simp only [List.nil_append, List.cons.injEq] at shape
          simp [shape.1, shape.2]
        | cons other inner =>
          cases List.cons.inj shape with
          | intro same _ => exact absurd (same ▸ closes) balanced.1
    · rename_i continues
      change (splitClosing (openAfter token depth) tokens).map _ = _ ↔ _
      simp only [Option.map_eq_some_iff, Prod.exists, Prod.mk.injEq, ih]
      constructor
      · rintro ⟨inner, _, _, ⟨rfl, closes, balanced⟩, rfl, rfl, rfl⟩
        exact ⟨rfl, closes, continues, balanced⟩
      · rintro ⟨shape, closes, balanced⟩
        cases inner with
        | nil =>
          cases List.cons.inj shape with
          | intro same _ => exact absurd ⟨same ▸ closes, balanced⟩ continues
        | cons other inner =>
          obtain ⟨rfl, rfl⟩ := List.cons.inj shape
          exact ⟨inner, closing, rest, ⟨rfl, closes, balanced.2⟩, rfl, rfl, rfl⟩

/-- Balanced tokens end in one place only. -/
theorem closing_unique {inner : List Token} (shape : inner ++ closing :: rest = other ++ last :: left)
    (closes : closing.kind = .closing) (closesLast : last.kind = .closing)
    (balanced : Balanced depth inner) (balancedOther : Balanced depth other) :
    inner = other ∧ closing = last ∧ rest = left := by
  have one : splitClosing depth (inner ++ closing :: rest) = some (inner, closing, rest) :=
    splitClosing_eq_some_iff.mpr ⟨rfl, closes, balanced⟩
  have two : splitClosing depth (inner ++ closing :: rest) = some (other, last, left) :=
    splitClosing_eq_some_iff.mpr ⟨shape, closesLast, balancedOther⟩
  cases one.symm.trans two
  exact ⟨rfl, rfl, rfl⟩

/-- Entries with commas between them. -/
inductive Listed {α : Type} (entry : List Token → α → Prop) : List Token → List α → Prop where
  | one {phrase : List Token} {item : α} (first : entry phrase item) : Listed entry phrase [item]
  | cons {phrase : List Token} {item : α} {comma : Token} {tokens : List Token} {items : List α}
      (first : entry phrase item) (separator : comma.kind = .comma) (more : Listed entry tokens items) :
      Listed entry (phrase ++ comma :: tokens) (item :: items)

section Listed

variable {α : Type} {entry : List Token → α → Prop} {tokens : List Token} {items : List α}

/-- After an entry the tokens end, or a comma comes and more entries are read. -/
def Continues (reads : List Token → List α → Prop) (item : α) (after : List Token) (items : List α) : Prop :=
  (after = [] ∧ items = [item]) ∨
    ∃ comma rest others, after = comma :: rest ∧ comma.kind = .comma ∧ items = item :: others ∧
      reads rest others

/-- A reader that takes entry by entry accepts exactly the lists of entries. -/
theorem listed_iff_of_step (reads : List Token → List α → Prop)
    (step : ∀ tokens items, reads tokens items ↔ ∃ phrase item after, tokens = phrase ++ after ∧
      entry phrase item ∧ Continues reads item after items) :
    reads tokens items ↔ Listed entry tokens items := by
  constructor
  · -- An entry goes with its comma, so the induction is on the number of tokens.
    induction size : tokens.length using Nat.strongRecOn generalizing tokens items with
    | ind size ih =>
      intro read
      obtain ⟨phrase, item, after, rfl, first, next⟩ := (step tokens items).mp read
      rcases next with ⟨rfl, rfl⟩ | ⟨comma, rest, others, rfl, separator, rfl, later⟩
      · rw [List.append_nil]
        exact .one first
      · have shorter : rest.length < (phrase ++ comma :: rest).length := by
          rw [List.length_append, List.length_cons]
          omega
        exact .cons first separator (ih rest.length (size ▸ shorter) rfl later)
  · intro listed
    induction listed with
    | @one phrase item first =>
      exact (step _ _).mpr ⟨phrase, item, [], (List.append_nil _).symm, first, .inl ⟨rfl, rfl⟩⟩
    | @cons phrase item comma tokens items first separator more ih =>
      exact (step _ _).mpr ⟨phrase, item, comma :: tokens, rfl, first,
        .inr ⟨comma, tokens, items, rfl, separator, rfl, ih⟩⟩

theorem Listed.exists_of_mem (listed : Listed entry tokens items) (member : item ∈ items) :
    ∃ own, entry own item ∧ ∀ token ∈ own, token ∈ tokens := by
  induction listed with
  | @one phrase _ first =>
    obtain rfl := List.mem_singleton.mp member
    exact ⟨phrase, first, fun _ inside => inside⟩
  | @cons phrase _ comma tokens items first separator more ih =>
    rcases List.mem_cons.mp member with rfl | later
    · exact ⟨phrase, first, fun token inside => List.mem_append_left _ inside⟩
    · obtain ⟨own, derived, inside⟩ := ih later
      exact ⟨own, derived, fun token among => List.mem_append_right _ (.tail _ (inside token among))⟩

theorem Listed.comma_or_entry (listed : Listed entry tokens items) (member : token ∈ tokens) :
    token.kind = .comma ∨ ∃ phrase item, entry phrase item ∧ token ∈ phrase := by
  induction listed with
  | one first => exact .inr ⟨_, _, first, member⟩
  | cons first separator more ih =>
    rcases List.mem_append.mp member with inside | later
    · exact .inr ⟨_, _, first, inside⟩
    · rcases List.mem_cons.mp later with rfl | behind
      · exact .inl separator
      · exact ih behind

theorem Listed.balanced (each : ∀ {phrase item}, entry phrase item → Balanced 0 phrase)
    (listed : Listed entry tokens items) : Balanced 0 tokens := by
  induction listed with
  | one first => exact each first
  | cons first separator more ih =>
    apply (each first).append
    simpa [Balanced, openAfter, separator] using ih

end Listed

end Query
end RecordQuery
