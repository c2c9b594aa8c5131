import RecordQuery.Proofs.Json.Strings

namespace RecordQuery.Json

mutual

def lexemes : Json → List Lexeme
  | null => [.null]
  | bool value => [.bool value]
  | number text => [.number text]
  | string value => [.string value]
  | array [] => [.openArray, .closeArray]
  | array (item :: items) => .openArray :: (item.lexemes ++ (itemLexemes items ++ [.closeArray]))
  | object [] => [.openObject, .closeObject]
  | object ((key, value) :: members) =>
    .openObject :: .string key :: .colon :: (value.lexemes ++ (memberLexemes members ++ [.closeObject]))

/-- The lexemes of the items after the first one. -/
def itemLexemes : List Json → List Lexeme
  | [] => []
  | item :: items => .comma :: (item.lexemes ++ itemLexemes items)

/-- The lexemes of the members after the first one. -/
def memberLexemes : List (Text × Json) → List Lexeme
  | [] => []
  | (key, value) :: members =>
    .comma :: .string key :: .colon :: (value.lexemes ++ memberLexemes members)

end

mutual

/-- All strings are valid UTF-8, and all numbers are written as numbers are. -/
def Writable : Json → Prop
  | null | bool _ => True
  | number text => isNumber text = true ∧ ∀ b ∈ text, isWordByte b = true
  | string value => value.isUtf8 = true
  | array items => WritableItems items
  | object members => WritableMembers members

def WritableItems : List Json → Prop
  | [] => True
  | item :: items => item.Writable ∧ WritableItems items

def WritableMembers : List (Text × Json) → Prop
  | [] => True
  | (key, value) :: members => key.isUtf8 = true ∧ value.Writable ∧ WritableMembers members

end

/-- No word goes on in what follows. -/
def Ends (rest : Text) : Prop := ∀ b ∈ rest.head?, isWordByte b = false

section Words

variable {found : List Lexeme} {rest : Text}

theorem enter?_of_isWordByte {b : UInt8} (isWord : isWordByte b = true) :
    enter? b = some (none, .word [b]) := by
  have unspaced : isJsonSpace b = false := by
    by_contra spaced
    simp only [isJsonSpace, Bool.not_eq_false, Bool.or_eq_true, beq_iff_eq] at spaced
    rcases spaced with ((rfl | rfl) | rfl) | rfl <;> cases isWord
  have unquoted : b ≠ 0x22 := by
    rintro rfl
    cases isWord
  simp [enter?, unspaced, unquoted, isWord]

theorem lexFrom_word {read more : Text} (isWord : ∀ b ∈ more, isWordByte b = true) :
    lexFrom (.word read) found (more ++ rest) = lexFrom (.word (more.reverse ++ read)) found rest := by
  induction more generalizing read with
  | nil => rfl
  | cons b more ih =>
    rw [List.cons_append, lexFrom]
    simp only [Mode.step?, isWord b (.head _), ↓reduceIte]
    rw [List.reverse_nil, List.nil_append, ih fun other member => isWord other (.tail _ member)]
    simp

/-- A word is one lexeme where no word goes on. -/
theorem lexFrom_wordLexeme {word : Text} (isWord : ∀ b ∈ word, isWordByte b = true)
    (known : wordLexeme? word = some lexeme) (ends : Ends rest) :
    lexFrom .between found (word ++ rest) = lexFrom .between (lexeme :: found) rest := by
  cases word with
  | nil => cases known
  | cons b word =>
    have start : Mode.step? .between b = some ([], .word [b]) := by
      rw [Mode.step?, enter?_of_isWordByte (isWord b (.head _))]
      rfl
    rw [List.cons_append, lexFrom, start]
    simp only [List.reverse_nil, List.nil_append]
    rw [lexFrom_word fun other member => isWord other (.tail _ member)]
    have whole : (word.reverse ++ [b]).reverse = b :: word := by simp
    cases rest with
    | nil => simp [lexFrom, leave?, known]
    | cons c rest =>
      have stops := ends c rfl
      rw [lexFrom, lexFrom, Mode.step?, Mode.step?]
      simp only [stops, whole, known]
      cases enter? c with
      | none => rfl
      | some entered => simp

end Words

section Layout

variable {found : List Lexeme} {rest : Text}

theorem lexFrom_spaces {spaces : Text} (blank : ∀ b ∈ spaces, isJsonSpace b = true) :
    lexFrom .between found (spaces ++ rest) = lexFrom .between found rest := by
  induction spaces with
  | nil => rfl
  | cons b spaces ih =>
    rw [List.cons_append, lexFrom]
    simp only [Mode.step?, enter?, blank b (.head _), ↓reduceIte, Option.map_some]
    exact ih fun other member => blank other (.tail _ member)

theorem lexFrom_newline (layout : Layout) :
    lexFrom .between found (layout.newline ++ rest) = lexFrom .between found rest := by
  apply lexFrom_spaces
  cases layout with
  | compact => exact List.forall_mem_nil _
  | indented depth =>
    refine List.forall_mem_cons.mpr ⟨rfl, ?_⟩
    intro b member
    rw [List.eq_of_mem_replicate member]
    rfl

theorem lexFrom_colon (layout : Layout) :
    lexFrom .between found (layout.colon ++ rest) = lexFrom .between (.colon :: found) rest := by
  cases layout <;> rfl

theorem ends_newline (layout : Layout) (ends : Ends rest) : Ends (layout.newline ++ rest) := by
  cases layout with
  | compact => exact ends
  | indented depth =>
    rintro b ⟨⟩
    rfl

end Layout

theorem wordLexeme?_of_isNumber (isNumber : Json.isNumber text = true) :
    wordLexeme? text = some (.number text) := by
  have unlike : ∀ word : Text, Json.isNumber word = false → text ≠ word := by
    rintro word other rfl
    rw [isNumber] at other
    cases other
  rw [wordLexeme?, if_neg (unlike _ (by decide)), if_neg (unlike _ (by decide)),
    if_neg (unlike _ (by decide)), if_pos isNumber]

mutual

/-- A value that is written before something else is read as its lexemes. -/
theorem lexFrom_writeBefore : (value : Json) → value.Writable → ∀ {rest : Text}, Ends rest →
    ∀ layout found, lexFrom .between found (writeBefore rest layout value) =
      lexFrom .between (value.lexemes.reverse ++ found) rest
  | .null, _, _, ends, _, _ => lexFrom_wordLexeme (List.all_eq_true.mp rfl) (by decide) ends
  | .bool true, _, _, ends, _, _ => lexFrom_wordLexeme (List.all_eq_true.mp rfl) (by decide) ends
  | .bool false, _, _, ends, _, _ => lexFrom_wordLexeme (List.all_eq_true.mp rfl) (by decide) ends
  | .number _, ⟨isNumber, isWord⟩, _, ends, _, _ =>
    lexFrom_wordLexeme isWord (wordLexeme?_of_isNumber isNumber) ends
  | .string _, valid, rest, _, _, found => lexFrom_writeString valid found rest
  | .array [], _, _, _, _, _ => rfl
  | .array (item :: items), ⟨first, others⟩, rest, _, layout, found => by
    have closes : Ends (layout.newline ++ (Text.ofString "]" ++ rest)) := by
      apply ends_newline
      rintro b ⟨⟩
      rfl
    obtain ⟨ends, later⟩ := lexFrom_writeItems items others closes layout.inner
    rw [writeBefore]
    change lexFrom .between (.openArray :: found) (layout.inner.newline ++ _) = _
    rw [lexFrom_newline, lexFrom_writeBefore item first ends, later, lexFrom_newline]
    change lexFrom .between (.closeArray :: _) rest = _
    simp [lexemes]
  | .object [], _, _, _, _, _ => rfl
  | .object ((key, value) :: members), ⟨valid, first, others⟩, rest, _, layout, found => by
    have closes : Ends (layout.newline ++ (Text.ofString "\x7d" ++ rest)) := by
      apply ends_newline
      rintro b ⟨⟩
      rfl
    obtain ⟨ends, later⟩ := lexFrom_writeMembers members others closes layout.inner
    rw [writeBefore]
    change lexFrom .between (.openObject :: found) (layout.inner.newline ++ _) = _
    rw [lexFrom_newline, lexFrom_writeString valid, lexFrom_colon,
      lexFrom_writeBefore value first ends, later, lexFrom_newline]
    change lexFrom .between (.closeObject :: _) rest = _
    simp [lexemes]

theorem lexFrom_writeItems : (items : List Json) → WritableItems items → ∀ {rest : Text}, Ends rest →
    ∀ layout, Ends (writeItems rest layout items) ∧
      ∀ found, lexFrom .between found (writeItems rest layout items) =
        lexFrom .between ((itemLexemes items).reverse ++ found) rest
  | [], _, _, ends, _ => ⟨ends, fun _ => rfl⟩
  | item :: items, ⟨first, others⟩, _, ends, layout => by
    obtain ⟨endsLater, later⟩ := lexFrom_writeItems items others ends layout
    refine ⟨?_, ?_⟩
    · rintro b ⟨⟩
      rfl
    · intro found
      rw [writeItems]
      change lexFrom .between (.comma :: found) (layout.newline ++ _) = _
      rw [lexFrom_newline, lexFrom_writeBefore item first endsLater, later]
      simp [itemLexemes]

theorem lexFrom_writeMembers : (members : List (Text × Json)) → WritableMembers members →
    ∀ {rest : Text}, Ends rest → ∀ layout, Ends (writeMembers rest layout members) ∧
      ∀ found, lexFrom .between found (writeMembers rest layout members) =
        lexFrom .between ((memberLexemes members).reverse ++ found) rest
  | [], _, _, ends, _ => ⟨ends, fun _ => rfl⟩
  | (key, value) :: members, ⟨valid, first, others⟩, _, ends, layout => by
    obtain ⟨endsLater, later⟩ := lexFrom_writeMembers members others ends layout
    refine ⟨?_, ?_⟩
    · rintro b ⟨⟩
      rfl
    · intro found
      rw [writeMembers]
      change lexFrom .between (.comma :: found) (layout.newline ++ _) = _
      rw [lexFrom_newline, lexFrom_writeString valid, lexFrom_colon,
        lexFrom_writeBefore value first endsLater, later]
      simp [memberLexemes]

end

theorem lexemes?_write {value : Json} (writable : value.Writable) (layout : Layout) :
    lexemes? (write layout value) = some value.lexemes := by
  have ends : Ends [] := by
    rintro b ⟨⟩
  rw [lexemes?, write, lexFrom_writeBefore value writable ends]
  simp [lexFrom, leave?]

end RecordQuery.Json
