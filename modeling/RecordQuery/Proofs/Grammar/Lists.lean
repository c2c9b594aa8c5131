import RecordQuery.Proofs.Compile.Binding
import RecordQuery.Proofs.Distinct
import RecordQuery.Proofs.Grammar.Keys
import RecordQuery.Proofs.Grammar.Select
import RecordQuery.Proofs.Text.Ascii

namespace RecordQuery

/-- A letter beyond ASCII folds to none before `g`. -/
theorem Text.lt_of_foldCode_le {code : Nat} (low : foldCode code ≤ 102) : code < 128 := by
  by_contra high
  have spans : ∀ span ∈ CaseTable.fold, 102 < (span.first + span.shift).toNat := by decide +kernel
  rw [foldCode, if_neg high, mapCode] at low
  split at low
  · rename_i span found
    have covers := List.find?_some found
    have above := spans span (List.mem_of_find?_eq_some found)
    simp only [CaseSpan.covers, Bool.and_eq_true, decide_eq_true_eq] at covers
    omega
  · omega

namespace Query

/-- No function is called `FROM`. -/
theorem isKeyword_from_of_ofName? {name : Token} (named : Aggregate.ofName? name.text = some function) :
    name.isKeyword "FROM" = false := by
  apply Bool.eq_false_iff.mpr
  intro is
  simp only [Token.isKeyword, Text.sameFold, Bool.and_eq_true, beq_iff_eq] at is
  obtain ⟨code, codes, shape, folds, -⟩ := List.map_eq_cons_iff.mp is.2
  have upper : Text.upperCode code = 70 := by
    have each : ∀ code, code < 128 → Text.foldCode code = 102 → Text.upperCode code = 70 := by decide
    exact each code (Text.lt_of_foldCode_le (Nat.le_of_eq folds)) folds
  have first : name.text.upper.head? = some 70 := by
    rw [Text.upper, shape, List.map_cons, upper]
    rfl
  have other : ∀ function ∈ Aggregate.all, function.name.head? ≠ some 70 := by decide
  have spelled := List.find?_some named
  apply other function (List.mem_of_find?_eq_some named)
  rw [beq_iff_eq.mp spelled, first]

/-- The tokens from the second one on are a select list that `FROM` ends at this place. -/
structure SelectsUpTo (tokens : List Token) (place : Nat) (items : List SelectItem) : Prop where
  starts : 1 ≤ place
  ends : ∃ token ∈ tokens[place]?, token.isKeyword "FROM" = true
  listed : Listed ItemPhrase ((tokens.take place).drop 1) items

theorem selectList_drop_eq_ok_iff (ending : Token) :
    selectList ending .first (tokens.drop 1) = .ok (items, rest) ↔ ∃ place, SelectsUpTo tokens place items ∧
      rest = tokens.drop (place + 1) := by
  rw [selectList_eq_ok_iff (by decide)]
  constructor
  · rintro ⟨phrase, from_, shape, is, listed⟩
    cases tokens with
    | nil => cases phrase <;> cases shape
    | cons first tokens =>
      rw [List.drop_one, List.tail_cons] at shape
      subst shape
      refine ⟨phrase.length + 1, ⟨Nat.le_add_left _ _, ⟨from_, ?_, is⟩, ?_⟩, ?_⟩
      · simp
      · simpa using listed
      · simp
  · rintro ⟨place, ⟨starts, ⟨from_, found, is⟩, listed⟩, rfl⟩
    obtain ⟨inside, rfl⟩ := List.getElem?_eq_some_iff.mp found
    refine ⟨(tokens.take place).drop 1, tokens[place], ?_, is, listed⟩
    have short : 1 ≤ (tokens.take place).length := by
      rw [List.length_take]
      omega
    rw [← List.drop_eq_getElem_cons inside, ← List.drop_append_of_le_length short, List.take_append_drop]

/-- There is only one such place, and only one reading. -/
theorem SelectsUpTo.unique {tokens : List Token} (one : SelectsUpTo tokens place items)
    (two : SelectsUpTo tokens other others) : place = other ∧ items = others := by
  have bound : ∀ {place items}, SelectsUpTo tokens place items → place < tokens.length := by
    rintro place items ⟨-, ⟨_, found, -⟩, -⟩
    exact (List.getElem?_eq_some_iff.mp found).1
  have first := (selectList_drop_eq_ok_iff .unplacedEnd).mpr ⟨place, one, rfl⟩
  have second := (selectList_drop_eq_ok_iff .unplacedEnd).mpr ⟨other, two, rfl⟩
  obtain ⟨same, left⟩ := Prod.mk.inj (Except.ok.inj (first.symm.trans second))
  have lengths := congrArg List.length left
  rw [List.length_drop, List.length_drop] at lengths
  have inside := bound one
  have within := bound two
  exact ⟨by omega, same⟩

variable {schema : Schema} {type : RecordType} {tokens : List Token}

/-- What is said of the keys of a clause that does not fail is said of the list that it is. -/
theorem unfailed_iff_listed {α : Type} {read : Keys α} {entry : List Token → α → Prop} {holds : List α → Prop}
    (reads : ∀ keys, read = ⟨keys, none⟩ ↔ Listed entry tokens keys) :
    read.failure = none ∧ holds read.keys ↔ ∃ keys, Listed entry tokens keys ∧ holds keys := by
  simp only [← reads]
  obtain ⟨keys, failure⟩ := read
  constructor
  · rintro ⟨rfl, held⟩
    exact ⟨keys, rfl, held⟩
  · rintro ⟨_, same, held⟩
    cases same
    exact ⟨rfl, held⟩

theorem bindGroupKeys_groupKeys_eq_ok_iff : bindGroupKeys schema type (groupKeys keyword tokens) = .ok paths ↔
    ∃ keys, Listed KeyPhrase tokens keys ∧ (∀ key ∈ keys, ∃ field, bindPath schema type key = .ok field) ∧
      FirstOccurrences (keys.map (·.text)) paths := by
  rw [← unfailed_iff_listed fun _ => groupKeys_eq_iff, bindGroupKeys_eq_ok_iff]
  simp only [hasKey_iff_bindPath, firstOccurrences_iff]
  exact and_left_comm

theorem bindSortKeys_orderKeys_eq_ok_iff : bindSortKeys schema type (orderKeys next none tokens) = .ok orderBy ↔
    ∃ keys, Listed SortPhrase tokens keys ∧ (∀ key ∈ keys, ∃ field, bindPath schema type key.1 = .ok field) ∧
      orderBy = keys.map fun (token, direction) => ⟨token.text, direction⟩ := by
  rw [← unfailed_iff_listed fun _ => orderKeys_eq_iff, bindSortKeys_eq_ok_iff]
  simp only [hasKey_iff_bindPath, eq_comm]
  exact and_left_comm

/-- The clauses that are lists accept exactly their grammars. A select list, which starts at the second token,
goes up to the one `FROM` that stands outside of its entries, and what follows that is left; the entries are
words other than `FROM` and calls, and no function is called `FROM`. Of grouping keys that are bound the first
occurrences are kept, of sort keys all, ascending where no direction is given. -/
theorem listClauses_eq_ok_iff (schema : Schema) (type : RecordType) (ending keyword next : Token)
    (tokens : List Token) :
    (∀ items rest, selectList ending .first (tokens.drop 1) = .ok (items, rest) ↔
      ∃ place, SelectsUpTo tokens place items ∧ rest = tokens.drop (place + 1)) ∧
    (∀ place items other others, SelectsUpTo tokens place items → SelectsUpTo tokens other others →
      place = other ∧ items = others) ∧
    (∀ (name : Token) function, Aggregate.ofName? name.text = some function → name.isKeyword "FROM" = false) ∧
    (∀ paths, bindGroupKeys schema type (groupKeys keyword tokens) = .ok paths ↔
      ∃ keys, Listed KeyPhrase tokens keys ∧ (∀ key ∈ keys, ∃ field, bindPath schema type key = .ok field) ∧
        FirstOccurrences (keys.map (·.text)) paths) ∧
    (∀ orderBy, bindSortKeys schema type (orderKeys next none tokens) = .ok orderBy ↔
      ∃ keys, Listed SortPhrase tokens keys ∧ (∀ key ∈ keys, ∃ field, bindPath schema type key.1 = .ok field) ∧
        orderBy = keys.map fun (token, direction) => ⟨token.text, direction⟩) := by
  refine ⟨?_, ?_, ?_, ?_, ?_⟩
  · intro items rest
    exact selectList_drop_eq_ok_iff ending
  · intro place items other others one two
    exact one.unique two
  · intro name function named
    exact isKeyword_from_of_ofName? named
  · intro paths
    exact bindGroupKeys_groupKeys_eq_ok_iff
  · intro orderBy
    exact bindSortKeys_orderKeys_eq_ok_iff

/-- Fields may be called like keywords. -/
def eggType : RecordType :=
  { name := "acme.Egg", fields := [{ name := "id", kind := .id }, { name := "asc", kind := .text }] }

def eggWord (text : String) : Token := ⟨.word, text, none⟩

def eggComma : Token := ⟨.comma, ",", none⟩

/-- Only the second `FROM` ends this select list. -/
def eggTokens : List Token :=
  [eggWord "SELECT", eggWord "count", ⟨.opening, "(", none⟩, eggWord "from", ⟨.closing, ")", none⟩, eggComma,
    eggWord "asc", eggWord "FROM", eggWord "Egg"]

theorem eggs_listClauses :
    (∃ items, selectList .unplacedEnd .first (eggTokens.drop 1) = .ok (items, [eggWord "Egg"]) ∧
      ∀ place others, SelectsUpTo eggTokens place others → place = 7 ∧ others = items) ∧
    (∃ paths, bindGroupKeys ⟨[eggType]⟩ eggType
        (groupKeys .unplacedEnd [eggWord "asc", eggComma, eggWord "id", eggComma, eggWord "asc"]) = .ok paths ∧
      paths = [Text.ofString "asc", Text.ofString "id"]) ∧
    bindSortKeys ⟨[eggType]⟩ eggType
        (orderKeys .unplacedEnd none [eggWord "asc", eggWord "desc", eggComma, eggWord "asc"]) =
      .ok [⟨"asc", .desc⟩, ⟨"asc", .asc⟩] := by
  have asc : ∃ field, bindPath ⟨[eggType]⟩ eggType (eggWord "asc") = .ok field :=
    exists_ok_of_toBool (by decide +kernel)
  have id : ∃ field, bindPath ⟨[eggType]⟩ eggType (eggWord "id") = .ok field :=
    exists_ok_of_toBool (by decide +kernel)
  have counts : Aggregate.ofName? (eggWord "count").text = some .count := by decide
  have descending : Direction.ofName? (eggWord "desc").text = some .desc := by decide
  obtain ⟨select, unique, -, -, -⟩ := listClauses_eq_ok_iff ⟨[eggType]⟩ eggType .unplacedEnd .unplacedEnd
    .unplacedEnd eggTokens
  have upTo : SelectsUpTo eggTokens 7 _ := ⟨by decide, ⟨_, rfl, by decide⟩,
    .cons (ItemPhrase.call rfl (by decide) counts rfl rfl rfl) rfl (.one (ItemPhrase.word rfl (by decide)))⟩
  refine ⟨⟨_, (select _ _).mpr ⟨7, upTo, rfl⟩, fun place others again => unique _ _ _ _ again upTo⟩, ?_, ?_⟩
  · have keys : Listed KeyPhrase [eggWord "asc", eggComma, eggWord "id", eggComma, eggWord "asc"] _ :=
      .cons (KeyPhrase.word rfl) rfl (.cons (KeyPhrase.word rfl) rfl (.one (KeyPhrase.word rfl)))
    obtain ⟨-, -, -, group, -⟩ := listClauses_eq_ok_iff ⟨[eggType]⟩ eggType .unplacedEnd .unplacedEnd
      .unplacedEnd [eggWord "asc", eggComma, eggWord "id", eggComma, eggWord "asc"]
    exact ⟨_, (group _).mpr ⟨_, keys, by simp [asc, id], firstOccurrences_eraseDups _⟩, by decide +kernel⟩
  · have keys : Listed SortPhrase [eggWord "asc", eggWord "desc", eggComma, eggWord "asc"] _ :=
      .cons (SortPhrase.directed rfl rfl descending) rfl (.one (SortPhrase.plain rfl))
    obtain ⟨-, -, -, -, order⟩ := listClauses_eq_ok_iff ⟨[eggType]⟩ eggType .unplacedEnd .unplacedEnd
      .unplacedEnd [eggWord "asc", eggWord "desc", eggComma, eggWord "asc"]
    exact (order _).mpr ⟨_, keys, by simp [asc], rfl⟩

end Query
end RecordQuery
