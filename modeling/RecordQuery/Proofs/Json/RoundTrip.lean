import RecordQuery.Proofs.Json.Lexemes

namespace RecordQuery.Json

mutual

/-- How many arrays and objects of the value are open at once. -/
def nesting : Json → Nat
  | null | bool _ | number _ | string _ => 0
  | array items => itemNesting items + 1
  | object members => memberNesting members + 1

def itemNesting : List Json → Nat
  | [] => 0
  | item :: items => max item.nesting (itemNesting items)

def memberNesting : List (Text × Json) → Nat
  | [] => 0
  | (_, value) :: members => max value.nesting (memberNesting members)

end

namespace State

/-- What a state reads from lexemes, if there is room for so many levels. -/
def runWithin (levels : Nat) (state : State) (rest : List Lexeme) : Option Json :=
  if levels ≤ maxNesting then state.run? rest else none

theorem runWithin_of_le (fits : levels ≤ maxNesting) (state : State) (rest : List Lexeme) :
    runWithin levels state rest = state.run? rest := if_pos fits

theorem runWithin_of_lt (deep : maxNesting < levels) (state : State) (rest : List Lexeme) :
    runWithin levels state rest = none := if_neg (Nat.not_le.mpr deep)

theorem runWithin_trans {state next : State} (reads : state.run? rest = runWithin deeper next more) :
    runWithin levels state rest = runWithin (max levels deeper) next more := by
  by_cases fits : levels ≤ maxNesting
  · rw [runWithin_of_le fits, reads, runWithin, runWithin]
    simp only [Nat.max_le, fits, true_and]
  · rw [runWithin_of_lt (by omega), runWithin_of_lt (by omega)]

theorem run?_cons {state next : State} (step : state.step? lexeme = some next) :
    state.run? (lexeme :: rest) = next.run? rest := by
  rw [run?, step]

theorem run?_refused {state : State} (refused : state.step? lexeme = none) :
    state.run? (lexeme :: rest) = none := by
  rw [run?, refused]

/-- The first item of an array is read as any other, for no value starts with a closing bracket. -/
theorem run?_firstItem (value : Json) :
    (State.firstItem (.items done :: stack)).run? (value.lexemes ++ rest) =
      (State.needValue (.items done :: stack)).run? (value.lexemes ++ rest) := by
  cases value with
  | array items => cases items <;> rfl
  | object members => cases members <;> rfl
  | _ => rfl

mutual

/-- Where a value is due, its lexemes give the value. -/
theorem run?_lexemes : (value : Json) → ∀ stack : List Frame, stack.length ≤ maxNesting → ∀ rest,
    (State.needValue stack).run? (value.lexemes ++ rest) =
      runWithin (stack.length + value.nesting) (.give value stack) rest
  | .null, _, room, _ | .bool _, _, room, _ | .number _, _, room, _ | .string _, _, room, _ =>
    (runWithin_of_le room _ _).symm
  | .array items, stack, room, rest => by
    by_cases full : maxNesting ≤ stack.length
    · have refused : (State.needValue stack).step? .openArray = none := if_neg (Nat.not_lt.mpr full)
      rw [runWithin_of_lt (by rw [nesting]; omega)]
      cases items <;> exact run?_refused refused
    have opens : (State.needValue stack).step? .openArray = some (.firstItem (.items [] :: stack)) :=
      if_pos (Nat.not_le.mp full)
    cases items with
    | nil =>
      rw [lexemes, List.cons_append, run?_cons opens]
      exact (runWithin_of_le (Nat.not_le.mp full) _ _).symm
    | cons item items =>
      have later := run?_itemLexemes items stack (Nat.not_le.mp full) [item] rest
      rw [lexemes, List.cons_append, run?_cons opens, List.append_assoc, run?_firstItem,
        run?_lexemes item (.items [] :: stack) (Nat.not_le.mp full), List.append_assoc, State.give,
        List.singleton_append, runWithin_trans later, nesting, itemNesting]
      congr 1
      rw [List.length_cons]
      omega
  | .object members, stack, room, rest => by
    by_cases full : maxNesting ≤ stack.length
    · have refused : (State.needValue stack).step? .openObject = none := if_neg (Nat.not_lt.mpr full)
      rw [runWithin_of_lt (by rw [nesting]; omega)]
      cases members <;> exact run?_refused refused
    have opens : (State.needValue stack).step? .openObject = some (.firstKey (.members [] :: stack)) :=
      if_pos (Nat.not_le.mp full)
    cases members with
    | nil =>
      rw [lexemes, List.cons_append, run?_cons opens]
      exact (runWithin_of_le (Nat.not_le.mp full) _ _).symm
    | cons member members =>
      obtain ⟨key, value⟩ := member
      have later := run?_memberLexemes members stack (Nat.not_le.mp full) [(key, value)] rest
      rw [lexemes, List.cons_append, run?_cons opens, List.cons_append, run?_cons rfl, List.cons_append,
        run?_cons rfl, List.append_assoc, run?_lexemes value (.member [] key :: stack) (Nat.not_le.mp full),
        List.append_assoc, State.give, List.singleton_append, runWithin_trans later, nesting, memberNesting]
      congr 1
      rw [List.length_cons]
      omega

theorem run?_itemLexemes : (items : List Json) → ∀ stack : List Frame, stack.length < maxNesting →
    ∀ done rest, (State.afterValue (.items done :: stack)).run? (itemLexemes items ++ .closeArray :: rest) =
      runWithin (stack.length + 1 + itemNesting items) (.give (.array (done.reverse ++ items)) stack) rest
  | [], _, free, _, _ => by
    rw [List.append_nil]
    exact (runWithin_of_le free _ _).symm
  | item :: items, stack, free, done, rest => by
    have later := run?_itemLexemes items stack free (item :: done) rest
    rw [itemLexemes, List.cons_append, run?_cons rfl, List.append_assoc,
      run?_lexemes item (.items done :: stack) free, State.give, runWithin_trans later, itemNesting,
      List.reverse_cons, List.append_assoc, List.singleton_append]
    congr 1
    rw [List.length_cons]
    omega

theorem run?_memberLexemes : (members : List (Text × Json)) → ∀ stack : List Frame,
    stack.length < maxNesting → ∀ done rest,
    (State.afterValue (.members done :: stack)).run? (memberLexemes members ++ .closeObject :: rest) =
      runWithin (stack.length + 1 + memberNesting members) (.give (.object (done.reverse ++ members)) stack)
        rest
  | [], _, free, _, _ => by
    rw [List.append_nil]
    exact (runWithin_of_le free _ _).symm
  | (key, value) :: members, stack, free, done, rest => by
    have later := run?_memberLexemes members stack free ((key, value) :: done) rest
    rw [memberLexemes, List.cons_append, run?_cons rfl, List.cons_append, run?_cons rfl, List.cons_append,
      run?_cons rfl, List.append_assoc, run?_lexemes value (.member done key :: stack) free, State.give,
      runWithin_trans later, memberNesting, List.reverse_cons, List.append_assoc, List.singleton_append]
    congr 1
    rw [List.length_cons]
    omega

end

end State

/-- The text of a value gives the value if its nesting is allowed, and nothing otherwise. -/
theorem parse?_write {value : Json} (writable : value.Writable) (layout : Layout) :
    parse? (write layout value) = if value.nesting ≤ maxNesting then some value else none := by
  have reads := State.run?_lexemes value [] (Nat.zero_le _) []
  rw [List.append_nil, List.length_nil, Nat.zero_add] at reads
  rw [parse?, lexemes?_write writable]
  exact reads

end RecordQuery.Json
