import Mathlib.Tactic.Tauto
import RecordQuery.Aliases

namespace RecordQuery

namespace Text

theorem beforeLast?_append {after : Text} (fresh : b ∉ after) (before : Text) :
    (before ++ b :: after).beforeLast? b = some before := by
  have passed : ∀ c ∈ after.reverse, decide (c ≠ b) = true := by
    intro c member
    have different : c ≠ b := fun same => fresh (same ▸ List.mem_reverse.mp member)
    simpa using different
  have dropped : (before ++ b :: after).reverse.dropWhile (· ≠ b) = b :: before.reverse := by
    rw [List.reverse_append, List.reverse_cons, List.append_assoc, List.dropWhile_append_of_pos passed]
    simp
  rw [beforeLast?, dropped]
  simp

theorem beforeLast?_of_not_mem {t : Text} (absent : b ∉ t) : t.beforeLast? b = none := by
  have dropped : t.reverse.dropWhile (· ≠ b) = [] := by
    rw [← List.append_nil t.reverse, List.dropWhile_append_of_pos, List.dropWhile_nil]
    intro c member
    have different : c ≠ b := fun same => absent (same ▸ List.mem_reverse.mp member)
    simpa using different
  rw [beforeLast?, dropped]

theorem exists_beforeLast {t : Text} (member : b ∈ t) :
    ∃ before after, t = before ++ b :: after ∧ b ∉ after := by
  obtain ⟨after, before, whole, fresh⟩ := List.eq_append_cons_of_mem (List.mem_reverse.mpr member)
  refine ⟨before.reverse, after.reverse, ?_, fun again => fresh (List.mem_reverse.mp again)⟩
  rw [← List.reverse_reverse t, whole]
  simp

end Text

namespace Aliases

theorem mem_strictPrefixes_iff :
    above ∈ strictPrefixes path ↔ ∃ rest, path = above ++ Text.ascii '.' :: rest := by
  induction path generalizing above with
  | nil => simp [strictPrefixes]
  | cons b path ih =>
    rw [strictPrefixes]
    cases above with
    | nil => by_cases dot : b = Text.ascii '.' <;> simp [dot]
    | cons c above =>
      have longer : c :: above ∈ (strictPrefixes path).map (b :: ·) ↔
          ∃ rest, b :: path = c :: above ++ Text.ascii '.' :: rest := by
        simp only [List.mem_map, List.cons.injEq, List.cons_append, exists_and_left]
        rw [← ih]
        exact ⟨fun ⟨_, member, same, rest⟩ => ⟨same, rest ▸ member⟩, fun ⟨same, member⟩ => ⟨_, member, same, rfl⟩⟩
      by_cases dot : b = Text.ascii '.'
      · rw [if_pos dot, List.mem_cons, longer]
        simp
      · rw [if_neg dot, longer]

theorem mem_strictPrefixes_append (above rest : Text) :
    above ∈ strictPrefixes (above ++ Text.ascii '.' :: rest) :=
  mem_strictPrefixes_iff.mpr ⟨rest, rfl⟩

/-- The prefix is the whole path or ends before one of its dots. -/
def AtOrAbove (above path : Text) : Prop := above = path ∨ above ∈ strictPrefixes path

theorem dots_lt (member : above ∈ strictPrefixes path) : dots above < dots path := by
  obtain ⟨rest, rfl⟩ := mem_strictPrefixes_iff.mp member
  simp only [dots, List.count_append, List.count_cons_self]
  omega

theorem strictPrefixes_trans (outer : top ∈ strictPrefixes above)
    (inner : above ∈ strictPrefixes path) : top ∈ strictPrefixes path := by
  obtain ⟨rest, rfl⟩ := mem_strictPrefixes_iff.mp outer
  obtain ⟨more, rfl⟩ := mem_strictPrefixes_iff.mp inner
  exact mem_strictPrefixes_iff.mpr ⟨rest ++ Text.ascii '.' :: more, by simp⟩

section Order

variable {paths : List Text}

theorem joinLe_iff {p q : Text} : joinLe p q = true ↔ dots p < dots q ∨ dots p = dots q ∧ p ≤ q := by
  simp [joinLe, Text.le]

theorem joinLe_total (p q : Text) : (joinLe p q || joinLe q p) = true := by
  rw [Bool.or_eq_true, joinLe_iff, joinLe_iff]
  rcases Nat.lt_trichotomy (dots p) (dots q) with shallower | level | deeper
  · exact .inl (.inl shallower)
  · rcases List.le_total p q with le | le
    · exact .inl (.inr ⟨level, le⟩)
    · exact .inr (.inr ⟨level.symm, le⟩)
  · exact .inr (.inl deeper)

theorem joinLe_trans (p q r : Text) (first : joinLe p q = true) (second : joinLe q r = true) :
    joinLe p r = true := by
  rw [joinLe_iff] at first second ⊢
  rcases first with shallower | ⟨level, le⟩
  · omega
  · rcases second with shallower | ⟨same, more⟩
    · omega
    · exact .inr ⟨level.trans same, List.le_trans le more⟩

theorem mem_joinOrder : path ∈ joinOrder paths ↔ path ∈ paths := List.mem_mergeSort

/-- Shallow prefixes are joined before deep ones. -/
theorem pairwise_joinOrder (paths : List Text) :
    (joinOrder paths).Pairwise fun p q => dots p ≤ dots q := by
  refine (List.pairwise_mergeSort joinLe_trans joinLe_total paths).imp ?_
  intro p q le
  rcases joinLe_iff.mp le with shallower | ⟨level, -⟩
  · exact Nat.le_of_lt shallower
  · exact Nat.le_of_eq level

end Order

section Keys

variable {aliases : Aliases} {paths : List Text}

theorem keys_assignFrom (taken paths : List Text) : (assignFrom taken paths).map (·.1) = paths := by
  induction paths generalizing taken with
  | nil => rfl
  | cons path paths ih => simp [assignFrom, ih]

theorem mem_keys_addPath : above ∈ (aliases.addPath path).map (·.1) ↔
    above ∈ aliases.map (·.1) ∨ above ∈ strictPrefixes path := by
  rw [addPath]
  split
  · rename_i covered
    rw [List.isEmpty_iff, List.filter_eq_nil_iff] at covered
    simp only [List.contains_eq_mem, Bool.not_eq_true', decide_eq_false_iff_not, not_not] at covered
    exact ⟨.inl, fun either => either.elim id (covered above)⟩
  · rw [assign, keys_assignFrom, mem_joinOrder, List.mem_append, List.mem_filter]
    simp only [List.contains_eq_mem, Bool.not_eq_true', decide_eq_false_iff_not]
    tauto

theorem mem_keys_ofPaths :
    above ∈ (ofPaths paths).map (·.1) ↔ ∃ path ∈ paths, above ∈ strictPrefixes path := by
  have run : ∀ aliases : Aliases, above ∈ (paths.foldl addPath aliases).map (·.1) ↔
      above ∈ aliases.map (·.1) ∨ ∃ path ∈ paths, above ∈ strictPrefixes path := by
    induction paths with
    | nil => simp
    | cons path paths ih =>
      intro aliases
      rw [List.foldl_cons, ih, mem_keys_addPath, or_assoc]
      simp
  rw [ofPaths, run]
  simp

theorem isSome_name?_iff : (aliases.name? path).isSome = true ↔ path ∈ aliases.map (·.1) := by
  induction aliases with
  | nil => simp [name?]
  | cons entry aliases ih =>
    rw [name?, List.lookup_cons, List.map_cons, List.mem_cons]
    split
    · rename_i same
      simpa using .inl (beq_iff_eq.mp same)
    · rename_i different
      rw [← ih, or_iff_right (by simpa using different)]
      rfl

end Keys
end Aliases
end RecordQuery
