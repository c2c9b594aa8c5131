import Mathlib.Data.List.Basic
import RecordQuery.Text

namespace RecordQuery

variable {α : Type} [BEq α] [LawfulBEq α]

/-- What is kept of a list if of each value only the first occurrence stays. -/
structure FirstOccurrences (values kept : List α) : Prop where
  same : ∀ value, value ∈ kept ↔ value ∈ values
  ordered : kept.Pairwise fun first second => values.idxOf first < values.idxOf second

/-- Dropping other values does not change which of two comes first. -/
theorem idxOf_filter_lt {values : List α} {keep : α → Bool} (first : keep a = true) (second : keep b = true) :
    (values.filter keep).idxOf a < (values.filter keep).idxOf b ↔ values.idxOf a < values.idxOf b := by
  induction values with
  | nil => rfl
  | cons value values ih =>
    by_cases kept : keep value = true
    · rw [List.filter_cons_of_pos kept]
      by_cases isFirst : value = a
      · subst isFirst
        by_cases isSecond : value = b <;> simp [isSecond]
      · by_cases isSecond : value = b
        · simp [isSecond]
        · simpa [List.idxOf_cons, isFirst, isSecond] using ih
    · have notFirst : value ≠ a := by
        rintro rfl
        exact kept first
      have notSecond : value ≠ b := by
        rintro rfl
        exact kept second
      rw [List.filter_cons_of_neg kept, ih]
      simp [notFirst, notSecond]

theorem firstOccurrences_eraseDups (values : List α) : FirstOccurrences values values.eraseDups := by
  refine ⟨fun value => List.mem_eraseDups, ?_⟩
  -- Each step drops the copies of the head, so the induction is on the length.
  induction size : values.length using Nat.strongRecOn generalizing values with
  | ind size ih =>
    cases values with
    | nil => exact .nil
    | cons value values =>
      rw [List.eraseDups_cons]
      have fewer := List.length_filter_le (fun other => !other == value) values
      simp only [List.length_cons] at size
      have later := ih _ (by omega) (values.filter fun other => !other == value) rfl
      have different : ∀ other ∈ (values.filter fun other => !other == value).eraseDups, other ≠ value := by
        intro other member
        simpa using (List.mem_filter.mp (List.mem_eraseDups.mp member)).2
      refine .cons ?_ (later.imp_of_mem ?_)
      · intro other member
        simp [(different other member).symm]
      · intro first second inside within before
        have ahead := (idxOf_filter_lt (by simpa using different first inside)
          (by simpa using different second within)).mp before
        simpa [List.idxOf_cons, (different first inside).symm, (different second within).symm] using ahead

omit [LawfulBEq α] in
theorem FirstOccurrences.nodup {values kept : List α} (first : FirstOccurrences values kept) : kept.Nodup :=
  first.ordered.imp fun before same => by simp [same] at before

/-- Only one list keeps the first occurrences. -/
theorem firstOccurrences_iff {values kept : List α} : FirstOccurrences values kept ↔ values.eraseDups = kept := by
  constructor
  · intro first
    have other := firstOccurrences_eraseDups values
    have perm : values.eraseDups.Perm kept := by
      rw [List.perm_ext_iff_of_nodup other.nodup first.nodup]
      intro value
      rw [other.same, first.same]
    refine perm.eq_of_pairwise ?_ other.ordered first.ordered
    intro a b _ _ before after
    omega
  · rintro rfl
    exact firstOccurrences_eraseDups values

theorem nodup_eraseDups (values : List α) : values.eraseDups.Nodup := (firstOccurrences_eraseDups values).nodup

theorem eraseDups_of_nodup {values : List α} (distinct : values.Nodup) :
    values.eraseDups = values := by
  induction values with
  | nil => rfl
  | cons value values ih =>
    obtain ⟨fresh, distinct⟩ := List.nodup_cons.mp distinct
    have kept : values.filter (fun other => !other == value) = values := by
      apply List.filter_eq_self.mpr
      intro other member
      have different : other ≠ value := fun same => fresh (same ▸ member)
      simpa using different
    rw [List.eraseDups_cons, kept, ih distinct]

theorem eraseDups_ne_nil {values : List α} (filled : values ≠ []) : values.eraseDups ≠ [] := by
  obtain ⟨value, member⟩ := List.exists_mem_of_ne_nil values filled
  exact List.ne_nil_of_mem (List.mem_eraseDups.mpr member)

end RecordQuery
