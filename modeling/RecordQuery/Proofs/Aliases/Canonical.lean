import Mathlib.Data.List.Infix
import RecordQuery.Proofs.Aliases.Distinct
import RecordQuery.Proofs.Aliases.Prefixes

/-! The aliases of a query depend on the set of prefixes of its paths and on nothing else. A path that
brings a new prefix has all aliases assigned afresh, over the prefixes in one order; a path that brings
none leaves them as they are, and they already were what the assignment gives. -/
namespace RecordQuery.Aliases

/-- The prefixes that have aliases. -/
def keys (aliases : Aliases) : List Text := aliases.map (·.1)

/-- Just the strict prefixes of the paths have aliases, each has one, and no two tables of a statement
share a name. -/
structure Registers (aliases : Aliases) (paths : List Text) : Prop where
  keys : ∀ above, above ∈ aliases.keys ↔ ∃ path ∈ paths, ∃ rest, path = above ++ Text.ascii '.' :: rest
  once : aliases.keys.Nodup
  distinct : aliases.Distinct

theorem prefixed_iff {paths : List Text} :
    (∃ path ∈ paths, ∃ rest, path = above ++ Text.ascii '.' :: rest) ↔
      above ∈ paths.flatMap strictPrefixes := by
  simp only [List.mem_flatMap, mem_strictPrefixes_iff]

theorem nodup_strictPrefixes (path : Text) : (strictPrefixes path).Nodup := by
  induction path with
  | nil => exact .nil
  | cons b path ih =>
    have longer : ((strictPrefixes path).map (b :: ·)).Nodup := ih.map (List.cons_injective (a := b))
    rw [strictPrefixes]
    split
    · exact List.nodup_cons.mpr ⟨by simp, longer⟩
    · exact longer

theorem nodup_joinOrder {paths : List Text} (distinct : paths.Nodup) : (joinOrder paths).Nodup :=
  (List.mergeSort_perm paths joinLe).nodup_iff.mpr distinct

@[simp] theorem keys_assign (paths : List Text) : (assign paths).keys = joinOrder paths :=
  keys_assignFrom [base] (joinOrder paths)

theorem nodup_keys_addPath {aliases : Aliases} (once : aliases.keys.Nodup) (path : Text) :
    (aliases.addPath path).keys.Nodup := by
  rw [addPath]
  split
  · exact once
  · rw [keys_assign]
    apply nodup_joinOrder
    refine List.nodup_append.mpr ⟨once, (nodup_strictPrefixes path).filter _, ?_⟩
    rintro known present new member rfl
    have absent := (List.mem_filter.mp member).2
    simp only [List.contains_eq_mem, Bool.not_eq_true', decide_eq_false_iff_not] at absent
    exact absent present

theorem nodup_keys_ofPaths (paths : List Text) : (ofPaths paths).keys.Nodup := by
  refine List.foldlRecOn (motive := fun aliases => (keys aliases).Nodup) paths addPath .nil ?_
  intro aliases once path _
  exact nodup_keys_addPath once path

theorem registers_ofPaths (paths : List Text) : (ofPaths paths).Registers paths := by
  refine ⟨?_, nodup_keys_ofPaths paths, distinct_ofPaths paths⟩
  intro above
  rw [keys, mem_keys_ofPaths]
  simp only [mem_strictPrefixes_iff]

/-- Whatever paths are registered one after another, after each of them just the strict prefixes of the
paths so far are aliased, and no two tables share a name. -/
theorem registers_after_each (paths : List Text) :
    List.Forall₂ (fun added aliases => Registers aliases added) paths.inits
      (paths.scanl addPath []) := by
  refine List.forall₂_iff_get.mpr ⟨by simp, ?_⟩
  intro n _ _
  have reached : (paths.scanl addPath []).get ⟨n, by assumption⟩ = ofPaths (paths.take n) := by
    simp [ofPaths]
  rw [reached, List.get_inits]
  exact registers_ofPaths _

section Order

variable {paths others : List Text}

theorem joinLe_antisymm {p q : Text} (first : joinLe p q = true) (second : joinLe q p = true) :
    p = q := by
  rw [joinLe_iff] at first second
  rcases first with shallower | ⟨level, le⟩
  · omega
  · rcases second with shallower | ⟨-, ge⟩
    · omega
    · exact List.le_antisymm le ge

/-- The order of the joins does not depend on the order in which the prefixes come. -/
theorem joinOrder_eq_of_perm (perm : paths.Perm others) : joinOrder paths = joinOrder others := by
  have sorted := List.pairwise_mergeSort joinLe_trans joinLe_total
  refine List.Perm.eq_of_pairwise (fun _ _ _ _ => joinLe_antisymm) (sorted paths) (sorted others) ?_
  exact (List.mergeSort_perm paths _).trans (perm.trans (List.mergeSort_perm others _).symm)

theorem joinOrder_joinOrder (paths : List Text) : joinOrder (joinOrder paths) = joinOrder paths :=
  joinOrder_eq_of_perm (List.mergeSort_perm paths _)

theorem assign_eq_of_perm (perm : paths.Perm others) : assign paths = assign others := by
  rw [assign, assign, joinOrder_eq_of_perm perm]

end Order

/-- The aliases are what assigning them afresh gives. -/
def Canonical (aliases : Aliases) : Prop := assign aliases.keys = aliases

theorem canonical_assign (paths : List Text) : (assign paths).Canonical := by
  rw [Canonical, keys_assign, assign, joinOrder_joinOrder, assign]

theorem Canonical.addPath {aliases : Aliases} (canonical : aliases.Canonical) (path : Text) :
    (aliases.addPath path).Canonical := by
  rw [Aliases.addPath]
  split
  · exact canonical
  · exact canonical_assign _

theorem canonical_ofPaths (paths : List Text) : (ofPaths paths).Canonical := by
  have start : Canonical [] := by simp [Canonical, keys, assign, joinOrder, assignFrom]
  refine List.foldlRecOn paths Aliases.addPath start ?_
  intro aliases canonical path _
  exact canonical.addPath path

/-- Aliases that are canonical are told apart by their prefixes alone. -/
theorem Canonical.eq_of_keys {aliases others : Aliases} (canonical : aliases.Canonical)
    (canonical' : others.Canonical) (once : aliases.keys.Nodup) (once' : others.keys.Nodup)
    (same : ∀ above, above ∈ aliases.keys ↔ above ∈ others.keys) : aliases = others := by
  have perm := (List.perm_ext_iff_of_nodup once once').mpr same
  rw [← canonical, ← canonical', assign_eq_of_perm perm]

/-- What stands before a prefix in the order of the joins are all prefixes of it, if they are there. -/
theorem mem_before_of_joinOrder {paths before after : List Text} (split : joinOrder paths = before ++ path :: after)
    (above : top ∈ strictPrefixes path) (member : top ∈ paths) : top ∈ before := by
  have ordered := pairwise_joinOrder paths
  have inside := mem_joinOrder.mpr member
  rw [split] at ordered inside
  have shallower := dots_lt above
  rcases List.mem_append.mp inside with here | later
  · exact here
  · -- From the prefix itself on, nothing has fewer dots than it.
    have deeper : dots path ≤ dots top := by
      rcases List.mem_cons.mp later with rfl | later
      · exact Nat.le_refl _
      · exact (List.pairwise_cons.mp (List.pairwise_append.mp ordered).2.1).1 top later
    omega

/-- Lists of paths with the same strict prefixes get the same aliases and the same order of joins,
however they are ordered and whatever they repeat; and every prefix is joined after all of its own. -/
theorem ofPaths_eq_of_prefixes (paths others : List Text)
    (same : ∀ above, (∃ path ∈ paths, ∃ rest, path = above ++ Text.ascii '.' :: rest) ↔
      ∃ path ∈ others, ∃ rest, path = above ++ Text.ascii '.' :: rest) :
    ofPaths paths = ofPaths others ∧ (ofPaths paths).paths = (ofPaths others).paths ∧
      ∀ before path after, (ofPaths paths).paths = before ++ path :: after →
        ∀ above rest, path = above ++ Text.ascii '.' :: rest → above ∈ before := by
  have registers := registers_ofPaths paths
  have registers' := registers_ofPaths others
  have equal : ofPaths paths = ofPaths others := by
    refine (canonical_ofPaths paths).eq_of_keys (canonical_ofPaths others) registers.once registers'.once ?_
    intro above
    rw [registers.keys, registers'.keys, same]
  refine ⟨equal, by rw [equal], ?_⟩
  rintro before path after split above rest rfl
  change joinOrder (ofPaths paths).keys = _ at split
  refine mem_before_of_joinOrder split (mem_strictPrefixes_append above rest) ?_
  have member : above ++ Text.ascii '.' :: rest ∈ (ofPaths paths).keys := by
    rw [← mem_joinOrder, split]
    exact List.mem_append_right _ (.head _)
  obtain ⟨path, listed, more, rfl⟩ := (registers.keys _).mp member
  exact (registers.keys above).mpr ⟨_, listed, rest ++ Text.ascii '.' :: more, by simp⟩

/-- Prefixes whose names clash, in another order and with repetitions. -/
theorem clashes_ofPaths :
    let paths : List Text := ["mother.father.name", "mother_father.name", "clubs.name", "clubs_link.name"]
    let others : List Text := ["clubs_link.id", "mother.father.name", "clubs.name", "mother_father.id",
      "clubs_link.name", "mother.father.name"]
    ofPaths paths = ofPaths others ∧ (ofPaths paths).paths = (ofPaths others).paths := by
  intro paths others
  have fewer : ∀ above ∈ paths.flatMap strictPrefixes, above ∈ others.flatMap strictPrefixes := by decide
  have more : ∀ above ∈ others.flatMap strictPrefixes, above ∈ paths.flatMap strictPrefixes := by decide
  have equal := ofPaths_eq_of_prefixes paths others fun above => by
    rw [prefixed_iff, prefixed_iff]
    exact ⟨fewer above, more above⟩
  exact ⟨equal.1, equal.2.1⟩

end RecordQuery.Aliases
