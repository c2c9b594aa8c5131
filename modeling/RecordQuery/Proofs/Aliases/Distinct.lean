import Mathlib.Data.List.Pairwise
import RecordQuery.Proofs.Aliases.Reservation

/-! No two tables of a statement share an alias. A linking table goes by the alias of the table behind
it with a suffix, so an alias is given only if its own linking alias is free as well. -/
namespace RecordQuery.Aliases

/-- All names that joins by these aliases may introduce. -/
def introduced (aliases : Aliases) : List Text :=
  aliases.flatMap fun (_, name) => [name, name ++ linkSuffix]

/-- No two tables share a name, whichever of the aliases are used. -/
def Distinct (aliases : Aliases) : Prop := (base :: aliases.introduced).Nodup

theorem occupy_perm (taken : List Text) (name : Text) :
    (occupy taken name).Perm (taken ++ [name, name ++ linkSuffix]) := by
  change ([name, name ++ linkSuffix] ++ taken).Perm _
  exact List.perm_append_comm

theorem nodup_occupy {taken : List Text} (distinct : taken.Nodup) (free : isFree taken name = true) :
    (occupy taken name).Nodup := by
  obtain ⟨fresh, freshLink⟩ := isFree_iff.mp free
  have apart : name ≠ name ++ linkSuffix := candidate_ne_link name 0 0
  refine List.nodup_cons.mpr ⟨?_, List.nodup_cons.mpr ⟨freshLink, distinct⟩⟩
  intro member
  rcases List.mem_cons.mp member with same | occupied
  · exact apart same
  · exact fresh occupied

theorem nodup_assignFrom (paths taken : List Text) (distinct : taken.Nodup) :
    (taken ++ (assignFrom taken paths).introduced).Nodup := by
  induction paths generalizing taken with
  | nil => simpa [assignFrom, introduced] using distinct
  | cons path paths ih =>
    let name := reserve taken (preferred path)
    have moved := ih _ (nodup_occupy distinct (isFree_reserve taken (preferred path)))
    have swapped := ((occupy_perm taken name).append_right _).nodup_iff.mp moved
    simpa [assignFrom, introduced] using swapped

theorem distinct_assign (paths : List Text) : (assign paths).Distinct :=
  nodup_assignFrom (joinOrder paths) [base] (List.nodup_singleton base)

theorem distinct_addPath {aliases : Aliases} (distinct : aliases.Distinct) (path : Text) :
    (aliases.addPath path).Distinct := by
  rw [addPath]
  split
  · exact distinct
  · exact distinct_assign _

theorem distinct_ofPaths (paths : List Text) : (ofPaths paths).Distinct := by
  have run : ∀ aliases : Aliases, aliases.Distinct → (paths.foldl addPath aliases).Distinct := by
    induction paths with
    | nil => exact fun _ distinct => distinct
    | cons path paths ih => exact fun _ distinct => ih _ (distinct_addPath distinct path)
  exact run [] (List.nodup_singleton base)

theorem mem_of_name? {aliases : Aliases} (found : aliases.name? path = some name) :
    (path, name) ∈ aliases := by
  induction aliases with
  | nil => cases found
  | cons entry aliases ih =>
    rw [name?, List.lookup_cons] at found
    split at found
    · rename_i same
      cases found
      rw [beq_iff_eq.mp same]
      exact .head _
    · exact .tail _ (ih found)

section Distinct

variable {aliases : Aliases} (distinct : aliases.Distinct)

include distinct

theorem Distinct.ne_base (found : aliases.name? path = some name) :
    base ∉ [name, name ++ linkSuffix] := by
  intro member
  refine (List.nodup_cons.mp distinct).1 ?_
  exact List.mem_flatMap.mpr ⟨_, mem_of_name? found, member⟩

/-- Different prefixes have nothing in common. -/
theorem Distinct.disjoint (first : aliases.name? path = some name) (second : aliases.name? other = some next)
    (different : path ≠ other) : List.Disjoint [name, name ++ linkSuffix] [next, next ++ linkSuffix] := by
  have apart := (List.nodup_flatMap.mp (List.nodup_cons.mp distinct).2).2
  have entries : (path, name) ≠ (other, next) := fun same => different (Prod.mk.inj same).1
  have symmetric : Std.Symm (Function.onFun List.Disjoint
      fun ((_, name) : Text × Text) => [name, name ++ linkSuffix]) :=
    ⟨fun _ _ disjoint _ second first => disjoint first second⟩
  exact apart.forall (mem_of_name? first) (mem_of_name? second) entries

end Distinct

end RecordQuery.Aliases
