import Mathlib.Data.Finset.Card
import Mathlib.Data.Finset.Insert
import Mathlib.Data.Nat.Find
import Mathlib.Logic.Function.Iterate
import RecordQuery.Aliases
import RecordQuery.Proofs.Lexing.Literal

/-! The search for a free alias. A search that has no bound still ends: candidates differ from each other
and from each other's linking aliases, so a taken name stands in the way of one candidate only, and there
are more candidates than taken names. It ends at the first free candidate, which is the alias that is
reserved. -/
namespace RecordQuery.Aliases

theorem candidate_succ_ne (name : Text) (n : Nat) : candidate name (n + 1) ≠ name := by
  intro same
  rw [candidate, List.append_assoc, List.append_right_eq_self, List.append_eq_nil_iff] at same
  exact Text.ofNat_ne_nil _ same.2

theorem candidate_injective (name : Text) : Function.Injective (candidate name) := by
  intro m n same
  cases m with
  | zero =>
    cases n with
    | zero => rfl
    | succ n => exact absurd same.symm (candidate_succ_ne name n)
  | succ m =>
    cases n with
    | zero => exact absurd same (candidate_succ_ne name m)
    | succ n =>
      have digits : Text.ofNat (m + 2) = Text.ofNat (n + 2) := List.append_cancel_left same
      have values := congrArg Text.digitsValue digits
      rw [Text.digitsValue_ofNat, Text.digitsValue_ofNat] at values
      omega

theorem length_le_candidate (name : Text) (n : Nat) : name.length ≤ (candidate name n).length := by
  cases n with
  | zero => exact Nat.le_refl _
  | succ n => simp [candidate]

/-- A linking alias is longer than the name, and it does not end in a digit. -/
theorem candidate_ne_link (name : Text) (m n : Nat) :
    candidate name m ≠ candidate name n ++ linkSuffix := by
  intro same
  cases m with
  | zero =>
    have lengths := congrArg List.length same
    have longer := length_le_candidate name n
    have suffix : linkSuffix.length = 5 := by decide
    rw [candidate, List.length_append] at lengths
    omega
  | succ m =>
    have suffix : linkSuffix.getLast? = some (Text.ascii 'k') := by decide
    have ends := congrArg List.getLast? same
    simp only [candidate, List.getLast?_append, suffix, List.getLast?_eq_some_getLast (Text.ofNat_ne_nil _),
      Option.some_or, Option.some_inj] at ends
    have digit := Text.isDigit_of_mem_ofNat (List.getLast_mem (Text.ofNat_ne_nil (m + 2)))
    rw [ends] at digit
    exact absurd digit (by decide)

theorem isFree_iff : isFree taken name = true ↔ name ∉ taken ∧ name ++ linkSuffix ∉ taken := by
  simp [isFree]

theorem not_isFree_iff : isFree taken name = false ↔ name ∈ taken ∨ name ++ linkSuffix ∈ taken := by
  rw [← Bool.not_eq_true, isFree_iff, not_and_or, not_not, not_not]

/-- What stands in the way of a candidate: itself if it is taken, and otherwise its linking alias. -/
def obstacle (taken : List Text) (name : Text) (n : Nat) : Text :=
  if candidate name n ∈ taken then candidate name n else candidate name n ++ linkSuffix

theorem obstacle_mem (occupied : isFree taken (candidate name n) = false) :
    obstacle taken name n ∈ taken := by
  rw [obstacle]
  split
  · assumption
  · rename_i absent
    exact (not_isFree_iff.mp occupied).resolve_left absent

theorem obstacle_injective (taken : List Text) (name : Text) :
    Function.Injective (obstacle taken name) := by
  intro m n same
  rw [obstacle, obstacle] at same
  -- A candidate is no other candidate's linking alias, so only obstacles of one kind can be the same.
  split at same <;> split at same
  · exact candidate_injective name same
  · exact absurd same (candidate_ne_link name m n)
  · exact absurd same.symm (candidate_ne_link name n m)
  · exact candidate_injective name (List.append_cancel_right same)

/-- Taken names cannot rule out one candidate more than there are of them. -/
theorem exists_isFree (taken : List Text) (name : Text) :
    ∃ n ≤ taken.toFinset.card, isFree taken (candidate name n) = true := by
  by_contra blocked
  push Not at blocked
  have covered : ∀ n ∈ Finset.range (taken.toFinset.card + 1), obstacle taken name n ∈ taken.toFinset := by
    intro n bound
    have occupied := blocked n (by have := Finset.mem_range.mp bound; omega)
    exact List.mem_toFinset.mpr (obstacle_mem (by simpa using occupied))
  have fits := Finset.card_le_card_of_injOn _ covered (obstacle_injective taken name).injOn
  rw [Finset.card_range] at fits
  omega

/-- The first candidate that is free is the `n`-th. -/
structure FirstFree (taken : List Text) (name : Text) (n : Nat) : Prop where
  free : isFree taken (candidate name n) = true
  passed : ∀ m < n, isFree taken (candidate name m) = false

theorem exists_firstFree (taken : List Text) (name : Text) :
    ∃ n ≤ taken.toFinset.card, FirstFree taken name n := by
  obtain ⟨n, bound, free⟩ := exists_isFree taken name
  have available : ∃ n, isFree taken (candidate name n) = true := ⟨n, free⟩
  refine ⟨Nat.find available, (Nat.find_min' available free).trans bound, Nat.find_spec available, ?_⟩
  intro m before
  simpa using Nat.find_min available before

/-- A bounded search finds the first free candidate if it is within the bound. -/
theorem FirstFree.reserveFrom_eq {n start tries : Nat} (found : FirstFree taken name n) (ahead : start ≤ n)
    (near : n ≤ start + tries) : reserveFrom taken name tries start = candidate name n := by
  induction tries generalizing start with
  | zero =>
    obtain rfl : start = n := by omega
    rfl
  | succ tries ih =>
    rw [reserveFrom]
    rcases Nat.eq_or_lt_of_le ahead with rfl | before
    · rw [if_pos found.free]
    · rw [found.passed start before]
      exact ih before (by omega)

/-- The bound on the search is never what ends it. -/
theorem FirstFree.reserve_eq (found : FirstFree taken name n) (bound : n ≤ taken.toFinset.card) :
    reserve taken name = candidate name n := by
  have distinct := taken.toFinset_card_le
  exact found.reserveFrom_eq (Nat.zero_le n) (by omega)

theorem isFree_reserve (taken : List Text) (name : Text) :
    isFree taken (reserve taken name) = true := by
  obtain ⟨n, bound, found⟩ := exists_firstFree taken name
  rw [found.reserve_eq bound]
  exact found.free

theorem toFinset_occupy (taken : List Text) (name : Text) :
    (occupy taken name).toFinset = taken.toFinset ∪ {name, name ++ linkSuffix} := by
  ext other
  simp only [occupy, List.toFinset_cons, Finset.mem_insert, Finset.mem_union, Finset.mem_singleton]
  rw [← or_assoc, or_comm]

/-- Where a reservation stands: it tests a name and has a number for the next one, or it has ended with
an alias and leaves names taken. -/
inductive Reservation where
  | testing (name : Text) (next : Nat)
  | ended (name : Text) (taken : List Text)

namespace Reservation

/-- One test of a search that has no bound. -/
def step (taken : List Text) (name : Text) : Reservation → Reservation
  | testing tested next =>
    if isFree taken tested then ended tested (occupy taken tested)
    else testing (name ++ "_" ++ Text.ofNat next) (next + 1)
  | ended given occupied => ended given occupied

variable {taken : List Text} {name : Text} {n : Nat}

theorem step_of_isFree (free : isFree taken (candidate name n) = true) :
    step taken name (testing (candidate name n) (n + 2)) =
      ended (candidate name n) (occupy taken (candidate name n)) := by
  rw [step, if_pos free]

theorem step_of_not_isFree (occupied : isFree taken (candidate name n) = false) :
    step taken name (testing (candidate name n) (n + 2)) = testing (candidate name (n + 1)) (n + 3) := by
  rw [step, occupied]
  rfl

/-- As long as nothing is free, the tests go through the candidates in order. -/
theorem iterate_step (occupied : ∀ m < n, isFree taken (candidate name m) = false) :
    (step taken name)^[n] (testing name 2) = testing (candidate name n) (n + 2) := by
  induction n with
  | zero => rfl
  | succ n ih =>
    have before := ih fun m less => occupied m (Nat.lt_succ_of_lt less)
    rw [Function.iterate_succ_apply', before]
    exact step_of_not_isFree (occupied n (Nat.lt_succ_self n))

theorem iterate_step_of_firstFree (found : FirstFree taken name n) :
    (step taken name)^[n + 1] (testing name 2) =
      ended (candidate name n) (occupy taken (candidate name n)) := by
  rw [Function.iterate_succ_apply', iterate_step found.passed]
  exact step_of_isFree found.free

end Reservation

/-- Whatever names are taken, a search without a bound ends within two tests for each of them and one more,
though one for each would do. It gives the alias that is reserved, the first candidate such that neither it
nor its linking alias was taken, and just these two names become taken. -/
theorem reservation_ends (taken : List Text) (name : Text) :
    ∃ n, n + 1 ≤ 2 * taken.toFinset.card + 1 ∧
      (Reservation.step taken name)^[n + 1] (.testing name 2) =
        .ended (reserve taken name) (occupy taken (reserve taken name)) ∧
      reserve taken name = candidate name n ∧
      (candidate name n ∉ taken ∧ candidate name n ++ linkSuffix ∉ taken) ∧
      (∀ m < n, candidate name m ∈ taken ∨ candidate name m ++ linkSuffix ∈ taken) ∧
      (occupy taken (reserve taken name)).toFinset =
        taken.toFinset ∪ {reserve taken name, reserve taken name ++ linkSuffix} := by
  obtain ⟨n, bound, found⟩ := exists_firstFree taken name
  have reserved := found.reserve_eq bound
  refine ⟨n, by omega, ?_, reserved, isFree_iff.mp found.free, ?_, toFinset_occupy _ _⟩
  · rw [reserved]
    exact Reservation.iterate_step_of_firstFree found
  · exact fun m before => not_isFree_iff.mp (found.passed m before)

/-- A name can be in the way as an alias or as a linking alias. -/
example : let taken := occupy (occupy [base] "owner") "owner_2"
    reserve taken "owner" = "owner_3" ∧ reserve taken "owner_link" = "owner_link_2" := by
  decide

end RecordQuery.Aliases
