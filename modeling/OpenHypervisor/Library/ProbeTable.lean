import Mathlib.Data.Finset.Card
import Mathlib.Data.Finset.Range
import Mathlib.Logic.Function.Basic

/-!
# Linear probing

A table of cells searched from the place a key hashes to, one cell after another and
round the end, until the key or a blank cell is met.  Nothing is ever taken out, so every
stored key stays in reach of its own place: a search finds it, and a search for any other
key ends at a blank cell while there is one.
-/

set_option autoImplicit false

namespace ProbeTable

variable {K : Type*}

/-- Where a search from cell `i` stops. -/
def seek [DecidableEq K] (blank : K) (size : Nat) (cells : Nat → K) (k : K) :
    Nat → Nat → Option Nat
  | 0, _ => none
  | fuel + 1, i =>
      if cells i = blank ∨ cells i = k then some i
      else seek blank size cells k fuel ((i + 1) % size)

variable {blank : K} {size : Nat} {cells : Nat → K} {k : K}

section Search
variable [DecidableEq K]

theorem seek_some {fuel start i : Nat}
    (ended : seek blank size cells k fuel (start % size) = some i) :
    ∃ m < fuel, i = (start + m) % size ∧ (cells i = blank ∨ cells i = k) ∧
      ∀ m' < m, cells ((start + m') % size) ≠ blank ∧ cells ((start + m') % size) ≠ k := by
  induction fuel generalizing start with
  | zero => cases ended
  | succ fuel ih =>
      rw [seek] at ended
      by_cases stops : cells (start % size) = blank ∨ cells (start % size) = k
      · rw [if_pos stops] at ended
        cases ended
        exact ⟨0, by omega, rfl, stops, fun m' below => absurd below (Nat.not_lt_zero m')⟩
      · rw [if_neg stops, Nat.mod_add_mod] at ended
        obtain ⟨m, inside, place, stopped, passed⟩ := ih ended
        refine ⟨m + 1, by omega, ?_, stopped, ?_⟩
        · rw [place, Nat.add_assoc, Nat.add_comm 1 m]
        · intro m' below
          cases m' with
          | zero => exact not_or.mp stops
          | succ m' =>
              have earlier := passed m' (by omega)
              rw [Nat.add_assoc, Nat.add_comm 1 m'] at earlier
              exact earlier

theorem seek_isSome {fuel start m : Nat} (inside : m < fuel)
    (stops : cells ((start + m) % size) = blank ∨ cells ((start + m) % size) = k) :
    ∃ i, seek blank size cells k fuel (start % size) = some i := by
  induction fuel generalizing start m with
  | zero => exact absurd inside (Nat.not_lt_zero m)
  | succ fuel ih =>
      rw [seek]
      by_cases here : cells (start % size) = blank ∨ cells (start % size) = k
      · exact ⟨_, if_pos here⟩
      · rw [if_neg here, Nat.mod_add_mod]
        cases m with
        | zero => exact absurd stops here
        | succ m =>
            refine ih (m := m) (by omega) ?_
            rw [Nat.add_assoc, Nat.add_comm 1 m]
            exact stops

theorem round_reaches (start : Nat) {i : Nat} (inside : i < size) :
    ∃ m < size, (start + m) % size = i := by
  have positive : 0 < size := Nat.zero_lt_of_lt inside
  have below : start % size < size := Nat.mod_lt start positive
  refine ⟨(i + (size - start % size)) % size, Nat.mod_lt _ positive, ?_⟩
  rw [Nat.add_mod_mod, ← Nat.mod_add_mod, show start % size + (i + (size - start % size)) =
    i + size by omega, Nat.add_mod_right, Nat.mod_eq_of_lt inside]

end Search

/-! ## The table -/

/-- Every stored key is in reach of its own place: no blank cell lies between. -/
def Chained (blank : K) (size : Nat) (hash : K → Nat) (cells : Nat → K) : Prop :=
  ∀ i < size, cells i ≠ blank → ∃ m < size, (hash (cells i) + m) % size = i ∧
    ∀ m' < m, cells ((hash (cells i) + m') % size) ≠ blank

def Stored (blank : K) (size : Nat) (cells : Nat → K) (k : K) : Prop :=
  k ≠ blank ∧ ∃ i < size, cells i = k

def taken [DecidableEq K] (blank : K) (size : Nat) (cells : Nat → K) : Nat :=
  ((Finset.range size).filter fun i => cells i ≠ blank).card

theorem chained_blank (hash : K → Nat) : Chained blank size hash fun _ => blank :=
  fun _ _ written => absurd rfl written

theorem not_stored_blank (k : K) : ¬ Stored blank size (fun _ => blank) k := by
  rintro ⟨real, i, -, same⟩
  exact real same.symm

theorem taken_blank [DecidableEq K] : taken blank size (fun _ => blank) = 0 := by
  rw [taken, Finset.card_eq_zero]
  exact Finset.filter_eq_empty_iff.mpr fun _ _ written => written rfl

theorem exists_blank [DecidableEq K] (room : taken blank size cells < size) :
    ∃ i < size, cells i = blank := by
  by_contra full
  have all : (Finset.range size).filter (fun i => cells i ≠ blank) = Finset.range size := by
    refine Finset.filter_true_of_mem fun i inside written => full ⟨i, ?_, written⟩
    exact Finset.mem_range.mp inside
  rw [taken, all, Finset.card_range] at room
  exact Nat.lt_irrefl size room

variable {hash : K → Nat}

/-- A search for a stored key ends at it. -/
theorem seek_stored [DecidableEq K] (chained : Chained blank size hash cells)
    (stored : Stored blank size cells k) :
    ∃ i, seek blank size cells k size (hash k % size) = some i ∧ cells i = k := by
  obtain ⟨real, place, inside, here⟩ := stored
  obtain ⟨m, round, reaches, between⟩ := chained place inside (here ▸ real)
  rw [here] at reaches between
  have stops : cells ((hash k + m) % size) = blank ∨ cells ((hash k + m) % size) = k :=
    Or.inr (reaches.symm ▸ here)
  obtain ⟨i, ended⟩ := seek_isSome round stops
  obtain ⟨m', -, place', stopped, passed⟩ := seek_some ended
  refine ⟨i, ended, stopped.resolve_left fun free => ?_⟩
  -- a blank cell before the key would lie between it and its place
  rcases Nat.lt_trichotomy m' m with early | same | late
  · exact between m' early (place' ▸ free)
  · rw [place', same, reaches, here] at free
    exact real free
  · exact (passed m late).2 (reaches.symm ▸ here)

/-- A search for any other key ends at a blank cell. -/
theorem seek_fresh [DecidableEq K] (room : taken blank size cells < size)
    (fresh : ¬ Stored blank size cells k) (start : Nat) :
    ∃ i, seek blank size cells k size (start % size) = some i ∧
      cells i = blank ∧ ∃ m < size, (start + m) % size = i ∧
        ∀ m' < m, cells ((start + m') % size) ≠ blank := by
  obtain ⟨free, inside, blankThere⟩ := exists_blank room
  have positive : 0 < size := Nat.zero_lt_of_lt inside
  obtain ⟨m, round, reaches⟩ := round_reaches start inside
  have stops : cells ((start + m) % size) = blank ∨ cells ((start + m) % size) = k :=
    Or.inl (reaches.symm ▸ blankThere)
  obtain ⟨i, ended⟩ := seek_isSome round stops
  obtain ⟨m', round', place, stopped, passed⟩ := seek_some ended
  refine ⟨i, ended, ?_, m', round', place.symm, fun j below => (passed j below).1⟩
  by_contra written
  have same : cells i = k := stopped.resolve_left written
  exact fresh ⟨same ▸ written, i, place ▸ Nat.mod_lt _ positive, same⟩

/-! ## Storing a key at the blank cell its search ended at -/

variable {i : Nat}

theorem Chained.insert (chained : Chained blank size hash cells) (free : cells i = blank)
    (reached : ∃ m < size, (hash k + m) % size = i ∧
      ∀ m' < m, cells ((hash k + m') % size) ≠ blank) :
    Chained blank size hash (Function.update cells i k) := by
  have kept : ∀ j, cells j ≠ blank → Function.update cells i k j ≠ blank := by
    intro j written
    by_cases same : j = i
    · exact absurd (same ▸ free) written
    · rwa [Function.update_of_ne same]
  intro j inside written
  by_cases same : j = i
  · subst same
    rw [Function.update_self]
    obtain ⟨m, round, reaches, between⟩ := reached
    exact ⟨m, round, reaches, fun m' below => kept _ (between m' below)⟩
  · rw [Function.update_of_ne same] at written ⊢
    obtain ⟨m, round, reaches, between⟩ := chained j inside written
    exact ⟨m, round, reaches, fun m' below => kept _ (between m' below)⟩

theorem stored_insert (real : k ≠ blank) (free : cells i = blank) (inside : i < size) (x : K) :
    Stored blank size (Function.update cells i k) x ↔ x = k ∨ Stored blank size cells x := by
  constructor
  · rintro ⟨some', j, within, here⟩
    by_cases same : j = i
    · subst same
      rw [Function.update_self] at here
      exact Or.inl here.symm
    · rw [Function.update_of_ne same] at here
      exact Or.inr ⟨some', j, within, here⟩
  · rintro (rfl | ⟨some', j, within, here⟩)
    · exact ⟨real, i, inside, Function.update_self i x cells⟩
    · have other : j ≠ i := by
        rintro rfl
        exact some' (here.symm.trans free)
      exact ⟨some', j, within, (Function.update_of_ne other k cells).trans here⟩

theorem taken_insert [DecidableEq K] :
    taken blank size (Function.update cells i k) ≤ taken blank size cells + 1 := by
  have within : (Finset.range size).filter (fun j => Function.update cells i k j ≠ blank) ⊆
      insert i ((Finset.range size).filter fun j => cells j ≠ blank) := by
    intro j member
    obtain ⟨inside, written⟩ := Finset.mem_filter.mp member
    by_cases same : j = i
    · rw [same]
      exact Finset.mem_insert_self i _
    · rw [Function.update_of_ne same] at written
      exact Finset.mem_insert_of_mem (Finset.mem_filter.mpr ⟨inside, written⟩)
  exact (Finset.card_le_card within).trans (Finset.card_insert_le i _)

end ProbeTable
