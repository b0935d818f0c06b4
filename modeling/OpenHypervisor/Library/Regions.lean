import Mathlib.Data.List.Perm.Basic

/-!
# Tables of regions over a space of cells

A space says which region every cell belongs to, if any.  A table of regions
mirrors it when the regions listed are the ones the space holds, each once and
each with all of its cells.  `Mirrors.add` and `Mirrors.remove` are the two ways
a table follows the space, and `Mirrors.owner` is what a table is read by.
-/

set_option autoImplicit false

namespace Regions

variable {C R : Type*}

def assign (space : C → Option R) (cells : C → Prop) [DecidablePred cells] (owner : Option R) :
    C → Option R :=
  fun c => if cells c then owner else space c

theorem assign_inside (space : C → Option R) (cells : C → Prop) [DecidablePred cells]
    (owner : Option R) (c : C) (inside : cells c) : assign space cells owner c = owner :=
  if_pos inside

theorem assign_outside (space : C → Option R) (cells : C → Prop) [DecidablePred cells]
    (owner : Option R) (c : C) (outside : ¬ cells c) : assign space cells owner c = space c :=
  if_neg outside

structure Mirrors (extent : R → C → Prop) (table : List R) (space : C → Option R) : Prop where
  distinct : table.Nodup
  held : ∀ r ∈ table, ∀ c, extent r c → space c = some r
  listed : ∀ c r, space c = some r → r ∈ table ∧ extent r c

namespace Mirrors

variable {extent : R → C → Prop} {table : List R} {space : C → Option R}

theorem empty (extent : R → C → Prop) : Mirrors extent [] fun _ => none where
  distinct := List.nodup_nil
  held := nofun
  listed := nofun

/-- Two regions of the table that share a cell are one. -/
theorem owner (mirrors : Mirrors extent table space) {first second : R} {c : C}
    (left : first ∈ table) (inFirst : extent first c) (right : second ∈ table)
    (inSecond : extent second c) : first = second := by
  have one := mirrors.held first left c inFirst
  rw [mirrors.held second right c inSecond] at one
  exact (Option.some.inj one).symm

theorem add (mirrors : Mirrors extent table space) (r : R) [DecidablePred (extent r)]
    {c : C} (inside : extent r c) (free : ∀ c, extent r c → space c = none) :
    Mirrors extent (table ++ [r]) (assign space (extent r) (some r)) := by
  have new : r ∉ table := fun member => by
    have owned := mirrors.held r member c inside
    rw [free c inside] at owned
    cases owned
  refine ⟨?_, ?_, ?_⟩
  · exact List.nodup_append.mpr ⟨mirrors.distinct, List.pairwise_singleton _ r, fun a member b last => by
      rw [List.mem_singleton.mp last]
      exact fun same => new (same ▸ member)⟩
  · intro other member c there
    by_cases here : extent r c
    · rw [assign_inside _ _ _ _ here]
      obtain old | last := List.mem_append.mp member
      · have owned := mirrors.held other old c there
        rw [free c here] at owned
        cases owned
      · rw [List.mem_singleton.mp last]
    · rw [assign_outside _ _ _ _ here]
      obtain old | last := List.mem_append.mp member
      · exact mirrors.held other old c there
      · exact absurd (List.mem_singleton.mp last ▸ there) here
  · intro c other owned
    by_cases here : extent r c
    · rw [assign_inside _ _ _ _ here] at owned
      cases owned
      exact ⟨List.mem_append_right _ (List.mem_singleton.mpr rfl), here⟩
    · rw [assign_outside _ _ _ _ here] at owned
      obtain ⟨old, there⟩ := mirrors.listed c other owned
      exact ⟨List.mem_append_left _ old, there⟩

/-- A region taken off its cells and off the table, whatever the order of the
rest. -/
theorem remove (mirrors : Mirrors extent table space) (r : R) [DecidablePred (extent r)]
    {rest : List R} (split : table.Perm (r :: rest)) :
    Mirrors extent rest (assign space (extent r) none) := by
  have distinct := split.nodup_iff.mp mirrors.distinct
  obtain ⟨new, distinct⟩ := List.nodup_cons.mp distinct
  have member : ∀ other, other ∈ table ↔ other = r ∨ other ∈ rest := fun other => by
    rw [split.mem_iff, List.mem_cons]
  refine ⟨distinct, ?_, ?_⟩
  · intro other old c there
    have inTable : other ∈ table := (member other).mpr (Or.inr old)
    have outside : ¬ extent r c := fun here => by
      have same := mirrors.owner ((member r).mpr (Or.inl rfl)) here inTable there
      exact new (same ▸ old)
    rw [assign_outside _ _ _ _ outside]
    exact mirrors.held other inTable c there
  · intro c other owned
    by_cases here : extent r c
    · rw [assign_inside _ _ _ _ here] at owned
      cases owned
    · rw [assign_outside _ _ _ _ here] at owned
      obtain ⟨inTable, there⟩ := mirrors.listed c other owned
      obtain rfl | old := (member other).mp inTable
      · exact absurd there here
      · exact ⟨old, there⟩

end Mirrors

theorem swap_remove_perm {table : List R} {i : Nat} {last : R} (inside : i < table.length)
    (tail : table.getLast? = some last) :
    table.Perm (table[i] :: (table.set i last).dropLast) := by
  obtain ⟨front, rfl⟩ := List.getLast?_eq_some_iff.mp tail
  by_cases final : i = front.length
  · subst final
    simp
  · have early : i < front.length := by
      rw [List.length_append, List.length_singleton] at inside
      omega
    have swapped := List.set_perm_cons_eraseIdx early last
    have original := List.getElem_cons_eraseIdx_perm early
    rw [List.set_append_left _ _ early, List.dropLast_concat, List.getElem_append_left early]
    calc (front ++ [last]).Perm (last :: front) := List.perm_append_singleton last front
      List.Perm _ (last :: front[i] :: front.eraseIdx i) := original.symm.cons last
      List.Perm _ (front[i] :: last :: front.eraseIdx i) := List.Perm.swap _ _ _
      List.Perm _ (front[i] :: front.set i last) := swapped.symm.cons _

end Regions
