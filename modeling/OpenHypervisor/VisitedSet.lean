import Mathlib.Data.Finset.Insert
import OpenHypervisor.OffsetWalk

/-!
# What the table of visited addresses stands for

`vis_seen` answers as a set of addresses would that takes new ones while it has fewer than
half as many as the table has slots.  The zero address is counted and never taken.
-/

set_option autoImplicit false

namespace OpenHypervisor.OffsetProbe

open ProbeTable

/-! ## One question -/

structure Sound (v : Visited) : Prop where
  chained : Chained 0 visSlots visHash v.tab
  counted : taken 0 visSlots v.tab ≤ v.nodes
  half : v.nodes ≤ visSlots / 2

def Visited.Holds (v : Visited) (a : BitVec 64) : Prop := Stored 0 visSlots v.tab a

inductive Asked (v : Visited) (a : BitVec 64) : Bool → Visited → Prop
  | known (held : v.Holds a) : Asked v a true v
  | noted (v' : Visited) (fresh : ¬ v.Holds a) (room : v.nodes < visSlots / 2)
      (holds : ∀ x, v'.Holds x ↔ (x = a ∧ a ≠ 0) ∨ v.Holds x) (count : v'.nodes = v.nodes + 1) :
      Asked v a false v'
  | full (fresh : ¬ v.Holds a) (room : ¬ v.nodes < visSlots / 2) : Asked v a false v

theorem visHash_lt (a : BitVec 64) : visHash a < visSlots := by
  have below := Nat.and_le_right (n := (((a >>> 2) * 0x9e3779b97f4a7c15#64) >>> 50).toNat)
    (m := (0x3fff#64).toNat)
  rw [← BitVec.toNat_and] at below
  exact Nat.lt_succ_of_le below

theorem seek_eq (v : Visited) (a : BitVec 64) :
    seek 0 visSlots v.tab a visSlots (visHash a) =
      seek 0 visSlots v.tab a visSlots (visHash a % visSlots) := by
  rw [Nat.mod_eq_of_lt (visHash_lt a)]

theorem sound_reset : Sound visReset where
  chained := chained_blank visHash
  counted := Nat.le_of_eq taken_blank
  half := Nat.zero_le _

theorem holds_reset (a : BitVec 64) : ¬ visReset.Holds a := not_stored_blank a

/-- A question always has an answer, and the answer is one of three. -/
theorem visSeen_cases {v : Visited} (sound : Sound v) (a : BitVec 64) :
    ∃ seen v', visSeen v a = some (seen, v') ∧ Sound v' ∧ Asked v a seen v' := by
  rw [visSeen, seek_eq]
  by_cases held : v.Holds a
  · obtain ⟨i, ended, here⟩ := seek_stored sound.chained held
    have written : v.tab i ≠ 0 := here ▸ held.1
    rw [ended, Option.map_some, if_pos written]
    exact ⟨true, v, rfl, sound, .known held⟩
  · have some' : taken 0 visSlots v.tab < visSlots :=
      Nat.lt_of_le_of_lt (sound.counted.trans sound.half) (by decide)
    obtain ⟨i, ended, free, reached⟩ := seek_fresh some' held (visHash a)
    rw [ended, Option.map_some, if_neg (not_not.mpr free)]
    by_cases room : v.nodes < visSlots / 2
    · rw [if_pos room]
      have inside : i < visSlots := by
        obtain ⟨m, -, place, -⟩ := reached
        exact place ▸ Nat.mod_lt _ (by decide)
      refine ⟨false, _, rfl, ⟨sound.chained.insert free reached, ?_, room⟩, ?_⟩
      · exact taken_insert.trans (Nat.succ_le_succ sound.counted)
      · refine .noted _ held room (fun x => ?_) rfl
        by_cases zero : a = 0
        · -- zero is the mark of a free slot: writing it changes nothing
          subst zero
          have same : Function.update v.tab i 0 = v.tab := free ▸ Function.update_eq_self i v.tab
          simp only [Visited.Holds, same, ne_eq, not_true_eq_false, and_false, false_or]
        · simp only [Visited.Holds, stored_insert zero free inside, ne_eq, zero,
            not_false_eq_true, and_true]
    · rw [if_neg room]
      exact ⟨false, v, rfl, sound, .full held room⟩

/-! ## Any number of questions -/

/-- The set the table stands for. -/
structure Known where
  addrs : Finset (BitVec 64)
  nodes : Nat

def Known.seen (k : Known) (a : BitVec 64) : Bool × Known :=
  if a ∈ k.addrs then (true, k)
  else if k.nodes < visSlots / 2 then
    (false, ⟨if a = 0 then k.addrs else insert a k.addrs, k.nodes + 1⟩)
  else (false, k)

def Known.askAll : Known → List (BitVec 64) → List Bool × Known
  | k, [] => ([], k)
  | k, a :: rest =>
      let answer := k.seen a
      let later := Known.askAll answer.2 rest
      (answer.1 :: later.1, later.2)

def askAll : Visited → List (BitVec 64) → Option (List Bool × Visited)
  | v, [] => some ([], v)
  | v, a :: rest =>
      (visSeen v a).bind fun answer =>
        (askAll answer.2 rest).map fun later => (answer.1 :: later.1, later.2)

structure Stands (v : Visited) (k : Known) : Prop where
  sound : Sound v
  same : ∀ a, v.Holds a ↔ a ∈ k.addrs
  count : v.nodes = k.nodes

theorem stands_reset : Stands visReset ⟨∅, 0⟩ where
  sound := sound_reset
  same a := iff_of_false (holds_reset a) (Finset.notMem_empty a)
  count := rfl

/-- One question to the table is one question to the set. -/
theorem stands_seen {v : Visited} {k : Known} (stands : Stands v k) (a : BitVec 64) :
    ∃ v', visSeen v a = some ((k.seen a).1, v') ∧ Stands v' (k.seen a).2 := by
  obtain ⟨seen, v', answered, sound', asked⟩ := visSeen_cases stands.sound a
  refine ⟨v', ?_⟩
  rw [answered, Known.seen]
  cases asked with
  | known held =>
      rw [if_pos ((stands.same a).mp held)]
      exact ⟨rfl, stands⟩
  | noted _ fresh room holds count =>
      rw [if_neg (mt (stands.same a).mpr fresh), if_pos (stands.count ▸ room)]
      refine ⟨rfl, sound', fun x => ?_, ?_⟩
      · rw [holds, stands.same]
        by_cases zero : a = 0
        · rw [if_pos zero, or_iff_right fun both => both.2 zero]
        · rw [if_neg zero, Finset.mem_insert, and_iff_left zero]
      · rw [count, stands.count]
  | full fresh room =>
      rw [if_neg (mt (stands.same a).mpr fresh), if_neg (stands.count ▸ room)]
      exact ⟨rfl, stands⟩

theorem stands_askAll {v : Visited} {k : Known} (stands : Stands v k) (addrs : List (BitVec 64)) :
    ∃ v', askAll v addrs = some ((k.askAll addrs).1, v') ∧ Stands v' (k.askAll addrs).2 := by
  induction addrs generalizing v k with
  | nil => exact ⟨v, rfl, stands⟩
  | cons a rest ih =>
      obtain ⟨middle, answered, between⟩ := stands_seen stands a
      obtain ⟨last, later, standing⟩ := ih between
      refine ⟨last, ?_, standing⟩
      rw [askAll, answered, Option.bind_some, later]
      rfl

/-- Asked about any addresses in any order, the table never goes round without end and
gives the answers the set gives. -/
theorem visSeen_refines_set (addrs : List (BitVec 64)) :
    ∃ v, askAll visReset addrs = some ((Known.askAll ⟨∅, 0⟩ addrs).1, v) ∧
      Stands v (Known.askAll ⟨∅, 0⟩ addrs).2 :=
  stands_askAll stands_reset addrs

end OpenHypervisor.OffsetProbe
