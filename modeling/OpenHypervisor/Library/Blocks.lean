import Mathlib.Logic.Function.Basic

/-!
# Blocks of a flat memory

A memory is a function of the offset; a block is a base with the cells from there
on.  `Holds` says that a block is there, `write` puts one, and `holds_write_iff`
says when another block is still there afterwards: exactly when the two agree in
the cells they share.  `Laid` is the table of the blocks last written, one for each
component, and `laid_write_iff` the same for all of it.
-/

set_option autoImplicit false

namespace Blocks

variable {B C : Type*}

def read (mem : Nat → B) (base : Nat) : Nat → List B
  | 0 => []
  | n + 1 => mem base :: read mem (base + 1) n

def write (mem : Nat → B) (base : Nat) : List B → Nat → B
  | [] => mem
  | b :: rest => write (Function.update mem base b) (base + 1) rest

def Holds (mem : Nat → B) (base : Nat) (block : List B) : Prop :=
  ∀ k b, block[k]? = some b → mem (base + k) = b

/-- Two blocks that say the same of the cells they share. -/
def Agree (base : Nat) (block : List B) (base' : Nat) (block' : List B) : Prop :=
  ∀ k k' b b', block[k]? = some b → block'[k']? = some b' → base + k = base' + k' → b = b'

theorem agree_of_apart {base base' : Nat} {block block' : List B}
    (apart : base + block.length ≤ base' ∨ base' + block'.length ≤ base) :
    Agree base block base' block' := by
  intro k k' b b' here there same
  obtain ⟨inside, -⟩ := List.getElem?_eq_some_iff.mp here
  obtain ⟨inside', -⟩ := List.getElem?_eq_some_iff.mp there
  omega

theorem Agree.symm {base base' : Nat} {block block' : List B}
    (agree : Agree base block base' block') : Agree base' block' base block :=
  fun k k' b b' here there same => (agree k' k b' b there here same.symm).symm

theorem holds_cons (mem : Nat → B) (base : Nat) (b : B) (rest : List B) :
    Holds mem base (b :: rest) ↔ mem base = b ∧ Holds mem (base + 1) rest := by
  constructor
  · intro holds
    refine ⟨holds 0 b rfl, fun k c there => ?_⟩
    have here := holds (k + 1) c there
    rwa [← Nat.add_assoc, Nat.add_right_comm] at here
  · rintro ⟨first, later⟩ k c there
    cases k with
    | zero =>
        cases there
        exact first
    | succ k =>
        have here := later k c there
        rwa [Nat.add_right_comm, Nat.add_assoc] at here

theorem read_eq_iff (mem : Nat → B) (base : Nat) (block : List B) :
    read mem base block.length = block ↔ Holds mem base block := by
  induction block generalizing base with
  | nil => exact iff_of_true rfl fun k b there => by cases there
  | cons b rest ih =>
      rw [holds_cons, ← ih (base + 1), List.length_cons, read, List.cons.injEq]

theorem write_outside (mem : Nat → B) (base : Nat) (block : List B) (off : Nat)
    (outside : off < base ∨ base + block.length ≤ off) : write mem base block off = mem off := by
  induction block generalizing mem base with
  | nil => rfl
  | cons b rest ih =>
      rw [List.length_cons] at outside
      have apart : off ≠ base := by omega
      rw [write, ih _ _ (by omega), Function.update_of_ne apart]

theorem holds_write (mem : Nat → B) (base : Nat) (block : List B) :
    Holds (write mem base block) base block := by
  induction block generalizing mem base with
  | nil => exact fun k b there => by cases there
  | cons b rest ih =>
      refine (holds_cons _ base b rest).mpr ⟨?_, ih _ _⟩
      rw [write, write_outside _ _ _ base (Or.inl (Nat.lt_succ_self base)), Function.update_self]

theorem holds_write_iff {mem : Nat → B} {base : Nat} {block : List B}
    (holds : Holds mem base block) (base' : Nat) (block' : List B) :
    Holds (write mem base' block') base block ↔ Agree base block base' block' := by
  have written := holds_write mem base' block'
  constructor
  · intro still k k' b b' here there same
    have old := still k b here
    rwa [same, written k' b' there, eq_comm] at old
  · intro agree k b here
    by_cases inside : base' ≤ base + k ∧ base + k < base' + block'.length
    · have index : base + k - base' < block'.length := by omega
      have there : block'[base + k - base']? = some block'[base + k - base'] :=
        List.getElem?_eq_getElem index
      have put := written _ _ there
      rw [Nat.add_sub_cancel' inside.1] at put
      rw [put, agree k _ b _ here there (by omega)]
    · rw [write_outside _ _ _ _ (by omega)]
      exact holds k b here

/-! ## Components -/

/-- The block last written for each component is there. -/
def Laid (base : C → Nat) (mem : Nat → B) (last : C → Option (List B)) : Prop :=
  ∀ c block, last c = some block → Holds mem (base c) block

/-- All of them are still there after one more is written exactly when it agrees with
each of the others. -/
theorem laid_write_iff [DecidableEq C] {base : C → Nat} {mem : Nat → B}
    {last : C → Option (List B)} (laid : Laid base mem last) (c : C) (block : List B) :
    Laid base (write mem (base c) block) (Function.update last c (some block)) ↔
      ∀ d old, d ≠ c → last d = some old → Agree (base d) old (base c) block := by
  constructor
  · intro after d old other known
    have still := after d old ((Function.update_of_ne other _ _).trans known)
    exact (holds_write_iff (laid d old known) _ _).mp still
  · intro agree d old known
    by_cases same : d = c
    · subst same
      rw [Function.update_self, Option.some.injEq] at known
      exact known ▸ holds_write mem (base d) block
    · rw [Function.update_of_ne same] at known
      exact (holds_write_iff (laid d old known) _ _).mpr (agree d old same known)

end Blocks
