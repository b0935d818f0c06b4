import Mathlib.Logic.Function.Basic
import Mathlib.Data.List.Basic

/-!
# A bank of keyed slots

`count` slots, each in use for a key or not.  An entry goes into the first slot
that is free, unless one holds its key already; so no key is ever in two of them
(`Apart`), and a key is left out only when the bank is full.  An entry that is
still pending can be taken out again.
-/

set_option autoImplicit false

namespace SlotBank

variable {W K : Type} (used : W → Prop) [DecidablePred used] (key : W → K) [DecidableEq K]
  (count : Nat)

def Holds (bank : Nat → W) (k : K) : Prop := ∃ i, i < count ∧ used (bank i) ∧ key (bank i) = k

def Full (bank : Nat → W) : Prop := ∀ i, i < count → used (bank i)

def Apart (bank : Nat → W) : Prop :=
  ∀ i, i < count → ∀ j, j < count → used (bank i) → used (bank j) →
    key (bank i) = key (bank j) → i = j

/-- This slot is the only free one. -/
def LastFree (bank : Nat → W) (i : Nat) : Prop :=
  i < count ∧ ¬ used (bank i) ∧ ∀ j, j < count → ¬ used (bank j) → j = i

def place (k : K) (entry : W) (bank : Nat → W) : Nat → W :=
  if (List.range count).any fun i => used (bank i) ∧ key (bank i) = k then bank
  else
    match (List.range count).find? fun i => ¬ used (bank i) with
    | some i => Function.update bank i entry
    | none => bank

def retire (pending : W → Prop) [DecidablePred pending] (k : K) (blank : W) (bank : Nat → W)
    (i : Nat) : W :=
  if pending (bank i) ∧ key (bank i) = k then blank else bank i

variable {used key count} {bank after : Nat → W} {k : K} {entry : W}

omit [DecidablePred used] [DecidableEq K] in
theorem Apart.shrink (apart : Apart used key count bank)
    (kept : ∀ i, i < count → used (after i) → used (bank i) ∧ key (after i) = key (bank i)) :
    Apart used key count after := by
  intro i small j small' inUse inUse' same
  obtain ⟨before, key⟩ := kept i small inUse
  obtain ⟨before', key'⟩ := kept j small' inUse'
  exact apart i small j small' before before' (key.symm.trans (same.trans key'))

section Congr

variable (same : ∀ i, i < count → after i = bank i)

include same

omit [DecidablePred used] [DecidableEq K] in
theorem holds_congr : Holds used key count after k ↔ Holds used key count bank k := by
  refine exists_congr fun i => and_congr_right fun small => ?_
  rw [same i small]

omit [DecidablePred used] in
theorem full_congr : Full used count after ↔ Full used count bank := by
  refine forall_congr' fun i => forall_congr' fun small => ?_
  rw [same i small]

omit [DecidablePred used] [DecidableEq K] in
theorem Apart.congr (apart : Apart used key count bank) : Apart used key count after := by
  refine apart.shrink fun i small inUse => ?_
  rw [same i small] at inUse ⊢
  exact ⟨inUse, rfl⟩

end Congr

theorem any_iff_holds :
    ((List.range count).any fun i => used (bank i) ∧ key (bank i) = k) = true ↔
      Holds used key count bank k := by
  simp [Holds, List.any_eq_true]

instance : Decidable (Holds used key count bank k) := decidable_of_iff _ any_iff_holds

omit [DecidableEq K] in
theorem find_none_iff_full :
    ((List.range count).find? fun i => ¬ used (bank i)) = none ↔ Full used count bank := by
  simp [Full, List.find?_eq_none]

variable (used key count) in
/-- Placing either changes nothing or takes one free slot for a key nobody held. -/
theorem place_cases (k : K) (entry : W) (bank : Nat → W) :
    (Holds used key count bank k ∨ Full used count bank) ∧ place used key count k entry bank = bank ∨
      ¬ Holds used key count bank k ∧ ∃ i, i < count ∧ ¬ used (bank i) ∧
        place used key count k entry bank = Function.update bank i entry := by
  unfold place
  split
  · rename_i held
    exact Or.inl ⟨Or.inl (any_iff_holds.mp held), rfl⟩
  · rename_i free
    rw [any_iff_holds] at free
    split
    · rename_i i found
      have small := List.mem_range.mp (List.mem_of_find?_eq_some found)
      have unused := List.find?_some found
      exact Or.inr ⟨free, i, small, by simpa using unused, rfl⟩
    · rename_i none
      exact Or.inl ⟨Or.inr (find_none_iff_full.mp none), rfl⟩

section Place

variable (inUse : used entry) (named : key entry = k)

include inUse named

omit inUse in
theorem place_apart (apart : Apart used key count bank) :
    Apart used key count (place used key count k entry bank) := by
  obtain ⟨-, same⟩ | ⟨free, i, small, -, placed⟩ :=
    place_cases used key count k entry bank
  · rw [same]
    exact apart
  · have others : ∀ j, j < count → used (bank j) → key (bank j) ≠ k :=
      fun j small there same => free ⟨j, small, there, same⟩
    rw [placed]
    intro j small j' small' there there' same
    by_cases here : j = i
    · by_cases here' : j' = i
      · rw [here, here']
      · rw [here, Function.update_self, Function.update_of_ne here', named] at same
        rw [Function.update_of_ne here'] at there'
        exact absurd same.symm (others j' small' there')
    · by_cases here' : j' = i
      · rw [here', Function.update_self, Function.update_of_ne here, named] at same
        rw [Function.update_of_ne here] at there
        exact absurd same (others j small there)
      · rw [Function.update_of_ne here] at there same
        rw [Function.update_of_ne here'] at there' same
        exact apart j small j' small' there there' same

variable (count bank) in
/-- A key is in the bank afterwards if it was, or if it is this one and there was
room. -/
theorem place_holds_iff (wanted : K) :
    Holds used key count (place used key count k entry bank) wanted ↔
      Holds used key count bank wanted ∨ wanted = k ∧ ¬ Full used count bank := by
  obtain ⟨stays, same⟩ | ⟨free, i, small, unused, placed⟩ :=
    place_cases used key count k entry bank
  · rw [same]
    constructor
    · exact Or.inl
    · rintro (held | ⟨rfl, room⟩)
      · exact held
      · exact stays.resolve_right room
  · have room : ¬ Full used count bank := fun full => unused (full i small)
    rw [placed]
    constructor
    · rintro ⟨j, small', there, same⟩
      by_cases here : j = i
      · rw [here, Function.update_self, named] at same
        exact Or.inr ⟨same.symm, room⟩
      · rw [Function.update_of_ne here] at there same
        exact Or.inl ⟨j, small', there, same⟩
    · rintro (⟨j, small', there, same⟩ | ⟨rfl, -⟩)
      · have other : j ≠ i := by
          rintro rfl
          exact unused there
        refine ⟨j, small', ?_, ?_⟩ <;> rw [Function.update_of_ne other]
        · exact there
        · exact same
      · refine ⟨i, small, ?_, ?_⟩ <;> rw [Function.update_self]
        · exact inUse
        · exact named

omit named in
/-- The bank is full afterwards if it was, or if the last free slot was taken. -/
theorem place_full_iff : Full used count (place used key count k entry bank) ↔
    Full used count bank ∨
      ¬ Holds used key count bank k ∧ ∃ i, LastFree used count bank i := by
  obtain ⟨stays, same⟩ | ⟨free, i, small, unused, placed⟩ :=
    place_cases used key count k entry bank
  · rw [same]
    constructor
    · exact Or.inl
    · rintro (full | ⟨free, i, small, unused, -⟩)
      · exact full
      · exact absurd (stays.resolve_left free i small) unused
  · rw [placed]
    constructor
    · intro full
      refine Or.inr ⟨free, i, small, unused, ?_⟩
      intro j small' unused'
      by_contra other
      have there := full j small'
      rw [Function.update_of_ne other] at there
      exact unused' there
    · rintro (full | ⟨-, last, small', unused', only⟩) j small''
      · exact absurd (full i small) unused
      · by_cases here : j = i
        · rw [here, Function.update_self]
          exact inUse
        · rw [Function.update_of_ne here]
          by_contra unused''
          exact here ((only j small'' unused'').trans (only i small unused).symm)

end Place

section Retire

variable {pending : W → Prop} [DecidablePred pending] {blank : W} (emptied : ¬ used blank)

include emptied

omit [DecidablePred used] in
theorem retire_used {i : Nat} (inUse : used (retire key pending k blank bank i)) :
    retire key pending k blank bank i = bank i ∧ ¬ (pending (bank i) ∧ key (bank i) = k) := by
  unfold retire at inUse ⊢
  by_cases retired : pending (bank i) ∧ key (bank i) = k
  · rw [if_pos retired] at inUse
    exact absurd inUse emptied
  · exact ⟨if_neg retired, retired⟩

omit [DecidablePred used] in
theorem retire_apart (apart : Apart used key count bank) :
    Apart used key count (retire key pending k blank bank) := by
  refine apart.shrink fun i _ inUse => ?_
  obtain ⟨same, -⟩ := retire_used emptied inUse
  rw [same] at inUse ⊢
  exact ⟨inUse, rfl⟩

omit [DecidablePred used] in
theorem retire_holds_iff {other : K} (apart : other ≠ k) :
    Holds used key count (retire key pending k blank bank) other ↔
      Holds used key count bank other := by
  constructor
  · rintro ⟨i, small, inUse, named⟩
    obtain ⟨same, -⟩ := retire_used emptied inUse
    rw [same] at inUse named
    exact ⟨i, small, inUse, named⟩
  · rintro ⟨i, small, inUse, named⟩
    have same : retire key pending k blank bank i = bank i :=
      if_neg fun retired => apart (named.symm.trans retired.2)
    refine ⟨i, small, ?_⟩
    rw [same]
    exact ⟨inUse, named⟩

omit [DecidablePred used] in
/-- The bank stays full only if there was nothing to take out. -/
theorem retire_full_iff : Full used count (retire key pending k blank bank) ↔
    Full used count bank ∧ ∀ i, i < count → ¬ (pending (bank i) ∧ key (bank i) = k) := by
  constructor
  · intro full
    have kept := fun i small => retire_used emptied (full i small)
    refine ⟨fun i small => ?_, fun i small => (kept i small).2⟩
    rw [← (kept i small).1]
    exact full i small
  · rintro ⟨full, none⟩ i small
    have same : retire key pending k blank bank i = bank i := if_neg (none i small)
    rw [same]
    exact full i small

end Retire

end SlotBank
