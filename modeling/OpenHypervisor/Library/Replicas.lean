import Mathlib.Logic.Function.Basic

/-!
# Replicas

Copies of one value under several keys, and an update put to each of them in
turn.  Every one may refuse it on its own.  An idempotent update leaves a copy
either as it was or updated once, however often its key is listed.
-/

set_option autoImplicit false

namespace Replicas

variable {K V : Type*}

/-- `accepts i` is the answer of the key in place `i`. -/
def fanOut [DecidableEq K] (update : V → V) (accepts : Nat → Bool) : List K → (K → V) → K → V
  | [], copies => copies
  | k :: rest, copies =>
      fanOut update (fun i => accepts (i + 1)) rest
        (if accepts 0 then Function.update copies k (update (copies k)) else copies)

def Reached (accepts : Nat → Bool) (keys : List K) (k : K) : Prop :=
  ∃ i, keys[i]? = some k ∧ accepts i = true

theorem not_reached_nil (accepts : Nat → Bool) (k : K) : ¬ Reached accepts [] k := by
  rintro ⟨i, listed, -⟩
  simp at listed

theorem reached_cons_iff (accepts : Nat → Bool) (head k : K) (rest : List K) :
    Reached accepts (head :: rest) k ↔
      (head = k ∧ accepts 0 = true) ∨ Reached (fun i => accepts (i + 1)) rest k := by
  constructor
  · rintro ⟨i, listed, accepted⟩
    cases i with
    | zero => exact Or.inl ⟨by simpa using listed, accepted⟩
    | succ i => exact Or.inr ⟨i, by simpa using listed, accepted⟩
  · rintro (⟨rfl, accepted⟩ | ⟨i, listed, accepted⟩)
    · exact ⟨0, by simp, accepted⟩
    · exact ⟨i + 1, by simpa using listed, accepted⟩

section FanOut

variable [DecidableEq K] {update : V → V} {accepts : Nat → Bool} {keys : List K}

theorem fanOut_of_not_reached {copies : K → V} {k : K} (missed : ¬ Reached accepts keys k) :
    fanOut update accepts keys copies k = copies k := by
  induction keys generalizing accepts copies with
  | nil => rfl
  | cons head rest ih =>
      rw [reached_cons_iff] at missed
      rw [fanOut, ih fun later => missed (Or.inr later)]
      split
      · rename_i accepted
        have other : k ≠ head := fun same => missed (Or.inl ⟨same.symm, accepted⟩)
        exact Function.update_of_ne other _ _
      · rfl

theorem fanOut_of_reached (idem : ∀ v, update (update v) = update v) {copies : K → V} {k : K}
    (reached : Reached accepts keys k) :
    fanOut update accepts keys copies k = update (copies k) := by
  induction keys generalizing accepts copies with
  | nil => exact absurd reached (not_reached_nil accepts k)
  | cons head rest ih =>
      rw [fanOut]
      by_cases later : Reached (fun i => accepts (i + 1)) rest k
      · rw [ih later]
        split
        · by_cases same : k = head
          · subst same
            rw [Function.update_self, idem]
          · rw [Function.update_of_ne same]
        · rfl
      · obtain ⟨rfl, accepted⟩ | now := (reached_cons_iff accepts head k rest).mp reached
        · rw [fanOut_of_not_reached later, if_pos accepted, Function.update_self]
        · exact absurd now later

/-- Copies that agreed agree on the updated value if and only if the update
reached each of them or was none. -/
theorem fanOut_agree_iff (idem : ∀ v, update (update v) = update v) {copies : K → V} {v : V}
    (agreed : ∀ k ∈ keys, copies k = v) :
    (∀ k ∈ keys, fanOut update accepts keys copies k = update v) ↔
      ∀ k ∈ keys, Reached accepts keys k ∨ update v = v := by
  refine forall₂_congr fun k listed => ?_
  by_cases reached : Reached accepts keys k
  · rw [fanOut_of_reached idem reached, agreed k listed]
    exact ⟨fun _ => Or.inl reached, fun _ => rfl⟩
  · rw [fanOut_of_not_reached reached, agreed k listed]
    exact ⟨fun same => Or.inr same.symm, fun either => (either.resolve_left reached).symm⟩

end FanOut

end Replicas
