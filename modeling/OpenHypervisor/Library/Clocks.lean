import Mathlib.Data.BitVec

/-!
# Counters that wrap

A clock and its deadlines are words of one width and wrap together.  A deadline is
translated into the units of another clock by adding what lies between the two,
which changes no distance.  Whether it is reached is asked by the sign of the
wrapped distance: `reached_agrees_iff` says when that is the order of the numbers.
A distance shown through fewer bits is shown whole exactly when it fits
(`low_zeroExtend_iff`).
-/

set_option autoImplicit false

namespace Clocks

open BitVec

variable {w : Nat}

/-- `(signed)(clock - deadline) >= 0`. -/
def reached (clock deadline : BitVec w) : Bool := !(clock - deadline).msb

theorem reached_offset (clock deadline off : BitVec w) :
    reached (clock - off) (deadline - off) = reached clock deadline := by
  rw [reached, sub_sub_sub_cancel_right, reached]

theorem toNat_sub_of_lt {clock deadline : BitVec w} (ahead : clock < deadline) :
    (clock - deadline).toNat = 2 ^ w - (deadline.toNat - clock.toNat) := by
  have less : clock.toNat < deadline.toNat := ahead
  have fits := deadline.isLt
  rw [BitVec.toNat_sub, Nat.mod_eq_of_lt (by omega)]
  omega

theorem reached_iff_near (clock deadline : BitVec (w + 1)) :
    reached clock deadline = true ↔ (clock - deadline).toNat < 2 ^ w := by
  rw [reached, BitVec.msb_eq_decide, Bool.not_eq_true', decide_eq_false_iff_not, Nat.not_le,
    Nat.add_sub_cancel]

/-- The sign answers the order exactly while neither number leads the other by half
the range: by less than that behind, by no more than that ahead. -/
theorem reached_agrees_iff (clock deadline : BitVec (w + 1)) :
    reached clock deadline = decide (deadline ≤ clock) ↔
      clock.toNat < deadline.toNat + 2 ^ w ∧ deadline.toNat ≤ clock.toNat + 2 ^ w := by
  rw [Bool.eq_iff_iff, reached_iff_near, decide_eq_true_eq]
  have fits := deadline.isLt
  have half : 2 ^ (w + 1) = 2 ^ w + 2 ^ w := by rw [Nat.pow_succ, Nat.mul_two]
  by_cases before : deadline ≤ clock
  · have order : deadline.toNat ≤ clock.toNat := before
    rw [BitVec.toNat_sub_of_le before, iff_true_right before]
    omega
  · have ahead : clock < deadline := BitVec.not_le.mp before
    have order : clock.toNat < deadline.toNat := ahead
    rw [toNat_sub_of_lt ahead, iff_false_right before]
    omega

theorem low_zeroExtend_iff (k : Nat) (distance : BitVec w) :
    distance = (distance.extractLsb' 0 k).zeroExtend w ↔ distance.toNat < 2 ^ k := by
  rw [← BitVec.toNat_inj, BitVec.zeroExtend_eq_setWidth, BitVec.toNat_setWidth,
    BitVec.extractLsb'_toNat, Nat.shiftRight_zero]
  have fits := distance.isLt
  have short : distance.toNat % 2 ^ k ≤ distance.toNat := Nat.mod_le distance.toNat (2 ^ k)
  rw [Nat.mod_eq_of_lt (Nat.lt_of_le_of_lt short fits)]
  constructor
  · intro same
    rw [same]
    exact Nat.mod_lt _ (Nat.two_pow_pos k)
  · intro small
    exact (Nat.mod_eq_of_lt small).symm

end Clocks
