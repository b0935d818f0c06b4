import Mathlib.Algebra.Group.Nat.Defs

/-!
# Fields of a word

A field is a window of a word: `len` bits from bit `lsb` on.  Decoders read one by
shifting and masking, or ask by one mask whether it holds a constant; encoders put
one in place by a shift.  Each of the three is the window here, so that two
packings are compared window by window.
-/

set_option autoImplicit false

namespace BitFields

open BitVec

variable {w lsb len : Nat}

/-! ## Reading a field -/

theorem shift_and_ones (x : BitVec w) (lsb len : Nat) (ones : BitVec w)
    (isOnes : ones = (allOnes len).setWidth w) :
    (x >>> lsb) &&& ones = (x.extractLsb' lsb len).setWidth w := by
  subst isOnes
  apply eq_of_getLsbD_eq
  intro i small
  by_cases high : i < len
  · simp [high, small]
  · simp [high, small]

theorem and_ones (x : BitVec w) (len : Nat) (ones : BitVec w)
    (isOnes : ones = (allOnes len).setWidth w) : x &&& ones = (x.extractLsb' 0 len).setWidth w := by
  rw [← shift_and_ones x 0 len ones isOnes, BitVec.ushiftRight_zero]

theorem shift_top (x : BitVec w) (lsb len : Nat) (top : w ≤ lsb + len) :
    x >>> lsb = (x.extractLsb' lsb len).setWidth w := by
  apply eq_of_getLsbD_eq
  intro i small
  by_cases high : i < len
  · simp [high, small]
  · have above : w ≤ lsb + i := by omega
    simp [high, small, getLsbD_of_ge x _ above]

/-! ## Testing a field -/

/-- A test whose mask covers a window settles what the window holds. -/
theorem window_of_and {x mask value : BitVec w} (test : x &&& mask = value) (lsb len : Nat)
    (covers : mask.extractLsb' lsb len = allOnes len) :
    x.extractLsb' lsb len = value.extractLsb' lsb len := by
  rw [← test, extractLsb'_and, covers, and_allOnes]

theorem and_eq_iff_window (x mask value : BitVec w) (lsb : Nat) (field : BitVec len)
    (inside : lsb + len ≤ w) (isMask : mask = (allOnes len).setWidth w <<< lsb)
    (isValue : value = field.setWidth w <<< lsb) :
    x &&& mask = value ↔ x.extractLsb' lsb len = field := by
  subst isMask isValue
  constructor
  · intro same
    apply eq_of_getLsbD_eq
    intro i small
    have bit := congrArg (fun word => word.getLsbD (lsb + i)) same
    have below : lsb + i < w := by omega
    have above : ¬ lsb + i < lsb := by omega
    simpa [small, below, above] using bit
  · rintro rfl
    apply eq_of_getLsbD_eq
    intro i small
    by_cases low : i < lsb
    · simp [low]
    · have back : lsb + (i - lsb) = i := by omega
      by_cases high : i - lsb < len
      · simp [low, high, small, back]
      · simp [low, high, small]

/-- A mask of two separate parts asks for both. -/
theorem and_or_eq_iff (x upper lower high low : BitVec w) (apart : upper &&& lower = 0#w)
    (highInside : high &&& upper = high) (lowInside : low &&& lower = low) :
    x &&& (upper ||| lower) = high ||| low ↔ x &&& upper = high ∧ x &&& lower = low := by
  have lowOutside : low &&& upper = 0#w := by
    rw [← lowInside, BitVec.and_assoc, BitVec.and_comm lower, apart, BitVec.and_zero]
  have highOutside : high &&& lower = 0#w := by
    rw [← highInside, BitVec.and_assoc, apart, BitVec.and_zero]
  constructor
  · intro same
    constructor
    · have kept := congrArg (· &&& upper) same
      have whole : (upper ||| lower) &&& upper = upper := by
        rw [BitVec.and_or_distrib_right, BitVec.and_self, BitVec.and_comm lower, apart,
          BitVec.or_zero]
      simpa only [BitVec.and_assoc, whole, BitVec.and_or_distrib_right, highInside, lowOutside,
        BitVec.or_zero] using kept
    · have kept := congrArg (· &&& lower) same
      have whole : (upper ||| lower) &&& lower = lower := by
        rw [BitVec.and_or_distrib_right, BitVec.and_self, apart, BitVec.zero_or]
      simpa only [BitVec.and_assoc, whole, BitVec.and_or_distrib_right, lowInside, highOutside,
        BitVec.zero_or] using kept
  · rintro ⟨upperSame, lowerSame⟩
    rw [BitVec.and_or_distrib_left, upperSame, lowerSame]

/-! ## Putting a field in place -/

def place (w lsb : Nat) (field : BitVec len) : BitVec w :=
  field.setWidth w <<< lsb

theorem extract_place (field : BitVec len) (inside : lsb + len ≤ w) :
    (place w lsb field).extractLsb' lsb len = field := by
  apply eq_of_getLsbD_eq
  intro i small
  have below : lsb + i < w := by omega
  simp [place, small, below]

theorem extract_place_apart {start count : Nat} (field : BitVec len)
    (apart : start + count ≤ lsb ∨ lsb + len ≤ start) :
    (place w lsb field).extractLsb' start count = BitVec.ofNat count 0 := by
  apply eq_of_getLsbD_eq
  intro i small
  rcases apart with before | after
  · have low : start + i < lsb := by omega
    simp [place, low]
  · have high : len ≤ start + i - lsb := by omega
    simp [place, getLsbD_of_ge field _ high]

/-- A field shifted up against the top and back down is extended by its sign. -/
theorem toInt_up_and_down (field : BitVec len) (k : Nat) :
    ((field.setWidth (len + k) <<< k).sshiftRight k).toInt = field.toInt := by
  have moved : field.setWidth (len + k) <<< k = field ++ 0#k := by
    apply eq_of_getLsbD_eq
    intro i small
    by_cases low : i < k
    · simp [getLsbD_append, low]
    · have reach : i - k < len + k := by omega
      rw [getLsbD_append, getLsbD_shiftLeft, getLsbD_setWidth]
      simp [low, small, reach]
  have positive : ((2 ^ k : Nat) : Int) ≠ 0 :=
    Int.ofNat_ne_zero.mpr (Nat.ne_of_gt (Nat.two_pow_pos k))
  rw [moved, toInt_sshiftRight, toInt_append_zero, Int.shiftRight_eq_div_pow]
  exact Int.mul_ediv_cancel_left _ positive

end BitFields
