import Mathlib.Logic.Function.Basic

/-!
# Memories of 64-bit words and single bits of a word

`WordMem` is a page seen as 64-bit words named by their byte offset.  `AgreeOn`
is the frame relation: two memories hold the same words in a window.  The second
half gives the bits of a word after one bit of it was set, cleared or replaced,
in the form read-modify-write code computes them.
-/

set_option autoImplicit false

structure WordMem where
  word : Nat → BitVec 64

namespace WordMem

@[ext]
theorem ext (left right : WordMem) (same : ∀ off, left.word off = right.word off) :
    left = right := by
  cases left
  cases right
  simp only [WordMem.mk.injEq]
  exact funext same

def put (memory : WordMem) (off : Nat) (value : BitVec 64) : WordMem :=
  ⟨Function.update memory.word off value⟩

@[simp]
theorem put_word (memory : WordMem) (off at' : Nat) (value : BitVec 64) :
    (memory.put off value).word at' = if at' = off then value else memory.word at' := by
  simp [put, Function.update_apply]

/-- Both memories hold the same words at the offsets of the window. -/
def AgreeOn (window : Nat → Prop) (before after : WordMem) : Prop :=
  ∀ off, window off → after.word off = before.word off

variable {window : Nat → Prop} {first second third : WordMem}

theorem AgreeOn.refl (memory : WordMem) : AgreeOn window memory memory :=
  fun _ _ => rfl

theorem AgreeOn.trans (left : AgreeOn window first second)
    (right : AgreeOn window second third) : AgreeOn window first third :=
  fun off inside => (right off inside).trans (left off inside)

theorem AgreeOn.put (agree : AgreeOn window first second) (off : Nat) (value : BitVec 64)
    (outside : ¬ window off) : AgreeOn window first (second.put off value) := by
  intro at' inside
  have ne : at' ≠ off := fun same => outside (same ▸ inside)
  simp [ne, agree at' inside]

end WordMem

/-! ## One bit of a word -/

namespace WordBits

open BitVec

variable {w : Nat}

theorem and_twoPow_eq_zero_iff (x : BitVec w) (n : Nat) (inside : n < w) :
    x &&& twoPow w n = 0#w ↔ x.getLsbD n = false := by
  rw [and_twoPow]
  cases bit : x.getLsbD n with
  | false => simp
  | true =>
      simp only [if_true, Bool.true_eq_false, iff_false]
      intro zero
      have same := congrArg (fun word => word.getLsbD n) zero
      simp [inside] at same

theorem getLsbD_or_twoPow (x : BitVec w) (n i : Nat) (inside : n < w) :
    (x ||| twoPow w n).getLsbD i = (x.getLsbD i || decide (i = n)) := by
  rw [getLsbD_or, getLsbD_twoPow]
  by_cases same : i = n
  · simp [same, inside]
  · simp [same, Ne.symm same]

theorem getLsbD_and_not_twoPow (x : BitVec w) (n i : Nat) :
    (x &&& ~~~twoPow w n).getLsbD i = (x.getLsbD i && !decide (i = n)) := by
  by_cases small : i < w
  · rw [getLsbD_and, getLsbD_not, getLsbD_twoPow]
    by_cases same : i = n
    · simp [same]
    · simp [same, Ne.symm same, small]
  · simp [getLsbD_of_ge x i (Nat.le_of_not_lt small),
      getLsbD_of_ge (x &&& ~~~twoPow w n) i (Nat.le_of_not_lt small)]

/-- The shape in which a level is written: clear the bit, or in the wanted one. -/
theorem getLsbD_replace (x : BitVec w) (n i : Nat) (wanted : Bool) (inside : n < w) :
    ((x &&& ~~~twoPow w n) ||| (if wanted then twoPow w n else 0#w)).getLsbD i =
      if i = n then wanted else x.getLsbD i := by
  cases wanted with
  | true =>
      simp only [if_true]
      rw [getLsbD_or_twoPow _ _ _ inside, getLsbD_and_not_twoPow]
      by_cases same : i = n <;> simp [same]
  | false =>
      simp only [Bool.false_eq_true, if_false, or_zero]
      rw [getLsbD_and_not_twoPow]
      by_cases same : i = n <;> simp [same]

/-- The other shape: set it or clear it. -/
theorem getLsbD_setOrClear (x : BitVec w) (n i : Nat) (wanted : Bool) (inside : n < w) :
    (if wanted then x ||| twoPow w n else x &&& ~~~twoPow w n).getLsbD i =
      if i = n then wanted else x.getLsbD i := by
  cases wanted with
  | true =>
      rw [if_pos rfl, getLsbD_or_twoPow _ _ _ inside]
      by_cases same : i = n <;> simp [same]
  | false =>
      rw [if_neg (by decide), getLsbD_and_not_twoPow]
      by_cases same : i = n <;> simp [same]

theorem and_twoPow_eq_ite_iff (x : BitVec w) (n : Nat) (wanted : Bool) (inside : n < w) :
    x &&& twoPow w n = (if wanted then twoPow w n else 0#w) ↔ x.getLsbD n = wanted := by
  have nonzero : twoPow w n ≠ 0#w := by
    intro zero
    have same := congrArg (fun word => word.getLsbD n) zero
    simp [inside] at same
  rw [and_twoPow]
  cases x.getLsbD n <;> cases wanted <;> simp [nonzero, Ne.symm nonzero]

theorem getLsbD_switch (x mask : BitVec w) (on : Bool) (i : Nat) :
    (if on then x ||| mask else x &&& ~~~mask).getLsbD i =
      if mask.getLsbD i = true then on else x.getLsbD i := by
  cases on with
  | true =>
      rw [if_pos rfl, getLsbD_or]
      cases mask.getLsbD i with
      | true => rw [if_pos rfl, Bool.or_true]
      | false => rw [if_neg Bool.false_ne_true, Bool.or_false]
  | false =>
      rw [if_neg Bool.false_ne_true, getLsbD_and, getLsbD_not]
      cases masked : mask.getLsbD i with
      | true => rw [if_pos rfl, Bool.not_true, Bool.and_false, Bool.and_false]
      | false =>
          rw [if_neg Bool.false_ne_true]
          by_cases small : i < w
          · simp [small]
          · simp [getLsbD_of_ge x i (Nat.le_of_not_lt small)]

theorem or_and_self (x bits : BitVec w) : (x ||| bits) &&& bits = bits := by
  refine BitVec.eq_of_getLsbD_eq fun i _ => ?_
  rw [getLsbD_and, getLsbD_or]
  cases bits.getLsbD i with
  | true => rw [Bool.or_true, Bool.and_true]
  | false => exact Bool.and_false _

theorem replace_and {mask bits : BitVec w} (inside : bits &&& mask = bits) (x : BitVec w) :
    ((x &&& ~~~mask) ||| bits) &&& mask = bits := by
  have cleared : x &&& ~~~mask &&& mask = 0#w := by
    rw [BitVec.and_assoc, BitVec.and_comm (~~~mask), BitVec.and_not_self]
    exact BitVec.and_zero
  rw [BitVec.and_or_distrib_right, cleared, inside]
  exact BitVec.zero_or

/-- Two fields side by side are the same when each is. -/
theorem or_masked_eq_iff {mask low other : BitVec w} (lowOutside : low &&& mask = 0#w)
    (otherOutside : other &&& mask = 0#w) (x y : BitVec w) :
    (x &&& mask) ||| low = (y &&& mask) ||| other ↔ x &&& mask = y &&& mask ∧ low = other := by
  have apart : ∀ field : BitVec w, field &&& mask = 0#w → field &&& ~~~mask = field := by
    intro field outside
    have whole : field &&& (mask ||| ~~~mask) = field := by simp
    rw [BitVec.and_or_distrib_left, outside, BitVec.zero_or] at whole
    exact whole
  constructor
  · intro same
    have upper := congrArg (· &&& mask) same
    have lower := congrArg (· &&& ~~~mask) same
    simp only [BitVec.and_or_distrib_right, BitVec.and_assoc, BitVec.and_self, lowOutside,
      otherOutside, BitVec.or_zero] at upper
    have gone : mask &&& ~~~mask = 0#w := by simp
    simp only [BitVec.and_or_distrib_right, BitVec.and_assoc, gone, BitVec.and_zero,
      apart low lowOutside, apart other otherOutside, BitVec.zero_or] at lower
    exact ⟨upper, lower⟩
  · rintro ⟨upper, lower⟩
    rw [upper, lower]

end WordBits
