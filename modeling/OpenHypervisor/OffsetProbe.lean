import OpenHypervisor.Library.BitFields
import OpenHypervisor.Library.Words

/-!
# The decoder of the offset probe

`tools/offset_probe.cpp` reads the framework's text and collects the immediates of
the loads, stores and moves it meets.  `decode` and `branch_off` are its decoder; the
encodings they are read against are written by their own fields below.
-/

set_option autoImplicit false

namespace OpenHypervisor.OffsetProbe

open BitVec BitFields

inductive Kind where
  | unk
  | ldr
  | str
  | ldur
  | stur
  | movz
  | movk
  | svc
  | ret
  | retab
  | bl
  | b
  deriving DecidableEq, Repr

structure Insn where
  kind : Kind := .unk
  rt : BitVec 8 := 0
  imm : BitVec 32 := 0
  size : BitVec 8 := 0
  deriving DecidableEq, Repr

/-! ## The source -/

def decUimm (w : BitVec 32) : Option Insn :=
  if w &&& 0x3b000000 ≠ 0x39000000 then none
  else
    let size := w >>> 30
    let v := (w >>> 26) &&& 1
    let opc := (w >>> 22) &&& 3
    if opc &&& 2 ≠ 0 ∧ ¬ (v ≠ 0 ∧ size = 0) then none
    else
      let bytes := if v ≠ 0 ∧ opc ≥ 2 ∧ size = 0 then 16 else (1#32 <<< size).setWidth 8
      some {
        kind := if opc &&& 1 ≠ 0 then .ldr else .str
        rt := (w &&& 31).setWidth 8
        size := bytes
        imm := ((w >>> 10) &&& 0xfff) * bytes.setWidth 32 }

def decUr (w : BitVec 32) : Option Insn :=
  if w &&& 0x3fe00400 ≠ 0x38000000 then none
  else
    let size := w >>> 30
    let v := (w >>> 26) &&& 1
    let opc := (w >>> 22) &&& 3
    if v ≠ 0 then none
    else
      let imm9 := (w >>> 12) &&& 0x1ff
      some {
        kind := if opc &&& 1 ≠ 0 then .ldur else .stur
        rt := (w &&& 31).setWidth 8
        size := (1#32 <<< size).setWidth 8
        imm := if imm9 &&& 0x100 ≠ 0 then imm9 - 0x200 else imm9 }

/-- `none` where the source shifts a 32-bit value by 32 or more. -/
def decode (w : BitVec 32) : Option Insn :=
  match decUimm w with
  | some o => some o
  | none =>
  match decUr w with
  | some o => some o
  | none =>
  if w &&& 0x7f800000 = 0x52800000 then
    let top := (w >>> 29) &&& 3
    let hw := (w >>> 21) &&& 3
    if 16 * hw.toNat < 32 then
      some {
        kind := if top = 3 then .movk else if top = 2 then .movz else .unk
        rt := (w &&& 31).setWidth 8
        imm := ((w >>> 5) &&& 0xffff) <<< (16 * hw.toNat) }
    else none
  else if w &&& 0xfff000ff = 0xd4000001 then some { kind := .svc, imm := (w >>> 5) &&& 0xffff }
  else if w = 0xd65f03c0 then some { kind := .ret }
  else if w &&& 0xfffffc1f = 0xd65f0c00 then some { kind := .retab }
  else if w &&& 0xfc000000 = 0x94000000 then some { kind := .bl }
  else if w &&& 0xfc000000 = 0x14000000 then some { kind := .b }
  else some {}

def branchOff (w : BitVec 32) : Int :=
  (((w &&& 0x03ffffff) <<< 6).sshiftRight 6).toInt * 4

/-! ## The encodings -/

def unscaled (size : BitVec 2) (load : BitVec 1) (imm9 : BitVec 9) (rn rt : BitVec 5) :
    BitVec 32 :=
  size ++ 0b111#3 ++ 0#1 ++ 0b00#2 ++ 0#1 ++ load ++ 0#1 ++ imm9 ++ 0b00#2 ++ rn ++ rt

def unsignedOffset (size opc : BitVec 2) (imm12 : BitVec 12) (rn rt : BitVec 5) : BitVec 32 :=
  size ++ 0b111#3 ++ 0#1 ++ 0b01#2 ++ opc ++ imm12 ++ rn ++ rt

/-- What of that space moves data: the rest of opc 2 and 3 prefetches or is unallocated. -/
def Transfers (size opc : BitVec 2) : Prop :=
  opc = 0 ∨ opc = 1 ∨ (opc = 2 ∧ size ≠ 3) ∨ (opc = 3 ∧ size.toNat < 2)

/-- MOVZ, and MOVK where the low bit of opc is set. -/
def moveWide (sf keep : BitVec 1) (hw : BitVec 2) (imm16 : BitVec 16) (rd : BitVec 5) :
    BitVec 32 :=
  sf ++ 1#1 ++ keep ++ 0b100101#6 ++ hw ++ imm16 ++ rd

/-- A 32-bit move has two places for its half word. -/
def Shifts (sf : BitVec 1) (hw : BitVec 2) : Prop :=
  sf = 0 → hw.toNat < 2

def branch (link : BitVec 1) (imm26 : BitVec 26) : BitVec 32 :=
  link ++ 0b00101#5 ++ imm26

/-! ## The tests as windows -/

section Tests
variable (w : BitVec 32)

theorem uimm_test_iff :
    w &&& 0x3b000000 = 0x39000000 ↔ w.extractLsb' 27 3 = 0b111#3 ∧ w.extractLsb' 24 2 = 0b01#2 := by
  have parts := and_or_eq_iff w 0x38000000 0x03000000 0x38000000 0x01000000
    (by decide) (by decide) (by decide)
  have upper := and_eq_iff_window w 0x38000000 0x38000000 27 0b111#3
    (by decide) (by decide) (by decide)
  have lower := and_eq_iff_window w 0x03000000 0x01000000 24 0b01#2
    (by decide) (by decide) (by decide)
  rw [← upper, ← lower, ← parts]
  exact Iff.rfl

theorem ur_test_iff :
    w &&& 0x3fe00400 = 0x38000000 ↔
      w.extractLsb' 21 9 = 0b111000000#9 ∧ w.extractLsb' 10 1 = 0#1 := by
  have parts := and_or_eq_iff w 0x3fe00000 0x00000400 0x38000000 0
    (by decide) (by decide) (by decide)
  have upper := and_eq_iff_window w 0x3fe00000 0x38000000 21 0b111000000#9
    (by decide) (by decide) (by decide)
  have lower := and_eq_iff_window w 0x00000400 0 10 0#1 (by decide) (by decide) (by decide)
  rw [← upper, ← lower, ← parts]
  exact Iff.rfl

theorem mov_test_iff : w &&& 0x7f800000 = 0x52800000 ↔ w.extractLsb' 23 8 = 0b10100101#8 :=
  and_eq_iff_window w _ _ 23 _ (by decide) (by decide) (by decide)

variable {w}

theorem decode_other (uimm : decUimm w = none) (ur : decUr w = none)
    (mov : ¬ w &&& 0x7f800000 = 0x52800000) (general : w.extractLsb' 26 1 = 0#1) :
    decode w = some {} := by
  have tests : ∀ mask value : BitVec 32, mask.extractLsb' 26 1 = allOnes 1 →
      value.extractLsb' 26 1 = 1#1 → ¬ w &&& mask = value := by
    intro mask value covers named test
    have clear := (window_of_and test 26 1 covers).trans named
    rw [general] at clear
    exact absurd clear (by decide)
  have noRet : w ≠ 0xd65f03c0 := by
    rintro rfl
    exact absurd general (by decide)
  simp only [decode, uimm, ur]
  rw [if_neg mov, if_neg (tests _ _ (by decide) (by decide)), if_neg noRet,
    if_neg (tests _ _ (by decide) (by decide)), if_neg (tests _ _ (by decide) (by decide)),
    if_neg (tests _ _ (by decide) (by decide))]

theorem test_refused {mask value : BitVec 32} (lsb len : Nat)
    (covers : mask.extractLsb' lsb len = allOnes len)
    (other : w.extractLsb' lsb len ≠ value.extractLsb' lsb len) : ¬ w &&& mask = value :=
  fun test => other (window_of_and test lsb len covers)

end Tests

/-! ## What each encoding is decoded to -/

theorem two_bits (field : BitVec 2) : field = 0 ∨ field = 1 ∨ field = 2 ∨ field = 3 := by
  revert field
  decide

def accessBytes (size : BitVec 2) : BitVec 8 :=
  (1#32 <<< (size.setWidth 32)).setWidth 8

theorem unsignedOffset_fields (size opc : BitVec 2) (imm12 : BitVec 12) (rn rt : BitVec 5) :
    let w := unsignedOffset size opc imm12 rn rt
    w.extractLsb' 30 2 = size ∧ w.extractLsb' 27 3 = 0b111#3 ∧ w.extractLsb' 26 1 = 0#1 ∧
      w.extractLsb' 24 2 = 0b01#2 ∧ w.extractLsb' 22 2 = opc ∧ w.extractLsb' 10 12 = imm12 ∧
      w.extractLsb' 0 5 = rt := by
  refine ⟨?_, ?_, ?_, ?_, ?_, ?_, ?_⟩ <;>
    simp (disch := decide) only [unsignedOffset, extractLsb'_append_eq_of_le, Nat.reduceSub,
      extractLsb'_append_eq_of_add_le, extractLsb'_eq_self]

theorem decUimm_unsignedOffset (size opc : BitVec 2) (imm12 : BitVec 12) (rn rt : BitVec 5) :
    decUimm (unsignedOffset size opc imm12 rn rt) =
      if opc.toNat < 2 then
        some {
          kind := if opc = 0 then .str else .ldr
          rt := rt.setWidth 8
          size := accessBytes size
          imm := imm12.setWidth 32 * (accessBytes size).setWidth 32 }
      else none := by
  obtain ⟨size', klass, general, unsigned, opc', imm', rt'⟩ :=
    unsignedOffset_fields size opc imm12 rn rt
  generalize unsignedOffset size opc imm12 rn rt = w at *
  have passed : ¬ w &&& 0x3b000000 ≠ 0x39000000 :=
    not_not.mpr ((uimm_test_iff w).mpr ⟨klass, unsigned⟩)
  rw [decUimm, if_neg passed]
  rw [shift_top w 30 2 (by decide), shift_and_ones w 26 1 1 (by decide),
    shift_and_ones w 22 2 3 (by decide), shift_and_ones w 10 12 0xfff (by decide),
    and_ones w 5 31 (by decide), size', general, opc', imm', rt']
  rcases two_bits opc with rfl | rfl | rfl | rfl <;> simp [accessBytes]

theorem decode_unsignedOffset (size opc : BitVec 2) (imm12 : BitVec 12) (rn rt : BitVec 5) :
    decode (unsignedOffset size opc imm12 rn rt) =
      if opc.toNat < 2 then
        some {
          kind := if opc = 0 then .str else .ldr
          rt := rt.setWidth 8
          size := accessBytes size
          imm := imm12.setWidth 32 * (accessBytes size).setWidth 32 }
      else some {} := by
  have first := decUimm_unsignedOffset size opc imm12 rn rt
  obtain ⟨-, klass, general, unsigned, -, -, -⟩ := unsignedOffset_fields size opc imm12 rn rt
  generalize unsignedOffset size opc imm12 rn rt = w at *
  by_cases zeroExtends : opc.toNat < 2
  · rw [if_pos zeroExtends] at first ⊢
    simp only [decode, first]
  · rw [if_neg zeroExtends] at first ⊢
    have ur : decUr w = none :=
      if_pos (test_refused 24 2 (by decide) (by rw [unsigned]; decide))
    exact decode_other first ur (test_refused 27 3 (by decide) (by rw [klass]; decide)) general

theorem unscaled_fields (size : BitVec 2) (load : BitVec 1) (imm9 : BitVec 9)
    (rn rt : BitVec 5) :
    let w := unscaled size load imm9 rn rt
    w.extractLsb' 30 2 = size ∧ w.extractLsb' 27 3 = 0b111#3 ∧ w.extractLsb' 26 1 = 0#1 ∧
      w.extractLsb' 24 2 = 0b00#2 ∧ w.extractLsb' 23 1 = 0#1 ∧ w.extractLsb' 22 1 = load ∧
      w.extractLsb' 21 1 = 0#1 ∧ w.extractLsb' 12 9 = imm9 ∧ w.extractLsb' 10 1 = 0#1 ∧
      w.extractLsb' 0 5 = rt := by
  refine ⟨?_, ?_, ?_, ?_, ?_, ?_, ?_, ?_, ?_, ?_⟩ <;>
    simp (disch := decide) only [unscaled, extractLsb'_append_eq_of_le, Nat.reduceSub,
      extractLsb'_append_eq_of_add_le, extractLsb'_eq_self, BitVec.reduceExtractLsb']

theorem decode_unscaled (size : BitVec 2) (load : BitVec 1) (imm9 : BitVec 9)
    (rn rt : BitVec 5) :
    decode (unscaled size load imm9 rn rt) =
      if load = 0 then
        some {
          kind := .stur
          rt := rt.setWidth 8
          size := accessBytes size
          imm := if imm9.setWidth 32 &&& 0x100#32 ≠ 0 then imm9.setWidth 32 - 0x200
            else imm9.setWidth 32 }
      else some {} := by
  obtain ⟨size', klass, general, indexed, high, load', low, imm', unindexed, rt'⟩ :=
    unscaled_fields size load imm9 rn rt
  generalize unscaled size load imm9 rn rt = w at *
  have uimm : decUimm w = none :=
    if_pos (test_refused 24 2 (by decide) (by rw [indexed]; decide))
  by_cases store : load = 0
  · rw [if_pos store]
    have window : w.extractLsb' 21 9 = w.extractLsb' 27 3 ++ w.extractLsb' 26 1 ++
        w.extractLsb' 24 2 ++ w.extractLsb' 23 1 ++ w.extractLsb' 22 1 ++ w.extractLsb' 21 1 := by
      simp (disch := decide) only [extractLsb'_append_extractLsb'_eq_extractLsb']
    have fixed : w.extractLsb' 21 9 = 0b111000000#9 := by
      rw [window, klass, general, indexed, high, load', low, store]
      decide
    have opc : w.extractLsb' 22 2 = 0#2 := by
      have joined : w.extractLsb' 22 2 = w.extractLsb' 23 1 ++ w.extractLsb' 22 1 := by
        simp (disch := decide) only [extractLsb'_append_extractLsb'_eq_extractLsb']
      rw [joined, high, load', store]
      decide
    have passed : ¬ w &&& 0x3fe00400 ≠ 0x38000000 :=
      not_not.mpr ((ur_test_iff w).mpr ⟨fixed, unindexed⟩)
    simp only [decode, uimm]
    rw [decUr, if_neg passed, shift_top w 30 2 (by decide), shift_and_ones w 26 1 1 (by decide),
      shift_and_ones w 22 2 3 (by decide), shift_and_ones w 12 9 0x1ff (by decide),
      and_ones w 5 31 (by decide), size', general, opc, imm', rt']
    simp [accessBytes]
  · rw [if_neg store]
    have ur : decUr w = none := by
      refine if_pos (test_refused 22 1 (by decide) ?_)
      rw [load']
      exact store
    exact decode_other uimm ur (test_refused 27 3 (by decide) (by rw [klass]; decide)) general

theorem moveWide_fields (sf keep : BitVec 1) (hw : BitVec 2) (imm16 : BitVec 16)
    (rd : BitVec 5) :
    let w := moveWide sf keep hw imm16 rd
    w.extractLsb' 30 1 = 1#1 ∧ w.extractLsb' 29 1 = keep ∧ w.extractLsb' 23 6 = 0b100101#6 ∧
      w.extractLsb' 27 1 = 0#1 ∧ w.extractLsb' 26 1 = 0#1 ∧ w.extractLsb' 21 2 = hw ∧
      w.extractLsb' 5 16 = imm16 ∧ w.extractLsb' 0 5 = rd := by
  refine ⟨?_, ?_, ?_, ?_, ?_, ?_, ?_, ?_⟩ <;>
    simp (disch := decide) only [moveWide, extractLsb'_append_eq_of_le, Nat.reduceSub,
      extractLsb'_append_eq_of_add_le, extractLsb'_eq_self, BitVec.reduceExtractLsb']

/-- The mask of the moves keeps the high bit of opc: only MOVZ gets past it. -/
theorem decode_moveWide (sf keep : BitVec 1) (hw : BitVec 2) (imm16 : BitVec 16)
    (rd : BitVec 5) :
    decode (moveWide sf keep hw imm16 rd) =
      if keep = 0 then
        if hw.toNat < 2 then
          some {
            kind := .movz
            rt := rd.setWidth 8
            imm := imm16.setWidth 32 <<< (16 * hw.toNat) }
        else none
      else some {} := by
  obtain ⟨one, keep', group, clear, general, hw', imm', rd'⟩ :=
    moveWide_fields sf keep hw imm16 rd
  generalize moveWide sf keep hw imm16 rd = w at *
  have uimm : decUimm w = none :=
    if_pos (test_refused 27 1 (by decide) (by rw [clear]; decide))
  have ur : decUr w = none :=
    if_pos (test_refused 27 1 (by decide) (by rw [clear]; decide))
  by_cases zeroes : keep = 0
  · rw [if_pos zeroes]
    have window : w.extractLsb' 23 8 =
        w.extractLsb' 30 1 ++ w.extractLsb' 29 1 ++ w.extractLsb' 23 6 := by
      simp (disch := decide) only [extractLsb'_append_extractLsb'_eq_extractLsb']
    have fixed : w.extractLsb' 23 8 = 0b10100101#8 := by
      rw [window, one, keep', group, zeroes]
      decide
    have top : w.extractLsb' 29 2 = 0b10#2 := by
      have joined : w.extractLsb' 29 2 = w.extractLsb' 30 1 ++ w.extractLsb' 29 1 := by
        simp (disch := decide) only [extractLsb'_append_extractLsb'_eq_extractLsb']
      rw [joined, one, keep', zeroes]
      decide
    simp only [decode, uimm, ur]
    rw [if_pos ((mov_test_iff w).mpr fixed), shift_and_ones w 29 2 3 (by decide),
      shift_and_ones w 21 2 3 (by decide), shift_and_ones w 5 16 0xffff (by decide),
      and_ones w 5 31 (by decide), top, hw', imm', rd']
    rcases two_bits hw with rfl | rfl | rfl | rfl <;> simp
  · rw [if_neg zeroes]
    refine decode_other uimm ur (test_refused 29 1 (by decide) ?_) general
    rw [keep']
    exact zeroes

theorem branchOff_branch (link : BitVec 1) (imm26 : BitVec 26) :
    branchOff (branch link imm26) = imm26.toInt * 4 := by
  have window : (branch link imm26).extractLsb' 0 26 = imm26 := by
    simp (disch := decide) only [branch, extractLsb'_append_eq_of_add_le, extractLsb'_eq_self]
  rw [branchOff, and_ones _ 26 0x03ffffff (by decide), window, toInt_up_and_down imm26 6]

/-! ## The numbers they stand for -/

theorem accessBytes_toNat (size : BitVec 2) : (accessBytes size).toNat = 2 ^ size.toNat := by
  rcases two_bits size with rfl | rfl | rfl | rfl <;> decide

theorem scaled_toInt (size : BitVec 2) (imm12 : BitVec 12) :
    (imm12.setWidth 32 * (accessBytes size).setWidth 32).toInt =
      (imm12.toNat * 2 ^ size.toNat : Nat) := by
  have small := imm12.isLt
  have bytes : (accessBytes size).toNat ≤ 8 := by
    rcases two_bits size with rfl | rfl | rfl | rfl <;> decide
  have product : imm12.toNat * (accessBytes size).toNat ≤ imm12.toNat * 8 :=
    Nat.mul_le_mul_left _ bytes
  rw [← accessBytes_toNat, BitVec.toInt_eq_toNat_of_lt] <;>
    rw [BitVec.toNat_mul, BitVec.toNat_setWidth, BitVec.toNat_setWidth,
      Nat.mod_eq_of_lt (by omega : imm12.toNat < 2 ^ 32),
      Nat.mod_eq_of_lt (by omega : (accessBytes size).toNat < 2 ^ 32),
      Nat.mod_eq_of_lt (by omega)]
  omega

theorem signExtended_toInt (imm9 : BitVec 9) :
    (if imm9.setWidth 32 &&& 0x100#32 ≠ 0 then imm9.setWidth 32 - 0x200
      else imm9.setWidth 32).toInt = imm9.toInt := by
  have small := imm9.isLt
  have wide : (imm9.setWidth 32).toNat = imm9.toNat := by
    rw [BitVec.toNat_setWidth, Nat.mod_eq_of_lt (by omega)]
  have sign : imm9.getLsbD 8 = decide (2 ^ 8 ≤ imm9.toNat) := BitVec.msb_eq_decide imm9
  have bit : imm9.setWidth 32 &&& 0x100#32 ≠ 0 ↔ 2 ^ 8 ≤ imm9.toNat := by
    have place : 0x100#32 = twoPow 32 8 := by decide
    have test := WordBits.and_twoPow_eq_zero_iff (imm9.setWidth 32) 8 (by decide)
    rw [place, Ne, show (0 : BitVec 32) = 0#32 from rfl, test, getLsbD_setWidth, sign]
    simp
  have offset : (0x200 : BitVec 32).toNat = 512 := by decide
  by_cases negative : 2 ^ 8 ≤ imm9.toNat
  · rw [if_pos (bit.mpr negative), BitVec.toInt_eq_toNat_cond, BitVec.toInt_eq_toNat_cond imm9,
      BitVec.toNat_sub, wide, offset]
    omega
  · rw [if_neg (mt bit.mp negative), BitVec.toInt_eq_toNat_cond, BitVec.toInt_eq_toNat_cond imm9,
      wide]
    omega

theorem shifted_toInt (hw : BitVec 2) (imm16 : BitVec 16)
    (fits : imm16.toNat * 2 ^ (16 * hw.toNat) < 2 ^ 31) :
    (imm16.setWidth 32 <<< (16 * hw.toNat)).toInt =
      (imm16.toNat * 2 ^ (16 * hw.toNat) : Nat) := by
  have small := imm16.isLt
  have value : (imm16.setWidth 32 <<< (16 * hw.toNat)).toNat =
      imm16.toNat * 2 ^ (16 * hw.toNat) := by
    rw [BitVec.toNat_shiftLeft, BitVec.toNat_setWidth,
      Nat.mod_eq_of_lt (by omega : imm16.toNat < 2 ^ 32), Nat.shiftLeft_eq,
      Nat.mod_eq_of_lt (by omega)]
  rw [BitVec.toInt_eq_toNat_of_lt (by omega), value]

/-! ## What the decoder recognises -/

/-- What the decoder is for, at one word. -/
structure Recognised (w : BitVec 32) : Prop where
  unscaled : ∀ size load imm9 rn rt, w = unscaled size load imm9 rn rt →
    ∃ o, decode w = some o ∧ o.kind = (if load = 1 then .ldur else .stur) ∧
      o.rt.toNat = rt.toNat ∧ o.size.toNat = 2 ^ size.toNat ∧ o.imm.toInt = imm9.toInt
  unsignedOffset : ∀ size opc imm12 rn rt, Transfers size opc →
    w = unsignedOffset size opc imm12 rn rt →
    ∃ o, decode w = some o ∧ o.kind = (if opc = 0 then .str else .ldr) ∧
      o.rt.toNat = rt.toNat ∧ o.size.toNat = 2 ^ size.toNat ∧
      o.imm.toInt = (imm12.toNat * 2 ^ size.toNat : Nat)
  moveWide : ∀ sf keep hw imm16 rd, Shifts sf hw → w = moveWide sf keep hw imm16 rd →
    ∃ o, decode w = some o ∧ o.kind = (if keep = 1 then .movk else .movz) ∧
      o.rt.toNat = rd.toNat ∧ o.imm.toInt = (imm16.toNat * 2 ^ (16 * hw.toNat) : Nat)
  branch : ∀ link imm26, w = branch link imm26 → branchOff w = imm26.toInt * 4

/-- The words whose evidence is lost. -/
inductive Missed : BitVec 32 → Prop
  | unscaledLoad (size : BitVec 2) (imm9 : BitVec 9) (rn rt : BitVec 5) :
      Missed (unscaled size 1 imm9 rn rt)
  | signExtending (size opc : BitVec 2) (imm12 : BitVec 12) (rn rt : BitVec 5)
      (transfers : Transfers size opc) (extends' : 2 ≤ opc.toNat) :
      Missed (unsignedOffset size opc imm12 rn rt)
  | keeping (sf : BitVec 1) (hw : BitVec 2) (imm16 : BitVec 16) (rd : BitVec 5)
      (shifts : Shifts sf hw) : Missed (moveWide sf 1 hw imm16 rd)
  | beyondInt (sf : BitVec 1) (hw : BitVec 2) (imm16 : BitVec 16) (rd : BitVec 5)
      (shifts : Shifts sf hw) (beyond : 2 ≤ hw.toNat ∨ hw = 1 ∧ 2 ^ 15 ≤ imm16.toNat) :
      Missed (moveWide sf 0 hw imm16 rd)

theorem recognised_of_not_missed {w : BitVec 32} (kept : ¬ Missed w) : Recognised w where
  unscaled := by
    rintro size load imm9 rn rt rfl
    have store : load = 0 := by
      rcases BitVec.eq_zero_or_eq_one load with zero | one
      · exact zero
      · subst one
        exact absurd (.unscaledLoad size imm9 rn rt) kept
    subst store
    exact ⟨_, decode_unscaled size 0 imm9 rn rt, rfl, toNat_setWidth_of_le (by decide),
      accessBytes_toNat size, signExtended_toInt imm9⟩
  unsignedOffset := by
    rintro size opc imm12 rn rt transfers rfl
    have zeroExtends : opc.toNat < 2 := by
      by_contra extends'
      exact kept (.signExtending size opc imm12 rn rt transfers (Nat.le_of_not_lt extends'))
    have decoded := decode_unsignedOffset size opc imm12 rn rt
    rw [if_pos zeroExtends] at decoded
    exact ⟨_, decoded, rfl, toNat_setWidth_of_le (by decide), accessBytes_toNat size,
      scaled_toInt size imm12⟩
  moveWide := by
    rintro sf keep hw imm16 rd shifts rfl
    have zeroes : keep = 0 := by
      rcases BitVec.eq_zero_or_eq_one keep with zero | one
      · exact zero
      · subst one
        exact absurd (.keeping sf hw imm16 rd shifts) kept
    subst zeroes
    have inside : ¬ (2 ≤ hw.toNat ∨ hw = 1 ∧ 2 ^ 15 ≤ imm16.toNat) :=
      fun beyond => kept (.beyondInt sf hw imm16 rd shifts beyond)
    have places : hw.toNat < 2 := by omega
    have decoded := decode_moveWide sf 0 hw imm16 rd
    rw [if_pos rfl, if_pos places] at decoded
    refine ⟨_, decoded, rfl, toNat_setWidth_of_le (by decide), shifted_toInt hw imm16 ?_⟩
    have half := imm16.isLt
    rcases two_bits hw with rfl | rfl | rfl | rfl
    · simp
      omega
    · have low : imm16.toNat < 2 ^ 15 := by
        by_contra high
        exact inside (Or.inr ⟨rfl, Nat.le_of_not_lt high⟩)
      simp
      omega
    · exact absurd places (by decide)
    · exact absurd places (by decide)
  branch := by
    rintro link imm26 rfl
    exact branchOff_branch link imm26

theorem not_missed_of_recognised {w : BitVec 32} (whole : Recognised w) : ¬ Missed w := by
  intro missed
  cases missed with
  | unscaledLoad size imm9 rn rt =>
      obtain ⟨o, decoded, kind, -⟩ := whole.unscaled _ _ _ _ _ rfl
      rw [decode_unscaled, if_neg (by decide)] at decoded
      cases decoded
      exact absurd kind (by decide)
  | signExtending size opc imm12 rn rt transfers extends' =>
      obtain ⟨o, decoded, -, -, bytes, -⟩ := whole.unsignedOffset _ _ _ _ _ transfers rfl
      rw [decode_unsignedOffset, if_neg (Nat.not_lt.mpr extends')] at decoded
      cases decoded
      have positive := Nat.two_pow_pos size.toNat
      rw [← bytes] at positive
      exact absurd positive (by decide)
  | keeping sf hw imm16 rd shifts =>
      obtain ⟨o, decoded, kind, -⟩ := whole.moveWide _ _ _ _ _ shifts rfl
      rw [decode_moveWide, if_neg (by decide)] at decoded
      cases decoded
      exact absurd kind (by decide)
  | beyondInt sf hw imm16 rd shifts beyond =>
      obtain ⟨o, decoded, -, -, value⟩ := whole.moveWide _ _ _ _ _ shifts rfl
      have top : o.imm.toInt < 2 ^ 31 := BitVec.toInt_lt
      rw [decode_moveWide, if_pos rfl] at decoded
      rcases beyond with away | ⟨rfl, high⟩
      · -- the shift has no value, so there is no instruction to read
        rw [if_neg (Nat.not_lt.mpr away)] at decoded
        cases decoded
      · have place : 16 * (1 : BitVec 2).toNat = 16 := by decide
        rw [place] at value
        omega

/-- The decoder recognises the word unless it is a load of an unscaled offset, a load
that extends the sign, a MOVK, or a MOVZ whose value is no `int32_t`. -/
theorem recognised_iff (w : BitVec 32) : Recognised w ↔ ¬ Missed w :=
  ⟨not_missed_of_recognised, recognised_of_not_missed⟩

/-- `ldur w0, [x1, #4]` is read as no instruction at all. -/
theorem ldur_not_recognised :
    decode 0xb8404020 = some {} ∧ ¬ Recognised 0xb8404020 := by
  refine ⟨by decide, fun whole => ?_⟩
  obtain ⟨o, decoded, kind, -⟩ := whole.unscaled 2 1 4 1 0 (by decide)
  have unknown : decode 0xb8404020 = some {} := by decide
  rw [unknown] at decoded
  cases decoded
  exact absurd kind (by decide)

end OpenHypervisor.OffsetProbe
