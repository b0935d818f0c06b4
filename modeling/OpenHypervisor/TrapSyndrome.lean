import OpenHypervisor.ExitHandling
import OpenHypervisor.Library.BitFields

/-!
# The syndrome built for a trapped register access

The framework leaves the syndrome of a trapped MSR or MRS empty on one path, and
`synth_msr_trap_syndrome` builds it from the instruction.  `RegisterMove` is that
instruction by its own fields; what the syndrome is read back to is compared with them.
-/

set_option autoImplicit false

namespace OpenHypervisor

open BitVec BitFields

/-- An A64 MRS or MSR (register): the fields the encoding leaves free. -/
@[ext]
structure RegisterMove where
  read : BitVec 1
  o0 : BitVec 1
  op1 : BitVec 3
  crn : BitVec 4
  crm : BitVec 4
  op2 : BitVec 3
  rt : BitVec 5

namespace RegisterMove

def encode (m : RegisterMove) : BitVec 32 :=
  0b1101010100#10 ++ m.read ++ 1#1 ++ m.o0 ++ m.op1 ++ m.crn ++ m.crm ++ m.op2 ++ m.rt

def ofInsn (insn : BitVec 32) : RegisterMove where
  read := insn.extractLsb' 21 1
  o0 := insn.extractLsb' 19 1
  op1 := insn.extractLsb' 16 3
  crn := insn.extractLsb' 12 4
  crm := insn.extractLsb' 8 4
  op2 := insn.extractLsb' 5 3
  rt := insn.extractLsb' 0 5

def access (m : RegisterMove) : SysAccess where
  op0 := 1#1 ++ m.o0
  op1 := m.op1
  crn := m.crn
  crm := m.crm
  op2 := m.op2
  rt := m.rt
  read := m.read.getLsbD 0

theorem ofInsn_encode (m : RegisterMove) : ofInsn m.encode = m := by
  ext1 <;>
    simp (disch := decide) only [ofInsn, encode, extractLsb'_append_eq_of_le,
      extractLsb'_append_eq_of_add_le, extractLsb'_eq_self, Nat.reduceSub]

theorem encode_ofInsn_iff (insn : BitVec 32) :
    (ofInsn insn).encode = insn ↔
      insn.extractLsb' 22 10 = 0b1101010100#10 ∧ insn.extractLsb' 20 1 = 1#1 := by
  constructor
  · intro same
    rw [← same]
    constructor <;>
      simp (disch := decide) only [encode, extractLsb'_append_eq_of_le, extractLsb'_eq_self,
        extractLsb'_append_eq_of_add_le, Nat.reduceSub]
  · rintro ⟨upper, one⟩
    rw [encode, ← upper, ← one]
    simp (disch := decide) only [ofInsn, extractLsb'_append_extractLsb'_eq_extractLsb']
    exact extractLsb'_eq_self

end RegisterMove

/-! ## The two packings -/

theorem msr_test_iff (insn : BitVec 32) :
    insn &&& 0xffd00000#32 = 0xd5100000#32 ↔ (RegisterMove.ofInsn insn).encode = insn := by
  have parts := and_or_eq_iff insn 0xffc00000#32 0x00100000#32 0xd5000000#32 0x00100000#32
    (by decide) (by decide) (by decide)
  have upper := and_eq_iff_window insn 0xffc00000#32 0xd5000000#32 22 0b1101010100#10
    (by decide) (by decide) (by decide)
  have one := and_eq_iff_window insn 0x00100000#32 0x00100000#32 20 1#1
    (by decide) (by decide) (by decide)
  rw [RegisterMove.encode_ofInsn_iff, ← upper, ← one, ← parts]
  exact Iff.rfl

theorem insnField (insn : BitVec 32) (lsb len : Nat) (small : len ≤ 32)
    (isOnes : (1#32 <<< len) - 1 = (allOnes len).setWidth 32) :
    ((insn >>> lsb) &&& ((1#32 <<< len) - 1)).zeroExtend 64 =
      (insn.extractLsb' lsb len).setWidth 64 := by
  rw [shift_and_ones insn lsb len _ isOnes, BitVec.zeroExtend, BitVec.setWidth_setWidth (by omega)]

theorem op0_of_o0 (o0 : BitVec 1) : 2#64 + o0.setWidth 64 = (1#1 ++ o0).setWidth 64 := by
  revert o0
  decide

theorem msrTrapSyndrome_eq (insn : BitVec 32) :
    msrTrapSyndrome insn =
      place 64 26 0x18#6 ||| place 64 25 1#1 |||
        place 64 20 (1#1 ++ insn.extractLsb' 19 1) ||| place 64 17 (insn.extractLsb' 5 3) |||
        place 64 14 (insn.extractLsb' 16 3) ||| place 64 10 (insn.extractLsb' 12 4) |||
        place 64 5 (insn.extractLsb' 0 5) ||| place 64 1 (insn.extractLsb' 8 4) |||
        place 64 0 (insn.extractLsb' 21 1) := by
  have klass : 0x18#64 <<< 26 = place 64 26 0x18#6 := by decide
  have il : 1#64 <<< 25 = place 64 25 1#1 := by decide
  have direction : place 64 0 (insn.extractLsb' 21 1) = (insn.extractLsb' 21 1).setWidth 64 :=
    BitVec.shiftLeft_zero _
  rw [direction, ← klass, ← il]
  simp only [msrTrapSyndrome, place]
  rw [insnField insn 19 1 (by decide) (by decide), insnField insn 5 3 (by decide) (by decide),
    insnField insn 16 3 (by decide) (by decide), insnField insn 12 4 (by decide) (by decide),
    insnField insn 0 5 (by decide) (by decide), insnField insn 8 4 (by decide) (by decide),
    insnField insn 21 1 (by decide) (by decide), op0_of_o0]

/-- What `service_nv2_access` unpacks is what the instruction names. -/
theorem ofEsr_msrTrapSyndrome (insn : BitVec 32) :
    SysAccess.ofEsr (msrTrapSyndrome insn) = (RegisterMove.ofInsn insn).access := by
  have window : ∀ start count, (msrTrapSyndrome insn).extractLsb' start count = _ :=
    fun start count => congrArg (extractLsb' start count) (msrTrapSyndrome_eq insn)
  have direction : (msrTrapSyndrome insn).extractLsb' 0 1 = insn.extractLsb' 21 1 := by
    rw [window]
    simp (disch := decide) only [extractLsb'_or, extract_place, extract_place_apart,
      BitVec.or_zero, BitVec.zero_or]
  have read : (msrTrapSyndrome insn).getLsbD 0 = (insn.extractLsb' 21 1).getLsbD 0 := by
    simpa using congrArg (fun field => field.getLsbD 0) direction
  simp only [SysAccess.ofEsr, RegisterMove.access, RegisterMove.ofInsn, read, window]
  simp (disch := decide) only [extractLsb'_or, extract_place, extract_place_apart,
    BitVec.or_zero, BitVec.zero_or]

theorem msrTrapSyndrome_class (insn : BitVec 32) :
    (msrTrapSyndrome insn).extractLsb' 26 6 = 0x18#6 ∧
      (msrTrapSyndrome insn).extractLsb' 25 1 = 1#1 := by
  rw [msrTrapSyndrome_eq]
  constructor <;>
    simp (disch := decide) only [extractLsb'_or, extract_place, extract_place_apart,
      BitVec.or_zero, BitVec.zero_or]

/-! ## The synthesis -/

/-- The call leaves this syndrome whatever one the exit record held before. -/
def SynthWrites (host : Host) (v : VcpuView) (esr : Word) : Prop :=
  ∀ old, (synthMsrTrapSyndrome host { v with s := v.s.setSyndrome old }).pubExit.syndrome = esr

section Synth
variable {host : Host} {v : VcpuView} {insn : BitVec 32}

theorem synth_of_encode (found : guestInsn host v = some insn)
    (move : (RegisterMove.ofInsn insn).encode = insn) :
    synthMsrTrapSyndrome host v = v.s.setSyndrome (msrTrapSyndrome insn) := by
  have tested := (msr_test_iff insn).mpr move
  simp only [synthMsrTrapSyndrome, found]
  exact if_pos tested

theorem synth_of_other (found : guestInsn host v = some insn)
    (other : (RegisterMove.ofInsn insn).encode ≠ insn) : synthMsrTrapSyndrome host v = v.s := by
  have refused : ¬ insn &&& 0xffd00000#32 = 0xd5100000#32 :=
    fun tested => other ((msr_test_iff insn).mp tested)
  simp only [synthMsrTrapSyndrome, found]
  exact if_neg refused

theorem exists_encode_iff :
    (∃ m : RegisterMove, insn = m.encode) ↔ (RegisterMove.ofInsn insn).encode = insn := by
  constructor
  · rintro ⟨m, rfl⟩
    rw [RegisterMove.ofInsn_encode]
  · intro same
    exact ⟨_, same.symm⟩

theorem synthWrites_iff (found : guestInsn host v = some insn) :
    (∃ esr, SynthWrites host v esr) ↔ ∃ m : RegisterMove, insn = m.encode := by
  -- the instruction is found by the PC, which the syndrome does not move
  have still : ∀ old, guestInsn host { v with s := v.s.setSyndrome old } = some insn :=
    fun _ => found
  rw [exists_encode_iff]
  constructor
  · rintro ⟨esr, writes⟩
    by_contra other
    have kept : ∀ old, old = esr := by
      intro old
      have left := writes old
      rw [synth_of_other (still old) other] at left
      exact left
    exact absurd ((kept 0).trans (kept 1).symm) (by decide)
  · intro move
    refine ⟨msrTrapSyndrome insn, fun old => ?_⟩
    rw [synth_of_encode (still old) move]
    rfl

end Synth

/-- The synthesised syndrome is the instruction's, and nothing else gets one. -/
theorem synthMsrTrapSyndrome_decodes (host : Host) (v : VcpuView) (insn : BitVec 32)
    (found : guestInsn host v = some insn) :
    ((∃ esr, SynthWrites host v esr) ↔ ∃ m : RegisterMove, insn = m.encode) ∧
      ((¬ ∃ m : RegisterMove, insn = m.encode) → synthMsrTrapSyndrome host v = v.s) ∧
      ∀ m : RegisterMove, insn = m.encode →
        ∃ esr, synthMsrTrapSyndrome host v = v.s.setSyndrome esr ∧
          SysAccess.ofEsr esr = m.access ∧
          esr.extractLsb' 26 6 = 0x18#6 ∧ esr.extractLsb' 25 1 = 1#1 := by
  refine ⟨synthWrites_iff found, ?_, ?_⟩
  · intro other
    rw [exists_encode_iff] at other
    exact synth_of_other found other
  · rintro m rfl
    have move : (RegisterMove.ofInsn m.encode).encode = m.encode := by
      rw [RegisterMove.ofInsn_encode]
    refine ⟨_, synth_of_encode found move, ?_, msrTrapSyndrome_class _⟩
    rw [ofEsr_msrTrapSyndrome, RegisterMove.ofInsn_encode]

def atTimerRead : Host × VcpuView :=
  ({ mem := { read32 := fun _ => 0xd53be223 } },
    { g := { maps := [⟨0x10000, 0, 0x4000⟩] }, s := {} })

theorem synthMsrTrapSyndrome_decodes_timer :
    guestInsn atTimerRead.1 atTimerRead.2 = some 0xd53be223#32 ∧
      (∃ m : RegisterMove, 0xd53be223#32 = m.encode ∧ m.rt = 3 ∧ m.read = 1) ∧
      ∃ esr, SynthWrites atTimerRead.1 atTimerRead.2 esr := by
  have found : guestInsn atTimerRead.1 atTimerRead.2 = some 0xd53be223#32 := by decide
  have move : ∃ m : RegisterMove, 0xd53be223#32 = m.encode ∧ m.rt = 3 ∧ m.read = 1 :=
    ⟨RegisterMove.ofInsn 0xd53be223, by decide, by decide, by decide⟩
  have decodes := synthMsrTrapSyndrome_decodes _ _ _ found
  obtain ⟨m, same, named⟩ := move
  exact ⟨found, ⟨m, same, named⟩, decodes.1.mpr ⟨m, same⟩⟩

end OpenHypervisor
