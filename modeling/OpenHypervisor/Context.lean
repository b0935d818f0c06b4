import OpenHypervisor.Library.Words

/-!
# The mapped vCPU context

The layout of `ohv_context.h`: one read/write page shared with the kernel and
one read-only exit page behind it, both named by byte offset from the start of
the mapping.  Everything is a 64-bit word except PSTATE, FPSR, FPCR and the exit
reason, which are the halves of one.
-/

set_option autoImplicit false

namespace OpenHypervisor

abbrev Word := BitVec 64

structure Ctx where
  mem : WordMem

/-! ## Offsets -/

@[simp] def ohvRwRegsX0 : Nat := 0x008
@[simp] def ohvRwPc : Nat := 0x108
@[simp] def ohvRwCpsr : Nat := 0x110
@[simp] def ohvRwFpsrFpcr : Nat := 0x340
@[simp] def ohvRwSharedSysregs : Nat := 0x350
@[simp] def ohvRwBankedSysregs : Nat := 0x3b8
@[simp] def ohvRwDbgregs : Nat := 0x478
@[simp] def ohvRwVgicSysregs : Nat := 0x698
@[simp] def ohvRwControls : Nat := 0x920
@[simp] def ohvRwVtimerOffset : Nat := 0x950
@[simp] def ohvRwTimer : Nat := 0x988
@[simp] def ohvRwFrozen : Nat := 0x9f8
@[simp] def ohvRwStateDirty : Nat := 0xa00
@[simp] def ohvRwGuestTicks : Nat := 0xa08
@[simp] def ohvRwExtregs : Nat := 0xa10
@[simp] def ohvVncrBase : Nat := 0x1000
@[simp] def ohvNestedHcrEl2 : Nat := 0x1078
@[simp] def ohvRoVer : Nat := 0x4000
@[simp] def ohvRoExitReason : Nat := 0x4008
@[simp] def ohvRoExitEsr : Nat := 0x4010
@[simp] def ohvRoExitFar : Nat := 0x4020
@[simp] def ohvRoExitHpfar : Nat := 0x4028
@[simp] def ohvRoStateValid : Nat := 0x4108

/-! Where the fields of `ohv_ro_page_t` lie: behind run controls that end at 0x4108, so
each of these is eight bytes above the `OHV_RO_` macro of its name. -/

@[simp] def ohvRoPageIchVtr : Nat := 0x4120
@[simp] def ohvRoPageIchElrsr : Nat := 0x4128
@[simp] def ohvRoPageSvlB : Nat := 0x4138
@[simp] def ohvRoPageSme : Nat := 0x4140

/-! ## Bits -/

def ohvHcrNv : Word := BitVec.twoPow 64 42
def ohvHcrNv2 : Word := BitVec.twoPow 64 45
def ohvHcrE2h : Word := BitVec.twoPow 64 34
def ohvHcrTidcp : Word := BitVec.twoPow 64 20
def ohvHcrTwe : Word := BitVec.twoPow 64 14
def ohvHcrFmo : Word := BitVec.twoPow 64 3
def ohvHcrImo : Word := BitVec.twoPow 64 4
def ohvHcrAmo : Word := BitVec.twoPow 64 5
def ohvHcrTid3 : Word := BitVec.twoPow 64 18
def ohvHcrTsc : Word := BitVec.twoPow 64 19
/-- The virtual FIQ and IRQ levels of `HCR_EL2`. -/
def ohvHcrVf : Word := BitVec.twoPow 64 6
def ohvHcrVi : Word := BitVec.twoPow 64 7
def ohvHcrNested : Word := ohvHcrNv ||| ohvHcrNv2

def ohvHacrAppleDefault : Word := 0x0100000000000000#64
def ohvHacrTgxf : Word := BitVec.twoPow 64 13

def ohvStateSysregs : Word := BitVec.twoPow 64 0
def ohvStateDebug : Word := BitVec.twoPow 64 1
def ohvStateControls : Word := BitVec.twoPow 64 2
def ohvStateGic : Word := BitVec.twoPow 64 3
def ohvStateJitbox : Word := BitVec.twoPow 64 56
def ohvStateGxf : Word := BitVec.twoPow 64 58
def ohvStateSprr : Word := BitVec.twoPow 64 59
def ohvStatePtrauthApple : Word := BitVec.twoPow 64 60
def ohvStatePtrauthArm : Word := BitVec.twoPow 64 61

/-- The first kernel virtual address. -/
def kernelVa : Word := 0xfffffff000000000#64

def ohvTimerMask : Word := BitVec.twoPow 64 0
def ohvIchLrDirty : Word := BitVec.twoPow 64 32

/-! ## Accessors -/

namespace Ctx

def word (c : Ctx) (off : Nat) : Word := c.mem.word off

def put (c : Ctx) (off : Nat) (value : Word) : Ctx := ⟨c.mem.put off value⟩

@[simp]
theorem word_put (c : Ctx) (off at' : Nat) (value : Word) :
    (c.put off value).word at' = if at' = off then value else c.word at' :=
  c.mem.put_word off at' value

/-- `x[n]` of the register block; 29 and 30 are the frame pointer and the link
register, which follow the array in the layout. -/
def x (c : Ctx) (n : Nat) : Word := c.word (ohvRwRegsX0 + n * 8)
def setX (c : Ctx) (n : Nat) (value : Word) : Ctx := c.put (ohvRwRegsX0 + n * 8) value

def pc (c : Ctx) : Word := c.word ohvRwPc
def setPc (c : Ctx) (value : Word) : Ctx := c.put ohvRwPc value

def lo32 (c : Ctx) (off : Nat) : BitVec 32 := (c.word off).extractLsb' 0 32
def hi32 (c : Ctx) (off : Nat) : BitVec 32 := (c.word off).extractLsb' 32 32
def putLo32 (c : Ctx) (off : Nat) (value : BitVec 32) : Ctx :=
  c.put off (c.hi32 off ++ value)
def putHi32 (c : Ctx) (off : Nat) (value : BitVec 32) : Ctx :=
  c.put off (value ++ c.lo32 off)

def cpsr (c : Ctx) : BitVec 32 := c.lo32 ohvRwCpsr
def setCpsr (c : Ctx) (value : BitVec 32) : Ctx := c.putLo32 ohvRwCpsr value

def shared (c : Ctx) (n : Nat) : Word := c.word (ohvRwSharedSysregs + n * 8)
def setShared (c : Ctx) (n : Nat) (value : Word) : Ctx := c.put (ohvRwSharedSysregs + n * 8) value
def banked (c : Ctx) (n : Nat) : Word := c.word (ohvRwBankedSysregs + n * 8)
def setBanked (c : Ctx) (n : Nat) (value : Word) : Ctx := c.put (ohvRwBankedSysregs + n * 8) value
def ext (c : Ctx) (n : Nat) : Word := c.word (ohvRwExtregs + n * 8)
def setExt (c : Ctx) (n : Nat) (value : Word) : Ctx := c.put (ohvRwExtregs + n * 8) value

/-- A word of the run controls, by its offset from their start. -/
def control (c : Ctx) (off : Nat) : Word := c.word (ohvRwControls + off)
def setControl (c : Ctx) (off : Nat) (value : Word) : Ctx := c.put (ohvRwControls + off) value

def hcr (c : Ctx) : Word := c.control 0
def setHcr (c : Ctx) (value : Word) : Ctx := c.setControl 0 value
def vtimerOffset (c : Ctx) : Word := c.word ohvRwVtimerOffset
def timer (c : Ctx) : Word := c.word ohvRwTimer
def setTimer (c : Ctx) (value : Word) : Ctx := c.put ohvRwTimer value

def exitReason (c : Ctx) : BitVec 32 := c.lo32 ohvRoExitReason
def exitEsr (c : Ctx) : Word := c.word ohvRoExitEsr
def exitFar (c : Ctx) : Word := c.word ohvRoExitFar
def exitHpfar (c : Ctx) : Word := c.word ohvRoExitHpfar
/-- `(vmexit_esr >> 26) & 0x3f`. -/
def exitEc (c : Ctx) : BitVec 6 := c.exitEsr.extractLsb' 26 6

def markDirty (c : Ctx) (bits : Word) : Ctx :=
  c.put ohvRwStateDirty (c.word ohvRwStateDirty ||| bits)

/-- `PC += 4`, the guest past the instruction that trapped. -/
def skip (c : Ctx) : Ctx := c.setPc (c.pc + 4)

end Ctx

/-! ## Windows of the page

The run controls are the only words through which this library tells the kernel
how to run the guest, and the kernel only reads them: everything else of the
page may change under the library at any trap.  The library in its turn never
writes the read-only page. -/

def InControls (off : Nat) : Prop := ohvRwControls ≤ off ∧ off < ohvRwFrozen

instance (off : Nat) : Decidable (InControls off) :=
  inferInstanceAs (Decidable (_ ∧ _))

/-- The words carrying out an access never writes. -/
def Kept (off : Nat) : Prop := InControls off ∨ ohvRoVer ≤ off

/-- The words the virtual interrupt levels of an entry are computed from, with
the word they are written to. -/
def InEntry (off : Nat) : Prop :=
  off = ohvRwPc ∨ off = ohvRwCpsr ∨ off = ohvRwControls ∨ off = ohvRwBankedSysregs + 9 * 8 ∨
    off = ohvRwBankedSysregs + 10 * 8 ∨ off = ohvRwBankedSysregs + 18 * 8

instance (off : Nat) : Decidable (InEntry off) := inferInstanceAs (Decidable (_ ∨ _))

namespace Ctx

def SameControls (before after : Ctx) : Prop :=
  WordMem.AgreeOn InControls before.mem after.mem

def Keeps (before after : Ctx) : Prop := WordMem.AgreeOn Kept before.mem after.mem

theorem SameControls.refl (c : Ctx) : SameControls c c := WordMem.AgreeOn.refl c.mem

theorem SameControls.trans {first second third : Ctx} (left : SameControls first second)
    (right : SameControls second third) : SameControls first third :=
  WordMem.AgreeOn.trans left right

theorem SameControls.control {before after : Ctx} (same : SameControls before after)
    (off : Nat) (inside : off < 0xd8) : after.control off = before.control off := by
  apply same
  simp only [InControls, ohvRwControls, ohvRwFrozen]
  omega

theorem SameControls.hcr {before after : Ctx} (same : SameControls before after) :
    after.hcr = before.hcr :=
  same.control 0 (by decide)

theorem Keeps.refl (c : Ctx) : Keeps c c := WordMem.AgreeOn.refl c.mem

theorem Keeps.trans {first second third : Ctx} (left : Keeps first second)
    (right : Keeps second third) : Keeps first third :=
  WordMem.AgreeOn.trans left right

theorem Keeps.sameControls {before after : Ctx} (same : Keeps before after) :
    SameControls before after :=
  fun off inside => same off (Or.inl inside)

theorem Keeps.word {before after : Ctx} (same : Keeps before after) (off : Nat)
    (readOnly : ohvRoVer ≤ off) : after.word off = before.word off :=
  same off (Or.inr readOnly)

theorem Keeps.exitReason {before after : Ctx} (same : Keeps before after) :
    after.exitReason = before.exitReason := by
  simp only [Ctx.exitReason, lo32, same.word ohvRoExitReason (by decide)]

theorem Keeps.exitEsr {before after : Ctx} (same : Keeps before after) :
    after.exitEsr = before.exitEsr :=
  same.word ohvRoExitEsr (by decide)

theorem Keeps.exitEc {before after : Ctx} (same : Keeps before after) :
    after.exitEc = before.exitEc := by
  simp only [Ctx.exitEc, same.exitEsr]

theorem Keeps.put {before after : Ctx} (same : Keeps before after)
    (off : Nat) (value : Word)
    (outside : off < ohvRwControls ∨ ohvRwFrozen ≤ off ∧ off < ohvRoVer) :
    Keeps before (after.put off value) := by
  apply WordMem.AgreeOn.put same
  rintro (⟨above, below⟩ | readOnly)
  · rcases outside with low | ⟨high, -⟩ <;> omega
  · simp only [ohvRwControls, ohvRwFrozen, ohvRoVer] at *
    omega

def SameEntry (before after : Ctx) : Prop := WordMem.AgreeOn InEntry before.mem after.mem

theorem SameEntry.refl (c : Ctx) : SameEntry c c := WordMem.AgreeOn.refl c.mem

theorem SameEntry.trans {first second third : Ctx} (left : SameEntry first second)
    (right : SameEntry second third) : SameEntry first third :=
  WordMem.AgreeOn.trans left right

theorem SameEntry.put {before after : Ctx} (same : SameEntry before after) (off : Nat)
    (value : Word) (outside : ¬ InEntry off) : SameEntry before (after.put off value) :=
  WordMem.AgreeOn.put same off value outside

theorem SameEntry.markDirty {before after : Ctx} (same : SameEntry before after) (bits : Word) :
    SameEntry before (after.markDirty bits) :=
  same.put _ _ (by decide)

theorem SameEntry.hcr {before after : Ctx} (same : SameEntry before after) :
    after.hcr = before.hcr :=
  same ohvRwControls (by decide)

theorem SameEntry.pc {before after : Ctx} (same : SameEntry before after) :
    after.pc = before.pc :=
  same ohvRwPc (by decide)

theorem cpsr_congr {before after : Ctx} (same : after.word ohvRwCpsr = before.word ohvRwCpsr) :
    after.cpsr = before.cpsr := by
  simp only [Ctx.cpsr, lo32, same]

theorem SameEntry.cpsr {before after : Ctx} (same : SameEntry before after) :
    after.cpsr = before.cpsr :=
  cpsr_congr (same ohvRwCpsr (by decide))

/-- The timer registers among the banked ones. -/
theorem SameEntry.banked {before after : Ctx} (same : SameEntry before after) (n : Nat)
    (timer : n = 9 ∨ n = 10 ∨ n = 18) : after.banked n = before.banked n := by
  rcases timer with rfl | rfl | rfl <;> exact same _ (by decide)

/-- A control word past the first, which is `HCR_EL2`. -/
theorem SameEntry.setControl {before after : Ctx} (same : SameEntry before after) (off : Nat)
    (value : Word) (other : off ≠ 0) : SameEntry before (after.setControl off value) := by
  refine same.put _ value ?_
  simp only [InEntry, ohvRwPc, ohvRwCpsr, ohvRwControls, ohvRwBankedSysregs]
  omega

variable {before c : Ctx}

theorem Keeps.setX (same : Keeps before c) (n : Nat) (value : Word)
    (small : n < 32) : Keeps before (c.setX n value) :=
  same.put _ value (Or.inl (by simp; omega))

theorem Keeps.setPc (same : Keeps before c) (value : Word) : Keeps before (c.setPc value) :=
  same.put _ value (Or.inl (by decide))

theorem Keeps.setCpsr (same : Keeps before c) (value : BitVec 32) :
    Keeps before (c.setCpsr value) :=
  same.put _ _ (Or.inl (by decide))

theorem Keeps.setShared (same : Keeps before c) (n : Nat) (value : Word) (small : n < 13) :
    Keeps before (c.setShared n value) :=
  same.put _ value (Or.inl (by simp; omega))

theorem Keeps.setBanked (same : Keeps before c) (n : Nat) (value : Word) (small : n < 24) :
    Keeps before (c.setBanked n value) :=
  same.put _ value (Or.inl (by simp; omega))

theorem Keeps.setExt (same : Keeps before c) (n : Nat) (value : Word) (small : n < 83) :
    Keeps before (c.setExt n value) :=
  same.put _ value (Or.inr (by simp; omega))

theorem Keeps.markDirty (same : Keeps before c) (bits : Word) : Keeps before (c.markDirty bits) :=
  same.put _ _ (Or.inr (by decide))

theorem Keeps.skip (same : Keeps before c) : Keeps before c.skip :=
  same.setPc _

@[simp] theorem hcr_setHcr (c : Ctx) (value : Word) : (c.setHcr value).hcr = value := by
  simp [hcr, setHcr, Ctx.control, setControl]

@[simp] theorem hcr_markDirty (c : Ctx) (bits : Word) : (c.markDirty bits).hcr = c.hcr :=
  ((Keeps.refl c).markDirty bits).sameControls.hcr

theorem markDirty_word (c : Ctx) (bits : Word) (off : Nat) (other : off ≠ ohvRwStateDirty) :
    (c.markDirty bits).word off = c.word off := by
  simp only [markDirty, word_put, if_neg other]

end Ctx

/-! ## Halves of a word -/

section Halves

open BitVec

variable (c : Ctx) (off : Nat) (value : BitVec 32)

theorem Ctx.lo32_putLo32 : (c.putLo32 off value).lo32 off = value := by
  simp only [lo32, putLo32, word_put, if_true]
  exact extractLsb'_append_eq_right

theorem Ctx.hi32_putLo32 : (c.putLo32 off value).hi32 off = c.hi32 off := by
  simp only [hi32, putLo32, word_put, if_true]
  exact extractLsb'_append_eq_left

theorem Ctx.hi32_putHi32 : (c.putHi32 off value).hi32 off = value := by
  simp only [hi32, putHi32, word_put, if_true]
  exact extractLsb'_append_eq_left

theorem Ctx.lo32_putHi32 : (c.putHi32 off value).lo32 off = c.lo32 off := by
  simp only [lo32, putHi32, word_put, if_true]
  exact extractLsb'_append_eq_right

end Halves

theorem low_zeroExtend (low : BitVec 32) : (low.zeroExtend 64).extractLsb' 0 32 = low := by
  ext i inside
  have wide : i < 64 := by omega
  simp [inside, wide]

/-! ## Single bits of `HCR_EL2` -/

theorem hcrNv_clear_iff (hcr : Word) : hcr &&& ohvHcrNv = 0#64 ↔ hcr.getLsbD 42 = false :=
  WordBits.and_twoPow_eq_zero_iff hcr 42 (by decide)

theorem getLsbD_setNv (hcr : Word) (i : Nat) :
    (hcr ||| ohvHcrNv).getLsbD i = (hcr.getLsbD i || decide (i = 42)) :=
  WordBits.getLsbD_or_twoPow hcr 42 i (by decide)

theorem getLsbD_clearNv (hcr : Word) (i : Nat) :
    (hcr &&& ~~~ohvHcrNv).getLsbD i = (hcr.getLsbD i && !decide (i = 42)) :=
  WordBits.getLsbD_and_not_twoPow hcr 42 i

end OpenHypervisor
