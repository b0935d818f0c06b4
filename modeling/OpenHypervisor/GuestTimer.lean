import OpenHypervisor.GuestView
import OpenHypervisor.Interrupts
import OpenHypervisor.Library.Clocks

/-!
# The timers the guest is shown

A trapped timer access and the sweep before an entry see a slot through five words:
the offset between the guest's clock and the host's, and a compare and a control
word for each timer.  `StoredTimers` is that view and what a register of it reads and
writes; `service_timer` says that the service carries out exactly this.  The clock,
the compare value and the distance are three views of the same words, in different
units and at different widths: the results below say how far they agree with each
other and with the sweep.
-/

set_option autoImplicit false

namespace OpenHypervisor

/-! ## The stored words -/

inductive TimerReg where
  | tval
  | ctl
  | cval
  deriving DecidableEq, Repr

def TimerReg.op2 : TimerReg → BitVec 3
  | tval => 0
  | ctl => 1
  | cval => 2

@[ext]
structure StoredTimers where
  offset : Word
  compare : Bool → Word
  control : Bool → Word

namespace StoredTimers

/-- The guest's clock: the host counter less the offset. -/
def clock (t : StoredTimers) (now : Word) : Word := now - t.offset

def deadline (t : StoredTimers) (physical : Bool) : Word := t.compare physical - t.offset

def value (t : StoredTimers) (physical : Bool) (now : Word) : TimerReg → Word
  | .tval => t.compare physical - now
  | .ctl => t.control physical
  | .cval => t.deadline physical

/-- The compare word a written TVAL stands for, in the host's counter. -/
def dueAt (now operand : Word) : Word := now + (operand.extractLsb' 0 32).signExtend 64

def write (t : StoredTimers) (physical : Bool) (now operand : Word) : TimerReg → StoredTimers
  | .tval => { t with compare := Function.update t.compare physical (dueAt now operand) }
  | .ctl => { t with control := Function.update t.control physical operand }
  | .cval => { t with compare := Function.update t.compare physical (operand + t.offset) }

@[simp] theorem write_offset (t : StoredTimers) (physical : Bool) (now operand : Word)
    (reg : TimerReg) : (t.write physical now operand reg).offset = t.offset := by
  cases reg <;> rfl

theorem tval_eq (t : StoredTimers) (physical : Bool) (now : Word) :
    t.value physical now .tval = t.value physical now .cval - t.clock now :=
  (sub_sub_sub_cancel_right (t.compare physical) now t.offset).symm

theorem deadline_write_tval (t : StoredTimers) (physical : Bool) (now operand : Word) :
    (t.write physical now operand .tval).deadline physical =
      t.clock now + (operand.extractLsb' 0 32).signExtend 64 := by
  simp only [write, deadline, dueAt, clock, Function.update_self]
  exact add_sub_right_comm now ((operand.extractLsb' 0 32).signExtend 64) t.offset

end StoredTimers

namespace VcpuSlot

def timers (s : VcpuSlot) : StoredTimers where
  offset := s.ctx.vtimerOffset
  compare := s.timerCval
  control := s.timerCtl

end VcpuSlot

/-- The words of the page among them; the physical timer's control word is kept
aside. -/
def TimerWord (off : Nat) : Prop :=
  off = ohvRwVtimerOffset ∨ off = ohvRwBankedSysregs + 9 * 8 ∨ off = ohvRwBankedSysregs + 10 * 8 ∨
    off = ohvRwBankedSysregs + 18 * 8

instance (off : Nat) : Decidable (TimerWord off) := inferInstanceAs (Decidable (_ ∨ _))

theorem timers_congr {before after : VcpuSlot} (shadow : after.el2Shadow = before.el2Shadow)
    (words : WordMem.AgreeOn TimerWord before.ctx.mem after.ctx.mem) :
    after.timers = before.timers := by
  have offset : after.ctx.vtimerOffset = before.ctx.vtimerOffset := words _ (by decide)
  have compare : after.timerCval = before.timerCval := by
    funext physical
    cases physical with
    | true => exact words (ohvRwBankedSysregs + 10 * 8) (by decide)
    | false => exact words (ohvRwBankedSysregs + 9 * 8) (by decide)
  have control : after.timerCtl = before.timerCtl := by
    funext physical
    cases physical with
    | true => exact congrFun shadow ohvShadowCntpCtl
    | false => exact words (ohvRwBankedSysregs + 18 * 8) (by decide)
  rw [VcpuSlot.timers, VcpuSlot.timers, offset, compare, control]

section Frames

variable (s : VcpuSlot)

theorem timers_put (off : Nat) (value : Word) (outside : ¬ TimerWord off) :
    { s with ctx := s.ctx.put off value }.timers = s.timers :=
  timers_congr rfl (WordMem.AgreeOn.put (WordMem.AgreeOn.refl s.ctx.mem) off value outside)

@[simp] theorem timers_skip : s.skip.timers = s.timers :=
  timers_put s _ _ (by decide)

@[simp] theorem timers_markDirty (bits : Word) : (s.markDirty bits).timers = s.timers :=
  timers_put s _ _ (by decide)

theorem timers_writeRt (rt : BitVec 5) (value : Word) :
    { s with ctx := s.ctx.writeRt rt value }.timers = s.timers := by
  unfold Ctx.writeRt
  split
  · rfl
  · refine timers_put s _ value ?_
    have small := rt.isLt
    simp only [TimerWord, ohvRwRegsX0, ohvRwVtimerOffset, ohvRwBankedSysregs]
    omega

theorem timers_setCompare (physical : Bool) (value : Word) :
    { s with ctx := s.ctx.setBanked (VcpuSlot.timerCvalIndex physical) value }.timers =
      { s.timers with compare := Function.update s.timers.compare physical value } := by
  have compare : { s with ctx := s.ctx.setBanked (VcpuSlot.timerCvalIndex physical) value }.timerCval =
      Function.update s.timerCval physical value := by
    funext other
    cases physical <;> cases other <;>
      simp [VcpuSlot.timerCval, VcpuSlot.timerCvalIndex, Ctx.banked, Ctx.setBanked]
  have offset : (s.ctx.setBanked (VcpuSlot.timerCvalIndex physical) value).vtimerOffset =
      s.ctx.vtimerOffset := by
    cases physical <;> simp [Ctx.vtimerOffset, Ctx.setBanked, VcpuSlot.timerCvalIndex]
  have control : { s with ctx := s.ctx.setBanked (VcpuSlot.timerCvalIndex physical) value }.timerCtl =
      s.timerCtl := by
    funext other
    cases physical <;> cases other <;>
      simp [VcpuSlot.timerCtl, VcpuSlot.timerCvalIndex, Ctx.banked, Ctx.setBanked]
  simp only [VcpuSlot.timers, compare, offset, control]

theorem timers_setTimerCtl (physical : Bool) (value : Word) :
    (s.setTimerCtl physical value).timers =
      { s.timers with control := Function.update s.timers.control physical value } := by
  have kept : (s.setTimerCtl physical value).timerCval = s.timerCval := by
    funext other
    cases physical <;> cases other <;>
      simp [VcpuSlot.setTimerCtl, VcpuSlot.timerCval, VcpuSlot.timerCvalIndex, Ctx.banked,
        Ctx.setBanked]
  have offset : (s.setTimerCtl physical value).ctx.vtimerOffset = s.ctx.vtimerOffset := by
    cases physical with
    | true => rfl
    | false => exact (s.ctx.word_put _ _ value).trans (if_neg (by decide))
  have control : (s.setTimerCtl physical value).timerCtl =
      Function.update s.timerCtl physical value := by
    funext other
    cases physical <;> cases other <;>
      simp [VcpuSlot.setTimerCtl, VcpuSlot.timerCtl, Ctx.banked, Ctx.setBanked]
  simp only [VcpuSlot.timers, kept, offset, control]

end Frames

/-! ## What the service does with them -/

namespace SysAccess

def OfTimer (a : SysAccess) (physical : Bool) (reg : TimerReg) : Prop :=
  a.op0 = 3 ∧ a.op1 = 3 ∧ a.crn = 14 ∧ a.crm = (if physical then 2 else 3) ∧ a.op2 = reg.op2

def OfCounter (a : SysAccess) (physical : Bool) : Prop :=
  a.op0 = 3 ∧ a.op1 = 3 ∧ a.crn = 14 ∧ a.crm = 0 ∧ a.op2 = (if physical then 1 else 2) ∧
    a.read = true

instance (a : SysAccess) (physical : Bool) (reg : TimerReg) : Decidable (a.OfTimer physical reg) :=
  inferInstanceAs (Decidable (_ ∧ _))

instance (a : SysAccess) (physical : Bool) : Decidable (a.OfCounter physical) :=
  inferInstanceAs (Decidable (_ ∧ _))

theorem OfTimer.isTimer {a : SysAccess} {physical : Bool} {reg : TimerReg}
    (named : a.OfTimer physical reg) : a.IsTimer := by
  obtain ⟨op0, op1, crn, crm, -⟩ := named
  refine ⟨op0, op1, crn, ?_⟩
  cases physical with
  | true => exact Or.inl crm
  | false => exact Or.inr crm

theorem OfTimer.crm_eq {a : SysAccess} {physical : Bool} {reg : TimerReg}
    (named : a.OfTimer physical reg) : decide (a.crm = 2) = physical := by
  rw [named.2.2.2.1]
  cases physical <;> rfl

end SysAccess

def operandAfter (host : Host) (esr : Word) (v : VcpuView) : Word :=
  (serviceNv2Access host esr v).2.s.ctx.readRt (SysAccess.ofEsr esr).rt

theorem readRt_answered (c : Ctx) (rt : BitVec 5) (value : Word) (register : rt ≠ 31) :
    (c.writeRt rt value).skip.readRt rt = value := by
  rw [readRt_skip, readRt_writeRt, if_neg register]

structure TimerServed (t : StoredTimers) (physical : Bool) (reg : TimerReg) (now : Word)
    (a : SysAccess) (operand : Word) (answer : Bool × VcpuView) : Prop where
  carried : answer.1 = true
  stored : answer.2.s.timers = if a.read then t else t.write physical now operand reg
  shown : a.read = true → a.rt ≠ 31 → answer.2.s.ctx.readRt a.rt = t.value physical now reg

section Service

variable {host : Host} {esr : Word} {v : VcpuView} {physical : Bool}

theorem registerAccess_timer {a : SysAccess} {base : VcpuView} {t : StoredTimers}
    {reg : TimerReg} {value : Word} {write : Word → VcpuView} (same : base.s.timers = t)
    (shows : value = t.value physical host.now reg)
    (writes : ∀ operand, (write operand).s.timers = t.write physical host.now operand reg) :
    ∃ answer, registerAccess a base value write = some answer ∧
      TimerServed t physical reg host.now a (base.s.ctx.readRt a.rt) answer := by
  unfold registerAccess
  split
  · rename_i reads
    refine ⟨_, rfl, rfl, ?_, fun _ named => ?_⟩
    · rw [if_pos reads, ← same]
      exact (timers_skip _).trans (timers_writeRt base.s a.rt value)
    · exact (readRt_answered base.s.ctx a.rt value named).trans shows
  · rename_i other
    refine ⟨_, rfl, rfl, ?_, fun reads => absurd reads other⟩
    rw [if_neg other]
    exact (timers_skip _).trans (writes _)

theorem service_timer (reg : TimerReg) (named : (SysAccess.ofEsr esr).OfTimer physical reg) :
    TimerServed v.s.timers physical reg host.now (.ofEsr esr)
      (v.s.ctx.readRt (SysAccess.ofEsr esr).rt) (serviceNv2Access host esr v) := by
  suffices served : ∃ answer, timerAccess host (.ofEsr esr) v = some answer ∧
      TimerServed v.s.timers physical reg host.now (.ofEsr esr)
        (v.s.ctx.readRt (SysAccess.ofEsr esr).rt) answer by
    obtain ⟨answer, taken, serves⟩ := served
    rwa [timer_decides named.isTimer taken]
  obtain ⟨op0, op1, crn, crm⟩ := named.isTimer
  unfold timerAccess
  rw [if_pos ⟨op0, op1, crn, crm⟩, named.crm_eq, named.2.2.2.2]
  simp only
  -- the physical timer's banked control word is cleared first, which none of this sees
  generalize disarmed : (if physical = true then v.setCtx (v.s.ctx.setBanked 19 0) else v) = base
  have same : base.s.timers = v.s.timers := by
    rw [← disarmed]
    split
    · exact timers_put v.s _ 0 (by decide)
    · rfl
  have operand : base.s.ctx.readRt (SysAccess.ofEsr esr).rt =
      v.s.ctx.readRt (SysAccess.ofEsr esr).rt := by
    have small := (SysAccess.ofEsr esr).rt.isLt
    rw [← disarmed]
    split
    · have apart : ohvRwRegsX0 + (SysAccess.ofEsr esr).rt.toNat * 8 ≠
          ohvRwBankedSysregs + 19 * 8 := by
        simp only [ohvRwRegsX0, ohvRwBankedSysregs]
        omega
      simp only [Ctx.readRt, Ctx.x, VcpuView.setCtx, Ctx.setBanked, Ctx.word_put, if_neg apart]
    · rfl
  rw [← operand]
  have compare : ∀ value, ({ base.s with
      ctx := base.s.ctx.setBanked (VcpuSlot.timerCvalIndex physical) value }.markDirty
        ohvStateSysregs).timers =
      { v.s.timers with compare := Function.update v.s.timers.compare physical value } := by
    intro value
    rw [timers_markDirty, timers_setCompare, same]
  have offset : base.s.ctx.vtimerOffset = v.s.timers.offset := congrArg StoredTimers.offset same
  have stored : base.s.timerCval physical = v.s.timers.compare physical :=
    congrFun (congrArg StoredTimers.compare same) physical
  cases reg with
  | tval =>
      rw [if_pos (show TimerReg.tval.op2 = 0 from rfl)]
      exact registerAccess_timer same (congrArg (· - host.now) stored) fun value => compare _
  | ctl =>
      rw [if_neg (show TimerReg.ctl.op2 ≠ 0 by decide), if_pos (show TimerReg.ctl.op2 = 1 from rfl)]
      refine registerAccess_timer same (congrFun (congrArg StoredTimers.control same) physical)
        fun value => ?_
      rw [timers_markDirty, timers_setTimerCtl, same]
      rfl
  | cval =>
      rw [if_neg (show TimerReg.cval.op2 ≠ 0 by decide),
        if_neg (show TimerReg.cval.op2 ≠ 1 by decide), if_pos (show TimerReg.cval.op2 = 2 from rfl)]
      rw [offset]
      refine registerAccess_timer same ?_ fun value => compare _
      exact congrArg (· - v.s.timers.offset) stored

theorem service_counter (named : (SysAccess.ofEsr esr).OfCounter physical)
    (register : (SysAccess.ofEsr esr).rt ≠ 31) :
    operandAfter host esr v = v.s.timers.clock host.now := by
  obtain ⟨op0, op1, crn, crm, op2, reads⟩ := named
  have counts : (SysAccess.ofEsr esr).op2 = 1 ∨ (SysAccess.ofEsr esr).op2 = 2 := by
    rw [op2]
    cases physical with
    | true => exact Or.inl rfl
    | false => exact Or.inr rfl
  have order : accessBlocks = [amxidrAccess, handoffAccess, gxfAccess, cacheIdAccess] ++
      counterAccess :: accessBlocks.drop 5 := rfl
  have silent : ∀ b ∈ [amxidrAccess, handoffAccess, gxfAccess, cacheIdAccess],
      b host (.ofEsr esr) v = none := by
    intro b member
    simp only [List.mem_cons, List.not_mem_nil, or_false] at member
    rcases member with rfl | rfl | rfl | rfl
    · simp [amxidrAccess, op1]
    · simp [handoffAccess, SysAccess.IsHandoff, op1]
    · simp [gxfAccess, op1]
    · simp [cacheIdAccess, crn]
  have taken : counterAccess host (.ofEsr esr) v = answered (v.setCtx
      (v.s.ctx.writeRt (SysAccess.ofEsr esr).rt (host.now - v.s.ctx.vtimerOffset))) := by
    unfold counterAccess
    rw [if_pos ⟨op0, op1, crn, crm, reads⟩, if_pos counts]
  rw [operandAfter, serviceNv2Access_decided _ _ _ order silent taken]
  exact readRt_answered v.s.ctx _ _ register

end Service

/-! ## Three views of one timer -/

namespace SysAccess

def ReadsTimer (a : SysAccess) (physical : Bool) (reg : TimerReg) : Prop :=
  a.OfTimer physical reg ∧ a.read = true ∧ a.rt ≠ 31

def WritesTimer (a : SysAccess) (physical : Bool) (reg : TimerReg) : Prop :=
  a.OfTimer physical reg ∧ a.read = false

def ReadsCounter (a : SysAccess) (physical : Bool) : Prop := a.OfCounter physical ∧ a.rt ≠ 31

instance (a : SysAccess) (physical : Bool) (reg : TimerReg) :
    Decidable (a.ReadsTimer physical reg) :=
  inferInstanceAs (Decidable (_ ∧ _))

instance (a : SysAccess) (physical : Bool) : Decidable (a.ReadsCounter physical) :=
  inferInstanceAs (Decidable (_ ∧ _))

end SysAccess

/-- The distance read is the difference of the other two in 32 bits, and a distance
written is read back through the compare value. -/
structure TimerViewsAgree (host : Host) (v : VcpuView) (physical : Bool) : Prop where
  distance : ∀ count cval tval, (SysAccess.ofEsr count).ReadsCounter physical →
    (SysAccess.ofEsr cval).ReadsTimer physical .cval →
    (SysAccess.ofEsr tval).ReadsTimer physical .tval →
    operandAfter host tval v =
      ((operandAfter host cval v - operandAfter host count v).extractLsb' 0 32).zeroExtend 64
  armed : ∀ count write cval, (SysAccess.ofEsr count).ReadsCounter physical →
    (SysAccess.ofEsr write).WritesTimer physical .tval →
    (SysAccess.ofEsr cval).ReadsTimer physical .cval →
    operandAfter host cval (serviceNv2Access host write v).2 = operandAfter host count v +
      ((v.s.ctx.readRt (SysAccess.ofEsr write).rt).extractLsb' 0 32).signExtend 64

def timerEsr (crm : BitVec 4) (op2 : BitVec 3) : Word :=
  0x30f801#64 ||| (crm.zeroExtend 64 <<< 1) ||| (op2.zeroExtend 64 <<< 17)

section Views

variable {host : Host} {v : VcpuView} {physical : Bool} {reg : TimerReg}

theorem operandAfter_timer {esr : Word} (reads : (SysAccess.ofEsr esr).ReadsTimer physical reg) :
    operandAfter host esr v = v.s.timers.value physical host.now reg :=
  (service_timer reg reads.1).shown reads.2.1 reads.2.2

theorem timers_afterWrite {esr : Word} (writes : (SysAccess.ofEsr esr).WritesTimer physical reg) :
    (serviceNv2Access host esr v).2.s.timers = v.s.timers.write physical host.now
      (v.s.ctx.readRt (SysAccess.ofEsr esr).rt) reg := by
  have served : TimerServed v.s.timers physical reg host.now (.ofEsr esr)
      (v.s.ctx.readRt (SysAccess.ofEsr esr).rt) (serviceNv2Access host esr v) :=
    service_timer reg writes.1
  rw [served.stored, if_neg (by rw [writes.2]; decide)]

/-- A distance written is always read back, at any width. -/
theorem timerViews_armed (count write cval : Word)
    (counts : (SysAccess.ofEsr count).ReadsCounter physical)
    (writes : (SysAccess.ofEsr write).WritesTimer physical .tval)
    (reads : (SysAccess.ofEsr cval).ReadsTimer physical .cval) :
    operandAfter host cval (serviceNv2Access host write v).2 = operandAfter host count v +
      ((v.s.ctx.readRt (SysAccess.ofEsr write).rt).extractLsb' 0 32).signExtend 64 := by
  rw [operandAfter_timer reads, timers_afterWrite writes, service_counter counts.1 counts.2]
  exact StoredTimers.deadline_write_tval _ _ _ _

end Views

/-- The three views agree exactly while the timer is ahead of the counter by less
than the 32 bits of the distance: past that, or once expired, the upper half of the
64-bit difference shows. -/
theorem timerViews_agree_iff (host : Host) (v : VcpuView) (physical : Bool) :
    TimerViewsAgree host v physical ↔
      (v.s.timers.deadline physical - v.s.timers.clock host.now).toNat < 2 ^ 32 := by
  rw [← Clocks.low_zeroExtend_iff]
  constructor
  · intro agree
    have counts : (SysAccess.ofEsr (timerEsr 0 (if physical then 1 else 2))).ReadsCounter
        physical := by
      cases physical <;> decide
    have compares : (SysAccess.ofEsr (timerEsr (if physical then 2 else 3) 2)).ReadsTimer
        physical .cval := by
      cases physical <;> decide
    have distances : (SysAccess.ofEsr (timerEsr (if physical then 2 else 3) 0)).ReadsTimer
        physical .tval := by
      cases physical <;> decide
    have shown := agree.distance _ _ _ counts compares distances
    rw [operandAfter_timer distances, operandAfter_timer compares,
      service_counter counts.1 counts.2, StoredTimers.tval_eq] at shown
    exact shown
  · intro fits
    refine ⟨fun count cval tval counts compares distances => ?_, timerViews_armed⟩
    rw [operandAfter_timer distances, operandAfter_timer compares,
      service_counter counts.1 counts.2, StoredTimers.tval_eq]
    exact fits

/-- A timer one tick past its compare value: the distance reads as 64 ones, where the
register has 32 bits. -/
theorem timerViews_expired :
    operandAfter { now := 1 } (timerEsr 2 0) ⟨{}, {}⟩ = 0xffffffffffffffff#64 ∧
      ¬ TimerViewsAgree { now := 1 } ⟨{}, {}⟩ true := by
  refine ⟨by decide, fun agree => ?_⟩
  have shown := agree.distance (timerEsr 0 1) (timerEsr 2 2) (timerEsr 2 0) (by decide) (by decide)
    (by decide)
  exact absurd shown (by decide)

/-! ## The sweep against the guest's clock -/

/-- ISTATUS of an enabled timer, and whether it fires, by the order of the guest's
counter and its compare value. -/
structure TimerExact (now : Word) (v : VcpuView) (physical : Bool) : Prop where
  istatus : (v.s.timers.control physical).getLsbD 0 = true →
    ((ohvExpireTimers now v).s.timers.control physical).getLsbD 2 =
      decide (v.s.timers.deadline physical ≤ v.s.timers.clock now)
  fired : (ohvExpireTimers now v).s.timerFired physical =
    ((v.s.timers.control physical).getLsbD 0 && !(v.s.timers.control physical).getLsbD 1 &&
      decide (v.s.timers.deadline physical ≤ v.s.timers.clock now))

section Sweep

variable (now : Word) (s : VcpuSlot)

theorem timerDue_eq (t : StoredTimers) (physical : Bool) :
    timerDue now (t.compare physical) = Clocks.reached (t.clock now) (t.deadline physical) :=
  (Clocks.reached_offset now (t.compare physical) t.offset).symm

theorem trackIstatus_other (physical other : Bool) (apart : other ≠ physical) :
    (trackIstatus physical now s).timerCtl other = s.timerCtl other := by
  obtain same | ⟨value, -, written⟩ := trackIstatus_cases physical now s
  · rw [same]
  · rw [written, setTimerCtl_timerCtl, if_neg apart]

theorem trackIstatus_istatus (physical : Bool)
    (enabled : (s.timerCtl physical).getLsbD 0 = true) :
    ((trackIstatus physical now s).timerCtl physical).getLsbD 2 =
      timerDue now (s.timerCval physical) := by
  unfold trackIstatus
  simp only [enabled, if_true]
  cases due : timerDue now (s.timerCval physical) with
  | true =>
      rw [if_pos rfl]
      split
      · rename_i already
        exact already
      · rw [setTimerCtl_timerCtl, if_pos rfl, WordBits.getLsbD_or_twoPow _ 2 2 (by decide)]
        simp
  | false =>
      rw [if_neg Bool.false_ne_true]
      split
      · rw [setTimerCtl_timerCtl, if_pos rfl, WordBits.getLsbD_and_not_twoPow _ 2 2]
        simp
      · rename_i already
        exact Bool.not_eq_true _ ▸ already

theorem sweptTimers_istatus (physical : Bool)
    (enabled : (s.timerCtl physical).getLsbD 0 = true) :
    ((sweptTimers now s).timerCtl physical).getLsbD 2 = timerDue now (s.timerCval physical) := by
  cases physical with
  | true =>
      have still : (trackIstatus false now s).timerCtl true = s.timerCtl true :=
        trackIstatus_other now s false true (by decide)
      have first := trackIstatus_istatus now (expireTimer false now s) true
      rw [expireTimer_timerCtl, still, expireTimer_timerCval] at first
      rw [sweptTimers, expireTimer_timerCtl]
      exact first enabled
  | false =>
      rw [sweptTimers, expireTimer_timerCtl, trackIstatus_other _ _ true false (by decide),
        expireTimer_timerCtl]
      exact trackIstatus_istatus now s false enabled

theorem sweptTimers_control (physical : Bool) (i : Nat) (notIstatus : i ≠ 2) :
    ((sweptTimers now s).timerCtl physical).getLsbD i = (s.timerCtl physical).getLsbD i := by
  rw [sweptTimers, expireTimer_timerCtl, trackIstatus_timerCtl _ _ _ _ i notIstatus,
    expireTimer_timerCtl, trackIstatus_timerCtl _ _ _ _ i notIstatus]

theorem expireTimers_control (v : VcpuView) (physical : Bool) :
    (ohvExpireTimers now v).s.timerCtl physical =
      (sweptTimers now (ohvNoteImageBand v).s).timerCtl physical := by
  rw [ohvExpireTimers_eq]
  exact setLevels_timerCtl _ _ physical

theorem expireTimers_compare (v : VcpuView) (physical : Bool) :
    (ohvExpireTimers now v).s.timerCval physical = v.s.timerCval physical := by
  rw [ohvExpireTimers_eq]
  refine (setLevels_timerCval _ _ physical).trans ?_
  rw [sweptTimers, expireTimer_timerCval, expireTimer_timerCval]
  rfl

/-- The two flags of a timer after the sweep, by the sign of the distance. -/
theorem expireTimers_istatus (v : VcpuView) (physical : Bool)
    (enabled : (v.s.timers.control physical).getLsbD 0 = true) :
    ((ohvExpireTimers now v).s.timers.control physical).getLsbD 2 =
      Clocks.reached (v.s.timers.clock now) (v.s.timers.deadline physical) := by
  rw [← timerDue_eq]
  show ((ohvExpireTimers now v).s.timerCtl physical).getLsbD 2 = _
  rw [expireTimers_control]
  exact sweptTimers_istatus now (ohvNoteImageBand v).s physical enabled

theorem expireTimers_fires (v : VcpuView) (physical : Bool) :
    (ohvExpireTimers now v).s.timerFired physical =
      ((v.s.timers.control physical).getLsbD 0 && !(v.s.timers.control physical).getLsbD 1 &&
        Clocks.reached (v.s.timers.clock now) (v.s.timers.deadline physical)) := by
  have bit : ∀ i, i ≠ 2 → ((ohvExpireTimers now v).s.timerCtl physical).getLsbD i =
      (v.s.timers.control physical).getLsbD i := by
    intro i notIstatus
    rw [expireTimers_control]
    exact sweptTimers_control now (ohvNoteImageBand v).s physical i notIstatus
  rw [ohvExpireTimers_fired, timerFires, bit 0 (by decide), bit 1 (by decide),
    expireTimers_compare, ← timerDue_eq]
  exact Bool.and_right_comm _ _ _

end Sweep

/-- The sweep keeps to the guest's clock exactly when the timer is off, or the counter
and the compare value lie within half the range of each other. -/
theorem timerExact_iff (now : Word) (v : VcpuView) (physical : Bool) :
    TimerExact now v physical ↔
      (v.s.timers.control physical).getLsbD 0 = false ∨
        ((v.s.timers.clock now).toNat < (v.s.timers.deadline physical).toNat + 2 ^ 63 ∧
          (v.s.timers.deadline physical).toNat ≤ (v.s.timers.clock now).toNat + 2 ^ 63) := by
  have half := Clocks.reached_agrees_iff (v.s.timers.clock now) (v.s.timers.deadline physical)
  cases enabled : (v.s.timers.control physical).getLsbD 0 with
  | false =>
      refine iff_of_true ⟨fun on => ?_, ?_⟩ (Or.inl rfl)
      · rw [enabled] at on
        cases on
      · rw [expireTimers_fires, enabled]
        rfl
  | true =>
      rw [or_iff_right Bool.true_eq_false.mp, ← half]
      constructor
      · intro exact
        rw [← expireTimers_istatus now v physical enabled]
        exact exact.istatus enabled
      · intro agree
        refine ⟨fun _ => ?_, ?_⟩
        · rw [expireTimers_istatus now v physical enabled, agree]
        · rw [expireTimers_fires, agree]

/-- A physical timer parked at the last value the counter can have, and enabled. -/
def parkedForever : VcpuSlot where
  ctx := (⟨⟨fun _ => 0⟩⟩ : Ctx).setBanked 10 0xffffffffffffffff#64
  el2Shadow := Function.update (fun _ => 0) ohvShadowCntpCtl 1

/-- It fires at once. -/
theorem parkedForever_fires :
    (ohvExpireTimers 1000 ⟨{}, parkedForever⟩).s.timerFiredP = true ∧
      ¬ TimerExact 1000 ⟨{}, parkedForever⟩ true := by
  have fires : (ohvExpireTimers 1000 ⟨{}, parkedForever⟩).s.timerFired true = true := by decide
  refine ⟨fires, fun exact => ?_⟩
  have never := exact.fired
  rw [fires] at never
  exact absurd never (by decide)

end OpenHypervisor
