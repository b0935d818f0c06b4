import OpenHypervisor.State

/-!
# Virtual interrupt levels

The two levels of `HCR_EL2`, what asserts them and what withholds them: the
VMM's own calls, the emulated timers, the monitor band and the parked flag.

`ohvExpireTimers` runs before every entry.  Its spec lemmas say what the levels
are when it is done, in terms of the state it leaves behind.
-/

set_option autoImplicit false

namespace OpenHypervisor

/-! ## The monitor band -/

/-- The band of a kernel address: its low 28 bits cleared. -/
def imageBand (pc : Word) : Word := pc &&& ~~~0xfffffff#64

/-- What the compare-exchange loop leaves in `g_monitor_band`. -/
def lowerBand (seen band : Word) : Word :=
  if seen ≠ 0 ∧ seen ≤ band then seen else band

/-- One call at a PC, on the shared band and the vCPU's own copy of it. -/
def noteImageBand (shared own pc : Word) : Word × Word :=
  let own := if own = 0 then shared else own
  if pc < kernelVa then (shared, own)
  else
    let band := imageBand pc
    if own = 0 ∨ band < own then (lowerBand shared band, band) else (shared, own)

def ohvNoteImageBand (v : VcpuView) : VcpuView :=
  let bands := noteImageBand v.g.monitorBand v.s.sptmBase v.s.ctx.pc
  { g := { v.g with monitorBand := bands.1 }
    s := { v.s with sptmBase := bands.2 } }

/-- The span of the two monitor images. -/
def monitorSpan : Word := 0x20000000#64

def ohvGuestInMonitor (s : VcpuSlot) : Bool :=
  decide (s.sptmBase ≠ 0) && decide (s.sptmBase ≤ s.ctx.pc) &&
    decide (s.ctx.pc < s.sptmBase + monitorSpan)

/-! ## The gates -/

/-- Whether the guest would take an interrupt masked by this bit of PSTATE the
moment it is let back in. -/
def takeable (maskBit : Nat) (s : VcpuSlot) : Bool :=
  s.inWfx || (!ohvGuestInMonitor s && !s.ctx.cpsr.getLsbD maskBit)

def ohvFiqTakeable (s : VcpuSlot) : Bool := takeable 6 s
def ohvIrqTakeable (s : VcpuSlot) : Bool := takeable 7 s

def ohvTimerGateMode (cfg : OhvCfg) : BitVec 32 := cfg.timerGate.getD 4

def ohvTimerFiqWanted (cfg : OhvCfg) (s : VcpuSlot) : Bool :=
  let due := s.timerFiredV || s.timerFiredP
  match (ohvTimerGateMode cfg).toNat with
  | 1 => due
  | 2 => due && !s.guestAtEl2 && !s.nvOffForGeret
  | 3 => due && !ohvGuestInMonitor s
  | 0 => (s.timerFiredP && s.vmTmrFiqEna.getLsbD 0) || (s.timerFiredV && s.vmTmrFiqEna.getLsbD 1)
  | _ => due && (decide (s.sptmBase = 0) || ohvFiqTakeable s)

def ohvTimerAsIrq (cfg : OhvCfg) (s : VcpuSlot) : Bool :=
  decide (s.id < 64) && (cfg.timerIrqVcpus.getD 0).getLsbD s.id

/-! ## The levels -/

def levelBit (n : Nat) (want : Bool) : Word := if want then BitVec.twoPow 64 n else 0#64

/-- Both levels are written the same way: only when the bit looks different, and
then announced. -/
def setHcrLevel (n : Nat) (want : Bool) (s : VcpuSlot) : VcpuSlot :=
  if s.ctx.hcr &&& BitVec.twoPow 64 n = levelBit n want then s
  else
    (s.setHcr ((s.ctx.hcr &&& ~~~BitVec.twoPow 64 n) ||| levelBit n want)).markDirty
      ohvStateControls

def wantIrq (cfg : OhvCfg) (s : VcpuSlot) : Bool :=
  (s.vmmIrq || (ohvTimerAsIrq cfg s && ohvTimerFiqWanted cfg s)) &&
    (decide (s.sptmBase = 0) || cfg.irqUngated || ohvIrqTakeable s)

def ohvSetIrqLevel (cfg : OhvCfg) (s : VcpuSlot) : VcpuSlot :=
  setHcrLevel 7 (wantIrq cfg s) s

def wantTimerFiq (cfg : OhvCfg) (s : VcpuSlot) : Bool :=
  ohvTimerFiqWanted cfg s && !ohvTimerAsIrq cfg s

def wantFiq (cfg : OhvCfg) (s : VcpuSlot) : Bool :=
  (s.vmmFiq && (decide (s.sptmBase = 0) || cfg.ipiUngated || ohvFiqTakeable s)) ||
    wantTimerFiq cfg s

def ohvSetFiqLevel (cfg : OhvCfg) (s : VcpuSlot) : VcpuSlot :=
  setHcrLevel 6 (wantFiq cfg s) { s with timerFiq := wantTimerFiq cfg s }

/-! ## The VMM's calls -/

def hvVcpuSetPendingInterrupt (cfg : OhvCfg) (type : HvInterruptType) (pending : Bool)
    (s : VcpuSlot) : VcpuSlot :=
  match type with
  | .fiq => ohvSetFiqLevel cfg { s with vmmFiq := pending }
  | .irq => ohvSetIrqLevel cfg { s with vmmIrq := pending }

def pendingBit : HvInterruptType → Nat
  | .fiq => 6
  | .irq => 7

def hvVcpuGetPendingInterrupt (type : HvInterruptType) (s : VcpuSlot) : Bool :=
  s.ctx.hcr.getLsbD (pendingBit type)

def ohvVcpuSetParked (cfg : OhvCfg) (parked : Bool) (s : VcpuSlot) : VcpuSlot :=
  if s.inWfx = parked then s
  else ohvSetIrqLevel cfg (ohvSetFiqLevel cfg { s with inWfx := parked })

/-! ## The timers -/

/-- `(int64_t)(now - cval) >= 0`. -/
def timerDue (now cval : Word) : Bool := !(now - cval).msb

/-- A timer that is enabled, due and not masked at the timer itself. -/
def timerFires (now ctl cval : Word) : Bool :=
  ctl.getLsbD 0 && timerDue now cval && !ctl.getLsbD 1

/-- ISTATUS is maintained whatever the delivery rule decides. -/
def trackIstatus (physical : Bool) (now : Word) (s : VcpuSlot) : VcpuSlot :=
  let ctl := s.timerCtl physical
  let write := fun value => (s.setTimerCtl physical value).markDirty ohvStateSysregs
  if ctl.getLsbD 0 then
    if timerDue now (s.timerCval physical) then
      if ctl.getLsbD 2 then s else write (ctl ||| BitVec.twoPow 64 2)
    else if ctl.getLsbD 2 then write (ctl &&& ~~~BitVec.twoPow 64 2)
    else s
  else s

def expireTimer (physical : Bool) (now : Word) (s : VcpuSlot) : VcpuSlot :=
  let fired := timerFires now (s.timerCtl physical) (s.timerCval physical)
  let s := trackIstatus physical now s
  if physical then { s with timerFiredP := fired } else { s with timerFiredV := fired }

def ohvExpireTimers (now : Word) (v : VcpuView) : VcpuView :=
  let v := ohvNoteImageBand v
  let s := expireTimer true now (expireTimer false now v.s)
  { v with s := ohvSetIrqLevel v.g.cfg (ohvSetFiqLevel v.g.cfg s) }

/-! ## What writing a level leaves alone -/

section Level

variable (n : Nat) (want : Bool) (s : VcpuSlot)

theorem setHcrLevel_slot : setHcrLevel n want s = { s with ctx := (setHcrLevel n want s).ctx } := by
  unfold setHcrLevel
  split <;> rfl

theorem setHcrLevel_word (off : Nat) (notHcr : off ≠ ohvRwControls)
    (notDirty : off ≠ ohvRwStateDirty) :
    (setHcrLevel n want s).ctx.word off = s.ctx.word off := by
  unfold setHcrLevel
  split
  · rfl
  · simp only [VcpuSlot.markDirty, VcpuSlot.setHcr, Ctx.markDirty, Ctx.setHcr, Ctx.setControl,
      Ctx.word_put, Nat.add_zero, if_neg notHcr, if_neg notDirty]

/-- The level is the wanted one, and no other bit of `HCR_EL2` moved. -/
theorem setHcrLevel_hcr (inside : n < 64) (i : Nat) :
    (setHcrLevel n want s).ctx.hcr.getLsbD i =
      if i = n then want else s.ctx.hcr.getLsbD i := by
  unfold setHcrLevel
  split
  · rename_i same
    have standing := (WordBits.and_twoPow_eq_ite_iff _ n want inside).mp same
    split
    · rename_i here
      rw [here, standing]
    · rfl
  · simp only [VcpuSlot.markDirty, VcpuSlot.setHcr, Ctx.hcr_markDirty, Ctx.hcr_setHcr]
    exact WordBits.getLsbD_replace _ n i want inside

@[simp] theorem setHcrLevel_pc : (setHcrLevel n want s).ctx.pc = s.ctx.pc :=
  setHcrLevel_word n want s _ (by decide) (by decide)

@[simp] theorem setHcrLevel_cpsr : (setHcrLevel n want s).ctx.cpsr = s.ctx.cpsr := by
  simp only [Ctx.cpsr, Ctx.lo32, setHcrLevel_word n want s ohvRwCpsr (by decide) (by decide)]

theorem setHcrLevel_banked (i : Nat) (small : i < 24) :
    (setHcrLevel n want s).ctx.banked i = s.ctx.banked i :=
  setHcrLevel_word n want s _ (by simp; omega) (by simp; omega)

@[simp] theorem setHcrLevel_timerCtl (physical : Bool) :
    (setHcrLevel n want s).timerCtl physical = s.timerCtl physical := by
  cases physical with
  | true =>
      rw [setHcrLevel_slot]
      rfl
  | false => exact setHcrLevel_banked n want s 18 (by decide)

@[simp] theorem setHcrLevel_timerCval (physical : Bool) :
    (setHcrLevel n want s).timerCval physical = s.timerCval physical :=
  setHcrLevel_banked n want s _ (by cases physical <;> decide)

end Level

/-! The gates look at the slot through PC and PSTATE alone. -/

section Gates

variable (cfg : OhvCfg) (s : VcpuSlot) (ctx : Ctx)

theorem takeable_congr (maskBit : Nat) (pc : ctx.pc = s.ctx.pc) (cpsr : ctx.cpsr = s.ctx.cpsr) :
    takeable maskBit { s with ctx := ctx } = takeable maskBit s := by
  simp only [takeable, ohvGuestInMonitor, pc, cpsr]

theorem timerFiqWanted_congr (pc : ctx.pc = s.ctx.pc) (cpsr : ctx.cpsr = s.ctx.cpsr) :
    ohvTimerFiqWanted cfg { s with ctx := ctx } = ohvTimerFiqWanted cfg s := by
  simp only [ohvTimerFiqWanted, ohvFiqTakeable, takeable_congr s ctx 6 pc cpsr,
    ohvGuestInMonitor, pc]

theorem wantFiq_congr (pc : ctx.pc = s.ctx.pc) (cpsr : ctx.cpsr = s.ctx.cpsr) :
    wantFiq cfg { s with ctx := ctx } = wantFiq cfg s := by
  simp only [wantFiq, wantTimerFiq, timerFiqWanted_congr cfg s ctx pc cpsr, ohvFiqTakeable,
    takeable_congr s ctx 6 pc cpsr, ohvTimerAsIrq]

theorem wantIrq_congr (pc : ctx.pc = s.ctx.pc) (cpsr : ctx.cpsr = s.ctx.cpsr) :
    wantIrq cfg { s with ctx := ctx } = wantIrq cfg s := by
  simp only [wantIrq, timerFiqWanted_congr cfg s ctx pc cpsr, ohvIrqTakeable,
    takeable_congr s ctx 7 pc cpsr, ohvTimerAsIrq]

@[simp] theorem wantFiq_setHcrLevel (n : Nat) (want : Bool) :
    wantFiq cfg (setHcrLevel n want s) = wantFiq cfg s := by
  rw [setHcrLevel_slot]
  exact wantFiq_congr cfg s _ (setHcrLevel_pc n want s) (setHcrLevel_cpsr n want s)

@[simp] theorem wantIrq_setHcrLevel (n : Nat) (want : Bool) :
    wantIrq cfg (setHcrLevel n want s) = wantIrq cfg s := by
  rw [setHcrLevel_slot]
  exact wantIrq_congr cfg s _ (setHcrLevel_pc n want s) (setHcrLevel_cpsr n want s)

end Gates

/-! ## Both levels written -/

/-- The pair every path through here ends in. -/
def setLevels (cfg : OhvCfg) (s : VcpuSlot) : VcpuSlot := ohvSetIrqLevel cfg (ohvSetFiqLevel cfg s)

section Levels

variable (cfg : OhvCfg) (s : VcpuSlot)

theorem setLevels_eq : setLevels cfg s =
    setHcrLevel 7 (wantIrq cfg s) (setHcrLevel 6 (wantFiq cfg s)
      { s with timerFiq := wantTimerFiq cfg s }) := by
  have irq : wantIrq cfg { s with timerFiq := wantTimerFiq cfg s } = wantIrq cfg s := rfl
  simp only [setLevels, ohvSetIrqLevel, ohvSetFiqLevel, wantIrq_setHcrLevel, irq]

theorem setLevels_slot : setLevels cfg s = { s with
    ctx := (setLevels cfg s).ctx
    timerFiq := wantTimerFiq cfg s } := by
  rw [setLevels_eq, setHcrLevel_slot 7, setHcrLevel_slot 6]

theorem setLevels_hcr (i : Nat) : (setLevels cfg s).ctx.hcr.getLsbD i =
    if i = 7 then wantIrq cfg s else if i = 6 then wantFiq cfg s else s.ctx.hcr.getLsbD i := by
  rw [setLevels_eq, setHcrLevel_hcr 7 _ _ (by decide), setHcrLevel_hcr 6 _ _ (by decide)]

/-- The levels agree with the gates as they stand after the write, so nothing the
write itself changes can put them out of date. -/
theorem setLevels_exact : (setLevels cfg s).ctx.hcr.getLsbD 6 = wantFiq cfg (setLevels cfg s) ∧
    (setLevels cfg s).ctx.hcr.getLsbD 7 = wantIrq cfg (setLevels cfg s) := by
  have fiq : wantFiq cfg (setLevels cfg s) = wantFiq cfg s := by
    rw [setLevels_eq, wantFiq_setHcrLevel, wantFiq_setHcrLevel]
    rfl
  have irq : wantIrq cfg (setLevels cfg s) = wantIrq cfg s := by
    rw [setLevels_eq, wantIrq_setHcrLevel, wantIrq_setHcrLevel]
    rfl
  rw [setLevels_hcr, setLevels_hcr, fiq, irq]
  exact ⟨rfl, rfl⟩

@[simp] theorem setLevels_timerCtl (physical : Bool) :
    (setLevels cfg s).timerCtl physical = s.timerCtl physical := by
  rw [setLevels_eq, setHcrLevel_timerCtl, setHcrLevel_timerCtl]
  rfl

@[simp] theorem setLevels_timerCval (physical : Bool) :
    (setLevels cfg s).timerCval physical = s.timerCval physical := by
  rw [setLevels_eq, setHcrLevel_timerCval, setHcrLevel_timerCval]
  rfl

@[simp] theorem setLevels_pc : (setLevels cfg s).ctx.pc = s.ctx.pc := by
  rw [setLevels_eq, setHcrLevel_pc, setHcrLevel_pc]

end Levels

/-! ## A timer expired -/

section Expiry

variable (physical : Bool) (now : Word) (s : VcpuSlot)

theorem timerFires_congr (now ctl ctl' cval : Word) (enable : ctl'.getLsbD 0 = ctl.getLsbD 0)
    (imask : ctl'.getLsbD 1 = ctl.getLsbD 1) : timerFires now ctl' cval = timerFires now ctl cval := by
  simp only [timerFires, enable, imask]

theorem setTimerCtl_keeps (value : Word) :
    s.ctx.Keeps ((s.setTimerCtl physical value).markDirty ohvStateSysregs).ctx := by
  cases physical with
  | true => exact (Ctx.Keeps.refl s.ctx).markDirty _
  | false => exact ((Ctx.Keeps.refl s.ctx).setBanked 18 value (by decide)).markDirty _

/-- What maintaining ISTATUS is: bit 2 of the one control word, or nothing. -/
theorem trackIstatus_cases : trackIstatus physical now s = s ∨
    ∃ value, (∀ i, i ≠ 2 → value.getLsbD i = (s.timerCtl physical).getLsbD i) ∧
      trackIstatus physical now s =
        (s.setTimerCtl physical value).markDirty ohvStateSysregs := by
  unfold trackIstatus
  simp only
  split
  · split
    · split
      · exact Or.inl rfl
      · refine Or.inr ⟨_, fun i other => ?_, rfl⟩
        rw [WordBits.getLsbD_or_twoPow _ 2 i (by decide)]
        simp [other]
    · split
      · refine Or.inr ⟨_, fun i other => ?_, rfl⟩
        rw [WordBits.getLsbD_and_not_twoPow _ 2 i]
        simp [other]
      · exact Or.inl rfl
  · exact Or.inl rfl

theorem trackIstatus_slot : trackIstatus physical now s = { s with
    ctx := (trackIstatus physical now s).ctx
    el2Shadow := (trackIstatus physical now s).el2Shadow } := by
  obtain same | ⟨value, -, written⟩ := trackIstatus_cases physical now s
  · rw [same]
  · rw [written]
    cases physical <;> rfl

theorem trackIstatus_keeps : s.ctx.Keeps (trackIstatus physical now s).ctx := by
  obtain same | ⟨value, -, written⟩ := trackIstatus_cases physical now s
  · rw [same]
    exact Ctx.Keeps.refl _
  · rw [written]
    exact setTimerCtl_keeps physical s value

@[simp] theorem setTimerCtl_timerCtl (value : Word) (other : Bool) :
    ((s.setTimerCtl physical value).markDirty ohvStateSysregs).timerCtl other =
      if other = physical then value else s.timerCtl other := by
  cases physical <;> cases other <;>
    simp [VcpuSlot.setTimerCtl, VcpuSlot.timerCtl, VcpuSlot.markDirty, Ctx.markDirty,
      Ctx.banked, Ctx.setBanked]

@[simp] theorem setTimerCtl_timerCval (value : Word) (other : Bool) :
    ((s.setTimerCtl physical value).markDirty ohvStateSysregs).timerCval other =
      s.timerCval other := by
  cases physical <;> cases other <;>
    simp [VcpuSlot.setTimerCtl, VcpuSlot.timerCval, VcpuSlot.timerCvalIndex, VcpuSlot.markDirty,
      Ctx.markDirty, Ctx.banked, Ctx.setBanked]

theorem trackIstatus_timerCtl (other : Bool) (i : Nat) (notIstatus : i ≠ 2) :
    ((trackIstatus physical now s).timerCtl other).getLsbD i = (s.timerCtl other).getLsbD i := by
  obtain same | ⟨value, bits, written⟩ := trackIstatus_cases physical now s
  · rw [same]
  · rw [written, setTimerCtl_timerCtl]
    split
    · rename_i here
      rw [here]
      exact bits i notIstatus
    · rfl

theorem trackIstatus_timerCval (other : Bool) :
    (trackIstatus physical now s).timerCval other = s.timerCval other := by
  obtain same | ⟨value, -, written⟩ := trackIstatus_cases physical now s
  · rw [same]
  · rw [written, setTimerCtl_timerCval]

/-- The flag of the timer, as its registers say after the sweep. -/
def VcpuSlot.timerFired (s : VcpuSlot) (physical : Bool) : Bool :=
  if physical then s.timerFiredP else s.timerFiredV

theorem expireTimer_eq : expireTimer physical now s =
    if physical then { trackIstatus physical now s with
      timerFiredP := timerFires now (s.timerCtl physical) (s.timerCval physical) }
    else { trackIstatus physical now s with
      timerFiredV := timerFires now (s.timerCtl physical) (s.timerCval physical) } := rfl

theorem expireTimer_slot : expireTimer physical now s = { s with
    ctx := (expireTimer physical now s).ctx
    el2Shadow := (expireTimer physical now s).el2Shadow
    timerFiredV := (expireTimer physical now s).timerFiredV
    timerFiredP := (expireTimer physical now s).timerFiredP } := by
  rw [expireTimer_eq, trackIstatus_slot]
  cases physical <;> rfl

@[simp] theorem expireTimer_ctx :
    (expireTimer physical now s).ctx = (trackIstatus physical now s).ctx := by
  cases physical <;> rfl

@[simp] theorem expireTimer_timerCtl (other : Bool) :
    (expireTimer physical now s).timerCtl other =
      (trackIstatus physical now s).timerCtl other := by
  cases physical <;> rfl

@[simp] theorem expireTimer_timerCval (other : Bool) :
    (expireTimer physical now s).timerCval other = s.timerCval other := by
  have same : (expireTimer physical now s).timerCval other =
      (trackIstatus physical now s).timerCval other := by
    cases physical <;> rfl
  rw [same, trackIstatus_timerCval]

/-- The flag recomputed from the registers the sweep leaves is the one it set. -/
theorem expireTimer_fired (other : Bool) : (expireTimer physical now s).timerFired other =
    if other = physical then
      timerFires now ((expireTimer physical now s).timerCtl other)
        ((expireTimer physical now s).timerCval other)
    else s.timerFired other := by
  have fires : ∀ p, timerFires now ((expireTimer physical now s).timerCtl p)
      ((expireTimer physical now s).timerCval p) =
        timerFires now (s.timerCtl p) (s.timerCval p) := by
    intro p
    rw [expireTimer_timerCval, expireTimer_timerCtl]
    exact timerFires_congr now _ _ _ (trackIstatus_timerCtl physical now s p 0 (by decide))
      (trackIstatus_timerCtl physical now s p 1 (by decide))
  rw [fires]
  have tracked := trackIstatus_slot physical now s
  rw [expireTimer_eq, tracked]
  cases physical <;> cases other <;> rfl

end Expiry

/-! ## The sweep before an entry -/

section Sweep

variable (now : Word) (v : VcpuView)

/-- Both timers, the virtual one first. -/
def sweptTimers (now : Word) (s : VcpuSlot) : VcpuSlot :=
  expireTimer true now (expireTimer false now s)

theorem ohvExpireTimers_eq : ohvExpireTimers now v =
    { ohvNoteImageBand v with
      s := setLevels (ohvNoteImageBand v).g.cfg (sweptTimers now (ohvNoteImageBand v).s) } := rfl

@[simp] theorem ohvExpireTimers_sptmBase :
    (ohvExpireTimers now v).s.sptmBase = (ohvNoteImageBand v).s.sptmBase := by
  rw [ohvExpireTimers_eq, setLevels_slot]
  show (sweptTimers now (ohvNoteImageBand v).s).sptmBase = _
  rw [sweptTimers, expireTimer_slot true, expireTimer_slot false]

theorem ohvExpireTimers_slot : (ohvExpireTimers now v).s = { v.s with
    ctx := (ohvExpireTimers now v).s.ctx
    el2Shadow := (ohvExpireTimers now v).s.el2Shadow
    sptmBase := (ohvExpireTimers now v).s.sptmBase
    timerFiq := (ohvExpireTimers now v).s.timerFiq
    timerFiredV := (ohvExpireTimers now v).s.timerFiredV
    timerFiredP := (ohvExpireTimers now v).s.timerFiredP } := by
  rw [ohvExpireTimers_eq, setLevels_slot, sweptTimers, expireTimer_slot true,
    expireTimer_slot false]
  rfl

theorem sweptTimers_keeps (s : VcpuSlot) : s.ctx.Keeps (sweptTimers now s).ctx := by
  have first : s.ctx.Keeps (expireTimer false now s).ctx := by
    rw [expireTimer_ctx]
    exact trackIstatus_keeps false now s
  rw [sweptTimers, expireTimer_ctx]
  exact first.trans (trackIstatus_keeps true now _)

/-- No bit of `HCR_EL2` but the two levels moves. -/
theorem ohvExpireTimers_hcr (i : Nat) (notVf : i ≠ 6) (notVi : i ≠ 7) :
    (ohvExpireTimers now v).s.ctx.hcr.getLsbD i = v.s.ctx.hcr.getLsbD i := by
  rw [ohvExpireTimers_eq]
  show (setLevels _ _).ctx.hcr.getLsbD i = _
  rw [setLevels_hcr, if_neg notVi, if_neg notVf, (sweptTimers_keeps now _).sameControls.hcr]
  rfl

/-- The levels at the entry are the ones the gates ask for, with the timers
judged at the clock value of the sweep. -/
theorem ohvExpireTimers_exact :
    (ohvExpireTimers now v).s.ctx.hcr.getLsbD 6 =
      wantFiq (ohvExpireTimers now v).g.cfg (ohvExpireTimers now v).s ∧
    (ohvExpireTimers now v).s.ctx.hcr.getLsbD 7 =
      wantIrq (ohvExpireTimers now v).g.cfg (ohvExpireTimers now v).s :=
  setLevels_exact _ _

theorem ohvExpireTimers_fired (physical : Bool) :
    (ohvExpireTimers now v).s.timerFired physical =
      timerFires now ((ohvExpireTimers now v).s.timerCtl physical)
        ((ohvExpireTimers now v).s.timerCval physical) := by
  have flags : (ohvExpireTimers now v).s.timerFired physical =
      (sweptTimers now (ohvNoteImageBand v).s).timerFired physical := by
    rw [ohvExpireTimers_eq, setLevels_slot]
    rfl
  rw [flags, ohvExpireTimers_eq]
  simp only [setLevels_timerCtl, setLevels_timerCval]
  generalize (ohvNoteImageBand v).s = s
  unfold sweptTimers
  rw [expireTimer_fired true now]
  cases physical with
  | true => simp
  | false =>
      rw [if_neg (by decide), expireTimer_fired false now, if_pos rfl, expireTimer_timerCval true,
        expireTimer_timerCtl true]
      exact (timerFires_congr now _ _ _ (trackIstatus_timerCtl true now _ false 0 (by decide))
        (trackIstatus_timerCtl true now _ false 1 (by decide))).symm

end Sweep

end OpenHypervisor
