import OpenHypervisor.TrappedAccess

/-!
# Exit handling

`exit_from_ro`: what one return of the run trap does to the slot, and whether
the VMM is told about it.  The three questions asked of the kernel on the way
(`OHV_TRAP_VCPU_SYSREGS_SYNC`) are numbered, so that each may answer on its own.
-/

set_option autoImplicit false

namespace OpenHypervisor

inductive ExitAction where
  | toVmm
  | keepRunning
  deriving DecidableEq, Repr

/-! ## The prologue: NV restored, the return pair mirrored, NV re-armed -/

/-- The guarded exit ends the guarded state a hardware ERET carried the guest
into. -/
def restoreNv (s : VcpuSlot) : VcpuSlot :=
  if s.nvOffForGeret ∧ s.ctx.exitEc = 0x3f then { s.armNv with nvOffForGeret := false } else s

/-- `OHV_MIRROR_GL1`: keep the guest's EL2 return pair holding the guarded one. -/
def mirrorGl1 (cfg : OhvCfg) (host : Host) (s : VcpuSlot) : VcpuSlot :=
  if cfg.mirrorGl1 ∧ s.ctx.exitEc = 0x18 then
    let ctx := host.sync 0 s.ctx
    let gelr := ctx.ext 51
    let gspsr := ctx.ext 52
    if gelr ≠ 0 ∧ gspsr ≠ 0 ∧ (ctx.banked 3 ≠ gelr ∨ ctx.banked 14 ≠ gspsr) then
      { s with ctx := ((ctx.setBanked 3 gelr).setBanked 14 gspsr).markDirty ohvStateSysregs }
    else { s with ctx := ctx }
  else s

def rearmNv (cfg : OhvCfg) (s : VcpuSlot) : VcpuSlot :=
  if cfg.noMonitorNv = false ∧ kernelVa ≤ s.ctx.pc ∧ s.ctx.hcr &&& ohvHcrNv = 0 then s.armNv
  else s

def recordExit (s : VcpuSlot) : VcpuSlot :=
  { s with
    pubExit := { s.pubExit with
      syndrome := s.ctx.exitEsr
      virtualAddress := s.ctx.exitFar
      physicalAddress := (s.ctx.exitHpfar &&& ~~~0xfff#64) ||| (s.ctx.exitFar &&& 0xfff#64) }
    lastReason := s.ctx.exitReason
    lastEsr := s.ctx.exitEsr }

def arriveExit (cfg : OhvCfg) (host : Host) (s : VcpuSlot) : VcpuSlot :=
  recordExit (rearmNv cfg (mirrorGl1 cfg host (restoreNv s)))

def VcpuSlot.setExit (s : VcpuSlot) (reason : HvExitReason) : VcpuSlot :=
  { s with pubExit := { s.pubExit with reason := reason } }

/-! ## Synthesised syndromes -/

/-- The instruction the guest is sitting on, its address taken as physical. -/
def guestInsn (host : Host) (v : VcpuView) : Option (BitVec 32) :=
  (ohvGuestPtr v.g.maps v.s.ctx.pc 4).map host.mem.read32

def msrTrapSyndrome (insn : BitVec 32) : Word :=
  let field := fun (lsb width : Nat) => ((insn >>> lsb) &&& ((1#32 <<< width) - 1)).zeroExtend 64
  (0x18#64 <<< 26) ||| (1#64 <<< 25) |||
    ((2#64 + field 19 1) <<< 20) ||| (field 5 3 <<< 17) ||| (field 16 3 <<< 14) |||
    (field 12 4 <<< 10) ||| (field 0 5 <<< 5) ||| (field 8 4 <<< 1) ||| field 21 1

def VcpuSlot.setSyndrome (s : VcpuSlot) (syndrome : Word) : VcpuSlot :=
  { s with pubExit := { s.pubExit with syndrome := syndrome } }

def synthMsrTrapSyndrome (host : Host) (v : VcpuView) : VcpuSlot :=
  match guestInsn host v with
  | some insn =>
      if insn &&& 0xffd00000#32 = 0xd5100000#32 then v.s.setSyndrome (msrTrapSyndrome insn)
      else v.s
  | none => v.s

def synthGuardedExitSyndrome (host : Host) (v : VcpuView) : VcpuSlot :=
  match guestInsn host v with
  | some insn =>
      if insn = 0x00201400#32 then
        v.s.setSyndrome ((0x3f#64 <<< 26) ||| (1#64 <<< 25) ||| 0x22#64)
      else v.s
  | none => v.s

/-! ## Exception entry and return -/

/-- Which SPSR values a hardware exception return refuses, and why. -/
def spsrIllegalReason (spsr : Word) : Option String :=
  if spsr &&& 0x10 ≠ 0 then some "AArch32, M[4] set"
  else
    match (spsr &&& 0xf).toNat with
    | 0x0 | 0x4 | 0x5 | 0x8 | 0x9 => none
    | 0xc | 0xd => some "EL3, which this guest does not have"
    | _ => some "reserved M[3:0]"

/-- The answer of `eret_is_guarded` off the page its sync left behind. -/
def eretIsGuarded (ctx : Ctx) : Bool :=
  let spsr := ctx.ext 52
  let m := spsr &&& 0xf
  decide (spsr ≠ 0) && (spsrIllegalReason spsr).isNone && decide (m ≠ 0x8) && decide (m ≠ 0x9)

def ohvVectLower64Sync : Word := 0x400

def enterGuestEl2 (s : VcpuSlot) (esr returnPc : Word) : VcpuSlot :=
  let vbar := s.ctx.word (ohvVncrBase + 0x250)
  let ctx := ((s.ctx.setBanked 3 returnPc).setBanked 5 esr).setBanked 14
    (s.ctx.cpsr.zeroExtend 64)
  let ctx := (ctx.markDirty ohvStateSysregs).setPc (vbar + ohvVectLower64Sync)
  let s := { s with ctx := ctx.setCpsr 0x3c5 }
  { s.armNv with guestAtEl2 := true }

/-- A guarded return: the pair where a hardware ERET looks for it, NV off. -/
def handEretToHardware (s : VcpuSlot) : VcpuSlot :=
  let gelr := s.ctx.ext 51
  let gspsr := s.ctx.ext 52
  let ctx := ((s.ctx.setBanked 3 gelr).setBanked 14 gspsr).markDirty ohvStateSysregs
  let s := { s with ctx := ctx }
  { s.clearNv with nvOffForGeret := true }

/-- A trapped ERET carried out here.  A return to the guest's own EL1 takes NV
off; one to EL0 leaves it on, and one to EL2 stays at hardware EL1. -/
def completeEret (s : VcpuSlot) : VcpuSlot :=
  let elr := s.ctx.banked 3
  let spsr := s.ctx.banked 14
  let mode := spsr &&& 0xf
  let low := spsr.extractLsb' 0 32
  let s := { s with ctx := (s.ctx.setPc elr).setCpsr low }
  if mode = 0x4 ∨ mode = 0x5 then ({ s with guestAtEl2 := false } : VcpuSlot).clearNv
  else if mode = 0x8 ∨ mode = 0x9 then
    let stays := (low &&& ~~~0xf#32) ||| (mode.extractLsb' 0 32 - 4)
    { s with ctx := s.ctx.setCpsr stays }
  else s

/-! ## The reasons -/

/-- A physical interrupt: the virtual timer's only when its own control word
says it fired and the mask is not already up. -/
def physicalInterrupt (v : VcpuView) : ExitAction × VcpuView :=
  if v.s.ctx.timer &&& ohvTimerMask = 0 ∧ v.s.ctx.banked 18 = 5 then
    let s := { v.s with ctx := v.s.ctx.setTimer (v.s.ctx.timer ||| ohvTimerMask) }
    (.toVmm, { v with s := s.setExit .vtimerActivated })
  else (.toVmm, { v with s := v.s.setExit .unknown })

/-- `case 6`: a guest exception, which is the VMM's to service. -/
def reportException (reason : BitVec 32) (host : Host) (v : VcpuView) : ExitAction × VcpuView :=
  let s :=
    if v.s.ctx.exitEsr = 0 then
      if reason = 8 then synthMsrTrapSyndrome host v
      else if reason = 1 then synthGuardedExitSyndrome host v
      else v.s
    else v.s
  (.toVmm, { v with s := s.setExit .exception })

/-- EC 0x1a with bit 0 clear: a plain ERET, not one of the authenticated ones. -/
def Ctx.TrappedEret (c : Ctx) : Prop := c.exitEc = 0x1a ∧ c.exitEsr.getLsbD 0 = false

instance (c : Ctx) : Decidable c.TrappedEret := inferInstanceAs (Decidable (_ ∧ _))

/-- The software completion, asked for with the second of its two syncs. -/
def softEret (reason : BitVec 32) (host : Host) (v : VcpuView) : ExitAction × VcpuView :=
  if v.s.ctx.TrappedEret ∧ v.s.guestAtEl2 then
    let v := v.sync host 2
    if eretIsGuarded v.s.ctx = false ∧ v.g.cfg.noEretEmulation = false then
      (.keepRunning, { v with s := completeEret v.s })
    else reportException reason host v
  else reportException reason host v

def guardedEret (reason : BitVec 32) (host : Host) (v : VcpuView) : ExitAction × VcpuView :=
  if v.g.cfg.noHwGeret = false ∧ v.s.ctx.TrappedEret then
    let v := v.sync host 1
    if eretIsGuarded v.s.ctx then (.keepRunning, { v with s := handEretToHardware v.s })
    else softEret reason host v
  else softEret reason host v

def VcpuView.InjectsHvc (v : VcpuView) : Prop :=
  v.s.ctx.exitEc = 0x16 ∧ v.s.guestAtEl2 = false ∧ v.g.cfg.noEl2Injection = false

instance (v : VcpuView) : Decidable v.InjectsHvc := inferInstanceAs (Decidable (_ ∧ _))

/-- `case 1`, and what a trapped access no block answered falls through to. -/
def syncException (reason : BitVec 32) (host : Host) (v : VcpuView) : ExitAction × VcpuView :=
  if v.g.cfg.spinWfi ∧ v.s.ctx.exitEc = 0x1 then (.keepRunning, v.skip)
  else if v.InjectsHvc then
    (.keepRunning, { v with s := enterGuestEl2 v.s v.s.ctx.exitEsr (v.s.ctx.pc + 4) })
  else guardedEret reason host v

def msrTrap (host : Host) (v : VcpuView) : ExitAction × VcpuView :=
  if v.s.ctx.exitEc = 0x18 then
    match serviceNv2Access host v.s.ctx.exitEsr v with
    | (true, after) => (.keepRunning, after)
    | (false, after) => syncException 8 host after
  else syncException 8 host v

def dispatchExit (host : Host) (v : VcpuView) : ExitAction × VcpuView :=
  match v.s.ctx.exitReason.toNat with
  | 0 => (.toVmm, { v with s := v.s.setExit .canceled })
  | 2 | 7 | 11 | 12 => (.keepRunning, v)
  | 3 | 4 => physicalInterrupt v
  | 8 => msrTrap host v
  | 1 => syncException 1 host v
  | 6 => reportException 6 host v
  | _ => (.toVmm, { v with s := v.s.setExit .unknown })

def exitFromRo (host : Host) (v : VcpuView) : ExitAction × VcpuView :=
  dispatchExit host { v with s := arriveExit v.g.cfg host v.s }

/-! ## The frame

What an exit may touch of the slot.  The levels the VMM asked for, the parked
flag, the band, the due timers and the latched cancel are none of its business:
they reach the next entry as they were. -/

structure ExitOnly (before after : VcpuView) : Prop where
  slot : after.s = { before.s with
    ctx := after.s.ctx
    pubExit := after.s.pubExit
    el2Shadow := after.s.el2Shadow
    nvOffForGeret := after.s.nvOffForGeret
    vmTmrFiqEna := after.s.vmTmrFiqEna
    gl2Bank := after.s.gl2Bank
    ctrr := after.s.ctrr
    ctxTrace := after.s.ctxTrace
    lastReason := after.s.lastReason
    lastEsr := after.s.lastEsr
    appleShadow := after.s.appleShadow
    gicIf := after.s.gicIf
    gicIfReady := after.s.gicIfReady
    guestAtEl2 := after.s.guestAtEl2 }
  globals : after.g = { before.g with
    nv2Caps := after.g.nv2Caps
    pstateHeld := after.g.pstateHeld }

namespace ExitOnly

variable {first second third v : VcpuView}

theorem refl (v : VcpuView) : ExitOnly v v := ⟨rfl, rfl⟩

theorem trans (left : ExitOnly first second) (right : ExitOnly second third) :
    ExitOnly first third where
  slot := by rw [right.slot, left.slot]
  globals := by rw [right.globals, left.globals]

theorem ofEmulated (only : EmulatedOnly first second) : ExitOnly first second where
  slot := by rw [only.slot]
  globals := by rw [only.globals]

theorem arriveExit (host : Host) (v : VcpuView) :
    ExitOnly v { v with s := OpenHypervisor.arriveExit v.g.cfg host v.s } := by
  have restored : ExitOnly v { v with s := restoreNv v.s } := by
    unfold restoreNv
    split <;> exact ⟨rfl, rfl⟩
  have mirrored : ∀ s, ExitOnly { v with s := s } { v with s := mirrorGl1 v.g.cfg host s } := by
    intro s
    unfold mirrorGl1
    split
    · simp only
      split <;> exact ⟨rfl, rfl⟩
    · exact refl _
  have rearmed : ∀ s, ExitOnly { v with s := s } { v with s := rearmNv v.g.cfg s } := by
    intro s
    unfold rearmNv
    split <;> exact ⟨rfl, rfl⟩
  have recorded : ∀ s, ExitOnly { v with s := s } { v with s := recordExit s } :=
    fun s => ⟨rfl, rfl⟩
  exact ((restored.trans (mirrored _)).trans (rearmed _)).trans (recorded _)

theorem physicalInterrupt (v : VcpuView) : ExitOnly v (OpenHypervisor.physicalInterrupt v).2 := by
  unfold OpenHypervisor.physicalInterrupt
  split <;> exact ⟨rfl, rfl⟩

theorem reportException (reason : BitVec 32) (host : Host) (v : VcpuView) :
    ExitOnly v (OpenHypervisor.reportException reason host v).2 := by
  have msr : ExitOnly v { v with s := synthMsrTrapSyndrome host v } := by
    unfold synthMsrTrapSyndrome
    split
    · split <;> exact ⟨rfl, rfl⟩
    · exact refl v
  have guarded : ExitOnly v { v with s := synthGuardedExitSyndrome host v } := by
    unfold synthGuardedExitSyndrome
    split
    · split <;> exact ⟨rfl, rfl⟩
    · exact refl v
  have reported : ∀ s, ExitOnly { v with s := s } { v with s := s.setExit .exception } :=
    fun s => ⟨rfl, rfl⟩
  unfold OpenHypervisor.reportException
  simp only
  split
  · split
    · exact msr.trans (reported _)
    · split
      · exact guarded.trans (reported _)
      · exact reported _
  · exact reported _

theorem sync (host : Host) (k : Nat) (v : VcpuView) : ExitOnly v (v.sync host k) := ⟨rfl, rfl⟩

theorem completeEret (v : VcpuView) :
    ExitOnly v { v with s := OpenHypervisor.completeEret v.s } := by
  unfold OpenHypervisor.completeEret
  simp only
  split
  · exact ⟨rfl, rfl⟩
  · split <;> exact ⟨rfl, rfl⟩

theorem softEret (reason : BitVec 32) (host : Host) (v : VcpuView) :
    ExitOnly v (OpenHypervisor.softEret reason host v).2 := by
  unfold OpenHypervisor.softEret
  split
  · simp only
    split
    · exact (sync host 2 v).trans (completeEret _)
    · exact (sync host 2 v).trans (reportException _ _ _)
  · exact reportException _ _ _

theorem guardedEret (reason : BitVec 32) (host : Host) (v : VcpuView) :
    ExitOnly v (OpenHypervisor.guardedEret reason host v).2 := by
  unfold OpenHypervisor.guardedEret
  split
  · simp only
    split
    · exact ⟨rfl, rfl⟩
    · exact (sync host 1 v).trans (softEret _ _ _)
  · exact softEret _ _ _

theorem syncException (reason : BitVec 32) (host : Host) (v : VcpuView) :
    ExitOnly v (OpenHypervisor.syncException reason host v).2 := by
  unfold OpenHypervisor.syncException
  split
  · exact ⟨rfl, rfl⟩
  · split
    · exact ⟨rfl, rfl⟩
    · exact guardedEret _ _ _

theorem serviceNv2Access (host : Host) (esr : Word) (v : VcpuView) :
    ExitOnly v (OpenHypervisor.serviceNv2Access host esr v).2 := by
  by_cases handoff : (SysAccess.ofEsr esr).IsHandoff
  · rw [serviceNv2Access_handoff host esr v handoff]
    exact ⟨rfl, rfl⟩
  · exact ofEmulated (serviceNv2Access_frame host esr v handoff)

theorem msrTrap (host : Host) (v : VcpuView) :
    ExitOnly v (OpenHypervisor.msrTrap host v).2 := by
  unfold OpenHypervisor.msrTrap
  split
  · have serviced := serviceNv2Access host v.s.ctx.exitEsr v
    revert serviced
    rcases OpenHypervisor.serviceNv2Access host v.s.ctx.exitEsr v with ⟨carried, after⟩
    intro serviced
    cases carried with
    | true => exact serviced
    | false => exact serviced.trans (syncException 8 host after)
  · exact syncException 8 host v

theorem dispatchExit (host : Host) (v : VcpuView) :
    ExitOnly v (OpenHypervisor.dispatchExit host v).2 := by
  unfold OpenHypervisor.dispatchExit
  split
  case h_1 | h_11 => exact ⟨rfl, rfl⟩
  case h_2 | h_3 | h_4 | h_5 => exact refl v
  case h_6 | h_7 => exact physicalInterrupt v
  case h_8 => exact msrTrap host v
  case h_9 => exact syncException 1 host v
  case h_10 => exact reportException 6 host v

theorem exitFromRo (host : Host) (v : VcpuView) :
    ExitOnly v (OpenHypervisor.exitFromRo host v).2 :=
  (arriveExit host v).trans (dispatchExit host _)

end ExitOnly

end OpenHypervisor
