import OpenHypervisor.Stage1

/-!
# Trapped system register accesses

`service_nv2_access`.  The function is a sequence of blocks, each with its own
test on the decoded access; the first whose test holds answers.  A block says
`true` when the access was carried out and the guest stepped past it, `false`
when the exit goes to the VMM.

After the function, the edits an access may make of the state, each with when it
makes it: what survives every one of them survives the access.  At the end, the
frame: whatever block answers, the run controls and the record of who is at guest
EL2 stay as they are, with the handoff register as the one exception.
-/

set_option autoImplicit false

namespace OpenHypervisor

/-! ## The decoded access -/

structure SysAccess where
  op0 : BitVec 2
  op1 : BitVec 3
  crn : BitVec 4
  crm : BitVec 4
  op2 : BitVec 3
  rt : BitVec 5
  read : Bool
  deriving DecidableEq, Repr

namespace SysAccess

def ofEsr (esr : Word) : SysAccess where
  op0 := esr.extractLsb' 20 2
  op1 := esr.extractLsb' 14 3
  crn := esr.extractLsb' 10 4
  crm := esr.extractLsb' 1 4
  op2 := esr.extractLsb' 17 3
  rt := esr.extractLsb' 5 5
  read := esr.getLsbD 0

def enc (a : SysAccess) : BitVec 16 := a.op0 ++ a.op1 ++ a.crn ++ a.crm ++ a.op2

end SysAccess

namespace Ctx

/-- The register operand, register 31 being the zero register. -/
def readRt (c : Ctx) (rt : BitVec 5) : Word := if rt = 31 then 0 else c.x rt.toNat
def writeRt (c : Ctx) (rt : BitVec 5) (value : Word) : Ctx :=
  if rt = 31 then c else c.setX rt.toNat value

theorem Keeps.writeRt {before c : Ctx} (same : Keeps before c) (rt : BitVec 5)
    (value : Word) : Keeps before (c.writeRt rt value) := by
  unfold Ctx.writeRt
  split
  · exact same
  · exact same.setX rt.toNat value rt.isLt

end Ctx

abbrev AccessBlock := Host → SysAccess → VcpuView → Option (Bool × VcpuView)

def answered (v : VcpuView) : Option (Bool × VcpuView) := some (true, v.skip)

def refused (v : VcpuView) : Option (Bool × VcpuView) := some (false, v)

/-- The shape most blocks end in: a register that reads back what was written. -/
def registerAccess (a : SysAccess) (v : VcpuView) (value : Word)
    (write : Word → VcpuView) : Option (Bool × VcpuView) :=
  if a.read then answered (v.setCtx (v.s.ctx.writeRt a.rt value))
  else answered (write (v.s.ctx.readRt a.rt))

/-! ## The blocks -/

def amxidrAccess : AccessBlock := fun _ a v =>
  if a.op0 = 3 ∧ a.op1 = 6 ∧ a.crn = 15 ∧ a.crm = 2 ∧ a.op2 = 7 ∧ a.read then
    answered (v.setCtx (v.s.ctx.writeRt a.rt (v.g.cfg.amxidr.getD 1)))
  else none

/-- `s3_6_c15_c15_7` written: the boot ROM says that the monitor runs next. -/
def SysAccess.IsHandoff (a : SysAccess) : Prop :=
  a.op0 = 3 ∧ a.op1 = 6 ∧ a.crn = 15 ∧ a.crm = 15 ∧ a.op2 = 7 ∧ a.read = false

instance (a : SysAccess) : Decidable a.IsHandoff := inferInstanceAs (Decidable (_ ∧ _))

def handoffAccess : AccessBlock := fun _ a v =>
  if a.IsHandoff then
    answered { v with s := { v.s.armNv with guestAtEl2 := true } }
  else none

def gxfAccess : AccessBlock := fun _ a v =>
  if a.op0 = 3 ∧ a.op1 = 6 ∧ a.crn = 15 ∧
      ((a.crm = 1 ∧ a.op2 = 2) ∨ (a.crm = 8 ∧ (a.op2 = 1 ∨ a.op2 = 2))) then
    let ext := if a.crm = 1 then 42 else if a.op2 = 1 then 43 else 44
    registerAccess a v (v.s.ctx.ext ext) fun value =>
      v.setCtx ((v.s.ctx.setExt ext value).markDirty ohvStateGxf)
  else none

/-- CLIDR_EL1, CCSIDR_EL1 and CSSELR_EL1.  The capabilities are asked for once
and kept, whatever the trap said. -/
def cacheIdAccess : AccessBlock := fun host a v =>
  if a.op0 = 3 ∧ a.crn = 0 ∧ a.crm = 0 ∧
      ((a.op1 = 1 ∧ (a.op2 = 0 ∨ a.op2 = 1)) ∨ (a.op1 = 2 ∧ a.op2 = 0)) then
    let caps := v.g.nv2Caps.getD host.caps
    let v := { v with g := { v.g with nv2Caps := some caps } }
    let csselr := v.s.ctx.shared 7
    if a.op1 = 2 then
      registerAccess a v csselr fun value =>
        v.setCtx ((v.s.ctx.setShared 7 value).markDirty ohvStateSysregs)
    else if a.read then
      let level := (csselr.extractLsb' 1 3).toNat
      let value :=
        if a.op2 = 1 then caps.clidrEl1
        else if csselr.getLsbD 0 then caps.ccsidrEl1Inst level
        else caps.ccsidrEl1DataOrUnified level
      answered (v.setCtx (v.s.ctx.writeRt a.rt value))
    else refused v
  else none

def counterAccess : AccessBlock := fun host a v =>
  if a.op0 = 3 ∧ a.op1 = 3 ∧ a.crn = 14 ∧ a.crm = 0 ∧ a.read then
    if a.op2 = 1 ∨ a.op2 = 2 then
      answered (v.setCtx (v.s.ctx.writeRt a.rt (host.now - v.s.ctx.vtimerOffset)))
    else if a.op2 = 0 then
      answered (v.setCtx (v.s.ctx.writeRt a.rt host.cntfrq))
    else refused v
  else none

/-- CNTP_* and CNTV_*.  The compare value is kept in the host's counter; TVAL is
the distance from now to it.  The banked control word of the physical timer is
cleared before the register is even looked at. -/
def timerAccess : AccessBlock := fun host a v =>
  if a.op0 = 3 ∧ a.op1 = 3 ∧ a.crn = 14 ∧ (a.crm = 2 ∨ a.crm = 3) then
    let physical := decide (a.crm = 2)
    let v := if physical then v.setCtx (v.s.ctx.setBanked 19 0) else v
    let cval := VcpuSlot.timerCvalIndex physical
    let off := v.s.ctx.vtimerOffset
    let commit := fun (s : VcpuSlot) => { v with s := s.markDirty ohvStateSysregs }
    if a.op2 = 0 then
      registerAccess a v (v.s.ctx.banked cval - host.now) fun value =>
        let due := host.now + (value.extractLsb' 0 32).signExtend 64
        commit { v.s with ctx := v.s.ctx.setBanked cval due }
    else if a.op2 = 1 then
      registerAccess a v (v.s.timerCtl physical) fun value =>
        commit (v.s.setTimerCtl physical value)
    else if a.op2 = 2 then
      registerAccess a v (v.s.ctx.banked cval - off) fun value =>
        commit { v.s with ctx := v.s.ctx.setBanked cval (value + off) }
    else refused v
  else none

/-- ICC_* and ICV_* at EL1 and ICH_* at EL2, with the priority mask, which lives
in c4. -/
def isGicInterfaceReg (a : SysAccess) : Bool :=
  decide (a.op0 = 3) &&
    (decide (a.crn = 12 ∧ (a.op1 = 0 ∨ a.op1 = 4) ∧ 8 ≤ a.crm ∧ a.crm ≤ 12) ||
      decide (a.crn = 4 ∧ a.op1 = 0 ∧ a.crm = 6 ∧ a.op2 = 0))

/-- `gic_if_slot`: the interface comes up with ICC_SRE_EL1 reading 7. -/
def gicIfReady (s : VcpuSlot) : VcpuSlot :=
  if s.gicIfReady then s
  else { s with gicIfReady := true, gicIf := [(0xc665#16, 7#64)] }

def gicInterfaceAccess : AccessBlock := fun _ a v =>
  if isGicInterfaceReg a then
    let v := { v with s := gicIfReady v.s }
    match RegFile.alloc 48 v.s.gicIf a.enc 0 with
    | none => refused v
    | some file =>
        let v := { v with s := { v.s with gicIf := file } }
        registerAccess a v ((RegFile.get file a.enc).getD 0) fun value =>
          { v with s := { v.s with gicIf := RegFile.set file a.enc value } }
  else none

def atAccess : AccessBlock := fun host a v =>
  if a.op0 = 1 ∧ (a.op1 = 4 ∨ a.op1 = 0) ∧ a.crn = 7 ∧ (a.crm = 8 ∨ a.crm = 9) then
    let par := ohvTranslateStage1 v.g.maps host.mem v.s (v.s.ctx.readRt a.rt)
    answered (v.setCtx ((v.s.ctx.setShared 6 par).markDirty ohvStateSysregs))
  else none

/-- The EL2 cache and TLB maintenance instructions, which only have to complete. -/
def maintenanceAccess : AccessBlock := fun _ a v =>
  if a.op0 = 1 ∧ a.op1 = 4 then answered v else none

/-- S3_3_C4_C2_6, a PSTATE field this host does not have. -/
def pstateAccess : AccessBlock := fun _ a v =>
  if a.op0 = 3 ∧ a.op1 = 3 ∧ a.crn = 4 ∧ a.crm = 2 ∧ a.op2 = 6 then
    registerAccess a v v.g.pstateHeld fun value =>
      { v with g := { v.g with pstateHeld := value } }
  else none

def gl2Access : AccessBlock := fun _ a v =>
  if a.op0 = 3 ∧ a.op1 = 6 ∧ a.crn = 15 ∧ a.crm = 11 then
    let op2 := a.op2.toNat
    registerAccess a v (v.s.gl2Bank op2) fun value =>
      { v with s := { v.s with gl2Bank := Function.update v.s.gl2Bank op2 value } }
  else none

/-- VM_TMR_FIQ_ENA_EL2. -/
def tmrFiqEnaAccess : AccessBlock := fun _ a v =>
  if a.op0 = 3 ∧ a.op1 = 5 ∧ a.crn = 15 ∧ a.crm = 1 ∧ a.op2 = 3 then
    registerAccess a v v.s.vmTmrFiqEna fun value =>
      { v with s := { v.s with vmTmrFiqEna := value } }
  else none

/-- The CTRR bank, one register with two names: CRm 6, op2 4 and 5, are CRm 2,
op2 3 and 4. -/
def ctrrAccess : AccessBlock := fun _ a v =>
  if a.op0 = 3 ∧ a.op1 = 4 ∧ a.crn = 15 ∧
      ((a.crm = 2 ∧ 2 ≤ a.op2 ∧ a.op2 ≤ 5) ∨ (a.crm = 6 ∧ (a.op2 = 4 ∨ a.op2 = 5))) then
    let sel : BitVec 8 := (if a.crm = 6 then a.op2 - 1 else a.op2).zeroExtend 8
    match RegFile.alloc 6 v.s.ctrr sel 0 with
    | none => refused v
    | some file =>
        let v := { v with s := { v.s with ctrr := file } }
        registerAccess a v ((RegFile.get file sel).getD 0) fun value =>
          { v with s := { v.s with ctrr := RegFile.set file sel value } }
  else none

def ctxTraceAccess : AccessBlock := fun _ a v =>
  if a.op0 = 3 ∧ a.crn = 15 ∧ a.op1 = 5 ∧
      ((a.crm = 1 ∧ a.op2 = 4) ∨ (a.crm = 10 ∧ a.op2 = 1)) then
    let slot := if a.crm = 1 then 0 else 1
    registerAccess a v (v.s.ctxTrace slot) fun value =>
      { v with s := { v.s with ctxTrace := Function.update v.s.ctxTrace slot value } }
  else none

/-- Everything else Apple defines at CRn 15 under op1 0 and under op1 4, CRm 10.
Two of these are counters, and writing one is stepped over. -/
def appleShadowAccess : AccessBlock := fun host a v =>
  if a.op0 = 3 ∧ (a.op1 = 0 ∨ (a.op1 = 4 ∧ a.crm = 10)) then
    if a.op1 = 4 ∧ a.crm = 10 ∧ (a.op2 = 5 ∨ a.op2 = 6) then
      registerAccess a v (host.now - v.s.ctx.vtimerOffset) fun _ => v
    else if a.crn ≠ 15 then refused v
    else
      match RegFile.alloc 96 v.s.appleShadow a.enc 0 with
      | none => refused v
      | some file =>
          let v := { v with s := { v.s with appleShadow := file } }
          registerAccess a v ((RegFile.get file a.enc).getD 0) fun value =>
            { v with s := { v.s with appleShadow := RegFile.set file a.enc value } }
  else none

structure Nv2Reg where
  enc : BitVec 16
  ctxOff : Nat
  banked : Bool
  deriving DecidableEq, Repr

def Nv2Reg.vncr (enc : BitVec 16) (off : Nat) : Nv2Reg := ⟨enc, ohvVncrBase + off, false⟩
def Nv2Reg.ofBanked (enc : BitVec 16) (i : Nat) : Nv2Reg :=
  ⟨enc, ohvRwBankedSysregs + i * 8, true⟩

/-- Where a guest hypervisor's EL2 register actually lives. -/
def kNv2Regs : List Nv2Reg := [
  .ofBanked 0xe080 12, .ofBanked 0xe08a 13, .ofBanked 0xe100 0, .ofBanked 0xe101 1,
  .ofBanked 0xe102 2, .ofBanked 0xe510 6, .ofBanked 0xe518 7, .ofBanked 0xe681 17,
  .ofBanked 0xe200 14, .ofBanked 0xe201 3, .ofBanked 0xe300 4, .ofBanked 0xe290 5,
  .vncr 0xe000 0x088, .vncr 0xe005 0x050, .vncr 0xe088 0x078, .vncr 0xe089 0x130,
  .vncr 0xe08b 0x080, .vncr 0xe108 0x020, .vncr 0xe10a 0x040, .vncr 0xe304 0x1f8,
  .vncr 0xe682 0x090, .vncr 0xe703 0x060, .vncr 0xe708 0x0e0, .vncr 0xe600 0x250]

def nv2Lookup (enc : BitVec 16) : Option Nv2Reg := kNv2Regs.find? fun r => r.enc == enc

theorem nv2Lookup_row {enc : BitVec 16} {r : Nv2Reg} (found : nv2Lookup enc = some r) :
    r ∈ kNv2Regs ∧ r.enc = enc :=
  ⟨List.mem_of_find?_eq_some found,
    eq_of_beq (List.find?_some (p := fun r : Nv2Reg => r.enc == enc) found)⟩

def nv2RegAccess : AccessBlock := fun _ a v =>
  match (if a.op1 = 4 ∧ a.op0 = 3 then nv2Lookup a.enc else none) with
  | none => none
  | some r =>
      registerAccess a v (v.s.ctx.word r.ctxOff) fun value =>
        let ctx := v.s.ctx.put r.ctxOff value
        v.setCtx (if r.banked then ctx.markDirty ohvStateSysregs else ctx)

/-! ## The whole function -/

/-- The blocks in the order of the source. -/
def accessBlocks : List AccessBlock := [
  amxidrAccess, handoffAccess, gxfAccess, cacheIdAccess, counterAccess, timerAccess,
  gicInterfaceAccess, atAccess, maintenanceAccess, pstateAccess, gl2Access, tmrFiqEnaAccess,
  ctrrAccess, ctxTraceAccess, appleShadowAccess, nv2RegAccess]

def serviceNv2Access (host : Host) (esr : Word) (v : VcpuView) : Bool × VcpuView :=
  (accessBlocks.findSome? fun block => block host (.ofEsr esr) v).getD (false, v)

/-! ## What an access writes -/

namespace SysAccess

def IsTimer (a : SysAccess) : Prop :=
  a.op0 = 3 ∧ a.op1 = 3 ∧ a.crn = 14 ∧ (a.crm = 2 ∨ a.crm = 3)

instance (a : SysAccess) : Decidable a.IsTimer := inferInstanceAs (Decidable (_ ∧ _))

def IsGuarded (a : SysAccess) (n : Nat) : Prop :=
  a.op0 = 3 ∧ a.op1 = 6 ∧ a.crn = 15 ∧
    (a.crm = 1 ∧ a.op2 = 2 ∧ n = 42 ∨
      a.crm = 8 ∧ (a.op2 = 1 ∧ n = 43 ∨ a.op2 = 2 ∧ n = 44))

def IsCsselr (a : SysAccess) : Prop :=
  a.op0 = 3 ∧ a.op1 = 2 ∧ a.crn = 0 ∧ a.crm = 0 ∧ a.op2 = 0

def Translates (a : SysAccess) : Prop :=
  a.op0 = 1 ∧ (a.op1 = 4 ∨ a.op1 = 0) ∧ a.crn = 7 ∧ (a.crm = 8 ∨ a.crm = 9)

end SysAccess

structure SameButEmulated (before after : VcpuView) : Prop where
  slot : after.s = { before.s with
    vmTmrFiqEna := after.s.vmTmrFiqEna
    gl2Bank := after.s.gl2Bank
    ctrr := after.s.ctrr
    ctxTrace := after.s.ctxTrace
    appleShadow := after.s.appleShadow
    gicIf := after.s.gicIf
    gicIfReady := after.s.gicIfReady }
  globals : after.g = { before.g with
    nv2Caps := after.g.nv2Caps
    pstateHeld := after.g.pstateHeld }

theorem SameButEmulated.ctx {before after : VcpuView} (same : SameButEmulated before after) :
    after.s.ctx = before.s.ctx := by
  rw [same.slot]

/-- What survives every edit an access makes of the state before the guest steps
past the instruction. -/
structure SysAccess.Writes (a : SysAccess) (P : VcpuView → Prop) : Prop where
  operand : a.read = true → ∀ v value, P v → P (v.setCtx (v.s.ctx.writeRt a.rt value))
  emulated : ∀ v w, P v → SameButEmulated v w → P w
  handoff : a.IsHandoff → ∀ v, P v → P { v with s := { v.s.armNv with guestAtEl2 := true } }
  guarded : a.read = false → ∀ n, a.IsGuarded n → ∀ v value, P v →
    P (v.setCtx ((v.s.ctx.setExt n value).markDirty ohvStateGxf))
  csselr : a.read = false → a.IsCsselr → ∀ v value, P v →
    P (v.setCtx ((v.s.ctx.setShared 7 value).markDirty ohvStateSysregs))
  par : a.Translates → ∀ v value, P v →
    P (v.setCtx ((v.s.ctx.setShared 6 value).markDirty ohvStateSysregs))
  disarm : a.IsTimer → a.crm = 2 → ∀ v, P v → P (v.setCtx (v.s.ctx.setBanked 19 0))
  control : a.read = false → a.IsTimer → a.op2 = 1 → ∀ v value, P v →
    P { v with s := (v.s.setTimerCtl (decide (a.crm = 2)) value).markDirty ohvStateSysregs }
  compare : a.read = false → a.IsTimer → a.op2 = 0 ∨ a.op2 = 2 → ∀ v value, P v →
    P (v.setCtx ((v.s.ctx.setBanked (VcpuSlot.timerCvalIndex (decide (a.crm = 2)))
      value).markDirty ohvStateSysregs))
  el2 : a.read = false → a.op1 = 4 ∧ a.op0 = 3 → ∀ r, nv2Lookup a.enc = some r → ∀ v value, P v →
    P (v.setCtx (if r.banked then (v.s.ctx.put r.ctxOff value).markDirty ohvStateSysregs
      else v.s.ctx.put r.ctxOff value))

structure SysAccess.Edits (a : SysAccess) (P : VcpuView → Prop) : Prop extends a.Writes P where
  skip : ∀ v, P v → P v.skip

/-- A state an access was refused in: nothing but the capabilities was asked for,
and at most the physical timer's banked control word was cleared. -/
def Declined (host : Host) (v w : VcpuView) : Prop :=
  w = v ∨ w = { v with g := { v.g with nv2Caps := some (v.g.nv2Caps.getD host.caps) } } ∨
    w = v.setCtx (v.s.ctx.setBanked 19 0)

/-- How an access ends: carried out, with one step past the instruction, or
refused. -/
def Ended (host : Host) (v : VcpuView) (P : VcpuView → Prop) (carried : Bool) (after : VcpuView) :
    Prop :=
  ∃ w, P w ∧ (carried = true ∧ after = w.skip ∨ carried = false ∧ after = w ∧ Declined host v w)

section Endings

variable {host : Host} {P : VcpuView → Prop} {a : SysAccess} {v base after : VcpuView}
  {carried : Bool}

theorem refused_ends (holds : P base) (left : Declined host v base)
    (taken : refused base = some (carried, after)) : Ended host v P carried after := by
  simp only [refused, Option.some.injEq, Prod.mk.injEq] at taken
  obtain ⟨rfl, rfl⟩ := taken
  exact ⟨base, holds, Or.inr ⟨rfl, rfl, left⟩⟩

theorem answered_ends (holds : P base) (taken : answered base = some (carried, after)) :
    Ended host v P carried after := by
  simp only [answered, Option.some.injEq, Prod.mk.injEq] at taken
  obtain ⟨rfl, rfl⟩ := taken
  exact ⟨base, holds, Or.inl ⟨rfl, rfl⟩⟩

theorem answered_writeRt_ends {value : Word} (writes : a.Writes P) (reads : a.read = true)
    (holds : P base)
    (taken : answered (base.setCtx (base.s.ctx.writeRt a.rt value)) = some (carried, after)) :
    Ended host v P carried after :=
  answered_ends (writes.operand reads base value holds) taken

theorem registerAccess_ends {value : Word} {write : Word → VcpuView} (writes : a.Writes P)
    (holds : P base) (written : a.read = false → ∀ value, P (write value))
    (taken : registerAccess a base value write = some (carried, after)) :
    Ended host v P carried after := by
  unfold registerAccess at taken
  split at taken
  · rename_i reads
    exact answered_writeRt_ends writes reads holds taken
  · rename_i other
    exact answered_ends (written (Bool.not_eq_true _ ▸ other) _) taken

end Endings

def AccessBlock.Ends (block : AccessBlock) : Prop :=
  ∀ (P : VcpuView → Prop) host a v carried after, a.Writes P → P v →
    block host a v = some (carried, after) → Ended host v P carried after

theorem amxidrAccess_ends : AccessBlock.Ends amxidrAccess := by
  intro P host a v carried after writes holds taken
  unfold amxidrAccess at taken
  split at taken
  · rename_i amxidr
    exact answered_writeRt_ends writes amxidr.2.2.2.2.2 holds taken
  · cases taken

theorem handoffAccess_eq_some {host : Host} {a : SysAccess} {v after : VcpuView} {carried : Bool}
    (taken : handoffAccess host a v = some (carried, after)) :
    a.IsHandoff ∧ carried = true ∧
      after = VcpuView.skip { v with s := { v.s.armNv with guestAtEl2 := true } } := by
  unfold handoffAccess at taken
  split at taken
  · rename_i handoff
    simp only [answered, Option.some.injEq, Prod.mk.injEq] at taken
    exact ⟨handoff, taken.1.symm, taken.2.symm⟩
  · cases taken

theorem handoffAccess_ends : AccessBlock.Ends handoffAccess := by
  intro P host a v carried after writes holds taken
  obtain ⟨handoff, rfl, rfl⟩ := handoffAccess_eq_some taken
  exact ⟨_, writes.handoff handoff v holds, Or.inl ⟨rfl, rfl⟩⟩

theorem gxfAccess_ends : AccessBlock.Ends gxfAccess := by
  intro P host a v carried after writes holds taken
  unfold gxfAccess at taken
  split at taken
  · rename_i guarded
    obtain ⟨op0, op1, crn, which⟩ := guarded
    refine registerAccess_ends writes holds (fun stores value => ?_) taken
    apply writes.guarded stores _ _ v value holds
    refine ⟨op0, op1, crn, ?_⟩
    rcases which with ⟨crm, op2⟩ | ⟨crm, op2 | op2⟩
    · exact Or.inl ⟨crm, op2, if_pos crm⟩
    · refine Or.inr ⟨crm, Or.inl ⟨op2, ?_⟩⟩
      rw [crm, if_neg (by decide), if_pos op2]
    · refine Or.inr ⟨crm, Or.inr ⟨op2, ?_⟩⟩
      rw [crm, op2, if_neg (by decide), if_neg (by decide)]
  · cases taken

theorem cacheIdAccess_ends : AccessBlock.Ends cacheIdAccess := by
  intro P host a v carried after writes holds taken
  unfold cacheIdAccess at taken
  have asked : ∀ caps, P { v with g := { v.g with nv2Caps := caps } } :=
    fun _ => writes.emulated v _ holds ⟨rfl, rfl⟩
  split at taken
  · rename_i cache
    simp only at taken
    split at taken
    · rename_i csselr
      refine registerAccess_ends writes (asked _) (fun stores value => ?_) taken
      have op2 : a.op2 = 0 := by
        rcases cache.2.2.2 with ⟨op1, -⟩ | ⟨-, op2⟩
        · rw [csselr] at op1
          exact absurd op1 (by decide)
        · exact op2
      exact writes.csselr stores ⟨cache.1, csselr, cache.2.1, cache.2.2.1, op2⟩ _ value (asked _)
    · split at taken
      · rename_i reads
        exact answered_writeRt_ends writes reads (asked _) taken
      · exact refused_ends (asked _) (Or.inr (Or.inl rfl)) taken
  · cases taken

theorem counterAccess_ends : AccessBlock.Ends counterAccess := by
  intro P host a v carried after writes holds taken
  unfold counterAccess at taken
  split at taken
  · rename_i counter
    have reads := counter.2.2.2.2
    split at taken
    · exact answered_writeRt_ends writes reads holds taken
    · split at taken
      · exact answered_writeRt_ends writes reads holds taken
      · exact refused_ends holds (Or.inl rfl) taken
  · cases taken

theorem timerAccess_ends : AccessBlock.Ends timerAccess := by
  intro P host a v carried after writes holds taken
  unfold timerAccess at taken
  split at taken
  · rename_i timer
    simp only at taken
    generalize disarmed : (if decide (a.crm = 2) = true then v.setCtx (v.s.ctx.setBanked 19 0)
      else v) = base at taken
    have started : P base := by
      rw [← disarmed]
      split
      · rename_i physical
        exact writes.disarm timer (of_decide_eq_true physical) v holds
      · exact holds
    split at taken
    · rename_i tval
      exact registerAccess_ends writes started
        (fun stores value => writes.compare stores timer (Or.inl tval) base _ started) taken
    · split at taken
      · rename_i ctl
        exact registerAccess_ends writes started
          (fun stores value => writes.control stores timer ctl base value started) taken
      · split at taken
        · rename_i cval
          exact registerAccess_ends writes started
            (fun stores value => writes.compare stores timer (Or.inr cval) base _ started) taken
        · refine refused_ends started ?_ taken
          rw [← disarmed]
          split
          · exact Or.inr (Or.inr rfl)
          · exact Or.inl rfl
  · cases taken

theorem gicIfReady_of_full {s : VcpuSlot} {enc : BitVec 16}
    (full : RegFile.alloc 48 (gicIfReady s).gicIf enc 0 = none) : gicIfReady s = s := by
  have long := RegFile.length_of_alloc_none full
  unfold gicIfReady at long ⊢
  split at long
  · rename_i ready
    exact if_pos ready
  · simp only [List.length_cons, List.length_nil] at long
    omega

theorem gicInterfaceAccess_ends : AccessBlock.Ends gicInterfaceAccess := by
  intro P host a v carried after writes holds taken
  unfold gicInterfaceAccess at taken
  have ready : ∀ file, P { v with s := { gicIfReady v.s with gicIf := file } } := by
    intro file
    refine writes.emulated v _ holds ?_
    unfold gicIfReady
    split <;> exact ⟨rfl, rfl⟩
  split at taken
  · simp only at taken
    split at taken
    · rename_i full
      have same := gicIfReady_of_full full
      rw [same] at taken
      exact refused_ends holds (Or.inl rfl) taken
    · exact registerAccess_ends writes (ready _) (fun _ value => ready _) taken
  · cases taken

theorem atAccess_ends : AccessBlock.Ends atAccess := by
  intro P host a v carried after writes holds taken
  unfold atAccess at taken
  split at taken
  · rename_i translates
    exact answered_ends (writes.par translates v _ holds) taken
  · cases taken

theorem maintenanceAccess_ends : AccessBlock.Ends maintenanceAccess := by
  intro P host a v carried after writes holds taken
  unfold maintenanceAccess at taken
  split at taken
  · exact answered_ends holds taken
  · cases taken

theorem pstateAccess_ends : AccessBlock.Ends pstateAccess := by
  intro P host a v carried after writes holds taken
  unfold pstateAccess at taken
  split at taken
  · refine registerAccess_ends writes holds (fun _ value => ?_) taken
    exact writes.emulated v _ holds ⟨rfl, rfl⟩
  · cases taken

theorem gl2Access_ends : AccessBlock.Ends gl2Access := by
  intro P host a v carried after writes holds taken
  unfold gl2Access at taken
  split at taken
  · refine registerAccess_ends writes holds (fun _ value => ?_) taken
    exact writes.emulated v _ holds ⟨rfl, rfl⟩
  · cases taken

theorem tmrFiqEnaAccess_ends : AccessBlock.Ends tmrFiqEnaAccess := by
  intro P host a v carried after writes holds taken
  unfold tmrFiqEnaAccess at taken
  split at taken
  · refine registerAccess_ends writes holds (fun _ value => ?_) taken
    exact writes.emulated v _ holds ⟨rfl, rfl⟩
  · cases taken

theorem ctrrAccess_ends : AccessBlock.Ends ctrrAccess := by
  intro P host a v carried after writes holds taken
  unfold ctrrAccess at taken
  have held : ∀ file, P { v with s := { v.s with ctrr := file } } :=
    fun file => writes.emulated v _ holds ⟨rfl, rfl⟩
  split at taken
  · simp only at taken
    split at taken
    · exact refused_ends holds (Or.inl rfl) taken
    · exact registerAccess_ends writes (held _) (fun _ value => held _) taken
  · cases taken

theorem ctxTraceAccess_ends : AccessBlock.Ends ctxTraceAccess := by
  intro P host a v carried after writes holds taken
  unfold ctxTraceAccess at taken
  split at taken
  · refine registerAccess_ends writes holds (fun _ value => ?_) taken
    exact writes.emulated v _ holds ⟨rfl, rfl⟩
  · cases taken

theorem appleShadowAccess_ends : AccessBlock.Ends appleShadowAccess := by
  intro P host a v carried after writes holds taken
  unfold appleShadowAccess at taken
  have held : ∀ file, P { v with s := { v.s with appleShadow := file } } :=
    fun file => writes.emulated v _ holds ⟨rfl, rfl⟩
  split at taken
  · split at taken
    · exact registerAccess_ends writes holds (fun _ value => holds) taken
    · split at taken
      · exact refused_ends holds (Or.inl rfl) taken
      · split at taken
        · exact refused_ends holds (Or.inl rfl) taken
        · exact registerAccess_ends writes (held _) (fun _ value => held _) taken
  · cases taken

theorem nv2RegAccess_ends : AccessBlock.Ends nv2RegAccess := by
  intro P host a v carried after writes holds taken
  unfold nv2RegAccess at taken
  split at taken
  · cases taken
  · rename_i r found
    split at found
    · rename_i fields
      exact registerAccess_ends writes holds
        (fun stores value => writes.el2 stores fields r found v value holds) taken
    · cases found

/-- Every access is carried out with one step past the instruction, or refused;
what survives its writes holds where it ends, but for that step. -/
theorem serviceNv2Access_ends {P : VcpuView → Prop} (host : Host) (esr : Word) (v : VcpuView)
    (writes : (SysAccess.ofEsr esr).Writes P) (holds : P v) :
    Ended host v P (serviceNv2Access host esr v).1 (serviceNv2Access host esr v).2 := by
  unfold serviceNv2Access
  cases answer : accessBlocks.findSome? fun block => block host (.ofEsr esr) v with
  | none => exact ⟨v, holds, Or.inr ⟨rfl, rfl, Or.inl rfl⟩⟩
  | some result =>
      obtain ⟨block, listed, taken⟩ := List.exists_of_findSome?_eq_some answer
      obtain ⟨carried, after⟩ := result
      have ends : AccessBlock.Ends block := by
        simp only [accessBlocks, List.mem_cons, List.not_mem_nil, or_false] at listed
        rcases listed with rfl | rfl | rfl | rfl | rfl | rfl | rfl | rfl | rfl | rfl | rfl | rfl |
          rfl | rfl | rfl | rfl
        · exact amxidrAccess_ends
        · exact handoffAccess_ends
        · exact gxfAccess_ends
        · exact cacheIdAccess_ends
        · exact counterAccess_ends
        · exact timerAccess_ends
        · exact gicInterfaceAccess_ends
        · exact atAccess_ends
        · exact maintenanceAccess_ends
        · exact pstateAccess_ends
        · exact gl2Access_ends
        · exact tmrFiqEnaAccess_ends
        · exact ctrrAccess_ends
        · exact ctxTraceAccess_ends
        · exact appleShadowAccess_ends
        · exact nv2RegAccess_ends
      exact ends P host _ v carried after writes holds taken

theorem serviceNv2Access_keeps {P : VcpuView → Prop} (host : Host) (esr : Word) (v : VcpuView)
    (edits : (SysAccess.ofEsr esr).Edits P) (holds : P v) :
    P (serviceNv2Access host esr v).2 := by
  obtain ⟨w, before, ⟨-, stepped⟩ | ⟨-, same, -⟩⟩ :=
    serviceNv2Access_ends host esr v edits.toWrites holds
  · rw [stepped]
    exact edits.skip w before
  · rw [same]
    exact before

/-! ## The frame

What an access may touch: the emulated registers, and of the page everything but
the run controls and the kernel's own half. -/

structure EmulatedOnly (before after : VcpuView) : Prop where
  slot : after.s = { before.s with
    ctx := after.s.ctx
    el2Shadow := after.s.el2Shadow
    vmTmrFiqEna := after.s.vmTmrFiqEna
    gl2Bank := after.s.gl2Bank
    ctrr := after.s.ctrr
    ctxTrace := after.s.ctxTrace
    appleShadow := after.s.appleShadow
    gicIf := after.s.gicIf
    gicIfReady := after.s.gicIfReady }
  globals : after.g = { before.g with
    nv2Caps := after.g.nv2Caps
    pstateHeld := after.g.pstateHeld }
  page : before.s.ctx.Keeps after.s.ctx

namespace EmulatedOnly

variable {before v : VcpuView}

theorem refl (v : VcpuView) : EmulatedOnly v v :=
  ⟨rfl, rfl, Ctx.Keeps.refl v.s.ctx⟩

theorem setCtx (only : EmulatedOnly before v) (ctx : Ctx)
    (same : v.s.ctx.Keeps ctx) : EmulatedOnly before (v.setCtx ctx) where
  slot := by
    simp only [VcpuView.setCtx]
    rw [only.slot]
  globals := only.globals
  page := only.page.trans same

theorem skip (only : EmulatedOnly before v) : EmulatedOnly before v.skip :=
  only.setCtx _ (Ctx.Keeps.refl v.s.ctx).skip

theorem guestAtEl2 (only : EmulatedOnly before v) : v.s.guestAtEl2 = before.s.guestAtEl2 := by
  rw [only.slot]

theorem nvOffForGeret (only : EmulatedOnly before v) :
    v.s.nvOffForGeret = before.s.nvOffForGeret := by
  rw [only.slot]

end EmulatedOnly

open Ctx (Keeps)

theorem isGuarded_lt {a : SysAccess} {n : Nat} (guarded : a.IsGuarded n) : n < 83 := by
  obtain ⟨-, -, -, ⟨-, -, rfl⟩ | ⟨-, ⟨-, rfl⟩ | ⟨-, rfl⟩⟩⟩ := guarded <;> decide

theorem timerCvalIndex_lt (physical : Bool) : VcpuSlot.timerCvalIndex physical < 24 := by
  cases physical <;> decide

theorem nv2Reg_outside_controls (r : Nv2Reg) (listed : r ∈ kNv2Regs) :
    r.ctxOff < ohvRwControls ∨ ohvRwFrozen ≤ r.ctxOff ∧ r.ctxOff < ohvRoVer := by
  revert r
  decide

/-- Arming, disarming and moving a timer included, every edit but the handoff keeps
the frame. -/
theorem emulatedOnly_edits (before : VcpuView) (a : SysAccess) (other : ¬ a.IsHandoff) :
    a.Edits (EmulatedOnly before) where
  skip _ only := only.skip
  operand _ _ value only := only.setCtx _ ((Keeps.refl _).writeRt a.rt value)
  emulated := by
    intro v w only same
    have page := only.page
    rw [← same.ctx] at page
    refine ⟨?_, ?_, page⟩
    · rw [same.slot, only.slot]
    · rw [same.globals, only.globals]
  handoff taken := absurd taken other
  guarded _ n guarded _ value only :=
    only.setCtx _ (((Keeps.refl _).setExt n value (isGuarded_lt guarded)).markDirty _)
  csselr _ _ _ value only :=
    only.setCtx _ (((Keeps.refl _).setShared 7 value (by decide)).markDirty _)
  par _ _ value only := only.setCtx _ (((Keeps.refl _).setShared 6 value (by decide)).markDirty _)
  disarm _ _ _ only := only.setCtx _ ((Keeps.refl _).setBanked 19 0 (by decide))
  control := by
    intro _ _ _ v value only
    cases decide (a.crm = 2) with
    | true =>
        obtain ⟨slot, globals, page⟩ := only
        refine ⟨?_, globals, page.trans ((Keeps.refl _).markDirty _)⟩
        simp only [VcpuSlot.setTimerCtl, VcpuSlot.markDirty, if_true]
        rw [slot]
    | false => exact only.setCtx _ (((Keeps.refl _).setBanked 18 value (by decide)).markDirty _)
  compare _ _ _ _ value only :=
    only.setCtx _ (((Keeps.refl _).setBanked _ value (timerCvalIndex_lt _)).markDirty _)
  el2 := by
    intro _ _ r found v value only
    have listed : r ∈ kNv2Regs := List.mem_of_find?_eq_some found
    have put := (Keeps.refl v.s.ctx).put r.ctxOff value (nv2Reg_outside_controls r listed)
    refine only.setCtx _ ?_
    split
    · exact put.markDirty _
    · exact put

theorem serviceNv2Access_frame (host : Host) (esr : Word) (v : VcpuView)
    (other : ¬ (SysAccess.ofEsr esr).IsHandoff) :
    EmulatedOnly v (serviceNv2Access host esr v).2 :=
  serviceNv2Access_keeps host esr v (emulatedOnly_edits v _ other) (.refl v)

/-- The handoff write is the only one of its encoding, and no block before it
takes it. -/
theorem serviceNv2Access_handoff (host : Host) (esr : Word) (v : VcpuView)
    (handoff : (SysAccess.ofEsr esr).IsHandoff) :
    serviceNv2Access host esr v =
      (true, VcpuView.skip { v with s := { v.s.armNv with guestAtEl2 := true } }) := by
  have first : amxidrAccess host (.ofEsr esr) v = none := by
    obtain ⟨-, -, -, crm, -⟩ := handoff
    simp [amxidrAccess, crm]
  have second : handoffAccess host (.ofEsr esr) v =
      some (true, VcpuView.skip { v with s := { v.s.armNv with guestAtEl2 := true } }) := by
    simp only [handoffAccess, if_pos handoff, answered]
  simp only [serviceNv2Access, accessBlocks, List.findSome?_cons, first, second, Option.getD_some]

end OpenHypervisor
