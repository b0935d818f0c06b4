import OpenHypervisor.SysRegTable

/-!
# Register access

What the VMM reads and writes of a vCPU: the general registers, the system
registers of the table, the run controls by field number, and the few calls
that move one control bit.  Each call is one on a vCPU its caller owns.
-/

set_option autoImplicit false

namespace OpenHypervisor

/-! ## General registers -/

def hvRegPc : Nat := 31
def hvRegFpcr : Nat := 32
def hvRegFpsr : Nat := 33
def hvRegCpsr : Nat := 34

/-- PC is not the thirty-second word of the block: SP lies between. -/
def hvVcpuGetReg (reg : Nat) (s : VcpuSlot) : Option Word :=
  if reg = hvRegCpsr then some (s.ctx.cpsr.zeroExtend 64)
  else if reg = hvRegFpcr then some ((s.ctx.hi32 ohvRwFpsrFpcr).zeroExtend 64)
  else if reg = hvRegFpsr then some ((s.ctx.lo32 ohvRwFpsrFpcr).zeroExtend 64)
  else if reg = hvRegPc then some s.ctx.pc
  else if reg < hvRegPc then some (s.ctx.x reg)
  else none

/-- A guest hypervisor does not run at hardware EL2, so EL2t and EL2h are
translated to the EL1 pair. -/
def translatePstate (vmEl2 : Bool) (pstate : BitVec 32) : BitVec 32 :=
  let mode := pstate &&& 0xf
  if vmEl2 ∧ (mode = 0x8 ∨ mode = 0x9) then (pstate &&& ~~~0xf#32) ||| (mode - 4) else pstate

def hvVcpuSetReg (reg : Nat) (value : Word) (v : VcpuView) : HvReturn × VcpuView :=
  let low := value.extractLsb' 0 32
  if reg = hvRegCpsr then (hvSuccess, v.setCtx (v.s.ctx.setCpsr (translatePstate v.g.vmEl2 low)))
  else if reg = hvRegFpcr then (hvSuccess, v.setCtx (v.s.ctx.putHi32 ohvRwFpsrFpcr low))
  else if reg = hvRegFpsr then (hvSuccess, v.setCtx (v.s.ctx.putLo32 ohvRwFpsrFpcr low))
  else if reg = hvRegPc then (hvSuccess, v.setCtx (v.s.ctx.setPc value))
  else if reg < hvRegPc then (hvSuccess, v.setCtx (v.s.ctx.setX reg value))
  else (hvBadArgument, v)

/-! ## System registers -/

structure SysRegAnswer where
  rc : HvReturn
  value : Word
  view : VcpuView

/-- The slot's ID registers, filled from the capabilities on first use. -/
def loadIdRegs (host : Host) (v : VcpuView) : VcpuView :=
  if v.s.idRegsLoaded then v
  else
    let caps := v.g.sysregCaps.getD host.caps
    let regs := fun i =>
      if i < 18 then ohvIdRegFor host.maxIpaBits caps i false
      else if i = ohvIdSlotMidr then ohvCapsField host.maxIpaBits caps hvSysRegMidrEl1
      else if i = ohvIdSlotMpidr then 0
      else v.s.idRegs i
    { g := { v.g with sysregCaps := some caps }
      s := { v.s with idRegs := regs, idRegsLoaded := true } }

def idRegAccess (host : Host) (enc : BitVec 16) (value : Word) (write : Bool) (v : VcpuView) :
    SysRegAnswer :=
  match ohvIdSlot enc with
  | none => ⟨hvSuccess, if write then value else 0, v⟩
  | some slot =>
      let v := loadIdRegs host v
      if write then
        ⟨hvSuccess, value,
          { v with s := { v.s with idRegs := Function.update v.s.idRegs slot value } }⟩
      else ⟨hvSuccess, v.s.idRegs slot, v⟩

def shadowAccess (d : SysRegDesc) (value : Word) (write : Bool) (v : VcpuView) : SysRegAnswer :=
  if d.index ≥ 32 then ⟨hvUnsupported, value, v⟩
  else if write then
    ⟨hvSuccess, value,
      { v with s := { v.s with el2Shadow := Function.update v.s.el2Shadow d.index value } }⟩
  else ⟨hvSuccess, v.s.el2Shadow d.index, v⟩

/-- Whether the shared copy has to be asked for first: always for a register the
hardware fills behind the library's back, else when the kernel says it is not
current. -/
def needsSync (d : SysRegDesc) (c : Ctx) : Bool :=
  d.syncBefore || (decide (d.need ≠ 0) && decide (c.word ohvRoStateValid &&& d.need = 0))

def encCptrEl2 : BitVec 16 := 0xe08a
def encKernkeyLo : BitVec 16 := 0xe788
def encKernkeyHi : BitVec 16 := 0xe789

/-- CPTR_EL2 keeps the bits the kernel put there for its own reasons. -/
def filterWrite (enc : BitVec 16) (value : Word) : Word :=
  if enc = encCptrEl2 then value ||| 0x300000#64 else value

/-- `OHV_VMKEY_MIRROR`: the guest's kernel key where the guest's keys live. -/
def mirrorVmkey (cfg : OhvCfg) (enc : BitVec 16) (value : Word) (c : Ctx) : Ctx :=
  if cfg.vmkeyMirror ∧ enc = encKernkeyLo then
    (c.setControl 0x78 value).markDirty ohvStateControls
  else if cfg.vmkeyMirror ∧ enc = encKernkeyHi then
    (c.setControl 0x70 value).markDirty ohvStateControls
  else c

def writeDesc (cfg : OhvCfg) (d : SysRegDesc) (base : Nat) (enc : BitVec 16) (value : Word)
    (c : Ctx) : Ctx :=
  let out := filterWrite enc value
  let c := mirrorVmkey cfg enc out (c.put (base + d.index * 8) out)
  if d.dirtyBit = 0 then c else c.markDirty d.dirtyBit

def contextAccess (host : Host) (d : SysRegDesc) (base : Nat) (enc : BitVec 16) (value : Word)
    (write : Bool) (v : VcpuView) : SysRegAnswer :=
  let synced := needsSync d v.s.ctx
  let v := if synced then v.sync host 0 else v
  if synced ∧ host.syncRc ≠ hvSuccess then ⟨host.syncRc, value, v⟩
  else if write then
    ⟨hvSuccess, value, v.setCtx (writeDesc v.g.cfg d base enc value v.s.ctx)⟩
  else ⟨hvSuccess, v.s.ctx.word (base + d.index * 8), v⟩

def sysregAccess (host : Host) (enc : BitVec 16) (value : Word) (write : Bool) (v : VcpuView) :
    SysRegAnswer :=
  match sysregLookup enc with
  | none => ⟨hvUnsupported, value, v⟩
  | some d =>
      match d.kind, d.region with
      | .roId, _ => idRegAccess host enc value write v
      | .shadow, _ => shadowAccess d value write v
      | _, some base => contextAccess host d base enc value write v
      | _, none => ⟨hvUnsupported, value, v⟩

def hvVcpuGetSysReg (host : Host) (enc : BitVec 16) (v : VcpuView) : SysRegAnswer :=
  sysregAccess host enc 0 false v

/-- `OHV_SURVEY_SYSREG` drops a refused write instead of refusing it. -/
def hvVcpuSetSysReg (host : Host) (enc : BitVec 16) (value : Word) (v : VcpuView) :
    HvReturn × VcpuView :=
  let answer := sysregAccess host enc value true v
  if answer.rc = hvUnsupported ∧ v.g.cfg.surveySysreg then (hvSuccess, answer.view)
  else (answer.rc, answer.view)

/-! ## Run controls -/

/-- `kControlFieldOffset`, from the start of the controls block. -/
def kControlFieldOffset : List (Option Nat) := [
  some 0x00, some 0x10, some 0x18, some 0x20, none, some 0x28, some 0x08, some 0x70, some 0x78,
  some 0x80, none, some 0x38, some 0x40, some 0x48, some 0x50, some 0x58, some 0x60, some 0xd0]

def controlFieldOffset (field : Nat) : Option Nat := (kControlFieldOffset[field]?).join

def hvVcpuGetControlField (field : Nat) (s : VcpuSlot) : Option Word :=
  (controlFieldOffset field).map s.ctx.control

/-- Field 9 is APSTS_EL1, the guarded level, and a write of it does not stand. -/
def hvVcpuSetControlField (cfg : OhvCfg) (field : Nat) (value : Word) (s : VcpuSlot) :
    HvReturn × VcpuSlot :=
  match controlFieldOffset field with
  | none => (hvBadArgument, s)
  | some off =>
      if field = 9 ∧ cfg.allowApstsWrite = false then (hvSuccess, s)
      else
        (hvSuccess,
          { s with ctx := (s.ctx.setControl off value).markDirty ohvStateControls })

/-- A control word with the bits of a mask raised or lowered. -/
def switchControl (off : Nat) (mask : Word) (on : Bool) (s : VcpuSlot) : VcpuSlot :=
  let was := s.ctx.control off
  { s with
    ctx := (s.ctx.setControl off (if on then was ||| mask else was &&& ~~~mask)).markDirty
      ohvStateControls }

/-- MDCR_EL2.TDE. -/
def hvVcpuSetTrapDebugExceptions (on : Bool) (s : VcpuSlot) : VcpuSlot :=
  switchControl 0x18 (BitVec.twoPow 64 14) on s

def hvVcpuSetTrapDebugRegAccesses (on : Bool) (s : VcpuSlot) : VcpuSlot :=
  switchControl 0x18 (BitVec.twoPow 64 9 ||| BitVec.twoPow 64 10 ||| BitVec.twoPow 64 12) on s

def hvVcpuGetVtimerMask (s : VcpuSlot) : Bool := s.ctx.timer.getLsbD 0

def hvVcpuSetVtimerMask (masked : Bool) (s : VcpuSlot) : VcpuSlot :=
  switchControl 0x68 ohvTimerMask masked s

def hvVcpuGetVtimerOffset (s : VcpuSlot) : Word := s.ctx.vtimerOffset

def hvVcpuSetVtimerOffset (off : Word) (s : VcpuSlot) : VcpuSlot :=
  { s with ctx := (s.ctx.setControl 0x30 off).markDirty ohvStateControls }

/-! ## The frame

A register call writes the page and the two register files it keeps, and no call
but a write of control field 0 reaches `HCR_EL2`. -/

structure RegisterOnly (before after : VcpuView) : Prop where
  slot : after.s = { before.s with
    ctx := after.s.ctx
    el2Shadow := after.s.el2Shadow
    idRegs := after.s.idRegs
    idRegsLoaded := after.s.idRegsLoaded }
  globals : after.g = { before.g with sysregCaps := after.g.sysregCaps }

namespace RegisterOnly

variable {first second third : VcpuView}

theorem refl (v : VcpuView) : RegisterOnly v v := ⟨rfl, rfl⟩

theorem trans (left : RegisterOnly first second) (right : RegisterOnly second third) :
    RegisterOnly first third where
  slot := by rw [right.slot, left.slot]
  globals := by rw [right.globals, left.globals]

end RegisterOnly

namespace Ctx

/-- Every word of the page but the one control is out of `HCR_EL2`'s way. -/
theorem hcr_put (c : Ctx) (off : Nat) (value : Word) (other : off ≠ ohvRwControls) :
    (c.put off value).hcr = c.hcr := by
  simp only [hcr, control, Nat.add_zero, word_put, if_neg (Ne.symm other)]

theorem hcr_setControl (c : Ctx) (off : Nat) (value : Word) (other : off ≠ 0) :
    (c.setControl off value).hcr = c.hcr :=
  c.hcr_put _ value (by simpa using other)

end Ctx

theorem hvVcpuSetReg_frame (reg : Nat) (value : Word) (v : VcpuView) :
    RegisterOnly v (hvVcpuSetReg reg value v).2 := by
  unfold hvVcpuSetReg
  simp only
  repeat' split
  all_goals exact ⟨rfl, rfl⟩

theorem hvVcpuSetReg_hcr (reg : Nat) (value : Word) (v : VcpuView) :
    (hvVcpuSetReg reg value v).2.s.ctx.hcr = v.s.ctx.hcr := by
  unfold hvVcpuSetReg
  simp only
  split
  · exact Ctx.hcr_put _ _ _ (by decide)
  · split
    · exact Ctx.hcr_put _ _ _ (by decide)
    · split
      · exact Ctx.hcr_put _ _ _ (by decide)
      · split
        · exact Ctx.hcr_put _ _ _ (by decide)
        · split
          · rename_i small
            refine Ctx.hcr_put _ _ _ ?_
            simp only [hvRegPc] at small
            simp only [ohvRwRegsX0, ohvRwControls]
            omega
          · rfl

theorem loadIdRegs_frame (host : Host) (v : VcpuView) :
    RegisterOnly v (loadIdRegs host v) ∧ (loadIdRegs host v).s.ctx = v.s.ctx := by
  unfold loadIdRegs
  split
  · exact ⟨.refl v, rfl⟩
  · exact ⟨⟨rfl, rfl⟩, rfl⟩

theorem idRegAccess_frame (host : Host) (enc : BitVec 16) (value : Word) (write : Bool)
    (v : VcpuView) : RegisterOnly v (idRegAccess host enc value write v).view ∧
      (idRegAccess host enc value write v).view.s.ctx = v.s.ctx := by
  have loaded := loadIdRegs_frame host v
  unfold idRegAccess
  split
  · exact ⟨.refl v, rfl⟩
  · simp only
    split
    · exact ⟨loaded.1.trans ⟨rfl, rfl⟩, loaded.2⟩
    · exact loaded

theorem shadowAccess_frame (d : SysRegDesc) (value : Word) (write : Bool) (v : VcpuView) :
    RegisterOnly v (shadowAccess d value write v).view ∧
      (shadowAccess d value write v).view.s.ctx = v.s.ctx := by
  unfold shadowAccess
  split
  · exact ⟨.refl v, rfl⟩
  · split
    · exact ⟨⟨rfl, rfl⟩, rfl⟩
    · exact ⟨.refl v, rfl⟩

theorem contextAccess_frame (host : Host) (d : SysRegDesc) (base : Nat) (enc : BitVec 16)
    (value : Word) (write : Bool) (v : VcpuView) :
    RegisterOnly v (contextAccess host d base enc value write v).view := by
  have current : RegisterOnly v (if needsSync d v.s.ctx then v.sync host 0 else v) := by
    split
    · exact ⟨rfl, rfl⟩
    · exact .refl v
  unfold contextAccess
  simp only
  split
  · exact current
  · split
    · exact current.trans ⟨rfl, rfl⟩
    · exact current

theorem sysregAccess_frame (host : Host) (enc : BitVec 16) (value : Word) (write : Bool)
    (v : VcpuView) : RegisterOnly v (sysregAccess host enc value write v).view := by
  unfold sysregAccess
  split
  · exact .refl v
  · split
    · exact (idRegAccess_frame host enc value write v).1
    · exact (shadowAccess_frame _ value write v).1
    · exact contextAccess_frame host _ _ enc value write v
    · exact .refl v

theorem hvVcpuSetSysReg_eq_access (host : Host) (enc : BitVec 16) (value : Word) (v : VcpuView) :
    (hvVcpuSetSysReg host enc value v).2 = (sysregAccess host enc value true v).view := by
  unfold hvVcpuSetSysReg
  simp only
  split <;> rfl

theorem mirrorVmkey_hcr (cfg : OhvCfg) (enc : BitVec 16) (value : Word) (c : Ctx) :
    (mirrorVmkey cfg enc value c).hcr = c.hcr := by
  unfold mirrorVmkey
  split
  · rw [Ctx.hcr_markDirty, Ctx.hcr_setControl _ _ _ (by decide)]
  · split
    · rw [Ctx.hcr_markDirty, Ctx.hcr_setControl _ _ _ (by decide)]
    · rfl

theorem writeDesc_hcr (cfg : OhvCfg) (d : SysRegDesc) (base : Nat) (enc : BitVec 16)
    (value : Word) (c : Ctx) (other : base + d.index * 8 ≠ ohvRwControls) :
    (writeDesc cfg d base enc value c).hcr = c.hcr := by
  have written : (mirrorVmkey cfg enc (filterWrite enc value)
      (c.put (base + d.index * 8) (filterWrite enc value))).hcr = c.hcr := by
    rw [mirrorVmkey_hcr, Ctx.hcr_put _ _ _ other]
  unfold writeDesc
  simp only
  split
  · exact written
  · rw [Ctx.hcr_markDirty, written]

section Quiet

variable (host : Host) (quiet : host.Quiet) (enc : BitVec 16) (value : Word) (write : Bool)
  (v : VcpuView)

include quiet

theorem contextAccess_hcr (d : SysRegDesc) (base : Nat)
    (other : base + d.index * 8 ≠ ohvRwControls) :
    (contextAccess host d base enc value write v).view.s.ctx.hcr = v.s.ctx.hcr := by
  have current : (if needsSync d v.s.ctx then v.sync host 0 else v).s.ctx.hcr = v.s.ctx.hcr := by
    split
    · exact (quiet 0 v.s.ctx).hcr
    · rfl
  unfold contextAccess
  simp only
  split
  · exact current
  · split
    · exact (writeDesc_hcr _ d base enc value _ other).trans current
    · exact current

/-- No register of the table lies where `HCR_EL2` does. -/
theorem sysregAccess_hcr :
    (sysregAccess host enc value write v).view.s.ctx.hcr = v.s.ctx.hcr := by
  unfold sysregAccess
  split
  · rfl
  · rename_i d found
    split
    · rw [(idRegAccess_frame host enc value write v).2]
    · rw [(shadowAccess_frame d value write v).2]
    · rename_i base region _ _
      have outside := table_avoids_hcr d (sysregLookup_mem enc d found) base region
      exact contextAccess_hcr host quiet enc value write v d base outside.1
    · rfl

end Quiet

/-- Field 0, the number of `HCR_EL2`, is the only one at offset 0. -/
theorem controlFieldOffset_ne_zero (field off : Nat) (other : field ≠ 0)
    (found : controlFieldOffset field = some off) : off ≠ 0 := by
  by_cases small : field < kControlFieldOffset.length
  · have checked : ∀ i < kControlFieldOffset.length, i ≠ 0 →
        ∀ off ∈ controlFieldOffset i, off ≠ 0 := by
      decide
    exact checked field small other off found
  · simp only [controlFieldOffset, List.getElem?_eq_none (Nat.le_of_not_lt small)] at found
    cases found

/-- The calls that write one control word: a slot with another page, on which
what the next entry is computed from stands as it was. -/
structure ControlOnly (before after : VcpuSlot) : Prop where
  slot : after = { before with ctx := after.ctx }
  page : before.ctx.SameEntry after.ctx

theorem ControlOnly.refl (s : VcpuSlot) : ControlOnly s s := ⟨rfl, Ctx.SameEntry.refl s.ctx⟩

theorem hvVcpuSetControlField_frame (cfg : OhvCfg) (field : Nat) (value : Word) (s : VcpuSlot)
    (other : field ≠ 0) : ControlOnly s (hvVcpuSetControlField cfg field value s).2 := by
  unfold hvVcpuSetControlField
  split
  · exact .refl s
  · rename_i off found
    have control := controlFieldOffset_ne_zero field off other found
    split
    · exact .refl s
    · exact ⟨rfl, ((Ctx.SameEntry.refl s.ctx).setControl off value control).markDirty _⟩

theorem switchControl_frame (off : Nat) (mask : Word) (on : Bool) (s : VcpuSlot)
    (other : off ≠ 0) : ControlOnly s (switchControl off mask on s) :=
  ⟨rfl, ((Ctx.SameEntry.refl s.ctx).setControl off _ other).markDirty _⟩

theorem hvVcpuSetVtimerOffset_frame (off : Word) (s : VcpuSlot) :
    ControlOnly s (hvVcpuSetVtimerOffset off s) :=
  ⟨rfl, ((Ctx.SameEntry.refl s.ctx).setControl 0x30 off (by decide)).markDirty _⟩

end OpenHypervisor
