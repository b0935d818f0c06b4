import OpenHypervisor.Context
import OpenHypervisor.Library.RegFile

/-!
# The library's own state

Return codes, the environment switches that change behaviour, the process
globals and the per-vCPU slot of `ohv_internal.h`.  The trace switches only
print and are left out, and so are the fields nothing but a trace reads.
-/

set_option autoImplicit false

namespace OpenHypervisor

abbrev HvReturn := BitVec 32

def hvSuccess : HvReturn := 0
def hvError : HvReturn := 0xfae94001#32
def hvBusy : HvReturn := 0xfae94002#32
def hvBadArgument : HvReturn := 0xfae94003#32
def hvNoResources : HvReturn := 0xfae94005#32
def hvNoDevice : HvReturn := 0xfae94006#32
def hvUnsupported : HvReturn := 0xfae9400f#32

inductive HvExitReason where
  | canceled
  | exception
  | vtimerActivated
  | unknown
  deriving DecidableEq, Repr

inductive HvInterruptType where
  | irq
  | fiq
  deriving DecidableEq, Repr

/-- `OhvCfg`: a switch that is set carries what `strtoull` makes of its text, a
switch only tested for presence is a `Bool`. -/
structure OhvCfg where
  allowApstsWrite : Bool := false
  amxidr : Option Word := none
  cnthctl : Option Word := none
  hacrTactl0 : Bool := false
  hcrNestedMask : Option Word := none
  hcrTidcp : Option Word := none
  hcrXmo : Option Word := none
  ipiUngated : Bool := false
  irqUngated : Bool := false
  mirrorGl1 : Bool := false
  noEl2Injection : Bool := false
  noEretEmulation : Bool := false
  noHwGeret : Bool := false
  noMonitorNv : Bool := false
  noTwe : Bool := false
  spinWfi : Bool := false
  surveySysreg : Bool := false
  timerGate : Option (BitVec 32) := none
  timerIrqVcpus : Option Word := none
  trapGxf : Bool := false
  try14c8 : Option Word := none
  vmkeyMirror : Bool := false

/-- What trap 0 copies out, as far as the library reads it. -/
structure Capabilities where
  ctrEl0 : Word := 0
  dczidEl0 : Word := 0
  clidrEl1 : Word := 0
  ccsidrEl1Inst : Nat → Word := fun _ => 0
  ccsidrEl1DataOrUnified : Nat → Word := fun _ => 0
  idAa64dfr0El1 : Word := 0
  idAa64isar0El1 : Word := 0
  idAa64isar1El1 : Word := 0
  idAa64mmfr0El1 : Word := 0
  idAa64mmfr1El1 : Word := 0
  idAa64mmfr2El1 : Word := 0
  idAa64pfr0El1 : Word := 0
  idAa64pfr1El1 : Word := 0
  idAa64smfr0El1 : Word := 0
  idAa64zfr0El1 : Word := 0

structure MapRecord where
  uva : Word
  ipa : Word
  size : Word
  deriving DecidableEq, Repr

/-- `GicModel`, without the configuration fields no register call reads. -/
structure GicModel where
  redistributorBase : Word := 0
  dist : Nat → Word := fun _ => 0
  redist : Nat → Nat → Word := fun _ _ => 0
  icc : Nat → Nat → Word := fun _ _ => 0
  ich : Nat → Nat → Word := fun _ _ => 0
  icv : Nat → Nat → Word := fun _ _ => 0
  msi : Nat → Word := fun _ => 0

/-- The process globals of `ohv_state.cpp`, with the file and function statics
that outlive a call. -/
structure Globals where
  /-- What `getenv` would answer now. -/
  env : OhvCfg := {}
  cfg : OhvCfg := {}
  cfgSettled : Bool := false
  vmAlive : Bool := false
  vmEl2 : Bool := false
  vmVhe : Bool := false
  gic : Option GicModel := none
  maps : List MapRecord := []
  monitorBand : Word := 0
  /-- The two `static ohv_capabilities_t caps` with their `have` flags. -/
  nv2Caps : Option Capabilities := none
  sysregCaps : Option Capabilities := none
  /-- `static uint64_t held`, the PSTATE field the host does not have. -/
  pstateHeld : Word := 0

structure HvVcpuExit where
  reason : HvExitReason := .canceled
  syndrome : Word := 0
  virtualAddress : Word := 0
  physicalAddress : Word := 0
  deriving DecidableEq, Repr

structure VcpuSlot where
  used : Bool := false
  ctx : Ctx := ⟨⟨fun _ => 0⟩⟩
  id : Nat := 0
  runCount : Word := 0
  wfiTicks : Word := 0
  pubExit : HvVcpuExit := {}
  exitRequested : Bool := false
  el2Shadow : Nat → Word := fun _ => 0
  nvOffForGeret : Bool := false
  vmTmrFiqEna : Word := 3
  vmmFiq : Bool := false
  timerFiq : Bool := false
  timerFiredV : Bool := false
  timerFiredP : Bool := false
  sptmBase : Word := 0
  gl2Bank : Nat → Word := fun _ => 0
  ctrr : RegFile (BitVec 8) Word := []
  ctxTrace : Nat → Word := fun _ => 0
  vmmIrq : Bool := false
  inWfx : Bool := false
  lastReason : BitVec 32 := 0
  lastEsr : Word := 0
  appleShadow : RegFile (BitVec 16) Word := []
  idRegs : Nat → Word := fun _ => 0
  idRegsLoaded : Bool := false
  gicIf : RegFile (BitVec 16) Word := []
  gicIfReady : Bool := false
  guestAtEl2 : Bool := false

@[simp] def ohvShadowCntpCtl : Nat := 30

/-- Host memory as the library reads it through the pointers `ohv_guest_ptr`
hands out. -/
structure HostMem where
  read32 : Word → BitVec 32 := fun _ => 0
  read64 : Word → Word := fun _ => 0

/-- What the outside answers while one call is served: the host counter and its
frequency, the capabilities trap, the largest guest address space, guest memory,
and the page as each `OHV_TRAP_VCPU_SYSREGS_SYNC` leaves it, with that trap's
result. -/
structure Host where
  now : Word := 0
  cntfrq : Word := 0
  caps : Capabilities := {}
  maxIpaBits : Nat := 0
  mem : HostMem := {}
  sync : Nat → Ctx → Ctx := fun _ c => c
  syncRc : HvReturn := hvSuccess

def Host.Quiet (host : Host) : Prop := ∀ k c, Ctx.SameControls c (host.sync k c)

/-- What a call on one vCPU reaches: the process globals and its own slot. -/
structure VcpuView where
  g : Globals
  s : VcpuSlot

namespace VcpuSlot

def setHcr (s : VcpuSlot) (value : Word) : VcpuSlot := { s with ctx := s.ctx.setHcr value }

def markDirty (s : VcpuSlot) (bits : Word) : VcpuSlot := { s with ctx := s.ctx.markDirty bits }

def skip (s : VcpuSlot) : VcpuSlot := { s with ctx := s.ctx.skip }

def armNv (s : VcpuSlot) : VcpuSlot :=
  (s.setHcr (s.ctx.hcr ||| ohvHcrNv)).markDirty ohvStateControls

def clearNv (s : VcpuSlot) : VcpuSlot :=
  (s.setHcr (s.ctx.hcr &&& ~~~ohvHcrNv)).markDirty ohvStateControls

@[simp] theorem hcr_armNv (s : VcpuSlot) : s.armNv.ctx.hcr = s.ctx.hcr ||| ohvHcrNv := by
  simp [armNv, setHcr, markDirty]

@[simp] theorem hcr_clearNv (s : VcpuSlot) : s.clearNv.ctx.hcr = s.ctx.hcr &&& ~~~ohvHcrNv := by
  simp [clearNv, setHcr, markDirty]

/-! The control word of the emulated timers: the physical one's is kept in the
shadow, so that the banked slot never arms the hardware timer. -/

def timerCtl (s : VcpuSlot) (physical : Bool) : Word :=
  if physical then s.el2Shadow ohvShadowCntpCtl else s.ctx.banked 18

def setTimerCtl (s : VcpuSlot) (physical : Bool) (value : Word) : VcpuSlot :=
  if physical then
    { s with el2Shadow := Function.update s.el2Shadow ohvShadowCntpCtl value }
  else { s with ctx := s.ctx.setBanked 18 value }

def timerCvalIndex (physical : Bool) : Nat := if physical then 10 else 9

def timerCval (s : VcpuSlot) (physical : Bool) : Word := s.ctx.banked (timerCvalIndex physical)

end VcpuSlot

theorem armNv_word (s : VcpuSlot) (off : Nat) (notHcr : off ≠ ohvRwControls)
    (notDirty : off ≠ ohvRwStateDirty) : s.armNv.ctx.word off = s.ctx.word off := by
  simp only [VcpuSlot.armNv, VcpuSlot.markDirty, VcpuSlot.setHcr, Ctx.markDirty, Ctx.setHcr,
    Ctx.setControl, Ctx.word_put, Nat.add_zero, if_neg notHcr, if_neg notDirty]

theorem clearNv_word (s : VcpuSlot) (off : Nat) (notHcr : off ≠ ohvRwControls)
    (notDirty : off ≠ ohvRwStateDirty) : s.clearNv.ctx.word off = s.ctx.word off := by
  simp only [VcpuSlot.clearNv, VcpuSlot.markDirty, VcpuSlot.setHcr, Ctx.markDirty, Ctx.setHcr,
    Ctx.setControl, Ctx.word_put, Nat.add_zero, if_neg notHcr, if_neg notDirty]

namespace VcpuView

def setCtx (v : VcpuView) (ctx : Ctx) : VcpuView := { v with s := { v.s with ctx := ctx } }

def skip (v : VcpuView) : VcpuView := { v with s := v.s.skip }

def sync (v : VcpuView) (host : Host) (k : Nat) : VcpuView := v.setCtx (host.sync k v.s.ctx)

end VcpuView

end OpenHypervisor
