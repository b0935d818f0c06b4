import OpenHypervisor.Create
import OpenHypervisor.Interrupts
import OpenHypervisor.Nesting
import OpenHypervisor.Library.Runs

/-!
# The system

All vCPUs of one VM, each somewhere in `hv_vcpu_run` or out of it, with the
cancels that other threads have under way.  One step is one atomic piece of the
library or one answer of the kernel; which piece comes next on which vCPU is
left open, so a word of actions is an interleaving.

The VMM's own calls on a vCPU come from the thread that owns it, and so only
while that thread is not inside `hv_vcpu_run`.  Cancels and the interrupt
controller are not bound to a thread and may come at any time.
-/

set_option autoImplicit false

namespace OpenHypervisor

/-- Where a vCPU's thread is in `hv_vcpu_run`. -/
inductive RunPhase where
  | idle
  | top
  /-- The sweep is done, at this clock value; the run trap is next. -/
  | enter (now : Word)
  | inGuest
  /-- Back from the run trap with this result. -/
  | exited (rc : HvReturn)
  /-- No cancel stood at the first test. -/
  | handle
  /-- The exit goes to the VMM, the latch is about to be dropped. -/
  | store
  /-- The exit was served here, the second test is next. -/
  | turnaround
  | returning (rc : HvReturn)
  deriving DecidableEq, Repr

inductive VcpuCall where
  | setPending (type : HvInterruptType) (pending : Bool)
  | setParked (parked : Bool)
  | setReg (reg : Nat) (value : Word)
  | getSysReg (host : Host) (enc : BitVec 16)
  | setSysReg (host : Host) (enc : BitVec 16) (value : Word)
  | setControlField (field : Nat) (value : Word)
  | setTrapDebugExceptions (on : Bool)
  | setTrapDebugRegAccesses (on : Bool)
  | setVtimerMask (masked : Bool)
  | setVtimerOffset (off : Word)

def VcpuCall.serve (call : VcpuCall) (v : VcpuView) : VcpuView :=
  match call with
  | .setPending type pending =>
      { v with s := hvVcpuSetPendingInterrupt v.g.cfg type pending v.s }
  | .setParked parked => { v with s := ohvVcpuSetParked v.g.cfg parked v.s }
  | .setReg reg value => (hvVcpuSetReg reg value v).2
  | .getSysReg host enc => (hvVcpuGetSysReg host enc v).view
  | .setSysReg host enc value => (hvVcpuSetSysReg host enc value v).2
  | .setControlField field value =>
      { v with s := (hvVcpuSetControlField v.g.cfg field value v.s).2 }
  | .setTrapDebugExceptions on => { v with s := hvVcpuSetTrapDebugExceptions on v.s }
  | .setTrapDebugRegAccesses on => { v with s := hvVcpuSetTrapDebugRegAccesses on v.s }
  | .setVtimerMask masked => { v with s := hvVcpuSetVtimerMask masked v.s }
  | .setVtimerOffset off => { v with s := hvVcpuSetVtimerOffset off v.s }

/-! ## The VMM's calls

What a call can write of the slot: the page, the register files, and the three
things the VMM says about interrupts, each by the call that says it. -/

/-- The level of this type the VMM last asked for. -/
def VcpuCall.asked (type : HvInterruptType) (level : Bool) : VcpuCall → Bool
  | .setPending named pending => if named = type then pending else level
  | _ => level

def VcpuCall.parks (parked : Bool) : VcpuCall → Bool
  | .setParked now => now
  | _ => parked

theorem hvVcpuSetPendingInterrupt_slot (cfg : OhvCfg) (type : HvInterruptType) (pending : Bool)
    (s : VcpuSlot) : hvVcpuSetPendingInterrupt cfg type pending s = { s with
      ctx := (hvVcpuSetPendingInterrupt cfg type pending s).ctx
      timerFiq := (hvVcpuSetPendingInterrupt cfg type pending s).timerFiq
      vmmFiq := (VcpuCall.setPending type pending).asked .fiq s.vmmFiq
      vmmIrq := (VcpuCall.setPending type pending).asked .irq s.vmmIrq } := by
  cases type with
  | fiq =>
      simp only [hvVcpuSetPendingInterrupt, ohvSetFiqLevel, VcpuCall.asked]
      rw [setHcrLevel_slot]
      rfl
  | irq =>
      simp only [hvVcpuSetPendingInterrupt, ohvSetIrqLevel, VcpuCall.asked]
      rw [setHcrLevel_slot]
      rfl

theorem ohvVcpuSetParked_slot (cfg : OhvCfg) (parked : Bool) (s : VcpuSlot) :
    ohvVcpuSetParked cfg parked s = { s with
      ctx := (ohvVcpuSetParked cfg parked s).ctx
      timerFiq := (ohvVcpuSetParked cfg parked s).timerFiq
      inWfx := parked } := by
  unfold ohvVcpuSetParked
  split
  · rename_i same
    rw [← same]
  · have levels := setLevels_slot cfg { s with inWfx := parked }
    rw [setLevels] at levels
    rw [levels]

theorem VcpuCall.serve_slot (call : VcpuCall) (v : VcpuView) : (call.serve v).s = { v.s with
    ctx := (call.serve v).s.ctx
    el2Shadow := (call.serve v).s.el2Shadow
    idRegs := (call.serve v).s.idRegs
    idRegsLoaded := (call.serve v).s.idRegsLoaded
    timerFiq := (call.serve v).s.timerFiq
    vmmFiq := call.asked .fiq v.s.vmmFiq
    vmmIrq := call.asked .irq v.s.vmmIrq
    inWfx := call.parks v.s.inWfx } := by
  have register : ∀ after : VcpuView, RegisterOnly v after → after.s = { v.s with
      ctx := after.s.ctx
      el2Shadow := after.s.el2Shadow
      idRegs := after.s.idRegs
      idRegsLoaded := after.s.idRegsLoaded
      timerFiq := after.s.timerFiq } := by
    intro after only
    rw [only.slot]
  cases call with
  | setPending type pending =>
      simp only [VcpuCall.serve]
      rw [hvVcpuSetPendingInterrupt_slot]
      rfl
  | setParked parked =>
      simp only [VcpuCall.serve]
      rw [ohvVcpuSetParked_slot]
      rfl
  | setReg reg value => exact register _ (hvVcpuSetReg_frame reg value v)
  | getSysReg host enc => exact register _ (sysregAccess_frame host enc 0 false v)
  | setSysReg host enc value =>
      have only := sysregAccess_frame host enc value true v
      rw [← hvVcpuSetSysReg_eq_access] at only
      exact register _ only
  | setControlField field value =>
      simp only [VcpuCall.serve, hvVcpuSetControlField]
      split
      · rfl
      · split <;> rfl
  | setTrapDebugExceptions _ | setTrapDebugRegAccesses _ | setVtimerMask _ | setVtimerOffset _ =>
      rfl

theorem VcpuCall.serve_globals (call : VcpuCall) (v : VcpuView) :
    (call.serve v).g = { v.g with sysregCaps := (call.serve v).g.sysregCaps } := by
  cases call with
  | setReg reg value => exact (hvVcpuSetReg_frame reg value v).globals
  | getSysReg host enc => exact (sysregAccess_frame host enc 0 false v).globals
  | setSysReg host enc value =>
      simp only [VcpuCall.serve, hvVcpuSetSysReg_eq_access]
      exact (sysregAccess_frame host enc value true v).globals
  | _ => rfl

abbrev VcpuId := Fin kMaxVcpuIds

def vcpu0 : VcpuId := ⟨0, by decide⟩
def vcpu1 : VcpuId := ⟨1, by decide⟩

structure System where
  g : Globals := {}
  slots : VcpuTable := fun _ => {}
  phase : VcpuId → RunPhase := fun _ => .idle
  /-- The `hv_vcpus_exit` calls that have latched and not yet trapped. -/
  cancels : List (List VcpuId) := []

inductive Act where
  | create (trap : CreateTrap)
  | destroy (i : VcpuId)
  | call (i : VcpuId) (call : VcpuCall)
  | gic (call : GicCall)
  | run (i : VcpuId)
  | expire (i : VcpuId) (now : Word)
  | enter (i : VcpuId)
  | leave (i : VcpuId) (page : Ctx) (rc : HvReturn) (ticks : Word)
  | check (i : VcpuId)
  | handle (i : VcpuId) (host : Host)
  | store (i : VcpuId)
  | recheck (i : VcpuId)
  | ret (i : VcpuId)
  /-- The stores of `hv_vcpus_exit`. -/
  | latch (ids : List VcpuId)
  /-- Its trap, of the call at this place in the list. -/
  | cancel (k : Nat)

namespace System

def view (s : System) (i : VcpuId) : VcpuView := ⟨s.g, s.slots i⟩

def setView (s : System) (i : VcpuId) (v : VcpuView) : System :=
  { s with g := v.g, slots := Function.update s.slots i v.s }

def setSlot (s : System) (i : VcpuId) (slot : VcpuSlot) : System :=
  { s with slots := Function.update s.slots i slot }

def goto (s : System) (i : VcpuId) (phase : RunPhase) : System :=
  { s with phase := Function.update s.phase i phase }

def settle (s : System) : System :=
  if s.g.cfgSettled then s else { s with g := { s.g with cfg := s.g.env, cfgSettled := true } }

/-- The exchange both tests are: the latch found standing is dropped and the run
ends as canceled. -/
def exchange (s : System) (i : VcpuId) (otherwise : RunPhase) : System :=
  if (s.slots i).exitRequested then
    (s.setSlot i { (s.slots i).setExit .canceled with exitRequested := false }).goto i
      (.returning hvSuccess)
  else s.goto i otherwise

def handled (s : System) (i : VcpuId) (host : Host) : System :=
  match exitFromRo host (s.view i) with
  | (.toVmm, v) => (s.setView i v).goto i .store
  | (.keepRunning, v) => (s.setView i v).goto i .turnaround

def latched (s : System) (ids : List VcpuId) : VcpuTable := fun i =>
  if i ∈ ids then { s.slots i with exitRequested := true } else s.slots i

def step (s : System) : Act → Option System
  | .create trap => some { s with slots := (hvVcpuCreate s.g trap s.slots).2 }
  | .destroy i =>
      if (s.slots i).used ∧ s.phase i = .idle then
        some { s with slots := hvVcpuDestroy i s.slots }
      else none
  | .call i call =>
      if (s.slots i).used ∧ s.phase i = .idle then some (s.setView i (call.serve (s.view i)))
      else none
  | .gic call =>
      let answer := call.serve s.g s.slots
      some { s with g := answer.g, slots := answer.slots }
  | .run i =>
      if (s.slots i).used ∧ s.phase i = .idle then some (s.settle.goto i .top) else none
  | .expire i now =>
      match s.phase i with
      | .top => some ((s.setView i (ohvExpireTimers now (s.view i))).goto i (.enter now))
      | _ => none
  | .enter i =>
      match s.phase i with
      | .enter _ => some (s.goto i .inGuest)
      | _ => none
  | .leave i page rc ticks =>
      match s.phase i with
      | .inGuest =>
          let slot := s.slots i
          some ((s.setSlot i { slot with
            ctx := page
            wfiTicks := slot.wfiTicks + ticks
            runCount := slot.runCount + 1 }).goto i (.exited rc))
      | _ => none
  | .check i =>
      match s.phase i with
      | .exited rc =>
          if rc ≠ hvSuccess then some (s.goto i (.returning rc)) else some (s.exchange i .handle)
      | _ => none
  | .handle i host =>
      match s.phase i with
      | .handle => some (s.handled i host)
      | _ => none
  | .store i =>
      match s.phase i with
      | .store =>
          some ((s.setSlot i { s.slots i with exitRequested := false }).goto i
            (.returning hvSuccess))
      | _ => none
  | .recheck i =>
      match s.phase i with
      | .turnaround => some (s.exchange i .top)
      | _ => none
  | .ret i =>
      match s.phase i with
      | .returning _ => some (s.goto i .idle)
      | _ => none
  | .latch ids => some { s with slots := s.latched ids, cancels := s.cancels ++ [ids] }
  | .cancel k =>
      if k < s.cancels.length then some { s with cancels := s.cancels.eraseIdx k } else none

end System

/-! ## One vCPU's share of a step -/

/-- The vCPU whose own thread takes the step. -/
def Act.owner : Act → Option VcpuId
  | .destroy i | .call i _ | .run i | .expire i _ | .enter i | .leave i _ _ _ | .check i
  | .handle i _ | .store i | .recheck i | .ret i => some i
  | .create _ | .gic _ | .latch _ | .cancel _ => none

/-- All a step can do to a live vCPU that it does not destroy: what becomes of
its slot and where its thread stands then. -/
inductive Turn (s : System) (i : VcpuId) : Act → VcpuSlot → RunPhase → Prop where
  | elsewhere (act : Act) (other : act.owner ≠ some i) : Turn s i act (s.slots i) (s.phase i)
  | gic (call : GicCall) (slot : VcpuSlot) (only : ControlOnly (s.slots i) slot) :
      Turn s i (.gic call) slot (s.phase i)
  | latch (ids : List VcpuId) (named : i ∈ ids) :
      Turn s i (.latch ids) { s.slots i with exitRequested := true } (s.phase i)
  | call (call : VcpuCall) (idle : s.phase i = .idle) :
      Turn s i (.call i call) (call.serve (s.view i)).s .idle
  | run (idle : s.phase i = .idle) : Turn s i (.run i) (s.slots i) .top
  | expire (now : Word) (top : s.phase i = .top) :
      Turn s i (.expire i now) (ohvExpireTimers now (s.view i)).s (.enter now)
  | enter (now : Word) (ready : s.phase i = .enter now) :
      Turn s i (.enter i) (s.slots i) .inGuest
  | leave (page : Ctx) (rc : HvReturn) (ticks : Word) (inside : s.phase i = .inGuest) :
      Turn s i (.leave i page rc ticks)
        { s.slots i with
          ctx := page
          wfiTicks := (s.slots i).wfiTicks + ticks
          runCount := (s.slots i).runCount + 1 } (.exited rc)
  | failed (rc : HvReturn) (back : s.phase i = .exited rc) (failure : rc ≠ hvSuccess) :
      Turn s i (.check i) (s.slots i) (.returning rc)
  | canceled (act : Act)
      (test : act = .check i ∧ s.phase i = .exited hvSuccess ∨
        act = .recheck i ∧ s.phase i = .turnaround)
      (standing : (s.slots i).exitRequested = true) :
      Turn s i act { (s.slots i).setExit .canceled with exitRequested := false }
        (.returning hvSuccess)
  | passed (back : s.phase i = .exited hvSuccess)
      (clear : (s.slots i).exitRequested = false) : Turn s i (.check i) (s.slots i) .handle
  | reported (host : Host) (ready : s.phase i = .handle)
      (out : (exitFromRo host (s.view i)).1 = .toVmm) :
      Turn s i (.handle i host) (exitFromRo host (s.view i)).2.s .store
  | served (host : Host) (ready : s.phase i = .handle)
      (keep : (exitFromRo host (s.view i)).1 = .keepRunning) :
      Turn s i (.handle i host) (exitFromRo host (s.view i)).2.s .turnaround
  | store (ready : s.phase i = .store) :
      Turn s i (.store i) { s.slots i with exitRequested := false } (.returning hvSuccess)
  | again (ready : s.phase i = .turnaround) (clear : (s.slots i).exitRequested = false) :
      Turn s i (.recheck i) (s.slots i) .top
  | ret (rc : HvReturn) (back : s.phase i = .returning rc) : Turn s i (.ret i) (s.slots i) .idle

namespace System

section Updates

variable (s : System) (i j : VcpuId)

@[simp] theorem setView_phase (v : VcpuView) : (s.setView i v).phase = s.phase := rfl
@[simp] theorem setSlot_phase (slot : VcpuSlot) : (s.setSlot i slot).phase = s.phase := rfl
@[simp] theorem goto_slots (phase : RunPhase) : (s.goto i phase).slots = s.slots := rfl

@[simp] theorem settle_slots : s.settle.slots = s.slots := by
  unfold settle
  split <;> rfl

@[simp] theorem settle_phase : s.settle.phase = s.phase := by
  unfold settle
  split <;> rfl

@[simp] theorem setView_slots_self (v : VcpuView) : (s.setView i v).slots i = v.s := by
  simp [setView]

@[simp] theorem setSlot_slots_self (slot : VcpuSlot) : (s.setSlot i slot).slots i = slot := by
  simp [setSlot]

@[simp] theorem goto_phase_self (phase : RunPhase) : (s.goto i phase).phase i = phase := by
  simp [goto]

variable {i j}

theorem setView_slots_of_ne (other : i ≠ j) (v : VcpuView) :
    (s.setView j v).slots i = s.slots i := by
  simp [setView, other]

theorem setSlot_slots_of_ne (other : i ≠ j) (slot : VcpuSlot) :
    (s.setSlot j slot).slots i = s.slots i := by
  simp [setSlot, other]

theorem goto_phase_of_ne (other : i ≠ j) (phase : RunPhase) :
    (s.goto j phase).phase i = s.phase i := by
  simp [goto, other]

theorem exchange_of_ne (other : i ≠ j) (phase : RunPhase) :
    (s.exchange j phase).slots i = s.slots i ∧ (s.exchange j phase).phase i = s.phase i := by
  unfold exchange
  split
  · exact ⟨s.setSlot_slots_of_ne other _, goto_phase_of_ne _ other _⟩
  · exact ⟨rfl, s.goto_phase_of_ne other _⟩

theorem handled_of_ne (other : i ≠ j) (host : Host) :
    (s.handled j host).slots i = s.slots i ∧ (s.handled j host).phase i = s.phase i := by
  unfold handled
  split <;> exact ⟨s.setView_slots_of_ne other _, goto_phase_of_ne _ other _⟩

end Updates

theorem step_of_ne {s t : System} {act : Act} {i j : VcpuId} (taken : s.step act = some t)
    (owner : act.owner = some j) (other : i ≠ j) :
    t.slots i = s.slots i ∧ t.phase i = s.phase i := by
  cases act with
  | create _ | gic _ | latch _ | cancel _ => cases owner
  | destroy k | call k _ | run k =>
      cases owner
      simp only [step, Option.ite_none_right_eq_some, Option.some.injEq] at taken
      obtain ⟨-, rfl⟩ := taken
      simp [setView_slots_of_ne, goto_phase_of_ne, hvVcpuDestroy, other]
  | expire k _ | enter k | leave k _ _ _ | handle k _ | store k | recheck k | ret k =>
      cases owner
      simp only [step] at taken
      split at taken
      · cases taken
        simp [setView_slots_of_ne, setSlot_slots_of_ne, goto_phase_of_ne, handled_of_ne,
          exchange_of_ne, other]
      · cases taken
  | check k =>
      cases owner
      simp only [step] at taken
      split at taken
      · split at taken <;> cases taken
        · exact ⟨rfl, s.goto_phase_of_ne other _⟩
        · exact s.exchange_of_ne other _
      · cases taken

theorem exchange_self (s : System) (i : VcpuId) (otherwise : RunPhase) :
    ((s.slots i).exitRequested = true ∧
        (s.exchange i otherwise).slots i =
          { (s.slots i).setExit .canceled with exitRequested := false } ∧
        (s.exchange i otherwise).phase i = .returning hvSuccess) ∨
      ((s.slots i).exitRequested = false ∧ (s.exchange i otherwise).slots i = s.slots i ∧
        (s.exchange i otherwise).phase i = otherwise) := by
  unfold exchange
  split
  · rename_i standing
    exact Or.inl ⟨standing, by simp, by simp⟩
  · rename_i clear
    exact Or.inr ⟨by simpa using clear, by simp, by simp⟩

theorem handled_self (s : System) (i : VcpuId) (host : Host) :
    (s.handled i host).slots i = (exitFromRo host (s.view i)).2.s ∧
      (s.handled i host).phase i =
        match (exitFromRo host (s.view i)).1 with
        | .toVmm => .store
        | .keepRunning => .turnaround := by
  unfold handled
  split <;> rename_i answer <;> rw [answer] <;> simp

theorem step_own {s t : System} {act : Act} {i : VcpuId} (taken : s.step act = some t)
    (own : act.owner = some i) (kept : act ≠ .destroy i) :
    Turn s i act (t.slots i) (t.phase i) := by
  cases act with
  | create _ | gic _ | latch _ | cancel _ => cases own
  | destroy j =>
      cases own
      exact absurd rfl kept
  | call j call =>
      cases own
      simp only [step, Option.ite_none_right_eq_some, Option.some.injEq] at taken
      obtain ⟨⟨-, idle⟩, rfl⟩ := taken
      simpa [idle] using Turn.call call idle
  | run j =>
      cases own
      simp only [step, Option.ite_none_right_eq_some, Option.some.injEq] at taken
      obtain ⟨⟨-, idle⟩, rfl⟩ := taken
      simpa using Turn.run idle
  | expire j now =>
      cases own
      simp only [step] at taken
      split at taken <;> cases taken
      rename_i top
      simpa using Turn.expire now top
  | enter j =>
      cases own
      simp only [step] at taken
      split at taken <;> cases taken
      rename_i now ready
      simpa using Turn.enter now ready
  | leave j page rc ticks =>
      cases own
      simp only [step] at taken
      split at taken <;> cases taken
      rename_i inside
      simpa using Turn.leave page rc ticks inside
  | check j =>
      cases own
      simp only [step] at taken
      split at taken
      · rename_i rc back
        split at taken <;> cases taken
        · rename_i failure
          simpa using Turn.failed rc back failure
        · rename_i success
          rw [not_not] at success
          subst success
          obtain ⟨standing, slot, phase⟩ | ⟨clear, slot, phase⟩ := s.exchange_self i .handle
          · rw [slot, phase]
            exact .canceled _ (Or.inl ⟨rfl, back⟩) standing
          · rw [slot, phase]
            exact .passed back clear
      · cases taken
  | handle j host =>
      cases own
      simp only [step] at taken
      split at taken <;> cases taken
      rename_i ready
      obtain ⟨slot, phase⟩ := s.handled_self i host
      rw [slot, phase]
      cases answer : (exitFromRo host (s.view i)).1 with
      | toVmm => exact .reported host ready answer
      | keepRunning => exact .served host ready answer
  | store j =>
      cases own
      simp only [step] at taken
      split at taken <;> cases taken
      rename_i ready
      simpa using Turn.store ready
  | recheck j =>
      cases own
      simp only [step] at taken
      split at taken <;> cases taken
      rename_i ready
      obtain ⟨standing, slot, phase⟩ | ⟨clear, slot, phase⟩ := s.exchange_self i .top
      · rw [slot, phase]
        exact .canceled _ (Or.inr ⟨rfl, ready⟩) standing
      · rw [slot, phase]
        exact .again ready clear
  | ret j =>
      cases own
      simp only [step] at taken
      split at taken <;> cases taken
      rename_i rc back
      simpa using Turn.ret rc back

/-- Every step of the system, seen from one live vCPU. -/
theorem step_turn {s t : System} {act : Act} (i : VcpuId) (taken : s.step act = some t)
    (live : (s.slots i).used = true) (kept : act ≠ .destroy i) :
    Turn s i act (t.slots i) (t.phase i) := by
  by_cases own : act.owner = some i
  · exact step_own taken own kept
  · have untouched : t.slots i = s.slots i → t.phase i = s.phase i →
        Turn s i act (t.slots i) (t.phase i) := by
      intro slot phase
      rw [slot, phase]
      exact .elsewhere act own
    cases owner : act.owner with
    | some j =>
        have other : i ≠ j := fun same => own (by rw [owner, same])
        obtain ⟨slot, phase⟩ := step_of_ne taken owner other
        exact untouched slot phase
    | none =>
        cases act with
        | destroy _ | call _ _ | run _ | expire _ _ | enter _ | leave _ _ _ _ | check _
        | handle _ _ | store _ | recheck _ | ret _ => cases owner
        | create trap =>
            cases taken
            exact untouched (hvVcpuCreate_other s.g trap s.slots i live) rfl
        | gic call =>
            cases taken
            exact .gic call _ ((GicCall.serve_frame call s.g s.slots).slot i)
        | latch ids =>
            cases taken
            by_cases named : i ∈ ids
            · simpa [latched, named] using Turn.latch (s := s) ids named
            · exact untouched (by simp [latched, named]) rfl
        | cancel k =>
            simp only [step, Option.ite_none_right_eq_some, Option.some.injEq] at taken
            obtain ⟨-, rfl⟩ := taken
            exact untouched rfl rfl

/-! ## The globals

What all vCPUs share changes little: the kind of VM and its memory not at all, and the
settled switches only from nothing to what the environment says. -/

structure GlobalsKept (before after : Globals) : Prop where
  env : after.env = before.env
  alive : after.vmAlive = before.vmAlive
  el2 : after.vmEl2 = before.vmEl2
  maps : after.maps = before.maps
  cfg : after.cfg = before.cfg ∨ after.cfg = before.env
  settled : before.cfgSettled = true → after.cfgSettled = true ∧ after.cfg = before.cfg

theorem GlobalsKept.refl (g : Globals) : GlobalsKept g g :=
  ⟨rfl, rfl, rfl, rfl, Or.inl rfl, fun done => ⟨done, rfl⟩⟩

theorem exchange_globals (s : System) (i : VcpuId) (otherwise : RunPhase) :
    (s.exchange i otherwise).g = s.g := by
  unfold exchange
  split <;> rfl

theorem step_globals {s t : System} {act : Act} (taken : s.step act = some t) :
    GlobalsKept s.g t.g := by
  cases act with
  | create _ | latch _ =>
      cases taken
      exact .refl s.g
  | gic call =>
      cases taken
      have only := (GicCall.serve_frame call s.g s.slots).globals
      show GlobalsKept s.g (call.serve s.g s.slots).g
      rw [only]
      exact ⟨rfl, rfl, rfl, rfl, Or.inl rfl, fun done => ⟨done, rfl⟩⟩
  | destroy i | cancel k =>
      simp only [step, Option.ite_none_right_eq_some, Option.some.injEq] at taken
      obtain ⟨-, rfl⟩ := taken
      exact .refl s.g
  | call i call =>
      simp only [step, Option.ite_none_right_eq_some, Option.some.injEq] at taken
      obtain ⟨-, rfl⟩ := taken
      show GlobalsKept s.g (call.serve (s.view i)).g
      rw [VcpuCall.serve_globals]
      exact ⟨rfl, rfl, rfl, rfl, Or.inl rfl, fun done => ⟨done, rfl⟩⟩
  | run i =>
      simp only [step, Option.ite_none_right_eq_some, Option.some.injEq] at taken
      obtain ⟨-, rfl⟩ := taken
      show GlobalsKept s.g s.settle.g
      unfold settle
      split
      · exact .refl s.g
      · rename_i unsettled
        exact ⟨rfl, rfl, rfl, rfl, Or.inr rfl, fun done => absurd done unsettled⟩
  | expire i now =>
      simp only [step] at taken
      split at taken <;> cases taken
      exact ⟨rfl, rfl, rfl, rfl, Or.inl rfl, fun done => ⟨done, rfl⟩⟩
  | handle i host =>
      simp only [step] at taken
      split at taken <;> cases taken
      have only := (ExitOnly.exitFromRo host (s.view i)).globals
      have same : (s.handled i host).g = (exitFromRo host (s.view i)).2.g := by
        unfold handled
        split <;> rename_i answer <;> rw [answer] <;> rfl
      rw [same, only]
      exact ⟨rfl, rfl, rfl, rfl, Or.inl rfl, fun done => ⟨done, rfl⟩⟩
  | enter i | leave i _ _ _ | store i | ret i =>
      simp only [step] at taken
      split at taken <;> cases taken
      exact .refl s.g
  | check i =>
      simp only [step] at taken
      split at taken
      · split at taken <;> cases taken
        · exact .refl s.g
        · rw [exchange_globals]
          exact .refl s.g
      · cases taken
  | recheck i =>
      simp only [step] at taken
      split at taken <;> cases taken
      rw [exchange_globals]
      exact .refl s.g

theorem run_settles {s t : System} {i : VcpuId} (taken : s.step (.run i) = some t) :
    t.g.cfgSettled = true := by
  simp only [step, Option.ite_none_right_eq_some, Option.some.injEq] at taken
  obtain ⟨-, rfl⟩ := taken
  show s.settle.g.cfgSettled = true
  unfold settle
  split
  · assumption
  · rfl

end System

end OpenHypervisor
