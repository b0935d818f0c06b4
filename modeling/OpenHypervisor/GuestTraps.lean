import OpenHypervisor.Footprint
import OpenHypervisor.GicRestore
import OpenHypervisor.NestedSpaces

/-!
# The traps a guest runs under

`hv_vcpu_create` turns on what the emulation of a guest hypervisor rests on: the redirection
of its registers, the traps of what it must not reach, the timers that come here, and with a
controller the virtual CPU interface.  None of this is the guest's to turn off.
-/

set_option autoImplicit false

namespace OpenHypervisor

open Ctx (Within)
open Runs

structure Pin where
  off : Nat
  mask : Word
  value : Word

namespace Pin

def Holds (pin : Pin) (c : Ctx) : Prop := c.control pin.off &&& pin.mask = pin.value

/-- A pin no operation of the library moves by itself. -/
def Fixed (pin : Pin) : Prop :=
  Configures (ohvRwControls + pin.off) ∧
    ∀ bit < 64, pin.mask.getLsbD bit = true → ¬ Steers (ohvRwControls + pin.off) bit

instance (pin : Pin) : Decidable pin.Fixed := inferInstanceAs (Decidable (_ ∧ _))

end Pin

/-- The traps of a guest hypervisor: in `HCR_EL2` the routing of its interrupts and aborts,
WFE, the ID registers, SMC and NV2, with VHE as it was asked for; the Apple traps; the
fine-grained ones; and the timers. -/
def nestedTraps (vhe : Bool) : List Pin := [
  ⟨0x00, ohvHcrFmo ||| ohvHcrImo ||| ohvHcrAmo ||| ohvHcrTwe ||| ohvHcrTid3 ||| ohvHcrTsc |||
      ohvHcrNv2 ||| ohvHcrE2h,
    ohvHcrFmo ||| ohvHcrImo ||| ohvHcrAmo ||| ohvHcrTwe ||| ohvHcrTid3 ||| ohvHcrTsc |||
      ohvHcrNv2 ||| (if vhe then ohvHcrE2h else 0)⟩,
  ⟨0x08, BitVec.allOnes 64, ohvHacrAppleDefault⟩,
  ⟨0x38, 0x2600, 0x2600⟩,
  ⟨0x40, 0x2000, 0x2000⟩,
  ⟨0x48, 0x3f000, 0x3f000⟩,
  ⟨0x60, 0x1fc00, 0x1e000⟩]

/-- `ICH_HCR_EL2.En`, without which the guest's interrupts go nowhere. -/
def interfaceOn : Pin := ⟨ichHcrOff, 1, 1⟩

theorem nestedTraps_fixed (vhe : Bool) : ∀ pin ∈ nestedTraps vhe, pin.Fixed := by
  cases vhe <;> decide +kernel

theorem interfaceOn_fixed : interfaceOn.Fixed := by decide +kernel

def Globals.traps (g : Globals) : List Pin :=
  (if g.vmEl2 then nestedTraps g.vmVhe else []) ++ if g.gic.isSome then [interfaceOn] else []

theorem Globals.traps_fixed (g : Globals) : ∀ pin ∈ g.traps, pin.Fixed := by
  intro pin member
  rcases List.mem_append.mp member with nested | interface
  · split at nested
    · exact nestedTraps_fixed _ pin nested
    · cases nested
  · split at interface
    · rw [List.mem_singleton.mp interface]
      exact interfaceOn_fixed
    · cases interface

/-! ## Creation -/

theorem nestControls_control (vhe : Bool) (c : Ctx) :
    (nestControls {} vhe c).control 0x08 = nestedHacr {} ∧
      (nestControls {} vhe c).control 0x38 = c.control 0x38 ||| 0x2600 ∧
      (nestControls {} vhe c).control 0x40 = c.control 0x40 ||| 0x2000 ∧
      (nestControls {} vhe c).control 0x48 = c.control 0x48 ||| 0x3f000 ∧
      (nestControls {} vhe c).control 0x60 = nestedCnthctl {} (c.control 0x60) := by
  simp [nestControls, Ctx.control, Ctx.setControl, Ctx.setHcr, Ctx.markDirty]

theorem nestedHcr_traps (vhe : Bool) (hcr : Word) :
    nestedHcr {} vhe hcr &&& (ohvHcrFmo ||| ohvHcrImo ||| ohvHcrAmo ||| ohvHcrTwe |||
        ohvHcrTid3 ||| ohvHcrTsc ||| ohvHcrNv2 ||| ohvHcrE2h) =
      ohvHcrFmo ||| ohvHcrImo ||| ohvHcrAmo ||| ohvHcrTwe ||| ohvHcrTid3 ||| ohvHcrTsc |||
        ohvHcrNv2 ||| (if vhe then ohvHcrE2h else 0) := by
  refine BitVec.eq_of_getLsbD_eq fun bit inside => ?_
  cases vhe <;>
    simp only [nestedHcr, ohvHcrNested, ohvHcrNv, ohvHcrNv2, ohvHcrE2h, ohvHcrTid3, ohvHcrTsc,
      ohvHcrAmo, ohvHcrImo, ohvHcrFmo, ohvHcrTwe, BitVec.getLsbD_and, BitVec.getLsbD_or,
      BitVec.getLsbD_not, BitVec.getLsbD_twoPow, Option.getD, if_true, if_false, inside,
      Bool.false_eq_true, decide_true, Bool.true_and] <;>
    grind

theorem nestControls_holds (vhe : Bool) (c : Ctx) :
    ∀ pin ∈ nestedTraps vhe, pin.Holds (nestControls {} vhe c) := by
  obtain ⟨hacr, reads, writes, instructions, timers⟩ := nestControls_control vhe c
  intro pin member
  simp only [nestedTraps, List.mem_cons, List.not_mem_nil, or_false] at member
  unfold Pin.Holds
  rcases member with rfl | rfl | rfl | rfl | rfl | rfl
  · have hcr := nestControls_hcr {} vhe c
    rw [Ctx.hcr] at hcr
    rw [hcr]
    exact nestedHcr_traps vhe _
  · rw [hacr]
    rfl
  · rw [reads]
    exact WordBits.or_and_self _ _
  · rw [writes]
    exact WordBits.or_and_self _ _
  · rw [instructions]
    exact WordBits.or_and_self _ _
  · rw [timers]
    exact WordBits.replace_and rfl _

theorem enableInterface_control (c : Ctx) (off : Nat) (other : off ≠ ichHcrOff)
    (inside : off < 0xd8) : (enableInterface c).control off = c.control off := by
  have apart : ohvRwControls + off ≠ ohvRwControls + ichHcrOff :=
    fun same => other (Nat.add_left_cancel same)
  have flags : ohvRwControls + off ≠ ohvRwStateDirty := by
    simp only [ohvRwControls, ohvRwStateDirty]
    omega
  simp only [enableInterface, markGic, Ctx.markDirty, Ctx.setControl, Ctx.control, Ctx.word_put,
    if_neg apart, if_neg flags]

theorem enableInterface_on (c : Ctx) : interfaceOn.Holds (enableInterface c) := by
  have written : (enableInterface c).control ichHcrOff = c.control ichHcrOff ||| 1 := by
    simp [enableInterface, markGic, Ctx.markDirty, Ctx.setControl, Ctx.control, ichHcrOff]
  unfold Pin.Holds interfaceOn
  rw [written]
  exact WordBits.or_and_self _ _

theorem createdCtx_holds {g : Globals} (default : g.cfg = {}) (page : Ctx) :
    ∀ pin ∈ g.traps, pin.Holds (createdCtx g page) := by
  have apart : ∀ vhe, ∀ pin ∈ nestedTraps vhe, pin.off ≠ ichHcrOff ∧ pin.off < 0xd8 := by decide
  intro pin member
  unfold createdCtx
  simp only [default]
  rcases List.mem_append.mp member with nested | interface
  · split at nested
    · rename_i el2
      have turned := nestControls_holds g.vmVhe page pin nested
      rw [if_pos el2]
      split
      · obtain ⟨other, inside⟩ := apart g.vmVhe pin nested
        exact (congrArg (· &&& pin.mask) (enableInterface_control _ _ other inside)).trans turned
      · exact turned
    · cases nested
  · split at interface
    · rename_i present
      rw [List.mem_singleton.mp interface, if_pos present]
      exact enableInterface_on _
    · cases interface

/-! ## One piece of work -/

theorem Pin.Holds.within {host : Host} {named : Nat → Prop} {before c : Ctx} {pin : Pin}
    (holds : pin.Holds before) (within : Within host named before c) (fixed : pin.Fixed)
    (other : ¬ named (ohvRwControls + pin.off)) (quiet : host.Quiet) : pin.Holds c := by
  obtain ⟨configures, still⟩ := fixed
  have kernel : ∀ k c, (host.sync k c).word (ohvRwControls + pin.off) =
      c.word (ohvRwControls + pin.off) := fun k c => quiet k c _ configures.control.1
  refine Eq.trans (BitVec.eq_of_getLsbD_eq fun bit inside => ?_) holds
  rw [BitVec.getLsbD_and, BitVec.getLsbD_and]
  cases masked : pin.mask.getLsbD bit with
  | false => rw [Bool.and_false, Bool.and_false]
  | true =>
      have same := within.bit (Or.inr (Or.inl configures)) (still bit inside masked) other kernel
      exact congrArg (· && true) same

/-- The kernel only reads the run controls, and the VMM does not write a word of a trap. -/
def VcpuWork.KeepsTraps (g : Globals) (s : VcpuSlot) : VcpuWork → Prop
  | .returned page _ => s.ctx.SameControls page
  | .exit host => host.Quiet
  | .call made => made.host.Quiet ∧ ∀ pin ∈ g.traps, ¬ made.Names (ohvRwControls + pin.off)
  | .settle | .expire _ | .canceled | .stored => True

theorem VcpuWork.serve_holds (work : VcpuWork) (v : VcpuView) (keeps : work.KeepsTraps v.g v.s)
    {pin : Pin} (member : pin ∈ v.g.traps) (holds : pin.Holds v.s.ctx) :
    pin.Holds (work.serve v).s.ctx := by
  have fixed := v.g.traps_fixed pin member
  cases work with
  | settle =>
      simp only [VcpuWork.serve]
      split <;> exact holds
  | expire now =>
      have within : Within {} (fun _ => False) v.s.ctx (ohvExpireTimers now v).s.ctx :=
        ohvExpireTimers_within now v
      exact holds.within within fixed id fun _ c => .refl c
  | returned page ticks =>
      have same : page.control pin.off = v.s.ctx.control pin.off :=
        keeps _ fixed.1.control.1
      exact (congrArg (· &&& pin.mask) same).trans holds
  | canceled => exact holds
  | exit host =>
      refine holds.within (exitFromRo_goesOn v) fixed ?_ keeps
      rintro ⟨-, moves⟩
      exact fixed.1.control.2 moves.surfaced
  | stored => exact holds
  | call made => exact holds.within (made.serve_within v) fixed (keeps.2 pin member) keeps.1

theorem VcpuWork.serve_traps (work : VcpuWork) (v : VcpuView) :
    (work.serve v).g.traps = v.g.traps := by
  cases work with
  | settle =>
      simp only [VcpuWork.serve]
      split <;> rfl
  | exit host =>
      simp only [VcpuWork.serve]
      rw [(ExitOnly.exitFromRo host v).globals]
      rfl
  | call made =>
      simp only [VcpuWork.serve]
      rw [VcpuCall.serve_globals]
      rfl
  | expire | returned | canceled | stored => rfl

/-! ## One call to the controller -/

theorem setBank_gic (g : Globals) (slots : VcpuTable) (id : Nat) (slot : Option Nat)
    (write : GicModel → Nat → Nat → GicModel) :
    (setBank g slots id slot write).g.gic.isSome = g.gic.isSome := by
  unfold setBank
  split
  · rename_i gic _
    split
    · rfl
    · split
      · rfl
      · rw [gic]
        rfl
  · rfl

/-- Beside a live vCPU no call makes a controller, and none removes one. -/
theorem GicCall.serve_gic (call : GicCall) (g : Globals) {slots : VcpuTable}
    {i : Fin kMaxVcpuIds} (live : (slots i).used = true) :
    (call.serve g slots).g.gic.isSome = g.gic.isSome := by
  have found : (firstUsed slots).isSome = true :=
    List.find?_isSome.mpr ⟨i, List.mem_finRange i, live⟩
  cases call with
  | create base =>
      simp only [GicCall.serve, hvGicCreate, found, if_true]
      split <;> rfl
  | setRedistributorReg | setIccReg | setIcvReg => exact setBank_gic g slots ..
  | setDistributorReg offset value =>
      simp only [GicCall.serve, hvGicSetDistributorReg]
      split
      · rfl
      · rename_i gic
        split
        · rfl
        · split
          · rfl
          · rw [gic]
            rfl
  | setMsiReg offset value =>
      simp only [GicCall.serve, hvGicSetMsiReg]
      split
      · rfl
      · rename_i gic
        split
        · rfl
        · rw [gic]
          rfl
  | setIchReg id enc value =>
      simp only [GicCall.serve, hvGicSetIchReg]
      split
      · rename_i gic _
        split
        · rfl
        · split
          · rfl
          · rw [gic]
            rfl
      · rfl
  | setSpi intid level =>
      simp only [GicCall.serve, hvGicSetSpi]
      split
      · rfl
      · rename_i gic
        split
        · rfl
        · rw [gic]
          split <;> rfl
  | reset =>
      simp only [GicCall.serve, hvGicReset]
      split
      · rfl
      · rename_i gic
        rw [gic]
        rfl
  | setState data =>
      simp only [GicCall.serve, hvGicSetState]
      split
      · rfl
      · rename_i gic
        rw [gic]
        rfl

theorem GicCall.serve_traps (call : GicCall) (g : Globals) {slots : VcpuTable}
    {i : Fin kMaxVcpuIds} (live : (slots i).used = true) :
    (call.serve g slots).g.traps = g.traps := by
  have present := call.serve_gic g live
  rw [(call.serve_frame g slots).globals]
  simp only [Globals.traps, present]

/-! ## The process -/

/-- What a call is granted: each piece of work keeps the traps of the vCPU it reaches, and no
controller call turns its interface off. -/
def KeepsTraps (p : Process) (act : Thread × LibCall) (_ : Process) : Prop :=
  match act.2 with
  | .work id work => ∀ i, ownedVcpu p.slots (p.current act.1) id = some i →
      work.KeepsTraps p.g (p.slots i)
  | .gic call => ∀ pin ∈ p.g.traps, ¬ call.Names (ohvRwControls + pin.off)
  | _ => True

structure TrapsStand (p : Process) : Prop where
  alive : ∀ i, (p.slots i).used = true → p.g.vmAlive = true
  switches : DefaultSwitches p.g
  held : ∀ i, (p.slots i).used = true → ∀ pin ∈ p.g.traps, pin.Holds (p.slots i).ctx

namespace TrapsStand

variable {p q : Process}

theorem of_same (stand : TrapsStand p)
    (slots : ∀ i, (q.slots i).used = true → (p.slots i).used = true ∧
      (q.slots i).ctx = (p.slots i).ctx)
    (alive : q.g.vmAlive = p.g.vmAlive) (switches : DefaultSwitches q.g)
    (traps : q.g.traps = p.g.traps) : TrapsStand q where
  alive i live := alive.trans (stand.alive i (slots i live).1)
  switches := switches
  held i live pin member := by
    rw [(slots i live).2]
    exact stand.held i (slots i live).1 pin (traps ▸ member)

theorem of_empty (empty : ∀ i, (q.slots i).used = false) (switches : DefaultSwitches q.g) :
    TrapsStand q where
  alive i live := absurd ((empty i).symm.trans live) Bool.false_ne_true
  switches := switches
  held i live := absurd ((empty i).symm.trans live) Bool.false_ne_true

theorem start : TrapsStand {} := of_empty (fun _ => rfl) ⟨rfl, rfl⟩

theorem vmCreate (stand : TrapsStand p) (config : Option VmConfig) (answer : HvReturn)
    (spaces : Nat → SpaceAnswer) : TrapsStand (p.vmCreate config answer spaces).2 := by
  by_cases created : p.g.vmAlive = false ∧ answer = hvSuccess
  · have same : (p.vmCreate config answer spaces).2.slots = p.slots ∧
        (p.vmCreate config answer spaces).2.g.env = p.g.env ∧
        (p.vmCreate config answer spaces).2.g.cfg = p.g.cfg := by
      unfold Process.vmCreate hvVmCreate
      simp [created]
    obtain ⟨slots, env, cfg⟩ := same
    refine of_empty (fun i => ?_) ⟨env.trans stand.switches.1, cfg.trans stand.switches.2⟩
    rw [slots]
    by_contra live
    have alive := stand.alive i (Bool.not_eq_false _ ▸ live)
    exact Bool.false_ne_true (created.1.symm.trans alive)
  · rw [Process.vmCreate_refused created]
    exact stand

theorem vmDestroy (stand : TrapsStand p) (answer : HvReturn) :
    TrapsStand (p.vmDestroy answer).2 := by
  by_cases accepted : p.g.vmAlive = true ∧ answer = hvSuccess
  · obtain ⟨alive, rfl⟩ := accepted
    rw [Process.vmDestroy_accepted alive]
    exact of_empty (fun _ => rfl) stand.switches
  · rw [Process.vmDestroy_refused accepted]
    exact stand

theorem memory (stand : TrapsStand p) (call : MemCall) (answer : HvReturn)
    (nested : Nat → HvReturn) : TrapsStand (p.memory call answer nested).2 := by
  have same : (p.memory call answer nested).2.slots = p.slots ∧
      (p.memory call answer nested).2.g = (call.serve answer p.g).2 := by
    unfold Process.memory
    simp only
    split <;> exact ⟨rfl, rfl⟩
  obtain ⟨slots, globals⟩ := same
  rw [MemCall.serve_globals] at globals
  refine stand.of_same (fun i live => ?_) ?_ ?_ ?_
  · rw [slots] at live ⊢
    exact ⟨live, rfl⟩
  · rw [globals]
  · rw [globals]
    exact stand.switches
  · rw [globals]
    rfl

theorem vcpuCreate (stand : TrapsStand p) (t : Thread) (call : CreateCall) :
    TrapsStand (p.vcpuCreate t call).2 := by
  have outcome := p.vcpuCreate_outcome t call
  generalize p.vcpuCreate t call = answer at outcome ⊢
  cases outcome with
  | refused | mismatched => exact ⟨stand.alive, stand.switches, stand.held⟩
  | made i target _ _ =>
      have alive := (Process.createTarget_ok target).1
      refine ⟨fun _ _ => alive, stand.switches, fun j live pin member => ?_⟩
      by_cases here : j = i
      · subst here
        have slot : (p.accepted t call j).slots j =
            createdSlot p.g j call.trap.page (p.slots j) := Function.update_self ..
        rw [slot]
        exact createdCtx_holds stand.switches.2 _ pin member
      · have slot : (p.accepted t call i).slots j = p.slots j := Function.update_of_ne here ..
        rw [slot] at live ⊢
        exact stand.held j live pin member

theorem vcpuDestroy (stand : TrapsStand p) (t : Thread) (id : Nat) (answer : HvReturn) :
    TrapsStand (p.vcpuDestroy t id answer).2 := by
  cases found : findVcpu p.slots id with
  | none =>
      rw [Process.vcpuDestroy_absent t answer found]
      exact stand
  | some i =>
      rw [Process.vcpuDestroy_found t answer found]
      refine stand.of_same (fun j live => ?_) rfl stand.switches rfl
      by_cases here : j = i
      · subst here
        rw [p.gone_slot] at live
        cases live
      · rw [p.gone_slot_other t i j answer here] at live ⊢
        exact ⟨live, rfl⟩

theorem exits (stand : TrapsStand p) (ids : List Nat) :
    TrapsStand { p with slots := hvVcpusExit ids p.slots } := by
  refine stand.of_same (fun i live => ⟨(hvVcpusExit_used ids p.slots i).symm.trans live, ?_⟩)
    rfl stand.switches rfl
  show (hvVcpusExit ids p.slots i).ctx = (p.slots i).ctx
  unfold hvVcpusExit
  split <;> rfl

theorem work (stand : TrapsStand p) (t : Thread) (id : Nat) (work : VcpuWork)
    (keeps : ∀ i, ownedVcpu p.slots (p.current t) id = some i →
      work.KeepsTraps p.g (p.slots i)) : TrapsStand (p.work t id work) := by
  cases owned : ownedVcpu p.slots (p.current t) id with
  | none =>
      rw [Process.work_refused owned]
      exact stand
  | some i =>
      have served : p.work t id work = { p with
          g := (work.serve ⟨p.g, p.slots i⟩).g
          slots := Function.update p.slots i (work.serve ⟨p.g, p.slots i⟩).s } := by
        unfold Process.work
        rw [owned]
      have kept := work.serve_globals ⟨p.g, p.slots i⟩
      have traps := work.serve_traps ⟨p.g, p.slots i⟩
      refine ⟨fun j live => ?_, ?_, fun j live pin member => ?_⟩
      · rw [Process.work_used] at live
        rw [served]
        exact kept.alive.trans (stand.alive j live)
      · rw [served]
        refine ⟨kept.env.trans stand.switches.1, ?_⟩
        rcases kept.cfg with same | settled
        · exact same.trans stand.switches.2
        · exact settled.trans stand.switches.1
      · rw [Process.work_used] at live
        have listed : pin ∈ p.g.traps := by
          rw [served] at member
          exact traps ▸ member
        by_cases here : j = i
        · subst here
          have slot : (p.work t id work).slots j = (work.serve ⟨p.g, p.slots j⟩).s := by
            rw [served]
            exact Function.update_self ..
          rw [slot]
          exact work.serve_holds ⟨p.g, p.slots j⟩ (keeps j owned) listed
            (stand.held j live pin listed)
        · rw [Process.work_other owned here]
          exact stand.held j live pin listed

theorem gic (stand : TrapsStand p) (call : GicCall)
    (keeps : ∀ pin ∈ p.g.traps, ¬ call.Names (ohvRwControls + pin.off)) :
    TrapsStand { p with
      g := (call.serve p.g p.slots).g
      slots := (call.serve p.g p.slots).slots } := by
  have frame := call.serve_frame p.g p.slots
  have used : ∀ i, ((call.serve p.g p.slots).slots i).used = (p.slots i).used := fun i => by
    rw [(frame.slot i).slot]
  refine ⟨fun i live => ?_, ?_, fun i live pin member => ?_⟩
  · show (call.serve p.g p.slots).g.vmAlive = true
    rw [frame.globals]
    exact stand.alive i ((used i).symm.trans live)
  · show DefaultSwitches (call.serve p.g p.slots).g
    rw [frame.globals]
    exact stand.switches
  · have live' := (used i).symm.trans live
    have listed : pin ∈ p.g.traps := call.serve_traps p.g live' ▸ member
    have within : Within {} call.Names (p.slots i).ctx
        ((call.serve p.g p.slots).slots i).ctx := call.serve_within p.g p.slots i
    exact (stand.held i live' pin listed).within within (p.g.traps_fixed pin listed)
      (keeps pin listed) fun _ c => .refl c

theorem step (stand : TrapsStand p) {act : Thread × LibCall} {next : Process}
    (taken : p.step act = some next) (keeps : KeepsTraps p act next) : TrapsStand next := by
  cases taken
  obtain ⟨t, call⟩ := act
  cases call with
  | vmCreate config answer spaces => exact stand.vmCreate config answer spaces
  | vmDestroy answer => exact stand.vmDestroy answer
  | memory call answer nested => exact stand.memory call answer nested
  | table call =>
      cases call with
      | create call => exact stand.vcpuCreate t call
      | destroy id answer => exact stand.vcpuDestroy t id answer
  | exits ids answer => exact stand.exits ids
  | work id work => exact stand.work t id work keeps
  | gic call => exact stand.gic call keeps

end TrapsStand

/-- Over any history of calls, of any threads, every live vCPU has the traps its VM's kind
asks for turned on, as long as the VMM itself writes none of those words. -/
theorem guest_traps_stand {p : Process} {word : List (Thread × LibCall)}
    (ran : runFrom Process.step {} word = some p)
    (keeps : Along Process.step KeepsTraps {} word) :
    ∀ i, (p.slots i).used = true → ∀ pin ∈ p.g.traps, pin.Holds (p.slots i).ctx :=
  (invariant_along TrapsStand (fun _ _ _ taken keeps stand => stand.step taken keeps) keeps ran
    .start).held

def nestedVm : Globals :=
  { vmAlive := true, vmEl2 := true, vmVhe := true, gic := some (createdModel 0x8010000) }

/-- A page of its first vCPU: an ERET to EL1 out of the guest hypervisor. -/
def returnPage : Ctx :=
  ((createdCtx nestedVm versionedPage).withExit 1 0x6a000000).setBanked 14 0x5

/-- Such a VM, and the exit served. -/
def returnHistory : List (Thread × LibCall) :=
  [(0, .vmCreate (some { el2Enabled := true, vheEnabled := true }) hvSuccess
      fun i => { asid := BitVec.ofNat 64 (i + 1) }),
    (1, .gic (.create 0x8010000)),
    (1, .table (.create { trap := { page := versionedPage } })),
    (1, .work 0 (.returned returnPage 3)),
    (1, .work 0 (.exit {}))]

theorem guest_traps_stand_eret : ∃ p, runFrom Process.step {} returnHistory = some p ∧
    (p.slots vcpu0).guestAtEl2 = false ∧ (p.slots vcpu0).ctx.hcr.getLsbD 42 = false ∧
    ∀ pin ∈ nestedVm.traps, pin.Holds (p.slots vcpu0).ctx := by
  have keeps : Along Process.step KeepsTraps {} returnHistory := by
    refine (Along.cons_of_step rfl).mpr ⟨trivial, (Along.cons_of_step rfl).mpr ⟨nofun, ?_⟩⟩
    refine (Along.cons_of_step rfl).mpr ⟨trivial, (Along.cons_of_step rfl).mpr ⟨?_, ?_⟩⟩
    · rintro i owned
      cases owned
      exact WordMem.AgreeOn.put (Ctx.SameControls.withExit _ _ _) _ _ (by decide)
    · exact (Along.cons_of_step rfl).mpr ⟨fun _ _ _ c => .refl c, trivial⟩
  have stands : ∀ p, runFrom Process.step {} returnHistory = some p →
      ∀ i, (p.slots i).used = true → ∀ pin ∈ p.g.traps, pin.Holds (p.slots i).ctx :=
    fun _ ran => guest_traps_stand ran keeps
  exact ⟨_, rfl, rfl, rfl, stands _ rfl vcpu0 rfl⟩

end OpenHypervisor
