import OpenHypervisor.VcpuLife

/-!
# Nested virtualisation over a vCPU's life

The three flags of `Nesting` and the rest of `HCR_EL2`, over every run of a
vCPU.  An exit moves them as the automaton says; no other step moves them at
all, the two interrupt levels excepted.
-/

set_option autoImplicit false

namespace OpenHypervisor

/-- All of `HCR_EL2` but the interrupt levels, and the two flags. -/
structure Steady (before after : VcpuSlot) : Prop where
  hcr : ∀ k, k ≠ 6 → k ≠ 7 → after.ctx.hcr.getLsbD k = before.ctx.hcr.getLsbD k
  atEl2 : after.guestAtEl2 = before.guestAtEl2
  geret : after.nvOffForGeret = before.nvOffForGeret

namespace Steady

theorem nesting {before after : VcpuSlot} (steady : Steady before after) :
    after.nesting = before.nesting := by
  simp only [VcpuSlot.nesting, steady.hcr 42 (by decide) (by decide), steady.atEl2, steady.geret]

theorem refl (s : VcpuSlot) : Steady s s := ⟨fun _ _ _ => rfl, rfl, rfl⟩

theorem trans {first second third : VcpuSlot} (left : Steady first second)
    (right : Steady second third) : Steady first third where
  hcr k notVf notVi := (right.hcr k notVf notVi).trans (left.hcr k notVf notVi)
  atEl2 := right.atEl2.trans left.atEl2
  geret := right.geret.trans left.geret

theorem ofHcr {before after : VcpuSlot} (hcr : after.ctx.hcr = before.ctx.hcr)
    (atEl2 : after.guestAtEl2 = before.guestAtEl2)
    (geret : after.nvOffForGeret = before.nvOffForGeret) : Steady before after :=
  ⟨fun _ _ _ => by rw [hcr], atEl2, geret⟩

theorem setHcrLevel (n : Nat) (level : n = 6 ∨ n = 7) (want : Bool) (s : VcpuSlot) :
    Steady s (setHcrLevel n want s) where
  hcr k notVf notVi := by
    have other : k ≠ n := by rcases level with rfl | rfl <;> assumption
    rw [setHcrLevel_hcr n want s (by omega), if_neg other]
  atEl2 := by rw [setHcrLevel_slot]
  geret := by rw [setHcrLevel_slot]

theorem setLevels (cfg : OhvCfg) (s : VcpuSlot) : Steady s (setLevels cfg s) := by
  rw [setLevels_eq]
  have flag : Steady s { s with timerFiq := wantTimerFiq cfg s } := ⟨fun _ _ _ => rfl, rfl, rfl⟩
  exact (flag.trans (.setHcrLevel 6 (Or.inl rfl) _ _)).trans (.setHcrLevel 7 (Or.inr rfl) _ _)

theorem control {before after : VcpuSlot} (only : ControlOnly before after) :
    Steady before after :=
  .ofHcr only.page.hcr (by rw [only.slot]) (by rw [only.slot])

theorem register {before after : VcpuView} (only : RegisterOnly before after)
    (hcr : after.s.ctx.hcr = before.s.ctx.hcr) : Steady before.s after.s :=
  .ofHcr hcr (by rw [only.slot]) (by rw [only.slot])

theorem call {s : System} {i : VcpuId} {next : System} (call : VcpuCall)
    (granted : Granted i s (.call i call) next) (v : VcpuView) : Steady v.s (call.serve v).s := by
  cases call with
  | setPending type pending =>
      have asked : ∀ fiq irq, Steady v.s { v.s with vmmFiq := fiq, vmmIrq := irq } :=
        fun _ _ => ⟨fun _ _ _ => rfl, rfl, rfl⟩
      have flag : ∀ timer, Steady v.s { v.s with vmmFiq := pending, timerFiq := timer } :=
        fun _ => ⟨fun _ _ _ => rfl, rfl, rfl⟩
      cases type with
      | fiq => exact (flag _).trans (.setHcrLevel 6 (Or.inl rfl) _ _)
      | irq => exact (asked v.s.vmmFiq pending).trans (.setHcrLevel 7 (Or.inr rfl) _ _)
  | setParked parked =>
      simp only [VcpuCall.serve, ohvVcpuSetParked]
      split
      · exact .refl v.s
      · have flag : Steady v.s { v.s with inWfx := parked } := ⟨fun _ _ _ => rfl, rfl, rfl⟩
        exact flag.trans (.setLevels v.g.cfg _)
  | setReg reg value => exact .register (hvVcpuSetReg_frame reg value v) (hvVcpuSetReg_hcr reg value v)
  | getSysReg host enc =>
      exact .register (sysregAccess_frame host enc 0 false v)
        (sysregAccess_hcr host (granted rfl) enc 0 false v)
  | setSysReg host enc value =>
      simp only [VcpuCall.serve, hvVcpuSetSysReg_eq_access]
      exact .register (sysregAccess_frame host enc value true v)
        (sysregAccess_hcr host (granted rfl) enc value true v)
  | setControlField field value =>
      exact .control (hvVcpuSetControlField_frame v.g.cfg field value v.s (granted rfl))
  | setTrapDebugExceptions on => exact .control (switchControl_frame _ _ on v.s (by decide))
  | setTrapDebugRegAccesses on => exact .control (switchControl_frame _ _ on v.s (by decide))
  | setVtimerMask masked => exact .control (switchControl_frame _ _ masked v.s (by decide))
  | setVtimerOffset off => exact .control (hvVcpuSetVtimerOffset_frame off v.s)

theorem turn {s next : System} {i : VcpuId} {act : Act} {slot : VcpuSlot} {phase : RunPhase}
    (turn : Turn s i act slot phase) (granted : Granted i s act next)
    (other : ∀ host, act ≠ .handle i host) : Steady (s.slots i) slot := by
  cases turn with
  | gic _ _ only => exact .control only
  | call call _ => exact .call call granted (s.view i)
  | expire now _ =>
      refine ⟨fun k notVf notVi => ohvExpireTimers_hcr now (s.view i) k notVf notVi, ?_, ?_⟩ <;>
        rw [ohvExpireTimers_slot] <;> rfl
  | leave page _ _ _ => exact .ofHcr (granted rfl).hcr rfl rfl
  | reported host _ _ | served host _ _ => exact absurd rfl (other host)
  | _ => exact ⟨fun _ _ _ => rfl, rfl, rfl⟩

end Steady

/-! ## An exit under the default switches -/

def Ctx.SyncExit (c : Ctx) : Prop := c.exitReason.toNat = 1 ∨ c.exitReason.toNat = 8

def Ctx.HandoffWrite (c : Ctx) : Prop :=
  c.exitReason.toNat = 8 ∧ c.exitEc = 0x18 ∧ (SysAccess.ofEsr c.exitEsr).IsHandoff

/-- The two exits that put the guest at EL2. -/
def VcpuSlot.TakesEl2 (s : VcpuSlot) : Prop :=
  s.ctx.HandoffWrite ∨ s.ctx.SyncExit ∧ s.ctx.exitEc = 0x16 ∧ s.guestAtEl2 = false

instance (c : Ctx) : Decidable c.SyncExit := inferInstanceAs (Decidable (_ ∨ _))
instance (c : Ctx) : Decidable c.HandoffWrite := inferInstanceAs (Decidable (_ ∧ _))
instance (s : VcpuSlot) : Decidable s.TakesEl2 := inferInstanceAs (Decidable (_ ∨ _))

/-- A trapped ERET that takes NV off, told by the page the exit is handled on and
the kernel's answers to the two questions about it: a guarded return, or one to
the guest's own EL1. -/
def ReturnTakesNvOff (host : Host) (page : Ctx) (atEl2 : Bool) : Prop :=
  let first := host.sync 1 page
  let second := host.sync 2 first
  page.SyncExit ∧ page.TrappedEret ∧
    (eretIsGuarded first = true ∨
      first.TrappedEret ∧ atEl2 = true ∧ eretIsGuarded second = false ∧
        (second.banked 14 &&& 0xf = 0x4 ∨ second.banked 14 &&& 0xf = 0x5))

instance (host : Host) (page : Ctx) (atEl2 : Bool) :
    Decidable (ReturnTakesNvOff host page atEl2) :=
  inferInstanceAs (Decidable (_ ∧ _))

section Arrival

variable (cfg : OhvCfg) (host : Host) (s : VcpuSlot) (default : cfg = {})

include default

theorem arriveExit_default : arriveExit cfg host s =
    recordExit (if kernelVa ≤ (restoreNv s).ctx.pc ∧ (restoreNv s).ctx.hcr &&& ohvHcrNv = 0 then
      (restoreNv s).armNv else restoreNv s) := by
  subst default
  simp [arriveExit, mirrorGl1, rearmNv]

theorem arriveExit_word (off : Nat) (notHcr : off ≠ ohvRwControls)
    (notDirty : off ≠ ohvRwStateDirty) :
    (arriveExit cfg host s).ctx.word off = s.ctx.word off := by
  have restored : (restoreNv s).ctx.word off = s.ctx.word off := by
    unfold restoreNv
    split
    · exact armNv_word s off notHcr notDirty
    · rfl
  rw [arriveExit_default cfg host s default]
  show (ite _ _ _ : VcpuSlot).ctx.word off = _
  split
  · rw [armNv_word _ off notHcr notDirty, restored]
  · exact restored

theorem arriveExit_atEl2 : (arriveExit cfg host s).guestAtEl2 = s.guestAtEl2 := by
  have restored : (restoreNv s).guestAtEl2 = s.guestAtEl2 := by
    unfold restoreNv
    split <;> rfl
  rw [arriveExit_default cfg host s default]
  show (ite _ _ _ : VcpuSlot).guestAtEl2 = _
  split <;> exact restored

theorem arriveExit_takesEl2 : (arriveExit cfg host s).TakesEl2 ↔ s.TakesEl2 := by
  have esr : (arriveExit cfg host s).ctx.exitEsr = s.ctx.exitEsr :=
    arriveExit_word cfg host s default _ (by decide) (by decide)
  have reason : (arriveExit cfg host s).ctx.exitReason = s.ctx.exitReason := by
    simp only [Ctx.exitReason, Ctx.lo32,
      arriveExit_word cfg host s default ohvRoExitReason (by decide) (by decide)]
  simp only [VcpuSlot.TakesEl2, Ctx.HandoffWrite, Ctx.SyncExit, Ctx.exitEc, esr, reason,
    arriveExit_atEl2 cfg host s default]

theorem arrivalPc_default : arrivalPc cfg host s = s.ctx.pc := by
  subst default
  simp only [arrivalPc, mirrorGl1, Bool.false_eq_true, false_and, if_false]
  unfold restoreNv
  split
  · exact armNv_word s ohvRwPc (by decide) (by decide)
  · rfl

/-- The page an exit inside a monitor is handled on while NV is off. -/
theorem arriveExit_rearmed (clear : s.ctx.hcr.getLsbD 42 = false) (notGuarded : s.ctx.exitEc ≠ 0x3f)
    (inside : kernelVa ≤ s.ctx.pc) : (arriveExit cfg host s).ctx = s.armNv.ctx := by
  have restored : restoreNv s = s := by
    unfold restoreNv
    rw [if_neg (fun both => notGuarded both.2)]
  rw [arriveExit_default cfg host s default, restored,
    if_pos ⟨inside, (hcrNv_clear_iff _).mpr clear⟩]
  rfl

end Arrival

section DefaultExit

variable (host : Host) (v : VcpuView) (default : v.g.cfg = {})

include default

theorem softMove_default : softMove host v =
    if v.s.ctx.TrappedEret ∧ v.s.guestAtEl2 = true ∧
        eretIsGuarded (host.sync 2 v.s.ctx) = false ∧
        ((host.sync 2 v.s.ctx).banked 14 &&& 0xf = 0x4 ∨
          (host.sync 2 v.s.ctx).banked 14 &&& 0xf = 0x5) then .returnToEl1
    else .stay := by
  have switch : v.g.cfg.noEretEmulation = false := by rw [default]
  simp only [softMove, VcpuView.sync, VcpuView.setCtx, switch, true_and, ← ite_and, and_assoc]

theorem eretMove_default : eretMove host v =
    if v.s.ctx.TrappedEret ∧ eretIsGuarded (host.sync 1 v.s.ctx) = true then .handToHardware
    else if v.s.ctx.TrappedEret then softMove host (v.sync host 1)
    else .stay := by
  have switch : v.g.cfg.noHwGeret = false := by rw [default]
  by_cases eret : v.s.ctx.TrappedEret
  · by_cases guarded : eretIsGuarded (host.sync 1 v.s.ctx) = true <;>
      simp only [eretMove, switch, eret, guarded, VcpuView.sync, VcpuView.setCtx, and_self,
        and_false, if_true, if_false, Bool.false_eq_true]
  · simp only [eretMove, eret, softMove, false_and, and_false, if_false]

theorem syncMove_default : syncMove host v =
    if v.s.ctx.exitEc = 0x16 ∧ v.s.guestAtEl2 = false then .takeEl2 else eretMove host v := by
  have spin : v.g.cfg.spinWfi = false := by rw [default]
  have injection : v.g.cfg.noEl2Injection = false := by rw [default]
  simp only [syncMove, spin, Bool.false_eq_true, false_and, if_false, VcpuView.InjectsHvc,
    injection, and_true]

theorem eretMove_ne_takeEl2 : eretMove host v ≠ .takeEl2 := by
  rw [eretMove_default host v default]
  split
  · exact nofun
  · split
    · rw [softMove_default host (v.sync host 1) default]
      split <;> exact nofun
    · exact nofun

theorem exitMove_takeEl2_iff : exitMove host v = .takeEl2 ↔ v.s.TakesEl2 := by
  have injected : syncMove host v = .takeEl2 ↔
      v.s.ctx.exitEc = 0x16 ∧ v.s.guestAtEl2 = false := by
    rw [syncMove_default host v default]
    split
    · rename_i hvc
      exact iff_of_true rfl hvc
    · rename_i other
      exact iff_of_false (eretMove_ne_takeEl2 host v default) other
  unfold exitMove VcpuSlot.TakesEl2 Ctx.HandoffWrite Ctx.SyncExit
  split
  · rename_i reason
    simp only [reason, true_and, or_true]
    split
    · rename_i msr
      simp only [msr, true_and]
      split <;> rename_i handoff <;> simp [handoff]
    · rename_i other
      simp only [other, false_and, false_or, injected]
  · rename_i reason
    simp only [reason, true_or, true_and, injected]
    simp
  · rename_i not8 not1
    exact iff_of_false nofun (by
      rintro (⟨reason, -⟩ | ⟨reason | reason, -⟩)
      · exact not8 reason
      · exact not1 reason
      · exact not8 reason)

theorem exitMove_nvOff_iff : exitMove host v = .handToHardware ∨ exitMove host v = .returnToEl1 ↔
    ReturnTakesNvOff host v.s.ctx v.s.guestAtEl2 := by
  have returned : (syncMove host v = .handToHardware ∨ syncMove host v = .returnToEl1) ↔
      v.s.ctx.TrappedEret ∧ (eretIsGuarded (host.sync 1 v.s.ctx) = true ∨
        (host.sync 1 v.s.ctx).TrappedEret ∧ v.s.guestAtEl2 = true ∧
          eretIsGuarded (host.sync 2 (host.sync 1 v.s.ctx)) = false ∧
          ((host.sync 2 (host.sync 1 v.s.ctx)).banked 14 &&& 0xf = 0x4 ∨
            (host.sync 2 (host.sync 1 v.s.ctx)).banked 14 &&& 0xf = 0x5)) := by
    rw [syncMove_default host v default]
    by_cases eret : v.s.ctx.TrappedEret
    · have noHvc : ¬ (v.s.ctx.exitEc = 0x16 ∧ v.s.guestAtEl2 = false) := by
        rintro ⟨ec, -⟩
        rw [eret.1] at ec
        exact absurd ec (by decide)
      rw [if_neg noHvc, eretMove_default host v default]
      by_cases guarded : eretIsGuarded (host.sync 1 v.s.ctx) = true
      · simp [eret, guarded]
      · rw [if_neg (fun both => guarded both.2), if_pos eret,
          softMove_default host (v.sync host 1) default]
        simp only [eret, guarded, true_and, Bool.false_eq_true, false_or]
        split
        · rename_i taken
          exact iff_of_true (Or.inr rfl) taken
        · rename_i other
          exact iff_of_false (by simp) other
    · have stays : (if v.s.ctx.exitEc = 0x16 ∧ v.s.guestAtEl2 = false then NestMove.takeEl2
          else eretMove host v) = .takeEl2 ∨ (if v.s.ctx.exitEc = 0x16 ∧ v.s.guestAtEl2 = false
          then NestMove.takeEl2 else eretMove host v) = .stay := by
        split
        · exact Or.inl rfl
        · rw [eretMove_default host v default, if_neg (fun both => eret both.1), if_neg eret]
          exact Or.inr rfl
      refine iff_of_false ?_ (fun both => eret both.1)
      rcases stays with move | move <;> rw [move] <;> simp
  unfold exitMove ReturnTakesNvOff Ctx.SyncExit
  split
  · rename_i reason
    simp only [reason, or_true, true_and]
    split
    · rename_i msr
      have noEret : ¬ v.s.ctx.TrappedEret := by
        rintro ⟨ec, -⟩
        rw [msr] at ec
        exact absurd ec (by decide)
      split <;> simp [noEret]
    · exact returned
  · rename_i reason
    simp only [reason, true_or, true_and]
    exact returned
  · rename_i not8 not1
    refine iff_of_false (by simp) ?_
    rintro ⟨reason | reason, -⟩
    · exact not1 reason
    · exact not8 reason

theorem exitMove_arrived_iff :
    exitMove host { v with s := arriveExit v.g.cfg host v.s } = .takeEl2 ↔ v.s.TakesEl2 := by
  rw [exitMove_takeEl2_iff host { v with s := arriveExit v.g.cfg host v.s } default]
  exact arriveExit_takesEl2 _ host v.s default

/-- One exit under the default switches, as a step of the automaton. -/
theorem exitFromRo_nesting (quiet : host.Quiet) : (exitFromRo host v).2.s.nesting =
    v.s.nesting.exit (decide (v.s.ctx.exitEc = 0x3f)) (decide (kernelVa ≤ v.s.ctx.pc))
      (exitMove host { v with s := arriveExit v.g.cfg host v.s }) := by
  have monitor : v.g.cfg.noMonitorNv = false := by rw [default]
  rw [(exitFromRo_moves host quiet v).nesting, arrivalPc_default _ host v.s default, monitor]
  rfl

end DefaultExit

/-! ## In a VM with EL2 -/

/-- What holds of a vCPU of an EL2 VM in every state it reaches. -/
structure NestedInv (created : VcpuSlot) (s : System) (i : VcpuId) : Prop where
  standing : Standing true s i
  sound : (s.slots i).nesting.Sound
  traps : ∀ k, k ≠ 42 → k ≠ 7 → k ≠ 6 →
    (s.slots i).ctx.hcr.getLsbD k = created.ctx.hcr.getLsbD k

theorem NestedInv.step {created : VcpuSlot} {s t : System} {act : Act} {i : VcpuId}
    (taken : s.step act = some t) (granted : Granted i s act t) (inv : NestedInv created s i) :
    NestedInv created t i := by
  have turn := System.step_turn i taken inv.standing.live granted.kept
  refine ⟨inv.standing.step taken granted.kept, ?_, ?_⟩
  · by_cases handles : ∃ host, act = .handle i host
    · obtain ⟨host, rfl⟩ := handles
      rw [turn.handled, exitFromRo_nesting host (s.view i) inv.standing.switches.2 (granted rfl)]
      exact inv.sound.exit _ _ _
    · rw [(Steady.turn turn granted fun host same => handles ⟨host, same⟩).nesting]
      exact inv.sound
  · intro k notNv notVi notVf
    rw [← inv.traps k notNv notVi notVf]
    by_cases handles : ∃ host, act = .handle i host
    · obtain ⟨host, rfl⟩ := handles
      rw [turn.handled]
      exact (exitFromRo_moves host (granted rfl) (s.view i)).traps k notNv
    · exact (Steady.turn turn granted fun host same => handles ⟨host, same⟩).hcr k notVf notVi

theorem Fresh.nestedInv {s : System} {i : VcpuId} (fresh : Fresh s i) (el2 : s.g.vmEl2 = true)
    (switches : DefaultSwitches s.g) : NestedInv (s.slots i) s i := by
  refine ⟨⟨fresh.live, el2, switches⟩, fun _ => Or.inl ?_, fun _ _ _ _ => rfl⟩
  obtain ⟨page, cancel, slot⟩ := fresh.slot
  have armed : (createdCtx s.g page).hcr.getLsbD 42 = true := by
    rw [createdCtx_hcr, if_pos el2, switches.2]
    exact nestedHcr_nv _ _
  rw [slot]
  exact armed

/-- At guest EL2 an ERET traps, or belongs to a guarded return under way; and
`HCR_EL2` is what the creation made it but for NV and the two levels. -/
theorem nestedState_sound {s t : System} {i : VcpuId} {word : List Act} (fresh : Fresh s i)
    (el2 : s.g.vmEl2 = true) (switches : DefaultSwitches s.g)
    (granted : Runs.Along System.step (Granted i) s word)
    (run : Runs.runFrom System.step s word = some t) :
    ((t.slots i).guestAtEl2 = true →
      (t.slots i).ctx.hcr.getLsbD 42 = true ∨ (t.slots i).nvOffForGeret = true) ∧
    ∀ k, k ≠ 42 → k ≠ 7 → k ≠ 6 →
      (t.slots i).ctx.hcr.getLsbD k = (s.slots i).ctx.hcr.getLsbD k := by
  have inv : NestedInv (s.slots i) t i :=
    Runs.invariant_along (fun s' => NestedInv (s.slots i) s' i)
      (fun _ _ _ taken granted inv => inv.step taken granted) granted run
      (fresh.nestedInv el2 switches)
  exact ⟨inv.sound, inv.traps⟩

def geretHost : Host := { sync := fun _ c => c.setExt 52 0x4 }

theorem geretHost_quiet : geretHost.Quiet := fun _ c =>
  ((Ctx.Keeps.refl c).setExt 52 0x4 (by decide)).sameControls

def el2Start : System := freshSystem { vmAlive := true, vmEl2 := true } blankPage

def geretPage : Ctx := (nestControls {} false blankPage).withExit 1 0x68000000

def handedPage : Ctx := (handEretToHardware { ctx := geretHost.sync 1 geretPage }).ctx

def geretRun (page : Ctx) : List Act :=
  .run vcpu0 :: oneExit vcpu0 0 geretPage geretHost ++ .recheck vcpu0 :: oneExit vcpu0 0 page {}

def monitorFault : Ctx := (handedPage.setPc kernelVa).withExit 1 0x90000000

def guardedExitPage : Ctx := handedPage.withExit 1 0xfc000000

theorem geretRun_granted (page : Ctx) (same : handedPage.SameControls page) :
    Runs.Along System.step (Granted vcpu0) el2Start (geretRun page) := by
  refine Runs.Along.append rfl ?_ ?_
  · refine (Runs.Along.cons_of_step rfl).mpr ⟨trivial, ?_⟩
    refine oneExit_granted rfl ?_ geretHost_quiet
    exact .withExit _ _ _
  · refine (Runs.Along.cons_of_step rfl).mpr ⟨trivial, ?_⟩
    refine oneExit_granted rfl ?_ Host.quiet_default
    exact same

theorem nestedState_sound_geretRun : ∃ t,
    Runs.runFrom System.step el2Start (geretRun monitorFault) = some t ∧
    ((t.slots vcpu0).guestAtEl2 = true →
      (t.slots vcpu0).ctx.hcr.getLsbD 42 = true ∨ (t.slots vcpu0).nvOffForGeret = true) ∧
    ∀ k, k ≠ 42 → k ≠ 7 → k ≠ 6 →
      (t.slots vcpu0).ctx.hcr.getLsbD k = (el2Start.slots vcpu0).ctx.hcr.getLsbD k :=
  ⟨_, rfl, nestedState_sound (freshSystem_fresh _ _) rfl ⟨rfl, rfl⟩
    (geretRun_granted monitorFault
      (((Ctx.Keeps.refl handedPage).setPc kernelVa).sameControls.trans (.withExit _ _ _))) rfl⟩

/-! ## The promise of a guarded return -/

/-- From the hand-over to the guarded exit NV is clear. -/
def GeretKept (s : System) (i : VcpuId) : Prop :=
  (s.slots i).nvOffForGeret = true → (s.slots i).ctx.hcr.getLsbD 42 = false

/-- An exit that keeps the promise: it is the guarded exit, or it neither puts
the guest at EL2 nor comes from inside a monitor, a return that takes NV off
again excepted. -/
def KeepsGeret (host : Host) (s : VcpuSlot) : Prop :=
  s.nvOffForGeret = true → s.ctx.exitEc = 0x3f ∨
    ¬ s.TakesEl2 ∧ (kernelVa ≤ s.ctx.pc → ReturnTakesNvOff host s.armNv.ctx s.guestAtEl2)

theorem exit_geretKept_iff (host : Host) (quiet : host.Quiet) (v : VcpuView)
    (default : v.g.cfg = {})
    (kept : v.s.nvOffForGeret = true → v.s.ctx.hcr.getLsbD 42 = false) :
    ((exitFromRo host v).2.s.nvOffForGeret = true →
      (exitFromRo host v).2.s.ctx.hcr.getLsbD 42 = false) ↔ KeepsGeret host v.s := by
  have moved := exitFromRo_nesting host v default quiet
  have arrived := exitMove_arrived_iff host v default
  have returned : v.s.nvOffForGeret = true → v.s.ctx.exitEc ≠ 0x3f → kernelVa ≤ v.s.ctx.pc →
      (exitMove host { v with s := arriveExit v.g.cfg host v.s } = .handToHardware ∨
        exitMove host { v with s := arriveExit v.g.cfg host v.s } = .returnToEl1 ↔
          ReturnTakesNvOff host v.s.armNv.ctx v.s.guestAtEl2) := by
    intro pending notGuarded inside
    rw [exitMove_nvOff_iff host { v with s := arriveExit v.g.cfg host v.s } default,
      arriveExit_atEl2 _ host v.s default,
      arriveExit_rearmed _ host v.s default (kept pending) notGuarded inside]
  have automaton := Nesting.exit_geret_iff (n := v.s.nesting) kept
    (decide (v.s.ctx.exitEc = 0x3f)) (decide (kernelVa ≤ v.s.ctx.pc))
    (exitMove host { v with s := arriveExit v.g.cfg host v.s })
  rw [← moved] at automaton
  refine automaton.trans (forall_congr' fun pending => ?_)
  simp only [decide_eq_true_eq, ne_eq, arrived]
  by_cases guarded : v.s.ctx.exitEc = 0x3f
  · simp only [guarded, true_or]
  · simp only [guarded, false_or]
    exact and_congr_right fun _ => forall_congr' fun inside => returned pending guarded inside

theorem geretKept_iff {s : System} {i : VcpuId} {word : List Act} (fresh : Fresh s i)
    (el2 : s.g.vmEl2 = true) (switches : DefaultSwitches s.g)
    (granted : Runs.Along System.step (Granted i) s word) :
    Runs.Along System.step (fun _ _ t => GeretKept t i) s word ↔
      Runs.Along System.step
        (fun s act _ => ∀ host, act = .handle i host → KeepsGeret host (s.slots i)) s word := by
  have agree : ∀ (s : System) (act : Act) (t : System), s.step act = some t →
      Granted i s act t → Standing true s i ∧ GeretKept s i →
      (GeretKept t i ↔ ∀ host, act = .handle i host → KeepsGeret host (s.slots i)) := by
    rintro s act t taken granted ⟨standing, kept⟩
    have turn := System.step_turn i taken standing.live granted.kept
    by_cases handles : ∃ host, act = .handle i host
    · obtain ⟨host, rfl⟩ := handles
      have exit := exit_geretKept_iff host (granted rfl) (s.view i) standing.switches.2 kept
      unfold GeretKept
      rw [turn.handled]
      constructor
      · rintro held other ⟨rfl⟩
        exact exit.mp held
      · intro keeps
        exact exit.mpr (keeps host rfl)
    · have steady := Steady.turn turn granted fun host same => handles ⟨host, same⟩
      have still : GeretKept t i := by
        unfold GeretKept
        rw [steady.geret, steady.hcr 42 (by decide) (by decide)]
        exact kept
      exact iff_of_true still fun host same => absurd ⟨host, same⟩ handles
  refine Runs.along_iff_of_step (fun s => Standing true s i ∧ GeretKept s i) agree ?_
    granted ⟨⟨fresh.live, el2, switches⟩, ?_⟩
  · intro s act t taken granted keeps inv
    exact ⟨inv.1.step taken granted.kept, (agree s act t taken granted inv).mpr keeps⟩
  · obtain ⟨page, cancel, slot⟩ := fresh.slot
    intro pending
    rw [slot] at pending
    cases pending

theorem geretKept_guardedExit :
    Runs.Along System.step (fun _ _ t => GeretKept t vcpu0) el2Start
      (geretRun guardedExitPage) := by
  refine (geretKept_iff (freshSystem_fresh _ _) rfl ⟨rfl, rfl⟩
    (geretRun_granted guardedExitPage (.withExit _ _ _))).mpr ?_
  refine Runs.Along.append rfl ?_ ?_
  · refine (Runs.Along.cons_of_step rfl).mpr ⟨nofun, ?_⟩
    refine oneExit_handled rfl ?_
    exact fun pending => absurd pending (by decide)
  · refine (Runs.Along.cons_of_step rfl).mpr ⟨nofun, ?_⟩
    refine oneExit_handled rfl ?_
    exact fun _ => Or.inl (by decide)

/-- A fault inside the monitor before the guarded exit: NV is back on with the
flag still up. -/
theorem geret_broken_by_fault :
    Fresh el2Start vcpu0 ∧ el2Start.g.vmEl2 = true ∧ DefaultSwitches el2Start.g ∧
    Runs.Along System.step (Granted vcpu0) el2Start (geretRun monitorFault) ∧
    ∃ t, Runs.runFrom System.step el2Start (geretRun monitorFault) = some t ∧
      (t.slots vcpu0).nvOffForGeret = true ∧ (t.slots vcpu0).ctx.hcr.getLsbD 42 = true :=
  ⟨freshSystem_fresh _ _, rfl, ⟨rfl, rfl⟩,
    geretRun_granted monitorFault
      (((Ctx.Keeps.refl handedPage).setPc kernelVa).sameControls.trans (.withExit _ _ _)),
    _, rfl, by decide, by decide⟩

/-! ## In a VM without EL2 -/

def HvcReported (host : Host) (v : VcpuView) : Prop :=
  let answer := exitFromRo host v
  let after := answer.2.s
  answer.1 = .toVmm ∧ after.pubExit.reason = .exception ∧
    after.pubExit.syndrome = v.s.ctx.exitEsr ∧ after.ctx.pc = v.s.ctx.pc ∧
    after.ctx.cpsr = v.s.ctx.cpsr ∧ after.ctx.banked 3 = v.s.ctx.banked 3 ∧
    after.ctx.banked 5 = v.s.ctx.banked 5 ∧ after.ctx.banked 14 = v.s.ctx.banked 14

/-- A step that leaves the nested machinery alone: NV is not set, neither on the
arrival of an exit nor after it, the guest is not said to be at EL2, and an HVC
goes to the VMM. -/
structure NestingInert (i : VcpuId) (s : System) (act : Act) (t : System) : Prop where
  nv : (s.slots i).ctx.hcr.getLsbD 42 = false → (t.slots i).ctx.hcr.getLsbD 42 = false ∧
    ∀ host, act = .handle i host →
      (arriveExit s.g.cfg host (s.slots i)).ctx.hcr.getLsbD 42 = false
  atEl1 : (t.slots i).guestAtEl2 = false
  hvc : ∀ host, act = .handle i host → (s.slots i).ctx.exitReason.toNat = 1 →
    (s.slots i).ctx.exitEc = 0x16 → HvcReported host (s.view i)

/-- An exit that cannot set the machinery off: no HVC, no handoff write, and with
NV clear no PC inside a monitor and no guarded exit of a return handed over. -/
def LeavesInert (s : VcpuSlot) : Prop :=
  ¬ s.TakesEl2 ∧ (s.ctx.hcr.getLsbD 42 = false →
    s.ctx.pc < kernelVa ∧ ¬ (s.nvOffForGeret = true ∧ s.ctx.exitEc = 0x3f))

theorem exit_inert_iff (host : Host) (quiet : host.Quiet) (v : VcpuView) (default : v.g.cfg = {})
    (atEl1 : v.s.guestAtEl2 = false) :
    ((v.s.ctx.hcr.getLsbD 42 = false →
        (arriveExit v.g.cfg host v.s).ctx.hcr.getLsbD 42 = false ∧
          (exitFromRo host v).2.s.ctx.hcr.getLsbD 42 = false) ∧
      (exitFromRo host v).2.s.guestAtEl2 = false) ↔ LeavesInert v.s := by
  have arrived := exitMove_arrived_iff host v default
  have monitor : v.g.cfg.noMonitorNv = false := by rw [default]
  have arrival := (arriveExit_moves v.g.cfg host quiet v.s).nesting
  simp only [arrivalPc_default _ host v.s default, monitor, Bool.not_false, Bool.true_and]
    at arrival
  have automaton := Nesting.exit_inert_iff (n := v.s.nesting) atEl1
    (decide (v.s.ctx.exitEc = 0x3f)) (decide (kernelVa ≤ v.s.ctx.pc))
    (exitMove host { v with s := arriveExit v.g.cfg host v.s })
  rw [← exitFromRo_nesting host v default quiet, ← arrival] at automaton
  refine automaton.trans ?_
  simp only [LeavesInert, ne_eq, arrived, decide_eq_true_eq, decide_eq_false_iff_not,
    BitVec.not_le]
  rfl

theorem nestingInert_iff {s : System} {i : VcpuId} {word : List Act} (fresh : Fresh s i)
    (el1 : s.g.vmEl2 = false) (switches : DefaultSwitches s.g)
    (granted : Runs.Along System.step (Granted i) s word) :
    (∀ page free, s.slots i = createdSlot s.g i page free →
      (s.slots i).ctx.hcr = page.hcr ∧ (s.slots i).guestAtEl2 = false) ∧
    (Runs.Along System.step (NestingInert i) s word ↔
      Runs.Along System.step
        (fun s act _ => ∀ host, act = .handle i host → LeavesInert (s.slots i)) s word) := by
  have created : ∀ page free, s.slots i = createdSlot s.g i page free →
      (s.slots i).ctx.hcr = page.hcr ∧ (s.slots i).guestAtEl2 = false := by
    intro page free slot
    rw [slot]
    refine ⟨?_, el1⟩
    show (createdCtx s.g page).hcr = page.hcr
    rw [createdCtx_hcr, el1]
    rfl
  have agree : ∀ (s : System) (act : Act) (t : System), s.step act = some t →
      Granted i s act t → Standing false s i ∧ (s.slots i).guestAtEl2 = false →
      (NestingInert i s act t ↔ ∀ host, act = .handle i host → LeavesInert (s.slots i)) := by
    rintro s act t taken granted ⟨standing, atEl1⟩
    have turn := System.step_turn i taken standing.live granted.kept
    by_cases handles : ∃ host, act = .handle i host
    · obtain ⟨host, rfl⟩ := handles
      have exit := exit_inert_iff host (granted rfl) (s.view i) standing.switches.2 atEl1
      rw [← turn.handled] at exit
      constructor
      · rintro inert - -
        exact exit.mp ⟨fun clear => ⟨(inert.nv clear).2 host rfl, (inert.nv clear).1⟩, inert.atEl1⟩
      · intro leaves
        have inert := leaves host rfl
        obtain ⟨nv, after⟩ := exit.mpr inert
        refine ⟨fun clear => ⟨(nv clear).2, ?_⟩, after, ?_⟩
        · rintro other ⟨rfl⟩
          exact (nv clear).1
        · rintro other ⟨rfl⟩ reason hvc
          exact absurd (Or.inr ⟨Or.inl reason, hvc, atEl1⟩) inert.1
    · have steady := Steady.turn turn granted fun host same => handles ⟨host, same⟩
      refine iff_of_true ⟨fun clear => ⟨?_, ?_⟩, steady.atEl2.trans atEl1, ?_⟩ ?_
      · exact (steady.hcr 42 (by decide) (by decide)).trans clear
      all_goals exact fun host same => absurd ⟨host, same⟩ handles
  refine ⟨created, Runs.along_iff_of_step
    (fun s => Standing false s i ∧ (s.slots i).guestAtEl2 = false) agree ?_ granted
    ⟨⟨fresh.live, el1, switches⟩, ?_⟩⟩
  · intro s act t taken granted leaves inv
    exact ⟨inv.1.step taken granted.kept, ((agree s act t taken granted inv).mpr leaves).atEl1⟩
  · obtain ⟨page, cancel, slot⟩ := fresh.slot
    exact (created page _ slot).2

def el1Start : System := freshSystem { vmAlive := true } blankPage

def syncRun (esr : Word) : List Act :=
  .run vcpu0 :: oneExit vcpu0 0 (blankPage.withExit 1 esr) {}

theorem syncRun_granted (esr : Word) :
    Runs.Along System.step (Granted vcpu0) el1Start (syncRun esr) := by
  refine (Runs.Along.cons_of_step rfl).mpr ⟨trivial, ?_⟩
  refine oneExit_granted rfl ?_ Host.quiet_default
  exact .withExit _ _ _

theorem nestingInert_dataAbort :
    Runs.Along System.step (NestingInert vcpu0) el1Start (syncRun 0x90000000) := by
  refine (nestingInert_iff (freshSystem_fresh _ _) rfl ⟨rfl, rfl⟩ (syncRun_granted _)).2.mpr ?_
  refine (Runs.Along.cons_of_step rfl).mpr ⟨nofun, ?_⟩
  refine oneExit_handled (C := fun _ s => LeavesInert s) rfl ?_
  exact ⟨by decide, fun _ => ⟨by decide, by decide⟩⟩

/-- An HVC from an ordinary guest: not reported, but injected at an EL2 the guest
does not have. -/
theorem hvc_injected_without_el2 :
    Fresh el1Start vcpu0 ∧ el1Start.g.vmEl2 = false ∧ DefaultSwitches el1Start.g ∧
    Runs.Along System.step (Granted vcpu0) el1Start (syncRun 0x58000000) ∧
    ¬ Runs.Along System.step (NestingInert vcpu0) el1Start (syncRun 0x58000000) ∧
    ∃ t, Runs.runFrom System.step el1Start (syncRun 0x58000000) = some t ∧
      t.phase vcpu0 = .turnaround ∧ (t.slots vcpu0).guestAtEl2 = true ∧
      (t.slots vcpu0).ctx.hcr.getLsbD 42 = true ∧ (t.slots vcpu0).ctx.pc = 0x400 := by
  refine ⟨freshSystem_fresh _ _, rfl, ⟨rfl, rfl⟩, syncRun_granted _, fun inert => ?_,
    _, rfl, by decide, by decide, by decide, by decide⟩
  have last : NestingInert vcpu0 _ _ _ :=
    Runs.Along.at_step (syncRun 0x58000000).dropLast inert rfl rfl
  exact absurd last.atEl1 (by decide)

end OpenHypervisor
