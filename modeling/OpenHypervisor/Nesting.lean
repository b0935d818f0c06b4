import OpenHypervisor.ExitHandling

/-!
# Who is at guest EL2

What exit handling does to the three flags that decide how an ERET of the guest
behaves: `HCR_EL2.NV`, `guest_at_el2` and `nv_off_for_geret`.  The abstract side
is an automaton on those three with four moves; `exitFromRo_moves` is the
refinement, and says as well that no other bit of `HCR_EL2` is touched.
-/

set_option autoImplicit false

namespace OpenHypervisor

/-! ## The automaton -/

structure Nesting where
  nv : Bool
  atEl2 : Bool
  geret : Bool
  deriving DecidableEq, Repr

inductive NestMove where
  | stay
  /-- An exception into guest EL2, or the boot ROM's word that the monitor is
  next. -/
  | takeEl2
  /-- A guarded ERET left to the silicon. -/
  | handToHardware
  /-- A plain ERET to the guest's own EL1, carried out here. -/
  | returnToEl1
  deriving DecidableEq, Repr

namespace Nesting

def guardedExit (guarded : Bool) (n : Nesting) : Nesting :=
  if n.geret && guarded then { n with nv := true, geret := false } else n

def monitorPc (inside : Bool) (n : Nesting) : Nesting :=
  if inside then { n with nv := true } else n

def move : NestMove → Nesting → Nesting
  | .stay, n => n
  | .takeEl2, n => { n with nv := true, atEl2 := true }
  | .handToHardware, n => { n with nv := false, geret := true }
  | .returnToEl1, n => { n with nv := false, atEl2 := false }

def exit (guarded inside : Bool) (m : NestMove) (n : Nesting) : Nesting :=
  ((n.guardedExit guarded).monitorPc inside).move m

/-- An ERET executed with NV off at guest EL2 is only legal inside the guarded
state the hardware was left to enter. -/
def Sound (n : Nesting) : Prop := n.atEl2 = true → n.nv = true ∨ n.geret = true

theorem Sound.exit {n : Nesting} (sound : n.Sound) (guarded inside : Bool) (m : NestMove) :
    (n.exit guarded inside m).Sound := by
  obtain ⟨nv, atEl2, geret⟩ := n
  revert sound
  cases m <;> cases nv <;> cases atEl2 <;> cases geret <;> cases guarded <;> cases inside <;>
    simp [Sound, Nesting.exit, guardedExit, monitorPc, move]

/-- When an exit keeps the promise of a guarded return: NV clear until the
guarded exit that ends it. -/
theorem exit_geret_iff {n : Nesting} (clear : n.geret = true → n.nv = false)
    (guarded inside : Bool) (m : NestMove) :
    ((n.exit guarded inside m).geret = true → (n.exit guarded inside m).nv = false) ↔
      (n.geret = true → guarded = true ∨
        m ≠ .takeEl2 ∧ (inside = true → m = .handToHardware ∨ m = .returnToEl1)) := by
  obtain ⟨nv, atEl2, geret⟩ := n
  revert clear
  cases m <;> cases nv <;> cases geret <;> cases guarded <;> cases inside <;>
    simp [Nesting.exit, guardedExit, monitorPc, move]

/-- When an exit of a guest that never was at EL2 leaves it so and never writes
NV, on arrival or after. -/
theorem exit_inert_iff {n : Nesting} (atEl1 : n.atEl2 = false) (guarded inside : Bool)
    (m : NestMove) :
    ((n.nv = false → ((n.guardedExit guarded).monitorPc inside).nv = false ∧
        (n.exit guarded inside m).nv = false) ∧ (n.exit guarded inside m).atEl2 = false) ↔
      (m ≠ .takeEl2 ∧
        (n.nv = false → inside = false ∧ ¬ (n.geret = true ∧ guarded = true))) := by
  obtain ⟨nv, atEl2, geret⟩ := n
  revert atEl1
  cases m <;> cases nv <;> cases atEl2 <;> cases geret <;> cases guarded <;> cases inside <;>
    simp [Nesting.exit, guardedExit, monitorPc, move]

end Nesting

def VcpuSlot.nesting (s : VcpuSlot) : Nesting :=
  ⟨s.ctx.hcr.getLsbD 42, s.guestAtEl2, s.nvOffForGeret⟩

/-- The slot followed the automaton, and `HCR_EL2` moved in bit 42 alone. -/
structure Moves (f : Nesting → Nesting) (before after : VcpuSlot) : Prop where
  nesting : after.nesting = f before.nesting
  traps : ∀ i, i ≠ 42 → after.ctx.hcr.getLsbD i = before.ctx.hcr.getLsbD i

namespace Moves

variable {f g : Nesting → Nesting} {first second third : VcpuSlot}

theorem comp (left : Moves f first second) (right : Moves g second third) :
    Moves (fun n => g (f n)) first third where
  nesting := by rw [right.nesting, left.nesting]
  traps i other := (right.traps i other).trans (left.traps i other)

/-- Nothing of the three changes when `HCR_EL2` and both flags stay. -/
theorem still (hcr : second.ctx.hcr = first.ctx.hcr) (atEl2 : second.guestAtEl2 = first.guestAtEl2)
    (geret : second.nvOffForGeret = first.nvOffForGeret) : Moves id first second where
  nesting := by simp only [VcpuSlot.nesting, hcr, atEl2, geret, id]
  traps i _ := by rw [hcr]

open VcpuSlot (hcr_armNv hcr_clearNv)

theorem armNv (s : VcpuSlot) : Moves (fun n => { n with nv := true }) s s.armNv where
  nesting := by
    simp only [VcpuSlot.nesting, hcr_armNv, getLsbD_setNv, decide_true, Bool.or_true]
    rfl
  traps i other := by
    simp only [hcr_armNv, getLsbD_setNv, other, decide_false, Bool.or_false]

theorem clearNv (s : VcpuSlot) : Moves (fun n => { n with nv := false }) s s.clearNv where
  nesting := by
    simp only [VcpuSlot.nesting, hcr_clearNv, getLsbD_clearNv, decide_true, Bool.not_true,
      Bool.and_false]
    rfl
  traps i other := by
    simp only [hcr_clearNv, getLsbD_clearNv, other, decide_false, Bool.not_false, Bool.and_true]

theorem setAtEl2 (move : Moves f first second) (value : Bool) :
    Moves (fun n => { f n with atEl2 := value }) first { second with guestAtEl2 := value } where
  nesting := by
    have same := congrArg (fun n : Nesting => { n with atEl2 := value }) move.nesting
    exact same
  traps := move.traps

theorem setGeret (move : Moves f first second) (value : Bool) :
    Moves (fun n => { f n with geret := value }) first
      { second with nvOffForGeret := value } where
  nesting := by
    have same := congrArg (fun n : Nesting => { n with geret := value }) move.nesting
    exact same
  traps := move.traps

end Moves

/-! ## Arrival -/

theorem restoreNv_moves (s : VcpuSlot) :
    Moves (Nesting.guardedExit (decide (s.ctx.exitEc = 0x3f))) s (restoreNv s) := by
  unfold restoreNv
  split
  · rename_i left
    have armed := (Moves.armNv s).setGeret false
    refine ⟨?_, armed.traps⟩
    rw [armed.nesting]
    simp [Nesting.guardedExit, VcpuSlot.nesting, left.1, left.2]
  · rename_i inside
    have same : Nesting.guardedExit (decide (s.ctx.exitEc = 0x3f)) s.nesting = s.nesting := by
      simp only [Nesting.guardedExit, VcpuSlot.nesting, Bool.and_eq_true, decide_eq_true_eq,
        if_neg inside]
    exact ⟨same.symm, fun _ _ => rfl⟩

theorem rearmNv_moves (cfg : OhvCfg) (s : VcpuSlot) :
    Moves (Nesting.monitorPc (!cfg.noMonitorNv && decide (kernelVa ≤ s.ctx.pc))) s
      (rearmNv cfg s) := by
  have same : s.ctx.hcr.getLsbD 42 = true → { s.nesting with nv := true } = s.nesting := by
    intro standing
    simp [VcpuSlot.nesting, standing]
  unfold rearmNv
  split
  · rename_i clear
    obtain ⟨switch, inside, -⟩ := clear
    have taken : (!cfg.noMonitorNv && decide (kernelVa ≤ s.ctx.pc)) = true := by
      simp [switch, inside]
    rw [taken]
    exact Moves.armNv s
  · rename_i other
    refine ⟨?_, fun _ _ => rfl⟩
    simp only [Nesting.monitorPc]
    split
    · rename_i inside
      simp only [Bool.and_eq_true, Bool.not_eq_true', decide_eq_true_eq] at inside
      have standing : s.ctx.hcr.getLsbD 42 = true := by
        rw [← Bool.not_eq_false, ← hcrNv_clear_iff]
        exact fun clear => other ⟨inside.1, inside.2, clear⟩
      exact (same standing).symm
    · rfl

theorem mirrorGl1_moves (cfg : OhvCfg) (host : Host) (quiet : host.Quiet) (s : VcpuSlot) :
    Moves id s (mirrorGl1 cfg host s) := by
  unfold mirrorGl1
  split
  · have synced := quiet 0 s.ctx
    simp only
    split
    · have kept : Ctx.Keeps (host.sync 0 s.ctx) _ :=
        (((Ctx.Keeps.refl (host.sync 0 s.ctx)).setBanked 3 ((host.sync 0 s.ctx).ext 51)
          (by decide)).setBanked 14 ((host.sync 0 s.ctx).ext 52) (by decide)).markDirty
            ohvStateSysregs
      exact .still (synced.trans kept.sameControls).hcr rfl rfl
    · exact .still synced.hcr rfl rfl
  · exact .still rfl rfl rfl

/-- The PC the re-arm tests. -/
def arrivalPc (cfg : OhvCfg) (host : Host) (s : VcpuSlot) : Word :=
  (mirrorGl1 cfg host (restoreNv s)).ctx.pc

theorem arriveExit_moves (cfg : OhvCfg) (host : Host) (quiet : host.Quiet) (s : VcpuSlot) :
    Moves (fun n => (n.guardedExit (decide (s.ctx.exitEc = 0x3f))).monitorPc
      (!cfg.noMonitorNv && decide (kernelVa ≤ arrivalPc cfg host s))) s
      (arriveExit cfg host s) := by
  have arrived := ((restoreNv_moves s).comp (mirrorGl1_moves cfg host quiet _)).comp
    (rearmNv_moves cfg _)
  exact ⟨arrived.nesting, arrived.traps⟩

/-! ## The moves of an exit, read off the state before it -/

def softMove (host : Host) (v : VcpuView) : NestMove :=
  if v.s.ctx.TrappedEret ∧ v.s.guestAtEl2 then
    let v := v.sync host 2
    let mode := v.s.ctx.banked 14 &&& 0xf
    if eretIsGuarded v.s.ctx = false ∧ v.g.cfg.noEretEmulation = false ∧
        (mode = 0x4 ∨ mode = 0x5) then .returnToEl1
    else .stay
  else .stay

def eretMove (host : Host) (v : VcpuView) : NestMove :=
  if v.g.cfg.noHwGeret = false ∧ v.s.ctx.TrappedEret then
    let v := v.sync host 1
    if eretIsGuarded v.s.ctx then .handToHardware else softMove host v
  else softMove host v

def syncMove (host : Host) (v : VcpuView) : NestMove :=
  if v.g.cfg.spinWfi ∧ v.s.ctx.exitEc = 0x1 then .stay
  else if v.InjectsHvc then .takeEl2
  else eretMove host v

def exitMove (host : Host) (v : VcpuView) : NestMove :=
  match v.s.ctx.exitReason.toNat with
  | 8 =>
      if v.s.ctx.exitEc = 0x18 then
        if (SysAccess.ofEsr v.s.ctx.exitEsr).IsHandoff then .takeEl2 else .stay
      else syncMove host v
  | 1 => syncMove host v
  | _ => .stay

/-! ## The refinement -/

theorem physicalInterrupt_moves (v : VcpuView) : Moves id v.s (physicalInterrupt v).2.s := by
  have masked : (v.s.ctx.setTimer (v.s.ctx.timer ||| ohvTimerMask)).hcr = v.s.ctx.hcr := by
    simp [Ctx.hcr, Ctx.control, Ctx.setTimer]
  unfold physicalInterrupt
  split
  · exact .still masked rfl rfl
  · exact .still rfl rfl rfl

theorem reportException_moves (reason : BitVec 32) (host : Host) (v : VcpuView) :
    Moves id v.s (reportException reason host v).2.s := by
  have msr : (synthMsrTrapSyndrome host v).ctx = v.s.ctx ∧
      (synthMsrTrapSyndrome host v).nesting = v.s.nesting := by
    unfold synthMsrTrapSyndrome
    split
    · split <;> exact ⟨rfl, rfl⟩
    · exact ⟨rfl, rfl⟩
  have guarded : (synthGuardedExitSyndrome host v).ctx = v.s.ctx ∧
      (synthGuardedExitSyndrome host v).nesting = v.s.nesting := by
    unfold synthGuardedExitSyndrome
    split
    · split <;> exact ⟨rfl, rfl⟩
    · exact ⟨rfl, rfl⟩
  have reported : ∀ s : VcpuSlot, s.ctx = v.s.ctx ∧ s.nesting = v.s.nesting →
      Moves id v.s (s.setExit .exception) := by
    rintro s ⟨ctx, nesting⟩
    refine ⟨nesting, fun i _ => ?_⟩
    show s.ctx.hcr.getLsbD i = _
    rw [ctx]
  unfold reportException
  simp only
  split
  · split
    · exact reported _ msr
    · split
      · exact reported _ guarded
      · exact reported _ ⟨rfl, rfl⟩
  · exact reported _ ⟨rfl, rfl⟩

theorem enterGuestEl2_moves (s : VcpuSlot) (esr returnPc : Word) :
    Moves (Nesting.move .takeEl2) s (enterGuestEl2 s esr returnPc) := by
  unfold enterGuestEl2
  simp only
  generalize entered : Ctx.setCpsr _ _ = ctx
  have kept : Ctx.Keeps s.ctx ctx := by
    rw [← entered]
    exact ((((((Ctx.Keeps.refl s.ctx).setBanked 3 _ (by decide)).setBanked 5 _
      (by decide)).setBanked 14 _ (by decide)).markDirty _).setPc _).setCpsr _
  have moved : Moves id s { s with ctx := ctx } := .still kept.sameControls.hcr rfl rfl
  exact (moved.comp (Moves.armNv _)).setAtEl2 true

theorem handEretToHardware_moves (s : VcpuSlot) :
    Moves (Nesting.move .handToHardware) s (handEretToHardware s) := by
  unfold handEretToHardware
  simp only
  generalize handed : Ctx.markDirty _ _ = ctx
  have kept : Ctx.Keeps s.ctx ctx := by
    rw [← handed]
    exact (((Ctx.Keeps.refl s.ctx).setBanked 3 _ (by decide)).setBanked 14 _
      (by decide)).markDirty _
  have moved : Moves id s { s with ctx := ctx } := .still kept.sameControls.hcr rfl rfl
  exact (moved.comp (Moves.clearNv _)).setGeret true

theorem completeEret_moves (s : VcpuSlot) :
    Moves (Nesting.move
      (if s.ctx.banked 14 &&& 0xf = 0x4 ∨ s.ctx.banked 14 &&& 0xf = 0x5 then .returnToEl1
        else .stay)) s (completeEret s) := by
  have returned : Ctx.Keeps s.ctx ((s.ctx.setPc (s.ctx.banked 3)).setCpsr
      ((s.ctx.banked 14).extractLsb' 0 32)) :=
    ((Ctx.Keeps.refl s.ctx).setPc _).setCpsr _
  unfold completeEret
  simp only
  split
  · rename_i toEl1
    have moved : Moves id s { s with ctx := _ } := .still returned.sameControls.hcr rfl rfl
    exact (moved.setAtEl2 false).comp (Moves.clearNv _)
  · split
    · exact .still (returned.setCpsr _).sameControls.hcr rfl rfl
    · exact .still returned.sameControls.hcr rfl rfl

section Refinement

variable (host : Host) (quiet : host.Quiet)

include quiet

theorem sync_moves (k : Nat) (v : VcpuView) : Moves id v.s (v.sync host k).s :=
  .still (quiet k v.s.ctx).hcr rfl rfl

theorem softEret_moves (reason : BitVec 32) (v : VcpuView) :
    Moves (Nesting.move (softMove host v)) v.s (softEret reason host v).2.s := by
  have synced := sync_moves host quiet 2 v
  unfold softEret softMove
  split
  · simp only
    by_cases completed : eretIsGuarded (v.sync host 2).s.ctx = false ∧
        (v.sync host 2).g.cfg.noEretEmulation = false
    · have moved := synced.comp (completeEret_moves (v.sync host 2).s)
      rw [if_pos completed]
      simp only [completed.1, completed.2, true_and]
      exact moved
    · have other : ¬ (eretIsGuarded (v.sync host 2).s.ctx = false ∧
          (v.sync host 2).g.cfg.noEretEmulation = false ∧
          ((v.sync host 2).s.ctx.banked 14 &&& 0xf = 0x4 ∨
            (v.sync host 2).s.ctx.banked 14 &&& 0xf = 0x5)) :=
        fun all => completed ⟨all.1, all.2.1⟩
      rw [if_neg completed, if_neg other]
      exact synced.comp (reportException_moves reason host _)
  · exact reportException_moves reason host v

theorem guardedEret_moves (reason : BitVec 32) (v : VcpuView) :
    Moves (Nesting.move (eretMove host v)) v.s (guardedEret reason host v).2.s := by
  have synced := sync_moves host quiet 1 v
  unfold guardedEret eretMove
  split
  · simp only
    split
    · exact synced.comp (handEretToHardware_moves _)
    · exact synced.comp (softEret_moves host quiet reason _)
  · exact softEret_moves host quiet reason v

theorem syncException_moves (reason : BitVec 32) (v : VcpuView) :
    Moves (Nesting.move (syncMove host v)) v.s (syncException reason host v).2.s := by
  unfold syncException syncMove
  split
  · exact .still (Ctx.Keeps.refl v.s.ctx).skip.sameControls.hcr rfl rfl
  · split
    · exact enterGuestEl2_moves _ _ _
    · exact guardedEret_moves host quiet reason v

omit quiet in
theorem syncMove_of_ec (v : VcpuView) (msr : v.s.ctx.exitEc = 0x18) : syncMove host v = .stay := by
  have noEret : ¬ v.s.ctx.TrappedEret := by
    rintro ⟨ec, -⟩
    rw [msr] at ec
    exact absurd ec (by decide)
  have noHvc : ¬ v.InjectsHvc := by
    rintro ⟨ec, -⟩
    rw [msr] at ec
    exact absurd ec (by decide)
  simp only [syncMove, if_neg noHvc, eretMove, softMove, noEret, false_and, and_false, if_false,
    ite_self]

theorem msrTrap_moves (v : VcpuView) :
    Moves (Nesting.move
      (if v.s.ctx.exitEc = 0x18 then
        if (SysAccess.ofEsr v.s.ctx.exitEsr).IsHandoff then .takeEl2 else .stay
      else syncMove host v)) v.s (msrTrap host v).2.s := by
  unfold msrTrap
  split
  · rename_i msr
    split
    · rename_i handoff
      rw [serviceNv2Access_handoff host _ v handoff]
      have armed := (Moves.armNv v.s).setAtEl2 true
      have skipped : ∀ s : VcpuSlot, Moves id s s.skip := fun s =>
        .still (Ctx.Keeps.refl s.ctx).skip.sameControls.hcr rfl rfl
      exact armed.comp (skipped _)
    · rename_i other
      have frame := serviceNv2Access_frame host v.s.ctx.exitEsr v other
      revert frame
      rcases serviceNv2Access host v.s.ctx.exitEsr v with ⟨carried, after⟩
      intro frame
      have serviced : Moves id v.s after.s :=
        .still frame.page.sameControls.hcr frame.guestAtEl2 frame.nvOffForGeret
      cases carried with
      | true => exact serviced
      | false =>
          have still : syncMove host after = .stay :=
            syncMove_of_ec host after (frame.page.exitEc.trans msr)
          have tail := syncException_moves host quiet 8 after
          rw [still] at tail
          exact serviced.comp tail
  · exact syncException_moves host quiet 8 v

theorem dispatchExit_moves (v : VcpuView) :
    Moves (Nesting.move (exitMove host v)) v.s (dispatchExit host v).2.s := by
  have quietly : ∀ after : VcpuView, Moves id v.s after.s →
      exitMove host v = .stay → Moves (Nesting.move (exitMove host v)) v.s after.s := by
    intro after same still
    rw [still]
    exact same
  unfold dispatchExit
  split
  case h_8 reason =>
    simp only [exitMove, reason]
    exact msrTrap_moves host quiet v
  case h_9 reason =>
    simp only [exitMove, reason]
    exact syncException_moves host quiet 1 v
  case h_10 reason =>
    exact quietly _ (reportException_moves 6 host v) (by simp only [exitMove, reason])
  case h_6 reason =>
    exact quietly _ (physicalInterrupt_moves v) (by simp only [exitMove, reason])
  case h_7 reason =>
    exact quietly _ (physicalInterrupt_moves v) (by simp only [exitMove, reason])
  case h_11 =>
    refine quietly _ (.still rfl rfl rfl) ?_
    unfold exitMove
    split
    · exact absurd ‹_› ‹_›
    · exact absurd ‹_› ‹_›
    · rfl
  all_goals
    rename_i reason
    exact quietly _ (.still rfl rfl rfl) (by simp only [exitMove, reason])

/-- The refinement: one exit is one step of the automaton, whatever the kernel
reports, and `HCR_EL2` changes in NV alone. -/
theorem exitFromRo_moves (v : VcpuView) :
    Moves (fun n => n.exit (decide (v.s.ctx.exitEc = 0x3f))
      (!v.g.cfg.noMonitorNv && decide (kernelVa ≤ arrivalPc v.g.cfg host v.s))
      (exitMove host { v with s := arriveExit v.g.cfg host v.s })) v.s
      (exitFromRo host v).2.s :=
  (arriveExit_moves v.g.cfg host quiet v.s).comp (dispatchExit_moves host quiet _)

end Refinement

end OpenHypervisor
