import OpenHypervisor.PageFrame
import OpenHypervisor.System

/-!
# Control changes announced

The kernel runs the guest with the control words it last took from the page, and
takes them again only when `OHV_STATE_CONTROLS` is up in `state_dirty`.  Whoever
writes one of them owes the flag by the time it is done.  `Ctx.Announces` is that
obligation, which composes; everything the library does to a page meets it but
one branch of one function.
-/

set_option autoImplicit false

namespace OpenHypervisor

namespace Ctx

def ControlsDirty (c : Ctx) : Prop := (c.word ohvRwStateDirty).getLsbD 2 = true

instance (c : Ctx) : Decidable c.ControlsDirty := inferInstanceAs (Decidable (_ = _))

/-- A change of the controls leaves the flag up, and a flag that was up stays. -/
structure Announces (before after : Ctx) : Prop where
  change : ∀ off, InControls off → after.word off ≠ before.word off → after.ControlsDirty
  flag : before.ControlsDirty → after.ControlsDirty

theorem controlsDirty_markDirty (c : Ctx) (bits : Word) :
    (c.markDirty bits).ControlsDirty ↔ c.ControlsDirty ∨ bits.getLsbD 2 = true := by
  simp only [ControlsDirty, markDirty, word_put, if_true, BitVec.getLsbD_or, Bool.or_eq_true]

theorem controlsDirty_put (c : Ctx) (off : Nat) (value : Word) (other : off ≠ ohvRwStateDirty) :
    (c.put off value).ControlsDirty ↔ c.ControlsDirty := by
  simp only [ControlsDirty, word_put, if_neg other.symm]

namespace Announces

variable {before c : Ctx}

theorem refl (c : Ctx) : Announces c c :=
  ⟨fun _ _ moved => absurd rfl moved, fun up => up⟩

theorem trans {first second third : Ctx} (left : Announces first second)
    (right : Announces second third) : Announces first third where
  change := by
    intro off inside moved
    by_cases late : third.word off = second.word off
    · rw [late] at moved
      exact right.flag (left.change off inside moved)
    · exact right.change off inside late
  flag up := right.flag (left.flag up)

theorem of_dirty {after : Ctx} (up : after.ControlsDirty) : Announces before after :=
  ⟨fun _ _ _ => up, fun _ => up⟩

theorem of_same {after : Ctx} (same : SameControls before after)
    (flag : before.ControlsDirty → after.ControlsDirty) : Announces before after :=
  ⟨fun off inside moved => absurd (same off inside) moved, flag⟩

theorem of_spares {after : Ctx} {names : List Nat} {marks : Prop}
    (same : SameControls before after) (spares : Spares names marks before after) : Announces before after :=
  of_same same (spares.flags 2)

theorem put (announces : Announces before c) (off : Nat) (value : Word) (outside : ¬ InControls off)
    (other : off ≠ ohvRwStateDirty) : Announces before (c.put off value) where
  change := by
    intro at' inside moved
    have elsewhere : at' ≠ off := by
      rintro rfl
      exact outside inside
    rw [word_put, if_neg elsewhere] at moved
    exact (controlsDirty_put c off value other).mpr (announces.change at' inside moved)
  flag up := (controlsDirty_put c off value other).mpr (announces.flag up)

theorem markDirty (announces : Announces before c) (bits : Word) :
    Announces before (c.markDirty bits) where
  change := by
    intro off inside moved
    have elsewhere : off ≠ ohvRwStateDirty := by
      rintro rfl
      exact absurd inside (by decide)
    rw [Ctx.markDirty, word_put, if_neg elsewhere] at moved
    exact (controlsDirty_markDirty c bits).mpr (Or.inl (announces.change off inside moved))
  flag up := (controlsDirty_markDirty c bits).mpr (Or.inl (announces.flag up))

theorem marked (c : Ctx) : Announces before (c.markDirty ohvStateControls) :=
  of_dirty ((controlsDirty_markDirty c _).mpr (Or.inr (by decide)))

theorem markedGic (c : Ctx) : Announces before (markGic c) :=
  of_dirty ((controlsDirty_markDirty c _).mpr (Or.inr (by decide)))

theorem skip (announces : Announces before c) : Announces before c.skip :=
  announces.put _ _ (by decide) (by decide)

end Announces

end Ctx

open Ctx (Announces)

/-- A sync brings the guest's registers to the page.  The controls are not part
of that, and neither is the flag that announces them. -/
def Host.SparesControls (host : Host) : Prop :=
  host.Quiet ∧ ∀ k c, c.ControlsDirty → (host.sync k c).ControlsDirty

theorem Host.SparesControls.sync {host : Host} (kernel : host.SparesControls) (k : Nat) (c : Ctx) :
    Announces c (host.sync k c) :=
  .of_same (kernel.1 k c) (kernel.2 k c)

/-! ## Arrival -/

/-- The page the reason is read off: `OHV_MIRROR_GL1` has it synced first. -/
def foundPage (cfg : OhvCfg) (host : Host) (s : VcpuSlot) : Ctx :=
  if cfg.mirrorGl1 ∧ s.ctx.exitEc = 0x18 then host.sync 0 s.ctx else s.ctx

/-- Whether the prologue turns NV on, which announces whatever else is pending. -/
def ArmsNv (cfg : OhvCfg) (host : Host) (s : VcpuSlot) : Prop :=
  (s.nvOffForGeret ∧ s.ctx.exitEc = 0x3f) ∨
    (cfg.noMonitorNv = false ∧ kernelVa ≤ (foundPage cfg host s).pc ∧
      (foundPage cfg host s).hcr &&& ohvHcrNv = 0)

theorem armNv_dirty (s : VcpuSlot) : s.armNv.ctx.ControlsDirty :=
  (Ctx.controlsDirty_markDirty _ _).mpr (Or.inr (by decide))

/-- The words of the page that neither the mirror nor the re-arm writes. -/
def ArrivalKeeps (off : Nat) : Prop :=
  off ≠ ohvRwControls ∧ off ≠ ohvRwStateDirty ∧ off ≠ ohvRwBankedSysregs + 3 * 8 ∧
    off ≠ ohvRwBankedSysregs + 14 * 8

instance (off : Nat) : Decidable (ArrivalKeeps off) := inferInstanceAs (Decidable (_ ∧ _))

/-- The mirror against the page its sync left: the return pair at most, and no
change of the flag. -/
theorem mirrorGl1_found (cfg : OhvCfg) (host : Host) (s : VcpuSlot) :
    (∀ off, off ≠ ohvRwStateDirty → off ≠ ohvRwBankedSysregs + 3 * 8 →
      off ≠ ohvRwBankedSysregs + 14 * 8 →
      (mirrorGl1 cfg host s).ctx.word off = (foundPage cfg host s).word off) ∧
    ((mirrorGl1 cfg host s).ctx.ControlsDirty ↔ (foundPage cfg host s).ControlsDirty) := by
  unfold mirrorGl1 foundPage
  split
  · simp only
    split
    · constructor
      · intro off notFlag notElr notSpsr
        simp only [Ctx.markDirty, Ctx.setBanked, Ctx.word_put, if_neg notFlag, if_neg notElr,
          if_neg notSpsr]
      · rw [Ctx.controlsDirty_markDirty, Ctx.setBanked, Ctx.controlsDirty_put _ _ _ (by decide),
          Ctx.setBanked, Ctx.controlsDirty_put _ _ _ (by decide)]
        simp [ohvStateSysregs]
    · exact ⟨fun _ _ _ _ => rfl, Iff.rfl⟩
  · exact ⟨fun _ _ _ _ => rfl, Iff.rfl⟩

theorem arriveExit_found (cfg : OhvCfg) (host : Host) (s : VcpuSlot) :
    (∀ off, ArrivalKeeps off →
      (arriveExit cfg host s).ctx.word off = (foundPage cfg host s).word off) ∧
    ((arriveExit cfg host s).ctx.ControlsDirty ↔
      (foundPage cfg host s).ControlsDirty ∨ ArmsNv cfg host s) := by
  have rearm : ∀ s : VcpuSlot,
      (∀ off, ArrivalKeeps off → (rearmNv cfg s).ctx.word off = s.ctx.word off) ∧
      ((rearmNv cfg s).ctx.ControlsDirty ↔ s.ctx.ControlsDirty ∨
        (cfg.noMonitorNv = false ∧ kernelVa ≤ s.ctx.pc ∧ s.ctx.hcr &&& ohvHcrNv = 0)) := by
    intro s
    unfold rearmNv
    split
    · rename_i arms
      exact ⟨fun off kept => armNv_word s off kept.1 kept.2.1,
        iff_of_true (armNv_dirty s) (Or.inr arms)⟩
    · rename_i stays
      exact ⟨fun _ _ => rfl, (or_iff_left stays).symm⟩
  show (∀ off, ArrivalKeeps off → (rearmNv cfg (mirrorGl1 cfg host (restoreNv s))).ctx.word off = _) ∧
    ((rearmNv cfg (mirrorGl1 cfg host (restoreNv s))).ctx.ControlsDirty ↔ _)
  by_cases left : s.nvOffForGeret ∧ s.ctx.exitEc = 0x3f
  · -- a guarded exit: restored, and no sync is asked for
    have restored : (restoreNv s).ctx = s.armNv.ctx := by
      rw [restoreNv, if_pos left]
    have ec : (restoreNv s).ctx.exitEc = 0x3f := by
      rw [restored, Ctx.exitEc, Ctx.exitEsr, armNv_word s _ (by decide) (by decide)]
      exact left.2
    have unmirrored : mirrorGl1 cfg host (restoreNv s) = restoreNv s := by
      refine if_neg fun mirrors => ?_
      rw [ec] at mirrors
      exact absurd mirrors.2 (by decide)
    have found : foundPage cfg host s = s.ctx := by
      refine if_neg fun mirrors => ?_
      rw [left.2] at mirrors
      exact absurd mirrors.2 (by decide)
    rw [unmirrored, found]
    constructor
    · intro off kept
      rw [(rearm _).1 off kept, restored, armNv_word s off kept.1 kept.2.1]
    · refine iff_of_true ((rearm _).2.mpr (Or.inl ?_)) (Or.inr (Or.inl left))
      rw [restored]
      exact armNv_dirty s
  · have restored : restoreNv s = s := if_neg left
    obtain ⟨words, flag⟩ := mirrorGl1_found cfg host s
    rw [restored]
    constructor
    · intro off kept
      rw [(rearm _).1 off kept, words off kept.2.1 kept.2.2.1 kept.2.2.2]
    · have pc : (mirrorGl1 cfg host s).ctx.pc = (foundPage cfg host s).pc :=
        words _ (by decide) (by decide) (by decide)
      have hcr : (mirrorGl1 cfg host s).ctx.hcr = (foundPage cfg host s).hcr :=
        words _ (by decide) (by decide) (by decide)
      rw [(rearm _).2, flag, pc, hcr, ArmsNv, or_iff_right left]

section Exit

variable (host : Host) (kernel : host.SparesControls)

include kernel

theorem foundPage_announces (cfg : OhvCfg) (s : VcpuSlot) :
    Announces s.ctx (foundPage cfg host s) := by
  unfold foundPage
  split
  · exact kernel.sync 0 s.ctx
  · exact .refl _

theorem mirrorGl1_announces (cfg : OhvCfg) (s : VcpuSlot) :
    Announces s.ctx (mirrorGl1 cfg host s).ctx := by
  obtain ⟨words, flag⟩ := mirrorGl1_found cfg host s
  have found := foundPage_announces host kernel cfg s
  refine ⟨fun off inside moved => ?_, fun up => flag.mpr (found.flag up)⟩
  have same : (mirrorGl1 cfg host s).ctx.word off = (foundPage cfg host s).word off := by
    simp only [InControls, ohvRwControls, ohvRwFrozen] at inside
    apply words
    · simp only [ohvRwStateDirty]
      omega
    · simp only [ohvRwBankedSysregs]
      omega
    · simp only [ohvRwBankedSysregs]
      omega
  rw [same] at moved
  exact flag.mpr (found.change off inside moved)

theorem arriveExit_announces (cfg : OhvCfg) (s : VcpuSlot) :
    Announces s.ctx (arriveExit cfg host s).ctx := by
  have restored : Announces s.ctx (restoreNv s).ctx := by
    unfold restoreNv
    split
    · exact .of_dirty (armNv_dirty s)
    · exact .refl _
  have rearmed : ∀ s : VcpuSlot, Announces s.ctx (rearmNv cfg s).ctx := by
    intro s
    unfold rearmNv
    split
    · exact .of_dirty (armNv_dirty s)
    · exact .refl _
  exact (restored.trans (mirrorGl1_announces host kernel cfg _)).trans (rearmed _)

/-! ## The reasons -/

omit kernel in
theorem reportException_ctx (reason : BitVec 32) (v : VcpuView) :
    (reportException reason host v).2.s.ctx = v.s.ctx := by
  have msr : (synthMsrTrapSyndrome host v).ctx = v.s.ctx := by
    unfold synthMsrTrapSyndrome
    split
    · split <;> rfl
    · rfl
  have guarded : (synthGuardedExitSyndrome host v).ctx = v.s.ctx := by
    unfold synthGuardedExitSyndrome
    split
    · split <;> rfl
    · rfl
  unfold reportException
  simp only
  split
  · split
    · exact msr
    · split
      · exact guarded
      · rfl
  · rfl

omit kernel in
theorem completeEret_announces (s : VcpuSlot) : Announces s.ctx (completeEret s).ctx := by
  have returned : Announces s.ctx
      ((s.ctx.setPc (s.ctx.banked 3)).setCpsr ((s.ctx.banked 14).extractLsb' 0 32)) :=
    ((Announces.refl _).put _ _ (by decide) (by decide)).put _ _ (by decide) (by decide)
  unfold completeEret
  simp only
  split
  · exact .marked _
  · split
    · exact returned.put _ _ (by decide) (by decide)
    · exact returned

omit kernel in
/-- The one access that writes a control is the handoff register. -/
theorem serviceNv2Access_announces (esr : Word) (v : VcpuView) :
    Announces v.s.ctx (serviceNv2Access host esr v).2.s.ctx := by
  by_cases handoff : (SysAccess.ofEsr esr).IsHandoff
  · rw [serviceNv2Access_handoff host esr v handoff]
    exact (Announces.of_dirty (armNv_dirty v.s)).skip
  · exact .of_spares (serviceNv2Access_frame host esr v handoff).page.sameControls
      (serviceNv2Access_spares host esr v)

theorem softEret_announces (reason : BitVec 32) (v : VcpuView) :
    Announces v.s.ctx (softEret reason host v).2.s.ctx := by
  have synced : Announces v.s.ctx (v.sync host 2).s.ctx := kernel.sync 2 v.s.ctx
  unfold softEret
  split
  · simp only
    split
    · exact synced.trans (completeEret_announces _)
    · rw [reportException_ctx host]
      exact synced
  · rw [reportException_ctx host]
    exact .refl _

theorem guardedEret_announces (reason : BitVec 32) (v : VcpuView) :
    Announces v.s.ctx (guardedEret reason host v).2.s.ctx := by
  have synced : Announces v.s.ctx (v.sync host 1).s.ctx := kernel.sync 1 v.s.ctx
  unfold guardedEret
  split
  · simp only
    split
    · exact .marked _
    · exact synced.trans (softEret_announces host kernel reason _)
  · exact softEret_announces host kernel reason v

theorem syncException_announces (reason : BitVec 32) (v : VcpuView) :
    Announces v.s.ctx (syncException reason host v).2.s.ctx := by
  unfold syncException
  split
  · exact (Announces.refl _).skip
  · split
    · exact .marked _
    · exact guardedEret_announces host kernel reason v

theorem msrTrap_announces (v : VcpuView) : Announces v.s.ctx (msrTrap host v).2.s.ctx := by
  unfold msrTrap
  split
  · have serviced := serviceNv2Access_announces host v.s.ctx.exitEsr v
    revert serviced
    rcases serviceNv2Access host v.s.ctx.exitEsr v with ⟨carried, after⟩
    intro serviced
    cases carried with
    | true => exact serviced
    | false => exact serviced.trans (syncException_announces host kernel 8 after)
  · exact syncException_announces host kernel 8 v

def MasksTimer (c : Ctx) : Prop :=
  (c.exitReason.toNat = 3 ∨ c.exitReason.toNat = 4) ∧ c.timer &&& ohvTimerMask = 0 ∧ c.banked 18 = 5

instance (c : Ctx) : Decidable (MasksTimer c) := inferInstanceAs (Decidable (_ ∧ _))

omit kernel in
theorem physicalInterrupt_ctx (v : VcpuView) : (physicalInterrupt v).2.s.ctx =
    if v.s.ctx.timer &&& ohvTimerMask = 0 ∧ v.s.ctx.banked 18 = 5 then
      v.s.ctx.setTimer (v.s.ctx.timer ||| ohvTimerMask)
    else v.s.ctx := by
  unfold physicalInterrupt
  split <;> rfl

theorem dispatchExit_announces (v : VcpuView) (other : ¬ MasksTimer v.s.ctx) :
    Announces v.s.ctx (dispatchExit host v).2.s.ctx := by
  have interrupted : v.s.ctx.exitReason.toNat = 3 ∨ v.s.ctx.exitReason.toNat = 4 →
      Announces v.s.ctx (physicalInterrupt v).2.s.ctx := by
    intro reason
    rw [physicalInterrupt_ctx, if_neg fun taken => other ⟨reason, taken⟩]
    exact .refl _
  unfold dispatchExit
  split
  case h_6 reason => exact interrupted (Or.inl reason)
  case h_7 reason => exact interrupted (Or.inr reason)
  case h_8 => exact msrTrap_announces host kernel v
  case h_9 => exact syncException_announces host kernel 1 v
  case h_10 =>
    rw [reportException_ctx host]
    exact .refl _
  all_goals exact .refl _

omit kernel in
theorem dispatchExit_masks (v : VcpuView) (masks : MasksTimer v.s.ctx) :
    (dispatchExit host v).2.s.ctx = v.s.ctx.setTimer (v.s.ctx.timer ||| ohvTimerMask) := by
  have page : (physicalInterrupt v).2.s.ctx =
      v.s.ctx.setTimer (v.s.ctx.timer ||| ohvTimerMask) := by
    rw [physicalInterrupt_ctx, if_pos masks.2]
  rcases masks.1 with reason | reason
  · simp only [dispatchExit, reason]
    exact page
  · simp only [dispatchExit, reason]
    exact page

/-- The branch that owes the flag: nothing else of the exit, or of what stood on
the page before, puts it up. -/
def MasksUnannounced (cfg : OhvCfg) (host : Host) (s : VcpuSlot) : Prop :=
  MasksTimer (foundPage cfg host s) ∧ ¬ (foundPage cfg host s).ControlsDirty ∧ ¬ ArmsNv cfg host s

omit kernel in
theorem arriveExit_masksTimer (cfg : OhvCfg) (s : VcpuSlot) :
    MasksTimer (arriveExit cfg host s).ctx ↔ MasksTimer (foundPage cfg host s) := by
  have words := (arriveExit_found cfg host s).1
  have reason : (arriveExit cfg host s).ctx.exitReason = (foundPage cfg host s).exitReason := by
    rw [Ctx.exitReason, Ctx.lo32, words _ (by decide)]
    rfl
  have timer : (arriveExit cfg host s).ctx.timer = (foundPage cfg host s).timer :=
    words _ (by decide)
  have control : (arriveExit cfg host s).ctx.banked 18 = (foundPage cfg host s).banked 18 :=
    words _ (by decide)
  rw [MasksTimer, MasksTimer, reason, timer, control]

theorem exitFromRo_announces (v : VcpuView) (other : ¬ MasksUnannounced v.g.cfg host v.s) :
    Announces v.s.ctx (exitFromRo host v).2.s.ctx := by
  have arrived := arriveExit_announces host kernel v.g.cfg v.s
  by_cases masks : MasksTimer (arriveExit v.g.cfg host v.s).ctx
  · have page := dispatchExit_masks host { v with s := arriveExit v.g.cfg host v.s } masks
    have flag : (arriveExit v.g.cfg host v.s).ctx.ControlsDirty := by
      rw [(arriveExit_found v.g.cfg host v.s).2]
      by_contra down
      rw [not_or] at down
      exact other ⟨(arriveExit_masksTimer host v.g.cfg v.s).mp masks, down⟩
    rw [exitFromRo, page]
    exact .of_dirty ((Ctx.controlsDirty_put _ _ _ (by decide)).mpr flag)
  · have dispatched := dispatchExit_announces host kernel
      { v with s := arriveExit v.g.cfg host v.s } masks
    exact arrived.trans dispatched

/-- The mask goes up in the timer word, and nobody is told. -/
theorem exitFromRo_silent (v : VcpuView) (silent : MasksUnannounced v.g.cfg host v.s) :
    (exitFromRo host v).2.s.ctx.word ohvRwTimer ≠ v.s.ctx.word ohvRwTimer ∧
      ¬ (exitFromRo host v).2.s.ctx.ControlsDirty := by
  obtain ⟨masks, down⟩ := silent
  obtain ⟨words, flag⟩ := arriveExit_found v.g.cfg host v.s
  have page := dispatchExit_masks host { v with s := arriveExit v.g.cfg host v.s }
    ((arriveExit_masksTimer host v.g.cfg v.s).mpr masks)
  have same : (foundPage v.g.cfg host v.s).timer = v.s.ctx.timer := by
    unfold foundPage
    split
    · exact kernel.1 0 v.s.ctx ohvRwTimer (by decide)
    · rfl
  have arrived : (arriveExit v.g.cfg host v.s).ctx.timer = v.s.ctx.timer := by
    rw [← same]
    exact words ohvRwTimer (by decide)
  rw [exitFromRo, page]
  constructor
  · intro equal
    have clear : v.s.ctx.timer.getLsbD 0 = false := by
      rw [← same]
      exact (WordBits.and_twoPow_eq_zero_iff _ 0 (by decide)).mp masks.2.1
    have raised : (v.s.ctx.timer ||| ohvTimerMask).getLsbD 0 = true :=
      (WordBits.getLsbD_or_twoPow _ 0 0 (by decide)).trans (Bool.or_true _)
    rw [Ctx.setTimer, Ctx.word_put, if_pos rfl, arrived] at equal
    rw [equal] at raised
    exact Bool.false_ne_true (clear.symm.trans raised)
  · rw [Ctx.setTimer, Ctx.controlsDirty_put _ _ _ (by decide), flag, not_or]
    exact down

end Exit

end OpenHypervisor
