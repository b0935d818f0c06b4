import OpenHypervisor.PageEdits
import OpenHypervisor.GuestPstate

/-!
# The virtual timer's mask

An exit reported as the virtual timer's raises the mask, and while the mask is up no
exit is reported as the timer's again.  The mask is a bit of the run controls, which
many calls reach; the only one that lowers it is `hv_vcpu_set_vtimer_mask`.
-/

set_option autoImplicit false

namespace OpenHypervisor

open Ctx (Edited)

/-! ## The mask over writes of the page -/

theorem timer_spared {mask : Prop} {off : Nat} {value : Word} (may : Spared mask off value)
    (still : ¬ mask) (c : Ctx) : (c.put off value).timer = c.timer := by
  have other : ohvRwTimer ≠ off := fun here => still (may.1 here.symm)
  rw [Ctx.timer, Ctx.word_put, if_neg other]
  rfl

theorem timer_quiet {host : Host} (quiet : host.Quiet) (k : Nat) (c : Ctx) :
    (host.sync k c).timer = c.timer :=
  quiet k c ohvRwTimer (by decide)

theorem timer_of_edits {host : Host} {before c : Ctx} (quiet : host.Quiet)
    (edited : Edited host (Spared False) before c) : c.timer = before.timer := by
  refine edited.preserves (P := fun c => c.timer = before.timer) ?_ ?_ rfl
  · exact fun c _ _ may same => (timer_spared may not_false c).trans same
  · exact fun k c same => (timer_quiet quiet k c).trans same

theorem hvVcpuGetVtimerMask_congr {s s' : VcpuSlot} (same : s'.ctx.timer = s.ctx.timer) :
    hvVcpuGetVtimerMask s' = hvVcpuGetVtimerMask s := by
  rw [hvVcpuGetVtimerMask, same]
  rfl

theorem hvVcpuSetVtimerMask_get (masked : Bool) (s : VcpuSlot) :
    hvVcpuGetVtimerMask (hvVcpuSetVtimerMask masked s) = masked := by
  have bit := WordBits.getLsbD_setOrClear (s.ctx.control 0x68) 0 0 masked (by decide)
  exact bit.trans (if_pos rfl)

/-! ## An exit -/

section Exit
variable (host : Host) (v : VcpuView)

theorem reportException_reason (reason : BitVec 32) :
    (reportException reason host v).2.s.pubExit.reason = .exception := rfl

theorem softEret_reason (reason : BitVec 32) (out : (softEret reason host v).1 = .toVmm) :
    (softEret reason host v).2.s.pubExit.reason = .exception := by
  unfold softEret at out ⊢
  split
  · rename_i eret
    rw [if_pos eret] at out
    simp only at out ⊢
    split
    · rename_i completes
      rw [if_pos completes] at out
      cases out
    · exact reportException_reason host _ reason
  · exact reportException_reason host v reason

theorem guardedEret_reason (reason : BitVec 32) (out : (guardedEret reason host v).1 = .toVmm) :
    (guardedEret reason host v).2.s.pubExit.reason = .exception := by
  unfold guardedEret at out ⊢
  split
  · rename_i eret
    rw [if_pos eret] at out
    simp only at out ⊢
    split
    · rename_i guarded
      rw [if_pos guarded] at out
      cases out
    · rename_i open'
      rw [if_neg open'] at out
      exact softEret_reason host _ reason out
  · rename_i other
    rw [if_neg other] at out
    exact softEret_reason host v reason out

theorem syncException_reason (reason : BitVec 32) (out : (syncException reason host v).1 = .toVmm) :
    (syncException reason host v).2.s.pubExit.reason = .exception := by
  unfold syncException at out ⊢
  split
  · rename_i spins
    rw [if_pos spins] at out
    cases out
  · rename_i awake
    rw [if_neg awake] at out
    split
    · rename_i injects
      rw [if_pos injects] at out
      cases out
    · rename_i other
      rw [if_neg other] at out
      exact guardedEret_reason host v reason out

theorem msrTrap_reason (out : (msrTrap host v).1 = .toVmm) :
    (msrTrap host v).2.s.pubExit.reason = .exception := by
  unfold msrTrap at out ⊢
  split
  · rename_i msr
    rw [if_pos msr] at out
    revert out
    rcases serviceNv2Access host v.s.ctx.exitEsr v with ⟨carried, after⟩
    intro out
    cases carried with
    | true => cases out
    | false => exact syncException_reason host after 8 out
  · rename_i other
    rw [if_neg other] at out
    exact syncException_reason host v 8 out

theorem dispatchExit_reason (out : (dispatchExit host v).1 = .toVmm)
    (timer : (dispatchExit host v).2.s.pubExit.reason = .vtimerActivated) : MasksTimer v.s.ctx := by
  have interrupted : (physicalInterrupt v).2.s.pubExit.reason = .vtimerActivated →
      v.s.ctx.timer &&& ohvTimerMask = 0 ∧ v.s.ctx.banked 18 = 5 := by
    unfold physicalInterrupt
    split
    · rename_i taken
      exact fun _ => taken
    · exact nofun
  unfold dispatchExit at out timer
  split at timer
  case h_6 reason => exact ⟨Or.inl reason, interrupted timer⟩
  case h_7 reason => exact ⟨Or.inr reason, interrupted timer⟩
  case h_8 reason =>
    simp only [reason] at out
    rw [msrTrap_reason host v out] at timer
    cases timer
  case h_9 reason =>
    simp only [reason] at out
    rw [syncException_reason host v 1 out] at timer
    cases timer
  case h_10 =>
    rw [reportException_reason] at timer
    cases timer
  case h_1 | h_11 => cases timer
  all_goals
    rename_i reason
    simp only [reason] at out
    cases out

end Exit

theorem arriveExit_timer {host : Host} (quiet : host.Quiet) (cfg : OhvCfg) (s : VcpuSlot) :
    (arriveExit cfg host s).ctx.timer = s.ctx.timer :=
  timer_of_edits quiet (arriveExit_edits cfg s)

/-- The exit that reports the timer finds the mask down and leaves it up. -/
theorem exitFromRo_masks (host : Host) (v : VcpuView)
    (masks : MasksTimer (arriveExit v.g.cfg host v.s).ctx) :
    hvVcpuGetVtimerMask (arriveExit v.g.cfg host v.s) = false ∧
      hvVcpuGetVtimerMask (exitFromRo host v).2.s = true := by
  have down := (WordBits.and_twoPow_eq_zero_iff _ 0 (by decide)).mp masks.2.1
  have page := dispatchExit_masks host { v with s := arriveExit v.g.cfg host v.s } masks
  refine ⟨down, ?_⟩
  have raised := (WordBits.getLsbD_or_twoPow (arriveExit v.g.cfg host v.s).ctx.timer 0 0
    (by decide)).trans (Bool.or_true _)
  rw [hvVcpuGetVtimerMask, exitFromRo, page, Ctx.setTimer, Ctx.timer, Ctx.word_put, if_pos rfl]
  exact raised

/-! ## A step of the system -/

/-- In this step the kernel reads a vCPU's run controls and does not write them. -/
def StepReads (i : VcpuId) (s : System) (act : Act) : Prop :=
  match act with
  | .destroy j => j ≠ i
  | .call j (.getSysReg host _) | .call j (.setSysReg host _ _) | .handle j host =>
      j = i → host.Quiet
  | .leave j page _ _ => j = i → (s.slots i).ctx.SameControls page
  | _ => True

namespace System

def TimerOut (s : System) (i : VcpuId) : Prop :=
  (s.phase i = .store ∨ s.phase i = .returning hvSuccess) ∧
    (s.slots i).pubExit.reason = .vtimerActivated

def ReportsTimer (s : System) (i : VcpuId) : Prop :=
  s.phase i = .returning hvSuccess ∧ (s.slots i).pubExit.reason = .vtimerActivated

instance (s : System) (i : VcpuId) : Decidable (s.ReportsTimer i) :=
  inferInstanceAs (Decidable (_ ∧ _))

end System

section Step
variable {s t : System} {act : Act} {i : VcpuId}

theorem StepReads.kept (reads : StepReads i s act) : act ≠ .destroy i := by
  rintro rfl
  exact reads rfl

/-- Only the vCPU's own thread asks the kernel about it. -/
theorem StepReads.quiet (reads : StepReads i s act)
    (own : ∀ j, act.owner = some j → j = i) : act.host.Quiet := by
  cases act with
  | call j asked =>
      have here := own j rfl
      cases asked with
      | getSysReg host _ | setSysReg host _ _ => exact reads here
      | _ => exact Host.quiet_default
  | handle j host => exact reads (own j rfl)
  | _ => exact Host.quiet_default

theorem timerOut_step (taken : s.step act = some t) (live : (s.slots i).used = true)
    (kept : act ≠ .destroy i) (out : t.TimerOut i) :
    (s.TimerOut i ∧ ∀ asked, act ≠ .call i asked) ∨
      ∃ host, act = .handle i host ∧ MasksTimer (arriveExit s.g.cfg host (s.slots i)).ctx := by
  have turn := System.step_turn i taken live kept
  obtain ⟨phase, reason⟩ := out
  generalize t.slots i = slot, t.phase i = after at turn phase reason
  cases turn with
  | elsewhere _ other =>
      refine Or.inl ⟨⟨phase, reason⟩, ?_⟩
      rintro asked rfl
      exact other rfl
  | gic _ _ only =>
      rw [only.slot] at reason
      exact Or.inl ⟨⟨phase, reason⟩, nofun⟩
  | latch => exact Or.inl ⟨⟨phase, reason⟩, nofun⟩
  | reported host _ answer =>
      have arrived := dispatchExit_reason host
        { s.view i with s := arriveExit s.g.cfg host (s.slots i) } answer reason
      exact Or.inr ⟨host, rfl, arrived⟩
  | store ready => exact Or.inl ⟨⟨Or.inl ready, reason⟩, nofun⟩
  | canceled => cases reason
  | failed rc _ failure =>
      rcases phase with phase | phase
      · cases phase
      · cases phase
        exact absurd rfl failure
  | _ => rcases phase with phase | phase <;> cases phase

theorem mask_of_moves (taken : s.step act = some t) (live : (s.slots i).used = true)
    (kept : act ≠ .destroy i) (moves : s.MovesMask i act)
    (other : act ≠ .call i (.setVtimerMask false)) : hvVcpuGetVtimerMask (t.slots i) = true := by
  have turn := System.step_turn i taken live kept
  cases act with
  | call j asked =>
      obtain ⟨rfl, named⟩ := moves
      rw [turn.called]
      cases asked with
      | setVtimerMask masked =>
          cases masked with
          | true => exact hvVcpuSetVtimerMask_get true _
          | false => exact absurd rfl other
      | _ => exact named.elim
  | handle j host =>
      obtain ⟨rfl, masks⟩ := moves
      rw [turn.handled]
      exact (exitFromRo_masks host (s.view j) masks).2
  | _ => exact moves.elim

/-- No step lowers a mask that is up, but the call that is asked to. -/
theorem mask_step (taken : s.step act = some t) (live : (s.slots i).used = true)
    (reads : StepReads i s act) (other : act ≠ .call i (.setVtimerMask false))
    (up : hvVcpuGetVtimerMask (s.slots i) = true) : hvVcpuGetVtimerMask (t.slots i) = true := by
  by_cases moves : s.MovesMask i act
  · exact mask_of_moves taken live reads.kept moves other
  · have same : (t.slots i).ctx.timer = (s.slots i).ctx.timer := by
      refine System.step_page (P := fun c => c.timer = (s.slots i).ctx.timer) taken live
        reads.kept ?_ ?_ ?_ rfl
      · exact fun c _ _ may before => (timer_spared may moves c).trans before
      · exact fun own k c before => (timer_quiet (reads.quiet own) k c).trans before
      · rintro page rc ticks rfl
        exact reads rfl ohvRwTimer (by decide)
    rw [hvVcpuGetVtimerMask_congr same]
    exact up

/-- Whenever a timer exit is on its way out, the mask is up. -/
structure TimerMasked (s : System) (i : VcpuId) : Prop where
  live : (s.slots i).used = true
  masked : s.TimerOut i → hvVcpuGetVtimerMask (s.slots i) = true

theorem TimerMasked.step (inv : TimerMasked s i) (taken : s.step act = some t)
    (reads : StepReads i s act) : TimerMasked t i := by
  have turn := System.step_turn i taken inv.live reads.kept
  refine ⟨turn.used.trans inv.live, fun out => ?_⟩
  obtain ⟨before, noCall⟩ | ⟨host, rfl, masks⟩ := timerOut_step taken inv.live reads.kept out
  · exact mask_step taken inv.live reads (noCall _) (inv.masked before)
  · rw [turn.handled]
    exact (exitFromRo_masks host (s.view i) masks).2

/-- After a report and until the mask is lowered: it is up, and no timer exit is out. -/
structure Quieted (s : System) (i : VcpuId) : Prop where
  live : (s.slots i).used = true
  up : hvVcpuGetVtimerMask (s.slots i) = true
  none : ¬ s.TimerOut i

theorem Quieted.step (inv : Quieted s i) (taken : s.step act = some t)
    (reads : StepReads i s act) (other : act ≠ .call i (.setVtimerMask false)) :
    Quieted t i := by
  have turn := System.step_turn i taken inv.live reads.kept
  refine ⟨turn.used.trans inv.live, mask_step taken inv.live reads other inv.up, fun out => ?_⟩
  obtain ⟨before, -⟩ | ⟨host, rfl, masks⟩ := timerOut_step taken inv.live reads.kept out
  · exact inv.none before
  · -- the exit would have found the mask down
    have down := (exitFromRo_masks host (s.view i) masks).1
    rw [hvVcpuGetVtimerMask_congr (arriveExit_timer (reads rfl) _ _)] at down
    exact Bool.false_ne_true (down.symm.trans inv.up)

end Step

/-! ## Runs -/

def KernelReads (i : VcpuId) (s : System) (doing : Doing) (_ : System) : Prop :=
  match doing with
  | .act act => StepReads i s act
  | .snapshot j host _ | .restore j host _ => j = i → host.Quiet

/-- Nothing happened that the timer's exits are about. -/
structure TimerStill (i : VcpuId) (s t : System) : Prop where
  phase : t.phase i = s.phase i
  used : (t.slots i).used = (s.slots i).used
  exit : (t.slots i).pubExit = (s.slots i).pubExit
  timer : (t.slots i).ctx.timer = (s.slots i).ctx.timer

section Doings
variable {s t : System} {doing : Doing} {i : VcpuId}

theorem TimerStill.setView {j : VcpuId} {v : VcpuView} (only : RegisterOnly (s.view j) v)
    (timer : j = i → v.s.ctx.timer = (s.slots j).ctx.timer) : TimerStill i s (s.setView j v) := by
  by_cases here : i = j
  · subst here
    refine ⟨rfl, ?_, ?_, ?_⟩
    · rw [System.setView_slots_self, only.slot]
      rfl
    · rw [System.setView_slots_self, only.slot]
      rfl
    · rw [System.setView_slots_self]
      exact timer rfl
  · have other := System.setView_slots_of_ne s here (v := v)
    exact ⟨rfl, by rw [other], by rw [other], by rw [other]⟩

theorem TimerStill.out (still : TimerStill i s t) (out : t.TimerOut i) : s.TimerOut i := by
  obtain ⟨phase, reason⟩ := out
  rw [still.phase] at phase
  rw [still.exit] at reason
  exact ⟨phase, reason⟩

theorem timerStill_of_batch (taken : s.does doing = some t) (reads : KernelReads i s doing t)
    (batch : ∀ act, doing ≠ .act act) : TimerStill i s t := by
  have write : ∀ {host : Host} {before : VcpuView} (enc : BitVec 16) (value : Word) (w : Bool)
      (v : VcpuView), host.Quiet → v.s.ctx.timer = before.s.ctx.timer →
      (sysregAccess host enc value w v).view.s.ctx.timer = before.s.ctx.timer := by
    intro host before enc value w v quiet same
    exact (timer_of_edits quiet (sysregAccess_edits enc value w v)).trans same
  cases doing with
  | act act => exact absurd rfl (batch act)
  | snapshot j host interesting =>
      obtain rfl := System.does_snapshot taken
      refine TimerStill.setView (Vcpu.snapshot_frame host interesting _) fun here => ?_
      exact Vcpu.snapshot_keeps (fun v => v.s.ctx.timer = (s.view j).s.ctx.timer)
        (fun enc v same => write enc 0 false v (reads here) same) interesting rfl
  | restore j host saved =>
      obtain rfl := System.does_restore taken
      refine TimerStill.setView (Vcpu.restore_frame host saved _) fun here => ?_
      refine Vcpu.restore_keeps (fun v => v.s.ctx.timer = (s.view j).s.ctx.timer) ?_ ?_ saved rfl
      · intro w v same
        exact (timer_of_edits (reads here) (hvVcpuSetReg_edits w.1 w.2 v)).trans same
      · intro w v same
        rw [hvVcpuSetSysReg_eq_access]
        exact write w.1 w.2 true v (reads here) same

theorem TimerMasked.does (inv : TimerMasked s i) (taken : s.does doing = some t)
    (reads : KernelReads i s doing t) : TimerMasked t i := by
  by_cases batch : ∀ act, doing ≠ .act act
  · have still := timerStill_of_batch taken reads batch
    refine ⟨still.used.trans inv.live, fun out => ?_⟩
    rw [hvVcpuGetVtimerMask_congr still.timer]
    exact inv.masked (still.out out)
  · simp only [not_forall, ne_eq, not_not] at batch
    obtain ⟨act, rfl⟩ := batch
    exact inv.step taken reads

theorem Quieted.does (inv : Quieted s i) (taken : s.does doing = some t)
    (reads : KernelReads i s doing t) (other : doing ≠ .act (.call i (.setVtimerMask false))) :
    Quieted t i := by
  by_cases batch : ∀ act, doing ≠ .act act
  · have still := timerStill_of_batch taken reads batch
    refine ⟨still.used.trans inv.live, ?_, fun out => inv.none (still.out out)⟩
    rw [hvVcpuGetVtimerMask_congr still.timer]
    exact inv.up
  · simp only [not_forall, ne_eq, not_not] at batch
    obtain ⟨act, rfl⟩ := batch
    exact inv.step taken reads fun same => other (congrArg Doing.act same)

end Doings

/-- Between two exits reported as the virtual timer's the VMM lowers the mask, and from
the first until it does the mask reads as set. -/
theorem one_vtimer_exit_per_unmask {s first t : System} {i : VcpuId} {pre mid : List Doing}
    (live : (s.slots i).used = true) (idle : s.phase i = .idle)
    (kernel : Runs.Along System.does (KernelReads i) s (pre ++ .act (.ret i) :: mid))
    (before : Runs.runFrom System.does s pre = some first) (report : first.ReportsTimer i)
    (run : Runs.runFrom System.does first (.act (.ret i) :: mid) = some t) :
    (t.ReportsTimer i → .act (.call i (.setVtimerMask false)) ∈ mid) ∧
      (.act (.call i (.setVtimerMask false)) ∉ mid →
        hvVcpuGetVtimerMask (t.slots i) = true) := by
  obtain ⟨next, taken, later⟩ := (Runs.runFrom_cons_iff first t _ mid).mp run
  obtain ⟨reads, tail⟩ := kernel.back before next taken
  have away : ¬ s.TimerOut i := by
    rintro ⟨phase | phase, -⟩ <;> rw [idle] at phase <;> cases phase
  have found : TimerMasked first i :=
    Runs.invariant_along (fun s' => TimerMasked s' i)
      (fun _ _ _ taken reads inv => inv.does taken reads) (kernel.front pre) before
      ⟨live, fun out => absurd out away⟩
  have up := found.masked ⟨Or.inr report.1, report.2⟩
  have stepped : first.step (.ret i) = some next := taken
  have turn := System.step_turn i stepped found.live nofun
  have returned : ¬ next.TimerOut i := by
    rintro ⟨out, -⟩
    rw [turn.returned] at out
    rcases out with out | out <;> cases out
  have start : Quieted next i :=
    ⟨turn.used.trans found.live, mask_step stepped found.live reads nofun up, returned⟩
  have quieted : .act (.call i (.setVtimerMask false)) ∉ mid → Quieted t i := by
    intro kept
    have others : Runs.Along System.does
        (fun _ doing _ => doing ≠ .act (.call i (.setVtimerMask false))) next mid := by
      have each : ∀ doing ∈ mid, doing ≠ Doing.act (.call i (.setVtimerMask false)) := by
        rintro doing listed rfl
        exact kept listed
      exact Runs.along_of_forall each next
    exact Runs.invariant_along (fun s' => Quieted s' i)
      (fun _ _ _ taken both inv => inv.does taken both.1 both.2) (tail.and others) later start
  constructor
  · intro again
    by_contra kept
    exact (quieted kept).none ⟨Or.inr again.1, again.2⟩
  · exact fun kept => (quieted kept).up

/-- One round of a vCPU's loop, the guest leaving the page as it was entered with. -/
def quietRound (s : System) : List Doing :=
  let entry : List Act := [.run vcpu0, .expire vcpu0 0, .enter vcpu0]
  let exit : List Act :=
    [.leave vcpu0 (enteredPage s) hvSuccess 0, .check vcpu0, .handle vcpu0 {}, .store vcpu0]
  entry.map .act ++ exit.map .act

theorem quietRound_reads {s inside : System}
    (entered : Runs.runFrom System.step s
      [.run vcpu0, .expire vcpu0 0, .enter vcpu0] = some inside) :
    Runs.Along System.does (KernelReads vcpu0) s (quietRound s) := by
  have page : enteredPage s = (inside.slots vcpu0).ctx := by rw [enteredPage, entered]; rfl
  have front : Runs.runFrom System.does s
      ([.run vcpu0, .expire vcpu0 0, .enter vcpu0].map .act) = some inside := entered
  refine Runs.Along.append front ?_ ?_
  · exact fun _ _ => ⟨trivial, fun _ _ => ⟨trivial, fun _ _ => ⟨trivial, trivial⟩⟩⟩
  · refine fun _ _ => ⟨fun _ => ?_, fun _ _ => ⟨trivial, fun _ _ => ⟨fun _ => Host.quiet_default,
      fun _ _ => ⟨trivial, trivial⟩⟩⟩⟩
    rw [page]
    exact .refl _

def timerStart : System := freshSystem {} ((blankPage.setBanked 18 5).withExit 3 0)

def timerReported : System :=
  (Runs.runFrom System.does timerStart (quietRound timerStart)).getD timerStart

def unmasking : List Doing :=
  [.act (.ret vcpu0), .snapshot vcpu0 {} [], .act (.call vcpu0 (.setVtimerMask false))]

def timerUnmasked : System :=
  (Runs.runFrom System.does timerReported unmasking).getD timerStart

/-- Two reports with the mask lowered between them, and the mask after the first. -/
theorem one_vtimer_exit_per_unmask_twice :
    timerReported.ReportsTimer vcpu0 ∧
    (∃ idle, Runs.runFrom System.does timerReported [.act (.ret vcpu0)] = some idle ∧
      hvVcpuGetVtimerMask (idle.slots vcpu0) = true) ∧
    ∃ t, Runs.runFrom System.does timerReported (unmasking ++ quietRound timerUnmasked) = some t ∧
      t.ReportsTimer vcpu0 ∧ .act (.call vcpu0 (.setVtimerMask false)) ∈
        unmasking.tail ++ quietRound timerUnmasked := by
  have report : timerReported.ReportsTimer vcpu0 := by decide
  have first : Runs.runFrom System.does timerStart (quietRound timerStart) =
      some timerReported := rfl
  have round : Runs.Along System.does (KernelReads vcpu0) timerStart (quietRound timerStart) :=
    quietRound_reads rfl
  have again : Runs.Along System.does (KernelReads vcpu0) timerUnmasked
      (quietRound timerUnmasked) := quietRound_reads rfl
  have middle : Runs.runFrom System.does timerReported unmasking = some timerUnmasked := rfl
  have calls : Runs.Along System.does (KernelReads vcpu0) timerReported unmasking :=
    fun _ _ => ⟨trivial, fun _ _ => ⟨fun _ => Host.quiet_default, fun _ _ => ⟨trivial, trivial⟩⟩⟩
  refine ⟨report, ⟨_, rfl, ?_⟩, ⟨_, rfl, by decide, ?_⟩⟩
  · have returns : Runs.Along System.does (KernelReads vcpu0) timerReported
        [.act (.ret vcpu0)] := fun _ _ => ⟨trivial, trivial⟩
    have kernel := Runs.Along.append first round returns
    exact (one_vtimer_exit_per_unmask rfl rfl kernel first report rfl).2 nofun
  · have kernel := Runs.Along.append first round (Runs.Along.append middle calls again)
    exact (one_vtimer_exit_per_unmask rfl rfl kernel first report rfl).1 (by decide)

end OpenHypervisor
