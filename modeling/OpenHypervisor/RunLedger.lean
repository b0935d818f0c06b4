import OpenHypervisor.VcpuLife

/-!
# The run call's accounts

What comes into `hv_vcpu_run` of one vCPU and what becomes of it, counted over any
interleaving: the cancels the process asks for, the exits the kernel reports, and the calls
themselves.
-/

set_option autoImplicit false

namespace OpenHypervisor

open Runs

/-! ## What a step counts as

Told from the state before the step, the act and where the vCPU's thread stands after. -/

def RunPhase.refused : RunPhase → Bool
  | .returning rc => decide (rc ≠ hvSuccess)
  | .idle | .top | .enter _ | .inGuest | .exited _ | .handle | .store | .turnaround => false

section Kinds

variable (i : VcpuId)

abbrev StepKind := System → Act → RunPhase → Bool

def asksCancel : StepKind
  | _, .latch ids, _ => decide (i ∈ ids)
  | _, _, _ => false

def mergesCancel : StepKind := fun s act after =>
  asksCancel i s act after && (s.slots i).exitRequested

/-- One of the two tests of the latch sends the run call back. -/
def endsCanceled : StepKind
  | _, .check j, after | _, .recheck j, after =>
      decide (j = i) && decide (after = .returning hvSuccess)
  | _, _, _ => false

/-- A cancel still stands when an exit goes to the VMM anyway. -/
def coversCancel : StepKind
  | s, .store j, _ => decide (j = i) && (s.slots i).exitRequested
  | _, _, _ => false

def leavesGuest : StepKind
  | _, .leave j _ _ _, _ => decide (j = i)
  | _, _, _ => false

def endsRefused : StepKind
  | _, .check j, after => decide (j = i) && after.refused
  | _, _, _ => false

/-- A cancel takes the place of an exit that nobody has looked at. -/
def skipsExit : StepKind
  | _, .check j, after => decide (j = i) && decide (after = .returning hvSuccess)
  | _, _, _ => false

def reportsExit : StepKind
  | _, .handle j _, after => decide (j = i) && decide (after = .store)
  | _, _, _ => false

/-- `exit_from_ro` has served the exit itself. -/
def servesExit : StepKind
  | _, .handle j _, after => decide (j = i) && decide (after = .turnaround)
  | _, _, _ => false

def returnsCall : StepKind
  | _, .ret j, _ => decide (j = i)
  | _, _, _ => false

def tally (kind : StepKind) (s : System) (run : List Act) : Nat :=
  sumAlong System.step (fun s act t => (kind s act (t.phase i)).toNat) s run

end Kinds

/-! ## Where a count stands between two steps -/

def RunPhase.exitPending : RunPhase → Bool
  | .exited _ | .handle => true
  | .idle | .top | .enter _ | .inGuest | .store | .turnaround | .returning _ => false

def RunPhase.answered : RunPhase → Bool
  | .store | .returning _ => true
  | .idle | .top | .enter _ | .inGuest | .exited _ | .handle | .turnaround => false

/-! ## One step -/

section Step

variable {s t : System} {act : Act} {i : VcpuId} {slot : VcpuSlot} {phase p : RunPhase}

/-- A step of another vCPU's thread, or of none, counts as nothing of this one's. -/
theorem quiet_elsewhere (other : act.owner ≠ some i) :
    endsCanceled i s act p = false ∧ coversCancel i s act p = false ∧
      leavesGuest i s act p = false ∧ endsRefused i s act p = false ∧
      skipsExit i s act p = false ∧ reportsExit i s act p = false ∧
      servesExit i s act p = false ∧ returnsCall i s act p = false := by
  have named : ∀ j, act.owner = some j → j ≠ i := by
    rintro j owner rfl
    exact other owner
  cases act with
  | check j | recheck j | store j | leave j _ _ _ | handle j _ | ret j =>
      have apart : j ≠ i := named j rfl
      refine ⟨?_, ?_, ?_, ?_, ?_, ?_, ?_, ?_⟩ <;>
        simp [endsCanceled, coversCancel, leavesGuest, endsRefused, skipsExit, reportsExit,
          servesExit, returnsCall, apart]
  | _ => exact ⟨rfl, rfl, rfl, rfl, rfl, rfl, rfl, rfl⟩

theorem Turn.cancels (turn : Turn s i act slot phase) (unasked : ∀ ids, act ≠ .latch ids) :
    (s.slots i).exitRequested.toNat =
      (endsCanceled i s act phase).toNat + (coversCancel i s act phase).toNat +
        slot.exitRequested.toNat := by
  cases turn with
  | elsewhere _ other =>
      obtain ⟨ends, covers, -⟩ := quiet_elsewhere (s := s) (p := s.phase i) other
      simp [ends, covers]
  | gic call _ only =>
      rw [only.slot]
      simp [endsCanceled, coversCancel]
  | latch ids _ => exact absurd rfl (unasked ids)
  | call call _ =>
      rw [VcpuCall.serve_slot]
      simp [endsCanceled, coversCancel, System.view]
  | expire now _ =>
      rw [ohvExpireTimers_slot]
      simp [endsCanceled, coversCancel, System.view]
  | reported host _ _ | served host _ _ =>
      rw [(ExitOnly.exitFromRo host _).slot]
      simp [endsCanceled, coversCancel, System.view]
  | canceled _ test standing =>
      obtain ⟨rfl, -⟩ | ⟨rfl, -⟩ := test <;> simp [endsCanceled, coversCancel, standing]
  | failed rc _ failure => simp [endsCanceled, coversCancel, failure]
  | store _ => simp [endsCanceled, coversCancel]
  | _ => simp [endsCanceled, coversCancel]

theorem System.step_cancels (taken : s.step act = some t) (live : (s.slots i).used = true)
    (kept : act ≠ .destroy i) :
    (asksCancel i s act (t.phase i)).toNat + (s.slots i).exitRequested.toNat =
      (mergesCancel i s act (t.phase i)).toNat + (endsCanceled i s act (t.phase i)).toNat +
        (coversCancel i s act (t.phase i)).toNat + (t.slots i).exitRequested.toNat := by
  by_cases latch : ∃ ids, act = .latch ids
  · obtain ⟨ids, rfl⟩ := latch
    cases taken
    by_cases named : i ∈ ids
    · simp [asksCancel, mergesCancel, endsCanceled, coversCancel, System.latched, named,
        Nat.add_comm]
    · simp [asksCancel, mergesCancel, endsCanceled, coversCancel, System.latched, named]
  · have unasked : asksCancel i s act (t.phase i) = false := by
      cases act with
      | latch ids => exact absurd ⟨ids, rfl⟩ latch
      | _ => rfl
    have turn := System.step_turn i taken live kept
    have balance := turn.cancels fun ids same => latch ⟨ids, same⟩
    rw [mergesCancel, unasked, balance]
    simp

theorem Turn.exits (turn : Turn s i act slot phase) :
    (leavesGuest i s act phase).toNat + (s.phase i).exitPending.toNat =
      (endsRefused i s act phase).toNat + (skipsExit i s act phase).toNat +
        (servesExit i s act phase).toNat +
        (reportsExit i s act phase).toNat + phase.exitPending.toNat := by
  cases turn with
  | elsewhere _ other =>
      obtain ⟨-, -, leaves, refused, skips, reports, serves, -⟩ :=
        quiet_elsewhere (s := s) (p := s.phase i) other
      simp [leaves, refused, skips, reports, serves]
  | canceled _ test _ =>
      obtain ⟨rfl, back⟩ | ⟨rfl, back⟩ := test <;>
        simp [leavesGuest, endsRefused, skipsExit, reportsExit, servesExit, RunPhase.exitPending,
          RunPhase.refused, back]
  | reported _ ready out | served _ ready out =>
      simp [leavesGuest, endsRefused, skipsExit, reportsExit, servesExit, RunPhase.exitPending,
        ready]
  | failed rc back failure =>
      simp [leavesGuest, endsRefused, skipsExit, reportsExit, servesExit, RunPhase.exitPending,
        RunPhase.refused, back, failure]
  | gic | latch => simp [leavesGuest, endsRefused, skipsExit, reportsExit, servesExit]
  | call _ at_ | run at_ | expire _ at_ | enter _ at_ | leave _ _ _ at_ | passed at_ _ | store at_
  | again at_ _ | ret _ at_ =>
      simp [leavesGuest, endsRefused, skipsExit, reportsExit, servesExit, RunPhase.exitPending,
        RunPhase.refused, at_]

theorem Turn.returns (turn : Turn s i act slot phase) :
    (reportsExit i s act phase).toNat + (endsCanceled i s act phase).toNat +
        (endsRefused i s act phase).toNat + (s.phase i).answered.toNat =
      (returnsCall i s act phase).toNat + phase.answered.toNat := by
  cases turn with
  | elsewhere _ other =>
      obtain ⟨ends, -, -, refused, -, reports, -, returns⟩ :=
        quiet_elsewhere (s := s) (p := s.phase i) other
      simp [ends, refused, reports, returns]
  | canceled _ test _ =>
      obtain ⟨rfl, back⟩ | ⟨rfl, back⟩ := test <;>
        simp [endsCanceled, endsRefused, returnsCall, reportsExit, RunPhase.answered,
          RunPhase.refused, back]
  | reported _ ready out | served _ ready out =>
      simp [endsCanceled, endsRefused, returnsCall, reportsExit, RunPhase.answered, ready]
  | failed rc back failure =>
      simp [endsCanceled, endsRefused, returnsCall, reportsExit, RunPhase.answered,
        RunPhase.refused, back, failure]
  | gic | latch => simp [endsCanceled, endsRefused, returnsCall, reportsExit]
  | call _ at_ | run at_ | expire _ at_ | enter _ at_ | leave _ _ _ at_ | passed at_ _ | store at_
  | again at_ _ | ret _ at_ =>
      simp [endsCanceled, endsRefused, returnsCall, reportsExit, RunPhase.answered,
        RunPhase.refused, at_]

end Step

/-! ## A run -/

section Run

variable {s t : System} {i : VcpuId} {run : List Act}

theorem step_kept {s t : System} {act : Act} (taken : s.step act = some t)
    (kept : act ≠ .destroy i) (live : (s.slots i).used = true) : (t.slots i).used = true :=
  (System.step_turn i taken live kept).used.trans live

/-- No cancel is lost, made up or delivered twice: each one asked for merges with one that
stands, ends a run call, goes with an exit the VMM gets at that moment, or still stands. -/
theorem cancels_accounted (live : (s.slots i).used = true)
    (ran : runFrom System.step s run = some t) (kept : .destroy i ∉ run) :
    tally i (asksCancel i) s run + (s.slots i).exitRequested.toNat =
      tally i (mergesCancel i) s run + tally i (endsCanceled i) s run +
        tally i (coversCancel i) s run + (t.slots i).exitRequested.toNat := by
  have stays : ∀ act ∈ run, act ≠ .destroy i := by
    rintro _ member rfl
    exact kept member
  simp only [tally, ← sumAlong_add]
  refine sumAlong_balance (fun s => (s.slots i).used = true) _ _
    (fun s => (s.slots i).exitRequested.toNat) ?_ (along_of_forall stays s) ran live
  intro before act after taken kept live
  exact ⟨step_kept taken kept live, System.step_cancels taken live kept⟩

/-- Every exit the kernel reports has one fate, and every return of the run call one cause:
an exit handed out, a cancel or the kernel's refusal. -/
theorem exits_accounted (live : (s.slots i).used = true)
    (ran : runFrom System.step s run = some t) (kept : .destroy i ∉ run) :
    tally i (leavesGuest i) s run + (s.phase i).exitPending.toNat =
        tally i (endsRefused i) s run + tally i (skipsExit i) s run +
          tally i (servesExit i) s run + tally i (reportsExit i) s run +
          (t.phase i).exitPending.toNat ∧
      tally i (reportsExit i) s run + tally i (endsCanceled i) s run +
          tally i (endsRefused i) s run + (s.phase i).answered.toNat =
        tally i (returnsCall i) s run + (t.phase i).answered.toNat := by
  have stays : ∀ act ∈ run, act ≠ .destroy i := by
    rintro _ member rfl
    exact kept member
  simp only [tally, ← sumAlong_add]
  constructor
  · refine sumAlong_balance (fun s => (s.slots i).used = true) _ _
      (fun s => (s.phase i).exitPending.toNat) ?_ (along_of_forall stays s) ran live
    intro before act after taken kept live
    exact ⟨step_kept taken kept live, (System.step_turn i taken live kept).exits⟩
  · refine sumAlong_balance (fun s => (s.slots i).used = true) _ _
      (fun s => (s.phase i).answered.toNat) ?_ (along_of_forall stays s) ran live
    intro before act after taken kept live
    exact ⟨step_kept taken kept live, (System.step_turn i taken live kept).returns⟩

end Run

def threeKicks : List Act :=
  [.run vcpu0, .expire vcpu0 0, .enter vcpu0, .latch [vcpu0], .latch [vcpu1, vcpu0],
    .leave vcpu0 blankPage hvSuccess 0, .check vcpu0, .latch [vcpu0], .ret vcpu0]

theorem cancels_accounted_kicks : ∃ t,
    runFrom System.step (freshSystem { vmAlive := true } blankPage) threeKicks = some t ∧
    (t.slots vcpu0).exitRequested = true ∧
    tally vcpu0 (asksCancel vcpu0) (freshSystem { vmAlive := true } blankPage) threeKicks = 3 ∧
    tally vcpu0 (mergesCancel vcpu0) (freshSystem { vmAlive := true } blankPage) threeKicks +
      tally vcpu0 (endsCanceled vcpu0) (freshSystem { vmAlive := true } blankPage) threeKicks +
      tally vcpu0 (coversCancel vcpu0) (freshSystem { vmAlive := true } blankPage) threeKicks =
        2 := by
  have kept : .destroy vcpu0 ∉ threeKicks := by simp [threeKicks]
  have account := fun t ran => cancels_accounted (s := freshSystem { vmAlive := true } blankPage)
    (t := t) (i := vcpu0) rfl ran kept
  refine ⟨_, rfl, rfl, rfl, ?_⟩
  have sums := account _ rfl
  exact Nat.add_right_cancel sums.symm

theorem exits_accounted_kicks : ∃ t,
    runFrom System.step (freshSystem { vmAlive := true } blankPage) threeKicks = some t ∧
    t.phase vcpu0 = .idle ∧
    tally vcpu0 (skipsExit vcpu0) (freshSystem { vmAlive := true } blankPage) threeKicks = 1 ∧
    tally vcpu0 (leavesGuest vcpu0) (freshSystem { vmAlive := true } blankPage) threeKicks = 1 := by
  have kept : .destroy vcpu0 ∉ threeKicks := by simp [threeKicks]
  have account := fun t ran => exits_accounted (s := freshSystem { vmAlive := true } blankPage)
    (t := t) (i := vcpu0) rfl ran kept
  refine ⟨_, rfl, rfl, rfl, ?_⟩
  exact (account _ rfl).1

end OpenHypervisor
