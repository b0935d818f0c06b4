import OpenHypervisor.VcpuLife
import OpenHypervisor.Process

/-!
# `hv_vcpu_run` as one function

The loop as it is written, from the top of a turn to the next, over the answers the kernel
gives to its traps; the steps a thread takes through it are the pieces of this function.
-/

set_option autoImplicit false

namespace OpenHypervisor

open Runs

/-- What one turn of the loop is told from outside. -/
structure RunTurn where
  now : Word
  page : Ctx
  rc : HvReturn := hvSuccess
  ticks : Word := 0
  host : Host := {}

abbrev TurnEnd := (HvReturn × VcpuView) ⊕ VcpuView

/-- `s->exit_requested.exchange(false)` and what hangs on it. -/
def exchanged (v : VcpuView) (otherwise : TurnEnd) : TurnEnd :=
  if v.s.exitRequested then .inl (hvSuccess, VcpuWork.canceled.serve v) else otherwise

/-- From `exit_from_ro` on. -/
def afterExit (host : Host) (v : VcpuView) : TurnEnd :=
  match (exitFromRo host v).1 with
  | .toVmm => .inl (hvSuccess, VcpuWork.stored.serve (exitFromRo host v).2)
  | .keepRunning => exchanged (exitFromRo host v).2 (.inr (exitFromRo host v).2)

/-- From the run trap on. -/
def afterTrap (rc : HvReturn) (host : Host) (v : VcpuView) : TurnEnd :=
  if rc ≠ hvSuccess then .inl (rc, v) else exchanged v (afterExit host v)

def RunTurn.take (turn : RunTurn) (v : VcpuView) : TurnEnd :=
  afterTrap turn.rc turn.host
    ((VcpuWork.returned turn.page turn.ticks).serve ((VcpuWork.expire turn.now).serve v))

/-- The loop, as far as the answers go. -/
def runLoopFrom : List RunTurn → VcpuView → Option (HvReturn × VcpuView)
  | [], _ => none
  | turn :: rest, v =>
      match turn.take v with
      | .inl done => some done
      | .inr on => runLoopFrom rest on

def hvVcpuRun (turns : List RunTurn) (v : VcpuView) : Option (HvReturn × VcpuView) :=
  runLoopFrom turns (VcpuWork.settle.serve v)

def TurnEnd.on (rest : List RunTurn) (ended : TurnEnd) : Option (HvReturn × VcpuView) :=
  ended.elim some (runLoopFrom rest)

theorem runLoopFrom_cons (turn : RunTurn) (rest : List RunTurn) (v : VcpuView) :
    runLoopFrom (turn :: rest) v = (turn.take v).on rest := by
  rw [runLoopFrom]
  cases turn.take v <;> rfl

/-! ## From the middle of a turn -/

/-- What is left of the call, from where its thread stands, can come to this. -/
def Resumes (v : VcpuView) (done : HvReturn × VcpuView) : RunPhase → Prop
  | .idle => False
  | .top => ∃ turns, runLoopFrom turns v = some done
  | .enter _ | .inGuest => ∃ page rc ticks host rest,
      (afterTrap rc host ((VcpuWork.returned page ticks).serve v)).on rest = some done
  | .exited rc => ∃ host rest, (afterTrap rc host v).on rest = some done
  | .handle => ∃ host rest, (afterExit host v).on rest = some done
  | .store => (hvSuccess, VcpuWork.stored.serve v) = done
  | .turnaround => ∃ rest, (exchanged v (.inr v)).on rest = some done
  | .returning rc => (rc, v) = done

section Step

variable {s t : System} {act : Act} {i : VcpuId} {done : HvReturn × VcpuView}

theorem System.view_placed (s : System) (i : VcpuId) (v : VcpuView) (phase : RunPhase) :
    ((s.setView i v).goto i phase).view i = v := by
  simp [view, setView, goto]

theorem System.view_slot (s : System) (i : VcpuId) (slot : VcpuSlot) (phase : RunPhase) :
    ((s.setSlot i slot).goto i phase).view i = ⟨s.g, slot⟩ := by
  simp [view, setSlot, goto]

theorem exchanged_standing {v : VcpuView} (standing : v.s.exitRequested = true)
    (otherwise : TurnEnd) :
    exchanged v otherwise = .inl (hvSuccess, VcpuWork.canceled.serve v) := if_pos standing

theorem exchanged_clear {v : VcpuView} (clear : v.s.exitRequested = false) (otherwise : TurnEnd) :
    exchanged v otherwise = otherwise := if_neg (by simp [clear])

theorem Resumes.exchange {otherwise : RunPhase}
    (resumes : Resumes ((s.exchange i otherwise).view i) done ((s.exchange i otherwise).phase i)) :
    (s.slots i).exitRequested = true ∧ (hvSuccess, VcpuWork.canceled.serve (s.view i)) = done ∨
      (s.slots i).exitRequested = false ∧ Resumes (s.view i) done otherwise := by
  by_cases standing : (s.slots i).exitRequested = true
  · rw [System.exchange, if_pos standing, System.view_slot, System.goto_phase_self] at resumes
    exact Or.inl ⟨standing, resumes⟩
  · rw [System.exchange, if_neg standing, System.goto_phase_self] at resumes
    exact Or.inr ⟨by simpa using standing, resumes⟩

theorem System.phase_elsewhere (taken : s.step act = some t) (other : act.owner ≠ some i) :
    t.phase i = s.phase i := by
  cases owner : act.owner with
  | some j =>
      have apart : i ≠ j := by
        rintro rfl
        exact other owner
      exact (System.step_of_ne taken owner apart).2
  | none =>
      cases act with
      | create _ | gic _ | latch _ =>
          cases taken
          rfl
      | cancel k =>
          simp only [System.step, Option.ite_none_right_eq_some, Option.some.injEq] at taken
          obtain ⟨-, rfl⟩ := taken
          rfl
      | _ => cases owner

theorem Resumes.step (taken : s.step act = some t) (own : act.owner = some i)
    (inside : s.phase i ≠ .idle) (stays : act ≠ .ret i)
    (resumes : Resumes (t.view i) done (t.phase i)) : Resumes (s.view i) done (s.phase i) := by
  cases act with
  | create _ | gic _ | latch _ | cancel _ => cases own
  | destroy j | call j _ | run j =>
      cases own
      simp only [System.step, Option.ite_none_right_eq_some] at taken
      exact absurd taken.1.2 inside
  | ret j =>
      cases own
      exact absurd rfl stays
  | expire j now =>
      cases own
      simp only [System.step] at taken
      split at taken <;> cases taken
      rename_i top
      rw [System.view_placed, System.goto_phase_self] at resumes
      rw [top]
      obtain ⟨page, rc, ticks, host, rest, ends⟩ := resumes
      exact ⟨⟨now, page, rc, ticks, host⟩ :: rest, (runLoopFrom_cons _ _ _).trans ends⟩
  | enter j =>
      cases own
      simp only [System.step] at taken
      split at taken <;> cases taken
      rename_i now ready
      rw [System.goto_phase_self] at resumes
      rw [ready]
      exact resumes
  | leave j page rc ticks =>
      cases own
      simp only [System.step] at taken
      split at taken <;> cases taken
      rename_i within
      rw [System.goto_phase_self] at resumes
      rw [within]
      obtain ⟨host, rest, ends⟩ := resumes
      rw [System.view_slot] at ends
      exact ⟨page, rc, ticks, host, rest, ends⟩
  | check j =>
      cases own
      simp only [System.step] at taken
      split at taken
      · rename_i rc back
        rw [back]
        by_cases failure : rc ≠ hvSuccess
        · rw [if_pos failure] at taken
          cases taken
          rw [System.goto_phase_self] at resumes
          have refused : afterTrap rc {} (s.view i) = .inl (rc, s.view i) := if_pos failure
          refine ⟨{}, [], ?_⟩
          rw [refused]
          exact congrArg some resumes
        · rw [if_neg failure] at taken
          cases taken
          have passed : ∀ host, afterTrap rc host (s.view i) =
              exchanged (s.view i) (afterExit host (s.view i)) := fun _ => if_neg failure
          obtain ⟨standing, ends⟩ | ⟨clear, host, rest, ends⟩ := resumes.exchange
          · refine ⟨{}, [], ?_⟩
            rw [passed, exchanged_standing standing]
            exact congrArg some ends
          · refine ⟨host, rest, ?_⟩
            rw [passed, exchanged_clear clear]
            exact ends
      · cases taken
  | handle j host =>
      cases own
      simp only [System.step] at taken
      split at taken <;> cases taken
      rename_i ready
      rw [ready]
      have view : (s.handled i host).view i = (exitFromRo host (s.view i)).2 := by
        unfold System.handled
        split <;> rename_i answer <;> rw [System.view_placed, answer]
      have phase := (s.handled_self i host).2
      rw [view, phase] at resumes
      cases answer : (exitFromRo host (s.view i)).1 with
      | toVmm =>
          rw [answer] at resumes
          have out : afterExit host (s.view i) =
              .inl (hvSuccess, VcpuWork.stored.serve (exitFromRo host (s.view i)).2) := by
            rw [afterExit, answer]
          refine ⟨host, [], ?_⟩
          rw [out]
          exact congrArg some resumes
      | keepRunning =>
          rw [answer] at resumes
          obtain ⟨rest, ends⟩ := resumes
          have on : afterExit host (s.view i) = exchanged (exitFromRo host (s.view i)).2
              (.inr (exitFromRo host (s.view i)).2) := by
            rw [afterExit, answer]
          exact ⟨host, rest, on ▸ ends⟩
  | store j =>
      cases own
      simp only [System.step] at taken
      split at taken <;> cases taken
      rename_i ready
      rw [System.view_slot, System.goto_phase_self] at resumes
      rw [ready]
      exact resumes
  | recheck j =>
      cases own
      simp only [System.step] at taken
      split at taken <;> cases taken
      rename_i ready
      rw [ready]
      obtain ⟨standing, ends⟩ | ⟨clear, turns, ends⟩ := resumes.exchange
      · refine ⟨[], ?_⟩
        rw [exchanged_standing standing]
        exact congrArg some ends
      · refine ⟨turns, ?_⟩
        rw [exchanged_clear clear]
        exact ends

theorem System.step_inside (taken : s.step act = some t) (inside : s.phase i ≠ .idle)
    (stays : act ≠ .ret i) : t.phase i ≠ .idle := by
  by_cases own : act.owner = some i
  · have kept : act ≠ .destroy i := by
      rintro rfl
      simp only [System.step, Option.ite_none_right_eq_some] at taken
      exact inside taken.1.2
    have turn := System.step_own taken own kept
    generalize t.slots i = slot, t.phase i = phase at turn ⊢
    cases turn with
    | elsewhere _ other => exact absurd own other
    | call _ idle => exact absurd idle inside
    | ret => exact absurd rfl stays
    | gic _ _ _ | latch _ _ => cases own
    | _ => simp
  · rwa [System.phase_elsewhere taken own]

/-- Nobody but its own thread touches the vCPU. -/
def Undisturbed (i : VcpuId) (s : System) (act : Act) (t : System) : Prop :=
  act.owner ≠ some i → t.view i = s.view i

theorem resumes_run {word : List Act} {rc : HvReturn}
    (ran : runFrom System.step s word = some t) (stays : .ret i ∉ word)
    (quiet : Along System.step (Undisturbed i) s word) (inside : s.phase i ≠ .idle)
    (back : t.phase i = .returning rc) : Resumes (s.view i) (rc, t.view i) (s.phase i) := by
  induction word generalizing s with
  | nil =>
      cases ran
      rw [back]
      rfl
  | cons act rest ih =>
      obtain ⟨next, taken, later⟩ := (runFrom_cons_iff s t act rest).mp ran
      obtain ⟨untouched, tail⟩ := quiet next taken
      have here : act ≠ .ret i := by
        rintro rfl
        exact stays List.mem_cons_self
      have after : .ret i ∉ rest := fun member => stays (List.mem_cons_of_mem act member)
      have resumes := ih later after tail (System.step_inside taken inside here)
      by_cases own : act.owner = some i
      · exact resumes.step taken own inside here
      · rw [← untouched own, ← System.phase_elsewhere taken own]
        exact resumes

end Step

/-! ## A turn as steps -/

section Placed

variable (s : System) (i : VcpuId)

def System.placed (v : VcpuView) (phase : RunPhase) : System := (s.setView i v).goto i phase

theorem System.placed_view (v w : VcpuView) (phase later : RunPhase) :
    ((s.placed i v phase).setView i w).goto i later = s.placed i w later := by
  simp [placed, setView, goto]

theorem System.placed_slot (v : VcpuView) (slot : VcpuSlot) (phase later : RunPhase) :
    ((s.placed i v phase).setSlot i slot).goto i later = s.placed i ⟨v.g, slot⟩ later := by
  simp [placed, setView, setSlot, goto]

theorem System.placed_goto (v : VcpuView) (phase later : RunPhase) :
    (s.placed i v phase).goto i later = s.placed i v later := by
  simp [placed, setView, goto]

variable {v : VcpuView}

theorem System.placed_phase (phase : RunPhase) : (s.placed i v phase).phase i = phase :=
  System.goto_phase_self _ i phase

theorem System.placed_slots (phase : RunPhase) : (s.placed i v phase).slots i = v.s := by
  simp [placed, setView, goto]

theorem System.placed_self (phase : RunPhase) : (s.placed i v phase).view i = v :=
  System.view_placed s i v phase

theorem placed_exchange (otherwise phase : RunPhase) :
    (s.placed i v phase).exchange i otherwise =
      if v.s.exitRequested then s.placed i (VcpuWork.canceled.serve v) (.returning hvSuccess)
      else s.placed i v otherwise := by
  rw [System.exchange, System.placed_slots, System.placed_slot, System.placed_goto]
  rfl

def System.ended : TurnEnd → System
  | .inl done => s.placed i done.2 (.returning done.1)
  | .inr v => s.placed i v .top

/-- Some steps of the thread lead there. -/
def Leads (v : VcpuView) (phase : RunPhase) (t : System) : Prop :=
  ∃ word : List Act, (∀ act ∈ word, act.owner = some i ∧ act ≠ .ret i) ∧
    runFrom System.step (s.placed i v phase) word = some t

theorem Leads.step {t : System} {act : Act} {w : VcpuView} {phase later : RunPhase}
    (taken : (s.placed i v phase).step act = some (s.placed i w later))
    (own : act.owner = some i) (stays : act ≠ .ret i) (leads : Leads s i w later t) :
    Leads s i v phase t := by
  obtain ⟨word, owned, ran⟩ := leads
  refine ⟨act :: word, ?_, by rw [runFrom, taken]; exact ran⟩
  intro other member
  obtain rfl | later := List.mem_cons.mp member
  · exact ⟨own, stays⟩
  · exact owned other later

theorem Leads.refl (v : VcpuView) (phase : RunPhase) : Leads s i v phase (s.placed i v phase) :=
  ⟨[], by simp, rfl⟩

def whereServed : ExitAction → RunPhase
  | .toVmm => .store
  | .keepRunning => .turnaround

theorem afterExit_leads (host : Host) (v : VcpuView) :
    Leads s i v .handle (s.ended i (afterExit host v)) := by
  have handle : (s.placed i v .handle).step (.handle i host) =
      some (s.placed i (exitFromRo host v).2 (whereServed (exitFromRo host v).1)) := by
    simp only [System.step, System.placed_phase, System.handled, System.placed_self]
    split <;> rename_i answer <;> rw [answer] <;> simp only [System.placed_view, whereServed]
  refine Leads.step s i handle rfl (by simp) ?_
  rw [afterExit]
  generalize (exitFromRo host v).2 = w
  cases (exitFromRo host v).1 with
  | toVmm =>
      have store : (s.placed i w .store).step (.store i) =
          some (s.placed i (VcpuWork.stored.serve w) (.returning hvSuccess)) := by
        simp only [System.step, System.placed_phase, System.placed_slots, System.placed_slot]
        rfl
      exact Leads.step s i store rfl (by simp) (.refl s i _ _)
  | keepRunning =>
      have recheck : (s.placed i w .turnaround).step (.recheck i) =
          some ((s.placed i w .turnaround).exchange i .top) := by
        simp only [System.step, System.placed_phase]
      rw [placed_exchange] at recheck
      cases standing : w.s.exitRequested with
      | true =>
          rw [if_pos standing] at recheck
          simp only [exchanged_standing standing]
          exact Leads.step s i recheck rfl (by simp) (.refl s i _ _)
      | false =>
          rw [if_neg (by simp [standing])] at recheck
          simp only [exchanged_clear standing]
          exact Leads.step s i recheck rfl (by simp) (.refl s i _ _)

theorem afterTrap_leads (rc : HvReturn) (host : Host) (v : VcpuView) :
    Leads s i v (.exited rc) (s.ended i (afterTrap rc host v)) := by
  by_cases failure : rc ≠ hvSuccess
  · have check : (s.placed i v (.exited rc)).step (.check i) =
        some (s.placed i v (.returning rc)) := by
      simp only [System.step, System.placed_phase, if_pos failure, System.placed_goto]
    rw [afterTrap, if_pos failure]
    exact Leads.step s i check rfl (by simp) (.refl s i _ _)
  · have check : (s.placed i v (.exited rc)).step (.check i) =
        some ((s.placed i v (.exited rc)).exchange i .handle) := by
      simp only [System.step, System.placed_phase, if_neg failure]
    rw [placed_exchange] at check
    rw [afterTrap, if_neg failure]
    cases standing : v.s.exitRequested with
    | true =>
        rw [if_pos standing] at check
        rw [exchanged_standing standing]
        exact Leads.step s i check rfl (by simp) (.refl s i _ _)
    | false =>
        rw [if_neg (by simp [standing])] at check
        rw [exchanged_clear standing]
        exact Leads.step s i check rfl (by simp) (afterExit_leads s i host v)

theorem RunTurn.leads (turn : RunTurn) (v : VcpuView) :
    Leads s i v .top (s.ended i (turn.take v)) := by
  have expire : (s.placed i v .top).step (.expire i turn.now) =
      some (s.placed i ((VcpuWork.expire turn.now).serve v) (.enter turn.now)) := by
    simp only [System.step, System.placed_phase, System.placed_self, System.placed_view]
    rfl
  have enter : ∀ v, (s.placed i v (.enter turn.now)).step (.enter i) =
      some (s.placed i v .inGuest) := by
    intro v
    simp only [System.step, System.placed_phase, System.placed_goto]
  have leave : ∀ v, (s.placed i v .inGuest).step (.leave i turn.page turn.rc turn.ticks) =
      some (s.placed i ((VcpuWork.returned turn.page turn.ticks).serve v) (.exited turn.rc)) := by
    intro v
    simp only [System.step, System.placed_phase, System.placed_slot, System.placed_slots]
    rfl
  refine Leads.step s i expire rfl (by simp) (Leads.step s i (enter _) rfl (by simp) ?_)
  exact Leads.step s i (leave _) rfl (by simp) (afterTrap_leads s i turn.rc turn.host _)

theorem runLoopFrom_leads {turns : List RunTurn} {v w : VcpuView} {rc : HvReturn}
    (ends : runLoopFrom turns v = some (rc, w)) :
    Leads s i v .top (s.placed i w (.returning rc)) := by
  induction turns generalizing v with
  | nil => cases ends
  | cons turn rest ih =>
      obtain ⟨front, own, ran⟩ := turn.leads s i v
      rw [runLoopFrom] at ends
      cases taken : turn.take v with
      | inl done =>
          rw [taken] at ends ran
          cases ends
          exact ⟨front, own, ran⟩
      | inr on =>
          rw [taken] at ends ran
          obtain ⟨back, later, goes⟩ := ih ends
          refine ⟨front ++ back, ?_, by rw [runFrom_append, ran]; exact goes⟩
          intro act member
          exact (List.mem_append.mp member).elim (own act) (later act)

end Placed

/-- What the run call can come to with nobody else at the vCPU, however the other vCPUs'
threads go on in between, is what the function comes to on some answers of the kernel. -/
theorem run_call_iff {s : System} {i : VcpuId} {rc : HvReturn} {v : VcpuView}
    (idle : s.phase i = .idle) (live : (s.slots i).used = true) :
    (∃ word t, runFrom System.step s (.run i :: word) = some t ∧ .ret i ∉ word ∧
      Along System.step (Undisturbed i) s (.run i :: word) ∧
      t.phase i = .returning rc ∧ t.view i = v) ↔
    ∃ turns, hvVcpuRun turns (s.view i) = some (rc, v) := by
  have started : s.step (.run i) = some (s.settle.goto i .top) := if_pos ⟨live, idle⟩
  have settled : (s.settle.goto i .top).view i = VcpuWork.settle.serve (s.view i) := by
    unfold System.settle VcpuWork.serve System.view
    split <;> rfl
  have top : (s.settle.goto i .top).phase i = .top := System.goto_phase_self _ i .top
  constructor
  · rintro ⟨word, t, ran, stays, quiet, back, rfl⟩
    obtain ⟨next, taken, later⟩ := (runFrom_cons_iff _ _ _ _).mp ran
    cases started.symm.trans taken
    have resumes := resumes_run later stays ((Along.cons_of_step started).mp quiet).2
      (by simp) back
    rw [top, settled] at resumes
    exact resumes
  · rintro ⟨turns, ends⟩
    have same : s.settle.goto i .top = s.placed i (VcpuWork.settle.serve (s.view i)) .top := by
      unfold System.settle System.placed System.setView VcpuWork.serve System.view
      split <;> simp [System.goto]
    obtain ⟨word, own, goes⟩ := runLoopFrom_leads s i ends
    have owned : ∀ act ∈ word, act.owner = some i := fun act member => (own act member).1
    refine ⟨word, _, ?_, fun member => (own _ member).2 rfl, ?_, s.placed_phase i _,
      s.placed_self i _⟩
    · rw [runFrom, started, same]
      exact goes
    · refine (Along.cons_of_step started).mpr ⟨fun other => absurd rfl other, ?_⟩
      refine (along_of_forall owned _).mono fun _ _ _ own other => absurd own other

def twoTurns : List RunTurn :=
  [{ now := 0, page := blankPage.withExit 2 0 },
    { now := 0, page := blankPage.withExit 1 0x92000007 }]

theorem run_call_iff_twoTurns : ∃ v,
    hvVcpuRun twoTurns ((freshSystem { vmAlive := true } blankPage).view vcpu0) =
      some (hvSuccess, v) ∧ v.s.runCount = 2 ∧
    ∃ word t, runFrom System.step (freshSystem { vmAlive := true } blankPage)
        (.run vcpu0 :: word) = some t ∧ .ret vcpu0 ∉ word ∧
      Along System.step (Undisturbed vcpu0) (freshSystem { vmAlive := true } blankPage)
        (.run vcpu0 :: word) ∧
      t.phase vcpu0 = .returning hvSuccess ∧ t.view vcpu0 = v := by
  have realized : ∀ v, hvVcpuRun twoTurns ((freshSystem { vmAlive := true } blankPage).view vcpu0) =
      some (hvSuccess, v) → _ := fun v ends => (run_call_iff rfl rfl).mpr ⟨twoTurns, ends⟩
  exact ⟨_, rfl, rfl, realized _ rfl⟩

end OpenHypervisor
