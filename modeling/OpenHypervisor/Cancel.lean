import OpenHypervisor.VcpuLife

/-!
# Cancels

The latch of `hv_vcpus_exit` against the loop of `hv_vcpu_run`.  What counts is
how many times the run trap can still begin before the VMM hears of a latched
cancel: once while the vCPU is out of the loop or at its head, and no more once
it is inside.
-/

set_option autoImplicit false

namespace OpenHypervisor

def Act.entersGuest (i : VcpuId) : Act → Bool
  | .enter j => decide (j = i)
  | _ => false

/-- The entries a latched cancel has still to wait for. -/
def RunPhase.entriesLeft : RunPhase → Nat
  | .idle | .top | .enter _ => 1
  | .inGuest | .exited _ | .handle | .store | .turnaround | .returning _ => 0

/-- A cancel stands for the vCPU, or its run call is on the way out already. -/
structure CancelOwed (i : VcpuId) (s : System) : Prop where
  live : (s.slots i).used = true
  standing : (s.slots i).exitRequested = true ∨ ∃ rc, s.phase i = .returning rc

def StaysIn (i : VcpuId) (act : Act) : Prop := act ≠ .destroy i ∧ act ≠ .ret i

theorem Act.entersGuest_of_owner {i : VcpuId} {act : Act} (other : act.owner ≠ some i) :
    act.entersGuest i = false := by
  cases act with
  | enter j =>
      have elsewhere : j ≠ i := fun same => other (by rw [same]; rfl)
      simp [entersGuest, elsewhere]
  | _ => rfl

/-- Until the run call returns, an owed cancel stays owed and every entry is one
fewer to wait for. -/
theorem CancelOwed.step {i : VcpuId} {s t : System} {act : Act} (taken : s.step act = some t)
    (stays : StaysIn i act) (owed : CancelOwed i s) :
    CancelOwed i t ∧
      (if act.entersGuest i then 1 else 0) + (t.phase i).entriesLeft =
        (s.phase i).entriesLeft := by
  have turn := System.step_turn i taken owed.live stays.1
  have live : (t.slots i).used = true := turn.used.trans owed.live
  suffices next : ((t.slots i).exitRequested = true ∨ ∃ rc, t.phase i = .returning rc) ∧
      (if act.entersGuest i then 1 else 0) + (t.phase i).entriesLeft =
        (s.phase i).entriesLeft from ⟨⟨live, next.1⟩, next.2⟩
  have standing : (∀ rc, s.phase i ≠ .returning rc) → (s.slots i).exitRequested = true := by
    intro inside
    exact owed.standing.resolve_right fun ⟨rc, back⟩ => inside rc back
  revert turn
  generalize t.slots i = slot, t.phase i = phase
  intro turn
  cases turn with
  | elsewhere _ other => simp [Act.entersGuest_of_owner other, owed.standing]
  | gic _ _ only =>
      rw [only.slot]
      simp [Act.entersGuest, owed.standing]
  | latch ids named => simp [Act.entersGuest]
  | call call idle =>
      rw [VcpuCall.serve_slot]
      simpa [Act.entersGuest, idle, System.view] using standing (by simp [idle])
  | run idle =>
      simpa [Act.entersGuest, idle, RunPhase.entriesLeft] using standing (by simp [idle])
  | expire now top =>
      rw [ohvExpireTimers_slot]
      simpa [Act.entersGuest, top, RunPhase.entriesLeft, System.view] using standing (by simp [top])
  | enter now ready =>
      simpa [Act.entersGuest, ready, RunPhase.entriesLeft] using standing (by simp [ready])
  | leave page rc ticks inside =>
      simpa [Act.entersGuest, inside, RunPhase.entriesLeft] using standing (by simp [inside])
  | failed rc back failure => simp [Act.entersGuest, back, RunPhase.entriesLeft]
  | canceled _ test _ =>
      obtain ⟨rfl, back⟩ | ⟨rfl, back⟩ := test <;>
        simp [Act.entersGuest, back, RunPhase.entriesLeft]
  | passed back clear =>
      rw [standing (by simp [back])] at clear
      cases clear
  | reported host ready _ =>
      rw [(ExitOnly.exitFromRo host _).slot]
      simpa [Act.entersGuest, ready, RunPhase.entriesLeft, System.view] using
        standing (by simp [ready])
  | served host ready _ =>
      rw [(ExitOnly.exitFromRo host _).slot]
      simpa [Act.entersGuest, ready, RunPhase.entriesLeft, System.view] using
        standing (by simp [ready])
  | store ready => simp [Act.entersGuest, ready, RunPhase.entriesLeft]
  | again ready clear =>
      rw [standing (by simp [ready])] at clear
      cases clear
  | ret rc back => exact absurd rfl stays.2

theorem CancelOwed.entries {i : VcpuId} {s t : System} {word : List Act}
    (stays : ∀ act ∈ word, StaysIn i act) (run : Runs.runFrom System.step s word = some t)
    (owed : CancelOwed i s) :
    word.countP (Act.entersGuest i) + (t.phase i).entriesLeft = (s.phase i).entriesLeft :=
  Runs.countP_add_potential (CancelOwed i) (Act.entersGuest i) (fun s => (s.phase i).entriesLeft)
    (fun _ _ _ taken stays owed => owed.step taken stays) (Runs.along_of_forall stays s) run owed

/-! ## No cancel is lost -/

structure ReturnsNow (i : VcpuId) (rc : HvReturn) (t : System) : Prop where
  phase : t.phase i = .returning rc
  unentered : ∀ later u, Runs.runFrom System.step t later = some u → .ret i ∉ later →
    later.countP (Act.entersGuest i) = 0 ∧ u.phase i = .returning rc

theorem returning_step {i : VcpuId} {rc : HvReturn} {s t : System} {act : Act}
    (taken : s.step act = some t) (stays : act ≠ .ret i)
    (back : (s.slots i).used = true ∧ s.phase i = .returning rc) :
    ((t.slots i).used = true ∧ t.phase i = .returning rc) ∧ act.entersGuest i = false := by
  obtain ⟨live, phase⟩ := back
  have kept : act ≠ .destroy i := by
    rintro rfl
    simp [System.step, phase] at taken
  have turn := System.step_turn i taken live kept
  refine ⟨⟨turn.used.trans live, ?_⟩, ?_⟩
  · revert turn
    generalize t.slots i = slot, t.phase i = next
    intro turn
    cases turn with
    | elsewhere | gic | latch => exact phase
    | canceled _ test _ => rcases test with ⟨-, back⟩ | ⟨-, back⟩ <;> simp [phase] at back
    | ret _ _ => exact absurd rfl stays
    | _ => simp_all
  · cases act with
    | enter j =>
        have elsewhere : j ≠ i := by
          rintro rfl
          simp [System.step, phase] at taken
        simp [Act.entersGuest, elsewhere]
    | _ => rfl

theorem returnsNow_of_phase {i : VcpuId} {rc : HvReturn} {t : System}
    (live : (t.slots i).used = true) (phase : t.phase i = .returning rc) : ReturnsNow i rc t := by
  refine ⟨phase, fun later u run stays => ?_⟩
  have away : Runs.Along System.step (fun _ act _ => act ≠ .ret i) t later :=
    Runs.along_of_forall (fun _ member => ne_of_mem_of_not_mem member stays) t
  have unentered : ∀ (s : System) act next, s.step act = some next → act ≠ .ret i →
      (s.slots i).used = true ∧ s.phase i = .returning rc →
      ((next.slots i).used = true ∧ next.phase i = .returning rc) ∧
        (if act.entersGuest i then 1 else 0) + 0 = 0 := by
    intro s act next taken stays back
    have stepped := returning_step taken stays back
    exact ⟨stepped.1, by simp [stepped.2]⟩
  constructor
  · exact Runs.countP_add_potential
      (fun s : System => (s.slots i).used = true ∧ s.phase i = .returning rc)
      (Act.entersGuest i) (fun _ => 0) unentered away run
      ⟨live, phase⟩
  · exact (Runs.invariant_along
      (fun s : System => (s.slots i).used = true ∧ s.phase i = .returning rc)
      (fun s act next taken stays back => (unentered s act next taken stays back).1) away run
      ⟨live, phase⟩).2

/-- A latch falls only on the way out with success. -/
theorem latch_drops {i : VcpuId} {s t : System} {act : Act} (taken : s.step act = some t)
    (live : (s.slots i).used = true) (kept : act ≠ .destroy i)
    (stood : (s.slots i).exitRequested = true) (fell : (t.slots i).exitRequested = false) :
    ReturnsNow i hvSuccess t := by
  have turn := System.step_turn i taken live kept
  refine returnsNow_of_phase (turn.used.trans live) ?_
  revert turn fell
  generalize t.slots i = slot, t.phase i = phase
  intro fell turn
  cases turn with
  | gic _ _ only =>
      rw [only.slot] at fell
      exact absurd (stood.symm.trans fell) nofun
  | call call _ =>
      rw [VcpuCall.serve_slot] at fell
      exact absurd (stood.symm.trans fell) nofun
  | expire now _ =>
      rw [ohvExpireTimers_slot] at fell
      exact absurd (stood.symm.trans fell) nofun
  | reported host _ _ | served host _ _ =>
      rw [(ExitOnly.exitFromRo host _).slot] at fell
      exact absurd (stood.symm.trans fell) nofun
  | canceled | store => rfl
  | latch => cases fell
  | _ => exact absurd (stood.symm.trans fell) nofun

theorem cancel_not_lost {s : System} {i : VcpuId} {word : List Act}
    (live : (s.slots i).used = true) (kept : .destroy i ∉ word) :
    Runs.Along System.step (fun before _ after => (before.slots i).exitRequested = true →
      (after.slots i).exitRequested = false → ReturnsNow i hvSuccess after) s word ∧
    ∀ front ids later t, word = front ++ .latch ids :: later → i ∈ ids → .ret i ∉ later →
      Runs.runFrom System.step s word = some t → later.countP (Act.entersGuest i) ≤ 1 := by
  have alive : ∀ word, .destroy i ∉ word →
      Runs.Along System.step (fun _ act _ => act ≠ .destroy i) s word :=
    fun _ kept => Runs.along_of_forall (fun _ member => ne_of_mem_of_not_mem member kept) s
  have lives : ∀ (s : System) act next, s.step act = some next → act ≠ .destroy i →
      (s.slots i).used = true → (next.slots i).used = true :=
    fun _ _ _ taken kept live => (System.step_turn i taken live kept).used.trans live
  constructor
  · exact Runs.along_of_invariant (fun s : System => (s.slots i).used = true) lives
      (fun _ _ _ taken kept live => latch_drops taken live kept) (alive word kept) live
  · rintro front ids later t rfl named stays run
    simp only [List.mem_append, List.mem_cons, not_or] at kept
    obtain ⟨keptFront, -, keptLater⟩ := kept
    rw [Runs.runFrom_append, Option.bind_eq_some_iff] at run
    obtain ⟨middle, first, run⟩ := run
    obtain ⟨latched, taken, run⟩ := (Runs.runFrom_cons_iff middle t _ later).mp run
    have liveMiddle := Runs.invariant_along (fun s => (s.slots i).used = true) lives
      (alive front keptFront) first live
    cases taken
    have owed : CancelOwed i
        { middle with slots := middle.latched ids, cancels := middle.cancels ++ [ids] } :=
      ⟨by simp [System.latched, named, liveMiddle], Or.inl (by simp [System.latched, named])⟩
    have entries := owed.entries (fun _ member =>
      ⟨ne_of_mem_of_not_mem member keptLater, ne_of_mem_of_not_mem member stays⟩) run
    have bound : (middle.phase i).entriesLeft ≤ 1 := by
      cases middle.phase i <;> simp [RunPhase.entriesLeft]
    have total : later.countP (Act.entersGuest i) + (t.phase i).entriesLeft =
      (middle.phase i).entriesLeft := entries
    omega

def kickedRun : List Act := [.run vcpu0, .expire vcpu0 0, .enter vcpu0, .latch [vcpu0],
  .leave vcpu0 blankPage hvSuccess 0, .check vcpu0, .cancel 0, .ret vcpu0]

theorem cancel_not_lost_kicked :
    Runs.Along System.step (fun before _ after => (before.slots vcpu0).exitRequested = true →
      (after.slots vcpu0).exitRequested = false → ReturnsNow vcpu0 hvSuccess after)
      (freshSystem { vmAlive := true } blankPage) kickedRun ∧
    ∀ front ids later t, kickedRun = front ++ .latch ids :: later → vcpu0 ∈ ids →
      .ret vcpu0 ∉ later →
      Runs.runFrom System.step (freshSystem { vmAlive := true } blankPage) kickedRun = some t →
      later.countP (Act.entersGuest vcpu0) ≤ 1 :=
  cancel_not_lost rfl (by simp [kickedRun])

/-! ## A cancel before the run -/

/-- What a cancel standing before a run call is owed of it: success, canceled,
and the guest not entered on the way. -/
def CanceledUnentered (i : VcpuId) (inside : List Act) (t : System) : Prop :=
  inside.countP (Act.entersGuest i) = 0 ∧ t.phase i = .returning hvSuccess ∧
    (t.slots i).pubExit.reason = .canceled

theorem standing_step {i : VcpuId} {s t : System} {act : Act} (taken : s.step act = some t)
    (away : act ≠ .destroy i ∧ act ≠ .run i)
    (standing : CancelOwed i s ∧ s.phase i = .idle) : CancelOwed i t ∧ t.phase i = .idle := by
  obtain ⟨owed, idle⟩ := standing
  have stays : StaysIn i act := by
    refine ⟨away.1, ?_⟩
    rintro rfl
    simp [System.step, idle] at taken
  refine ⟨(owed.step taken stays).1, ?_⟩
  have turn := System.step_turn i taken owed.live away.1
  revert turn
  generalize t.slots i = slot, t.phase i = phase
  intro turn
  cases turn with
  | elsewhere | gic | latch => exact idle
  | call => rfl
  | run _ => exact absurd rfl away.2
  | canceled _ test _ => rcases test with ⟨-, back⟩ | ⟨-, back⟩ <;> simp [idle] at back
  | _ => simp_all

/-- The guest is entered once all the same, whoever else does what: the latch is
not looked at before the run trap. -/
theorem standing_cancel_entered {s t : System} {i : VcpuId} {ids : List VcpuId}
    {between inside : List Act} {rc : HvReturn} (live : (s.slots i).used = true)
    (idle : s.phase i = .idle) (named : i ∈ ids) (kept : .destroy i ∉ between ++ inside)
    (away : .run i ∉ between) (stays : .ret i ∉ inside)
    (run : Runs.runFrom System.step s (.latch ids :: (between ++ .run i :: inside)) = some t)
    (back : t.phase i = .returning rc) :
    inside.countP (Act.entersGuest i) = 1 ∧ ¬ CanceledUnentered i inside t := by
  simp only [List.mem_append, not_or] at kept
  have entered : inside.countP (Act.entersGuest i) = 1 := by
    obtain ⟨latched, taken, run⟩ := (Runs.runFrom_cons_iff s t _ _).mp run
    cases taken
    rw [Runs.runFrom_append, Option.bind_eq_some_iff] at run
    obtain ⟨middle, first, run⟩ := run
    have outside : ∀ act ∈ between, act ≠ .destroy i ∧ act ≠ .run i := fun _ member =>
      ⟨ne_of_mem_of_not_mem member kept.1, ne_of_mem_of_not_mem member away⟩
    have standing : CancelOwed i middle ∧ middle.phase i = .idle := by
      refine Runs.invariant_along (fun s => CancelOwed i s ∧ s.phase i = .idle)
        (fun _ _ _ taken away standing => standing_step taken away standing)
        (Runs.along_of_forall outside _) first ⟨⟨?_, Or.inl ?_⟩, idle⟩
      · simp [System.latched, named, live]
      · simp [System.latched, named]
    obtain ⟨entering, taken, run⟩ := (Runs.runFrom_cons_iff middle t _ inside).mp run
    have spent := standing.1.step taken ⟨by simp, by simp⟩
    have entries := spent.1.entries (fun _ member =>
      ⟨ne_of_mem_of_not_mem member kept.2, ne_of_mem_of_not_mem member stays⟩) run
    have started := spent.2
    simp only [Act.entersGuest, standing.2, RunPhase.entriesLeft, Bool.false_eq_true, if_false]
      at started
    rw [back] at entries
    simp only [RunPhase.entriesLeft] at entries
    omega
  exact ⟨entered, fun owed => absurd (entered.symm.trans owed.1) (by decide)⟩

def lateRun : List Act :=
  [.expire vcpu0 0, .enter vcpu0, .leave vcpu0 blankPage hvSuccess 0, .check vcpu0]

theorem standing_cancel_entered_late : ∃ t,
    Runs.runFrom System.step (freshSystem { vmAlive := true } blankPage)
      (.latch [vcpu0] :: ([.cancel 0] ++ .run vcpu0 :: lateRun)) = some t ∧
    lateRun.countP (Act.entersGuest vcpu0) = 1 ∧ ¬ CanceledUnentered vcpu0 lateRun t := by
  have kept : .destroy vcpu0 ∉ [.cancel 0] ++ lateRun := by simp [lateRun]
  have away : .run vcpu0 ∉ [Act.cancel 0] := by simp
  have stays : .ret vcpu0 ∉ lateRun := by simp [lateRun]
  refine ⟨_, rfl, ?_⟩
  exact standing_cancel_entered (s := freshSystem { vmAlive := true } blankPage) rfl rfl
    List.mem_cons_self kept away stays rfl rfl

theorem kick_between_runs_enters : ∃ before t,
    Runs.runFrom System.step (freshSystem { vmAlive := true } blankPage)
      [.latch [vcpu0], .cancel 0] = some before ∧
    before.phase vcpu0 = .idle ∧ (before.slots vcpu0).exitRequested = true ∧
    Runs.runFrom System.step before (.run vcpu0 :: lateRun) = some t ∧
    t.phase vcpu0 = .returning hvSuccess ∧ ¬ CanceledUnentered vcpu0 lateRun t :=
  ⟨_, _, rfl, rfl, rfl, rfl, rfl, fun owed => absurd owed.1 (by decide)⟩

end OpenHypervisor
