import OpenHypervisor.Library.Unwinding
import OpenHypervisor.RunCall
import OpenHypervisor.SharedStatics

/-!
# A vCPU among others

A run in which many vCPUs' threads interleave, next to the run of one of them by itself:
the same creations, destructions, controller calls and cancels that name it, and nothing of
what the other vCPUs do.  On one machine, whose capabilities read alike to every trap, three
statics are left that could carry anything across.
-/

set_option autoImplicit false

namespace OpenHypervisor

open Runs Unwinding

/-! ## Whose step it is -/

/-- The step is one of this vCPU's thread, or of a party that serves all vCPUs. -/
def Act.concerns (i : VcpuId) : Act → Bool
  | .create _ | .destroy _ | .gic _ => true
  | .latch ids => ids.contains i
  | .cancel _ => false
  | .call j _ | .run j | .expire j _ | .enter j | .leave j _ _ _ | .check j | .handle j _
  | .store j | .recheck j | .ret j => decide (j = i)

def Act.OnMachine (caps : Capabilities) : Act → Prop
  | .call _ asked => asked.OnMachine caps
  | .handle _ host => host.caps = caps
  | .create _ | .destroy _ | .gic _ | .run _ | .expire _ _ | .enter _ | .leave _ _ _ _ | .check _
  | .store _ | .recheck _ | .ret _ | .latch _ | .cancel _ => True

/-- Another vCPU's step leaves the settings, the PSTATE field the host does not have, and the
shared band while this vCPU has none of its own. -/
structure LeavesShared (i : VcpuId) (s t : System) : Prop where
  cfg : t.g.cfg = s.g.cfg
  field : t.g.pstateHeld = s.g.pstateHeld
  band : (s.slots i).sptmBase = 0 → t.g.monitorBand = s.g.monitorBand

/-- One machine under all of it, and nothing said through the three statics. -/
structure Discreet (caps : Capabilities) (i : VcpuId) (s : System) (act : Act) (t : System) :
    Prop where
  machine : act.OnMachine caps
  kept : act ≠ .destroy i
  others : act.concerns i = false → LeavesShared i s t

/-- The vCPU on a machine full of others and on one where the others stand still. -/
structure Beside (caps : Capabilities) (i : VcpuId) (s alone : System) : Prop where
  slot : alone.slots i = s.slots i
  phase : alone.phase i = s.phase i
  still : ∀ j, j ≠ i → alone.phase j = .idle
  used : ∀ j, (alone.slots j).used = (s.slots j).used
  id : ∀ j, (alone.slots j).id = (s.slots j).id
  statics : SameStatics caps s.g alone.g
  settled : alone.g.cfgSettled = s.g.cfgSettled ∨ s.g.cfg = s.g.env
  band : (s.slots i).sptmBase = 0 → alone.g.monitorBand = s.g.monitorBand

theorem Beside.start (caps : Capabilities) {i : VcpuId} {s : System}
    (still : ∀ j, j ≠ i → s.phase j = .idle) : Beside caps i s s where
  slot := rfl
  phase := rfl
  still := still
  used := fun _ => rfl
  id := fun _ => rfl
  statics := .refl caps s.g
  settled := Or.inl rfl
  band := fun _ => rfl

/-! ## The others' steps -/

section Aside

variable {caps : Capabilities} {i : VcpuId} {s t alone : System} {act : Act}

theorem Turn.id {slot : VcpuSlot} {phase : RunPhase} (turn : Turn s i act slot phase) :
    slot.id = (s.slots i).id := by
  cases turn with
  | gic _ _ only => rw [only.slot]
  | call call _ => rw [VcpuCall.serve_slot]; rfl
  | expire now _ => rw [ohvExpireTimers_slot]; rfl
  | reported host _ _ | served host _ _ => rw [(ExitOnly.exitFromRo host _).slot]; rfl
  | _ => rfl

theorem Act.owner_of_other (other : act.concerns i = false) :
    (∃ j, j ≠ i ∧ act.owner = some j ∧ act ≠ .destroy j) ∨
      (∃ ids, act = .latch ids ∧ i ∉ ids) ∨ ∃ k, act = .cancel k := by
  cases act with
  | create _ | destroy _ | gic _ => cases other
  | latch ids => exact .inr (.inl ⟨ids, rfl, by simpa [Act.concerns] using other⟩)
  | cancel k => exact .inr (.inr ⟨k, rfl⟩)
  | call j _ | run j | expire j _ | enter j | leave j _ _ _ | check j | handle j _ | store j
  | recheck j | ret j => exact .inl ⟨j, of_decide_eq_false other, rfl, by simp⟩

theorem System.step_other (taken : s.step act = some t) (other : act.concerns i = false) :
    t.slots i = s.slots i ∧ t.phase i = s.phase i ∧
      ∀ k, (t.slots k).used = (s.slots k).used ∧ (t.slots k).id = (s.slots k).id := by
  obtain ⟨j, away, owner, kept⟩ | ⟨ids, rfl, away⟩ | ⟨k, rfl⟩ := act.owner_of_other other
  · obtain ⟨slot, phase⟩ := System.step_of_ne taken owner away.symm
    refine ⟨slot, phase, fun k => ?_⟩
    by_cases here : k = j
    · subst here
      have turn := System.step_own taken owner kept
      exact ⟨turn.used, turn.id⟩
    · rw [(System.step_of_ne taken owner here).1]
      exact ⟨rfl, rfl⟩
  · cases taken
    refine ⟨if_neg away, rfl, fun k => ?_⟩
    simp only [System.latched]
    split <;> exact ⟨rfl, rfl⟩
  · simp only [System.step, Option.ite_none_right_eq_some, Option.some.injEq] at taken
    obtain ⟨-, rfl⟩ := taken
    exact ⟨rfl, rfl, fun _ => ⟨rfl, rfl⟩⟩

theorem System.step_other_statics (taken : s.step act = some t) (other : act.concerns i = false)
    (machine : act.OnMachine caps) (leaves : LeavesShared i s t) :
    SameStatics caps s.g t.g ∧ (t.g.cfgSettled = s.g.cfgSettled ∨ t.g.cfg = t.g.env) := by
  have rested : s.g = t.g →
      SameStatics caps s.g t.g ∧ (t.g.cfgSettled = s.g.cfgSettled ∨ t.g.cfg = t.g.env) := by
    intro same
    rw [← same]
    exact ⟨.refl caps s.g, .inl rfl⟩
  cases act with
  | create _ | destroy _ | gic _ => cases other
  | latch ids =>
      cases taken
      exact rested rfl
  | cancel k =>
      simp only [System.step, Option.ite_none_right_eq_some, Option.some.injEq] at taken
      obtain ⟨-, rfl⟩ := taken
      exact rested rfl
  | call j asked =>
      simp only [System.step, Option.ite_none_right_eq_some, Option.some.injEq] at taken
      obtain ⟨-, rfl⟩ := taken
      have sysregCaps := VcpuCall.serve_sysregCaps (v := s.view j) asked machine
      have globals : (s.setView j (asked.serve (s.view j))).g =
          { s.g with sysregCaps := (asked.serve (s.view j)).g.sysregCaps } :=
        VcpuCall.serve_globals asked (s.view j)
      rw [globals]
      exact ⟨⟨rfl, rfl, sysregCaps⟩, .inl rfl⟩
  | run j =>
      simp only [System.step, Option.ite_none_right_eq_some, Option.some.injEq] at taken
      obtain ⟨-, rfl⟩ := taken
      have cfg := leaves.cfg
      unfold System.goto System.settle at cfg ⊢
      split at cfg
      · rename_i done
        rw [if_pos done]
        exact ⟨.refl caps s.g, .inl rfl⟩
      · rename_i unsettled
        rw [if_neg unsettled]
        refine ⟨⟨?_, rfl, rfl⟩, .inr rfl⟩
        exact congrArg (fun cfg => { s.g with cfg := cfg, cfgSettled := true }) cfg
  | expire j now =>
      simp only [System.step] at taken
      split at taken <;> cases taken
      exact ⟨⟨rfl, rfl, rfl⟩, .inl rfl⟩
  | handle j host =>
      simp only [System.step] at taken
      split at taken <;> cases taken
      have alike : Alike host.caps (s.view j).g (exitFromRo host (s.view j)).2.g :=
        exitFromRo_statics
      have globals : (s.handled j host).g = (exitFromRo host (s.view j)).2.g := by
        unfold System.handled
        split <;> rename_i answer <;> rw [answer] <;> rfl
      have field := leaves.field
      rw [globals] at field ⊢
      cases (machine : host.caps = caps)
      refine ⟨⟨?_, alike.caps, ?_⟩, .inl ?_⟩
      · rw [alike.rest, field]
        rfl
      · rw [alike.rest]
        rfl
      · rw [alike.rest]
        rfl
  | check j =>
      simp only [System.step] at taken
      split at taken
      · split at taken <;> cases taken
        · exact rested rfl
        · exact rested (System.exchange_globals s j _).symm
      · cases taken
  | enter j | leave j _ _ _ | store j | recheck j | ret j =>
      simp only [System.step] at taken
      split at taken <;> cases taken
      first
        | exact rested rfl
        | exact rested (System.exchange_globals s j _).symm

theorem Beside.aside (beside : Beside caps i s alone) (other : act.concerns i = false)
    (taken : s.step act = some t) (discreet : Discreet caps i s act t) :
    Beside caps i t alone := by
  obtain ⟨slot, phase, marks⟩ := System.step_other taken other
  have leaves := discreet.others other
  obtain ⟨statics, settled⟩ := System.step_other_statics taken other discreet.machine leaves
  refine ⟨?_, ?_, beside.still, ?_, ?_, statics.between beside.statics, ?_, ?_⟩
  · rw [slot]
    exact beside.slot
  · rw [phase]
    exact beside.phase
  · intro k
    rw [(marks k).1]
    exact beside.used k
  · intro k
    rw [(marks k).2]
    exact beside.id k
  · obtain same | same := settled
    · rw [same, statics.cfg, statics.env]
      exact beside.settled
    · exact .inr same
  · rw [slot]
    intro none
    exact (beside.band none).trans (leaves.band none).symm

end Aside

/-! ## Its own steps -/

section Own

variable {caps : Capabilities} {i : VcpuId} {s t alone : System} {act : Act}

theorem Beside.turn (beside : Beside caps i s alone) {v w : VcpuView} (same : Parallel caps v w)
    (settled : w.g.cfgSettled = v.g.cfgSettled ∨ v.g.cfg = v.g.env)
    (band : v.s.sptmBase = 0 → w.g.monitorBand = v.g.monitorBand) (phase : RunPhase) :
    Beside caps i ((s.setView i v).goto i phase) ((alone.setView i w).goto i phase) where
  slot := by simp [same.slot]
  phase := by simp
  still := by
    intro j other
    rw [System.goto_phase_of_ne _ other]
    exact beside.still j other
  used := by
    intro j
    by_cases here : j = i
    · subst here
      simp [same.slot]
    · simp only [System.goto_slots, System.setView_slots_of_ne _ here]
      exact beside.used j
  id := by
    intro j
    by_cases here : j = i
    · subst here
      simp [same.slot]
    · simp only [System.goto_slots, System.setView_slots_of_ne _ here]
      exact beside.id j
  statics := same.statics
  settled := settled
  band := by
    intro none
    rw [System.goto_slots, System.setView_slots_self] at none
    exact band none

theorem Beside.parallel (beside : Beside caps i s alone) :
    Parallel caps (s.view i) (alone.view i) := ⟨beside.slot, beside.statics⟩

theorem System.setView_self (s : System) (i : VcpuId) : s.setView i (s.view i) = s := by
  simp [setView, view]

theorem System.goto_self {phase : RunPhase} (here : s.phase i = phase) : s.goto i phase = s := by
  rw [← here]
  simp [goto]

theorem System.settle_eq (s : System) : s.settle =
    { s with g := { s.g with cfg := s.settle.g.cfg, cfgSettled := true } } := by
  by_cases done : s.g.cfgSettled
  · rw [settle, if_pos done]
    show s = { s with g := { s.g with cfgSettled := true } }
    rw [← done]
  · rw [settle, if_neg done]

theorem Beside.goto (beside : Beside caps i s alone) (phase : RunPhase) :
    Beside caps i (s.goto i phase) (alone.goto i phase) := by
  have moved := beside.turn beside.parallel beside.settled beside.band phase
  rwa [System.setView_self, System.setView_self] at moved

theorem Beside.edit (beside : Beside caps i s alone) (f : VcpuSlot → VcpuSlot)
    (band : ∀ slot, (f slot).sptmBase = slot.sptmBase) (phase : RunPhase) :
    Beside caps i ((s.setSlot i (f (s.slots i))).goto i phase)
      ((alone.setSlot i (f (alone.slots i))).goto i phase) := by
  refine beside.turn (v := ⟨s.g, f (s.slots i)⟩) (w := ⟨alone.g, f (alone.slots i)⟩)
    (beside.parallel.edit f) beside.settled (fun none => beside.band ?_) phase
  rw [← band]
  exact none

theorem Beside.exchange (beside : Beside caps i s alone) (otherwise : RunPhase) :
    Beside caps i (s.exchange i otherwise) (alone.exchange i otherwise) := by
  have canceled := beside.edit
    (fun slot => { slot.setExit .canceled with exitRequested := false }) (fun _ => rfl)
    (.returning hvSuccess)
  have passed := beside.goto otherwise
  unfold System.exchange
  rw [beside.slot] at canceled ⊢
  split
  · exact canceled
  · exact passed

theorem Beside.call (beside : Beside caps i s alone) (asked : VcpuCall)
    (machine : asked.OnMachine caps) (idle : s.phase i = .idle) :
    Beside caps i (s.setView i (asked.serve (s.view i)))
      (alone.setView i (asked.serve (alone.view i))) := by
  have served := VcpuCall.serve_parallel asked machine beside.parallel
  have here := VcpuCall.serve_globals asked (s.view i)
  have there := VcpuCall.serve_globals asked (alone.view i)
  have band : (asked.serve (s.view i)).s.sptmBase = (s.slots i).sptmBase := by
    rw [VcpuCall.serve_slot]
    rfl
  have placed := beside.turn served (by rw [here, there]; exact beside.settled)
    (by rw [band, here, there]; exact beside.band) .idle
  have idle' : alone.phase i = .idle := beside.phase.trans idle
  rwa [System.goto_self (s := s.setView i _) idle,
    System.goto_self (s := alone.setView i _) idle'] at placed

theorem Beside.settle (beside : Beside caps i s alone) : Beside caps i s.settle alone.settle := by
  have cfg := beside.statics.cfg
  have env := beside.statics.env
  have same : s.settle.g.cfg = alone.settle.g.cfg ∧ s.settle.g.cfgSettled = true ∧
      alone.settle.g.cfgSettled = true := by
    unfold System.settle
    split <;> split
    · rename_i left right
      exact ⟨cfg.symm, left, right⟩
    · rename_i left right
      refine ⟨?_, left, rfl⟩
      obtain same | same := beside.settled
      · exact absurd (same.trans left) right
      · exact same.trans env.symm
    · rename_i left right
      refine ⟨?_, rfl, right⟩
      obtain same | same := beside.settled
      · exact absurd (same.symm.trans right) left
      · exact same.symm.trans cfg.symm
    · exact ⟨env.symm, rfl, rfl⟩
  have band : ∀ s : System, s.settle.g.monitorBand = s.g.monitorBand := by
    intro s
    unfold System.settle
    split <;> rfl
  refine ⟨?_, ?_, ?_, ?_, ?_, ?_, .inl ?_, ?_⟩
  · simpa using beside.slot
  · simpa using beside.phase
  · simpa using beside.still
  · simpa using beside.used
  · simpa using beside.id
  · rw [System.settle_eq s, System.settle_eq alone, same.1]
    exact ⟨congrArg (fun g : Globals => { g with cfg := alone.settle.g.cfg, cfgSettled := true })
      beside.statics.rest, beside.statics.nv2Caps, beside.statics.sysregCaps⟩
  · exact same.2.2.trans same.2.1.symm
  · rw [band, band, System.settle_slots]
    exact beside.band

theorem System.handled_eq (s : System) (i : VcpuId) (host : Host) :
    s.handled i host = (s.setView i (exitFromRo host (s.view i)).2).goto i
      (whereServed (exitFromRo host (s.view i)).1) := by
  unfold handled
  split <;> rename_i answer <;> rw [answer] <;> rfl

theorem Beside.handled (beside : Beside caps i s alone) {host : Host}
    (machine : host.caps = caps) :
    Beside caps i (s.handled i host) (alone.handled i host) := by
  cases machine
  obtain ⟨action, same⟩ : Alongside host.caps (exitFromRo host (s.view i))
      (exitFromRo host (alone.view i)) := exitFromRo_alongside beside.parallel
  have here := ExitOnly.exitFromRo host (s.view i)
  have there := ExitOnly.exitFromRo host (alone.view i)
  have band : (exitFromRo host (s.view i)).2.s.sptmBase = (s.slots i).sptmBase := by
    rw [here.slot]
    rfl
  rw [System.handled_eq, System.handled_eq, action]
  refine beside.turn same ?_ ?_ _
  · rw [here.globals, there.globals]
    exact beside.settled
  · rw [band, here.globals, there.globals]
    exact beside.band

theorem Beside.expire (beside : Beside caps i s alone) (now : Word) (phase : RunPhase) :
    Beside caps i ((s.setView i (ohvExpireTimers now (s.view i))).goto i phase)
      ((alone.setView i (ohvExpireTimers now (alone.view i))).goto i phase) := by
  obtain ⟨same, band⟩ := ohvExpireTimers_parallel now beside.parallel beside.band
  exact beside.turn same beside.settled band phase

/-- A step of the vCPU's own thread goes the same way with the others standing still. -/
theorem Beside.own (beside : Beside caps i s alone) (own : act.owner = some i)
    (kept : act ≠ .destroy i) (machine : act.OnMachine caps) (taken : s.step act = some t) :
    ∃ after, alone.step act = some after ∧ Beside caps i t after := by
  have used := beside.used i
  have phase := beside.phase
  cases act with
  | create _ | gic _ | latch _ | cancel _ => cases own
  | destroy j =>
      cases own
      exact absurd rfl kept
  | call j asked =>
      cases own
      simp only [System.step, Option.ite_none_right_eq_some, Option.some.injEq] at taken
      obtain ⟨ready, rfl⟩ := taken
      refine ⟨_, ?_, beside.call asked machine ready.2⟩
      simp only [System.step]
      rw [used, phase, if_pos ready]
  | run j =>
      cases own
      simp only [System.step, Option.ite_none_right_eq_some, Option.some.injEq] at taken
      obtain ⟨ready, rfl⟩ := taken
      refine ⟨_, ?_, beside.settle.goto .top⟩
      simp only [System.step]
      rw [used, phase, if_pos ready]
  | expire j now =>
      cases own
      simp only [System.step] at taken
      split at taken <;> cases taken
      rename_i here
      refine ⟨_, ?_, beside.expire now (.enter now)⟩
      simp only [System.step, phase, here]
  | enter j =>
      cases own
      simp only [System.step] at taken
      split at taken <;> cases taken
      rename_i here
      refine ⟨_, ?_, beside.goto .inGuest⟩
      simp only [System.step, phase, here]
  | leave j page rc ticks =>
      cases own
      simp only [System.step] at taken
      split at taken <;> cases taken
      rename_i here
      refine ⟨_, ?_, beside.edit (fun slot => { slot with
        ctx := page
        wfiTicks := slot.wfiTicks + ticks
        runCount := slot.runCount + 1 }) (fun _ => rfl) (.exited rc)⟩
      simp only [System.step, phase, here]
  | check j =>
      cases own
      simp only [System.step] at taken
      split at taken
      · rename_i rc here
        split at taken <;> cases taken
        · rename_i failure
          refine ⟨_, ?_, beside.goto (.returning rc)⟩
          simp only [System.step, phase, here, if_pos failure]
        · rename_i success
          refine ⟨_, ?_, beside.exchange .handle⟩
          simp only [System.step, phase, here, if_neg success]
      · cases taken
  | handle j host =>
      cases own
      simp only [System.step] at taken
      split at taken <;> cases taken
      rename_i here
      refine ⟨_, ?_, beside.handled machine⟩
      simp only [System.step, phase, here]
  | store j =>
      cases own
      simp only [System.step] at taken
      split at taken <;> cases taken
      rename_i here
      refine ⟨_, ?_, beside.edit (fun slot => { slot with exitRequested := false })
        (fun _ => rfl) (.returning hvSuccess)⟩
      simp only [System.step, phase, here]
  | recheck j =>
      cases own
      simp only [System.step] at taken
      split at taken <;> cases taken
      rename_i here
      refine ⟨_, ?_, beside.exchange .top⟩
      simp only [System.step, phase, here]
  | ret j =>
      cases own
      simp only [System.step] at taken
      split at taken <;> cases taken
      rename_i here
      refine ⟨_, ?_, beside.goto .idle⟩
      simp only [System.step, phase, here]

end Own

/-! ## What serves all vCPUs -/

structure SameTable (i : VcpuId) (slots others : VcpuTable) : Prop where
  slot : others i = slots i
  used : ∀ j, (others j).used = (slots j).used
  id : ∀ j, (others j).id = (slots j).id

namespace SameTable

variable {i : VcpuId} {slots others : VcpuTable}

theorem firstUsed (same : SameTable i slots others) : firstUsed others = firstUsed slots := by
  unfold OpenHypervisor.firstUsed
  simp only [same.used]

theorem firstFree (same : SameTable i slots others) : firstFree others = firstFree slots := by
  unfold OpenHypervisor.firstFree
  simp only [same.used]

theorem findVcpu (same : SameTable i slots others) (id : Nat) :
    findVcpu others id = findVcpu slots id := by
  unfold OpenHypervisor.findVcpu
  simp only [same.used]

theorem update (same : SameTable i slots others) (j : VcpuId) {slot other : VcpuSlot}
    (here : j = i → other = slot) (used : other.used = slot.used) (id : other.id = slot.id) :
    SameTable i (Function.update slots j slot) (Function.update others j other) where
  slot := by
    by_cases own : i = j
    · subst own
      simpa using here rfl
    · simpa [own] using same.slot
  used := by
    intro k
    by_cases at_ : k = j
    · subst at_
      simpa using used
    · simpa [at_] using same.used k
  id := by
    intro k
    by_cases at_ : k = j
    · subst at_
      simpa using id
    · simpa [at_] using same.id k

theorem updateCtx (same : SameTable i slots others) (j : VcpuId) (f : Ctx → Ctx) :
    SameTable i (updateCtx slots j f) (updateCtx others j f) := by
  refine same.update j ?_ (same.used j) (same.id j)
  rintro rfl
  rw [same.slot]

theorem markAll (same : SameTable i slots others) :
    SameTable i (markAll slots) (markAll others) where
  slot := by
    unfold OpenHypervisor.markAll
    rw [same.slot]
  used := by
    intro j
    unfold OpenHypervisor.markAll
    rw [same.used]
    split
    · exact same.used j
    · exact same.used j
  id := by
    intro j
    unfold OpenHypervisor.markAll
    rw [same.used]
    split
    · exact same.id j
    · exact same.id j

theorem latched {s alone : System} (same : SameTable i s.slots alone.slots) (ids : List VcpuId) :
    SameTable i (s.latched ids) (alone.latched ids) where
  slot := by
    unfold System.latched
    rw [same.slot]
  used := by
    intro j
    unfold System.latched
    split
    · exact same.used j
    · exact same.used j
  id := by
    intro j
    unfold System.latched
    split
    · exact same.id j
    · exact same.id j

theorem create (same : SameTable i slots others) {caps : Capabilities} {g other : Globals}
    (statics : SameStatics caps g other) (trap : CreateTrap) :
    SameTable i (hvVcpuCreate g trap slots).2 (hvVcpuCreate other trap others).2 := by
  have page : createdCtx other trap.page = createdCtx g trap.page := by
    unfold createdCtx
    rw [statics.vmEl2, statics.cfg, statics.vmVhe, statics.gic]
  unfold hvVcpuCreate
  rw [statics.vmAlive, same.firstFree]
  split
  · exact same
  · split
    · exact same
    · split
      · exact same
      · split
        · exact same
        · refine same.update _ ?_ rfl rfl
          rintro rfl
          unfold createdSlot
          rw [page, statics.vmEl2, same.slot]

end SameTable

theorem hvVcpuCreate_sptmBase (g : Globals) (trap : CreateTrap) (slots : VcpuTable) (i : VcpuId) :
    ((hvVcpuCreate g trap slots).2 i).sptmBase = (slots i).sptmBase := by
  unfold hvVcpuCreate
  split
  · rfl
  · split
    · rfl
    · rename_i j _
      split
      · rfl
      · split
        · rfl
        · by_cases here : i = j
          · subst here
            simp [createdSlot]
          · simp [here]

/-- Two answers of the controller that leave it, and the vCPU, the same. -/
structure SameAnswer (i : VcpuId) (left right : GicAnswer) : Prop where
  gic : right.g.gic = left.g.gic
  table : SameTable i left.slots right.slots

section Controller

variable {caps : Capabilities} {i : VcpuId} {g other : Globals} {slots others : VcpuTable}
  (statics : SameStatics caps g other) (same : SameTable i slots others)

include statics same

theorem SameAnswer.unchanged (rc : HvReturn) :
    SameAnswer i (unchanged g slots rc) (unchanged other others rc) := ⟨statics.gic, same⟩

theorem setBank_same (id : Nat) (slot : Option Nat) (write : GicModel → Nat → Nat → GicModel) :
    SameAnswer i (setBank g slots id slot write) (setBank other others id slot write) := by
  unfold setBank
  rw [statics.gic, same.findVcpu]
  split
  · rename_i m j _ _
    rw [same.id]
    split
    · exact .unchanged statics same _
    · split
      · exact .unchanged statics same _
      · exact ⟨rfl, same.updateCtx j fun c => c.markDirty ohvStateGic⟩
  · exact .unchanged statics same _

theorem hvGicSetSpi_same (intid : Nat) (level : Bool) :
    SameAnswer i (hvGicSetSpi g slots intid level) (hvGicSetSpi other others intid level) := by
  unfold hvGicSetSpi
  rw [statics.gic, same.firstUsed]
  split
  · exact .unchanged statics same _
  · split
    · exact .unchanged statics same _
    · simp only
      split
      · rename_i j _
        rw [same.id]
        refine ⟨rfl, ?_⟩
        simp only [setModel]
        split
        · exact same
        · split
          · split
            · exact same
            · exact same.updateCtx j _
          · exact same.updateCtx j _
      · exact ⟨rfl, same⟩

theorem GicCall.serve_same (call : GicCall) :
    SameAnswer i (call.serve g slots) (call.serve other others) := by
  cases call with
  | create base =>
      simp only [serve, hvGicCreate]
      rw [statics.vmAlive, same.firstUsed, statics.gic]
      split
      · exact .unchanged statics same _
      · split
        · exact .unchanged statics same _
        · split
          · exact .unchanged statics same _
          · exact ⟨rfl, same⟩
  | setDistributorReg offset value =>
      simp only [serve, hvGicSetDistributorReg]
      rw [statics.gic]
      split
      · exact .unchanged statics same _
      · split
        · exact .unchanged statics same _
        · split
          · exact .unchanged statics same _
          · exact ⟨rfl, same⟩
  | setMsiReg offset value =>
      simp only [serve, hvGicSetMsiReg]
      rw [statics.gic]
      split
      · exact .unchanged statics same _
      · split
        · exact .unchanged statics same _
        · exact ⟨rfl, same⟩
  | setRedistributorReg id offset value =>
      simp only [serve, hvGicSetRedistributorReg]
      exact setBank_same statics same id _ _
  | setIccReg id enc value =>
      simp only [serve, hvGicSetIccReg]
      exact setBank_same statics same id _ _
  | setIcvReg id enc value =>
      simp only [serve, hvGicSetIcvReg]
      exact setBank_same statics same id _ _
  | setIchReg id enc value =>
      simp only [serve, hvGicSetIchReg]
      rw [statics.gic, same.findVcpu]
      split
      · rename_i m j _ _
        rw [same.id]
        split
        · exact .unchanged statics same _
        · split
          · exact .unchanged statics same _
          · exact ⟨rfl, same.updateCtx j fun c => (writeIch enc value c).2⟩
      · exact .unchanged statics same _
  | setSpi intid level => exact hvGicSetSpi_same statics same intid level
  | reset =>
      simp only [serve, hvGicReset]
      rw [statics.gic]
      split
      · exact .unchanged statics same _
      · exact ⟨rfl, same.markAll⟩
  | setState data =>
      simp only [serve, hvGicSetState]
      rw [statics.gic]
      split
      · exact .unchanged statics same _
      · exact ⟨rfl, same.markAll⟩

end Controller

/-! ## The whole run -/

section Runs

variable {caps : Capabilities} {i : VcpuId} {s t alone : System} {act : Act}

theorem Beside.table (beside : Beside caps i s alone) : SameTable i s.slots alone.slots :=
  ⟨beside.slot, beside.used, beside.id⟩

theorem Beside.tables (beside : Beside caps i s alone) {slots others : VcpuTable}
    (same : SameTable i slots others) (band : (slots i).sptmBase = (s.slots i).sptmBase)
    (cancels canceled : List (List VcpuId)) :
    Beside caps i { s with slots := slots, cancels := cancels }
      { alone with slots := others, cancels := canceled } where
  slot := same.slot
  phase := beside.phase
  still := beside.still
  used := same.used
  id := same.id
  statics := beside.statics
  settled := beside.settled
  band := fun none => beside.band (band.symm.trans none)

theorem Beside.gic (beside : Beside caps i s alone) (call : GicCall) :
    Beside caps i
      { s with g := (call.serve s.g s.slots).g, slots := (call.serve s.g s.slots).slots }
      { alone with
        g := (call.serve alone.g alone.slots).g
        slots := (call.serve alone.g alone.slots).slots } := by
  have same := GicCall.serve_same beside.statics beside.table call
  have here := GicCall.serve_frame call s.g s.slots
  have there := GicCall.serve_frame call alone.g alone.slots
  have own : ((call.serve s.g s.slots).slots i).sptmBase = (s.slots i).sptmBase := by
    rw [(here.slot i).slot]
  have gic := same.gic
  refine ⟨same.table.slot, beside.phase, beside.still, same.table.used, same.table.id, ?_, ?_, ?_⟩
  · rw [here.globals, there.globals, gic]
    exact beside.statics.setGic _
  · rw [here.globals, there.globals]
    exact beside.settled
  · rw [here.globals, there.globals, own]
    exact beside.band

/-- A step the vCPU is concerned with goes the same way with the others standing still. -/
theorem Beside.follow (beside : Beside caps i s alone) (concerned : act.concerns i = true)
    (taken : s.step act = some t) (discreet : Discreet caps i s act t) :
    ∃ after, alone.step act = some after ∧ Beside caps i t after := by
  cases act with
  | create trap =>
      cases taken
      exact ⟨_, rfl, beside.tables (beside.table.create beside.statics trap)
        (hvVcpuCreate_sptmBase s.g trap s.slots i) _ _⟩
  | destroy j =>
      have away : j ≠ i := by
        rintro rfl
        exact discreet.kept rfl
      simp only [System.step, Option.ite_none_right_eq_some, Option.some.injEq] at taken
      obtain ⟨ready, rfl⟩ := taken
      have gone : SameTable i (Function.update s.slots j {}) (Function.update alone.slots j {}) :=
        beside.table.update j (fun here => absurd here away) rfl rfl
      refine ⟨_, if_pos ⟨(beside.used j).trans ready.1, beside.still j away⟩,
        beside.tables gone ?_ _ _⟩
      rw [Function.update_of_ne away.symm]
  | gic call =>
      cases taken
      exact ⟨_, rfl, beside.gic call⟩
  | latch ids =>
      cases taken
      exact ⟨_, rfl, beside.tables (beside.table.latched ids) (by
        unfold System.latched
        split <;> rfl) _ _⟩
  | cancel k => cases concerned
  | call j _ | run j | expire j _ | enter j | leave j _ _ _ | check j | handle j _ | store j
  | recheck j | ret j =>
      cases (of_decide_eq_true concerned : j = i)
      exact beside.own rfl (by simp) discreet.machine taken

theorem unwinds (caps : Capabilities) (i : VcpuId) :
    Unwinds System.step (Act.concerns i) (Discreet caps i) (Beside caps i) where
  aside := fun beside other taken discreet => beside.aside other taken discreet
  follow := fun beside concerned taken discreet => beside.follow concerned taken discreet

end Runs

/-- A vCPU among others is the vCPU it would be if the others stood still: take their steps
out of a run, and the same is left in its slot, its thread and the controller. -/
theorem others_unseen {caps : Capabilities} {i : VcpuId} {s t : System} {word : List Act}
    (still : ∀ j, j ≠ i → s.phase j = .idle) (ran : runFrom System.step s word = some t)
    (discreet : Along System.step (Discreet caps i) s word) :
    ∃ alone, runFrom System.step s (word.filter (Act.concerns i)) = some alone ∧
      alone.slots i = t.slots i ∧ alone.phase i = t.phase i ∧ alone.g.gic = t.g.gic := by
  obtain ⟨alone, goes, beside⟩ := (unwinds caps i).purge (.start caps still) ran discreet
  exact ⟨alone, goes, beside.slot, beside.phase, beside.statics.gic⟩

theorem Discreet.concerned {caps : Capabilities} {i : VcpuId} {s t : System} {act : Act}
    (concerned : act.concerns i = true) (machine : act.OnMachine caps)
    (kept : act ≠ .destroy i) : Discreet caps i s act t where
  machine := machine
  kept := kept
  others := by
    intro other
    rw [concerned] at other
    cases other

/-- Two vCPUs made one after the other and entered in turns. -/
def twoEntered : List Act :=
  [.create { page := versionedPage }, .create { page := versionedPage }, .run vcpu1,
    .expire vcpu1 0, .run vcpu0, .enter vcpu1, .expire vcpu0 0, .enter vcpu0]

theorem others_unseen_twoEntered : ∃ t,
    runFrom System.step { g := { vmAlive := true } } twoEntered = some t ∧
      t.phase vcpu1 = .inGuest ∧
      ∃ alone, runFrom System.step { g := { vmAlive := true } }
          (twoEntered.filter (Act.concerns vcpu0)) = some alone ∧
        alone.phase vcpu1 = .idle ∧ alone.slots vcpu0 = t.slots vcpu0 ∧
        alone.phase vcpu0 = t.phase vcpu0 ∧ alone.g.gic = t.g.gic := by
  have discreet : Along System.step (Discreet {} vcpu0) { g := { vmAlive := true } }
      twoEntered := by
    have quiet : ∀ {s t : System} {act : Act}, act.OnMachine {} → act ≠ .destroy vcpu0 →
        LeavesShared vcpu0 s t → Discreet {} vcpu0 s act t := fun machine kept leaves =>
      ⟨machine, kept, fun _ => leaves⟩
    refine (Along.cons_of_step rfl).mpr ⟨.concerned rfl trivial (by simp), ?_⟩
    refine (Along.cons_of_step rfl).mpr ⟨.concerned rfl trivial (by simp), ?_⟩
    refine (Along.cons_of_step rfl).mpr ⟨?_, ?_⟩
    · exact quiet trivial (by simp) ⟨rfl, rfl, fun _ => rfl⟩
    refine (Along.cons_of_step rfl).mpr ⟨?_, ?_⟩
    · exact quiet trivial (by simp) ⟨rfl, rfl, fun _ => rfl⟩
    refine (Along.cons_of_step rfl).mpr ⟨.concerned rfl trivial (by simp), ?_⟩
    refine (Along.cons_of_step rfl).mpr ⟨?_, ?_⟩
    · exact quiet trivial (by simp) ⟨rfl, rfl, fun _ => rfl⟩
    refine (Along.cons_of_step rfl).mpr ⟨.concerned rfl trivial (by simp), ?_⟩
    exact (Along.cons_of_step rfl).mpr ⟨.concerned rfl trivial (by simp), trivial⟩
  have ran : ∃ t, runFrom System.step { g := { vmAlive := true } } twoEntered = some t ∧
      t.phase vcpu1 = .inGuest := ⟨_, rfl, rfl⟩
  obtain ⟨t, ran, inside⟩ := ran
  obtain ⟨alone, goes, same⟩ := others_unseen (fun _ _ => rfl) ran discreet
  have still : ∀ last, runFrom System.step { g := { vmAlive := true } }
      (twoEntered.filter (Act.concerns vcpu0)) = some last → last.phase vcpu1 = .idle := by
    intro last goes
    cases goes
    rfl
  exact ⟨t, ran, inside, alone, goes, still alone goes, same⟩

end OpenHypervisor
