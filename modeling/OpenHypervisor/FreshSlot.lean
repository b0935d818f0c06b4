import OpenHypervisor.Process
import OpenHypervisor.VcpuLife

/-!
# A new vCPU's slot

Slots are used again and again.  A slot is rebuilt when its vCPU goes, and no
call writes the slot of an id that is not in use but one: `hv_vcpus_exit`
latches the cancel by number.
-/

set_option autoImplicit false

namespace OpenHypervisor

/-! ## Slots out of use -/

section Dead

variable {slots : VcpuTable} {i j : VcpuId}

theorem ne_of_used (live : (slots i).used = true) (dead : (slots j).used = false) : j ≠ i := by
  rintro rfl
  rw [live] at dead
  cases dead

theorem updateCtx_dead (f : Ctx → Ctx) (live : (slots i).used = true)
    (dead : (slots j).used = false) : updateCtx slots i f j = slots j :=
  Function.update_of_ne (ne_of_used live dead) _ _

theorem markAll_dead (dead : (slots j).used = false) : markAll slots j = slots j := by
  unfold markAll
  rw [dead]
  rfl

theorem GicCall.serve_dead (call : GicCall) (g : Globals) (dead : (slots j).used = false) :
    (call.serve g slots).slots j = slots j := by
  obtain ⟨-, edits⟩ := call.serve_does g slots
  generalize (call.serve g slots).slots = after at edits ⊢
  cases edits with
  | nothing => rfl
  | page i f live => exact updateCtx_dead f live dead
  | all => exact markAll_dead dead

end Dead

/-! ## Cancels that nobody was there for -/

/-- The process, with the ids `hv_vcpus_exit` has named while no vCPU had them. -/
structure Recalled where
  p : Process := {}
  stray : VcpuId → Bool := fun _ => false

/-- A new vCPU or a new table takes what was latched before. -/
def Recalled.strayAfter (s : Recalled) (call : LibCall) (next : Process) : VcpuId → Bool := fun i =>
  match call with
  | .exits ids _ =>
      s.stray i || (!(s.p.slots i).used && decide ((∀ id ∈ ids, id < kMaxVcpuIds) ∧ i.val ∈ ids))
  | .vmDestroy answer => if s.p.g.vmAlive = true ∧ answer = hvSuccess then false else s.stray i
  | _ => s.stray i && !(next.slots i).used

def Recalled.step (s : Recalled) (act : Thread × LibCall) : Option Recalled :=
  let next := s.p.serve act.1 act.2
  some { p := next, stray := s.strayAfter act.2 next }

def Creates (p : Process) (act : Thread × LibCall) (call : CreateCall) (i : VcpuId) : Prop :=
  act.2 = .table (.create call) ∧ p.createTarget act.1 call.outs = .ok i ∧
    call.trap.rc = hvSuccess ∧ call.trap.page.word ohvRoVer >>> 32 = ohvStateVerMagic

def InheritsNothing (s : Recalled) (act : Thread × LibCall) (next : Recalled) : Prop :=
  ∀ call i, Creates s.p act call i → next.p.slots i =
    { used := true, ctx := createdCtx s.p.g call.trap.page, id := i, guestAtEl2 := s.p.g.vmEl2 }

def NotRecalled (s : Recalled) (act : Thread × LibCall) (_ : Recalled) : Prop :=
  ∀ call i, Creates s.p act call i → s.stray i = false

/-- Out of use, a slot is blank but for a stray cancel. -/
structure Recalled.Blank (s : Recalled) : Prop where
  dead : ∀ i, (s.p.slots i).used = false → s.p.slots i = { exitRequested := s.stray i }
  live : ∀ i, (s.p.slots i).used = true → s.stray i = false

theorem Creates.made {p : Process} {act : Thread × LibCall} {call : CreateCall} {i : VcpuId}
    (creates : Creates p act call i) : p.serve act.1 act.2 = p.accepted act.1 call i := by
  obtain ⟨act', target, bound, layout⟩ := creates
  rw [act']
  simp only [Process.serve, Process.table, Process.vcpuCreate, target, bound, layout, ne_eq,
    not_true_eq_false, if_false]
  rfl

namespace Recalled

variable {s : Recalled}

theorem Blank.of_same (blank : s.Blank) {next : Process}
    (kept : ∀ i, (next.slots i).used = false →
      next.slots i = s.p.slots i ∨ (s.p.slots i).used = true ∧ next.slots i = {}) :
    Blank { p := next, stray := fun i => s.stray i && !(next.slots i).used } where
  dead := by
    intro i dead
    show next.slots i = { exitRequested := s.stray i && !(next.slots i).used }
    rw [dead, Bool.not_false, Bool.and_true]
    rcases kept i dead with same | ⟨live, gone⟩
    · rw [same]
      exact blank.dead i (same ▸ dead)
    · rw [gone, blank.live i live]
  live := by
    intro i live
    show (s.stray i && !(next.slots i).used) = false
    rw [live, Bool.not_true, Bool.and_false]

theorem Blank.start : Blank {} := ⟨fun _ _ => rfl, fun _ _ => rfl⟩

theorem vcpuCreate_dead (s : Recalled) (t : Thread) (call : CreateCall) :
    ∀ i, ((s.p.vcpuCreate t call).2.slots i).used = false →
      (s.p.vcpuCreate t call).2.slots i = s.p.slots i := by
  have outcome := s.p.vcpuCreate_outcome t call
  generalize s.p.vcpuCreate t call = answer at outcome ⊢
  cases outcome with
  | refused | mismatched => exact fun _ _ => rfl
  | made i _ _ _ =>
      intro j dead
      by_cases here : j = i
      · subst here
        have live : (Function.update s.p.slots j
            (createdSlot s.p.g j call.trap.page (s.p.slots j)) j).used = false := dead
        rw [Function.update_self] at live
        cases live
      · exact Function.update_of_ne here _ s.p.slots

theorem Blank.exits (blank : s.Blank) (ids : List Nat) :
    Blank { p := { s.p with slots := hvVcpusExit ids s.p.slots }
            stray := fun i => s.stray i || (!(s.p.slots i).used &&
              decide ((∀ id ∈ ids, id < kMaxVcpuIds) ∧ i.val ∈ ids)) } where
  dead := by
    intro i dead
    have before : (s.p.slots i).used = false := (hvVcpusExit_used ids s.p.slots i).symm.trans dead
    show hvVcpusExit ids s.p.slots i = { exitRequested := s.stray i || (!(s.p.slots i).used &&
      decide ((∀ id ∈ ids, id < kMaxVcpuIds) ∧ i.val ∈ ids)) }
    rw [before, Bool.not_false, Bool.true_and, hvVcpusExit]
    by_cases named : (∀ id ∈ ids, id < kMaxVcpuIds) ∧ i.val ∈ ids
    · rw [if_pos named, decide_eq_true named, Bool.or_true, blank.dead i before]
    · rw [if_neg named, decide_eq_false named, Bool.or_false]
      exact blank.dead i before
  live := by
    intro i live
    have before : (s.p.slots i).used = true := (hvVcpusExit_used ids s.p.slots i).symm.trans live
    show (s.stray i || (!(s.p.slots i).used && _)) = false
    rw [blank.live i before, before]
    rfl

theorem Blank.vmDestroy (blank : s.Blank) (answer : HvReturn) :
    Blank { p := (s.p.vmDestroy answer).2
            stray := fun i =>
              if s.p.g.vmAlive = true ∧ answer = hvSuccess then false else s.stray i } := by
  by_cases accepted : s.p.g.vmAlive = true ∧ answer = hvSuccess
  · simp only [if_pos accepted]
    obtain ⟨alive, rfl⟩ := accepted
    rw [Process.vmDestroy_accepted alive]
    exact ⟨fun _ _ => rfl, fun _ _ => rfl⟩
  · simp only [if_neg accepted]
    rw [Process.vmDestroy_refused accepted]
    exact blank

theorem Blank.step (blank : s.Blank) {act : Thread × LibCall} {next : Recalled}
    (taken : s.step act = some next) : next.Blank := by
  cases taken
  obtain ⟨t, call⟩ := act
  cases call with
  | vmCreate config answer spaces =>
      refine blank.of_same fun i _ => Or.inl ?_
      show (s.p.vmCreate config answer spaces).2.slots i = _
      unfold Process.vmCreate
      simp only
      split <;> rfl
  | memory call answer nested =>
      refine blank.of_same fun i _ => Or.inl ?_
      show (s.p.memory call answer nested).2.slots i = _
      unfold Process.memory
      simp only
      split <;> rfl
  | vmDestroy answer => exact blank.vmDestroy answer
  | exits ids answer => exact blank.exits ids
  | table call =>
      cases call with
      | create call => exact blank.of_same fun i dead => Or.inl (s.vcpuCreate_dead t call i dead)
      | destroy id answer =>
          refine blank.of_same fun i dead => ?_
          show (s.p.vcpuDestroy t id answer).2.slots i = _ ∨ _
          cases found : findVcpu s.p.slots id with
          | none =>
              rw [Process.vcpuDestroy_absent t answer found]
              exact Or.inl rfl
          | some j =>
              by_cases here : i = j
              · subst here
                refine Or.inr ⟨findVcpu_used found, ?_⟩
                show (s.p.vcpuDestroy t id answer).2.slots i = {}
                rw [Process.vcpuDestroy_found t answer found]
                exact s.p.gone_slot t i answer
              · rw [Process.vcpuDestroy_found t answer found]
                exact Or.inl (s.p.gone_slot_other t j i answer here)
  | work id work =>
      refine blank.of_same fun i dead => Or.inl ?_
      have dead : ((s.p.work t id work).slots i).used = false := dead
      show (s.p.work t id work).slots i = s.p.slots i
      cases owned : ownedVcpu s.p.slots (s.p.current t) id with
      | none =>
          rw [Process.work_refused owned]
      | some j =>
          have live := ownedVcpu_used owned
          rw [Process.work_used] at dead
          exact Process.work_other owned (ne_of_used live dead)
  | gic call =>
      refine blank.of_same fun i dead => Or.inl ?_
      have dead : ((call.serve s.p.g s.p.slots).slots i).used = false := dead
      rw [((GicCall.serve_frame call s.p.g s.p.slots).slot i).slot] at dead
      exact GicCall.serve_dead call s.p.g dead

theorem inherits_iff (blank : s.Blank) {act : Thread × LibCall} {next : Recalled}
    (taken : s.step act = some next) : InheritsNothing s act next ↔ NotRecalled s act next := by
  cases taken
  refine forall₃_congr fun call i creates => ?_
  obtain ⟨-, -, unused⟩ := Process.createTarget_ok creates.2.1
  have old := blank.dead i unused
  have new : (s.p.serve act.1 act.2).slots i =
      createdSlot s.p.g i call.trap.page { exitRequested := s.stray i } := by
    rw [creates.made, ← old]
    exact Function.update_self i _ s.p.slots
  show (s.p.serve act.1 act.2).slots i = _ ↔ _
  rw [new]
  constructor
  · intro same
    exact congrArg VcpuSlot.exitRequested same
  · intro quiet
    rw [quiet]
    rfl

end Recalled

/-- Over any history every new vCPU has a slot like a first one if and only if
none gets an id that was told to exit while nobody had it. -/
theorem vcpu_inherits_nothing_iff (word : List (Thread × LibCall)) :
    Runs.Along Recalled.step InheritsNothing {} word ↔
      Runs.Along Recalled.step NotRecalled {} word := by
  have agree : ∀ s act next, Recalled.step s act = some next → s.Blank →
      (InheritsNothing s act next ↔ NotRecalled s act next) :=
    fun _ _ _ taken blank => Recalled.inherits_iff blank taken
  have preserved : ∀ s act next, Recalled.step s act = some next → NotRecalled s act next →
      s.Blank → next.Blank :=
    fun _ _ _ taken _ blank => blank.step taken
  exact Runs.along_iff_of_invariant Recalled.Blank agree preserved word Recalled.Blank.start

def earlyCancel : List (Thread × LibCall) :=
  [(0, .vmCreate none hvSuccess fun _ => { rc := hvNoResources, asid := 0 }),
    (0, .exits [0] hvSuccess)]

/-- The new vCPU starts with the cancel. -/
theorem vcpu_inherits_cancel :
    ¬ Runs.Along Recalled.step InheritsNothing {}
      (earlyCancel ++ [(0, .table (.create { trap := { page := versionedPage } }))]) := by
  intro holds
  have made := holds.at_step earlyCancel rfl rfl _ vcpu0 ⟨rfl, rfl, rfl, rfl⟩
  have latch := congrArg VcpuSlot.exitRequested made
  revert latch
  decide

end OpenHypervisor
