import OpenHypervisor.Process
import OpenHypervisor.VcpuLife

/-!
# Threads and their vCPUs

Three tables say which thread has which vCPU: the pointer each thread keeps, the
slots, and the kernel's own.  A create call writes all of them.  A destroy call
takes the slot it names, the pointer of the calling thread if that is where it
points, and the kernel's vCPU of the calling thread if the trap succeeds; the
end of a VM takes the slots alone.
-/

set_option autoImplicit false

namespace OpenHypervisor

/-! ## The pointers and the slots -/

/-- A thread's pointer is null or goes to a live vCPU the thread created. -/
def ThreadsBound (p : Process) : Prop :=
  ∀ t i, p.current t = some i → (p.slots i).used = true ∧ p.owner i = some t

/-- What a call owes: the pointers stay right, and an access reaches only a vCPU
of the thread that makes it. -/
def BindingHolds (p : Process) (act : Thread × LibCall) (next : Process) : Prop :=
  ThreadsBound next ∧ ∀ id work i, act.2 = .work id work →
    ownedVcpu p.slots (p.current act.1) id = some i → p.owner i = some act.1

/-- A vCPU is destroyed by the thread that has it, a VM ends without vCPUs, and a
thread without a vCPU asks for none. -/
def KeepsBinding (p : Process) (act : Thread × LibCall) (_ : Process) : Prop :=
  match act.2 with
  | .table (.destroy id _) => ∀ i, findVcpu p.slots id = some i → p.current act.1 = some i
  | .vmDestroy answer =>
      p.g.vmAlive = true → answer = hvSuccess → ∀ i, (p.slots i).used = false
  | .work id _ => p.current act.1 = none → findVcpu p.slots id = none
  | .vmCreate _ _ _ | .memory _ _ _ | .table (.create _) | .exits _ _ | .gic _ => True

structure Bijective (p : Process) : Prop where
  bound : ThreadsBound p
  owned : ∀ i, (p.slots i).used = true → ∃ t, p.owner i = some t ∧ p.current t = some i

namespace Bijective

variable {p : Process}

theorem start : Bijective {} := ⟨nofun, nofun⟩

theorem of_same (bij : Bijective p) {q : Process}
    (used : ∀ i, (q.slots i).used = (p.slots i).used) (owner : q.owner = p.owner)
    (current : q.current = p.current) : Bijective q where
  bound := by
    intro t i points
    rw [used, owner]
    exact bij.bound t i (current ▸ points)
  owned := by
    intro i live
    rw [owner, current]
    exact bij.owned i (used i ▸ live)

theorem accepted (bij : Bijective p) {t : Thread} {call : CreateCall} {i : VcpuId}
    (target : p.createTarget t call.outs = .ok i) : Bijective (p.accepted t call i) := by
  obtain ⟨-, free, unused⟩ := Process.createTarget_ok target
  have new : ((p.accepted t call i).slots i).used = true := by
    show (Function.update p.slots i (createdSlot p.g i call.trap.page (p.slots i)) i).used = true
    rw [Function.update_self]
    rfl
  have kept : ∀ j, j ≠ i → (p.accepted t call i).slots j = p.slots j :=
    fun j other => Function.update_of_ne other _ p.slots
  constructor
  · intro u j points
    by_cases same : u = t
    · subst same
      have here : j = i := by
        have now : Function.update p.current u (some i) u = some j := points
        rw [Function.update_self] at now
        exact (Option.some.inj now).symm
      subst here
      exact ⟨new, Function.update_self j _ p.owner⟩
    · have before : p.current u = some j := by
        rw [← points]
        exact (Function.update_of_ne same _ p.current).symm
      obtain ⟨live, mine⟩ := bij.bound u j before
      have other : j ≠ i := by
        rintro rfl
        rw [unused] at live
        cases live
      rw [kept j other]
      exact ⟨live, (Function.update_of_ne other _ p.owner).trans mine⟩
  · intro j live
    by_cases here : j = i
    · subst here
      exact ⟨t, Function.update_self j _ p.owner, Function.update_self t _ p.current⟩
    · rw [kept j here] at live
      obtain ⟨u, mine, points⟩ := bij.owned j live
      have other : u ≠ t := by
        rintro rfl
        rw [free] at points
        cases points
      exact ⟨u, (Function.update_of_ne here _ p.owner).trans mine,
        (Function.update_of_ne other _ p.current).trans points⟩

theorem vcpuCreate (bij : Bijective p) (t : Thread) (call : CreateCall) :
    Bijective (p.vcpuCreate t call).2 := by
  have outcome := p.vcpuCreate_outcome t call
  generalize p.vcpuCreate t call = answer at outcome ⊢
  cases outcome with
  | refused rc _ _ => exact bij
  | mismatched i _ _ _ => exact bij.of_same (fun _ => rfl) rfl rfl
  | made i target _ _ => exact bij.accepted target

/-- The thread that has the vCPU keeps its pointer unless it makes the call. -/
theorem gone_iff (bij : Bijective p) (t : Thread) {i : VcpuId} (live : (p.slots i).used = true)
    (answer : HvReturn) : ThreadsBound (p.gone t i answer) ↔ p.current t = some i := by
  obtain ⟨u, mine, points⟩ := bij.owned i live
  constructor
  · intro bound
    by_contra other
    have kept : (p.gone t i answer).current u = some i := by
      rw [p.gone_current, if_neg fun both => other both.2]
      exact points
    have dead := (bound u i kept).1
    rw [p.gone_slot] at dead
    cases dead
  · intro here w j still
    rw [p.gone_current] at still
    split at still
    · cases still
    · rename_i elsewhere
      obtain ⟨used, owner⟩ := bij.bound w j still
      have other : j ≠ i := by
        rintro rfl
        have same := owner.symm.trans (bij.bound t j here).2
        exact elsewhere ⟨Option.some.inj same, here⟩
      rw [p.gone_slot_other t i j answer other, p.gone_owner_other t i j answer other]
      exact ⟨used, owner⟩

theorem gone (bij : Bijective p) {t : Thread} {i : VcpuId} (here : p.current t = some i)
    (answer : HvReturn) : Bijective (p.gone t i answer) := by
  refine ⟨(bij.gone_iff t (bij.bound t i here).1 answer).mpr here, fun j live => ?_⟩
  have other : j ≠ i := by
    rintro rfl
    rw [p.gone_slot] at live
    cases live
  rw [p.gone_slot_other t i j answer other] at live
  obtain ⟨u, mine, points⟩ := bij.owned j live
  have elsewhere : ¬ (u = t ∧ p.current t = some i) := by
    rintro ⟨rfl, same⟩
    exact other (Option.some.inj (points.symm.trans same))
  refine ⟨u, ?_, ?_⟩
  · rw [p.gone_owner_other t i j answer other]
    exact mine
  · rw [p.gone_current, if_neg elsewhere]
    exact points

theorem destroy_iff (bij : Bijective p) (t : Thread) (id : Nat) (answer : HvReturn) :
    ThreadsBound (p.vcpuDestroy t id answer).2 ↔
      ∀ i, findVcpu p.slots id = some i → p.current t = some i := by
  cases found : findVcpu p.slots id with
  | none =>
      rw [Process.vcpuDestroy_absent t answer found]
      refine iff_of_true bij.bound ?_
      intro i other
      cases other
  | some i =>
      rw [Process.vcpuDestroy_found t answer found, bij.gone_iff t (findVcpu_used found)]
      simp only [Option.some.injEq, forall_eq']

theorem destroyed (bij : Bijective p) {t : Thread} {id : Nat} {answer : HvReturn}
    (kept : ∀ i, findVcpu p.slots id = some i → p.current t = some i) :
    Bijective (p.vcpuDestroy t id answer).2 := by
  cases found : findVcpu p.slots id with
  | none =>
      rw [Process.vcpuDestroy_absent t answer found]
      exact bij
  | some i =>
      rw [Process.vcpuDestroy_found t answer found]
      exact bij.gone (kept i found) answer

theorem vmDestroy_iff (bij : Bijective p) (alive : p.g.vmAlive = true) :
    ThreadsBound (p.vmDestroy hvSuccess).2 ↔ ∀ i, (p.slots i).used = false := by
  rw [Process.vmDestroy_accepted alive]
  constructor
  · intro bound i
    by_contra live
    obtain ⟨t, -, points⟩ := bij.owned i (Bool.not_eq_false _ ▸ live)
    cases (bound t i points).1
  · intro none t i points
    have live := (bij.bound t i points).1
    rw [none i] at live
    cases live

theorem access_iff (bij : Bijective p) (t : Thread) (id : Nat) :
    (∀ i, ownedVcpu p.slots (p.current t) id = some i → p.owner i = some t) ↔
      (p.current t = none → findVcpu p.slots id = none) := by
  cases found : findVcpu p.slots id with
  | none => simp [ownedVcpu, found]
  | some i =>
      cases points : p.current t with
      | none =>
          simp only [ownedVcpu, found, ne_eq, not_true_eq_false, false_and, if_false,
            Option.some.injEq, forall_eq', reduceCtorEq, imp_false]
          obtain ⟨u, mine, has⟩ := bij.owned i (findVcpu_used found)
          refine iff_of_false (fun same => ?_) not_false
          rw [Option.some.inj (same.symm.trans mine), has] at points
          cases points
      | some j =>
          simp only [reduceCtorEq, false_implies, iff_true]
          intro k reached
          simp only [ownedVcpu, found] at reached
          split_ifs at reached with elsewhere
          cases reached
          have same : j = i := by
            by_contra other
            exact elsewhere ⟨nofun, fun equal => other (Option.some.inj equal)⟩
          exact same ▸ (bij.bound t j points).2

theorem vmDestroyed (bij : Bijective p) {answer : HvReturn}
    (kept : p.g.vmAlive = true → answer = hvSuccess → ∀ i, (p.slots i).used = false) :
    Bijective (p.vmDestroy answer).2 := by
  by_cases accepted : p.g.vmAlive = true ∧ answer = hvSuccess
  · obtain ⟨alive, rfl⟩ := accepted
    refine ⟨(bij.vmDestroy_iff alive).mpr (kept alive rfl), fun i live => ?_⟩
    rw [Process.vmDestroy_accepted alive] at live
    cases live
  · rw [Process.vmDestroy_refused accepted]
    exact bij

theorem worked (bij : Bijective p) (t : Thread) (id : Nat) (work : VcpuWork) :
    Bijective (p.work t id work) := by
  refine bij.of_same (fun i => p.work_used i) ?_ ?_
  · unfold Process.work
    split <;> rfl
  · unfold Process.work
    split <;> rfl

theorem exited (bij : Bijective p) (ids : List Nat) :
    Bijective { p with slots := hvVcpusExit ids p.slots } :=
  bij.of_same (fun i => hvVcpusExit_used ids p.slots i) rfl rfl

theorem vmCreated (bij : Bijective p) (config : Option VmConfig) (answer : HvReturn)
    (spaces : Nat → SpaceAnswer) : Bijective (p.vmCreate config answer spaces).2 := by
  unfold Process.vmCreate
  simp only
  split <;> exact bij.of_same (fun _ => rfl) rfl rfl

theorem remembered (bij : Bijective p) (call : MemCall) (answer : HvReturn)
    (nested : Nat → HvReturn) : Bijective (p.memory call answer nested).2 := by
  unfold Process.memory
  simp only
  split <;> exact bij.of_same (fun _ => rfl) rfl rfl

theorem controlled (bij : Bijective p) (call : GicCall) :
    Bijective { p with
      g := (call.serve p.g p.slots).g
      slots := (call.serve p.g p.slots).slots } := by
  refine bij.of_same (fun i => ?_) rfl rfl
  show ((call.serve p.g p.slots).slots i).used = (p.slots i).used
  rw [((GicCall.serve_frame call p.g p.slots).slot i).slot]

theorem step (bij : Bijective p) {act : Thread × LibCall} {next : Process}
    (taken : p.step act = some next) (kept : KeepsBinding p act next) : Bijective next := by
  cases taken
  obtain ⟨t, call⟩ := act
  cases call with
  | vmCreate config answer spaces => exact bij.vmCreated config answer spaces
  | vmDestroy answer => exact bij.vmDestroyed kept
  | memory call answer nested => exact bij.remembered call answer nested
  | table call =>
      cases call with
      | create call => exact bij.vcpuCreate t call
      | destroy id answer => exact bij.destroyed kept
  | exits ids answer => exact bij.exited ids
  | work id work => exact bij.worked t id work
  | gic call => exact bij.controlled call

theorem holds_iff (bij : Bijective p) {act : Thread × LibCall} {next : Process}
    (taken : p.step act = some next) : BindingHolds p act next ↔ KeepsBinding p act next := by
  have kept : KeepsBinding p act next → ThreadsBound next := fun meets => (bij.step taken meets).bound
  obtain ⟨t, call⟩ := act
  have noAccess : (∀ id work, call ≠ .work id work) → (∀ id work i, call = .work id work →
      ownedVcpu p.slots (p.current t) id = some i → p.owner i = some t) :=
    fun other id work _ same => absurd same (other id work)
  unfold BindingHolds
  refine ⟨?_, fun meets => ⟨kept meets, ?_⟩⟩
  · rintro ⟨bound, reached⟩
    cases taken
    cases call with
    | table call =>
        cases call with
        | create call => trivial
        | destroy id answer => exact (bij.destroy_iff t id answer).mp bound
    | vmDestroy answer =>
        rintro alive rfl
        exact (bij.vmDestroy_iff alive).mp bound
    | work id work => exact (bij.access_iff t id).mp fun i => reached id work i rfl
    | vmCreate | memory | exits | gic => trivial
  · cases call with
    | work id work =>
        rintro _ _ i ⟨rfl, rfl⟩
        exact (bij.access_iff t id).mpr meets i
    | _ => exact noAccess (by nofun)

end Bijective

/-- Over any interleaving the pointers are right and each vCPU is reached by its
own thread alone if and only if every call keeps to the binding. -/
theorem threads_bound_iff (word : List (Thread × LibCall)) :
    Runs.Along Process.step BindingHolds {} word ↔ Runs.Along Process.step KeepsBinding {} word := by
  have agree : ∀ p act next, Process.step p act = some next → Bijective p →
      (BindingHolds p act next ↔ KeepsBinding p act next) :=
    fun _ _ _ taken bij => bij.holds_iff taken
  have preserved : ∀ p act next, Process.step p act = some next → KeepsBinding p act next →
      Bijective p → Bijective next :=
    fun _ _ _ taken kept bij => bij.step taken kept
  exact Runs.along_iff_of_invariant Bijective agree preserved word Bijective.start

def oneVcpu : List (Thread × LibCall) :=
  [(0, .vmCreate none hvSuccess fun _ => { rc := hvNoResources, asid := 0 }),
    (0, .table (.create { trap := { page := versionedPage } }))]

def strayAccess : LibCall := .work 0 (.call (.setReg 0 5))

def strayDestroy : LibCall := .table (.destroy 0 hvSuccess)

/-- Thread 1 has no vCPU and reaches the one of thread 0; when it destroys it,
thread 0 keeps a pointer to a dead slot. -/
theorem binding_broken :
    ¬ Runs.Along Process.step BindingHolds {} (oneVcpu ++ [(1, strayAccess)]) ∧
      ¬ Runs.Along Process.step BindingHolds {} (oneVcpu ++ [(1, strayDestroy)]) := by
  constructor
  · intro holds
    have mine := (holds.at_step oneVcpu rfl rfl).2 0 _ vcpu0 rfl (by decide)
    revert mine
    decide
  · intro holds
    have bound := (holds.at_step oneVcpu rfl rfl).1 0 vcpu0 (by decide)
    revert bound
    decide

/-! ## The table and the kernel -/

namespace Process

def tableStep (p : Process) (act : Thread × TableCall) : Option Process :=
  some (p.table act.1 act.2).2

end Process

/-- The slots in use are those of the vCPUs the kernel holds. -/
def TableAgrees (p : Process) : Prop := ∀ i, (p.slots i).used = true ↔ p.kernel.Holds i

/-- What a call owes; a destroy the kernel refuses changes no slot. -/
def TableExact (p : Process) (act : Thread × TableCall) (next : Process) : Prop :=
  TableAgrees next ∧
    ∀ id answer, act.2 = .destroy id answer → answer ≠ hvSuccess → next.slots = p.slots

/-- A creation undone is undone in the kernel, and a destroy call gets through
from the thread whose vCPU it names. -/
def KernelFollows (p : Process) (act : Thread × TableCall) (_ : Process) : Prop :=
  match act.2 with
  | .create call => (∃ i, p.createTarget act.1 call.outs = .ok i) → call.trap.rc = hvSuccess →
      call.trap.page.word ohvRoVer >>> 32 ≠ ohvStateVerMagic → call.rollback = hvSuccess
  | .destroy id answer => ∀ i, findVcpu p.slots id = some i →
      answer = hvSuccess ∧ p.kernel.vcpu act.1 = some i

structure TableKept (p : Process) : Prop where
  agrees : TableAgrees p
  alone : ∀ t u i, p.kernel.vcpu t = some i → p.kernel.vcpu u = some i → t = u
  /-- A thread without a pointer has no vCPU there either. -/
  behind : ∀ t, p.current t = none → p.kernel.vcpu t = none

namespace TableKept

variable {p : Process}

theorem start (g : Globals) : TableKept { g := g } where
  agrees := by
    refine fun i => ⟨nofun, ?_⟩
    rintro ⟨t, has⟩
    cases has
  alone := nofun
  behind := fun _ _ => rfl

theorem unbind_bind (kept : TableKept p) {t : Thread} (free : p.current t = none) (i : VcpuId) :
    (p.kernel.bind t i).unbind t = p.kernel := by
  have none := kept.behind t free
  unfold Kernel.bind Kernel.unbind
  simp only [Function.update_idem]
  rw [← none, Function.update_eq_self]

theorem accepted (kept : TableKept p) {t : Thread} {call : CreateCall} {i : VcpuId}
    (target : p.createTarget t call.outs = .ok i) : TableKept (p.accepted t call i) := by
  obtain ⟨-, free, unused⟩ := Process.createTarget_ok target
  have idle := kept.behind t free
  have held : ∀ u, (p.accepted t call i).kernel.vcpu u =
      if u = t then some i else p.kernel.vcpu u := by
    intro u
    show Function.update p.kernel.vcpu t (some i) u = _
    rw [Function.update_apply]
  have notHeld : ∀ u, p.kernel.vcpu u ≠ some i := by
    intro u has
    have live := (kept.agrees i).mpr ⟨u, has⟩
    rw [unused] at live
    cases live
  refine ⟨fun j => ?_, fun u w j first second => ?_, fun u empty => ?_⟩
  · by_cases here : j = i
    · subst here
      refine iff_of_true ?_ ⟨t, by rw [held, if_pos rfl]⟩
      show (Function.update p.slots j (createdSlot p.g j call.trap.page (p.slots j)) j).used = true
      rw [Function.update_self]
      rfl
    · have same : (p.accepted t call i).slots j = p.slots j := Function.update_of_ne here _ p.slots
      rw [same, kept.agrees j]
      refine exists_congr fun u => ?_
      rw [held]
      split
      · rename_i mine
        subst mine
        rw [idle]
        exact ⟨nofun, fun equal => absurd (Option.some.inj equal).symm here⟩
      · exact Iff.rfl
  · rw [held] at first second
    split at first <;> split at second
    · rename_i left right
      exact left.trans right.symm
    · cases first
      exact absurd second (notHeld w)
    · cases second
      exact absurd first (notHeld u)
    · exact kept.alone u w j first second
  · have before : u ≠ t := by
      rintro rfl
      have now : (p.accepted u call i).current u = some i := Function.update_self u _ p.current
      rw [now] at empty
      cases empty
    rw [held, if_neg before]
    refine kept.behind u ?_
    rw [← empty]
    exact (Function.update_of_ne before _ p.current).symm

theorem create_iff (kept : TableKept p) (t : Thread) (call : CreateCall) (next : Process) :
    TableAgrees (p.vcpuCreate t call).2 ↔ KernelFollows p (t, .create call) next := by
  have outcome := p.vcpuCreate_outcome t call
  generalize p.vcpuCreate t call = answer at outcome ⊢
  unfold KernelFollows
  cases outcome with
  | refused rc _ asked =>
      refine iff_of_true kept.agrees ?_
      rintro ⟨i, target⟩ bound
      exact absurd bound (asked i target)
  | mismatched i target bound layout =>
      obtain ⟨-, free, unused⟩ := Process.createTarget_ok target
      constructor
      · intro agrees _ _ _
        by_contra stays
        rw [if_neg stays] at agrees
        have live := (agrees i).mpr ⟨t, Function.update_self t _ p.kernel.vcpu⟩
        rw [unused] at live
        cases live
      · intro undone
        rw [if_pos (undone ⟨i, target⟩ bound layout), kept.unbind_bind free]
        exact kept.agrees
  | made i target bound layout =>
      exact iff_of_true (kept.accepted target).agrees fun _ _ other => absurd layout other

theorem created (kept : TableKept p) {t : Thread} {call : CreateCall}
    (agrees : TableAgrees (p.vcpuCreate t call).2) : TableKept (p.vcpuCreate t call).2 := by
  have undone := (kept.create_iff t call p).mp agrees
  have outcome := p.vcpuCreate_outcome t call
  generalize p.vcpuCreate t call = answer at outcome ⊢
  cases outcome with
  | refused rc _ _ => exact kept
  | mismatched i target bound layout =>
      obtain ⟨-, free, -⟩ := Process.createTarget_ok target
      rw [if_pos (undone ⟨i, target⟩ bound layout), kept.unbind_bind free]
      exact kept
  | made i target _ _ => exact kept.accepted target

theorem gone_iff (kept : TableKept p) (t : Thread) {i : VcpuId} (live : (p.slots i).used = true)
    (answer : HvReturn) :
    TableAgrees (p.gone t i answer) ↔ answer = hvSuccess ∧ p.kernel.vcpu t = some i := by
  obtain ⟨u, has⟩ := (kept.agrees i).mp live
  constructor
  · intro agrees
    by_contra other
    have still : (p.gone t i answer).kernel.vcpu u = some i := by
      rw [p.gone_vcpu, if_neg ?_]
      · exact has
      · rintro ⟨rfl, success⟩
        exact other ⟨success, has⟩
    have dead := (agrees i).mpr ⟨u, still⟩
    rw [p.gone_slot] at dead
    cases dead
  · rintro ⟨rfl, mine⟩ j
    by_cases here : j = i
    · subst here
      rw [p.gone_slot]
      refine iff_of_false Bool.false_ne_true ?_
      rintro ⟨w, held⟩
      rw [p.gone_vcpu] at held
      split at held
      · cases held
      · rename_i elsewhere
        exact elsewhere ⟨kept.alone w t j held mine, rfl⟩
    · rw [p.gone_slot_other t i j _ here, kept.agrees j]
      refine exists_congr fun w => ?_
      rw [p.gone_vcpu]
      split
      · rename_i same
        rw [same.1, mine]
        exact iff_of_false (fun equal => here (Option.some.inj equal).symm) nofun
      · exact Iff.rfl

theorem gone (kept : TableKept p) {t : Thread} {i : VcpuId}
    (agrees : TableAgrees (p.gone t i hvSuccess)) : TableKept (p.gone t i hvSuccess) := by
  refine ⟨agrees, fun u w j first second => ?_, fun u empty => ?_⟩
  · rw [p.gone_vcpu] at first second
    split at first
    · cases first
    · split at second
      · cases second
      · exact kept.alone u w j first second
  · rw [p.gone_current] at empty
    rw [p.gone_vcpu]
    split
    · rfl
    · rename_i other
      refine kept.behind u ?_
      rwa [if_neg fun both => other ⟨both.1, rfl⟩] at empty

theorem destroy_iff (kept : TableKept p) (t : Thread) (id : Nat) (answer : HvReturn)
    (next : Process) :
    TableExact p (t, .destroy id answer) (p.vcpuDestroy t id answer).2 ↔
      KernelFollows p (t, .destroy id answer) next := by
  show _ ↔ ∀ i, findVcpu p.slots id = some i → answer = hvSuccess ∧ p.kernel.vcpu t = some i
  unfold TableExact
  cases found : findVcpu p.slots id with
  | none =>
      rw [Process.vcpuDestroy_absent t answer found]
      refine iff_of_true ⟨kept.agrees, fun _ _ _ _ => rfl⟩ ?_
      intro i other
      cases other
  | some i =>
      rw [Process.vcpuDestroy_found t answer found, kept.gone_iff t (findVcpu_used found)]
      simp only [Option.some.injEq, forall_eq', and_iff_left_iff_imp]
      rintro ⟨success, -⟩ _ _ ⟨rfl, rfl⟩ failed
      exact absurd success failed

theorem destroyed (kept : TableKept p) {t : Thread} {id : Nat} {answer : HvReturn}
    (follows : KernelFollows p (t, .destroy id answer) p) :
    TableKept (p.vcpuDestroy t id answer).2 := by
  cases found : findVcpu p.slots id with
  | none =>
      rw [Process.vcpuDestroy_absent t answer found]
      exact kept
  | some i =>
      obtain ⟨rfl, mine⟩ := follows i found
      rw [Process.vcpuDestroy_found t hvSuccess found]
      exact kept.gone ((kept.gone_iff t (findVcpu_used found) hvSuccess).mpr ⟨rfl, mine⟩)

end TableKept

/-- From an empty table on, the slots in use are exactly the kernel's vCPUs after
every call if and only if the kernel follows every call. -/
theorem table_agrees_iff (g : Globals) (calls : List (Thread × TableCall)) :
    Runs.Along Process.tableStep TableExact { g := g } calls ↔
      Runs.Along Process.tableStep KernelFollows { g := g } calls := by
  have agree : ∀ p act next, Process.tableStep p act = some next → TableKept p →
      (TableExact p act next ↔ KernelFollows p act next) := by
    intro p act next taken kept
    cases taken
    obtain ⟨t, call⟩ := act
    cases call with
    | create call =>
        refine Iff.trans ?_ (kept.create_iff t call _)
        exact ⟨fun holds => holds.1, fun agrees => ⟨agrees, by nofun⟩⟩
    | destroy id answer => exact kept.destroy_iff t id answer _
  have preserved : ∀ p act next, Process.tableStep p act = some next →
      KernelFollows p act next → TableKept p → TableKept next := by
    intro p act next taken follows kept
    cases taken
    obtain ⟨t, call⟩ := act
    cases call with
    | create call => exact kept.created ((kept.create_iff t call _).mpr follows)
    | destroy id answer => exact kept.destroyed follows
  exact Runs.along_iff_of_invariant TableKept agree preserved calls (TableKept.start g)

def refusedDestroy : List (Thread × TableCall) :=
  [(0, .create { trap := { page := versionedPage } }), (0, .destroy 0 hvBusy)]

theorem table_forgets_vcpu :
    ¬ Runs.Along Process.tableStep TableExact { g := { vmAlive := true } } refusedDestroy := by
  intro holds
  have agrees := (holds.at_step [_] rfl rfl).1 vcpu0
  have live := agrees.mpr ⟨0, rfl⟩
  revert live
  decide

end OpenHypervisor
