import OpenHypervisor.System
import OpenHypervisor.VmMemory
import OpenHypervisor.Library.Replicas

/-!
# The process

The threads of one process over the vCPU table, and what the kernel holds for
it: the address spaces, the vCPU bound to each thread and the space each vCPU
was sent to.  A step is one library call of one thread with the kernel's answers
to its traps, so a word is a history of calls.

A trap binds and unbinds by the thread that makes it, while the library goes by
the id it was handed.
-/

set_option autoImplicit false

namespace OpenHypervisor

abbrev Thread := Nat

/-! ## Address spaces -/

def kNestedSpaces : Nat := 8

structure Backing where
  uva : Word
  flags : Word
  deriving DecidableEq

abbrev Space := Nat → Option Backing

inductive MemCall where
  | map (addr ipa size flags : Word)
  | unmap (ipa size : Word)
  | protect (ipa size flags : Word)

/-- The addresses of a range that does not wrap. -/
def InRange (ipa size : Word) (x : Nat) : Prop := ipa.toNat ≤ x ∧ x < ipa.toNat + size.toNat

instance (ipa size : Word) : DecidablePred (InRange ipa size) :=
  fun _ => inferInstanceAs (Decidable (_ ∧ _))

def hvVmProtect (answer : HvReturn) (ipa size : Word) (g : Globals) : HvReturn :=
  mapOp answer ipa size g

def MemCall.serve (answer : HvReturn) (g : Globals) : MemCall → HvReturn × Globals
  | .map addr ipa size _ => hvVmMap answer addr ipa size g
  | .unmap ipa size => hvVmUnmap answer ipa size g
  | .protect ipa size _ => (hvVmProtect answer ipa size g, g)

def MemCall.effect (call : MemCall) (space : Space) : Space := fun x =>
  match call with
  | .map addr ipa size flags =>
      if InRange ipa size x then some ⟨addr + (BitVec.ofNat 64 x - ipa), flags⟩ else space x
  | .unmap ipa size => if InRange ipa size x then none else space x
  | .protect ipa size flags =>
      if InRange ipa size x then (space x).map fun b => { b with flags := flags } else space x

structure SpaceAnswer where
  rc : HvReturn := hvSuccess
  asid : Word

def nestedSpacesCreate : List SpaceAnswer → List Word → List Word
  | [], asids => asids
  | a :: rest, asids =>
      if a.rc ≠ hvSuccess then asids
      else nestedSpacesCreate rest (if asids.length < kNestedSpaces then asids ++ [a.asid] else asids)

def ohvNestedAsid (asids : List Word) (index : Nat) : Word := asids.getD index 0

/-- The space `hv_vcpu_create` sends a new vCPU to.  A vCPU with no space of its
own goes to the first one. -/
def joinAsid (el2 noNestedSpace : Bool) (asids : List Word) (id : Nat) : Option Word :=
  if el2 = false ∨ noNestedSpace then none
  else
    let own := ohvNestedAsid asids id
    let asid := if own = 0 then ohvNestedAsid asids 0 else own
    if asid = 0 then none else some asid

/-! ## The two sides -/

structure Kernel where
  /-- By ASID, the VM's own space under zero. -/
  space : Word → Space := fun _ _ => none
  granted : List Word := []
  vcpu : Thread → Option VcpuId := fun _ => none
  joined : VcpuId → Option Word := fun _ => none

namespace Kernel

def bind (k : Kernel) (t : Thread) (i : VcpuId) : Kernel :=
  { k with vcpu := Function.update k.vcpu t (some i) }

/-- `OHV_TRAP_VCPU_DESTROY` carries no id. -/
def unbind (k : Kernel) (t : Thread) : Kernel :=
  { k with vcpu := Function.update k.vcpu t none }

def join (k : Kernel) (i : VcpuId) (asid : Option Word) : Kernel :=
  { k with joined := Function.update k.joined i asid }

@[simp] theorem unbind_vcpu (k : Kernel) (t u : Thread) :
    (k.unbind t).vcpu u = if u = t then none else k.vcpu u :=
  Function.update_apply k.vcpu t none u

def Holds (k : Kernel) (i : VcpuId) : Prop := ∃ t, k.vcpu t = some i

end Kernel

structure Process where
  g : Globals := {}
  slots : VcpuTable := fun _ => {}
  /-- `VcpuSlot::owner`. -/
  owner : VcpuId → Option Thread := fun _ => none
  /-- `tl_current_vcpu`. -/
  current : Thread → Option VcpuId := fun _ => none
  /-- `g_nested_asid` as far as `g_nested_count`. -/
  nestedAsid : List Word := []
  kernel : Kernel := {}

/-! ## The calls -/

structure CreateCall where
  outs : Bool := true
  trap : CreateTrap
  /-- The destroy trap of a page with another layout. -/
  rollback : HvReturn := hvSuccess
  noNestedSpace : Bool := false

inductive TableCall where
  | create (call : CreateCall)
  | destroy (id : Nat) (answer : HvReturn)

/-- What is done for a vCPU on its own slot: the pieces of `hv_vcpu_run` and the
calls between two runs. -/
inductive VcpuWork where
  | settle
  | expire (now : Word)
  | returned (page : Ctx) (ticks : Word)
  | canceled
  | exit (host : Host)
  | stored
  | call (call : VcpuCall)

inductive LibCall where
  | vmCreate (config : Option VmConfig) (answer : HvReturn) (spaces : Nat → SpaceAnswer)
  | vmDestroy (answer : HvReturn)
  | memory (call : MemCall) (answer : HvReturn) (nested : Nat → HvReturn)
  | table (call : TableCall)
  | exits (ids : List Nat) (answer : HvReturn)
  | work (id : Nat) (work : VcpuWork)
  | gic (call : GicCall)

def VcpuWork.serve (v : VcpuView) : VcpuWork → VcpuView
  | .settle =>
      if v.g.cfgSettled then v else { v with g := { v.g with cfg := v.g.env, cfgSettled := true } }
  | .expire now => ohvExpireTimers now v
  | .returned page ticks =>
      { v with s := { v.s with
          ctx := page
          wfiTicks := v.s.wfiTicks + ticks
          runCount := v.s.runCount + 1 } }
  | .canceled => { v with s := { v.s.setExit .canceled with exitRequested := false } }
  | .exit host => (exitFromRo host v).2
  | .stored => { v with s := { v.s with exitRequested := false } }
  | .call made => made.serve v

def ownedVcpu (slots : VcpuTable) (current : Option VcpuId) (id : Nat) : Option VcpuId :=
  match findVcpu slots id with
  | none => none
  | some i => if current ≠ none ∧ current ≠ some i then none else some i

/-- `hv_vcpus_exit` as far as its trap: the ids are checked against the table's
size only. -/
def hvVcpusExit (ids : List Nat) (slots : VcpuTable) : VcpuTable := fun i =>
  if (∀ id ∈ ids, id < kMaxVcpuIds) ∧ i.val ∈ ids then { slots i with exitRequested := true }
  else slots i

def grantedSpaces : List SpaceAnswer → List Word
  | [] => []
  | a :: rest => if a.rc ≠ hvSuccess then [] else a.asid :: grantedSpaces rest

namespace Process

variable (p : Process)

def createTarget (t : Thread) (outs : Bool) : Except HvReturn VcpuId :=
  if outs = false then .error hvBadArgument
  else if p.g.vmAlive = false then .error hvNoDevice
  else if (p.current t).isSome then .error hvBusy
  else
    match firstFree p.slots with
    | none => .error hvNoResources
    | some i => .ok i

def vcpuCreate (t : Thread) (call : CreateCall) : HvReturn × Process :=
  match p.createTarget t call.outs with
  | .error rc => (rc, p)
  | .ok i =>
      let bound := p.kernel.bind t i
      if call.trap.rc ≠ hvSuccess then (call.trap.rc, p)
      else if call.trap.page.word ohvRoVer >>> 32 ≠ ohvStateVerMagic then
        (hvError, { p with kernel := if call.rollback = hvSuccess then bound.unbind t else bound })
      else
        (hvSuccess, { p with
          slots := Function.update p.slots i (createdSlot p.g i call.trap.page (p.slots i))
          owner := Function.update p.owner i (some t)
          current := Function.update p.current t (some i)
          kernel := bound.join i (joinAsid p.g.vmEl2 call.noNestedSpace p.nestedAsid i) })

/-- The slot goes whatever the trap says and whoever asks. -/
def gone (t : Thread) (i : VcpuId) (answer : HvReturn) : Process :=
  { p with
    slots := hvVcpuDestroy i p.slots
    owner := Function.update p.owner i none
    current := if p.current t = some i then Function.update p.current t none else p.current
    kernel := if answer = hvSuccess then p.kernel.unbind t else p.kernel }

def vcpuDestroy (t : Thread) (id : Nat) (answer : HvReturn) : HvReturn × Process :=
  match findVcpu p.slots id with
  | none => (hvBadArgument, p)
  | some i => (answer, p.gone t i answer)

def table (t : Thread) : TableCall → HvReturn × Process
  | .create call => p.vcpuCreate t call
  | .destroy id answer => p.vcpuDestroy t id answer

/-- A table left over from an earlier VM is appended to. -/
def vmCreate (config : Option VmConfig) (answer : HvReturn) (spaces : Nat → SpaceAnswer) :
    HvReturn × Process :=
  let made := hvVmCreate config answer p.g
  if made.1 ≠ hvSuccess then (made.1, { p with g := made.2 })
  else
    let answers := if made.2.vmEl2 then (List.range kNestedSpaces).map spaces else []
    (hvSuccess, { p with
      g := made.2
      nestedAsid := nestedSpacesCreate answers p.nestedAsid
      kernel := { granted := grantedSpaces answers } })

/-- The slots are rebuilt; the threads keep their pointers and the process its
table of spaces. -/
def vmDestroy (answer : HvReturn) : HvReturn × Process :=
  let gone := hvVmDestroy answer p.g p.slots
  if gone.1 ≠ hvSuccess then (gone.1, p)
  else
    (hvSuccess, { p with g := gone.2.1, slots := gone.2.2, owner := fun _ => none, kernel := {} })

/-- `map_op` and its callers: one answer decides the call, the others are
dropped. -/
def memory (call : MemCall) (answer : HvReturn) (nested : Nat → HvReturn) : HvReturn × Process :=
  let done := call.serve answer p.g
  if done.1 ≠ hvSuccess then (done.1, { p with g := done.2 })
  else
    let base := Function.update p.kernel.space 0 (call.effect (p.kernel.space 0))
    let space :=
      if p.g.vmEl2 then
        Replicas.fanOut call.effect (fun i => nested i = hvSuccess) p.nestedAsid base
      else base
    (hvSuccess, { p with g := done.2, kernel := { p.kernel with space := space } })

def work (t : Thread) (id : Nat) (work : VcpuWork) : Process :=
  match ownedVcpu p.slots (p.current t) id with
  | none => p
  | some i =>
      let after := work.serve ⟨p.g, p.slots i⟩
      { p with g := after.g, slots := Function.update p.slots i after.s }

def serve (t : Thread) : LibCall → Process
  | .vmCreate config answer spaces => (p.vmCreate config answer spaces).2
  | .vmDestroy answer => (p.vmDestroy answer).2
  | .memory call answer nested => (p.memory call answer nested).2
  | .table call => (p.table t call).2
  | .exits ids _ => { p with slots := hvVcpusExit ids p.slots }
  | .work id work => p.work t id work
  | .gic call =>
      let after := call.serve p.g p.slots
      { p with g := after.g, slots := after.slots }

def step (p : Process) (act : Thread × LibCall) : Option Process := some (p.serve act.1 act.2)

end Process

theorem ownedVcpu_used {slots : VcpuTable} {current : Option VcpuId} {id : Nat} {i : VcpuId}
    (owned : ownedVcpu slots current id = some i) : (slots i).used = true := by
  unfold ownedVcpu at owned
  split at owned
  · cases owned
  · rename_i found
    split_ifs at owned
    cases owned
    exact findVcpu_used found

/-! ## What a create call can do -/

namespace Process

def accepted (p : Process) (t : Thread) (call : CreateCall) (i : VcpuId) : Process :=
  { p with
    slots := Function.update p.slots i (createdSlot p.g i call.trap.page (p.slots i))
    owner := Function.update p.owner i (some t)
    current := Function.update p.current t (some i)
    kernel := (p.kernel.bind t i).join i
      (joinAsid p.g.vmEl2 call.noNestedSpace p.nestedAsid i) }

inductive CreateOutcome (p : Process) (t : Thread) (call : CreateCall) : HvReturn × Process → Prop
  | refused (rc : HvReturn) (failure : rc ≠ hvSuccess)
      (asked : ∀ i, p.createTarget t call.outs = .ok i → call.trap.rc ≠ hvSuccess) :
      CreateOutcome p t call (rc, p)
  | mismatched (i : VcpuId) (target : p.createTarget t call.outs = .ok i)
      (bound : call.trap.rc = hvSuccess)
      (layout : call.trap.page.word ohvRoVer >>> 32 ≠ ohvStateVerMagic) :
      CreateOutcome p t call (hvError, { p with
        kernel := if call.rollback = hvSuccess then (p.kernel.bind t i).unbind t
          else p.kernel.bind t i })
  | made (i : VcpuId) (target : p.createTarget t call.outs = .ok i)
      (bound : call.trap.rc = hvSuccess)
      (layout : call.trap.page.word ohvRoVer >>> 32 = ohvStateVerMagic) :
      CreateOutcome p t call (hvSuccess, p.accepted t call i)

theorem createTarget_error {p : Process} {t : Thread} {outs : Bool} {rc : HvReturn}
    (refused : p.createTarget t outs = .error rc) : rc ≠ hvSuccess := by
  unfold createTarget at refused
  split_ifs at refused
  · cases refused
    decide
  · cases refused
    decide
  · cases refused
    decide
  · split at refused
    · cases refused
      decide
    · cases refused

theorem createTarget_ok {p : Process} {t : Thread} {outs : Bool} {i : VcpuId}
    (target : p.createTarget t outs = .ok i) :
    p.g.vmAlive = true ∧ p.current t = none ∧ (p.slots i).used = false := by
  unfold createTarget at target
  split_ifs at target with null dead busy
  split at target
  · cases target
  · rename_i found
    cases target
    have unused := List.find?_some found
    exact ⟨by simpa using dead, by simpa using busy, by simpa using unused⟩

theorem vcpuCreate_outcome (p : Process) (t : Thread) (call : CreateCall) :
    CreateOutcome p t call (p.vcpuCreate t call) := by
  unfold vcpuCreate
  split
  · rename_i rc refused
    refine .refused rc (createTarget_error refused) fun i target => ?_
    rw [refused] at target
    cases target
  · rename_i i target
    simp only
    by_cases bound : call.trap.rc = hvSuccess
    · rw [if_neg (not_not.mpr bound)]
      by_cases layout : call.trap.page.word ohvRoVer >>> 32 = ohvStateVerMagic
      · rw [if_neg (not_not.mpr layout)]
        exact .made i target bound layout
      · rw [if_pos layout]
        exact .mismatched i target bound layout
    · rw [if_pos bound]
      exact .refused _ bound fun _ _ => bound

theorem vcpuCreate_table (p : Process) (t : Thread) (call : CreateCall)
    (outs : call.outs = true) (free : p.current t = none) :
    ((p.vcpuCreate t call).1, (p.vcpuCreate t call).2.slots) =
      hvVcpuCreate p.g call.trap p.slots := by
  unfold vcpuCreate createTarget hvVcpuCreate
  simp only [outs, free, Bool.true_eq_false, Option.isSome_none, Bool.false_eq_true, if_false]
  cases p.g.vmAlive with
  | false => rfl
  | true =>
      simp only [Bool.true_eq_false, if_false]
      cases firstFree p.slots with
      | none => rfl
      | some i =>
          simp only
          split
          · rfl
          · split <;> rfl

section Gone

variable (p : Process) (t u : Thread) (i j : VcpuId) (answer : HvReturn)

theorem gone_slot : (p.gone t i answer).slots i = {} := Function.update_self i _ p.slots

theorem gone_slot_other (other : j ≠ i) : (p.gone t i answer).slots j = p.slots j :=
  Function.update_of_ne other _ p.slots

theorem gone_owner_other (other : j ≠ i) : (p.gone t i answer).owner j = p.owner j :=
  Function.update_of_ne other _ p.owner

theorem gone_current : (p.gone t i answer).current u =
    if u = t ∧ p.current t = some i then none else p.current u := by
  unfold gone
  by_cases here : p.current t = some i
  · simp only [here, if_true, Function.update_apply, and_true]
  · simp only [here, and_false, if_false]

theorem gone_vcpu : (p.gone t i answer).kernel.vcpu u =
    if u = t ∧ answer = hvSuccess then none else p.kernel.vcpu u := by
  unfold gone
  by_cases success : answer = hvSuccess
  · simp only [success, if_true, Kernel.unbind_vcpu, and_true]
  · simp only [success, and_false, if_false]

theorem gone_kernel : (p.gone t i answer).kernel =
    { p.kernel with vcpu := (p.gone t i answer).kernel.vcpu } := by
  simp only [gone]
  split <;> rfl

end Gone

theorem vcpuDestroy_found {p : Process} {id : Nat} {i : VcpuId} (t : Thread) (answer : HvReturn)
    (found : findVcpu p.slots id = some i) :
    p.vcpuDestroy t id answer = (answer, p.gone t i answer) := by
  unfold vcpuDestroy
  rw [found]

theorem vcpuDestroy_absent {p : Process} {id : Nat} (t : Thread) (answer : HvReturn)
    (absent : findVcpu p.slots id = none) : p.vcpuDestroy t id answer = (hvBadArgument, p) := by
  unfold vcpuDestroy
  rw [absent]

theorem vmDestroy_accepted {p : Process} (alive : p.g.vmAlive = true) :
    p.vmDestroy hvSuccess = (hvSuccess, { p with
      g := { p.g with vmAlive := false, gic := none }
      slots := fun _ => {}
      owner := fun _ => none
      kernel := {} }) := by
  simp [vmDestroy, hvVmDestroy, alive]

theorem vmDestroy_refused {p : Process} {answer : HvReturn}
    (refused : ¬ (p.g.vmAlive = true ∧ answer = hvSuccess)) : (p.vmDestroy answer).2 = p := by
  have device : hvNoDevice ≠ hvSuccess := by decide
  cases alive : p.g.vmAlive with
  | false => simp [vmDestroy, hvVmDestroy, alive, device]
  | true =>
      have failed : answer ≠ hvSuccess := fun success => refused ⟨alive, success⟩
      simp [vmDestroy, hvVmDestroy, alive, failed]

end Process

/-! ## Work on a slot -/

theorem VcpuWork.serve_used (work : VcpuWork) (v : VcpuView) :
    (work.serve v).s.used = v.s.used := by
  cases work with
  | settle =>
      simp only [VcpuWork.serve]
      split <;> rfl
  | expire now =>
      simp only [VcpuWork.serve]
      rw [ohvExpireTimers_slot]
  | exit host =>
      simp only [VcpuWork.serve]
      rw [(ExitOnly.exitFromRo host v).slot]
  | call made =>
      simp only [VcpuWork.serve]
      rw [VcpuCall.serve_slot]
  | _ => rfl

theorem VcpuWork.serve_globals (work : VcpuWork) (v : VcpuView) :
    System.GlobalsKept v.g (work.serve v).g := by
  have same : ∀ g, g = v.g → System.GlobalsKept v.g g := by
    rintro g rfl
    exact .refl _
  cases work with
  | settle =>
      simp only [VcpuWork.serve]
      split
      · exact .refl _
      · rename_i unsettled
        exact ⟨rfl, rfl, rfl, rfl, Or.inr rfl, fun done => absurd done unsettled⟩
  | expire now => exact ⟨rfl, rfl, rfl, rfl, Or.inl rfl, fun done => ⟨done, rfl⟩⟩
  | exit host =>
      simp only [VcpuWork.serve]
      rw [(ExitOnly.exitFromRo host v).globals]
      exact ⟨rfl, rfl, rfl, rfl, Or.inl rfl, fun done => ⟨done, rfl⟩⟩
  | call made =>
      simp only [VcpuWork.serve]
      rw [VcpuCall.serve_globals]
      exact ⟨rfl, rfl, rfl, rfl, Or.inl rfl, fun done => ⟨done, rfl⟩⟩
  | returned | canceled | stored => exact same _ rfl

theorem hvVcpusExit_used (ids : List Nat) (slots : VcpuTable) (i : VcpuId) :
    (hvVcpusExit ids slots i).used = (slots i).used := by
  unfold hvVcpusExit
  split <;> rfl

namespace Process

variable {p : Process} {t : Thread} {id : Nat} {work : VcpuWork}

theorem work_refused (none : ownedVcpu p.slots (p.current t) id = none) :
    p.work t id work = p := by
  unfold Process.work
  rw [none]

theorem work_other {i j : VcpuId} (owned : ownedVcpu p.slots (p.current t) id = some i)
    (other : j ≠ i) : (p.work t id work).slots j = p.slots j := by
  unfold Process.work
  rw [owned]
  exact Function.update_of_ne other _ p.slots

theorem work_used (j : VcpuId) : ((p.work t id work).slots j).used = (p.slots j).used := by
  cases owned : ownedVcpu p.slots (p.current t) id with
  | none => rw [work_refused owned]
  | some i =>
      by_cases here : j = i
      · subst here
        unfold Process.work
        rw [owned]
        show (Function.update p.slots j (work.serve ⟨p.g, p.slots j⟩).s j).used = (p.slots j).used
        rw [Function.update_self, VcpuWork.serve_used]
      · rw [work_other owned here]

end Process

end OpenHypervisor
