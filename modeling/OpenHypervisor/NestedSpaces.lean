import Mathlib.Data.List.GetD
import OpenHypervisor.Process
import OpenHypervisor.VcpuLife

/-!
# Nested address spaces

A guest hypervisor runs in an address space of its own, one of up to eight that
come with its VM, and every memory call is repeated for each of them.  Two
things are asked: that the copies stay equal, and that the spaces are the ones
of the VM at hand.  Neither the answers of the repeated traps nor the end of a
VM reach the table of spaces.
-/

set_option autoImplicit false

namespace OpenHypervisor

/-! ## One memory call over all spaces -/

structure MemTraps where
  call : MemCall
  answer : HvReturn
  nested : Nat → HvReturn

/-- The arguments pass the checks and the base space takes the call. -/
def MemTraps.Accepted (m : MemTraps) (g : Globals) : Prop :=
  match m.call with
  | .map addr ipa size _ => addr ≠ 0 ∧ MapAccepted m.answer ipa size g
  | .unmap ipa size | .protect ipa size _ => MapAccepted m.answer ipa size g

theorem mapAccepted_of_g {answer : HvReturn} {ipa size : Word} {g h : Globals}
    (alive : h.vmAlive = g.vmAlive) :
    MapAccepted answer ipa size h ↔ MapAccepted answer ipa size g := by
  unfold MapAccepted
  rw [alive]

theorem MemTraps.serve_eq_success_iff (m : MemTraps) (g : Globals) :
    (m.call.serve m.answer g).1 = hvSuccess ↔ m.Accepted g := by
  have malformed : hvBadArgument ≠ hvSuccess := by decide
  unfold MemTraps.Accepted
  cases m.call with
  | map addr ipa size flags =>
      by_cases null : addr = 0
      · simp [MemCall.serve, hvVmMap, null, malformed]
      · have reached : (hvVmMap m.answer addr ipa size g).1 = mapOp m.answer ipa size g := by
          unfold hvVmMap
          rw [if_neg null]
          simp only
          split <;> rfl
        simp only [MemCall.serve, reached, mapOp_eq_success_iff, ne_eq, null, not_false_eq_true,
          true_and]
  | unmap ipa size =>
      simp only [MemCall.serve, hvVmUnmap, mapOp_eq_success_iff]
      exact mapAccepted_of_g rfl
  | protect ipa size flags => exact mapOp_eq_success_iff m.answer ipa size g

theorem MemCall.serve_globals (call : MemCall) (answer : HvReturn) (g : Globals) :
    (call.serve answer g).2 = { g with maps := (call.serve answer g).2.maps } := by
  cases call with
  | map addr ipa size flags =>
      simp only [MemCall.serve, hvVmMap]
      split
      · rfl
      · split <;> rfl
  | unmap ipa size => rfl
  | protect ipa size flags => rfl

theorem MemCall.effect_idem (call : MemCall) (space : Space) :
    call.effect (call.effect space) = call.effect space := by
  funext x
  cases call with
  | map addr ipa size flags | unmap ipa size =>
      simp only [MemCall.effect]
      split <;> rfl
  | protect ipa size flags =>
      simp only [MemCall.effect]
      split
      · cases space x <;> rfl
      · rfl

namespace Process

def memoryStep (p : Process) (m : MemTraps) : Option Process :=
  some (p.memory m.call m.answer m.nested).2

theorem memory_refused {p : Process} {m : MemTraps} (refused : ¬ m.Accepted p.g) :
    (p.memory m.call m.answer m.nested).1 ≠ hvSuccess ∧
      (p.memory m.call m.answer m.nested).2 =
        { p with g := (m.call.serve m.answer p.g).2 } := by
  have failed : (m.call.serve m.answer p.g).1 ≠ hvSuccess :=
    fun success => refused ((m.serve_eq_success_iff p.g).mp success)
  unfold memory
  simp only [if_pos failed]
  exact ⟨failed, trivial⟩

theorem memory_accepted {p : Process} {m : MemTraps} (el2 : p.g.vmEl2 = true)
    (accepted : m.Accepted p.g) :
    p.memory m.call m.answer m.nested = (hvSuccess, { p with
      g := (m.call.serve m.answer p.g).2
      kernel := { p.kernel with
        space := Replicas.fanOut m.call.effect (fun i => m.nested i = hvSuccess) p.nestedAsid
          (Function.update p.kernel.space 0 (m.call.effect (p.kernel.space 0))) } }) := by
  have succeeded := (m.serve_eq_success_iff p.g).mpr accepted
  unfold memory
  simp only [succeeded, el2, ne_eq, not_true_eq_false, if_false, if_true]

end Process

/-! ## Copies that stay equal -/

def SpacesAgree (p : Process) : Prop :=
  ∀ asid ∈ p.nestedAsid, p.kernel.space asid = p.kernel.space 0

structure NestedVm (p : Process) : Prop where
  el2 : p.g.vmEl2 = true
  nonzero : (0 : Word) ∉ p.nestedAsid
  agree : SpacesAgree p

def AllOrNothing (p : Process) (m : MemTraps) (next : Process) : Prop :=
  if (p.memory m.call m.answer m.nested).1 = hvSuccess then SpacesAgree next
  else next.kernel.space = p.kernel.space

/-- Every nested space takes a call the base space took, or has nothing to
change. -/
def SpacesFollow (p : Process) (m : MemTraps) (_ : Process) : Prop :=
  m.Accepted p.g → ∀ asid ∈ p.nestedAsid,
    Replicas.Reached (fun i => m.nested i = hvSuccess) p.nestedAsid asid ∨
      m.call.effect (p.kernel.space asid) = p.kernel.space asid

namespace NestedVm

variable {p : Process}

theorem of_create {config : Option VmConfig} {spaces : Nat → SpaceAnswer}
    (dead : p.g.vmAlive = false) (el2 : (config.map (·.el2Enabled)).getD false = true)
    (nonzero : (0 : Word) ∉ (p.vmCreate config hvSuccess spaces).2.nestedAsid) :
    NestedVm (p.vmCreate config hvSuccess spaces).2 := by
  have made : (hvVmCreate config hvSuccess p.g).1 = hvSuccess := by
    simp [hvVmCreate, dead]
  refine ⟨?_, nonzero, ?_⟩
  · simp only [Process.vmCreate, made, ne_eq, not_true_eq_false, if_false]
    simp [hvVmCreate, dead, el2]
  · simp only [Process.vmCreate, made, ne_eq, not_true_eq_false, if_false]
    exact fun _ _ => rfl

theorem memory_globals (vm : NestedVm p) (m : MemTraps) :
    (p.memory m.call m.answer m.nested).2.g.vmEl2 = true ∧
      (p.memory m.call m.answer m.nested).2.nestedAsid = p.nestedAsid := by
  have kept : (m.call.serve m.answer p.g).2.vmEl2 = true := by
    rw [MemCall.serve_globals]
    exact vm.el2
  by_cases accepted : m.Accepted p.g
  · rw [Process.memory_accepted vm.el2 accepted]
    exact ⟨kept, rfl⟩
  · rw [(Process.memory_refused accepted).2]
    exact ⟨kept, rfl⟩

theorem agree_iff (vm : NestedVm p) {m : MemTraps} (accepted : m.Accepted p.g) :
    SpacesAgree (p.memory m.call m.answer m.nested).2 ↔ SpacesFollow p m p := by
  have base : ∀ asid ∈ p.nestedAsid, asid ≠ 0 := by
    rintro asid listed rfl
    exact vm.nonzero listed
  have own : Replicas.fanOut m.call.effect (fun i => m.nested i = hvSuccess) p.nestedAsid
      (Function.update p.kernel.space 0 (m.call.effect (p.kernel.space 0))) 0 =
      m.call.effect (p.kernel.space 0) := by
    rw [Replicas.fanOut_of_not_reached, Function.update_self]
    rintro ⟨i, listed, -⟩
    exact vm.nonzero (List.mem_of_getElem? listed)
  have copies : ∀ asid ∈ p.nestedAsid,
      Function.update p.kernel.space 0 (m.call.effect (p.kernel.space 0)) asid =
        p.kernel.space 0 := by
    intro asid listed
    rw [Function.update_of_ne (base asid listed)]
    exact vm.agree asid listed
  rw [Process.memory_accepted vm.el2 accepted]
  unfold SpacesAgree SpacesFollow
  simp only [own]
  rw [Replicas.fanOut_agree_iff m.call.effect_idem copies]
  constructor
  · intro follows _ asid listed
    rw [vm.agree asid listed]
    exact follows asid listed
  · intro follows asid listed
    rw [← vm.agree asid listed]
    exact follows accepted asid listed

theorem allOrNothing_iff (vm : NestedVm p) {m : MemTraps} {next : Process}
    (taken : p.memoryStep m = some next) : AllOrNothing p m next ↔ SpacesFollow p m next := by
  cases taken
  unfold AllOrNothing
  by_cases accepted : m.Accepted p.g
  · rw [if_pos (by rw [Process.memory_accepted vm.el2 accepted])]
    exact vm.agree_iff accepted
  · obtain ⟨failed, unchanged⟩ := Process.memory_refused accepted
    rw [if_neg failed, unchanged]
    exact ⟨fun _ passes => absurd passes accepted, fun _ => rfl⟩

theorem step (vm : NestedVm p) {m : MemTraps} {next : Process}
    (taken : p.memoryStep m = some next) (follows : SpacesFollow p m next) : NestedVm next := by
  cases taken
  obtain ⟨el2, table⟩ := vm.memory_globals m
  refine ⟨el2, by rw [table]; exact vm.nonzero, ?_⟩
  by_cases accepted : m.Accepted p.g
  · exact (vm.agree_iff accepted).mpr follows
  · rw [(Process.memory_refused accepted).2]
    exact vm.agree

end NestedVm

/-- Over any history of memory calls the copies stay equal, and refused calls
change none, if and only if no nested space misses an accepted call that would
have changed it. -/
theorem memory_all_or_nothing_iff {p : Process} (vm : NestedVm p) (calls : List MemTraps) :
    Runs.Along Process.memoryStep AllOrNothing p calls ↔
      Runs.Along Process.memoryStep SpacesFollow p calls := by
  have exact' : ∀ p m next, Process.memoryStep p m = some next → NestedVm p →
      (AllOrNothing p m next ↔ SpacesFollow p m next) :=
    fun _ _ _ taken vm => vm.allOrNothing_iff taken
  have kept : ∀ p m next, Process.memoryStep p m = some next → SpacesFollow p m next →
      NestedVm p → NestedVm next :=
    fun _ _ _ taken follows vm => vm.step taken follows
  exact Runs.along_iff_of_invariant NestedVm exact' kept calls vm

def oneSpace (i : Nat) : SpaceAnswer :=
  if i = 0 then { asid := 1 } else { rc := hvNoResources, asid := 0 }

def nestedProcess : Process :=
  (Process.vmCreate {} (some { el2Enabled := true }) hvSuccess oneSpace).2

def oneMap (nested : HvReturn) : MemTraps where
  call := .map 0x10000 0x1000000 0x4000 7
  answer := hvSuccess
  nested := fun _ => nested

theorem nestedProcess_vm : NestedVm nestedProcess := .of_create rfl rfl (by decide)

theorem memory_all_or_nothing_one :
    Runs.Along Process.memoryStep AllOrNothing nestedProcess [oneMap hvSuccess] := by
  refine (memory_all_or_nothing_iff nestedProcess_vm _).mpr ?_
  refine (Runs.Along.cons_of_step rfl).mpr ⟨fun _ asid listed => Or.inl ⟨0, ?_, rfl⟩, trivial⟩
  rw [List.mem_singleton.mp (show asid ∈ [1] from listed)]
  rfl

/-- The call succeeds and the guest hypervisor's space is still empty. -/
theorem memory_lost_in_space :
    NestedVm nestedProcess ∧
      (nestedProcess.memory (oneMap hvNoResources).call hvSuccess fun _ => hvNoResources).1 =
        hvSuccess ∧
      ¬ Runs.Along Process.memoryStep AllOrNothing nestedProcess [oneMap hvNoResources] := by
  refine ⟨nestedProcess_vm, rfl, fun holds => ?_⟩
  have agree := ((Runs.Along.cons_of_step rfl).mp holds).1
  have same := (if_pos rfl).mp agree 1 (by decide)
  have byte := congrFun same 0x1000000
  revert byte
  decide

/-! ## Spaces of the VM at hand -/

theorem nestedSpacesCreate_eq (answers : List SpaceAnswer) (asids : List Word)
    (bounded : asids.length ≤ kNestedSpaces) :
    nestedSpacesCreate answers asids = (asids ++ grantedSpaces answers).take kNestedSpaces := by
  induction answers generalizing asids with
  | nil =>
      rw [nestedSpacesCreate, grantedSpaces, List.append_nil, List.take_of_length_le bounded]
  | cons a rest ih =>
      rw [nestedSpacesCreate, grantedSpaces]
      by_cases refused : a.rc ≠ hvSuccess
      · rw [if_pos refused, if_pos refused, List.append_nil, List.take_of_length_le bounded]
      · rw [if_neg refused, if_neg refused]
        by_cases room : asids.length < kNestedSpaces
        · have longer : (asids ++ [a.asid]).length ≤ kNestedSpaces := by
            rw [List.length_append, List.length_singleton]
            exact room
          rw [if_pos room, ih _ longer, List.append_assoc, List.singleton_append]
        · have full : asids.length = kNestedSpaces := by omega
          rw [if_neg room, ih _ bounded, List.take_append_of_le_length (Nat.le_of_eq full.symm),
            List.take_append_of_le_length (Nat.le_of_eq full.symm)]

theorem grantedSpaces_length (answers : List SpaceAnswer) :
    (grantedSpaces answers).length ≤ answers.length := by
  induction answers with
  | nil => exact Nat.le_refl 0
  | cons a rest ih =>
      rw [grantedSpaces]
      split
      · exact Nat.zero_le _
      · exact Nat.succ_le_succ ih

theorem joinAsid_own {asids : List Word} (nonzero : (0 : Word) ∉ asids) {el2 off : Bool}
    {id : Nat} (inside : id < asids.length) {asid : Word}
    (joined : joinAsid el2 off asids id = some asid) : asids[id]? = some asid := by
  have own : ohvNestedAsid asids id = asids[id] := by
    rw [ohvNestedAsid, List.getD_eq_getElem _ _ inside]
  have present : ohvNestedAsid asids id ≠ 0 := by
    intro zero
    exact nonzero (zero ▸ own ▸ List.getElem_mem inside)
  unfold joinAsid at joined
  split at joined
  · cases joined
  · simp only [present, if_false] at joined
    rw [List.getElem?_eq_getElem inside, ← own, joined]

/-- Wherever it is sent, the table names the space. -/
theorem joinAsid_mem {asids : List Word} {el2 off : Bool} {id : Nat} {asid : Word}
    (joined : joinAsid el2 off asids id = some asid) : el2 = true ∧ asid ∈ asids := by
  have listed : ∀ k, ohvNestedAsid asids k ≠ 0 → ohvNestedAsid asids k ∈ asids := by
    intro k present
    by_cases inside : k < asids.length
    · rw [ohvNestedAsid, List.getD_eq_getElem _ _ inside]
      exact List.getElem_mem inside
    · exact absurd (List.getD_eq_default _ _ (Nat.le_of_not_lt inside)) present
  unfold joinAsid at joined
  split at joined
  · cases joined
  · rename_i nested
    simp only [not_or, Bool.not_eq_false] at nested
    refine ⟨nested.1, ?_⟩
    simp only at joined
    split at joined
    · split at joined
      · cases joined
      · rename_i present
        exact Option.some.inj joined ▸ listed 0 present
    · rename_i present
      exact Option.some.inj joined ▸ listed id present

namespace Process

/-- The spaces of nested guests a call names to the kernel. -/
def passes (p : Process) (t : Thread) : LibCall → List Word
  | .memory call answer nested =>
      if (p.memory call answer nested).1 = hvSuccess ∧ p.g.vmEl2 = true then p.nestedAsid else []
  | .table (.create call) =>
      match p.createTarget t call.outs with
      | .error _ => []
      | .ok i =>
          if (p.vcpuCreate t call).1 = hvSuccess then
            (joinAsid p.g.vmEl2 call.noNestedSpace p.nestedAsid i).toList
          else []
  | _ => []

end Process

def LibCall.Nests (p : Process) : LibCall → Prop
  | .vmCreate config answer _ =>
      p.g.vmAlive = false ∧ answer = hvSuccess ∧ (config.map (·.el2Enabled)).getD false = true
  | _ => False

def LibCall.newSpaces : LibCall → List Word
  | .vmCreate _ _ spaces => grantedSpaces ((List.range kNestedSpaces).map spaces)
  | _ => []

/-- ASIDs of one VM are distinct and not zero. -/
def KernelAsids (p : Process) (act : Thread × LibCall) (_ : Process) : Prop :=
  act.2.Nests p → act.2.newSpaces.Nodup ∧ (0 : Word) ∉ act.2.newSpaces

/-- The table is empty when the VM is created, or what is left in it is the new
VM's again, each space once as far as its vCPUs go. -/
def RenewsSpaces (p : Process) (act : Thread × LibCall) (_ : Process) : Prop :=
  act.2.Nests p → (∀ asid ∈ p.nestedAsid, asid ∈ act.2.newSpaces) ∧
    ((p.nestedAsid ++ act.2.newSpaces).take act.2.newSpaces.length).Nodup

/-- What a call owes: the spaces it names are this VM's, and the vCPUs that can
have one each have one each. -/
def OwnSpaces (p : Process) (act : Thread × LibCall) (next : Process) : Prop :=
  (∀ asid ∈ p.passes act.1 act.2, asid ∈ p.kernel.granted) ∧
    ∀ i j : VcpuId, i ≠ j → (next.slots i).used = true → (next.slots j).used = true →
      i.val < next.kernel.granted.length → j.val < next.kernel.granted.length →
      ∀ a b, next.kernel.joined i = some a → next.kernel.joined j = some b → a ≠ b

structure SpacesHome (p : Process) : Prop where
  bounded : p.nestedAsid.length ≤ kNestedSpaces
  nonzero : (0 : Word) ∉ p.nestedAsid
  own : p.g.vmAlive = true → p.g.vmEl2 = true → ∀ asid ∈ p.nestedAsid, asid ∈ p.kernel.granted
  covered : p.kernel.granted.length ≤ p.nestedAsid.length
  distinct : (p.nestedAsid.take p.kernel.granted.length).Nodup
  joined : ∀ (i : VcpuId) a, i.val < p.kernel.granted.length → p.kernel.joined i = some a →
    p.nestedAsid[i.val]? = some a

/-- What the invariant reads of a process. -/
structure SameSpaces (p q : Process) : Prop where
  table : q.nestedAsid = p.nestedAsid
  granted : q.kernel.granted = p.kernel.granted
  alive : q.g.vmAlive = p.g.vmAlive
  el2 : q.g.vmEl2 = p.g.vmEl2

namespace SpacesHome

variable {p : Process}

theorem start : SpacesHome {} where
  bounded := Nat.zero_le _
  nonzero := List.not_mem_nil
  own := nofun
  covered := Nat.le_refl 0
  distinct := List.nodup_nil
  joined := nofun

theorem of_same (home : SpacesHome p) {q : Process} (same : SameSpaces p q)
    (joined : ∀ (i : VcpuId) a, i.val < p.kernel.granted.length → q.kernel.joined i = some a →
      p.nestedAsid[i.val]? = some a) : SpacesHome q where
  bounded := by rw [same.table]; exact home.bounded
  nonzero := by rw [same.table]; exact home.nonzero
  own := by rw [same.table, same.granted, same.alive, same.el2]; exact home.own
  covered := by rw [same.table, same.granted]; exact home.covered
  distinct := by rw [same.table, same.granted]; exact home.distinct
  joined := by rw [same.table, same.granted]; exact joined

/-- A VM's end takes its spaces along, the table keeps their names. -/
theorem gone (home : SpacesHome p) {g : Globals} (dead : g.vmAlive = false) (slots : VcpuTable)
    (owner : VcpuId → Option Thread) :
    SpacesHome { p with g, slots, owner, kernel := {} } where
  bounded := home.bounded
  nonzero := home.nonzero
  own := fun alive => absurd (dead.symm.trans alive) Bool.false_ne_true
  covered := Nat.zero_le _
  distinct := by
    show (List.take 0 _).Nodup
    rw [List.take_zero]
    exact List.nodup_nil
  joined := nofun

theorem renewed (home : SpacesHome p) (g : Globals) {answers : List SpaceAnswer}
    (few : answers.length ≤ kNestedSpaces) (nonzero : (0 : Word) ∉ grantedSpaces answers)
    (left : ∀ asid ∈ p.nestedAsid, asid ∈ grantedSpaces answers)
    (distinct : ((p.nestedAsid ++ grantedSpaces answers).take
      (grantedSpaces answers).length).Nodup) :
    SpacesHome { p with
      g
      nestedAsid := nestedSpacesCreate answers p.nestedAsid
      kernel := { granted := grantedSpaces answers } } := by
  have table := nestedSpacesCreate_eq answers p.nestedAsid home.bounded
  have atMost : (grantedSpaces answers).length ≤ kNestedSpaces :=
    Nat.le_trans (grantedSpaces_length answers) few
  have named : ∀ asid ∈ nestedSpacesCreate answers p.nestedAsid, asid ∈ grantedSpaces answers := by
    intro asid listed
    rw [table] at listed
    rcases List.mem_append.mp (List.mem_of_mem_take listed) with old | new
    · exact left asid old
    · exact new
  refine ⟨?_, fun zero => nonzero (named 0 zero), fun _ _ => named, ?_, ?_, nofun⟩
  · show (nestedSpacesCreate answers p.nestedAsid).length ≤ kNestedSpaces
    rw [table, List.length_take]
    exact Nat.min_le_left _ _
  · show (grantedSpaces answers).length ≤ (nestedSpacesCreate answers p.nestedAsid).length
    rw [table, List.length_take, List.length_append]
    omega
  · show ((nestedSpacesCreate answers p.nestedAsid).take (grantedSpaces answers).length).Nodup
    rw [table, List.take_take, Nat.min_eq_left atMost]
    exact distinct

theorem plain (home : SpacesHome p) {g : Globals} (el2 : g.vmEl2 = false) :
    SpacesHome { p with g, nestedAsid := nestedSpacesCreate [] p.nestedAsid, kernel := {} } where
  bounded := home.bounded
  nonzero := home.nonzero
  own := fun _ nested => absurd (el2.symm.trans nested) Bool.false_ne_true
  covered := Nat.zero_le _
  distinct := by
    show (List.take 0 _).Nodup
    rw [List.take_zero]
    exact List.nodup_nil
  joined := nofun

end SpacesHome

theorem hvVmCreate_refused (config : Option VmConfig) {answer : HvReturn} {g : Globals}
    (refused : ¬ (g.vmAlive = false ∧ answer = hvSuccess)) :
    (hvVmCreate config answer g).1 ≠ hvSuccess ∧ (hvVmCreate config answer g).2 = g := by
  have busy : hvBusy ≠ hvSuccess := by decide
  unfold hvVmCreate
  cases alive : g.vmAlive with
  | true => exact ⟨busy, rfl⟩
  | false =>
      have failed : answer ≠ hvSuccess := fun success => refused ⟨alive, success⟩
      simp only [Bool.false_eq_true, if_false, failed]
      exact ⟨failed, trivial⟩

namespace Process

theorem vmCreate_refused {p : Process} {config : Option VmConfig} {answer : HvReturn}
    {spaces : Nat → SpaceAnswer} (refused : ¬ (p.g.vmAlive = false ∧ answer = hvSuccess)) :
    (p.vmCreate config answer spaces).2 = p := by
  obtain ⟨failed, unchanged⟩ := hvVmCreate_refused config refused
  unfold vmCreate
  simp only [if_pos failed, unchanged]

theorem vmCreate_accepted {p : Process} (config : Option VmConfig) (spaces : Nat → SpaceAnswer)
    (dead : p.g.vmAlive = false) : ∃ g : Globals, ∃ answers : List SpaceAnswer,
      g.vmEl2 = (config.map (·.el2Enabled)).getD false ∧
      answers = (if g.vmEl2 then (List.range kNestedSpaces).map spaces else []) ∧
      (p.vmCreate config hvSuccess spaces).2 = { p with
        g
        nestedAsid := nestedSpacesCreate answers p.nestedAsid
        kernel := { granted := grantedSpaces answers } } := by
  have made : (hvVmCreate config hvSuccess p.g).1 = hvSuccess := by simp [hvVmCreate, dead]
  refine ⟨(hvVmCreate config hvSuccess p.g).2, _, by simp [hvVmCreate, dead], rfl, ?_⟩
  unfold vmCreate
  simp only [made, ne_eq, not_true_eq_false, if_false]

theorem memory_same (p : Process) (call : MemCall) (answer : HvReturn) (nested : Nat → HvReturn) :
    SameSpaces p (p.memory call answer nested).2 ∧
      (p.memory call answer nested).2.kernel.joined = p.kernel.joined := by
  have alive : (call.serve answer p.g).2.vmAlive = p.g.vmAlive := by rw [MemCall.serve_globals]
  have el2 : (call.serve answer p.g).2.vmEl2 = p.g.vmEl2 := by rw [MemCall.serve_globals]
  unfold memory
  simp only
  split
  · exact ⟨⟨rfl, rfl, alive, el2⟩, rfl⟩
  · exact ⟨⟨rfl, rfl, alive, el2⟩, rfl⟩

theorem work_same (p : Process) (t : Thread) (id : Nat) (work : VcpuWork) :
    SameSpaces p (p.work t id work) ∧ (p.work t id work).kernel.joined = p.kernel.joined := by
  unfold Process.work
  split
  · exact ⟨⟨rfl, rfl, rfl, rfl⟩, rfl⟩
  · rename_i i _
    have kept := work.serve_globals ⟨p.g, p.slots i⟩
    exact ⟨⟨rfl, rfl, kept.alive, kept.el2⟩, rfl⟩

theorem vcpuDestroy_same (p : Process) (t : Thread) (id : Nat) (answer : HvReturn) :
    SameSpaces p (p.vcpuDestroy t id answer).2 ∧
      (p.vcpuDestroy t id answer).2.kernel.joined = p.kernel.joined := by
  cases found : findVcpu p.slots id with
  | none =>
      rw [vcpuDestroy_absent t answer found]
      exact ⟨⟨rfl, rfl, rfl, rfl⟩, rfl⟩
  | some i =>
      rw [vcpuDestroy_found t answer found]
      refine ⟨⟨rfl, ?_, rfl, rfl⟩, ?_⟩
      · simp only
        rw [p.gone_kernel]
      · simp only
        rw [p.gone_kernel]

end Process

namespace SpacesHome

variable {p : Process}

theorem vcpuCreate (home : SpacesHome p) (t : Thread) (call : CreateCall) :
    SpacesHome (p.vcpuCreate t call).2 := by
  have outcome := p.vcpuCreate_outcome t call
  generalize p.vcpuCreate t call = answer at outcome ⊢
  cases outcome with
  | refused rc _ _ => exact home
  | mismatched i _ _ _ =>
      refine home.of_same ⟨rfl, ?_, rfl, rfl⟩ ?_
      · simp only
        split <;> rfl
      · simp only
        split <;> exact home.joined
  | made i _ _ _ =>
      refine home.of_same ⟨rfl, rfl, rfl, rfl⟩ fun j asid inside joined => ?_
      by_cases here : j = i
      · subst here
        have sent : joinAsid p.g.vmEl2 call.noNestedSpace p.nestedAsid j = some asid := by
          rw [← joined]
          exact (Function.update_self j _ p.kernel.joined).symm
        exact joinAsid_own home.nonzero (Nat.lt_of_lt_of_le inside home.covered) sent
      · have before : p.kernel.joined j = some asid := by
          rw [← joined]
          exact (Function.update_of_ne here _ p.kernel.joined).symm
        exact home.joined j asid inside before

theorem vmDestroy (home : SpacesHome p) (answer : HvReturn) :
    SpacesHome (p.vmDestroy answer).2 := by
  by_cases accepted : p.g.vmAlive = true ∧ answer = hvSuccess
  · obtain ⟨alive, rfl⟩ := accepted
    rw [Process.vmDestroy_accepted alive]
    exact home.gone rfl _ _
  · rw [Process.vmDestroy_refused accepted]
    exact home

theorem vmCreate (home : SpacesHome p) {t : Thread} {config : Option VmConfig}
    {answer : HvReturn} {spaces : Nat → SpaceAnswer} {next : Process}
    (given : KernelAsids p (t, .vmCreate config answer spaces) next)
    (renews : RenewsSpaces p (t, .vmCreate config answer spaces) next) :
    SpacesHome (p.vmCreate config answer spaces).2 := by
  by_cases created : p.g.vmAlive = false ∧ answer = hvSuccess
  · obtain ⟨dead, rfl⟩ := created
    obtain ⟨g, answers, el2, asked, made⟩ := Process.vmCreate_accepted config spaces dead
    rw [made]
    by_cases nested : g.vmEl2 = true
    · rw [if_pos nested] at asked
      subst asked
      have nests : LibCall.Nests p (.vmCreate config hvSuccess spaces) :=
        ⟨dead, rfl, el2.symm.trans nested⟩
      have few : ((List.range kNestedSpaces).map spaces).length = kNestedSpaces := by
        rw [List.length_map, List.length_range]
      exact home.renewed g (Nat.le_of_eq few) (given nests).2 (renews nests).1 (renews nests).2
    · rw [if_neg nested] at asked
      subst asked
      exact home.plain (Bool.not_eq_true _ ▸ nested)
  · rw [Process.vmCreate_refused created]
    exact home

theorem step (home : SpacesHome p) {act : Thread × LibCall} {next : Process}
    (taken : p.step act = some next) (given : KernelAsids p act next)
    (renews : RenewsSpaces p act next) : SpacesHome next := by
  cases taken
  obtain ⟨t, call⟩ := act
  cases call with
  | vmCreate config answer spaces => exact home.vmCreate given renews
  | vmDestroy answer => exact home.vmDestroy answer
  | memory call answer nested =>
      obtain ⟨same, joined⟩ := p.memory_same call answer nested
      exact home.of_same same fun i asid inside sent => home.joined i asid inside (joined ▸ sent)
  | table call =>
      cases call with
      | create call => exact home.vcpuCreate t call
      | destroy id answer =>
          obtain ⟨same, joined⟩ := p.vcpuDestroy_same t id answer
          exact home.of_same same fun i asid inside sent => home.joined i asid inside (joined ▸ sent)
  | exits ids answer => exact home.of_same ⟨rfl, rfl, rfl, rfl⟩ home.joined
  | work id work =>
      obtain ⟨same, joined⟩ := p.work_same t id work
      exact home.of_same same fun i asid inside sent => home.joined i asid inside (joined ▸ sent)
  | gic call =>
      have only := (GicCall.serve_frame call p.g p.slots).globals
      refine home.of_same ⟨rfl, rfl, ?_, ?_⟩ home.joined
      · show (call.serve p.g p.slots).g.vmAlive = p.g.vmAlive
        rw [only]
      · show (call.serve p.g p.slots).g.vmEl2 = p.g.vmEl2
        rw [only]

theorem passes (home : SpacesHome p) (t : Thread) (call : LibCall) :
    ∀ asid ∈ p.passes t call, asid ∈ p.kernel.granted := by
  intro asid named
  unfold Process.passes at named
  split at named
  · rename_i call answer nested
    split at named
    · rename_i accepted
      refine home.own ?_ accepted.2 asid named
      by_contra dead
      have refused : ¬ MemTraps.Accepted ⟨call, answer, nested⟩ p.g := by
        unfold MemTraps.Accepted MapAccepted
        cases call <;> simp [dead]
      exact (Process.memory_refused refused).1 accepted.1
    · cases named
  · rename_i call
    split at named
    · cases named
    · rename_i i target
      split at named
      · obtain ⟨el2, listed⟩ := joinAsid_mem (Option.mem_toList.mp named)
        exact home.own (Process.createTarget_ok target).1 el2 asid listed
      · cases named
  · cases named

theorem apart (home : SpacesHome p) {i j : VcpuId} (other : i ≠ j)
    (first : i.val < p.kernel.granted.length) (second : j.val < p.kernel.granted.length)
    {a b : Word} (one : p.kernel.joined i = some a) (two : p.kernel.joined j = some b) :
    a ≠ b := by
  rintro rfl
  have listed : ∀ k : VcpuId, k.val < p.kernel.granted.length → p.kernel.joined k = some a →
      (p.nestedAsid.take p.kernel.granted.length)[k.val]? = some a := by
    intro k inside sent
    rw [List.getElem?_take_of_lt inside]
    exact home.joined k a inside sent
  have inside : i.val < (p.nestedAsid.take p.kernel.granted.length).length := by
    rw [List.length_take]
    exact Nat.lt_min.mpr ⟨first, Nat.lt_of_lt_of_le first home.covered⟩
  have same := (listed i first one).trans (listed j second two).symm
  exact other (Fin.ext ((List.getElem?_inj inside home.distinct).mp same))

end SpacesHome

/-- In every history in which a new VM finds no spaces of an earlier one, the
spaces in use are the VM's own and no two of its vCPUs share one. -/
theorem nested_spaces_own {word : List (Thread × LibCall)}
    (given : Runs.Along Process.step KernelAsids {} word)
    (renews : Runs.Along Process.step RenewsSpaces {} word) :
    Runs.Along Process.step OwnSpaces {} word := by
  refine Runs.along_of_invariant SpacesHome ?_ ?_ (given.and renews) SpacesHome.start
  · intro p act next taken allowed home
    exact home.step taken allowed.1 allowed.2
  · intro p act next taken allowed home
    have after := home.step taken allowed.1 allowed.2
    exact ⟨home.passes act.1 act.2, fun i j other _ _ first second a b one two =>
      after.apart other first second one two⟩

def twoCores : List (Thread × LibCall) :=
  [(0, .vmCreate (some { el2Enabled := true }) hvSuccess fun i => { asid := BitVec.ofNat 64 (i + 1) }),
    (0, .table (.create { trap := { page := versionedPage } })),
    (1, .table (.create { trap := { page := versionedPage } })),
    (0, .memory (.map 0x10000 0x1000000 0x4000 7) hvSuccess fun _ => hvSuccess)]

theorem nested_spaces_own_two : Runs.Along Process.step OwnSpaces {} twoCores := by
  refine nested_spaces_own ?_ ?_
  · refine (Runs.Along.cons_of_step rfl).mpr ⟨fun _ => ⟨by decide, by decide⟩, ?_⟩
    exact fun _ _ => ⟨False.elim, fun _ _ => ⟨False.elim, fun _ _ => ⟨False.elim, trivial⟩⟩⟩
  · refine (Runs.Along.cons_of_step rfl).mpr ⟨fun _ => ⟨nofun, by decide⟩, ?_⟩
    exact fun _ _ => ⟨False.elim, fun _ _ => ⟨False.elim, fun _ _ => ⟨False.elim, trivial⟩⟩⟩

def secondVm : List (Thread × LibCall) :=
  [(0, .vmCreate (some { el2Enabled := true }) hvSuccess oneSpace),
    (0, .vmDestroy hvSuccess),
    (0, .vmCreate (some { el2Enabled := true }) hvSuccess fun i =>
      if i = 0 then { asid := 9 } else { rc := hvNoResources, asid := 0 })]

def mapCall : LibCall :=
  .memory (.map 0x10000 0x1000000 0x4000 7) hvSuccess fun _ => hvSuccess

/-- The second VM's memory goes to the space of the first. -/
theorem stale_space_named :
    Runs.Along Process.step KernelAsids {} (secondVm ++ [(0, mapCall)]) ∧
      ¬ Runs.Along Process.step OwnSpaces {} (secondVm ++ [(0, mapCall)]) := by
  constructor
  · refine (Runs.Along.cons_of_step rfl).mpr ⟨fun _ => ⟨by decide, by decide⟩, ?_⟩
    refine (Runs.Along.cons_of_step rfl).mpr ⟨False.elim, ?_⟩
    refine (Runs.Along.cons_of_step rfl).mpr ⟨fun _ => ⟨by decide, by decide⟩, ?_⟩
    exact fun _ _ => ⟨False.elim, trivial⟩
  · intro holds
    have named := (holds.at_step secondVm rfl rfl).1 1 (by decide)
    revert named
    decide

end OpenHypervisor
