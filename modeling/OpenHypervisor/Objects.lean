import OpenHypervisor.IchRegs
import OpenHypervisor.Library.Handles
import OpenHypervisor.NestedSpaces

/-!
# The C++ objects

`openhyp::Vm` and `openhyp::Vcpu` over the calls of the library: an object owns a VM or a
vCPU, hands it on by a move, and ends it in its destructor.  A program's objects by their
names, with the process under them; a step makes, ends, moves or uses one of them.
-/

set_option autoImplicit false

namespace OpenHypervisor

abbrev ObjName := Nat

def kInvalid : Nat := 2 ^ 64 - 1

structure VcpuObject where
  id : Nat := kInvalid
  /-- `exit_`, by the slot whose record it points to. -/
  exit : Option VcpuId := none

structure Program where
  process : Process := {}
  /-- `alive_` of each `Vm` there is. -/
  vms : ObjName → Option Bool := fun _ => none
  vcpus : ObjName → Option VcpuObject := fun _ => none

inductive ObjectCall where
  | vmMake (o : ObjName) (config : Option VmConfig) (answer : HvReturn)
      (spaces : Nat → SpaceAnswer)
  | vmEnd (o : ObjName) (answer : HvReturn)
  /-- `Vm(Vm&&)` and `Vm::operator=`. -/
  | vmMove (o source : ObjName)
  | vmAssign (o source : ObjName)
  | vcpuMake (o : ObjName) (trap : CreateTrap) (rollback : HvReturn) (noNestedSpace : Bool)
  | vcpuEnd (o : ObjName) (answer : HvReturn)
  | vcpuMove (o source : ObjName)
  | vcpuAssign (o source : ObjName)
  | memory (o : ObjName) (call : MemCall) (answer : HvReturn) (nested : Nat → HvReturn)
  | method (o : ObjName) (work : VcpuWork)
  | exitVcpus (ids : List Nat) (answer : HvReturn)

namespace Program

variable (P : Program)

/-- `Vm::Vm`: a refusal is thrown and leaves no object. -/
def vmMake (o : ObjName) (config : Option VmConfig) (answer : HvReturn)
    (spaces : Nat → SpaceAnswer) : Program :=
  let made := P.process.vmCreate config answer spaces
  if made.1 ≠ hvSuccess then { P with process := made.2 }
  else { P with process := made.2, vms := Function.update P.vms o (some true) }

/-- `Vm::~Vm`: what `hv_vm_destroy` answers is dropped. -/
def vmEnd (o : ObjName) (alive : Bool) (answer : HvReturn) : Program :=
  { P with
    process := if alive then (P.process.vmDestroy answer).2 else P.process
    vms := Function.update P.vms o none }

/-- `Vcpu::Vcpu`: the id and the exit record are those `hv_vcpu_create` hands out. -/
def vcpuMake (t : Thread) (o : ObjName) (call : CreateCall) : Program :=
  let made := P.process.vcpuCreate t call
  if made.1 ≠ hvSuccess then { P with process := made.2 }
  else
    match P.process.createTarget t call.outs with
    | .error _ => { P with process := made.2 }
    | .ok i => { P with
        process := made.2
        vcpus := Function.update P.vcpus o (some { id := i, exit := some i }) }

def vcpuEnd (t : Thread) (o : ObjName) (object : VcpuObject) (answer : HvReturn) : Program :=
  { P with
    process :=
      if object.id ≠ kInvalid then (P.process.vcpuDestroy t object.id answer).2 else P.process
    vcpus := Function.update P.vcpus o none }

def step (P : Program) : Thread × ObjectCall → Option Program
  | (_, .vmMake o config answer spaces) =>
      match P.vms o with
      | some _ => none
      | none => some (P.vmMake o config answer spaces)
  | (_, .vmEnd o answer) =>
      match P.vms o with
      | none => none
      | some alive => some (P.vmEnd o alive answer)
  | (_, .vmMove o source) =>
      match P.vms o, P.vms source with
      | none, some alive => some { P with
          vms := Function.update (Function.update P.vms o (some alive)) source (some false) }
      | _, _ => none
  | (_, .vmAssign o source) =>
      match P.vms o, P.vms source with
      | some mine, some alive => some { P with
          vms := Function.update (Function.update P.vms o (some alive)) source (some mine) }
      | _, _ => none
  | (t, .vcpuMake o trap rollback noNestedSpace) =>
      match P.vcpus o with
      | some _ => none
      | none => some (P.vcpuMake t o
          { trap := trap, rollback := rollback, noNestedSpace := noNestedSpace })
  | (t, .vcpuEnd o answer) =>
      match P.vcpus o with
      | none => none
      | some object => some (P.vcpuEnd t o object answer)
  | (_, .vcpuMove o source) =>
      match P.vcpus o, P.vcpus source with
      | none, some given => some { P with
          vcpus := Function.update (Function.update P.vcpus o (some given)) source
            (some { given with id := kInvalid }) }
      | _, _ => none
  | (_, .vcpuAssign o source) =>
      match P.vcpus o, P.vcpus source with
      | some mine, some given => some { P with
          vcpus := Function.update (Function.update P.vcpus o (some given)) source (some mine) }
      | _, _ => none
  | (_, .memory o call answer nested) =>
      match P.vms o with
      | none => none
      | some _ => some { P with process := (P.process.memory call answer nested).2 }
  | (t, .method o work) =>
      match P.vcpus o with
      | none => none
      | some object => some { P with process := P.process.work t object.id work }
  | (_, .exitVcpus ids _) =>
      some { P with process := { P.process with slots := hvVcpusExit ids P.process.slots } }

end Program

/-! ## What the objects hold -/

def slotOf (id : Nat) : Option VcpuId :=
  if small : id < kMaxVcpuIds then some ⟨id, small⟩ else none

def heldVcpu (object : Option VcpuObject) : Option VcpuId :=
  object.bind fun object => slotOf object.id

def heldVm (object : Option Bool) : Option Unit :=
  object.bind fun alive => if alive then some () else none

theorem heldVcpu_made (i : VcpuId) (exit : Option VcpuId) :
    heldVcpu (some { id := i, exit := exit }) = some i := dif_pos i.isLt

theorem heldVcpu_invalid {object : VcpuObject} (invalid : object.id = kInvalid) :
    heldVcpu (some object) = none := by
  have large : ¬ kInvalid < kMaxVcpuIds := by decide
  rw [heldVcpu, Option.bind_some, slotOf, invalid, dif_neg large]

def Program.vcpuOf (P : Program) : ObjName → Option VcpuId := heldVcpu ∘ P.vcpus

def Program.vmOf (P : Program) : ObjName → Option Unit := heldVm ∘ P.vms

section Held

variable (P : Program) {o source : ObjName} {object given : VcpuObject}

theorem Program.vcpuOf_none (free : P.vcpus o = none) : P.vcpuOf o = none := by
  rw [vcpuOf, Function.comp_apply, free]
  rfl

theorem Program.vcpuOf_some (there : P.vcpus o = some object) :
    P.vcpuOf o = heldVcpu (some object) := by
  rw [vcpuOf, Function.comp_apply, there]

theorem heldVcpu_moved (free : P.vcpus o = none) (there : P.vcpus source = some given) :
    heldVcpu ∘ Function.update (Function.update P.vcpus o (some given)) source
        (some { given with id := kInvalid }) = P.vcpuOf ∘ Equiv.swap o source := by
  have invalid : heldVcpu (some { given with id := kInvalid }) = none := heldVcpu_invalid rfl
  rw [Function.comp_update, Function.comp_update, invalid, ← P.vcpuOf_some there]
  exact Handles.move_eq_swap (P.vcpuOf_none free)

end Held

/-- An object that has no vCPU says so, and one that has points at its exit record. -/
def VcpuObject.Sound (object : VcpuObject) : Prop :=
  object.id = kInvalid ∨ ∃ i : VcpuId, object.id = i.val ∧ object.exit = some i

theorem VcpuObject.Sound.held {object : VcpuObject} (sound : object.Sound)
    (named : object.id ≠ kInvalid) :
    ∃ i : VcpuId, object = { id := i, exit := some i } ∧ heldVcpu (some object) = some i := by
  obtain none | ⟨i, id, exit⟩ := sound
  · exact absurd none named
  · obtain ⟨_, _⟩ := object
    cases id
    cases exit
    exact ⟨i, rfl, heldVcpu_made i _⟩

/-- Each vCPU of the table belongs to one object, each object's vCPU is in the table, and no
two objects have the VM. -/
structure ObjectsOwn (P : Program) : Prop where
  vcpus : Handles.Owned P.vcpuOf fun i => (P.process.slots i).used = true
  vms : Handles.Held P.vmOf fun _ => P.process.g.vmAlive = true
  sound : ∀ o object, P.vcpus o = some object → object.Sound

/-- The VM does not end under an object that has a vCPU. -/
def VmOutlives (P : Program) (act : Thread × ObjectCall) (_ : Program) : Prop :=
  match act.2 with
  | .vmEnd o answer => P.vms o = some true → answer = hvSuccess → ∀ v, P.vcpuOf v = none
  | _ => True

namespace Process

variable (p : Process)

theorem memory_slots (call : MemCall) (answer : HvReturn) (nested : Nat → HvReturn) :
    (p.memory call answer nested).2.slots = p.slots := by
  unfold memory
  simp only
  split <;> rfl

theorem vmCreate_slots (config : Option VmConfig) (answer : HvReturn)
    (spaces : Nat → SpaceAnswer) : (p.vmCreate config answer spaces).2.slots = p.slots := by
  unfold vmCreate
  simp only
  split <;> rfl

end Process

namespace ObjectsOwn

variable {P : Program}

theorem start : ObjectsOwn {} where
  vcpus := .empty fun _ live => by cases live
  vms := .empty _
  sound := nofun

theorem of_process (own : ObjectsOwn P) {p : Process}
    (used : ∀ i, (p.slots i).used = (P.process.slots i).used)
    (alive : p.g.vmAlive = P.process.g.vmAlive) : ObjectsOwn { P with process := p } where
  vcpus := by
    refine ⟨⟨own.vcpus.alone, fun h k has => ?_⟩, fun k live => ?_⟩
    · rw [used]
      exact own.vcpus.used h k has
    · rw [used] at live
      exact own.vcpus.covered k live
  vms := ⟨own.vms.alone, fun h k has => alive.trans (own.vms.used h k has)⟩
  sound := own.sound

theorem vmMade (own : ObjectsOwn P) (o : ObjName) (config : Option VmConfig) (answer : HvReturn)
    (spaces : Nat → SpaceAnswer) : ObjectsOwn (P.vmMake o config answer spaces) := by
  by_cases created : P.process.g.vmAlive = false ∧ answer = hvSuccess
  · obtain ⟨dead, rfl⟩ := created
    have made : (P.process.vmCreate config hvSuccess spaces).1 = hvSuccess ∧
        (P.process.vmCreate config hvSuccess spaces).2.g.vmAlive = true := by
      unfold Process.vmCreate hvVmCreate
      simp [dead]
    obtain ⟨success, alive⟩ := made
    rw [Program.vmMake, if_neg (not_not.mpr success)]
    refine ⟨?_, ?_, own.sound⟩
    · show Handles.Owned P.vcpuOf fun i =>
        ((P.process.vmCreate config hvSuccess spaces).2.slots i).used = true
      rw [P.process.vmCreate_slots]
      exact own.vcpus
    · have fresh : ¬ P.process.g.vmAlive = true := by simp [dead]
      show Handles.Held (heldVm ∘ Function.update P.vms o (some true)) _
      rw [Function.comp_update]
      exact own.vms.acquire fresh alive fun _ _ => alive
  · have refused := hvVmCreate_refused config created
    have failed : (P.process.vmCreate config answer spaces).1 ≠ hvSuccess := by
      unfold Process.vmCreate
      simp only [if_pos refused.1]
      exact refused.1
    rw [Program.vmMake, if_pos failed, Process.vmCreate_refused created]
    exact own

theorem vmEnded (own : ObjectsOwn P) {o : ObjName} {alive : Bool} (there : P.vms o = some alive)
    {answer : HvReturn}
    (outlives : alive = true → answer = hvSuccess → ∀ v, P.vcpuOf v = none) :
    ObjectsOwn (P.vmEnd o alive answer) := by
  have vms : (P.vmEnd o alive answer).vmOf = Function.update P.vmOf o none :=
    Function.comp_update heldVm P.vms o none
  cases alive with
  | false =>
      refine ⟨own.vcpus, ?_, own.sound⟩
      rw [vms]
      exact own.vms.release fun x k _ has => own.vms.used x k has
  | true =>
      have mine : P.vmOf o = some () := by
        rw [Program.vmOf, Function.comp_apply, there]
        rfl
      have living : P.process.g.vmAlive = true := own.vms.used o () mine
      by_cases success : answer = hvSuccess
      · subst success
        have ended : (P.vmEnd o true hvSuccess).process = _ :=
          congrArg Prod.snd (Process.vmDestroy_accepted living)
        have empty : P.vcpuOf = fun _ => none := funext (outlives rfl rfl)
        refine ⟨?_, ?_, own.sound⟩
        · show Handles.Owned P.vcpuOf _
          rw [empty, ended]
          exact .empty fun _ used => by cases used
        · rw [vms]
          refine own.vms.release fun x k other has => ?_
          exact absurd (own.vms.alone x o () has mine) other
      · have kept : (P.vmEnd o true answer).process = P.process :=
          Process.vmDestroy_refused fun accepted => success accepted.2
        refine ⟨?_, ?_, own.sound⟩
        · rw [kept]
          exact own.vcpus
        · rw [vms, kept]
          exact own.vms.release fun x k _ has => own.vms.used x k has

theorem vcpuMake_cases (P : Program) (t : Thread) (o : ObjName) (call : CreateCall) :
    (∃ p : Process, P.vcpuMake t o call = { P with process := p } ∧ p.g = P.process.g ∧
        p.slots = P.process.slots) ∨
      ∃ i, P.process.createTarget t call.outs = .ok i ∧ P.vcpuMake t o call = { P with
        process := P.process.accepted t call i
        vcpus := Function.update P.vcpus o (some { id := i, exit := some i }) } := by
  have outcome := P.process.vcpuCreate_outcome t call
  have failure : hvError ≠ hvSuccess := by decide
  unfold Program.vcpuMake
  generalize P.process.vcpuCreate t call = answer at outcome ⊢
  cases outcome with
  | refused rc failure _ => exact Or.inl ⟨_, if_pos failure, rfl, rfl⟩
  | mismatched i _ _ _ => exact Or.inl ⟨_, if_pos failure, rfl, rfl⟩
  | made i target _ _ =>
      refine Or.inr ⟨i, target, ?_⟩
      simp only [target, ne_eq, not_true_eq_false, if_false]

theorem vcpuMade (own : ObjectsOwn P) (t : Thread) {o : ObjName} (free : P.vcpus o = none)
    (call : CreateCall) : ObjectsOwn (P.vcpuMake t o call) := by
  obtain ⟨p, made, globals, slots⟩ | ⟨i, target, made⟩ := vcpuMake_cases P t o call
  · rw [made]
    exact own.of_process (fun i => by rw [slots]) (by rw [globals])
  · obtain ⟨-, -, unused⟩ := Process.createTarget_ok target
    have empty := P.vcpuOf_none free
    rw [made]
    refine ⟨?_, own.vms, fun v object found => ?_⟩
    · show Handles.Owned (heldVcpu ∘ Function.update P.vcpus o _) _
      rw [Function.comp_update, heldVcpu_made]
      refine own.vcpus.acquire empty (by simp [unused]) fun j => ?_
      show (Function.update P.process.slots i _ j).used = true ↔ _
      by_cases here : j = i
      · rw [here, Function.update_self]
        exact iff_of_true rfl (Or.inl rfl)
      · rw [Function.update_of_ne here]
        exact (or_iff_right here).symm
    · by_cases here : v = o
      · subst here
        have new : some object = some { id := i, exit := some i } :=
          found.symm.trans (Function.update_self ..)
        cases new
        exact Or.inr ⟨i, rfl, rfl⟩
      · exact own.sound v object ((Function.update_of_ne here _ P.vcpus).symm.trans found)

theorem vcpuEnded (own : ObjectsOwn P) (t : Thread) {o : ObjName} {object : VcpuObject}
    (there : P.vcpus o = some object) (answer : HvReturn) :
    ObjectsOwn (P.vcpuEnd t o object answer) := by
  have vcpus : (P.vcpuEnd t o object answer).vcpuOf = Function.update P.vcpuOf o none :=
    Function.comp_update heldVcpu P.vcpus o none
  have sound : ∀ v x, (P.vcpuEnd t o object answer).vcpus v = some x → x.Sound := by
    intro v x found
    by_cases here : v = o
    · subst here
      have gone : Function.update P.vcpus v none v = some x := found
      rw [Function.update_self] at gone
      cases gone
    · exact own.sound v x ((Function.update_of_ne here _ P.vcpus).symm.trans found)
  by_cases named : object.id = kInvalid
  · have kept : (P.vcpuEnd t o object answer).process = P.process := if_neg (not_not.mpr named)
    have none : P.vcpuOf o = none := (P.vcpuOf_some there).trans (heldVcpu_invalid named)
    refine ⟨?_, ?_, sound⟩
    · rw [vcpus, kept, ← none, Function.update_eq_self]
      exact own.vcpus
    · rw [kept]
      exact own.vms
  · obtain ⟨i, rfl, held⟩ := (own.sound o object there).held named
    have mine : P.vcpuOf o = some i := (P.vcpuOf_some there).trans held
    have live := own.vcpus.used o i mine
    have gone : (P.vcpuEnd t o { id := i, exit := some i } answer).process =
        P.process.gone t i answer := by
      rw [Program.vcpuEnd, if_pos named, Process.vcpuDestroy_found t answer
        (findVcpu_live P.process.slots live)]
    refine ⟨?_, ?_, sound⟩
    · rw [vcpus, gone]
      refine own.vcpus.release mine fun j => ?_
      by_cases here : j = i
      · subst here
        rw [P.process.gone_slot]
        exact iff_of_false (fun used => by cases used) fun both => both.1 rfl
      · rw [P.process.gone_slot_other t i j answer here]
        exact (and_iff_right here).symm
    · rw [gone]
      exact own.vms

theorem vcpuMoved (own : ObjectsOwn P) {o source : ObjName} {given : VcpuObject}
    (free : P.vcpus o = none) (there : P.vcpus source = some given) :
    ObjectsOwn { P with
      vcpus := Function.update (Function.update P.vcpus o (some given)) source
        (some { given with id := kInvalid }) } where
  vcpus := by
    show Handles.Owned (heldVcpu ∘ _) _
    rw [heldVcpu_moved P free there]
    exact own.vcpus.permute _
  vms := own.vms
  sound := by
    intro v object found
    by_cases atSource : v = source
    · subst atSource
      have new : some { given with id := kInvalid } = some object :=
        (Function.update_self v _ _).symm.trans found
      cases new
      exact Or.inl rfl
    · have before : Function.update P.vcpus o (some given) v = some object :=
        (Function.update_of_ne atSource _ _).symm.trans found
      by_cases atDest : v = o
      · subst atDest
        rw [Function.update_self] at before
        cases before
        exact own.sound source given there
      · exact own.sound v object ((Function.update_of_ne atDest _ P.vcpus).symm.trans before)

theorem vcpuAssigned (own : ObjectsOwn P) {o source : ObjName} {mine given : VcpuObject}
    (here : P.vcpus o = some mine) (there : P.vcpus source = some given) :
    ObjectsOwn { P with
      vcpus := Function.update (Function.update P.vcpus o (some given)) source (some mine) } := by
  rw [← here, ← there, ← Equiv.comp_swap_eq_update]
  exact ⟨own.vcpus.permute _, own.vms, fun v object found => own.sound _ object found⟩

theorem vmMoved (own : ObjectsOwn P) {o source : ObjName} {alive : Bool}
    (free : P.vms o = none) (there : P.vms source = some alive) :
    ObjectsOwn { P with
      vms := Function.update (Function.update P.vms o (some alive)) source (some false) } where
  vcpus := own.vcpus
  vms := by
    have empty : P.vmOf o = none := by
      rw [Program.vmOf, Function.comp_apply, free]
      rfl
    have has : heldVm (some alive) = P.vmOf source := by
      rw [Program.vmOf, Function.comp_apply, there]
    have invalid : heldVm (some false) = none := rfl
    show Handles.Held (heldVm ∘ Function.update _ source _) _
    rw [Function.comp_update, Function.comp_update, invalid, has]
    show Handles.Held (Function.update (Function.update P.vmOf o _) source none) _
    rw [Handles.move_eq_swap empty]
    exact own.vms.permute _
  sound := own.sound

theorem vmAssigned (own : ObjectsOwn P) {o source : ObjName} {mine alive : Bool}
    (here : P.vms o = some mine) (there : P.vms source = some alive) :
    ObjectsOwn { P with
      vms := Function.update (Function.update P.vms o (some alive)) source (some mine) } := by
  rw [← here, ← there, ← Equiv.comp_swap_eq_update]
  exact ⟨own.vcpus, own.vms.permute _, own.sound⟩

theorem step {Q : Program} {act : Thread × ObjectCall} (taken : P.step act = some Q)
    (outlives : VmOutlives P act Q) (own : ObjectsOwn P) : ObjectsOwn Q := by
  obtain ⟨t, call⟩ := act
  cases call with
  | vmMake o config answer spaces =>
      simp only [Program.step] at taken
      split at taken <;> cases taken
      exact own.vmMade o config answer spaces
  | vmEnd o answer =>
      simp only [Program.step] at taken
      split at taken <;> cases taken
      rename_i alive there
      exact own.vmEnded there fun living success => outlives (living ▸ there) success
  | vmMove o source =>
      simp only [Program.step] at taken
      split at taken <;> cases taken
      rename_i free there
      exact own.vmMoved free there
  | vmAssign o source =>
      simp only [Program.step] at taken
      split at taken <;> cases taken
      rename_i here there
      exact own.vmAssigned here there
  | vcpuMake o trap rollback noNestedSpace =>
      simp only [Program.step] at taken
      split at taken <;> cases taken
      rename_i free
      exact own.vcpuMade t free _
  | vcpuEnd o answer =>
      simp only [Program.step] at taken
      split at taken <;> cases taken
      rename_i there
      exact own.vcpuEnded t there answer
  | vcpuMove o source =>
      simp only [Program.step] at taken
      split at taken <;> cases taken
      rename_i free there
      exact own.vcpuMoved free there
  | vcpuAssign o source =>
      simp only [Program.step] at taken
      split at taken <;> cases taken
      rename_i here there
      exact own.vcpuAssigned here there
  | memory o call answer nested =>
      simp only [Program.step] at taken
      split at taken <;> cases taken
      have same := P.process.memory_same call answer nested
      exact own.of_process (fun i => by rw [P.process.memory_slots]) same.1.alive
  | method o work =>
      simp only [Program.step] at taken
      split at taken <;> cases taken
      exact own.of_process (fun i => P.process.work_used i) (P.process.work_same t _ work).1.alive
  | exitVcpus ids answer =>
      cases taken
      exact own.of_process (fun i => hvVcpusExit_used ids P.process.slots i) rfl

/-- What the table is to the objects after a step says whether the VM outlived them. -/
theorem own_iff {Q : Program} {act : Thread × ObjectCall} (taken : P.step act = some Q)
    (own : ObjectsOwn P) : ObjectsOwn Q ↔ VmOutlives P act Q := by
  refine ⟨fun after => ?_, fun outlives => own.step taken outlives⟩
  obtain ⟨t, call⟩ := act
  cases call with
  | vmEnd o answer =>
      intro there success v
      simp only [Program.step, there, Option.some.injEq] at taken
      subst success taken
      have mine : P.vmOf o = some () := by
        rw [Program.vmOf, Function.comp_apply, there]
        rfl
      have ended : (P.vmEnd o true hvSuccess).process = _ :=
        congrArg Prod.snd (Process.vmDestroy_accepted (own.vms.used o () mine))
      by_contra has
      obtain ⟨i, has⟩ := Option.ne_none_iff_exists'.mp has
      have live := after.vcpus.used v i has
      rw [ended] at live
      cases live
  | _ => trivial

end ObjectsOwn

/-- Over any program that uses the objects, from any threads, each vCPU belongs to one
object as long as no VM ends under one, and no longer. -/
theorem objects_own_iff (word : List (Thread × ObjectCall)) :
    Runs.Along Program.step (fun _ _ Q => ObjectsOwn Q) {} word ↔
      Runs.Along Program.step VmOutlives {} word := by
  have agree : ∀ P act Q, Program.step P act = some Q → ObjectsOwn P →
      (ObjectsOwn Q ↔ VmOutlives P act Q) := fun _ _ _ taken own => own.own_iff taken
  have preserved : ∀ P act Q, Program.step P act = some Q → VmOutlives P act Q →
      ObjectsOwn P → ObjectsOwn Q := fun _ _ _ taken outlives own => own.step taken outlives
  exact Runs.along_iff_of_invariant ObjectsOwn agree preserved word .start

/-! ## Objects as values

The same program over a state without a table: an object is the vCPU it has, by its number
and what its slot holds. -/

abbrev Values := ObjName → Option (VcpuId × VcpuSlot)

def numbered (slots : VcpuTable) (i : VcpuId) : VcpuId × VcpuSlot := (i, slots i)

def Program.values (P : Program) : Values := Handles.valueOf P.vcpuOf (numbered P.process.slots)

def kicked (ids : List Nat) (v : VcpuId × VcpuSlot) : VcpuId × VcpuSlot :=
  (v.1, if (∀ id ∈ ids, id < kMaxVcpuIds) ∧ v.1.val ∈ ids then { v.2 with exitRequested := true }
    else v.2)

inductive ValueStep (g : Globals) (V : Values) : ObjectCall → Values → Prop
  | vmMake o config answer spaces : ValueStep g V (.vmMake o config answer spaces) V
  | vmEnd o answer : ValueStep g V (.vmEnd o answer) V
  | vmMove o source : ValueStep g V (.vmMove o source) V
  | vmAssign o source : ValueStep g V (.vmAssign o source) V
  | memory o call answer nested : ValueStep g V (.memory o call answer nested) V
  | threw o trap rollback noNestedSpace :
      ValueStep g V (.vcpuMake o trap rollback noNestedSpace) V
  | made o trap rollback noNestedSpace (i : VcpuId) (slot : VcpuSlot) (free : V o = none) :
      ValueStep g V (.vcpuMake o trap rollback noNestedSpace)
        (Function.update V o (some (i, createdSlot g i trap.page slot)))
  | ended o answer : ValueStep g V (.vcpuEnd o answer) (Function.update V o none)
  | moved o source (free : V o = none) :
      ValueStep g V (.vcpuMove o source) (V ∘ Equiv.swap o source)
  | assigned o source : ValueStep g V (.vcpuAssign o source) (V ∘ Equiv.swap source o)
  | refused o work : ValueStep g V (.method o work) V
  | worked o work (i : VcpuId) (slot : VcpuSlot) (has : V o = some (i, slot)) :
      ValueStep g V (.method o work) (Function.update V o (some (i, (work.serve ⟨g, slot⟩).s)))
  | exited ids answer :
      ValueStep g V (.exitVcpus ids answer) fun o => (V o).map (kicked ids)

theorem numbered_update (slots : VcpuTable) (i : VcpuId) (slot : VcpuSlot) :
    numbered (Function.update slots i slot) = Function.update (numbered slots) i (i, slot) := by
  funext j
  by_cases here : j = i
  · subst here
    simp [numbered]
  · simp [numbered, here]

theorem Program.values_none (P : Program) {o : ObjName} (free : P.vcpus o = none) :
    P.values o = none := by
  rw [values, Handles.valueOf, P.vcpuOf_none free]
  rfl

theorem Program.values_some {P : Program} {o : ObjName} {i : VcpuId} (has : P.vcpuOf o = some i) :
    P.values o = some (i, P.process.slots i) := by
  rw [values, Handles.valueOf, has]
  rfl

namespace ObjectsOwn

variable {P Q : Program} {t : Thread}

theorem vmEnd_values {o : ObjName} {alive : Bool} {answer : HvReturn}
    (there : P.vms o = some alive)
    (outlives : P.vms o = some true → answer = hvSuccess → ∀ v, P.vcpuOf v = none) :
    (P.vmEnd o alive answer).values = P.values := by
  by_cases ends : alive = true ∧ answer = hvSuccess
  · have empty : P.vcpuOf = fun _ => none := funext (outlives (ends.1 ▸ there) ends.2)
    show Handles.valueOf P.vcpuOf _ = Handles.valueOf P.vcpuOf _
    rw [empty]
    rfl
  · have kept : (P.vmEnd o alive answer).process = P.process := by
      cases alive with
      | false => rfl
      | true =>
          exact Process.vmDestroy_refused fun accepted => ends ⟨rfl, accepted.2⟩
    show Handles.valueOf P.vcpuOf (numbered (P.vmEnd o alive answer).process.slots) = P.values
    rw [kept]
    rfl

theorem vcpuMake_value (own : ObjectsOwn P) {o : ObjName} (free : P.vcpus o = none)
    (trap : CreateTrap) (rollback : HvReturn) (noNestedSpace : Bool) :
    ValueStep P.process.g P.values (.vcpuMake o trap rollback noNestedSpace)
      (P.vcpuMake t o
        { trap := trap, rollback := rollback, noNestedSpace := noNestedSpace }).values := by
  obtain ⟨p, made, -, slots⟩ | ⟨i, target, made⟩ := vcpuMake_cases P t o
    { trap := trap, rollback := rollback, noNestedSpace := noNestedSpace }
  · rw [made]
    have same : Program.values { P with process := p } = P.values := by
      show Handles.valueOf P.vcpuOf (numbered p.slots) = P.values
      rw [slots]
      rfl
    rw [same]
    exact .threw o trap rollback noNestedSpace
  · obtain ⟨-, -, unused⟩ := Process.createTarget_ok target
    have fresh : ¬ (P.process.slots i).used = true := by simp [unused]
    have none := P.values_none free
    have value := own.vcpus.toHeld.valueOf_acquire (h := o) fresh (numbered P.process.slots)
      (i, createdSlot P.process.g i trap.page (P.process.slots i))
    rw [made]
    rw [← numbered_update] at value
    convert ValueStep.made o trap rollback noNestedSpace i (P.process.slots i) none using 1
    show Handles.valueOf (heldVcpu ∘ Function.update P.vcpus o _) _ = _
    rw [Function.comp_update, heldVcpu_made]
    exact value

theorem vcpuEnd_values (own : ObjectsOwn P) {o : ObjName} {object : VcpuObject}
    (there : P.vcpus o = some object) (answer : HvReturn) :
    (P.vcpuEnd t o object answer).values = Function.update P.values o none := by
  have vcpus : (P.vcpuEnd t o object answer).vcpuOf = Function.update P.vcpuOf o none :=
    Function.comp_update heldVcpu P.vcpus o none
  by_cases named : object.id = kInvalid
  · have kept : (P.vcpuEnd t o object answer).process = P.process := if_neg (not_not.mpr named)
    have none : P.vcpuOf o = none := (P.vcpuOf_some there).trans (heldVcpu_invalid named)
    have nothing : P.values o = Option.none := by
      rw [Program.values, Handles.valueOf, none]
      rfl
    rw [← nothing, Function.update_eq_self, Program.values, kept, vcpus, ← none,
      Function.update_eq_self]
    rfl
  · obtain ⟨i, rfl, held⟩ := (own.sound o object there).held named
    have mine : P.vcpuOf o = some i := (P.vcpuOf_some there).trans held
    have live := own.vcpus.used o i mine
    have gone : (P.vcpuEnd t o { id := i, exit := some i } answer).process =
        P.process.gone t i answer := by
      rw [Program.vcpuEnd, if_pos named, Process.vcpuDestroy_found t answer
        (findVcpu_live P.process.slots live)]
    have slots : (P.process.gone t i answer).slots = Function.update P.process.slots i {} := rfl
    rw [Program.values, vcpus, gone, slots, numbered_update]
    exact own.vcpus.toHeld.valueOf_release mine _ _

theorem method_value (own : ObjectsOwn P) {o : ObjName} {object : VcpuObject}
    (there : P.vcpus o = some object) (work : VcpuWork) :
    ValueStep P.process.g P.values (.method o work)
      (Program.values { P with process := P.process.work t object.id work }) := by
  cases owned : ownedVcpu P.process.slots (P.process.current t) object.id with
  | none =>
      rw [Process.work_refused owned]
      exact .refused o work
  | some i =>
      have mine : P.vcpuOf o = some i := by
        rw [P.vcpuOf_some there]
        unfold ownedVcpu at owned
        split at owned
        · cases owned
        · rename_i found
          split at owned
          · cases owned
          · cases owned
            have named := findVcpu_val found
            rw [heldVcpu, Option.bind_some, slotOf, ← named, dif_pos i.isLt]
      have value := own.vcpus.toHeld.valueOf_update mine (numbered P.process.slots)
        (i, (work.serve ⟨P.process.g, P.process.slots i⟩).s)
      rw [← numbered_update] at value
      have slots : (P.process.work t object.id work).slots =
          Function.update P.process.slots i (work.serve ⟨P.process.g, P.process.slots i⟩).s := by
        unfold Process.work
        rw [owned]
      have after : Program.values { P with process := P.process.work t object.id work } =
          Function.update P.values o
            (some (i, (work.serve ⟨P.process.g, P.process.slots i⟩).s)) := by
        rw [Program.values, slots]
        exact value
      rw [after]
      exact .worked o work i _ (Program.values_some mine)

/-- What a call does to the table is what it does to the values. -/
theorem valueStep {call : ObjectCall} (own : ObjectsOwn P) (taken : P.step (t, call) = some Q)
    (outlives : VmOutlives P (t, call) Q) : ValueStep P.process.g P.values call Q.values := by
  cases call with
  | vmMake o config answer spaces =>
      simp only [Program.step] at taken
      split at taken <;> cases taken
      have slots : (P.vmMake o config answer spaces).process.slots = P.process.slots := by
        rw [← P.process.vmCreate_slots config answer spaces, Program.vmMake]
        split <;> rfl
      have vcpus : (P.vmMake o config answer spaces).vcpuOf = P.vcpuOf := by
        rw [Program.vmMake]
        split <;> rfl
      have values : (P.vmMake o config answer spaces).values = P.values := by
        rw [Program.values, slots, vcpus]
        rfl
      rw [values]
      exact .vmMake o config answer spaces
  | vmEnd o answer =>
      simp only [Program.step] at taken
      split at taken <;> cases taken
      rename_i there
      rw [vmEnd_values there outlives]
      exact .vmEnd o answer
  | vmMove o source =>
      simp only [Program.step] at taken
      split at taken <;> cases taken
      exact .vmMove o source
  | vmAssign o source =>
      simp only [Program.step] at taken
      split at taken <;> cases taken
      exact .vmAssign o source
  | vcpuMake o trap rollback noNestedSpace =>
      simp only [Program.step] at taken
      split at taken <;> cases taken
      rename_i free
      exact own.vcpuMake_value free trap rollback noNestedSpace
  | vcpuEnd o answer =>
      simp only [Program.step] at taken
      split at taken <;> cases taken
      rename_i there
      rw [own.vcpuEnd_values there]
      exact .ended o answer
  | vcpuMove o source =>
      simp only [Program.step] at taken
      split at taken <;> cases taken
      rename_i free there
      show ValueStep _ _ _ (Handles.valueOf (heldVcpu ∘ _) _)
      rw [heldVcpu_moved P free there]
      exact .moved o source (P.values_none free)
  | vcpuAssign o source =>
      simp only [Program.step] at taken
      split at taken <;> cases taken
      rename_i here there
      rw [← here, ← there, ← Equiv.comp_swap_eq_update]
      exact .assigned o source
  | memory o call answer nested =>
      simp only [Program.step] at taken
      split at taken <;> cases taken
      show ValueStep _ _ _ (Handles.valueOf P.vcpuOf (numbered (P.process.memory ..).2.slots))
      rw [P.process.memory_slots call answer nested]
      exact .memory o call answer nested
  | method o work =>
      simp only [Program.step] at taken
      split at taken <;> cases taken
      rename_i there
      exact own.method_value there work
  | exitVcpus ids answer =>
      cases taken
      have kicks : ∀ i, numbered (hvVcpusExit ids P.process.slots) i =
          kicked ids (numbered P.process.slots i) := by
        intro i
        rw [kicked, numbered, numbered, hvVcpusExit]
      have values : Program.values { P with
            process := { P.process with slots := hvVcpusExit ids P.process.slots } } =
          fun o => (P.values o).map (kicked ids) := by
        funext o
        show (P.vcpuOf o).map _ = ((P.vcpuOf o).map _).map _
        rw [Option.map_map]
        exact Option.map_congr fun i _ => kicks i
      rw [values]
      exact .exited ids answer

end ObjectsOwn

/-- As long as no VM ends under an object, the objects are values: a step changes what one
object is by that object's own calls, a move or an exchange takes all of it along, and a new
object takes nothing from another. -/
theorem objects_are_values {word : List (Thread × ObjectCall)}
    (outlives : Runs.Along Program.step VmOutlives {} word) :
    Runs.Along Program.step
      (fun P act Q => ValueStep P.process.g P.values act.2 Q.values) {} word := by
  have preserved : ∀ P act Q, Program.step P act = some Q → VmOutlives P act Q →
      ObjectsOwn P → ObjectsOwn Q := fun _ _ _ taken outlives own => own.step taken outlives
  have valued : ∀ P act Q, Program.step P act = some Q → VmOutlives P act Q →
      ObjectsOwn P → ValueStep P.process.g P.values act.2 Q.values :=
    fun _ _ _ taken outlives own => own.valueStep taken outlives
  exact Runs.along_of_invariant ObjectsOwn preserved valued outlives .start

/-- A VM and a vCPU in one scope; the vCPU's object is handed on before it is used. -/
def movedProgram : List (Thread × ObjectCall) :=
  [(0, .vmMake 0 none hvSuccess fun _ => { asid := 0 }),
    (0, .vcpuMake 1 { page := versionedPage } hvSuccess false), (0, .vcpuMove 2 1),
    (0, .method 2 (.call (.setReg 0 7))), (0, .vcpuEnd 2 hvSuccess), (0, .vcpuEnd 1 hvSuccess),
    (0, .vmEnd 0 hvSuccess)]

theorem objects_are_values_moved : Runs.Along Program.step
    (fun P act Q => ValueStep P.process.g P.values act.2 Q.values) {} movedProgram := by
  refine objects_are_values ?_
  refine fun _ made => ⟨trivial, fun _ given => ⟨trivial, fun _ moved => ⟨trivial,
    fun _ used => ⟨trivial, fun _ ended => ⟨trivial, fun _ left => ⟨trivial,
      fun _ _ => ⟨fun _ _ v => ?_, trivial⟩⟩⟩⟩⟩⟩⟩
  have own := (((((ObjectsOwn.start.step made trivial).step given trivial).step moved
    trivial).step used trivial).step ended trivial).step left trivial
  cases made
  cases given
  cases moved
  cases used
  cases ended
  cases left
  by_contra has
  obtain ⟨i, has⟩ := Option.ne_none_iff_exists'.mp has
  have live := own.vcpus.used v i has
  revert live
  by_cases first : i = vcpu0
  · rw [first]
    exact nofun
  · show (Function.update (Function.update (Function.update (fun _ => ({} : VcpuSlot)) vcpu0 _)
      vcpu0 _) vcpu0 _ i).used = true → False
    rw [Function.update_of_ne first, Function.update_of_ne first, Function.update_of_ne first]
    exact nofun

end OpenHypervisor
