import OpenHypervisor.StorageRuns

/-!
# What one vCPU sees of another

Accesses of several vCPUs in any order, next to the run of one of them alone.
What the function keeps it keeps in the vCPU's own slot, but for two statics: the
capabilities, which are the machine's, and the PSTATE field the host does not
have.
-/

set_option autoImplicit false

namespace OpenHypervisor

/-! ## The statics -/

namespace VcpuView

def withStatics (v : VcpuView) (caps : Option Capabilities) (held : Word) : VcpuView :=
  { v with g := { v.g with nv2Caps := caps, pstateHeld := held } }

end VcpuView

def answerWith (caps : Option Capabilities) (held : Word) (answer : Bool × VcpuView) :
    Bool × VcpuView :=
  (answer.1, answer.2.withStatics caps held)

namespace SysAccess

def IsPstate (a : SysAccess) : Prop :=
  a.op0 = 3 ∧ a.op1 = 3 ∧ a.crn = 4 ∧ a.crm = 2 ∧ a.op2 = 6

def IsCacheId (a : SysAccess) : Prop :=
  a.op0 = 3 ∧ a.crn = 0 ∧ a.crm = 0 ∧
    ((a.op1 = 1 ∧ (a.op2 = 0 ∨ a.op2 = 1)) ∨ (a.op1 = 2 ∧ a.op2 = 0))

instance (a : SysAccess) : Decidable a.IsPstate := inferInstanceAs (Decidable (_ ∧ _))
instance (a : SysAccess) : Decidable a.IsCacheId := inferInstanceAs (Decidable (_ ∧ _))

end SysAccess

/-- A block that neither reads nor writes the statics. -/
def AccessBlock.Blind (block : AccessBlock) (host : Host) (a : SysAccess) : Prop :=
  ∀ v caps held, block host a (v.withStatics caps held) =
    (block host a v).map (answerWith caps held)

section Blind

variable {host : Host} {a : SysAccess} (v : VcpuView) (caps : Option Capabilities) (held : Word)

theorem registerAccess_blind {base other : VcpuView} {value : Word}
    {write writeOther : Word → VcpuView} (same : other = base.withStatics caps held)
    (written : ∀ x, writeOther x = (write x).withStatics caps held) :
    registerAccess a other value writeOther =
      (registerAccess a base value write).map (answerWith caps held) := by
  subst same
  unfold registerAccess
  split
  · rfl
  · simp only [written]
    rfl

theorem amxidrAccess_blind : AccessBlock.Blind amxidrAccess host a := by
  intro v caps held
  unfold amxidrAccess
  split <;> rfl

theorem handoffAccess_blind : AccessBlock.Blind handoffAccess host a := by
  intro v caps held
  unfold handoffAccess
  split <;> rfl

theorem gxfAccess_blind : AccessBlock.Blind gxfAccess host a := by
  intro v caps held
  unfold gxfAccess
  split
  · exact registerAccess_blind caps held rfl fun _ => rfl
  · rfl

theorem counterAccess_blind : AccessBlock.Blind counterAccess host a := by
  intro v caps held
  unfold counterAccess
  split
  · split
    · rfl
    · split <;> rfl
  · rfl

theorem timerAccess_blind : AccessBlock.Blind timerAccess host a := by
  intro v caps held
  unfold timerAccess
  split
  · simp only
    generalize decide (a.crm = 2) = physical
    have base : (if physical = true then (v.withStatics caps held).setCtx
        ((v.withStatics caps held).s.ctx.setBanked 19 0) else v.withStatics caps held) =
        (if physical = true then v.setCtx (v.s.ctx.setBanked 19 0) else v).withStatics caps held := by
      split <;> rfl
    rw [base]
    split
    · exact registerAccess_blind caps held rfl fun _ => rfl
    · split
      · exact registerAccess_blind caps held rfl fun _ => rfl
      · split
        · exact registerAccess_blind caps held rfl fun _ => rfl
        · rfl
  · rfl

theorem gicInterfaceAccess_blind : AccessBlock.Blind gicInterfaceAccess host a := by
  intro v caps held
  unfold gicInterfaceAccess
  split
  · simp only [VcpuView.withStatics]
    split
    · rfl
    · exact registerAccess_blind caps held rfl fun _ => rfl
  · rfl

theorem atAccess_blind : AccessBlock.Blind atAccess host a := by
  intro v caps held
  unfold atAccess
  split <;> rfl

theorem maintenanceAccess_blind : AccessBlock.Blind maintenanceAccess host a := by
  intro v caps held
  unfold maintenanceAccess
  split <;> rfl

theorem gl2Access_blind : AccessBlock.Blind gl2Access host a := by
  intro v caps held
  unfold gl2Access
  split
  · exact registerAccess_blind caps held rfl fun _ => rfl
  · rfl

theorem tmrFiqEnaAccess_blind : AccessBlock.Blind tmrFiqEnaAccess host a := by
  intro v caps held
  unfold tmrFiqEnaAccess
  split
  · exact registerAccess_blind caps held rfl fun _ => rfl
  · rfl

theorem ctrrAccess_blind : AccessBlock.Blind ctrrAccess host a := by
  intro v caps held
  unfold ctrrAccess
  split
  · simp only [VcpuView.withStatics]
    split
    · rfl
    · exact registerAccess_blind caps held rfl fun _ => rfl
  · rfl

theorem ctxTraceAccess_blind : AccessBlock.Blind ctxTraceAccess host a := by
  intro v caps held
  unfold ctxTraceAccess
  split
  · exact registerAccess_blind caps held rfl fun _ => rfl
  · rfl

theorem appleShadowAccess_blind : AccessBlock.Blind appleShadowAccess host a := by
  intro v caps held
  unfold appleShadowAccess
  split
  · split
    · exact registerAccess_blind caps held rfl fun _ => rfl
    · split
      · rfl
      · simp only [VcpuView.withStatics]
        split
        · rfl
        · exact registerAccess_blind caps held rfl fun _ => rfl
  · rfl

theorem nv2RegAccess_blind : AccessBlock.Blind nv2RegAccess host a := by
  intro v caps held
  unfold nv2RegAccess
  split
  · rfl
  · exact registerAccess_blind caps held rfl fun _ => rfl

theorem accessBlocks_blind (noCache : ¬ a.IsCacheId) (noPstate : ¬ a.IsPstate) :
    ∀ block ∈ accessBlocks, AccessBlock.Blind block host a := by
  intro block listed
  simp only [accessBlocks, List.mem_cons, List.not_mem_nil, or_false] at listed
  rcases listed with rfl | rfl | rfl | rfl | rfl | rfl | rfl | rfl | rfl | rfl | rfl | rfl | rfl |
    rfl | rfl | rfl
  · exact amxidrAccess_blind
  · exact handoffAccess_blind
  · exact gxfAccess_blind
  · intro v caps held
    have silent : ∀ v, cacheIdAccess host a v = none := fun v => if_neg noCache
    rw [silent, silent]
    rfl
  · exact counterAccess_blind
  · exact timerAccess_blind
  · exact gicInterfaceAccess_blind
  · exact atAccess_blind
  · exact maintenanceAccess_blind
  · intro v caps held
    have silent : ∀ v, pstateAccess host a v = none := fun v => if_neg noPstate
    rw [silent, silent]
    rfl
  · exact gl2Access_blind
  · exact tmrFiqEnaAccess_blind
  · exact ctrrAccess_blind
  · exact ctxTraceAccess_blind
  · exact appleShadowAccess_blind
  · exact nv2RegAccess_blind

theorem findSome_blind (blocks : List AccessBlock)
    (blind : ∀ block ∈ blocks, AccessBlock.Blind block host a) :
    (blocks.findSome? fun block => block host a (v.withStatics caps held)) =
      (blocks.findSome? fun block => block host a v).map (answerWith caps held) := by
  induction blocks with
  | nil => rfl
  | cons block rest ih =>
      have later := ih fun b member => blind b (List.mem_cons_of_mem block member)
      rw [List.findSome?_cons, List.findSome?_cons, blind block List.mem_cons_self v caps held]
      cases block host a v with
      | none => exact later
      | some answer => rfl

end Blind

/-! ## One access, with two states of the statics -/

/-- The access reads the missing PSTATE field into a register. -/
def SysAccess.ReadsField (a : SysAccess) : Prop := a.IsPstate ∧ a.read = true ∧ a.rt ≠ 31

instance (a : SysAccess) : Decidable a.ReadsField := inferInstanceAs (Decidable (_ ∧ _))

/-- Globals that differ in nothing but the field: the capabilities, asked for or
not, are the machine's. -/
structure Alike (caps : Capabilities) (g other : Globals) : Prop where
  rest : other = { g with nv2Caps := other.nv2Caps, pstateHeld := other.pstateHeld }
  caps : other.nv2Caps.getD caps = g.nv2Caps.getD caps

section Access

variable {host : Host} {esr : Word} {v : VcpuView}

theorem pstate_decides (pstate : (SysAccess.ofEsr esr).IsPstate) {answer : Bool × VcpuView}
    (taken : registerAccess (.ofEsr esr) v v.g.pstateHeld (fun value =>
      { v with g := { v.g with pstateHeld := value } }) = some answer) :
    serviceNv2Access host esr v = answer := by
  have order : accessBlocks = [amxidrAccess, handoffAccess, gxfAccess, cacheIdAccess,
      counterAccess, timerAccess, gicInterfaceAccess, atAccess, maintenanceAccess] ++
      pstateAccess :: accessBlocks.drop 10 := rfl
  have answers : pstateAccess host (.ofEsr esr) v = some answer := by
    rw [← taken]
    exact if_pos pstate
  apply serviceNv2Access_decided _ _ _ order ?_ answers
  obtain ⟨op0, op1, crn, -, -⟩ := pstate
  intro b member
  simp only [List.mem_cons, List.not_mem_nil, or_false] at member
  rcases member with rfl | rfl | rfl | rfl | rfl | rfl | rfl | rfl | rfl
  · simp [amxidrAccess, op1]
  · simp [handoffAccess, SysAccess.IsHandoff, op1]
  · simp [gxfAccess, op1]
  · simp [cacheIdAccess, crn]
  · simp [counterAccess, crn]
  · simp [timerAccess, crn]
  · simp [gicInterfaceAccess, isGicInterfaceReg, op1]
  · simp [atAccess, op0]
  · simp [maintenanceAccess, op0]

theorem cacheId_decides (cache : (SysAccess.ofEsr esr).IsCacheId) {answer : Bool × VcpuView}
    (taken : cacheIdAccess host (.ofEsr esr) v = some answer) :
    serviceNv2Access host esr v = answer := by
  have order : accessBlocks = [amxidrAccess, handoffAccess, gxfAccess] ++
      cacheIdAccess :: accessBlocks.drop 4 := rfl
  apply serviceNv2Access_decided _ _ _ order ?_ taken
  obtain ⟨-, crn, -, -⟩ := cache
  intro b member
  simp only [List.mem_cons, List.not_mem_nil, or_false] at member
  rcases member with rfl | rfl | rfl
  · simp [amxidrAccess, crn]
  · simp [handoffAccess, SysAccess.IsHandoff, crn]
  · simp [gxfAccess, crn]

theorem cacheIdAccess_caps (host : Host) (v : VcpuView) {a : SysAccess} (cache : a.IsCacheId) (held : Word)
    (asked other : Option Capabilities) (kept : Word)
    (same : other.getD host.caps = asked.getD host.caps) :
    ∃ answer, cacheIdAccess host a (v.withStatics asked held) =
        some (answerWith (some (asked.getD host.caps)) held answer) ∧
      cacheIdAccess host a (v.withStatics other kept) =
        some (answerWith (some (asked.getD host.caps)) kept answer) := by
  have blind : ∀ asked held, cacheIdAccess host a (v.withStatics asked held) =
      (cacheIdAccess host a (v.withStatics (some (asked.getD host.caps)) 0)).map
        (answerWith (some (asked.getD host.caps)) held) := by
    intro asked held
    unfold cacheIdAccess
    split
    · simp only
      split
      · exact registerAccess_blind _ held rfl fun _ => rfl
      · split <;> rfl
    · rename_i none
      exact absurd cache none
  have answers : ∃ answer, cacheIdAccess host a
      (v.withStatics (some (asked.getD host.caps)) 0) = some answer := by
    unfold cacheIdAccess registerAccess
    split
    · simp only
      split
      · split <;> exact ⟨_, rfl⟩
      · split <;> exact ⟨_, rfl⟩
    · rename_i none
      exact absurd cache none
  obtain ⟨answer, taken⟩ := answers
  refine ⟨answer, ?_, ?_⟩
  · rw [blind, taken]
    rfl
  · rw [blind, same, taken]
    rfl

theorem serviceNv2Access_blind (host : Host) (v : VcpuView)
    (noCache : ¬ (SysAccess.ofEsr esr).IsCacheId)
    (noPstate : ¬ (SysAccess.ofEsr esr).IsPstate) (caps : Option Capabilities) (held : Word) :
    serviceNv2Access host esr (v.withStatics caps held) =
      answerWith caps held (serviceNv2Access host esr v) := by
  unfold serviceNv2Access
  rw [findSome_blind v caps held accessBlocks (accessBlocks_blind noCache noPstate)]
  cases accessBlocks.findSome? fun block => block host (.ofEsr esr) v with
  | none => rfl
  | some answer => rfl

theorem pstate_read (pstate : (SysAccess.ofEsr esr).IsPstate)
    (read : (SysAccess.ofEsr esr).read = true) :
    serviceNv2Access host esr v = (true,
      (v.setCtx (v.s.ctx.writeRt (SysAccess.ofEsr esr).rt v.g.pstateHeld)).skip) := by
  apply pstate_decides pstate
  unfold registerAccess
  rw [if_pos read]
  rfl

theorem pstate_write (pstate : (SysAccess.ofEsr esr).IsPstate)
    (write : (SysAccess.ofEsr esr).read = false) :
    serviceNv2Access host esr v = (true, VcpuView.skip
      { v with g := { v.g with pstateHeld := v.s.ctx.readRt (SysAccess.ofEsr esr).rt } }) := by
  apply pstate_decides pstate
  unfold registerAccess
  rw [if_neg (by simp [write])]
  rfl

/-- The field is written by its own access and by no other. -/
theorem serviceNv2Access_field (host : Host) (esr : Word) (v : VcpuView) :
    (serviceNv2Access host esr v).2.g.pstateHeld =
      if (SysAccess.ofEsr esr).IsPstate ∧ (SysAccess.ofEsr esr).read = false then
        v.s.ctx.readRt (SysAccess.ofEsr esr).rt
      else v.g.pstateHeld := by
  by_cases pstate : (SysAccess.ofEsr esr).IsPstate
  · cases read : (SysAccess.ofEsr esr).read with
    | true =>
        rw [pstate_read pstate read, if_neg (by simp)]
        rfl
    | false =>
        rw [pstate_write pstate read, if_pos ⟨pstate, rfl⟩]
        rfl
  · rw [if_neg fun both => pstate both.1]
    by_cases cache : (SysAccess.ofEsr esr).IsCacheId
    · obtain ⟨answer, taken, -⟩ := cacheIdAccess_caps host v cache v.g.pstateHeld
        v.g.nv2Caps v.g.nv2Caps 0 rfl
      have whole : serviceNv2Access host esr v = _ := cacheId_decides cache taken
      rw [whole]
      rfl
    · have blind := serviceNv2Access_blind host v cache pstate v.g.nv2Caps
        v.g.pstateHeld
      exact congrArg (fun answer => answer.2.g.pstateHeld) blind

theorem readsField_answer (reads : (SysAccess.ofEsr esr).ReadsField) :
    serviceNv2Access host esr v = (true,
      (v.setCtx (v.s.ctx.writeRt (SysAccess.ofEsr esr).rt v.g.pstateHeld)).skip) :=
  pstate_read reads.1 reads.2.1

/-- But for a read of the field, what is answered and what becomes of the slot does
not depend on the statics. -/
theorem serviceNv2Access_alike (host : Host) (esr : Word) {g other : Globals}
    (alike : Alike host.caps g other)
    (s : VcpuSlot) :
    (serviceNv2Access host esr ⟨other, s⟩).1 = (serviceNv2Access host esr ⟨g, s⟩).1 ∧
    Alike host.caps (serviceNv2Access host esr ⟨g, s⟩).2.g
      (serviceNv2Access host esr ⟨other, s⟩).2.g ∧
    (¬ (SysAccess.ofEsr esr).ReadsField →
      (serviceNv2Access host esr ⟨other, s⟩).2.s = (serviceNv2Access host esr ⟨g, s⟩).2.s) := by
  have seen : VcpuView.mk other s =
      VcpuView.withStatics ⟨g, s⟩ other.nv2Caps other.pstateHeld := by
    simp only [VcpuView.withStatics]
    rw [← alike.rest]
  by_cases pstate : (SysAccess.ofEsr esr).IsPstate
  · have whole : ∀ v : VcpuView, serviceNv2Access host esr v =
        if (SysAccess.ofEsr esr).read then
          (true, (v.setCtx (v.s.ctx.writeRt (SysAccess.ofEsr esr).rt v.g.pstateHeld)).skip)
        else (true, VcpuView.skip { v with g := { v.g with
          pstateHeld := v.s.ctx.readRt (SysAccess.ofEsr esr).rt } }) := by
      intro v
      apply pstate_decides pstate
      unfold registerAccess answered
      split <;> rfl
    rw [whole, whole]
    split
    · rename_i read
      refine ⟨rfl, alike, fun noRead => ?_⟩
      have unused : (SysAccess.ofEsr esr).rt = 31 := by
        by_contra used
        exact noRead ⟨pstate, read, used⟩
      simp only [Ctx.writeRt, if_pos unused]
      rfl
    · refine ⟨rfl, ⟨?_, alike.caps⟩, fun _ => rfl⟩
      exact congrArg (fun v : VcpuView => { v.g with
        pstateHeld := s.ctx.readRt (SysAccess.ofEsr esr).rt }) seen
  · by_cases cache : (SysAccess.ofEsr esr).IsCacheId
    · obtain ⟨answer, here, there⟩ := cacheIdAccess_caps host ⟨g, s⟩ cache
        g.pstateHeld g.nv2Caps other.nv2Caps other.pstateHeld alike.caps
      have left : serviceNv2Access host esr ⟨g, s⟩ = _ := cacheId_decides cache here
      rw [← seen] at there
      have right : serviceNv2Access host esr ⟨other, s⟩ = _ := cacheId_decides cache there
      rw [left, right]
      exact ⟨rfl, ⟨rfl, rfl⟩, fun _ => rfl⟩
    · have own : serviceNv2Access host esr ⟨g, s⟩ = answerWith g.nv2Caps g.pstateHeld
          (serviceNv2Access host esr ⟨g, s⟩) :=
        serviceNv2Access_blind host ⟨g, s⟩ cache pstate g.nv2Caps g.pstateHeld
      rw [seen, serviceNv2Access_blind host _ cache pstate]
      refine ⟨rfl, ⟨rfl, ?_⟩, fun _ => rfl⟩
      have caps : (serviceNv2Access host esr ⟨g, s⟩).2.g.nv2Caps = g.nv2Caps :=
        congrArg (fun answer => answer.2.g.nv2Caps) own
      rw [caps]
      exact alike.caps

theorem serviceNv2Access_nv2Caps (host : Host) (esr : Word) (v : VcpuView) :
    (serviceNv2Access host esr v).2.g.nv2Caps =
      if (SysAccess.ofEsr esr).IsCacheId then some (v.g.nv2Caps.getD host.caps)
      else v.g.nv2Caps := by
  by_cases cache : (SysAccess.ofEsr esr).IsCacheId
  · rw [if_pos cache]
    obtain ⟨answer, taken, -⟩ := cacheIdAccess_caps host v cache v.g.pstateHeld
      v.g.nv2Caps v.g.nv2Caps 0 rfl
    have whole : serviceNv2Access host esr v = _ := cacheId_decides cache taken
    rw [whole]
    rfl
  · rw [if_neg cache]
    by_cases pstate : (SysAccess.ofEsr esr).IsPstate
    · cases read : (SysAccess.ofEsr esr).read with
      | true =>
          rw [pstate_read pstate read]
          rfl
      | false =>
          rw [pstate_write pstate read]
          rfl
    · have blind := serviceNv2Access_blind host v cache pstate v.g.nv2Caps v.g.pstateHeld
      exact congrArg (fun answer => answer.2.g.nv2Caps) blind

/-- Asked for or not, the capabilities an access would be answered from are the
ones it would have been answered from before. -/
theorem serviceNv2Access_caps (host : Host) (esr : Word) (v : VcpuView) :
    (serviceNv2Access host esr v).2.g.nv2Caps.getD host.caps = v.g.nv2Caps.getD host.caps := by
  rw [serviceNv2Access_nv2Caps]
  split <;> rfl

end Access

theorem Alike.refl (caps : Capabilities) (g : Globals) : Alike caps g g := ⟨rfl, rfl⟩

theorem Alike.symm {caps : Capabilities} {g other : Globals} (alike : Alike caps g other) :
    Alike caps other g := by
  refine ⟨?_, alike.caps.symm⟩
  rw [alike.rest]

theorem Alike.trans {caps : Capabilities} {first second third : Globals}
    (left : Alike caps first second) (right : Alike caps second third) :
    Alike caps first third := by
  refine ⟨?_, right.caps.trans left.caps⟩
  rw [right.rest, left.rest]

theorem serviceNv2Access_globals (host : Host) (esr : Word) (v : VcpuView) :
    Alike host.caps v.g (serviceNv2Access host esr v).2.g :=
  ⟨(ExitOnly.serviceNv2Access host esr v).globals, serviceNv2Access_caps host esr v⟩

/-! ## Several cores -/

abbrev CoreAccess := VcpuId × GuestAccess

def CoreAccess.trap (caps : Capabilities) (b : CoreAccess) : GuestAccess :=
  { b.2 with host := { b.2.host with caps := caps } }

def CoreAccess.loaded (caps : Capabilities) (s : System) (b : CoreAccess) : Option Word :=
  let answer := (b.trap caps).answer (s.view b.1)
  if answer.1 = true ∧ b.2.access.read = true ∧ b.2.access.rt ≠ 31 then
    some (answer.2.s.ctx.x b.2.access.rt.toNat)
  else none

def CoreAccess.fieldWrite (caps : Capabilities) (s : System) (b : CoreAccess) :
    Option (VcpuId × Word) :=
  if b.2.access.IsPstate ∧ b.2.access.read = false then
    some (b.1, ((b.trap caps).arrive (s.view b.1)).s.ctx.readRt b.2.access.rt)
  else none

namespace System

def coreAccess (caps : Capabilities) (s : System) (b : CoreAccess) : System :=
  s.setView b.1 ((b.trap caps).answer (s.view b.1)).2

def coreRun (caps : Capabilities) (s : System) (word : List CoreAccess) : System :=
  word.foldl (coreAccess caps) s

/-- What one vCPU's accesses get, in order. -/
def readings (caps : Capabilities) (i : VcpuId) : System → List CoreAccess → List (Option Word)
  | _, [] => []
  | s, b :: rest =>
      (if b.1 = i then [b.loaded caps s] else []) ++ readings caps i (s.coreAccess caps b) rest

/-- The last value these vCPUs wrote to the missing PSTATE field, or the one it had. -/
def lastField (caps : Capabilities) (who : VcpuId → Prop) [DecidablePred who] (s : System)
    (word : List CoreAccess) : Word :=
  (Cells.lastUnder who (Cells.log (coreAccess caps) (CoreAccess.fieldWrite caps) s word)).getD
    s.g.pstateHeld

end System

/-- Two systems that one vCPU cannot tell apart but by the missing field. -/
structure Coupled (caps : Capabilities) (i : VcpuId) (s other : System) : Prop where
  slot : other.slots i = s.slots i
  globals : Alike caps s.g other.g

section Cores

variable {caps : Capabilities} {i : VcpuId} {s other : System} {b : CoreAccess}

theorem coreAccess_field (caps : Capabilities) (s : System) (b : CoreAccess) :
    (s.coreAccess caps b).g.pstateHeld =
      ((b.fieldWrite caps s).map Prod.snd).getD s.g.pstateHeld := by
  have field := serviceNv2Access_field (b.trap caps).host b.2.esr ((b.trap caps).arrive (s.view b.1))
  refine field.trans ?_
  unfold CoreAccess.fieldWrite
  by_cases writes : b.2.access.IsPstate ∧ b.2.access.read = false
  · rw [if_pos writes]
    exact if_pos writes
  · rw [if_neg writes]
    exact if_neg writes

theorem Coupled.elsewhere (coupled : Coupled caps i s other) (away : b.1 ≠ i) :
    Coupled caps i (s.coreAccess caps b) other where
  slot := by
    rw [System.coreAccess, s.setView_slots_of_ne away.symm]
    exact coupled.slot
  globals := by
    have kept : Alike caps s.g (s.coreAccess caps b).g :=
      serviceNv2Access_globals (b.trap caps).host b.2.esr ((b.trap caps).arrive (s.view b.1))
    exact kept.symm.trans coupled.globals

/-- The same access here on both sides: nothing tells them apart, unless it reads
the field. -/
theorem Coupled.here (coupled : Coupled caps i s other) (own : b.1 = i)
    (field : b.2.access.ReadsField → s.g.pstateHeld = other.g.pstateHeld) :
    Coupled caps i (s.coreAccess caps b) (other.coreAccess caps b) ∧
      b.loaded caps s = b.loaded caps other ∧ b.fieldWrite caps s = b.fieldWrite caps other := by
  subst own
  have slot : (other.view b.1).s = (s.view b.1).s := coupled.slot
  have arrived : ∀ g, (b.trap caps).arrive ⟨g, (other.view b.1).s⟩ =
      ⟨g, ((b.trap caps).arrive (s.view b.1)).s⟩ := by
    intro g
    rw [slot]
    rfl
  obtain ⟨carried, globals, slots⟩ := serviceNv2Access_alike (b.trap caps).host b.2.esr
    coupled.globals ((b.trap caps).arrive (s.view b.1)).s
  have there : (b.trap caps).answer (other.view b.1) =
      serviceNv2Access (b.trap caps).host b.2.esr
        ⟨other.g, ((b.trap caps).arrive (s.view b.1)).s⟩ := by
    rw [GuestAccess.answer]
    exact congrArg _ (arrived other.g)
  have same : ((b.trap caps).answer (other.view b.1)).2.s =
      ((b.trap caps).answer (s.view b.1)).2.s := by
    rw [there]
    by_cases reads : b.2.access.ReadsField
    · have here : (b.trap caps).answer (s.view b.1) = _ := readsField_answer reads
      rw [here, readsField_answer reads, ← field reads]
      rfl
    · exact slots reads
  rw [← there] at carried globals
  refine ⟨⟨?_, globals⟩, ?_, ?_⟩
  · rw [System.coreAccess, System.coreAccess, System.setView_slots_self,
      System.setView_slots_self]
    exact same
  · simp only [CoreAccess.loaded, carried, same]
    rfl
  · have operand := congrArg VcpuView.s (arrived other.g)
    have landed : ((b.trap caps).arrive (other.view b.1)).s =
        ((b.trap caps).arrive (s.view b.1)).s := operand
    simp only [CoreAccess.fieldWrite, landed]

theorem loaded_field (reads : b.2.access.ReadsField) : b.loaded caps s = some s.g.pstateHeld := by
  have answer : (b.trap caps).answer (s.view b.1) = _ := readsField_answer reads
  have small := rt_small b.2.access.rt reads.2.2
  simp only [CoreAccess.loaded, answer]
  rw [if_pos ⟨trivial, reads.2.1, reads.2.2⟩]
  congr 1
  refine (Ctx.x_put _ _ _ _ small (Or.inr (by decide))).trans ?_
  simp only [VcpuView.setCtx]
  rw [Ctx.writeRt]
  refine (congrArg (Ctx.x · _) (if_neg reads.2.2)).trans ?_
  exact (Ctx.word_put _ _ _ _).trans (if_pos rfl)

/-! ## Runs -/

/-- Every read of the field finds what the vCPU itself wrote last, `own` so far. -/
def OwnLast (caps : Capabilities) (i : VcpuId) : System → Word → List CoreAccess → Prop
  | _, _, [] => True
  | s, own, b :: rest =>
      (b.1 = i → b.2.access.ReadsField → s.g.pstateHeld = own) ∧
        OwnLast caps i (s.coreAccess caps b)
          (if b.1 = i then ((b.fieldWrite caps s).map Prod.snd).getD own else own) rest

def alone (i : VcpuId) (word : List CoreAccess) : List CoreAccess :=
  word.filter fun b => decide (b.1 = i)

theorem readings_iff_ownLast (word : List CoreAccess) (coupled : Coupled caps i s other) :
    (s.readings caps i word = other.readings caps i (alone i word) ∧
      (s.coreRun caps word).slots i = (other.coreRun caps (alone i word)).slots i) ↔
    OwnLast caps i s other.g.pstateHeld word := by
  induction word generalizing s other with
  | nil => exact iff_of_true ⟨rfl, coupled.slot.symm⟩ trivial
  | cons b rest ih =>
      by_cases own : b.1 = i
      · have kept : alone i (b :: rest) = b :: alone i rest :=
          List.filter_cons_of_pos (by simp [own])
        simp only [kept, System.readings, own, if_true, List.singleton_append, List.cons.injEq,
          OwnLast, true_implies]
        by_cases field : b.2.access.ReadsField → s.g.pstateHeld = other.g.pstateHeld
        · obtain ⟨next, loaded, written⟩ := coupled.here own field
          have later := ih next
          rw [coreAccess_field, ← written] at later
          rw [loaded]
          constructor
          · rintro ⟨⟨-, tail⟩, slots⟩
            exact ⟨field, later.mp ⟨tail, slots⟩⟩
          · rintro ⟨-, owned⟩
            obtain ⟨tail, slots⟩ := later.mpr owned
            exact ⟨⟨rfl, tail⟩, slots⟩
        · have apart : b.loaded caps s ≠ b.loaded caps other := by
            intro same
            apply field
            intro reads
            rw [loaded_field reads, loaded_field reads] at same
            exact Option.some.inj same
          exact iff_of_false (fun both => apart both.1.1) fun both => field both.1
      · have dropped : alone i (b :: rest) = alone i rest :=
          List.filter_cons_of_neg (by simp [own])
        simp only [dropped, System.readings, own, if_false, List.nil_append, OwnLast,
          false_implies, true_and]
        exact ih (coupled.elsewhere own)

theorem ownLast_iff (word : List CoreAccess) (s : System) (own : Word) :
    OwnLast caps i s own word ↔ ∀ front b back, word = front ++ b :: back → b.1 = i →
      b.2.access.ReadsField → (s.coreRun caps front).g.pstateHeld =
        (Cells.lastUnder (· = i) (Cells.log (System.coreAccess caps)
          (CoreAccess.fieldWrite caps) s front)).getD own := by
  induction word generalizing s own with
  | nil =>
      refine iff_of_true trivial ?_
      intro front b back split
      simp at split
  | cons b rest ih =>
      have under : ∀ front,
          (Cells.lastUnder (· = i) (Cells.log (System.coreAccess caps)
            (CoreAccess.fieldWrite caps) s (b :: front))).getD own =
          (Cells.lastUnder (· = i) (Cells.log (System.coreAccess caps)
            (CoreAccess.fieldWrite caps) (s.coreAccess caps b) front)).getD
            (if b.1 = i then ((b.fieldWrite caps s).map Prod.snd).getD own else own) := by
        intro front
        rw [Cells.log, Cells.lastUnder_append]
        cases Cells.lastUnder (· = i) (Cells.log (System.coreAccess caps)
          (CoreAccess.fieldWrite caps) (s.coreAccess caps b) front) with
        | some x => rfl
        | none =>
            simp only [Option.none_or, Option.getD_none, CoreAccess.fieldWrite]
            by_cases writes : b.2.access.IsPstate ∧ b.2.access.read = false
            · simp only [if_pos writes, Option.toList_some, Cells.lastUnder, Option.none_or]
              split <;> rfl
            · simp only [if_neg writes, Option.toList_none, Cells.lastUnder]
              split <;> rfl
      rw [OwnLast, ih]
      constructor
      · rintro ⟨first, later⟩ front c back split own reads
        cases front with
        | nil =>
            obtain ⟨rfl, -⟩ := List.cons.inj split
            exact first own reads
        | cons d front =>
            obtain ⟨rfl, tail⟩ := List.cons.inj split
            rw [under]
            exact later front c back tail own reads
      · intro all
        refine ⟨all [] b rest rfl, ?_⟩
        intro front c back split own reads
        rw [← under]
        exact all (b :: front) c back (by rw [split]; rfl) own reads

/-- What the field holds is what was written last, whoever wrote it. -/
theorem coreRun_field (caps : Capabilities) (s : System) (word : List CoreAccess) :
    (s.coreRun caps word).g.pstateHeld = s.lastField caps (fun _ => True) word := by
  refine Cells.value_of_log (fun s : System => s.g.pstateHeld) word (fun s b _ => ?_) s
  rw [coreAccess_field]
  cases b.fieldWrite caps s with
  | none => rfl
  | some written => rfl

end Cores

/-- What the accesses of one vCPU get and where they leave it is what they get and
where they leave it with every other vCPU silent, exactly if each of its reads of
the missing field follows a write of its own, or one of the same value. -/
theorem coresApart_iff (caps : Capabilities) (s : System) (i : VcpuId) (word : List CoreAccess) :
    (s.readings caps i word = s.readings caps i (alone i word) ∧
      (s.coreRun caps word).slots i = (s.coreRun caps (alone i word)).slots i) ↔
    ∀ front b back, word = front ++ b :: back → b.1 = i → b.2.access.ReadsField →
      s.lastField caps (fun _ => True) front = s.lastField caps (· = i) front := by
  have coupled : Coupled caps i s s := ⟨rfl, .refl caps s.g⟩
  rw [readings_iff_ownLast word coupled, ownLast_iff]
  simp only [coreRun_field]
  rfl

def fieldWriteRead : List CoreAccess := [
  (vcpu1, ⟨fun c => c.setX 0 1, {}, 0x623cd004⟩), (vcpu0, ⟨fun c => c, {}, 0x623cd025⟩)]

theorem field_seen_across :
    ¬ (System.readings {} vcpu0 {} fieldWriteRead =
        System.readings {} vcpu0 {} (alone vcpu0 fieldWriteRead) ∧
      (System.coreRun {} {} fieldWriteRead).slots vcpu0 =
        (System.coreRun {} {} (alone vcpu0 fieldWriteRead)).slots vcpu0) := by
  rintro ⟨same, -⟩
  exact absurd same (by decide)

end OpenHypervisor
