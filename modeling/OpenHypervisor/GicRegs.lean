import OpenHypervisor.GicRestore
import OpenHypervisor.IchRegs

/-!
# The controller's registers as cells

The frames and the register banks of the controller, each register a cell of its own, and
what each call of the interface does to a cell.  Reads and writes find the cell of a
register alike, or are refused alike, so what a read answers after any calls is what they
did to its cell, in their order.
-/

set_option autoImplicit false

namespace OpenHypervisor

/-- The registers the model keeps, but for the hypervisor's interface, and the place of a
redistributor frame. -/
inductive GicReg where
  | dist (slot : Nat)
  | msi (slot : Nat)
  | redist (row slot : Nat)
  | icc (row slot : Nat)
  | icv (row slot : Nat)
  | frame (row : Nat)
  deriving DecidableEq, Repr

def GicModel.reg (m : GicModel) : GicReg → Word
  | .dist slot => m.dist slot
  | .msi slot => m.msi slot
  | .redist row slot => m.redist row slot
  | .icc row slot => m.icc row slot
  | .icv row slot => m.icv row slot
  | .frame row => m.redistributorBase + BitVec.ofNat 64 row * kRedistSize

/-! ## Where a register is -/

inductive GicAccess where
  | distributor (offset : Nat)
  | msi (offset : Nat)
  | redistributor (id offset : Nat)
  | icc (id : Nat) (enc : BitVec 16)
  | icv (id : Nat) (enc : BitVec 16)
  | frame (id : Nat)

namespace GicAccess

def read : GicAccess → GicRead
  | .distributor offset => .distributorReg offset
  | .msi offset => .msiReg offset
  | .redistributor id offset => .redistributorReg id offset
  | .icc id enc => .iccReg id enc
  | .icv id enc => .icvReg id enc
  | .frame id => .redistributorBase id

def inFrame (reg : Nat → GicReg) : Option Nat → Except HvReturn GicReg
  | none => .error hvBadArgument
  | some slot => .ok (reg slot)

/-- A register of a vCPU's bank; the model has sixteen rows. -/
def inBank (slots : VcpuTable) (reg : Nat → Nat → GicReg) (id : Nat) (slot : Option Nat) :
    Except HvReturn GicReg :=
  match findVcpu slots id with
  | none => .error hvNoDevice
  | some i =>
      if (slots i).id ≥ kModelledCpus then .error hvBadArgument
      else inFrame (reg (slots i).id) slot

def place (slots : VcpuTable) : GicAccess → Except HvReturn GicReg
  | .distributor offset => inFrame .dist (frameSlot offset kDistSlots)
  | .msi offset => inFrame .msi (frameSlot offset kMsiSlots)
  | .redistributor id offset => inBank slots .redist id (frameSlot offset kRedistSlots)
  | .icc id enc => inBank slots .icc id (sparseSlot enc kIccEncodings)
  | .icv id enc => inBank slots .icv id (sparseSlot enc kIcvEncodings)
  | .frame id =>
      match findVcpu slots id with
      | none => .error hvNoDevice
      | some i => .ok (.frame (slots i).id)

end GicAccess

def GicCall.target : GicCall → Option (GicAccess × Word)
  | .setDistributorReg offset value => some (.distributor offset, value)
  | .setMsiReg offset value => some (.msi offset, value)
  | .setRedistributorReg id offset value => some (.redistributor id offset, value)
  | .setIccReg id enc value => some (.icc id enc, value)
  | .setIcvReg id enc value => some (.icv id enc, value)
  | _ => none

/-! ## What a call does to a cell -/

/-- GICD_TYPER takes no write. -/
def GicReg.written (reg : GicReg) (place : Except HvReturn GicReg) (value old : Word) : Word :=
  match place with
  | .error _ => old
  | .ok there => if there = reg ∧ reg ≠ .dist gicdTyper then value else old

def GicReg.pended (reg : GicReg) (intid : Nat) (level : Bool) (old : Word) : Word :=
  if intid < kSpiBase ∨ intid ≥ kSpiBase + kSpiCount then old
  else if reg = .dist (gicdIspendr0 + intid / 32) then
    if level then old ||| BitVec.twoPow 64 (intid % 32)
    else old &&& ~~~BitVec.twoPow 64 (intid % 32)
  else old

def GicReg.reset (reg : GicReg) (old : Word) : Word :=
  match reg with
  | .dist slot => resetDist slot
  | .frame _ => old
  | _ => 0

/-- The cell after a call, with the vCPUs there are. -/
def GicCall.stored (slots : VcpuTable) (reg : GicReg) (old : Word) (call : GicCall) : Word :=
  match call with
  | .setSpi intid level => reg.pended intid level old
  | .reset => reg.reset old
  | .setState data => data.reg reg
  | call =>
      match call.target with
      | none => old
      | some (access, value) => reg.written (access.place slots) value old

section Reads

variable {g : Globals} {m : GicModel} (gic : g.gic = some m) (slots : VcpuTable)

include gic

theorem getBank_place (reg : Nat → Nat → GicReg) (id : Nat) (slot : Option Nat)
    (read : GicModel → VcpuSlot → Nat → Except HvReturn Word)
    (reads : ∀ s slot, read m s slot = .ok (m.reg (reg s.id slot))) :
    getBank g slots id slot read = (GicAccess.inBank slots reg id slot).map m.reg := by
  unfold getBank GicAccess.inBank
  rw [gic]
  cases findVcpu slots id with
  | none => rfl
  | some i =>
      simp only
      split
      · rfl
      · cases slot with
        | none => rfl
        | some slot => exact reads _ _

theorem answer_place (access : GicAccess) :
    access.read.answer (g, slots) = (access.place slots).map m.reg := by
  cases access with
  | distributor offset =>
      simp only [GicAccess.read, GicRead.answer, hvGicGetDistributorReg, gic, GicAccess.place]
      cases frameSlot offset kDistSlots <;> rfl
  | msi offset =>
      simp only [GicAccess.read, GicRead.answer, hvGicGetMsiReg, gic, GicAccess.place]
      cases frameSlot offset kMsiSlots <;> rfl
  | redistributor id offset =>
      exact getBank_place gic slots .redist id _ (fun m s slot => .ok (m.redist s.id slot))
        fun _ _ => rfl
  | icc id enc =>
      exact getBank_place gic slots .icc id _ (fun m s slot => .ok (m.icc s.id slot)) fun _ _ => rfl
  | icv id enc =>
      exact getBank_place gic slots .icv id _ (fun m s slot => .ok (m.icv s.id slot)) fun _ _ => rfl
  | frame id =>
      simp only [GicAccess.read, GicRead.answer, hvGicGetRedistributorBase, gic, GicAccess.place]
      cases findVcpu slots id <;> rfl

end Reads

/-- The controller has every cell as the call leaves it. -/
def Stores (slots : VcpuTable) (m : GicModel) (call : GicCall) (answer : GicAnswer) : Prop :=
  ∃ m', answer.g.gic = some m' ∧ ∀ reg, m'.reg reg = call.stored slots reg (m.reg reg)

def resultOf : Except HvReturn GicReg → HvReturn
  | .ok _ => hvSuccess
  | .error rc => rc

section Writes

variable {g : Globals} {m : GicModel} (gic : g.gic = some m) (slots : VcpuTable)

include gic

/-- A call that names a register writes it, or is refused as a read of it would be. -/
def WritesThere (access : GicAccess) (value : Word) (answer : GicAnswer) : Prop :=
  answer.rc = resultOf (access.place slots) ∧
    ∃ m', answer.g.gic = some m' ∧
      ∀ reg, m'.reg reg = GicReg.written reg (access.place slots) value (m.reg reg)

omit gic in
theorem updateRow_written (reg : Nat → Nat → GicReg) (bank : Nat → Nat → Word)
    (row slot other place : Nat) (value : Word)
    (apart : reg row slot = reg other place ↔ row = other ∧ slot = place)
    (free : reg other place ≠ .dist gicdTyper) :
    updateRow bank row slot value other place =
      GicReg.written (reg other place) (.ok (reg row slot)) value (bank other place) := by
  rw [updateRow_apply]
  refine if_congr ?_ rfl rfl
  rw [and_iff_left free, apart, eq_comm (a := row), eq_comm (a := slot)]

theorem setBank_writes {access : GicAccess} {value : Word} {reg : Nat → Nat → GicReg} (id : Nat)
    (slot : Option Nat) (place : access.place slots = GicAccess.inBank slots reg id slot)
    (write : GicModel → Nat → Nat → GicModel)
    (writes : ∀ row slot other,
      (write m row slot).reg other =
        GicReg.written other (.ok (reg row slot)) value (m.reg other)) :
    WritesThere (m := m) slots access value (setBank g slots id slot write) := by
  unfold WritesThere setBank
  rw [place, GicAccess.inBank, gic]
  cases findVcpu slots id with
  | none => exact ⟨rfl, m, gic, fun _ => rfl⟩
  | some i =>
      simp only
      split
      · exact ⟨rfl, m, gic, fun _ => rfl⟩
      · cases slot with
        | none => exact ⟨rfl, m, gic, fun _ => rfl⟩
        | some slot => exact ⟨rfl, _, rfl, writes _ _⟩

theorem setDistributorReg_writes (offset : Nat) (value : Word) :
    WritesThere (m := m) slots (.distributor offset) value
      (hvGicSetDistributorReg g slots offset value) := by
  unfold WritesThere hvGicSetDistributorReg
  rw [gic, GicAccess.place]
  cases frameSlot offset kDistSlots with
  | none => exact ⟨rfl, m, gic, fun _ => rfl⟩
  | some slot =>
      simp only
      by_cases typer : slot = gicdTyper
      · rw [if_pos typer]
        refine ⟨rfl, m, gic, fun reg => ?_⟩
        have kept : ¬ (GicReg.dist slot = reg ∧ reg ≠ .dist gicdTyper) :=
          fun both => both.2 (both.1 ▸ congrArg GicReg.dist typer)
        exact (if_neg kept).symm
      · rw [if_neg typer]
        refine ⟨rfl, _, rfl, fun reg => ?_⟩
        cases reg with
        | dist other =>
            by_cases same : other = slot
            · subst same
              have there : GicReg.dist other = .dist other ∧ GicReg.dist other ≠ .dist gicdTyper :=
                ⟨rfl, fun both => typer (GicReg.dist.inj both)⟩
              exact (Function.update_self ..).trans (if_pos there).symm
            · have apart :
                  ¬ (GicReg.dist slot = .dist other ∧ GicReg.dist other ≠ .dist gicdTyper) :=
                fun both => same (GicReg.dist.inj both.1).symm
              exact (Function.update_of_ne same ..).trans (if_neg apart).symm
        | _ => rfl

theorem setMsiReg_writes (offset : Nat) (value : Word) :
    WritesThere (m := m) slots (.msi offset) value (hvGicSetMsiReg g slots offset value) := by
  unfold WritesThere hvGicSetMsiReg
  rw [gic, GicAccess.place]
  cases frameSlot offset kMsiSlots with
  | none => exact ⟨rfl, m, gic, fun _ => rfl⟩
  | some slot =>
      refine ⟨rfl, _, rfl, fun reg => ?_⟩
      cases reg with
      | msi other =>
          by_cases same : other = slot
          · subst same
            exact (Function.update_self ..).trans (if_pos ⟨rfl, nofun⟩).symm
          · have apart : ¬ (GicReg.msi slot = .msi other ∧ GicReg.msi other ≠ .dist gicdTyper) :=
              fun both => same (GicReg.msi.inj both.1).symm
            exact (Function.update_of_ne same ..).trans (if_neg apart).symm
      | _ => rfl

theorem target_writes {call : GicCall} {access : GicAccess} {value : Word}
    (target : call.target = some (access, value)) :
    WritesThere (m := m) slots access value (call.serve g slots) := by
  cases call with
  | create _ | setIchReg _ _ _ | setSpi _ _ | reset | setState _ => cases target
  | setDistributorReg offset value =>
      cases target
      exact setDistributorReg_writes gic slots offset value
  | setMsiReg offset value =>
      cases target
      exact setMsiReg_writes gic slots offset value
  | setRedistributorReg id offset value =>
      cases target
      apply setBank_writes gic slots id _ rfl
      intro row slot other
      cases other with
      | redist other place =>
          exact updateRow_written .redist m.redist row slot other place value
            (by rw [GicReg.redist.injEq]) nofun
      | _ => rfl
  | setIccReg id enc value =>
      cases target
      apply setBank_writes gic slots id _ rfl
      intro row slot other
      cases other with
      | icc other place =>
          exact updateRow_written .icc m.icc row slot other place value
            (by rw [GicReg.icc.injEq]) nofun
      | _ => rfl
  | setIcvReg id enc value =>
      cases target
      apply setBank_writes gic slots id _ rfl
      intro row slot other
      cases other with
      | icv other place =>
          exact updateRow_written .icv m.icv row slot other place value
            (by rw [GicReg.icv.injEq]) nofun
      | _ => rfl

theorem setSpi_stores (intid : Nat) (level : Bool) :
    Stores slots m (.setSpi intid level) (hvGicSetSpi g slots intid level) := by
  unfold Stores hvGicSetSpi
  rw [gic]
  simp only [GicCall.stored, GicReg.pended]
  by_cases refused : intid < kSpiBase ∨ intid ≥ kSpiBase + kSpiCount
  · simp only [if_pos refused]
    exact ⟨m, gic, fun _ => rfl⟩
  · simp only [if_neg refused]
    have cells : ∀ pended reg, ({ m with
        dist := Function.update m.dist (gicdIspendr0 + intid / 32) pended } : GicModel).reg reg =
          if reg = .dist (gicdIspendr0 + intid / 32) then pended else m.reg reg := by
      intro pended reg
      cases reg with
      | dist slot =>
          refine (Function.update_apply ..).trans (if_congr ?_ rfl rfl)
          rw [GicReg.dist.injEq]
      | _ => rfl
    have same : ∀ reg, (if reg = .dist (gicdIspendr0 + intid / 32) then
        if level then m.dist (gicdIspendr0 + intid / 32) ||| BitVec.twoPow 64 (intid % 32)
        else m.dist (gicdIspendr0 + intid / 32) &&& ~~~BitVec.twoPow 64 (intid % 32)
        else m.reg reg) =
      if reg = .dist (gicdIspendr0 + intid / 32) then
        if level then m.reg reg ||| BitVec.twoPow 64 (intid % 32)
        else m.reg reg &&& ~~~BitVec.twoPow 64 (intid % 32)
        else m.reg reg := by
      intro reg
      by_cases here : reg = .dist (gicdIspendr0 + intid / 32)
      · subst here
        rfl
      · rw [if_neg here, if_neg here]
    cases firstUsed slots with
    | none => exact ⟨_, rfl, fun reg => (cells _ reg).trans (same reg)⟩
    | some i => exact ⟨_, rfl, fun reg => (cells _ reg).trans (same reg)⟩

theorem serve_stores (call : GicCall) : Stores slots m call (call.serve g slots) := by
  cases call with
  | setDistributorReg _ _ | setMsiReg _ _ | setRedistributorReg _ _ _ | setIccReg _ _ _
  | setIcvReg _ _ _ => exact (target_writes gic slots rfl).2
  | setSpi intid level => exact setSpi_stores gic slots intid level
  | create base =>
      simp only [GicCall.serve, hvGicCreate, gic]
      split
      · exact ⟨m, gic, fun _ => rfl⟩
      · split
        · exact ⟨m, gic, fun _ => rfl⟩
        · exact ⟨m, gic, fun _ => rfl⟩
  | setIchReg id enc value =>
      simp only [GicCall.serve, hvGicSetIchReg, gic]
      cases findVcpu slots id with
      | none => exact ⟨m, gic, fun _ => rfl⟩
      | some i =>
          simp only
          split
          · exact ⟨m, gic, fun _ => rfl⟩
          · split
            · exact ⟨m, gic, fun _ => rfl⟩
            · refine ⟨_, rfl, fun reg => ?_⟩
              cases reg <;> rfl
  | reset =>
      simp only [GicCall.serve, hvGicReset, gic]
      refine ⟨_, rfl, fun reg => ?_⟩
      cases reg <;> rfl
  | setState data =>
      simp only [GicCall.serve, hvGicSetState, gic]
      exact ⟨data, rfl, fun _ => rfl⟩

end Writes

/-! ## Runs of the interface -/

theorem place_congr {slots slots' : VcpuTable} (same : SameVcpus slots slots')
    (access : GicAccess) : access.place slots' = access.place slots := by
  have bank : ∀ reg id slot, GicAccess.inBank slots' reg id slot =
      GicAccess.inBank slots reg id slot := by
    intro reg id slot
    unfold GicAccess.inBank
    rw [same.findVcpu]
    cases findVcpu slots id with
    | none => rfl
    | some i => simp only [(same i).2]
  cases access with
  | distributor _ | msi _ => rfl
  | redistributor _ _ | icc _ _ | icv _ _ => exact bank _ _ _
  | frame id =>
      simp only [GicAccess.place, same.findVcpu]
      cases findVcpu slots id with
      | none => rfl
      | some i => simp only [(same i).2]

theorem stored_congr {slots slots' : VcpuTable} (same : SameVcpus slots slots') (reg : GicReg)
    (old : Word) (call : GicCall) : call.stored slots' reg old = call.stored slots reg old := by
  cases call with
  | setDistributorReg _ _ | setMsiReg _ _ | setRedistributorReg _ _ _ | setIccReg _ _ _
  | setIcvReg _ _ _ => simp only [GicCall.stored, GicCall.target, place_congr same]
  | _ => rfl

theorem serveAll_cells (calls : List GicCall) {s : GicSide} {m : GicModel}
    (gic : s.1.gic = some m) :
    SameVcpus s.2 (serveAll calls s).2 ∧ ∃ m', (serveAll calls s).1.gic = some m' ∧
      ∀ reg, m'.reg reg = calls.foldl (fun old call => call.stored s.2 reg old) (m.reg reg) := by
  induction calls generalizing s m with
  | nil => exact ⟨fun _ => ⟨rfl, rfl⟩, m, gic, fun _ => rfl⟩
  | cons call rest ih =>
      obtain ⟨middle, gic', cells⟩ := serve_stores gic s.2 call
      have vcpus : SameVcpus s.2 (call.after s).2 := ((call.serve_does s.1 s.2).edits).vcpus
      obtain ⟨later, m', last, cells'⟩ := ih (s := call.after s) gic'
      refine ⟨vcpus.trans later, m', last, fun reg => ?_⟩
      rw [cells' reg, cells reg, List.foldl_cons]
      congr 1
      funext old call
      exact stored_congr vcpus reg old call

/-- A read after any calls answers with what they made of its register, in their order, or is
refused as it was before them; and a write is refused where a read is. -/
theorem gic_reads_follow_calls (calls : List GicCall) (s : GicSide) (m : GicModel)
    (gic : s.1.gic = some m) (access : GicAccess) :
    access.read.answer (serveAll calls s) = (access.place s.2).map (fun reg =>
      calls.foldl (fun old call => call.stored s.2 reg old) (m.reg reg)) ∧
    ∀ (call : GicCall) value, call.target = some (access, value) →
      (call.serve (serveAll calls s).1 (serveAll calls s).2).rc = resultOf (access.place s.2) := by
  obtain ⟨vcpus, m', gic', cells⟩ := serveAll_cells calls gic
  constructor
  · have answer := answer_place (g := (serveAll calls s).1) gic' (serveAll calls s).2 access
    rw [place_congr vcpus] at answer
    refine answer.trans ?_
    rw [show m'.reg = _ from funext cells]
  · intro call value target
    rw [(target_writes gic' (serveAll calls s).2 target).1, place_congr vcpus]

theorem bootedGic_created : bootedGic.1.gic = some (createdModel 0x8010000) :=
  bootedGic_started.spec.1

def pendCalls : List GicCall :=
  [.setDistributorReg 0x204 0x3, .setMsiReg 0x204 0x7, .setSpi 40 true]

theorem gic_reads_follow_calls_pending :
    hvGicGetDistributorReg (serveAll pendCalls bootedGic).1 0x204 = .ok 0x103 :=
  (gic_reads_follow_calls pendCalls bootedGic _ bootedGic_created (.distributor 0x204)).1.trans rfl

end OpenHypervisor
