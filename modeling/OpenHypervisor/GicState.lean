import OpenHypervisor.ListRegs
import OpenHypervisor.VcpuLife

/-!
# The controller's state

What the controller's reads answer, and what the calls that write a register
leave as it was.  The state is in two places: the model, and the ICH words of
each vCPU's page.
-/

set_option autoImplicit false

namespace OpenHypervisor

@[simp] def ohvRoIchVtr : Nat := 0x4118
@[simp] def ohvRoIchElrsr : Nat := 0x4120

/-- `OHV_RO_ICH_MISR` is 0x411c, so what is read there is the halves of two words. -/
def Ctx.roIchMisr (c : Ctx) : Word := c.lo32 ohvRoIchElrsr ++ c.hi32 ohvRoIchVtr

/-! ## The reads -/

section Reads

variable (g : Globals) (slots : VcpuTable)

def hvGicGetDistributorReg (offset : Nat) : Except HvReturn Word :=
  match g.gic with
  | none => .error hvNoDevice
  | some m =>
      match frameSlot offset kDistSlots with
      | none => .error hvBadArgument
      | some slot => .ok (m.dist slot)

def hvGicGetMsiReg (offset : Nat) : Except HvReturn Word :=
  match g.gic with
  | none => .error hvNoDevice
  | some m =>
      match frameSlot offset kMsiSlots with
      | none => .error hvBadArgument
      | some slot => .ok (m.msi slot)

def kRedistSize : Word := 0x20000

def hvGicGetRedistributorBase (id : Nat) : Except HvReturn Word :=
  match g.gic, findVcpu slots id with
  | some m, some i => .ok (m.redistributorBase + BitVec.ofNat 64 (slots i).id * kRedistSize)
  | _, _ => .error hvNoDevice

def getBank (id : Nat) (slot : Option Nat)
    (read : GicModel → VcpuSlot → Nat → Except HvReturn Word) : Except HvReturn Word :=
  match g.gic, findVcpu slots id with
  | some m, some i =>
      if (slots i).id ≥ kModelledCpus then .error hvBadArgument
      else
        match slot with
        | none => .error hvBadArgument
        | some slot => read m (slots i) slot
  | _, _ => .error hvNoDevice

def hvGicGetRedistributorReg (id offset : Nat) : Except HvReturn Word :=
  getBank g slots id (frameSlot offset kRedistSlots) fun m s slot => .ok (m.redist s.id slot)

def hvGicGetIccReg (id : Nat) (enc : BitVec 16) : Except HvReturn Word :=
  getBank g slots id (sparseSlot enc kIccEncodings) fun m s slot => .ok (m.icc s.id slot)

def hvGicGetIcvReg (id : Nat) (enc : BitVec 16) : Except HvReturn Word :=
  getBank g slots id (sparseSlot enc kIcvEncodings) fun m s slot => .ok (m.icv s.id slot)

/-- The registers of the hypervisor's interface: the kernel's own off the
read-only page, the others off the words a write of them goes to. -/
def readIch (enc : BitVec 16) (m : GicModel) (s : VcpuSlot) (slot : Nat) : Except HvReturn Word :=
  if enc = 0xe659 then .ok (s.ctx.word ohvRoIchVtr)
  else if enc = 0xe65a then .ok s.ctx.roIchMisr
  else if enc = 0xe65d then .ok (s.ctx.word ohvRoIchElrsr)
  else if enc = 0xe640 then .ok (s.ctx.word ohvRwVgicSysregs)
  else if enc = 0xe648 then .ok (s.ctx.word (ohvRwVgicSysregs + 8))
  else if enc = 0xe658 then .ok (s.ctx.control ichHcrOff)
  else if enc = 0xe65f then .ok (s.ctx.banked 21)
  else if 0xe660 ≤ enc then
    let lr := enc.toNat - 0xe660
    if lr < ichLrCount then .ok (s.ctx.ichLr lr &&& ~~~ohvIchLrDirty) else .error hvBadArgument
  else .ok (m.ich s.id slot)

def hvGicGetIchReg (id : Nat) (enc : BitVec 16) : Except HvReturn Word :=
  getBank g slots id (sparseSlot enc kIchEncodings) (readIch enc)

end Reads

inductive GicRead where
  | distributorReg (offset : Nat)
  | redistributorReg (id offset : Nat)
  | iccReg (id : Nat) (enc : BitVec 16)
  | icvReg (id : Nat) (enc : BitVec 16)
  | ichReg (id : Nat) (enc : BitVec 16)
  | msiReg (offset : Nat)
  | redistributorBase (id : Nat)

abbrev GicSide := Globals × VcpuTable

def GicRead.answer (read : GicRead) (s : GicSide) : Except HvReturn Word :=
  match read with
  | .distributorReg offset => hvGicGetDistributorReg s.1 offset
  | .redistributorReg id offset => hvGicGetRedistributorReg s.1 s.2 id offset
  | .iccReg id enc => hvGicGetIccReg s.1 s.2 id enc
  | .icvReg id enc => hvGicGetIcvReg s.1 s.2 id enc
  | .ichReg id enc => hvGicGetIchReg s.1 s.2 id enc
  | .msiReg offset => hvGicGetMsiReg s.1 offset
  | .redistributorBase id => hvGicGetRedistributorBase s.1 s.2 id

/-- ICH_VTR, ICH_MISR, ICH_EISR and ICH_ELRSR are the kernel's to report. -/
def ichReported (enc : BitVec 16) : Prop :=
  enc = 0xe659 ∨ enc = 0xe65a ∨ enc = 0xe65b ∨ enc = 0xe65d

instance (enc : BitVec 16) : Decidable (ichReported enc) := inferInstanceAs (Decidable (_ ∨ _))

def GicRead.OfState : GicRead → Prop
  | .ichReg _ enc => ¬ ichReported enc
  | _ => True

/-- The calls that write a register or raise or lower a shared interrupt. -/
def GicCall.Writes : GicCall → Prop
  | .create _ | .reset | .setState _ => False
  | _ => True

def GicCall.after (call : GicCall) (s : GicSide) : GicSide :=
  ((call.serve s.1 s.2).g, (call.serve s.1 s.2).slots)

def serveAll (calls : List GicCall) (s : GicSide) : GicSide :=
  calls.foldl (fun s call => call.after s) s

/-- The controller as `hv_gic_create` leaves it. -/
def createdModel (redistributorBase : Word) : GicModel :=
  { redistributorBase := redistributorBase, dist := resetDist }

/-! ## What writes keep -/

/-- The parts of the model no write reaches: the configuration, and the register
that describes the distributor. -/
structure SameSetup (m m' : GicModel) : Prop where
  redistributorBase : m'.redistributorBase = m.redistributorBase
  typer : m'.dist gicdTyper = m.dist gicdTyper

theorem SameSetup.refl (m : GicModel) : SameSetup m m := ⟨rfl, rfl⟩

def KeepsSetup (m : GicModel) (answer : GicAnswer) : Prop :=
  ∃ m', answer.g.gic = some m' ∧ SameSetup m m'

section Writes

variable {g : Globals} {m : GicModel} (gic : g.gic = some m) (slots : VcpuTable)

theorem setModel_setup (g : Globals) {m' : GicModel} (same : SameSetup m m') :
    KeepsSetup m (setModel g m' slots) :=
  ⟨m', rfl, same⟩

include gic

theorem unchanged_setup (rc : HvReturn) : KeepsSetup m (unchanged g slots rc) :=
  ⟨m, gic, .refl m⟩

theorem setBank_setup (id : Nat) (slot : Option Nat) (write : GicModel → Nat → Nat → GicModel)
    (same : ∀ row slot, SameSetup m (write m row slot)) :
    KeepsSetup m (setBank g slots id slot write) := by
  unfold setBank
  rw [gic]
  cases findVcpu slots id with
  | none => exact unchanged_setup gic slots _
  | some i =>
      simp only
      split
      · exact unchanged_setup gic slots _
      · split
        · exact unchanged_setup gic slots _
        · exact setModel_setup _ g (same _ _)

theorem setIchReg_setup (id : Nat) (enc : BitVec 16) (value : Word) :
    KeepsSetup m (hvGicSetIchReg g slots id enc value) := by
  unfold hvGicSetIchReg
  rw [gic]
  cases findVcpu slots id with
  | none => exact unchanged_setup gic slots _
  | some i =>
      simp only
      split
      · exact unchanged_setup gic slots _
      · split
        · exact unchanged_setup gic slots _
        · exact ⟨_, rfl, rfl, rfl⟩

theorem setSpi_setup (intid : Nat) (level : Bool) :
    KeepsSetup m (hvGicSetSpi g slots intid level) := by
  have apart : gicdTyper ≠ gicdIspendr0 + intid / 32 := by
    simp only [gicdTyper, gicdIspendr0]
    omega
  unfold hvGicSetSpi
  rw [gic]
  simp only
  split
  · exact unchanged_setup gic slots _
  · split
    · exact setModel_setup _ g ⟨rfl, Function.update_of_ne apart _ _⟩
    · exact setModel_setup _ g ⟨rfl, Function.update_of_ne apart _ _⟩

theorem setDistributorReg_setup (offset : Nat) (value : Word) :
    KeepsSetup m (hvGicSetDistributorReg g slots offset value) := by
  unfold hvGicSetDistributorReg
  rw [gic]
  cases frameSlot offset kDistSlots with
  | none => exact unchanged_setup gic slots _
  | some slot =>
      simp only
      by_cases typer : slot = gicdTyper
      · rw [if_pos typer]
        exact unchanged_setup gic slots _
      · rw [if_neg typer]
        exact setModel_setup _ g ⟨rfl, Function.update_of_ne (Ne.symm typer) _ _⟩

theorem setMsiReg_setup (offset : Nat) (value : Word) :
    KeepsSetup m (hvGicSetMsiReg g slots offset value) := by
  unfold hvGicSetMsiReg
  rw [gic]
  cases frameSlot offset kMsiSlots with
  | none => exact unchanged_setup gic slots _
  | some slot => exact setModel_setup _ g ⟨rfl, rfl⟩

theorem GicCall.Writes.setup {call : GicCall} (writes : call.Writes) :
    KeepsSetup m (call.serve g slots) := by
  cases call with
  | create _ | reset | setState _ => exact writes.elim
  | setDistributorReg offset value => exact setDistributorReg_setup gic slots offset value
  | setRedistributorReg id offset value =>
      exact setBank_setup gic slots _ _ _ fun _ _ => ⟨rfl, rfl⟩
  | setIccReg id enc value => exact setBank_setup gic slots _ _ _ fun _ _ => ⟨rfl, rfl⟩
  | setIcvReg id enc value => exact setBank_setup gic slots _ _ _ fun _ _ => ⟨rfl, rfl⟩
  | setIchReg id enc value => exact setIchReg_setup gic slots id enc value
  | setMsiReg offset value => exact setMsiReg_setup gic slots offset value
  | setSpi intid level => exact setSpi_setup gic slots intid level

end Writes

def SameVcpus (slots slots' : VcpuTable) : Prop :=
  ∀ i, (slots' i).used = (slots i).used ∧ (slots' i).id = (slots i).id

theorem SameVcpus.trans {first second third : VcpuTable} (left : SameVcpus first second)
    (right : SameVcpus second third) : SameVcpus first third :=
  fun i => ⟨(right i).1.trans (left i).1, (right i).2.trans (left i).2⟩

theorem GicCall.Edits.vcpus {call : GicCall} {slots after : VcpuTable}
    (edits : call.Edits slots after) : SameVcpus slots after := by
  intro i
  rw [(edits.controlOnly i).slot]
  exact ⟨rfl, rfl⟩

/-- A controller set up at this base, and the vCPUs it was given. -/
structure GicKept (base : Word) (slots : VcpuTable) (s : GicSide) : Prop where
  model : ∃ m, s.1.gic = some m ∧ SameSetup (createdModel base) m
  vcpus : SameVcpus slots s.2

theorem GicKept.after {base : Word} {slots : VcpuTable} {s : GicSide} (kept : GicKept base slots s)
    {call : GicCall} (writes : call.Writes) : GicKept base slots (call.after s) := by
  obtain ⟨m, gic, same⟩ := kept.model
  obtain ⟨m', gic', same'⟩ := writes.setup gic s.2
  have edits := (call.serve_does s.1 s.2).edits
  refine ⟨⟨m', gic', ?_⟩, kept.vcpus.trans edits.vcpus⟩
  exact ⟨same'.redistributorBase.trans same.redistributorBase, same'.typer.trans same.typer⟩

theorem GicKept.serveAll {base : Word} {slots : VcpuTable} {calls : List GicCall}
    (writes : ∀ call ∈ calls, call.Writes) {s : GicSide} (kept : GicKept base slots s) :
    GicKept base slots (serveAll calls s) := by
  induction calls generalizing s with
  | nil => exact kept
  | cons call rest ih =>
      have here := kept.after (writes call List.mem_cons_self)
      exact ih (fun call member => writes call (List.mem_cons_of_mem _ member)) here

theorem gicKept_created {base : Word} {s : GicSide} (gic : s.1.gic = some (createdModel base)) :
    GicKept base s.2 s :=
  ⟨⟨_, gic, .refl _⟩, fun _ => ⟨rfl, rfl⟩⟩

/-! ## The reads of two states -/

theorem findVcpu_live (slots : VcpuTable) {i : Fin kMaxVcpuIds} (live : (slots i).used = true) :
    findVcpu slots i = some i := by
  unfold findVcpu
  rw [dif_pos i.isLt, if_pos live]

theorem SameVcpus.findVcpu {slots slots' : VcpuTable} (same : SameVcpus slots slots') (id : Nat) :
    findVcpu slots' id = findVcpu slots id := by
  unfold OpenHypervisor.findVcpu
  by_cases small : id < kMaxVcpuIds
  · rw [dif_pos small, dif_pos small, (same ⟨id, small⟩).1]
  · rw [dif_neg small, dif_neg small]

theorem SameVcpus.firstUsed {slots slots' : VcpuTable} (same : SameVcpus slots slots') :
    firstUsed slots' = firstUsed slots := by
  have used : (fun i => (slots' i).used) = fun i => (slots i).used := funext fun i => (same i).1
  unfold OpenHypervisor.firstUsed
  rw [used]

/-- What a read of the interface shows of a page: the list registers without the
flag that is no part of them. -/
structure SameInterface (c c' : Ctx) : Prop where
  ap0r0 : c'.word ohvRwVgicSysregs = c.word ohvRwVgicSysregs
  ap1r0 : c'.word (ohvRwVgicSysregs + 8) = c.word (ohvRwVgicSysregs + 8)
  hcr : c'.control ichHcrOff = c.control ichHcrOff
  vmcr : c'.banked 21 = c.banked 21
  lrs : ∀ j, j < ichLrCount → c'.ichLr j &&& ~~~ohvIchLrDirty = c.ichLr j &&& ~~~ohvIchLrDirty

namespace SameInterface

variable {first second third : Ctx}

theorem symm (same : SameInterface first second) : SameInterface second first where
  ap0r0 := same.ap0r0.symm
  ap1r0 := same.ap1r0.symm
  hcr := same.hcr.symm
  vmcr := same.vmcr.symm
  lrs j small := (same.lrs j small).symm

theorem trans (left : SameInterface first second) (right : SameInterface second third) :
    SameInterface first third where
  ap0r0 := right.ap0r0.trans left.ap0r0
  ap1r0 := right.ap1r0.trans left.ap1r0
  hcr := right.hcr.trans left.hcr
  vmcr := right.vmcr.trans left.vmcr
  lrs j small := (right.lrs j small).trans (left.lrs j small)

theorem used (same : SameInterface first second) {j : Nat} (small : j < ichLrCount) :
    LrUsed (second.ichLr j) ↔ LrUsed (first.ichLr j) := by
  have state : ~~~ohvIchLrDirty &&& lrStateMask = lrStateMask := by decide
  have shown : ∀ lr : Word, lr &&& lrStateMask = lr &&& ~~~ohvIchLrDirty &&& lrStateMask := by
    intro lr
    rw [BitVec.and_assoc, state]
  rw [LrUsed, LrUsed, shown (second.ichLr j), same.lrs j small, ← shown]

theorem readIch (same : SameInterface first second) {enc : BitVec 16} (state : ¬ ichReported enc)
    (m : GicModel) {s s' : VcpuSlot} (ctx : s.ctx = first) (ctx' : s'.ctx = second)
    (id : s'.id = s.id) (slot : Nat) : readIch enc m s' slot = readIch enc m s slot := by
  simp only [ichReported, not_or] at state
  obtain ⟨vtr, misr, -, elrsr⟩ := state
  unfold OpenHypervisor.readIch
  simp only [if_neg vtr, if_neg misr, if_neg elrsr, ctx, ctx', id, same.ap0r0, same.ap1r0,
    same.hcr, same.vmcr]
  by_cases list : 0xe660 ≤ enc
  · by_cases small : enc.toNat - 0xe660 < ichLrCount
    · simp only [if_pos list, if_pos small, same.lrs _ small]
    · simp only [if_pos list, if_neg small]
  · simp only [if_neg list]

end SameInterface

section Alike

variable {g g' : Globals} {slots slots' : VcpuTable} (gic : g'.gic = g.gic)
  (same : SameVcpus slots slots')

include gic same

theorem getBank_congr (id : Nat) (slot : Option Nat)
    {read : GicModel → VcpuSlot → Nat → Except HvReturn Word}
    (agree : ∀ m i slot, (slots i).used = true → (slots i).id < kModelledCpus →
      read m (slots' i) slot = read m (slots i) slot) :
    getBank g' slots' id slot read = getBank g slots id slot read := by
  unfold getBank
  rw [gic, same.findVcpu]
  cases g.gic with
  | none => rfl
  | some m =>
      cases found : findVcpu slots id with
      | none => rfl
      | some i =>
          simp only [(same i).2]
          by_cases unmodelled : (slots i).id ≥ kModelledCpus
          · rw [if_pos unmodelled, if_pos unmodelled]
          · rw [if_neg unmodelled, if_neg unmodelled]
            cases slot with
            | none => rfl
            | some slot => exact agree m i slot (findVcpu_used found) (Nat.lt_of_not_ge unmodelled)

theorem answer_congr (interface : ∀ i, (slots i).used = true → (slots i).id < kModelledCpus →
      SameInterface (slots i).ctx (slots' i).ctx) {read : GicRead} (state : read.OfState) :
    read.answer (g', slots') = read.answer (g, slots) := by
  cases read with
  | distributorReg offset =>
      simp only [GicRead.answer, hvGicGetDistributorReg, gic]
  | msiReg offset =>
      simp only [GicRead.answer, hvGicGetMsiReg, gic]
  | redistributorBase id =>
      simp only [GicRead.answer, hvGicGetRedistributorBase, gic, same.findVcpu, (same _).2]
  | redistributorReg id offset =>
      unfold GicRead.answer hvGicGetRedistributorReg
      apply getBank_congr gic same id _
      intro m i slot _ _
      simp only [(same i).2]
  | iccReg id enc =>
      unfold GicRead.answer hvGicGetIccReg
      apply getBank_congr gic same id _
      intro m i slot _ _
      simp only [(same i).2]
  | icvReg id enc =>
      unfold GicRead.answer hvGicGetIcvReg
      apply getBank_congr gic same id _
      intro m i slot _ _
      simp only [(same i).2]
  | ichReg id enc =>
      unfold GicRead.answer hvGicGetIchReg
      apply getBank_congr gic same id _
      intro m i slot live modelled
      exact (interface i live modelled).readIch state m rfl rfl (same i).2 slot

end Alike

/-- The encoding of a list register. -/
def lrEncoding (j : Nat) : BitVec 16 := BitVec.ofNat 16 (0xe660 + j)

theorem readIch_lr (m : GicModel) (s : VcpuSlot) (slot : Nat) {j : Nat} (small : j < ichLrCount) :
    readIch (lrEncoding j) m s slot = .ok (s.ctx.ichLr j &&& ~~~ohvIchLrDirty) := by
  have checked : ∀ j < 8, lrEncoding j ≠ 0xe659 ∧ lrEncoding j ≠ 0xe65a ∧ lrEncoding j ≠ 0xe65d ∧
      lrEncoding j ≠ 0xe640 ∧ lrEncoding j ≠ 0xe648 ∧ lrEncoding j ≠ 0xe658 ∧
      lrEncoding j ≠ 0xe65f ∧ 0xe660 ≤ lrEncoding j ∧ (lrEncoding j).toNat - 0xe660 = j := by
    decide
  obtain ⟨vtr, misr, elrsr, ap0r0, ap1r0, hcr, vmcr, list, index⟩ := checked j small
  unfold readIch
  rw [if_neg vtr, if_neg misr, if_neg elrsr, if_neg ap0r0, if_neg ap1r0, if_neg hcr, if_neg vmcr,
    if_pos list]
  simp only [index, if_pos small]

theorem hvGicGetIchReg_eq {g : Globals} {m : GicModel} (gic : g.gic = some m) {slots : VcpuTable}
    {i : Fin kMaxVcpuIds} (live : (slots i).used = true) (modelled : (slots i).id < kModelledCpus)
    {enc : BitVec 16} {slot : Nat} (named : sparseSlot enc kIchEncodings = some slot) :
    hvGicGetIchReg g slots i enc = readIch enc m (slots i) slot := by
  unfold hvGicGetIchReg getBank
  rw [gic, findVcpu_live slots live, named]
  exact if_neg (Nat.not_le.mpr modelled)

theorem sameInterface_of_reads {g g' : Globals} {m : GicModel} (gic : g.gic = some m)
    (gic' : g'.gic = some m) {slots slots' : VcpuTable} (same : SameVcpus slots slots')
    {i : Fin kMaxVcpuIds} (live : (slots i).used = true) (modelled : (slots i).id < kModelledCpus)
    (reads : ∀ enc, ¬ ichReported enc →
      hvGicGetIchReg g' slots' i enc = hvGicGetIchReg g slots i enc) :
    SameInterface (slots i).ctx (slots' i).ctx := by
  have live' : (slots' i).used = true := (same i).1.trans live
  have modelled' : (slots' i).id < kModelledCpus := (same i).2 ▸ modelled
  have agree : ∀ enc slot, ¬ ichReported enc → sparseSlot enc kIchEncodings = some slot →
      readIch enc m (slots' i) slot = readIch enc m (slots i) slot := by
    intro enc slot state named
    rw [← hvGicGetIchReg_eq gic' live' modelled' named, ← hvGicGetIchReg_eq gic live modelled named]
    exact reads enc state
  refine ⟨?_, ?_, ?_, ?_, ?_⟩
  · exact Except.ok.inj (agree 0xe640 0 (by decide) (by decide))
  · exact Except.ok.inj (agree 0xe648 1 (by decide) (by decide))
  · exact Except.ok.inj (agree 0xe658 2 (by decide) (by decide))
  · exact Except.ok.inj (agree 0xe65f 7 (by decide) (by decide))
  · intro j small
    have checked : ∀ j < 8, ¬ ichReported (lrEncoding j) ∧
        sparseSlot (lrEncoding j) kIchEncodings = some (8 + j) := by decide
    obtain ⟨state, named⟩ := checked j small
    have shown := agree _ _ state named
    rw [readIch_lr _ _ _ small, readIch_lr _ _ _ small] at shown
    exact Except.ok.inj shown

end OpenHypervisor
