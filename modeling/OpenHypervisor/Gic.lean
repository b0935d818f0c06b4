import OpenHypervisor.Registers

/-!
# The userspace interrupt controller

The calls of `ohv_gic.cpp` that change something.  The model object is one of
the globals; the half that reaches hardware are the list registers and their
neighbours in a vCPU's page, so a call works on the whole table of vCPUs.
-/

set_option autoImplicit false

namespace OpenHypervisor

def kMaxVcpuIds : Nat := 64

abbrev VcpuTable := Fin kMaxVcpuIds → VcpuSlot

def findVcpu (slots : VcpuTable) (id : Nat) : Option (Fin kMaxVcpuIds) :=
  if small : id < kMaxVcpuIds then
    if (slots ⟨id, small⟩).used then some ⟨id, small⟩ else none
  else none

def firstUsed (slots : VcpuTable) : Option (Fin kMaxVcpuIds) :=
  (List.finRange kMaxVcpuIds).find? fun i => (slots i).used

/-- What a controller call leaves. -/
structure GicAnswer where
  rc : HvReturn
  g : Globals
  slots : VcpuTable

/-! ## Geometry -/

def kDistSlots : Nat := 0x10000 / 4
def kRedistSlots : Nat := 0x20000 / 4
def kMsiSlots : Nat := 0x10000 / 4
def kModelledCpus : Nat := 16
def kSpiBase : Nat := 32
def kSpiCount : Nat := 988

def gicdCtlr : Nat := 0x0 / 4
def gicdTyper : Nat := 0x4 / 4
def gicdIsenabler0 : Nat := 0x100 / 4
def gicdIspendr0 : Nat := 0x200 / 4
def gicdIpriorityr0 : Nat := 0x400 / 4

/-- An offset into one of the memory-mapped frames, as a slot of the model. -/
def frameSlot (offset slots : Nat) : Option Nat :=
  if offset % 4 = 0 ∧ offset / 4 < slots then some (offset / 4) else none

def resetDist : Nat → Word :=
  Function.update (Function.update (fun _ => 0) gicdCtlr 0x50) gicdTyper 0x0478001f

def kIccEncodings : List (BitVec 16) := [
  0xc230, 0xc643, 0xc644, 0xc648, 0xc65b, 0xc663, 0xc664, 0xc665, 0xc666, 0xc667, 0xe64d]

def kIcvEncodings : List (BitVec 16) := [
  0xc230, 0xc643, 0xc644, 0xc648, 0xc65b, 0xc663, 0xc664, 0xc665, 0xc666, 0xc667]

def kIchEncodings : List (BitVec 16) := [
  0xe640, 0xe648, 0xe658, 0xe659, 0xe65a, 0xe65b, 0xe65d, 0xe65f, 0xe660, 0xe661, 0xe662, 0xe663,
  0xe664, 0xe665, 0xe666, 0xe667, 0xe668, 0xe669, 0xe66a, 0xe66b, 0xe66c, 0xe66d, 0xe66e, 0xe66f]

def sparseSlot (enc : BitVec 16) (table : List (BitVec 16)) : Option Nat :=
  table.findIdx? fun e => e == enc

/-! ## The list registers -/

def ichLrCount : Nat := 8
def ichLrOff (i : Nat) : Nat := 0x90 + i * 8
def ichHcrOff : Nat := 0x88

def Ctx.ichLr (c : Ctx) (i : Nat) : Word := c.control (ichLrOff i)
def Ctx.setIchLr (c : Ctx) (i : Nat) (value : Word) : Ctx := c.setControl (ichLrOff i) value

def lrStatePending : Word := BitVec.twoPow 64 62
def lrStateMask : Word := 0xc000000000000000#64
def lrGroup1 : Word := BitVec.twoPow 64 60
def lrVintidMask : Word := 0xffffffff#64

/-- What both interfaces of a list register announce. -/
def markGic (c : Ctx) : Ctx := c.markDirty (ohvStateGic ||| ohvStateControls)

def lrPending (intid : Nat) (priority : BitVec 8) : Word :=
  lrStatePending ||| lrGroup1 ||| (priority.zeroExtend 64 <<< 48) ||| BitVec.ofNat 64 intid |||
    ohvIchLrDirty

/-- A list register is given to the interrupt unless one holds it already; with
all of them taken the pending bit of the distributor keeps it. -/
def queueSpi (intid : Nat) (priority : BitVec 8) (c : Ctx) : Ctx :=
  let held := fun i => c.ichLr i &&& lrStateMask ≠ 0 ∧
    c.ichLr i &&& lrVintidMask = BitVec.ofNat 64 intid
  if (List.range ichLrCount).any fun i => held i then c
  else
    match (List.range ichLrCount).find? fun i => c.ichLr i &&& lrStateMask = 0 with
    | some i => markGic (c.setIchLr i (lrPending intid priority))
    | none => c

/-- A pending list register of the interrupt goes inactive. -/
def retireLr (intid : Nat) (c : Ctx) (i : Nat) : Ctx :=
  if c.ichLr i &&& lrStateMask = lrStatePending ∧
      c.ichLr i &&& lrVintidMask = BitVec.ofNat 64 intid then
    markGic (c.setIchLr i ohvIchLrDirty)
  else c

def retireSpi (intid : Nat) (c : Ctx) : Ctx := (List.range ichLrCount).foldl (retireLr intid) c

/-! ## The calls -/

section Calls

variable (g : Globals) (slots : VcpuTable)

def unchanged (rc : HvReturn) : GicAnswer := ⟨rc, g, slots⟩

def setModel (m : GicModel) (slots : VcpuTable) : GicAnswer :=
  ⟨hvSuccess, { g with gic := some m }, slots⟩

def updateCtx (i : Fin kMaxVcpuIds) (f : Ctx → Ctx) : VcpuTable :=
  Function.update slots i { slots i with ctx := f (slots i).ctx }

/-- Every live vCPU's GIC state announced. -/
def markAll : VcpuTable := fun i =>
  if (slots i).used then (slots i).markDirty ohvStateGic else slots i

def hvGicCreate (redistributorBase : Word) : GicAnswer :=
  if g.vmAlive = false then unchanged g slots hvNoDevice
  else if (firstUsed slots).isSome then unchanged g slots hvBusy
  else if g.gic.isSome then unchanged g slots hvBusy
  else setModel g { redistributorBase := redistributorBase, dist := resetDist } slots

def hvGicSetDistributorReg (offset : Nat) (value : Word) : GicAnswer :=
  match g.gic with
  | none => unchanged g slots hvNoDevice
  | some m =>
      match frameSlot offset kDistSlots with
      | none => unchanged g slots hvBadArgument
      | some slot =>
          if slot = gicdTyper then unchanged g slots hvSuccess
          else setModel g { m with dist := Function.update m.dist slot value } slots

def hvGicSetMsiReg (offset : Nat) (value : Word) : GicAnswer :=
  match g.gic with
  | none => unchanged g slots hvNoDevice
  | some m =>
      match frameSlot offset kMsiSlots with
      | none => unchanged g slots hvBadArgument
      | some slot => setModel g { m with msi := Function.update m.msi slot value } slots

/-- A per-vCPU bank: the call names a vCPU, the model keeps sixteen of them. -/
def setBank (id : Nat) (slot : Option Nat) (write : GicModel → Nat → Nat → GicModel) : GicAnswer :=
  match g.gic, findVcpu slots id with
  | some m, some i =>
      if (slots i).id ≥ kModelledCpus then unchanged g slots hvBadArgument
      else
        match slot with
        | none => unchanged g slots hvBadArgument
        | some slot =>
            setModel g (write m (slots i).id slot)
              (updateCtx slots i fun c => c.markDirty ohvStateGic)
  | _, _ => unchanged g slots hvNoDevice

/-- A register of one vCPU's row. -/
def updateRow (bank : Nat → Nat → Word) (row slot : Nat) (value : Word) : Nat → Nat → Word :=
  Function.update bank row (Function.update (bank row) slot value)

def hvGicSetRedistributorReg (id offset : Nat) (value : Word) : GicAnswer :=
  setBank g slots id (frameSlot offset kRedistSlots) fun m row slot =>
    { m with redist := updateRow m.redist row slot value }

def hvGicSetIccReg (id : Nat) (enc : BitVec 16) (value : Word) : GicAnswer :=
  setBank g slots id (sparseSlot enc kIccEncodings) fun m row slot =>
    { m with icc := updateRow m.icc row slot value }

def hvGicSetIcvReg (id : Nat) (enc : BitVec 16) (value : Word) : GicAnswer :=
  setBank g slots id (sparseSlot enc kIcvEncodings) fun m row slot =>
    { m with icv := updateRow m.icv row slot value }

/-- The half of `hv_gic_set_ich_reg` that reaches the page, with its result. -/
def writeIch (enc : BitVec 16) (value : Word) (c : Ctx) : HvReturn × Ctx :=
  if enc = 0xe659 ∨ enc = 0xe65a ∨ enc = 0xe65b ∨ enc = 0xe65d then (hvSuccess, c)
  else if enc = 0xe640 then (hvSuccess, markGic (c.put ohvRwVgicSysregs value))
  else if enc = 0xe648 then (hvSuccess, markGic (c.put (ohvRwVgicSysregs + 8) value))
  else if enc = 0xe658 then (hvSuccess, markGic (c.setControl ichHcrOff value))
  else if enc = 0xe65f then (hvSuccess, markGic (c.setBanked 21 value))
  else if 0xe660 ≤ enc ∧ enc.toNat - 0xe660 < ichLrCount then
    (hvSuccess, markGic (c.setIchLr (enc.toNat - 0xe660) (value ||| ohvIchLrDirty)))
  else (hvBadArgument, c)

def hvGicSetIchReg (id : Nat) (enc : BitVec 16) (value : Word) : GicAnswer :=
  match g.gic, findVcpu slots id with
  | some m, some i =>
      if (slots i).id ≥ kModelledCpus then unchanged g slots hvBadArgument
      else
        match sparseSlot enc kIchEncodings with
        | none => unchanged g slots hvBadArgument
        | some slot =>
            let m := { m with ich := updateRow m.ich (slots i).id slot value }
            { setModel g m (updateCtx slots i fun c => (writeIch enc value c).2) with
              rc := (writeIch enc value (slots i).ctx).1 }
  | _, _ => unchanged g slots hvNoDevice

def spiPriority (m : GicModel) (intid : Nat) : BitVec 8 :=
  (m.dist (gicdIpriorityr0 + intid / 4)).extractLsb' (8 * (intid % 4)) 8

def hvGicSetSpi (intid : Nat) (level : Bool) : GicAnswer :=
  match g.gic with
  | none => unchanged g slots hvNoDevice
  | some m =>
      if intid < kSpiBase ∨ intid ≥ kSpiBase + kSpiCount then unchanged g slots hvBadArgument
      else
        let bit := BitVec.twoPow 64 (intid % 32)
        let pend := gicdIspendr0 + intid / 32
        let was := m.dist pend
        let pended := Function.update m.dist pend (if level then was ||| bit else was &&& ~~~bit)
        let m := { m with dist := pended }
        let raised := fun (i : Fin kMaxVcpuIds) =>
          if level then
            if m.dist (gicdIsenabler0 + intid / 32) &&& bit = 0 then slots
            else updateCtx slots i (queueSpi intid (spiPriority m intid))
          else updateCtx slots i (retireSpi intid)
        match firstUsed slots with
        | some i => setModel g m (if (slots i).id ≥ kModelledCpus then slots else raised i)
        | none => setModel g m slots

def hvGicReset : GicAnswer :=
  match g.gic with
  | none => unchanged g slots hvNoDevice
  | some m =>
      setModel g { redistributorBase := m.redistributorBase, dist := resetDist } (markAll slots)

/-- The bytes handed in are a whole model. -/
def hvGicSetState (data : GicModel) : GicAnswer :=
  match g.gic with
  | none => unchanged g slots hvNoDevice
  | some _ => setModel g data (markAll slots)

end Calls

/-- The controller's interface, as one type of calls. -/
inductive GicCall where
  | create (redistributorBase : Word)
  | setDistributorReg (offset : Nat) (value : Word)
  | setRedistributorReg (id offset : Nat) (value : Word)
  | setIccReg (id : Nat) (enc : BitVec 16) (value : Word)
  | setIchReg (id : Nat) (enc : BitVec 16) (value : Word)
  | setIcvReg (id : Nat) (enc : BitVec 16) (value : Word)
  | setMsiReg (offset : Nat) (value : Word)
  | setSpi (intid : Nat) (level : Bool)
  | reset
  | setState (data : GicModel)

def GicCall.serve (call : GicCall) (g : Globals) (slots : VcpuTable) : GicAnswer :=
  match call with
  | .create base => hvGicCreate g slots base
  | .setDistributorReg offset value => hvGicSetDistributorReg g slots offset value
  | .setRedistributorReg id offset value => hvGicSetRedistributorReg g slots id offset value
  | .setIccReg id enc value => hvGicSetIccReg g slots id enc value
  | .setIchReg id enc value => hvGicSetIchReg g slots id enc value
  | .setIcvReg id enc value => hvGicSetIcvReg g slots id enc value
  | .setMsiReg offset value => hvGicSetMsiReg g slots offset value
  | .setSpi intid level => hvGicSetSpi g slots intid level
  | .reset => hvGicReset g slots
  | .setState data => hvGicSetState g slots data

/-! ## What a call does to the vCPUs -/

theorem findVcpu_used {slots : VcpuTable} {id : Nat} {i : Fin kMaxVcpuIds}
    (found : findVcpu slots id = some i) : (slots i).used = true := by
  unfold findVcpu at found
  split at found
  · split at found
    · rename_i live
      cases found
      exact live
    · cases found
  · cases found

theorem firstUsed_used {slots : VcpuTable} {i : Fin kMaxVcpuIds}
    (found : firstUsed slots = some i) : (slots i).used = true :=
  List.find?_some (p := fun i => (slots i).used) found

namespace GicCall

/-- The edits a call makes to a page. -/
inductive PageEdit : GicCall → (Ctx → Ctx) → Prop
  | mark (call : GicCall) : PageEdit call fun c => c.markDirty ohvStateGic
  | ich (id : Nat) (enc : BitVec 16) (value : Word) :
      PageEdit (.setIchReg id enc value) fun c => (writeIch enc value c).2
  | queue (intid : Nat) (priority : BitVec 8) :
      PageEdit (.setSpi intid true) (queueSpi intid priority)
  | retire (intid : Nat) : PageEdit (.setSpi intid false) (retireSpi intid)

/-- It leaves the vCPUs alone, edits the page of a live one, or announces all. -/
inductive Edits (call : GicCall) (slots : VcpuTable) : VcpuTable → Prop
  | nothing : Edits call slots slots
  | page (i : Fin kMaxVcpuIds) (f : Ctx → Ctx) (live : (slots i).used = true)
      (edit : call.PageEdit f) : Edits call slots (updateCtx slots i f)
  | all : Edits call slots (markAll slots)

structure Does (call : GicCall) (g : Globals) (slots : VcpuTable) (answer : GicAnswer) : Prop where
  globals : answer.g = { g with gic := answer.g.gic }
  edits : call.Edits slots answer.slots

section Does

variable {call : GicCall} (g : Globals) (slots : VcpuTable)

theorem Does.unchanged (rc : HvReturn) : call.Does g slots (unchanged g slots rc) :=
  ⟨rfl, .nothing⟩

theorem Does.setModel (m : GicModel) {after : VcpuTable} (edits : call.Edits slots after) :
    call.Does g slots (setModel g m after) :=
  ⟨rfl, edits⟩

theorem setBank_does (id : Nat) (slot : Option Nat) (write : GicModel → Nat → Nat → GicModel) :
    call.Does g slots (setBank g slots id slot write) := by
  unfold setBank
  split
  · rename_i found
    split
    · exact .unchanged g slots _
    · split
      · exact .unchanged g slots _
      · exact .setModel g slots _ (.page _ _ (findVcpu_used found) (.mark call))
  · exact .unchanged g slots _

theorem setIchReg_does (id : Nat) (enc : BitVec 16) (value : Word) :
    (setIchReg id enc value).Does g slots (hvGicSetIchReg g slots id enc value) := by
  unfold hvGicSetIchReg
  split
  · rename_i found
    split
    · exact .unchanged g slots _
    · split
      · exact .unchanged g slots _
      · exact ⟨rfl, .page _ _ (findVcpu_used found) (.ich id enc value)⟩
  · exact .unchanged g slots _

theorem setSpi_does (intid : Nat) (level : Bool) :
    (setSpi intid level).Does g slots (hvGicSetSpi g slots intid level) := by
  unfold hvGicSetSpi
  split
  · exact .unchanged g slots _
  · split
    · exact .unchanged g slots _
    · simp only
      split
      · rename_i found
        have live := firstUsed_used found
        apply Does.setModel
        split
        · exact .nothing
        · cases level with
          | true =>
              simp only [if_true]
              split
              · exact .nothing
              · exact .page _ _ live (.queue intid _)
          | false => exact .page _ _ live (.retire intid)
      · exact .setModel g slots _ .nothing

theorem serve_does (call : GicCall) : call.Does g slots (call.serve g slots) := by
  cases call with
  | create base =>
      simp only [GicCall.serve, hvGicCreate]
      split
      · exact .unchanged g slots _
      · split
        · exact .unchanged g slots _
        · split
          · exact .unchanged g slots _
          · exact .setModel g slots _ .nothing
  | setDistributorReg offset value =>
      simp only [GicCall.serve, hvGicSetDistributorReg]
      split
      · exact .unchanged g slots _
      · split
        · exact .unchanged g slots _
        · split
          · exact .unchanged g slots _
          · exact .setModel g slots _ .nothing
  | setMsiReg offset value =>
      simp only [GicCall.serve, hvGicSetMsiReg]
      split
      · exact .unchanged g slots _
      · split
        · exact .unchanged g slots _
        · exact .setModel g slots _ .nothing
  | setRedistributorReg id offset value =>
      simp only [GicCall.serve, hvGicSetRedistributorReg]
      exact setBank_does g slots id _ _
  | setIccReg id enc value =>
      simp only [GicCall.serve, hvGicSetIccReg]
      exact setBank_does g slots id _ _
  | setIcvReg id enc value =>
      simp only [GicCall.serve, hvGicSetIcvReg]
      exact setBank_does g slots id _ _
  | setIchReg id enc value => exact setIchReg_does g slots id enc value
  | setSpi intid level => exact setSpi_does g slots intid level
  | reset =>
      simp only [GicCall.serve, hvGicReset]
      split
      · exact .unchanged g slots _
      · exact .setModel g slots _ .all
  | setState data =>
      simp only [GicCall.serve, hvGicSetState]
      split
      · exact .unchanged g slots _
      · exact .setModel g slots _ .all

end Does

end GicCall

/-! ## The frame -/

theorem setIchLr_entry {before c : Ctx} (same : before.SameEntry c) (i : Nat) (value : Word) :
    before.SameEntry (markGic (c.setIchLr i value)) :=
  (same.setControl (ichLrOff i) value (by simp [ichLrOff])).markDirty _

theorem queueSpi_entry (intid : Nat) (priority : BitVec 8) (c : Ctx) :
    c.SameEntry (queueSpi intid priority c) := by
  unfold queueSpi
  simp only
  split
  · exact .refl c
  · split
    · exact setIchLr_entry (.refl c) _ _
    · exact .refl c

theorem retireSpi_entry (intid : Nat) (c : Ctx) : c.SameEntry (retireSpi intid c) := by
  have one : ∀ (c : Ctx) (i : Nat), c.SameEntry (retireLr intid c i) := by
    intro c i
    unfold retireLr
    split
    · exact setIchLr_entry (.refl c) _ _
    · exact .refl c
  have folded : ∀ (lrs : List Nat) (c : Ctx), c.SameEntry (lrs.foldl (retireLr intid) c) := by
    intro lrs
    induction lrs with
    | nil => exact fun c => .refl c
    | cons i rest ih =>
        intro c
        rw [List.foldl_cons]
        exact (one c i).trans (ih _)
  exact folded _ c

theorem writeIch_entry (enc : BitVec 16) (value : Word) (c : Ctx) :
    c.SameEntry (writeIch enc value c).2 := by
  have same := Ctx.SameEntry.refl c
  unfold writeIch
  split
  · exact same
  · split
    · exact (same.put _ value (by decide)).markDirty _
    · split
      · exact (same.put _ value (by decide)).markDirty _
      · split
        · exact (same.setControl _ value (by decide)).markDirty _
        · split
          · exact (same.put _ value (by decide)).markDirty _
          · split
            · exact setIchLr_entry same _ _
            · exact same

theorem GicCall.PageEdit.entry {call : GicCall} {f : Ctx → Ctx} (edit : call.PageEdit f) (c : Ctx) :
    c.SameEntry (f c) := by
  cases edit with
  | mark => exact (Ctx.SameEntry.refl c).markDirty _
  | ich id enc value => exact writeIch_entry enc value c
  | queue intid priority => exact queueSpi_entry intid priority c
  | retire intid => exact retireSpi_entry intid c

theorem GicCall.Edits.controlOnly {call : GicCall} {slots after : VcpuTable}
    (edits : call.Edits slots after) (j : Fin kMaxVcpuIds) : ControlOnly (slots j) (after j) := by
  cases edits with
  | nothing => exact .refl _
  | page i f live edit =>
      unfold updateCtx
      by_cases here : j = i
      · subst here
        rw [Function.update_self]
        exact ⟨rfl, edit.entry _⟩
      · rw [Function.update_of_ne here]
        exact .refl _
  | all =>
      unfold markAll
      split
      · exact ⟨rfl, (Ctx.SameEntry.refl _).markDirty _⟩
      · exact .refl _

/-- A controller call changes the model, and of a vCPU its page without the words
an entry is computed from. -/
structure GicOnly (g : Globals) (slots : VcpuTable) (after : GicAnswer) : Prop where
  globals : after.g = { g with gic := after.g.gic }
  slot : ∀ i, ControlOnly (slots i) (after.slots i)

theorem GicCall.serve_frame (call : GicCall) (g : Globals) (slots : VcpuTable) :
    GicOnly g slots (call.serve g slots) :=
  ⟨(call.serve_does g slots).globals, (call.serve_does g slots).edits.controlOnly⟩

end OpenHypervisor
