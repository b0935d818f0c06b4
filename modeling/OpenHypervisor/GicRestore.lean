import OpenHypervisor.GicState

/-!
# The controller saved, restored and reset

The two ways the controller's state is put back: to what was saved, and to what
it was after creation.  Neither reaches the words of the vCPUs' pages, and what
is saved is a blank model.
-/

set_option autoImplicit false

namespace OpenHypervisor

/-! ## Where a run of the controller starts -/

def createAll (traps : List CreateTrap) (s : GicSide) : GicSide :=
  traps.foldl (fun s trap => (s.1, (hvVcpuCreate s.1 trap s.2).2)) s

/-- Right after `hv_gic_create` and the creation of the vCPUs, one of them at
least. -/
def GicStarted (base : Word) (s : GicSide) : Prop :=
  ∃ g slots traps, (hvGicCreate g slots base).rc = hvSuccess ∧
    s = createAll traps ((GicCall.create base).after (g, slots)) ∧ (firstUsed s.2).isSome = true

structure FromBottom (slots : VcpuTable) : Prop where
  id : ∀ i, (slots i).used = true → (slots i).id = i
  first : ∀ i, (slots i).used = true → (slots vcpu0).used = true

theorem firstFree_vcpu0 {slots : VcpuTable} (free : (slots vcpu0).used = false) :
    firstFree slots = some vcpu0 := by
  show (List.finRange (63 + 1)).find? _ = some vcpu0
  rw [List.finRange_succ]
  apply List.find?_cons_of_pos
  show (!(slots vcpu0).used) = true
  rw [free]
  rfl

theorem FromBottom.firstUsed {slots : VcpuTable} (bottom : FromBottom slots)
    (live : (firstUsed slots).isSome = true) : firstUsed slots = some vcpu0 := by
  obtain ⟨i, found⟩ := Option.isSome_iff_exists.mp live
  have used := bottom.first i (firstUsed_used found)
  show (List.finRange (63 + 1)).find? _ = some vcpu0
  rw [List.finRange_succ]
  exact List.find?_cons_of_pos used

theorem FromBottom.create {slots : VcpuTable} (bottom : FromBottom slots)
    {free : Fin kMaxVcpuIds} (found : firstFree slots = some free) {slot : VcpuSlot}
    (live : slot.used = true) (id : slot.id = free) :
    FromBottom (Function.update slots free slot) := by
  have low : (Function.update slots free slot vcpu0).used = true := by
    by_cases here : vcpu0 = free
    · rw [← here, Function.update_self, live]
    · rw [Function.update_of_ne here]
      by_contra unused
      rw [firstFree_vcpu0 (Bool.eq_false_iff.mpr unused)] at found
      exact here (Option.some.inj found)
  refine ⟨fun i => ?_, fun _ _ => low⟩
  by_cases here : i = free
  · rw [here, Function.update_self]
    exact fun _ => id
  · rw [Function.update_of_ne here]
    exact bottom.id i

theorem hvVcpuCreate_fromBottom (g : Globals) (trap : CreateTrap) {slots : VcpuTable}
    (bottom : FromBottom slots) : FromBottom (hvVcpuCreate g trap slots).2 := by
  unfold hvVcpuCreate
  split
  · exact bottom
  · split
    · exact bottom
    · rename_i free found
      split
      · exact bottom
      · split
        · exact bottom
        · exact bottom.create found rfl rfl

theorem createAll_spec (traps : List CreateTrap) {s : GicSide} (bottom : FromBottom s.2) :
    (createAll traps s).1 = s.1 ∧ FromBottom (createAll traps s).2 := by
  induction traps generalizing s with
  | nil => exact ⟨rfl, bottom⟩
  | cons trap rest ih => exact ih (hvVcpuCreate_fromBottom s.1 trap bottom)

theorem hvGicCreate_success {g : Globals} {slots : VcpuTable} {base : Word}
    (success : (hvGicCreate g slots base).rc = hvSuccess) :
    (hvGicCreate g slots base).g.gic = some (createdModel base) ∧
      (hvGicCreate g slots base).slots = slots ∧ firstUsed slots = none := by
  revert success
  unfold hvGicCreate
  split
  · exact nofun
  · split
    · exact nofun
    · rename_i unused
      split
      · exact nofun
      · exact fun _ => ⟨rfl, rfl, Option.not_isSome_iff_eq_none.mp unused⟩

theorem GicStarted.spec {base : Word} {s : GicSide} (started : GicStarted base s) :
    s.1.gic = some (createdModel base) ∧ FromBottom s.2 ∧ firstUsed s.2 = some vcpu0 := by
  obtain ⟨g, slots, traps, success, rfl, live⟩ := started
  obtain ⟨gic, same, none⟩ := hvGicCreate_success success
  have unused : ∀ i, (slots i).used ≠ true := fun i =>
    List.find?_eq_none.mp none i (List.mem_finRange i)
  have empty : FromBottom ((GicCall.create base).after (g, slots)).2 := by
    show FromBottom (hvGicCreate g slots base).slots
    rw [same]
    exact ⟨fun i live => absurd live (unused i), fun i live => absurd live (unused i)⟩
  obtain ⟨globals, bottom⟩ := createAll_spec traps empty
  refine ⟨?_, bottom, bottom.firstUsed live⟩
  rw [globals]
  exact gic

def bootedGic : GicSide :=
  createAll [{ page := versionedPage }]
    ((GicCall.create 0x8010000).after ({ vmAlive := true }, fun _ => {}))

theorem bootedGic_started : GicStarted 0x8010000 bootedGic :=
  ⟨{ vmAlive := true }, fun _ => {}, [{ page := versionedPage }], by decide, rfl, by decide⟩

/-! ## Saved and restored -/

/-- The memory of a new object is zeroed, and nothing is copied into it. -/
def hvGicStateCreate : GicModel := {}

def hvGicStateGetData (state : GicModel) : GicModel := state

/-- The state is created after the first writes, and its bytes are set after the
others. -/
def restored (start : GicSide) (before after : List GicCall) : GicSide :=
  let saved := serveAll before start
  let data := hvGicStateGetData hvGicStateCreate
  GicCall.after (.setState data) (serveAll after saved)

def RoundTrips (start : GicSide) (before after : List GicCall) : Prop :=
  ∀ read : GicRead, read.OfState →
    read.answer (restored start before after) = read.answer (serveAll before start)

/-- GICD_TYPER says how many interrupt lines there are, and no write changes it. -/
theorem GicKept.typer {base : Word} {slots : VcpuTable} {s : GicSide} (kept : GicKept base slots s) :
    hvGicGetDistributorReg s.1 4 = .ok 0x0478001f := by
  obtain ⟨m, gic, same⟩ := kept.model
  have slot : frameSlot 4 kDistSlots = some gicdTyper := by decide
  have created : (createdModel base).dist gicdTyper = 0x0478001f := rfl
  unfold hvGicGetDistributorReg
  rw [gic]
  simp only [slot]
  rw [same.typer, created]

theorem state_neverRestored {base : Word} {start : GicSide}
    (created : start.1.gic = some (createdModel base)) {before after : List GicCall}
    (saves : ∀ call ∈ before, call.Writes) (writes : ∀ call ∈ after, call.Writes) :
    ¬ RoundTrips start before after := by
  intro trips
  have saved := (gicKept_created created).serveAll saves
  obtain ⟨m, gic, -⟩ := (saved.serveAll writes).model
  have blank : hvGicGetDistributorReg (restored start before after).1 4 = .ok 0 := by
    unfold restored GicCall.after
    simp only [GicCall.serve, hvGicSetState, gic]
    rfl
  have same : hvGicGetDistributorReg (restored start before after).1 4 =
      hvGicGetDistributorReg (serveAll before start).1 4 := trips (.distributorReg 4) trivial
  rw [blank, saved.typer] at same
  cases same

/-- One interrupt enabled, the state saved at once, and restored after it is
raised. -/
theorem state_neverRestored_raise : ¬ RoundTrips bootedGic [.setDistributorReg 0x104 1]
    [.setSpi 32 true] := by
  have created : bootedGic.1.gic = some (createdModel 0x8010000) := rfl
  apply state_neverRestored created
  · simp [GicCall.Writes]
  · simp [GicCall.Writes]

theorem enable_lost : GicStarted 0x8010000 bootedGic ∧
    ¬ RoundTrips bootedGic [.setDistributorReg 0x104 1] [] := by
  refine ⟨bootedGic_started, fun trips => ?_⟩
  have same := trips (.distributorReg 0x104) trivial
  revert same
  decide

/-! ## Reset -/

def Queued (s : GicSide) (intid : Nat) : Prop :=
  ∃ i, (s.2 i).used = true ∧ ∃ j, j < ichLrCount ∧ LrIsPending ((s.2 i).ctx.ichLr j) ∧
    lrVintid ((s.2 i).ctx.ichLr j) = BitVec.ofNat 64 intid ∧
    ((s.2 i).ctx.ichLr j).getLsbD 32 = true

def LrsEmpty (slots : VcpuTable) : Prop :=
  ∀ i, (slots i).used = true → ∀ j, j < ichLrCount → ¬ LrUsed ((slots i).ctx.ichLr j)

def enableAndRaise (intid : Nat) (value : Word) : List GicCall :=
  [.setDistributorReg (4 * (gicdIsenabler0 + intid / 32)) value, .setSpi intid true]

structure ResetComplete (created reset : GicSide) : Prop where
  reads : ∀ read : GicRead, read.OfState → read.answer reset = read.answer created
  empty : LrsEmpty reset.2
  queues : ∀ intid, IsSpi intid → ∀ value : Word, value.getLsbD (intid % 32) = true →
    Queued (serveAll (enableAndRaise intid value) reset) intid

/-- The pages the controller keeps its other half in are as they were created,
with nothing queued. -/
structure NothingLeft (created slots : VcpuTable) : Prop where
  interface : ∀ i, (created i).used = true → (created i).id < kModelledCpus →
    SameInterface (created i).ctx (slots i).ctx
  empty : LrsEmpty slots

theorem markDirty_interface (c : Ctx) (bits : Word) : SameInterface c (c.markDirty bits) where
  ap0r0 := c.markDirty_word _ _ (by decide)
  ap1r0 := c.markDirty_word _ _ (by decide)
  hcr := c.markDirty_word _ _ (by decide)
  vmcr := c.markDirty_word _ _ (by decide)
  lrs j small := by
    have other : ohvRwControls + ichLrOff j ≠ ohvRwStateDirty := by
      simp only [ichLrCount] at small
      simp only [ohvRwControls, ichLrOff, ohvRwStateDirty]
      omega
    have same : (c.markDirty bits).ichLr j = c.ichLr j := c.markDirty_word _ _ other
    rw [same]

theorem SameInterface.refl (c : Ctx) : SameInterface c c := ⟨rfl, rfl, rfl, rfl, fun _ _ => rfl⟩

/-- A reset only announces the pages. -/
theorem markAll_interface (slots : VcpuTable) (i : Fin kMaxVcpuIds) :
    SameInterface (slots i).ctx (markAll slots i).ctx := by
  unfold markAll
  split
  · exact markDirty_interface _ _
  · exact .refl _

theorem markAll_empty (slots : VcpuTable) : LrsEmpty (markAll slots) ↔ LrsEmpty slots := by
  have edits : GicCall.reset.Edits slots (markAll slots) := .all
  refine forall_congr' fun i => ?_
  rw [(edits.vcpus i).1]
  refine forall_congr' fun _ => forall_congr' fun j => forall_congr' fun small => ?_
  rw [(markAll_interface slots i).used small]

theorem GicKept.reset {base : Word} {slots : VcpuTable} {s : GicSide} (kept : GicKept base slots s) :
    (GicCall.reset.after s).1.gic = some (createdModel base) ∧
      (GicCall.reset.after s).2 = markAll s.2 := by
  obtain ⟨m, gic, same⟩ := kept.model
  have base : m.redistributorBase = base := same.redistributorBase
  unfold GicCall.after
  simp only [GicCall.serve, hvGicReset, gic, base]
  exact ⟨rfl, rfl⟩

theorem GicKept.reset_vcpus {base : Word} {slots : VcpuTable} {s : GicSide}
    (kept : GicKept base slots s) : SameVcpus slots (GicCall.reset.after s).2 :=
  kept.vcpus.trans (GicCall.reset.serve_does s.1 s.2).edits.vcpus

/-- With every list register free the raise takes one. -/
theorem queueSpi_empty (intid : Nat) (priority : BitVec 8) {c : Ctx}
    (empty : ∀ j, j < ichLrCount → ¬ LrUsed (c.ichLr j)) :
    ∃ j, j < ichLrCount ∧ (queueSpi intid priority c).ichLr j = lrPending intid priority := by
  obtain ⟨stays, -⟩ | ⟨-, j, small, -, placed⟩ := SlotBank.place_cases LrUsed lrVintid ichLrCount
    (BitVec.ofNat 64 intid) (lrPending intid priority) c.ichLr
  · exfalso
    rcases stays with ⟨j, small, used, -⟩ | full
    · exact empty j small used
    · exact empty 0 (by decide) (full 0 (by decide))
  · refine ⟨j, small, ?_⟩
    rw [queueSpi_ichLr intid priority c j small, placed, Function.update_self]

theorem enableAndRaise_page {t : GicSide} {m : GicModel} (gic : t.1.gic = some m)
    {i : Fin kMaxVcpuIds} (first : firstUsed t.2 = some i) (modelled : (t.2 i).id < kModelledCpus)
    {intid : Nat} (spi : IsSpi intid) {value : Word} (set : value.getLsbD (intid % 32) = true) :
    ∃ priority, (serveAll (enableAndRaise intid value) t).2 =
      updateCtx t.2 i (queueSpi intid priority) := by
  have small := spi.small
  let offset := 4 * (gicdIsenabler0 + intid / 32)
  obtain ⟨gic', slots'⟩ := hvGicSetDistributorReg_gic gic t.2 offset value
  have inside : gicdIsenabler0 + intid / 32 < kDistSlots := by
    simp only [gicdIsenabler0, kDistSlots]
    omega
  have other : gicdIsenabler0 + intid / 32 ≠ gicdTyper := by
    simp only [gicdIsenabler0, gicdTyper]
    omega
  have enabled : (m.write offset value).Enabled intid := by
    rw [GicModel.Enabled, GicModel.write_dist m offset value _ other inside, if_pos rfl]
    exact set
  refine ⟨spiPriority (m.write offset value) intid, ?_⟩
  show (hvGicSetSpi (hvGicSetDistributorReg t.1 t.2 offset value).g
    (hvGicSetDistributorReg t.1 t.2 offset value).slots intid true).slots = _
  rw [slots', hvGicSetSpi_eq gic' t.2 intid true spi first]
  show (if (t.2 i).id ≥ kModelledCpus then t.2 else _) = _
  rw [if_neg (Nat.not_le.mpr modelled)]
  refine congrArg (updateCtx t.2 i) ?_
  funext c
  rw [deliverSpi, if_pos rfl, if_pos enabled]

theorem enableAndRaise_queued {t : GicSide} {m : GicModel} (gic : t.1.gic = some m)
    {i : Fin kMaxVcpuIds} (first : firstUsed t.2 = some i) (modelled : (t.2 i).id < kModelledCpus)
    (empty : LrsEmpty t.2) {intid : Nat} (spi : IsSpi intid) {value : Word}
    (set : value.getLsbD (intid % 32) = true) :
    Queued (serveAll (enableAndRaise intid value) t) intid := by
  have live := firstUsed_used first
  obtain ⟨priority, page⟩ := enableAndRaise_page gic first modelled spi set
  obtain ⟨j, small, placed⟩ := queueSpi_empty intid priority (empty i live)
  refine ⟨i, ?_, j, small, ?_⟩
  · rw [page, updateCtx, Function.update_self]
    exact live
  · rw [page, updateCtx, Function.update_self]
    simp only [placed]
    refine ⟨lrPending_state intid priority spi.small, lrPending_vintid intid priority spi.small, ?_⟩
    rw [getLsbD_lrPending _ _ 32 (by decide)]
    simp only [decide_true, Bool.or_true]

/-- A reset is complete exactly when there was nothing to undo in the pages. -/
theorem reset_complete_iff {base : Word} {created : GicSide} (started : GicStarted base created)
    {calls : List GicCall} (writes : ∀ call ∈ calls, call.Writes) :
    ResetComplete created (GicCall.reset.after (serveAll calls created)) ↔
      NothingLeft created.2 (serveAll calls created).2 := by
  obtain ⟨gic, bottom, first⟩ := started.spec
  have live := firstUsed_used first
  have kept := (gicKept_created gic).serveAll writes
  obtain ⟨gic', marked⟩ := kept.reset
  have vcpus := kept.reset_vcpus
  constructor
  · intro complete
    refine ⟨fun i live modelled => ?_, ?_⟩
    · have shown := sameInterface_of_reads gic gic' vcpus live modelled
        fun enc state => complete.reads (.ichReg i enc) state
      rw [marked] at shown
      exact shown.trans (markAll_interface _ i).symm
    · have empty := complete.empty
      rw [marked, markAll_empty] at empty
      exact empty
  · intro nothing
    have empty : LrsEmpty (GicCall.reset.after (serveAll calls created)).2 := by
      rw [marked, markAll_empty]
      exact nothing.empty
    have first' := vcpus.firstUsed.trans first
    refine ⟨fun read state => ?_, empty, fun intid spi value set => ?_⟩
    · refine answer_congr (gic'.trans gic.symm) vcpus (fun i live modelled => ?_) state
      rw [marked]
      exact (nothing.interface i live modelled).trans (markAll_interface _ i)
    · refine enableAndRaise_queued gic' first' ?_ empty spi set
      rw [(vcpus vcpu0).2, bottom.id vcpu0 live]
      decide

def modelWrites : List GicCall := [.setDistributorReg 0x104 1, .setMsiReg 0x40 5]

theorem bootedGic_empty : LrsEmpty bootedGic.2 := by
  intro i live j small
  have slots : bootedGic.2 = Function.update (fun _ => {}) vcpu0
      (createdSlot bootedGic.1 0 versionedPage {}) := rfl
  have here : i = vcpu0 := by
    by_contra other
    rw [slots, Function.update_of_ne other] at live
    cases live
  subst here
  have empty : ∀ j < 8, ¬ LrUsed ((bootedGic.2 vcpu0).ctx.ichLr j) := by decide
  exact empty j small

theorem reset_complete_modelWrites :
    ResetComplete bootedGic (GicCall.reset.after (serveAll modelWrites bootedGic)) := by
  have writes : ∀ call ∈ modelWrites, call.Writes := by simp [modelWrites, GicCall.Writes]
  apply (reset_complete_iff bootedGic_started writes).mpr
  have same : (serveAll modelWrites bootedGic).2 = bootedGic.2 := rfl
  rw [same]
  exact ⟨fun _ _ _ => .refl _, bootedGic_empty⟩

/-- Enabled and raised, and still queued after the reset. -/
def raisedBefore : List GicCall := [.setDistributorReg 0x104 1, .setSpi 32 true]

theorem raisedBefore_left : GicStarted 0x8010000 bootedGic ∧
    (∀ call ∈ raisedBefore, call.Writes) ∧
    ¬ ResetComplete bootedGic (GicCall.reset.after (serveAll raisedBefore bootedGic)) := by
  refine ⟨bootedGic_started, by simp [raisedBefore, GicCall.Writes], fun complete => ?_⟩
  have used : LrUsed (((GicCall.reset.after (serveAll raisedBefore bootedGic)).2 vcpu0).ctx.ichLr 0) := by
    decide
  exact complete.empty vcpu0 (by decide) 0 (by decide) used

end OpenHypervisor
