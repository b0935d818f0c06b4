import OpenHypervisor.ListRegs
import OpenHypervisor.VcpuLife

/-!
# Shared interrupts over runs

The calls that raise and lower shared interrupts and write the distributor, with
the guest at work between them, on a VM of one vCPU.
-/

set_option autoImplicit false

namespace OpenHypervisor

/-! ## Coherence -/

/-- The register names a shared interrupt that is pending at the distributor, as
it was raised. -/
structure Raised (s : GicVm) (lr : Word) (intid : Nat) : Prop where
  spi : IsSpi intid
  vintid : (lrVintid lr).toNat = intid
  pended : s.model.Pended intid
  priority : lrPriority lr = s.raisedWith intid
  group1 : lr.getLsbD 60 = true

structure Coherent (i : Fin kMaxVcpuIds) (s : GicVm) : Prop where
  apart : SlotBank.Apart LrUsed lrVintid ichLrCount (s.page i).ichLr
  pending : ∀ j, j < ichLrCount → LrIsPending ((s.page i).ichLr j) →
    ∃ intid, Raised s ((s.page i).ichLr j) intid
  unmodelled : kModelledCpus ≤ (s.slots i).id →
    ∀ j, j < ichLrCount → ¬ LrUsed ((s.page i).ichLr j)

/-- What lowering an interrupt leaves. -/
structure Withdrawn (i : Fin kMaxVcpuIds) (s t : GicVm) (intid : Nat) : Prop where
  gone : ∀ j, j < ichLrCount →
    ¬ (LrIsPending ((t.page i).ichLr j) ∧ (lrVintid ((t.page i).ichLr j)).toNat = intid)
  others : ∀ j, j < ichLrCount → (lrVintid ((s.page i).ichLr j)).toNat ≠ intid →
    (t.page i).ichLr j = (s.page i).ichLr j

/-- The event is not a write of one of the GICD_ISPENDR registers. -/
def GicEvent.LeavesPending : GicEvent → Prop
  | .setDistributorReg offset _ =>
      ¬ (4 * gicdIspendr0 ≤ offset ∧ offset < 4 * (gicdIspendr0 + 32))
  | _ => True

instance : DecidablePred GicEvent.LeavesPending
  | .setDistributorReg _ _ => inferInstanceAs (Decidable (¬ _))
  | .setSpi _ _ | .guest _ => isTrue trivial

theorem vintid_iff {intid : Nat} (small : intid < 1024) (lr : Word) :
    lrVintid lr = BitVec.ofNat 64 intid ↔ (lrVintid lr).toNat = intid := by
  have inside : intid < 2 ^ 64 := by omega
  constructor
  · intro same
    rw [same, BitVec.toNat_ofNat, Nat.mod_eq_of_lt inside]
  · intro same
    rw [← same, BitVec.ofNat_toNat, BitVec.setWidth_eq]

namespace Raised

variable {s t : GicVm} {lr lr' : Word} {intid : Nat}

theorem kept (raised : Raised s lr intid) (same : SameFields lr lr')
    (pended : t.model.Pended intid) (raisedWith : t.raisedWith intid = s.raisedWith intid) :
    Raised t lr' intid where
  spi := raised.spi
  vintid := by rw [same.vintid, raised.vintid]
  pended := pended
  priority := by rw [same.priority, raised.priority, raisedWith]
  group1 := by rw [same.group1, raised.group1]

theorem holds {i : Fin kMaxVcpuIds} {j : Nat} (raised : Raised s ((s.page i).ichLr j) intid)
    (small : j < ichLrCount) (pending : LrIsPending ((s.page i).ichLr j)) :
    (s.page i).HoldsSpi intid :=
  ⟨j, small, pending.used, (vintid_iff raised.spi.small _).mpr raised.vintid⟩

end Raised

theorem raised_lrPending {s : GicVm} {intid : Nat} {priority : BitVec 8} (spi : IsSpi intid)
    (pended : s.model.Pended intid) (same : s.raisedWith intid = priority) :
    Raised s (lrPending intid priority) intid where
  spi := spi
  vintid := (vintid_iff spi.small _).mp (lrPending_vintid intid priority spi.small)
  pended := pended
  priority := (lrPending_priority intid priority spi.small).trans same.symm
  group1 := lrPending_group1 intid priority

theorem SameFields.refl (lr : Word) : SameFields lr lr := ⟨rfl, rfl, rfl⟩

section Step

variable {i : Fin kMaxVcpuIds} {s t : GicVm} (one : OneVcpu i s) (coherent : Coherent i s)

include one coherent

theorem guest_coherent {page : Ctx} (taken : s.step i (.guest page) = some t) : Coherent i t := by
  obtain ⟨moves, turned⟩ := guest_turned one taken
  have raisedWith : t.raisedWith = s.raisedWith := by
    simp only [GicVm.step, Option.ite_none_right_eq_some, Option.some.injEq] at taken
    rw [← taken.2]
  refine ⟨?_, ?_, ?_⟩
  · rw [turned.page]
    exact coherent.apart.shrink fun j small used => (moves j small).used used
  · intro j small pending
    rw [turned.page] at pending ⊢
    obtain ⟨before, same⟩ := (moves j small).pending pending
    obtain ⟨intid, raised⟩ := coherent.pending j small before
    refine ⟨intid, raised.kept same ?_ (by rw [raisedWith])⟩
    rw [turned.model]
    exact raised.pended
  · intro unmodelled j small used
    rw [turned.id] at unmodelled
    rw [turned.page] at used
    exact coherent.unmodelled unmodelled j small ((moves j small).used used).1

omit one in
theorem samePage_coherent (page : t.page i = s.page i) (id : (t.slots i).id = (s.slots i).id)
    (kept : ∀ j, j < ichLrCount → LrIsPending ((s.page i).ichLr j) →
      ∃ named, Raised t ((s.page i).ichLr j) named) : Coherent i t := by
  refine ⟨?_, ?_, ?_⟩
  · rw [page]
    exact coherent.apart
  · intro j small pending
    rw [page] at pending ⊢
    exact kept j small pending
  · rw [id, page]
    exact coherent.unmodelled

theorem setDistributorReg_coherent {offset : Nat} {value : Word}
    (leaves : (GicEvent.setDistributorReg offset value).LeavesPending)
    (taken : s.step i (.setDistributorReg offset value) = some t) : Coherent i t := by
  have turned := setDistributorReg_turned one taken
  have raisedWith : t.raisedWith = s.raisedWith := by
    cases taken
    rfl
  apply samePage_coherent coherent turned.page turned.id
  intro j small pending
  obtain ⟨intid, raised⟩ := coherent.pending j small pending
  refine ⟨intid, raised.kept (.refl _) ?_ (by rw [raisedWith])⟩
  have word := raised.spi.small
  have elsewhere : offset ≠ 4 * (gicdIspendr0 + intid / 32) := by
    rintro rfl
    apply leaves
    simp only [gicdIspendr0]
    omega
  have slot : gicdIspendr0 + intid / 32 ≠ gicdTyper ∧
      gicdIspendr0 + intid / 32 < kDistSlots := by
    simp only [gicdIspendr0, gicdTyper, kDistSlots]
    omega
  rw [turned.model, GicModel.Pended, GicModel.write_dist _ _ _ _ slot.1 slot.2, if_neg elsewhere]
  exact raised.pended

omit one in
theorem raise_kept {intid : Nat} {j : Nat} (model : t.model = s.model.pend intid true)
    (raisedWith : t.raisedWith = s.raisedWith ∨ ¬ (s.page i).HoldsSpi intid ∧
      ∀ other, other ≠ intid → t.raisedWith other = s.raisedWith other)
    (small : j < ichLrCount) (pending : LrIsPending ((s.page i).ichLr j)) :
    ∃ named, Raised t ((s.page i).ichLr j) named := by
  obtain ⟨named, raised⟩ := coherent.pending j small pending
  refine ⟨named, raised.kept (.refl _) ?_ ?_⟩
  · rw [model, GicModel.pend_pended]
    split
    · rfl
    · exact raised.pended
  · rcases raisedWith with same | ⟨free, others⟩
    · rw [same]
    · apply others
      rintro rfl
      exact free (raised.holds small pending)

omit one in
/-- The raised interrupt takes a register, or one that holds it already stands. -/
theorem placed_coherent {intid : Nat} {priority : BitVec 8} (spi : IsSpi intid)
    (modelled : ¬ kModelledCpus ≤ (t.slots i).id) (model : t.model = s.model.pend intid true)
    (raisedWith : t.raisedWith = if ¬ (s.page i).HoldsSpi intid then
      Function.update s.raisedWith intid priority else s.raisedWith)
    (kept : ∀ j, j < ichLrCount → LrIsPending ((s.page i).ichLr j) →
      ∃ named, Raised t ((s.page i).ichLr j) named)
    (entries : ∀ j, j < ichLrCount → (t.page i).ichLr j = SlotBank.place LrUsed lrVintid
      ichLrCount (BitVec.ofNat 64 intid) (lrPending intid priority) (s.page i).ichLr j) :
    Coherent i t := by
  refine ⟨?_, ?_, fun unmodelled => absurd unmodelled modelled⟩
  · have placed := SlotBank.place_apart (lrPending_vintid intid priority spi.small)
      coherent.apart
    exact placed.congr entries
  · intro j small pending
    rw [entries j small] at pending ⊢
    obtain ⟨-, stays⟩ | ⟨free, k, -, -, placed⟩ :=
      SlotBank.place_cases LrUsed lrVintid ichLrCount (BitVec.ofNat 64 intid)
        (lrPending intid priority) (s.page i).ichLr
    · rw [stays] at pending ⊢
      exact kept j small pending
    · rw [placed] at pending ⊢
      by_cases here : j = k
      · rw [here, Function.update_self]
        refine ⟨intid, raised_lrPending spi ?_ ?_⟩
        · rw [model, GicModel.pend_pended, if_pos rfl]
        · have unheld : ¬ (s.page i).HoldsSpi intid := free
          rw [raisedWith, if_pos unheld, Function.update_self]
      · rw [Function.update_of_ne here] at pending ⊢
        exact kept j small pending

theorem raise_coherent {intid : Nat} (spi : IsSpi intid)
    (taken : s.step i (.setSpi intid true) = some t) : Coherent i t := by
  have turned := setSpi_turned one spi taken
  have raisedWith : t.raisedWith = if ¬ (s.page i).HoldsSpi intid then
      Function.update s.raisedWith intid (spiPriority s.model intid) else s.raisedWith := by
    cases taken
    simp only [true_and]
  have before : t.raisedWith = s.raisedWith ∨ ¬ (s.page i).HoldsSpi intid ∧
      ∀ other, other ≠ intid → t.raisedWith other = s.raisedWith other := by
    rw [raisedWith]
    split
    · rename_i free
      exact Or.inr ⟨free, fun other apart => Function.update_of_ne apart _ _⟩
    · exact Or.inl rfl
  have kept : ∀ j, j < ichLrCount → LrIsPending ((s.page i).ichLr j) →
      ∃ named, Raised t ((s.page i).ichLr j) named :=
    fun j small pending => raise_kept coherent turned.model before small pending
  have page := turned.page
  split at page
  · exact samePage_coherent coherent page turned.id kept
  · rename_i modelled
    by_cases enabled : s.model.Enabled intid
    · rw [← turned.id] at modelled
      apply placed_coherent coherent spi modelled turned.model raisedWith kept
      intro j small
      rw [page, deliverSpi_raise _ _ enabled j small]
    · rw [deliverSpi, if_pos rfl, if_neg enabled] at page
      exact samePage_coherent coherent page turned.id kept

theorem lower_coherent {intid : Nat} (spi : IsSpi intid)
    (taken : s.step i (.setSpi intid false) = some t) :
    Coherent i t ∧ Withdrawn i s t intid := by
  have turned := setSpi_turned one spi taken
  have raisedWith : t.raisedWith = s.raisedWith := by
    cases taken
    simp only [Bool.false_eq_true, false_and, if_false]
  have still : ∀ named, named ≠ intid → s.model.Pended named → t.model.Pended named := by
    intro named apart pended
    rw [turned.model, GicModel.pend_pended, if_neg apart]
    exact pended
  have page := turned.page
  split at page
  · -- Past the modelled vCPUs no register was ever taken.
    rename_i unmodelled
    have unused := coherent.unmodelled unmodelled
    refine ⟨samePage_coherent coherent page turned.id ?_, ⟨?_, ?_⟩⟩
    · intro j small pending
      exact absurd pending.used (unused j small)
    · rintro j small ⟨pending, -⟩
      rw [page] at pending
      exact unused j small pending.used
    · intro j small apart
      rw [page]
  · rename_i modelled
    have entries : ∀ j, j < ichLrCount → (t.page i).ichLr j = SlotBank.retire lrVintid
        LrIsPending (BitVec.ofNat 64 intid) ohvIchLrDirty (s.page i).ichLr j := by
      intro j small
      rw [page, deliverSpi_lower _ _ _ j small]
    have stays : ∀ j, j < ichLrCount → LrUsed ((t.page i).ichLr j) →
        (t.page i).ichLr j = (s.page i).ichLr j ∧ ¬ (LrIsPending ((s.page i).ichLr j) ∧
          lrVintid ((s.page i).ichLr j) = BitVec.ofNat 64 intid) := by
      intro j small used
      rw [entries j small] at used ⊢
      exact SlotBank.retire_used blank_unused used
    refine ⟨⟨?_, ?_, ?_⟩, ⟨?_, ?_⟩⟩
    · exact (SlotBank.retire_apart blank_unused coherent.apart).congr entries
    · intro j small pending
      obtain ⟨same, other⟩ := stays j small pending.used
      rw [same] at pending ⊢
      obtain ⟨named, raised⟩ := coherent.pending j small pending
      have apart : named ≠ intid := by
        rintro rfl
        exact other ⟨pending, (vintid_iff spi.small _).mpr raised.vintid⟩
      exact ⟨named, raised.kept (.refl _) (still named apart raised.pended) (by rw [raisedWith])⟩
    · intro unmodelled
      rw [turned.id] at unmodelled
      exact absurd unmodelled modelled
    · rintro j small ⟨pending, named⟩
      obtain ⟨same, other⟩ := stays j small pending.used
      rw [same] at pending named
      exact other ⟨pending, (vintid_iff spi.small _).mpr named⟩
    · intro j small apart
      rw [entries j small]
      exact if_neg fun both => apart ((vintid_iff spi.small _).mp both.2)

theorem refused_coherent {intid : Nat} {level : Bool} (none : ¬ IsSpi intid)
    (taken : s.step i (.setSpi intid level) = some t) :
    Coherent i t ∧ Withdrawn i s t intid := by
  have turned := setSpi_refused one none taken
  have raisedWith : ∀ named, IsSpi named → t.raisedWith named = s.raisedWith named := by
    intro named spi
    have apart : named ≠ intid := by
      rintro rfl
      exact none spi
    cases taken
    simp only
    split
    · exact Function.update_of_ne apart _ _
    · rfl
  refine ⟨samePage_coherent coherent turned.page turned.id ?_, ⟨?_, ?_⟩⟩
  · intro j small pending
    obtain ⟨named, raised⟩ := coherent.pending j small pending
    refine ⟨named, raised.kept (.refl _) ?_ (raisedWith named raised.spi)⟩
    rw [turned.model]
    exact raised.pended
  · rintro j small ⟨pending, same⟩
    rw [turned.page] at pending same
    obtain ⟨named, raised⟩ := coherent.pending j small pending
    rw [raised.vintid] at same
    exact none (same ▸ raised.spi)
  · intro j small apart
    rw [turned.page]

end Step

/-- Coherent after the event, and a lowering has withdrawn its interrupt. -/
def StaysCoherent (i : Fin kMaxVcpuIds) (s : GicVm) (event : GicEvent) (t : GicVm) : Prop :=
  Coherent i t ∧ ∀ intid, event = .setSpi intid false → Withdrawn i s t intid

theorem step_coherent {i : Fin kMaxVcpuIds} {s t : GicVm} {event : GicEvent} (one : OneVcpu i s)
    (coherent : Coherent i s) (leaves : event.LeavesPending) (taken : s.step i event = some t) :
    StaysCoherent i s event t := by
  cases event with
  | guest page => exact ⟨guest_coherent one coherent taken, nofun⟩
  | setDistributorReg offset value =>
      exact ⟨setDistributorReg_coherent one coherent leaves taken, nofun⟩
  | setSpi intid level =>
      by_cases spi : IsSpi intid
      · cases level with
        | true => exact ⟨raise_coherent one coherent spi taken, nofun⟩
        | false =>
            obtain ⟨after, withdrawn⟩ := lower_coherent one coherent spi taken
            refine ⟨after, ?_⟩
            rintro _ ⟨rfl⟩
            exact withdrawn
      · obtain ⟨after, withdrawn⟩ := refused_coherent one coherent spi taken
        refine ⟨after, ?_⟩
        rintro _ ⟨rfl⟩
        exact withdrawn

theorem step_one {i : Fin kMaxVcpuIds} {s t : GicVm} {event : GicEvent} (one : OneVcpu i s)
    (taken : s.step i event = some t) : OneVcpu i t := by
  cases event with
  | guest page => exact (guest_turned one taken).2.one
  | setDistributorReg offset value => exact (setDistributorReg_turned one taken).one
  | setSpi intid level =>
      by_cases spi : IsSpi intid
      · exact (setSpi_turned one spi taken).one
      · exact (setSpi_refused one spi taken).one

theorem coherent_of_empty {i : Fin kMaxVcpuIds} {s : GicVm}
    (empty : ∀ j, j < ichLrCount → ¬ LrUsed ((s.page i).ichLr j)) : Coherent i s where
  apart := fun j small _ _ used => absurd used (empty j small)
  pending := fun j small pending => absurd pending.used (empty j small)
  unmodelled := fun _ => empty

/-- From empty list registers, over every order of calls and of the guest's and
the kernel's work. -/
theorem listRegs_coherent {i : Fin kMaxVcpuIds} {s : GicVm} {word : List GicEvent}
    (one : OneVcpu i s) (empty : ∀ j, j < ichLrCount → ¬ LrUsed ((s.page i).ichLr j))
    (leaves : ∀ event ∈ word, event.LeavesPending) :
    Runs.Along (GicVm.step i) (StaysCoherent i) s word := by
  apply Runs.along_of_invariant (fun s => OneVcpu i s ∧ Coherent i s) ?_ ?_
    (Runs.along_of_forall leaves s) ⟨one, coherent_of_empty empty⟩
  · rintro s event t taken leaves ⟨one, coherent⟩
    exact ⟨step_one one taken, (step_coherent one coherent leaves taken).1⟩
  · rintro s event t taken leaves ⟨one, coherent⟩
    exact step_coherent one coherent leaves taken

def gicStart : GicVm :=
  let created := freshSystem { vmAlive := true, gic := some { dist := resetDist } } blankPage
  { g := created.g, slots := created.slots }

def acknowledgedPage : Ctx :=
  blankPage.setIchLr 0 ((lrPending 32 0xa0 &&& ~~~lrStateMask) ||| lrStateActive)

/-- Priority and enable bit set, raised, acknowledged, lowered. -/
def interruptWord : List GicEvent :=
  [.setDistributorReg 0x420 0xa0, .setDistributorReg 0x104 1, .setSpi 32 true,
    .guest acknowledgedPage, .setSpi 32 false]

theorem gicStart_one : OneVcpu vcpu0 gicStart := by
  refine ⟨rfl, fun j => ?_⟩
  by_cases here : j = vcpu0
  · rw [here]
    exact iff_of_true rfl rfl
  · have unused : gicStart.slots j = {} := if_neg here
    rw [unused]
    exact iff_of_false (by decide) here

theorem listRegs_coherent_interrupt :
    (Runs.runFrom (GicVm.step vcpu0) gicStart interruptWord).isSome ∧
      Runs.Along (GicVm.step vcpu0) (StaysCoherent vcpu0) gicStart interruptWord :=
  ⟨by decide, listRegs_coherent gicStart_one (by decide) (by decide)⟩

end OpenHypervisor
