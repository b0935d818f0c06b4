import OpenHypervisor.SpiRuns

/-!
# Delivery of shared interrupts

An interrupt that is pending and enabled at the distributor has to be in a list
register, unless all of them are taken.  The two are brought together only at
the moment of a raise, and only for the interrupt raised; what each call leaves
undelivered is read off the state before it.
-/

set_option autoImplicit false

namespace OpenHypervisor

section Vm

variable (i : Fin kMaxVcpuIds)

/-- Every interrupt pending and enabled is in a list register, or all eight are
taken. -/
def Delivered (s : GicVm) : Prop :=
  ∀ intid, IsSpi intid → s.model.Pended intid → s.model.Enabled intid →
    (s.page i).HoldsSpi intid ∨ (s.page i).LrsFull

/-- Pending, enabled and in no list register. -/
def Waits (s : GicVm) (intid : Nat) : Prop :=
  IsSpi intid ∧ s.model.Pended intid ∧ s.model.Enabled intid ∧ ¬ (s.page i).HoldsSpi intid

def OnlyWaits (s : GicVm) (intid : Nat) : Prop := ∀ other, Waits i s other → other = intid

/-! ## When a call delivers -/

def Served (s : GicVm) : Prop := (s.slots i).id < kModelledCpus

/-- A raise delivers if no register was free, if no other interrupt waits and
this one is taken in, or if it takes the last free register. -/
def RaiseDelivers (s : GicVm) (intid : Nat) : Prop :=
  (s.page i).LrsFull ∨
  OnlyWaits i s intid ∧
    (s.model.Enabled intid → (s.page i).HoldsSpi intid ∨ Served i s) ∨
  Served i s ∧ s.model.Enabled intid ∧ ¬ (s.page i).HoldsSpi intid ∧
    ∃ k, SlotBank.LastFree LrUsed ichLrCount (s.page i).ichLr k

/-- A lowering delivers if no register was free and it frees none, or if no
other interrupt waits. -/
def LowerDelivers (s : GicVm) (intid : Nat) : Prop :=
  (s.page i).LrsFull ∧ (Served i s → ∀ j, j < ichLrCount →
      ¬ (LrIsPending ((s.page i).ichLr j) ∧ lrVintid ((s.page i).ichLr j) = BitVec.ofNat 64 intid)) ∨
    OnlyWaits i s intid

def bitWritten (offset : Nat) (value : Word) (slot bit : Nat) (was : Prop) : Prop :=
  if offset = 4 * slot then value.getLsbD bit = true else was

/-- A write of the distributor delivers if no register is free, or if it leaves
no interrupt pending and enabled that is in none of them. -/
def WriteDelivers (s : GicVm) (offset : Nat) (value : Word) : Prop :=
  (s.page i).LrsFull ∨ ∀ intid, IsSpi intid →
    bitWritten offset value (gicdIspendr0 + intid / 32) (intid % 32) (s.model.Pended intid) →
    bitWritten offset value (gicdIsenabler0 + intid / 32) (intid % 32) (s.model.Enabled intid) →
    (s.page i).HoldsSpi intid

def CallDelivers (s : GicVm) (event : GicEvent) (_ : GicVm) : Prop :=
  match event with
  | .setSpi intid true => if IsSpi intid then RaiseDelivers i s intid else Delivered i s
  | .setSpi intid false => if IsSpi intid then LowerDelivers i s intid else Delivered i s
  | .setDistributorReg offset value => WriteDelivers i s offset value
  | .guest _ => True

def DeliveredAfter (_ : GicVm) (event : GicEvent) (t : GicVm) : Prop :=
  match event with
  | .guest _ => True
  | _ => Delivered i t

end Vm

/-! ## Each call -/

section Calls

variable {i : Fin kMaxVcpuIds} {s t : GicVm}

theorem delivered_iff : Delivered i s ↔ (s.page i).LrsFull ∨
    ∀ intid, IsSpi intid → s.model.Pended intid → s.model.Enabled intid →
      (s.page i).HoldsSpi intid := by
  constructor
  · intro delivered
    by_cases full : (s.page i).LrsFull
    · exact Or.inl full
    · refine Or.inr fun intid spi pended enabled => ?_
      exact (delivered intid spi pended enabled).resolve_right full
  · rintro (full | held) intid spi pended enabled
    · exact Or.inr full
    · exact Or.inl (held intid spi pended enabled)

theorem raised_iff {intid : Nat} (spi : IsSpi intid) (Held : Prop) :
    (∀ other, IsSpi other → (other = intid ∨ s.model.Pended other) → s.model.Enabled other →
        (s.page i).HoldsSpi other ∨ other = intid ∧ Held) ↔
      OnlyWaits i s intid ∧ (s.model.Enabled intid → (s.page i).HoldsSpi intid ∨ Held) := by
  constructor
  · intro all
    refine ⟨?_, ?_⟩
    · rintro other ⟨spi', pended, enabled, free⟩
      exact ((all other spi' (Or.inr pended) enabled).resolve_left free).1
    · intro enabled
      exact (all intid spi (Or.inl rfl) enabled).imp id And.right
  · rintro ⟨only, self⟩ other spi' pended enabled
    by_cases here : other = intid
    · subst here
      exact (self enabled).imp id fun held => ⟨rfl, held⟩
    · by_contra none
      rw [not_or] at none
      exact here (only other ⟨spi', pended.resolve_left here, enabled, none.1⟩)

variable (one : OneVcpu i s)

include one

theorem raise_delivers_iff {intid : Nat} (spi : IsSpi intid)
    (taken : s.step i (.setSpi intid true) = some t) :
    Delivered i t ↔ RaiseDelivers i s intid := by
  have turned := setSpi_turned one spi taken
  have pended : ∀ other, t.model.Pended other ↔ other = intid ∨ s.model.Pended other := by
    intro other
    rw [turned.model, GicModel.pend_pended]
    by_cases here : other = intid <;> simp [here]
  have enabled : ∀ other, IsSpi other → (t.model.Enabled other ↔ s.model.Enabled other) := by
    intro other spi'
    rw [turned.model]
    exact s.model.pend_enabled intid true other spi'.small
  have asks : Delivered i t ↔ (t.page i).LrsFull ∨ ∀ other, IsSpi other →
      (other = intid ∨ s.model.Pended other) → s.model.Enabled other →
      (t.page i).HoldsSpi other := by
    rw [delivered_iff]
    refine or_congr Iff.rfl (forall_congr' fun other => forall_congr' fun spi' => ?_)
    rw [pended other, enabled other spi']
  -- With the page as it was, the interrupt is as held as it was.
  have stays : t.page i = s.page i → ¬ (Served i s ∧ s.model.Enabled intid) →
      (Delivered i t ↔ RaiseDelivers i s intid) := by
    intro page none
    rw [asks, page, RaiseDelivers]
    refine or_congr Iff.rfl ?_
    have self : (s.model.Enabled intid → (s.page i).HoldsSpi intid ∨ Served i s) ↔
        (s.model.Enabled intid → (s.page i).HoldsSpi intid ∨ False) := by
      refine forall_congr' fun on => or_congr Iff.rfl ?_
      exact iff_false_intro fun served => none ⟨served, on⟩
    rw [self, ← raised_iff spi False]
    simp only [and_false, or_false]
    constructor
    · exact fun all => Or.inl all
    · rintro (all | ⟨served, on, -⟩)
      · exact all
      · exact absurd ⟨served, on⟩ none
  have page := turned.page
  split at page
  · rename_i unserved
    exact stays page fun both => Nat.not_lt.mpr unserved both.1
  · rename_i served
    have served : Served i s := Nat.lt_of_not_le served
    by_cases on : s.model.Enabled intid
    · have held : ∀ other, IsSpi other → ((t.page i).HoldsSpi other ↔
          (s.page i).HoldsSpi other ∨ other = intid ∧ ¬ (s.page i).LrsFull) := by
        intro other spi'
        rw [page]
        exact deliverSpi_raise_holds s.model (s.page i) spi on spi'
      have full : (t.page i).LrsFull ↔ (s.page i).LrsFull ∨ ¬ (s.page i).HoldsSpi intid ∧
          ∃ k, SlotBank.LastFree LrUsed ichLrCount (s.page i).ichLr k := by
        rw [page]
        exact deliverSpi_raise_full s.model (s.page i) spi on
      rw [asks, full, RaiseDelivers, or_assoc]
      by_cases before : (s.page i).LrsFull
      · exact iff_of_true (Or.inl before) (Or.inl before)
      · refine or_congr Iff.rfl ?_
        have self : (s.model.Enabled intid → (s.page i).HoldsSpi intid ∨ Served i s) ↔
            (s.model.Enabled intid → (s.page i).HoldsSpi intid ∨ True) := by
          refine forall_congr' fun _ => or_congr Iff.rfl ?_
          exact iff_true_intro served
        rw [self, ← raised_iff spi True, or_comm]
        refine or_congr ?_ ?_
        · refine forall_congr' fun other => forall_congr' fun spi' => ?_
          rw [held other spi']
          simp only [before, not_false_eq_true]
        · simp only [served, on, true_and]
    · rw [deliverSpi, if_pos rfl, if_neg on] at page
      exact stays page fun both => on both.2

theorem lower_delivers_iff {intid : Nat} (spi : IsSpi intid)
    (taken : s.step i (.setSpi intid false) = some t) :
    Delivered i t ↔ LowerDelivers i s intid := by
  have turned := setSpi_turned one spi taken
  have asks : Delivered i t ↔ (t.page i).LrsFull ∨ ∀ other, IsSpi other →
      (other ≠ intid ∧ s.model.Pended other) → s.model.Enabled other →
      (t.page i).HoldsSpi other := by
    rw [delivered_iff]
    refine or_congr Iff.rfl (forall_congr' fun other => forall_congr' fun spi' => ?_)
    rw [turned.model, GicModel.pend_pended, GicModel.pend_enabled _ _ _ _ spi'.small]
    by_cases here : other = intid <;> simp [here]
  have only : (∀ other, IsSpi other → (other ≠ intid ∧ s.model.Pended other) →
      s.model.Enabled other → (s.page i).HoldsSpi other) ↔ OnlyWaits i s intid := by
    constructor
    · rintro all other ⟨spi', pended, enabled, free⟩
      by_contra here
      exact free (all other spi' ⟨here, pended⟩ enabled)
    · rintro only other spi' ⟨here, pended⟩ enabled
      by_contra free
      exact here (only other ⟨spi', pended, enabled, free⟩)
  have page := turned.page
  split at page
  · rename_i unserved
    have none : ¬ Served i s := Nat.not_lt.mpr unserved
    rw [asks, page, only, LowerDelivers]
    simp only [none, false_implies, and_true]
  · rename_i served
    have served : Served i s := Nat.lt_of_not_le served
    have held : ∀ other, IsSpi other → other ≠ intid →
        ((t.page i).HoldsSpi other ↔ (s.page i).HoldsSpi other) := by
      intro other spi' apart
      rw [page]
      exact deliverSpi_lower_holds s.model (s.page i) spi spi' apart
    have full : (t.page i).LrsFull ↔ (s.page i).LrsFull ∧ ∀ j, j < ichLrCount →
        ¬ (LrIsPending ((s.page i).ichLr j) ∧
          lrVintid ((s.page i).ichLr j) = BitVec.ofNat 64 intid) := by
      rw [page]
      exact deliverSpi_lower_full s.model (s.page i) intid
    rw [asks, full, LowerDelivers, ← only]
    refine or_congr ?_ (forall_congr' fun other => forall_congr' fun spi' => ?_)
    · simp only [served, true_implies]
    · refine forall_congr' fun asked => forall_congr' fun _ => ?_
      exact held other spi' asked.1

theorem write_delivers_iff {offset : Nat} {value : Word}
    (taken : s.step i (.setDistributorReg offset value) = some t) :
    Delivered i t ↔ WriteDelivers i s offset value := by
  have turned := setDistributorReg_turned one taken
  have bit : ∀ slot bit, slot ≠ gicdTyper → slot < kDistSlots →
      ((t.model.dist slot).getLsbD bit = true ↔
        bitWritten offset value slot bit ((s.model.dist slot).getLsbD bit = true)) := by
    intro slot bit other inside
    rw [turned.model, GicModel.write_dist _ _ _ _ other inside, bitWritten]
    split <;> rfl
  rw [delivered_iff, turned.page, WriteDelivers]
  refine or_congr Iff.rfl (forall_congr' fun intid => forall_congr' fun spi => ?_)
  have small := spi.small
  have pended := bit (gicdIspendr0 + intid / 32) (intid % 32)
    (by simp only [gicdIspendr0, gicdTyper]; omega)
    (by simp only [gicdIspendr0, kDistSlots]; omega)
  have enabled := bit (gicdIsenabler0 + intid / 32) (intid % 32)
    (by simp only [gicdIsenabler0, gicdTyper]; omega)
    (by simp only [gicdIsenabler0, kDistSlots]; omega)
  exact imp_congr pended (imp_congr enabled Iff.rfl)

theorem refused_delivers_iff {intid : Nat} {level : Bool} (none : ¬ IsSpi intid)
    (taken : s.step i (.setSpi intid level) = some t) : Delivered i t ↔ Delivered i s := by
  have turned := setSpi_refused one none taken
  rw [Delivered, Delivered, turned.model, turned.page]

theorem step_delivers_iff {event : GicEvent} (taken : s.step i event = some t) :
    DeliveredAfter i s event t ↔ CallDelivers i s event t := by
  cases event with
  | guest page => exact Iff.rfl
  | setDistributorReg offset value => exact write_delivers_iff one taken
  | setSpi intid level =>
      by_cases spi : IsSpi intid
      · cases level with
        | true =>
            simpa only [DeliveredAfter, CallDelivers, if_pos spi] using
              raise_delivers_iff one spi taken
        | false =>
            simpa only [DeliveredAfter, CallDelivers, if_pos spi] using
              lower_delivers_iff one spi taken
      · have same := refused_delivers_iff one spi taken
        cases level with
        | true => simpa only [DeliveredAfter, CallDelivers, if_neg spi] using same
        | false => simpa only [DeliveredAfter, CallDelivers, if_neg spi] using same

end Calls

/-- No shared interrupt is lost in a run just when each call finds the state so
that it delivers. -/
theorem delivered_along_iff {i : Fin kMaxVcpuIds} {s : GicVm} (one : OneVcpu i s)
    (word : List GicEvent) :
    Runs.Along (GicVm.step i) (DeliveredAfter i) s word ↔
      Runs.Along (GicVm.step i) (CallDelivers i) s word := by
  apply Runs.along_iff_of_invariant (OneVcpu i) ?_ ?_ word one
  · exact fun _ _ _ taken one => step_delivers_iff one taken
  · exact fun _ _ _ taken _ one => step_one one taken

theorem resetDist_pended (intid : Nat) : ¬ GicModel.Pended { dist := resetDist } intid := by
  have ctlr : gicdIspendr0 + intid / 32 ≠ gicdCtlr := by
    simp only [gicdIspendr0, gicdCtlr]
    omega
  have typer : gicdIspendr0 + intid / 32 ≠ gicdTyper := by
    simp only [gicdIspendr0, gicdTyper]
    omega
  simp [GicModel.Pended, resetDist, Function.update_of_ne ctlr, Function.update_of_ne typer]

def enabledFirst : List GicEvent := [.setDistributorReg 0x104 1, .setSpi 32 true]

theorem delivered_along_enabledFirst :
    Runs.Along (GicVm.step vcpu0) (DeliveredAfter vcpu0) gicStart enabledFirst := by
  refine (delivered_along_iff gicStart_one enabledFirst).mpr ?_
  refine fun t taken => ⟨?_, fun _ _ => ⟨?_, trivial⟩⟩
  · refine Or.inr fun intid _ pended _ => ?_
    have elsewhere : 0x104 ≠ 4 * (gicdIspendr0 + intid / 32) := by
      simp only [gicdIspendr0]
      omega
    rw [bitWritten, if_neg elsewhere] at pended
    exact absurd pended (resetDist_pended intid)
  · refine Or.inr (Or.inl ⟨?_, fun _ => Or.inr ?_⟩)
    · rintro other ⟨spi, pended, -⟩
      have slot : gicdIspendr0 + other / 32 ≠ gicdTyper ∧
          gicdIspendr0 + other / 32 < kDistSlots ∧ 0x104 ≠ 4 * (gicdIspendr0 + other / 32) := by
        have small := spi.small
        simp only [gicdIspendr0, gicdTyper, kDistSlots]
        omega
      rw [(setDistributorReg_turned gicStart_one taken).model, GicModel.Pended,
        GicModel.write_dist _ _ _ _ slot.1 slot.2.1, if_neg slot.2.2] at pended
      exact absurd pended (resetDist_pended other)
    · show (t.slots vcpu0).id < kModelledCpus
      rw [(setDistributorReg_turned gicStart_one taken).id]
      decide

def enabledLate : List GicEvent := [.setSpi 32 true, .setDistributorReg 0x104 1]

theorem enabledLate_lost : OneVcpu vcpu0 gicStart ∧
    (∀ j, j < ichLrCount → ¬ LrUsed ((gicStart.page vcpu0).ichLr j)) ∧
    ¬ Runs.Along (GicVm.step vcpu0) (DeliveredAfter vcpu0) gicStart enabledLate := by
  refine ⟨gicStart_one, by decide, fun along => ?_⟩
  have late := ((Runs.Along.cons_of_step rfl).mp ((Runs.Along.cons_of_step rfl).mp along).2).1
  rcases late 32 (by decide) (by decide) (by decide) with held | full
  · exact absurd held (by decide)
  · exact absurd (full 0 (by decide)) (by decide)

end OpenHypervisor
