import OpenHypervisor.Create
import OpenHypervisor.Library.Runs
import OpenHypervisor.Library.Slots

/-!
# The list registers

The eight words of a vCPU's page that shared interrupts are delivered through.
Both halves of `hv_gic_set_spi` are a bank of slots keyed by the interrupt: a
raise places an entry, a lowering empties the pending ones.  Between two calls
the guest acknowledges and ends interrupts and the kernel takes entries over,
which only ever moves a register on towards inactive.
-/

set_option autoImplicit false

namespace OpenHypervisor

/-! ## The fields of a list register -/

def lrStateActive : Word := BitVec.twoPow 64 63

def LrUsed (lr : Word) : Prop := lr &&& lrStateMask ≠ 0

instance : DecidablePred LrUsed := fun _ => inferInstanceAs (Decidable (_ ≠ _))

def LrIsPending (lr : Word) : Prop := lr &&& lrStateMask = lrStatePending

instance : DecidablePred LrIsPending := fun _ => inferInstanceAs (Decidable (_ = _))

def lrVintid (lr : Word) : Word := lr &&& lrVintidMask

def lrPriority (lr : Word) : BitVec 8 := lr.extractLsb' 48 8

theorem LrIsPending.used {lr : Word} (pending : LrIsPending lr) : LrUsed lr := by
  rw [LrUsed, pending]
  decide

/-- A shared interrupt of the model. -/
def IsSpi (intid : Nat) : Prop := kSpiBase ≤ intid ∧ intid < kSpiBase + kSpiCount

instance : DecidablePred IsSpi := fun _ => inferInstanceAs (Decidable (_ ∧ _))

theorem IsSpi.small {intid : Nat} (spi : IsSpi intid) : intid < 1024 := by
  simp only [IsSpi, kSpiBase, kSpiCount] at spi
  omega

theorem getLsbD_lrStateMask (i : Nat) (inside : i < 64) :
    lrStateMask.getLsbD i = decide (62 ≤ i) := by
  have checked : ∀ i < 64, lrStateMask.getLsbD i = decide (62 ≤ i) := by decide
  exact checked i inside

theorem getLsbD_lrVintidMask (i : Nat) (inside : i < 64) :
    lrVintidMask.getLsbD i = decide (i < 32) := by
  have checked : ∀ i < 64, lrVintidMask.getLsbD i = decide (i < 32) := by decide
  exact checked i inside

section Pending

variable (intid : Nat) (priority : BitVec 8) (small : intid < 1024)

theorem getLsbD_lrPending (i : Nat) (inside : i < 64) : (lrPending intid priority).getLsbD i =
    (decide (i = 62) || decide (i = 60) || (decide (48 ≤ i) && priority.getLsbD (i - 48)) ||
      intid.testBit i || decide (i = 32)) := by
  have shifted : (priority.zeroExtend 64 <<< 48).getLsbD i =
      (decide (48 ≤ i) && priority.getLsbD (i - 48)) := by
    by_cases above : 48 ≤ i
    · simp [inside, above, Nat.not_lt.mpr above]
    · simp [above, Nat.lt_of_not_le above]
  simp only [lrPending, lrStatePending, lrGroup1, ohvIchLrDirty, BitVec.getLsbD_or, shifted,
    BitVec.getLsbD_twoPow, BitVec.getLsbD_ofNat, inside, decide_true, Bool.true_and]
  simp [eq_comm]

include small

theorem testBit_intid (i : Nat) (above : 10 ≤ i) : intid.testBit i = false := by
  apply Nat.testBit_lt_two_pow
  have power : 2 ^ 10 ≤ 2 ^ i := Nat.pow_le_pow_right (by decide) above
  omega

theorem lrPending_state : LrIsPending (lrPending intid priority) := by
  apply BitVec.eq_of_getLsbD_eq
  intro i inside
  rw [BitVec.getLsbD_and, getLsbD_lrPending _ _ i inside, getLsbD_lrStateMask i inside]
  by_cases state : 62 ≤ i
  · have past : priority.getLsbD (i - 48) = false := BitVec.getLsbD_of_ge _ _ (by omega)
    have not60 : i ≠ 60 := by omega
    have not32 : i ≠ 32 := by omega
    have above := testBit_intid intid small i (by omega)
    simp [lrStatePending, state, past, above, not60, not32, eq_comm]
  · have not62 : 62 ≠ i := by omega
    simp [lrStatePending, state, not62]

theorem lrPending_vintid : lrVintid (lrPending intid priority) = BitVec.ofNat 64 intid := by
  apply BitVec.eq_of_getLsbD_eq
  intro i inside
  rw [lrVintid, BitVec.getLsbD_and, getLsbD_lrPending _ _ i inside, getLsbD_lrVintidMask i inside,
    BitVec.getLsbD_ofNat]
  by_cases low : i < 32
  · have not62 : i ≠ 62 := by omega
    have not60 : i ≠ 60 := by omega
    have not32 : i ≠ 32 := by omega
    have not48 : ¬ 48 ≤ i := by omega
    simp [low, inside, not62, not60, not32, not48]
  · simp [low, testBit_intid intid small i (by omega)]

theorem lrPending_priority : lrPriority (lrPending intid priority) = priority := by
  apply BitVec.eq_of_getLsbD_eq
  intro i inside
  have not62 : 48 + i ≠ 62 := by omega
  have not60 : 48 + i ≠ 60 := by omega
  have not32 : 48 + i ≠ 32 := by omega
  rw [lrPriority, BitVec.getLsbD_extractLsb', getLsbD_lrPending _ _ _ (by omega)]
  simp [inside, not62, not60, not32, testBit_intid intid small (48 + i) (by omega)]

omit small in
theorem lrPending_group1 : (lrPending intid priority).getLsbD 60 = true := by
  rw [getLsbD_lrPending _ _ 60 (by decide)]
  simp

end Pending

/-! ## The bank -/

/-- The interrupt is in one of the list registers. -/
def Ctx.HoldsSpi (c : Ctx) (intid : Nat) : Prop :=
  SlotBank.Holds LrUsed lrVintid ichLrCount c.ichLr (BitVec.ofNat 64 intid)

instance (c : Ctx) (intid : Nat) : Decidable (c.HoldsSpi intid) :=
  inferInstanceAs (Decidable (SlotBank.Holds _ _ _ _ _))

/-- None of them is free. -/
def Ctx.LrsFull (c : Ctx) : Prop := SlotBank.Full LrUsed ichLrCount c.ichLr

theorem ichLr_markGic (c : Ctx) (i : Nat) (value : Word) (j : Nat) (small : j < ichLrCount) :
    (markGic (c.setIchLr i value)).ichLr j = Function.update c.ichLr i value j := by
  have notFlag : ohvRwControls + ichLrOff j ≠ ohvRwStateDirty := by
    simp only [ichLrCount] at small
    simp only [ohvRwControls, ichLrOff, ohvRwStateDirty]
    omega
  have same : ohvRwControls + ichLrOff j = ohvRwControls + ichLrOff i ↔ j = i := by
    simp only [ichLrOff]
    omega
  simp only [Ctx.ichLr, Ctx.control, markGic, Ctx.markDirty, Ctx.setIchLr, Ctx.setControl,
    Ctx.word_put, if_neg notFlag, Function.update_apply, same]

theorem queueSpi_ichLr (intid : Nat) (priority : BitVec 8) (c : Ctx) (j : Nat)
    (small : j < ichLrCount) : (queueSpi intid priority c).ichLr j =
      SlotBank.place LrUsed lrVintid ichLrCount (BitVec.ofNat 64 intid) (lrPending intid priority)
        c.ichLr j := by
  have held : ((List.range ichLrCount).any fun i => decide (c.ichLr i &&& lrStateMask ≠ 0 ∧
      c.ichLr i &&& lrVintidMask = BitVec.ofNat 64 intid)) =
        (List.range ichLrCount).any fun i => decide (LrUsed (c.ichLr i) ∧
          lrVintid (c.ichLr i) = BitVec.ofNat 64 intid) := rfl
  have free : ((List.range ichLrCount).find? fun i => decide (c.ichLr i &&& lrStateMask = 0)) =
      (List.range ichLrCount).find? fun i => decide (¬ LrUsed (c.ichLr i)) := by
    simp only [LrUsed, not_not]
  unfold queueSpi SlotBank.place
  simp only [held, free]
  split
  · rfl
  · split
    · rename_i i found
      rw [found]
      exact ichLr_markGic c i _ j small
    · rename_i found
      rw [found]

theorem retireSpi_ichLr (intid : Nat) (c : Ctx) (j : Nat) (small : j < ichLrCount) :
    (retireSpi intid c).ichLr j =
      SlotBank.retire lrVintid LrIsPending (BitVec.ofNat 64 intid) ohvIchLrDirty c.ichLr j := by
  -- A register once emptied is not pending, so the scan never comes back to it.
  have folded : ∀ (lrs : List Nat) (c : Ctx), (lrs.foldl (retireLr intid) c).ichLr j =
      if j ∈ lrs ∧ LrIsPending (c.ichLr j) ∧ lrVintid (c.ichLr j) = BitVec.ofNat 64 intid then
        ohvIchLrDirty
      else c.ichLr j := by
    intro lrs
    induction lrs with
    | nil => exact fun c => (if_neg fun both => List.not_mem_nil both.1).symm
    | cons i rest ih =>
        intro c
        rw [List.foldl_cons, ih]
        by_cases retired : LrIsPending (c.ichLr i) ∧ lrVintid (c.ichLr i) = BitVec.ofNat 64 intid
        · have step : retireLr intid c i = markGic (c.setIchLr i ohvIchLrDirty) := if_pos retired
          rw [step, ichLr_markGic c i _ j small]
          by_cases here : j = i
          · subst here
            have done : ¬ LrIsPending ohvIchLrDirty := by decide
            rw [Function.update_self, if_neg fun both => done both.2.1,
              if_pos ⟨List.mem_cons_self, retired⟩]
          · rw [Function.update_of_ne here]
            simp only [List.mem_cons, here, false_or]
        · have step : retireLr intid c i = c := if_neg retired
          rw [step]
          by_cases here : j = i
          · subst here
            rw [if_neg fun both => retired both.2, if_neg fun both => retired both.2]
          · simp only [List.mem_cons, here, false_or]
  rw [retireSpi, folded]
  simp only [List.mem_range, small, true_and]
  rfl

theorem blank_unused : ¬ LrUsed ohvIchLrDirty := by decide

/-! ## The distributor's two bits -/

def GicModel.Pended (m : GicModel) (intid : Nat) : Prop :=
  (m.dist (gicdIspendr0 + intid / 32)).getLsbD (intid % 32) = true

instance (m : GicModel) (intid : Nat) : Decidable (m.Pended intid) :=
  inferInstanceAs (Decidable (_ = _))

def GicModel.Enabled (m : GicModel) (intid : Nat) : Prop :=
  (m.dist (gicdIsenabler0 + intid / 32)).getLsbD (intid % 32) = true

instance (m : GicModel) (intid : Nat) : Decidable (m.Enabled intid) :=
  inferInstanceAs (Decidable (_ = _))

/-- The first half of `hv_gic_set_spi`. -/
def GicModel.pend (m : GicModel) (intid : Nat) (level : Bool) : GicModel :=
  let slot := gicdIspendr0 + intid / 32
  let bit := BitVec.twoPow 64 (intid % 32)
  let word := if level then m.dist slot ||| bit else m.dist slot &&& ~~~bit
  { m with dist := Function.update m.dist slot word }

/-- The second, on the page of the vCPU it goes to. -/
def deliverSpi (m : GicModel) (intid : Nat) (level : Bool) (c : Ctx) : Ctx :=
  if level then if m.Enabled intid then queueSpi intid (spiPriority m intid) c else c
  else retireSpi intid c

section Deliver

variable (m : GicModel) (c : Ctx)

theorem deliverSpi_raise {intid : Nat} (enabled : m.Enabled intid) (j : Nat)
    (small : j < ichLrCount) : (deliverSpi m intid true c).ichLr j =
      SlotBank.place LrUsed lrVintid ichLrCount (BitVec.ofNat 64 intid)
        (lrPending intid (spiPriority m intid)) c.ichLr j := by
  rw [deliverSpi, if_pos rfl, if_pos enabled, queueSpi_ichLr _ _ _ _ small]

theorem deliverSpi_lower (intid : Nat) (j : Nat) (small : j < ichLrCount) :
    (deliverSpi m intid false c).ichLr j =
      SlotBank.retire lrVintid LrIsPending (BitVec.ofNat 64 intid) ohvIchLrDirty c.ichLr j := by
  rw [deliverSpi, if_neg (by decide), retireSpi_ichLr _ _ _ small]

theorem intid_eq_iff {intid other : Nat} (spi : IsSpi intid) (spi' : IsSpi other) :
    BitVec.ofNat 64 other = BitVec.ofNat 64 intid ↔ other = intid := by
  constructor
  · intro same
    have values := congrArg BitVec.toNat same
    have small := spi.small
    have small' := spi'.small
    simp only [BitVec.toNat_ofNat] at values
    omega
  · rintro rfl
    rfl

/-- A raise adds the interrupt where there is room. -/
theorem deliverSpi_raise_holds {intid : Nat} (spi : IsSpi intid) (enabled : m.Enabled intid)
    {other : Nat} (spi' : IsSpi other) : (deliverSpi m intid true c).HoldsSpi other ↔
      c.HoldsSpi other ∨ other = intid ∧ ¬ c.LrsFull := by
  have inUse := (lrPending_state intid (spiPriority m intid) spi.small).used
  have placed := SlotBank.place_holds_iff ichLrCount c.ichLr inUse
    (lrPending_vintid intid (spiPriority m intid) spi.small) (BitVec.ofNat 64 other)
  rw [intid_eq_iff spi spi'] at placed
  exact (SlotBank.holds_congr (deliverSpi_raise m c enabled)).trans placed

theorem deliverSpi_raise_full {intid : Nat} (spi : IsSpi intid) (enabled : m.Enabled intid) :
    (deliverSpi m intid true c).LrsFull ↔ c.LrsFull ∨ ¬ c.HoldsSpi intid ∧
      ∃ k, SlotBank.LastFree LrUsed ichLrCount c.ichLr k := by
  have inUse := (lrPending_state intid (spiPriority m intid) spi.small).used
  exact (SlotBank.full_congr (deliverSpi_raise m c enabled)).trans (SlotBank.place_full_iff inUse)

/-- A lowering leaves the others held. -/
theorem deliverSpi_lower_holds {intid other : Nat} (spi : IsSpi intid) (spi' : IsSpi other)
    (apart : other ≠ intid) :
    (deliverSpi m intid false c).HoldsSpi other ↔ c.HoldsSpi other := by
  have named := mt (intid_eq_iff spi spi').mp apart
  exact (SlotBank.holds_congr (deliverSpi_lower m c intid)).trans
    (SlotBank.retire_holds_iff blank_unused named)

theorem deliverSpi_lower_full (intid : Nat) : (deliverSpi m intid false c).LrsFull ↔
    c.LrsFull ∧ ∀ j, j < ichLrCount →
      ¬ (LrIsPending (c.ichLr j) ∧ lrVintid (c.ichLr j) = BitVec.ofNat 64 intid) :=
  (SlotBank.full_congr (deliverSpi_lower m c intid)).trans (SlotBank.retire_full_iff blank_unused)

end Deliver

theorem GicModel.pend_pended (m : GicModel) (intid : Nat) (level : Bool) (other : Nat) :
    (m.pend intid level).Pended other ↔ if other = intid then level = true else m.Pended other := by
  have inside : intid % 32 < 64 := by omega
  by_cases word : gicdIspendr0 + other / 32 = gicdIspendr0 + intid / 32
  · have whole : other = intid ↔ other % 32 = intid % 32 := by omega
    rw [Pended, pend, word]
    simp only [Function.update_self, WordBits.getLsbD_setOrClear _ _ _ level inside, whole]
    split
    · rfl
    · rw [Pended, word]
  · have apart : other ≠ intid := by
      rintro rfl
      exact word rfl
    rw [Pended, pend, if_neg apart]
    simp only [Function.update_of_ne word]
    rfl

theorem GicModel.pend_enabled (m : GicModel) (intid : Nat) (level : Bool) (other : Nat)
    (small : other < 1024) : (m.pend intid level).Enabled other ↔ m.Enabled other := by
  have apart : gicdIsenabler0 + other / 32 ≠ gicdIspendr0 + intid / 32 := by
    simp only [gicdIsenabler0, gicdIspendr0]
    omega
  unfold Enabled pend
  simp only [Function.update_of_ne apart]

theorem GicModel.pend_priority (m : GicModel) (intid : Nat) (level : Bool)
    (small : intid < 1024) : spiPriority (m.pend intid level) intid = spiPriority m intid := by
  have apart : gicdIpriorityr0 + intid / 4 ≠ gicdIspendr0 + intid / 32 := by
    simp only [gicdIpriorityr0, gicdIspendr0]
    omega
  unfold spiPriority pend
  simp only [Function.update_of_ne apart]

theorem updateCtx_self (slots : VcpuTable) (i : Fin kMaxVcpuIds) :
    (updateCtx slots i fun c => c) = slots :=
  Function.update_eq_self i slots

section SetSpi

variable {g : Globals} {m : GicModel} (gic : g.gic = some m) (slots : VcpuTable) (intid : Nat)
  (level : Bool)

include gic

theorem hvGicSetSpi_refused (none : ¬ IsSpi intid) :
    hvGicSetSpi g slots intid level = unchanged g slots hvBadArgument := by
  have outside : intid < kSpiBase ∨ intid ≥ kSpiBase + kSpiCount := by
    simp only [IsSpi] at none
    omega
  simp only [hvGicSetSpi, gic, if_pos outside]

theorem hvGicSetSpi_eq (spi : IsSpi intid) {i : Fin kMaxVcpuIds} (first : firstUsed slots = some i) :
    hvGicSetSpi g slots intid level = setModel g (m.pend intid level)
      (if (slots i).id ≥ kModelledCpus then slots
        else updateCtx slots i (deliverSpi m intid level)) := by
  have inside : ¬ (intid < kSpiBase ∨ intid ≥ kSpiBase + kSpiCount) := by
    simp only [IsSpi] at spi
    omega
  have small := spi.small
  have disabled : (m.pend intid level).dist (gicdIsenabler0 + intid / 32) &&&
      BitVec.twoPow 64 (intid % 32) = 0 ↔ ¬ m.Enabled intid := by
    rw [← m.pend_enabled intid level intid small]
    refine (WordBits.and_twoPow_eq_zero_iff _ _ (by omega)).trans ?_
    rw [GicModel.Enabled, Bool.not_eq_true]
  have priority := m.pend_priority intid level small
  unfold hvGicSetSpi
  simp only [gic, if_neg inside, first]
  refine congrArg (setModel g (m.pend intid level)) ?_
  split
  · rfl
  · cases level with
    | false => rfl
    | true =>
        simp only [if_true]
        by_cases enabled : m.Enabled intid
        · have deliver : deliverSpi m intid true = queueSpi intid (spiPriority m intid) := by
            funext c
            simp only [deliverSpi, if_true, if_pos enabled]
          rw [deliver, ← priority]
          exact if_neg fun off => disabled.mp off enabled
        · have deliver : deliverSpi m intid true = fun c => c := by
            funext c
            simp only [deliverSpi, if_true, if_neg enabled]
          rw [deliver, updateCtx_self]
          exact if_pos (disabled.mpr enabled)

end SetSpi

/-! ## A VM with one vCPU -/

/-- What happens to a list register between two calls: the guest acknowledges or
ends the interrupt, or the kernel takes the entry over. -/
def LrMoves (lr lr' : Word) : Prop :=
  lr' = lr ∨
  LrIsPending lr ∧ lr' = (lr &&& ~~~lrStateMask) ||| lrStateActive ∨
  (LrIsPending lr ∨ lr &&& lrStateMask = lrStateActive) ∧ ¬ LrUsed lr' ∨
  lr' = lr &&& ~~~ohvIchLrDirty

instance (lr lr' : Word) : Decidable (LrMoves lr lr') := inferInstanceAs (Decidable (_ ∨ _))

theorem LrMoves.used {lr lr' : Word} (moves : LrMoves lr lr') (used : LrUsed lr') :
    LrUsed lr ∧ lrVintid lr' = lrVintid lr := by
  rcases moves with rfl | ⟨pending, rfl⟩ | ⟨-, emptied⟩ | rfl
  · exact ⟨used, rfl⟩
  · refine ⟨pending.used, ?_⟩
    have inside : ~~~lrStateMask &&& lrVintidMask = lrVintidMask := by decide
    have outside : lrStateActive &&& lrVintidMask = 0 := by decide
    rw [lrVintid, BitVec.and_or_distrib_right, BitVec.and_assoc, inside, outside]
    exact BitVec.or_zero
  · exact absurd used emptied
  · have state : ~~~ohvIchLrDirty &&& lrStateMask = lrStateMask := by decide
    have inside : ~~~ohvIchLrDirty &&& lrVintidMask = lrVintidMask := by decide
    rw [LrUsed, BitVec.and_assoc, state] at used
    refine ⟨used, ?_⟩
    rw [lrVintid, BitVec.and_assoc, inside]
    rfl

/-- The fields the guest is shown. -/
structure SameFields (lr lr' : Word) : Prop where
  vintid : lrVintid lr' = lrVintid lr
  priority : lrPriority lr' = lrPriority lr
  group1 : lr'.getLsbD 60 = lr.getLsbD 60

theorem LrMoves.pending {lr lr' : Word} (moves : LrMoves lr lr') (pending : LrIsPending lr') :
    LrIsPending lr ∧ SameFields lr lr' := by
  have vintid := (moves.used pending.used).2
  rcases moves with rfl | ⟨-, rfl⟩ | ⟨-, emptied⟩ | rfl
  · exact ⟨pending, ⟨rfl, rfl, rfl⟩⟩
  · have cleared : ~~~lrStateMask &&& lrStateMask = 0 := by decide
    have active : lrStateActive &&& lrStateMask = lrStateActive := by decide
    rw [LrIsPending, BitVec.and_or_distrib_right, BitVec.and_assoc, cleared, active] at pending
    have zero : lr &&& 0 = 0 := BitVec.and_zero
    rw [zero] at pending
    exact absurd pending (by decide)
  · exact absurd pending.used emptied
  · have state : ~~~ohvIchLrDirty &&& lrStateMask = lrStateMask := by decide
    rw [LrIsPending, BitVec.and_assoc, state] at pending
    refine ⟨pending, ⟨vintid, ?_, ?_⟩⟩
    · have all : (~~~ohvIchLrDirty).extractLsb' 48 8 = BitVec.allOnes 8 := by decide
      rw [lrPriority, BitVec.extractLsb'_and, all, BitVec.and_allOnes]
      rfl
    · have set : (~~~ohvIchLrDirty).getLsbD 60 = true := by decide
      rw [BitVec.getLsbD_and, set, Bool.and_true]

/-- The controller and the vCPUs, and for each interrupt the priority it had at
the last raise that found no list register holding it, which nothing reads. -/
structure GicVm where
  g : Globals
  slots : VcpuTable
  raisedWith : Nat → BitVec 8 := fun _ => 0

inductive GicEvent where
  | setSpi (intid : Nat) (level : Bool)
  | setDistributorReg (offset : Nat) (value : Word)
  /-- The guest and the kernel at work on the vCPU's page. -/
  | guest (page : Ctx)

namespace GicVm

def model (s : GicVm) : GicModel := s.g.gic.getD {}

def page (s : GicVm) (i : Fin kMaxVcpuIds) : Ctx := (s.slots i).ctx

def served (s : GicVm) (answer : GicAnswer) : GicVm :=
  { s with g := answer.g, slots := answer.slots }

def step (i : Fin kMaxVcpuIds) (s : GicVm) : GicEvent → Option GicVm
  | .setSpi intid level =>
      let raisedWith :=
        if level = true ∧ ¬ (s.page i).HoldsSpi intid then
          Function.update s.raisedWith intid (spiPriority s.model intid)
        else s.raisedWith
      some { s.served (hvGicSetSpi s.g s.slots intid level) with raisedWith := raisedWith }
  | .setDistributorReg offset value =>
      some (s.served (hvGicSetDistributorReg s.g s.slots offset value))
  | .guest page =>
      if ∀ j, j < ichLrCount → LrMoves ((s.page i).ichLr j) (page.ichLr j) then
        some { s with slots := updateCtx s.slots i fun _ => page }
      else none

end GicVm

/-- The one live vCPU, with a controller to serve it. -/
structure OneVcpu (i : Fin kMaxVcpuIds) (s : GicVm) : Prop where
  gic : s.g.gic.isSome = true
  only : ∀ j, (s.slots j).used = true ↔ j = i

namespace OneVcpu

variable {i : Fin kMaxVcpuIds} {s t : GicVm}

theorem model (one : OneVcpu i s) : s.g.gic = some s.model := by
  obtain ⟨m, gic⟩ := Option.isSome_iff_exists.mp one.gic
  rw [GicVm.model, gic]
  rfl

theorem firstUsed (one : OneVcpu i s) : firstUsed s.slots = some i := by
  have live := (one.only i).mpr rfl
  cases found : OpenHypervisor.firstUsed s.slots with
  | none =>
      have unused := List.find?_eq_none.mp found i (List.mem_finRange i)
      exact absurd live unused
  | some j =>
      have used := List.find?_some (p := fun i => (s.slots i).used) found
      rw [(one.only j).mp used]

/-- A call of the controller keeps the vCPUs as they are. -/
theorem served (one : OneVcpu i s) {answer : GicAnswer} (only : GicOnly s.g s.slots answer)
    (gic : answer.g.gic.isSome = true) : OneVcpu i (s.served answer) := by
  refine ⟨gic, fun j => ?_⟩
  have same : (answer.slots j).used = (s.slots j).used := by rw [(only.slot j).slot]
  show (answer.slots j).used = true ↔ j = i
  rw [same]
  exact one.only j

end OneVcpu

/-- A write of a distributor register. -/
def GicModel.write (m : GicModel) (offset : Nat) (value : Word) : GicModel :=
  match frameSlot offset kDistSlots with
  | some slot =>
      if slot = gicdTyper then m else { m with dist := Function.update m.dist slot value }
  | none => m

/-- A word of one of the bitmaps, after a write. -/
theorem GicModel.write_dist (m : GicModel) (offset : Nat) (value : Word) (slot : Nat)
    (other : slot ≠ gicdTyper) (inside : slot < kDistSlots) :
    (m.write offset value).dist slot = if offset = 4 * slot then value else m.dist slot := by
  have whole : offset = 4 * slot ↔ offset % 4 = 0 ∧ offset / 4 = slot := by omega
  by_cases valid : offset % 4 = 0 ∧ offset / 4 < kDistSlots
  · have found : frameSlot offset kDistSlots = some (offset / 4) := if_pos valid
    simp only [write, found, whole, valid.1, true_and]
    by_cases typer : offset / 4 = gicdTyper
    · rw [if_pos typer, if_neg]
      rintro rfl
      exact other typer
    · rw [if_neg typer]
      simp only [Function.update_apply, eq_comm]
  · have found : frameSlot offset kDistSlots = none := if_neg valid
    rw [write, found, if_neg]
    intro named
    have both := whole.mp named
    exact valid ⟨both.1, both.2 ▸ inside⟩

theorem hvGicSetDistributorReg_gic {g : Globals} {m : GicModel} (gic : g.gic = some m)
    (slots : VcpuTable) (offset : Nat) (value : Word) :
    (hvGicSetDistributorReg g slots offset value).g.gic = some (m.write offset value) ∧
      (hvGicSetDistributorReg g slots offset value).slots = slots := by
  unfold hvGicSetDistributorReg GicModel.write
  simp only [gic]
  cases frameSlot offset kDistSlots with
  | none => exact ⟨gic, rfl⟩
  | some slot =>
      simp only
      split
      · exact ⟨gic, rfl⟩
      · exact ⟨rfl, rfl⟩

/-- The state after an event. -/
structure Turned (i : Fin kMaxVcpuIds) (s t : GicVm) (model : GicModel) (page : Ctx) : Prop where
  one : OneVcpu i t
  id : (t.slots i).id = (s.slots i).id
  model : t.model = model
  page : t.page i = page

section Step

variable {i : Fin kMaxVcpuIds} {s t : GicVm} (one : OneVcpu i s)

include one

theorem setSpi_refused {intid : Nat} {level : Bool} (none : ¬ IsSpi intid)
    (taken : s.step i (.setSpi intid level) = some t) : Turned i s t s.model (s.page i) := by
  cases taken
  have only : GicOnly s.g s.slots (hvGicSetSpi s.g s.slots intid level) :=
    GicCall.serve_frame (.setSpi intid level) s.g s.slots
  have answer := hvGicSetSpi_refused one.model s.slots intid level none
  have one' := one.served only (by rw [answer]; exact one.gic)
  refine ⟨⟨one'.gic, one'.only⟩, ?_, ?_, ?_⟩
  all_goals
    simp only [GicVm.served, GicVm.model, GicVm.page, answer]
    rfl

theorem setSpi_turned {intid : Nat} {level : Bool} (spi : IsSpi intid)
    (taken : s.step i (.setSpi intid level) = some t) :
    Turned i s t (s.model.pend intid level)
      (if (s.slots i).id ≥ kModelledCpus then s.page i
        else deliverSpi s.model intid level (s.page i)) := by
  cases taken
  have only : GicOnly s.g s.slots (hvGicSetSpi s.g s.slots intid level) :=
    GicCall.serve_frame (.setSpi intid level) s.g s.slots
  have answer := hvGicSetSpi_eq one.model s.slots intid level spi one.firstUsed
  have one' := one.served only (by rw [answer]; rfl)
  have slot := (only.slot i).slot
  refine ⟨⟨one'.gic, one'.only⟩, ?_, ?_, ?_⟩
  · show ((hvGicSetSpi s.g s.slots intid level).slots i).id = (s.slots i).id
    rw [slot]
  · simp only [GicVm.served, GicVm.model, answer]
    rfl
  · simp only [GicVm.served, GicVm.page, answer, setModel]
    split
    · rfl
    · rw [updateCtx, Function.update_self]

theorem setDistributorReg_turned {offset : Nat} {value : Word}
    (taken : s.step i (.setDistributorReg offset value) = some t) :
    Turned i s t (s.model.write offset value) (s.page i) := by
  cases taken
  have only : GicOnly s.g s.slots (hvGicSetDistributorReg s.g s.slots offset value) :=
    GicCall.serve_frame (.setDistributorReg offset value) s.g s.slots
  obtain ⟨gic, slots⟩ := hvGicSetDistributorReg_gic one.model s.slots offset value
  refine ⟨one.served only (by rw [gic]; rfl), ?_, ?_, ?_⟩
  · simp only [GicVm.served, slots]
  · simp only [GicVm.served, GicVm.model, gic]
    rfl
  · simp only [GicVm.served, GicVm.page, slots]

theorem guest_turned {page : Ctx} (taken : s.step i (.guest page) = some t) :
    (∀ j, j < ichLrCount → LrMoves ((s.page i).ichLr j) (page.ichLr j)) ∧
      Turned i s t s.model page := by
  simp only [GicVm.step, Option.ite_none_right_eq_some, Option.some.injEq] at taken
  obtain ⟨moves, rfl⟩ := taken
  refine ⟨moves, ⟨⟨one.gic, fun j => ?_⟩, ?_, rfl, ?_⟩⟩
  · have same : (updateCtx s.slots i (fun _ => page) j).used = (s.slots j).used := by
      rw [updateCtx, Function.update_apply]
      split
      · rename_i here
        rw [here]
      · rfl
    show (updateCtx s.slots i (fun _ => page) j).used = true ↔ j = i
    rw [same]
    exact one.only j
  · simp only [updateCtx, Function.update_self]
  · simp only [GicVm.page, updateCtx, Function.update_self]

end Step

end OpenHypervisor
