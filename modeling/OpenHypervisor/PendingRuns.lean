import OpenHypervisor.Interrupts
import OpenHypervisor.Library.Runs

/-!
# A pending interrupt read back

The VMM asserts a line, the gate and the timers decide what the hardware bit is,
and the getter looks at the bit.  A run is a word of the VMM's calls and of the two
things that recompute the levels between two entries, the parked flag and the sweep
of the timers.  Once the VMM has set a line, the flag kept for it and the bit
follow: the bit is the line's level by the gates as they stand.
-/

set_option autoImplicit false

namespace OpenHypervisor

/-! ## One line -/

def vmmLevel (type : HvInterruptType) (s : VcpuSlot) : Bool :=
  match type with
  | .fiq => s.vmmFiq
  | .irq => s.vmmIrq

/-- Whether the line may stand for the VMM. -/
def lineOpen (cfg : OhvCfg) (type : HvInterruptType) (s : VcpuSlot) : Bool :=
  match type with
  | .fiq => decide (s.sptmBase = 0) || cfg.ipiUngated || ohvFiqTakeable s
  | .irq => decide (s.sptmBase = 0) || cfg.irqUngated || ohvIrqTakeable s

/-- Whether a timer stands on the line; as an IRQ it has the gate of the VMM's. -/
def timerOnLine (cfg : OhvCfg) (type : HvInterruptType) (s : VcpuSlot) : Bool :=
  match type with
  | .fiq => wantTimerFiq cfg s
  | .irq => (ohvTimerAsIrq cfg s && ohvTimerFiqWanted cfg s) && lineOpen cfg .irq s

def wantLevel (cfg : OhvCfg) (type : HvInterruptType) (s : VcpuSlot) : Bool :=
  match type with
  | .fiq => wantFiq cfg s
  | .irq => wantIrq cfg s

theorem wantLevel_eq (cfg : OhvCfg) (type : HvInterruptType) (s : VcpuSlot) :
    wantLevel cfg type s = (vmmLevel type s && lineOpen cfg type s || timerOnLine cfg type s) := by
  cases type with
  | fiq => rfl
  | irq => exact Bool.and_or_distrib_right _ _ _

def LevelShows (cfg : OhvCfg) (type : HvInterruptType) (pending : Bool) (s : VcpuSlot) : Prop :=
  if pending then lineOpen cfg type s = true ∨ timerOnLine cfg type s = true
  else timerOnLine cfg type s = false

theorem levelShows_iff (cfg : OhvCfg) (type : HvInterruptType) (pending : Bool) (s : VcpuSlot)
    (kept : vmmLevel type s = pending) :
    wantLevel cfg type s = pending ↔ LevelShows cfg type pending s := by
  rw [wantLevel_eq, kept, LevelShows]
  cases pending with
  | true => rw [Bool.true_and, Bool.or_eq_true, if_pos rfl]
  | false => rw [Bool.false_and, Bool.false_or, if_neg Bool.false_ne_true]

/-! ## What recomputing the levels does to a line -/

section Lines

variable (cfg : OhvCfg) (s : VcpuSlot)

theorem wantLevel_setHcrLevel (type : HvInterruptType) (n : Nat) (want : Bool) :
    wantLevel cfg type (setHcrLevel n want s) = wantLevel cfg type s := by
  cases type with
  | fiq => exact wantFiq_setHcrLevel cfg s n want
  | irq => exact wantIrq_setHcrLevel cfg s n want

theorem vmmLevel_setHcrLevel (type : HvInterruptType) (n : Nat) (want : Bool) :
    vmmLevel type (setHcrLevel n want s) = vmmLevel type s := by
  rw [setHcrLevel_slot]
  cases type <;> rfl

theorem vmmLevel_setLevels (type : HvInterruptType) :
    vmmLevel type (setLevels cfg s) = vmmLevel type s := by
  rw [setLevels_slot]
  cases type <;> rfl

theorem pending_setLevels (type : HvInterruptType) :
    hvVcpuGetPendingInterrupt type (setLevels cfg s) = wantLevel cfg type (setLevels cfg s) := by
  cases type with
  | fiq => exact (setLevels_exact cfg s).1
  | irq => exact (setLevels_exact cfg s).2

end Lines

/-- What is known of a line: the VMM's half is the value last set, and the bit is the
level by the gates. -/
structure LineKept (cfg : OhvCfg) (type : HvInterruptType) (pending : Bool) (s : VcpuSlot) : Prop where
  asserted : vmmLevel type s = pending
  current : hvVcpuGetPendingInterrupt type s = wantLevel cfg type s

theorem lineKept_set (cfg : OhvCfg) (type : HvInterruptType) (pending : Bool) (s : VcpuSlot) :
    LineKept cfg type pending (hvVcpuSetPendingInterrupt cfg type pending s) := by
  cases type with
  | fiq =>
      refine ⟨vmmLevel_setHcrLevel _ .fiq 6 _, ?_⟩
      refine Eq.trans ?_ (wantLevel_setHcrLevel cfg _ .fiq 6 _).symm
      exact setHcrLevel_hcr 6 _ _ (by decide) 6
  | irq =>
      refine ⟨vmmLevel_setHcrLevel _ .irq 7 _, ?_⟩
      refine Eq.trans ?_ (wantLevel_setHcrLevel cfg _ .irq 7 _).symm
      exact setHcrLevel_hcr 7 _ _ (by decide) 7

theorem lineKept_setOther {cfg : OhvCfg} {type other : HvInterruptType} {kept : Bool}
    {s : VcpuSlot} (pending : Bool) (apart : other ≠ type) (line : LineKept cfg other kept s) :
    LineKept cfg other kept (hvVcpuSetPendingInterrupt cfg type pending s) := by
  obtain ⟨asserted, current⟩ := line
  cases type with
  | fiq =>
      cases other with
      | fiq => exact absurd rfl apart
      | irq =>
          refine ⟨(vmmLevel_setHcrLevel _ .irq 6 _).trans asserted, ?_⟩
          refine Eq.trans ?_ (wantLevel_setHcrLevel cfg _ .irq 6 _).symm
          exact (setHcrLevel_hcr 6 _ _ (by decide) 7).trans current
  | irq =>
      cases other with
      | irq => exact absurd rfl apart
      | fiq =>
          refine ⟨(vmmLevel_setHcrLevel _ .fiq 7 _).trans asserted, ?_⟩
          refine Eq.trans ?_ (wantLevel_setHcrLevel cfg _ .fiq 7 _).symm
          exact (setHcrLevel_hcr 7 _ _ (by decide) 6).trans current

theorem lineKept_parked {cfg : OhvCfg} {type : HvInterruptType} {kept : Bool} {s : VcpuSlot}
    (parked : Bool) (line : LineKept cfg type kept s) :
    LineKept cfg type kept (ohvVcpuSetParked cfg parked s) := by
  unfold ohvVcpuSetParked
  split
  · exact line
  · refine ⟨(vmmLevel_setLevels cfg { s with inWfx := parked } type).trans ?_,
      pending_setLevels cfg _ type⟩
    cases type <;> exact line.asserted

theorem lineKept_expire {type : HvInterruptType} {kept : Bool} {v : VcpuView} (now : Word)
    (line : LineKept v.g.cfg type kept v.s) :
    LineKept v.g.cfg type kept (ohvExpireTimers now v).s := by
  refine ⟨?_, ?_⟩
  · rw [ohvExpireTimers_slot]
    cases type <;> exact line.asserted
  · exact pending_setLevels v.g.cfg (sweptTimers now (ohvNoteImageBand v).s) type

/-! ## Runs -/

structure PendingRun where
  v : VcpuView
  last : HvInterruptType → Option Bool := fun _ => none

inductive PendingAct where
  | set (type : HvInterruptType) (pending : Bool)
  | parked (on : Bool)
  | expire (now : Word)
  | get (type : HvInterruptType)

namespace PendingRun

def step (r : PendingRun) : PendingAct → Option PendingRun
  | .set type pending => some {
      v := { r.v with s := hvVcpuSetPendingInterrupt r.v.g.cfg type pending r.v.s }
      last := Function.update r.last type (some pending) }
  | .parked on => some { r with v := { r.v with s := ohvVcpuSetParked r.v.g.cfg on r.v.s } }
  | .expire now => some { r with v := ohvExpireTimers now r.v }
  | .get _ => some r

def ReadsBack (r : PendingRun) : PendingAct → PendingRun → Prop
  | .get type, _ => ∀ pending, r.last type = some pending →
      hvVcpuGetPendingInterrupt type r.v.s = pending
  | _, _ => True

/-- The getter is asked while the line's level is the VMM's half of it. -/
def Shows (r : PendingRun) : PendingAct → PendingRun → Prop
  | .get type, _ => ∀ pending, r.last type = some pending →
      LevelShows r.v.g.cfg type pending r.v.s
  | _, _ => True

def Kept (r : PendingRun) : Prop :=
  ∀ type pending, r.last type = some pending → LineKept r.v.g.cfg type pending r.v.s

variable {r next : PendingRun}

theorem kept_step (act : PendingAct) (taken : r.step act = some next) (kept : r.Kept) :
    next.Kept := by
  cases act with
  | set type pending =>
      cases taken
      intro other value last
      by_cases same : other = type
      · subst same
        simp only [Function.update_self, Option.some.injEq] at last
        subst last
        exact lineKept_set _ _ _ _
      · simp only [Function.update_of_ne same] at last
        exact lineKept_setOther pending same (kept other value last)
  | parked on =>
      cases taken
      intro type value last
      exact lineKept_parked on (kept type value last)
  | expire now =>
      cases taken
      intro type value last
      exact lineKept_expire now (kept type value last)
  | get type =>
      cases taken
      exact kept

theorem readsBack_iff (act : PendingAct) (kept : r.Kept) :
    r.ReadsBack act next ↔ r.Shows act next := by
  cases act with
  | get type =>
      refine forall_congr' fun pending => forall_congr' fun last => ?_
      have line := kept type pending last
      rw [line.current]
      exact levelShows_iff r.v.g.cfg type pending r.v.s line.asserted
  | set type pending => exact Iff.rfl
  | parked on => exact Iff.rfl
  | expire now => exact Iff.rfl

end PendingRun

/-- From every state and in every run the getter answers what was last set exactly as
long as each line it is asked about either is set and not withheld, or is clear with no
timer on it. -/
theorem pendingRun_readsBack_iff (v : VcpuView) (word : List PendingAct) :
    Runs.Along PendingRun.step PendingRun.ReadsBack ⟨v, fun _ => none⟩ word ↔
      Runs.Along PendingRun.step PendingRun.Shows ⟨v, fun _ => none⟩ word := by
  apply Runs.along_iff_of_invariant PendingRun.Kept
  · intro r act next _ kept
    exact PendingRun.readsBack_iff act kept
  · intro r act next taken _ kept
    exact PendingRun.kept_step act taken kept
  · intro type pending last
    cases last

def monitorRunning : VcpuSlot where
  ctx := (⟨⟨fun _ => 0⟩⟩ : Ctx).setPc 0xfffffff000001000#64
  sptmBase := 0xfffffff000000000#64

def timerDueAtZero : VcpuSlot where
  el2Shadow := Function.update (fun _ => 0) ohvShadowCntpCtl 1

/-- An interrupt held back by the gate reads as not pending, and a due timer as one the
VMM asserted. -/
theorem pendingRun_misread :
    ¬ Runs.Along PendingRun.step PendingRun.ReadsBack ⟨⟨{}, monitorRunning⟩, fun _ => none⟩
        [.set .fiq true, .get .fiq] ∧
      ¬ Runs.Along PendingRun.step PendingRun.ReadsBack ⟨⟨{}, timerDueAtZero⟩, fun _ => none⟩
        [.set .fiq false, .expire 5, .get .fiq] := by
  constructor
  · intro along
    obtain ⟨-, held⟩ := along _ rfl
    have back := (held _ rfl).1 true rfl
    exact absurd back (by decide)
  · intro along
    obtain ⟨-, cleared⟩ := along _ rfl
    obtain ⟨-, fired⟩ := cleared _ rfl
    have back := (fired _ rfl).1 false rfl
    exact absurd back (by decide)

end OpenHypervisor
