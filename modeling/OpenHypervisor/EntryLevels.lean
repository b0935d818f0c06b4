import OpenHypervisor.VcpuLife

/-!
# The levels at a guest entry

What `HCR_EL2.VF` and `VI` are whenever the run trap begins, over every run of a
vCPU: functions of what the VMM last asked for, of the timers at the clock value
of the sweep, and of where the guest stands.  Between the sweep and the trap
only other threads move, and what they may touch of the vCPU enters neither.
-/

set_option autoImplicit false

namespace OpenHypervisor

/-! ## What the VMM last asked for -/

def Act.asked (i : VcpuId) (type : HvInterruptType) (level : Bool) : Act → Bool
  | .call j request => if j = i then request.asked type level else level
  | _ => level

def lastAsked (i : VcpuId) (type : HvInterruptType) (word : List Act) : Bool :=
  word.foldl (fun level act => act.asked i type level) false

def VcpuSlot.vmmLevel (s : VcpuSlot) : HvInterruptType → Bool
  | .fiq => s.vmmFiq
  | .irq => s.vmmIrq

theorem Turn.vmmLevel {s : System} {i : VcpuId} {act : Act} {slot : VcpuSlot} {phase : RunPhase}
    (turn : Turn s i act slot phase) (type : HvInterruptType) :
    slot.vmmLevel type = act.asked i type ((s.slots i).vmmLevel type) := by
  cases turn with
  | elsewhere act other =>
      cases act with
      | call j call =>
          have elsewhere : j ≠ i := fun same => other (by rw [same]; rfl)
          simp [Act.asked, elsewhere]
      | _ => rfl
  | gic _ _ only =>
      rw [only.slot]
      cases type <;> rfl
  | call call _ =>
      rw [VcpuCall.serve_slot]
      cases type <;> simp [Act.asked, VcpuSlot.vmmLevel, System.view]
  | expire now _ =>
      rw [ohvExpireTimers_slot]
      cases type <;> rfl
  | reported host _ _ | served host _ _ =>
      rw [(ExitOnly.exitFromRo host _).slot]
      cases type <;> rfl
  | canceled _ test _ => obtain ⟨rfl, -⟩ | ⟨rfl, -⟩ := test <;> cases type <;> rfl
  | _ => cases type <;> rfl

theorem vmmLevel_eq_lastAsked {s t : System} {i : VcpuId} {word : List Act} (fresh : Fresh s i)
    (kept : .destroy i ∉ word) (run : Runs.runFrom System.step s word = some t)
    (type : HvInterruptType) : (t.slots i).vmmLevel type = lastAsked i type word := by
  have follows : ∀ (s : System) act next, s.step act = some next → act ≠ .destroy i →
      (s.slots i).used = true → (next.slots i).used = true ∧
        (next.slots i).vmmLevel type = act.asked i type ((s.slots i).vmmLevel type) := by
    intro s act next taken kept live
    have turn := System.step_turn i taken live kept
    exact ⟨turn.used.trans live, turn.vmmLevel type⟩
  have tracked := Runs.read_eq_foldl (fun s : System => (s.slots i).used = true)
    (fun s => (s.slots i).vmmLevel type) (fun level act => act.asked i type level) follows
    (Runs.along_of_forall (fun _ member => ne_of_mem_of_not_mem member kept) s) run fresh.live
  obtain ⟨page, cancel, slot⟩ := fresh.slot
  have silent : (s.slots i).vmmLevel type = false := by
    rw [slot]
    cases type <;> rfl
  rw [tracked, silent, lastAsked]

/-! ## The state at the entry -/

def timersDue (now : Word) (s : VcpuSlot) : Bool :=
  timerFires now (s.timerCtl false) (s.timerCval false) ||
    timerFires now (s.timerCtl true) (s.timerCval true)

/-- The levels are the ones the gates ask for, and the timers' flags are what
their registers say at the clock value of the sweep. -/
structure Swept (cfg : OhvCfg) (now : Word) (s : VcpuSlot) : Prop where
  fiq : s.ctx.hcr.getLsbD 6 = wantFiq cfg s
  irq : s.ctx.hcr.getLsbD 7 = wantIrq cfg s
  due : (s.timerFiredV || s.timerFiredP) = timersDue now s

theorem swept_ohvExpireTimers (now : Word) (v : VcpuView) :
    Swept (ohvExpireTimers now v).g.cfg now (ohvExpireTimers now v).s := by
  obtain ⟨fiq, irq⟩ := ohvExpireTimers_exact now v
  refine ⟨fiq, irq, ?_⟩
  have virtual := ohvExpireTimers_fired now v false
  have physical := ohvExpireTimers_fired now v true
  simp only [VcpuSlot.timerFired, Bool.false_eq_true, if_false, if_true] at virtual physical
  rw [virtual, physical]
  rfl

theorem Swept.control {cfg : OhvCfg} {now : Word} {before after : VcpuSlot}
    (swept : Swept cfg now before) (only : ControlOnly before after) : Swept cfg now after := by
  have page := only.page
  rw [only.slot]
  refine ⟨?_, ?_, ?_⟩
  · rw [wantFiq_congr cfg before after.ctx page.pc page.cpsr, ← swept.fiq]
    exact congrArg (BitVec.getLsbD · 6) page.hcr
  · rw [wantIrq_congr cfg before after.ctx page.pc page.cpsr, ← swept.irq]
    exact congrArg (BitVec.getLsbD · 7) page.hcr
  · show (before.timerFiredV || before.timerFiredP) = _
    rw [swept.due]
    simp only [timersDue, VcpuSlot.timerCtl, VcpuSlot.timerCval, VcpuSlot.timerCvalIndex,
      page.banked 18 (by decide), page.banked 9 (by decide), page.banked 10 (by decide),
      Bool.false_eq_true, if_false, if_true]

/-- The invariant: the switches are settled while the vCPU runs, and before the
trap the sweep stands. -/
structure EntryInv (i : VcpuId) (s : System) : Prop where
  live : (s.slots i).used = true
  settled : s.phase i ≠ .idle → s.g.cfgSettled = true
  swept : ∀ now, s.phase i = .enter now → Swept s.g.cfg now (s.slots i)

theorem EntryInv.step {i : VcpuId} {s t : System} {act : Act} (taken : s.step act = some t)
    (kept : act ≠ .destroy i) (inv : EntryInv i s) : EntryInv i t := by
  have globals := System.step_globals taken
  have turn := System.step_turn i taken inv.live kept
  have settled : act = .run i ∨ s.phase i ≠ .idle → t.g.cfgSettled = true := by
    rintro (rfl | inside)
    · exact System.run_settles taken
    · exact (globals.settled (inv.settled inside)).1
  have cfg : s.phase i ≠ .idle → t.g.cfg = s.g.cfg :=
    fun inside => (globals.settled (inv.settled inside)).2
  refine ⟨turn.used.trans inv.live, fun inside => settled ?_, fun now ready => ?_⟩
  · revert turn inside
    generalize t.slots i = slot, t.phase i = phase
    intro turn inside
    cases turn with
    | run => exact Or.inl rfl
    | elsewhere | gic | latch => exact Or.inr inside
    | call => exact absurd rfl inside
    | ret => exact absurd rfl inside
    | canceled _ test _ => rcases test with ⟨-, back⟩ | ⟨-, back⟩ <;> simp [back]
    | _ => simp_all
  · revert turn ready
    generalize t.slots i = slot, t.phase i = phase
    intro turn ready
    cases turn with
    | elsewhere =>
        rw [cfg (by simp [ready])]
        exact inv.swept now ready
    | gic _ _ only =>
        rw [cfg (by simp [ready])]
        exact (inv.swept now ready).control only
    | latch ids _ =>
        rw [cfg (by simp [ready])]
        obtain ⟨fiq, irq, due⟩ := inv.swept now ready
        exact ⟨fiq, irq, due⟩
    | expire now' top =>
        cases ready
        rw [cfg (by simp [top])]
        exact swept_ohvExpireTimers now (s.view i)
    | _ => cases ready

theorem swept_at_entry {s t : System} {i : VcpuId} {word : List Act} (fresh : Fresh s i)
    (kept : .destroy i ∉ word) (run : Runs.runFrom System.step s word = some t) {now : Word}
    (entry : t.phase i = .enter now) : Swept t.g.cfg now (t.slots i) := by
  have inv : EntryInv i t :=
    Runs.invariant_along (EntryInv i) (fun _ _ _ taken kept inv => inv.step taken kept)
      (Runs.along_of_forall (fun _ member => ne_of_mem_of_not_mem member kept) s) run
      ⟨fresh.live, fun inside => absurd fresh.idle inside, fun now ready => by
        rw [fresh.idle] at ready
        cases ready⟩
  exact inv.swept now entry

theorem unset_along {s t : System} {word : List Act} (Unset : OhvCfg → Prop)
    (unset : Unset s.g.env ∧ Unset s.g.cfg)
    (run : Runs.runFrom System.step s word = some t) : Unset t.g.cfg := by
  have inv : Unset t.g.env ∧ Unset t.g.cfg := by
    refine Runs.invariant_runFrom (fun s : System => Unset s.g.env ∧ Unset s.g.cfg) ?_ run unset
    rintro s act next taken ⟨env, cfg⟩
    have globals := System.step_globals taken
    refine ⟨globals.env ▸ env, ?_⟩
    rcases globals.cfg with same | same <;> rw [same] <;> assumption
  exact inv.2

/-! ## FIQ -/

/-- Whether an interrupt masked by this bit of PSTATE may be asserted at all: on a
vCPU that knows no monitor, in a core that waits, or outside the monitor with the
mask off. -/
def gateOpen (maskBit : Nat) (s : VcpuSlot) : Bool :=
  decide (s.sptmBase = 0) || s.inWfx || (!ohvGuestInMonitor s && !s.ctx.cpsr.getLsbD maskBit)

section Gated

variable {cfg : OhvCfg} {now : Word} {s : VcpuSlot} (swept : Swept cfg now s)
  (gate : cfg.timerGate = none)

include swept gate

theorem Swept.due_default : ohvTimerFiqWanted cfg s = (timersDue now s && gateOpen 6 s) := by
  have mode : (ohvTimerGateMode cfg).toNat = 4 := by simp [ohvTimerGateMode, gate]
  simp only [ohvTimerFiqWanted, mode, swept.due, ohvFiqTakeable, takeable, gateOpen, Bool.or_assoc]

theorem Swept.fiq_default (ungated : cfg.ipiUngated = false) : s.ctx.hcr.getLsbD 6 =
    (gateOpen 6 s && (s.vmmFiq || (timersDue now s && !ohvTimerAsIrq cfg s))) := by
  have gateFiq : (decide (s.sptmBase = 0) || cfg.ipiUngated || ohvFiqTakeable s) =
      gateOpen 6 s := by
    simp only [ungated, Bool.or_false, ohvFiqTakeable, takeable, gateOpen, Bool.or_assoc]
  rw [swept.fiq, wantFiq, gateFiq, wantTimerFiq, swept.due_default gate]
  cases gateOpen 6 s <;> simp

/-- A timer routed as an IRQ has passed the FIQ gate first. -/
theorem Swept.irq_default (ungated : cfg.irqUngated = false) : s.ctx.hcr.getLsbD 7 =
    (gateOpen 7 s && (s.vmmIrq || (ohvTimerAsIrq cfg s && (timersDue now s && gateOpen 6 s)))) := by
  have gateIrq : (decide (s.sptmBase = 0) || cfg.irqUngated || ohvIrqTakeable s) =
      gateOpen 7 s := by
    simp only [ungated, Bool.or_false, ohvIrqTakeable, takeable, gateOpen, Bool.or_assoc]
  rw [swept.irq, wantIrq, gateIrq, swept.due_default gate, Bool.and_comm]

end Gated

/-- `VF` is exactly the VMM's level or a due timer that is not routed as an IRQ,
behind the FIQ gate. -/
theorem virtualFiq_exact {s t : System} {i : VcpuId} {word : List Act} (fresh : Fresh s i)
    (gate : s.g.env.timerGate = none ∧ s.g.cfg.timerGate = none)
    (gated : s.g.env.ipiUngated = false ∧ s.g.cfg.ipiUngated = false)
    (kept : .destroy i ∉ word) (run : Runs.runFrom System.step s word = some t) {now : Word}
    (entry : t.phase i = .enter now) :
    (t.slots i).ctx.hcr.getLsbD 6 =
      (gateOpen 6 (t.slots i) &&
        (lastAsked i .fiq word ||
          (timersDue now (t.slots i) && !ohvTimerAsIrq t.g.cfg (t.slots i)))) := by
  have swept := swept_at_entry fresh kept run entry
  have asked : (t.slots i).vmmFiq = lastAsked i .fiq word :=
    vmmLevel_eq_lastAsked fresh kept run .fiq
  rw [swept.fiq_default (unset_along (fun cfg => cfg.timerGate = none) gate run)
    (unset_along (fun cfg => cfg.ipiUngated = false) gated run), asked]

theorem virtualFiq_first_run : ∃ t,
    Runs.runFrom System.step (freshSystem { vmAlive := true } blankPage)
      [.call vcpu0 (.setPending .fiq true), .run vcpu0, .expire vcpu0 0] = some t ∧
    (t.slots vcpu0).ctx.hcr.getLsbD 6 =
      (gateOpen 6 (t.slots vcpu0) &&
        (lastAsked vcpu0 .fiq
            [.call vcpu0 (.setPending .fiq true), .run vcpu0, .expire vcpu0 0] ||
          (timersDue 0 (t.slots vcpu0) && !ohvTimerAsIrq t.g.cfg (t.slots vcpu0)))) :=
  ⟨_, rfl, virtualFiq_exact (freshSystem_fresh { vmAlive := true } blankPage) ⟨rfl, rfl⟩
    ⟨rfl, rfl⟩ (by simp) rfl rfl⟩

/-! ## IRQ -/

/-- The timer routed as an IRQ has to pass the FIQ gate as well, and FIQs are all
that is masked. -/
def TimerWithheld (cfg : OhvCfg) (now : Word) (asked : Bool) (s : VcpuSlot) : Prop :=
  ohvTimerAsIrq cfg s = true ∧ timersDue now s = true ∧ asked = false ∧ s.sptmBase ≠ 0 ∧
    s.inWfx = false ∧ ohvGuestInMonitor s = false ∧ s.ctx.cpsr.getLsbD 7 = false ∧
    s.ctx.cpsr.getLsbD 6 = true

instance (cfg : OhvCfg) (now : Word) (asked : Bool) (s : VcpuSlot) :
    Decidable (TimerWithheld cfg now asked s) :=
  inferInstanceAs (Decidable (_ ∧ _))

theorem virtualIrq_exact_iff {s t : System} {i : VcpuId} {word : List Act} (fresh : Fresh s i)
    (gate : s.g.env.timerGate = none ∧ s.g.cfg.timerGate = none)
    (gated : s.g.env.irqUngated = false ∧ s.g.cfg.irqUngated = false)
    (kept : .destroy i ∉ word) (run : Runs.runFrom System.step s word = some t) {now : Word}
    (entry : t.phase i = .enter now) :
    ((t.slots i).ctx.hcr.getLsbD 7 =
      (gateOpen 7 (t.slots i) &&
        (lastAsked i .irq word ||
          (ohvTimerAsIrq t.g.cfg (t.slots i) && timersDue now (t.slots i))))) ↔
      ¬ TimerWithheld t.g.cfg now (lastAsked i .irq word) (t.slots i) := by
  have swept := swept_at_entry fresh kept run entry
  have asked : (t.slots i).vmmIrq = lastAsked i .irq word :=
    vmmLevel_eq_lastAsked fresh kept run .irq
  rw [swept.irq_default (unset_along (fun cfg => cfg.timerGate = none) gate run)
    (unset_along (fun cfg => cfg.irqUngated = false) gated run), asked]
  unfold TimerWithheld gateOpen
  by_cases unknown : (t.slots i).sptmBase = 0
  · simp [unknown]
  · have known : (t.slots i).sptmBase ≠ 0 := unknown
    simp only [known, decide_false, Bool.false_or, ne_eq, not_false_eq_true, true_and]
    -- the seven bits the two gates and the level are made of
    cases lastAsked i .irq word <;> cases ohvTimerAsIrq t.g.cfg (t.slots i) <;>
      cases timersDue now (t.slots i) <;> cases (t.slots i).inWfx <;>
      cases ohvGuestInMonitor (t.slots i) <;> cases (t.slots i).ctx.cpsr.getLsbD 6 <;>
      cases (t.slots i).ctx.cpsr.getLsbD 7 <;> simp

def timerCore (pstate : BitVec 32) : System :=
  freshSystem { vmAlive := true, monitorBand := 0xfffffff020000000,
                env := { timerIrqVcpus := some 1 }, cfg := { timerIrqVcpus := some 1 } }
    ((blankPage.setBanked 18 1).setCpsr pstate)

theorem virtualIrq_unmasked : ∃ t,
    Runs.runFrom System.step (timerCore 0x4) [.run vcpu0, .expire vcpu0 0] = some t ∧
    (t.slots vcpu0).ctx.hcr.getLsbD 7 =
      (gateOpen 7 (t.slots vcpu0) &&
        (lastAsked vcpu0 .irq [.run vcpu0, .expire vcpu0 0] ||
          (ohvTimerAsIrq t.g.cfg (t.slots vcpu0) && timersDue 0 (t.slots vcpu0)))) :=
  ⟨_, rfl, (virtualIrq_exact_iff (freshSystem_fresh _ _) ⟨rfl, rfl⟩ ⟨rfl, rfl⟩ (by simp) rfl
    rfl).mpr (by decide)⟩

/-- With F masked and I not, the timer stays away. -/
theorem timerIrq_withheld_by_fiq_mask : ∃ t,
    Runs.runFrom System.step (timerCore 0x44) [.run vcpu0, .expire vcpu0 0] = some t ∧
    t.phase vcpu0 = .enter 0 ∧ (t.slots vcpu0).ctx.cpsr = 0x44 ∧
    ohvTimerAsIrq t.g.cfg (t.slots vcpu0) = true ∧ timersDue 0 (t.slots vcpu0) = true ∧
    gateOpen 7 (t.slots vcpu0) = true ∧ (t.slots vcpu0).ctx.hcr.getLsbD 7 = false :=
  ⟨_, rfl, rfl, by decide, by decide, by decide, by decide, by decide⟩

/-! ## Inside the monitor -/

def InMonitorRange (s : VcpuSlot) : Prop :=
  s.sptmBase ≤ s.ctx.pc ∧ s.ctx.pc - s.sptmBase < monitorSpan

def BandWraps (s : VcpuSlot) : Prop := s.sptmBase + monitorSpan < s.sptmBase

/-- What lets a level stand in the monitor: something is asserted, and the parked
flag is still up; or the span wraps and the guest does not mask it. -/
def LevelStands (now : Word) (fiq irq : Bool) (s : VcpuSlot) : Prop :=
  let fiq := fiq = true ∨ timersDue now s = true
  s.inWfx = true ∧ (fiq ∨ irq = true) ∨
    BandWraps s ∧ (fiq ∧ s.ctx.cpsr.getLsbD 6 = false ∨ irq = true ∧ s.ctx.cpsr.getLsbD 7 = false)

instance (s : VcpuSlot) : Decidable (InMonitorRange s) := inferInstanceAs (Decidable (_ ∧ _))
instance (s : VcpuSlot) : Decidable (BandWraps s) := inferInstanceAs (Decidable (_ < _))
instance (now : Word) (fiq irq : Bool) (s : VcpuSlot) : Decidable (LevelStands now fiq irq s) :=
  inferInstanceAs (Decidable (_ ∨ _))

theorem lt_span_iff (base pc : Word) (above : base ≤ pc) (below : pc - base < monitorSpan) :
    pc < base + monitorSpan ↔ ¬ base + monitorSpan < base := by
  generalize monitorSpan = span at *
  bv_omega

/-- The test of the code is the range test but where the span wraps. -/
theorem guestInMonitor_iff (s : VcpuSlot) (known : s.sptmBase ≠ 0) (range : InMonitorRange s) :
    ohvGuestInMonitor s = true ↔ ¬ BandWraps s := by
  have inside := lt_span_iff s.sptmBase s.ctx.pc range.1 range.2
  unfold ohvGuestInMonitor BandWraps
  simp only [Bool.and_eq_true, decide_eq_true_eq]
  exact ⟨fun both => inside.mp both.2, fun fits => ⟨⟨known, range.1⟩, inside.mpr fits⟩⟩

theorem monitorEntry_silent_iff {s t : System} {i : VcpuId} {word : List Act} (fresh : Fresh s i)
    (switches : DefaultSwitches s.g) (kept : .destroy i ∉ word)
    (run : Runs.runFrom System.step s word = some t) {now : Word}
    (entry : t.phase i = .enter now) (known : (t.slots i).sptmBase ≠ 0)
    (range : InMonitorRange (t.slots i)) :
    ((t.slots i).ctx.hcr.getLsbD 6 = false ∧ (t.slots i).ctx.hcr.getLsbD 7 = false) ↔
      ¬ LevelStands now (lastAsked i .fiq word) (lastAsked i .irq word) (t.slots i) := by
  have swept := swept_at_entry fresh kept run entry
  have default : t.g.cfg = {} := unset_along (fun cfg => cfg = {}) switches run
  have fiq : (t.slots i).vmmFiq = lastAsked i .fiq word :=
    vmmLevel_eq_lastAsked fresh kept run .fiq
  have irq : (t.slots i).vmmIrq = lastAsked i .irq word :=
    vmmLevel_eq_lastAsked fresh kept run .irq
  have routed : ohvTimerAsIrq t.g.cfg (t.slots i) = false := by simp [ohvTimerAsIrq, default]
  rw [swept.fiq_default (by rw [default]) (by rw [default]),
    swept.irq_default (by rw [default]) (by rw [default]), routed, fiq, irq]
  have test := guestInMonitor_iff _ known range
  unfold gateOpen LevelStands
  -- on either side of the test, the bits the two levels are made of
  by_cases wraps : BandWraps (t.slots i)
  · have outside : ohvGuestInMonitor (t.slots i) = false := by
      rw [← Bool.not_eq_true, test, not_not]
      exact wraps
    simp only [outside, wraps, known, decide_false, Bool.false_or, Bool.not_false, Bool.true_and,
      true_and]
    cases lastAsked i .fiq word <;> cases lastAsked i .irq word <;>
      cases timersDue now (t.slots i) <;> cases (t.slots i).inWfx <;>
      cases (t.slots i).ctx.cpsr.getLsbD 6 <;> cases (t.slots i).ctx.cpsr.getLsbD 7 <;> simp
  · have inside : ohvGuestInMonitor (t.slots i) = true := test.mpr wraps
    simp only [inside, wraps, known, decide_false, Bool.false_or, Bool.not_true, Bool.false_and,
      Bool.or_false, false_and, or_false]
    cases lastAsked i .fiq word <;> cases lastAsked i .irq word <;>
      cases timersDue now (t.slots i) <;> cases (t.slots i).inWfx <;> simp

def unparkedRun : List Act :=
  [.call vcpu0 (.setPending .irq true), .run vcpu0, .expire vcpu0 0, .enter vcpu0,
    .leave vcpu0 (blankPage.setPc 0xfffffff020001000) hvSuccess 0, .check vcpu0,
    .handle vcpu0 {}, .store vcpu0, .ret vcpu0, .run vcpu0, .expire vcpu0 0]

theorem monitorEntry_silent_unparked : ∃ t,
    Runs.runFrom System.step (freshSystem { vmAlive := true } blankPage) unparkedRun = some t ∧
    (t.slots vcpu0).sptmBase = 0xfffffff020000000 ∧
    (t.slots vcpu0).ctx.hcr.getLsbD 6 = false ∧ (t.slots vcpu0).ctx.hcr.getLsbD 7 = false :=
  ⟨_, rfl, by decide, (monitorEntry_silent_iff (freshSystem_fresh { vmAlive := true } blankPage)
    ⟨rfl, rfl⟩ (by simp [unparkedRun]) (rfl : Runs.runFrom _ _ unparkedRun = _) rfl (by decide)
    (by decide)).mpr (by decide)⟩

def reportedWfx (i : VcpuId) (wfx : Bool) (act : Act) (t : System) : Bool :=
  match act with
  | .handle j _ =>
      if j = i ∧ t.phase i = .store ∧ (t.slots i).pubExit.reason = .exception then
        decide ((t.slots i).pubExit.syndrome.extractLsb' 26 6 = 0x1#6)
      else wfx
  | _ => wfx

/-- The VMM's part: at every run call the parked flag is what the last reported
exception says. -/
def ParkedAsReported (i : VcpuId) : Bool → System → List Act → Prop
  | _, _, [] => True
  | wfx, s, act :: rest => ∀ t, s.step act = some t →
      (act = .run i → (s.slots i).inWfx = wfx) ∧ ParkedAsReported i (reportedWfx i wfx act t) t rest

theorem ParkedAsReported.cons_of_step {i : VcpuId} {wfx : Bool} {s t : System} {act : Act}
    {rest : List Act} (taken : s.step act = some t)
    (flag : act = .run i → (s.slots i).inWfx = wfx)
    (later : ParkedAsReported i (reportedWfx i wfx act t) t rest) :
    ParkedAsReported i wfx s (act :: rest) := by
  intro next enabled
  rw [taken] at enabled
  exact Option.some.inj enabled ▸ ⟨flag, later⟩

def bandStart : System :=
  freshSystem { vmAlive := true, monitorBand := 0xfffffff020000000 } blankPage

def wfxPage : Ctx := blankPage.withExit 1 0x04000000

def insideMonitor : Ctx :=
  (((wfxPage.setHcr ohvHcrVi).markDirty ohvStateControls).setPc 0xfffffff020001000).withExit 2 0

def parkedRun : List Act :=
  .run vcpu0 :: oneExit vcpu0 0 wfxPage {} ++ [.store vcpu0, .ret vcpu0,
    .call vcpu0 (.setParked true), .call vcpu0 (.setPending .irq true), .run vcpu0] ++
  oneExit vcpu0 0 insideMonitor {} ++ [.recheck vcpu0, .expire vcpu0 0]

theorem parkedRun_granted : Runs.Along System.step (Granted vcpu0) bandStart parkedRun := by
  have inside : ((wfxPage.setHcr ohvHcrVi).markDirty ohvStateControls).SameControls
      insideMonitor :=
    ((Ctx.Keeps.refl _).setPc _).sameControls.trans (.withExit _ _ _)
  refine Runs.Along.append rfl ?_ ?_
  · refine Runs.Along.append rfl ?_ ?_
    · refine Runs.Along.append rfl ?_ ?_
      · refine (Runs.Along.cons_of_step rfl).mpr ⟨trivial, ?_⟩
        refine oneExit_granted rfl ?_ Host.quiet_default
        exact .withExit _ _ _
      · iterate 5 refine fun _ _ => ⟨trivial, ?_⟩
        trivial
    · refine oneExit_granted rfl ?_ Host.quiet_default
      exact inside
  · iterate 2 refine fun _ _ => ⟨trivial, ?_⟩
    trivial

theorem parkedRun_parked : ParkedAsReported vcpu0 false bandStart parkedRun := by
  refine .cons_of_step rfl (fun _ => rfl) ?_
  iterate 9 refine .cons_of_step rfl nofun ?_
  refine .cons_of_step rfl (fun _ => by decide) ?_
  iterate 6 refine .cons_of_step rfl nofun ?_
  exact .cons_of_step rfl nofun trivial

/-- The parked flag outlives the wait: the exit that shows the guest awake never
reaches the VMM. -/
theorem level_stands_in_monitor :
    Fresh bandStart vcpu0 ∧ DefaultSwitches bandStart.g ∧
    Runs.Along System.step (Granted vcpu0) bandStart parkedRun ∧
    ParkedAsReported vcpu0 false bandStart parkedRun ∧
    ∃ t, Runs.runFrom System.step bandStart parkedRun = some t ∧ t.phase vcpu0 = .enter 0 ∧
      (t.slots vcpu0).sptmBase ≠ 0 ∧ InMonitorRange (t.slots vcpu0) ∧
      (t.slots vcpu0).ctx.hcr.getLsbD 7 = true :=
  ⟨freshSystem_fresh _ _, ⟨rfl, rfl⟩, parkedRun_granted, parkedRun_parked,
    _, rfl, rfl, by decide, by decide, by decide⟩

end OpenHypervisor
