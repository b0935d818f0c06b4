import OpenHypervisor.Footprint

/-!
# A register of the guest over a run

What the VMM reads of a register is what the guest left there, what it wrote itself or where
an exit served by the library moved the guest to.
-/

set_option autoImplicit false

namespace OpenHypervisor

open Ctx (Within)
open Runs

def Host.Spares (host : Host) (off : Nat) : Prop := ∀ k c, (host.sync k c).word off = c.word off

def System.About (s : System) (i : VcpuId) (off : Nat) : Act → Prop
  | .destroy j => j = i
  | .leave j page _ _ => j = i ∧ page.word off ≠ (s.slots i).ctx.word off
  | .call j call => j = i ∧ call.Names off
  | .gic call => call.Names off
  | .handle j host => j = i ∧ (exitFromRo host (s.view i)).1 = .keepRunning ∧
      (arriveExit s.g.cfg host (s.slots i)).ctx.Resumes off
  | _ => False

section Step
variable {s t : System} {act : Act} {i : VcpuId} {off bit : Nat}

theorem System.step_bit (tracked : Tracked off) (still : ¬ Steers off bit)
    (taken : s.step act = some t) (live : (s.slots i).used = true) (other : ¬ s.About i off act)
    (kernel : act.owner = some i → act.host.Spares off) :
    (t.slots i).used = true ∧
      ((t.slots i).ctx.word off).getLsbD bit = ((s.slots i).ctx.word off).getLsbD bit := by
  have kept : act ≠ .destroy i := by
    rintro rfl
    exact other rfl
  have turn := System.step_turn i taken live kept
  refine ⟨turn.used.trans live, ?_⟩
  by_cases controller : ∃ call, act = .gic call
  · obtain ⟨call, rfl⟩ := controller
    cases taken
    have within : Within {} call.Names (s.slots i).ctx
        ((call.serve s.g s.slots).slots i).ctx := call.serve_within s.g s.slots i
    exact within.bit tracked still other fun _ _ => rfl
  · generalize t.slots i = slot, t.phase i = phase at turn ⊢
    cases turn with
    | gic call _ _ => exact absurd ⟨call, rfl⟩ controller
    | call call _ =>
        exact (call.serve_within (s.view i)).bit tracked still (fun names => other ⟨rfl, names⟩)
          (kernel rfl)
    | expire now _ =>
        exact (ohvExpireTimers_within now (s.view i)).bit tracked still id (kernel rfl)
    | reported host _ _ | served host _ _ =>
        exact (exitFromRo_goesOn (s.view i)).bit tracked still (fun moves => other ⟨rfl, moves⟩)
          (kernel rfl)
    | leave page rc ticks _ =>
        have same : page.word off = (s.slots i).ctx.word off :=
          Classical.byContradiction fun changed => other ⟨rfl, changed⟩
        exact congrArg (fun word => word.getLsbD bit) same
    | _ => rfl

end Step

/-! ## A register -/

theorem regOff_shared {reg : Nat} (valid : reg ≤ hvRegCpsr) : regOff reg < ohvRwSharedSysregs := by
  have checked : ∀ reg : Fin 35, regOff reg < ohvRwSharedSysregs := by decide
  exact checked ⟨reg, Nat.lt_succ_of_le valid⟩

theorem VcpuCall.Names.setsReg {call : VcpuCall} {off : Nat} (names : call.Names off)
    (register : off < ohvRwSharedSysregs) :
    ∃ reg value, call = .setReg reg value ∧ reg ≤ hvRegCpsr := by
  have low : off < ohvRwControls := Nat.lt_of_lt_of_le register (by decide)
  cases call with
  | setReg reg value => exact ⟨reg, value, rfl, names.1⟩
  | setSysReg host enc value =>
      rcases names with ⟨d, base, found, region, rfl⟩ | ⟨-, rfl⟩ | ⟨-, rfl⟩
      · have above := (place_page d (sysregLookup_mem enc d found) base region).1
        exact absurd register (Nat.not_lt.mpr above)
      · exact absurd low (Nat.not_lt.mpr (Nat.le_add_right _ _))
      · exact absurd low (Nat.not_lt.mpr (Nat.le_add_right _ _))
  | setControlField field value =>
      obtain ⟨inside, -, rfl⟩ := names
      exact absurd low (Nat.not_lt.mpr (Nat.le_add_right _ _))
  | setTrapDebugExceptions _ | setTrapDebugRegAccesses _ =>
      obtain rfl := names
      exact absurd low (Nat.not_lt.mpr (Nat.le_add_right _ _))
  | setVtimerOffset _ =>
      obtain rfl := names
      exact absurd low (by decide)
  | setPending _ _ | setParked _ | getSysReg _ _ | setVtimerMask _ => exact names.elim

/-- The steps that are about a register of a vCPU.  FPCR and FPSR share a word, but neither
the call that sets one nor a guest that changes one is about the other. -/
def System.AboutReg (s : System) (i : VcpuId) (reg : Nat) : Act → Prop
  | .destroy j => j = i
  | .leave j page _ _ => j = i ∧
      hvVcpuGetReg reg { s.slots i with ctx := page } ≠ hvVcpuGetReg reg (s.slots i)
  | .call j (.setReg named _) => j = i ∧ named = reg
  | .handle j host => j = i ∧ (exitFromRo host (s.view i)).1 = .keepRunning ∧
      (arriveExit s.g.cfg host (s.slots i)).ctx.Resumes (regOff reg)
  | _ => False

theorem System.step_reg {s t : System} {act : Act} {i : VcpuId} {reg : Nat}
    (valid : reg ≤ hvRegCpsr) (taken : s.step act = some t) (live : (s.slots i).used = true)
    (other : ¬ s.AboutReg i reg act)
    (kernel : act.owner = some i → act.host.Spares (regOff reg)) :
    (t.slots i).used = true ∧ hvVcpuGetReg reg (t.slots i) = hvVcpuGetReg reg (s.slots i) := by
  have register := regOff_shared valid
  have surfaced : Surfaced (regOff reg) := Or.inl register
  have kept : act ≠ .destroy i := by
    rintro rfl
    exact other rfl
  have turn := System.step_turn i taken live kept
  refine ⟨turn.used.trans live, ?_⟩
  by_cases about : s.About i (regOff reg) act
  · -- the word changes, the register's part of it does not
    cases act with
    | destroy j => exact absurd about other
    | leave j page rc ticks =>
        obtain rfl := about.1
        have same : hvVcpuGetReg reg { s.slots j with ctx := page } =
            hvVcpuGetReg reg (s.slots j) := Classical.not_not.mp fun changed => other ⟨rfl, changed⟩
        exact (hvVcpuGetReg_word (congrArg (fun c : Ctx => c.word (regOff reg)) turn.left)).trans
          same
    | call j call =>
        obtain ⟨rfl, names⟩ := about
        obtain ⟨named, value, rfl, small⟩ := names.setsReg register
        have apart : reg ≠ named := fun same => other ⟨rfl, same.symm⟩
        rw [turn.called]
        exact hvVcpuSetReg_other small valid apart value (s.view j)
    | gic call => exact absurd surfaced (GicCall.Names.inside about)
    | handle j host => exact absurd about other
    | _ => exact about.elim
  · exact hvVcpuGetReg_word (BitVec.eq_of_getLsbD_eq fun bit _ =>
      (System.step_bit (Or.inl surfaced) (surfaced.still bit) taken live about kernel).2)

/-- What a register reads changes in the guest, by the call that names it and by an exit
served here that moves it, and by nothing else in any run. -/
theorem registers_kept {s t : System} {i : VcpuId} {run : List Act} {reg : Nat}
    (valid : reg ≤ hvRegCpsr) (live : (s.slots i).used = true)
    (ran : runFrom System.step s run = some t)
    (others : Along System.step (fun s act _ => ¬ s.AboutReg i reg act) s run)
    (kernel : ∀ act ∈ run, act.owner = some i → act.host.Spares (regOff reg)) :
    hvVcpuGetReg reg (t.slots i) = hvVcpuGetReg reg (s.slots i) := by
  have step : ∀ (before : System) act after, before.step act = some after →
      (¬ before.AboutReg i reg act ∧ (act.owner = some i → act.host.Spares (regOff reg))) →
      ((before.slots i).used = true ∧
        hvVcpuGetReg reg (before.slots i) = hvVcpuGetReg reg (s.slots i)) →
      (after.slots i).used = true ∧
        hvVcpuGetReg reg (after.slots i) = hvVcpuGetReg reg (s.slots i) := by
    intro before act after taken ⟨other, spares⟩ ⟨used, same⟩
    obtain ⟨used', same'⟩ := System.step_reg valid taken used other spares
    exact ⟨used', same'.trans same⟩
  have given := others.and (along_of_forall kernel s)
  exact (invariant_along _ step given ran ⟨live, rfl⟩).2

def counterStart : System := freshSystem { vmAlive := true } blankPage

/-- The guest's FPCR is set and the guest entered; it reads the counter into X3, which is served
here while another thread cancels another vCPU, and goes on. -/
def counterRun : List Act :=
  [.call vcpu0 (.setReg hvRegFpcr 7), .run vcpu0, .expire vcpu0 3, .enter vcpu0,
    .leave vcpu0 ((blankPage.putHi32 ohvRwFpsrFpcr 7).withExit 8 0x6232f861) hvSuccess 1,
    .check vcpu0, .latch [vcpu1], .handle vcpu0 { now := 5 }, .recheck vcpu0, .expire vcpu0 5,
    .enter vcpu0]

theorem registers_kept_counterRead : ∃ t, runFrom System.step counterStart counterRun = some t ∧
    t.phase vcpu0 = .inGuest ∧ hvVcpuGetReg 3 (t.slots vcpu0) = some 5 ∧
    hvVcpuGetReg hvRegFpcr (t.slots vcpu0) = some 7 ∧
    ∀ reg ∈ [4, hvRegFpsr],
      hvVcpuGetReg reg (t.slots vcpu0) = hvVcpuGetReg reg (counterStart.slots vcpu0) := by
  have others : ∀ reg ∈ [4, hvRegFpsr], Along System.step
      (fun s act _ => ¬ s.AboutReg vcpu0 reg act) counterStart counterRun := by
    intro reg member
    have unset : reg ≠ hvRegFpcr := by
      rintro rfl
      exact absurd member (by decide)
    refine (Along.cons_of_step rfl).mpr ⟨fun set => unset set.2.symm, ?_⟩
    refine (Along.cons_of_step rfl).mpr ⟨id, (Along.cons_of_step rfl).mpr ⟨id, ?_⟩⟩
    refine (Along.cons_of_step rfl).mpr ⟨id, (Along.cons_of_step rfl).mpr ⟨?_, ?_⟩⟩
    · rintro ⟨-, changed⟩
      simp only [List.mem_cons, List.not_mem_nil, or_false] at member
      rcases member with rfl | rfl <;> exact changed rfl
    refine (Along.cons_of_step rfl).mpr ⟨id, (Along.cons_of_step rfl).mpr ⟨id, ?_⟩⟩
    refine (Along.cons_of_step rfl).mpr ⟨?_, fun _ _ => ⟨id, fun _ _ => ⟨id, fun _ _ => ⟨id, ?_⟩⟩⟩⟩
    · simp only [List.mem_cons, List.not_mem_nil, or_false] at member
      rintro ⟨-, -, pc | cpsr | ⟨-, -, -, -, place⟩⟩
      · exact absurd pc (by rcases member with rfl | rfl <;> decide)
      · exact absurd cpsr (by rcases member with rfl | rfl <;> decide)
      · exact absurd place (by rcases member with rfl | rfl <;> decide)
    · trivial
  have kernel : ∀ reg, ∀ act ∈ counterRun, act.owner = some vcpu0 →
      act.host.Spares (regOff reg) := by
    intro reg act member
    simp only [counterRun, List.mem_cons, List.not_mem_nil, or_false] at member
    rcases member with rfl | rfl | rfl | rfl | rfl | rfl | rfl | rfl | rfl | rfl | rfl <;>
      exact fun _ _ _ => rfl
  refine ⟨_, rfl, rfl, rfl, rfl, fun reg member => ?_⟩
  have valid : reg ≤ hvRegCpsr := by
    simp only [List.mem_cons, List.not_mem_nil, or_false] at member
    rcases member with rfl | rfl <;> decide
  exact registers_kept valid rfl rfl (others reg member) (kernel reg)

end OpenHypervisor
