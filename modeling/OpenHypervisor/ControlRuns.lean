import OpenHypervisor.GuestRegisters
import OpenHypervisor.VtimerMask

/-!
# The run controls over a run

What configures a guest is the VMM's to say.  A bit of a run control reads as the VMM last
said it, however the guest's exits, the timers, the controller and the other vCPUs come in
between; three bits of `HCR_EL2` are the library's own.
-/

set_option autoImplicit false

namespace OpenHypervisor

open Runs

def hvVcpuGetTrapDebugExceptions (s : VcpuSlot) : Bool := (s.ctx.control 0x18).getLsbD 14

/-- `hv_vcpu_get_trap_debug_reg_accesses`, which reads one of its three bits. -/
def hvVcpuGetTrapDebugRegAccesses (s : VcpuSlot) : Bool := (s.ctx.control 0x18).getLsbD 9

/-- What a call says of a bit of a run control.  The guarded level, field 9, is not the
VMM's. -/
def VcpuCall.configured (off bit : Nat) (was : Bool) : VcpuCall → Bool
  | .setControlField field value =>
      if field ≠ 9 ∧ (controlFieldOffset field).map (ohvRwControls + ·) = some off then
        value.getLsbD bit
      else was
  | .setTrapDebugExceptions on => if off = ohvRwControls + 0x18 ∧ bit = 14 then on else was
  | .setTrapDebugRegAccesses on =>
      if off = ohvRwControls + 0x18 ∧ (bit = 9 ∨ bit = 10 ∨ bit = 12) then on else was
  | .setVtimerOffset value => if off = ohvRwVtimerOffset then value.getLsbD bit else was
  | _ => was

def Act.configured (i : VcpuId) (off bit : Nat) (was : Bool) : Act → Bool
  | .call j asked => if j = i then asked.configured off bit was else was
  | _ => was

section Call
variable {off bit : Nat}

theorem Configures.clear {off : Nat} (configures : Configures off) : off ≠ ohvRwStateDirty := by
  rintro rfl
  exact absurd configures (by decide)

theorem setControl_word (configures : Configures off) (c : Ctx) (inside : Nat)
    (value bits : Word) : ((c.setControl inside value).markDirty bits).word off =
      if off = ohvRwControls + inside then value else c.word off := by
  simp only [Ctx.markDirty, Ctx.setControl, Ctx.word_put, if_neg configures.clear]

theorem switchControl_bit (configures : Configures off) (inside : Nat) (mask : Word) (on : Bool)
    (s : VcpuSlot) : ((switchControl inside mask on s).ctx.word off).getLsbD bit =
      if off = ohvRwControls + inside ∧ mask.getLsbD bit = true then on
      else (s.ctx.word off).getLsbD bit := by
  unfold switchControl
  simp only
  rw [setControl_word configures]
  by_cases here : off = ohvRwControls + inside
  · subst here
    rw [if_pos rfl, WordBits.getLsbD_switch]
    simp only [true_and]
    rfl
  · rw [if_neg here, if_neg fun both => here both.1]

theorem mdcr_bits (bit : Nat) :
    ((BitVec.twoPow 64 14).getLsbD bit = true ↔ bit = 14) ∧
      ((BitVec.twoPow 64 9 ||| BitVec.twoPow 64 10 ||| BitVec.twoPow 64 12).getLsbD bit = true ↔
        bit = 9 ∨ bit = 10 ∨ bit = 12) := by
  simp only [BitVec.getLsbD_or, BitVec.getLsbD_twoPow, Bool.or_eq_true, decide_eq_true_eq,
    Bool.and_eq_true]
  omega

theorem regOff_not_configures {reg : Nat} (valid : reg ≤ hvRegCpsr) :
    ¬ Configures (regOff reg) := by
  have checked : ∀ reg : Fin 35, ¬ Configures (regOff reg) := by decide
  exact checked ⟨reg, Nat.lt_succ_of_le valid⟩

/-- Under the default switches a call leaves a bit of a run control as it says. -/
theorem VcpuCall.serve_configured (call : VcpuCall) (v : VcpuView) (configures : Configures off)
    (still : ¬ Steers off bit) (switches : v.g.cfg = {}) (quiet : call.host.Quiet)
    (unnamed : ∀ host enc value, call = .setSysReg host enc value → ¬ SysRegNames enc off) :
    ((call.serve v).s.ctx.word off).getLsbD bit =
      call.configured off bit ((v.s.ctx.word off).getLsbD bit) := by
  have kept : ¬ call.Names off →
      ((call.serve v).s.ctx.word off).getLsbD bit = (v.s.ctx.word off).getLsbD bit :=
    fun other => (call.serve_within v).bit (Or.inr (Or.inl configures)) still other
      fun k c => quiet k c off configures.control.1
  cases call with
  | setControlField field value =>
      simp only [VcpuCall.serve, hvVcpuSetControlField, VcpuCall.configured, switches, and_true]
      cases place : controlFieldOffset field with
      | none =>
          rw [if_neg (by simp)]
      | some inside =>
          by_cases level : field = 9
          · simp only [if_pos level]
            rw [if_neg fun both => both.1 level]
          · simp only [if_neg level]
            rw [setControl_word configures]
            simp only [ne_eq, level, not_false_eq_true, Option.map_some, true_and,
              Option.some.injEq, eq_comm (a := off)]
            split <;> rfl
  | setTrapDebugExceptions on =>
      simp only [VcpuCall.configured, ← (mdcr_bits bit).1]
      exact switchControl_bit configures 0x18 _ on v.s
  | setTrapDebugRegAccesses on =>
      simp only [VcpuCall.configured, ← (mdcr_bits bit).2]
      exact switchControl_bit configures 0x18 _ on v.s
  | setVtimerOffset value =>
      simp only [VcpuCall.serve, hvVcpuSetVtimerOffset, VcpuCall.configured]
      rw [setControl_word configures]
      show _ = if off = ohvRwControls + 0x30 then _ else _
      split <;> rfl
  | setReg reg value =>
      refine kept fun names => ?_
      obtain ⟨valid, rfl⟩ := names
      exact regOff_not_configures valid configures
  | setSysReg host enc value => exact kept (unnamed host enc value rfl)
  | setPending | setParked | getSysReg | setVtimerMask => exact kept id

end Call

/-! ## A run of the system -/

section Run
variable {s t : System} {i : VcpuId} {off bit : Nat}

theorem StepReads.not_about {act : Act} (reads : StepReads i s act)
    (configures : Configures off) (interface : off ≠ ohvRwControls + ichHcrOff)
    (uncalled : ∀ call, act ≠ .call i call) : ¬ s.About i off act := by
  intro about
  cases act with
  | destroy j => exact reads about
  | leave j page rc ticks => exact about.2 (reads about.1 off configures.control.1)
  | call j call =>
      obtain ⟨rfl, -⟩ := about
      exact uncalled call rfl
  | gic call => exact interface about.2
  | handle j host => exact configures.control.2 about.2.2.surfaced
  | _ => exact about

theorem System.step_configured {act : Act} (taken : s.step act = some t)
    (configures : Configures off) (still : ¬ Steers off bit)
    (interface : off ≠ ohvRwControls + ichHcrOff) (live : (s.slots i).used = true)
    (switches : DefaultSwitches s.g) (reads : StepReads i s act)
    (unnamed : ∀ host enc value, act = .call i (.setSysReg host enc value) →
      ¬ SysRegNames enc off) :
    ((t.slots i).ctx.word off).getLsbD bit =
      act.configured i off bit (((s.slots i).ctx.word off).getLsbD bit) := by
  by_cases called : ∃ call, act = .call i call
  · obtain ⟨call, rfl⟩ := called
    rw [(System.step_turn i taken live nofun).called]
    refine (call.serve_configured (s.view i) configures still switches.2
      (reads.quiet fun j own => (Option.some.inj own).symm)
      fun host enc value same => unnamed host enc value (congrArg (Act.call i) same)).trans ?_
    exact (if_pos rfl).symm
  · have uncalled : ∀ call, act ≠ .call i call := fun call same => called ⟨call, same⟩
    have spares : act.owner = some i → act.host.Spares off :=
      fun own k c => reads.quiet (fun j same => Option.some.inj (same.symm.trans own)) k c off
        configures.control.1
    have kept := (System.step_bit (Or.inr (Or.inl configures)) still taken live
      (reads.not_about configures interface uncalled) spares).2
    refine kept.trans ?_
    cases act with
    | call j call =>
        have other : j ≠ i := by
          rintro rfl
          exact uncalled call rfl
        exact (if_neg other).symm
    | _ => rfl

/-- Over any run, interleaved with other vCPUs and threads, each bit that configures a guest
reads what the VMM's calls on that vCPU said of it last. -/
theorem controls_follow_calls {run : List Act} (configures : Configures off)
    (still : ¬ Steers off bit) (interface : off ≠ ohvRwControls + ichHcrOff)
    (live : (s.slots i).used = true) (switches : DefaultSwitches s.g)
    (ran : runFrom System.step s run = some t)
    (reads : Along System.step (fun s act _ => StepReads i s act) s run)
    (unnamed : ∀ host enc value, Act.call i (.setSysReg host enc value) ∈ run →
      ¬ SysRegNames enc off) :
    ((t.slots i).ctx.word off).getLsbD bit =
      run.foldl (Act.configured i off bit) (((s.slots i).ctx.word off).getLsbD bit) := by
  have spoken : ∀ act ∈ run, ∀ host enc value, act = .call i (.setSysReg host enc value) →
      ¬ SysRegNames enc off := by
    rintro _ member host enc value rfl
    exact unnamed host enc value member
  refine read_eq_foldl (fun s => (s.slots i).used = true ∧ DefaultSwitches s.g)
    (fun s => ((s.slots i).ctx.word off).getLsbD bit) (Act.configured i off bit) ?_
    (reads.and (along_of_forall spoken s)) ran ⟨live, switches⟩
  intro before act after taken ⟨reading, silent⟩ ⟨used, plain⟩
  have before' : Standing before.g.vmEl2 before i := ⟨used, rfl, plain⟩
  have standing := before'.step taken reading.kept
  exact ⟨⟨standing.live, standing.switches⟩,
    System.step_configured taken configures still interface used plain reading silent⟩

end Run

def debugStart : System :=
  { freshSystem { vmAlive := true } blankPage with phase := fun _ => .inGuest }

def debugRun : List Act :=
  [.leave vcpu0 (blankPage.withExit 6 0) hvSuccess 0, .check vcpu0, .handle vcpu0 {},
    .store vcpu0, .ret vcpu0, .call vcpu0 (.setTrapDebugExceptions true), .latch [vcpu1],
    .call vcpu0 (.setTrapDebugRegAccesses true), .run vcpu0, .expire vcpu0 3, .enter vcpu0]

theorem controls_follow_calls_debug : ∃ t,
    runFrom System.step debugStart debugRun = some t ∧ t.phase vcpu0 = .inGuest ∧
    hvVcpuGetTrapDebugExceptions (t.slots vcpu0) = true ∧
    hvVcpuGetTrapDebugRegAccesses (t.slots vcpu0) = true := by
  have reads : Along System.step (fun s act _ => StepReads vcpu0 s act) debugStart debugRun := by
    refine fun _ _ => ⟨fun _ => Ctx.SameControls.withExit blankPage _ _, fun _ _ => ⟨trivial, ?_⟩⟩
    refine fun _ _ => ⟨fun _ => Host.quiet_default, ?_⟩
    exact fun _ _ => ⟨trivial, fun _ _ => ⟨trivial, fun _ _ => ⟨trivial, fun _ _ => ⟨trivial,
      fun _ _ => ⟨trivial, fun _ _ => ⟨trivial, fun _ _ => ⟨trivial, fun _ _ => ⟨trivial,
      trivial⟩⟩⟩⟩⟩⟩⟩⟩
  have unnamed : ∀ host enc value, Act.call vcpu0 (.setSysReg host enc value) ∈ debugRun →
      ¬ SysRegNames enc (ohvRwControls + 0x18) := by
    intro host enc value member
    simp [debugRun] at member
  have follows : ∀ t bit, runFrom System.step debugStart debugRun = some t →
      ((t.slots vcpu0).ctx.word (ohvRwControls + 0x18)).getLsbD bit =
        debugRun.foldl (Act.configured vcpu0 (ohvRwControls + 0x18) bit)
          (((debugStart.slots vcpu0).ctx.word (ohvRwControls + 0x18)).getLsbD bit) :=
    fun _ _ ran => controls_follow_calls (by decide) (fun steers => absurd steers.1 (by decide))
      (by decide) rfl ⟨rfl, rfl⟩ ran reads unnamed
  have read : ∀ t, runFrom System.step debugStart debugRun = some t →
      hvVcpuGetTrapDebugExceptions (t.slots vcpu0) = true ∧
        hvVcpuGetTrapDebugRegAccesses (t.slots vcpu0) = true :=
    fun t ran => ⟨(follows t 14 ran).trans rfl, (follows t 9 ran).trans rfl⟩
  exact ⟨_, rfl, rfl, read _ rfl⟩

end OpenHypervisor
