import OpenHypervisor.HvcRoundTrip
import OpenHypervisor.TrappedOutcome
import OpenHypervisor.Snapshot

/-!
# The PSTATE a vCPU runs with

A guest hypervisor is kept at hardware EL1, and a PSTATE that names EL2 is one
the kernel refuses.  PSTATE is written by the VMM, by the return of a trapped
ERET from the guest's own SPSR, by the injection of an HVC, and by the kernel;
a guarded return leaves another one for the hardware to take.
-/

set_option autoImplicit false

namespace OpenHypervisor

/-- The page holds no PSTATE of EL2. -/
def Ctx.Lowered (c : Ctx) : Prop := ¬ NamesEl2 c.cpsr

instance (c : Ctx) : Decidable c.Lowered := inferInstanceAs (Decidable (¬ _))

/-! ## The mode field -/

theorem mode_replaced (pstate mode : BitVec 32) :
    ((pstate &&& ~~~0xf#32) ||| mode) &&& 0xf = mode &&& 0xf := by
  have cleared : pstate &&& ~~~0xf#32 &&& 0xf = 0 := by
    rw [BitVec.and_assoc]
    exact BitVec.and_zero
  rw [BitVec.and_or_distrib_right, cleared]
  exact BitVec.zero_or

theorem translatePstate_lowered (pstate : BitVec 32) :
    ¬ NamesEl2 (translatePstate true pstate) := by
  by_cases names : NamesEl2 pstate
  · have lowered : translatePstate true pstate =
        (pstate &&& ~~~0xf#32) ||| ((pstate &&& 0xf) - 4) := if_pos ⟨rfl, names⟩
    rw [lowered, NamesEl2, mode_replaced]
    rcases names with el2t | el2h
    · rw [el2t]
      decide
    · rw [el2h]
      decide
  · rw [translatePstate_of_not true pstate names]
    exact names

theorem mode_low (spsr : Word) :
    spsr &&& 0xf = (spsr.extractLsb' 0 32 &&& 0xf).zeroExtend 64 := by
  apply BitVec.eq_of_toNat_eq
  have whole : (spsr &&& 0xf).toNat = spsr.toNat % 16 := Nat.and_two_pow_sub_one_eq_mod spsr.toNat 4
  have low : (spsr.extractLsb' 0 32 &&& 0xf).toNat = (spsr.extractLsb' 0 32).toNat % 16 :=
    Nat.and_two_pow_sub_one_eq_mod _ 4
  rw [whole, BitVec.toNat_setWidth, low, BitVec.extractLsb'_toNat]
  omega

theorem completeEret_lowered (s : VcpuSlot) : (completeEret s).ctx.Lowered := by
  have named := mode_low (s.ctx.banked 14)
  unfold completeEret
  simp only
  generalize (s.ctx.banked 14).extractLsb' 0 32 = low at named ⊢
  split
  · rename_i toEl1
    have kept : (VcpuSlot.clearNv { s with
        ctx := (s.ctx.setPc (s.ctx.banked 3)).setCpsr low, guestAtEl2 := false }).ctx.cpsr = low :=
      (Ctx.cpsr_congr (clearNv_word _ _ (by decide) (by decide))).trans
        (Ctx.lo32_putLo32 _ _ _)
    rw [Ctx.Lowered, kept]
    rintro (el2t | el2h)
    · rw [named, el2t] at toEl1
      exact absurd toEl1 (by decide)
    · rw [named, el2h] at toEl1
      exact absurd toEl1 (by decide)
  · split
    · rename_i stays
      rw [Ctx.Lowered, Ctx.cpsr, Ctx.setCpsr, Ctx.lo32_putLo32, NamesEl2, mode_replaced]
      rcases stays with el2t | el2h
      · rw [el2t]
        decide
      · rw [el2h]
        decide
    · rename_i other
      rw [Ctx.Lowered, Ctx.cpsr, Ctx.setCpsr, Ctx.lo32_putLo32]
      rintro (el2t | el2h)
      · exact other (Or.inl (by rw [named, el2t]; rfl))
      · exact other (Or.inr (by rw [named, el2h]; rfl))

/-! ## Handling an exit -/

def Host.Lowers (host : Host) : Prop := ∀ k c, Ctx.Lowered c → (host.sync k c).Lowered

/-- The SPSR a return from EL1 can take: AArch64, to EL0t, EL1t or EL1h. -/
def ReturnsFromEl1 (spsr : Word) : Prop :=
  spsr &&& 0x10 = 0 ∧ (spsr &&& 0xf = 0x0 ∨ spsr &&& 0xf = 0x4 ∨ spsr &&& 0xf = 0x5)

theorem eretIsGuarded_returns {c : Ctx} (guarded : eretIsGuarded c = true) :
    ReturnsFromEl1 (c.ext 52) := by
  unfold eretIsGuarded spsrIllegalReason at guarded
  generalize c.ext 52 = spsr at guarded
  simp only [Bool.and_eq_true, decide_eq_true_eq] at guarded
  obtain ⟨⟨⟨-, legal⟩, notEl2t⟩, notEl2h⟩ := guarded
  split at legal
  · cases legal
  · rename_i aarch64
    refine ⟨not_not.mp aarch64, ?_⟩
    have mode : ∀ n, (spsr &&& 0xf).toNat = n → spsr &&& 0xf = BitVec.ofNat 64 n := by
      intro n same
      rw [← same, BitVec.ofNat_toNat, BitVec.setWidth_eq]
    split at legal
    · exact Or.inl (mode _ ‹_›)
    · exact Or.inr (Or.inl (mode _ ‹_›))
    · exact Or.inr (Or.inr (mode _ ‹_›))
    · exact absurd (mode _ ‹_›) notEl2t
    · exact absurd (mode _ ‹_›) notEl2h
    · cases legal
    · cases legal
    · cases legal

/-- PSTATE as an exit leaves it and, where it hands a guarded return to the
hardware, the SPSR the hardware will take. -/
def LeavesPstate (after : VcpuView) (handed : Prop) : Prop :=
  after.s.ctx.Lowered ∧
    (handed → after.s.ctx.hcr.getLsbD 42 = false ∧ ReturnsFromEl1 (after.s.ctx.banked 14))

theorem LeavesPstate.only {after : VcpuView} {handed : Prop} (lowered : after.s.ctx.Lowered)
    (none : ¬ handed) : LeavesPstate after handed :=
  ⟨lowered, fun hands => absurd hands none⟩

theorem serviceNv2Access_lowered (host : Host) (esr : Word) (v : VcpuView)
    (start : v.s.ctx.Lowered) : (serviceNv2Access host esr v).2.s.ctx.Lowered := by
  obtain ⟨w, spares, ⟨-, after⟩ | ⟨-, after, declined⟩⟩ :=
    serviceNv2Access_ends host esr v (sparesGeneral_writes v.s.ctx _) (.refl v.s.ctx)
  · rw [after, Ctx.Lowered]
    show ¬ NamesEl2 w.s.ctx.skip.cpsr
    rw [spares.stepsPast.cpsr]
    exact start
  · rw [after]
    rcases declined with rfl | rfl | rfl
    · exact start
    · exact start
    · have same : (v.s.ctx.setBanked 19 0).cpsr = v.s.ctx.cpsr :=
        Ctx.cpsr_congr ((v.s.ctx.word_put _ _ _).trans (if_neg (by decide)))
      show ¬ NamesEl2 (v.s.ctx.setBanked 19 0).cpsr
      rw [same]
      exact start

theorem handEretToHardware_spec (s : VcpuSlot) :
    (handEretToHardware s).ctx.cpsr = s.ctx.cpsr ∧
      (handEretToHardware s).ctx.hcr.getLsbD 42 = false ∧
      (handEretToHardware s).ctx.banked 14 = s.ctx.ext 52 := by
  have word : ∀ off, off ≠ ohvRwControls → off ≠ ohvRwStateDirty →
      (handEretToHardware s).ctx.word off =
        ((s.ctx.setBanked 3 (s.ctx.ext 51)).setBanked 14 (s.ctx.ext 52)).word off := by
    intro off notHcr notDirty
    refine (clearNv_word _ off notHcr notDirty).trans ?_
    exact Ctx.markDirty_word _ _ _ notDirty
  refine ⟨?_, ?_, ?_⟩
  · apply Ctx.cpsr_congr
    rw [word _ (by decide) (by decide), Ctx.setBanked, Ctx.word_put, if_neg (by decide),
      Ctx.setBanked, Ctx.word_put, if_neg (by decide)]
  · show (VcpuSlot.clearNv _).ctx.hcr.getLsbD 42 = false
    rw [VcpuSlot.hcr_clearNv, getLsbD_clearNv]
    simp
  · rw [Ctx.banked, word _ (by decide) (by decide), Ctx.setBanked, Ctx.word_put, if_pos rfl]

theorem enterGuestEl2_cpsr (s : VcpuSlot) (esr returnPc : Word) :
    (enterGuestEl2 s esr returnPc).ctx.cpsr = 0x3c5 := by
  unfold enterGuestEl2
  simp only
  rw [Ctx.cpsr_congr (armNv_word _ ohvRwCpsr (by decide) (by decide))]
  exact Ctx.lo32_putLo32 _ _ _

section Exit

variable {host : Host} (lowers : host.Lowers) {v : VcpuView} (start : v.s.ctx.Lowered)

include lowers start

theorem softEret_lowered (reason : BitVec 32) : (softEret reason host v).2.s.ctx.Lowered := by
  unfold softEret
  split
  · simp only
    split
    · exact completeEret_lowered _
    · rw [reportException_ctx]
      exact lowers 2 _ start
  · rw [reportException_ctx]
    exact start

theorem guardedEret_leaves (reason : BitVec 32) :
    LeavesPstate (guardedEret reason host v).2 (eretMove host v = .handToHardware) := by
  have soft : ∀ w : VcpuView, softMove host w ≠ .handToHardware := by
    intro w
    unfold softMove
    split
    · simp only
      split <;> nofun
    · nofun
  unfold guardedEret eretMove
  split
  · simp only
    split
    · rename_i guarded
      have returns := eretIsGuarded_returns guarded
      obtain ⟨pstate, cleared, spsr⟩ := handEretToHardware_spec (v.sync host 1).s
      have lowered : (handEretToHardware (v.sync host 1).s).ctx.Lowered := by
        rw [Ctx.Lowered, pstate]
        exact lowers 1 _ start
      rw [← spsr] at returns
      exact ⟨lowered, fun _ => ⟨cleared, returns⟩⟩
    · have synced : (v.sync host 1).s.ctx.Lowered := lowers 1 _ start
      exact .only (softEret_lowered lowers synced reason) (soft _)
  · exact .only (softEret_lowered lowers start reason) (soft v)

theorem syncException_leaves (reason : BitVec 32) :
    LeavesPstate (syncException reason host v).2 (syncMove host v = .handToHardware) := by
  unfold syncException syncMove
  split
  · refine .only ?_ nofun
    have same : v.s.ctx.skip.cpsr = v.s.ctx.cpsr :=
      Ctx.cpsr_congr ((v.s.ctx.word_put _ _ _).trans (if_neg (by decide)))
    show ¬ NamesEl2 v.s.ctx.skip.cpsr
    rw [same]
    exact start
  · split
    · refine .only ?_ nofun
      rw [Ctx.Lowered, enterGuestEl2_cpsr]
      decide
    · exact guardedEret_leaves lowers start reason

theorem msrTrap_leaves : LeavesPstate (msrTrap host v).2 (v.s.ctx.exitEc ≠ 0x18 ∧
    syncMove host v = .handToHardware) := by
  unfold msrTrap
  split
  · rename_i ec
    have carried := serviceNv2Access_lowered host v.s.ctx.exitEsr v start
    split
    · rename_i after answer
      rw [answer] at carried
      exact .only carried fun both => both.1 ec
    · rename_i after answer
      rw [answer] at carried
      exact .only (syncException_leaves lowers carried 8).1 fun both => both.1 ec
  · rename_i ec
    have leaves := syncException_leaves lowers start 8
    exact ⟨leaves.1, fun both => leaves.2 both.2⟩

theorem dispatchExit_leaves :
    LeavesPstate (dispatchExit host v).2 (exitMove host v = .handToHardware) := by
  have quietly : ∀ after : VcpuView, after.s.ctx.cpsr = v.s.ctx.cpsr →
      exitMove host v = .stay → LeavesPstate after (exitMove host v = .handToHardware) := by
    intro after same still
    rw [still]
    refine .only ?_ nofun
    rw [Ctx.Lowered, same]
    exact start
  have timer : (physicalInterrupt v).2.s.ctx.cpsr = v.s.ctx.cpsr := by
    unfold physicalInterrupt
    split
    · exact Ctx.cpsr_congr ((v.s.ctx.word_put _ _ _).trans (if_neg (by decide)))
    · rfl
  unfold dispatchExit
  split
  case h_8 reason =>
    have leaves := msrTrap_leaves lowers start
    refine ⟨leaves.1, fun hands => leaves.2 ?_⟩
    simp only [exitMove, reason] at hands
    split at hands
    · split at hands <;> cases hands
    · exact ⟨‹_›, hands⟩
  case h_9 reason =>
    simp only [exitMove, reason]
    exact syncException_leaves lowers start 1
  case h_10 reason =>
    refine quietly _ ?_ (by simp only [exitMove, reason])
    rw [reportException_ctx]
  case h_6 reason => exact quietly _ timer (by simp only [exitMove, reason])
  case h_7 reason => exact quietly _ timer (by simp only [exitMove, reason])
  case h_11 =>
    refine quietly _ rfl ?_
    unfold exitMove
    split
    · exact absurd ‹_› ‹_›
    · exact absurd ‹_› ‹_›
    · rfl
  all_goals
    rename_i reason
    exact quietly _ rfl (by simp only [exitMove, reason])

/-- The exit, under the default switches. -/
theorem exitFromRo_leaves (default : v.g.cfg = {}) : LeavesPstate (exitFromRo host v).2
    (exitMove host { v with s := arriveExit v.g.cfg host v.s } = .handToHardware) := by
  have same : (arriveExit v.g.cfg host v.s).ctx.cpsr = v.s.ctx.cpsr :=
    Ctx.cpsr_congr (arriveExit_word _ host v.s default _ (by decide) (by decide))
  refine dispatchExit_leaves (v := { v with s := arriveExit v.g.cfg host v.s }) lowers ?_
  show ¬ NamesEl2 (arriveExit v.g.cfg host v.s).ctx.cpsr
  rw [same]
  exact start

end Exit

/-! ## The sweep and the VMM's calls -/

theorem trackIstatus_cpsr (physical : Bool) (now : Word) (s : VcpuSlot) :
    (trackIstatus physical now s).ctx.cpsr = s.ctx.cpsr := by
  obtain same | ⟨value, -, written⟩ := trackIstatus_cases physical now s
  · rw [same]
  · rw [written]
    refine Ctx.cpsr_congr ((Ctx.markDirty_word _ _ _ (by decide)).trans ?_)
    cases physical with
    | true => rfl
    | false => exact (Ctx.word_put _ _ _ _).trans (if_neg (by decide))

theorem setLevels_cpsr (cfg : OhvCfg) (s : VcpuSlot) :
    (setLevels cfg s).ctx.cpsr = s.ctx.cpsr := by
  rw [setLevels_eq, setHcrLevel_cpsr, setHcrLevel_cpsr]

theorem ohvExpireTimers_cpsr (now : Word) (v : VcpuView) :
    (ohvExpireTimers now v).s.ctx.cpsr = v.s.ctx.cpsr := by
  rw [ohvExpireTimers_eq]
  show (setLevels _ _).ctx.cpsr = _
  rw [setLevels_cpsr, sweptTimers, expireTimer_ctx, trackIstatus_cpsr, expireTimer_ctx,
    trackIstatus_cpsr]
  rfl

theorem setControl_cpsr (c : Ctx) (off : Nat) (value : Word) :
    ((c.setControl off value).markDirty ohvStateControls).cpsr = c.cpsr := by
  refine Ctx.cpsr_congr ((Ctx.markDirty_word _ _ _ (by decide)).trans ?_)
  refine (Ctx.word_put _ _ _ _).trans (if_neg ?_)
  simp only [ohvRwCpsr, ohvRwControls]
  omega

/-- What an order of the VMM is owed and keeps: it is a VM with EL2, and the
vCPU's PSTATE is lowered. -/
structure VcpuView.Lowered (v : VcpuView) : Prop where
  el2 : v.g.vmEl2 = true
  pstate : v.s.ctx.Lowered

theorem hvVcpuSetReg_lowered (reg : Nat) (value : Word) (v : VcpuView) (start : v.Lowered) :
    (hvVcpuSetReg reg value v).2.Lowered := by
  have frame := hvVcpuSetReg_frame reg value v
  refine ⟨?_, ?_⟩
  · rw [frame.globals]
    exact start.el2
  · by_cases pstate : reg = hvRegCpsr
    · rw [pstate, Ctx.Lowered, hvVcpuSetReg_cpsr, start.el2]
      show ¬ NamesEl2 (Ctx.lo32 (Ctx.putLo32 _ _ _) _)
      rw [Ctx.lo32_putLo32]
      exact translatePstate_lowered _
    · have apart : ohvRwCpsr ≠ regOff reg := by
        intro same
        rw [regOff, if_neg pstate] at same
        by_cases half : reg = hvRegFpcr ∨ reg = hvRegFpsr
        · rw [if_pos half] at same
          exact absurd same (by decide)
        · rw [if_neg half] at same
          by_cases pc : reg = hvRegPc
          · rw [if_pos pc] at same
            exact absurd same (by decide)
          · rw [if_neg pc] at same
            simp only [hvRegFpsr, ohvRwCpsr, ohvRwRegsX0] at same half
            omega
      rw [Ctx.Lowered, Ctx.cpsr_congr (hvVcpuSetReg_word reg value v _ apart)]
      exact start.pstate

theorem contextAccess_lowered {host : Host} (lowers : host.Lowers) (d : SysRegDesc) (base : Nat)
    (above : ohvRwSharedSysregs ≤ base + d.index * 8) (enc : BitVec 16) (value : Word)
    (write : Bool) (v : VcpuView) (start : v.s.ctx.Lowered) :
    (contextAccess host d base enc value write v).view.s.ctx.Lowered := by
  have current : (if needsSync d v.s.ctx then v.sync host 0 else v).s.ctx.Lowered := by
    split
    · exact lowers 0 _ start
    · exact start
  unfold contextAccess
  simp only
  generalize (if needsSync d v.s.ctx then v.sync host 0 else v) = w at current ⊢
  split
  · exact current
  · split
    · have same : (writeDesc w.g.cfg d base enc value w.s.ctx).cpsr = w.s.ctx.cpsr := by
        apply Ctx.cpsr_congr
        rw [writeDesc_word _ _ _ _ _ _ _ (by decide), if_neg]
        simp only [ohvRwSharedSysregs, ohvRwCpsr] at *
        omega
      show ¬ NamesEl2 (writeDesc w.g.cfg d base enc value w.s.ctx).cpsr
      rw [same]
      exact current
    · exact current

theorem sysregAccess_lowered {host : Host} (lowers : host.Lowers) (enc : BitVec 16) (value : Word)
    (write : Bool) (v : VcpuView) (start : v.Lowered) :
    (sysregAccess host enc value write v).view.Lowered := by
  have frame := sysregAccess_frame host enc value write v
  refine ⟨?_, ?_⟩
  · rw [frame.globals]
    exact start.el2
  · unfold sysregAccess
    split
    · exact start.pstate
    · rename_i d found
      split
      · rw [(idRegAccess_frame host enc value write v).2]
        exact start.pstate
      · rw [(shadowAccess_frame d value write v).2]
        exact start.pstate
      · rename_i base region _ _
        exact contextAccess_lowered lowers d base
          (place_page d (sysregLookup_mem enc d found) base region).1 enc value write v start.pstate
      · exact start.pstate

theorem hvVcpuSetSysReg_lowered {host : Host} (lowers : host.Lowers) (enc : BitVec 16)
    (value : Word) (v : VcpuView) (start : v.Lowered) :
    (hvVcpuSetSysReg host enc value v).2.Lowered := by
  rw [hvVcpuSetSysReg_eq_access]
  exact sysregAccess_lowered lowers enc value true v start

def VcpuCall.Lowers : VcpuCall → Prop
  | .getSysReg host _ | .setSysReg host _ _ => host.Lowers
  | _ => True

theorem VcpuCall.serve_lowered (call : VcpuCall) (lowers : call.Lowers) (v : VcpuView)
    (start : v.Lowered) : (call.serve v).Lowered := by
  have only : ∀ slot : VcpuSlot, slot.ctx.cpsr = v.s.ctx.cpsr →
      VcpuView.Lowered { v with s := slot } := by
    intro slot same
    refine ⟨start.el2, ?_⟩
    rw [Ctx.Lowered, same]
    exact start.pstate
  cases call with
  | setReg reg value => exact hvVcpuSetReg_lowered reg value v start
  | getSysReg host enc => exact sysregAccess_lowered lowers enc 0 false v start
  | setSysReg host enc value => exact hvVcpuSetSysReg_lowered lowers enc value v start
  | setPending type pending =>
      apply only
      cases type with
      | fiq => exact setHcrLevel_cpsr _ _ _
      | irq => exact setHcrLevel_cpsr _ _ _
  | setParked parked =>
      apply only
      unfold ohvVcpuSetParked
      split
      · rfl
      · exact setLevels_cpsr _ _
  | setControlField field value =>
      apply only
      unfold hvVcpuSetControlField
      split
      · rfl
      · split
        · rfl
        · exact setControl_cpsr _ _ _
  | setTrapDebugExceptions _ | setTrapDebugRegAccesses _ | setVtimerMask _ | setVtimerOffset _ =>
      exact only _ (setControl_cpsr _ _ _)

/-! ## Snapshots -/

namespace Vcpu

variable {host : Host} (lowers : host.Lowers)

include lowers

theorem snapshot_lowered (interesting : List (BitVec 16)) {v : VcpuView} (start : v.Lowered) :
    (snapshot host interesting v).2.Lowered :=
  snapshot_keeps VcpuView.Lowered
    (fun enc w order => sysregAccess_lowered lowers enc 0 false w order) interesting start

theorem restore_lowered (s : Snapshot) {v : VcpuView} (start : v.Lowered) :
    (restore host s v).2.Lowered :=
  restore_keeps VcpuView.Lowered (fun w v order => hvVcpuSetReg_lowered w.1 w.2 v order)
    (fun w v order => hvVcpuSetSysReg_lowered lowers w.1 w.2 v order) s start

end Vcpu

/-! ## Runs -/

/-- What happens: a step of the system, or the VMM taking a snapshot of a vCPU
or restoring one. -/
inductive Doing where
  | act (act : Act)
  | snapshot (i : VcpuId) (host : Host) (interesting : List (BitVec 16))
  | restore (i : VcpuId) (host : Host) (saved : Vcpu.Snapshot)

def System.does (s : System) : Doing → Option System
  | .act act => s.step act
  | .snapshot i host interesting =>
      if (s.slots i).used ∧ s.phase i = .idle then
        some (s.setView i (Vcpu.snapshot host interesting (s.view i)).2)
      else none
  | .restore i host saved =>
      if (s.slots i).used ∧ s.phase i = .idle then
        some (s.setView i (Vcpu.restore host saved (s.view i)).2)
      else none

namespace System

variable {s t : System} {i : VcpuId} {host : Host}

theorem does_snapshot {interesting : List (BitVec 16)}
    (taken : s.does (.snapshot i host interesting) = some t) :
    t = s.setView i (Vcpu.snapshot host interesting (s.view i)).2 := by
  simp only [does, Option.ite_none_right_eq_some, Option.some.injEq] at taken
  exact taken.2.symm

theorem does_restore {saved : Vcpu.Snapshot} (taken : s.does (.restore i host saved) = some t) :
    t = s.setView i (Vcpu.restore host saved (s.view i)).2 := by
  simp only [does, Option.ite_none_right_eq_some, Option.some.injEq] at taken
  exact taken.2.symm

end System

def KernelLowers (i : VcpuId) (_ : System) (doing : Doing) (_ : System) : Prop :=
  match doing with
  | .act (.destroy j) => j ≠ i
  | .act (.leave j page _ _) => j = i → page.Lowered
  | .act (.handle j host) | .snapshot j host _ | .restore j host _ => j = i → host.Lowers
  | .act (.call j call) => j = i → call.Lowers
  | _ => True

/-- The exit takes NV off for a guarded ERET. -/
def GuardedReturn (host : Host) (v : VcpuView) : Prop :=
  exitMove host { v with s := arriveExit v.g.cfg host v.s } = .handToHardware

def StaysLowered (i : VcpuId) (s : System) (doing : Doing) (t : System) : Prop :=
  (t.slots i).ctx.Lowered ∧ ∀ host, doing = .act (.handle i host) → GuardedReturn host (s.view i) →
    (t.slots i).ctx.hcr.getLsbD 42 = false ∧ ReturnsFromEl1 ((t.slots i).ctx.banked 14)

theorem Vcpu.snapshot_frame (host : Host) (interesting : List (BitVec 16)) (v : VcpuView) :
    RegisterOnly v (Vcpu.snapshot host interesting v).2 :=
  snapshot_keeps (RegisterOnly v)
    (fun enc w only => only.trans (sysregAccess_frame host enc 0 false w)) interesting (.refl v)

theorem Vcpu.restore_frame (host : Host) (saved : Vcpu.Snapshot) (v : VcpuView) :
    RegisterOnly v (Vcpu.restore host saved v).2 := by
  refine restore_keeps (RegisterOnly v)
    (fun w u only => only.trans (hvVcpuSetReg_frame w.1 w.2 u)) (fun w u only => ?_) saved (.refl v)
  rw [hvVcpuSetSysReg_eq_access]
  exact only.trans (sysregAccess_frame host w.1 w.2 true u)

namespace Standing

variable {s t : System} {i : VcpuId} {el2 : Bool}

theorem setView (standing : Standing el2 s i) {j : VcpuId} {v : VcpuView}
    (only : RegisterOnly (s.view j) v) : Standing el2 (s.setView j v) i := by
  have globals : v.g = { s.g with sysregCaps := v.g.sysregCaps } := only.globals
  have live : ((s.setView j v).slots i).used = true := by
    by_cases here : i = j
    · subst here
      rw [System.setView_slots_self, only.slot]
      exact standing.live
    · rw [System.setView_slots_of_ne s here]
      exact standing.live
  refine ⟨live, ?_, ?_⟩
  · show v.g.vmEl2 = el2
    rw [globals]
    exact standing.kind
  · show DefaultSwitches v.g
    rw [globals]
    exact standing.switches

theorem does {doing : Doing} (standing : Standing el2 s i) (taken : s.does doing = some t)
    (kept : doing ≠ .act (.destroy i)) : Standing el2 t i := by
  cases doing with
  | act act => exact standing.step taken fun same => kept (by rw [same])
  | snapshot j host interesting =>
      obtain rfl := System.does_snapshot taken
      exact standing.setView (Vcpu.snapshot_frame host interesting _)
  | restore j host saved =>
      obtain rfl := System.does_restore taken
      exact standing.setView (Vcpu.restore_frame host saved _)

end Standing

theorem act_staysLowered {s t : System} {i : VcpuId} {act : Act} (standing : Standing true s i)
    (start : (s.slots i).ctx.Lowered) (kernel : KernelLowers i s (.act act) t)
    (taken : s.step act = some t) : StaysLowered i s (.act act) t := by
  have kept : act ≠ .destroy i := by
    rintro rfl
    exact kernel rfl
  have turn := System.step_turn i taken standing.live kept
  have same : (t.slots i).ctx.cpsr = (s.slots i).ctx.cpsr → (t.slots i).ctx.Lowered := by
    intro pstate
    rw [Ctx.Lowered, pstate]
    exact start
  have exited : ∀ host, act = .handle i host → host.Lowers → StaysLowered i s (.act act) t := by
    rintro host rfl lowers
    have leaves := exitFromRo_leaves lowers (v := s.view i) start standing.switches.2
    rw [LeavesPstate, ← turn.handled] at leaves
    refine ⟨leaves.1, ?_⟩
    rintro _ ⟨rfl⟩ guarded
    exact leaves.2 guarded
  have quiet : (∀ host, act ≠ .handle i host) → (t.slots i).ctx.Lowered →
      StaysLowered i s (.act act) t := by
    rintro other lowered
    refine ⟨lowered, ?_⟩
    rintro host ⟨rfl⟩
    exact absurd rfl (other host)
  generalize slot : t.slots i = after at turn
  generalize t.phase i = phase at turn
  cases turn with
  | elsewhere _ other =>
      refine quiet ?_ (same (by rw [slot]))
      rintro host rfl
      exact other rfl
  | gic call _ only => exact quiet nofun (same (by rw [slot]; exact only.page.cpsr))
  | call call _ =>
      refine quiet nofun ?_
      rw [slot]
      exact (call.serve_lowered (kernel rfl) (s.view i) ⟨standing.kind, start⟩).pstate
  | expire now _ => exact quiet nofun (same (by rw [slot, ohvExpireTimers_cpsr]; rfl))
  | leave page _ _ _ =>
      refine quiet nofun ?_
      rw [slot]
      exact kernel rfl
  | reported host _ _ | served host _ _ => exact exited host rfl (kernel rfl)
  | canceled _ test _ =>
      refine quiet ?_ (same (by rw [slot]; rfl))
      rintro host rfl
      rcases test with ⟨act, -⟩ | ⟨act, -⟩ <;> cases act
  | _ => exact quiet nofun (same (by rw [slot]))

theorem does_staysLowered {s t : System} {i : VcpuId} {doing : Doing}
    (standing : Standing true s i) (start : (s.slots i).ctx.Lowered)
    (kernel : KernelLowers i s doing t) (taken : s.does doing = some t) :
    StaysLowered i s doing t := by
  have batch : ∀ {j : VcpuId} {v : VcpuView}, (j = i → v.Lowered) →
      ((s.setView j v).slots i).ctx.Lowered := by
    intro j v lowered
    by_cases here : i = j
    · subst here
      rw [System.setView_slots_self]
      exact (lowered rfl).pstate
    · rw [System.setView_slots_of_ne s here]
      exact start
  cases doing with
  | act act => exact act_staysLowered standing start kernel taken
  | snapshot j host interesting =>
      obtain rfl := System.does_snapshot taken
      refine ⟨batch ?_, nofun⟩
      rintro rfl
      exact Vcpu.snapshot_lowered (kernel rfl) interesting ⟨standing.kind, start⟩
  | restore j host saved =>
      obtain rfl := System.does_restore taken
      refine ⟨batch ?_, nofun⟩
      rintro rfl
      exact Vcpu.restore_lowered (kernel rfl) saved ⟨standing.kind, start⟩

/-- In a VM with EL2 the hardware is never asked to run or to return at EL2. -/
theorem pstate_staysLowered {s : System} {i : VcpuId} {word : List Doing}
    (standing : Standing true s i) (start : (s.slots i).ctx.Lowered)
    (kernel : Runs.Along System.does (KernelLowers i) s word) :
    Runs.Along System.does (StaysLowered i) s word := by
  apply Runs.along_of_invariant
    (fun s => Standing true s i ∧ (s.slots i).ctx.Lowered) ?_ ?_ kernel ⟨standing, start⟩
  · rintro s doing t taken kernel ⟨standing, start⟩
    have kept : doing ≠ .act (.destroy i) := by
      rintro rfl
      exact kernel rfl
    exact ⟨standing.does taken kept, (does_staysLowered standing start kernel taken).1⟩
  · rintro s doing t taken kernel ⟨standing, start⟩
    exact does_staysLowered standing start kernel taken

/-- A snapshot that says EL2h. -/
def el2hSnapshot : Vcpu.Snapshot := ⟨List.replicate 32 0, [], 0x3c9, 0, 0⟩

def loweringWord : List Doing :=
  .act (.call vcpu0 (.setReg hvRegCpsr 0x3c9)) :: .restore vcpu0 {} el2hSnapshot ::
    (.run vcpu0 :: oneExit vcpu0 0 geretPage geretHost).map .act

theorem geretHost_lowers : geretHost.Lowers := by
  intro k c lowered
  have same : (c.setExt 52 0x4).cpsr = c.cpsr :=
    Ctx.cpsr_congr ((c.word_put _ _ _).trans (if_neg (by decide)))
  show ¬ NamesEl2 (c.setExt 52 0x4).cpsr
  rw [same]
  exact lowered

theorem loweringWord_kernel :
    Runs.Along System.does (KernelLowers vcpu0) el2Start loweringWord := by
  intro _ _
  refine ⟨fun _ => trivial, fun _ _ => ⟨fun _ _ _ lowered => lowered, ?_⟩⟩
  intro _ _
  refine ⟨trivial, fun _ _ => ⟨trivial, fun _ _ => ⟨trivial, fun _ _ => ?_⟩⟩⟩
  refine ⟨fun _ => by decide, fun _ _ => ⟨trivial, fun _ _ => ?_⟩⟩
  exact ⟨fun _ => geretHost_lowers, trivial⟩

theorem pstate_staysLowered_geret : (Runs.runFrom System.does el2Start loweringWord).isSome ∧
    Runs.Along System.does (StaysLowered vcpu0) el2Start loweringWord :=
  ⟨rfl, pstate_staysLowered ⟨rfl, rfl, rfl, rfl⟩ (by decide) loweringWord_kernel⟩

end OpenHypervisor
