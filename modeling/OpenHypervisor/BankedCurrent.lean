import OpenHypervisor.BankedBlock

/-!
# Banked registers across an entry

The kernel of the headers next to the library: the hardware's registers, the
page, and whether the page was last seen current.  The first half says what the
sweep and the VMM's calls do to the block, the second runs everything against
the hardware.
-/

set_option autoImplicit false

namespace OpenHypervisor

open Ctx (Spares Current Carries)

/-! ## The sweep -/

/-- ISTATUS of this timer is not what the clock says. -/
def IstatusMoves (physical : Bool) (now : Word) (s : VcpuSlot) : Prop :=
  (s.timerCtl physical).getLsbD 0 = true ∧
    (s.timerCtl physical).getLsbD 2 ≠ timerDue now (s.timerCval physical)

instance (physical : Bool) (now : Word) (s : VcpuSlot) : Decidable (IstatusMoves physical now s) :=
  inferInstanceAs (Decidable (_ ∧ _))

def istatusNames (physical : Bool) (now : Word) (s : VcpuSlot) : List Nat :=
  if physical = false ∧ IstatusMoves physical now s then [18] else []

/-- The control word of the physical timer is in the shadow; moving it hands the
block over all the same. -/
theorem trackIstatus_spares (physical : Bool) (now : Word) (s : VcpuSlot) :
    Spares (istatusNames physical now s) (IstatusMoves physical now s) s.ctx
      (trackIstatus physical now s).ctx := by
  have written : IstatusMoves physical now s → ∀ value,
      Spares (istatusNames physical now s) (IstatusMoves physical now s) s.ctx
        ((s.setTimerCtl physical value).markDirty ohvStateSysregs).ctx := by
    intro moves value
    refine Spares.markSysregs ?_ moves
    cases physical with
    | true => exact .refl _
    | false =>
        refine (Spares.refl _).setBanked 18 value (by decide) ?_
        rw [istatusNames, if_pos ⟨rfl, moves⟩]
        exact List.mem_singleton_self 18
  unfold trackIstatus
  simp only
  split
  · rename_i enabled
    split
    · rename_i due
      split
      · exact .refl _
      · rename_i clear
        refine written ⟨enabled, ?_⟩ _
        rw [due]
        exact clear
    · rename_i early
      split
      · rename_i set
        refine written ⟨enabled, ?_⟩ _
        rw [set]
        exact fun same => early same.symm
      · exact .refl _
  · exact .refl _

theorem trackIstatus_timerCtl_other (now : Word) (s : VcpuSlot) :
    (trackIstatus false now s).timerCtl true = s.timerCtl true := by
  obtain same | ⟨value, -, written⟩ := trackIstatus_cases false now s
  · rw [same]
  · rw [written, setTimerCtl_timerCtl, if_neg (by decide)]

theorem setHcrLevel_spares (n : Nat) (want : Bool) (s : VcpuSlot) :
    Spares [] False s.ctx (setHcrLevel n want s).ctx := by
  unfold setHcrLevel
  split
  · exact .refl _
  · exact ((Spares.refl s.ctx).setControl 0 _ (by decide)).markOther _ (by decide)

theorem setLevels_spares (cfg : OhvCfg) (s : VcpuSlot) :
    Spares [] False s.ctx (setLevels cfg s).ctx :=
  (setHcrLevel_spares 6 (wantFiq cfg s) { s with timerFiq := wantTimerFiq cfg s }).trans
    (setHcrLevel_spares 7 _ _)

def SweepMarks (now : Word) (s : VcpuSlot) : Prop :=
  IstatusMoves false now s ∨ IstatusMoves true now s

instance (now : Word) (s : VcpuSlot) : Decidable (SweepMarks now s) :=
  inferInstanceAs (Decidable (_ ∨ _))

def sweepNames (now : Word) (s : VcpuSlot) : List Nat := istatusNames false now s

theorem ohvExpireTimers_spares (now : Word) (v : VcpuView) :
    Spares (sweepNames now v.s) (SweepMarks now v.s) v.s.ctx (ohvExpireTimers now v).s.ctx := by
  have virtual := trackIstatus_spares false now (ohvNoteImageBand v).s
  have physical := trackIstatus_spares true now (expireTimer false now (ohvNoteImageBand v).s)
  rw [expireTimer_ctx] at physical
  have moves : IstatusMoves true now (expireTimer false now (ohvNoteImageBand v).s) →
      IstatusMoves true now v.s := by
    intro late
    rw [IstatusMoves, expireTimer_timerCtl, trackIstatus_timerCtl_other,
      expireTimer_timerCval] at late
    exact late
  have swept : Spares (sweepNames now v.s) (SweepMarks now v.s) v.s.ctx
      (sweptTimers now (ohvNoteImageBand v).s).ctx := by
    rw [sweptTimers, expireTimer_ctx]
    refine (virtual.mono (fun _ inside => inside) Or.inl).trans (physical.mono ?_ ?_)
    · simp [istatusNames]
    · exact fun late => Or.inr (moves late)
  have levels : Spares (sweepNames now v.s) (SweepMarks now v.s)
      (sweptTimers now (ohvNoteImageBand v).s).ctx (ohvExpireTimers now v).s.ctx :=
    (setLevels_spares (ohvNoteImageBand v).g.cfg _).mono
      (fun _ inside => absurd inside List.not_mem_nil) False.elim
  exact swept.trans levels

/-! ## The VMM's calls -/

/-- A banked register of the tables is always synced for; nothing else of them
lies in the block or hands it over. -/
theorem table_syncs_banked (d : SysRegDesc) (listed : d ∈ kAppleTable ++ kEl2Table ++ kTable)
    (base : Nat) (region : d.region = some base) :
    (d.kind = .banked ∧ base = ohvRwBankedSysregs ∧ d.index < bankedCount ∧ d.syncBefore = true) ∨
    (d.dirtyBit.getLsbD 0 = false ∧
      (base + d.index * 8 < ohvRwBankedSysregs ∨ ohvRwDbgregs ≤ base + d.index * 8)) := by
  have checked : ∀ d ∈ kAppleTable ++ kEl2Table ++ kTable, ∀ base ∈ d.region,
      (d.kind = .banked ∧ base = ohvRwBankedSysregs ∧ d.index < bankedCount ∧
        d.syncBefore = true) ∨
      (d.dirtyBit.getLsbD 0 = false ∧
        (base + d.index * 8 < ohvRwBankedSysregs ∨ ohvRwDbgregs ≤ base + d.index * 8)) := by
    decide +kernel
  exact checked d listed base region

def descNames (d : SysRegDesc) : List Nat := if d.kind = .banked then [d.index] else []

def regNames (enc : BitVec 16) : List Nat :=
  match sysregLookup enc with
  | some d => descNames d
  | none => []

def regSyncs (enc : BitVec 16) (c : Ctx) : Bool :=
  match sysregLookup enc with
  | some d => d.region.isSome && needsSync d c
  | none => false

theorem mirrorVmkey_spares (cfg : OhvCfg) (enc : BitVec 16) (value : Word) (c : Ctx) :
    Spares [] False c (mirrorVmkey cfg enc value c) := by
  unfold mirrorVmkey
  split
  · exact ((Spares.refl c).setControl 0x78 _ (by decide)).markOther _ (by decide)
  · split
    · exact ((Spares.refl c).setControl 0x70 _ (by decide)).markOther _ (by decide)
    · exact .refl c

theorem writeDesc_spares (cfg : OhvCfg) (d : SysRegDesc) (base : Nat) (enc : BitVec 16)
    (value : Word) (c : Ctx) (listed : d ∈ kAppleTable ++ kEl2Table ++ kTable)
    (region : d.region = some base) :
    Spares (descNames d) (d.syncBefore = true) c
      (writeDesc cfg d base enc value c) := by
  have mirrored : ∀ c, Spares (descNames d) (d.syncBefore = true) c
      (mirrorVmkey cfg enc (filterWrite enc value) c) := fun c =>
    (mirrorVmkey_spares cfg enc _ c).mono (fun _ inside => absurd inside List.not_mem_nil)
      False.elim
  unfold writeDesc
  simp only
  rcases table_syncs_banked d listed base region with
    ⟨banked, block, small, syncs⟩ | ⟨other, outside⟩
  · have written : Spares (descNames d) (d.syncBefore = true) c
        (c.put (base + d.index * 8) (filterWrite enc value)) := by
      rw [block, descNames, if_pos banked]
      exact (Spares.refl c).setBanked d.index _ small (List.mem_singleton_self _)
    split
    · exact written.trans (mirrored _)
    · exact (written.trans (mirrored _)).markDirty _ fun _ => syncs
  · have written : Spares (descNames d) (d.syncBefore = true) c
        (c.put (base + d.index * 8) (filterWrite enc value)) :=
      (Spares.refl c).put _ _ outside (table_marks_controls d listed base region).2
    split
    · exact written.trans (mirrored _)
    · exact (written.trans (mirrored _)).markOther _ other

section Calls

variable {hw : Nat → Word} {named : List Nat}

section Asked

variable (host : Host) (kernel : host.Syncs hw named)

include kernel

theorem contextAccess_carries (d : SysRegDesc) (base : Nat) (enc : BitVec 16) (value : Word)
    (write : Bool) (v : VcpuView) (listed : d ∈ kAppleTable ++ kEl2Table ++ kTable)
    (region : d.region = some base)
    (subset : write = true → ∀ n ∈ (descNames d), n ∈ named) :
    Carries hw named v.s.ctx (contextAccess host d base enc value write v).view.s.ctx ∧
      (needsSync d v.s.ctx = true →
        Current hw named (contextAccess host d base enc value write v).view.s.ctx) := by
  have asked : Carries hw named v.s.ctx
        (if needsSync d v.s.ctx then v.sync host 0 else v).s.ctx ∧
      (needsSync d v.s.ctx = true →
        Current hw named (if needsSync d v.s.ctx then v.sync host 0 else v).s.ctx) := by
    split
    · have known : Current hw named (v.sync host 0).s.ctx := kernel 0 v.s.ctx
      exact ⟨.of_current known, fun _ => known⟩
    · rename_i quiet
      exact ⟨.refl _, fun syncs => absurd syncs quiet⟩
  unfold contextAccess
  simp only
  split
  · exact asked
  · split
    · rename_i writes
      have always : d.syncBefore = true → needsSync d v.s.ctx = true := by
        intro before
        rw [needsSync, before, Bool.true_or]
      revert asked
      generalize (if needsSync d v.s.ctx then v.sync host 0 else v) = front
      intro asked
      have written : Carries hw named front.s.ctx
          (writeDesc front.g.cfg d base enc value front.s.ctx) :=
        .of_spares (writeDesc_spares _ d base enc value _ listed region) (subset writes)
          fun before => asked.2 (always before)
      exact ⟨asked.1.trans written, fun syncs => written.current (asked.2 syncs)⟩
    · exact asked

theorem sysregAccess_carries (enc : BitVec 16) (value : Word) (write : Bool) (v : VcpuView)
    (subset : write = true → ∀ n ∈ regNames enc, n ∈ named) :
    Carries hw named v.s.ctx (sysregAccess host enc value write v).view.s.ctx ∧
      (regSyncs enc v.s.ctx = true →
        Current hw named (sysregAccess host enc value write v).view.s.ctx) := by
  unfold sysregAccess
  split
  · rename_i unknown
    refine ⟨.refl _, fun syncs => ?_⟩
    rw [regSyncs, unknown] at syncs
    cases syncs
  · rename_i d found
    have apart : d.region = none → ∀ after : VcpuView, after.s.ctx = v.s.ctx →
        Carries hw named v.s.ctx after.s.ctx ∧
          (regSyncs enc v.s.ctx = true → Current hw named after.s.ctx) := by
      intro none after same
      rw [same]
      refine ⟨.refl _, fun syncs => ?_⟩
      rw [regSyncs, found] at syncs
      simp [none] at syncs
    split
    · rename_i kind
      exact apart (by rw [SysRegDesc.region, kind]) _ (idRegAccess_frame host enc value write v).2
    · rename_i kind
      exact apart (by rw [SysRegDesc.region, kind]) _ (shadowAccess_frame d value write v).2
    · rename_i base region _ _
      have names : regNames enc = descNames d := by
        rw [regNames, found]
      rw [names] at subset
      obtain ⟨carries, settles⟩ := contextAccess_carries host kernel d base enc value write v
        (sysregLookup_mem enc d found) region subset
      refine ⟨carries, fun syncs => settles ?_⟩
      rw [regSyncs, found, Bool.and_eq_true] at syncs
      exact syncs.2
    · rename_i none _ _
      exact apart none _ rfl

end Asked

theorem hvVcpuSetReg_spares (reg : Nat) (value : Word) (v : VcpuView) :
    Spares [] False v.s.ctx (hvVcpuSetReg reg value v).2.s.ctx := by
  unfold hvVcpuSetReg
  simp only
  split
  · exact (Spares.refl _).setCpsr _
  · split
    · exact (Spares.refl _).put _ _ (Or.inl (by decide)) (by decide)
    · split
      · exact (Spares.refl _).put _ _ (Or.inl (by decide)) (by decide)
      · split
        · exact (Spares.refl _).setPc _
        · split
          · rename_i small
            refine (Spares.refl _).setX reg value ?_
            simp only [hvRegPc] at small
            omega
          · exact .refl _

theorem controlFieldOffset_lt (field off : Nat) (found : controlFieldOffset field = some off) :
    off < 0xd8 := by
  by_cases small : field < kControlFieldOffset.length
  · have checked : ∀ i < kControlFieldOffset.length, ∀ off ∈ controlFieldOffset i, off < 0xd8 := by
      decide
    exact checked field small off found
  · simp only [controlFieldOffset, List.getElem?_eq_none (Nat.le_of_not_lt small)] at found
    cases found

def VcpuCall.names : VcpuCall → List Nat
  | .setSysReg _ enc _ => regNames enc
  | _ => []

def VcpuCall.syncs (c : Ctx) : VcpuCall → Bool
  | .getSysReg _ enc => regSyncs enc c
  | .setSysReg _ enc _ => regSyncs enc c
  | _ => false

def VcpuCall.Kernel (hw : Nat → Word) (named : List Nat) : VcpuCall → Prop
  | .getSysReg host _ => host.Syncs hw named
  | .setSysReg host _ _ => host.Syncs hw named
  | _ => True

theorem VcpuCall.serve_carries (call : VcpuCall) (v : VcpuView) (kernel : call.Kernel hw named)
    (subset : ∀ n ∈ call.names, n ∈ named) :
    Carries hw named v.s.ctx (call.serve v).s.ctx ∧
      (call.syncs v.s.ctx = true → Current hw named (call.serve v).s.ctx) := by
  have control : ∀ off value, off < 0xd8 →
      Spares [] False v.s.ctx ((v.s.ctx.setControl off value).markDirty ohvStateControls) :=
    fun off value inside => ((Spares.refl _).setControl off value inside).markOther _ (by decide)
  have silent : ∀ after : Ctx, false = true → Current hw named after :=
    fun _ never => absurd never Bool.false_ne_true
  cases call with
  | setPending type pending =>
      cases type with
      | fiq =>
          exact ⟨.of_apart (setHcrLevel_spares 6 _ { v.s with vmmFiq := pending, timerFiq := _ }), silent _⟩
      | irq => exact ⟨.of_apart (setHcrLevel_spares 7 _ { v.s with vmmIrq := pending }), silent _⟩
  | setParked parked =>
      refine ⟨?_, silent _⟩
      simp only [VcpuCall.serve, ohvVcpuSetParked]
      split
      · exact .refl _
      · exact .of_apart (setLevels_spares v.g.cfg { v.s with inWfx := parked })
  | setReg reg value => exact ⟨.of_apart (hvVcpuSetReg_spares reg value v), silent _⟩
  | getSysReg host enc =>
      exact sysregAccess_carries host kernel enc 0 false v
        fun never => absurd never Bool.false_ne_true
  | setSysReg host enc value =>
      simp only [VcpuCall.serve, hvVcpuSetSysReg_eq_access]
      exact sysregAccess_carries host kernel enc value true v fun _ => subset
  | setControlField field value =>
      refine ⟨?_, silent _⟩
      simp only [VcpuCall.serve, hvVcpuSetControlField]
      split
      · exact .refl _
      · rename_i off found
        split
        · exact .refl _
        · exact .of_apart (control off value (controlFieldOffset_lt field off found))
  | setTrapDebugExceptions on => exact ⟨.of_apart (control 0x18 _ (by decide)), silent _⟩
  | setTrapDebugRegAccesses on => exact ⟨.of_apart (control 0x18 _ (by decide)), silent _⟩
  | setVtimerMask masked => exact ⟨.of_apart (control 0x68 _ (by decide)), silent _⟩
  | setVtimerOffset off => exact ⟨.of_apart (control 0x30 _ (by decide)), silent _⟩

end Calls

/-! ## The controller -/

/-- ICH_VMCR_EL2 is the one controller register kept in the block. -/
def ichNames (enc : BitVec 16) : List Nat := if enc = 0xe65f then [21] else []

def GicCall.names : GicCall → List Nat
  | .setIchReg _ enc _ => ichNames enc
  | _ => []

theorem markGic_spares {names : List Nat} {before c : Ctx} (spares : Spares names False before c) :
    Spares names False before (markGic c) :=
  spares.markOther _ (by decide)

theorem setIchLr_spares {names : List Nat} (c : Ctx) (i : Nat) (value : Word)
    (small : i < ichLrCount) : Spares names False c (markGic (c.setIchLr i value)) := by
  refine markGic_spares ((Spares.refl c).setControl _ value ?_)
  simp only [ichLrCount] at small
  simp only [ichLrOff]
  omega

theorem writeIch_spares (enc : BitVec 16) (value : Word) (c : Ctx) :
    Spares (ichNames enc) False c (writeIch enc value c).2 := by
  unfold writeIch
  split
  · exact .refl _
  · split
    · exact markGic_spares ((Spares.refl c).put _ value (Or.inr (by decide)) (by decide))
    · split
      · exact markGic_spares ((Spares.refl c).put _ value (Or.inr (by decide)) (by decide))
      · split
        · exact markGic_spares ((Spares.refl c).setControl _ value (by decide))
        · split
          · rename_i vmcr
            refine markGic_spares ((Spares.refl c).setBanked 21 value (by decide) ?_)
            rw [ichNames, if_pos vmcr]
            exact List.mem_singleton_self 21
          · split
            · rename_i lr
              exact setIchLr_spares c _ _ lr.2
            · exact .refl _

theorem GicCall.serve_spares (call : GicCall) (g : Globals) (slots : VcpuTable)
    (i : Fin kMaxVcpuIds) :
    Spares call.names False (slots i).ctx ((call.serve g slots).slots i).ctx := by
  apply call.serve_pages Spares.refl fun _ _ _ => Spares.trans
  · exact fun c => (Spares.refl c).markOther _ (by decide)
  · exact setIchLr_spares
  · intro id enc value asked c
    rw [asked]
    exact writeIch_spares enc value c

end OpenHypervisor
