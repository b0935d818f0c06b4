import OpenHypervisor.ControlCalls
import OpenHypervisor.VcpuLife

/-!
# The library's writes of the page

Every operation of the library takes a vCPU's page through single writes and the
syncs it asks for.  `Edited` is that sequence, with the writes a policy allows, and
`Spared` is the policy all operations keep to: the word with the virtual timer's mask
is written by two of them only, and the physical timer's banked control word is
written with nothing but zero.
-/

set_option autoImplicit false

namespace OpenHypervisor

namespace Ctx

/-- A page after allowed writes and syncs of this kernel. -/
inductive Edited (host : Host) (allowed : Nat → Word → Prop) (before : Ctx) : Ctx → Prop
  | same : Edited host allowed before before
  | put {c : Ctx} (off : Nat) (value : Word) (edited : Edited host allowed before c)
      (may : allowed off value) : Edited host allowed before (c.put off value)
  | sync {c : Ctx} (k : Nat) (edited : Edited host allowed before c) :
      Edited host allowed before (host.sync k c)

namespace Edited

variable {host : Host} {allowed : Nat → Word → Prop} {first second third before c : Ctx}

theorem trans (left : Edited host allowed first second) (right : Edited host allowed second third) :
    Edited host allowed first third := by
  induction right with
  | same => exact left
  | put off value _ may ih => exact ih.put off value may
  | sync k _ ih => exact ih.sync k

theorem mono {more : Nat → Word → Prop} (edited : Edited host allowed before c)
    (weaker : ∀ off value, allowed off value → more off value) : Edited host more before c := by
  induction edited with
  | same => exact .same
  | put off value _ may ih => exact ih.put off value (weaker off value may)
  | sync k _ ih => exact ih.sync k

/-- What allowed writes and syncs preserve holds of an edited page. -/
theorem preserves {P : Ctx → Prop} (edited : Edited host allowed before c)
    (put : ∀ c off value, allowed off value → P c → P (c.put off value))
    (sync : ∀ k c, P c → P (host.sync k c)) (holds : P before) : P c := by
  induction edited with
  | same => exact holds
  | put off value _ may ih => exact put _ off value may ih
  | sync k _ ih => exact sync k _ ih

end Edited

end Ctx

/-- The two words kept from the library; `mask` says whether this operation may move
the timer's mask. -/
def Spared (mask : Prop) (off : Nat) (value : Word) : Prop :=
  (off = ohvRwTimer → mask) ∧ (off = ohvRwBankedSysregs + 19 * 8 → value = 0)

open Ctx (Edited)

section Pieces
variable {host : Host} {mask : Prop} {before c : Ctx}

theorem Spared.of_ne {off : Nat} {value : Word} (notTimer : off ≠ ohvRwTimer)
    (notArmed : off ≠ ohvRwBankedSysregs + 19 * 8) : Spared mask off value :=
  ⟨fun same => absurd same notTimer, fun same => absurd same notArmed⟩

/-- The word of the mask, for an operation that may move it. -/
theorem Spared.timer (moves : mask) (value : Word) : Spared mask ohvRwTimer value :=
  ⟨fun _ => moves, fun same => absurd same (by decide)⟩

namespace Ctx.Edited

theorem elsewhere (edited : Edited host (Spared mask) before c) (off : Nat) (value : Word)
    (notTimer : off ≠ ohvRwTimer) (notArmed : off ≠ ohvRwBankedSysregs + 19 * 8) :
    Edited host (Spared mask) before (c.put off value) :=
  edited.put off value (.of_ne notTimer notArmed)

theorem markDirty (edited : Edited host (Spared mask) before c) (bits : Word) :
    Edited host (Spared mask) before (c.markDirty bits) :=
  edited.elsewhere _ _ (by decide) (by decide)

theorem setPc (edited : Edited host (Spared mask) before c) (value : Word) :
    Edited host (Spared mask) before (c.setPc value) :=
  edited.elsewhere _ _ (by decide) (by decide)

theorem setCpsr (edited : Edited host (Spared mask) before c) (value : BitVec 32) :
    Edited host (Spared mask) before (c.setCpsr value) :=
  edited.elsewhere _ _ (by decide) (by decide)

theorem setBanked (edited : Edited host (Spared mask) before c) (n : Nat) (value : Word)
    (small : n < 24) (other : n ≠ 19) : Edited host (Spared mask) before (c.setBanked n value) := by
  refine edited.elsewhere _ value ?_ ?_
  · simp only [ohvRwBankedSysregs, ohvRwTimer]
    omega
  · simp only [ohvRwBankedSysregs]
    omega

theorem setControl (edited : Edited host (Spared mask) before c) (off : Nat) (value : Word)
    (other : off ≠ 0x68) : Edited host (Spared mask) before (c.setControl off value) := by
  refine edited.elsewhere _ value ?_ ?_
  · simp only [ohvRwControls, ohvRwTimer]
    omega
  · simp only [ohvRwControls, ohvRwBankedSysregs]
    omega

theorem skip (edited : Edited host (Spared mask) before c) :
    Edited host (Spared mask) before c.skip :=
  edited.setPc _

theorem writeRt (edited : Edited host (Spared mask) before c) (rt : BitVec 5) (value : Word) :
    Edited host (Spared mask) before (c.writeRt rt value) := by
  unfold Ctx.writeRt
  split
  · exact edited
  · have small := rt.isLt
    refine edited.elsewhere _ value ?_ ?_
    · simp only [ohvRwRegsX0, ohvRwTimer]
      omega
    · simp only [ohvRwRegsX0, ohvRwBankedSysregs]
      omega

theorem armNv {s : VcpuSlot} (edited : Edited host (Spared mask) before s.ctx) :
    Edited host (Spared mask) before s.armNv.ctx :=
  (edited.setControl 0 _ (by decide)).markDirty _

theorem clearNv {s : VcpuSlot} (edited : Edited host (Spared mask) before s.ctx) :
    Edited host (Spared mask) before s.clearNv.ctx :=
  (edited.setControl 0 _ (by decide)).markDirty _

end Ctx.Edited

end Pieces

/-! ## An access -/

section Access
variable {host : Host} {mask : Prop} {before : Ctx}

theorem nv2_spared (r : Nv2Reg) (listed : r ∈ kNv2Regs) :
    r.ctxOff ≠ ohvRwTimer ∧ r.ctxOff ≠ ohvRwBankedSysregs + 19 * 8 := by
  revert r
  decide

theorem access_edits (a : SysAccess) :
    a.Edits fun v => Edited host (Spared mask) before v.s.ctx where
  skip _ holds := holds.skip
  operand _ _ value holds := holds.writeRt a.rt value
  emulated _ _ holds same := same.ctx ▸ holds
  handoff _ _ holds := holds.armNv
  guarded := by
    intro _ n guarded v value holds
    have index : n = 42 ∨ n = 43 ∨ n = 44 := by
      obtain ⟨-, -, -, ⟨-, -, rfl⟩ | ⟨-, ⟨-, rfl⟩ | ⟨-, rfl⟩⟩⟩ := guarded
      · exact Or.inl rfl
      · exact Or.inr (Or.inl rfl)
      · exact Or.inr (Or.inr rfl)
    rcases index with rfl | rfl | rfl <;>
      exact (holds.elsewhere _ value (by decide) (by decide)).markDirty _
  csselr _ _ _ value holds := (holds.elsewhere _ value (by decide) (by decide)).markDirty _
  par _ _ value holds := (holds.elsewhere _ value (by decide) (by decide)).markDirty _
  disarm _ _ _ holds := holds.put _ 0 ⟨fun same => absurd same (by decide), fun _ => rfl⟩
  control := by
    intro _ _ _ v value holds
    cases physical : decide (a.crm = 2) with
    | true => exact holds.markDirty _
    | false => exact (holds.setBanked 18 value (by decide) (by decide)).markDirty _
  compare := by
    intro _ _ _ v value holds
    cases physical : decide (a.crm = 2) with
    | true => exact (holds.setBanked 10 value (by decide) (by decide)).markDirty _
    | false => exact (holds.setBanked 9 value (by decide) (by decide)).markDirty _
  el2 := by
    intro _ _ r found v value holds
    obtain ⟨notTimer, notArmed⟩ := nv2_spared r (nv2Lookup_row found).1
    have written := holds.elsewhere r.ctxOff value notTimer notArmed
    split
    · exact written.markDirty _
    · exact written

theorem serviceNv2Access_edits (esr : Word) (v : VcpuView) :
    Edited host (Spared mask) v.s.ctx (serviceNv2Access host esr v).2.s.ctx :=
  serviceNv2Access_keeps host esr v (access_edits _) .same

end Access

/-! ## An exit -/

section Exit
variable {host : Host} {mask : Prop} {before : Ctx}

theorem arriveExit_edits (cfg : OhvCfg) (s : VcpuSlot) :
    Edited host (Spared mask) s.ctx (arriveExit cfg host s).ctx := by
  have restored : Edited host (Spared mask) s.ctx (restoreNv s).ctx := by
    unfold restoreNv
    split
    · exact Edited.same.armNv
    · exact .same
  have mirrored : ∀ s : VcpuSlot, Edited host (Spared mask) s.ctx (mirrorGl1 cfg host s).ctx := by
    intro s
    have synced : Edited host (Spared mask) s.ctx (host.sync 0 s.ctx) := Edited.same.sync 0
    unfold mirrorGl1
    split
    · simp only
      split
      · exact ((synced.setBanked 3 _ (by decide) (by decide)).setBanked 14 _ (by decide)
          (by decide)).markDirty _
      · exact synced
    · exact .same
  have rearmed : ∀ s : VcpuSlot, Edited host (Spared mask) s.ctx (rearmNv cfg s).ctx := by
    intro s
    unfold rearmNv
    split
    · exact Edited.same.armNv
    · exact .same
  exact (restored.trans (mirrored _)).trans (rearmed _)

theorem completeEret_edits {s : VcpuSlot} (edited : Edited host (Spared mask) before s.ctx) :
    Edited host (Spared mask) before (completeEret s).ctx := by
  have returned : Edited host (Spared mask) before
      ((s.ctx.setPc (s.ctx.banked 3)).setCpsr ((s.ctx.banked 14).extractLsb' 0 32)) :=
    (edited.setPc _).setCpsr _
  unfold completeEret
  simp only
  split
  · exact Edited.clearNv (s := { s with ctx := _, guestAtEl2 := false }) returned
  · split
    · exact returned.setCpsr _
    · exact returned

theorem handEretToHardware_edits {s : VcpuSlot} (edited : Edited host (Spared mask) before s.ctx) :
    Edited host (Spared mask) before (handEretToHardware s).ctx := by
  have written := ((edited.setBanked 3 (s.ctx.ext 51) (by decide) (by decide)).setBanked 14
    (s.ctx.ext 52) (by decide) (by decide)).markDirty ohvStateSysregs
  exact Edited.clearNv (s := { s with ctx := _ }) written

theorem enterGuestEl2_edits {s : VcpuSlot} (edited : Edited host (Spared mask) before s.ctx)
    (esr returnPc : Word) :
    Edited host (Spared mask) before (enterGuestEl2 s esr returnPc).ctx := by
  have banked := ((edited.setBanked 3 returnPc (by decide) (by decide)).setBanked 5 esr (by decide)
    (by decide)).setBanked 14 (s.ctx.cpsr.zeroExtend 64) (by decide) (by decide)
  have entered := ((banked.markDirty ohvStateSysregs).setPc
    (s.ctx.word (ohvVncrBase + 0x250) + ohvVectLower64Sync)).setCpsr 0x3c5
  have armed := Edited.armNv (s := { s with ctx := _ }) entered
  unfold enterGuestEl2
  simp only
  exact armed

theorem softEret_edits (reason : BitVec 32) {v : VcpuView}
    (edited : Edited host (Spared mask) before v.s.ctx) :
    Edited host (Spared mask) before (softEret reason host v).2.s.ctx := by
  have synced : Edited host (Spared mask) before (v.sync host 2).s.ctx := edited.sync 2
  unfold softEret
  split
  · simp only
    split
    · exact completeEret_edits synced
    · rw [reportException_ctx]
      exact synced
  · rw [reportException_ctx]
    exact edited

theorem guardedEret_edits (reason : BitVec 32) {v : VcpuView}
    (edited : Edited host (Spared mask) before v.s.ctx) :
    Edited host (Spared mask) before (guardedEret reason host v).2.s.ctx := by
  have synced : Edited host (Spared mask) before (v.sync host 1).s.ctx := edited.sync 1
  unfold guardedEret
  split
  · simp only
    split
    · exact handEretToHardware_edits synced
    · exact softEret_edits reason synced
  · exact softEret_edits reason edited

theorem syncException_edits (reason : BitVec 32) {v : VcpuView}
    (edited : Edited host (Spared mask) before v.s.ctx) :
    Edited host (Spared mask) before (syncException reason host v).2.s.ctx := by
  unfold syncException
  split
  · exact edited.skip
  · split
    · exact enterGuestEl2_edits edited _ _
    · exact guardedEret_edits reason edited

theorem msrTrap_edits (v : VcpuView) :
    Edited host (Spared mask) v.s.ctx (msrTrap host v).2.s.ctx := by
  unfold msrTrap
  split
  · have serviced : Edited host (Spared mask) v.s.ctx
        (serviceNv2Access host v.s.ctx.exitEsr v).2.s.ctx :=
      serviceNv2Access_edits v.s.ctx.exitEsr v
    revert serviced
    rcases serviceNv2Access host v.s.ctx.exitEsr v with ⟨carried, after⟩
    intro serviced
    cases carried with
    | true => exact serviced
    | false => exact syncException_edits 8 serviced
  · exact syncException_edits 8 .same

theorem dispatchExit_edits (v : VcpuView) :
    Edited host (Spared (MasksTimer v.s.ctx)) v.s.ctx (dispatchExit host v).2.s.ctx := by
  have interrupted : v.s.ctx.exitReason.toNat = 3 ∨ v.s.ctx.exitReason.toNat = 4 →
      Edited host (Spared (MasksTimer v.s.ctx)) v.s.ctx (physicalInterrupt v).2.s.ctx := by
    intro reason
    rw [physicalInterrupt_ctx]
    split
    · rename_i taken
      exact Edited.same.put _ _ (.timer ⟨reason, taken⟩ _)
    · exact .same
  unfold dispatchExit
  split
  case h_6 reason => exact interrupted (Or.inl reason)
  case h_7 reason => exact interrupted (Or.inr reason)
  case h_8 => exact msrTrap_edits v
  case h_9 => exact syncException_edits 1 .same
  case h_10 =>
    rw [reportException_ctx]
    exact .same
  all_goals exact .same

theorem exitFromRo_edits (v : VcpuView) :
    Edited host (Spared (MasksTimer (arriveExit v.g.cfg host v.s).ctx)) v.s.ctx
      (exitFromRo host v).2.s.ctx :=
  (arriveExit_edits v.g.cfg v.s).trans
    (dispatchExit_edits { v with s := arriveExit v.g.cfg host v.s })

end Exit

/-! ## The sweep -/

section Sweep
variable {host : Host} {mask : Prop} {before : Ctx}

theorem setHcrLevel_edits (n : Nat) (want : Bool) {s : VcpuSlot}
    (edited : Edited host (Spared mask) before s.ctx) :
    Edited host (Spared mask) before (setHcrLevel n want s).ctx := by
  unfold setHcrLevel
  split
  · exact edited
  · exact (edited.setControl 0 _ (by decide)).markDirty _

theorem setLevels_edits (cfg : OhvCfg) {s : VcpuSlot}
    (edited : Edited host (Spared mask) before s.ctx) :
    Edited host (Spared mask) before (setLevels cfg s).ctx := by
  rw [setLevels_eq]
  have flag : Edited host (Spared mask) before
      ({ s with timerFiq := wantTimerFiq cfg s } : VcpuSlot).ctx := edited
  exact setHcrLevel_edits 7 _ (setHcrLevel_edits 6 _ flag)

theorem trackIstatus_edits (physical : Bool) (now : Word) {s : VcpuSlot}
    (edited : Edited host (Spared mask) before s.ctx) :
    Edited host (Spared mask) before (trackIstatus physical now s).ctx := by
  obtain same | ⟨value, -, written⟩ := trackIstatus_cases physical now s
  · rw [same]
    exact edited
  · rw [written]
    cases physical with
    | true => exact edited.markDirty _
    | false => exact (edited.setBanked 18 value (by decide) (by decide)).markDirty _

theorem ohvExpireTimers_edits (now : Word) (v : VcpuView) :
    Edited host (Spared mask) v.s.ctx (ohvExpireTimers now v).s.ctx := by
  have virtual : Edited host (Spared mask) v.s.ctx
      (expireTimer false now (ohvNoteImageBand v).s).ctx := by
    rw [expireTimer_ctx]
    exact trackIstatus_edits (s := (ohvNoteImageBand v).s) false now .same
  have swept : Edited host (Spared mask) v.s.ctx (sweptTimers now (ohvNoteImageBand v).s).ctx := by
    rw [sweptTimers, expireTimer_ctx]
    exact trackIstatus_edits true now virtual
  exact setLevels_edits _ swept

end Sweep

/-! ## The VMM's calls -/

/-- The kernel a call asks; the ones that ask none may be given any. -/
def VcpuCall.host : VcpuCall → Host
  | .getSysReg host _ => host
  | .setSysReg host _ _ => host
  | _ => {}

/-- The one call that is about the mask. -/
def VcpuCall.MovesMask : VcpuCall → Prop
  | .setVtimerMask _ => True
  | _ => False

section Calls
variable {host : Host} {mask : Prop} {before : Ctx}

/-- No system register of the tables lies on either word. -/
theorem table_spared (d : SysRegDesc) (listed : d ∈ kAppleTable ++ kEl2Table ++ kTable)
    (base : Nat) (region : d.region = some base) :
    base + d.index * 8 ≠ ohvRwTimer ∧ base + d.index * 8 ≠ ohvRwBankedSysregs + 19 * 8 := by
  have checked : ∀ d ∈ kAppleTable ++ kEl2Table ++ kTable, ∀ base ∈ d.region,
      base + d.index * 8 ≠ ohvRwTimer ∧ base + d.index * 8 ≠ ohvRwBankedSysregs + 19 * 8 := by
    decide +kernel
  exact checked d listed base region

theorem writeDesc_edits (cfg : OhvCfg) (d : SysRegDesc) (base : Nat) (enc : BitVec 16)
    (value : Word) {c : Ctx} (listed : d ∈ kAppleTable ++ kEl2Table ++ kTable)
    (region : d.region = some base) (edited : Edited host (Spared mask) before c) :
    Edited host (Spared mask) before (writeDesc cfg d base enc value c) := by
  obtain ⟨notTimer, notArmed⟩ := table_spared d listed base region
  have stored := edited.elsewhere _ (filterWrite enc value) notTimer notArmed
  have mirrored : Edited host (Spared mask) before (mirrorVmkey cfg enc (filterWrite enc value)
      (c.put (base + d.index * 8) (filterWrite enc value))) := by
    unfold mirrorVmkey
    split
    · exact (stored.setControl 0x78 _ (by decide)).markDirty _
    · split
      · exact (stored.setControl 0x70 _ (by decide)).markDirty _
      · exact stored
  unfold writeDesc
  simp only
  split
  · exact mirrored
  · exact mirrored.markDirty _

theorem sysregAccess_edits (enc : BitVec 16) (value : Word) (write : Bool) (v : VcpuView) :
    Edited host (Spared mask) v.s.ctx (sysregAccess host enc value write v).view.s.ctx := by
  unfold sysregAccess
  split
  · exact .same
  · rename_i d found
    split
    · rw [(idRegAccess_frame host enc value write v).2]
      exact .same
    · rw [(shadowAccess_frame d value write v).2]
      exact .same
    · rename_i base region _ _
      have current : Edited host (Spared mask) v.s.ctx
          (if needsSync d v.s.ctx then v.sync host 0 else v).s.ctx := by
        split
        · exact Edited.same.sync 0
        · exact .same
      unfold contextAccess
      simp only
      split
      · exact current
      · split
        · exact writeDesc_edits _ d base enc value (sysregLookup_mem enc d found) region current
        · exact current
    · exact .same

theorem hvVcpuSetReg_edits (reg : Nat) (value : Word) (v : VcpuView) :
    Edited host (Spared mask) v.s.ctx (hvVcpuSetReg reg value v).2.s.ctx := by
  unfold hvVcpuSetReg
  simp only
  split
  · exact Edited.same.setCpsr _
  · split
    · exact Edited.same.elsewhere _ _ (by decide) (by decide)
    · split
      · exact Edited.same.elsewhere _ _ (by decide) (by decide)
      · split
        · exact Edited.same.setPc _
        · split
          · rename_i small
            simp only [hvRegPc] at small
            refine Edited.same.elsewhere _ _ ?_ ?_
            · simp only [ohvRwRegsX0, ohvRwTimer]
              omega
            · simp only [ohvRwRegsX0, ohvRwBankedSysregs]
              omega
          · exact .same

theorem controlField_spared (field off : Nat) (named : controlFieldOffset field = some off) :
    off ≠ 0x68 := by
  rintro rfl
  have listed : some 0x68 ∈ kControlFieldOffset :=
    List.mem_of_getElem? (Option.join_eq_some_iff.mp named)
  exact absurd listed (by decide)

theorem VcpuCall.serve_edits (call : VcpuCall) (v : VcpuView) :
    Edited call.host (Spared call.MovesMask) v.s.ctx (call.serve v).s.ctx := by
  cases call with
  | setPending type pending =>
      cases type with
      | fiq =>
          exact setHcrLevel_edits 6 _ (s := { v.s with vmmFiq := pending, timerFiq := _ }) .same
      | irq => exact setHcrLevel_edits 7 _ (s := { v.s with vmmIrq := pending }) .same
  | setParked parked =>
      simp only [VcpuCall.serve, ohvVcpuSetParked]
      split
      · exact .same
      · exact setLevels_edits v.g.cfg (s := { v.s with inWfx := parked }) .same
  | setReg reg value => exact hvVcpuSetReg_edits reg value v
  | getSysReg host enc => exact sysregAccess_edits enc 0 false v
  | setSysReg host enc value =>
      simp only [VcpuCall.serve, hvVcpuSetSysReg_eq_access]
      exact sysregAccess_edits enc value true v
  | setControlField field value =>
      simp only [VcpuCall.serve, hvVcpuSetControlField]
      split
      · exact .same
      · rename_i off named
        split
        · exact .same
        · exact (Edited.same.setControl off _ (controlField_spared field off named)).markDirty _
  | setTrapDebugExceptions _ | setTrapDebugRegAccesses _ =>
      exact (Edited.same.setControl 0x18 _ (by decide)).markDirty _
  | setVtimerOffset off => exact (Edited.same.setControl 0x30 off (by decide)).markDirty _
  | setVtimerMask masked =>
      exact (Edited.same.put _ _ (.timer trivial _)).markDirty _

end Calls

/-! ## The interrupt controller -/

theorem setIchLr_edits {host : Host} {mask : Prop} (c : Ctx) (j : Nat) (value : Word)
    (small : j < ichLrCount) : Edited host (Spared mask) c (markGic (c.setIchLr j value)) := by
  simp only [ichLrCount] at small
  refine (Edited.same.setControl (ichLrOff j) value ?_).markDirty _
  simp only [ichLrOff]
  omega

theorem writeIch_edits {host : Host} {mask : Prop} (enc : BitVec 16) (value : Word) (c : Ctx) :
    Edited host (Spared mask) c (writeIch enc value c).2 := by
  unfold writeIch
  split
  · exact .same
  · split
    · exact (Edited.same.elsewhere _ _ (by decide) (by decide)).markDirty _
    · split
      · exact (Edited.same.elsewhere _ _ (by decide) (by decide)).markDirty _
      · split
        · exact (Edited.same.setControl ichHcrOff _ (by decide)).markDirty _
        · split
          · exact (Edited.same.setBanked 21 _ (by decide) (by decide)).markDirty _
          · split
            · rename_i listed
              exact setIchLr_edits c _ _ listed.2
            · exact .same

theorem GicCall.serve_edits {host : Host} {mask : Prop} (call : GicCall) (g : Globals)
    (slots : VcpuTable) (i : Fin kMaxVcpuIds) :
    Edited host (Spared mask) (slots i).ctx ((call.serve g slots).slots i).ctx := by
  apply call.serve_pages (R := Edited host (Spared mask)) (fun _ => .same)
    fun _ _ _ left right => left.trans right
  · exact fun c => Edited.same.markDirty _
  · exact fun c j value small => setIchLr_edits c j value small
  · exact fun _ enc value _ => writeIch_edits enc value

/-! ## A step of the system -/

/-- The kernel a step asks. -/
def Act.host : Act → Host
  | .call _ asked => asked.host
  | .handle _ host => host
  | _ => {}

/-- The steps that may move a vCPU's timer mask. -/
def System.MovesMask (s : System) (i : VcpuId) : Act → Prop
  | .call j asked => j = i ∧ asked.MovesMask
  | .handle j host => j = i ∧ MasksTimer (arriveExit s.g.cfg host (s.slots i)).ctx
  | _ => False

/-- All the library does to a live vCPU's page in one step; what comes back from the
guest is the kernel's. -/
theorem System.step_edits {s t : System} {act : Act} {i : VcpuId} (taken : s.step act = some t)
    (live : (s.slots i).used = true) (kept : act ≠ .destroy i)
    (inside : ∀ page rc ticks, act ≠ .leave i page rc ticks) :
    Edited act.host (Spared (s.MovesMask i act)) (s.slots i).ctx (t.slots i).ctx := by
  by_cases controller : ∃ asked, act = .gic asked
  · obtain ⟨asked, rfl⟩ := controller
    cases taken
    exact asked.serve_edits s.g s.slots i
  · have turn := System.step_turn i taken live kept
    generalize t.slots i = slot, t.phase i = phase at turn ⊢
    cases turn with
    | gic asked _ _ => exact absurd ⟨asked, rfl⟩ controller
    | call asked _ =>
        exact (asked.serve_edits (s.view i)).mono fun off value may =>
          ⟨fun same => ⟨rfl, may.1 same⟩, may.2⟩
    | expire now _ => exact ohvExpireTimers_edits now (s.view i)
    | reported host _ _ | served host _ _ =>
        exact (exitFromRo_edits (s.view i)).mono fun off value may =>
          ⟨fun same => ⟨rfl, may.1 same⟩, may.2⟩
    | leave page rc ticks _ => exact absurd rfl (inside page rc ticks)
    | _ => exact .same

/-- What allowed writes and this kernel's syncs preserve of a page, and the page that
comes back from the guest has, a live vCPU's page keeps in every step. -/
theorem System.step_page {s t : System} {act : Act} {i : VcpuId} {P : Ctx → Prop}
    (taken : s.step act = some t) (live : (s.slots i).used = true) (kept : act ≠ .destroy i)
    (put : ∀ c off value, Spared (s.MovesMask i act) off value → P c → P (c.put off value))
    (sync : (∀ j, act.owner = some j → j = i) → ∀ k c, P c → P (act.host.sync k c))
    (back : ∀ page rc ticks, act = .leave i page rc ticks → P page)
    (holds : P (s.slots i).ctx) : P (t.slots i).ctx := by
  by_cases own : ∀ j, act.owner = some j → j = i
  · by_cases inside : ∀ page rc ticks, act ≠ .leave i page rc ticks
    · exact (System.step_edits taken live kept inside).preserves put (sync own) holds
    · simp only [not_forall, ne_eq, not_not] at inside
      obtain ⟨page, rc, ticks, rfl⟩ := inside
      rw [(System.step_turn i taken live kept).left]
      exact back page rc ticks rfl
  · simp only [not_forall] at own
    obtain ⟨j, owner, elsewhere⟩ := own
    rw [(System.step_of_ne taken owner (Ne.symm elsewhere)).1]
    exact holds

end OpenHypervisor
