import OpenHypervisor.PageEdits
import OpenHypervisor.Snapshot

/-!
# What the library writes of the page

The page holds the guest's registers, the system registers and the run controls, and the
kernel's report behind them.  Most of it the library writes freely.  A register of the guest
it writes where the VMM asks for it and where it lets the guest go on after an exit it served
itself; a run control that configures the guest it writes where the VMM asks for it, but for
three bits of `HCR_EL2`; the report it does not write at all.
-/

set_option autoImplicit false

namespace OpenHypervisor

/-- A register of the guest, or a word of the kernel's report. -/
def Surfaced (off : Nat) : Prop := off < ohvRwSharedSysregs ∨ ohvRoVer ≤ off

instance (off : Nat) : Decidable (Surfaced off) := inferInstanceAs (Decidable (_ ∨ _))

/-- The run controls that configure the guest: all but the virtual timer's mask and the
list registers. -/
def Configures (off : Nat) : Prop :=
  ohvRwControls ≤ off ∧ off < ohvRwTimer ∨
    ohvRwTimer + 8 ≤ off ∧ off < ohvRwControls + ichLrOff 0 ∨ off = ohvRwControls + 0xd0

instance (off : Nat) : Decidable (Configures off) := inferInstanceAs (Decidable (_ ∨ _))

def Tracked (off : Nat) : Prop := Surfaced off ∨ Configures off ∨ off = ohvRwGuestTicks

instance (off : Nat) : Decidable (Tracked off) := inferInstanceAs (Decidable (_ ∨ _))

/-- The bits of `HCR_EL2` the library runs the guest with: the two virtual interrupt levels
and nested virtualisation. -/
def Steers (off bit : Nat) : Prop := off = ohvRwControls ∧ (bit = 6 ∨ bit = 7 ∨ bit = 42)

instance (off bit : Nat) : Decidable (Steers off bit) := inferInstanceAs (Decidable (_ ∧ _))

theorem Surfaced.still {off : Nat} (surfaced : Surfaced off) (bit : Nat) : ¬ Steers off bit := by
  rintro ⟨rfl, -⟩
  exact absurd surfaced (by decide)

/-- Behind the words for the kernel nothing is tracked up to the report. -/
theorem above_free {off : Nat} (above : ohvRwExtregs ≤ off) (below : off < ohvRoVer) :
    ¬ Tracked off := by
  simp only [Tracked, Surfaced, Configures, ohvRwSharedSysregs, ohvRoVer, ohvRwControls,
    ohvRwTimer, ohvRwGuestTicks, ohvRwExtregs, ichLrOff] at above below ⊢
  omega

theorem ext_free {n : Nat} (small : n < 83) : ¬ Tracked (ohvRwExtregs + n * 8) := by
  refine above_free (Nat.le_add_right _ _) ?_
  simp only [ohvRwExtregs, ohvRoVer]
  omega

theorem banked_free {n : Nat} (small : n < 24) : ¬ Tracked (ohvRwBankedSysregs + n * 8) := by
  simp only [Tracked, Surfaced, Configures, ohvRwSharedSysregs, ohvRwBankedSysregs, ohvRoVer,
    ohvRwControls, ohvRwTimer, ohvRwGuestTicks, ichLrOff]
  omega

theorem ichLr_free {j : Nat} (small : j < ichLrCount) :
    ¬ Tracked (ohvRwControls + ichLrOff j) := by
  simp only [Tracked, Surfaced, Configures, ohvRwSharedSysregs, ohvRoVer, ohvRwControls,
    ohvRwTimer, ohvRwGuestTicks, ichLrOff, ichLrCount] at small ⊢
  omega

theorem Configures.control {off : Nat} (configures : Configures off) :
    InControls off ∧ ¬ Surfaced off := by
  simp only [Configures, InControls, Surfaced, ohvRwControls, ohvRwTimer, ohvRwFrozen,
    ohvRwSharedSysregs, ohvRoVer, ichLrOff] at configures ⊢
  omega

namespace Ctx

/-- The operand register of the read a trapped access reports. -/
def ReadsInto (c : Ctx) (off : Nat) : Prop :=
  c.exitReason.toNat = 8 ∧ c.exitEc = 0x18 ∧ (SysAccess.ofEsr c.exitEsr).read = true ∧
    (SysAccess.ofEsr c.exitEsr).rt ≠ 31 ∧
    off = ohvRwRegsX0 + (SysAccess.ofEsr c.exitEsr).rt.toNat * 8

/-- Where a guest that goes on after this exit is moved. -/
def Resumes (c : Ctx) (off : Nat) : Prop := off = ohvRwPc ∨ off = ohvRwCpsr ∨ c.ReadsInto off

/-- A page after syncs of this kernel and writes of the library: of what is tracked the named
words only, and the bits of `HCR_EL2` that steer. -/
inductive Within (host : Host) (named : Nat → Prop) (before : Ctx) : Ctx → Prop
  | same : Within host named before before
  | put {c : Ctx} (off : Nat) (value : Word) (within : Within host named before c)
      (may : Tracked off → named off) : Within host named before (c.put off value)
  | steer {c : Ctx} (value : Word) (within : Within host named before c)
      (bits : ∀ bit, ¬ Steers ohvRwControls bit → value.getLsbD bit = c.hcr.getLsbD bit) :
      Within host named before (c.setHcr value)
  | sync {c : Ctx} (k : Nat) (within : Within host named before c) :
      Within host named before (host.sync k c)

namespace Within

variable {host : Host} {named : Nat → Prop} {first second third before c : Ctx}

theorem trans (left : Within host named first second) (right : Within host named second third) :
    Within host named first third := by
  induction right with
  | same => exact left
  | put off value _ may ih => exact ih.put off value may
  | steer value _ bits ih => exact ih.steer value bits
  | sync k _ ih => exact ih.sync k

theorem mono {wider : Nat → Prop} (within : Within host named before c)
    (weaker : ∀ off, named off → wider off) : Within host wider before c := by
  induction within with
  | same => exact .same
  | put off value _ may ih => exact ih.put off value fun tracked => weaker off (may tracked)
  | steer value _ bits ih => exact ih.steer value bits
  | sync k _ ih => exact ih.sync k

theorem free (within : Within host named before c) (off : Nat) (value : Word)
    (other : ¬ Tracked off) : Within host named before (c.put off value) :=
  within.put off value fun tracked => absurd tracked other

theorem markDirty (within : Within host named before c) (bits : Word) :
    Within host named before (c.markDirty bits) :=
  within.free _ _ (by decide)

theorem setBanked (within : Within host named before c) (n : Nat) (value : Word) (small : n < 24) :
    Within host named before (c.setBanked n value) :=
  within.free _ value (banked_free small)

theorem setPc (within : Within host named before c) (value : Word) (pc : named ohvRwPc) :
    Within host named before (c.setPc value) :=
  within.put _ value fun _ => pc

theorem setCpsr (within : Within host named before c) (value : BitVec 32)
    (cpsr : named ohvRwCpsr) : Within host named before (c.setCpsr value) :=
  within.put _ _ fun _ => cpsr

theorem more {wider : Nat → Prop} (within : Within host (fun _ => False) before c) :
    Within host wider before c :=
  within.mono fun _ => False.elim

theorem armNv {s : VcpuSlot} (within : Within host named before s.ctx) :
    Within host named before s.armNv.ctx := by
  refine (within.steer (s.ctx.hcr ||| ohvHcrNv) fun bit other => ?_).markDirty _
  have apart : bit ≠ 42 := fun nv => other ⟨rfl, Or.inr (Or.inr nv)⟩
  rw [getLsbD_setNv]
  simp [apart]

theorem clearNv {s : VcpuSlot} (within : Within host named before s.ctx) :
    Within host named before s.clearNv.ctx := by
  refine (within.steer (s.ctx.hcr &&& ~~~ohvHcrNv) fun bit other => ?_).markDirty _
  have apart : bit ≠ 42 := fun nv => other ⟨rfl, Or.inr (Or.inr nv)⟩
  rw [getLsbD_clearNv]
  simp [apart]

/-- A tracked word that is not named stands but for the bits that steer, if the kernel leaves
it alone. -/
theorem bit (within : Within host named before c) {off bit : Nat} (tracked : Tracked off)
    (still : ¬ Steers off bit) (other : ¬ named off)
    (kernel : ∀ k c, (host.sync k c).word off = c.word off) :
    (c.word off).getLsbD bit = (before.word off).getLsbD bit := by
  induction within with
  | same => rfl
  | put off' value _ may ih =>
      have apart : off ≠ off' := by
        rintro rfl
        exact other (may tracked)
      rw [word_put, if_neg apart, ih]
  | steer value _ bits ih =>
      rw [setHcr, setControl, word_put]
      split
      · rename_i here
        subst here
        exact (bits bit still).trans ih
      · exact ih
  | sync k _ ih => rw [kernel, ih]

theorem word (within : Within host named before c) {off : Nat} (surfaced : Surfaced off)
    (other : ¬ named off) (kernel : ∀ k c, (host.sync k c).word off = c.word off) :
    c.word off = before.word off :=
  BitVec.eq_of_getLsbD_eq fun bit _ =>
    within.bit (Or.inl surfaced) (surfaced.still bit) other kernel

end Within

end Ctx

open Ctx (Within)
open Runs

theorem Ctx.Resumes.surfaced {c : Ctx} {off : Nat} (moves : c.Resumes off) : Surfaced off := by
  rcases moves with rfl | rfl | ⟨-, -, -, -, rfl⟩
  · decide
  · decide
  · have small := (SysAccess.ofEsr c.exitEsr).rt.isLt
    simp only [Surfaced, ohvRwRegsX0, ohvRwSharedSysregs]
    omega

/-! ## An access -/

section Access
variable {host : Host} {before : Ctx}

theorem access_within (a : SysAccess) : a.Writes fun v =>
    Within host (fun off => a.read = true ∧ a.rt ≠ 31 ∧
      off = ohvRwRegsX0 + a.rt.toNat * 8) before v.s.ctx where
  operand := by
    intro reads v value within
    simp only [VcpuView.setCtx, Ctx.writeRt]
    split
    · exact within
    · rename_i operand
      exact within.put _ value fun _ => ⟨reads, operand, rfl⟩
  emulated v w within same := same.ctx ▸ within
  handoff _ _ within := within.armNv
  guarded := by
    intro _ n guarded v value within
    have small := isGuarded_lt guarded
    exact (within.free _ value (ext_free small)).markDirty _
  csselr _ _ _ value within := (within.free _ value (by decide)).markDirty _
  par _ _ value within := (within.free _ value (by decide)).markDirty _
  disarm _ _ _ within := within.setBanked 19 0 (by decide)
  control := by
    intro _ _ _ v value within
    cases decide (a.crm = 2) with
    | true => exact within.markDirty _
    | false => exact (within.setBanked 18 value (by decide)).markDirty _
  compare _ _ _ _ value within := (within.setBanked _ value (timerCvalIndex_lt _)).markDirty _
  el2 := by
    intro _ _ r found v value within
    have apart : ¬ Tracked r.ctxOff := by
      rcases nv2Reg_place r (nv2Lookup_row found).1 with ⟨-, place, small⟩ | ⟨-, above, below⟩
      · rw [place]
        exact banked_free small
      · exact above_free (Nat.le_trans (by decide) above) below
    have written := within.free r.ctxOff value apart
    split
    · exact written.markDirty _
    · exact written

end Access

/-! ## An exit -/

/-- An exit's outcome: a page that goes to the VMM has nothing surfaced written, one that
goes back to the guest the named words. -/
def GoesOn (host : Host) (named : Nat → Prop) (before : Ctx) (out : ExitAction × VcpuView) :
    Prop :=
  Within host (fun off => out.1 = .keepRunning ∧ named off) before out.2.s.ctx

section Exit
variable {host : Host} {named : Nat → Prop} {before : Ctx}

theorem goesOn_of_still {out : ExitAction × VcpuView}
    (within : Within host (fun _ => False) before out.2.s.ctx) : GoesOn host named before out :=
  within.more

theorem goesOn_of_kept {v : VcpuView} (within : Within host named before v.s.ctx) :
    GoesOn host named before (.keepRunning, v) :=
  within.mono fun _ named => ⟨rfl, named⟩

theorem arriveExit_within (cfg : OhvCfg) (s : VcpuSlot) :
    Within host (fun _ => False) s.ctx (arriveExit cfg host s).ctx := by
  have restored : Within host (fun _ => False) s.ctx (restoreNv s).ctx := by
    unfold restoreNv
    split
    · exact Within.armNv .same
    · exact .same
  have mirrored : Within host (fun _ => False) s.ctx (mirrorGl1 cfg host (restoreNv s)).ctx := by
    have synced := restored.sync 0
    unfold mirrorGl1
    split
    · simp only
      split
      · exact ((Within.setBanked synced 3 _ (by decide)).setBanked 14 _ (by decide)).markDirty _
      · exact synced
    · exact restored
  unfold arriveExit recordExit rearmNv
  split
  · exact Within.armNv mirrored
  · exact mirrored

theorem reportException_goesOn (reason : BitVec 32) {v : VcpuView}
    (within : Within host (fun _ => False) before v.s.ctx) :
    GoesOn host named before (reportException reason host v) := by
  apply goesOn_of_still
  rw [reportException_ctx]
  exact within

variable (pc : named ohvRwPc) (cpsr : named ohvRwCpsr)

include pc cpsr

theorem completeEret_within {s : VcpuSlot} (within : Within host named before s.ctx) :
    Within host named before (completeEret s).ctx := by
  have returned : Within host named before
      ((s.ctx.setPc (s.ctx.banked 3)).setCpsr ((s.ctx.banked 14).extractLsb' 0 32)) :=
    (within.setPc _ pc).setCpsr _ cpsr
  unfold completeEret
  simp only
  split
  · exact Within.clearNv (s := { s with ctx := _, guestAtEl2 := false }) returned
  · split
    · exact returned.setCpsr _ cpsr
    · exact returned

theorem enterGuestEl2_within {s : VcpuSlot} (within : Within host named before s.ctx)
    (esr returnPc : Word) : Within host named before (enterGuestEl2 s esr returnPc).ctx := by
  have banked := ((within.setBanked 3 returnPc (by decide)).setBanked 5 esr
    (by decide)).setBanked 14 (s.ctx.cpsr.zeroExtend 64) (by decide)
  have entered := ((banked.markDirty ohvStateSysregs).setPc
    (s.ctx.word (ohvVncrBase + 0x250) + ohvVectLower64Sync) pc).setCpsr 0x3c5 cpsr
  exact Within.armNv (s := { s with ctx := _ }) entered

theorem softEret_goesOn (reason : BitVec 32) {v : VcpuView}
    (within : Within host (fun _ => False) before v.s.ctx) :
    GoesOn host named before (softEret reason host v) := by
  have synced : Within host (fun _ => False) before (v.sync host 2).s.ctx := within.sync 2
  unfold softEret
  split
  · simp only
    split
    · apply goesOn_of_kept
      exact completeEret_within pc cpsr synced.more
    · exact reportException_goesOn reason synced
  · exact reportException_goesOn reason within

theorem guardedEret_goesOn (reason : BitVec 32) {v : VcpuView}
    (within : Within host (fun _ => False) before v.s.ctx) :
    GoesOn host named before (guardedEret reason host v) := by
  have synced : Within host (fun _ => False) before (v.sync host 1).s.ctx := within.sync 1
  unfold guardedEret
  split
  · simp only
    split
    · apply goesOn_of_still
      have handed := ((Within.setBanked synced 3 ((v.sync host 1).s.ctx.ext 51)
        (by decide)).setBanked 14 ((v.sync host 1).s.ctx.ext 52) (by decide)).markDirty
          ohvStateSysregs
      exact Within.clearNv (s := { (v.sync host 1).s with ctx := _ }) handed
    · exact softEret_goesOn pc cpsr reason synced
  · exact softEret_goesOn pc cpsr reason within

theorem syncException_goesOn (reason : BitVec 32) {v : VcpuView}
    (within : Within host (fun _ => False) before v.s.ctx) :
    GoesOn host named before (syncException reason host v) := by
  have started : Within host named before v.s.ctx := within.more
  unfold syncException
  split
  · exact goesOn_of_kept (started.setPc _ pc)
  · split
    · exact goesOn_of_kept (enterGuestEl2_within pc cpsr started _ _)
    · exact guardedEret_goesOn pc cpsr reason within

omit pc cpsr

/-- The block of an access a trap reports is reached for that trap alone. -/
theorem msrTrap_goesOn {v : VcpuView} (trap : v.s.ctx.exitReason.toNat = 8)
    (within : Within host (fun _ => False) before v.s.ctx) :
    GoesOn host v.s.ctx.Resumes before (msrTrap host v) := by
  have synced : ∀ {w : VcpuView}, Within host (fun _ => False) before w.s.ctx →
      GoesOn host v.s.ctx.Resumes before (syncException 8 host w) :=
    syncException_goesOn (Or.inl rfl) (Or.inr (Or.inl rfl)) 8
  unfold msrTrap
  split
  · rename_i access
    have operands : (SysAccess.ofEsr v.s.ctx.exitEsr).Writes fun w =>
        Within host _ before w.s.ctx := access_within _
    have ends := serviceNv2Access_ends host v.s.ctx.exitEsr v operands within.more
    revert ends
    rcases serviceNv2Access host v.s.ctx.exitEsr v with ⟨carried, after⟩
    rintro ⟨w, operand, ⟨rfl, rfl⟩ | ⟨rfl, rfl, declined⟩⟩
    · apply goesOn_of_kept
      have named : Within host v.s.ctx.Resumes before w.s.ctx :=
        operand.mono fun _ ⟨reads, inside, place⟩ =>
          Or.inr (Or.inr ⟨trap, access, reads, inside, place⟩)
      exact named.setPc _ (Or.inl rfl)
    · apply synced
      rcases declined with rfl | rfl | rfl
      · exact within
      · exact within
      · exact within.setBanked 19 0 (by decide)
  · exact synced within

theorem dispatchExit_goesOn {v : VcpuView} (within : Within host (fun _ => False) before v.s.ctx) :
    GoesOn host v.s.ctx.Resumes before (dispatchExit host v) := by
  have interrupted : GoesOn host v.s.ctx.Resumes before (physicalInterrupt v) := by
    apply goesOn_of_still
    rw [physicalInterrupt_ctx]
    split
    · exact within.free _ _ (by decide)
    · exact within
  unfold dispatchExit
  split
  case h_6 | h_7 => exact interrupted
  case h_8 trap => exact msrTrap_goesOn trap within
  case h_9 => exact syncException_goesOn (Or.inl rfl) (Or.inr (Or.inl rfl)) 1 within
  case h_10 => exact reportException_goesOn 6 within
  all_goals exact goesOn_of_still within

/-- What an exit writes of the guest's registers: nothing where it goes to the VMM, and
where it does not the PC, the PSTATE and the operand of a read. -/
theorem exitFromRo_goesOn (v : VcpuView) :
    GoesOn host (arriveExit v.g.cfg host v.s).ctx.Resumes v.s.ctx (exitFromRo host v) :=
  dispatchExit_goesOn (v := { v with s := arriveExit v.g.cfg host v.s })
    (arriveExit_within v.g.cfg v.s)

end Exit

/-! ## The sweep, the VMM's calls and the interrupt controller -/

section Calls
variable {host : Host} {before : Ctx}

theorem setHcrLevel_within (n : Nat) (level : n = 6 ∨ n = 7) (want : Bool) {s : VcpuSlot}
    (within : Within host (fun _ => False) before s.ctx) :
    Within host (fun _ => False) before (setHcrLevel n want s).ctx := by
  unfold setHcrLevel
  split
  · exact within
  · refine (within.steer _ fun bit other => ?_).markDirty _
    have apart : bit ≠ n := by
      rintro rfl
      exact other ⟨rfl, level.imp_right Or.inl⟩
    exact (WordBits.getLsbD_replace _ n bit want (by omega)).trans (if_neg apart)

theorem setLevels_within (cfg : OhvCfg) {s : VcpuSlot}
    (within : Within host (fun _ => False) before s.ctx) :
    Within host (fun _ => False) before (setLevels cfg s).ctx := by
  rw [setLevels_eq]
  exact setHcrLevel_within 7 (Or.inr rfl) _
    (setHcrLevel_within 6 (Or.inl rfl) _ (s := { s with timerFiq := wantTimerFiq cfg s }) within)

theorem trackIstatus_within (physical : Bool) (now : Word) {s : VcpuSlot}
    (within : Within host (fun _ => False) before s.ctx) :
    Within host (fun _ => False) before (trackIstatus physical now s).ctx := by
  obtain same | ⟨value, -, written⟩ := trackIstatus_cases physical now s
  · rw [same]
    exact within
  · rw [written]
    cases physical with
    | true => exact within.markDirty _
    | false => exact (within.setBanked 18 value (by decide)).markDirty _

theorem ohvExpireTimers_within (now : Word) (v : VcpuView) :
    Within host (fun _ => False) v.s.ctx (ohvExpireTimers now v).s.ctx := by
  have virtual : Within host (fun _ => False) v.s.ctx
      (expireTimer false now (ohvNoteImageBand v).s).ctx := by
    rw [expireTimer_ctx]
    exact trackIstatus_within (s := (ohvNoteImageBand v).s) false now .same
  have swept : Within host (fun _ => False) v.s.ctx
      (sweptTimers now (ohvNoteImageBand v).s).ctx := by
    rw [sweptTimers, expireTimer_ctx]
    exact trackIstatus_within true now virtual
  exact setLevels_within _ swept

/-- The words `hv_vcpu_set_sys_reg` writes: the register's own, and for a half of the kernel
key, where the mirror is on, the half of the VM's. -/
def SysRegNames (enc : BitVec 16) (off : Nat) : Prop :=
  (∃ d base, sysregLookup enc = some d ∧ d.region = some base ∧ off = base + d.index * 8) ∨
    enc = encKernkeyLo ∧ off = ohvRwControls + 0x78 ∨
    enc = encKernkeyHi ∧ off = ohvRwControls + 0x70

/-- The words a call names. -/
def VcpuCall.Names (call : VcpuCall) (off : Nat) : Prop :=
  match call with
  | .setReg reg _ => reg ≤ hvRegCpsr ∧ off = regOff reg
  | .setSysReg _ enc _ => SysRegNames enc off
  | .setControlField field _ =>
      ∃ inside, controlFieldOffset field = some inside ∧ off = ohvRwControls + inside
  | .setTrapDebugExceptions _ | .setTrapDebugRegAccesses _ => off = ohvRwControls + 0x18
  | .setVtimerOffset _ => off = ohvRwVtimerOffset
  | .setPending _ _ | .setParked _ | .getSysReg _ _ | .setVtimerMask _ => False

theorem writeDesc_within (cfg : OhvCfg) {d : SysRegDesc} {base : Nat} {enc : BitVec 16}
    (value : Word) {c : Ctx} (found : sysregLookup enc = some d) (region : d.region = some base)
    (within : Within host (SysRegNames enc) before c) :
    Within host (SysRegNames enc) before (writeDesc cfg d base enc value c) := by
  have stored := within.put (base + d.index * 8) (filterWrite enc value) fun _ =>
    Or.inl ⟨d, base, found, region, rfl⟩
  have mirrored : Within host (SysRegNames enc) before (mirrorVmkey cfg enc
      (filterWrite enc value) (c.put (base + d.index * 8) (filterWrite enc value))) := by
    unfold mirrorVmkey
    split
    · rename_i lo
      exact (stored.put _ _ fun _ => Or.inr (Or.inl ⟨lo.2, rfl⟩)).markDirty _
    · split
      · rename_i hi
        exact (stored.put _ _ fun _ => Or.inr (Or.inr ⟨hi.2, rfl⟩)).markDirty _
      · exact stored
  unfold writeDesc
  simp only
  split
  · exact mirrored
  · exact mirrored.markDirty _

theorem sysregAccess_within (enc : BitVec 16) (value : Word) (write : Bool) (v : VcpuView) :
    Within host (fun off => write = true ∧ SysRegNames enc off) v.s.ctx
      (sysregAccess host enc value write v).view.s.ctx := by
  unfold sysregAccess
  split
  · exact .same
  · rename_i d found
    split
    · rw [(idRegAccess_frame host enc value write v).2]
      exact .same
    · rw [(shadowAccess_frame d value write v).2]
      exact .same
    · rename_i base region _ _
      have current : Within host (fun _ => False) v.s.ctx
          (if needsSync d v.s.ctx then v.sync host 0 else v).s.ctx := by
        split
        · exact Within.same.sync 0
        · exact .same
      unfold contextAccess
      simp only
      split
      · exact current.more
      · split
        · rename_i writes
          exact (writeDesc_within _ value found region current.more).mono
            fun _ named => ⟨writes, named⟩
        · exact current.more
    · exact .same

theorem hvVcpuSetReg_within (reg : Nat) (value : Word) (v : VcpuView) :
    Within host (fun off => reg ≤ hvRegCpsr ∧ off = regOff reg) v.s.ctx
      (hvVcpuSetReg reg value v).2.s.ctx := by
  have place : regOff reg = if reg = hvRegCpsr then ohvRwCpsr
      else if reg = hvRegFpcr ∨ reg = hvRegFpsr then ohvRwFpsrFpcr
      else if reg = hvRegPc then ohvRwPc
      else ohvRwRegsX0 + reg * 8 := rfl
  generalize regOff reg = named at place ⊢
  unfold hvVcpuSetReg
  simp only
  split
  · rename_i cpsr
    rw [if_pos cpsr] at place
    exact Within.setCpsr .same _ ⟨Nat.le_of_eq cpsr, place.symm⟩
  · rename_i notCpsr
    rw [if_neg notCpsr] at place
    split
    · rename_i fpcr
      rw [if_pos (Or.inl fpcr)] at place
      exact Within.same.put _ _ fun _ => ⟨fpcr ▸ by decide, place.symm⟩
    · rename_i notFpcr
      split
      · rename_i fpsr
        rw [if_pos (Or.inr fpsr)] at place
        exact Within.same.put _ _ fun _ => ⟨fpsr ▸ by decide, place.symm⟩
      · rename_i notFpsr
        rw [if_neg (not_or.mpr ⟨notFpcr, notFpsr⟩)] at place
        split
        · rename_i pc
          rw [if_pos pc] at place
          exact Within.setPc .same _ ⟨pc ▸ by decide, place.symm⟩
        · rename_i notPc
          rw [if_neg notPc] at place
          split
          · rename_i general
            exact Within.same.put _ _ fun _ =>
              ⟨Nat.le_trans (Nat.le_of_lt general) (by decide), place.symm⟩
          · exact .same

theorem VcpuCall.serve_within (call : VcpuCall) (v : VcpuView) :
    Within call.host call.Names v.s.ctx (call.serve v).s.ctx := by
  cases call with
  | setPending type pending =>
      cases type with
      | fiq =>
          exact setHcrLevel_within 6 (Or.inl rfl) _
            (s := { v.s with vmmFiq := pending, timerFiq := _ }) .same
      | irq => exact setHcrLevel_within 7 (Or.inr rfl) _ (s := { v.s with vmmIrq := pending }) .same
  | setParked parked =>
      simp only [VcpuCall.serve, ohvVcpuSetParked]
      split
      · exact .same
      · exact setLevels_within v.g.cfg (s := { v.s with inWfx := parked }) .same
  | setReg reg value => exact hvVcpuSetReg_within reg value v
  | getSysReg host enc =>
      exact (sysregAccess_within enc 0 false v).mono fun _ read => Bool.noConfusion read.1
  | setSysReg host enc value =>
      simp only [VcpuCall.serve, hvVcpuSetSysReg_eq_access]
      exact (sysregAccess_within enc value true v).mono fun _ => And.right
  | setControlField field value =>
      simp only [VcpuCall.serve, hvVcpuSetControlField]
      split
      · exact .same
      · rename_i inside named
        split
        · exact .same
        · exact (Within.same.put _ _ fun _ => ⟨inside, named, rfl⟩).markDirty _
  | setTrapDebugExceptions _ | setTrapDebugRegAccesses _ =>
      refine Within.markDirty ?_ _
      exact Within.same.put _ _ fun _ => rfl
  | setVtimerOffset off =>
      refine Within.markDirty ?_ _
      exact Within.same.put _ off fun _ => rfl
  | setVtimerMask masked => exact (Within.same.free _ _ (by decide)).markDirty _

def GicCall.Names (call : GicCall) (off : Nat) : Prop :=
  (∃ id value, call = .setIchReg id 0xe658 value) ∧ off = ohvRwControls + ichHcrOff

theorem GicCall.Names.inside {call : GicCall} {off : Nat} (names : call.Names off) :
    ¬ Surfaced off := by
  obtain ⟨-, rfl⟩ := names
  decide

theorem GicCall.serve_within (call : GicCall) (g : Globals) (slots : VcpuTable)
    (i : Fin kMaxVcpuIds) :
    Within host call.Names (slots i).ctx ((call.serve g slots).slots i).ctx := by
  have listed : ∀ (c : Ctx) j value, j < ichLrCount →
      Within host call.Names c (markGic (c.setIchLr j value)) := by
    intro c j value small
    exact (Within.same.free _ value (ichLr_free small)).markDirty _
  apply call.serve_pages (R := Within host call.Names) (fun _ => .same)
    fun _ _ _ left right => left.trans right
  · exact fun c => Within.markDirty .same _
  · exact listed
  · intro id enc value asked c
    unfold writeIch
    split
    · exact .same
    · split
      · exact (Within.same.free _ _ (by decide)).markDirty _
      · split
        · exact (Within.same.free _ _ (by decide)).markDirty _
        · split
          · rename_i here
            refine Within.markDirty ?_ _
            exact Within.same.put _ _ fun _ => ⟨⟨id, value, here ▸ asked⟩, rfl⟩
          · split
            · exact (Within.setBanked .same 21 _ (by decide)).markDirty _
            · split
              · rename_i inside
                exact listed c _ _ inside.2
              · exact .same

end Calls

end OpenHypervisor
