import OpenHypervisor.ExitHandling

/-!
# The two outcomes of a trapped access

An access is carried out whole or not at all.  Carried out, the guest is one
instruction further and nothing of its general state has moved but the operand of
a read.  Refused, the slot is as the exit left it, and the VMM is given the exit.
-/

set_option autoImplicit false

namespace OpenHypervisor

namespace SysAccess

def Loads (a : SysAccess) (off : Nat) : Prop :=
  a.read = true ∧ a.rt ≠ 31 ∧ off = ohvRwRegsX0 + a.rt.toNat * 8

end SysAccess

structure SparesGeneral (a : SysAccess) (before after : Ctx) : Prop where
  word : ∀ off, off < ohvRwSharedSysregs → ¬ a.Loads off → after.word off = before.word off

namespace SparesGeneral

variable {a : SysAccess} {before c : Ctx}

theorem refl (c : Ctx) : SparesGeneral a c c := ⟨fun _ _ _ => rfl⟩

theorem put (spares : SparesGeneral a before c) (off : Nat) (value : Word)
    (above : ohvRwSharedSysregs ≤ off) : SparesGeneral a before (c.put off value) where
  word := by
    intro at' below other
    have apart : at' ≠ off := by omega
    rw [Ctx.word_put, if_neg apart]
    exact spares.word at' below other

theorem setShared (spares : SparesGeneral a before c) (n : Nat) (value : Word) :
    SparesGeneral a before (c.setShared n value) := by
  apply spares.put
  omega

theorem setBanked (spares : SparesGeneral a before c) (n : Nat) (value : Word) :
    SparesGeneral a before (c.setBanked n value) := by
  apply spares.put
  simp only [ohvRwSharedSysregs, ohvRwBankedSysregs]
  omega

theorem setExt (spares : SparesGeneral a before c) (n : Nat) (value : Word) :
    SparesGeneral a before (c.setExt n value) := by
  apply spares.put
  simp only [ohvRwSharedSysregs, ohvRwExtregs]
  omega

theorem markDirty (spares : SparesGeneral a before c) (bits : Word) :
    SparesGeneral a before (c.markDirty bits) :=
  spares.put _ _ (by decide)

theorem armNv {s : VcpuSlot} (spares : SparesGeneral a before s.ctx) :
    SparesGeneral a before s.armNv.ctx :=
  (spares.put ohvRwControls _ (by decide)).markDirty _

theorem writeRt (spares : SparesGeneral a before c) (reads : a.read = true) (value : Word) :
    SparesGeneral a before (c.writeRt a.rt value) where
  word := by
    intro off below other
    unfold Ctx.writeRt
    split
    · exact spares.word off below other
    · rename_i used
      have apart : off ≠ ohvRwRegsX0 + a.rt.toNat * 8 := fun same => other ⟨reads, used, same⟩
      rw [Ctx.setX, Ctx.word_put, if_neg apart]
      exact spares.word off below other

end SparesGeneral

theorem nv2Reg_above (r : Nv2Reg) (listed : r ∈ kNv2Regs) : ohvRwSharedSysregs ≤ r.ctxOff := by
  revert r
  decide

theorem sparesGeneral_writes (before : Ctx) (a : SysAccess) :
    a.Writes fun v => SparesGeneral a before v.s.ctx where
  operand reads _ value spares := spares.writeRt reads value
  emulated := by
    intro v w spares same
    rw [same.ctx]
    exact spares
  handoff _ _ spares := spares.armNv
  guarded _ n _ _ value spares := (spares.setExt n value).markDirty _
  csselr _ _ _ value spares := (spares.setShared 7 value).markDirty _
  par _ _ value spares := (spares.setShared 6 value).markDirty _
  disarm _ _ _ spares := spares.setBanked 19 0
  control := by
    intro _ _ _ v value spares
    cases decide (a.crm = 2) with
    | true => exact spares.markDirty _
    | false => exact (spares.setBanked 18 value).markDirty _
  compare _ _ _ _ value spares := (spares.setBanked _ value).markDirty _
  el2 := by
    intro _ _ r found v value spares
    have put := spares.put r.ctxOff value (nv2Reg_above r (List.mem_of_find?_eq_some found))
    split
    · exact put.markDirty _
    · exact put

/-- Carried out: the guest past the instruction, PSTATE as it was, and of the
general registers only the operand of a read written. -/
structure SysAccess.StepsPast (a : SysAccess) (before after : Ctx) : Prop where
  pc : after.pc = before.pc + 4
  cpsr : after.cpsr = before.cpsr
  x : ∀ n, n < 31 → after.x n ≠ before.x n → a.read = true ∧ a.rt ≠ 31 ∧ n = a.rt.toNat

theorem SparesGeneral.stepsPast {a : SysAccess} {before c : Ctx} (spares : SparesGeneral a before c) :
    a.StepsPast before c.skip := by
  have apart : ∀ off, off ≠ ohvRwPc → c.skip.word off = c.word off :=
    fun off other => (c.word_put ohvRwPc off _).trans (if_neg other)
  have outside : ∀ off, ohvRwPc ≤ off → ¬ a.Loads off := by
    rintro off above ⟨-, used, rfl⟩
    have small := a.rt.isLt
    have other : a.rt.toNat ≠ 31 := fun same => used (BitVec.eq_of_toNat_eq same)
    have last : a.rt.toNat ≠ 32 := by omega
    simp only [ohvRwPc, ohvRwRegsX0] at above
    omega
  constructor
  · have same : c.pc = before.pc := spares.word ohvRwPc (by decide) (outside _ (by decide))
    rw [← same]
    exact (c.word_put ohvRwPc ohvRwPc _).trans (if_pos rfl)
  · exact Ctx.cpsr_congr
      ((apart _ (by decide)).trans (spares.word _ (by decide) (outside _ (by decide))))
  · intro n small changed
    by_contra none
    apply changed
    have below : ohvRwRegsX0 + n * 8 < ohvRwPc := by
      simp only [ohvRwRegsX0, ohvRwPc]
      omega
    refine (apart _ (by omega)).trans (spares.word _ ?_ ?_)
    · simp only [ohvRwRegsX0, ohvRwSharedSysregs]
      omega
    · rintro ⟨reads, used, same⟩
      exact none ⟨reads, used, by omega⟩

/-- Refused: the slot as it was, the page and every register kept in it included,
and of the globals at most the capabilities asked for, with the answer any later
access would have had. -/
structure Refused (host : Host) (before after : VcpuView) : Prop where
  slot : after.s = before.s
  globals : after.g = { before.g with nv2Caps := after.g.nv2Caps }
  caps : after.g.nv2Caps.getD host.caps = before.g.nv2Caps.getD host.caps

/-- The one word a refusal may have cleared was clear. -/
theorem Declined.refused {host : Host} {v w : VcpuView} (declined : Declined host v w)
    (clear : v.s.ctx.banked 19 = 0) : Refused host v w := by
  rcases declined with rfl | rfl | rfl
  · exact ⟨rfl, rfl, rfl⟩
  · exact ⟨rfl, rfl, rfl⟩
  · have same : v.s.ctx.setBanked 19 0 = v.s.ctx := by
      apply congrArg Ctx.mk
      apply WordMem.ext
      intro off
      refine (v.s.ctx.word_put _ off 0).trans ?_
      split
      · rename_i there
        rw [there]
        exact clear.symm
      · rfl
    have whole : v.setCtx (v.s.ctx.setBanked 19 0) = v := by
      rw [same]
      rfl
    rw [whole]
    exact ⟨rfl, rfl, rfl⟩

theorem msrTrap_refused (host : Host) (v : VcpuView) (ec : v.s.ctx.exitEc = 0x18)
    (refused : (serviceNv2Access host v.s.ctx.exitEsr v).1 = false)
    (slot : (serviceNv2Access host v.s.ctx.exitEsr v).2.s = v.s) :
    msrTrap host v = (.toVmm,
      { (serviceNv2Access host v.s.ctx.exitEsr v).2 with s := v.s.setExit .exception }) := by
  cases answer : serviceNv2Access host v.s.ctx.exitEsr v with
  | mk carried after =>
      rw [answer] at refused slot
      simp only at refused slot
      subst refused
      have syndrome : v.s.ctx.exitEsr ≠ 0 := by
        intro zero
        simp [Ctx.exitEc, zero] at ec
      have noEret : ¬ v.s.ctx.TrappedEret := by
        rintro ⟨eret, -⟩
        rw [ec] at eret
        exact absurd eret (by decide)
      have reported : reportException 8 host after =
          (.toVmm, { after with s := v.s.setExit .exception }) := by
        simp only [reportException, slot, if_neg syndrome]
      have soft : softEret 8 host after = reportException 8 host after := by
        rw [softEret, slot, if_neg fun both => noEret both.1]
      have guarded : guardedEret 8 host after = reportException 8 host after := by
        rw [guardedEret, slot, if_neg fun both => noEret both.2, soft]
      have spin : ¬ (after.g.cfg.spinWfi = true ∧ after.s.ctx.exitEc = 0x1) := by
        rintro ⟨-, wfx⟩
        rw [slot, ec] at wfx
        exact absurd wfx (by decide)
      have hvc : ¬ after.InjectsHvc := by
        rintro ⟨hvc, -⟩
        rw [slot, ec] at hvc
        exact absurd hvc (by decide)
      simp only [msrTrap, if_pos ec, answer]
      rw [syncException, if_neg spin, if_neg hvc, guarded, reported]

/-- All or nothing, for every syndrome, in every state whose physical timer the
kernel leaves unarmed. -/
theorem serviceNv2Access_outcome (host : Host) (esr : Word) (v : VcpuView)
    (ec : esr.extractLsb' 26 6 = 0x18#6) (unarmed : v.s.ctx.banked 19 = 0) :
    ((serviceNv2Access host esr v).1 = true ∧
      (SysAccess.ofEsr esr).StepsPast v.s.ctx (serviceNv2Access host esr v).2.s.ctx) ∨
    ((serviceNv2Access host esr v).1 = false ∧ Refused host v (serviceNv2Access host esr v).2 ∧
      (v.s.ctx.exitEsr = esr → msrTrap host v =
        (.toVmm, { (serviceNv2Access host esr v).2 with s := v.s.setExit .exception }))) := by
  obtain ⟨w, spares, ⟨carried, after⟩ | ⟨refused, after, declined⟩⟩ :=
    serviceNv2Access_ends host esr v (sparesGeneral_writes v.s.ctx _) (.refl v.s.ctx)
  · refine Or.inl ⟨carried, ?_⟩
    rw [after]
    exact spares.stepsPast
  · rw [← after] at declined
    have nothing := declined.refused unarmed
    refine Or.inr ⟨refused, nothing, ?_⟩
    rintro rfl
    exact msrTrap_refused host v ec refused nothing.slot

/-- A read of op2 5 of the physical timer, which is no register. -/
def undefinedTimerRead : Word := 0x603af805

theorem serviceNv2Access_outcome_undefined :
    Refused {} ⟨{}, {}⟩ (serviceNv2Access {} undefinedTimerRead ⟨{}, {}⟩).2 := by
  obtain ⟨carried, -⟩ | ⟨-, refused, -⟩ :=
    serviceNv2Access_outcome {} undefinedTimerRead ⟨{}, {}⟩ (by decide) rfl
  · exact absurd carried (by decide)
  · exact refused

end OpenHypervisor
