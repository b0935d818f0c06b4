import OpenHypervisor.ExitHandling

/-!
# What an exit writes of the shared page

The page is the kernel's as much as the library's, so it matters which of its
words a piece of exit handling writes, and which flags are up when it is done.
For each piece: the banked registers it is about, and that it leaves the others
and takes no flag down.
-/

set_option autoImplicit false

namespace OpenHypervisor

/-- The registers of the banked block. -/
def bankedCount : Nat := 24

namespace Ctx

def SysregsDirty (c : Ctx) : Prop := (c.word ohvRwStateDirty).getLsbD 0 = true

instance (c : Ctx) : Decidable c.SysregsDirty := inferInstanceAs (Decidable (_ = _))

/-- Every banked register but the named ones stands, and so does every flag.
`OHV_STATE_SYSREGS` is raised only where `marks` says. -/
structure Spares (names : List Nat) (marks : Prop) (before after : Ctx) : Prop where
  banked : ∀ n, n < bankedCount → n ∉ names → after.banked n = before.banked n
  flags : ∀ i, (before.word ohvRwStateDirty).getLsbD i = true →
    (after.word ohvRwStateDirty).getLsbD i = true
  raised : after.SysregsDirty → before.SysregsDirty ∨ marks

namespace Spares

variable {names : List Nat} {marks : Prop} {before c : Ctx}

theorem refl (c : Ctx) : Spares names marks c c :=
  ⟨fun _ _ _ => rfl, fun _ up => up, Or.inl⟩

theorem trans {first second third : Ctx} (left : Spares names marks first second)
    (right : Spares names marks second third) : Spares names marks first third where
  banked := by
    intro n small other
    rw [right.banked n small other, left.banked n small other]
  flags := fun i up => right.flags i (left.flags i up)
  raised := by
    intro up
    rcases right.raised up with middle | marked
    · exact left.raised middle
    · exact Or.inr marked

theorem mono (spares : Spares names marks before c) {more : List Nat} {wider : Prop}
    (subset : ∀ n ∈ names, n ∈ more) (imply : marks → wider) : Spares more wider before c where
  banked := fun n small other => spares.banked n small fun named => other (subset n named)
  flags := spares.flags
  raised up := (spares.raised up).imp id imply

theorem put (spares : Spares names marks before c) (off : Nat) (value : Word)
    (outside : off < ohvRwBankedSysregs ∨ ohvRwDbgregs ≤ off) (flag : off ≠ ohvRwStateDirty) :
    Spares names marks before (c.put off value) where
  banked := by
    intro n small other
    have elsewhere : ohvRwBankedSysregs + n * 8 ≠ off := by
      simp only [bankedCount, ohvRwBankedSysregs, ohvRwDbgregs] at *
      omega
    rw [Ctx.banked, word_put, if_neg elsewhere]
    exact spares.banked n small other
  flags := by
    intro i up
    rw [word_put, if_neg flag.symm]
    exact spares.flags i up
  raised := by
    intro up
    rw [SysregsDirty, word_put, if_neg flag.symm] at up
    exact spares.raised up

theorem setBanked (spares : Spares names marks before c) (n : Nat) (value : Word) (small : n < bankedCount)
    (named : n ∈ names) : Spares names marks before (c.setBanked n value) where
  banked := by
    intro m _ other
    have elsewhere : ohvRwBankedSysregs + m * 8 ≠ ohvRwBankedSysregs + n * 8 := by
      intro same
      have equal : m = n := by omega
      exact other (equal ▸ named)
    rw [Ctx.banked, Ctx.setBanked, word_put, if_neg elsewhere]
    exact spares.banked m ‹_› other
  flags := by
    intro i up
    have flag : ohvRwStateDirty ≠ ohvRwBankedSysregs + n * 8 := by
      simp only [bankedCount, ohvRwBankedSysregs, ohvRwStateDirty] at *
      omega
    rw [Ctx.setBanked, word_put, if_neg flag]
    exact spares.flags i up
  raised := by
    intro up
    have flag : ohvRwStateDirty ≠ ohvRwBankedSysregs + n * 8 := by
      simp only [bankedCount, ohvRwBankedSysregs, ohvRwStateDirty] at *
      omega
    rw [SysregsDirty, Ctx.setBanked, word_put, if_neg flag] at up
    exact spares.raised up

theorem markDirty (spares : Spares names marks before c) (bits : Word)
    (block : bits.getLsbD 0 = true → marks) : Spares names marks before (c.markDirty bits) where
  banked := by
    intro n small other
    have elsewhere : ohvRwBankedSysregs + n * 8 ≠ ohvRwStateDirty := by
      simp only [bankedCount, ohvRwBankedSysregs, ohvRwStateDirty] at *
      omega
    rw [Ctx.banked, Ctx.markDirty, word_put, if_neg elsewhere]
    exact spares.banked n small other
  flags := by
    intro i up
    rw [Ctx.markDirty, word_put, if_pos rfl, BitVec.getLsbD_or, spares.flags i up, Bool.true_or]
  raised := by
    intro up
    rw [SysregsDirty, Ctx.markDirty, word_put, if_pos rfl, BitVec.getLsbD_or, Bool.or_eq_true] at up
    rcases up with standing | marked
    · exact spares.raised standing
    · exact Or.inr (block marked)

theorem markOther (spares : Spares names marks before c) (bits : Word)
    (other : bits.getLsbD 0 = false) : Spares names marks before (c.markDirty bits) :=
  spares.markDirty bits fun block => absurd (other.symm.trans block) Bool.false_ne_true

theorem markSysregs (spares : Spares names marks before c) (block : marks) :
    Spares names marks before (c.markDirty ohvStateSysregs) :=
  spares.markDirty _ fun _ => block

theorem setX (spares : Spares names marks before c) (n : Nat) (value : Word) (small : n < 32) :
    Spares names marks before (c.setX n value) := by
  refine spares.put _ value (Or.inl ?_) ?_
  · simp only [ohvRwRegsX0, ohvRwBankedSysregs]
    omega
  · simp only [ohvRwRegsX0, ohvRwStateDirty]
    omega

theorem setPc (spares : Spares names marks before c) (value : Word) :
    Spares names marks before (c.setPc value) :=
  spares.put _ value (Or.inl (by decide)) (by decide)

theorem setCpsr (spares : Spares names marks before c) (value : BitVec 32) :
    Spares names marks before (c.setCpsr value) :=
  spares.put _ _ (Or.inl (by decide)) (by decide)

theorem setShared (spares : Spares names marks before c) (n : Nat) (value : Word) (small : n < 13) :
    Spares names marks before (c.setShared n value) := by
  refine spares.put _ value (Or.inl ?_) ?_
  · simp only [ohvRwSharedSysregs, ohvRwBankedSysregs]
    omega
  · simp only [ohvRwSharedSysregs, ohvRwStateDirty]
    omega

theorem setExt (spares : Spares names marks before c) (n : Nat) (value : Word) :
    Spares names marks before (c.setExt n value) := by
  refine spares.put _ value (Or.inr ?_) ?_
  · simp only [ohvRwExtregs, ohvRwDbgregs]
    omega
  · simp only [ohvRwExtregs, ohvRwStateDirty]
    omega

theorem setControl (spares : Spares names marks before c) (off : Nat) (value : Word)
    (inside : off < 0xd8) : Spares names marks before (c.setControl off value) := by
  refine spares.put _ value (Or.inr ?_) ?_
  · simp only [ohvRwControls, ohvRwDbgregs]
    omega
  · simp only [ohvRwControls, ohvRwStateDirty]
    omega

theorem writeRt (spares : Spares names marks before c) (rt : BitVec 5) (value : Word) :
    Spares names marks before (c.writeRt rt value) := by
  unfold Ctx.writeRt
  split
  · exact spares
  · exact spares.setX rt.toNat value rt.isLt

theorem skip (spares : Spares names marks before c) : Spares names marks before c.skip :=
  spares.setPc _

theorem armNv {s : VcpuSlot} (spares : Spares names marks before s.ctx) :
    Spares names marks before s.armNv.ctx :=
  (spares.setControl 0 _ (by decide)).markOther _ (by decide)

theorem clearNv {s : VcpuSlot} (spares : Spares names marks before s.ctx) :
    Spares names marks before s.clearNv.ctx :=
  (spares.setControl 0 _ (by decide)).markOther _ (by decide)

end Spares

end Ctx

open Ctx (Spares)

/-! ## Trapped accesses -/

/-- The physical timer's control slot is put out whatever is accessed of it; TVAL
is another name of the compare value. -/
def timerNames (a : SysAccess) : List Nat :=
  let physical := decide (a.crm = 2)
  (if physical then [19] else []) ++
    (if a.read then []
    else if a.op2 = 1 then (if physical then [] else [18])
    else if a.op2 = 0 ∨ a.op2 = 2 then [VcpuSlot.timerCvalIndex physical]
    else [])

def nv2Names (a : SysAccess) : List Nat :=
  match (if a.op1 = 4 ∧ a.op0 = 3 then nv2Lookup a.enc else none) with
  | none => []
  | some r =>
      if r.banked = true ∧ a.read = false then [(r.ctxOff - ohvRwBankedSysregs) / 8] else []

/-- The banked registers a trapped access is about. -/
def accessNames (a : SysAccess) : List Nat := if a.IsTimer then timerNames a else nv2Names a

/-- The accesses that hand the block to the kernel: a write of CSSELR_EL1, of a
timer or of an EL2 register that lives there, and the address translations. -/
def SysAccess.MarksBlock (a : SysAccess) : Prop :=
  (a.read = false ∧ (a.op0 = 3 ∧ a.op1 = 2 ∧ a.crn = 0 ∧ a.crm = 0 ∧ a.op2 = 0 ∨
    a.IsTimer ∧ (a.op2 = 0 ∨ a.op2 = 1 ∨ a.op2 = 2))) ∨
  (a.op0 = 1 ∧ (a.op1 = 4 ∨ a.op1 = 0) ∧ a.crn = 7 ∧ (a.crm = 8 ∨ a.crm = 9)) ∨
  nv2Names a ≠ []

instance (a : SysAccess) : Decidable a.MarksBlock := inferInstanceAs (Decidable (_ ∨ _))

/-- An EL2 register lives in the banked block or in the page of its own. -/
theorem nv2Reg_place (r : Nv2Reg) (listed : r ∈ kNv2Regs) :
    (r.banked = true ∧ r.ctxOff = ohvRwBankedSysregs + (r.ctxOff - ohvRwBankedSysregs) / 8 * 8 ∧
      (r.ctxOff - ohvRwBankedSysregs) / 8 < bankedCount) ∨
    (r.banked = false ∧ ohvVncrBase ≤ r.ctxOff ∧ r.ctxOff < ohvRoVer) := by
  revert r
  decide

theorem names_of_timer {a : SysAccess} (timer : a.IsTimer) : accessNames a = timerNames a :=
  if_pos timer

theorem names_of_el2 {a : SysAccess} (el2 : a.op1 = 4) : accessNames a = nv2Names a := by
  refine if_neg fun timer => ?_
  have op1 := timer.2.1
  rw [el2] at op1
  cases op1

theorem sparing_edits (before : Ctx) (a : SysAccess) :
    a.Edits fun v => Spares (accessNames a) a.MarksBlock before v.s.ctx where
  skip _ spares := spares.skip
  operand _ _ value spares := spares.writeRt a.rt value
  emulated := by
    intro v w spares same
    rw [same.ctx]
    exact spares
  handoff _ _ spares := spares.armNv
  guarded _ n _ _ value spares := (spares.setExt n value).markOther _ (by decide)
  csselr writes csselr _ value spares :=
    (spares.setShared 7 value (by decide)).markSysregs (Or.inl ⟨writes, Or.inl csselr⟩)
  par translates _ value spares :=
    (spares.setShared 6 value (by decide)).markSysregs (Or.inr (Or.inl translates))
  disarm := by
    intro timer physical v spares
    apply spares.setBanked 19 0 (by decide)
    rw [names_of_timer timer]
    simp [timerNames, physical]
  control := by
    intro writes timer ctl v value spares
    apply Spares.markSysregs
    · cases physical : decide (a.crm = 2) with
      | true => exact spares
      | false =>
          apply spares.setBanked 18 value (by decide)
          have virtual : ¬ a.crm = 2#4 := of_decide_eq_false physical
          rw [names_of_timer timer]
          simp [timerNames, virtual, writes, ctl]
    · exact Or.inl ⟨writes, Or.inr ⟨timer, Or.inr (Or.inl ctl)⟩⟩
  compare := by
    intro writes timer op2 v value spares
    apply Spares.markSysregs
    · apply spares.setBanked _ value (timerCvalIndex_lt _)
      rw [names_of_timer timer]
      rcases op2 with op2 | op2 <;> simp [timerNames, writes, op2]
    · exact Or.inl ⟨writes, Or.inr ⟨timer, op2.imp_right Or.inr⟩⟩
  el2 := by
    intro writes fields r found v value spares
    rw [names_of_el2 fields.1] at spares ⊢
    rcases nv2Reg_place r (List.mem_of_find?_eq_some found) with
      ⟨banked, offset, small⟩ | ⟨banked, above, -⟩
    · have named : (r.ctxOff - ohvRwBankedSysregs) / 8 ∈ nv2Names a := by
        simp only [nv2Names, if_pos fields, found, banked, writes, and_self, if_true,
          List.mem_singleton]
      have written := spares.setBanked _ value small named
      rw [Ctx.setBanked, ← offset] at written
      rw [if_pos banked]
      exact written.markSysregs (Or.inr (Or.inr (List.ne_nil_of_mem named)))
    · simp only [banked, Bool.false_eq_true, if_false]
      simp only [ohvVncrBase] at above
      refine spares.put _ value (Or.inr ?_) ?_
      · simp only [ohvRwDbgregs]
        omega
      · simp only [ohvRwStateDirty]
        omega

theorem serviceNv2Access_spares (host : Host) (esr : Word) (v : VcpuView) :
    Spares (accessNames (.ofEsr esr)) (SysAccess.ofEsr esr).MarksBlock v.s.ctx
      (serviceNv2Access host esr v).2.s.ctx :=
  serviceNv2Access_keeps host esr v (sparing_edits v.s.ctx _) (.refl v.s.ctx)

end OpenHypervisor
