import OpenHypervisor.SysRegStore
import OpenHypervisor.PageFrame

/-!
# The guest's view of the registers

Which place a trapped access reads and writes, among the places a register call
of the VMM can reach.  An access reaches no place but the one of its encoding.
-/

set_option autoImplicit false

namespace OpenHypervisor

/-! ## Encodings and their fields -/

section Fields

open BitVec

theorem fields_append (op0 : BitVec 2) (op1 : BitVec 3) (crn crm : BitVec 4) (op2 : BitVec 3) :
    (op0 ++ op1 ++ crn ++ crm ++ op2).extractLsb' 14 2 = op0 ∧
      (op0 ++ op1 ++ crn ++ crm ++ op2).extractLsb' 11 3 = op1 ∧
      (op0 ++ op1 ++ crn ++ crm ++ op2).extractLsb' 7 4 = crn ∧
      (op0 ++ op1 ++ crn ++ crm ++ op2).extractLsb' 3 4 = crm ∧
      (op0 ++ op1 ++ crn ++ crm ++ op2).extractLsb' 0 3 = op2 := by
  refine ⟨?_, ?_, ?_, ?_, extractLsb'_append_eq_right⟩
  · rw [extractLsb'_append_eq_of_le (by decide), extractLsb'_append_eq_of_le (by decide),
      extractLsb'_append_eq_of_le (by decide)]
    exact extractLsb'_append_eq_left
  · rw [extractLsb'_append_eq_of_le (by decide), extractLsb'_append_eq_of_le (by decide),
      extractLsb'_append_eq_of_le (by decide)]
    exact extractLsb'_append_eq_right
  · rw [extractLsb'_append_eq_of_le (by decide), extractLsb'_append_eq_of_le (by decide)]
    exact extractLsb'_append_eq_right
  · rw [extractLsb'_append_eq_of_le (by decide)]
    exact extractLsb'_append_eq_right

end Fields

namespace SysAccess

def ofEnc (enc : BitVec 16) (rt : BitVec 5) (read : Bool) : SysAccess where
  op0 := enc.extractLsb' 14 2
  op1 := enc.extractLsb' 11 3
  crn := enc.extractLsb' 7 4
  crm := enc.extractLsb' 3 4
  op2 := enc.extractLsb' 0 3
  rt := rt
  read := read

theorem enc_of_fields (a : SysAccess) {op0 : BitVec 2} {op1 : BitVec 3} {crn crm : BitVec 4}
    {op2 : BitVec 3} (first : a.op0 = op0) (second : a.op1 = op1) (third : a.crn = crn)
    (fourth : a.crm = crm) (fifth : a.op2 = op2) :
    a.enc = op0 ++ op1 ++ crn ++ crm ++ op2 := by
  rw [enc, first, second, third, fourth, fifth]

theorem ofEnc_enc (a : SysAccess) : ofEnc a.enc a.rt a.read = a := by
  obtain ⟨op0, op1, crn, crm, op2, rt, read⟩ := a
  obtain ⟨first, second, third, fourth, fifth⟩ := fields_append op0 op1 crn crm op2
  simp only [ofEnc, enc, SysAccess.mk.injEq]
  exact ⟨first, second, third, fourth, fifth, trivial, trivial⟩

end SysAccess

theorem SysAccess.fields_of_enc (a : SysAccess) (enc : BitVec 16) (named : a.enc = enc) :
    a.op0 = enc.extractLsb' 14 2 ∧ a.op1 = enc.extractLsb' 11 3 ∧ a.crn = enc.extractLsb' 7 4 ∧
      a.crm = enc.extractLsb' 3 4 ∧ a.op2 = enc.extractLsb' 0 3 := by
  subst named
  have whole := a.ofEnc_enc
  exact ⟨congrArg SysAccess.op0 whole.symm, congrArg SysAccess.op1 whole.symm,
    congrArg SysAccess.crn whole.symm, congrArg SysAccess.crm whole.symm,
    congrArg SysAccess.op2 whole.symm⟩

/-! ## Places -/

/-- The emulated registers a register call can reach too, with the place each has
in this function.  TVAL is another name of the compare value. -/
def guestCells : List (BitVec 16 × RegPlace) := [
  (0xf78a, .page (ohvRwExtregs + 42 * 8)), (0xf7c1, .page (ohvRwExtregs + 43 * 8)),
  (0xf7c2, .page (ohvRwExtregs + 44 * 8)), (0xd000, .page (ohvRwSharedSysregs + 7 * 8)),
  (0xdf10, .page (ohvRwBankedSysregs + 10 * 8)), (0xdf11, .shadow ohvShadowCntpCtl),
  (0xdf12, .page (ohvRwBankedSysregs + 10 * 8)), (0xdf18, .page (ohvRwBankedSysregs + 9 * 8)),
  (0xdf19, .page (ohvRwBankedSysregs + 18 * 8)), (0xdf1a, .page (ohvRwBankedSysregs + 9 * 8))] ++
  kNv2Regs.map fun r => (r.enc, .page r.ctxOff)

def guestPlace (enc : BitVec 16) : Option RegPlace :=
  (guestCells.find? fun cell => cell.1 == enc).map Prod.snd

/-- What an access writes in passing, or carries out with no register of its own:
PAR_EL1, the physical timer's banked control word, `HCR_EL2`, the flags. -/
def Passing (off : Nat) : Prop :=
  off = ohvRwSharedSysregs + 6 * 8 ∨ off = ohvRwBankedSysregs + 19 * 8 ∨ off = ohvRwControls ∨
    Bookkeeping off

instance (off : Nat) : Decidable (Passing off) := inferInstanceAs (Decidable (_ ∨ _))

def RegPlace.Watched : RegPlace → Prop
  | .page off => ohvRwSharedSysregs ≤ off ∧ off < ohvRoVer ∧ ¬ Passing off
  | .shadow _ => True
  | .id _ => False

instance (p : RegPlace) : Decidable p.Watched := by
  cases p <;> unfold RegPlace.Watched <;> infer_instance

theorem nv2_place (r : Nv2Reg) (listed : r ∈ kNv2Regs) :
    guestPlace r.enc = some (.page r.ctxOff) := by
  revert r
  decide

/-! ## The frame -/

namespace VcpuView

theorem stored_put (v : VcpuView) (c : Ctx) (p : RegPlace) (off : Nat) (value : Word)
    (elsewhere : p ≠ .page off) :
    (v.setCtx (c.put off value)).stored p = (v.setCtx c).stored p := by
  cases p with
  | page at' =>
      have apart : at' ≠ off := fun same => elsewhere (by rw [same])
      exact (c.word_put off at' value).trans (if_neg apart)
  | shadow i => rfl
  | id slot => rfl

end VcpuView

section Watched

variable {p : RegPlace} (watched : p.Watched)

include watched

theorem RegPlace.Watched.ne_page (off : Nat)
    (outside : off < ohvRwSharedSysregs ∨ Passing off) : p ≠ .page off := by
  rintro rfl
  obtain ⟨above, -, kept⟩ := watched
  rcases outside with below | passing
  · omega
  · exact kept passing

theorem stored_markDirty (v : VcpuView) (c : Ctx) (bits : Word) :
    (v.setCtx (c.markDirty bits)).stored p = (v.setCtx c).stored p :=
  v.stored_put c p _ _ (watched.ne_page _ (Or.inr (by decide)))

theorem stored_record (v : VcpuView) {off : Nat} (elsewhere : p ≠ .page off) (value bits : Word) :
    (v.setCtx ((v.s.ctx.put off value).markDirty bits)).stored p = v.stored p :=
  (stored_markDirty watched v _ bits).trans (v.stored_put v.s.ctx p off value elsewhere)

theorem stored_skip (v : VcpuView) : v.skip.stored p = v.stored p :=
  v.stored_put v.s.ctx p _ _ (watched.ne_page _ (Or.inl (by decide)))

theorem stored_writeRt (v : VcpuView) (rt : BitVec 5) (value : Word) :
    (v.setCtx (v.s.ctx.writeRt rt value)).stored p = v.stored p := by
  unfold Ctx.writeRt
  split
  · rfl
  · refine v.stored_put v.s.ctx p _ _ (watched.ne_page _ (Or.inl ?_))
    have small := rt.isLt
    simp only [ohvRwRegsX0, ohvRwSharedSysregs]
    omega

theorem SameButEmulated.stored {v w : VcpuView} (same : SameButEmulated v w) :
    w.stored p = v.stored p := by
  cases p with
  | page off => exact congrArg (Ctx.word · off) same.ctx
  | shadow i =>
      simp only [VcpuView.stored]
      rw [same.slot]
  | id slot => exact watched.elim

theorem stored_armNv (v : VcpuView) :
    VcpuView.stored { v with s := { v.s.armNv with guestAtEl2 := true } } p = v.stored p := by
  cases p with
  | page off =>
      obtain ⟨-, -, kept⟩ := watched
      have notHcr : off ≠ ohvRwControls := fun hcr => kept (Or.inr (Or.inr (Or.inl hcr)))
      have notFlags : off ≠ ohvRwStateDirty := fun flags =>
        kept (Or.inr (Or.inr (Or.inr (Or.inl flags))))
      exact armNv_word v.s off notHcr notFlags
  | shadow i => rfl
  | id slot => exact watched.elim

end Watched

theorem guarded_place (a : SysAccess) (n : Nat) (guarded : a.IsGuarded n) :
    guestPlace a.enc = some (.page (ohvRwExtregs + n * 8)) := by
  obtain ⟨op0, op1, crn, ⟨crm, op2, rfl⟩ | ⟨crm, ⟨op2, rfl⟩ | ⟨op2, rfl⟩⟩⟩ := guarded
  · rw [a.enc_of_fields op0 op1 crn crm op2]
    rfl
  · rw [a.enc_of_fields op0 op1 crn crm op2]
    rfl
  · rw [a.enc_of_fields op0 op1 crn crm op2]
    rfl

theorem csselr_place (a : SysAccess) (csselr : a.IsCsselr) :
    guestPlace a.enc = some (.page (ohvRwSharedSysregs + 7 * 8)) := by
  obtain ⟨op0, op1, crn, crm, op2⟩ := csselr
  rw [a.enc_of_fields op0 op1 crn crm op2]
  rfl

def timerPlace (physical : Bool) (op2 : BitVec 3) : Option RegPlace :=
  if op2 = 0 ∨ op2 = 2 then
    some (.page (ohvRwBankedSysregs + VcpuSlot.timerCvalIndex physical * 8))
  else if op2 = 1 then
    some (if physical then .shadow ohvShadowCntpCtl else .page (ohvRwBankedSysregs + 18 * 8))
  else none

theorem timer_place (a : SysAccess) (timer : a.IsTimer) :
    guestPlace a.enc = timerPlace (decide (a.crm = 2)) a.op2 := by
  obtain ⟨op0, op1, crn, crm⟩ := timer
  rw [a.enc_of_fields op0 op1 crn rfl rfl]
  generalize a.op2 = op2
  rcases crm with crm | crm
  · rw [crm]
    revert op2
    decide
  · rw [crm]
    revert op2
    decide

/-- An access reaches no watched place but the one of its encoding, and that only
on a write. -/
theorem leaving_edits (a : SysAccess) (p : RegPlace) (watched : p.Watched)
    (other : a.read = false → guestPlace a.enc ≠ some p) (x : Word) :
    a.Edits fun v => v.stored p = x where
  skip v holds := (stored_skip watched v).trans holds
  operand _ v value holds := (stored_writeRt watched v a.rt value).trans holds
  emulated v w holds same := (same.stored watched).trans holds
  handoff _ v holds := (stored_armNv watched v).trans holds
  guarded := by
    intro writes n guarded v value holds
    have elsewhere : p ≠ .page (ohvRwExtregs + n * 8) := by
      rintro rfl
      exact other writes (guarded_place a n guarded)
    exact (stored_record watched v elsewhere value _).trans holds
  csselr := by
    intro writes csselr v value holds
    have elsewhere : p ≠ .page (ohvRwSharedSysregs + 7 * 8) := by
      rintro rfl
      exact other writes (csselr_place a csselr)
    exact (stored_record watched v elsewhere value _).trans holds
  par := by
    intro _ v value holds
    have elsewhere := watched.ne_page (ohvRwSharedSysregs + 6 * 8) (Or.inr (by decide))
    exact (stored_record watched v elsewhere value _).trans holds
  disarm := by
    intro _ _ v holds
    have elsewhere := watched.ne_page (ohvRwBankedSysregs + 19 * 8) (Or.inr (by decide))
    exact (v.stored_put v.s.ctx p _ 0 elsewhere).trans holds
  control := by
    intro writes timer ctl v value holds
    have there := other writes
    rw [timer_place a timer, ctl] at there
    cases physical : decide (a.crm = 2) with
    | true =>
        rw [physical] at there
        rw [← holds]
        cases p with
        | page off => exact stored_markDirty watched v v.s.ctx ohvStateSysregs
        | shadow i =>
            have elsewhere : i ≠ ohvShadowCntpCtl := by
              rintro rfl
              exact there rfl
            exact Function.update_of_ne elsewhere value v.s.el2Shadow
        | id slot => exact watched.elim
    | false =>
        rw [physical] at there
        have elsewhere : p ≠ .page (ohvRwBankedSysregs + 18 * 8) := by
          rintro rfl
          exact there rfl
        exact (stored_record watched v elsewhere value _).trans holds
  compare := by
    intro writes timer op2 v value holds
    have elsewhere : p ≠ .page (ohvRwBankedSysregs +
        VcpuSlot.timerCvalIndex (decide (a.crm = 2)) * 8) := by
      rintro rfl
      apply other writes
      rw [timer_place a timer]
      exact if_pos op2
    exact (stored_record watched v elsewhere value _).trans holds
  el2 := by
    intro writes _ r found v value holds
    obtain ⟨listed, named⟩ := nv2Lookup_row found
    have elsewhere : p ≠ .page r.ctxOff := by
      rintro rfl
      apply other writes
      rw [← named]
      exact nv2_place r listed
    split
    · exact (stored_record watched v elsewhere value _).trans holds
    · exact (v.stored_put v.s.ctx p _ value elsewhere).trans holds

theorem serviceNv2Access_leaves (host : Host) (esr : Word) (v : VcpuView) (p : RegPlace)
    (watched : p.Watched)
    (other : (SysAccess.ofEsr esr).read = false → guestPlace (SysAccess.ofEsr esr).enc ≠ some p) :
    (serviceNv2Access host esr v).2.stored p = v.stored p :=
  serviceNv2Access_keeps host esr v (leaving_edits _ p watched other _) rfl

/-! ## Which block answers -/

/-- The first block that answers decides. -/
theorem serviceNv2Access_decided {host : Host} {esr : Word} {v : VcpuView}
    (front : List AccessBlock) (block : AccessBlock) (rest : List AccessBlock)
    (order : accessBlocks = front ++ block :: rest)
    (silent : ∀ b ∈ front, b host (.ofEsr esr) v = none) {answer : Bool × VcpuView}
    (taken : block host (.ofEsr esr) v = some answer) : serviceNv2Access host esr v = answer := by
  have passed : front.findSome? (fun b => b host (.ofEsr esr) v) = none :=
    List.findSome?_eq_none_iff.mpr silent
  rw [serviceNv2Access, order, List.findSome?_append, passed, Option.none_or,
    List.findSome?_cons, taken, Option.getD_some]

/-- The timers' compare values are kept in the host's counter. -/
def IsCval (enc : BitVec 16) : Prop := enc = 0xdf12 ∨ enc = 0xdf1a

instance (enc : BitVec 16) : Decidable (IsCval enc) := inferInstanceAs (Decidable (_ ∨ _))

/-- An access carried out on a place: a read loads the operand from it, a write
stores the operand there. -/
structure Serves (enc : BitVec 16) (p : RegPlace) (a : SysAccess) (v : VcpuView)
    (answer : Bool × VcpuView) : Prop where
  carried : answer.1 = true
  loads : a.read = true → a.rt ≠ 31 → answer.2.s.ctx.x a.rt.toNat =
    if IsCval enc then v.stored p - v.s.ctx.vtimerOffset else v.stored p
  stores : a.read = false → answer.2.stored p =
    if IsCval enc then v.s.ctx.readRt a.rt + v.s.ctx.vtimerOffset else v.s.ctx.readRt a.rt

theorem Ctx.x_put (c : Ctx) (n off : Nat) (value : Word) (small : n < 31)
    (elsewhere : off < ohvRwRegsX0 ∨ ohvRwPc ≤ off) : (c.put off value).x n = c.x n := by
  simp only [ohvRwRegsX0, ohvRwPc] at elsewhere
  have apart : ohvRwRegsX0 + n * 8 ≠ off := by
    simp only [ohvRwRegsX0]
    omega
  rw [Ctx.x, Ctx.word_put, if_neg apart]
  rfl

theorem rt_small (rt : BitVec 5) (used : rt ≠ 31) : rt.toNat < 31 := by
  have below := rt.isLt
  have other : rt.toNat ≠ 31 := fun same => used (BitVec.eq_of_toNat_eq same)
  omega

theorem registerAccess_serves {enc : BitVec 16} {p : RegPlace} (watched : p.Watched)
    {a : SysAccess} {v base : VcpuView} {value : Word} {write : Word → VcpuView}
    (operand : base.s.ctx.readRt a.rt = v.s.ctx.readRt a.rt)
    (loads : value = if IsCval enc then v.stored p - v.s.ctx.vtimerOffset else v.stored p)
    (stores : ∀ x, (write x).stored p = if IsCval enc then x + v.s.ctx.vtimerOffset else x) :
    ∃ answer, registerAccess a base value write = some answer ∧ Serves enc p a v answer := by
  unfold registerAccess
  cases read : a.read with
  | true =>
      refine ⟨_, rfl, rfl, fun _ used => ?_, fun writes => ?_⟩
      · have small := rt_small a.rt used
        rw [← loads, Ctx.writeRt, if_neg used]
        exact (Ctx.x_put _ _ _ _ small (Or.inr (by decide))).trans
          ((Ctx.word_put _ _ _ _).trans (if_pos rfl))
      · rw [read] at writes
        cases writes
  | false =>
      refine ⟨_, rfl, rfl, fun reads => ?_, fun _ => ?_⟩
      · rw [read] at reads
        cases reads
      · rw [← operand]
        exact (stored_skip watched _).trans (stores _)

/-! ## The register operand -/

theorem readRt_writeRt (c : Ctx) (rt : BitVec 5) (value : Word) :
    (c.writeRt rt value).readRt rt = if rt = 31 then 0 else value := by
  unfold Ctx.readRt Ctx.writeRt
  by_cases zero : rt = 31
  · simp only [if_pos zero]
  · simp only [if_neg zero]
    exact (c.word_put _ _ value).trans (if_pos rfl)

theorem readRt_skip (c : Ctx) (rt : BitVec 5) : c.skip.readRt rt = c.readRt rt := by
  have small := rt.isLt
  unfold Ctx.readRt
  by_cases zero : rt = 31
  · simp only [if_pos zero]
  · have last : rt.toNat ≠ 31 := fun same => zero (BitVec.eq_of_toNat_eq same)
    have apart : ohvRwRegsX0 + rt.toNat * 8 ≠ ohvRwPc := by
      simp only [ohvRwRegsX0, ohvRwPc]
      omega
    simp only [if_neg zero]
    exact (c.word_put _ _ _).trans (if_neg apart)

section Answers

variable {host : Host} {esr : Word} {v : VcpuView}

/-- What the rows of `kNv2Regs` have in common keeps every earlier block silent. -/
theorem nv2Reg_fields (r : Nv2Reg) (listed : r ∈ kNv2Regs) :
    (r.enc.extractLsb' 14 2 = 3#2 ∧ r.enc.extractLsb' 11 3 = 4#3 ∧
      r.enc.extractLsb' 7 4 ≠ 15#4 ∧ r.enc.extractLsb' 3 4 < 8#4) ∧
    ¬ IsCval r.enc ∧ (RegPlace.page r.ctxOff).Watched := by
  revert r
  decide

theorem nv2_decides (r : Nv2Reg) (found : nv2Lookup (SysAccess.ofEsr esr).enc = some r)
    {answer : Bool × VcpuView}
    (taken : registerAccess (.ofEsr esr) v (v.s.ctx.word r.ctxOff) (fun value =>
      v.setCtx (if r.banked then (v.s.ctx.put r.ctxOff value).markDirty ohvStateSysregs
        else v.s.ctx.put r.ctxOff value)) = some answer) :
    serviceNv2Access host esr v = answer := by
  obtain ⟨listed, named⟩ := nv2Lookup_row found
  obtain ⟨⟨first, second, third, fourth⟩, -, -⟩ := nv2Reg_fields r listed
  obtain ⟨op0, op1, crn, crm, -⟩ := (SysAccess.ofEsr esr).fields_of_enc r.enc named.symm
  rw [first] at op0
  rw [second] at op1
  rw [← crn] at third
  rw [← crm] at fourth
  have silent : ∀ b ∈ accessBlocks.dropLast, b host (.ofEsr esr) v = none := by
    intro b member
    simp only [accessBlocks, List.dropLast, List.mem_cons, List.not_mem_nil, or_false] at member
    rcases member with rfl | rfl | rfl | rfl | rfl | rfl | rfl | rfl | rfl | rfl | rfl | rfl |
      rfl | rfl | rfl
    · simp [amxidrAccess, op1]
    · simp [handoffAccess, SysAccess.IsHandoff, op1]
    · simp [gxfAccess, op1]
    · simp [cacheIdAccess, op1]
    · simp [counterAccess, op1]
    · simp [timerAccess, op1]
    · have other : isGicInterfaceReg (.ofEsr esr) = false := by
        have low : ¬ 8#4 ≤ (SysAccess.ofEsr esr).crm := BitVec.not_le.mpr fourth
        simp [isGicInterfaceReg, op1, low]
      simp [gicInterfaceAccess, other]
    · simp [atAccess, op0]
    · simp [maintenanceAccess, op0]
    · simp [pstateAccess, op1]
    · simp [gl2Access, op1]
    · simp [tmrFiqEnaAccess, op1]
    · exact if_neg fun both => third both.2.2.1
    · simp [ctxTraceAccess, op1]
    · have notTen : (SysAccess.ofEsr esr).crm ≠ 10#4 := by
        intro ten
        rw [ten] at fourth
        exact absurd fourth (by decide)
      simp [appleShadowAccess, op1, notTen]
  have order : accessBlocks = accessBlocks.dropLast ++ nv2RegAccess :: [] := rfl
  have answers : nv2RegAccess host (.ofEsr esr) v = some answer := by
    rw [← taken, nv2RegAccess, if_pos ⟨op1, op0⟩, found]
  exact serviceNv2Access_decided _ _ _ order silent answers

theorem nv2_serves (r : Nv2Reg) (found : nv2Lookup (SysAccess.ofEsr esr).enc = some r) :
    Serves (SysAccess.ofEsr esr).enc (.page r.ctxOff) (.ofEsr esr) v
      (serviceNv2Access host esr v) := by
  obtain ⟨listed, named⟩ := nv2Lookup_row found
  obtain ⟨-, noCval, watched⟩ := nv2Reg_fields r listed
  rw [named] at noCval
  have stores : ∀ x, VcpuView.stored (v.setCtx (if r.banked then
      (v.s.ctx.put r.ctxOff x).markDirty ohvStateSysregs else v.s.ctx.put r.ctxOff x))
        (.page r.ctxOff) = x := by
    intro x
    have put : (v.setCtx (v.s.ctx.put r.ctxOff x)).stored (.page r.ctxOff) = x :=
      (v.s.ctx.word_put _ _ x).trans (if_pos rfl)
    split
    · exact (stored_markDirty watched v _ _).trans put
    · exact put
  obtain ⟨answer, taken, serves⟩ := registerAccess_serves (v := v) watched rfl
    (if_neg noCval).symm fun x => (stores x).trans (if_neg noCval).symm
  rw [nv2_decides r found taken]
  exact serves

theorem isCval_fields (a : SysAccess) (cval : IsCval a.enc) : a.op1 = 3 ∧ a.crn = 14 ∧ a.op2 = 2 := by
  rcases cval with named | named
  · obtain ⟨-, op1, crn, -, op2⟩ := a.fields_of_enc _ named
    exact ⟨op1, crn, op2⟩
  · obtain ⟨-, op1, crn, -, op2⟩ := a.fields_of_enc _ named
    exact ⟨op1, crn, op2⟩

theorem gxf_decides (n : Nat) (guarded : (SysAccess.ofEsr esr).IsGuarded n)
    {answer : Bool × VcpuView}
    (taken : registerAccess (.ofEsr esr) v (v.s.ctx.ext n) (fun value =>
      v.setCtx ((v.s.ctx.setExt n value).markDirty ohvStateGxf)) = some answer) :
    serviceNv2Access host esr v = answer := by
  obtain ⟨op0, op1, crn, which⟩ := guarded
  have order : accessBlocks = [amxidrAccess, handoffAccess] ++ gxfAccess :: accessBlocks.drop 3 :=
    rfl
  have answers : gxfAccess host (.ofEsr esr) v = some answer := by
    rw [← taken]
    rcases which with ⟨crm, op2, rfl⟩ | ⟨crm, ⟨op2, rfl⟩ | ⟨op2, rfl⟩⟩
    · simp [gxfAccess, op0, op1, crn, crm, op2]
    · simp [gxfAccess, op0, op1, crn, crm, op2]
    · simp [gxfAccess, op0, op1, crn, crm, op2]
  have silent : ∀ b ∈ [amxidrAccess, handoffAccess], b host (.ofEsr esr) v = none := by
    intro b member
    simp only [List.mem_cons, List.not_mem_nil, or_false] at member
    rcases which with ⟨crm, -⟩ | ⟨crm, -⟩
    · rcases member with rfl | rfl
      · simp [amxidrAccess, crm]
      · simp [handoffAccess, SysAccess.IsHandoff, crm]
    · rcases member with rfl | rfl
      · simp [amxidrAccess, crm]
      · simp [handoffAccess, SysAccess.IsHandoff, crm]
  exact serviceNv2Access_decided _ _ _ order silent answers

theorem gxf_serves (n : Nat) (guarded : (SysAccess.ofEsr esr).IsGuarded n) :
    Serves (SysAccess.ofEsr esr).enc (.page (ohvRwExtregs + n * 8)) (.ofEsr esr) v
      (serviceNv2Access host esr v) := by
  have noCval : ¬ IsCval (SysAccess.ofEsr esr).enc := by
    intro cval
    have timer := (isCval_fields _ cval).1
    rw [guarded.2.1] at timer
    exact absurd timer (by decide)
  have watched : (RegPlace.page (ohvRwExtregs + n * 8)).Watched := by
    rcases guarded.2.2.2 with ⟨-, -, rfl⟩ | ⟨-, ⟨-, rfl⟩ | ⟨-, rfl⟩⟩ <;> decide
  have stores : ∀ x, (v.setCtx ((v.s.ctx.setExt n x).markDirty ohvStateGxf)).stored
      (.page (ohvRwExtregs + n * 8)) = x := by
    intro x
    rw [stored_markDirty watched]
    exact (v.s.ctx.word_put _ _ x).trans (if_pos rfl)
  obtain ⟨answer, taken, serves⟩ := registerAccess_serves (a := SysAccess.ofEsr esr) (v := v)
    watched rfl (if_neg noCval).symm fun x => (stores x).trans (if_neg noCval).symm
  rw [gxf_decides n guarded taken]
  exact serves

/-- The state CSSELR_EL1 is answered in: the capabilities have been asked for. -/
def asked (host : Host) (v : VcpuView) : VcpuView :=
  { v with g := { v.g with nv2Caps := some (v.g.nv2Caps.getD host.caps) } }

theorem csselr_decides (csselr : (SysAccess.ofEsr esr).IsCsselr) {answer : Bool × VcpuView}
    (taken : registerAccess (.ofEsr esr) (asked host v) (v.s.ctx.shared 7) (fun value =>
      (asked host v).setCtx ((v.s.ctx.setShared 7 value).markDirty ohvStateSysregs)) =
        some answer) :
    serviceNv2Access host esr v = answer := by
  obtain ⟨op0, op1, crn, crm, op2⟩ := csselr
  have order : accessBlocks =
      [amxidrAccess, handoffAccess, gxfAccess] ++ cacheIdAccess :: accessBlocks.drop 4 := rfl
  have answers : cacheIdAccess host (.ofEsr esr) v = some answer := by
    rw [← taken]
    simp [cacheIdAccess, asked, op0, op1, crn, crm, op2]
  have silent : ∀ b ∈ [amxidrAccess, handoffAccess, gxfAccess],
      b host (.ofEsr esr) v = none := by
    intro b member
    simp only [List.mem_cons, List.not_mem_nil, or_false] at member
    rcases member with rfl | rfl | rfl
    · simp [amxidrAccess, op1]
    · simp [handoffAccess, SysAccess.IsHandoff, op1]
    · simp [gxfAccess, op1]
  exact serviceNv2Access_decided _ _ _ order silent answers

theorem csselr_serves (named : (SysAccess.ofEsr esr).enc = 0xd000) :
    Serves (SysAccess.ofEsr esr).enc (.page (ohvRwSharedSysregs + 7 * 8)) (.ofEsr esr) v
      (serviceNv2Access host esr v) := by
  obtain ⟨op0, op1, crn, crm, op2⟩ := (SysAccess.ofEsr esr).fields_of_enc _ named
  have noCval : ¬ IsCval (SysAccess.ofEsr esr).enc := by
    rw [named]
    decide
  have watched : (RegPlace.page (ohvRwSharedSysregs + 7 * 8)).Watched := by
    decide
  have stores : ∀ x, ((asked host v).setCtx ((v.s.ctx.setShared 7 x).markDirty
      ohvStateSysregs)).stored (.page (ohvRwSharedSysregs + 7 * 8)) = x := by
    intro x
    rw [stored_markDirty watched]
    exact (v.s.ctx.word_put _ _ x).trans (if_pos rfl)
  have operand : (asked host v).s.ctx.readRt (SysAccess.ofEsr esr).rt =
      v.s.ctx.readRt (SysAccess.ofEsr esr).rt := rfl
  obtain ⟨answer, taken, serves⟩ := registerAccess_serves (v := v) watched operand
    (if_neg noCval).symm fun x => (stores x).trans (if_neg noCval).symm
  rw [csselr_decides ⟨op0, op1, crn, crm, op2⟩ taken]
  exact serves

theorem timer_decides (timer : (SysAccess.ofEsr esr).IsTimer) {answer : Bool × VcpuView}
    (taken : timerAccess host (.ofEsr esr) v = some answer) :
    serviceNv2Access host esr v = answer := by
  obtain ⟨op0, op1, crn, crm⟩ := timer
  have order : accessBlocks = [amxidrAccess, handoffAccess, gxfAccess, cacheIdAccess,
      counterAccess] ++ timerAccess :: accessBlocks.drop 6 := rfl
  have silent : ∀ b ∈ [amxidrAccess, handoffAccess, gxfAccess, cacheIdAccess, counterAccess],
      b host (.ofEsr esr) v = none := by
    intro b member
    simp only [List.mem_cons, List.not_mem_nil, or_false] at member
    rcases member with rfl | rfl | rfl | rfl | rfl
    · simp [amxidrAccess, op1]
    · simp [handoffAccess, SysAccess.IsHandoff, op1]
    · simp [gxfAccess, op1]
    · simp [cacheIdAccess, crn]
    · rcases crm with crm | crm
      · simp [counterAccess, crm]
      · simp [counterAccess, crm]
  exact serviceNv2Access_decided _ _ _ order silent taken

/-- The control and compare registers; the control word of the physical timer is
the one kept in the shadow. -/
theorem timer_serves (timer : (SysAccess.ofEsr esr).IsTimer) (p : RegPlace)
    (op2 : (SysAccess.ofEsr esr).op2 = 1 ∨ (SysAccess.ofEsr esr).op2 = 2)
    (place : guestPlace (SysAccess.ofEsr esr).enc = some p) :
    Serves (SysAccess.ofEsr esr).enc p (.ofEsr esr) v (serviceNv2Access host esr v) := by
  rw [timer_place _ timer] at place
  obtain ⟨op0, op1, crn, crm⟩ := timer
  have cval : IsCval (SysAccess.ofEsr esr).enc ↔ (SysAccess.ofEsr esr).op2 = 2 := by
    refine ⟨fun cval => (isCval_fields _ cval).2.2, fun op2 => ?_⟩
    rw [(SysAccess.ofEsr esr).enc_of_fields op0 op1 crn rfl op2]
    rcases crm with crm | crm
    · rw [crm]
      decide
    · rw [crm]
      decide
  suffices answered : ∃ answer, timerAccess host (.ofEsr esr) v = some answer ∧
      Serves (SysAccess.ofEsr esr).enc p (.ofEsr esr) v answer by
    obtain ⟨answer, taken, serves⟩ := answered
    rw [timer_decides ⟨op0, op1, crn, crm⟩ taken]
    exact serves
  unfold timerAccess
  rw [if_pos ⟨op0, op1, crn, crm⟩]
  simp only
  generalize decide ((SysAccess.ofEsr esr).crm = 2) = physical at place ⊢
  generalize disarmed : (if physical = true then v.setCtx (v.s.ctx.setBanked 19 0) else v) = base
  have word : ∀ off, off ≠ ohvRwBankedSysregs + 19 * 8 →
      base.s.ctx.word off = v.s.ctx.word off := by
    intro off apart
    rw [← disarmed]
    split
    · exact (v.s.ctx.word_put _ off 0).trans (if_neg apart)
    · rfl
  have operand : base.s.ctx.readRt (SysAccess.ofEsr esr).rt =
      v.s.ctx.readRt (SysAccess.ofEsr esr).rt := by
    have small := (SysAccess.ofEsr esr).rt.isLt
    simp only [Ctx.readRt, Ctx.x]
    rw [word]
    simp only [ohvRwRegsX0, ohvRwBankedSysregs]
    omega
  have offset : base.s.ctx.vtimerOffset = v.s.ctx.vtimerOffset := word _ (by decide)
  rcases op2 with ctl | cvalue
  · have noCval : ¬ IsCval (SysAccess.ofEsr esr).enc := by
      rw [cval, ctl]
      decide
    rw [ctl] at place
    have first : (1 : BitVec 3) ≠ 0 := by decide
    rw [ctl, if_neg first, if_pos rfl]
    cases physical with
    | true =>
        obtain rfl : RegPlace.shadow ohvShadowCntpCtl = p := Option.some.inj place
        have watched : (RegPlace.shadow ohvShadowCntpCtl).Watched := trivial
        refine registerAccess_serves watched operand ?_ fun x => ?_
        · rw [if_neg noCval, ← disarmed]
          rfl
        · rw [if_neg noCval]
          exact Function.update_self ohvShadowCntpCtl x base.s.el2Shadow
    | false =>
        obtain rfl : RegPlace.page (ohvRwBankedSysregs + 18 * 8) = p := Option.some.inj place
        have watched : (RegPlace.page (ohvRwBankedSysregs + 18 * 8)).Watched := by decide
        refine registerAccess_serves watched operand ?_ fun x => ?_
        · rw [if_neg noCval, ← disarmed]
          rfl
        · rw [if_neg noCval]
          exact (stored_markDirty watched base _ _).trans
            ((base.s.ctx.word_put _ _ x).trans (if_pos rfl))
  · rw [cvalue] at place
    have second : (2 : BitVec 3) ≠ 0 ∧ (2 : BitVec 3) ≠ 1 := by decide
    rw [cvalue, if_neg second.1, if_neg second.2, if_pos rfl]
    have watched : (RegPlace.page (ohvRwBankedSysregs +
        VcpuSlot.timerCvalIndex physical * 8)).Watched := by
      cases physical <;> decide
    have apart : ohvRwBankedSysregs + VcpuSlot.timerCvalIndex physical * 8 ≠
        ohvRwBankedSysregs + 19 * 8 := by
      cases physical <;> decide
    cases place
    refine registerAccess_serves watched operand ?_ fun x => ?_
    · rw [if_pos (cval.mpr cvalue), offset]
      exact congrArg (· - v.s.ctx.vtimerOffset) (word _ apart)
    · rw [if_pos (cval.mpr cvalue), offset]
      exact (stored_markDirty watched base _ _).trans
        ((base.s.ctx.word_put _ _ _).trans (if_pos rfl))

end Answers

end OpenHypervisor
