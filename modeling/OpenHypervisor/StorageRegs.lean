import OpenHypervisor.GuestView

/-!
# The registers that only store

Most of what is emulated has no effect: a write is kept, a read gets it back.
Some of these registers live in the page, some in the slot, and three banks are
tables filled as registers are named.  Whatever the place, together they are one
register file.
-/

set_option autoImplicit false

namespace OpenHypervisor

/-! ## Places -/

inductive StorageReg where
  | gic (enc : BitVec 16)
  | gl2 (op2 : BitVec 3)
  | tmrFiqEna
  | ctrr (sel : BitVec 8)
  | trace (slot : Nat)
  | apple (enc : BitVec 16)
  | word (off : Nat)
  deriving DecidableEq, Repr

namespace SysAccess

def IsGl2 (a : SysAccess) : Prop := a.op0 = 3 ∧ a.op1 = 6 ∧ a.crn = 15 ∧ a.crm = 11

def IsTmrFiqEna (a : SysAccess) : Prop :=
  a.op0 = 3 ∧ a.op1 = 5 ∧ a.crn = 15 ∧ a.crm = 1 ∧ a.op2 = 3

def IsCtrr (a : SysAccess) : Prop :=
  a.op0 = 3 ∧ a.op1 = 4 ∧ a.crn = 15 ∧
    ((a.crm = 2 ∧ 2 ≤ a.op2 ∧ a.op2 ≤ 5) ∨ (a.crm = 6 ∧ (a.op2 = 4 ∨ a.op2 = 5)))

def ctrrSel (a : SysAccess) : BitVec 8 := (if a.crm = 6 then a.op2 - 1 else a.op2).zeroExtend 8

def IsTrace (a : SysAccess) : Prop :=
  a.op0 = 3 ∧ a.crn = 15 ∧ a.op1 = 5 ∧ ((a.crm = 1 ∧ a.op2 = 4) ∨ (a.crm = 10 ∧ a.op2 = 1))

/-- The encodings at CRn 15 but for the two counters. -/
def IsAppleShadow (a : SysAccess) : Prop :=
  a.op0 = 3 ∧ (a.op1 = 0 ∨ (a.op1 = 4 ∧ a.crm = 10)) ∧ a.crn = 15 ∧
    ¬ (a.op1 = 4 ∧ a.crm = 10 ∧ (a.op2 = 5 ∨ a.op2 = 6))

instance (a : SysAccess) (n : Nat) : Decidable (a.IsGuarded n) := inferInstanceAs (Decidable (_ ∧ _))
instance (a : SysAccess) : Decidable a.IsCsselr := inferInstanceAs (Decidable (_ ∧ _))
instance (a : SysAccess) : Decidable a.IsGl2 := inferInstanceAs (Decidable (_ ∧ _))
instance (a : SysAccess) : Decidable a.IsTmrFiqEna := inferInstanceAs (Decidable (_ ∧ _))
instance (a : SysAccess) : Decidable a.IsCtrr := inferInstanceAs (Decidable (_ ∧ _))
instance (a : SysAccess) : Decidable a.IsTrace := inferInstanceAs (Decidable (_ ∧ _))
instance (a : SysAccess) : Decidable a.IsAppleShadow := inferInstanceAs (Decidable (_ ∧ _))

/-- The storage an access is about. -/
def storage (a : SysAccess) : Option StorageReg :=
  if isGicInterfaceReg a then some (.gic a.enc)
  else if a.IsGl2 then some (.gl2 a.op2)
  else if a.IsTmrFiqEna then some .tmrFiqEna
  else if a.IsCtrr then some (.ctrr a.ctrrSel)
  else if a.IsTrace then some (.trace (if a.crm = 1 then 0 else 1))
  else if a.IsAppleShadow then some (.apple a.enc)
  else if a.IsCsselr then some (.word (ohvRwSharedSysregs + 7 * 8))
  else match [42, 43, 44].find? fun n => decide (a.IsGuarded n) with
    | some n => some (.word (ohvRwExtregs + n * 8))
    | none => (nv2Lookup a.enc).map fun r => .word r.ctxOff

end SysAccess

/-- `gic_if_slot`'s table as the next access finds it. -/
def gicFile (s : VcpuSlot) : RegFile (BitVec 16) Word :=
  if s.gicIfReady then s.gicIf else [(0xc665#16, 7#64)]

theorem gicIfReady_slot (s : VcpuSlot) :
    gicIfReady s = { s with gicIfReady := true, gicIf := gicFile s } := by
  unfold gicIfReady gicFile
  split
  · rename_i ready
    rw [← ready]
  · rfl

namespace VcpuView

/-- What a register of the file holds. -/
def holds (v : VcpuView) : StorageReg → Word
  | .gic enc => ((gicFile v.s).get enc).getD 0
  | .gl2 op2 => v.s.gl2Bank op2.toNat
  | .tmrFiqEna => v.s.vmTmrFiqEna
  | .ctrr sel => (RegFile.get v.s.ctrr sel).getD 0
  | .trace slot => v.s.ctxTrace slot
  | .apple enc => (RegFile.get v.s.appleShadow enc).getD 0
  | .word off => v.s.ctx.word off

/-- Only the three tables can be short of room. -/
def HasRoom (v : VcpuView) : StorageReg → Prop
  | .gic enc => RegFile.Room 48 (gicFile v.s) enc
  | .ctrr sel => RegFile.Room 6 v.s.ctrr sel
  | .apple enc => RegFile.Room 96 v.s.appleShadow enc
  | _ => True

def HasRow (v : VcpuView) : StorageReg → Prop
  | .gic enc => ((gicFile v.s).get enc).isSome
  | .ctrr sel => (RegFile.get v.s.ctrr sel).isSome
  | .apple enc => (RegFile.get v.s.appleShadow enc).isSome
  | _ => True

theorem HasRow.room {v : VcpuView} {reg : StorageReg} (row : v.HasRow reg) : v.HasRoom reg := by
  cases reg with
  | gic enc => exact Or.inl row
  | ctrr sel => exact Or.inl row
  | apple enc => exact Or.inl row
  | _ => trivial

/-- No table has lost a row, and none that was full has room. -/
structure Grown (before after : VcpuView) : Prop where
  gic : RegFile.Grows 48 (gicFile before.s) (gicFile after.s)
  ctrr : RegFile.Grows 6 before.s.ctrr after.s.ctrr
  apple : RegFile.Grows 96 before.s.appleShadow after.s.appleShadow

namespace Grown

variable {first second third : VcpuView}

theorem refl (v : VcpuView) : Grown v v := ⟨.refl _, .refl _, .refl _⟩

theorem trans (left : Grown first second) (right : Grown second third) : Grown first third :=
  ⟨left.gic.trans right.gic, left.ctrr.trans right.ctrr, left.apple.trans right.apple⟩

theorem row (grown : Grown first second) {reg : StorageReg} (row : first.HasRow reg) :
    second.HasRow reg := by
  cases reg with
  | gic enc => exact grown.gic.rows enc row
  | ctrr sel => exact grown.ctrr.rows sel row
  | apple enc => exact grown.apple.rows enc row
  | _ => trivial

theorem room (grown : Grown first second) {reg : StorageReg} (room : second.HasRoom reg) :
    first.HasRoom reg := by
  cases reg with
  | gic enc => exact grown.gic.room enc room
  | ctrr sel => exact grown.ctrr.room sel room
  | apple enc => exact grown.apple.room enc room
  | _ => trivial

end Grown

end VcpuView

/-- A word of the page that no access writes in passing. -/
def StorageReg.Kept : StorageReg → Prop
  | .word off => ohvRwSharedSysregs ≤ off ∧ off ≠ ohvRwStateDirty
  | _ => True

theorem VcpuView.holds_of_general {v : VcpuView} {c : Ctx} {reg : StorageReg} (kept : reg.Kept)
    (same : ∀ off, ohvRwSharedSysregs ≤ off → c.word off = v.s.ctx.word off) :
    (v.setCtx c).holds reg = v.holds reg := by
  cases reg with
  | word off => exact same off kept.1
  | _ => rfl

/-! ## One access -/

/-- An access of a register of the file: carried out if it has room, and then a
read gets what the register holds, a write puts the operand there, and no other
register is touched. -/
structure ActsOn (a : SysAccess) (reg : StorageReg) (v : VcpuView) (answer : Bool × VcpuView) :
    Prop where
  carried : answer.1 = true ↔ v.HasRoom reg
  loads : answer.1 = true → a.read = true → a.rt ≠ 31 →
    answer.2.s.ctx.x a.rt.toNat = v.holds reg
  holds : ∀ r : StorageReg, r.Kept → answer.2.holds r =
    if answer.1 = true ∧ a.read = false ∧ r = reg then v.s.ctx.readRt a.rt else v.holds r
  row : answer.1 = true → answer.2.HasRow reg
  grown : v.Grown answer.2

section Acts

variable {a : SysAccess} {reg : StorageReg} {v base : VcpuView}

theorem Ctx.word_skip (c : Ctx) (off : Nat) (above : ohvRwSharedSysregs ≤ off) :
    c.skip.word off = c.word off := by
  have apart : off ≠ ohvRwPc := by
    simp only [ohvRwSharedSysregs] at above
    simp only [ohvRwPc]
    omega
  exact (c.word_put _ _ _).trans (if_neg apart)

theorem Ctx.word_writeRt (c : Ctx) (rt : BitVec 5) (value : Word) (off : Nat)
    (above : ohvRwSharedSysregs ≤ off) : (c.writeRt rt value).word off = c.word off := by
  unfold Ctx.writeRt
  split
  · rfl
  · have small := rt.isLt
    have apart : off ≠ ohvRwRegsX0 + rt.toNat * 8 := by
      simp only [ohvRwSharedSysregs] at above
      simp only [ohvRwRegsX0]
      omega
    exact (c.word_put _ _ _).trans (if_neg apart)

theorem refused_actsOn (full : ¬ v.HasRoom reg) : ActsOn a reg v (false, v) where
  carried := iff_of_false Bool.false_ne_true full
  loads carried := by cases carried
  holds _ _ := by rw [if_neg fun both => Bool.false_ne_true both.1]
  row carried := by cases carried
  grown := .refl v

theorem registerAccess_actsOn {value : Word} {write : Word → VcpuView}
    (room : v.HasRoom reg) (row : base.HasRow reg) (grown : v.Grown base)
    (operand : base.s.ctx = v.s.ctx) (same : ∀ r : StorageReg, r.Kept → base.holds r = v.holds r)
    (loads : value = v.holds reg)
    (written : ∀ x, ∀ r : StorageReg, r.Kept →
      (write x).holds r = if r = reg then x else v.holds r)
    (later : ∀ x, base.Grown (write x)) :
    ∃ answer, registerAccess a base value write = some answer ∧ ActsOn a reg v answer := by
  unfold registerAccess
  cases read : a.read with
  | true =>
      refine ⟨_, rfl, ⟨iff_of_true rfl room, fun _ _ used => ?_, fun r kept => ?_,
        fun _ => ?_, ?_⟩⟩
      · have small := rt_small a.rt used
        rw [← loads, Ctx.writeRt, if_neg used]
        exact (Ctx.x_put _ _ _ _ small (Or.inr (by decide))).trans
          ((Ctx.word_put _ _ _ _).trans (if_pos rfl))
      · have reading : ¬ (true = true ∧ a.read = false ∧ r = reg) := by
          rintro ⟨-, writes, -⟩
          rw [read] at writes
          cases writes
        rw [if_neg reading, ← same r kept]
        refine VcpuView.holds_of_general (v := base)
          (c := (base.s.ctx.writeRt a.rt value).skip) kept ?_
        intro off above
        exact (Ctx.word_skip _ off above).trans (Ctx.word_writeRt _ _ _ off above)
      · cases reg with
        | gic enc => exact row
        | ctrr sel => exact row
        | apple enc => exact row
        | _ => trivial
      · exact ⟨grown.gic, grown.ctrr, grown.apple⟩
  | false =>
      have stepped := grown.trans (later (base.s.ctx.readRt a.rt))
      refine ⟨_, rfl, ⟨iff_of_true rfl room, fun _ reads => ?_, fun r kept => ?_,
        fun _ => ?_, ⟨stepped.gic, stepped.ctrr, stepped.apple⟩⟩⟩
      · rw [read] at reads
        cases reads
      · have past : (write (base.s.ctx.readRt a.rt)).skip.holds r =
            (write (base.s.ctx.readRt a.rt)).holds r :=
          VcpuView.holds_of_general (v := write (base.s.ctx.readRt a.rt)) kept
            fun off above => Ctx.word_skip _ off above
        rw [past, written _ r kept, operand]
        by_cases here : r = reg
        · rw [if_pos here, if_pos ⟨rfl, read, here⟩]
        · rw [if_neg here, if_neg fun both => here both.2.2]
      · have still := (later (base.s.ctx.readRt a.rt)).row row
        cases reg with
        | gic enc => exact still
        | ctrr sel => exact still
        | apple enc => exact still
        | _ => trivial

/-- A register of its own: in the slot, or a word of the page. -/
theorem plain_actsOn (base : VcpuView) (reg : StorageReg) {value : Word}
    {write : Word → VcpuView} (room : ∀ w : VcpuView, w.HasRow reg)
    (slot : base.s = v.s) (loads : value = v.holds reg)
    (written : ∀ x, ∀ r : StorageReg, r.Kept →
      (write x).holds r = if r = reg then x else v.holds r)
    (later : ∀ x, base.Grown (write x)) :
    ∃ answer, registerAccess a base value write = some answer ∧ ActsOn a reg v answer := by
  have same : ∀ r : StorageReg, base.holds r = v.holds r := by
    intro r
    cases r <;> simp only [VcpuView.holds, slot]
  have grown : v.Grown base := by
    constructor
    · rw [slot]
      exact .refl _
    · rw [slot]
      exact .refl _
    · rw [slot]
      exact .refl _
  exact registerAccess_actsOn (room v).room (room base) grown (by rw [slot]) (fun r _ => same r)
    loads written later

/-- A register of one of the tables. -/
theorem file_actsOn {κ : Type} [DecidableEq κ] (capacity : Nat) (file : RegFile κ Word)
    (put : RegFile κ Word → VcpuView) (name : κ → StorageReg) (key : κ)
    (injective : ∀ k l, name k = name l → k = l)
    (same : ∀ f, ∀ r : StorageReg, (∀ k, r ≠ name k) → (put f).holds r = v.holds r)
    (mine : ∀ f k, (put f).holds (name k) = (f.get k).getD 0)
    (now : ∀ k, v.holds (name k) = (file.get k).getD 0)
    (room : v.HasRoom (name key) ↔ RegFile.Room capacity file key)
    (row : ∀ f : RegFile κ Word, (f.get key).isSome → (put f).HasRow (name key))
    (ctx : ∀ f, (put f).s.ctx = v.s.ctx)
    (start : ∀ f, RegFile.Grows capacity file f → v.Grown (put f))
    (later : ∀ f g, RegFile.Grows capacity f g → (put f).Grown (put g)) :
    ∃ answer, (match RegFile.alloc capacity file key 0 with
      | none => refused v
      | some grown => registerAccess a (put grown) ((grown.get key).getD 0)
          fun value => put (grown.set key value)) = some answer ∧
      ActsOn a (name key) v answer := by
  cases given : RegFile.alloc capacity file key 0 with
  | none =>
      refine ⟨_, rfl, refused_actsOn ?_⟩
      rw [room]
      exact RegFile.alloc_none_iff.mp given
  | some grown =>
      have read : ∀ r : StorageReg, (put grown).holds r = v.holds r := by
        intro r
        by_cases named : ∃ k, r = name k
        · obtain ⟨k, rfl⟩ := named
          rw [mine, now, RegFile.getD_alloc given]
        · exact same grown r fun k there => named ⟨k, there⟩
      refine registerAccess_actsOn (room.mpr (RegFile.room_alloc given))
        (row grown (RegFile.row_alloc given)) (start grown (RegFile.grows_alloc given))
        (ctx grown) (fun r _ => read r) ?_ (fun x r _ => ?_)
        fun x => later _ _ (RegFile.grows_set grown key x)
      · rw [← read, mine]
      · by_cases named : ∃ k, r = name k
        · obtain ⟨k, rfl⟩ := named
          rw [mine, now, RegFile.getD_set given]
          by_cases here : k = key
          · rw [if_pos here, if_pos (congrArg name here)]
          · rw [if_neg here, if_neg fun there => here (injective _ _ there)]
        · rw [if_neg fun there => named ⟨key, there⟩]
          exact same _ r fun k there => named ⟨k, there⟩

end Acts

/-! ## Which block answers -/

section Answers

variable {host : Host} {esr : Word} {v : VcpuView}

/-- The blocks that ask for another op0 or CRn. -/
theorem silent_of_crn15 {a : SysAccess} (op0 : a.op0 = 3) (crn : a.crn = 15) :
    ∀ b ∈ [cacheIdAccess, counterAccess, timerAccess, gicInterfaceAccess, atAccess,
      maintenanceAccess, pstateAccess], b host a v = none := by
  intro b member
  simp only [List.mem_cons, List.not_mem_nil, or_false] at member
  rcases member with rfl | rfl | rfl | rfl | rfl | rfl | rfl
  · simp [cacheIdAccess, crn]
  · simp [counterAccess, crn]
  · simp [timerAccess, crn]
  · simp [gicInterfaceAccess, isGicInterfaceReg, crn]
  · simp [atAccess, op0]
  · simp [maintenanceAccess, op0]
  · simp [pstateAccess, crn]

/-- The blocks of op1 6. -/
theorem silent_of_op1 (host : Host) (v : VcpuView) {a : SysAccess} (op1 : a.op1 ≠ 6) :
    ∀ b ∈ [amxidrAccess, handoffAccess, gxfAccess, gl2Access], b host a v = none := by
  intro b member
  simp only [List.mem_cons, List.not_mem_nil, or_false] at member
  rcases member with rfl | rfl | rfl | rfl
  · exact if_neg fun both => op1 both.2.1
  · exact if_neg fun both => op1 both.2.1
  · exact if_neg fun both => op1 both.2.1
  · exact if_neg fun both => op1 both.2.1

theorem gicInterface_fields {a : SysAccess} (gic : isGicInterfaceReg a = true) :
    a.op0 = 3 ∧ (a.op1 = 0 ∨ a.op1 = 4) ∧ (a.crn = 12 ∨ a.crn = 4) := by
  simp only [isGicInterfaceReg, Bool.and_eq_true, Bool.or_eq_true, decide_eq_true_eq] at gic
  rcases gic with ⟨op0, ⟨crn, op1, -⟩ | ⟨crn, op1, -⟩⟩
  · exact ⟨op0, op1, Or.inl crn⟩
  · exact ⟨op0, Or.inl op1, Or.inr crn⟩

theorem gic_decides (gic : isGicInterfaceReg (.ofEsr esr) = true) {answer : Bool × VcpuView}
    (taken : gicInterfaceAccess host (.ofEsr esr) v = some answer) :
    serviceNv2Access host esr v = answer := by
  obtain ⟨-, op1, crn⟩ := gicInterface_fields gic
  have order : accessBlocks = [amxidrAccess, handoffAccess, gxfAccess, cacheIdAccess,
      counterAccess, timerAccess] ++ gicInterfaceAccess :: accessBlocks.drop 7 := rfl
  apply serviceNv2Access_decided _ _ _ order ?_ taken
  intro b member
  simp only [List.mem_cons, List.not_mem_nil, or_false] at member
  have other : (SysAccess.ofEsr esr).op1 ≠ 6 ∧ (SysAccess.ofEsr esr).op1 ≠ 3 := by
    rcases op1 with op1 | op1 <;> rw [op1] <;> decide
  have early := silent_of_op1 host v other.1
  rcases member with rfl | rfl | rfl | rfl | rfl | rfl
  · exact early _ (by simp)
  · exact early _ (by simp)
  · exact early _ (by simp)
  · rcases crn with crn | crn
    · simp [cacheIdAccess, crn]
    · simp [cacheIdAccess, crn]
  · exact if_neg fun both => other.2 both.2.1
  · exact if_neg fun both => other.2 both.2.1

theorem gl2_decides (gl2 : (SysAccess.ofEsr esr).IsGl2) {answer : Bool × VcpuView}
    (taken : gl2Access host (.ofEsr esr) v = some answer) :
    serviceNv2Access host esr v = answer := by
  obtain ⟨op0, op1, crn, crm⟩ := gl2
  have order : accessBlocks = [amxidrAccess, handoffAccess, gxfAccess] ++ [cacheIdAccess,
      counterAccess, timerAccess, gicInterfaceAccess, atAccess, maintenanceAccess,
      pstateAccess] ++ gl2Access :: accessBlocks.drop 11 := rfl
  apply serviceNv2Access_decided _ _ _ order ?_ taken
  intro b member
  rcases List.mem_append.mp member with member | member
  · simp only [List.mem_cons, List.not_mem_nil, or_false] at member
    rcases member with rfl | rfl | rfl
    · simp [amxidrAccess, crm]
    · simp [handoffAccess, SysAccess.IsHandoff, crm]
    · simp [gxfAccess, crm]
  · exact silent_of_crn15 op0 crn b member

/-- The blocks behind the guarded bank, under another op1. -/
theorem decided_behind_gl2 (front : List AccessBlock) (block : AccessBlock)
    (rest : List AccessBlock)
    (order : accessBlocks = [amxidrAccess, handoffAccess, gxfAccess] ++ [cacheIdAccess,
      counterAccess, timerAccess, gicInterfaceAccess, atAccess, maintenanceAccess,
      pstateAccess] ++ gl2Access :: front ++ block :: rest)
    (op0 : (SysAccess.ofEsr esr).op0 = 3) (op1 : (SysAccess.ofEsr esr).op1 ≠ 6)
    (crn : (SysAccess.ofEsr esr).crn = 15)
    (silent : ∀ b ∈ front, b host (.ofEsr esr) v = none) {answer : Bool × VcpuView}
    (taken : block host (.ofEsr esr) v = some answer) : serviceNv2Access host esr v = answer := by
  apply serviceNv2Access_decided _ _ _ order ?_ taken
  intro b member
  have early := silent_of_op1 host v op1
  rcases List.mem_append.mp member with member | member
  · rcases List.mem_append.mp member with member | member
    · simp only [List.mem_cons, List.not_mem_nil, or_false] at member
      rcases member with rfl | rfl | rfl
      · exact early _ (by simp)
      · exact early _ (by simp)
      · exact early _ (by simp)
    · exact silent_of_crn15 op0 crn b member
  · rcases List.mem_cons.mp member with rfl | member
    · exact early _ (by simp)
    · exact silent b member

theorem tmrFiqEna_decides (ena : (SysAccess.ofEsr esr).IsTmrFiqEna) {answer : Bool × VcpuView}
    (taken : tmrFiqEnaAccess host (.ofEsr esr) v = some answer) :
    serviceNv2Access host esr v = answer := by
  obtain ⟨op0, op1, crn, -, -⟩ := ena
  have other : (SysAccess.ofEsr esr).op1 ≠ 6 := by
    rw [op1]
    decide
  exact decided_behind_gl2 [] tmrFiqEnaAccess (accessBlocks.drop 12) rfl op0 other crn nofun taken

theorem ctrr_decides (ctrr : (SysAccess.ofEsr esr).IsCtrr) {answer : Bool × VcpuView}
    (taken : ctrrAccess host (.ofEsr esr) v = some answer) :
    serviceNv2Access host esr v = answer := by
  obtain ⟨op0, op1, crn, -⟩ := ctrr
  have other : (SysAccess.ofEsr esr).op1 ≠ 6 := by
    rw [op1]
    decide
  apply decided_behind_gl2 [tmrFiqEnaAccess] ctrrAccess (accessBlocks.drop 13) rfl op0 other crn
    ?_ taken
  intro b member
  rw [List.mem_singleton] at member
  subst member
  simp [tmrFiqEnaAccess, op1]

theorem trace_decides (trace : (SysAccess.ofEsr esr).IsTrace) {answer : Bool × VcpuView}
    (taken : ctxTraceAccess host (.ofEsr esr) v = some answer) :
    serviceNv2Access host esr v = answer := by
  obtain ⟨op0, crn, op1, which⟩ := trace
  have other : (SysAccess.ofEsr esr).op1 ≠ 6 := by
    rw [op1]
    decide
  apply decided_behind_gl2 [tmrFiqEnaAccess, ctrrAccess] ctxTraceAccess (accessBlocks.drop 14) rfl
    op0 other crn ?_ taken
  intro b member
  simp only [List.mem_cons, List.not_mem_nil, or_false] at member
  rcases member with rfl | rfl
  · rcases which with ⟨-, op2⟩ | ⟨crm, -⟩
    · simp [tmrFiqEnaAccess, op2]
    · simp [tmrFiqEnaAccess, crm]
  · simp [ctrrAccess, op1]

theorem apple_decides (apple : (SysAccess.ofEsr esr).IsAppleShadow) {answer : Bool × VcpuView}
    (taken : appleShadowAccess host (.ofEsr esr) v = some answer) :
    serviceNv2Access host esr v = answer := by
  obtain ⟨op0, which, crn, -⟩ := apple
  have other : (SysAccess.ofEsr esr).op1 ≠ 6 ∧ (SysAccess.ofEsr esr).op1 ≠ 5 := by
    rcases which with op1 | ⟨op1, -⟩ <;> rw [op1] <;> decide
  apply decided_behind_gl2 [tmrFiqEnaAccess, ctrrAccess, ctxTraceAccess] appleShadowAccess
    (accessBlocks.drop 15) rfl op0 other.1 crn ?_ taken
  intro b member
  simp only [List.mem_cons, List.not_mem_nil, or_false] at member
  rcases member with rfl | rfl | rfl
  · exact if_neg fun both => other.2 both.2.1
  · rcases which with op1 | ⟨op1, crm⟩
    · simp [ctrrAccess, op1]
    · simp [ctrrAccess, crm]
  · exact if_neg fun both => other.2 both.2.2.1

end Answers

/-! ## What each access does -/

section Storage

variable {host : Host} {esr : Word} {v : VcpuView}

theorem gic_actsOn (gic : isGicInterfaceReg (.ofEsr esr) = true) :
    ActsOn (.ofEsr esr) (.gic (SysAccess.ofEsr esr).enc) v (serviceNv2Access host esr v) := by
  obtain ⟨answer, taken, acts⟩ := file_actsOn (a := .ofEsr esr) (v := v) 48 (gicFile v.s)
    (fun file => { v with s := { v.s with gicIfReady := true, gicIf := file } }) .gic
    (SysAccess.ofEsr esr).enc
    (fun _ _ same => StorageReg.gic.inj same)
    (fun f r other => by cases r with
      | gic enc => exact absurd rfl (other enc)
      | _ => rfl)
    (fun _ _ => rfl) (fun _ => rfl) Iff.rfl (fun _ row => row) (fun _ => rfl)
    (fun _ grows => ⟨grows, .refl _, .refl _⟩) fun _ _ grows => ⟨grows, .refl _, .refl _⟩
  have answers : gicInterfaceAccess host (.ofEsr esr) v = some answer := by
    rw [← taken, gicInterfaceAccess, if_pos gic]
    simp only [gicIfReady_slot]
    cases given : RegFile.alloc 48 (gicFile v.s) (SysAccess.ofEsr esr).enc 0 with
    | some file => rfl
    | none =>
        have short : RegFile.alloc 48 (gicIfReady v.s).gicIf (SysAccess.ofEsr esr).enc 0 =
            none := by
          rw [gicIfReady_slot]
          exact given
        have full := gicIfReady_of_full short
        rw [gicIfReady_slot] at full
        simp only [full]
  rw [gic_decides gic answers]
  exact acts

theorem ctrr_actsOn (ctrr : (SysAccess.ofEsr esr).IsCtrr) :
    ActsOn (.ofEsr esr) (.ctrr (SysAccess.ofEsr esr).ctrrSel) v (serviceNv2Access host esr v) := by
  obtain ⟨answer, taken, acts⟩ := file_actsOn (a := .ofEsr esr) (v := v) 6 v.s.ctrr
    (fun file => { v with s := { v.s with ctrr := file } }) .ctrr
    (SysAccess.ofEsr esr).ctrrSel
    (fun _ _ same => StorageReg.ctrr.inj same)
    (fun f r other => by cases r with
      | ctrr sel => exact absurd rfl (other sel)
      | _ => rfl)
    (fun _ _ => rfl) (fun _ => rfl) Iff.rfl (fun _ row => row) (fun _ => rfl)
    (fun _ grows => ⟨.refl _, grows, .refl _⟩) fun _ _ grows => ⟨.refl _, grows, .refl _⟩
  have answers : ctrrAccess host (.ofEsr esr) v = some answer := by
    rw [← taken]
    refine (if_pos ctrr).trans ?_
    simp only [SysAccess.ctrrSel]
    split
    · rename_i full
      rw [full]
    · rename_i file given
      rw [given]
  rw [ctrr_decides ctrr answers]
  exact acts

theorem apple_actsOn (apple : (SysAccess.ofEsr esr).IsAppleShadow) :
    ActsOn (.ofEsr esr) (.apple (SysAccess.ofEsr esr).enc) v (serviceNv2Access host esr v) := by
  obtain ⟨answer, taken, acts⟩ := file_actsOn (a := .ofEsr esr) (v := v) 96 v.s.appleShadow
    (fun file => { v with s := { v.s with appleShadow := file } }) .apple
    (SysAccess.ofEsr esr).enc
    (fun _ _ same => StorageReg.apple.inj same)
    (fun f r other => by cases r with
      | apple enc => exact absurd rfl (other enc)
      | _ => rfl)
    (fun _ _ => rfl) (fun _ => rfl) Iff.rfl (fun _ row => row) (fun _ => rfl)
    (fun _ grows => ⟨.refl _, .refl _, grows⟩) fun _ _ grows => ⟨.refl _, .refl _, grows⟩
  have answers : appleShadowAccess host (.ofEsr esr) v = some answer := by
    obtain ⟨op0, which, crn, noCounter⟩ := apple
    rw [← taken, appleShadowAccess, if_pos ⟨op0, which⟩, if_neg noCounter,
      if_neg (not_not.mpr crn)]
    split
    · rename_i full
      rw [full]
    · rename_i file given
      rw [given]
  rw [apple_decides apple answers]
  exact acts

theorem gl2_actsOn (gl2 : (SysAccess.ofEsr esr).IsGl2) :
    ActsOn (.ofEsr esr) (.gl2 (SysAccess.ofEsr esr).op2) v (serviceNv2Access host esr v) := by
  have written : ∀ x, ∀ r : StorageReg, r.Kept →
      VcpuView.holds { v with s := { v.s with
        gl2Bank := Function.update v.s.gl2Bank (SysAccess.ofEsr esr).op2.toNat x } } r =
        if r = .gl2 (SysAccess.ofEsr esr).op2 then x else v.holds r := by
    intro x r _
    cases r with
    | gl2 op2 =>
        by_cases here : op2 = (SysAccess.ofEsr esr).op2
        · subst here
          rw [if_pos rfl]
          exact Function.update_self (SysAccess.ofEsr esr).op2.toNat x v.s.gl2Bank
        · rw [if_neg fun same => here (StorageReg.gl2.inj same)]
          exact Function.update_of_ne (fun same => here (BitVec.eq_of_toNat_eq same)) x v.s.gl2Bank
    | _ => exact (if_neg nofun).symm
  obtain ⟨answer, taken, acts⟩ := plain_actsOn (a := .ofEsr esr) (v := v) v
    (.gl2 (SysAccess.ofEsr esr).op2) (fun _ => trivial) rfl rfl written
    fun _ => ⟨.refl _, .refl _, .refl _⟩
  have answers : gl2Access host (.ofEsr esr) v = some answer := by
    rw [← taken]
    exact if_pos gl2
  rw [gl2_decides gl2 answers]
  exact acts

theorem tmrFiqEna_actsOn (ena : (SysAccess.ofEsr esr).IsTmrFiqEna) :
    ActsOn (.ofEsr esr) .tmrFiqEna v (serviceNv2Access host esr v) := by
  have written : ∀ x, ∀ r : StorageReg, r.Kept →
      VcpuView.holds { v with s := { v.s with vmTmrFiqEna := x } } r =
        if r = .tmrFiqEna then x else v.holds r := by
    intro x r _
    cases r with
    | tmrFiqEna => exact (if_pos rfl).symm
    | _ => exact (if_neg nofun).symm
  obtain ⟨answer, taken, acts⟩ := plain_actsOn (a := .ofEsr esr) (v := v) v
    .tmrFiqEna (fun _ => trivial) rfl rfl written fun _ => ⟨.refl _, .refl _, .refl _⟩
  have answers : tmrFiqEnaAccess host (.ofEsr esr) v = some answer := by
    rw [← taken]
    exact if_pos ena
  rw [tmrFiqEna_decides ena answers]
  exact acts

theorem trace_actsOn (trace : (SysAccess.ofEsr esr).IsTrace) :
    ActsOn (.ofEsr esr) (.trace (if (SysAccess.ofEsr esr).crm = 1 then 0 else 1)) v
      (serviceNv2Access host esr v) := by
  generalize which : (if (SysAccess.ofEsr esr).crm = 1 then 0 else 1) = slot
  have written : ∀ x, ∀ r : StorageReg, r.Kept →
      VcpuView.holds { v with s := { v.s with
        ctxTrace := Function.update v.s.ctxTrace slot x } } r =
        if r = .trace slot then x else v.holds r := by
    intro x r _
    cases r with
    | trace n =>
        by_cases here : n = slot
        · subst here
          rw [if_pos rfl]
          exact Function.update_self n x v.s.ctxTrace
        · rw [if_neg fun same => here (StorageReg.trace.inj same)]
          exact Function.update_of_ne here x v.s.ctxTrace
    | _ => exact (if_neg nofun).symm
  obtain ⟨answer, taken, acts⟩ := plain_actsOn (a := .ofEsr esr) (v := v) v
    (.trace slot) (fun _ => trivial) rfl rfl written fun _ => ⟨.refl _, .refl _, .refl _⟩
  have answers : ctxTraceAccess host (.ofEsr esr) v = some answer := by
    rw [← taken]
    refine (if_pos trace).trans ?_
    simp only [which]
    rfl
  rw [trace_decides trace answers]
  exact acts

/-! Of the words of the page the flags are no register. -/

theorem holds_put (v : VcpuView) (off : Nat) (x : Word) (r : StorageReg) :
    (v.setCtx (v.s.ctx.put off x)).holds r = if r = .word off then x else v.holds r := by
  cases r with
  | word at' =>
      refine (v.s.ctx.word_put off at' x).trans ?_
      by_cases here : at' = off
      · rw [if_pos here, if_pos (congrArg _ here)]
      · rw [if_neg here, if_neg fun same => here (StorageReg.word.inj same)]
        rfl
  | _ => exact (if_neg nofun).symm

theorem holds_markDirty (v : VcpuView) (c : Ctx) (bits : Word) (r : StorageReg) (kept : r.Kept) :
    (v.setCtx (c.markDirty bits)).holds r = (v.setCtx c).holds r := by
  cases r with
  | word off => exact (c.word_put _ off _).trans (if_neg kept.2)
  | _ => rfl

theorem csselr_actsOn (csselr : (SysAccess.ofEsr esr).IsCsselr) :
    ActsOn (.ofEsr esr) (.word (ohvRwSharedSysregs + 7 * 8)) v
      (serviceNv2Access host esr v) := by
  have written : ∀ x, ∀ r : StorageReg, r.Kept → ((asked host v).setCtx
      ((v.s.ctx.setShared 7 x).markDirty ohvStateSysregs)).holds r =
        if r = .word (ohvRwSharedSysregs + 7 * 8) then x else v.holds r := by
    intro x r kept
    rw [holds_markDirty _ _ _ r kept]
    exact holds_put v _ x r
  obtain ⟨answer, taken, acts⟩ := plain_actsOn (a := .ofEsr esr) (v := v) (asked host v)
    (.word (ohvRwSharedSysregs + 7 * 8)) (fun _ => trivial) rfl rfl written
    fun _ => ⟨.refl _, .refl _, .refl _⟩
  rw [csselr_decides csselr taken]
  exact acts

theorem gxf_actsOn (n : Nat) (guarded : (SysAccess.ofEsr esr).IsGuarded n) :
    ActsOn (.ofEsr esr) (.word (ohvRwExtregs + n * 8)) v (serviceNv2Access host esr v) := by
  have written : ∀ x, ∀ r : StorageReg, r.Kept →
      (v.setCtx ((v.s.ctx.setExt n x).markDirty ohvStateGxf)).holds r =
        if r = .word (ohvRwExtregs + n * 8) then x else v.holds r := by
    intro x r kept
    rw [holds_markDirty _ _ _ r kept]
    exact holds_put v _ x r
  obtain ⟨answer, taken, acts⟩ := plain_actsOn (a := .ofEsr esr) (v := v) v
    (.word (ohvRwExtregs + n * 8)) (fun _ => trivial) rfl rfl written
    fun _ => ⟨.refl _, .refl _, .refl _⟩
  rw [gxf_decides n guarded taken]
  exact acts

theorem nv2_actsOn (r : Nv2Reg) (found : nv2Lookup (SysAccess.ofEsr esr).enc = some r) :
    ActsOn (.ofEsr esr) (.word r.ctxOff) v (serviceNv2Access host esr v) := by
  have written : ∀ x, ∀ s : StorageReg, s.Kept →
      (v.setCtx (if r.banked then (v.s.ctx.put r.ctxOff x).markDirty ohvStateSysregs
        else v.s.ctx.put r.ctxOff x)).holds s = if s = .word r.ctxOff then x else v.holds s := by
    intro x s kept
    split
    · rw [holds_markDirty _ _ _ s kept]
      exact holds_put v _ x s
    · exact holds_put v _ x s
  obtain ⟨answer, taken, acts⟩ := plain_actsOn (a := .ofEsr esr) (v := v) v
    (.word r.ctxOff) (fun _ => trivial) rfl rfl written
    fun _ => ⟨.refl _, .refl _, .refl _⟩
  rw [nv2_decides r found taken]
  exact acts

/-- Every access of a storage register, in any state. -/
theorem storage_actsOn (host : Host) (v : VcpuView) {reg : StorageReg}
    (names : (SysAccess.ofEsr esr).storage = some reg) :
    ActsOn (.ofEsr esr) reg v (serviceNv2Access host esr v) := by
  unfold SysAccess.storage at names
  split at names
  · rename_i gic
    cases names
    exact gic_actsOn gic
  · split at names
    · rename_i gl2
      cases names
      exact gl2_actsOn gl2
    · split at names
      · rename_i ena
        cases names
        exact tmrFiqEna_actsOn ena
      · split at names
        · rename_i ctrr
          cases names
          exact ctrr_actsOn ctrr
        · split at names
          · rename_i trace
            cases names
            exact trace_actsOn trace
          · split at names
            · rename_i apple
              cases names
              exact apple_actsOn apple
            · split at names
              · rename_i csselr
                cases names
                exact csselr_actsOn csselr
              · split at names
                · rename_i n found
                  cases names
                  exact gxf_actsOn n (of_decide_eq_true (List.find?_some
                    (p := fun n => decide ((SysAccess.ofEsr esr).IsGuarded n)) found))
                · obtain ⟨r, found, rfl⟩ := Option.map_eq_some_iff.mp names
                  exact nv2_actsOn r found

end Storage

end OpenHypervisor
