import OpenHypervisor.SysRegStore

/-!
# Snapshots

`Vcpu::snapshot` and `Vcpu::restore` of `openhyp.hpp`: the general registers and
a list of system registers read into a record, and the record written back call
by call.  Every call goes through `check`, which throws the first failure.

What was read stands again after the writes, whatever was written in between:
each write of the restore makes its register read the recorded value, and none
of them takes back what another made.
-/

set_option autoImplicit false

namespace OpenHypervisor

namespace Vcpu

structure Snapshot where
  /-- x0..x30, pc -/
  gpr : List Word
  sysregs : List (BitVec 16 × Word)
  cpsr : Word
  fpcr : Word
  fpsr : Word

def checked {A : Type} (call : A → VcpuView → HvReturn × VcpuView) :
    List A → VcpuView → HvReturn × VcpuView
  | [], v => (hvSuccess, v)
  | a :: rest, v =>
      let answer := call a v
      if answer.1 = hvSuccess then checked call rest answer.2 else answer

def setRegs (batch : List (Nat × Word)) (v : VcpuView) : HvReturn × VcpuView :=
  checked (fun w => hvVcpuSetReg w.1 w.2) batch v

def setSysRegs (host : Host) (batch : List (BitVec 16 × Word)) (v : VcpuView) :
    HvReturn × VcpuView :=
  checked (fun w => hvVcpuSetSysReg host w.1 w.2) batch v

def readSysRegs (host : Host) :
    List (BitVec 16) → VcpuView → Except HvReturn (List (BitVec 16 × Word)) × VcpuView
  | [], v => (.ok [], v)
  | enc :: rest, v =>
      let answer := hvVcpuGetSysReg host enc v
      if answer.rc = hvSuccess then
        let later := readSysRegs host rest answer.view
        (later.1.map ((enc, answer.value) :: ·), later.2)
      else (.error answer.rc, answer.view)

def snapshot (host : Host) (interesting : List (BitVec 16)) (v : VcpuView) :
    Except HvReturn Snapshot × VcpuView :=
  let reg := fun n => hvVcpuGetReg n v.s
  match (List.range 32).mapM reg, reg hvRegCpsr, reg hvRegFpcr, reg hvRegFpsr with
  | some gpr, some cpsr, some fpcr, some fpsr =>
      let read := readSysRegs host interesting v
      (read.1.map fun sysregs => ⟨gpr, sysregs, cpsr, fpcr, fpsr⟩, read.2)
  | _, _, _, _ => (.error hvBadArgument, v)

def Snapshot.general (s : Snapshot) : List (Nat × Word) :=
  (List.range 32).zip s.gpr ++ [(hvRegCpsr, s.cpsr), (hvRegFpcr, s.fpcr), (hvRegFpsr, s.fpsr)]

def restore (host : Host) (s : Snapshot) (v : VcpuView) : HvReturn × VcpuView :=
  let general := setRegs s.general v
  if general.1 = hvSuccess then setSysRegs host s.sysregs general.2 else general

/-- Calls that succeed wherever the states are in order are all made. -/
theorem checked_eq_foldl {A : Type} {call : A → VcpuView → HvReturn × VcpuView}
    (Order : VcpuView → Prop) {batch : List A}
    (succeeds : ∀ v, ∀ a ∈ batch, Order v → (call a v).1 = hvSuccess)
    (order : ∀ v, ∀ a ∈ batch, Order v → Order (call a v).2) {v : VcpuView} (start : Order v) :
    checked call batch v = (hvSuccess, batch.foldl (fun v a => (call a v).2) v) := by
  induction batch generalizing v with
  | nil => rfl
  | cons a rest ih =>
      have success := succeeds v a List.mem_cons_self start
      have next := order v a List.mem_cons_self start
      simp only [checked, if_pos success, List.foldl_cons]
      exact ih (fun v b later => succeeds v b (List.mem_cons_of_mem a later))
        (fun v b later => order v b (List.mem_cons_of_mem a later)) next

theorem checked_keeps {A : Type} {call : A → VcpuView → HvReturn × VcpuView}
    (Order : VcpuView → Prop) (keeps : ∀ a v, Order v → Order (call a v).2) (batch : List A)
    {v : VcpuView} (start : Order v) : Order (checked call batch v).2 := by
  induction batch generalizing v with
  | nil => exact start
  | cons a rest ih =>
      have next := keeps a v start
      simp only [checked]
      split
      · exact ih next
      · exact next

theorem snapshot_keeps {host : Host} (Order : VcpuView → Prop)
    (keeps : ∀ enc v, Order v → Order (hvVcpuGetSysReg host enc v).view)
    (interesting : List (BitVec 16)) {v : VcpuView} (start : Order v) :
    Order (snapshot host interesting v).2 := by
  have read : ∀ v, Order v → Order (readSysRegs host interesting v).2 := by
    induction interesting with
    | nil => exact fun v start => start
    | cons enc rest ih =>
        intro v start
        have next := keeps enc v start
        simp only [readSysRegs]
        split
        · exact ih _ next
        · exact next
  unfold snapshot
  simp only
  split
  · exact read v start
  · exact start

theorem restore_keeps {host : Host} (Order : VcpuView → Prop)
    (general : ∀ (w : Nat × Word) v, Order v → Order (hvVcpuSetReg w.1 w.2 v).2)
    (system : ∀ (w : BitVec 16 × Word) v, Order v → Order (hvVcpuSetSysReg host w.1 w.2 v).2)
    (s : Snapshot) {v : VcpuView} (start : Order v) : Order (restore host s v).2 := by
  have first : Order (setRegs s.general v).2 := checked_keeps Order general s.general start
  unfold restore
  simp only
  split
  · exact checked_keeps Order system s.sysregs first
  · exact first

end Vcpu

/-! ## General registers -/

/-- PSTATE.M of a value is EL2t or EL2h. -/
def NamesEl2 (pstate : BitVec 32) : Prop := pstate &&& 0xf = 0x8 ∨ pstate &&& 0xf = 0x9

instance (pstate : BitVec 32) : Decidable (NamesEl2 pstate) := inferInstanceAs (Decidable (_ ∨ _))

theorem translatePstate_of_not (vmEl2 : Bool) (pstate : BitVec 32) (other : ¬ NamesEl2 pstate) :
    translatePstate vmEl2 pstate = pstate :=
  if_neg fun both => other both.2

/-- The word a register number names.  FPCR and FPSR are its two halves. -/
def regOff (reg : Nat) : Nat :=
  if reg = hvRegCpsr then ohvRwCpsr
  else if reg = hvRegFpcr ∨ reg = hvRegFpsr then ohvRwFpsrFpcr
  else if reg = hvRegPc then ohvRwPc
  else ohvRwRegsX0 + reg * 8

theorem regOff_eq {reg reg' : Nat} (valid : reg ≤ hvRegCpsr) (valid' : reg' ≤ hvRegCpsr)
    (other : reg' ≠ reg) (shared : regOff reg' = regOff reg) :
    reg = hvRegFpcr ∧ reg' = hvRegFpsr ∨ reg = hvRegFpsr ∧ reg' = hvRegFpcr := by
  have checked : ∀ reg reg' : Fin 35, reg'.val ≠ reg.val → regOff reg' = regOff reg →
      reg.val = hvRegFpcr ∧ reg'.val = hvRegFpsr ∨
        reg.val = hvRegFpsr ∧ reg'.val = hvRegFpcr := by
    decide +kernel
  exact checked ⟨reg, Nat.lt_succ_of_le valid⟩ ⟨reg', Nat.lt_succ_of_le valid'⟩ other shared

theorem hvVcpuGetReg_word {reg : Nat} {s s' : VcpuSlot}
    (same : s'.ctx.word (regOff reg) = s.ctx.word (regOff reg)) :
    hvVcpuGetReg reg s' = hvVcpuGetReg reg s := by
  unfold regOff at same
  unfold hvVcpuGetReg
  by_cases pstate : reg = hvRegCpsr
  · simp only [if_pos pstate, Ctx.cpsr, Ctx.lo32] at same ⊢
    rw [same]
  · rw [if_neg pstate] at same
    rw [if_neg pstate, if_neg pstate]
    by_cases fp : reg = hvRegFpcr ∨ reg = hvRegFpsr
    · rw [if_pos fp] at same
      simp only [Ctx.hi32, Ctx.lo32, same]
      rcases fp with rfl | rfl <;> rfl
    · rw [if_neg fp] at same
      obtain ⟨noFpcr, noFpsr⟩ := not_or.mp fp
      simp only [if_neg noFpcr, if_neg noFpsr]
      by_cases pc : reg = hvRegPc
      · rw [if_pos pc] at same
        simp only [if_pos pc, Ctx.pc, same]
      · rw [if_neg pc] at same
        simp only [if_neg pc, Ctx.x, same]

theorem hvVcpuSetReg_word (reg : Nat) (value : Word) (v : VcpuView) (off : Nat)
    (apart : off ≠ regOff reg) : (hvVcpuSetReg reg value v).2.s.ctx.word off = v.s.ctx.word off := by
  unfold regOff at apart
  unfold hvVcpuSetReg
  simp only
  by_cases pstate : reg = hvRegCpsr
  · rw [if_pos pstate] at apart
    rw [if_pos pstate]
    exact (Ctx.word_put _ _ _ _).trans (if_neg apart)
  · rw [if_neg pstate] at apart
    rw [if_neg pstate]
    by_cases fp : reg = hvRegFpcr ∨ reg = hvRegFpsr
    · rw [if_pos fp] at apart
      split
      · exact (Ctx.word_put _ _ _ _).trans (if_neg apart)
      · rename_i noFpcr
        rw [if_pos (fp.resolve_left noFpcr)]
        exact (Ctx.word_put _ _ _ _).trans (if_neg apart)
    · rw [if_neg fp] at apart
      obtain ⟨noFpcr, noFpsr⟩ := not_or.mp fp
      rw [if_neg noFpcr, if_neg noFpsr]
      by_cases pc : reg = hvRegPc
      · rw [if_pos pc] at apart
        rw [if_pos pc]
        exact (Ctx.word_put _ _ _ _).trans (if_neg apart)
      · rw [if_neg pc] at apart
        rw [if_neg pc]
        split
        · exact (Ctx.word_put _ _ _ _).trans (if_neg apart)
        · rfl

theorem hvVcpuSetReg_success (reg : Nat) (value : Word) (v : VcpuView) (valid : reg ≤ hvRegCpsr) :
    (hvVcpuSetReg reg value v).1 = hvSuccess := by
  unfold hvVcpuSetReg
  simp only
  split
  · rfl
  · split
    · rfl
    · split
      · rfl
      · split
        · rfl
        · split
          · rfl
          · simp only [hvRegCpsr, hvRegFpcr, hvRegFpsr, hvRegPc] at *
            omega

/-! The three registers that are halves of a word. -/

section Named

variable (s : VcpuSlot) (value : Word) (v : VcpuView)

theorem hvVcpuGetReg_cpsr : hvVcpuGetReg hvRegCpsr s = some (s.ctx.cpsr.zeroExtend 64) := rfl

theorem hvVcpuGetReg_fpcr :
    hvVcpuGetReg hvRegFpcr s = some ((s.ctx.hi32 ohvRwFpsrFpcr).zeroExtend 64) := rfl

theorem hvVcpuGetReg_fpsr :
    hvVcpuGetReg hvRegFpsr s = some ((s.ctx.lo32 ohvRwFpsrFpcr).zeroExtend 64) := rfl

theorem hvVcpuSetReg_cpsr : (hvVcpuSetReg hvRegCpsr value v).2.s.ctx =
    v.s.ctx.setCpsr (translatePstate v.g.vmEl2 (value.extractLsb' 0 32)) := rfl

theorem hvVcpuSetReg_fpcr : (hvVcpuSetReg hvRegFpcr value v).2.s.ctx =
    v.s.ctx.putHi32 ohvRwFpsrFpcr (value.extractLsb' 0 32) := rfl

theorem hvVcpuSetReg_fpsr : (hvVcpuSetReg hvRegFpsr value v).2.s.ctx =
    v.s.ctx.putLo32 ohvRwFpsrFpcr (value.extractLsb' 0 32) := rfl

end Named

theorem hvVcpuSetReg_other {reg reg' : Nat} (valid : reg ≤ hvRegCpsr) (valid' : reg' ≤ hvRegCpsr)
    (other : reg' ≠ reg) (value : Word) (v : VcpuView) :
    hvVcpuGetReg reg' (hvVcpuSetReg reg value v).2.s = hvVcpuGetReg reg' v.s := by
  by_cases shared : regOff reg' = regOff reg
  · rcases regOff_eq valid valid' other shared with ⟨rfl, rfl⟩ | ⟨rfl, rfl⟩
    · rw [hvVcpuGetReg_fpsr, hvVcpuGetReg_fpsr, hvVcpuSetReg_fpcr, Ctx.lo32_putHi32]
    · rw [hvVcpuGetReg_fpcr, hvVcpuGetReg_fpcr, hvVcpuSetReg_fpsr, Ctx.hi32_putLo32]
  · exact hvVcpuGetReg_word (hvVcpuSetReg_word reg value v _ shared)

theorem hvVcpuSetReg_whole {reg : Nat} (value : Word) (v : VcpuView) (small : reg ≤ hvRegPc) :
    hvVcpuGetReg reg (hvVcpuSetReg reg value v).2.s = some value := by
  have named : reg ≠ hvRegCpsr ∧ reg ≠ hvRegFpcr ∧ reg ≠ hvRegFpsr := by
    simp only [hvRegPc] at small
    simp only [hvRegCpsr, hvRegFpcr, hvRegFpsr]
    omega
  obtain ⟨noCpsr, noFpcr, noFpsr⟩ := named
  simp only [hvVcpuGetReg, hvVcpuSetReg, if_neg noCpsr, if_neg noFpcr, if_neg noFpsr]
  by_cases pc : reg = hvRegPc
  · simp only [if_pos pc]
    exact congrArg some ((Ctx.word_put _ _ _ _).trans (if_pos rfl))
  · have below : reg < hvRegPc := by omega
    simp only [if_neg pc, if_pos below]
    exact congrArg some ((Ctx.word_put _ _ _ _).trans (if_pos rfl))

/-- A value a register was read with is what it reads once it is written back. -/
theorem hvVcpuSetReg_self {reg : Nat} {value : Word} {s : VcpuSlot} (valid : reg ≤ hvRegCpsr)
    (read : hvVcpuGetReg reg s = some value) (pstate : ¬ NamesEl2 s.ctx.cpsr) (v : VcpuView) :
    hvVcpuGetReg reg (hvVcpuSetReg reg value v).2.s = some value := by
  have numbers : reg ≤ hvRegPc ∨ reg = hvRegFpcr ∨ reg = hvRegFpsr ∨ reg = hvRegCpsr := by
    simp only [hvRegCpsr] at valid
    simp only [hvRegPc, hvRegFpcr, hvRegFpsr, hvRegCpsr]
    omega
  rcases numbers with whole | rfl | rfl | rfl
  · exact hvVcpuSetReg_whole value v whole
  · obtain rfl := Option.some.inj read
    rw [hvVcpuGetReg_fpcr, hvVcpuSetReg_fpcr, Ctx.hi32_putHi32, low_zeroExtend]
  · obtain rfl := Option.some.inj read
    rw [hvVcpuGetReg_fpsr, hvVcpuSetReg_fpsr, Ctx.lo32_putLo32, low_zeroExtend]
  · obtain rfl := Option.some.inj read
    rw [hvVcpuGetReg_cpsr, hvVcpuSetReg_cpsr, low_zeroExtend, translatePstate_of_not _ _ pstate,
      Ctx.cpsr, Ctx.setCpsr, Ctx.lo32_putLo32]

theorem hvVcpuGetReg_total (reg : Nat) (valid : reg ≤ hvRegCpsr) (s : VcpuSlot) :
    ∃ value, hvVcpuGetReg reg s = some value := by
  unfold hvVcpuGetReg
  split
  · exact ⟨_, rfl⟩
  · split
    · exact ⟨_, rfl⟩
    · split
      · exact ⟨_, rfl⟩
      · split
        · exact ⟨_, rfl⟩
        · split
          · exact ⟨_, rfl⟩
          · simp only [hvRegCpsr, hvRegFpcr, hvRegFpsr, hvRegPc] at *
            omega

/-! ## Reading -/

theorem hvVcpuGetSysReg_congr {host : Host} (still : host.Still) (enc : BitVec 16)
    {v w : VcpuView} (same : ∀ p, w.held host p = v.held host p) :
    (hvVcpuGetSysReg host enc w).rc = (hvVcpuGetSysReg host enc v).rc ∧
      (hvVcpuGetSysReg host enc w).value = (hvVcpuGetSysReg host enc v).value := by
  cases found : sysregLookup enc with
  | none => simp only [hvVcpuGetSysReg, sysregAccess, found, and_self]
  | some d =>
      have valid : needsSync d w.s.ctx = needsSync d v.s.ctx := by
        have mask := same (.page ohvRoStateValid)
        rw [VcpuView.held_page, VcpuView.held_page] at mask
        simp only [needsSync, mask]
      have alike : d.Refused host w ↔ d.Refused host v := by
        rw [SysRegDesc.Refused, SysRegDesc.Refused, valid]
      by_cases refused : d.Refused host v
      · simp only [hvVcpuGetSysReg, sysregAccess_refused still found 0 false _ refused,
          sysregAccess_refused still found 0 false _ (alike.mpr refused), and_self]
      · have before := hvVcpuGetSysReg_reads still found v refused
        have after := hvVcpuGetSysReg_reads still found w fun again => refused (alike.mp again)
        have held : w.held host = v.held host := funext same
        rw [before.1, before.2, after.1, after.2, held]
        exact ⟨rfl, rfl⟩

namespace Vcpu

/-- The loop reads every register as it stood at the start. -/
theorem readSysRegs_spec {host : Host} (still : host.Still) {base : VcpuView}
    {interesting : List (BitVec 16)}
    (readable : ∀ enc ∈ interesting, (hvVcpuGetSysReg host enc base).rc = hvSuccess)
    {w : VcpuView} (same : ∀ p, w.held host p = base.held host p) :
    ∃ rows, (readSysRegs host interesting w).1 = .ok rows ∧ rows.map Prod.fst = interesting ∧
      (∀ row ∈ rows, (hvVcpuGetSysReg host row.1 base).value = row.2) ∧
      ∀ p, (readSysRegs host interesting w).2.held host p = base.held host p := by
  induction interesting generalizing w with
  | nil => exact ⟨[], rfl, rfl, by simp, same⟩
  | cons enc rest ih =>
      obtain ⟨rc, value⟩ := hvVcpuGetSysReg_congr still enc same
      have success := rc.trans (readable enc List.mem_cons_self)
      have next : ∀ p, (hvVcpuGetSysReg host enc w).view.held host p = base.held host p :=
        fun p => (hvVcpuGetSysReg_held still enc w p).trans (same p)
      obtain ⟨rows, ok, listed, values, final⟩ :=
        ih (fun later member => readable later (List.mem_cons_of_mem enc member)) next
      simp only [readSysRegs, if_pos success, ok]
      refine ⟨(enc, (hvVcpuGetSysReg host enc w).value) :: rows, rfl, ?_, ?_, final⟩
      · rw [List.map_cons, listed]
      · intro row member
        rcases List.mem_cons.mp member with rfl | later
        · exact value.symm
        · exact values row later

theorem mapM_spec {A B : Type} {f : A → Option B} {keys : List A} {values : List B}
    (read : keys.mapM f = some values) :
    (∀ row ∈ keys.zip values, f row.1 = some row.2) ∧
      ∀ a ∈ keys, ∃ b, (a, b) ∈ keys.zip values := by
  induction keys generalizing values with
  | nil => exact ⟨by simp, by simp⟩
  | cons a rest ih =>
      simp only [List.mapM_cons, Option.pure_def, Option.bind_eq_bind, Option.bind_eq_some_iff,
        Option.some.injEq] at read
      obtain ⟨b, here, tail, later, rfl⟩ := read
      obtain ⟨rows, listed⟩ := ih later
      rw [List.zip_cons_cons]
      constructor
      · intro row member
        rcases List.mem_cons.mp member with rfl | member
        · exact here
        · exact rows row member
      · intro key member
        rcases List.mem_cons.mp member with rfl | member
        · exact ⟨b, List.mem_cons_self⟩
        · obtain ⟨value, found⟩ := listed key member
          exact ⟨value, List.mem_cons_of_mem _ found⟩

theorem mapM_total {A B : Type} (f : A → Option B) (keys : List A)
    (total : ∀ a ∈ keys, ∃ b, f a = some b) : ∃ values, keys.mapM f = some values := by
  induction keys with
  | nil => exact ⟨[], rfl⟩
  | cons a rest ih =>
      obtain ⟨b, here⟩ := total a List.mem_cons_self
      obtain ⟨values, later⟩ := ih fun key member => total key (List.mem_cons_of_mem a member)
      exact ⟨b :: values, by rw [List.mapM_cons, here, later]; rfl⟩

structure Records (host : Host) (interesting : List (BitVec 16)) (v : VcpuView) (s : Snapshot) :
    Prop where
  general : ∀ row ∈ s.general, row.1 ≤ hvRegCpsr ∧ hvVcpuGetReg row.1 v.s = some row.2
  numbers : ∀ reg ≤ hvRegCpsr, ∃ value, (reg, value) ∈ s.general
  listed : s.sysregs.map Prod.fst = interesting
  values : ∀ row ∈ s.sysregs, (hvVcpuGetSysReg host row.1 v).value = row.2

/-- With every read succeeding the snapshot is taken, and taking it changes no
place. -/
theorem snapshot_spec {host : Host} (still : host.Still) {v : VcpuView}
    {interesting : List (BitVec 16)}
    (readable : ∀ enc ∈ interesting, (hvVcpuGetSysReg host enc v).rc = hvSuccess) :
    ∃ s, (snapshot host interesting v).1 = .ok s ∧ Records host interesting v s ∧
      ∀ p, (snapshot host interesting v).2.held host p = v.held host p := by
  obtain ⟨gpr, taken⟩ := mapM_total (fun n => hvVcpuGetReg n v.s) (List.range 32)
    fun reg small => hvVcpuGetReg_total reg (by
      rw [List.mem_range] at small
      simp only [hvRegCpsr]
      omega) v.s
  obtain ⟨rows, ok, listed, values, final⟩ :=
    readSysRegs_spec still readable fun p => (rfl : v.held host p = v.held host p)
  obtain ⟨written, found⟩ := mapM_spec taken
  simp only [snapshot, taken, hvVcpuGetReg_cpsr, hvVcpuGetReg_fpcr, hvVcpuGetReg_fpsr, ok]
  refine ⟨_, rfl, ⟨?_, ?_, listed, values⟩, final⟩
  · intro row member
    simp only [Snapshot.general, List.mem_append, List.mem_cons, List.not_mem_nil, or_false]
      at member
    rcases member with inside | rfl | rfl | rfl
    · have small := List.mem_range.mp (List.of_mem_zip inside).1
      refine ⟨?_, written row inside⟩
      simp only [hvRegCpsr]
      omega
    · exact ⟨Nat.le_refl hvRegCpsr, rfl⟩
    · exact ⟨(by decide : hvRegFpcr ≤ hvRegCpsr), rfl⟩
    · exact ⟨(by decide : hvRegFpsr ≤ hvRegCpsr), rfl⟩
  · intro reg valid
    simp only [Snapshot.general, List.mem_append, List.mem_cons, List.not_mem_nil, or_false,
      Prod.mk.injEq]
    by_cases small : reg < 32
    · obtain ⟨value, member⟩ := found reg (List.mem_range.mpr small)
      exact ⟨value, Or.inl member⟩
    · have numbers : reg = hvRegCpsr ∨ reg = hvRegFpcr ∨ reg = hvRegFpsr := by
        simp only [hvRegCpsr, hvRegFpcr, hvRegFpsr] at *
        omega
      rcases numbers with rfl | rfl | rfl
      · exact ⟨_, Or.inr (Or.inl ⟨rfl, rfl⟩)⟩
      · exact ⟨_, Or.inr (Or.inr (Or.inl ⟨rfl, rfl⟩))⟩
      · exact ⟨_, Or.inr (Or.inr (Or.inr ⟨rfl, rfl⟩))⟩

/-! ## Writing back -/

inductive RegCall where
  | setReg (reg : Nat) (value : Word)
  | setSysReg (host : Host) (enc : BitVec 16) (value : Word)

def RegCall.serve (v : VcpuView) : RegCall → VcpuView
  | .setReg reg value => (hvVcpuSetReg reg value v).2
  | .setSysReg host enc value => (hvVcpuSetSysReg host enc value v).2

def RegCall.Still : RegCall → Prop
  | .setReg _ _ => True
  | .setSysReg host _ _ => host.Still

theorem hvVcpuSetReg_valid (reg : Nat) (value : Word) (v : VcpuView) :
    (hvVcpuSetReg reg value v).2.s.ctx.word ohvRoStateValid = v.s.ctx.word ohvRoStateValid := by
  by_cases valid : reg ≤ hvRegCpsr
  · apply hvVcpuSetReg_word
    have below : regOff reg < ohvRoStateValid := by
      simp only [hvRegCpsr] at valid
      simp only [regOff, ohvRwCpsr, ohvRwFpsrFpcr, ohvRwPc, ohvRwRegsX0, ohvRoStateValid]
      repeat' split
      all_goals omega
    omega
  · have unknown : hvVcpuSetReg reg value v = (hvBadArgument, v) := by
      have beyond : reg ≠ hvRegCpsr ∧ reg ≠ hvRegFpcr ∧ reg ≠ hvRegFpsr ∧ reg ≠ hvRegPc ∧
          ¬ reg < hvRegPc := by
        simp only [hvRegCpsr, hvRegFpcr, hvRegFpsr, hvRegPc] at *
        omega
      obtain ⟨noCpsr, noFpcr, noFpsr, noPc, noX⟩ := beyond
      simp only [hvVcpuSetReg, if_neg noCpsr, if_neg noFpcr, if_neg noFpsr, if_neg noPc, if_neg noX]
    rw [unknown]

theorem RegCall.serve_valid (call : RegCall) (still : call.Still) (v : VcpuView) :
    (RegCall.serve v call).s.ctx.word ohvRoStateValid = v.s.ctx.word ohvRoStateValid := by
  cases call with
  | setReg reg value => exact hvVcpuSetReg_valid reg value v
  | setSysReg host enc value =>
      exact hvVcpuSetSysReg_words still enc value v _ (Or.inr (by decide))

theorem RegCall.serveAll_valid (calls : List RegCall) (stay : ∀ call ∈ calls, call.Still)
    (v : VcpuView) :
    (calls.foldl RegCall.serve v).s.ctx.word ohvRoStateValid = v.s.ctx.word ohvRoStateValid := by
  induction calls generalizing v with
  | nil => rfl
  | cons call rest ih =>
      have here := call.serve_valid (stay call List.mem_cons_self) v
      have later := ih (fun c member => stay c (List.mem_cons_of_mem call member))
        (RegCall.serve v call)
      exact later.trans here

section Restore

variable {host later : Host} {interesting : List (BitVec 16)} {v : VcpuView} {s : Snapshot}

theorem setRegs_restores (records : Records host interesting v s)
    (pstate : ¬ NamesEl2 v.s.ctx.cpsr) (w : VcpuView) :
    (setRegs s.general w).1 = hvSuccess ∧
      (setRegs s.general w).2.s.ctx.word ohvRoStateValid = w.s.ctx.word ohvRoStateValid ∧
      ∀ reg ≤ hvRegCpsr, hvVcpuGetReg reg (setRegs s.general w).2.s = hvVcpuGetReg reg v.s := by
  have made := checked_eq_foldl
    (fun x => x.s.ctx.word ohvRoStateValid = w.s.ctx.word ohvRoStateValid)
    (fun x row member _ => hvVcpuSetReg_success row.1 row.2 x (records.general row member).1)
    (fun x row _ order => (hvVcpuSetReg_valid row.1 row.2 x).trans order) (v := w) rfl
  obtain ⟨valid, stands⟩ := Cells.stands_all
    (fun x (row : Nat × Word) => (hvVcpuSetReg row.1 row.2 x).2)
    (fun x => x.s.ctx.word ohvRoStateValid = w.s.ctx.word ohvRoStateValid)
    (fun row x => hvVcpuGetReg row.1 x.s = some row.2) s.general
    (fun x row _ order => (hvVcpuSetReg_valid row.1 row.2 x).trans order)
    (fun x row member _ => by
      obtain ⟨valid, read⟩ := records.general row member
      exact hvVcpuSetReg_self valid read pstate x)
    (fun x row member other listed _ standing => by
      obtain ⟨valid, read⟩ := records.general row member
      obtain ⟨valid', read'⟩ := records.general other listed
      by_cases same : row.1 = other.1
      · have value : other.2 = row.2 := by
          rw [same, read'] at read
          exact Option.some.inj read
        rw [same, ← value]
        exact hvVcpuSetReg_self valid' read' pstate x
      · rw [hvVcpuSetReg_other valid' valid same]
        exact standing)
    (s := w) rfl
  rw [setRegs, made]
  refine ⟨rfl, valid, fun reg small => ?_⟩
  obtain ⟨value, member⟩ := records.numbers reg small
  rw [stands _ member, (records.general _ member).2]

/-- What a recorded system register is, and that a later call on it is served. -/
theorem Records.row (still : host.Still)
    (readable : ∀ enc ∈ interesting, (hvVcpuGetSysReg host enc v).rc = hvSuccess)
    (records : Records host interesting v s) {row : BitVec 16 × Word} (member : row ∈ s.sysregs) :
    ∃ d, sysregLookup row.1 = some d ∧
      (d.region.isSome = true → needsSync d v.s.ctx = true → host.syncRc = hvSuccess) ∧
      (d.place.map (v.held host)).getD 0 = row.2 := by
  have named : row.1 ∈ interesting := by
    rw [← records.listed]
    exact List.mem_map_of_mem member
  have success := readable row.1 named
  cases found : sysregLookup row.1 with
  | none =>
      simp only [hvVcpuGetSysReg, sysregAccess, found] at success
      exact absurd success (by decide)
  | some d =>
      have ready : d.region.isSome = true → needsSync d v.s.ctx = true →
          host.syncRc = hvSuccess := by
        intro onPage asks
        by_contra fails
        rw [hvVcpuGetSysReg, sysregAccess_refused still found 0 false v ⟨onPage, asks, fails⟩]
          at success
        exact fails success
      have unrefused : ¬ d.Refused host v := fun refused => refused.2.2 (ready refused.1 refused.2.1)
      refine ⟨d, rfl, ready, ?_⟩
      rw [← (hvVcpuGetSysReg_reads still found v unrefused).2]
      exact records.values row member

/-- Under the snapshot's mask a call the snapshot made is served later too. -/
theorem later_serves (answers : host.syncRc = hvSuccess → later.syncRc = hvSuccess)
    (d : SysRegDesc) {x : VcpuView}
    (settled : x.s.ctx.word ohvRoStateValid = v.s.ctx.word ohvRoStateValid)
    (could : d.region.isSome = true → needsSync d v.s.ctx = true → host.syncRc = hvSuccess) :
    ¬ d.Refused later x := by
  rintro ⟨onPage, asks, fails⟩
  have same : needsSync d x.s.ctx = needsSync d v.s.ctx := by
    simp only [needsSync, settled]
  exact fails (answers (could onPage (same ▸ asks)))

/-- A recorded row written under the snapshot's mask reads back, filtered. -/
theorem Records.set_row (still : host.Still) (still' : later.Still)
    (answers : host.syncRc = hvSuccess → later.syncRc = hvSuccess)
    (readable : ∀ enc ∈ interesting, (hvVcpuGetSysReg host enc v).rc = hvSuccess)
    (records : Records host interesting v s) {row : BitVec 16 × Word} (member : row ∈ s.sysregs)
    {x : VcpuView} (settled : x.s.ctx.word ohvRoStateValid = v.s.ctx.word ohvRoStateValid) :
    (hvVcpuSetSysReg later row.1 row.2 x).1 = hvSuccess ∧
      (hvVcpuGetSysReg later row.1 (hvVcpuSetSysReg later row.1 row.2 x).2).rc = hvSuccess ∧
      (hvVcpuGetSysReg later row.1 (hvVcpuSetSysReg later row.1 row.2 x).2).value =
        filterWrite row.1 row.2 := by
  obtain ⟨d, found, could, value⟩ := records.row still readable member
  have after : (hvVcpuSetSysReg later row.1 row.2 x).2.s.ctx.word ohvRoStateValid =
      v.s.ctx.word ohvRoStateValid :=
    (hvVcpuSetSysReg_words still' row.1 row.2 x _ (Or.inr (by decide))).trans settled
  obtain ⟨success, wrote⟩ := hvVcpuSetSysReg_wrote still' found row.2 x
    (later_serves answers d settled could)
  obtain ⟨rc, reads⟩ := hvVcpuGetSysReg_reads still' found (hvVcpuSetSysReg later row.1 row.2 x).2
    (later_serves answers d after could)
  refine ⟨success, rc, reads.trans ?_⟩
  cases place : d.place with
  | some p => exact wrote.here p place
  | none =>
      -- a breakpoint register, recorded as the 0 it reads
      have zero : row.2 = 0 := by
        rw [place] at value
        exact value.symm
      have unfiltered : row.1 ≠ encCptrEl2 := by
        intro filtered
        have named := sysregLookup_encoding row.1 d found
        have debug := (placeless_iff d (sysregLookup_mem row.1 d found)).mp place
        rw [named, filtered] at debug
        exact absurd debug (by decide)
      rw [zero, filterWrite, if_neg unfiltered]
      rfl

theorem setSysRegs_restores (still : host.Still) (still' : later.Still)
    (answers : host.syncRc = hvSuccess → later.syncRc = hvSuccess)
    (readable : ∀ enc ∈ interesting, (hvVcpuGetSysReg host enc v).rc = hvSuccess)
    (records : Records host interesting v s) {w : VcpuView}
    (mask : w.s.ctx.word ohvRoStateValid = v.s.ctx.word ohvRoStateValid) :
    setSysRegs later s.sysregs w = (hvSuccess, OpenHypervisor.setSysRegs later s.sysregs w) ∧
      ∀ row ∈ s.sysregs,
        (hvVcpuGetSysReg later row.1 (OpenHypervisor.setSysRegs later s.sysregs w)).rc =
            hvSuccess ∧
          (hvVcpuGetSysReg later row.1 (OpenHypervisor.setSysRegs later s.sysregs w)).value =
            filterWrite row.1 row.2 := by
  have order : ∀ x : VcpuView, ∀ row ∈ s.sysregs,
      x.s.ctx.word ohvRoStateValid = v.s.ctx.word ohvRoStateValid →
        (hvVcpuSetSysReg later row.1 row.2 x).2.s.ctx.word ohvRoStateValid =
          v.s.ctx.word ohvRoStateValid :=
    fun x row _ settled =>
      (hvVcpuSetSysReg_words still' row.1 row.2 x _ (Or.inr (by decide))).trans settled
  have made := fun (x : VcpuView) (row) (member : row ∈ s.sysregs)
      (settled : x.s.ctx.word ohvRoStateValid = v.s.ctx.word ohvRoStateValid) =>
    records.set_row still still' answers readable member settled
  have every := checked_eq_foldl
    (fun x => x.s.ctx.word ohvRoStateValid = v.s.ctx.word ohvRoStateValid)
    (fun x row member settled => (made x row member settled).1) order (v := w) mask
  refine ⟨every, ?_⟩
  apply (Cells.stands_all
    (fun x (row : BitVec 16 × Word) => (hvVcpuSetSysReg later row.1 row.2 x).2)
    (fun x => x.s.ctx.word ohvRoStateValid = v.s.ctx.word ohvRoStateValid)
    (fun row x => (hvVcpuGetSysReg later row.1 x).rc = hvSuccess ∧
      (hvVcpuGetSysReg later row.1 x).value = filterWrite row.1 row.2)
    s.sysregs order (fun x row member settled => (made x row member settled).2) ?_ mask).2
  intro x row member other listed settled standing
  by_cases same : other.1 = row.1
  · have value : other.2 = row.2 := by
      have first := records.values row member
      have second := records.values other listed
      rw [same, first] at second
      exact second.symm
    rw [same, value]
    exact (made x row member settled).2
  · obtain ⟨d, found, could, -⟩ := records.row still readable member
    have before := hvVcpuGetSysReg_reads still' found x (later_serves answers d settled could)
    have after := hvVcpuGetSysReg_reads still' found (hvVcpuSetSysReg later other.1 other.2 x).2
      (later_serves answers d (order x other listed settled) could)
    refine ⟨after.1, after.2.trans (Eq.trans ?_ (before.2.symm.trans standing.2))⟩
    cases place : d.place with
    | none => rfl
    | some p =>
        have free := d.place_free (sysregLookup_mem row.1 d found) p place
        simp only [Option.map_some, Option.getD_some]
        apply hvVcpuSetSysReg_rest still' other.1 other.2 x p free
        intro d' found' there
        exact landsIn_other found place same ⟨d', found', there⟩

theorem setSysRegs_getReg (still' : later.Still) (rows : List (BitVec 16 × Word)) (w : VcpuView)
    (reg : Nat) : hvVcpuGetReg reg (OpenHypervisor.setSysRegs later rows w).s =
      hvVcpuGetReg reg w.s := by
  induction rows generalizing w with
  | nil => rfl
  | cons row rest ih =>
      have here : hvVcpuGetReg reg (hvVcpuSetSysReg later row.1 row.2 w).2.s =
          hvVcpuGetReg reg w.s :=
        hvVcpuGetReg_congr reg _ _ fun off below =>
          hvVcpuSetSysReg_words still' row.1 row.2 w off (Or.inl below)
      exact (ih (hvVcpuSetSysReg later row.1 row.2 w).2).trans here

end Restore

/-- A snapshot restored after any calls reads as it was taken, but for the bits
that every write of `CPTR_EL2` keeps. -/
theorem restore_inverts_snapshot (host later : Host) (still : host.Still) (still' : later.Still)
    (answers : host.syncRc = hvSuccess → later.syncRc = hvSuccess) (v : VcpuView)
    (pstate : ¬ NamesEl2 v.s.ctx.cpsr) (interesting : List (BitVec 16))
    (readable : ∀ enc ∈ interesting, (hvVcpuGetSysReg host enc v).rc = hvSuccess)
    (calls : List RegCall) (stay : ∀ call ∈ calls, call.Still) :
    ∃ s, (snapshot host interesting v).1 = .ok s ∧
      let restored := restore later s (calls.foldl RegCall.serve (snapshot host interesting v).2)
      restored.1 = hvSuccess ∧
        (∀ reg ≤ hvRegCpsr, hvVcpuGetReg reg restored.2.s = hvVcpuGetReg reg v.s) ∧
        ∀ enc ∈ interesting,
          let old := (hvVcpuGetSysReg host enc v).value
          (hvVcpuGetSysReg later enc restored.2).rc = hvSuccess ∧
            (hvVcpuGetSysReg later enc restored.2).value =
              if enc = 0xe08a then old ||| 0x300000 else old := by
  obtain ⟨s, taken, records, same⟩ := snapshot_spec still readable
  refine ⟨s, taken, ?_⟩
  have mask : (calls.foldl RegCall.serve (snapshot host interesting v).2).s.ctx.word
      ohvRoStateValid = v.s.ctx.word ohvRoStateValid := by
    have page := same (.page ohvRoStateValid)
    rw [VcpuView.held_page, VcpuView.held_page] at page
    exact (RegCall.serveAll_valid calls stay _).trans page
  generalize calls.foldl RegCall.serve (snapshot host interesting v).2 = w at mask ⊢
  intro restored
  obtain ⟨general, valid, numbers⟩ := setRegs_restores records pstate w
  obtain ⟨made, stands⟩ := setSysRegs_restores still still' answers readable records
    (valid.trans mask)
  have whole : restored =
      (hvSuccess, OpenHypervisor.setSysRegs later s.sysregs (setRegs s.general w).2) := by
    simp only [restored, restore, if_pos general]
    exact made
  rw [whole]
  refine ⟨rfl, fun reg small => ?_, fun enc member => ?_⟩
  · exact (setSysRegs_getReg still' _ _ reg).trans (numbers reg small)
  · rw [← records.listed] at member
    obtain ⟨row, listed, rfl⟩ := List.mem_map.mp member
    rw [records.values row listed]
    exact stands row listed

def freshView : VcpuView := ⟨{ vmEl2 := true }, {}⟩

/-- Everything the snapshot holds is written over, PSTATE with EL2h. -/
def overwrites : List RegCall :=
  [.setReg 0 7, .setReg hvRegCpsr 0x3c9, .setSysReg {} 0xc080 5, .setSysReg {} 0xe08a 6]

theorem restore_inverts_snapshot_overwritten :
    ∃ s, (snapshot {} [0xc080, 0xe08a, 0xc080] freshView).1 = .ok s ∧
      let restored := restore {} s
        (overwrites.foldl RegCall.serve (snapshot {} [0xc080, 0xe08a, 0xc080] freshView).2)
      restored.1 = hvSuccess ∧ hvVcpuGetReg 0 restored.2.s = some 0 ∧
        (hvVcpuGetSysReg {} 0xc080 restored.2).value = 0 ∧
        (hvVcpuGetSysReg {} 0xe08a restored.2).value = 0x300000 := by
  have still : Host.Still {} := fun _ _ => rfl
  have stay : ∀ call ∈ overwrites, call.Still := by
    simp only [overwrites, List.forall_mem_cons, RegCall.Still]
    exact ⟨trivial, trivial, still, still, by simp⟩
  have x0 : hvVcpuGetReg 0 freshView.s = some 0 := by decide
  have sctlr : (hvVcpuGetSysReg {} 0xc080 freshView).value = 0 := by decide +kernel
  have cptr : (hvVcpuGetSysReg {} 0xe08a freshView).value = 0 := by decide +kernel
  have readable : ∀ enc ∈ [0xc080, 0xe08a, 0xc080],
      (hvVcpuGetSysReg {} enc freshView).rc = hvSuccess := by
    have read : (hvVcpuGetSysReg {} 0xc080 freshView).rc = hvSuccess := by decide +kernel
    have read' : (hvVcpuGetSysReg {} 0xe08a freshView).rc = hvSuccess := by decide +kernel
    simp only [List.forall_mem_cons, List.not_mem_nil]
    exact ⟨read, read', read, by simp⟩
  obtain ⟨s, taken, success, numbers, rows⟩ :=
    restore_inverts_snapshot {} {} still still (fun same => same) freshView (by decide)
      [0xc080, 0xe08a, 0xc080] readable overwrites stay
  have plain := (rows 0xc080 (by decide)).2
  have filtered := (rows 0xe08a (by decide)).2
  rw [sctlr, if_neg (by decide)] at plain
  rw [cptr, if_pos rfl] at filtered
  have bits : (0 : Word) ||| 0x300000 = 0x300000 := by decide
  exact ⟨s, taken, success, (numbers 0 (by decide)).trans x0, plain, filtered.trans bits⟩

end Vcpu

end OpenHypervisor
