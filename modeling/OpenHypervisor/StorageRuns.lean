import OpenHypervisor.StorageRegs
import OpenHypervisor.VcpuLife

/-!
# One register file

The storage registers over whole runs of trapped accesses.  The specification is
a log of what was written under which encoding; of its keys only two pairs name
the same register.
-/

set_option autoImplicit false

namespace OpenHypervisor

/-! ## Names

What an encoding alone says of the register. -/

def registerOf (enc : BitVec 16) : Option StorageReg := (SysAccess.ofEnc enc 0 false).storage

theorem registerOf_enc (a : SysAccess) : registerOf a.enc = a.storage := by
  have whole := a.ofEnc_enc
  rw [registerOf, ← congrArg SysAccess.storage whole]
  rfl

/-- CTRR_A_LWR and CTRR_A_UPR under the names of EL1, CRm 2, and of EL2, CRm 6. -/
def ctrrAliases : List (BitVec 16 × BitVec 16) := [(0xe793, 0xe7b4), (0xe794, 0xe7b5)]

def SharesStorage (enc other : BitVec 16) : Prop :=
  enc = other ∨ (enc, other) ∈ ctrrAliases ∨ (other, enc) ∈ ctrrAliases

instance (enc other : BitVec 16) : Decidable (SharesStorage enc other) :=
  inferInstanceAs (Decidable (_ ∨ _))

/-- The registers kept in the page: the guarded three, CSSELR_EL1 and the EL2
registers. -/
def wordCells : List (BitVec 16 × Nat) := [
  (0xf78a, ohvRwExtregs + 42 * 8), (0xf7c1, ohvRwExtregs + 43 * 8),
  (0xf7c2, ohvRwExtregs + 44 * 8), (0xd000, ohvRwSharedSysregs + 7 * 8)] ++
  kNv2Regs.map fun r => (r.enc, r.ctxOff)

def ctrrCells : List (BitVec 16 × BitVec 8) := [
  (0xe792, 2), (0xe793, 3), (0xe7b4, 3), (0xe794, 4), (0xe7b5, 4), (0xe795, 5)]

def StorageReg.Named (enc : BitVec 16) : StorageReg → Prop
  | .gic named => enc = named
  | .gl2 op2 => enc = 3#2 ++ 6#3 ++ 15#4 ++ 11#4 ++ op2
  | .tmrFiqEna => enc = 0xef8b
  | .ctrr sel => (enc, sel) ∈ ctrrCells
  | .trace slot => enc = 0xef8c ∧ slot = 0 ∨ enc = 0xefd1 ∧ slot = 1
  | .apple named => enc = named
  | .word off => (enc, off) ∈ wordCells

theorem ctrr_named {a : SysAccess} (ctrr : a.IsCtrr) : (a.enc, a.ctrrSel) ∈ ctrrCells := by
  obtain ⟨op0, op1, crn, which⟩ := ctrr
  rw [a.enc_of_fields op0 op1 crn rfl rfl, SysAccess.ctrrSel]
  generalize a.op2 = op2 at which ⊢
  rcases which with ⟨crm, low, high⟩ | ⟨crm, op2 | op2⟩
  · rw [crm]
    revert low high
    revert op2
    decide
  · rw [crm, op2]
    decide
  · rw [crm, op2]
    decide

theorem nv2_named {enc : BitVec 16} {r : Nv2Reg} (found : nv2Lookup enc = some r) :
    (enc, r.ctxOff) ∈ wordCells := by
  obtain ⟨listed, rfl⟩ := nv2Lookup_row found
  exact List.mem_append_right _ (List.mem_map_of_mem listed)

theorem storage_named {a : SysAccess} {reg : StorageReg} (names : a.storage = some reg) :
    reg.Named a.enc := by
  unfold SysAccess.storage at names
  split at names
  · cases names
    exact rfl
  · split at names
    · rename_i gl2
      cases names
      exact a.enc_of_fields gl2.1 gl2.2.1 gl2.2.2.1 gl2.2.2.2 rfl
    · split at names
      · rename_i ena
        cases names
        exact a.enc_of_fields ena.1 ena.2.1 ena.2.2.1 ena.2.2.2.1 ena.2.2.2.2
      · split at names
        · rename_i ctrr
          cases names
          exact ctrr_named ctrr
        · split at names
          · rename_i trace
            cases names
            obtain ⟨op0, crn, op1, ⟨crm, op2⟩ | ⟨crm, op2⟩⟩ := trace
            · rw [crm, if_pos rfl]
              exact Or.inl ⟨a.enc_of_fields op0 op1 crn crm op2, rfl⟩
            · rw [crm, if_neg (by decide)]
              exact Or.inr ⟨a.enc_of_fields op0 op1 crn crm op2, rfl⟩
          · split at names
            · cases names
              exact rfl
            · split at names
              · rename_i csselr
                cases names
                obtain ⟨op0, op1, crn, crm, op2⟩ := csselr
                rw [a.enc_of_fields op0 op1 crn crm op2]
                simp [StorageReg.Named, wordCells]
              · split at names
                · rename_i n found
                  cases names
                  have guarded : a.IsGuarded n := of_decide_eq_true (List.find?_some
                    (p := fun n => decide (a.IsGuarded n)) found)
                  obtain ⟨op0, op1, crn, ⟨crm, op2, rfl⟩ | ⟨crm, ⟨op2, rfl⟩ | ⟨op2, rfl⟩⟩⟩ := guarded
                  · rw [a.enc_of_fields op0 op1 crn crm op2]
                    simp [StorageReg.Named, wordCells]
                  · rw [a.enc_of_fields op0 op1 crn crm op2]
                    simp [StorageReg.Named, wordCells]
                  · rw [a.enc_of_fields op0 op1 crn crm op2]
                    simp [StorageReg.Named, wordCells]
                · obtain ⟨r, found, rfl⟩ := Option.map_eq_some_iff.mp names
                  exact nv2_named found

theorem ctrrCells_shared (p : BitVec 16 × BitVec 8) (first : p ∈ ctrrCells)
    (q : BitVec 16 × BitVec 8) (second : q ∈ ctrrCells) (same : p.2 = q.2) :
    SharesStorage p.1 q.1 := by
  have rows : (ctrrCells.all fun p => ctrrCells.all fun q =>
      decide (p.2 = q.2 → SharesStorage p.1 q.1)) = true := by decide
  have row := List.all_eq_true.mp rows p first
  exact of_decide_eq_true (List.all_eq_true.mp row q second) same

theorem wordCells_apart : (∀ p ∈ wordCells, ∀ q ∈ wordCells, p.2 = q.2 → p.1 = q.1) ∧
    ∀ p ∈ wordCells, ohvRwSharedSysregs ≤ p.2 ∧ p.2 ≠ ohvRwStateDirty := by
  decide +kernel

theorem StorageReg.Named.shares {reg : StorageReg} {enc other : BitVec 16} (first : reg.Named enc)
    (second : reg.Named other) : SharesStorage enc other := by
  cases reg with
  | gic named | apple named => exact Or.inl (first.trans second.symm)
  | gl2 op2 => exact Or.inl (first.trans second.symm)
  | tmrFiqEna => exact Or.inl (first.trans second.symm)
  | ctrr sel => exact ctrrCells_shared (enc, sel) first (other, sel) second rfl
  | trace slot =>
      rcases first with ⟨here, zero⟩ | ⟨here, one⟩
      · rcases second with ⟨there, -⟩ | ⟨-, one⟩
        · exact Or.inl (here.trans there.symm)
        · omega
      · rcases second with ⟨-, zero⟩ | ⟨there, -⟩
        · omega
        · exact Or.inl (here.trans there.symm)
  | word off => exact Or.inl (wordCells_apart.1 (enc, off) first (other, off) second rfl)

theorem registerOf_aliases (p : BitVec 16 × BitVec 16) (listed : p ∈ ctrrAliases) :
    registerOf p.1 = registerOf p.2 := by
  simp only [ctrrAliases, List.mem_cons, List.not_mem_nil, or_false] at listed
  rcases listed with rfl | rfl
  · rfl
  · rfl

/-- The two bounds of the read-only region are the only registers with two names. -/
theorem storage_eq_iff {a b : SysAccess} (first : a.storage.isSome) :
    a.storage = b.storage ↔ SharesStorage a.enc b.enc := by
  constructor
  · intro same
    obtain ⟨reg, named⟩ := Option.isSome_iff_exists.mp first
    exact (storage_named named).shares (storage_named (same.symm.trans named))
  · intro shares
    rw [← registerOf_enc a, ← registerOf_enc b]
    rcases shares with same | listed | listed
    · rw [same]
    · exact registerOf_aliases (a.enc, b.enc) listed
    · exact (registerOf_aliases (b.enc, a.enc) listed).symm

theorem storage_kept {a : SysAccess} {reg : StorageReg} (names : a.storage = some reg) :
    reg.Kept := by
  have named := storage_named names
  cases reg with
  | word off => exact wordCells_apart.2 (a.enc, off) named
  | _ => trivial

/-! ## Runs -/

/-- A trapped access, and what the guest's own instructions made of its general
registers on the way to it. -/
structure GuestAccess where
  runs : Ctx → Ctx
  host : Host
  esr : Word

namespace GuestAccess

def access (t : GuestAccess) : SysAccess := .ofEsr t.esr

structure IsStorage (t : GuestAccess) : Prop where
  names : t.access.storage.isSome
  general : ∀ c off, ohvRwSharedSysregs ≤ off → (t.runs c).word off = c.word off

def arrive (t : GuestAccess) (v : VcpuView) : VcpuView := v.setCtx (t.runs v.s.ctx)

def answer (t : GuestAccess) (v : VcpuView) : Bool × VcpuView :=
  serviceNv2Access t.host t.esr (t.arrive v)

/-- The register written and the value, if the access is a write carried out. -/
def writes (v : VcpuView) (t : GuestAccess) : Option (BitVec 16 × Word) :=
  if (t.answer v).1 = true ∧ t.access.read = false then
    some (t.access.enc, (t.arrive v).s.ctx.readRt t.access.rt)
  else none

end GuestAccess

def VcpuView.access (v : VcpuView) (t : GuestAccess) : VcpuView := (t.answer v).2

def VcpuView.lastWritten (v : VcpuView) (run : List GuestAccess) (enc : BitVec 16) : Option Word :=
  Cells.lastUnder (SharesStorage enc) (Cells.log VcpuView.access GuestAccess.writes v run)

def VcpuView.initially (v : VcpuView) (a : SysAccess) : Word :=
  match a.storage with
  | some reg => v.holds reg
  | none => 0

section Runs

variable {v : VcpuView}

theorem GuestAccess.IsStorage.arrived {t : GuestAccess} (storage : t.IsStorage) (v : VcpuView)
    (reg : StorageReg) (kept : reg.Kept) : (t.arrive v).holds reg = v.holds reg :=
  VcpuView.holds_of_general kept fun off above => storage.general v.s.ctx off above

theorem GuestAccess.IsStorage.grown {t : GuestAccess} (storage : t.IsStorage) (v : VcpuView) :
    v.Grown (v.access t) := by
  obtain ⟨reg, names⟩ := Option.isSome_iff_exists.mp storage.names
  have acts := storage_actsOn t.host (t.arrive v) names
  have arrived : v.Grown (t.arrive v) := ⟨.refl _, .refl _, .refl _⟩
  exact arrived.trans acts.grown

theorem grown_run (run : List GuestAccess) (storage : ∀ u ∈ run, u.IsStorage) (v : VcpuView) :
    v.Grown (run.foldl VcpuView.access v) := by
  induction run generalizing v with
  | nil => exact .refl v
  | cons u rest ih =>
      have here := (storage u List.mem_cons_self).grown v
      exact here.trans (ih (fun w member => storage w (List.mem_cons_of_mem u member)) _)

/-- A register holds its last write, whatever else was accessed meanwhile. -/
theorem holds_run {a : SysAccess} {reg : StorageReg} (names : a.storage = some reg)
    (run : List GuestAccess) (storage : ∀ u ∈ run, u.IsStorage) :
    (run.foldl VcpuView.access v).holds reg = (v.lastWritten run a.enc).getD (v.holds reg) := by
  have kept := storage_kept names
  refine Cells.value_of_log (fun v : VcpuView => v.holds reg) run ?_ v
  intro s u member
  have known := storage u member
  obtain ⟨other, named⟩ := Option.isSome_iff_exists.mp known.names
  have acts := storage_actsOn u.host (u.arrive s) named
  have left : (s.access u).holds reg =
      if (u.answer s).1 = true ∧ u.access.read = false ∧ reg = other then
        (u.arrive s).s.ctx.readRt u.access.rt
      else s.holds reg := by
    rw [← known.arrived s reg kept]
    exact acts.holds reg kept
  have same : reg = other ↔ SharesStorage a.enc u.access.enc := by
    have some : a.storage.isSome := Option.isSome_iff_exists.mpr ⟨reg, names⟩
    rw [← storage_eq_iff some, names, named, Option.some.injEq]
  simp only [left, GuestAccess.writes]
  by_cases written : (u.answer s).1 = true ∧ u.access.read = false
  · rw [if_pos written]
    by_cases shared : SharesStorage a.enc u.access.enc
    · rw [if_pos ⟨written.1, written.2, same.mpr shared⟩]
      simp [Cells.lastUnder, shared]
    · rw [if_neg fun all => shared (same.mp all.2.2)]
      simp [Cells.lastUnder, shared]
  · rw [if_neg fun all => written ⟨all.1, all.2.1⟩, if_neg written]
    rfl

theorem carried_once {u t : GuestAccess} (first : u.IsStorage)
    (between : List GuestAccess) (storage : ∀ w ∈ between, w.IsStorage)
    (same : u.access.enc = t.access.enc) (v : VcpuView) :
    (u.answer v).1 = (t.answer (between.foldl VcpuView.access (v.access u))).1 := by
  obtain ⟨reg, named⟩ := Option.isSome_iff_exists.mp first.names
  have there : (SysAccess.ofEsr t.esr).storage = some reg := by
    rw [← named, ← registerOf_enc u.access, same, registerOf_enc]
    rfl
  have before := storage_actsOn u.host (u.arrive v) named
  have after := storage_actsOn t.host
    (t.arrive (between.foldl VcpuView.access (v.access u))) there
  have meanwhile := grown_run between storage (v.access u)
  rw [Bool.eq_iff_iff]
  constructor
  · intro carried
    have row : (between.foldl VcpuView.access (v.access u)).HasRow reg :=
      meanwhile.row (before.row carried)
    have arrived : VcpuView.Grown (between.foldl VcpuView.access (v.access u))
        (t.arrive (between.foldl VcpuView.access (v.access u))) := ⟨.refl _, .refl _, .refl _⟩
    exact after.carried.mpr (arrived.row row).room
  · intro carried
    have room := after.carried.mp carried
    have arrived : VcpuView.Grown (between.foldl VcpuView.access (v.access u))
        (t.arrive (between.foldl VcpuView.access (v.access u))) := ⟨.refl _, .refl _, .refl _⟩
    exact before.carried.mpr (before.grown.room (meanwhile.room (arrived.room room)))

end Runs

/-- The values registers come up with: of those kept in the page, the page's own. -/
def freshValue (page : Ctx) (a : SysAccess) : Word :=
  match a.storage with
  | some (.word off) => page.word off
  | some .tmrFiqEna => 3
  | some (.gic enc) => if enc = 0xc665 then 7 else 0
  | _ => 0

theorem initially_fresh (g : Globals) (i : Nat) (page : Ctx) (cancel : Bool) (v : VcpuView)
    (fresh : v.s = createdSlot g i page { exitRequested := cancel }) (a : SysAccess) :
    v.initially a = freshValue v.s.ctx a := by
  unfold VcpuView.initially freshValue
  cases a.storage with
  | none => rfl
  | some reg =>
      cases reg with
      | word off => rfl
      | gic enc =>
          simp only [VcpuView.holds, fresh]
          by_cases sre : enc = 0xc665
          · subst sre
            rfl
          · rw [if_neg sre]
            simp only [gicFile, createdSlot, Bool.false_eq_true, if_false, RegFile.get]
            rw [if_neg fun there => sre there.symm]
            rfl
      | _ =>
          simp only [VcpuView.holds, fresh]
          rfl

/-- The storage registers are one register file.  A read carried out gets the last
value written to the register, or what it came up with; two encodings are one
register exactly for the two bounds of the read-only region; and whether a
register is served is settled by its first access. -/
theorem storage_registerFile (v : VcpuView) (run : List GuestAccess) (t : GuestAccess)
    (storage : ∀ u ∈ t :: run, u.IsStorage) :
    ((t.answer (run.foldl VcpuView.access v)).1 = true → t.access.read = true →
      t.access.rt ≠ 31 →
      (t.answer (run.foldl VcpuView.access v)).2.s.ctx.x t.access.rt.toNat =
        (v.lastWritten run t.access.enc).getD (v.initially t.access)) ∧
    (∀ g i page cancel, v.s = createdSlot g i page { exitRequested := cancel } →
      v.initially t.access = freshValue v.s.ctx t.access) ∧
    (∀ u ∈ run, (u.access.storage = t.access.storage ↔
      SharesStorage u.access.enc t.access.enc)) ∧
    (∀ first u between, run = first ++ u :: between → u.access.enc = t.access.enc →
      (u.answer (first.foldl VcpuView.access v)).1 =
        (t.answer (run.foldl VcpuView.access v)).1) := by
  have last := storage t List.mem_cons_self
  have earlier : ∀ u ∈ run, u.IsStorage := fun u member => storage u (List.mem_cons_of_mem t member)
  obtain ⟨reg, names⟩ := Option.isSome_iff_exists.mp last.names
  refine ⟨?_, ?_, ?_, ?_⟩
  · intro carried reads used
    have acts := storage_actsOn t.host (t.arrive (run.foldl VcpuView.access v)) names
    have initial : v.initially t.access = v.holds reg := by
      rw [VcpuView.initially, names]
    rw [initial, ← holds_run names run earlier,
      ← last.arrived _ reg (storage_kept names)]
    exact acts.loads carried reads used
  · intro g i page cancel fresh
    exact initially_fresh g i page cancel v fresh t.access
  · intro u member
    exact storage_eq_iff (earlier u member).names
  · rintro first u between rfl same
    rw [List.foldl_append, List.foldl_cons]
    refine carried_once (earlier u (by simp)) between ?_ same _
    intro w member
    exact earlier w (by simp [member])

/-- CTRR_A_LWR written under its EL1 name, from a register the guest has just set. -/
def ctrrWrite : GuestAccess := ⟨fun c => c.setX 1 0x40, {}, 0x62373c24⟩

def ctrrRead : GuestAccess := ⟨fun c => c, {}, 0x62393c4d⟩

theorem ctrr_isStorage : ∀ u ∈ [ctrrRead, ctrrWrite], u.IsStorage := by
  intro u member
  simp only [List.mem_cons, List.not_mem_nil, or_false] at member
  rcases member with rfl | rfl
  · exact ⟨by decide, fun _ _ _ => rfl⟩
  · refine ⟨by decide, fun c off above => ?_⟩
    have apart : off ≠ ohvRwRegsX0 + 1 * 8 := by
      simp only [ohvRwSharedSysregs] at above
      simp only [ohvRwRegsX0]
      omega
    exact (c.word_put _ _ _).trans (if_neg apart)

theorem storage_registerFile_ctrr :
    (ctrrRead.answer ([ctrrWrite].foldl VcpuView.access ⟨{}, {}⟩)).2.s.ctx.x 2 = 0x40 := by
  have read := (storage_registerFile ⟨{}, {}⟩ [ctrrWrite] ctrrRead ctrr_isStorage).1
    (by decide) (by decide) (by decide)
  have written : (VcpuView.lastWritten ⟨{}, {}⟩ [ctrrWrite] ctrrRead.access.enc).getD
      (VcpuView.initially ⟨{}, {}⟩ ctrrRead.access) = 0x40 := by decide
  exact read.trans written

end OpenHypervisor
