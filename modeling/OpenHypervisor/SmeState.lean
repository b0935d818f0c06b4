import OpenHypervisor.State
import OpenHypervisor.Library.Blocks
import OpenHypervisor.Library.Runs

/-!
# SME state

The Z registers, ZA and ZT0, in one buffer the kernel shares: six functions that
each compute an offset into it from the streaming vector length.  What a component
was last set to is read back as long as no set of another one changes its bytes.
The Z registers and ZA lie apart at every length; ZT0 lies on the first of the Z
registers.
-/

set_option autoImplicit false

namespace OpenHypervisor

def hvIllegalGuestState : HvReturn := 0xfae94004#32

abbrev Byte := BitVec 8

def ohvStateSmeContext : Word := BitVec.twoPow 64 4

/-- A vCPU with the bytes behind the `sme` pointer of its read-only page. -/
structure SmeView where
  s : VcpuSlot
  buffer : Nat → Byte

namespace SmeView

def sme (v : SmeView) : Word := v.s.ctx.word ohvRoPageSme

/-- `svl_b`, 16 bits wide. -/
def svlB (v : SmeView) : Nat := ((v.s.ctx.word ohvRoPageSvlB).extractLsb' 0 16).toNat

end SmeView

/-! ## The calls

Each refuses a vCPU without a buffer first, and then a request that is too short or
names no register. -/

section Calls

def smeRead (refused : Prop) [Decidable refused] (base size : Nat) (v : SmeView) :
    Except HvReturn (List Byte) :=
  if v.sme = 0 then .error hvIllegalGuestState
  else if refused then .error hvBadArgument
  else .ok (Blocks.read v.buffer base size)

def smeWrite (refused : Prop) [Decidable refused] (base : Nat) (bytes : List Byte) (v : SmeView) :
    HvReturn × SmeView :=
  if v.sme = 0 then (hvIllegalGuestState, v)
  else if refused then (hvBadArgument, v)
  else (hvSuccess,
    { s := v.s.markDirty ohvStateSmeContext, buffer := Blocks.write v.buffer base bytes })

variable (v : SmeView)

def hvVcpuGetSmeZReg (reg len : Nat) : Except HvReturn (List Byte) :=
  smeRead (len < v.svlB ∨ 31 < reg) (reg * v.svlB) v.svlB v

def hvVcpuSetSmeZReg (reg : Nat) (bytes : List Byte) : HvReturn × SmeView :=
  smeWrite (bytes.length < v.svlB ∨ 31 < reg) (reg * v.svlB) (bytes.take v.svlB) v

def hvVcpuGetSmeZaReg (len : Nat) : Except HvReturn (List Byte) :=
  smeRead (len < v.svlB * v.svlB) (32 * v.svlB) (v.svlB * v.svlB) v

def hvVcpuSetSmeZaReg (bytes : List Byte) : HvReturn × SmeView :=
  smeWrite (bytes.length < v.svlB * v.svlB) (32 * v.svlB) (bytes.take (v.svlB * v.svlB)) v

/-- The type of the argument is a vector of 64 bytes. -/
def hvVcpuGetSmeZt0Reg : Except HvReturn (List Byte) := smeRead False 0 64 v

def hvVcpuSetSmeZt0Reg (bytes : Vector Byte 64) : HvReturn × SmeView :=
  smeWrite False 0 bytes.toList v

end Calls

/-! ## The components -/

inductive SmePart where
  | z (reg : Nat)
  | za
  | zt0
  deriving DecidableEq, Repr

namespace SmePart

def base (svl : Nat) : SmePart → Nat
  | z reg => reg * svl
  | za => 32 * svl
  | zt0 => 0

def size (svl : Nat) : SmePart → Nat
  | z _ => svl
  | za => svl * svl
  | zt0 => 64

def Named : SmePart → Prop
  | z reg => reg ≤ 31
  | _ => True

def get (part : SmePart) (len : Nat) (v : SmeView) : Except HvReturn (List Byte) :=
  match part with
  | z reg => hvVcpuGetSmeZReg v reg len
  | za => hvVcpuGetSmeZaReg v len
  | zt0 => hvVcpuGetSmeZt0Reg v

end SmePart

inductive SmeSet where
  | z (reg : Nat) (bytes : List Byte)
  | za (bytes : List Byte)
  | zt0 (bytes : Vector Byte 64)

namespace SmeSet

def part : SmeSet → SmePart
  | z reg _ => .z reg
  | za _ => .za
  | zt0 _ => .zt0

def stored (svl : Nat) : SmeSet → List Byte
  | z _ bytes => bytes.take svl
  | za bytes => bytes.take (svl * svl)
  | zt0 bytes => bytes.toList

def serve (act : SmeSet) (v : SmeView) : HvReturn × SmeView :=
  match act with
  | z reg bytes => hvVcpuSetSmeZReg v reg bytes
  | za bytes => hvVcpuSetSmeZaReg v bytes
  | zt0 bytes => hvVcpuSetSmeZt0Reg v bytes

end SmeSet

theorem SmePart.get_eq {part : SmePart} {v : SmeView} {len : Nat} (mapped : v.sme ≠ 0)
    (named : part.Named) (room : part.size v.svlB ≤ len) :
    part.get len v = .ok (Blocks.read v.buffer (part.base v.svlB) (part.size v.svlB)) := by
  cases part with
  | z reg =>
      have accepted : ¬ (len < v.svlB ∨ 31 < reg) := by
        simp only [SmePart.size, SmePart.Named] at room named
        omega
      show smeRead _ _ _ v = _
      rw [smeRead, if_neg mapped, if_neg accepted]
      rfl
  | za =>
      have accepted : ¬ len < v.svlB * v.svlB := Nat.not_lt.mpr room
      show smeRead _ _ _ v = _
      rw [smeRead, if_neg mapped, if_neg accepted]
      rfl
  | zt0 =>
      show smeRead _ _ _ v = _
      rw [smeRead, if_neg mapped, if_neg not_false]
      rfl

theorem SmeSet.serve_cases (act : SmeSet) (v : SmeView) :
    ((act.serve v).1 ≠ hvSuccess ∧ (act.serve v).2 = v) ∨
      (act.serve v = (hvSuccess, {
          s := v.s.markDirty ohvStateSmeContext
          buffer := Blocks.write v.buffer (act.part.base v.svlB) (act.stored v.svlB) }) ∧
        act.part.Named ∧ (act.stored v.svlB).length = act.part.size v.svlB) := by
  have illegal : hvIllegalGuestState ≠ hvSuccess := by decide
  have bad : hvBadArgument ≠ hvSuccess := by decide
  have write : ∀ (refused : Prop) [Decidable refused] (base : Nat) (bytes : List Byte),
      ((smeWrite refused base bytes v).1 ≠ hvSuccess ∧ (smeWrite refused base bytes v).2 = v) ∨
        (¬ refused ∧ smeWrite refused base bytes v = (hvSuccess, {
          s := v.s.markDirty ohvStateSmeContext, buffer := Blocks.write v.buffer base bytes })) := by
    intro refused _ base bytes
    unfold smeWrite
    by_cases unmapped : v.sme = 0
    · rw [if_pos unmapped]
      exact Or.inl ⟨illegal, rfl⟩
    · rw [if_neg unmapped]
      by_cases short : refused
      · rw [if_pos short]
        exact Or.inl ⟨bad, rfl⟩
      · rw [if_neg short]
        exact Or.inr ⟨short, rfl⟩
  cases act with
  | z reg bytes =>
      obtain failed | ⟨accepted, written⟩ := write (bytes.length < v.svlB ∨ 31 < reg)
        (reg * v.svlB) (bytes.take v.svlB)
      · exact Or.inl failed
      · refine Or.inr ⟨written, ?_, ?_⟩
        · show reg ≤ 31
          omega
        · exact List.length_take_of_le (by omega)
  | za bytes =>
      obtain failed | ⟨accepted, written⟩ := write (bytes.length < v.svlB * v.svlB)
        (32 * v.svlB) (bytes.take (v.svlB * v.svlB))
      · exact Or.inl failed
      · exact Or.inr ⟨written, trivial, List.length_take_of_le (Nat.not_lt.mp accepted)⟩
  | zt0 bytes =>
      obtain failed | ⟨accepted, written⟩ := write False 0 bytes.toList
      · exact Or.inl failed
      · exact Or.inr ⟨written, trivial, bytes.length_toList⟩

/-! ## Runs -/

structure SmeRun where
  view : SmeView
  last : SmePart → Option (List Byte) := fun _ => none

namespace SmeRun

def step (r : SmeRun) (act : SmeSet) : Option SmeRun :=
  some {
    view := (act.serve r.view).2
    last := if (act.serve r.view).1 = hvSuccess then
        Function.update r.last act.part (some (act.stored r.view.svlB))
      else r.last }

/-- Every component set so far reads back as it was last set. -/
def ReadsBack (_ : SmeRun) (_ : SmeSet) (next : SmeRun) : Prop :=
  ∀ part bytes, next.last part = some bytes → ∀ len, bytes.length ≤ len →
    part.get len next.view = .ok bytes

/-- An accepted set of ZT0 says in the bytes it shares with a Z register what that was
last set to, and the other way round. -/
def SharedKept (r : SmeRun) (act : SmeSet) (_ : SmeRun) : Prop :=
  (act.serve r.view).1 = hvSuccess →
    match act with
    | .z reg bytes => ∀ held, r.last .zt0 = some held →
        Blocks.Agree 0 held (reg * r.view.svlB) (bytes.take r.view.svlB)
    | .za _ => True
    | .zt0 bytes => ∀ reg held, r.last (.z reg) = some held →
        Blocks.Agree (reg * r.view.svlB) held 0 bytes.toList

structure Kept (svl : Nat) (r : SmeRun) : Prop where
  mapped : r.view.sme ≠ 0
  length : r.view.svlB = svl
  sized : ∀ part bytes, r.last part = some bytes → part.Named ∧ bytes.length = part.size svl
  laid : Blocks.Laid (SmePart.base svl) r.view.buffer r.last

variable {svl : Nat} {r next : SmeRun}

end SmeRun

/-! ## Which components lie apart -/

section Layout

variable {svl : Nat} {reg other : Nat} {bytes held : List Byte}

theorem z_apart (different : other ≠ reg) (size : bytes.length = svl) (size' : held.length = svl) :
    Blocks.Agree (other * svl) held (reg * svl) bytes := by
  apply Blocks.agree_of_apart
  rw [size, size', ← Nat.succ_mul, ← Nat.succ_mul]
  obtain below | above := Nat.lt_or_gt_of_ne different
  · exact Or.inl (Nat.mul_le_mul_right svl below)
  · exact Or.inr (Nat.mul_le_mul_right svl above)

theorem z_za_apart (named : reg ≤ 31) (size : bytes.length = svl) :
    Blocks.Agree (reg * svl) bytes (32 * svl) held := by
  apply Blocks.agree_of_apart
  rw [size, ← Nat.succ_mul]
  exact Or.inl (Nat.mul_le_mul_right svl (Nat.succ_le_succ named))

/-- Two bytes a register already put ZA past ZT0. -/
theorem zt0_za_apart (wide : 16 ≤ svl) (size : bytes.length = 64) :
    Blocks.Agree 0 bytes (32 * svl) held := by
  apply Blocks.agree_of_apart
  omega

end Layout

namespace SmeRun

variable {svl : Nat} {r next : SmeRun}

/-- Against the other components a set has to mind ZT0 or the Z registers only. -/
theorem sharedKept_iff (wide : 16 ≤ svl) (kept : r.Kept svl) (act : SmeSet) (next : SmeRun)
    (accepted : (act.serve r.view).1 = hvSuccess) (named : act.part.Named)
    (size : (act.stored svl).length = act.part.size svl) :
    (∀ part held, part ≠ act.part → r.last part = some held →
      Blocks.Agree (part.base svl) held (act.part.base svl) (act.stored svl)) ↔
        r.SharedKept act next := by
  have length := kept.length
  subst length
  unfold SharedKept
  rw [forall_prop_of_true accepted]
  cases act with
  | z reg bytes =>
      constructor
      · intro agree held known
        exact agree .zt0 held nofun known
      · intro shared part held other known
        cases part with
        | z reg' =>
            have different : reg' ≠ reg := fun same => other (congrArg SmePart.z same)
            exact z_apart different size (kept.sized _ _ known).2
        | za => exact (z_za_apart named size).symm
        | zt0 => exact shared held known
  | za bytes =>
      refine iff_of_true (fun part held other known => ?_) trivial
      obtain ⟨named', size'⟩ := kept.sized part held known
      cases part with
      | z reg => exact z_za_apart named' size'
      | za => exact absurd rfl other
      | zt0 => exact zt0_za_apart wide size'
  | zt0 bytes =>
      constructor
      · intro agree reg held known
        exact agree (.z reg) held nofun known
      · intro shared part held other known
        cases part with
        | z reg => exact shared reg held known
        | za => exact (zt0_za_apart wide size).symm
        | zt0 => exact absurd rfl other

theorem readsBack_iff_laid (mapped : next.view.sme ≠ 0) (length : next.view.svlB = svl)
    (sized : ∀ part bytes, next.last part = some bytes →
      part.Named ∧ bytes.length = part.size svl) (act : SmeSet) :
    r.ReadsBack act next ↔ Blocks.Laid (SmePart.base svl) next.view.buffer next.last := by
  subst length
  refine forall_congr' fun part => forall_congr' fun bytes => forall_congr' fun known => ?_
  obtain ⟨named, size⟩ := sized part bytes known
  rw [← Blocks.read_eq_iff, size]
  constructor
  · intro reads
    have shown := reads _ (Nat.le_refl _)
    rw [SmePart.get_eq mapped named (Nat.le_refl _)] at shown
    exact Except.ok.inj shown
  · intro same len room
    rw [SmePart.get_eq mapped named room, same]

theorem markDirty_sme (v : SmeView) (buffer : Nat → Byte) :
    (SmeView.mk (v.s.markDirty ohvStateSmeContext) buffer).sme = v.sme ∧
      (SmeView.mk (v.s.markDirty ohvStateSmeContext) buffer).svlB = v.svlB := by
  have same : ∀ off, off ≠ ohvRwStateDirty →
      (v.s.markDirty ohvStateSmeContext).ctx.word off = v.s.ctx.word off :=
    fun off other => v.s.ctx.markDirty_word _ off other
  refine ⟨same _ (by decide), ?_⟩
  rw [SmeView.svlB, SmeView.svlB, same _ (by decide)]

theorem step_kept (wide : 16 ≤ svl) (act : SmeSet) (taken : r.step act = some next)
    (kept : r.Kept svl) :
    (r.ReadsBack act next ↔ r.SharedKept act next) ∧ (r.SharedKept act next → next.Kept svl) := by
  cases taken
  obtain ⟨failed, same⟩ | ⟨done, named, size⟩ := act.serve_cases r.view
  · simp only [same, if_neg failed]
    have vacuous : r.SharedKept act r := fun accepted => absurd accepted failed
    refine ⟨iff_of_true ?_ vacuous, fun _ => kept⟩
    exact (readsBack_iff_laid kept.mapped kept.length kept.sized act).mpr kept.laid
  · have accepted : (act.serve r.view).1 = hvSuccess := congrArg Prod.fst done
    obtain ⟨sme, svlB⟩ := markDirty_sme r.view
      (Blocks.write r.view.buffer (act.part.base r.view.svlB) (act.stored r.view.svlB))
    rw [kept.length] at size done
    rw [kept.length] at sme svlB
    simp only [done, if_true, kept.length]
    have sized : ∀ part bytes,
        Function.update r.last act.part (some (act.stored svl)) part = some bytes →
          part.Named ∧ bytes.length = part.size svl := by
      intro part bytes known
      by_cases here : part = act.part
      · subst here
        rw [Function.update_self, Option.some.injEq] at known
        exact ⟨named, known ▸ size⟩
      · rw [Function.update_of_ne here] at known
        exact kept.sized part bytes known
    have mapped := fun unmapped => kept.mapped (sme.symm.trans unmapped)
    have shared := sharedKept_iff wide kept act r accepted named size
    have laid := Blocks.laid_write_iff kept.laid act.part (act.stored svl)
    refine ⟨Iff.trans (readsBack_iff_laid ?_ ?_ ?_ act) (laid.trans shared), fun holds => ?_⟩
    · exact mapped
    · exact svlB
    · exact sized
    · exact ⟨mapped, svlB, sized, laid.mpr (shared.mpr holds)⟩

end SmeRun

/-- On a vCPU with a buffer and a vector length the architecture allows, every component
reads back as last set exactly as long as ZT0 and the Z registers say the same in the
bytes they share. -/
theorem smeRun_readsBack_iff (v : SmeView) (mapped : v.sme ≠ 0) (wide : 16 ≤ v.svlB)
    (word : List SmeSet) :
    Runs.Along SmeRun.step SmeRun.ReadsBack ⟨v, fun _ => none⟩ word ↔
      Runs.Along SmeRun.step SmeRun.SharedKept ⟨v, fun _ => none⟩ word := by
  apply Runs.along_iff_of_invariant (SmeRun.Kept v.svlB)
  · intro r act next taken kept
    exact (SmeRun.step_kept wide act taken kept).1
  · intro r act next taken shared kept
    exact (SmeRun.step_kept wide act taken kept).2 shared
  · exact ⟨mapped, rfl, nofun, nofun⟩

def narrowSme : SmeView where
  s := { ctx := ((⟨⟨fun _ => 0⟩⟩ : Ctx).put ohvRoPageSvlB 16).put ohvRoPageSme 0x10000 }
  buffer := fun _ => 0

def zt0AfterZ0 : List SmeSet := [.z 0 (List.replicate 16 0xff), .zt0 (Vector.replicate 64 0)]

theorem smeRun_readsBack_narrow :
    Runs.Along SmeRun.step SmeRun.ReadsBack ⟨narrowSme, fun _ => none⟩ zt0AfterZ0 ↔
      Runs.Along SmeRun.step SmeRun.SharedKept ⟨narrowSme, fun _ => none⟩ zt0AfterZ0 :=
  smeRun_readsBack_iff narrowSme (by decide) (by decide) zt0AfterZ0

/-- Z0 then reads as zeros. -/
theorem zt0AfterZ0_lost :
    (Runs.runFrom SmeRun.step ⟨narrowSme, fun _ => none⟩ zt0AfterZ0).map
        (fun r => (hvVcpuGetSmeZReg r.view 0 16).toOption) = some (some (List.replicate 16 0)) ∧
      ¬ Runs.Along SmeRun.step SmeRun.ReadsBack ⟨narrowSme, fun _ => none⟩ zt0AfterZ0 := by
  refine ⟨by decide, fun along => ?_⟩
  obtain ⟨-, written⟩ := along _ rfl
  have back := (written _ rfl).1 (.z 0) (List.replicate 16 0xff) (by decide) 16 (by decide)
  have shown := congrArg Except.toOption back
  exact absurd shown (by decide)

end OpenHypervisor
