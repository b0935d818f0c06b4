import OpenHypervisor.GicState
import OpenHypervisor.Library.Cells

/-!
# The ICH registers one by one

`hv_gic_get_ich_reg` and `hv_gic_set_ich_reg` over any word of sets.  A writable
register is one word of the page, a set puts its value there and no set of another
encoding reaches it.  A refused set leaves two controllers no read tells apart.
The three registers the kernel reports are 32-bit fields side by side on the
read-only page, and the getter reads 64 bits eight bytes below each.
-/

set_option autoImplicit false

namespace OpenHypervisor

/-! ## Where a register is -/

def ichPlace (enc : BitVec 16) : Option Nat :=
  if enc = 0xe640 then some ohvRwVgicSysregs
  else if enc = 0xe648 then some (ohvRwVgicSysregs + 8)
  else if enc = 0xe658 then some (ohvRwControls + ichHcrOff)
  else if enc = 0xe65f then some (ohvRwBankedSysregs + 21 * 8)
  else if 0xe660 ≤ enc ∧ enc.toNat - 0xe660 < ichLrCount then
    some (ohvRwControls + ichLrOff (enc.toNat - 0xe660))
  else none

/-- A list register is shown without the flag that is this interface's. -/
def ichShown (enc : BitVec 16) (word : Word) : Word :=
  if 0xe660 ≤ enc then word &&& ~~~ohvIchLrDirty else word

def ichStored (enc : BitVec 16) (value : Word) : Word :=
  if 0xe660 ≤ enc then value ||| ohvIchLrDirty else value

/-- `ich_vtr_el2`, `ich_misr_el2` and `ich_elrsr_el2` of `ohv_ro_page_t`. -/
def ichReportedWord (c : Ctx) (enc : BitVec 16) : Option (BitVec 32) :=
  if enc = 0xe659 then some (c.lo32 ohvRoPageIchVtr)
  else if enc = 0xe65a then some (c.hi32 ohvRoPageIchVtr)
  else if enc = 0xe65d then some (c.lo32 ohvRoPageIchElrsr)
  else none

theorem ichShown_stored (enc : BitVec 16) (value : Word) :
    ichShown enc (ichStored enc value) = ichShown enc value := by
  unfold ichShown ichStored
  by_cases list : 0xe660 ≤ enc
  · simp only [if_pos list]
    have gone : ohvIchLrDirty &&& ~~~ohvIchLrDirty = 0#64 := by decide
    rw [BitVec.and_or_distrib_right, gone, BitVec.or_zero]
  · simp only [if_neg list]

inductive IchAt : BitVec 16 → Nat → Prop
  | ap0r0 : IchAt 0xe640 ohvRwVgicSysregs
  | ap1r0 : IchAt 0xe648 (ohvRwVgicSysregs + 8)
  | hcr : IchAt 0xe658 (ohvRwControls + ichHcrOff)
  | vmcr : IchAt 0xe65f (ohvRwBankedSysregs + 21 * 8)
  | lr (j : Nat) (small : j < ichLrCount) : IchAt (lrEncoding j) (ohvRwControls + ichLrOff j)

theorem lrEncoding_toNat {j : Nat} (small : j < ichLrCount) :
    (lrEncoding j).toNat = 0xe660 + j := by
  simp only [ichLrCount] at small
  rw [lrEncoding, BitVec.toNat_ofNat, Nat.mod_eq_of_lt (by omega)]

theorem lrEncoding_of_list {enc : BitVec 16} (list : 0xe660 ≤ enc) :
    lrEncoding (enc.toNat - 0xe660) = enc := by
  have above : 0xe660 ≤ enc.toNat := BitVec.le_def.mp list
  apply BitVec.eq_of_toNat_eq
  rw [lrEncoding, Nat.add_sub_cancel' above, BitVec.toNat_ofNat, Nat.mod_eq_of_lt enc.isLt]

theorem ichAt_of_place {enc : BitVec 16} {off : Nat} (place : ichPlace enc = some off) :
    IchAt enc off := by
  unfold ichPlace at place
  by_cases ap0r0 : enc = 0xe640
  · rw [if_pos ap0r0, Option.some.injEq] at place
    exact ap0r0 ▸ place ▸ .ap0r0
  · rw [if_neg ap0r0] at place
    by_cases ap1r0 : enc = 0xe648
    · rw [if_pos ap1r0, Option.some.injEq] at place
      exact ap1r0 ▸ place ▸ .ap1r0
    · rw [if_neg ap1r0] at place
      by_cases hcr : enc = 0xe658
      · rw [if_pos hcr, Option.some.injEq] at place
        exact hcr ▸ place ▸ .hcr
      · rw [if_neg hcr] at place
        by_cases vmcr : enc = 0xe65f
        · rw [if_pos vmcr, Option.some.injEq] at place
          exact vmcr ▸ place ▸ .vmcr
        · rw [if_neg vmcr] at place
          by_cases list : 0xe660 ≤ enc ∧ enc.toNat - 0xe660 < ichLrCount
          · rw [if_pos list, Option.some.injEq] at place
            have here := IchAt.lr _ list.2
            rw [lrEncoding_of_list list.1, place] at here
            exact here
          · rw [if_neg list] at place
            cases place

def kIchWritable : List (BitVec 16) := [
  0xe640, 0xe648, 0xe658, 0xe65f, 0xe660, 0xe661, 0xe662, 0xe663, 0xe664, 0xe665, 0xe666, 0xe667]

theorem IchAt.listed {enc : BitVec 16} {off : Nat} (here : IchAt enc off) :
    enc ∈ kIchWritable ∧ ichPlace enc = some off := by
  cases here with
  | ap0r0 => exact ⟨by decide, rfl⟩
  | ap1r0 => exact ⟨by decide, rfl⟩
  | hcr => exact ⟨by decide, rfl⟩
  | vmcr => exact ⟨by decide, rfl⟩
  | lr j small =>
      have checked : ∀ j < 8, lrEncoding j ∈ kIchWritable ∧
          ichPlace (lrEncoding j) = some (ohvRwControls + ichLrOff j) := by
        decide
      exact checked j small

theorem ichAt_of_writable {enc : BitVec 16} (writable : enc ∈ kIchWritable) :
    ∃ off, IchAt enc off := by
  have checked : (kIchWritable.all fun enc => (ichPlace enc).isSome) = true := by decide
  obtain ⟨off, place⟩ := Option.isSome_iff_exists.mp (List.all_eq_true.mp checked enc writable)
  exact ⟨off, ichAt_of_place place⟩

theorem IchAt.injective {enc other : BitVec 16} {off : Nat} (first : IchAt enc off)
    (second : IchAt other off) : enc = other := by
  have checked : (kIchWritable.all fun a => kIchWritable.all fun b =>
      decide (ichPlace a = ichPlace b → a = b)) = true := by decide
  obtain ⟨row, left⟩ := first.listed
  obtain ⟨column, right⟩ := second.listed
  have cell := List.all_eq_true.mp (List.all_eq_true.mp checked enc row) other column
  exact of_decide_eq_true cell (left.trans right.symm)

/-! ## One read and one set -/

theorem readIch_at {enc : BitVec 16} {off : Nat} (here : IchAt enc off) (m : GicModel)
    (s : VcpuSlot) (slot : Nat) : readIch enc m s slot = .ok (ichShown enc (s.ctx.word off)) := by
  cases here with
  | ap0r0 => simp [readIch, ichShown]
  | ap1r0 => simp [readIch, ichShown]
  | hcr => simp [readIch, ichShown, Ctx.control]
  | vmcr => simp [readIch, ichShown, Ctx.banked]
  | lr j small =>
      have list : 0xe660 ≤ lrEncoding j := by
        rw [BitVec.le_def, lrEncoding_toNat small]
        exact Nat.le_add_right _ j
      rw [readIch_lr m s slot small, ichShown, if_pos list]
      rfl

theorem writeIch_at {enc : BitVec 16} {off : Nat} (here : IchAt enc off) (value : Word) (c : Ctx) :
    writeIch enc value c = (hvSuccess, markGic (c.put off (ichStored enc value))) := by
  cases here with
  | ap0r0 => simp [writeIch, ichStored]
  | ap1r0 => simp [writeIch, ichStored]
  | hcr => simp [writeIch, ichStored, Ctx.setControl]
  | vmcr => simp [writeIch, ichStored, Ctx.setBanked]
  | lr j small =>
      have list : 0xe660 ≤ lrEncoding j := by
        rw [BitVec.le_def, lrEncoding_toNat small]
        exact Nat.le_add_right _ j
      have index : (lrEncoding j).toNat - 0xe660 = j := by
        rw [lrEncoding_toNat small, Nat.add_sub_cancel_left]
      have others : ∀ j < 8, ¬ ichReported (lrEncoding j) ∧ lrEncoding j ≠ 0xe640 ∧
          lrEncoding j ≠ 0xe648 ∧ lrEncoding j ≠ 0xe658 ∧ lrEncoding j ≠ 0xe65f := by
        decide
      obtain ⟨state, ap0r0, ap1r0, hcr, vmcr⟩ := others j small
      unfold ichReported at state
      rw [writeIch, if_neg state, if_neg ap0r0, if_neg ap1r0, if_neg hcr, if_neg vmcr, index,
        if_pos ⟨list, small⟩, ichStored, if_pos list]
      rfl

theorem writeIch_elsewhere {enc : BitVec 16} (elsewhere : ∀ off, ¬ IchAt enc off) (value : Word)
    (c : Ctx) : (writeIch enc value c).2 = c := by
  have ap0r0 : enc ≠ 0xe640 := by
    rintro rfl
    exact elsewhere _ .ap0r0
  have ap1r0 : enc ≠ 0xe648 := by
    rintro rfl
    exact elsewhere _ .ap1r0
  have hcr : enc ≠ 0xe658 := by
    rintro rfl
    exact elsewhere _ .hcr
  have vmcr : enc ≠ 0xe65f := by
    rintro rfl
    exact elsewhere _ .vmcr
  have list : ¬ (0xe660 ≤ enc ∧ enc.toNat - 0xe660 < ichLrCount) := by
    intro list
    have here := IchAt.lr _ list.2
    rw [lrEncoding_of_list list.1] at here
    exact elsewhere _ here
  unfold writeIch
  rw [if_neg ap0r0, if_neg ap1r0, if_neg hcr, if_neg vmcr, if_neg list]
  split <;> rfl

theorem IchAt.ne_dirty {enc : BitVec 16} {off : Nat} (here : IchAt enc off) :
    off ≠ ohvRwStateDirty := by
  cases here with
  | ap0r0 => decide
  | ap1r0 => decide
  | hcr => decide
  | vmcr => decide
  | lr j small =>
      simp only [ohvRwControls, ichLrOff, ohvRwStateDirty]
      simp only [ichLrCount] at small
      omega

/-! ## Words of sets -/

structure IchSet where
  id : Nat
  enc : BitVec 16
  value : Word

namespace IchSet

def after (w : IchSet) (s : GicSide) : GicSide := (GicCall.setIchReg w.id w.enc w.value).after s

def rc (w : IchSet) (s : GicSide) : HvReturn := (hvGicSetIchReg s.1 s.2 w.id w.enc w.value).rc

def writes (s : GicSide) (w : IchSet) : Option ((Nat × BitVec 16) × Word) :=
  if w.rc s = hvSuccess then some ((w.id, w.enc), ichShown w.enc w.value) else none

/-- A set stops at one of its checks, or writes the model and the page. -/
theorem cases_of (w : IchSet) (s : GicSide) :
    (w.rc s ≠ hvSuccess ∧ w.after s = s) ∨
      ∃ m i slot, s.1.gic = some m ∧ findVcpu s.2 w.id = some i ∧
        sparseSlot w.enc kIchEncodings = some slot ∧
        w.after s = ({ s.1 with gic := some { m with
            ich := updateRow m.ich (s.2 i).id slot w.value } },
          updateCtx s.2 i fun c => (writeIch w.enc w.value c).2) ∧
        w.rc s = (writeIch w.enc w.value (s.2 i).ctx).1 := by
  have noDevice : hvNoDevice ≠ hvSuccess := by decide
  have badArgument : hvBadArgument ≠ hvSuccess := by decide
  simp only [after, rc, GicCall.after, GicCall.serve, hvGicSetIchReg]
  cases s.1.gic with
  | none => exact Or.inl ⟨noDevice, rfl⟩
  | some m =>
      cases findVcpu s.2 w.id with
      | none => exact Or.inl ⟨noDevice, rfl⟩
      | some i =>
          simp only
          by_cases unmodelled : (s.2 i).id ≥ kModelledCpus
          · simp only [if_pos unmodelled]
            exact Or.inl ⟨badArgument, rfl⟩
          · simp only [if_neg unmodelled]
            cases sparseSlot w.enc kIchEncodings with
            | none => exact Or.inl ⟨badArgument, rfl⟩
            | some slot => exact Or.inr ⟨m, i, slot, rfl, rfl, rfl, rfl, rfl⟩

end IchSet

theorem findVcpu_val {slots : VcpuTable} {id : Nat} {i : Fin kMaxVcpuIds}
    (found : findVcpu slots id = some i) : i.val = id := by
  unfold findVcpu at found
  split at found
  · split at found
    · cases found
      rfl
    · cases found
  · cases found

theorem shown_after (s : GicSide) (w : IchSet) (i : Fin kMaxVcpuIds) {enc : BitVec 16} {off : Nat}
    (here : IchAt enc off) : ichShown enc (((w.after s).2 i).ctx.word off) =
      (Cells.lastUnder (fun key => key = (i.val, enc)) (w.writes s).toList).getD
        (ichShown enc ((s.2 i).ctx.word off)) := by
  obtain ⟨failed, same⟩ | ⟨m, k, slot, gic, found, named, after, rc⟩ := w.cases_of s
  · rw [IchSet.writes, if_neg failed, same]
    rfl
  · have vcpu : k.val = w.id := findVcpu_val found
    rw [after, IchSet.writes, rc]
    simp only [updateCtx]
    by_cases written : ∃ place, IchAt w.enc place
    · obtain ⟨place, there⟩ := written
      rw [writeIch_at there, if_pos rfl]
      simp only [Option.toList_some, Cells.lastUnder, Option.none_or]
      by_cases same : i = k
      · subst same
        rw [Function.update_self]
        simp only [markGic, Ctx.markDirty_word _ _ _ here.ne_dirty, Ctx.word_put]
        by_cases register : w.enc = enc
        · rw [register] at there
          have one : off = place := Option.some.inj (here.listed.2.symm.trans there.listed.2)
          rw [if_pos one, if_pos (by rw [vcpu, register]), register, ichShown_stored]
          rfl
        · have apart : off ≠ place := by
            rintro rfl
            exact register (there.injective here)
          have other : ¬ (w.id, w.enc) = (i.val, enc) := fun key => register (Prod.mk.inj key).2
          rw [if_neg apart, if_neg other]
          rfl
      · have other : ¬ (w.id, w.enc) = (i.val, enc) := by
          intro key
          exact same (Fin.ext ((Prod.mk.inj key).1.symm.trans vcpu.symm))
        rw [Function.update_of_ne same, if_neg other]
        rfl
    · have elsewhere : ∀ place, ¬ IchAt w.enc place := fun place there => written ⟨place, there⟩
      have other : ¬ (w.id, w.enc) = (i.val, enc) := by
        intro key
        exact elsewhere off ((Prod.mk.inj key).2 ▸ here)
      have unchanged : Function.update s.2 k { s.2 k with
          ctx := (writeIch w.enc w.value (s.2 k).ctx).2 } = s.2 := by
        rw [writeIch_elsewhere elsewhere]
        exact Function.update_eq_self k s.2
      rw [unchanged]
      split
      · simp only [Option.toList_some, Cells.lastUnder, Option.none_or, if_neg other]
        rfl
      · rfl

def setAll (sets : List IchSet) (s : GicSide) : GicSide := sets.foldl (fun s w => w.after s) s

def lastSet (s : GicSide) (sets : List IchSet) (id : Nat) (enc : BitVec 16) : Option Word :=
  Cells.lastUnder (fun key => key = (id, enc))
    (Cells.log (fun s w => w.after s) IchSet.writes s sets)

theorem shown_afterAll (s : GicSide) (sets : List IchSet) (i : Fin kMaxVcpuIds) {enc : BitVec 16}
    {off : Nat} (here : IchAt enc off) : ichShown enc (((setAll sets s).2 i).ctx.word off) =
      (lastSet s sets i enc).getD (ichShown enc ((s.2 i).ctx.word off)) :=
  Cells.value_of_log (fun s : GicSide => ichShown enc ((s.2 i).ctx.word off)) sets
    (fun s w _ => shown_after s w i here) s

theorem setAll_keeps (sets : List IchSet) {s : GicSide} (gic : ∃ m, s.1.gic = some m) :
    (∃ m, (setAll sets s).1.gic = some m) ∧ SameVcpus s.2 (setAll sets s).2 := by
  induction sets generalizing s with
  | nil => exact ⟨gic, fun _ => ⟨rfl, rfl⟩⟩
  | cons w rest ih =>
      obtain ⟨m, model⟩ := gic
      obtain ⟨m', model', -⟩ := setIchReg_setup model s.2 w.id w.enc w.value
      have vcpus : SameVcpus s.2 (w.after s).2 :=
        ((GicCall.setIchReg w.id w.enc w.value).serve_does s.1 s.2).edits.vcpus
      obtain ⟨later, same⟩ := ih (s := w.after s) ⟨m', model'⟩
      exact ⟨later, vcpus.trans same⟩

section Live

variable {s : GicSide} {m : GicModel} (gic : s.1.gic = some m) {i : Fin kMaxVcpuIds}
  (live : (s.2 i).used = true) (modelled : (s.2 i).id < kModelledCpus)

include gic live modelled

theorem getIch_at {enc : BitVec 16} {off : Nat} (here : IchAt enc off) :
    hvGicGetIchReg s.1 s.2 i enc = .ok (ichShown enc ((s.2 i).ctx.word off)) := by
  have checked : (kIchWritable.all fun enc => (sparseSlot enc kIchEncodings).isSome) = true := by
    decide
  obtain ⟨slot, named⟩ :=
    Option.isSome_iff_exists.mp (List.all_eq_true.mp checked enc here.listed.1)
  rw [hvGicGetIchReg_eq gic live modelled named]
  exact readIch_at here m (s.2 i) slot

theorem getIch_afterAll (sets : List IchSet) {enc : BitVec 16} (writable : enc ∈ kIchWritable) :
    hvGicGetIchReg (setAll sets s).1 (setAll sets s).2 i enc =
      match lastSet s sets i enc with
      | some value => .ok value
      | none => hvGicGetIchReg s.1 s.2 i enc := by
  obtain ⟨off, here⟩ := ichAt_of_writable writable
  obtain ⟨⟨m', gic'⟩, vcpus⟩ := setAll_keeps sets ⟨m, gic⟩
  rw [getIch_at gic' ((vcpus i).1.trans live) ((vcpus i).2 ▸ modelled) here,
    shown_afterAll s sets i here, getIch_at gic live modelled here]
  cases lastSet s sets i enc <;> rfl

end Live

/-! ## A refused set -/

/-- The model keeps a row of words a read never shows: those of the list registers
the page has instead, and of the eight it does not have at all. -/
def SameShown (m m' : GicModel) : Prop :=
  ∀ row slot, slot < 8 → m'.ich row slot = m.ich row slot

structure AlikeIch (s s' : GicSide) : Prop where
  models : Option.Rel SameShown s.1.gic s'.1.gic
  slots : s'.2 = s.2

theorem AlikeIch.refl (s : GicSide) : AlikeIch s s := by
  refine ⟨?_, rfl⟩
  cases s.1.gic with
  | none => exact .none
  | some m => exact .some fun _ _ _ => rfl

theorem updateRow_apply (bank : Nat → Nat → Word) (row slot : Nat) (value : Word)
    (other place : Nat) : updateRow bank row slot value other place =
      if other = row ∧ place = slot then value else bank other place := by
  unfold updateRow
  by_cases same : other = row
  · subst same
    rw [Function.update_self, Function.update_apply]
    simp only [true_and]
  · rw [Function.update_of_ne same, if_neg fun both => same both.1]

theorem readIch_alike {m m' : GicModel} (shown : SameShown m m') {enc : BitVec 16} {slot : Nat}
    (named : sparseSlot enc kIchEncodings = some slot) (s : VcpuSlot) :
    readIch enc m' s slot = readIch enc m s slot := by
  by_cases list : 0xe660 ≤ enc
  · unfold readIch
    simp only [if_pos list]
  · have small : slot < 8 := by
      have checked : ∀ k : Fin kIchEncodings.length, ¬ 0xe660 ≤ kIchEncodings[k] → k.val < 8 := by
        decide
      obtain ⟨inside, hit, -⟩ := List.findIdx?_eq_some_iff_getElem.mp named
      have same : kIchEncodings[slot] = enc := eq_of_beq hit
      exact checked ⟨slot, inside⟩ (same ▸ list)
    unfold readIch
    simp only [shown s.id slot small]

theorem slot_of_refused {enc : BitVec 16} {value : Word} {c : Ctx} {slot : Nat}
    (named : sparseSlot enc kIchEncodings = some slot)
    (failed : (writeIch enc value c).1 ≠ hvSuccess) : 8 ≤ slot ∧ ∀ off, ¬ IchAt enc off := by
  refine ⟨?_, fun off here => failed (congrArg Prod.fst (writeIch_at here value c))⟩
  have checked : ∀ k : Fin kIchEncodings.length, k.val < 8 →
      ichReported kIchEncodings[k] ∨ kIchEncodings[k] ∈ kIchWritable := by
    decide
  obtain ⟨inside, hit, -⟩ := List.findIdx?_eq_some_iff_getElem.mp named
  have same : kIchEncodings[slot] = enc := eq_of_beq hit
  refine Nat.le_of_not_lt fun small => ?_
  obtain reported | writable := checked ⟨slot, inside⟩ small
  · have state : ichReported enc := same ▸ reported
    unfold ichReported at state
    unfold writeIch at failed
    rw [if_pos state] at failed
    exact failed rfl
  · obtain ⟨off, here⟩ := ichAt_of_writable (show enc ∈ kIchWritable from same ▸ writable)
    exact failed (congrArg Prod.fst (writeIch_at here value c))

namespace AlikeIch

variable {s s' : GicSide}

theorem reads (alike : AlikeIch s s') (id : Nat) (enc : BitVec 16) :
    hvGicGetIchReg s'.1 s'.2 id enc = hvGicGetIchReg s.1 s.2 id enc := by
  obtain ⟨models, slots⟩ := alike
  unfold hvGicGetIchReg getBank
  rw [slots]
  generalize s.1.gic = left at models
  generalize s'.1.gic = right at models
  cases models with
  | none => rfl
  | some shown =>
      cases findVcpu s.2 id with
      | none => rfl
      | some i =>
          simp only
          cases named : sparseSlot enc kIchEncodings with
          | none => rfl
          | some slot => simp only [readIch_alike shown named]

theorem after (alike : AlikeIch s s') (w : IchSet) : AlikeIch (w.after s) (w.after s') := by
  obtain ⟨models, slots⟩ := alike
  simp only [IchSet.after, GicCall.after, GicCall.serve, hvGicSetIchReg]
  rw [slots]
  generalize left : s.1.gic = model at models
  generalize right : s'.1.gic = model' at models
  cases models with
  | none => exact ⟨by simp only [unchanged, left, right]; exact .none, rfl⟩
  | some shown =>
      have kept : ∀ rc, AlikeIch ((unchanged s.1 s.2 rc).g, (unchanged s.1 s.2 rc).slots)
          ((unchanged s'.1 s.2 rc).g, (unchanged s'.1 s.2 rc).slots) := by
        intro rc
        refine ⟨?_, rfl⟩
        simp only [unchanged, left, right]
        exact .some shown
      cases findVcpu s.2 w.id with
      | none => exact kept hvNoDevice
      | some i =>
          simp only
          by_cases unmodelled : (s.2 i).id ≥ kModelledCpus
          · simp only [if_pos unmodelled]
            exact kept hvBadArgument
          · simp only [if_neg unmodelled]
            cases sparseSlot w.enc kIchEncodings with
            | none => exact kept hvBadArgument
            | some slot =>
                refine ⟨.some fun row other small => ?_, rfl⟩
                refine (updateRow_apply _ _ _ _ _ _).trans (Eq.trans ?_
                  (updateRow_apply _ _ _ _ _ _).symm)
                rw [shown row other small]

theorem afterAll (alike : AlikeIch s s') (sets : List IchSet) :
    AlikeIch (setAll sets s) (setAll sets s') := by
  induction sets generalizing s s' with
  | nil => exact alike
  | cons w rest ih => exact ih (alike.after w)

end AlikeIch

/-- A refused set changes nothing that is ever read. -/
theorem alike_of_refused {s : GicSide} {w : IchSet} (failed : w.rc s ≠ hvSuccess) :
    AlikeIch s (w.after s) := by
  obtain ⟨-, same⟩ | ⟨m, i, slot, gic, found, named, after, rc⟩ := w.cases_of s
  · rw [same]
    exact .refl s
  · rw [rc] at failed
    obtain ⟨past, elsewhere⟩ := slot_of_refused named failed
    rw [after]
    refine ⟨?_, ?_⟩
    · rw [gic]
      refine .some fun row other small => ?_
      have apart : ¬ (row = (s.2 i).id ∧ other = slot) := by omega
      exact (updateRow_apply _ _ _ _ _ _).trans (if_neg apart)
    · simp only [updateCtx]
      rw [writeIch_elsewhere elsewhere]
      exact Function.update_eq_self i s.2

/-! ## Exactly its own register -/

/-- What the getter owes its caller: the reported registers as their own 32 bits, the
writable ones as last set, and nothing from a set it was refused. -/
structure IchExact (s : GicSide) (i : Fin kMaxVcpuIds) : Prop where
  reported : ∀ enc word, ichReportedWord (s.2 i).ctx enc = some word →
    hvGicGetIchReg s.1 s.2 i enc = .ok (word.zeroExtend 64)
  written : ∀ sets enc, enc ∈ kIchWritable →
    hvGicGetIchReg (setAll sets s).1 (setAll sets s).2 i enc =
      match lastSet s sets i enc with
      | some value => .ok value
      | none => hvGicGetIchReg s.1 s.2 i enc
  refused : ∀ w : IchSet, w.rc s ≠ hvSuccess → ∀ sets id enc,
    hvGicGetIchReg (setAll sets (w.after s)).1 (setAll sets (w.after s)).2 id enc =
      hvGicGetIchReg (setAll sets s).1 (setAll sets s).2 id enc

theorem beside_eq_iff (low high own : BitVec 32) :
    (high ++ low : BitVec 64) = own.zeroExtend 64 ↔ high = 0 ∧ low = own := by
  have alone : own.zeroExtend 64 = (0#32 ++ own : BitVec 64) := by
    apply BitVec.eq_of_toNat_eq
    rw [BitVec.toNat_append, BitVec.zeroExtend_eq_setWidth,
      BitVec.toNat_setWidth_of_le (by decide)]
    simp
  rw [alone]
  constructor
  · intro same
    have lower : low = own := by
      have cut := congrArg (BitVec.extractLsb' 0 32) same
      rwa [BitVec.extractLsb'_append_eq_right, BitVec.extractLsb'_append_eq_right] at cut
    exact ⟨(BitVec.append_left_inj own).mp (lower ▸ same), lower⟩
  · rintro ⟨rfl, rfl⟩
    rfl

theorem Ctx.word_halves (c : Ctx) (off : Nat) : c.word off = c.hi32 off ++ c.lo32 off := by
  have whole : (c.word off : BitVec (32 + 32)).extractLsb' 32 32 ++
      (c.word off : BitVec (32 + 32)).extractLsb' 0 32 = c.word off :=
    BitVec.extractLsb'_append_extractLsb'
  exact whole.symm

theorem Ctx.word_eq_zero_iff (c : Ctx) (off : Nat) :
    c.word off = 0 ↔ c.hi32 off = 0 ∧ c.lo32 off = 0 := by
  rw [c.word_halves off]
  exact beside_eq_iff (c.lo32 off) (c.hi32 off) 0

section Live

variable {s : GicSide} {m : GicModel} (gic : s.1.gic = some m) {i : Fin kMaxVcpuIds}
  (live : (s.2 i).used = true) (modelled : (s.2 i).id < kModelledCpus)

include gic live modelled

/-- Each of the three is 64 bits from where its macro points. -/
theorem getIch_reported :
    hvGicGetIchReg s.1 s.2 i 0xe659 =
        .ok ((s.2 i).ctx.hi32 ohvRoIchVtr ++ (s.2 i).ctx.lo32 ohvRoIchVtr) ∧
      hvGicGetIchReg s.1 s.2 i 0xe65a =
        .ok ((s.2 i).ctx.lo32 ohvRoIchElrsr ++ (s.2 i).ctx.hi32 ohvRoIchVtr) ∧
      hvGicGetIchReg s.1 s.2 i 0xe65d =
        .ok ((s.2 i).ctx.hi32 ohvRoIchElrsr ++ (s.2 i).ctx.lo32 ohvRoIchElrsr) := by
  have vtr : sparseSlot 0xe659 kIchEncodings = some 3 := by decide
  have misr : sparseSlot 0xe65a kIchEncodings = some 4 := by decide
  have elrsr : sparseSlot 0xe65d kIchEncodings = some 6 := by decide
  rw [hvGicGetIchReg_eq gic live modelled vtr, hvGicGetIchReg_eq gic live modelled misr,
    hvGicGetIchReg_eq gic live modelled elrsr, ← Ctx.word_halves, ← Ctx.word_halves]
  exact ⟨rfl, rfl, rfl⟩

/-- The accessors are exact on a live vCPU of the model exactly when the three reported
words and the word before them, `state_used`, are zero; the other two halves always hold. -/
theorem ichExact_iff : IchExact s i ↔
    (s.2 i).ctx.word ohvRoIchVtr = 0 ∧ (s.2 i).ctx.word ohvRoPageIchVtr = 0 ∧
      (s.2 i).ctx.lo32 ohvRoPageIchElrsr = 0 := by
  obtain ⟨vtr, misr, elrsr⟩ := getIch_reported gic live modelled
  -- the macro of ICH_ELRSR points to the field of ICH_VTR
  have below : ohvRoIchElrsr = ohvRoPageIchVtr := rfl
  rw [below] at misr elrsr
  rw [Ctx.word_eq_zero_iff, Ctx.word_eq_zero_iff]
  constructor
  · intro exact
    have one := exact.reported 0xe659 _ rfl
    have two := exact.reported 0xe65a _ rfl
    have three := exact.reported 0xe65d _ rfl
    rw [vtr, Except.ok.injEq, beside_eq_iff] at one
    rw [misr, Except.ok.injEq, beside_eq_iff] at two
    rw [elrsr, Except.ok.injEq, beside_eq_iff] at three
    -- ICH_MISR is read with ICH_VTR above it, and ICH_VTR in place of ICH_ELRSR
    exact ⟨⟨one.1, one.2.trans two.1⟩, ⟨three.1, two.1⟩, three.2.symm.trans two.1⟩
  · rintro ⟨⟨used, used'⟩, ⟨none, free⟩, empty⟩
    refine ⟨?_, fun sets enc writable => getIch_afterAll gic live modelled sets writable, ?_⟩
    · intro enc word named
      unfold ichReportedWord at named
      by_cases first : enc = 0xe659
      · rw [if_pos first, Option.some.injEq] at named
        rw [first, ← named, vtr, (beside_eq_iff _ _ _).mpr ⟨used, used'.trans free.symm⟩]
      · rw [if_neg first] at named
        by_cases second : enc = 0xe65a
        · rw [if_pos second, Option.some.injEq] at named
          rw [second, ← named, misr, (beside_eq_iff _ _ _).mpr ⟨free, used.trans none.symm⟩]
        · rw [if_neg second] at named
          by_cases third : enc = 0xe65d
          · rw [if_pos third, Option.some.injEq] at named
            rw [third, ← named, elrsr, (beside_eq_iff _ _ _).mpr ⟨none, free.trans empty.symm⟩]
          · rw [if_neg third] at named
            cases named
    · intro w failed sets id enc
      exact ((alike_of_refused failed).afterAll sets).reads id enc

end Live

/-- A controller and one vCPU whose page reports these words, for the two theorems
below. -/
def reportingSide (vtr misr elrsr : BitVec 32) : GicSide :=
  let page := ((⟨⟨fun _ => 0⟩⟩ : Ctx).put ohvRoPageIchVtr (misr ++ vtr)).put ohvRoPageIchElrsr
    (0#32 ++ elrsr)
  ({ gic := some {} }, fun i => { used := decide (i = vcpu0), id := i.val, ctx := page })

theorem ichExact_quiet : IchExact (reportingSide 0 0 0) vcpu0 ↔
    ((reportingSide 0 0 0).2 vcpu0).ctx.word ohvRoIchVtr = 0 ∧
      ((reportingSide 0 0 0).2 vcpu0).ctx.word ohvRoPageIchVtr = 0 ∧
      ((reportingSide 0 0 0).2 vcpu0).ctx.lo32 ohvRoPageIchElrsr = 0 :=
  ichExact_iff rfl rfl (by decide)

/-- With every list register empty ICH_MISR reads with ICH_VTR in its upper half, and
ICH_ELRSR as ICH_VTR. -/
theorem ichExact_leak :
    hvGicGetIchReg (reportingSide 3 0 0xff).1 (reportingSide 3 0 0xff).2 vcpu0 0xe65a =
        .ok 0x0000000300000000#64 ∧
      hvGicGetIchReg (reportingSide 3 0 0xff).1 (reportingSide 3 0 0xff).2 vcpu0 0xe65d =
        .ok 3#64 ∧
      ¬ IchExact (reportingSide 3 0 0xff) vcpu0 := by
  have shown : hvGicGetIchReg (reportingSide 3 0 0xff).1 (reportingSide 3 0 0xff).2 vcpu0
      0xe65a = .ok 0x0000000300000000#64 := by rfl
  have empty : hvGicGetIchReg (reportingSide 3 0 0xff).1 (reportingSide 3 0 0xff).2 vcpu0
      0xe65d = .ok 3#64 := by rfl
  refine ⟨shown, empty, fun exact => ?_⟩
  have own := exact.reported 0xe65a 0 (by decide)
  rw [shown, Except.ok.injEq] at own
  exact absurd own (by decide)

end OpenHypervisor
