import OpenHypervisor.Announce

/-!
# Control changes of the other operations

The sweep, the VMM's calls, the interrupt controller and creation all meet the
obligation of `Ctx.Announces`.  With the exit they are the operations of the
library, and the whole of it announces what it changes if and only if the exit
is not the one of the timer mask.
-/

set_option autoImplicit false

namespace OpenHypervisor

open Ctx (Announces)

/-! ## The levels and the sweep -/

theorem setHcrLevel_announces (n : Nat) (want : Bool) (s : VcpuSlot) :
    Announces s.ctx (setHcrLevel n want s).ctx := by
  unfold setHcrLevel
  split
  · exact .refl _
  · exact .marked _

theorem setLevels_announces (cfg : OhvCfg) (s : VcpuSlot) :
    Announces s.ctx (setLevels cfg s).ctx := by
  have fiq := setHcrLevel_announces 6 (wantFiq cfg s) { s with timerFiq := wantTimerFiq cfg s }
  exact fiq.trans (setHcrLevel_announces 7 _ _)

theorem trackIstatus_announces (physical : Bool) (now : Word) (s : VcpuSlot) :
    Announces s.ctx (trackIstatus physical now s).ctx := by
  obtain same | ⟨value, -, written⟩ := trackIstatus_cases physical now s
  · rw [same]
    exact .refl _
  · rw [written]
    cases physical with
    | true => exact (Announces.refl s.ctx).markDirty _
    | false => exact ((Announces.refl s.ctx).put _ value (by decide) (by decide)).markDirty _

theorem ohvExpireTimers_announces (now : Word) (v : VcpuView) :
    Announces v.s.ctx (ohvExpireTimers now v).s.ctx := by
  have virtual : Announces v.s.ctx (expireTimer false now (ohvNoteImageBand v).s).ctx := by
    rw [expireTimer_ctx]
    exact trackIstatus_announces false now (ohvNoteImageBand v).s
  have swept : Announces v.s.ctx (sweptTimers now (ohvNoteImageBand v).s).ctx := by
    rw [sweptTimers, expireTimer_ctx]
    exact virtual.trans (trackIstatus_announces true now _)
  exact swept.trans (setLevels_announces _ _)

/-! ## The VMM's calls -/

theorem table_marks_controls (d : SysRegDesc) (listed : d ∈ kAppleTable ++ kEl2Table ++ kTable)
    (base : Nat) (region : d.region = some base) :
    (InControls (base + d.index * 8) → d.dirtyBit = ohvStateControls) ∧
      base + d.index * 8 ≠ ohvRwStateDirty := by
  have checked : ∀ d ∈ kAppleTable ++ kEl2Table ++ kTable, ∀ base ∈ d.region,
      (InControls (base + d.index * 8) → d.dirtyBit = ohvStateControls) ∧
        base + d.index * 8 ≠ ohvRwStateDirty := by
    decide +kernel
  exact checked d listed base region

theorem mirrorVmkey_announces (cfg : OhvCfg) (enc : BitVec 16) (value : Word) (c : Ctx) :
    Announces c (mirrorVmkey cfg enc value c) := by
  unfold mirrorVmkey
  split
  · exact .marked _
  · split
    · exact .marked _
    · exact .refl _

theorem writeDesc_announces (cfg : OhvCfg) (d : SysRegDesc) (base : Nat) (enc : BitVec 16)
    (value : Word) (c : Ctx) (listed : d ∈ kAppleTable ++ kEl2Table ++ kTable)
    (region : d.region = some base) : Announces c (writeDesc cfg d base enc value c) := by
  obtain ⟨marks, other⟩ := table_marks_controls d listed base region
  unfold writeDesc
  by_cases inside : InControls (base + d.index * 8)
  · rw [marks inside]
    exact .marked _
  · have written := ((Announces.refl c).put _ (filterWrite enc value) inside other).trans
      (mirrorVmkey_announces cfg enc (filterWrite enc value) _)
    simp only
    split
    · exact written
    · exact written.markDirty _

section Access

variable {host : Host} (kernel : host.SparesControls)

include kernel

theorem contextAccess_announces (d : SysRegDesc) (base : Nat) (enc : BitVec 16) (value : Word)
    (write : Bool) (v : VcpuView) (listed : d ∈ kAppleTable ++ kEl2Table ++ kTable)
    (region : d.region = some base) :
    Announces v.s.ctx (contextAccess host d base enc value write v).view.s.ctx := by
  have current : Announces v.s.ctx (if needsSync d v.s.ctx then v.sync host 0 else v).s.ctx := by
    split
    · exact kernel.sync 0 v.s.ctx
    · exact .refl _
  unfold contextAccess
  simp only
  split
  · exact current
  · split
    · exact current.trans (writeDesc_announces _ d base enc value _ listed region)
    · exact current

theorem sysregAccess_announces (enc : BitVec 16) (value : Word) (write : Bool) (v : VcpuView) :
    Announces v.s.ctx (sysregAccess host enc value write v).view.s.ctx := by
  unfold sysregAccess
  split
  · exact .refl _
  · rename_i d found
    split
    · rw [(idRegAccess_frame host enc value write v).2]
      exact .refl _
    · rw [(shadowAccess_frame d value write v).2]
      exact .refl _
    · rename_i base region _ _
      exact contextAccess_announces kernel d base enc value write v
        (sysregLookup_mem enc d found) region
    · exact .refl _

end Access

theorem hvVcpuSetReg_announces (reg : Nat) (value : Word) (v : VcpuView) :
    Announces v.s.ctx (hvVcpuSetReg reg value v).2.s.ctx := by
  have put : ∀ off value, off < ohvRwControls → Announces v.s.ctx (v.s.ctx.put off value) := by
    intro off value below
    simp only [ohvRwControls] at below
    refine (Announces.refl _).put off value ?_ ?_
    · simp only [InControls, ohvRwControls]
      omega
    · simp only [ohvRwStateDirty]
      omega
  unfold hvVcpuSetReg
  simp only
  split
  · exact put _ _ (by decide)
  · split
    · exact put _ _ (by decide)
    · split
      · exact put _ _ (by decide)
      · split
        · exact put _ _ (by decide)
        · split
          · rename_i small
            refine put _ _ ?_
            simp only [hvRegPc] at small
            simp only [ohvRwRegsX0, ohvRwControls]
            omega
          · exact .refl _

def VcpuCall.SparesControls : VcpuCall → Prop
  | .getSysReg host _ => host.SparesControls
  | .setSysReg host _ _ => host.SparesControls
  | _ => True

theorem VcpuCall.serve_announces (call : VcpuCall) (kernel : call.SparesControls) (v : VcpuView) :
    Announces v.s.ctx (call.serve v).s.ctx := by
  cases call with
  | setPending type pending =>
      cases type with
      | fiq => exact setHcrLevel_announces 6 _ { v.s with vmmFiq := pending, timerFiq := _ }
      | irq => exact setHcrLevel_announces 7 _ { v.s with vmmIrq := pending }
  | setParked parked =>
      simp only [VcpuCall.serve, ohvVcpuSetParked]
      split
      · exact .refl _
      · exact setLevels_announces v.g.cfg { v.s with inWfx := parked }
  | setReg reg value => exact hvVcpuSetReg_announces reg value v
  | getSysReg host enc => exact sysregAccess_announces kernel enc 0 false v
  | setSysReg host enc value =>
      simp only [VcpuCall.serve, hvVcpuSetSysReg_eq_access]
      exact sysregAccess_announces kernel enc value true v
  | setControlField field value =>
      simp only [VcpuCall.serve, hvVcpuSetControlField]
      split
      · exact .refl _
      · split
        · exact .refl _
        · exact .marked _
  | setTrapDebugExceptions _ | setTrapDebugRegAccesses _ | setVtimerMask _ | setVtimerOffset _ =>
      exact .marked _

/-! ## The interrupt controller -/

/-- What holds between pages of each write a controller call is made of holds of
the call. -/
theorem GicCall.serve_pages (call : GicCall) {R : Ctx → Ctx → Prop} (refl : ∀ c, R c c)
    (trans : ∀ first second third, R first second → R second third → R first third)
    (mark : ∀ c : Ctx, R c (c.markDirty ohvStateGic))
    (lr : ∀ (c : Ctx) i value, i < ichLrCount → R c (markGic (c.setIchLr i value)))
    (ich : ∀ id enc value, call = .setIchReg id enc value → ∀ c, R c (writeIch enc value c).2)
    (g : Globals) (slots : VcpuTable) (i : Fin kMaxVcpuIds) :
    R (slots i).ctx ((call.serve g slots).slots i).ctx := by
  have queued : ∀ intid priority c, R c (queueSpi intid priority c) := by
    intro intid priority c
    unfold queueSpi
    simp only
    split
    · exact refl c
    · split
      · rename_i j found
        exact lr c j _ (List.mem_range.mp (List.mem_of_find?_eq_some found))
      · exact refl c
  have retired : ∀ intid c, R c (retireSpi intid c) := by
    intro intid c
    have folded : ∀ lrs : List Nat, (∀ j ∈ lrs, j < ichLrCount) →
        ∀ c, R c (lrs.foldl (retireLr intid) c) := by
      intro lrs small
      induction lrs with
      | nil => exact fun c => refl c
      | cons j rest ih =>
          intro c
          have one : R c (retireLr intid c j) := by
            unfold retireLr
            split
            · exact lr c j _ (small j List.mem_cons_self)
            · exact refl c
          rw [List.foldl_cons]
          exact trans _ _ _ one (ih (fun k later => small k (List.mem_cons_of_mem j later)) _)
    exact folded _ (fun j inside => List.mem_range.mp inside) c
  have edited : ∀ f, call.PageEdit f → ∀ c, R c (f c) := by
    intro f edit c
    cases edit with
    | mark => exact mark c
    | ich id enc value => exact ich id enc value rfl c
    | queue intid priority => exact queued intid priority c
    | retire intid => exact retired intid c
  obtain ⟨-, edits⟩ := call.serve_does g slots
  generalize (call.serve g slots).slots = after at edits ⊢
  cases edits with
  | nothing => exact refl _
  | page j f live edit =>
      unfold updateCtx
      by_cases here : i = j
      · subst here
        rw [Function.update_self]
        exact edited f edit _
      · rw [Function.update_of_ne here]
        exact refl _
  | all =>
      unfold markAll
      split
      · exact mark _
      · exact refl _

theorem writeIch_announces (enc : BitVec 16) (value : Word) (c : Ctx) :
    Announces c (writeIch enc value c).2 := by
  unfold writeIch
  split
  · exact .refl _
  · split
    · exact .markedGic _
    · split
      · exact .markedGic _
      · split
        · exact .markedGic _
        · split
          · exact .markedGic _
          · split
            · exact .markedGic _
            · exact .refl _

theorem GicCall.serve_announces (call : GicCall) (g : Globals) (slots : VcpuTable)
    (i : Fin kMaxVcpuIds) : Announces (slots i).ctx ((call.serve g slots).slots i).ctx := by
  apply call.serve_pages Announces.refl fun _ _ _ => Announces.trans
  · exact fun c => (Announces.refl c).markDirty _
  · exact fun c i value _ => .markedGic _
  · exact fun _ enc value _ => writeIch_announces enc value

/-! ## Creation -/

theorem createdCtx_announces (g : Globals) (page : Ctx) : Announces page (createdCtx g page) := by
  have nested : Announces page (if g.vmEl2 then nestControls g.cfg g.vmVhe page else page) := by
    split
    · have marked : ∀ c : Ctx,
          Announces page ((c.markDirty ohvStateControls).put ohvNestedHcrEl2 0x80000000) :=
        fun c => (Announces.marked c).put _ _ (by decide) (by decide)
      unfold nestControls
      simp only
      split
      · exact (marked _).put _ _ (by decide) (by decide)
      · exact marked _
    · exact .refl _
  unfold createdCtx
  simp only
  split
  · exact .markedGic _
  · exact nested

/-! ## Every operation -/

/-- What the library does to the pages of its vCPUs, an operation at a time. -/
inductive LibraryOp where
  | exit (i : VcpuId) (host : Host)
  | access (i : VcpuId) (host : Host) (esr : Word)
  | expire (i : VcpuId) (now : Word)
  | call (i : VcpuId) (call : VcpuCall)
  | gic (call : GicCall)
  | create (trap : CreateTrap)

namespace LibraryOp

def serve (s : System) : LibraryOp → System
  | .exit i host => s.setView i (exitFromRo host (s.view i)).2
  | .access i host esr => s.setView i (serviceNv2Access host esr (s.view i)).2
  | .expire i now => s.setView i (ohvExpireTimers now (s.view i))
  | .call i asked => s.setView i (asked.serve (s.view i))
  | .gic asked =>
      { s with g := (asked.serve s.g s.slots).g, slots := (asked.serve s.g s.slots).slots }
  | .create trap => { s with slots := (hvVcpuCreate s.g trap s.slots).2 }

/-- The page of a vCPU the operation starts from: for the one a create trap makes
it is what the kernel mapped. -/
def pageBefore (s : System) (i : VcpuId) : LibraryOp → Ctx
  | .create trap =>
      if (hvVcpuCreate s.g trap s.slots).1 = hvSuccess ∧ firstFree s.slots = some i then trap.page
      else (s.slots i).ctx
  | _ => (s.slots i).ctx

def SparesControls : LibraryOp → Prop
  | .exit _ host => host.SparesControls
  | .call _ asked => asked.SparesControls
  | _ => True

/-- The one way out: a virtual timer's interrupt reported with the flag down. -/
def MasksUnannounced (s : System) : LibraryOp → Prop
  | .exit i host => OpenHypervisor.MasksUnannounced s.g.cfg host (s.slots i)
  | _ => False

end LibraryOp

theorem setView_announces (s : System) (i j : VcpuId) (v : VcpuView)
    (own : Announces (s.slots i).ctx v.s.ctx) :
    Announces (s.slots j).ctx ((s.setView i v).slots j).ctx := by
  by_cases here : j = i
  · subst here
    rw [System.setView_slots_self]
    exact own
  · rw [System.setView_slots_of_ne s here]
    exact .refl _

theorem hvVcpuCreate_announces (s : System) (trap : CreateTrap) (i : VcpuId) :
    Announces ((LibraryOp.create trap).pageBefore s i)
      ((hvVcpuCreate s.g trap s.slots).2 i).ctx := by
  have failed : ∀ rc : HvReturn, hvVcpuCreate s.g trap s.slots = (rc, s.slots) →
      (rc = hvSuccess → firstFree s.slots ≠ some i) →
      Announces ((LibraryOp.create trap).pageBefore s i)
        ((hvVcpuCreate s.g trap s.slots).2 i).ctx := by
    intro rc answer other
    rw [LibraryOp.pageBefore, answer, if_neg fun both => other both.1 both.2]
    exact .refl _
  by_cases alive : s.g.vmAlive = false
  · exact failed hvNoDevice (by rw [hvVcpuCreate, if_pos alive])
      fun success => absurd success (by decide)
  · cases found : firstFree s.slots with
    | none =>
        refine failed hvNoResources ?_ fun success => absurd success (by decide)
        rw [hvVcpuCreate, if_neg alive, found]
    | some free =>
        by_cases trapped : trap.rc ≠ hvSuccess
        · refine failed trap.rc ?_ fun success => absurd success trapped
          rw [hvVcpuCreate, if_neg alive, found]
          exact if_pos trapped
        · by_cases version : trap.page.word ohvRoVer >>> 32 ≠ ohvStateVerMagic
          · refine failed hvError ?_ fun success => absurd success (by decide)
            rw [hvVcpuCreate, if_neg alive, found]
            simp only [if_neg trapped, if_pos version]
          · have answer : hvVcpuCreate s.g trap s.slots = (hvSuccess, Function.update s.slots free
                (createdSlot s.g free trap.page (s.slots free))) := by
              rw [hvVcpuCreate, if_neg alive, found]
              simp only [if_neg trapped, if_neg version]
            rw [LibraryOp.pageBefore, answer, found]
            by_cases here : i = free
            · subst here
              simp only [true_and, if_true, Function.update_self]
              exact createdCtx_announces s.g trap.page
            · have other : ¬ (hvSuccess = hvSuccess ∧ some free = some i) := by
                rintro ⟨-, same⟩
                exact here (Option.some.inj same).symm
              rw [if_neg other]
              simp only [Function.update_of_ne here]
              exact .refl _

theorem LibraryOp.serve_announces (op : LibraryOp) (s : System) (kernel : op.SparesControls)
    (other : ¬ op.MasksUnannounced s) (i : VcpuId) :
    Announces (op.pageBefore s i) ((op.serve s).slots i).ctx := by
  cases op with
  | exit j host => exact setView_announces s j i _ (exitFromRo_announces host kernel (s.view j) other)
  | access j host esr => exact setView_announces s j i _ (serviceNv2Access_announces host esr (s.view j))
  | expire j now => exact setView_announces s j i _ (ohvExpireTimers_announces now (s.view j))
  | call j call => exact setView_announces s j i _ (call.serve_announces kernel (s.view j))
  | gic call => exact call.serve_announces s.g s.slots i
  | create trap => exact hvVcpuCreate_announces s trap i

/-- Every operation that changes a control word leaves `OHV_STATE_CONTROLS` up,
unless it is the exit that raises the virtual timer's mask with the flag down. -/
theorem controls_announced_iff (op : LibraryOp) (s : System) (kernel : op.SparesControls) :
    (∀ i off, InControls off →
      ((op.serve s).slots i).ctx.word off ≠ (op.pageBefore s i).word off →
      ((op.serve s).slots i).ctx.ControlsDirty) ↔ ¬ op.MasksUnannounced s := by
  constructor
  · intro announced masks
    cases op with
    | exit j host =>
        obtain ⟨moved, down⟩ := exitFromRo_silent host kernel (s.view j) masks
        have raised := announced j ohvRwTimer (by decide)
        simp only [LibraryOp.serve, System.setView_slots_self] at raised
        exact down (raised moved)
    | access | expire | call | gic | create => exact masks
  · intro other i
    exact (op.serve_announces s kernel other i).change

def firedPage (flags : Word) : Ctx :=
  ((({} : VcpuSlot).ctx.put ohvRoExitReason 3).setBanked 18 5).put ohvRwStateDirty flags

def firedSystem (flags : Word) : System :=
  { slots := fun _ => { used := true, ctx := firedPage flags } }

theorem controls_announced_flagged :
    (((LibraryOp.exit vcpu0 {}).serve (firedSystem ohvStateControls)).slots vcpu0).ctx.timer = 1 ∧
      (((LibraryOp.exit vcpu0 {}).serve (firedSystem ohvStateControls)).slots
        vcpu0).ctx.ControlsDirty := by
  have kernel : (LibraryOp.exit vcpu0 {}).SparesControls :=
    ⟨fun _ c => Ctx.SameControls.refl c, fun _ _ up => up⟩
  have announced := (controls_announced_iff (.exit vcpu0 {}) (firedSystem ohvStateControls)
    kernel).mpr fun masks => masks.2.1 (by decide)
  exact ⟨by decide, announced vcpu0 ohvRwTimer (by decide) (by decide)⟩

theorem timer_mask_unannounced :
    ¬ ∀ (op : LibraryOp) (s : System), op.SparesControls → ∀ i off, InControls off →
      ((op.serve s).slots i).ctx.word off ≠ (op.pageBefore s i).word off →
      ((op.serve s).slots i).ctx.ControlsDirty := by
  intro announced
  have kernel : (LibraryOp.exit vcpu0 {}).SparesControls :=
    ⟨fun _ c => Ctx.SameControls.refl c, fun _ _ up => up⟩
  have masks : MasksUnannounced {} {} { used := true, ctx := firedPage 0 } := by
    refine ⟨⟨Or.inl (by decide), by decide, by decide⟩, by decide, ?_⟩
    rintro (⟨left, -⟩ | ⟨-, inside, -⟩)
    · exact Bool.false_ne_true left
    · exact absurd inside (by decide)
  obtain ⟨moved, down⟩ := exitFromRo_silent {} kernel ((firedSystem 0).view vcpu0) masks
  have raised := announced (.exit vcpu0 {}) (firedSystem 0) kernel vcpu0 ohvRwTimer (by decide)
  simp only [LibraryOp.serve, System.setView_slots_self] at raised
  exact down (raised moved)

end OpenHypervisor
