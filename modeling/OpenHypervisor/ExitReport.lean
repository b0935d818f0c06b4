import OpenHypervisor.GuestRegisters

/-!
# What the VMM is told of an exit

`hv_vcpu_run` returns with a record of the exit and the guest's registers where the VMM
reads them.  Between the kernel's return and the library's another thread may cancel the
run, raise interrupts or run its own vCPU; what the VMM finds is a cancelled run, or the
record of the exit the kernel reported last with the registers the guest left then.
-/

set_option autoImplicit false

namespace OpenHypervisor

/-- The virtual timer's: its mask is down and its control word says it fired. -/
def Ctx.TimerFired (c : Ctx) : Prop := c.timer &&& ohvTimerMask = 0 ∧ c.banked 18 = 5

instance (c : Ctx) : Decidable c.TimerFired := inferInstanceAs (Decidable (_ ∧ _))

/-- The reason the VMM is given for what the kernel reports.  A physical interrupt that comes
with the syndrome of a trapped access is looked at after a sync. -/
def Ctx.MayReport (page : Ctx) (reason : HvExitReason) : Prop :=
  match page.exitReason.toNat with
  | 0 => reason = .canceled
  | 3 | 4 =>
      if page.exitEc = 0x18 then reason = .vtimerActivated ∨ reason = .unknown
      else reason = if page.TimerFired then .vtimerActivated else .unknown
  | 1 | 6 | 8 => reason = .exception
  | 2 | 7 | 11 | 12 => False
  | _ => reason = .unknown

/-- The syndrome the VMM is given: one the kernel left out is made up from the instruction,
of an MSR trap or a guarded exit. -/
def Ctx.shownSyndrome (page : Ctx) (insn : Option (BitVec 32)) : Word :=
  if page.exitEsr = 0 then
    match insn with
    | some insn =>
        if page.exitReason = 8 ∧ insn &&& 0xffd00000#32 = 0xd5100000#32 then msrTrapSyndrome insn
        else if page.exitReason = 1 ∧ insn = 0x00201400#32 then
          (0x3f#64 <<< 26) ||| (1#64 <<< 25) ||| 0x22#64
        else 0
    | none => 0
  else page.exitEsr

/-- The instruction the guest stopped on, its address taken as physical. -/
def insnAt (maps : List MapRecord) (host : Host) (page : Ctx) : Option (BitVec 32) :=
  (ohvGuestPtr maps page.pc 4).map host.mem.read32

structure Recorded (page : Ctx) (insn : Option (BitVec 32)) (exit : HvVcpuExit) : Prop where
  reason : page.MayReport exit.reason
  syndrome : exit.syndrome = page.shownSyndrome insn
  virtualAddress : exit.virtualAddress = page.exitFar
  physicalAddress : exit.physicalAddress =
    (page.exitHpfar &&& ~~~0xfff#64) ||| (page.exitFar &&& 0xfff#64)

/-! ## One exit -/

structure Noted (maps : List MapRecord) (page : Ctx) (v : VcpuView) : Prop where
  maps : v.g.maps = maps
  pc : v.s.ctx.pc = page.pc
  esr : v.s.ctx.exitEsr = page.exitEsr
  syndrome : v.s.pubExit.syndrome = page.exitEsr
  virtualAddress : v.s.pubExit.virtualAddress = page.exitFar
  physicalAddress : v.s.pubExit.physicalAddress =
    (page.exitHpfar &&& ~~~0xfff#64) ||| (page.exitFar &&& 0xfff#64)

def Records (page : Ctx) (insn : Option (BitVec 32)) (out : ExitAction × VcpuView) : Prop :=
  out.1 = .toVmm → Recorded page insn out.2.s.pubExit

section Exit
variable {host : Host} {maps : List MapRecord} {page : Ctx} {v w : VcpuView}

theorem Noted.elsewhere (noted : Noted maps page v) (same : w.g.maps = v.g.maps)
    (record : w.s.pubExit = v.s.pubExit) (pc : w.s.ctx.pc = v.s.ctx.pc)
    (esr : w.s.ctx.exitEsr = v.s.ctx.exitEsr) : Noted maps page w where
  maps := same.trans noted.maps
  pc := pc.trans noted.pc
  esr := esr.trans noted.esr
  syndrome := record ▸ noted.syndrome
  virtualAddress := record ▸ noted.virtualAddress
  physicalAddress := record ▸ noted.physicalAddress

theorem Noted.sync (noted : Noted maps page v) (kernel : ∀ off, Surfaced off → host.Spares off)
    (k : Nat) : Noted maps page (v.sync host k) :=
  noted.elsewhere rfl rfl (kernel ohvRwPc (by decide) k v.s.ctx)
    (kernel ohvRoExitEsr (by decide) k v.s.ctx)

/-- For the other reasons nothing is made up. -/
theorem Ctx.shownSyndrome_kernel (page : Ctx) (insn : Option (BitVec 32))
    (trap : page.exitReason ≠ 8) (guarded : page.exitReason ≠ 1) :
    page.shownSyndrome insn = page.exitEsr := by
  unfold Ctx.shownSyndrome
  split
  · rename_i zero
    cases insn with
    | none => exact zero.symm
    | some insn =>
        show (if _ then _ else _) = _
        rw [if_neg fun both => trap both.1, if_neg fun both => guarded both.1, zero]
  · rfl

theorem Noted.recorded (noted : Noted maps page v) (insn : Option (BitVec 32))
    {reason : HvExitReason} (may : page.MayReport reason) (trap : page.exitReason ≠ 8)
    (guarded : page.exitReason ≠ 1) : Recorded page insn (v.s.setExit reason).pubExit where
  reason := may
  syndrome := noted.syndrome.trans (page.shownSyndrome_kernel insn trap guarded).symm
  virtualAddress := noted.virtualAddress
  physicalAddress := noted.physicalAddress

theorem Noted.insn (noted : Noted maps page v) : guestInsn host v = insnAt maps host page := by
  rw [guestInsn, insnAt, noted.maps, noted.pc]

theorem synthMsrTrapSyndrome_slot (noted : Noted maps page v) :
    synthMsrTrapSyndrome host v = match insnAt maps host page with
      | some insn =>
          if insn &&& 0xffd00000#32 = 0xd5100000#32 then v.s.setSyndrome (msrTrapSyndrome insn)
          else v.s
      | none => v.s := by
  rw [← noted.insn]
  rfl

theorem synthGuardedExitSyndrome_slot (noted : Noted maps page v) :
    synthGuardedExitSyndrome host v = match insnAt maps host page with
      | some insn =>
          if insn = 0x00201400#32 then
            v.s.setSyndrome ((0x3f#64 <<< 26) ||| (1#64 <<< 25) ||| 0x22#64)
          else v.s
      | none => v.s := by
  rw [← noted.insn]
  rfl

theorem Noted.shown (noted : Noted maps page v) {insn : Option (BitVec 32)}
    (may : page.MayReport .exception) {s : VcpuSlot}
    (slot : s = v.s ∧ page.exitEsr = page.shownSyndrome insn ∨
      s = v.s.setSyndrome (page.shownSyndrome insn)) :
    Recorded page insn (s.setExit .exception).pubExit := by
  rcases slot with ⟨rfl, same⟩ | rfl
  · exact ⟨may, noted.syndrome.trans same, noted.virtualAddress, noted.physicalAddress⟩
  · exact ⟨may, rfl, noted.virtualAddress, noted.physicalAddress⟩

theorem reportException_records (reason : BitVec 32) (named : page.exitReason = reason)
    (noted : Noted maps page v) (may : page.MayReport .exception) :
    Records page (insnAt maps host page) (reportException reason host v) := by
  intro _
  refine noted.shown may ?_
  by_cases zero : v.s.ctx.exitEsr = 0
  · have none : page.exitEsr = 0 := noted.esr ▸ zero
    have made : ∀ insn, page.shownSyndrome insn = _ := fun _ => if_pos none
    rw [if_pos zero, synthMsrTrapSyndrome_slot noted, synthGuardedExitSyndrome_slot noted]
    generalize insnAt maps host page = at'
    cases at' with
    | none => exact Or.inl ⟨by simp, none.trans (made .none).symm⟩
    | some insn =>
        by_cases trap : reason = 8
        · by_cases msr : insn &&& 0xffd00000#32 = 0xd5100000#32
          · exact Or.inr (by simp [made, named, trap, msr])
          · exact Or.inl (by simp [made, named, trap, msr, none])
        · by_cases guarded : reason = 1
          · by_cases gexit : insn = 0x00201400#32
            · exact Or.inr (by simp [made, named, guarded, gexit])
            · exact Or.inl (by simp [made, named, guarded, gexit, none])
          · refine Or.inl ⟨by rw [if_neg trap, if_neg guarded], ?_⟩
            exact (page.shownSyndrome_kernel _ (named ▸ trap) (named ▸ guarded)).symm
  · exact Or.inl ⟨if_neg zero, (if_neg (noted.esr ▸ zero)).symm⟩

theorem softEret_records (reason : BitVec 32) (named : page.exitReason = reason)
    (kernel : ∀ off, Surfaced off → host.Spares off) (noted : Noted maps page v)
    (may : page.MayReport .exception) :
    Records page (insnAt maps host page) (softEret reason host v) := by
  unfold softEret
  split
  · simp only
    split
    · exact nofun
    · exact reportException_records reason named (noted.sync kernel 2) may
  · exact reportException_records reason named noted may

theorem guardedEret_records (reason : BitVec 32) (named : page.exitReason = reason)
    (kernel : ∀ off, Surfaced off → host.Spares off) (noted : Noted maps page v)
    (may : page.MayReport .exception) :
    Records page (insnAt maps host page) (guardedEret reason host v) := by
  unfold guardedEret
  split
  · simp only
    split
    · exact nofun
    · exact softEret_records reason named kernel (noted.sync kernel 1) may
  · exact softEret_records reason named kernel noted may

theorem syncException_records (reason : BitVec 32) (named : page.exitReason = reason)
    (kernel : ∀ off, Surfaced off → host.Spares off) (noted : Noted maps page v)
    (may : page.MayReport .exception) :
    Records page (insnAt maps host page) (syncException reason host v) := by
  unfold syncException
  split
  · exact nofun
  · split
    · exact nofun
    · exact guardedEret_records reason named kernel noted may

theorem msrTrap_records (named : page.exitReason = 8)
    (kernel : ∀ off, Surfaced off → host.Spares off) (noted : Noted maps page v)
    (may : page.MayReport .exception) :
    Records page (insnAt maps host page) (msrTrap host v) := by
  unfold msrTrap
  split
  · have operands : (SysAccess.ofEsr v.s.ctx.exitEsr).Writes fun w =>
        Ctx.Within host _ v.s.ctx w.s.ctx := access_within _
    have ends := serviceNv2Access_ends host v.s.ctx.exitEsr v operands .same
    revert ends
    rcases serviceNv2Access host v.s.ctx.exitEsr v with ⟨carried, after⟩
    rintro ⟨w, -, ⟨rfl, rfl⟩ | ⟨rfl, rfl, declined⟩⟩
    · exact nofun
    · refine syncException_records 8 named kernel ?_ may
      rcases declined with rfl | rfl | rfl
      · exact noted
      · exact noted.elsewhere rfl rfl rfl rfl
      · exact noted.elsewhere rfl rfl ((Ctx.word_put _ _ _ _).trans (if_neg (by decide)))
          ((Ctx.word_put _ _ _ _).trans (if_neg (by decide)))
  · exact syncException_records 8 named kernel noted may

/-- The words a physical interrupt is told apart by. -/
structure SameTimer (before after : Ctx) : Prop where
  timer : after.timer = before.timer
  control : after.banked 18 = before.banked 18

namespace SameTimer

variable {first second third : Ctx}

theorem refl (c : Ctx) : SameTimer c c := ⟨rfl, rfl⟩

theorem trans (left : SameTimer first second) (right : SameTimer second third) :
    SameTimer first third :=
  ⟨right.timer.trans left.timer, right.control.trans left.control⟩

theorem put (same : SameTimer first second) (off : Nat) (value : Word)
    (timer : ohvRwTimer ≠ off) (control : ohvRwBankedSysregs + 18 * 8 ≠ off) :
    SameTimer first (second.put off value) where
  timer := ((Ctx.word_put _ _ _ _).trans (if_neg timer)).trans same.timer
  control := ((Ctx.word_put _ _ _ _).trans (if_neg control)).trans same.control

theorem markDirty (same : SameTimer first second) (bits : Word) :
    SameTimer first (second.markDirty bits) :=
  same.put _ _ (by decide) (by decide)

theorem fired (same : SameTimer first second) : second.TimerFired ↔ first.TimerFired := by
  rw [Ctx.TimerFired, Ctx.TimerFired, same.timer, same.control]

end SameTimer

theorem armNv_sameTimer (s : VcpuSlot) : SameTimer s.ctx s.armNv.ctx :=
  ((SameTimer.refl s.ctx).put _ _ (by decide) (by decide)).markDirty _

theorem arriveExit_sameTimer (cfg : OhvCfg) (host : Host) (s : VcpuSlot)
    (plain : s.ctx.exitEc ≠ 0x18) : SameTimer s.ctx (arriveExit cfg host s).ctx := by
  have restored : SameTimer s.ctx (restoreNv s).ctx ∧ (restoreNv s).ctx.exitEc = s.ctx.exitEc := by
    unfold restoreNv
    split
    · refine ⟨armNv_sameTimer s, ?_⟩
      show (s.armNv.ctx.word ohvRoExitEsr).extractLsb' 26 6 = _
      rw [VcpuSlot.armNv, VcpuSlot.markDirty, VcpuSlot.setHcr, Ctx.markDirty, Ctx.word_put,
        if_neg (by decide), Ctx.setHcr, Ctx.setControl, Ctx.word_put, if_neg (by decide)]
      rfl
    · exact ⟨.refl _, rfl⟩
  have unmirrored : mirrorGl1 cfg host (restoreNv s) = restoreNv s := by
    rw [mirrorGl1, if_neg]
    rintro ⟨-, access⟩
    exact plain (restored.2 ▸ access)
  rw [arriveExit, unmirrored]
  show SameTimer s.ctx (rearmNv cfg (restoreNv s)).ctx
  unfold rearmNv
  split
  · exact restored.1.trans (armNv_sameTimer _)
  · exact restored.1

theorem dispatchExit_records (kernel : ∀ off, Surfaced off → host.Spares off)
    (noted : Noted maps page v) (same : v.s.ctx.exitReason = page.exitReason)
    (timer : page.exitEc ≠ 0x18 → SameTimer page v.s.ctx) :
    Records page (insnAt maps host page) (dispatchExit host v) := by
  have other : ∀ n, page.exitReason.toNat = n → n ≠ 8 → n ≠ 1 →
      page.exitReason ≠ 8 ∧ page.exitReason ≠ 1 := by
    rintro n rfl trap guarded
    exact ⟨fun named => trap (congrArg BitVec.toNat named),
      fun named => guarded (congrArg BitVec.toNat named)⟩
  have interrupted : (page.exitReason.toNat = 3 ∨ page.exitReason.toNat = 4) →
      Records page (insnAt maps host page) (physicalInterrupt v) := by
    intro interrupt _
    obtain ⟨trap, guarded⟩ : page.exitReason ≠ 8 ∧ page.exitReason ≠ 1 := by
      rcases interrupt with reason | reason <;> exact other _ reason (by decide) (by decide)
    have may : ∀ reason : HvExitReason,
        reason = (if v.s.ctx.TimerFired then .vtimerActivated else .unknown) →
        page.MayReport reason := by
      intro reason which
      have open' : reason = .vtimerActivated ∨ reason = .unknown := by
        rw [which]
        split
        · exact Or.inl rfl
        · exact Or.inr rfl
      have exact' : page.exitEc ≠ 0x18 →
          reason = if page.TimerFired then .vtimerActivated else .unknown := by
        intro plain
        rw [which, if_congr (timer plain).fired rfl rfl]
      have either : page.MayReport reason =
          if page.exitEc = 0x18 then reason = .vtimerActivated ∨ reason = .unknown
          else reason = if page.TimerFired then .vtimerActivated else .unknown := by
        rw [Ctx.MayReport]
        rcases interrupt with named | named <;> rw [named] <;> rfl
      rw [either]
      split
      · exact open'
      · rename_i plain
        exact exact' plain
    have masked : Noted maps page
        (v.setCtx (v.s.ctx.setTimer (v.s.ctx.timer ||| ohvTimerMask))) :=
      noted.elsewhere rfl rfl ((Ctx.word_put _ _ _ _).trans (if_neg (by decide)))
        ((Ctx.word_put _ _ _ _).trans (if_neg (by decide)))
    unfold physicalInterrupt
    split
    · rename_i fired
      exact masked.recorded _ (may _ (if_pos fired).symm) trap guarded
    · rename_i quiet
      exact noted.recorded _ (may _ (if_neg quiet).symm) trap guarded
  have exception : ∀ n, page.exitReason.toNat = n → (n = 1 ∨ n = 6 ∨ n = 8) →
      page.MayReport .exception := by
    intro n reason
    unfold Ctx.MayReport
    rw [reason]
    rintro (rfl | rfl | rfl) <;> rfl
  have named : ∀ r : BitVec 32, page.exitReason.toNat = r.toNat → page.exitReason = r :=
    fun r reason => BitVec.eq_of_toNat_eq reason
  unfold dispatchExit
  rw [same]
  split
  case h_1 reason =>
    intro _
    obtain ⟨trap, guarded⟩ := other 0 reason (by decide) (by decide)
    refine noted.recorded _ ?_ trap guarded
    unfold Ctx.MayReport
    rw [reason]
    rfl
  case h_6 reason => exact interrupted (Or.inl reason)
  case h_7 reason => exact interrupted (Or.inr reason)
  case h_8 reason =>
    exact msrTrap_records (named 8 reason) kernel noted (exception 8 reason (by decide))
  case h_9 reason =>
    exact syncException_records 1 (named 1 reason) kernel noted (exception 1 reason (by decide))
  case h_10 reason =>
    exact reportException_records 6 (named 6 reason) noted (exception 6 reason (by decide))
  case h_11 =>
    intro _
    have apart : page.exitReason ≠ 8 ∧ page.exitReason ≠ 1 := by
      refine other _ rfl ?_ ?_ <;> assumption
    refine noted.recorded _ ?_ apart.1 apart.2
    unfold Ctx.MayReport
    split
    all_goals first | rfl | exact absurd ‹_› ‹_›
  all_goals exact nofun

theorem exitFromRo_records (kernel : ∀ off, Surfaced off → host.Spares off) (v : VcpuView) :
    Records v.s.ctx (insnAt v.g.maps host v.s.ctx) (exitFromRo host v) := by
  have arrived : ∀ off, Surfaced off →
      (arriveExit v.g.cfg host v.s).ctx.word off = v.s.ctx.word off := fun off surfaced =>
    (arriveExit_within v.g.cfg v.s).word surfaced id (kernel off surfaced)
  have esr := arrived ohvRoExitEsr (by decide)
  have far := arrived ohvRoExitFar (by decide)
  have hpfar := arrived ohvRoExitHpfar (by decide)
  have noted : Noted v.g.maps v.s.ctx { v with s := arriveExit v.g.cfg host v.s } := by
    refine ⟨rfl, arrived ohvRwPc (by decide), esr, esr, far, ?_⟩
    rw [Ctx.exitHpfar, Ctx.exitFar, ← hpfar, ← far]
    rfl
  refine dispatchExit_records kernel noted ?_ (arriveExit_sameTimer v.g.cfg host v.s)
  rw [Ctx.exitReason, Ctx.exitReason, Ctx.lo32, Ctx.lo32, arrived ohvRoExitReason (by decide)]

end Exit

/-! ## A run -/

open Runs

/-- The guest's registers and the kernel's report are as they came back. -/
def Intact (page : Ctx) (s : VcpuSlot) : Prop :=
  ∀ off, Surfaced off → s.ctx.word off = page.word off

/-- Until the library looks at the report, the timer's words are too. -/
def Untouched (page : Ctx) (s : VcpuSlot) : Prop := Intact page s ∧ SameTimer page s.ctx

def Handed (maps : List MapRecord) (hosts : Host → Prop) (page : Ctx) (s : VcpuSlot) : Prop :=
  ∃ host, hosts host ∧ Recorded page (insnAt maps host page) s.pubExit

theorem Untouched.recorded {maps : List MapRecord} {host : Host} {page : Ctx} {s : VcpuSlot}
    {exit : HvVcpuExit} (untouched : Untouched page s)
    (recorded : Recorded s.ctx (insnAt maps host s.ctx) exit) :
    Recorded page (insnAt maps host page) exit := by
  obtain ⟨intact, timer⟩ := untouched
  have reason : s.ctx.exitReason = page.exitReason := by
    rw [Ctx.exitReason, Ctx.exitReason, Ctx.lo32, Ctx.lo32, intact _ (by decide)]
  have esr : s.ctx.exitEsr = page.exitEsr := intact _ (by decide)
  have far : s.ctx.exitFar = page.exitFar := intact _ (by decide)
  have hpfar : s.ctx.exitHpfar = page.exitHpfar := intact _ (by decide)
  have insn : insnAt maps host s.ctx = insnAt maps host page := by
    rw [insnAt, insnAt, show s.ctx.pc = page.pc from intact _ (by decide)]
  refine ⟨?_, ?_, ?_, ?_⟩
  · have may := recorded.reason
    simp only [Ctx.MayReport, Ctx.exitEc, reason, esr, timer.fired] at may ⊢
    exact may
  · rw [← insn, recorded.syndrome]
    simp only [Ctx.shownSyndrome, esr, reason]
  · rw [← far]
    exact recorded.virtualAddress
  · rw [← far, ← hpfar]
    exact recorded.physicalAddress

/-- What becomes of the report of the last exit on its way through the loop. -/
def Told (maps : List MapRecord) (hosts : Host → Prop) (page : Ctx) (s : VcpuSlot) :
    RunPhase → Prop
  | .exited rc => rc = hvSuccess ∧ Untouched page s
  | .handle => Untouched page s
  | .store => Handed maps hosts page s ∧ Intact page s
  | .returning rc => rc = hvSuccess →
      s.pubExit.reason = .canceled ∨ Handed maps hosts page s ∧ Intact page s
  | _ => True

theorem GicCall.serve_sameTimer (call : GicCall) (g : Globals) (slots : VcpuTable) (i : VcpuId) :
    SameTimer (slots i).ctx ((call.serve g slots).slots i).ctx := by
  have listed : ∀ (c : Ctx) j value, j < ichLrCount →
      SameTimer c (markGic (c.setIchLr j value)) := by
    intro c j value small
    refine ((SameTimer.refl c).put _ _ ?_ ?_).markDirty _ <;>
      simp only [ohvRwTimer, ohvRwBankedSysregs, ohvRwControls, ichLrOff, ichLrCount] at * <;>
      omega
  apply call.serve_pages .refl fun _ _ _ left right => left.trans right
  · exact fun c => (SameTimer.refl c).markDirty _
  · exact listed
  · intro id enc value _ c
    unfold writeIch
    split
    · exact .refl c
    · split
      · exact ((SameTimer.refl c).put _ _ (by decide) (by decide)).markDirty _
      · split
        · exact ((SameTimer.refl c).put _ _ (by decide) (by decide)).markDirty _
        · split
          · exact ((SameTimer.refl c).put _ _ (by decide) (by decide)).markDirty _
          · split
            · exact ((SameTimer.refl c).put _ _ (by decide) (by decide)).markDirty _
            · split
              · rename_i inside
                exact listed c _ _ inside.2
              · exact .refl c

section Told

variable {maps : List MapRecord} {hosts : Host → Prop} {i : VcpuId} {page : Ctx}

theorem Told.gic {s : System} (call : GicCall)
    (told : Told maps hosts page (s.slots i) (s.phase i)) :
    Told maps hosts page ((call.serve s.g s.slots).slots i) (s.phase i) := by
  have words : ∀ off, Surfaced off →
      ((call.serve s.g s.slots).slots i).ctx.word off = (s.slots i).ctx.word off :=
    fun off surfaced =>
      have within : Ctx.Within {} call.Names (s.slots i).ctx
          ((call.serve s.g s.slots).slots i).ctx := call.serve_within s.g s.slots i
      within.word surfaced (fun names => names.inside surfaced) fun _ _ => rfl
  have record : ((call.serve s.g s.slots).slots i).pubExit = (s.slots i).pubExit := by
    rw [((call.serve_frame s.g s.slots).slot i).slot]
  have intact : Intact page (s.slots i) → Intact page ((call.serve s.g s.slots).slots i) :=
    fun same off surfaced => (words off surfaced).trans (same off surfaced)
  have untouched : Untouched page (s.slots i) →
      Untouched page ((call.serve s.g s.slots).slots i) :=
    fun same => ⟨intact same.1, same.2.trans (call.serve_sameTimer s.g s.slots i)⟩
  have handed : Handed maps hosts page (s.slots i) →
      Handed maps hosts page ((call.serve s.g s.slots).slots i) := by
    rintro ⟨host, answered, recorded⟩
    exact ⟨host, answered, record ▸ recorded⟩
  cases phase : s.phase i with
  | exited rc =>
      rw [phase] at told
      exact ⟨told.1, untouched told.2⟩
  | handle =>
      rw [phase] at told
      exact untouched told
  | store =>
      rw [phase] at told
      exact ⟨handed told.1, intact told.2⟩
  | returning rc =>
      rw [phase] at told
      intro success
      rcases told success with canceled | ⟨given, same⟩
      · exact Or.inl (record ▸ canceled)
      · exact Or.inr ⟨handed given, intact same⟩
  | idle | top | enter _ | inGuest | turnaround => trivial

theorem Told.step {s t : System} {act : Act} (taken : s.step act = some t)
    (live : (s.slots i).used = true) (kept : act ≠ .destroy i)
    (once : ∀ page rc ticks, act ≠ .leave i page rc ticks)
    (kernel : ∀ off, Surfaced off → act.host.Spares off)
    (answered : ∀ host, act = .handle i host → hosts host) (memory : s.g.maps = maps)
    (told : Told maps hosts page (s.slots i) (s.phase i)) :
    Told maps hosts page (t.slots i) (t.phase i) := by
  have turn := System.step_turn i taken live kept
  by_cases controller : ∃ call, act = .gic call
  · obtain ⟨call, rfl⟩ := controller
    cases taken
    exact told.gic call
  · generalize t.slots i = slot, t.phase i = phase at turn ⊢
    cases turn with
    | elsewhere _ _ => exact told
    | gic call _ _ => exact absurd ⟨call, rfl⟩ controller
    | latch _ _ => exact told
    | call _ _ | run _ | expire _ _ | enter _ _ | again _ _ | ret _ _ | served _ _ _ => trivial
    | leave page rc ticks _ => exact absurd rfl (once page rc ticks)
    | failed rc back failure =>
        rw [back] at told
        exact absurd told.1 failure
    | canceled _ _ _ => exact fun _ => Or.inl rfl
    | passed back _ =>
        rw [back] at told
        exact told.2
    | reported host ready out =>
        rw [ready] at told
        have same : ∀ off, Surfaced off →
            (exitFromRo host (s.view i)).2.s.ctx.word off = (s.slots i).ctx.word off :=
          fun off surfaced => (exitFromRo_goesOn (s.view i)).word surfaced
            (fun moves => by rw [out] at moves; cases moves.1) (kernel off surfaced)
        have records : Recorded (s.slots i).ctx (insnAt maps host (s.slots i).ctx) _ :=
          memory ▸ exitFromRo_records kernel (s.view i) out
        exact ⟨⟨host, answered host rfl, told.recorded records⟩,
          fun off surfaced => (same off surfaced).trans (told.1 off surfaced)⟩
    | store ready =>
        rw [ready] at told
        exact fun _ => Or.inr told

end Told

theorem told_left {s : System} {maps : List MapRecord} {hosts : Host → Prop} {i : VcpuId}
    {page : Ctx} {ticks : Word} {slot : VcpuSlot} {phase : RunPhase}
    (turn : Turn s i (.leave i page hvSuccess ticks) slot phase) :
    Told maps hosts page slot phase := by
  cases turn with
  | elsewhere _ other => exact absurd rfl other
  | canceled _ test _ => rcases test with ⟨act, -⟩ | ⟨act, -⟩ <;> cases act
  | leave _ _ _ _ => exact ⟨rfl, fun _ _ => rfl, .refl _⟩

/-- A run of the library that returns to the VMM was cancelled, or the VMM has the record of
the kernel's last report, its reason, syndrome and addresses, and the registers the guest
left with it. -/
theorem last_exit_reported {s t : System} {i : VcpuId} {page : Ctx} {ticks : Word}
    {run : List Act} (live : (s.slots i).used = true)
    (ran : runFrom System.step s (.leave i page hvSuccess ticks :: run) = some t)
    (last : ∀ act ∈ run, act ≠ .destroy i ∧ ∀ page rc ticks, act ≠ .leave i page rc ticks)
    (kernel : ∀ act ∈ run, ∀ off, Surfaced off → act.host.Spares off)
    (back : t.phase i = .returning hvSuccess) :
    (t.slots i).pubExit.reason = .canceled ∨
      (∃ host, .handle i host ∈ run ∧
        Recorded page (insnAt s.g.maps host page) (t.slots i).pubExit) ∧
      Intact page (t.slots i) := by
  obtain ⟨arrived, taken, later⟩ := (runFrom_cons_iff _ _ _ _).mp ran
  have turn := System.step_turn i taken live nofun
  let hosts := fun host => Act.handle i host ∈ run
  have started : (arrived.slots i).used = true ∧ arrived.g.maps = s.g.maps ∧
      Told s.g.maps hosts page (arrived.slots i) (arrived.phase i) :=
    ⟨turn.used.trans live, (System.step_globals taken).maps, told_left turn⟩
  have carried : (t.slots i).used = true ∧ t.g.maps = s.g.maps ∧
      Told s.g.maps hosts page (t.slots i) (t.phase i) := by
    have guarded : Along System.step (fun _ act _ =>
        (act ≠ .destroy i ∧ ∀ page rc ticks, act ≠ .leave i page rc ticks) ∧
          (∀ off, Surfaced off → act.host.Spares off) ∧
          ∀ host, act = .handle i host → hosts host) arrived run :=
      along_of_forall (fun act member =>
        ⟨last act member, kernel act member, fun host handles =>
          show Act.handle i host ∈ run from handles ▸ member⟩) arrived
    refine invariant_along (fun r => (r.slots i).used = true ∧ r.g.maps = s.g.maps ∧
      Told s.g.maps hosts page (r.slots i) (r.phase i)) ?_ guarded later started
    intro before act after step ⟨⟨kept, once⟩, spares, answered⟩ ⟨used, memory, told⟩
    exact ⟨(System.step_turn i step used kept).used.trans used,
      (System.step_globals step).maps.trans memory,
      told.step step used kept once spares answered memory⟩
  have told := carried.2.2
  rw [back] at told
  exact told rfl

def inGuestStart : System :=
  { freshSystem { vmAlive := true } blankPage with phase := fun _ => .inGuest }

def abortPage : Ctx := (blankPage.withExit 1 0x92000007).put ohvRoExitFar 0x4010

/-- Another vCPU is cancelled while the abort is on its way to the VMM. -/
def abortRun : List Act := [.check vcpu0, .latch [vcpu1], .handle vcpu0 {}, .store vcpu0]

theorem last_exit_reported_abort : ∃ t,
    runFrom System.step inGuestStart (.leave vcpu0 abortPage hvSuccess 0 :: abortRun) = some t ∧
    (t.slots vcpu0).pubExit.reason = .exception ∧
    ((t.slots vcpu0).pubExit.reason = .canceled ∨
      (∃ host, .handle vcpu0 host ∈ abortRun ∧ Recorded abortPage
        (insnAt inGuestStart.g.maps host abortPage) (t.slots vcpu0).pubExit) ∧
      Intact abortPage (t.slots vcpu0)) := by
  have last : ∀ act ∈ abortRun,
      act ≠ .destroy vcpu0 ∧ ∀ page rc ticks, act ≠ .leave vcpu0 page rc ticks := by
    intro act member
    simp only [abortRun, List.mem_cons, List.not_mem_nil, or_false] at member
    rcases member with rfl | rfl | rfl | rfl <;> exact ⟨nofun, nofun⟩
  have kernel : ∀ act ∈ abortRun, ∀ off, Surfaced off → act.host.Spares off := by
    intro act member
    simp only [abortRun, List.mem_cons, List.not_mem_nil, or_false] at member
    rcases member with rfl | rfl | rfl | rfl <;> exact fun _ _ _ _ => rfl
  have live : (inGuestStart.slots vcpu0).used = true := rfl
  have told : ∀ t, runFrom System.step inGuestStart
      (.leave vcpu0 abortPage hvSuccess 0 :: abortRun) = some t →
      t.phase vcpu0 = .returning hvSuccess →
      ((t.slots vcpu0).pubExit.reason = .canceled ∨
        (∃ host, .handle vcpu0 host ∈ abortRun ∧ Recorded abortPage
          (insnAt inGuestStart.g.maps host abortPage) (t.slots vcpu0).pubExit) ∧
        Intact abortPage (t.slots vcpu0)) :=
    fun _ ran back => last_exit_reported live ran last kernel back
  exact ⟨_, rfl, rfl, told _ rfl rfl⟩

end OpenHypervisor
