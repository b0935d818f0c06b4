import OpenHypervisor.NestedState
import OpenHypervisor.BankedCurrent

/-!
# Into the guest's EL2 and back

An HVC the guest hypervisor is given, what it does with it, and its ERET.  The
return address and the saved PSTATE lie in the two banked slots its EL2 names
are aliases of; whatever is trapped and carried out on the way leaves them, so
the return ends the detour where it began.
-/

set_option autoImplicit false

namespace OpenHypervisor

open Ctx (Spares)

def SparesPair (names : List Nat) : Prop := 3 ∉ names ∧ 14 ∉ names

theorem Ctx.Spares.pair {names : List Nat} {marks : Prop} {before after : Ctx}
    (spares : Spares names marks before after) (pair : SparesPair names) :
    after.banked 3 = before.banked 3 ∧ after.banked 14 = before.banked 14 :=
  ⟨spares.banked 3 (by decide) pair.1, spares.banked 14 (by decide) pair.2⟩

/-! ## What the guest hypervisor does meanwhile -/

/-- An access that is not a write of ELR_EL2 or SPSR_EL2. -/
def SysAccess.LeavesPair (a : SysAccess) : Prop :=
  a.read = true ∨ a.enc ≠ 0xe201 ∧ a.enc ≠ 0xe200

instance (a : SysAccess) : Decidable a.LeavesPair := inferInstanceAs (Decidable (_ ∨ _))

theorem nv2Reg_pair (r : Nv2Reg) (listed : r ∈ kNv2Regs) (banked : r.banked = true) :
    ((r.ctxOff - ohvRwBankedSysregs) / 8 = 3 → r.enc = 0xe201) ∧
      ((r.ctxOff - ohvRwBankedSysregs) / 8 = 14 → r.enc = 0xe200) := by
  revert r
  decide

theorem accessNames_pair {a : SysAccess} (leaves : a.LeavesPair) : SparesPair (accessNames a) := by
  by_cases timer : a.IsTimer
  · have timers : ∀ n ∈ timerNames a, n = 19 ∨ n = 18 ∨ n = 9 ∨ n = 10 := by
      intro n named
      simp only [timerNames, List.mem_append] at named
      rcases named with disarm | moved
      · split at disarm
        · rw [List.mem_singleton] at disarm
          omega
        · cases disarm
      · split at moved
        · cases moved
        · split at moved
          · split at moved
            · cases moved
            · rw [List.mem_singleton] at moved
              omega
          · split at moved
            · rw [List.mem_singleton, VcpuSlot.timerCvalIndex] at moved
              split at moved <;> omega
            · cases moved
    rw [names_of_timer timer]
    refine ⟨fun named => ?_, fun named => ?_⟩
    · have which := timers 3 named
      omega
    · have which := timers 14 named
      omega
  · have el2 : accessNames a = nv2Names a := if_neg timer
    rw [el2, nv2Names]
    split
    · exact ⟨List.not_mem_nil, List.not_mem_nil⟩
    · rename_i r found
      split at found
      · obtain ⟨listed, named⟩ := nv2Lookup_row found
        split
        · rename_i written
          have pair := nv2Reg_pair r listed written.1
          rw [named] at pair
          rcases leaves with reads | ⟨notElr, notSpsr⟩
          · rw [written.2] at reads
            cases reads
          · refine ⟨fun elr => ?_, fun spsr => ?_⟩
            · rw [List.mem_singleton] at elr
              exact notElr (pair.1 elr.symm)
            · rw [List.mem_singleton] at spsr
              exact notSpsr (pair.2 spsr.symm)
        · exact ⟨List.not_mem_nil, List.not_mem_nil⟩
      · cases found

/-- A trapped access carried out, other than a write of the pair. -/
structure ServicedApart (host : Host) (v : VcpuView) : Prop where
  reason : v.s.ctx.exitReason.toNat = 8
  ec : v.s.ctx.exitEc = 0x18
  leaves : (SysAccess.ofEsr v.s.ctx.exitEsr).LeavesPair
  serviced : (serviceNv2Access host v.s.ctx.exitEsr
    { v with s := arriveExit v.g.cfg host v.s }).1 = true

/-- A step on the way: on this vCPU no call of the VMM, exits only for such
accesses, and the pair as it was whenever the run trap comes back. -/
def MeanwhileApart (i : VcpuId) (s : System) (act : Act) (_ : System) : Prop :=
  match act with
  | .destroy j | .call j _ => j ≠ i
  | .leave j page _ _ => j = i →
      page.banked 3 = (s.slots i).ctx.banked 3 ∧ page.banked 14 = (s.slots i).ctx.banked 14
  | .handle j host => j = i → ServicedApart host (s.view i)
  | _ => True

theorem MeanwhileApart.kept {i : VcpuId} {s t : System} {act : Act}
    (apart : MeanwhileApart i s act t) : act ≠ .destroy i := by
  rintro rfl
  exact apart rfl

/-- At guest EL2, with the return saved. -/
structure AwaitsReturn (i : VcpuId) (elr spsr : Word) (s : System) : Prop where
  standing : Standing true s i
  atEl2 : (s.slots i).guestAtEl2 = true
  elr : (s.slots i).ctx.banked 3 = elr
  spsr : (s.slots i).ctx.banked 14 = spsr

theorem arriveExit_banked (cfg : OhvCfg) (host : Host) (s : VcpuSlot) (default : cfg = {}) (n : Nat)
    (small : n < bankedCount) : (arriveExit cfg host s).ctx.banked n = s.ctx.banked n := by
  apply arriveExit_word cfg host s default
  · simp only [bankedCount, ohvRwBankedSysregs, ohvRwControls] at *
    omega
  · simp only [bankedCount, ohvRwBankedSysregs, ohvRwStateDirty] at *
    omega

theorem exitFromRo_serviced {host : Host} {v : VcpuView} (default : v.g.cfg = {})
    (apart : ServicedApart host v) : (exitFromRo host v).2 =
      (serviceNv2Access host v.s.ctx.exitEsr { v with s := arriveExit v.g.cfg host v.s }).2 := by
  have esr : (arriveExit v.g.cfg host v.s).ctx.exitEsr = v.s.ctx.exitEsr :=
    arriveExit_word _ host v.s default _ (by decide) (by decide)
  have reason : (arriveExit v.g.cfg host v.s).ctx.exitReason.toNat = 8 := by
    rw [← apart.reason]
    simp only [Ctx.exitReason, Ctx.lo32,
      arriveExit_word _ host v.s default ohvRoExitReason (by decide) (by decide)]
  have ec : (arriveExit v.g.cfg host v.s).ctx.exitEc = 0x18 := by
    rw [Ctx.exitEc, esr]
    exact apart.ec
  have serviced := apart.serviced
  unfold exitFromRo dispatchExit
  simp only [reason, msrTrap, if_pos ec, esr]
  cases answer : serviceNv2Access host v.s.ctx.exitEsr
      { v with s := arriveExit v.g.cfg host v.s } with
  | mk carried after =>
      rw [answer] at serviced
      simp only at serviced
      subst serviced
      rfl

theorem serviceNv2Access_atEl2 (host : Host) (esr : Word) (v : VcpuView)
    (atEl2 : v.s.guestAtEl2 = true) : (serviceNv2Access host esr v).2.s.guestAtEl2 = true := by
  by_cases handoff : (SysAccess.ofEsr esr).IsHandoff
  · rw [serviceNv2Access_handoff host esr v handoff]
    rfl
  · rw [(serviceNv2Access_frame host esr v handoff).guestAtEl2]
    exact atEl2

namespace AwaitsReturn

variable {i : VcpuId} {elr spsr : Word} {s t : System}

theorem of_slot {before : System} (awaits : AwaitsReturn i elr spsr before)
    (standing : Standing true t i) (atEl2 : (t.slots i).guestAtEl2 = (before.slots i).guestAtEl2)
    (pair : (t.slots i).ctx.banked 3 = (before.slots i).ctx.banked 3 ∧
      (t.slots i).ctx.banked 14 = (before.slots i).ctx.banked 14) :
    AwaitsReturn i elr spsr t :=
  ⟨standing, atEl2.trans awaits.atEl2, pair.1.trans awaits.elr, pair.2.trans awaits.spsr⟩

theorem step {act : Act} (awaits : AwaitsReturn i elr spsr s) (taken : s.step act = some t)
    (apart : MeanwhileApart i s act t) : AwaitsReturn i elr spsr t := by
  have standing := awaits.standing.step taken apart.kept
  have turn := System.step_turn i taken awaits.standing.live apart.kept
  by_cases gic : ∃ call, act = .gic call
  · obtain ⟨call, rfl⟩ := gic
    cases taken
    have spares := GicCall.serve_spares call s.g s.slots i
    have names : SparesPair call.names := by
      cases call with
      | setIchReg id enc value =>
          simp only [GicCall.names, ichNames]
          split <;> exact ⟨by decide, by decide⟩
      | _ => exact ⟨List.not_mem_nil, List.not_mem_nil⟩
    have slot := ((GicCall.serve_frame call s.g s.slots).slot i).slot
    refine awaits.of_slot standing ?_ (spares.pair names)
    show ((call.serve s.g s.slots).slots i).guestAtEl2 = _
    rw [slot]
  · generalize slot : t.slots i = after at turn
    generalize t.phase i = phase at turn
    cases turn with
    | elsewhere _ _ => exact awaits.of_slot standing (by rw [slot]) (by rw [slot]; exact ⟨rfl, rfl⟩)
    | gic call _ _ => exact absurd ⟨call, rfl⟩ gic
    | call call _ => exact absurd rfl apart
    | expire now _ =>
        have spares := ohvExpireTimers_spares now (s.view i)
        have names : SparesPair (sweepNames now (s.view i).s) := by
          unfold sweepNames istatusNames
          split <;> exact ⟨by decide, by decide⟩
        refine awaits.of_slot standing ?_ (by rw [slot]; exact spares.pair names)
        rw [slot, ohvExpireTimers_slot]
        rfl
    | leave page _ _ _ =>
        refine awaits.of_slot standing (by rw [slot]) ?_
        rw [slot]
        exact apart rfl
    | reported host _ _ | served host _ _ =>
        have serviced := apart rfl
        have exit := exitFromRo_serviced awaits.standing.switches.2 serviced
        have arrived := arriveExit_atEl2 s.g.cfg host (s.slots i) awaits.standing.switches.2
        have banked := arriveExit_banked s.g.cfg host (s.slots i) awaits.standing.switches.2
        have spares := serviceNv2Access_spares host (s.view i).s.ctx.exitEsr
          { s.view i with s := arriveExit s.g.cfg host (s.slots i) }
        obtain ⟨elrKept, spsrKept⟩ := spares.pair (accessNames_pair serviced.leaves)
        rw [exit] at slot
        have atEl2 : (t.slots i).guestAtEl2 = true := by
          rw [slot]
          exact serviceNv2Access_atEl2 host _ _ (arrived.trans awaits.atEl2)
        refine awaits.of_slot standing (atEl2.trans awaits.atEl2.symm) ?_
        rw [slot]
        exact ⟨elrKept.trans (banked 3 (by decide)), spsrKept.trans (banked 14 (by decide))⟩
    | canceled _ _ _ =>
        refine awaits.of_slot standing ?_ ?_
        · rw [slot]
          rfl
        · rw [slot]
          exact ⟨rfl, rfl⟩
    | _ =>
        refine awaits.of_slot standing (by rw [slot]) ?_
        rw [slot]
        exact ⟨rfl, rfl⟩

end AwaitsReturn

/-! ## The two ends -/

section Ends

variable (host : Host) {v : VcpuView} (default : v.g.cfg = {})

include default

theorem exitFromRo_sync (sync : v.s.ctx.SyncExit) (noAccess : v.s.ctx.exitEc ≠ 0x18) :
    ∃ reason, exitFromRo host v =
      syncException reason host { v with s := arriveExit v.g.cfg host v.s } := by
  have reason : (arriveExit v.g.cfg host v.s).ctx.exitReason = v.s.ctx.exitReason := by
    simp only [Ctx.exitReason, Ctx.lo32,
      arriveExit_word _ host v.s default ohvRoExitReason (by decide) (by decide)]
  have esr : (arriveExit v.g.cfg host v.s).ctx.exitEsr = v.s.ctx.exitEsr :=
    arriveExit_word _ host v.s default _ (by decide) (by decide)
  unfold exitFromRo dispatchExit
  simp only [reason]
  rcases sync with one | eight
  · rw [one]
    exact ⟨1, rfl⟩
  · rw [eight]
    refine ⟨8, ?_⟩
    simp only [msrTrap, Ctx.exitEc, esr]
    exact if_neg noAccess

theorem exitFromRo_hvc (sync : v.s.ctx.SyncExit) (hvc : v.s.ctx.exitEc = 0x16)
    (atEl1 : v.s.guestAtEl2 = false) :
    (exitFromRo host v).2.s.guestAtEl2 = true ∧
      (exitFromRo host v).2.s.ctx.banked 3 = v.s.ctx.pc + 4 ∧
      (exitFromRo host v).2.s.ctx.banked 14 = v.s.ctx.cpsr.zeroExtend 64 := by
  have noAccess : v.s.ctx.exitEc ≠ 0x18 := by
    rw [hvc]
    decide
  have word := arriveExit_word v.g.cfg host v.s default
  have pc : (arriveExit v.g.cfg host v.s).ctx.pc = v.s.ctx.pc := word _ (by decide) (by decide)
  have cpsr : (arriveExit v.g.cfg host v.s).ctx.cpsr = v.s.ctx.cpsr :=
    Ctx.cpsr_congr (word ohvRwCpsr (by decide) (by decide))
  have ec : (arriveExit v.g.cfg host v.s).ctx.exitEc = 0x16 := by
    rw [Ctx.exitEc, Ctx.exitEsr, word ohvRoExitEsr (by decide) (by decide)]
    exact hvc
  have injects : VcpuView.InjectsHvc { v with s := arriveExit v.g.cfg host v.s } := by
    refine ⟨ec, (arriveExit_atEl2 _ host v.s default).trans atEl1, ?_⟩
    rw [default]
  have spins : ¬ (v.g.cfg.spinWfi = true ∧ (arriveExit v.g.cfg host v.s).ctx.exitEc = 0x1) := by
    rintro ⟨spin, -⟩
    rw [default] at spin
    cases spin
  obtain ⟨reason, exit⟩ := exitFromRo_sync host default sync noAccess
  rw [exit, syncException, if_neg spins, if_pos injects, ← pc, ← cpsr]
  refine ⟨rfl, ?_, ?_⟩
  · simp [enterGuestEl2, VcpuSlot.armNv, VcpuSlot.markDirty, VcpuSlot.setHcr, Ctx.banked,
      Ctx.setBanked, Ctx.setPc, Ctx.setCpsr, Ctx.putLo32, Ctx.markDirty, Ctx.setHcr,
      Ctx.setControl]
  · simp [enterGuestEl2, VcpuSlot.armNv, VcpuSlot.markDirty, VcpuSlot.setHcr, Ctx.banked,
      Ctx.setBanked, Ctx.setPc, Ctx.setCpsr, Ctx.putLo32, Ctx.markDirty, Ctx.setHcr,
      Ctx.setControl]

/-- The two syncs of a return that is no guarded one: both find no guarded pair,
and neither touches the pair or the record of the exit. -/
structure PlainReturn (host : Host) (page : Ctx) : Prop where
  exit : (host.sync 1 page).exitEsr = page.exitEsr
  elr : (host.sync 2 (host.sync 1 page)).banked 3 = page.banked 3
  spsr : (host.sync 2 (host.sync 1 page)).banked 14 = page.banked 14
  first : eretIsGuarded (host.sync 1 page) = false
  second : eretIsGuarded (host.sync 2 (host.sync 1 page)) = false

omit default in
theorem softEret_completes (reason : BitVec 32) (software : v.g.cfg.noEretEmulation = false)
    (trapped : v.s.ctx.TrappedEret) (atEl2 : v.s.guestAtEl2 = true)
    (plain : eretIsGuarded (v.sync host 2).s.ctx = false) : softEret reason host v =
      (.keepRunning, { v.sync host 2 with s := completeEret (v.sync host 2).s }) := by
  rw [softEret, if_pos ⟨trapped, atEl2⟩]
  exact if_pos ⟨plain, software⟩

omit default in
theorem guardedEret_passes (reason : BitVec 32) (hardware : v.g.cfg.noHwGeret = false)
    (trapped : v.s.ctx.TrappedEret) (plain : eretIsGuarded (v.sync host 1).s.ctx = false) :
    guardedEret reason host v = softEret reason host (v.sync host 1) := by
  rw [guardedEret, if_pos ⟨hardware, trapped⟩]
  refine if_neg ?_
  rw [plain]
  decide

theorem exitFromRo_plainReturn (sync : v.s.ctx.SyncExit) (eret : v.s.ctx.TrappedEret)
    (atEl2 : v.s.guestAtEl2 = true)
    (plain : PlainReturn host (arriveExit v.g.cfg host v.s).ctx) :
    (exitFromRo host v).2.s = completeEret { arriveExit v.g.cfg host v.s with
      ctx := host.sync 2 (host.sync 1 (arriveExit v.g.cfg host v.s).ctx) } := by
  have noAccess : v.s.ctx.exitEc ≠ 0x18 := by
    rw [eret.1]
    decide
  have esr : (arriveExit v.g.cfg host v.s).ctx.exitEsr = v.s.ctx.exitEsr :=
    arriveExit_word _ host v.s default _ (by decide) (by decide)
  have trapped : (arriveExit v.g.cfg host v.s).ctx.TrappedEret := by
    rw [Ctx.TrappedEret, Ctx.exitEc, esr]
    exact eret
  have again : (host.sync 1 (arriveExit v.g.cfg host v.s).ctx).TrappedEret := by
    rw [Ctx.TrappedEret, Ctx.exitEc, plain.exit]
    exact trapped
  have spins : ¬ (v.g.cfg.spinWfi = true ∧ (arriveExit v.g.cfg host v.s).ctx.exitEc = 0x1) := by
    rintro ⟨spin, -⟩
    rw [default] at spin
    cases spin
  have noHvc : ¬ VcpuView.InjectsHvc { v with s := arriveExit v.g.cfg host v.s } := by
    rintro ⟨hvc, -⟩
    rw [trapped.1] at hvc
    cases hvc
  have hardware : v.g.cfg.noHwGeret = false := by rw [default]
  have software : v.g.cfg.noEretEmulation = false := by rw [default]
  have still : (arriveExit v.g.cfg host v.s).guestAtEl2 = true :=
    (arriveExit_atEl2 _ host v.s default).trans atEl2
  obtain ⟨reason, exit⟩ := exitFromRo_sync host default sync noAccess
  rw [exit, syncException, if_neg spins, if_neg noHvc,
    guardedEret_passes (v := { v with s := arriveExit v.g.cfg host v.s }) host reason hardware
      trapped plain.first,
    softEret_completes (v := VcpuView.sync { v with s := arriveExit v.g.cfg host v.s } host 1)
      host reason software again still plain.second]
  rfl

end Ends

theorem mode_zeroExtend (low : BitVec 32) :
    (low.zeroExtend 64 &&& 0xf : Word) = (low &&& 0xf).zeroExtend 64 := by
  have both : (low &&& 0xf).zeroExtend 64 = low.zeroExtend 64 &&& (0xf : BitVec 32).zeroExtend 64 :=
    BitVec.setWidth_and
  exact both.symm

theorem completeEret_toEl1 (s : VcpuSlot) (pc : Word) (cpsr : BitVec 32)
    (elr : s.ctx.banked 3 = pc) (spsr : s.ctx.banked 14 = cpsr.zeroExtend 64)
    (mode : cpsr &&& 0xf = 0x4 ∨ cpsr &&& 0xf = 0x5) :
    (completeEret s).ctx.pc = pc ∧ (completeEret s).ctx.cpsr = cpsr ∧
      (completeEret s).guestAtEl2 = false ∧ (completeEret s).ctx.hcr.getLsbD 42 = false := by
  have toEl1 : (cpsr.zeroExtend 64 &&& 0xf : Word) = 0x4 ∨
      (cpsr.zeroExtend 64 &&& 0xf : Word) = 0x5 := by
    rw [mode_zeroExtend]
    rcases mode with mode | mode
    · exact Or.inl (by rw [mode]; rfl)
    · exact Or.inr (by rw [mode]; rfl)
  have done : completeEret s = VcpuSlot.clearNv { s with
      ctx := (s.ctx.setPc pc).setCpsr cpsr, guestAtEl2 := false } := by
    simp only [completeEret, elr, spsr, if_pos toEl1, low_zeroExtend]
  have word : ∀ off, off ≠ ohvRwControls → off ≠ ohvRwStateDirty →
      (completeEret s).ctx.word off = ((s.ctx.setPc pc).setCpsr cpsr).word off := by
    intro off notHcr notDirty
    rw [done]
    exact clearNv_word _ off notHcr notDirty
  refine ⟨?_, ?_, ?_, ?_⟩
  · refine (word ohvRwPc (by decide) (by decide)).trans ?_
    simp [Ctx.setCpsr, Ctx.putLo32, Ctx.setPc]
  · refine (Ctx.cpsr_congr (word ohvRwCpsr (by decide) (by decide))).trans ?_
    exact Ctx.lo32_putLo32 _ _ _
  · rw [done]
    rfl
  · rw [done, VcpuSlot.hcr_clearNv, getLsbD_clearNv]
    simp

/-- Entry and return are inverse: after an HVC of the guest's EL1, whatever
accesses are carried out on the way, the return ends past the HVC, in the PSTATE
it was made in. -/
theorem hvc_return {s t u : System} {i : VcpuId} {hvcHost eretHost : Host} {mid : List Act}
    (standing : Standing true s i)
    (hvc : (s.slots i).ctx.SyncExit ∧ (s.slots i).ctx.exitEc = 0x16)
    (atEl1 : (s.slots i).guestAtEl2 = false)
    (mode : (s.slots i).ctx.cpsr &&& 0xf = 0x4 ∨ (s.slots i).ctx.cpsr &&& 0xf = 0x5)
    (entered : s.step (.handle i hvcHost) = some t)
    (apart : Runs.Along System.step (MeanwhileApart i) t mid)
    {back : System} (run : Runs.runFrom System.step t mid = some back)
    (eret : (back.slots i).ctx.SyncExit ∧ (back.slots i).ctx.TrappedEret)
    (plain : PlainReturn eretHost (arriveExit back.g.cfg eretHost (back.slots i)).ctx)
    (returned : back.step (.handle i eretHost) = some u) :
    (u.slots i).ctx.pc = (s.slots i).ctx.pc + 4 ∧
      (u.slots i).ctx.cpsr = (s.slots i).ctx.cpsr ∧
      (u.slots i).guestAtEl2 = false ∧ (u.slots i).ctx.hcr.getLsbD 42 = false := by
  have awaits : AwaitsReturn i ((s.slots i).ctx.pc + 4) ((s.slots i).ctx.cpsr.zeroExtend 64) t := by
    have slot := (System.step_turn i entered standing.live nofun).handled
    obtain ⟨atEl2, elr, spsr⟩ :=
      exitFromRo_hvc hvcHost (v := s.view i) standing.switches.2 hvc.1 hvc.2 atEl1
    rw [← slot] at atEl2 elr spsr
    exact ⟨standing.step entered nofun, atEl2, elr, spsr⟩
  have waited : AwaitsReturn i ((s.slots i).ctx.pc + 4) ((s.slots i).ctx.cpsr.zeroExtend 64) back :=
    Runs.invariant_along (AwaitsReturn i _ _)
      (fun _ _ _ taken apart awaits => awaits.step taken apart) apart run awaits
  have default := waited.standing.switches.2
  have banked := arriveExit_banked back.g.cfg eretHost (back.slots i) default
  have slot := (System.step_turn i returned waited.standing.live nofun).handled
  rw [exitFromRo_plainReturn eretHost (v := back.view i) default eret.1 eret.2 waited.atEl2 plain] at slot
  rw [slot]
  apply completeEret_toEl1 _ _ _ ?_ ?_ mode
  · exact plain.elr.trans ((banked 3 (by decide)).trans waited.elr)
  · exact plain.spsr.trans ((banked 14 (by decide)).trans waited.spsr)

/-- A nested guest's boot code at its first ERET, to EL1 at 0x1000. -/
def bootPage : Ctx :=
  (((nestControls {} false blankPage).setBanked 3 0x1000).setBanked 14 0x5).withExit 1 0x6a000000

def callPage : Ctx := (completeEret { ctx := bootPage }).ctx.withExit 1 0x5a000000

def lockReadPage : Ctx :=
  (enterGuestEl2 { ctx := callPage } 0x5a000000 0x1004).ctx.withExit 8 0x62393c4d

def eretPage : Ctx := lockReadPage.withExit 1 0x6a000000

def hvcArrival : List Act :=
  .run vcpu0 :: oneExit vcpu0 0 bootPage {} ++ .recheck vcpu0 :: (oneExit vcpu0 0 callPage {}).dropLast

def hvcMeanwhile : List Act :=
  .recheck vcpu0 :: oneExit vcpu0 0 lockReadPage {} ++
    .recheck vcpu0 :: (oneExit vcpu0 0 eretPage {}).dropLast

theorem hvcMeanwhile_apart {t : System}
    (entered : Runs.runFrom System.step el2Start (hvcArrival ++ [.handle vcpu0 {}]) = some t) :
    Runs.Along System.step (MeanwhileApart vcpu0) t hvcMeanwhile := by
  cases entered
  refine (Runs.Along.cons_of_step rfl).mpr ⟨trivial, ?_⟩
  refine (Runs.Along.cons_of_step rfl).mpr ⟨trivial, ?_⟩
  refine (Runs.Along.cons_of_step rfl).mpr ⟨trivial, ?_⟩
  refine (Runs.Along.cons_of_step rfl).mpr ⟨fun _ => ⟨by decide, by decide⟩, ?_⟩
  refine (Runs.Along.cons_of_step rfl).mpr ⟨trivial, ?_⟩
  refine (Runs.Along.cons_of_step rfl).mpr ⟨fun _ => ⟨by decide, by decide, by decide, by decide⟩, ?_⟩
  refine (Runs.Along.cons_of_step rfl).mpr ⟨trivial, ?_⟩
  refine (Runs.Along.cons_of_step rfl).mpr ⟨trivial, ?_⟩
  refine (Runs.Along.cons_of_step rfl).mpr ⟨trivial, ?_⟩
  refine (Runs.Along.cons_of_step rfl).mpr ⟨fun _ => ⟨by decide, by decide⟩, ?_⟩
  exact (Runs.Along.cons_of_step rfl).mpr ⟨trivial, trivial⟩

theorem hvc_return_lockRead : ∃ s t back u : System,
    Runs.runFrom System.step el2Start hvcArrival = some s ∧
    s.step (.handle vcpu0 {}) = some t ∧ Runs.runFrom System.step t hvcMeanwhile = some back ∧
    back.step (.handle vcpu0 {}) = some u ∧
    (u.slots vcpu0).ctx.pc = (s.slots vcpu0).ctx.pc + 4 ∧
    (u.slots vcpu0).ctx.cpsr = (s.slots vcpu0).ctx.cpsr ∧
    (u.slots vcpu0).guestAtEl2 = false ∧ (u.slots vcpu0).ctx.hcr.getLsbD 42 = false :=
  ⟨_, _, _, _, rfl, rfl, rfl, rfl, hvc_return ⟨rfl, rfl, rfl, rfl⟩ ⟨by decide, by decide⟩ (by decide)
    (by decide) rfl (hvcMeanwhile_apart rfl) rfl ⟨by decide, by decide⟩
    ⟨rfl, rfl, rfl, by decide, by decide⟩ rfl⟩

end OpenHypervisor
