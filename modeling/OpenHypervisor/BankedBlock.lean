import OpenHypervisor.ControlCalls

/-!
# The banked block and the hardware behind it

After a trap the guest's EL1 registers are in hardware; the page holds them too
when the kernel says so, or once it has been asked to sync.  With
`OHV_STATE_SYSREGS` up the next entry loads the whole block, whatever was meant
to be written.  `Ctx.Carries` is what a piece of the library owes: the block it
hands over is the hardware's but for the registers it is about.
-/

set_option autoImplicit false

namespace OpenHypervisor

open Ctx (Spares)

namespace Ctx

/-- The page has the hardware's banked registers, the named ones apart. -/
def Current (hw : Nat → Word) (named : List Nat) (c : Ctx) : Prop :=
  ∀ n, n < bankedCount → n ∉ named → c.banked n = hw n

theorem Current.mono {hw : Nat → Word} {named more : List Nat} {c : Ctx}
    (current : Current hw named c) (subset : ∀ n ∈ named, n ∈ more) : Current hw more c :=
  fun n small other => current n small fun inside => other (subset n inside)

/-- A current page stays so, and a block newly handed over is current. -/
structure Carries (hw : Nat → Word) (named : List Nat) (before after : Ctx) : Prop where
  current : Current hw named before → Current hw named after
  dirty : after.SysregsDirty → before.SysregsDirty ∨ Current hw named after

namespace Carries

variable {hw : Nat → Word} {named : List Nat}

theorem refl (c : Ctx) : Carries hw named c c := ⟨id, Or.inl⟩

theorem trans {first second third : Ctx} (left : Carries hw named first second)
    (right : Carries hw named second third) : Carries hw named first third where
  current known := right.current (left.current known)
  dirty := by
    intro up
    rcases right.dirty up with middle | known
    · exact (left.dirty middle).imp id right.current
    · exact Or.inr known

theorem of_current {before after : Ctx} (known : Current hw named after) :
    Carries hw named before after :=
  ⟨fun _ => known, fun _ => Or.inr known⟩

/-- A piece that hands the block over without asking for it has to find it
current. -/
theorem of_spares {before after : Ctx} {names : List Nat} {marks : Prop}
    (spares : Spares names marks before after) (subset : ∀ n ∈ names, n ∈ named)
    (known : marks → Current hw named before) : Carries hw named before after := by
  have kept : Current hw named before → Current hw named after := by
    intro current n small other
    rw [spares.banked n small fun inside => other (subset n inside)]
    exact current n small other
  refine ⟨kept, fun up => ?_⟩
  exact (spares.raised up).imp id fun marked => kept (known marked)

theorem of_apart {before after : Ctx} (spares : Spares [] False before after) :
    Carries hw named before after :=
  of_spares spares (fun _ inside => absurd inside List.not_mem_nil) False.elim

end Carries

end Ctx

open Ctx (Current Carries)

/-- A sync brings in what the guest's registers hold; a register the library has
written since the trap is left open. -/
def Host.Syncs (host : Host) (hw : Nat → Word) (named : List Nat) : Prop :=
  ∀ k c, Current hw named (host.sync k c)

/-! ## What an exit names, hands over blindly, and asks for -/

def ExitMirrors (cfg : OhvCfg) (s : VcpuSlot) : Prop := cfg.mirrorGl1 ∧ s.ctx.exitEc = 0x18

instance (cfg : OhvCfg) (s : VcpuSlot) : Decidable (ExitMirrors cfg s) :=
  inferInstanceAs (Decidable (_ ∧ _))

/-- The return pair, when the mirror finds the guarded one to differ. -/
def mirrorNames (cfg : OhvCfg) (host : Host) (s : VcpuSlot) : List Nat :=
  if ExitMirrors cfg s then
    let ctx := host.sync 0 s.ctx
    let gelr := ctx.ext 51
    let gspsr := ctx.ext 52
    if gelr ≠ 0 ∧ gspsr ≠ 0 ∧ (ctx.banked 3 ≠ gelr ∨ ctx.banked 14 ≠ gspsr) then [3, 14] else []
  else []

def eretNames (host : Host) (v : VcpuView) : List Nat :=
  if v.g.cfg.noHwGeret = false ∧ v.s.ctx.TrappedEret ∧ eretIsGuarded (host.sync 1 v.s.ctx) then
    [3, 14]
  else []

def syncNames (host : Host) (v : VcpuView) : List Nat :=
  if v.InjectsHvc then [3, 5, 14] else eretNames host v

def dispatchNames (host : Host) (v : VcpuView) : List Nat :=
  match v.s.ctx.exitReason.toNat with
  | 8 =>
      if v.s.ctx.exitEc = 0x18 then accessNames (.ofEsr v.s.ctx.exitEsr) else syncNames host v
  | 1 => syncNames host v
  | _ => []

def exitNames (host : Host) (v : VcpuView) : List Nat :=
  mirrorNames v.g.cfg host v.s ++
    dispatchNames host { v with s := arriveExit v.g.cfg host v.s }

/-- A trapped access or an injected HVC hands the block over as it stands. -/
def BlindDispatch (v : VcpuView) : Prop :=
  (v.s.ctx.exitReason.toNat = 8 ∧ v.s.ctx.exitEc = 0x18 ∧
    (SysAccess.ofEsr v.s.ctx.exitEsr).MarksBlock) ∨
  ((v.s.ctx.exitReason.toNat = 8 ∨ v.s.ctx.exitReason.toNat = 1) ∧ v.InjectsHvc)

instance (v : VcpuView) : Decidable (BlindDispatch v) := inferInstanceAs (Decidable (_ ∨ _))

def BlindExit (v : VcpuView) : Prop := ¬ ExitMirrors v.g.cfg v.s ∧ BlindDispatch v

instance (v : VcpuView) : Decidable (BlindExit v) := inferInstanceAs (Decidable (_ ∧ _))

/-- An ERET is looked at with a sync, by whichever of the two paths is open. -/
def VcpuView.EretSyncs (v : VcpuView) : Prop :=
  v.s.ctx.TrappedEret ∧ (v.g.cfg.noHwGeret = false ∨ v.s.guestAtEl2 = true)

instance (v : VcpuView) : Decidable v.EretSyncs := inferInstanceAs (Decidable (_ ∧ _))

def DispatchSyncs (v : VcpuView) : Prop :=
  (v.s.ctx.exitReason.toNat = 8 ∨ v.s.ctx.exitReason.toNat = 1) ∧ v.EretSyncs

instance (v : VcpuView) : Decidable (DispatchSyncs v) := inferInstanceAs (Decidable (_ ∧ _))

def ExitSyncs (v : VcpuView) : Prop := ExitMirrors v.g.cfg v.s ∨ DispatchSyncs v

instance (v : VcpuView) : Decidable (ExitSyncs v) := inferInstanceAs (Decidable (_ ∨ _))

/-! ## The pieces of an exit -/

section Exit

variable {hw : Nat → Word} {named : List Nat} (host : Host) (kernel : host.Syncs hw named)

theorem mirrorGl1_spares (cfg : OhvCfg) (s : VcpuSlot) (mirrors : ExitMirrors cfg s) :
    Spares (mirrorNames cfg host s) True (host.sync 0 s.ctx) (mirrorGl1 cfg host s).ctx := by
  have asked : cfg.mirrorGl1 ∧ s.ctx.exitEc = 0x18 := mirrors
  unfold mirrorGl1 mirrorNames
  rw [if_pos mirrors, if_pos asked]
  simp only
  split
  · refine (((Spares.refl _).setBanked 3 _ (by decide) ?_).setBanked 14 _ (by decide) ?_).markSysregs
      trivial
    · exact List.mem_cons_self
    · exact List.mem_cons_of_mem 3 List.mem_cons_self
  · exact .refl _

theorem rearmNv_spares (cfg : OhvCfg) (s : VcpuSlot) :
    Spares [] False s.ctx (rearmNv cfg s).ctx := by
  unfold rearmNv
  split
  · exact (Spares.refl _).armNv
  · exact .refl _

theorem restoreNv_spares (s : VcpuSlot) : Spares [] False s.ctx (restoreNv s).ctx := by
  unfold restoreNv
  split
  · exact (Spares.refl s.ctx).armNv
  · exact .refl _

/-- The exception class is the kernel's to write, so the two prologue pieces
never meet. -/
theorem mirrorGl1_arrival (cfg : OhvCfg) (s : VcpuSlot) :
    (ExitMirrors cfg s ∧ restoreNv s = s) ∨
      (¬ ExitMirrors cfg s ∧ mirrorGl1 cfg host (restoreNv s) = restoreNv s) := by
  have ec : (restoreNv s).ctx.exitEc = s.ctx.exitEc := by
    unfold restoreNv
    split
    · show s.armNv.ctx.exitEc = _
      rw [Ctx.exitEc, Ctx.exitEsr, armNv_word s _ (by decide) (by decide)]
      rfl
    · rfl
  by_cases mirrors : ExitMirrors cfg s
  · refine Or.inl ⟨mirrors, if_neg fun left => ?_⟩
    have class' := left.2
    rw [mirrors.2] at class'
    exact absurd class' (by decide)
  · refine Or.inr ⟨mirrors, if_neg fun asked => mirrors ⟨asked.1, ?_⟩⟩
    rw [← ec]
    exact asked.2

include kernel

theorem arriveExit_carries (cfg : OhvCfg) (s : VcpuSlot)
    (subset : ∀ n ∈ mirrorNames cfg host s, n ∈ named) :
    Carries hw named s.ctx (arriveExit cfg host s).ctx ∧
      (ExitMirrors cfg s → Current hw named (arriveExit cfg host s).ctx) := by
  have rearmed : Carries hw named (mirrorGl1 cfg host (restoreNv s)).ctx
      (arriveExit cfg host s).ctx :=
    .of_apart (rearmNv_spares cfg _)
  rcases mirrorGl1_arrival host cfg s with ⟨mirrors, plain⟩ | ⟨silent, plain⟩
  · rw [plain] at rearmed
    have mirrored : Carries hw named (host.sync 0 s.ctx) (mirrorGl1 cfg host s).ctx :=
      .of_spares (mirrorGl1_spares host cfg s mirrors) subset fun _ => kernel 0 s.ctx
    have known := rearmed.current (mirrored.current (kernel 0 s.ctx))
    exact ⟨.of_current known, fun _ => known⟩
  · rw [plain] at rearmed
    exact ⟨(Carries.of_apart (restoreNv_spares s)).trans rearmed, fun mirrors => absurd mirrors silent⟩

omit kernel in
theorem completeEret_spares (s : VcpuSlot) : Spares [] False s.ctx (completeEret s).ctx := by
  have returned : Spares [] False s.ctx
      ((s.ctx.setPc (s.ctx.banked 3)).setCpsr ((s.ctx.banked 14).extractLsb' 0 32)) :=
    ((Spares.refl s.ctx).setPc _).setCpsr _
  unfold completeEret
  simp only
  split
  · exact Spares.clearNv (s := { s with ctx := _, guestAtEl2 := false }) returned
  · split
    · exact returned.setCpsr _
    · exact returned

omit kernel in
theorem handEretToHardware_spares (s : VcpuSlot) :
    Spares [3, 14] True s.ctx (handEretToHardware s).ctx := by
  have written : Spares [3, 14] True s.ctx
      (((s.ctx.setBanked 3 (s.ctx.ext 51)).setBanked 14 (s.ctx.ext 52)).markDirty
        ohvStateSysregs) :=
    (((Spares.refl s.ctx).setBanked 3 _ (by decide) (by decide)).setBanked 14 _ (by decide)
      (by decide)).markSysregs trivial
  exact Spares.clearNv (s := { s with ctx := _ }) written

omit kernel in
theorem enterGuestEl2_spares (s : VcpuSlot) (esr returnPc : Word) :
    Spares [3, 5, 14] True s.ctx (enterGuestEl2 s esr returnPc).ctx := by
  have banked : Spares [3, 5, 14] True s.ctx (((s.ctx.setBanked 3 returnPc).setBanked 5 esr).setBanked
      14 (s.ctx.cpsr.zeroExtend 64)) :=
    (((Spares.refl s.ctx).setBanked 3 _ (by decide) (by decide)).setBanked 5 _ (by decide)
      (by decide)).setBanked 14 _ (by decide) (by decide)
  have entered := ((banked.markSysregs trivial).setPc
    (s.ctx.word (ohvVncrBase + 0x250) + ohvVectLower64Sync)).setCpsr 0x3c5
  have armed := Spares.armNv (s := { s with ctx := _ }) entered
  unfold enterGuestEl2
  simp only
  exact armed

theorem softEret_carries (reason : BitVec 32) (v : VcpuView) :
    Carries hw named v.s.ctx (softEret reason host v).2.s.ctx ∧
      (v.s.ctx.TrappedEret ∧ v.s.guestAtEl2 = true →
        Current hw named (softEret reason host v).2.s.ctx) := by
  have synced : Current hw named (v.sync host 2).s.ctx := kernel 2 v.s.ctx
  have completed : Carries hw named (v.sync host 2).s.ctx (completeEret (v.sync host 2).s).ctx :=
    .of_apart (completeEret_spares _)
  unfold softEret
  split
  · simp only
    split
    · have known := completed.current synced
      exact ⟨.of_current known, fun _ => known⟩
    · rw [reportException_ctx]
      exact ⟨.of_current synced, fun _ => synced⟩
  · rename_i other
    rw [reportException_ctx]
    exact ⟨.refl _, fun trapped => absurd trapped other⟩

theorem guardedEret_carries (reason : BitVec 32) (v : VcpuView)
    (subset : ∀ n ∈ eretNames host v, n ∈ named) :
    Carries hw named v.s.ctx (guardedEret reason host v).2.s.ctx ∧
      (v.EretSyncs → Current hw named (guardedEret reason host v).2.s.ctx) := by
  have synced : Current hw named (v.sync host 1).s.ctx := kernel 1 v.s.ctx
  unfold guardedEret
  split
  · rename_i trapped
    simp only
    split
    · rename_i guarded
      have names : eretNames host v = [3, 14] := if_pos ⟨trapped.1, trapped.2, guarded⟩
      have handed : Carries hw named (v.sync host 1).s.ctx
          (handEretToHardware (v.sync host 1).s).ctx := by
        refine .of_spares (handEretToHardware_spares _) ?_ fun _ => synced
        rw [← names]
        exact subset
      have known := handed.current synced
      exact ⟨.of_current known, fun _ => known⟩
    · have known := (softEret_carries host kernel reason (v.sync host 1)).1.current synced
      exact ⟨.of_current known, fun _ => known⟩
  · rename_i open'
    obtain ⟨carries, settles⟩ := softEret_carries host kernel reason v
    refine ⟨carries, fun asked => settles ⟨asked.1, ?_⟩⟩
    exact asked.2.resolve_left fun switch => open' ⟨switch, asked.1⟩

omit kernel in
theorem TrappedEret.not_injects {v : VcpuView} (eret : v.s.ctx.TrappedEret) : ¬ v.InjectsHvc := by
  rintro ⟨ec, -⟩
  rw [eret.1] at ec
  exact absurd ec (by decide)

theorem syncException_carries (reason : BitVec 32) (v : VcpuView)
    (subset : ∀ n ∈ syncNames host v, n ∈ named)
    (known : v.InjectsHvc → Current hw named v.s.ctx) :
    Carries hw named v.s.ctx (syncException reason host v).2.s.ctx ∧
      (v.EretSyncs → Current hw named (syncException reason host v).2.s.ctx) := by
  unfold syncException
  split
  · rename_i spins
    refine ⟨.of_apart (Spares.refl _).skip, fun asked => ?_⟩
    have ec := asked.1.1
    rw [spins.2] at ec
    exact absurd ec (by decide)
  · split
    · rename_i injects
      have names : syncNames host v = [3, 5, 14] := if_pos injects
      refine ⟨.of_spares (enterGuestEl2_spares _ _ _) ?_ fun _ => known injects,
        fun asked => absurd injects (TrappedEret.not_injects asked.1)⟩
      rw [← names]
      exact subset
    · rename_i other
      have names : syncNames host v = eretNames host v := if_neg other
      rw [names] at subset
      exact guardedEret_carries host kernel reason v subset

theorem msrTrap_carries (v : VcpuView)
    (subset : ∀ n ∈ (if v.s.ctx.exitEc = 0x18 then accessNames (.ofEsr v.s.ctx.exitEsr)
      else syncNames host v), n ∈ named)
    (access : v.s.ctx.exitEc = 0x18 → (SysAccess.ofEsr v.s.ctx.exitEsr).MarksBlock →
      Current hw named v.s.ctx)
    (known : v.InjectsHvc → Current hw named v.s.ctx) :
    Carries hw named v.s.ctx (msrTrap host v).2.s.ctx ∧
      (v.EretSyncs → Current hw named (msrTrap host v).2.s.ctx) := by
  unfold msrTrap
  by_cases msr : v.s.ctx.exitEc = 0x18
  · rw [if_pos msr] at subset
    rw [if_pos msr]
    have noEret : ∀ c : Ctx, c.exitEc = 0x18 → ¬ c.TrappedEret := by
      intro c ec eret
      rw [eret.1] at ec
      exact absurd ec (by decide)
    have serviced : Carries hw named v.s.ctx (serviceNv2Access host v.s.ctx.exitEsr v).2.s.ctx :=
      .of_spares (serviceNv2Access_spares host _ v) subset (access msr)
    refine ⟨?_, fun asked => absurd asked.1 (noEret _ msr)⟩
    by_cases handoff : (SysAccess.ofEsr v.s.ctx.exitEsr).IsHandoff
    · rw [serviceNv2Access_handoff host _ v handoff] at serviced ⊢
      exact serviced
    · have ec := (serviceNv2Access_frame host v.s.ctx.exitEsr v handoff).page.exitEc
      revert serviced ec
      rcases serviceNv2Access host v.s.ctx.exitEsr v with ⟨carried, after⟩
      intro serviced ec
      cases carried with
      | true => exact serviced
      | false =>
          -- what no block answered is neither an HVC nor an ERET
          have class' : after.s.ctx.exitEc = 0x18 := ec.trans msr
          have noHvc : ¬ after.InjectsHvc := by
            rintro ⟨hvc, -⟩
            rw [class'] at hvc
            exact absurd hvc (by decide)
          have names : syncNames host after = [] := by
            rw [syncNames, if_neg noHvc, eretNames, if_neg fun all => noEret _ class' all.2.1]
          have none : ∀ n ∈ syncNames host after, n ∈ named := by
            rw [names]
            exact fun _ inside => absurd inside List.not_mem_nil
          exact serviced.trans (syncException_carries host kernel 8 after none
            fun injects => absurd injects noHvc).1
  · rw [if_neg msr] at subset
    rw [if_neg msr]
    exact syncException_carries host kernel 8 v subset known

omit kernel in
theorem physicalInterrupt_spares (v : VcpuView) :
    Spares [] False v.s.ctx (physicalInterrupt v).2.s.ctx := by
  rw [physicalInterrupt_ctx]
  split
  · exact (Spares.refl _).put _ _ (Or.inr (by decide)) (by decide)
  · exact .refl _

theorem dispatchExit_carries (v : VcpuView) (subset : ∀ n ∈ dispatchNames host v, n ∈ named)
    (known : BlindDispatch v → Current hw named v.s.ctx) :
    Carries hw named v.s.ctx (dispatchExit host v).2.s.ctx ∧
      (DispatchSyncs v → Current hw named (dispatchExit host v).2.s.ctx) := by
  have apart : ∀ after : Ctx, Spares [] False v.s.ctx after →
      ¬ (v.s.ctx.exitReason.toNat = 8 ∨ v.s.ctx.exitReason.toNat = 1) →
      Carries hw named v.s.ctx after ∧ (DispatchSyncs v → Current hw named after) :=
    fun after spares other => ⟨.of_apart spares, fun asked => absurd asked.1 other⟩
  unfold dispatchNames at subset
  unfold dispatchExit
  split
  case h_8 reason =>
    simp only [reason] at subset
    obtain ⟨carries, settles⟩ := msrTrap_carries host kernel v subset
      (fun msr marks => known (Or.inl ⟨reason, msr, marks⟩))
      (fun injects => known (Or.inr ⟨Or.inl reason, injects⟩))
    exact ⟨carries, fun asked => settles asked.2⟩
  case h_9 reason =>
    simp only [reason] at subset
    obtain ⟨carries, settles⟩ := syncException_carries host kernel 1 v subset
      (fun injects => known (Or.inr ⟨Or.inr reason, injects⟩))
    exact ⟨carries, fun asked => settles asked.2⟩
  case h_6 reason =>
    exact apart _ (physicalInterrupt_spares v) (by rw [reason]; decide)
  case h_7 reason =>
    exact apart _ (physicalInterrupt_spares v) (by rw [reason]; decide)
  case h_10 reason =>
    rw [reportException_ctx]
    exact apart _ (.refl _) (by rw [reason]; decide)
  case h_11 =>
    refine apart _ (.refl _) ?_
    rintro (eight | one)
    · exact absurd eight ‹_›
    · exact absurd one ‹_›
  all_goals
    rename_i reason
    exact apart _ (.refl _) (by rw [reason]; decide)

omit kernel in
/-- Without the mirror the prologue leaves everything the dispatch looks at. -/
theorem arriveExit_dispatch (v : VcpuView) (silent : ¬ ExitMirrors v.g.cfg v.s) :
    (BlindDispatch { v with s := arriveExit v.g.cfg host v.s } ↔ BlindDispatch v) ∧
      (DispatchSyncs { v with s := arriveExit v.g.cfg host v.s } ↔ DispatchSyncs v) := by
  have found : foundPage v.g.cfg host v.s = v.s.ctx := if_neg silent
  have words := (arriveExit_found v.g.cfg host v.s).1
  rw [found] at words
  have reason : (arriveExit v.g.cfg host v.s).ctx.exitReason = v.s.ctx.exitReason := by
    rw [Ctx.exitReason, Ctx.lo32, words _ (by decide)]
    rfl
  have esr : (arriveExit v.g.cfg host v.s).ctx.exitEsr = v.s.ctx.exitEsr := words _ (by decide)
  have ec : (arriveExit v.g.cfg host v.s).ctx.exitEc = v.s.ctx.exitEc := by
    rw [Ctx.exitEc, esr]
    rfl
  have level : (arriveExit v.g.cfg host v.s).guestAtEl2 = v.s.guestAtEl2 := by
    show (rearmNv v.g.cfg (mirrorGl1 v.g.cfg host (restoreNv v.s))).guestAtEl2 = _
    have plain := (mirrorGl1_arrival host v.g.cfg v.s).resolve_left fun both => silent both.1
    rw [plain.2]
    unfold rearmNv restoreNv
    split <;> split <;> rfl
  simp only [BlindDispatch, DispatchSyncs, VcpuView.InjectsHvc, VcpuView.EretSyncs,
    Ctx.TrappedEret, reason, esr, ec, level, and_self]

theorem exitFromRo_carries (v : VcpuView) (subset : ∀ n ∈ exitNames host v, n ∈ named)
    (known : BlindExit v → Current hw named v.s.ctx) :
    Carries hw named v.s.ctx (exitFromRo host v).2.s.ctx ∧
      (ExitSyncs v → Current hw named (exitFromRo host v).2.s.ctx) := by
  obtain ⟨arrived, settled⟩ := arriveExit_carries host kernel v.g.cfg v.s
    fun n inside => subset n (List.mem_append_left _ inside)
  have dispatched := dispatchExit_carries host kernel
    { v with s := arriveExit v.g.cfg host v.s }
    fun n inside => subset n (List.mem_append_right _ inside)
  by_cases mirrors : ExitMirrors v.g.cfg v.s
  · have current := settled mirrors
    have known := (dispatched fun _ => current).1.current current
    exact ⟨.of_current known, fun _ => known⟩
  · obtain ⟨blind, syncs⟩ := arriveExit_dispatch host v mirrors
    obtain ⟨carries, settles⟩ := dispatched fun dispatches =>
      arrived.current (known ⟨mirrors, blind.mp dispatches⟩)
    refine ⟨arrived.trans carries, fun asked => settles (syncs.mpr ?_)⟩
    exact asked.resolve_left mirrors

end Exit

end OpenHypervisor
