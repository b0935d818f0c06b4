import OpenHypervisor.BankedCurrent

/-!
# The block carried across whole runs

One vCPU against its hardware.  The guest runs and leaves the registers as it
likes; between two traps the library handles the exit, sweeps the timers and
serves the VMM in any order and number.  Which registers that was about is kept
beside the state, and so is whether the page was last known to be current.
-/

set_option autoImplicit false

namespace OpenHypervisor

open Ctx (Spares Current Carries)

structure BankedRun where
  v : VcpuView
  hw : Nat → Word
  named : List Nat := []
  /-- `STATE_VALID` had bit 0 at the last trap, or a sync was asked for since. -/
  current : Bool
  inside : Bool := false

inductive BankedAct where
  | enter
  | leave (page : Ctx) (hw : Nat → Word)
  | exit (host : Host)
  | expire (now : Word)
  | call (call : VcpuCall)
  | gic (call : GicCall) (slots : VcpuTable) (i : VcpuId)
  /-- Whatever happens off the page: the globals, the latch, the bookkeeping of
  a run. -/
  | apart (v : VcpuView)

def Ctx.blockValid (c : Ctx) : Bool := (c.word ohvRoStateValid).getLsbD 0

namespace BankedRun

def gicAnswer (s : BankedRun) (call : GicCall) (slots : VcpuTable) (i : VcpuId) : GicAnswer :=
  call.serve s.v.g (Function.update slots i s.v.s)

def step (s : BankedRun) : BankedAct → Option BankedRun
  | .enter =>
      if s.inside then none
      else
        let loaded := fun n => if s.v.s.ctx.SysregsDirty then s.v.s.ctx.banked n else s.hw n
        some { s with hw := loaded, inside := true }
  | .leave page hw =>
      if s.inside then
        some { v := s.v.setCtx page, hw := hw, named := [], current := page.blockValid }
      else none
  | .exit host =>
      if s.inside then none
      else
        some { s with
          v := (exitFromRo host s.v).2
          named := exitNames host s.v ++ s.named
          current := s.current || decide (ExitSyncs s.v) }
  | .expire now =>
      if s.inside then none
      else
        some { s with
          v := ohvExpireTimers now s.v
          named := sweepNames now s.v.s ++ s.named }
  | .call call =>
      if s.inside then none
      else
        some { s with
          v := call.serve s.v
          named := call.names ++ s.named
          current := s.current || call.syncs s.v.s.ctx }
  | .gic call slots i =>
      let answer := s.gicAnswer call slots i
      some { s with v := ⟨answer.g, answer.slots i⟩, named := call.names ++ s.named }
  | .apart v => some { s with v := v.setCtx s.v.s.ctx }

/-- The kernel's part: a page called valid has the hardware's registers, a flag
is taken down by the entry that reads it, and a sync makes the block current. -/
def Kernel (s : BankedRun) (act : BankedAct) (_ : BankedRun) : Prop :=
  match act with
  | .leave page hw => (page.blockValid = true → Current hw [] page) ∧ ¬ page.SysregsDirty
  | .exit host => host.Syncs s.hw (exitNames host s.v ++ s.named)
  | .call call => call.Kernel s.hw (call.names ++ s.named)
  | _ => True

def Blind (s : BankedRun) : BankedAct → Prop
  | .exit _ => BlindExit s.v
  | .expire now => SweepMarks now s.v.s
  | _ => False

/-- A register nobody was about since the trap enters as the guest left it. -/
def EntersAsLeft (s : BankedRun) (act : BankedAct) (next : BankedRun) : Prop :=
  match act with
  | .enter => ∀ n, n < bankedCount → n ∉ s.named → next.hw n = s.hw n
  | _ => True

structure Start (s : BankedRun) : Prop where
  outside : s.inside = false
  unnamed : s.named = []
  valid : s.current = s.v.s.ctx.blockValid
  known : s.v.s.ctx.blockValid = true → Current s.hw [] s.v.s.ctx
  clean : ¬ s.v.s.ctx.SysregsDirty

/-- Outside the guest, a page counted as current is, and a block handed over is
the hardware's but for what was meant. -/
def Faithful (s : BankedRun) : Prop :=
  s.inside = false →
    (s.current = true → Current s.hw s.named s.v.s.ctx) ∧
      (s.v.s.ctx.SysregsDirty → Current s.hw s.named s.v.s.ctx)

theorem Start.faithful {s : BankedRun} (start : s.Start) : s.Faithful := by
  intro _
  rw [start.unnamed, start.valid]
  exact ⟨start.known, fun dirty => absurd dirty start.clean⟩

theorem faithful_of_carries {s : BankedRun} {page : Ctx} {names : List Nat} {asked : Bool}
    (faithful : s.Faithful) (outside : s.inside = false)
    (carries : Carries s.hw (names ++ s.named) s.v.s.ctx page)
    (settles : asked = true → Current s.hw (names ++ s.named) page) :
    ((s.current || asked) = true → Current s.hw (names ++ s.named) page) ∧
      (page.SysregsDirty → Current s.hw (names ++ s.named) page) := by
  obtain ⟨known, dirty⟩ := faithful outside
  have more : Current s.hw s.named s.v.s.ctx → Current s.hw (names ++ s.named) page :=
    fun current => carries.current (current.mono fun n inside => List.mem_append_right _ inside)
  constructor
  · intro counted
    rcases Bool.or_eq_true_iff.mp counted with standing | synced
    · exact more (known standing)
    · exact settles synced
  · intro up
    rcases carries.dirty up with before | current
    · exact more (dirty before)
    · exact current

theorem faithful_of_unasked {s : BankedRun} {page : Ctx} {names : List Nat}
    (faithful : s.Faithful) (outside : s.inside = false)
    (carries : Carries s.hw (names ++ s.named) s.v.s.ctx page) :
    (s.current = true → Current s.hw (names ++ s.named) page) ∧
      (page.SysregsDirty → Current s.hw (names ++ s.named) page) := by
  have never : false = true → Current s.hw (names ++ s.named) page :=
    fun asked => absurd asked Bool.false_ne_true
  have both := faithful_of_carries faithful outside carries never
  rw [Bool.or_false] at both
  exact both

theorem step_faithful (s : BankedRun) (act : BankedAct) (next : BankedRun)
    (taken : s.step act = some next)
    (guard : s.Kernel act next ∧ (s.Blind act → s.current = true)) (faithful : s.Faithful) :
    next.Faithful := by
  obtain ⟨kernel, sighted⟩ := guard
  have inherited : ∀ names, s.inside = false → s.current = true →
      Current s.hw (names ++ s.named) s.v.s.ctx := by
    intro names outside current
    exact ((faithful outside).1 current).mono fun n inside => List.mem_append_right _ inside
  cases act with
  | enter =>
      simp only [step] at taken
      split at taken
      · cases taken
      · cases taken
        exact fun outside => absurd outside (by simp)
  | leave page hw =>
      simp only [step] at taken
      split at taken
      · cases taken
        exact fun _ => ⟨kernel.1, fun dirty => absurd dirty kernel.2⟩
      · cases taken
  | exit host =>
      simp only [step] at taken
      split at taken
      · cases taken
      · rename_i outside
        rw [Bool.not_eq_true] at outside
        cases taken
        obtain ⟨carries, settles⟩ := exitFromRo_carries host kernel s.v
          (fun n inside => List.mem_append_left _ inside)
          (fun blind => inherited _ outside (sighted blind))
        exact fun _ => faithful_of_carries faithful outside carries
          fun asked => settles (of_decide_eq_true asked)
  | expire now =>
      simp only [step] at taken
      split at taken
      · cases taken
      · rename_i outside
        rw [Bool.not_eq_true] at outside
        cases taken
        have carries : Carries s.hw (sweepNames now s.v.s ++ s.named) s.v.s.ctx
            (ohvExpireTimers now s.v).s.ctx :=
          .of_spares (ohvExpireTimers_spares now s.v) (fun n inside => List.mem_append_left _ inside)
            fun moves => inherited _ outside (sighted moves)
        exact fun _ => faithful_of_unasked faithful outside carries
  | call call =>
      simp only [step] at taken
      split at taken
      · cases taken
      · rename_i outside
        rw [Bool.not_eq_true] at outside
        cases taken
        obtain ⟨carries, settles⟩ := call.serve_carries s.v kernel
          fun n inside => List.mem_append_left _ inside
        exact fun _ => faithful_of_carries faithful outside carries settles
  | gic call slots i =>
      cases taken
      intro outside
      have spares := call.serve_spares s.v.g (Function.update slots i s.v.s) i
      rw [Function.update_self] at spares
      have carries : Carries s.hw (call.names ++ s.named) s.v.s.ctx
          ((s.gicAnswer call slots i).slots i).ctx :=
        .of_spares spares (fun n inside => List.mem_append_left _ inside) False.elim
      exact faithful_of_unasked faithful outside carries
  | apart v =>
      cases taken
      exact faithful

theorem enters_as_left (s : BankedRun) (act : BankedAct) (next : BankedRun)
    (taken : s.step act = some next) (faithful : s.Faithful) : s.EntersAsLeft act next := by
  cases act with
  | enter =>
      intro n small other
      simp only [step] at taken
      split at taken
      · cases taken
      · rename_i outside
        rw [Bool.not_eq_true] at outside
        cases taken
        simp only
        split
        · rename_i dirty
          exact (faithful outside).2 dirty n small other
        · rfl
  | leave | exit | expire | call | gic | apart => trivial

end BankedRun

/-- Along a run whose blind hand-overs find the page current, every banked
register the library was not about enters the guest as the guest left it. -/
theorem banked_enters_as_left (s : BankedRun) (word : List BankedAct) (start : s.Start)
    (kernel : Runs.Along BankedRun.step BankedRun.Kernel s word)
    (sighted : Runs.Along BankedRun.step (fun s act _ => s.Blind act → s.current = true) s word) :
    Runs.Along BankedRun.step BankedRun.EntersAsLeft s word :=
  Runs.along_of_invariant BankedRun.Faithful BankedRun.step_faithful
    (fun s act next taken _ => BankedRun.enters_as_left s act next taken)
    (kernel.and sighted) start.faithful

def hvcPage (fill : Word) : Ctx :=
  (((⟨⟨fun _ => fill⟩⟩ : Ctx).put ohvRwStateDirty 0).put ohvRoExitReason 1).put ohvRoExitEsr
    (0x16#64 <<< 26)

def hvcRun (fill : Word) : BankedRun :=
  { v := ⟨{}, { used := true, ctx := hvcPage fill }⟩
    hw := fun _ => 1
    current := (hvcPage fill).blockValid }

def onesHost : Host := { sync := fun _ _ => hvcPage 1 }

theorem hvcPage_current (named : List Nat) : Current (fun _ => 1) named (hvcPage 1) := by
  intro n small _
  simp only [bankedCount] at small
  have page : ∀ off, off < ohvRwStateDirty → (hvcPage 1).word off = 1 := by
    intro off below
    simp only [ohvRwStateDirty] at below
    simp only [hvcPage, Ctx.word_put, ohvRwStateDirty, ohvRoExitReason, ohvRoExitEsr]
    rw [if_neg (by omega), if_neg (by omega), if_neg (by omega)]
    rfl
  apply page
  simp only [ohvRwBankedSysregs, ohvRwStateDirty]
  omega

theorem hvcRun_kernel (fill : Word) :
    Runs.Along BankedRun.step BankedRun.Kernel (hvcRun fill) [.exit onesHost, .enter] := by
  refine (Runs.Along.cons_of_step rfl).mpr ⟨fun _ _ => hvcPage_current _, ?_⟩
  exact (Runs.Along.cons_of_step rfl).mpr ⟨trivial, trivial⟩

theorem hvc_enters_as_left :
    Runs.Along BankedRun.step BankedRun.EntersAsLeft (hvcRun 1) [.exit onesHost, .enter] := by
  refine banked_enters_as_left (hvcRun 1) _ ?_ (hvcRun_kernel 1) ?_
  · exact ⟨rfl, rfl, rfl, fun _ => hvcPage_current [], by decide⟩
  · refine (Runs.Along.cons_of_step rfl).mpr ⟨fun _ => by decide, ?_⟩
    exact (Runs.Along.cons_of_step rfl).mpr ⟨False.elim, trivial⟩

/-- With it stale the entry rolls SCTLR_EL1 back. -/
theorem hvc_rolls_back :
    ¬ ∀ (s : BankedRun) (word : List BankedAct), s.Start →
      Runs.Along BankedRun.step BankedRun.Kernel s word →
      Runs.Along BankedRun.step BankedRun.EntersAsLeft s word := by
  intro all
  have start : (hvcRun 0).Start := by
    refine ⟨rfl, rfl, rfl, fun valid => ?_, by decide⟩
    exact absurd valid (by decide)
  have entered := (all (hvcRun 0) [.exit onesHost, .enter] start (hvcRun_kernel 0)).at_step
    [BankedAct.exit onesHost] rfl rfl
  have rolled := entered 12 (by decide) (by decide)
  exact absurd rolled (by decide)

end OpenHypervisor
