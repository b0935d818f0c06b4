import OpenHypervisor.System

/-!
# A vCPU's life

What every run of a live vCPU has in common: where it starts, what it is granted
from outside, and what no step of it changes.
-/

set_option autoImplicit false

namespace OpenHypervisor

/-- As `hv_vcpu_create` leaves the vCPU, out of a slot that was blank but for a
cancel someone may have latched on it. -/
structure Fresh (s : System) (i : VcpuId) : Prop where
  idle : s.phase i = .idle
  slot : ∃ page cancel, s.slots i = createdSlot s.g i page { exitRequested := cancel }

theorem Fresh.live {s : System} {i : VcpuId} (fresh : Fresh s i) : (s.slots i).used = true := by
  obtain ⟨page, cancel, slot⟩ := fresh.slot
  rw [slot]
  rfl

theorem fresh_of_create {s t : System} {trap : CreateTrap} {i : VcpuId}
    (taken : s.step (.create trap) = some t) (blank : ∃ cancel, s.slots i = { exitRequested := cancel })
    (idle : s.phase i = .idle) (given : (t.slots i).used = true) : Fresh t i := by
  obtain ⟨cancel, slot⟩ := blank
  cases taken
  refine ⟨idle, trap.page, cancel, ?_⟩
  have unused : (s.slots i).used = false := by rw [slot]
  revert given
  show ((hvVcpuCreate s.g trap s.slots).2 i).used = true →
    (hvVcpuCreate s.g trap s.slots).2 i = createdSlot s.g i trap.page { exitRequested := cancel }
  have refused : (s.slots i).used = true → s.slots i =
      createdSlot s.g i trap.page { exitRequested := cancel } := by
    rw [unused]
    exact nofun
  unfold hvVcpuCreate
  split
  · exact refused
  · split
    · exact refused
    · rename_i free found
      split
      · exact refused
      · split
        · exact refused
        · by_cases here : i = free
          · subst here
            simp [slot]
          · simpa [here] using refused

def DefaultSwitches (g : Globals) : Prop := g.env = {} ∧ g.cfg = {}

/-- What a run of one vCPU is granted: it is not destroyed, the VMM does not
write its `HCR_EL2` by field number, and the kernel only reads the run controls. -/
def Granted (i : VcpuId) (s : System) (act : Act) (_ : System) : Prop :=
  match act with
  | .destroy j => j ≠ i
  | .call j (.setControlField field _) => j = i → field ≠ 0
  | .call j (.getSysReg host _) | .call j (.setSysReg host _ _) | .handle j host =>
      j = i → host.Quiet
  | .leave j page _ _ => j = i → (s.slots i).ctx.SameControls page
  | _ => True

theorem Granted.kept {i : VcpuId} {s t : System} {act : Act} (granted : Granted i s act t) :
    act ≠ .destroy i := by
  rintro rfl
  exact granted rfl

theorem Turn.used {s : System} {i : VcpuId} {act : Act} {slot : VcpuSlot} {phase : RunPhase}
    (turn : Turn s i act slot phase) : slot.used = (s.slots i).used := by
  cases turn with
  | gic _ _ only => rw [only.slot]
  | call call _ => rw [VcpuCall.serve_slot]; rfl
  | expire now _ => rw [ohvExpireTimers_slot]; rfl
  | reported host _ _ | served host _ _ => rw [(ExitOnly.exitFromRo host _).slot]; rfl
  | _ => rfl

/-- What no step of a live vCPU changes: that it is live, in which kind of VM,
and under which switches. -/
structure Standing (el2 : Bool) (s : System) (i : VcpuId) : Prop where
  live : (s.slots i).used = true
  kind : s.g.vmEl2 = el2
  switches : DefaultSwitches s.g

theorem Standing.step {el2 : Bool} {s t : System} {act : Act} {i : VcpuId}
    (standing : Standing el2 s i) (taken : s.step act = some t) (kept : act ≠ .destroy i) :
    Standing el2 t i := by
  have globals := System.step_globals taken
  refine ⟨(System.step_turn i taken standing.live kept).used.trans standing.live,
    globals.el2.trans standing.kind, globals.env.trans standing.switches.1, ?_⟩
  obtain same | same := globals.cfg
  · exact same.trans standing.switches.2
  · exact same.trans standing.switches.1

/-! ## What a step of the vCPU's own does -/

namespace Turn

variable {s : System} {i : VcpuId} {slot : VcpuSlot} {phase : RunPhase}

theorem handled {host : Host} (turn : Turn s i (.handle i host) slot phase) :
    slot = (exitFromRo host (s.view i)).2.s := by
  cases turn with
  | elsewhere _ other => exact absurd rfl other
  | canceled _ test _ => rcases test with ⟨act, -⟩ | ⟨act, -⟩ <;> cases act
  | reported | served => rfl

theorem called {asked : VcpuCall} (turn : Turn s i (.call i asked) slot phase) :
    slot = (asked.serve (s.view i)).s := by
  cases turn with
  | elsewhere _ other => exact absurd rfl other
  | canceled _ test _ => rcases test with ⟨act, -⟩ | ⟨act, -⟩ <;> cases act
  | call => rfl

theorem expired {now : Word} (turn : Turn s i (.expire i now) slot phase) :
    slot = (ohvExpireTimers now (s.view i)).s := by
  cases turn with
  | elsewhere _ other => exact absurd rfl other
  | canceled _ test _ => rcases test with ⟨act, -⟩ | ⟨act, -⟩ <;> cases act
  | expire => rfl

theorem left {page : Ctx} {rc : HvReturn} {ticks : Word}
    (turn : Turn s i (.leave i page rc ticks) slot phase) : slot.ctx = page := by
  cases turn with
  | elsewhere _ other => exact absurd rfl other
  | canceled _ test _ => rcases test with ⟨act, -⟩ | ⟨act, -⟩ <;> cases act
  | leave => rfl

theorem returned (turn : Turn s i (.ret i) slot phase) : phase = .idle := by
  cases turn with
  | elsewhere _ other => exact absurd rfl other
  | canceled _ test _ => rcases test with ⟨act, -⟩ | ⟨act, -⟩ <;> cases act
  | ret => rfl

end Turn

/-! ## A first vCPU, and one round of its loop -/

def freshSystem (g : Globals) (page : Ctx) : System :=
  { g := g, slots := fun j => if j = vcpu0 then createdSlot g 0 page {} else {} }

theorem freshSystem_fresh (g : Globals) (page : Ctx) : Fresh (freshSystem g page) vcpu0 :=
  ⟨rfl, page, false, rfl⟩

def blankPage : Ctx := ⟨⟨fun _ => 0⟩⟩

def versionedPage : Ctx := blankPage.put ohvRoVer (ohvStateVerMagic <<< 32)

/-- The page as it comes back with this exit. -/
def Ctx.withExit (c : Ctx) (reason : BitVec 32) (esr : Word) : Ctx :=
  (c.putLo32 ohvRoExitReason reason).put ohvRoExitEsr esr

theorem Ctx.SameControls.withExit (c : Ctx) (reason : BitVec 32) (esr : Word) :
    c.SameControls (c.withExit reason esr) := by
  refine WordMem.AgreeOn.put (WordMem.AgreeOn.put (.refl _) _ _ ?_) _ _ ?_ <;> decide

theorem Host.quiet_default : Host.Quiet {} := fun _ c => .refl c

/-- One round: into the guest, out of it with this page, and the exit handled. -/
def oneExit (i : VcpuId) (now : Word) (page : Ctx) (host : Host) : List Act :=
  [.expire i now, .enter i, .leave i page hvSuccess 0, .check i, .handle i host]

theorem oneExit_granted {i : VcpuId} {now : Word} {page : Ctx} {host : Host} {s inside : System}
    (entered : Runs.runFrom System.step s [.expire i now, .enter i] = some inside)
    (same : (inside.slots i).ctx.SameControls page) (quiet : host.Quiet) :
    Runs.Along System.step (Granted i) s (oneExit i now page host) := by
  refine Runs.Along.append entered ?_ ?_
  · exact fun _ _ => ⟨trivial, fun _ _ => ⟨trivial, trivial⟩⟩
  · exact fun _ _ => ⟨fun _ => same, fun _ _ => ⟨trivial, fun _ _ => ⟨fun _ => quiet, trivial⟩⟩⟩

/-- What is asked of handled exits only is asked of a round once. -/
theorem oneExit_handled {i : VcpuId} {now : Word} {page : Ctx} {host : Host} {s arrived : System}
    {C : Host → VcpuSlot → Prop}
    (run : Runs.runFrom System.step s (oneExit i now page host).dropLast = some arrived)
    (holds : C host (arrived.slots i)) :
    Runs.Along System.step (fun s act _ => ∀ host, act = .handle i host → C host (s.slots i)) s
      (oneExit i now page host) := by
  refine Runs.Along.append run ?_ ?_
  · exact fun _ _ => ⟨nofun, fun _ _ => ⟨nofun, fun _ _ => ⟨nofun, fun _ _ => ⟨nofun, trivial⟩⟩⟩⟩
  · refine fun _ _ => ⟨?_, trivial⟩
    rintro _ ⟨rfl⟩
    exact holds

def enteredPage (s : System) : Ctx :=
  ((Runs.runFrom System.step s [.run vcpu0, .expire vcpu0 0, .enter vcpu0]).map fun t =>
    (t.slots vcpu0).ctx).getD blankPage

end OpenHypervisor
