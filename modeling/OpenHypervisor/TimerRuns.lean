import OpenHypervisor.GuestTimer
import OpenHypervisor.Registers
import OpenHypervisor.Library.Runs

/-!
# The compare value over a run

A guest writes its compare value, the VMM moves the offset, the guest reads the
value back.  A run is a word of trapped timer accesses, each at a host clock of its
own, of moves of the offset and of the guest loading its registers in between.
Beside the slot it keeps what the guest last asked of each timer and the offset it
asked it under.  The stored word is the sum of the two, and so a read is right
exactly while the offset is the one of the write.
-/

set_option autoImplicit false

namespace OpenHypervisor

structure Asked where
  value : Word
  offset : Word
  deriving DecidableEq, Repr

structure TimerRun where
  v : VcpuView
  asked : Bool → Option Asked := fun _ => none

inductive TimerAct where
  | access (physical : Bool) (reg : TimerReg) (host : Host) (esr : Word)
  | setOffset (off : Word)
  | load (rt : BitVec 5) (value : Word)

namespace TimerRun

/-- What the guest asks by a write: the value itself, or so many ticks from its
counter. -/
def noted (r : TimerRun) (physical : Bool) (now operand : Word) : TimerReg → Bool → Option Asked
  | .tval => Function.update r.asked physical (some ⟨r.v.s.timers.clock now +
      (operand.extractLsb' 0 32).signExtend 64, r.v.s.timers.offset⟩)
  | .ctl => r.asked
  | .cval => Function.update r.asked physical (some ⟨operand, r.v.s.timers.offset⟩)

def step (r : TimerRun) : TimerAct → Option TimerRun
  | .access physical reg host esr =>
      let a := SysAccess.ofEsr esr
      if a.OfTimer physical reg then
        some {
          v := (serviceNv2Access host esr r.v).2
          asked := if a.read then r.asked
            else r.noted physical host.now (r.v.s.ctx.readRt a.rt) reg }
      else none
  | .setOffset off => some { r with v := { r.v with s := hvVcpuSetVtimerOffset off r.v.s } }
  | .load rt value => some { r with v := r.v.setCtx (r.v.s.ctx.writeRt rt value) }

def Stored (r : TimerRun) : Prop :=
  ∀ physical w, r.asked physical = some w →
    r.v.s.timers.compare physical = w.value + w.offset

def ReadsBack (r : TimerRun) : TimerAct → TimerRun → Prop
  | .access physical .cval _ esr, next => (SysAccess.ofEsr esr).ReadsTimer physical .cval →
      ∀ w, r.asked physical = some w → next.v.s.ctx.readRt (SysAccess.ofEsr esr).rt = w.value
  | _, _ => True

/-- CVAL is read under the offset it was written under. -/
def OffsetHeld (r : TimerRun) : TimerAct → TimerRun → Prop
  | .access physical .cval _ esr, _ => (SysAccess.ofEsr esr).ReadsTimer physical .cval →
      ∀ w, r.asked physical = some w → r.v.s.timers.offset = w.offset
  | _, _ => True

end TimerRun

theorem timers_setOffset (off : Word) (s : VcpuSlot) :
    (hvVcpuSetVtimerOffset off s).timers = { s.timers with offset := off } := by
  have moved : ({ s with ctx := s.ctx.setControl 0x30 off } : VcpuSlot).timers =
      { s.timers with offset := off } := by
    have compare : ({ s with ctx := s.ctx.setControl 0x30 off } : VcpuSlot).timerCval =
        s.timerCval := by
      funext physical
      cases physical <;> exact (s.ctx.word_put _ _ off).trans (if_neg (by decide))
    have control : ({ s with ctx := s.ctx.setControl 0x30 off } : VcpuSlot).timerCtl =
        s.timerCtl := by
      funext physical
      cases physical with
      | true => rfl
      | false => exact (s.ctx.word_put _ _ off).trans (if_neg (by decide))
    have offset : (s.ctx.setControl 0x30 off).vtimerOffset = off :=
      (s.ctx.word_put _ _ off).trans (if_pos rfl)
    simp only [VcpuSlot.timers, compare, control, offset]
  exact (timers_markDirty { s with ctx := s.ctx.setControl 0x30 off } ohvStateControls).trans moved

namespace TimerRun

variable {r next : TimerRun}

theorem step_access {physical : Bool} {reg : TimerReg} {host : Host} {esr : Word}
    (taken : r.step (.access physical reg host esr) = some next) :
    (SysAccess.ofEsr esr).OfTimer physical reg ∧ next.v = (serviceNv2Access host esr r.v).2 ∧
      next.asked = if (SysAccess.ofEsr esr).read then r.asked
        else r.noted physical host.now (r.v.s.ctx.readRt (SysAccess.ofEsr esr).rt) reg := by
  simp only [step] at taken
  split at taken
  · rename_i named
    cases taken
    exact ⟨named, rfl, rfl⟩
  · cases taken

theorem stored_noted (stored : r.Stored) (physical : Bool) (now operand : Word) (reg : TimerReg)
    {timer : Bool} {w : Asked} (asked : r.noted physical now operand reg timer = some w) :
    (r.v.s.timers.write physical now operand reg).compare timer = w.value + w.offset := by
  cases reg with
  | ctl => exact stored timer w asked
  | tval =>
      by_cases same : timer = physical
      · subst same
        simp only [noted, Function.update_self, Option.some.injEq] at asked
        subst asked
        simp only [StoredTimers.write, StoredTimers.dueAt, StoredTimers.clock, Function.update_self]
        rw [← add_sub_right_comm, sub_add_cancel]
      · simp only [noted, Function.update_of_ne same] at asked
        simp only [StoredTimers.write, Function.update_of_ne same]
        exact stored timer w asked
  | cval =>
      by_cases same : timer = physical
      · subst same
        simp only [noted, Function.update_self, Option.some.injEq] at asked
        subst asked
        simp only [StoredTimers.write, Function.update_self]
      · simp only [noted, Function.update_of_ne same] at asked
        simp only [StoredTimers.write, Function.update_of_ne same]
        exact stored timer w asked

theorem stored_step (act : TimerAct) (taken : r.step act = some next) (stored : r.Stored) :
    next.Stored := by
  cases act with
  | access physical reg host esr =>
      obtain ⟨named, view, asked⟩ := step_access taken
      have served : TimerServed r.v.s.timers physical reg host.now (.ofEsr esr)
          (r.v.s.ctx.readRt (SysAccess.ofEsr esr).rt) (serviceNv2Access host esr r.v) :=
        service_timer reg named
      intro timer w asks
      rw [view, served.stored]
      rw [asked] at asks
      by_cases reads : (SysAccess.ofEsr esr).read = true
      · rw [if_pos reads] at asks ⊢
        exact stored timer w asks
      · rw [if_neg reads] at asks ⊢
        exact stored_noted stored physical host.now _ reg asks
  | setOffset off =>
      cases taken
      intro timer w asks
      rw [timers_setOffset]
      exact stored timer w asks
  | load rt value =>
      cases taken
      intro timer w asks
      have same : (r.v.setCtx (r.v.s.ctx.writeRt rt value)).s.timers = r.v.s.timers :=
        timers_writeRt r.v.s rt value
      rw [same]
      exact stored timer w asks

theorem readsBack_iff (act : TimerAct) (taken : r.step act = some next) (stored : r.Stored) :
    r.ReadsBack act next ↔ r.OffsetHeld act next := by
  cases act with
  | setOffset off => exact Iff.rfl
  | load rt value => exact Iff.rfl
  | access physical reg host esr =>
      cases reg with
      | tval => exact Iff.rfl
      | ctl => exact Iff.rfl
      | cval =>
          obtain ⟨-, view, -⟩ := step_access taken
          refine forall_congr' fun reads => forall_congr' fun w => forall_congr' fun asks => ?_
          have shown : next.v.s.ctx.readRt (SysAccess.ofEsr esr).rt =
              r.v.s.timers.compare physical - r.v.s.timers.offset := by
            rw [view]
            exact operandAfter_timer reads
          rw [shown, stored physical w asks, add_sub_assoc, add_eq_left, sub_eq_zero]
          exact eq_comm

end TimerRun

/-- In every run a guest reads back its compare value exactly as long as no read comes
under an offset other than the one of the write. -/
theorem timerRun_readsBack_iff (v : VcpuView) (word : List TimerAct) :
    Runs.Along TimerRun.step TimerRun.ReadsBack ⟨v, fun _ => none⟩ word ↔
      Runs.Along TimerRun.step TimerRun.OffsetHeld ⟨v, fun _ => none⟩ word := by
  apply Runs.along_iff_of_invariant TimerRun.Stored
  · intro r act next taken stored
    exact TimerRun.readsBack_iff act taken stored
  · intro r act next taken _ stored
    exact TimerRun.stored_step act taken stored
  · intro physical w asks
    cases asks

/-- CVAL written as 1000, the offset moved on by 5 as on a resume, CVAL read. -/
def resumedRun : List TimerAct :=
  [.load 0 1000, .access true .cval {} 0x34f804#64, .setOffset 5,
    .access true .cval {} (timerEsr 2 2)]

theorem resumedRun_reads995 :
    (Runs.runFrom TimerRun.step ⟨⟨{}, {}⟩, fun _ => none⟩ resumedRun).map
        (fun r => r.v.s.ctx.x 0) = some 995 ∧
      ¬ Runs.Along TimerRun.step TimerRun.ReadsBack ⟨⟨{}, {}⟩, fun _ => none⟩ resumedRun := by
  refine ⟨by decide, fun along => ?_⟩
  obtain ⟨-, written⟩ := along _ rfl
  obtain ⟨-, moved⟩ := written _ rfl
  obtain ⟨-, read⟩ := moved _ rfl
  have back := (read _ rfl).1 (by decide) ⟨1000, 0⟩ rfl
  exact absurd back (by decide)

end OpenHypervisor
