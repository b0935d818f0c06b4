import OpenHypervisor.PageEdits
import OpenHypervisor.GuestTimer

/-!
# One home of the physical timer's control word

The guest's physical timer is emulated: its banked control word, which the kernel loads
into the hardware timer, stays zero, and what the guest and the VMM read under
`CNTP_CTL_EL0` is kept in the shadow.  Three things write it there: a trapped write, a
register call, and the sweep, which moves ISTATUS alone.  The ledger beside a run says
which of them came last.
-/

set_option autoImplicit false

namespace OpenHypervisor

def encCntpCtl : BitVec 16 := 0xdf11

/-- A control word with ISTATUS as given. -/
def withIstatus (word : Word) (status : Bool) : Word :=
  (word &&& ~~~BitVec.twoPow 64 2) ||| (if status then BitVec.twoPow 64 2 else 0#64)

theorem eq_withIstatus {word after : Word}
    (rest : ∀ n, n ≠ 2 → after.getLsbD n = word.getLsbD n) :
    after = withIstatus word (after.getLsbD 2) := by
  refine BitVec.eq_of_getLsbD_eq fun n _ => ?_
  rw [withIstatus, WordBits.getLsbD_replace _ _ _ _ (by decide)]
  by_cases status : n = 2
  · rw [if_pos status, status]
  · rw [if_neg status, rest n status]

theorem withIstatus_getLsbD (word : Word) (status : Bool) (n : Nat) :
    (withIstatus word status).getLsbD n = if n = 2 then status else word.getLsbD n :=
  WordBits.getLsbD_replace _ _ _ _ (by decide)

theorem withIstatus_withIstatus (word : Word) (first second : Bool) :
    withIstatus (withIstatus word first) second = withIstatus word second := by
  refine BitVec.eq_of_getLsbD_eq fun n _ => ?_
  rw [withIstatus_getLsbD, withIstatus_getLsbD, withIstatus_getLsbD]
  split <;> rfl

/-! ## A register call -/

section Calls

/-- The row of the tables: in the shadow, at the index the timer code has. -/
theorem cntpCtl_row : ∃ d, sysregLookup encCntpCtl = some d ∧ d.kind = .shadow ∧
    d.index = ohvShadowCntpCtl := by
  decide +kernel

theorem cntpCtl_only (d : SysRegDesc) (listed : d ∈ kAppleTable ++ kEl2Table ++ kTable)
    (kind : d.kind = .shadow) (index : d.index = ohvShadowCntpCtl) : d.encoding = encCntpCtl := by
  have checked : ∀ d ∈ kAppleTable ++ kEl2Table ++ kTable, d.kind = .shadow →
      d.index = ohvShadowCntpCtl → d.encoding = encCntpCtl := by
    decide +kernel
  exact checked d listed kind index

variable (host : Host) (v : VcpuView)

theorem cntpCtl_access (value : Word) (write : Bool) :
    sysregAccess host encCntpCtl value write v =
      if write then ⟨hvSuccess, value, { v with s := v.s.setTimerCtl true value }⟩
      else ⟨hvSuccess, v.s.timerCtl true, v⟩ := by
  obtain ⟨d, found, kind, index⟩ := cntpCtl_row
  rw [sysregAccess_shadow found kind, shadowAccess, index, if_neg (by decide)]
  rfl

theorem hvVcpuGetSysReg_cntpCtl :
    (hvVcpuGetSysReg host encCntpCtl v).rc = hvSuccess ∧
      (hvVcpuGetSysReg host encCntpCtl v).value = v.s.timerCtl true := by
  rw [hvVcpuGetSysReg, cntpCtl_access]
  exact ⟨rfl, rfl⟩

theorem idRegAccess_el2Shadow (enc : BitVec 16) (value : Word) (write : Bool) :
    (idRegAccess host enc value write v).view.s.el2Shadow = v.s.el2Shadow := by
  have loaded : (loadIdRegs host v).s.el2Shadow = v.s.el2Shadow := by
    unfold loadIdRegs
    split <;> rfl
  unfold idRegAccess
  split
  · rfl
  · simp only
    split
    · exact loaded
    · exact loaded

theorem contextAccess_el2Shadow (d : SysRegDesc) (base : Nat) (enc : BitVec 16) (value : Word)
    (write : Bool) : (contextAccess host d base enc value write v).view.s.el2Shadow =
      v.s.el2Shadow := by
  have synced : (if needsSync d v.s.ctx then v.sync host 0 else v).s.el2Shadow =
      v.s.el2Shadow := by
    split <;> rfl
  unfold contextAccess
  simp only
  split
  · exact synced
  · split
    · exact synced
    · exact synced

theorem sysregAccess_timerCtl {enc : BitVec 16} (other : enc ≠ encCntpCtl) (value : Word)
    (write : Bool) :
    (sysregAccess host enc value write v).view.s.timerCtl true = v.s.timerCtl true := by
  show (sysregAccess host enc value write v).view.s.el2Shadow ohvShadowCntpCtl = _
  unfold sysregAccess
  split
  · rfl
  · rename_i d found
    split
    · exact congrFun (idRegAccess_el2Shadow host v enc value write) _
    · rename_i kind
      have elsewhere : ohvShadowCntpCtl ≠ d.index := by
        intro same
        have named := cntpCtl_only d (sysregLookup_mem enc d found) kind same.symm
        exact other ((sysregLookup_encoding enc d found).symm.trans named)
      unfold shadowAccess
      split
      · rfl
      · split
        · exact Function.update_of_ne elsewhere value v.s.el2Shadow
        · rfl
    · exact congrFun (contextAccess_el2Shadow host v d _ enc value write) _
    · rfl

/-- What a call of the VMM writes to the control word. -/
def VcpuCall.ctlWrite : VcpuCall → Option Word
  | .setSysReg _ enc value => if enc = encCntpCtl then some value else none
  | _ => none

theorem hvVcpuSetReg_el2Shadow (reg : Nat) (value : Word) :
    (hvVcpuSetReg reg value v).2.s.el2Shadow = v.s.el2Shadow := by
  unfold hvVcpuSetReg
  simp only
  split
  · rfl
  · split
    · rfl
    · split
      · rfl
      · split
        · rfl
        · split <;> rfl

theorem VcpuCall.serve_timerCtl (call : VcpuCall) :
    (call.serve v).s.timerCtl true = call.ctlWrite.getD (v.s.timerCtl true) := by
  cases call with
  | setPending type pending =>
      simp only [VcpuCall.serve]
      rw [hvVcpuSetPendingInterrupt_slot]
      rfl
  | setParked parked =>
      simp only [VcpuCall.serve]
      rw [ohvVcpuSetParked_slot]
      rfl
  | setReg reg value => exact congrFun (hvVcpuSetReg_el2Shadow v reg value) _
  | getSysReg host enc =>
      show (sysregAccess host enc 0 false v).view.s.timerCtl true = v.s.timerCtl true
      by_cases named : enc = encCntpCtl
      · rw [named, cntpCtl_access]
        rfl
      · exact sysregAccess_timerCtl host v named 0 false
  | setSysReg host enc value =>
      simp only [VcpuCall.serve, hvVcpuSetSysReg_eq_access]
      by_cases named : enc = encCntpCtl
      · rw [named, cntpCtl_access]
        rfl
      · rw [VcpuCall.ctlWrite, if_neg named]
        exact sysregAccess_timerCtl host v named value true
  | setControlField field value =>
      simp only [VcpuCall.serve, hvVcpuSetControlField]
      split
      · rfl
      · split <;> rfl
  | setTrapDebugExceptions _ | setTrapDebugRegAccesses _ | setVtimerMask _ | setVtimerOffset _ =>
      rfl

end Calls

/-! ## An exit -/

def Ctx.trapped (c : Ctx) : Option SysAccess :=
  if c.exitReason.toNat = 8 ∧ c.exitEc = 0x18 then some (.ofEsr c.exitEsr) else none

def Ctx.ctlWrite (c : Ctx) : Option Word :=
  match c.trapped with
  | some a => if a.enc = encCntpCtl ∧ a.read = false then some (c.readRt a.rt) else none
  | none => none

def Ctx.ReadsCtl (c : Ctx) (rt : BitVec 5) : Prop :=
  ∃ a, c.trapped = some a ∧ a.enc = encCntpCtl ∧ a.read = true ∧ a.rt = rt

section Exits
variable (host : Host)

theorem reportException_el2Shadow (reason : BitVec 32) (v : VcpuView) :
    (reportException reason host v).2.s.el2Shadow = v.s.el2Shadow := by
  have msr : (synthMsrTrapSyndrome host v).el2Shadow = v.s.el2Shadow := by
    unfold synthMsrTrapSyndrome
    split
    · split <;> rfl
    · rfl
  have guarded : (synthGuardedExitSyndrome host v).el2Shadow = v.s.el2Shadow := by
    unfold synthGuardedExitSyndrome
    split
    · split <;> rfl
    · rfl
  unfold reportException
  simp only
  split
  · split
    · exact msr
    · split
      · exact guarded
      · rfl
  · rfl

theorem completeEret_el2Shadow (s : VcpuSlot) : (completeEret s).el2Shadow = s.el2Shadow := by
  unfold completeEret
  simp only
  split
  · rfl
  · split <;> rfl

theorem softEret_el2Shadow (reason : BitVec 32) (v : VcpuView) :
    (softEret reason host v).2.s.el2Shadow = v.s.el2Shadow := by
  unfold softEret
  split
  · simp only
    split
    · exact completeEret_el2Shadow _
    · exact reportException_el2Shadow host reason _
  · exact reportException_el2Shadow host reason v

theorem syncException_el2Shadow (reason : BitVec 32) (v : VcpuView) :
    (syncException reason host v).2.s.el2Shadow = v.s.el2Shadow := by
  unfold syncException
  split
  · rfl
  · split
    · rfl
    · unfold guardedEret
      split
      · simp only
        split
        · rfl
        · exact softEret_el2Shadow host reason _
      · exact softEret_el2Shadow host reason v

theorem arriveExit_el2Shadow (cfg : OhvCfg) (s : VcpuSlot) :
    (arriveExit cfg host s).el2Shadow = s.el2Shadow := by
  have restored : (restoreNv s).el2Shadow = s.el2Shadow := by
    unfold restoreNv
    split <;> rfl
  have mirrored : ∀ s, (mirrorGl1 cfg host s).el2Shadow = s.el2Shadow := by
    intro s
    unfold mirrorGl1
    split
    · simp only
      split <;> rfl
    · rfl
  have rearmed : ∀ s, (rearmNv cfg s).el2Shadow = s.el2Shadow := by
    intro s
    unfold rearmNv
    split <;> rfl
  exact (rearmed _).trans ((mirrored _).trans restored)

/-- Only the service of a trapped access reaches the shadow. -/
theorem dispatchExit_el2Shadow (v : VcpuView) :
    (dispatchExit host v).2.s.el2Shadow =
      if v.s.ctx.trapped.isSome then (serviceNv2Access host v.s.ctx.exitEsr v).2.s.el2Shadow
      else v.s.el2Shadow := by
  have quiet : v.s.ctx.exitReason.toNat ≠ 8 → v.s.ctx.trapped.isSome = false := by
    intro other
    rw [Ctx.trapped, if_neg fun both => other both.1]
    rfl
  have interrupt : (physicalInterrupt v).2.s.el2Shadow = v.s.el2Shadow := by
    unfold physicalInterrupt
    split <;> rfl
  unfold dispatchExit
  split
  case h_8 reason =>
    unfold msrTrap
    split
    · rename_i trap
      have trapped : v.s.ctx.trapped = some (.ofEsr v.s.ctx.exitEsr) := if_pos ⟨reason, trap⟩
      rw [trapped, Option.isSome_some, if_pos rfl]
      rcases serviceNv2Access host v.s.ctx.exitEsr v with ⟨carried, after⟩
      cases carried with
      | true => rfl
      | false => exact syncException_el2Shadow host 8 after
    · rename_i other
      have trapped : v.s.ctx.trapped = none := if_neg fun both => other both.2
      rw [trapped, Option.isSome_none, if_neg Bool.false_ne_true]
      exact syncException_el2Shadow host 8 v
  case h_1 reason | h_2 reason | h_3 reason | h_4 reason | h_5 reason =>
    rw [quiet (by rw [reason]; decide)]
    rfl
  case h_6 reason | h_7 reason =>
    rw [quiet (by rw [reason]; decide)]
    exact interrupt
  case h_9 reason =>
    rw [quiet (by rw [reason]; decide)]
    exact syncException_el2Shadow host 1 v
  case h_10 reason =>
    rw [quiet (by rw [reason]; decide)]
    exact reportException_el2Shadow host 6 v
  case h_11 =>
    rw [quiet (by assumption)]
    rfl

variable {host} {esr : Word} {v : VcpuView}

theorem ofTimer_cntpCtl {a : SysAccess} (named : a.enc = encCntpCtl) : a.OfTimer true .ctl :=
  a.fields_of_enc encCntpCtl named

/-- No other encoding reaches the word. -/
theorem guestPlace_cntpCtl {enc : BitVec 16}
    (place : guestPlace enc = some (.shadow ohvShadowCntpCtl)) : enc = encCntpCtl := by
  have checked : ∀ cell ∈ guestCells, cell.2 = .shadow ohvShadowCntpCtl → cell.1 = encCntpCtl := by
    decide
  obtain ⟨cell, found, there⟩ := Option.map_eq_some_iff.mp place
  have named : cell.1 = enc := by
    simpa using List.find?_some found
  exact named.symm.trans (checked cell (List.mem_of_find?_eq_some found) there)

theorem service_timerCtl : (serviceNv2Access host esr v).2.s.timerCtl true =
    if (SysAccess.ofEsr esr).enc = encCntpCtl ∧ (SysAccess.ofEsr esr).read = false then
      v.s.ctx.readRt (SysAccess.ofEsr esr).rt
    else v.s.timerCtl true := by
  by_cases named : (SysAccess.ofEsr esr).enc = encCntpCtl
  · have served : TimerServed v.s.timers true .ctl host.now (.ofEsr esr)
        (v.s.ctx.readRt (SysAccess.ofEsr esr).rt) (serviceNv2Access host esr v) :=
      service_timer .ctl (ofTimer_cntpCtl named)
    refine (congrFun (congrArg StoredTimers.control served.stored) true).trans ?_
    cases read : (SysAccess.ofEsr esr).read with
    | true =>
        rw [if_pos rfl, if_neg fun both => Bool.true_eq_false.mp both.2]
        rfl
    | false =>
        rw [if_neg Bool.false_ne_true, if_pos ⟨named, rfl⟩]
        exact Function.update_self true _ v.s.timers.control
  · rw [if_neg fun both => named both.1]
    exact serviceNv2Access_leaves host esr v (.shadow ohvShadowCntpCtl) trivial fun _ place =>
      named (guestPlace_cntpCtl place)

theorem exitFromRo_timerCtl : (exitFromRo host v).2.s.timerCtl true =
    (arriveExit v.g.cfg host v.s).ctx.ctlWrite.getD (v.s.timerCtl true) := by
  have arrived : (arriveExit v.g.cfg host v.s).timerCtl true = v.s.timerCtl true :=
    congrFun (arriveExit_el2Shadow host v.g.cfg v.s) ohvShadowCntpCtl
  have dispatched := congrFun (dispatchExit_el2Shadow host
    { v with s := arriveExit v.g.cfg host v.s }) ohvShadowCntpCtl
  refine Eq.trans dispatched ?_
  rw [← arrived]
  generalize arriveExit v.g.cfg host v.s = s
  cases access : s.ctx.trapped with
  | none =>
      rw [Option.isSome_none, if_neg Bool.false_ne_true, Ctx.ctlWrite, access]
      rfl
  | some a =>
      obtain ⟨-, ⟨rfl⟩⟩ := Option.ite_none_right_eq_some.mp access
      rw [Option.isSome_some, if_pos rfl, Ctx.ctlWrite, access]
      simp only
      refine service_timerCtl.trans ?_
      split <;> rfl

theorem exitFromRo_readsCtl {rt : BitVec 5}
    (reads : (arriveExit v.g.cfg host v.s).ctx.ReadsCtl rt) (used : rt ≠ 31) :
    (exitFromRo host v).1 = .keepRunning ∧
      (exitFromRo host v).2.s.ctx.x rt.toNat = v.s.timerCtl true := by
  have arrived : (arriveExit v.g.cfg host v.s).timerCtl true = v.s.timerCtl true :=
    congrFun (arriveExit_el2Shadow host v.g.cfg v.s) ohvShadowCntpCtl
  rw [exitFromRo, ← arrived]
  generalize arriveExit v.g.cfg host v.s = s at reads ⊢
  obtain ⟨a, trapped, named, read, rfl⟩ := reads
  obtain ⟨⟨reason, trap⟩, ⟨rfl⟩⟩ := Option.ite_none_right_eq_some.mp trapped
  have served : TimerServed s.timers true .ctl host.now (.ofEsr s.ctx.exitEsr)
      (s.ctx.readRt (SysAccess.ofEsr s.ctx.exitEsr).rt)
      (serviceNv2Access host s.ctx.exitEsr { v with s := s }) :=
    service_timer (v := { v with s := s }) .ctl (ofTimer_cntpCtl named)
  have answer : dispatchExit host { v with s := s } =
      (.keepRunning, (serviceNv2Access host s.ctx.exitEsr { v with s := s }).2) := by
    have carried := served.carried
    unfold dispatchExit
    simp only [reason]
    rw [msrTrap, if_pos trap]
    revert carried
    rcases serviceNv2Access host s.ctx.exitEsr { v with s := s } with ⟨carried, after⟩
    rintro ⟨rfl⟩
    rfl
  have shown := served.shown read used
  rw [Ctx.readRt, if_neg used] at shown
  rw [answer]
  exact ⟨rfl, shown⟩

end Exits

/-! ## A step of the system -/

def Ctx.Disarms (before after : Ctx) : Prop :=
  after.banked 19 = before.banked 19 ∨ after.banked 19 = 0

def Host.Disarms (host : Host) : Prop := ∀ k c, Ctx.Disarms c (host.sync k c)

theorem Host.disarms_default : Host.Disarms {} := fun _ _ => Or.inl rfl

theorem Ctx.Disarms.unarmed {before after : Ctx} (kernel : before.Disarms after)
    (off : before.banked 19 = 0) : after.banked 19 = 0 := by
  rcases kernel with same | zero
  · exact same.trans off
  · exact zero

def KernelDisarms (i : VcpuId) (s : System) (act : Act) : Prop :=
  match act with
  | .destroy j => j ≠ i
  | .call j (.getSysReg host _) | .call j (.setSysReg host _ _) | .handle j host =>
      j = i → host.Disarms
  | .leave j page _ _ => j = i → (s.slots i).ctx.Disarms page
  | _ => True

theorem KernelDisarms.kept {i : VcpuId} {s : System} {act : Act} (kernel : KernelDisarms i s act) :
    act ≠ .destroy i := by
  rintro rfl
  exact kernel rfl

theorem KernelDisarms.host {i : VcpuId} {s : System} {act : Act} (kernel : KernelDisarms i s act)
    (own : ∀ j, act.owner = some j → j = i) : act.host.Disarms := by
  cases act with
  | call j asked =>
      have here := own j rfl
      cases asked with
      | getSysReg host _ | setSysReg host _ _ => exact kernel here
      | _ => exact Host.disarms_default
  | handle j host => exact kernel (own j rfl)
  | _ => exact Host.disarms_default

/-- What a step writes to a vCPU's control word: the VMM by a call, the guest by a
trapped access. -/
def System.ctlWrite (s : System) (i : VcpuId) : Act → Option Word
  | .call j asked => if j = i then asked.ctlWrite else none
  | .handle j host =>
      if j = i then (arriveExit s.g.cfg host (s.slots i)).ctx.ctlWrite else none
  | _ => none

section Step
variable {s t : System} {act : Act} {i : VcpuId}

theorem unarmed_step (taken : s.step act = some t) (live : (s.slots i).used = true)
    (kernel : KernelDisarms i s act) (off : (s.slots i).ctx.banked 19 = 0) :
    (t.slots i).ctx.banked 19 = 0 := by
  refine System.step_page (P := fun c => c.banked 19 = 0) taken live kernel.kept ?_ ?_ ?_ off
  · intro c at' value may before
    rw [Ctx.banked, Ctx.word_put]
    split
    · rename_i same
      exact may.2 same.symm
    · exact before
  · exact fun own k c before => (kernel.host own k c).unarmed before
  · rintro page rc ticks rfl
    exact Ctx.Disarms.unarmed (kernel rfl) off

/-- The sweep moves ISTATUS alone. -/
theorem swept_step {now : Word} (taken : s.step (.expire i now) = some t)
    (live : (s.slots i).used = true) : (t.slots i).timerCtl true =
      withIstatus ((s.slots i).timerCtl true) (((t.slots i).timerCtl true).getLsbD 2) := by
  have slot := (System.step_turn i taken live nofun).expired
  refine eq_withIstatus fun n other => ?_
  rw [slot, expireTimers_control]
  exact sweptTimers_control now _ true n other

theorem ctl_step (taken : s.step act = some t) (live : (s.slots i).used = true)
    (kept : act ≠ .destroy i) (unswept : ∀ now, act ≠ .expire i now) :
    (t.slots i).timerCtl true = (s.ctlWrite i act).getD ((s.slots i).timerCtl true) := by
  have turn := System.step_turn i taken live kept
  generalize t.slots i = slot, t.phase i = phase at turn ⊢
  cases turn with
  | elsewhere _ other =>
      cases act with
      | call j asked | handle j asked =>
          have apart : j ≠ i := fun same => other (congrArg some same)
          rw [System.ctlWrite, if_neg apart]
          rfl
      | _ => rfl
  | gic _ _ only =>
      rw [only.slot]
      rfl
  | call asked _ =>
      rw [VcpuCall.serve_timerCtl, System.ctlWrite, if_pos rfl]
      rfl
  | expire now _ => exact absurd rfl (unswept now)
  | canceled _ test _ => rcases test with ⟨rfl, -⟩ | ⟨rfl, -⟩ <;> rfl
  | reported host _ _ | served host _ _ =>
      rw [exitFromRo_timerCtl, System.ctlWrite, if_pos rfl]
      rfl
  | _ => rfl

end Step

/-! ## The ledger -/

/-- The control word last written and ISTATUS as the sweeps left it. -/
structure CtlLedger where
  written : Word
  /-- By the last sweep since that write. -/
  since : Option Bool
  /-- By the last sweep there was. -/
  swept : Bool
  deriving DecidableEq, Repr

namespace CtlLedger

def write (l : CtlLedger) (value : Word) : CtlLedger := { l with written := value, since := none }

def sweep (l : CtlLedger) (status : Bool) : CtlLedger :=
  { l with since := some status, swept := status }

/-- What was written, its own ISTATUS until the next sweep. -/
def word (l : CtlLedger) : Word :=
  match l.since with
  | none => l.written
  | some status => withIstatus l.written status

/-- What was written, with ISTATUS of the last sweep whichever came later. -/
def wordAsSwept (l : CtlLedger) : Word := withIstatus l.written l.swept

theorem word_sweep (l : CtlLedger) (status : Bool) :
    (l.sweep status).word = withIstatus l.word status := by
  rw [word, word]
  cases l.since with
  | none => rfl
  | some earlier => exact (withIstatus_withIstatus l.written earlier status).symm

def note (l : CtlLedger) (s t : System) (i : VcpuId) (act : Act) : CtlLedger :=
  match act with
  | .expire j _ => if j = i then l.sweep (((t.slots i).timerCtl true).getLsbD 2) else l
  | act =>
      match s.ctlWrite i act with
      | some value => l.write value
      | none => l

theorem word_note {s t : System} {i : VcpuId} {act : Act} (l : CtlLedger)
    (unswept : ∀ now, act ≠ .expire i now) :
    (l.note s t i act).word = (s.ctlWrite i act).getD l.word := by
  cases act with
  | expire j now =>
      have apart : j ≠ i := by
        rintro rfl
        exact unswept now rfl
      rw [note, if_neg apart]
      rfl
  | _ =>
      rw [note]
      · cases s.ctlWrite i _ <;> rfl
      · nofun

end CtlLedger

structure CtlRun where
  s : System
  ledger : CtlLedger

namespace CtlRun

def start (s : System) (i : VcpuId) : CtlRun :=
  ⟨s, (s.slots i).timerCtl true, none, ((s.slots i).timerCtl true).getLsbD 2⟩

def step (i : VcpuId) (r : CtlRun) (act : Act) : Option CtlRun :=
  (r.s.step act).map fun t => ⟨t, r.ledger.note r.s t i act⟩

end CtlRun

/-- The hardware timer is off and both sides read this word: the VMM by a call, the
guest by a trapped access, which is answered without the VMM. -/
structure CtlAgrees (v : VcpuView) (word : Word) : Prop where
  unarmed : v.s.ctx.banked 19 = 0
  vmm : ∀ host, (hvVcpuGetSysReg host encCntpCtl v).rc = hvSuccess ∧
    (hvVcpuGetSysReg host encCntpCtl v).value = word
  guest : ∀ host rt, (arriveExit v.g.cfg host v.s).ctx.ReadsCtl rt → rt ≠ 31 →
    (exitFromRo host v).1 = .keepRunning ∧ (exitFromRo host v).2.s.ctx.x rt.toNat = word

structure CtlStored (i : VcpuId) (r : CtlRun) : Prop where
  live : (r.s.slots i).used = true
  unarmed : (r.s.slots i).ctx.banked 19 = 0
  stored : (r.s.slots i).timerCtl true = r.ledger.word

theorem CtlStored.step {i : VcpuId} {r next : CtlRun} {act : Act} (inv : CtlStored i r)
    (taken : r.step i act = some next) (kernel : KernelDisarms i r.s act) : CtlStored i next := by
  obtain ⟨t, moved, rfl⟩ := Option.map_eq_some_iff.mp taken
  refine ⟨(System.step_turn i moved inv.live kernel.kept).used.trans inv.live,
    unarmed_step moved inv.live kernel inv.unarmed, ?_⟩
  by_cases unswept : ∀ now, act ≠ .expire i now
  · rw [CtlLedger.word_note r.ledger unswept, ← inv.stored]
    exact ctl_step moved inv.live kernel.kept unswept
  · simp only [not_forall, ne_eq, not_not] at unswept
    obtain ⟨now, rfl⟩ := unswept
    rw [CtlLedger.note, if_pos rfl, CtlLedger.word_sweep, ← inv.stored]
    exact swept_step moved inv.live

/-- After every run the timer is off in hardware, and the guest and the VMM read the
word last written by either of them, its ISTATUS as written until the next sweep and
as the sweeps leave it from then on. -/
theorem control_word_one_home {s : System} {i : VcpuId} {word : List Act} {r : CtlRun}
    (live : (s.slots i).used = true) (off : (s.slots i).ctx.banked 19 = 0)
    (kernel : Runs.Along (CtlRun.step i) (fun r act _ => KernelDisarms i r.s act)
      (CtlRun.start s i) word)
    (run : Runs.runFrom (CtlRun.step i) (CtlRun.start s i) word = some r) :
    CtlAgrees (r.s.view i) r.ledger.word := by
  have found : CtlStored i r :=
    Runs.invariant_along (CtlStored i) (fun _ _ _ taken kernel inv => inv.step taken kernel)
      kernel run ⟨live, off, rfl⟩
  refine ⟨found.unarmed, fun host => ?_, fun host rt reads used => ?_⟩
  · rw [← found.stored]
    exact hvVcpuGetSysReg_cntpCtl host (r.s.view i)
  · rw [← found.stored]
    exact exitFromRo_readsCtl reads used

/-! ## Two runs -/

def ctlStart : System := freshSystem {} blankPage

def setCtl (value : Word) : Act := .call vcpu0 (.setSysReg {} encCntpCtl value)

def ctlAfter (word : List Act) : System := (Runs.runFrom System.step ctlStart word).getD ctlStart

def ctlRound (s : System) (reason : BitVec 32) (esr : Word) : List Act :=
  [.run vcpu0, .expire vcpu0 0, .enter vcpu0,
    .leave vcpu0 ((enteredPage s).withExit reason esr) hvSuccess 0, .check vcpu0,
    .handle vcpu0 {}]

theorem disarms_of_forall {i : VcpuId} {word : List Act}
    (each : ∀ act ∈ word, ∀ s, KernelDisarms i s act) (r : CtlRun) :
    Runs.Along (CtlRun.step i) (fun r act _ => KernelDisarms i r.s act) r word :=
  Runs.along_of_invariant (fun _ => True) (fun _ _ _ _ _ _ => trivial)
    (fun r _ _ _ disarms _ => disarms r.s) (Runs.along_of_forall each r) trivial

theorem setCtl_disarms (value : Word) (s : System) : KernelDisarms vcpu0 s (setCtl value) :=
  fun _ => Host.disarms_default

theorem ctlRound_disarms {s : System} {reason : BitVec 32} {esr : Word}
    (page : ((enteredPage s).withExit reason esr).banked 19 = 0) :
    ∀ act ∈ ctlRound s reason esr, ∀ s', KernelDisarms vcpu0 s' act := by
  intro act listed s'
  simp only [ctlRound, List.mem_cons, List.not_mem_nil, or_false] at listed
  rcases listed with rfl | rfl | rfl | rfl | rfl | rfl
  · trivial
  · trivial
  · trivial
  · exact fun _ => Or.inr page
  · trivial
  · exact fun _ => Host.disarms_default

/-- The VMM enables the timer, a sweep finds it due, the guest masks it by a trapped
write of 3 out of X0, and the next sweep finds it due again. -/
def maskedRun : List Act :=
  let calls := [.call vcpu0 (.setReg 0 3), setCtl 1]
  calls ++ ctlRound (ctlAfter calls) 8 0x6232f804 ++ [.recheck vcpu0, .expire vcpu0 0]

theorem control_word_one_home_masked :
    ∃ r, Runs.runFrom (CtlRun.step vcpu0) (CtlRun.start ctlStart vcpu0) maskedRun = some r ∧
      CtlAgrees (r.s.view vcpu0) 7 := by
  have each : ∀ act ∈ maskedRun, ∀ s, KernelDisarms vcpu0 s act := by
    have calls : ∀ act ∈ [.call vcpu0 (.setReg 0 3), setCtl 1], ∀ s, KernelDisarms vcpu0 s act :=
      List.forall_mem_cons.mpr ⟨fun _ => trivial, List.forall_mem_singleton.mpr (setCtl_disarms 1)⟩
    have again : ∀ act ∈ [.recheck vcpu0, .expire vcpu0 0], ∀ s, KernelDisarms vcpu0 s act :=
      List.forall_mem_cons.mpr ⟨fun _ => trivial, List.forall_mem_singleton.mpr fun _ => trivial⟩
    exact List.forall_mem_append.mpr
      ⟨List.forall_mem_append.mpr ⟨calls, ctlRound_disarms (by decide)⟩, again⟩
  have off : (ctlStart.slots vcpu0).ctx.banked 19 = 0 := by decide
  exact ⟨_, rfl, control_word_one_home rfl off (disarms_of_forall each _) rfl⟩

/-- The VMM writes the enabled word back after a sweep has set ISTATUS, and reads it
as written: ISTATUS is not the one the sweep left. -/
def rewrittenRun : List Act :=
  [setCtl 1] ++ ctlRound (ctlAfter [setCtl 1]) 0 0 ++ [.store vcpu0, .ret vcpu0, setCtl 1]

theorem istatus_overwritten :
    (Runs.runFrom (CtlRun.step vcpu0) (CtlRun.start ctlStart vcpu0) rewrittenRun).map (fun r =>
        ((hvVcpuGetSysReg {} encCntpCtl (r.s.view vcpu0)).value, r.ledger.wordAsSwept)) =
      some (1, 5) ∧
    ¬ ∀ (s : System) (i : VcpuId) (word : List Act) (r : CtlRun), (s.slots i).used = true →
      (s.slots i).ctx.banked 19 = 0 →
      Runs.Along (CtlRun.step i) (fun r act _ => KernelDisarms i r.s act) (CtlRun.start s i) word →
      Runs.runFrom (CtlRun.step i) (CtlRun.start s i) word = some r →
      CtlAgrees (r.s.view i) r.ledger.wordAsSwept := by
  have each : ∀ act ∈ rewrittenRun, ∀ s, KernelDisarms vcpu0 s act := by
    have enable : ∀ act ∈ [setCtl 1], ∀ s, KernelDisarms vcpu0 s act :=
      List.forall_mem_singleton.mpr (setCtl_disarms 1)
    have back : ∀ act ∈ [.store vcpu0, .ret vcpu0, setCtl 1], ∀ s, KernelDisarms vcpu0 s act :=
      List.forall_mem_cons.mpr
        ⟨fun _ => trivial, List.forall_mem_cons.mpr ⟨fun _ => trivial, enable⟩⟩
    exact List.forall_mem_append.mpr
      ⟨List.forall_mem_append.mpr ⟨enable, ctlRound_disarms (by decide)⟩, back⟩
  have shown : (Runs.runFrom (CtlRun.step vcpu0) (CtlRun.start ctlStart vcpu0) rewrittenRun).map
      (fun r => ((hvVcpuGetSysReg {} encCntpCtl (r.s.view vcpu0)).value, r.ledger.wordAsSwept)) =
        some (1, 5) := by
    decide
  refine ⟨shown, fun claimed => ?_⟩
  obtain ⟨r, run, pair⟩ := Option.map_eq_some_iff.mp shown
  have same := ((claimed ctlStart vcpu0 rewrittenRun r rfl (by decide) (disarms_of_forall each _)
    run).vmm {}).2
  obtain ⟨value, word⟩ := Prod.ext_iff.mp pair
  exact absurd (value.symm.trans (same.trans word)) (by decide)

end OpenHypervisor
