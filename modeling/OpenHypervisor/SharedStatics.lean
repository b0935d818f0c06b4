import OpenHypervisor.CoresApart
import OpenHypervisor.MonitorBand

/-!
# What the statics decide

A call or an exit of a vCPU next to the same one with other statics: the two caches of the
capabilities filled or not, the shared band at another value, the settings settled or not.
On one machine the slot becomes the same.
-/

set_option autoImplicit false

namespace OpenHypervisor

/-! ## Statics that make no difference -/

/-- Statics that differ only where a vCPU does not look or looks at the machine's own
capabilities, asked for or not. -/
structure SameStatics (caps : Capabilities) (g other : Globals) : Prop where
  rest : other = { g with
    cfgSettled := other.cfgSettled
    monitorBand := other.monitorBand
    nv2Caps := other.nv2Caps
    sysregCaps := other.sysregCaps }
  nv2Caps : other.nv2Caps.getD caps = g.nv2Caps.getD caps
  sysregCaps : other.sysregCaps.getD caps = g.sysregCaps.getD caps

namespace SameStatics

variable {caps : Capabilities} {g other : Globals}

theorem refl (caps : Capabilities) (g : Globals) : SameStatics caps g g := ⟨rfl, rfl, rfl⟩

section Fields

variable (same : SameStatics caps g other)

include same

theorem env : other.env = g.env := by rw [same.rest]
theorem cfg : other.cfg = g.cfg := by rw [same.rest]
theorem vmAlive : other.vmAlive = g.vmAlive := by rw [same.rest]
theorem vmEl2 : other.vmEl2 = g.vmEl2 := by rw [same.rest]
theorem vmVhe : other.vmVhe = g.vmVhe := by rw [same.rest]
theorem gic : other.gic = g.gic := by rw [same.rest]
theorem maps : other.maps = g.maps := by rw [same.rest]
theorem pstateHeld : other.pstateHeld = g.pstateHeld := by rw [same.rest]

/-- Two that are each like a third. -/
theorem between {third : Globals} (also : SameStatics caps g third) :
    SameStatics caps other third := by
  refine ⟨?_, also.nv2Caps.trans same.nv2Caps.symm, also.sysregCaps.trans same.sysregCaps.symm⟩
  rw [also.rest, same.rest]

theorem askNv2 : SameStatics caps { g with nv2Caps := some (g.nv2Caps.getD caps) }
    { other with nv2Caps := some (other.nv2Caps.getD caps) } :=
  ⟨congrArg (fun g : Globals => { g with nv2Caps := some (other.nv2Caps.getD caps) }) same.rest,
    same.nv2Caps, same.sysregCaps⟩

theorem askSysreg : SameStatics caps { g with sysregCaps := some (g.sysregCaps.getD caps) }
    { other with sysregCaps := some (other.sysregCaps.getD caps) } :=
  ⟨congrArg (fun g : Globals => { g with sysregCaps := some (other.sysregCaps.getD caps) })
    same.rest, same.nv2Caps, same.sysregCaps⟩

theorem hold (value : Word) :
    SameStatics caps { g with pstateHeld := value } { other with pstateHeld := value } :=
  ⟨congrArg (fun g : Globals => { g with pstateHeld := value }) same.rest, same.nv2Caps,
    same.sysregCaps⟩

theorem setGic (model : Option GicModel) :
    SameStatics caps { g with gic := model } { other with gic := model } :=
  ⟨congrArg (fun g : Globals => { g with gic := model }) same.rest, same.nv2Caps,
    same.sysregCaps⟩

end Fields

end SameStatics

/-- One vCPU's view of two such processes. -/
structure Parallel (caps : Capabilities) (v w : VcpuView) : Prop where
  slot : w.s = v.s
  statics : SameStatics caps v.g w.g

/-- Two answers that say the same and leave the vCPU the same. -/
def Alongside {α : Type} (caps : Capabilities) (left right : α × VcpuView) : Prop :=
  right.1 = left.1 ∧ Parallel caps left.2 right.2

namespace Parallel

variable {caps : Capabilities} {v w : VcpuView}

theorem edit (same : Parallel caps v w) (f : VcpuSlot → VcpuSlot) :
    Parallel caps { v with s := f v.s } { w with s := f w.s } :=
  ⟨congrArg f same.slot, same.statics⟩

theorem setCtx (same : Parallel caps v w) (f : Ctx → Ctx) :
    Parallel caps (v.setCtx (f v.s.ctx)) (w.setCtx (f w.s.ctx)) :=
  same.edit fun s => { s with ctx := f s.ctx }

theorem skip (same : Parallel caps v w) : Parallel caps v.skip w.skip := same.edit VcpuSlot.skip

theorem sync (same : Parallel caps v w) (host : Host) (k : Nat) :
    Parallel caps (v.sync host k) (w.sync host k) := same.setCtx (host.sync k)

end Parallel

/-! ## The trapped accesses -/

section Access

variable {caps : Capabilities} {host : Host} {a : SysAccess} {v w : VcpuView}

/-- A block answers both, and alike, or neither. -/
def AccessBlock.Steady (caps : Capabilities) (block : AccessBlock) (host : Host) (a : SysAccess) :
    Prop :=
  ∀ v w, Parallel caps v w → Option.Rel (Alongside caps) (block host a v) (block host a w)

theorem answered_steady (same : Parallel caps v w) :
    Option.Rel (Alongside caps) (answered v) (answered w) := .some ⟨rfl, same.skip⟩

theorem refused_steady (same : Parallel caps v w) :
    Option.Rel (Alongside caps) (refused v) (refused w) := .some ⟨rfl, same⟩

theorem registerAccess_steady (same : Parallel caps v w) {value : Word}
    {write writeOther : Word → VcpuView}
    (written : ∀ x, Parallel caps (write x) (writeOther x)) :
    Option.Rel (Alongside caps) (registerAccess a v value write)
      (registerAccess a w value writeOther) := by
  unfold registerAccess
  split
  · exact answered_steady (same.setCtx fun c => c.writeRt a.rt value)
  · rw [same.slot]
    exact answered_steady (written _)

theorem AccessBlock.Steady.of {block : AccessBlock}
    (steady : ∀ g other s, Parallel caps ⟨g, s⟩ ⟨other, s⟩ →
      Option.Rel (Alongside caps) (block host a ⟨g, s⟩) (block host a ⟨other, s⟩)) :
    block.Steady caps host a := by
  rintro ⟨g, s⟩ ⟨other, _⟩ same
  cases same.slot
  exact steady g other s same

theorem amxidrAccess_steady : AccessBlock.Steady caps amxidrAccess host a := by
  refine .of fun g other s same => ?_
  unfold amxidrAccess
  split
  · rw [same.statics.cfg]
    exact answered_steady (same.setCtx fun c => c.writeRt a.rt _)
  · exact .none

theorem handoffAccess_steady : AccessBlock.Steady caps handoffAccess host a := by
  refine .of fun g other s same => ?_
  unfold handoffAccess
  split
  · exact answered_steady (same.edit fun s => { s.armNv with guestAtEl2 := true })
  · exact .none

theorem gxfAccess_steady : AccessBlock.Steady caps gxfAccess host a := by
  refine .of fun g other s same => ?_
  unfold gxfAccess
  split
  · exact registerAccess_steady same fun x => same.setCtx fun c => (c.setExt _ x).markDirty _
  · exact .none

theorem cacheIdAccess_steady : AccessBlock.Steady host.caps cacheIdAccess host a := by
  refine .of fun g other s same => ?_
  have asked : Parallel host.caps
      ⟨{ g with nv2Caps := some (g.nv2Caps.getD host.caps) }, s⟩
      ⟨{ other with nv2Caps := some (other.nv2Caps.getD host.caps) }, s⟩ :=
    ⟨rfl, same.statics.askNv2⟩
  unfold cacheIdAccess
  split
  · simp only
    split
    · exact registerAccess_steady asked fun x =>
        asked.setCtx fun c => (c.setShared 7 x).markDirty ohvStateSysregs
    · split
      · rw [same.statics.nv2Caps] at asked ⊢
        exact answered_steady (asked.setCtx fun c => c.writeRt a.rt _)
      · exact refused_steady asked
  · exact .none

theorem counterAccess_steady : AccessBlock.Steady caps counterAccess host a := by
  refine .of fun g other s same => ?_
  unfold counterAccess
  split
  · split
    · exact answered_steady (same.setCtx fun c => c.writeRt a.rt _)
    · split
      · exact answered_steady (same.setCtx fun c => c.writeRt a.rt host.cntfrq)
      · exact refused_steady same
  · exact .none

theorem timerAccess_steady : AccessBlock.Steady caps timerAccess host a := by
  refine .of fun g other s same => ?_
  unfold timerAccess
  split
  · simp only
    generalize decide (a.crm = 2) = physical
    have banked : Parallel caps
        (if physical = true then VcpuView.setCtx ⟨g, s⟩ (s.ctx.setBanked 19 0) else ⟨g, s⟩)
        (if physical = true then VcpuView.setCtx ⟨other, s⟩ (s.ctx.setBanked 19 0)
          else ⟨other, s⟩) := by
      split
      · exact same.setCtx fun c => c.setBanked 19 0
      · exact same
    generalize (if physical = true then VcpuView.setCtx ⟨g, s⟩ (s.ctx.setBanked 19 0)
      else (⟨g, s⟩ : VcpuView)) = v at banked ⊢
    generalize (if physical = true then VcpuView.setCtx ⟨other, s⟩ (s.ctx.setBanked 19 0)
      else (⟨other, s⟩ : VcpuView)) = w at banked ⊢
    rw [banked.slot]
    have kept : ∀ s, Parallel caps { v with s := s } { w with s := s } := fun s =>
      ⟨rfl, banked.statics⟩
    split
    · exact registerAccess_steady banked fun x => kept _
    · split
      · exact registerAccess_steady banked fun x => kept _
      · split
        · exact registerAccess_steady banked fun x => kept _
        · exact refused_steady banked
  · exact .none

theorem gicInterfaceAccess_steady : AccessBlock.Steady caps gicInterfaceAccess host a := by
  refine .of fun g other s same => ?_
  unfold gicInterfaceAccess
  split
  · simp only
    have kept : ∀ s, Parallel caps ⟨g, s⟩ ⟨other, s⟩ := fun _ => ⟨rfl, same.statics⟩
    split
    · exact refused_steady (kept _)
    · exact registerAccess_steady (kept _) fun x => kept _
  · exact .none

theorem atAccess_steady : AccessBlock.Steady caps atAccess host a := by
  refine .of fun g other s same => ?_
  unfold atAccess
  split
  · rw [same.statics.maps]
    exact answered_steady (same.setCtx fun c => (c.setShared 6 _).markDirty ohvStateSysregs)
  · exact .none

theorem maintenanceAccess_steady : AccessBlock.Steady caps maintenanceAccess host a := by
  refine .of fun g other s same => ?_
  unfold maintenanceAccess
  split
  · exact answered_steady same
  · exact .none

theorem pstateAccess_steady : AccessBlock.Steady caps pstateAccess host a := by
  refine .of fun g other s same => ?_
  unfold pstateAccess
  split
  · rw [same.statics.pstateHeld]
    exact registerAccess_steady same fun x => ⟨rfl, same.statics.hold x⟩
  · exact .none

theorem gl2Access_steady : AccessBlock.Steady caps gl2Access host a := by
  refine .of fun g other s same => ?_
  unfold gl2Access
  split
  · exact registerAccess_steady same fun x =>
      same.edit fun s => { s with gl2Bank := Function.update s.gl2Bank _ x }
  · exact .none

theorem tmrFiqEnaAccess_steady : AccessBlock.Steady caps tmrFiqEnaAccess host a := by
  refine .of fun g other s same => ?_
  unfold tmrFiqEnaAccess
  split
  · exact registerAccess_steady same fun x => same.edit fun s => { s with vmTmrFiqEna := x }
  · exact .none

theorem ctrrAccess_steady : AccessBlock.Steady caps ctrrAccess host a := by
  refine .of fun g other s same => ?_
  have kept : ∀ s, Parallel caps ⟨g, s⟩ ⟨other, s⟩ := fun _ => ⟨rfl, same.statics⟩
  unfold ctrrAccess
  split
  · simp only
    split
    · exact refused_steady same
    · exact registerAccess_steady (kept _) fun x => kept _
  · exact .none

theorem ctxTraceAccess_steady : AccessBlock.Steady caps ctxTraceAccess host a := by
  refine .of fun g other s same => ?_
  unfold ctxTraceAccess
  split
  · exact registerAccess_steady same fun x =>
      same.edit fun s => { s with ctxTrace := Function.update s.ctxTrace _ x }
  · exact .none

theorem appleShadowAccess_steady : AccessBlock.Steady caps appleShadowAccess host a := by
  refine .of fun g other s same => ?_
  have kept : ∀ s, Parallel caps ⟨g, s⟩ ⟨other, s⟩ := fun _ => ⟨rfl, same.statics⟩
  unfold appleShadowAccess
  split
  · split
    · exact registerAccess_steady same fun _ => same
    · split
      · exact refused_steady same
      · simp only
        split
        · exact refused_steady same
        · exact registerAccess_steady (kept _) fun x => kept _
  · exact .none

theorem nv2RegAccess_steady : AccessBlock.Steady caps nv2RegAccess host a := by
  refine .of fun g other s same => ?_
  unfold nv2RegAccess
  split
  · exact .none
  · exact registerAccess_steady same fun x => ⟨rfl, same.statics⟩

theorem accessBlocks_steady :
    ∀ block ∈ accessBlocks, AccessBlock.Steady host.caps block host a := by
  intro block listed
  simp only [accessBlocks, List.mem_cons, List.not_mem_nil, or_false] at listed
  rcases listed with rfl | rfl | rfl | rfl | rfl | rfl | rfl | rfl | rfl | rfl | rfl | rfl | rfl |
    rfl | rfl | rfl
  · exact amxidrAccess_steady
  · exact handoffAccess_steady
  · exact gxfAccess_steady
  · exact cacheIdAccess_steady
  · exact counterAccess_steady
  · exact timerAccess_steady
  · exact gicInterfaceAccess_steady
  · exact atAccess_steady
  · exact maintenanceAccess_steady
  · exact pstateAccess_steady
  · exact gl2Access_steady
  · exact tmrFiqEnaAccess_steady
  · exact ctrrAccess_steady
  · exact ctxTraceAccess_steady
  · exact appleShadowAccess_steady
  · exact nv2RegAccess_steady

theorem findSome_steady (same : Parallel caps v w) (blocks : List AccessBlock)
    (steady : ∀ block ∈ blocks, AccessBlock.Steady caps block host a) :
    Option.Rel (Alongside caps) (blocks.findSome? fun block => block host a v)
      (blocks.findSome? fun block => block host a w) := by
  induction blocks with
  | nil => exact .none
  | cons block rest ih =>
      have later := ih fun b member => steady b (List.mem_cons_of_mem block member)
      have here := steady block List.mem_cons_self v w same
      rw [List.findSome?_cons, List.findSome?_cons]
      generalize block host a v = left, block host a w = right at here
      cases here with
      | none => exact later
      | some alongside => exact .some alongside

theorem serviceNv2Access_alongside (esr : Word) (same : Parallel host.caps v w) :
    Alongside host.caps (serviceNv2Access host esr v) (serviceNv2Access host esr w) := by
  have found := findSome_steady same accessBlocks (accessBlocks_steady (a := .ofEsr esr))
  unfold serviceNv2Access
  generalize (accessBlocks.findSome? fun block => block host (.ofEsr esr) v) = left,
    (accessBlocks.findSome? fun block => block host (.ofEsr esr) w) = right at found ⊢
  cases found with
  | none => exact ⟨rfl, same⟩
  | some alongside => exact alongside

end Access

/-! ## The exits -/

section Exits

variable {caps : Capabilities} {host : Host} {v w : VcpuView}

/-- A function of the slot and of what the statics agree in. -/
theorem Parallel.slot_eq (same : Parallel caps v w) {f : VcpuView → VcpuSlot}
    (agree : ∀ g other s, SameStatics caps g other → f ⟨other, s⟩ = f ⟨g, s⟩) : f w = f v := by
  obtain ⟨g, s⟩ := v
  obtain ⟨other, _⟩ := w
  cases same.slot
  exact agree g other s same.statics

theorem physicalInterrupt_alongside (same : Parallel caps v w) :
    Alongside caps (physicalInterrupt v) (physicalInterrupt w) := by
  unfold physicalInterrupt
  rw [same.slot]
  split
  · exact ⟨rfl, rfl, same.statics⟩
  · exact ⟨rfl, rfl, same.statics⟩

theorem reportException_alongside (reason : BitVec 32) (same : Parallel caps v w) :
    Alongside caps (reportException reason host v) (reportException reason host w) := by
  have insn : ∀ g other s, SameStatics caps g other →
      guestInsn host ⟨other, s⟩ = guestInsn host ⟨g, s⟩ := by
    intro g other s same
    unfold guestInsn
    rw [same.maps]
  have msr : synthMsrTrapSyndrome host w = synthMsrTrapSyndrome host v := by
    refine same.slot_eq fun g other s same => ?_
    unfold synthMsrTrapSyndrome
    rw [insn g other s same]
  have guarded : synthGuardedExitSyndrome host w = synthGuardedExitSyndrome host v := by
    refine same.slot_eq fun g other s same => ?_
    unfold synthGuardedExitSyndrome
    rw [insn g other s same]
  unfold reportException
  rw [msr, guarded, same.slot]
  exact ⟨rfl, rfl, same.statics⟩

theorem softEret_alongside (reason : BitVec 32) (same : Parallel caps v w) :
    Alongside caps (softEret reason host v) (softEret reason host w) := by
  have synced := same.sync host 2
  unfold softEret
  rw [same.slot]
  split
  · simp only
    rw [synced.slot, synced.statics.cfg]
    split
    · exact ⟨rfl, rfl, synced.statics⟩
    · exact reportException_alongside reason synced
  · exact reportException_alongside reason same

theorem guardedEret_alongside (reason : BitVec 32) (same : Parallel caps v w) :
    Alongside caps (guardedEret reason host v) (guardedEret reason host w) := by
  have synced := same.sync host 1
  unfold guardedEret
  rw [same.slot, same.statics.cfg]
  split
  · simp only
    rw [synced.slot]
    split
    · exact ⟨rfl, rfl, synced.statics⟩
    · exact softEret_alongside reason synced
  · exact softEret_alongside reason same

theorem syncException_alongside (reason : BitVec 32) (same : Parallel caps v w) :
    Alongside caps (syncException reason host v) (syncException reason host w) := by
  have spins : (w.g.cfg.spinWfi ∧ w.s.ctx.exitEc = 0x1) ↔
      (v.g.cfg.spinWfi ∧ v.s.ctx.exitEc = 0x1) := by
    rw [same.slot, same.statics.cfg]
  have injects : w.InjectsHvc ↔ v.InjectsHvc := by
    unfold VcpuView.InjectsHvc
    rw [same.slot, same.statics.cfg]
  unfold syncException
  by_cases spin : v.g.cfg.spinWfi ∧ v.s.ctx.exitEc = 0x1
  · rw [if_pos spin, if_pos (spins.mpr spin)]
    exact ⟨rfl, same.skip⟩
  · rw [if_neg spin, if_neg fun both => spin (spins.mp both)]
    by_cases inject : v.InjectsHvc
    · rw [if_pos inject, if_pos (injects.mpr inject)]
      exact ⟨rfl, same.edit fun s => enterGuestEl2 s s.ctx.exitEsr (s.ctx.pc + 4)⟩
    · rw [if_neg inject, if_neg fun both => inject (injects.mp both)]
      exact guardedEret_alongside reason same

theorem msrTrap_alongside (same : Parallel host.caps v w) :
    Alongside host.caps (msrTrap host v) (msrTrap host w) := by
  unfold msrTrap
  rw [same.slot]
  split
  · have serviced := serviceNv2Access_alongside v.s.ctx.exitEsr same
    generalize serviceNv2Access host v.s.ctx.exitEsr v = left,
      serviceNv2Access host v.s.ctx.exitEsr w = right at serviced ⊢
    obtain ⟨served, v'⟩ := left
    obtain ⟨again, w'⟩ := right
    obtain ⟨agree, after⟩ := serviced
    have agree : again = served := agree
    subst agree
    cases again with
    | true => exact ⟨rfl, after⟩
    | false => exact syncException_alongside 8 after
  · exact syncException_alongside 8 same

theorem dispatchExit_alongside (same : Parallel host.caps v w) :
    Alongside host.caps (dispatchExit host v) (dispatchExit host w) := by
  unfold dispatchExit
  rw [same.slot]
  split
  · exact ⟨rfl, rfl, same.statics⟩
  · exact ⟨rfl, same⟩
  · exact ⟨rfl, same⟩
  · exact ⟨rfl, same⟩
  · exact ⟨rfl, same⟩
  · exact physicalInterrupt_alongside same
  · exact physicalInterrupt_alongside same
  · exact msrTrap_alongside same
  · exact syncException_alongside 1 same
  · exact reportException_alongside 6 same
  · exact ⟨rfl, rfl, same.statics⟩

theorem exitFromRo_alongside (same : Parallel host.caps v w) :
    Alongside host.caps (exitFromRo host v) (exitFromRo host w) := by
  unfold exitFromRo
  refine dispatchExit_alongside ⟨?_, same.statics⟩
  show arriveExit w.g.cfg host w.s = arriveExit v.g.cfg host v.s
  rw [same.slot, same.statics.cfg]

end Exits

/-! ## The VMM's calls -/

section Calls

variable {caps : Capabilities} {host : Host} {v w : VcpuView}

theorem loadIdRegs_parallel (same : Parallel host.caps v w) :
    Parallel host.caps (loadIdRegs host v) (loadIdRegs host w) := by
  unfold loadIdRegs
  rw [same.slot]
  split
  · exact same
  · simp only
    rw [same.statics.sysregCaps]
    refine ⟨rfl, ?_⟩
    have asked := same.statics.askSysreg
    rw [same.statics.sysregCaps] at asked
    exact asked

theorem idRegAccess_parallel (enc : BitVec 16) (value : Word) (write : Bool)
    (same : Parallel host.caps v w) :
    Parallel host.caps (idRegAccess host enc value write v).view
      (idRegAccess host enc value write w).view := by
  have loaded := loadIdRegs_parallel same
  unfold idRegAccess
  split
  · exact same
  · rename_i slot _
    simp only
    split
    · exact loaded.edit fun s => { s with idRegs := Function.update s.idRegs slot value }
    · exact loaded

theorem shadowAccess_parallel (d : SysRegDesc) (value : Word) (write : Bool)
    (same : Parallel caps v w) :
    Parallel caps (shadowAccess d value write v).view (shadowAccess d value write w).view := by
  unfold shadowAccess
  split
  · exact same
  · split
    · exact same.edit fun s => { s with el2Shadow := Function.update s.el2Shadow d.index value }
    · exact same

theorem contextAccess_parallel (d : SysRegDesc) (base : Nat) (enc : BitVec 16) (value : Word)
    (write : Bool) (same : Parallel caps v w) :
    Parallel caps (contextAccess host d base enc value write v).view
      (contextAccess host d base enc value write w).view := by
  have after : Parallel caps (if needsSync d v.s.ctx then v.sync host 0 else v)
      (if needsSync d v.s.ctx then w.sync host 0 else w) := by
    split
    · exact same.sync host 0
    · exact same
  unfold contextAccess
  rw [same.slot]
  simp only
  generalize (if needsSync d v.s.ctx then v.sync host 0 else v) = v' at after ⊢
  generalize (if needsSync d v.s.ctx then w.sync host 0 else w) = w' at after ⊢
  split
  · exact after
  · split
    · rw [after.statics.cfg]
      exact after.setCtx fun c => writeDesc v'.g.cfg d base enc value c
    · exact after

theorem sysregAccess_parallel (enc : BitVec 16) (value : Word) (write : Bool)
    (same : Parallel host.caps v w) :
    Parallel host.caps (sysregAccess host enc value write v).view
      (sysregAccess host enc value write w).view := by
  unfold sysregAccess
  split
  · exact same
  · split
    · exact idRegAccess_parallel enc value write same
    · exact shadowAccess_parallel _ value write same
    · exact contextAccess_parallel _ _ enc value write same
    · exact same

theorem hvVcpuSetReg_parallel (reg : Nat) (value : Word) (same : Parallel caps v w) :
    Parallel caps (hvVcpuSetReg reg value v).2 (hvVcpuSetReg reg value w).2 := by
  obtain ⟨g, s⟩ := v
  obtain ⟨other, _⟩ := w
  cases same.slot
  have el2 : other.vmEl2 = g.vmEl2 := same.statics.vmEl2
  unfold hvVcpuSetReg
  simp only [el2]
  split
  · exact ⟨rfl, same.statics⟩
  · split
    · exact ⟨rfl, same.statics⟩
    · split
      · exact ⟨rfl, same.statics⟩
      · split
        · exact ⟨rfl, same.statics⟩
        · split
          · exact ⟨rfl, same.statics⟩
          · exact same

/-- The kernel the call asks, if it asks one, answers with this machine's capabilities. -/
def VcpuCall.OnMachine (caps : Capabilities) : VcpuCall → Prop
  | .getSysReg host _ | .setSysReg host _ _ => host.caps = caps
  | .setPending _ _ | .setParked _ | .setReg _ _ | .setControlField _ _
  | .setTrapDebugExceptions _ | .setTrapDebugRegAccesses _ | .setVtimerMask _
  | .setVtimerOffset _ => True

theorem VcpuCall.serve_parallel (call : VcpuCall) (machine : call.OnMachine caps)
    (same : Parallel caps v w) : Parallel caps (call.serve v) (call.serve w) := by
  have slotted : ∀ f : OhvCfg → VcpuSlot → VcpuSlot,
      Parallel caps { v with s := f v.g.cfg v.s } { w with s := f w.g.cfg w.s } := by
    intro f
    refine ⟨?_, same.statics⟩
    show f w.g.cfg w.s = f v.g.cfg v.s
    rw [same.slot, same.statics.cfg]
  cases call with
  | setReg reg value => exact hvVcpuSetReg_parallel reg value same
  | getSysReg host enc =>
      cases machine
      exact sysregAccess_parallel enc 0 false same
  | setSysReg host enc value =>
      cases machine
      simp only [serve, hvVcpuSetSysReg_eq_access]
      exact sysregAccess_parallel enc value true same
  | setPending type pending =>
      exact slotted fun cfg s => hvVcpuSetPendingInterrupt cfg type pending s
  | setParked parked => exact slotted fun cfg s => ohvVcpuSetParked cfg parked s
  | setControlField field value =>
      exact slotted fun cfg s => (hvVcpuSetControlField cfg field value s).2
  | setTrapDebugExceptions on => exact slotted fun _ s => hvVcpuSetTrapDebugExceptions on s
  | setTrapDebugRegAccesses on => exact slotted fun _ s => hvVcpuSetTrapDebugRegAccesses on s
  | setVtimerMask on => exact slotted fun _ s => hvVcpuSetVtimerMask on s
  | setVtimerOffset offset => exact slotted fun _ s => hvVcpuSetVtimerOffset offset s

end Calls

/-! ## The sweep

It reads the shared band only into a copy that holds none. -/

theorem noteImageBand_own (shared other own pc : Word) (band : own = 0 → other = shared) :
    (noteImageBand other own pc).2 = (noteImageBand shared own pc).2 := by
  by_cases none : own = 0
  · rw [band none]
  · simp only [noteImageBand, if_neg none]
    split
    · rfl
    · split <;> rfl

theorem noteImageBand_shared (shared other own pc : Word) (band : own = 0 → other = shared)
    (after : (noteImageBand shared own pc).2 = 0) :
    (noteImageBand other own pc).1 = (noteImageBand shared own pc).1 := by
  by_cases none : own = 0
  · rw [band none]
  · refine absurd after ?_
    simp only [noteImageBand, if_neg none]
    split
    · exact none
    · rename_i kernel
      split
      · exact imageBand_ne_zero kernel
      · exact none

theorem ohvExpireTimers_parallel {caps : Capabilities} {v w : VcpuView} (now : Word)
    (same : Parallel caps v w) (band : v.s.sptmBase = 0 → w.g.monitorBand = v.g.monitorBand) :
    Parallel caps (ohvExpireTimers now v) (ohvExpireTimers now w) ∧
      ((ohvExpireTimers now v).s.sptmBase = 0 →
        (ohvExpireTimers now w).g.monitorBand = (ohvExpireTimers now v).g.monitorBand) := by
  have own := noteImageBand_own v.g.monitorBand w.g.monitorBand v.s.sptmBase v.s.ctx.pc band
  have shared := noteImageBand_shared v.g.monitorBand w.g.monitorBand v.s.sptmBase v.s.ctx.pc band
  constructor
  · refine ⟨?_, ?_, same.statics.nv2Caps, same.statics.sysregCaps⟩
    · simp only [ohvExpireTimers, ohvNoteImageBand]
      rw [same.slot, same.statics.cfg, own]
    · exact congrArg (fun g : Globals =>
        { g with monitorBand := (ohvExpireTimers now w).g.monitorBand }) same.statics.rest
  · rw [ohvExpireTimers_sptmBase]
    intro none
    simp only [ohvExpireTimers, ohvNoteImageBand]
    rw [same.slot]
    exact shared none

/-! ## What a call or an exit leaves in the statics -/

section Left

variable {host : Host} {v : VcpuView}

theorem physicalInterrupt_statics : (physicalInterrupt v).2.g = v.g := by
  unfold physicalInterrupt
  split <;> rfl

theorem softEret_statics (reason : BitVec 32) : (softEret reason host v).2.g = v.g := by
  unfold softEret
  split
  · simp only
    split <;> rfl
  · rfl

theorem guardedEret_statics (reason : BitVec 32) : (guardedEret reason host v).2.g = v.g := by
  unfold guardedEret
  split
  · simp only
    split
    · rfl
    · exact softEret_statics reason
  · exact softEret_statics reason

theorem syncException_statics (reason : BitVec 32) : (syncException reason host v).2.g = v.g := by
  unfold syncException
  split
  · rfl
  · split
    · rfl
    · exact guardedEret_statics reason

theorem msrTrap_statics : Alike host.caps v.g (msrTrap host v).2.g := by
  have serviced := serviceNv2Access_globals host v.s.ctx.exitEsr v
  unfold msrTrap
  split
  · generalize serviceNv2Access host v.s.ctx.exitEsr v = answer at serviced ⊢
    obtain ⟨served, after⟩ := answer
    cases served with
    | true => exact serviced
    | false =>
        rw [syncException_statics]
        exact serviced
  · rw [syncException_statics]
    exact .refl _ _

theorem dispatchExit_statics : Alike host.caps v.g (dispatchExit host v).2.g := by
  unfold dispatchExit
  split
  · exact .refl _ _
  · exact .refl _ _
  · exact .refl _ _
  · exact .refl _ _
  · exact .refl _ _
  · rw [physicalInterrupt_statics]
    exact .refl _ _
  · rw [physicalInterrupt_statics]
    exact .refl _ _
  · exact msrTrap_statics
  · rw [syncException_statics]
    exact .refl _ _
  · exact .refl _ _
  · exact .refl _ _

theorem exitFromRo_statics : Alike host.caps v.g (exitFromRo host v).2.g :=
  dispatchExit_statics (v := { v with s := arriveExit v.g.cfg host v.s })

theorem sysregAccess_sysregCaps (enc : BitVec 16) (value : Word) (write : Bool) :
    (sysregAccess host enc value write v).view.g.sysregCaps.getD host.caps =
      v.g.sysregCaps.getD host.caps := by
  unfold sysregAccess
  split
  · rfl
  · split
    · unfold idRegAccess loadIdRegs
      split
      · rfl
      · simp only
        split <;> split <;> rfl
    · unfold shadowAccess
      split
      · rfl
      · split <;> rfl
    · unfold contextAccess
      simp only
      split
      · split <;> rfl
      · split
        · simp only [VcpuView.setCtx]
          split <;> rfl
        · split <;> rfl
    · rfl

theorem VcpuCall.serve_sysregCaps {caps : Capabilities} (call : VcpuCall)
    (machine : call.OnMachine caps) :
    (call.serve v).g.sysregCaps.getD caps = v.g.sysregCaps.getD caps := by
  cases call with
  | getSysReg host enc =>
      cases machine
      exact sysregAccess_sysregCaps enc 0 false
  | setSysReg host enc value =>
      cases machine
      simp only [serve, hvVcpuSetSysReg_eq_access]
      exact sysregAccess_sysregCaps enc value true
  | setReg reg value =>
      simp only [serve, hvVcpuSetReg]
      split
      · rfl
      · split
        · rfl
        · split
          · rfl
          · split
            · rfl
            · split <;> rfl
  | _ => rfl

end Left

end OpenHypervisor
