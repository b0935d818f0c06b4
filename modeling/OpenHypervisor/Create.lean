import OpenHypervisor.Gic

/-!
# Creating and destroying a vCPU

What `hv_vcpu_create` makes of a free slot and of the page the kernel maps for
it.  Joining a nested address space is a trap of its own and touches neither.
-/

set_option autoImplicit false

namespace OpenHypervisor

def nestedHcr (cfg : OhvCfg) (vhe : Bool) (hcr : Word) : Word :=
  let hcr := hcr ||| cfg.hcrNestedMask.getD ohvHcrNested
  let hcr := if vhe then hcr ||| ohvHcrE2h else hcr &&& ~~~ohvHcrE2h
  let hcr := hcr ||| ohvHcrTid3 ||| ohvHcrTsc
  let hcr := hcr ||| ohvHcrAmo ||| ohvHcrImo ||| ohvHcrFmo
  let hcr := if cfg.noTwe then hcr else hcr ||| ohvHcrTwe
  let hcr :=
    match cfg.hcrTidcp with
    | some value => if value = 0 then hcr &&& ~~~ohvHcrTidcp else hcr ||| ohvHcrTidcp
    | none => hcr
  match cfg.hcrXmo with
  | some value =>
      let routed := ohvHcrAmo ||| ohvHcrImo ||| ohvHcrFmo
      (hcr &&& ~~~routed) ||| (value &&& routed)
  | none => hcr

def nestedHacr (cfg : OhvCfg) : Word :=
  ohvHacrAppleDefault ||| (if cfg.hacrTactl0 then 1 else 0) |||
    (if cfg.trapGxf then ohvHacrTgxf else 0)

/-- EL1PTEN and its neighbours off, the FEAT_ECV traps on. -/
def nestedCnthctl (cfg : OhvCfg) (cnthctl : Word) : Word :=
  cfg.cnthctl.getD ((cnthctl &&& ~~~0x1fc00#64) ||| 0x1e000#64)

def nestControls (cfg : OhvCfg) (vhe : Bool) (c : Ctx) : Ctx :=
  let orControl := fun (c : Ctx) (off : Nat) (bits : Word) =>
    c.setControl off (c.control off ||| bits)
  let c := (c.setHcr (nestedHcr cfg vhe c.hcr)).setControl 0x08 (nestedHacr cfg)
  let c := orControl (orControl (orControl c 0x38 0x2600) 0x40 0x2000) 0x48 0x3f000
  let c := (c.setControl 0x60 (nestedCnthctl cfg (c.control 0x60))).markDirty ohvStateControls
  let c := c.put ohvNestedHcrEl2 0x80000000
  match cfg.try14c8 with
  | some value => c.put 0x14c8 value
  | none => c

def enableInterface (c : Ctx) : Ctx :=
  markGic (c.setControl ichHcrOff (c.control ichHcrOff ||| 1))

def createdCtx (g : Globals) (page : Ctx) : Ctx :=
  let c := if g.vmEl2 then nestControls g.cfg g.vmVhe page else page
  if g.gic.isSome then enableInterface c else c

/-- The slot after a successful `hv_vcpu_create`.  Only these fields are written;
whatever else the free slot held stays. -/
def createdSlot (g : Globals) (id : Nat) (page : Ctx) (free : VcpuSlot) : VcpuSlot :=
  { free with
    used := true
    ctx := createdCtx g page
    id := id
    runCount := 0
    guestAtEl2 := g.vmEl2 }

def ohvStateVerMagic : Word := 0x20687970

/-- The answer of the create trap: its result and the page it mapped. -/
structure CreateTrap where
  rc : HvReturn := hvSuccess
  page : Ctx

def firstFree (slots : VcpuTable) : Option (Fin kMaxVcpuIds) :=
  (List.finRange kMaxVcpuIds).find? fun i => !(slots i).used

def hvVcpuCreate (g : Globals) (trap : CreateTrap) (slots : VcpuTable) : HvReturn × VcpuTable :=
  if g.vmAlive = false then (hvNoDevice, slots)
  else
    match firstFree slots with
    | none => (hvNoResources, slots)
    | some i =>
        if trap.rc ≠ hvSuccess then (trap.rc, slots)
        else if trap.page.word ohvRoVer >>> 32 ≠ ohvStateVerMagic then (hvError, slots)
        else (hvSuccess, Function.update slots i (createdSlot g i trap.page (slots i)))

def hvVcpuDestroy (i : Fin kMaxVcpuIds) (slots : VcpuTable) : VcpuTable :=
  Function.update slots i {}

theorem hvVcpuCreate_other (g : Globals) (trap : CreateTrap) (slots : VcpuTable)
    (i : Fin kMaxVcpuIds) (live : (slots i).used = true) :
    (hvVcpuCreate g trap slots).2 i = slots i := by
  unfold hvVcpuCreate
  split
  · rfl
  · split
    · rfl
    · rename_i free found
      split
      · rfl
      · split
        · rfl
        · have unused : (!(slots free).used) = true := by
            simpa using List.find?_some (p := fun i => !(slots i).used) found
          have other : i ≠ free := by
            rintro rfl
            rw [live] at unused
            cases unused
          exact Function.update_of_ne other _ _

/-! ## `HCR_EL2` of a new vCPU -/

theorem enableInterface_hcr (c : Ctx) : (enableInterface c).hcr = c.hcr := by
  unfold enableInterface markGic
  rw [Ctx.hcr_markDirty, Ctx.hcr_setControl _ _ _ (by decide)]

theorem nestControls_hcr (cfg : OhvCfg) (vhe : Bool) (c : Ctx) :
    (nestControls cfg vhe c).hcr = nestedHcr cfg vhe c.hcr := by
  have rest : ∀ c : Ctx, (c.put ohvNestedHcrEl2 0x80000000).hcr = c.hcr :=
    fun c => Ctx.hcr_put c _ _ (by decide)
  unfold nestControls
  simp only
  split
  · rw [Ctx.hcr_put _ _ _ (by decide), rest, Ctx.hcr_markDirty, Ctx.hcr_setControl _ _ _ (by decide),
      Ctx.hcr_setControl _ _ _ (by decide), Ctx.hcr_setControl _ _ _ (by decide),
      Ctx.hcr_setControl _ _ _ (by decide), Ctx.hcr_setControl _ _ _ (by decide), Ctx.hcr_setHcr]
  · rw [rest, Ctx.hcr_markDirty, Ctx.hcr_setControl _ _ _ (by decide),
      Ctx.hcr_setControl _ _ _ (by decide), Ctx.hcr_setControl _ _ _ (by decide),
      Ctx.hcr_setControl _ _ _ (by decide), Ctx.hcr_setControl _ _ _ (by decide), Ctx.hcr_setHcr]

theorem createdCtx_hcr (g : Globals) (page : Ctx) : (createdCtx g page).hcr =
    if g.vmEl2 then nestedHcr g.cfg g.vmVhe page.hcr else page.hcr := by
  have nested : (if g.vmEl2 then nestControls g.cfg g.vmVhe page else page).hcr =
      if g.vmEl2 then nestedHcr g.cfg g.vmVhe page.hcr else page.hcr := by
    split
    · exact nestControls_hcr _ _ _
    · rfl
  unfold createdCtx
  simp only
  split
  · rw [enableInterface_hcr, nested]
  · exact nested

/-- Under the default switches NV is among the bits turned on. -/
theorem nestedHcr_nv (vhe : Bool) (hcr : Word) : (nestedHcr {} vhe hcr).getLsbD 42 = true := by
  cases vhe <;>
    simp [nestedHcr, ohvHcrNested, ohvHcrNv, ohvHcrNv2, ohvHcrE2h, ohvHcrTid3, ohvHcrTsc,
      ohvHcrAmo, ohvHcrImo, ohvHcrFmo, ohvHcrTwe]

end OpenHypervisor
