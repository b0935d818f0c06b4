import OpenHypervisor.CoresApart

/-!
# The identity of the host

Where the library answers out of the capabilities.  `hv_vcpu_config_get_feature_reg`
keeps a copy that is filled by the first trap to succeed.  `sysreg_access` and
`service_nv2_access` keep one each that is taken for filled after the first trap,
and `machine_ipa_bits` a width with the same policy; each vCPU keeps the ID registers
computed from two of them.  The traps of a run succeed or fail as they like.
-/

set_option autoImplicit false

namespace OpenHypervisor

structure HostCaps extends Capabilities where
  ipaBits4k : Word := 0

def machineIpaBits (cached : Option Nat) (trap : Option HostCaps) : Nat :=
  cached.getD <|
    match trap with
    | some host => if 24 ≤ host.ipaBits4k ∧ host.ipaBits4k ≤ 52 then host.ipaBits4k.toNat else 40
    | none => 40

/-- `g_have` and `g_caps`. -/
structure CapsCached where
  gHave : Bool := false
  gCaps : Capabilities := {}

def ohvCapsCached (cached : CapsCached) (trap : Option HostCaps) : CapsCached :=
  if cached.gHave then cached
  else
    match trap with
    | some host => ⟨true, host.toCapabilities⟩
    | none => cached

def hvVcpuConfigGetFeatureReg (ipaBits : Nat) (caps : Capabilities) (reg : Nat) :
    Except HvReturn Word :=
  if 17 < reg then .error hvBadArgument else .ok (ohvIdRegFor ipaBits caps reg true)

/-! ## The registers that carry it -/

def idBank (ipaBits : Nat) (caps : Capabilities) (slot : Nat) : Word :=
  if slot < 18 then ohvIdRegFor ipaBits caps slot false
  else if slot = ohvIdSlotMidr then ohvCapsField ipaBits caps hvSysRegMidrEl1
  else 0

def idValue (ipaBits : Nat) (caps : Capabilities) (enc : BitVec 16) : Word :=
  ((ohvIdSlot enc).map (idBank ipaBits caps)).getD 0

def IsIdReg (enc : BitVec 16) : Prop := (sysregLookup enc).map SysRegDesc.kind = some .roId

instance (enc : BitVec 16) : Decidable (IsIdReg enc) := inferInstanceAs (Decidable (_ = _))

/-- A guest's read of CLIDR_EL1 or CCSIDR_EL1 into a register. -/
def SysAccess.ReadsCacheId (a : SysAccess) : Prop :=
  a.IsCacheId ∧ a.op1 = 1 ∧ a.read = true ∧ a.rt ≠ 31

instance (a : SysAccess) : Decidable a.ReadsCacheId := inferInstanceAs (Decidable (_ ∧ _))

def cacheIdValue (caps : Capabilities) (csselr : Word) (a : SysAccess) : Word :=
  if a.op2 = 1 then caps.clidrEl1
  else if csselr.getLsbD 0 then caps.ccsidrEl1Inst (csselr.extractLsb' 1 3).toNat
  else caps.ccsidrEl1DataOrUnified (csselr.extractLsb' 1 3).toNat

/-- What of ID_AA64MMFR0_EL1 is the capabilities'. -/
def mmfr0Mask : Word := 0x0000F000FFF000F0

theorem parangeField_masked (ipaBits : Nat) : parangeField ipaBits &&& mmfr0Mask = 0#64 := by
  unfold parangeField
  repeat' split
  all_goals decide

theorem ohvIdRegFor_eq_iff (wide other : Nat) (caps host : Capabilities) (reg : Nat)
    (forConfig : Bool) :
    ohvIdRegFor wide caps reg forConfig = ohvIdRegFor other host reg forConfig ↔
      ohvIdRegFor 0 caps reg forConfig = ohvIdRegFor 0 host reg forConfig ∧
        (reg = 4 → parangeField wide = parangeField other) := by
  by_cases width : reg = 4
  · subst width
    have fields : ∀ width caps, ohvIdRegFor width caps 4 forConfig =
        (caps.idAa64mmfr0El1 &&& mmfr0Mask) ||| parangeField width := fun _ _ => rfl
    rw [fields, fields, fields, fields,
      WordBits.or_masked_eq_iff (parangeField_masked wide) (parangeField_masked other),
      WordBits.or_masked_eq_iff (parangeField_masked 0) (parangeField_masked 0)]
    simp only [and_true, forall_const]
  · have without : ∀ width caps, ohvIdRegFor width caps reg forConfig =
        ohvIdRegFor 0 caps reg forConfig := by
      intro _ _
      unfold ohvIdRegFor
      split <;> first | rfl | exact absurd rfl width
    rw [without wide, without other]
    simp [width]

/-- Every encoding that has a slot, with it. -/
def idSlots : List (BitVec 16 × Nat) :=
  (hvSysRegMidrEl1, ohvIdSlotMidr) :: (hvSysRegMpidrEl1, ohvIdSlotMpidr) :: kCapsMap

theorem ohvIdSlot_listed {enc : BitVec 16} {slot : Nat} (named : ohvIdSlot enc = some slot) :
    (enc, slot) ∈ idSlots := by
  unfold ohvIdSlot at named
  by_cases midr : enc = hvSysRegMidrEl1
  · rw [if_pos midr] at named
    rw [midr, ← Option.some.inj named]
    exact List.mem_cons_self
  · rw [if_neg midr] at named
    by_cases mpidr : enc = hvSysRegMpidrEl1
    · rw [if_pos mpidr] at named
      rw [mpidr, ← Option.some.inj named]
      exact List.mem_cons_of_mem _ List.mem_cons_self
    · rw [if_neg mpidr, Option.map_eq_some_iff] at named
      obtain ⟨entry, found, rfl⟩ := named
      have same : entry.1 = enc := by simpa using List.find?_some found
      rw [← same]
      exact List.mem_cons_of_mem _ (List.mem_cons_of_mem _ (List.mem_of_find?_eq_some found))

theorem ohvIdSlot_inj {enc other : BitVec 16} {slot : Nat} (named : ohvIdSlot enc = some slot)
    (also : ohvIdSlot other = some slot) : enc = other := by
  have apart : ∀ e ∈ idSlots, ∀ f ∈ idSlots, e.2 = f.2 → e.1 = f.1 := by decide
  exact apart _ (ohvIdSlot_listed named) _ (ohvIdSlot_listed also) rfl

theorem loadIdRegs_bank (host : Host) (v : VcpuView) (fresh : v.s.idRegsLoaded = false)
    {enc : BitVec 16} {slot : Nat} (named : ohvIdSlot enc = some slot) :
    (loadIdRegs host v).s.idRegs slot =
      idBank host.maxIpaBits (v.g.sysregCaps.getD host.caps) slot := by
  have places : ∀ e ∈ idSlots, e.2 < 18 ∨ e.2 = ohvIdSlotMidr ∨ e.2 = ohvIdSlotMpidr := by decide
  have loaded : (loadIdRegs host v).s.idRegs slot =
      if slot < 18 then ohvIdRegFor host.maxIpaBits (v.g.sysregCaps.getD host.caps) slot false
      else if slot = ohvIdSlotMidr then
        ohvCapsField host.maxIpaBits (v.g.sysregCaps.getD host.caps) hvSysRegMidrEl1
      else if slot = ohvIdSlotMpidr then 0 else v.s.idRegs slot := by
    unfold loadIdRegs
    rw [if_neg (by simp [fresh])]
  rw [loaded, idBank]
  rcases places _ (ohvIdSlot_listed named) with low | midr | mpidr
  · rw [if_pos low, if_pos low]
  · have high : ¬ slot < 18 := by
      rw [show slot = 18 from midr]
      decide
    rw [if_neg high, if_neg high, if_pos midr, if_pos midr]
  · have high : ¬ slot < 18 ∧ slot ≠ ohvIdSlotMidr := by
      rw [show slot = 19 from mpidr]
      decide
    rw [if_neg high.1, if_neg high.1, if_neg high.2, if_neg high.2, if_pos mpidr]

/-! ## Runs

Beside the machine a run keeps how the trap went that each copy was filled by, and
which ID registers of a vCPU the VMM has written. -/

structure CapsRun where
  s : System := {}
  cached : CapsCached := {}
  width : Option Nat := none
  nv2Ask : Option Bool := none
  sysregAsk : Option Bool := none
  widthAsk : Option Bool := none
  written : VcpuId → BitVec 16 → Bool := fun _ _ => false

/-- A call, with how the traps it may come to make would go. -/
inductive CapsAct where
  | feature (reg : Nat) (caps width : Bool)
  | get (i : VcpuId) (enc : BitVec 16) (host : Host) (caps width : Bool)
  | set (i : VcpuId) (enc : BitVec 16) (value : Word) (host : Host) (caps width : Bool)
  | guest (i : VcpuId) (esr : Word) (host : Host) (caps : Bool)
  | maxIpa (width : Bool)
  | destroy (i : VcpuId)
  /-- Anything else the process does, here to every vCPU at once. -/
  | elsewhere (s : System)

namespace CapsRun

def Loads (r : CapsRun) (i : VcpuId) (enc : BitVec 16) : Prop :=
  IsIdReg enc ∧ (ohvIdSlot enc).isSome ∧ (r.s.slots i).idRegsLoaded = false

instance (r : CapsRun) (i : VcpuId) (enc : BitVec 16) : Decidable (r.Loads i enc) :=
  inferInstanceAs (Decidable (_ ∧ _))

variable (delivered : HostCaps)

def trap (ok : Bool) : Option HostCaps := if ok then some delivered else none

def left (ok : Bool) : Capabilities := if ok then delivered.toCapabilities else {}

def widthLeft (ok : Bool) : Nat := machineIpaBits none (trap delivered ok)

def host (r : CapsRun) (host : Host) (caps width : Bool) : Host :=
  { host with
    caps := left delivered caps
    maxIpaBits := machineIpaBits r.width (trap delivered width) }

/-- `static uint32_t cached` after a use of it. -/
def askWidth (r : CapsRun) (width : Bool) : CapsRun :=
  { r with
    width := some (machineIpaBits r.width (trap delivered width))
    widthAsk := some (r.widthAsk.getD width) }

def askBank (r : CapsRun) (i : VcpuId) (enc : BitVec 16) (caps width : Bool) : CapsRun :=
  if r.Loads i enc then
    { r.askWidth delivered width with sysregAsk := some (r.sysregAsk.getD caps) }
  else r

def feature (r : CapsRun) (reg : Nat) (caps width : Bool) : Except HvReturn Word :=
  hvVcpuConfigGetFeatureReg (machineIpaBits r.width (trap delivered width))
    (ohvCapsCached r.cached (trap delivered caps)).gCaps reg

def getAnswer (r : CapsRun) (i : VcpuId) (enc : BitVec 16) (h : Host) (caps width : Bool) :
    SysRegAnswer :=
  hvVcpuGetSysReg (r.host delivered h caps width) enc (r.s.view i)

def guestAnswer (r : CapsRun) (i : VcpuId) (esr : Word) (h : Host) (caps : Bool) :
    Bool × VcpuView :=
  serviceNv2Access { h with caps := left delivered caps } esr (r.s.view i)

def next (r : CapsRun) : CapsAct → CapsRun
  | .feature reg caps width =>
      let r := { r with cached := ohvCapsCached r.cached (trap delivered caps) }
      if reg = 4 then r.askWidth delivered width else r
  | .get i enc h caps width =>
      { r.askBank delivered i enc caps width with
        s := r.s.setView i (r.getAnswer delivered i enc h caps width).view }
  | .set i enc value h caps width =>
      { r.askBank delivered i enc caps width with
        s := r.s.setView i
          (hvVcpuSetSysReg (r.host delivered h caps width) enc value (r.s.view i)).2
        written := Function.update r.written i (Function.update (r.written i) enc true) }
  | .guest i esr h caps =>
      { r with
        s := r.s.setView i (r.guestAnswer delivered i esr h caps).2
        nv2Ask := if (SysAccess.ofEsr esr).IsCacheId then some (r.nv2Ask.getD caps) else r.nv2Ask }
  | .maxIpa width => r.askWidth delivered width
  | .destroy i =>
      { r with
        s := { r.s with slots := hvVcpuDestroy i r.s.slots }
        written := Function.update r.written i fun _ => false }
  | .elsewhere s =>
      { r with
        s := { s with
          g := { s.g with nv2Caps := r.s.g.nv2Caps, sysregCaps := r.s.g.sysregCaps }
          slots := fun i => { s.slots i with
            idRegs := (r.s.slots i).idRegs
            idRegsLoaded := (r.s.slots i).idRegsLoaded } } }

def step (r : CapsRun) (act : CapsAct) : Option CapsRun := some (r.next delivered act)

/-! ## What is claimed of a read, and what decides it -/

/-- A read that succeeds gives what the delivered values give. -/
def ServesHost (r : CapsRun) : CapsAct → CapsRun → Prop
  | .feature reg caps width, _ => ∀ value, r.feature delivered reg caps width = .ok value →
      value = ohvIdRegFor (widthLeft delivered true) delivered.toCapabilities reg true
  | .get i enc h caps width, _ => IsIdReg enc → r.written i enc = false →
      (r.getAnswer delivered i enc h caps width).rc = hvSuccess →
      (r.getAnswer delivered i enc h caps width).value =
        idValue (widthLeft delivered true) delivered.toCapabilities enc
  | .guest i esr h caps, next => (SysAccess.ofEsr esr).ReadsCacheId →
      (r.guestAnswer delivered i esr h caps).1 = true →
      (next.s.slots i).ctx.readRt (SysAccess.ofEsr esr).rt =
        cacheIdValue delivered.toCapabilities ((r.s.slots i).ctx.shared 7) (.ofEsr esr)
  | _, _ => True

/-- The trap succeeded, or zeros give the register all the same. -/
def Known (reg : Nat) (forConfig ok : Bool) : Prop :=
  ok = true ∨ ohvIdRegFor 0 {} reg forConfig = ohvIdRegFor 0 delivered.toCapabilities reg forConfig

/-- The trap for the width succeeded, or the machine's is the one of 40 bits. -/
def WidthKnown (ok : Bool) : Prop :=
  ok = true ∨ parangeField 40 = parangeField (widthLeft delivered true)

/-- Every copy a read is served from came from a trap that succeeded, or the read shows
nothing of it. -/
def TrapHeld (r : CapsRun) : CapsAct → CapsRun → Prop
  | .feature reg caps width, _ => reg ≤ 17 →
      Known delivered reg true (r.cached.gHave || caps) ∧
        (reg = 4 → WidthKnown delivered (r.widthAsk.getD width))
  | .get i enc _ caps width, _ => IsIdReg enc → r.written i enc = false →
      ∀ slot, ohvIdSlot enc = some slot → slot < 18 →
        Known delivered slot false (r.sysregAsk.getD caps) ∧
          (slot = 4 → WidthKnown delivered (r.widthAsk.getD width))
  | .guest i esr _ caps, _ => (SysAccess.ofEsr esr).ReadsCacheId → r.nv2Ask.getD caps = true ∨
      0 = cacheIdValue delivered.toCapabilities ((r.s.slots i).ctx.shared 7) (.ofEsr esr)
  | _, _ => True

/-! ## The copies hold what their traps left -/

/-- The ID registers of a vCPU, once filled in, are what the two traps left. -/
def Banked (capsAsk widthAsk : Option Bool) (written : BitVec 16 → Bool) (slot : VcpuSlot) : Prop :=
  slot.idRegsLoaded = true → ∃ ok wide, capsAsk = some ok ∧ widthAsk = some wide ∧
    ∀ enc place, ohvIdSlot enc = some place → written enc = false →
      slot.idRegs place = idBank (widthLeft delivered wide) (left delivered ok) place

structure Kept (r : CapsRun) : Prop where
  nv2 : r.s.g.nv2Caps = r.nv2Ask.map (left delivered)
  sysreg : r.s.g.sysregCaps = r.sysregAsk.map (left delivered)
  width : r.width = r.widthAsk.map (widthLeft delivered)
  cached : r.cached.gCaps = left delivered r.cached.gHave
  bank : ∀ i, Banked delivered r.sysregAsk r.widthAsk (r.written i) (r.s.slots i)

variable {delivered}
variable {r : CapsRun}

theorem getD_map_left {A B : Type} (f : A → B) (ask : Option A) (ok : A) :
    (ask.map f).getD (f ok) = f (ask.getD ok) := by
  cases ask <;> rfl

theorem Kept.widthUsed (kept : Kept delivered r) (width : Bool) :
    machineIpaBits r.width (trap delivered width) =
      widthLeft delivered (r.widthAsk.getD width) := by
  have asked : machineIpaBits r.width (trap delivered width) =
      r.width.getD (widthLeft delivered width) := rfl
  rw [asked, kept.width, getD_map_left]

theorem Kept.capsUsed (kept : Kept delivered r) (caps : Bool) :
    (ohvCapsCached r.cached (trap delivered caps)).gCaps =
      left delivered (r.cached.gHave || caps) ∧
    (ohvCapsCached r.cached (trap delivered caps)).gHave = (r.cached.gHave || caps) := by
  have held := kept.cached
  cases has : r.cached.gHave with
  | true =>
      have same : ohvCapsCached r.cached (trap delivered caps) = r.cached := if_pos has
      rw [has] at held
      rw [same]
      exact ⟨held, has⟩
  | false =>
      have asked : ohvCapsCached r.cached (trap delivered caps) =
          match trap delivered caps with
          | some host => ⟨true, host.toCapabilities⟩
          | none => r.cached := if_neg (by simp [has])
      rw [has] at held
      rw [asked]
      cases caps with
      | true => exact ⟨rfl, rfl⟩
      | false => exact ⟨held, has⟩

theorem answer_iff (ok wide : Bool) (reg : Nat) (forConfig : Bool) :
    ohvIdRegFor (widthLeft delivered wide) (left delivered ok) reg forConfig =
        ohvIdRegFor (widthLeft delivered true) delivered.toCapabilities reg forConfig ↔
      Known delivered reg forConfig ok ∧ (reg = 4 → WidthKnown delivered wide) := by
  rw [ohvIdRegFor_eq_iff]
  refine and_congr ?_ (imp_congr_right fun _ => ?_)
  · cases ok with
    | true => simp [left, Known]
    | false => simp [left, Known]
  · cases wide with
    | true => simp [WidthKnown]
    | false =>
        have forty : widthLeft delivered false = 40 := rfl
        simp [WidthKnown, forty]

theorem feature_iff (kept : Kept delivered r) (reg : Nat) (caps width : Bool) :
    (∀ value, r.feature delivered reg caps width = .ok value →
        value = ohvIdRegFor (widthLeft delivered true) delivered.toCapabilities reg true) ↔
      (reg ≤ 17 → Known delivered reg true (r.cached.gHave || caps) ∧
        (reg = 4 → WidthKnown delivered (r.widthAsk.getD width))) := by
  have answer : r.feature delivered reg caps width =
      if 17 < reg then .error hvBadArgument
      else .ok (ohvIdRegFor (widthLeft delivered (r.widthAsk.getD width))
        (left delivered (r.cached.gHave || caps)) reg true) := by
    rw [feature, hvVcpuConfigGetFeatureReg, kept.widthUsed, (kept.capsUsed caps).1]
  rw [answer, ← answer_iff]
  by_cases high : 17 < reg
  · rw [if_pos high]
    constructor
    · intro _ low
      omega
    · intro _ value refused
      cases refused
  · rw [if_neg high]
    constructor
    · intro serves _
      exact serves _ rfl
    · intro serves value answered
      cases answered
      exact serves (by omega)

/-! ## The ID registers of one vCPU -/

section Bank

variable {capsAsk widthAsk : Option Bool} {written : BitVec 16 → Bool} {slot : VcpuSlot}

theorem Banked.more (banked : Banked delivered capsAsk widthAsk written slot)
    {also : BitVec 16 → Bool} (covers : ∀ enc, also enc = false → written enc = false) :
    Banked delivered capsAsk widthAsk also slot := by
  intro loaded
  obtain ⟨ok, wide, asked, measured, holds⟩ := banked loaded
  exact ⟨ok, wide, asked, measured,
    fun enc place named unwritten => holds enc place named (covers enc unwritten)⟩

theorem unwritten_of_update {enc other : BitVec 16}
    (unwritten : Function.update written enc true other = false) :
    other ≠ enc ∧ written other = false := by
  by_cases same : other = enc
  · subst same
    rw [Function.update_self] at unwritten
    cases unwritten
  · rw [Function.update_of_ne same] at unwritten
    exact ⟨same, unwritten⟩

theorem Banked.write (banked : Banked delivered capsAsk widthAsk written slot)
    {enc : BitVec 16} {place : Nat} (named : ohvIdSlot enc = some place) (value : Word) :
    Banked delivered capsAsk widthAsk (Function.update written enc true)
      { slot with idRegs := Function.update slot.idRegs place value } := by
  intro loaded
  obtain ⟨ok, wide, asked, measured, holds⟩ := banked loaded
  refine ⟨ok, wide, asked, measured, ?_⟩
  intro other at' listed unwritten
  obtain ⟨apart, before⟩ := unwritten_of_update unwritten
  have elsewhere : at' ≠ place := by
    rintro rfl
    exact apart (ohvIdSlot_inj listed named)
  simp only [Function.update_of_ne elsewhere]
  exact holds other at' listed before

end Bank

theorem idBank_eq_iff (ok wide : Bool) {enc : BitVec 16} {slot : Nat}
    (named : ohvIdSlot enc = some slot) :
    idBank (widthLeft delivered wide) (left delivered ok) slot =
        idBank (widthLeft delivered true) delivered.toCapabilities slot ↔
      (slot < 18 → Known delivered slot false ok ∧ (slot = 4 → WidthKnown delivered wide)) := by
  have places : ∀ e ∈ idSlots, e.2 < 18 ∨ e.2 = ohvIdSlotMidr ∨ e.2 = ohvIdSlotMpidr := by decide
  rw [← answer_iff]
  rcases places _ (ohvIdSlot_listed named) with low | midr | mpidr
  · simp only [idBank, low, if_true, forall_const]
  · obtain rfl : slot = 18 := midr
    exact ⟨fun _ low => absurd low (by decide), fun _ => rfl⟩
  · obtain rfl : slot = 19 := mpidr
    exact ⟨fun _ low => absurd low (by decide), fun _ => rfl⟩

section Access

variable {i : VcpuId} {enc : BitVec 16} (h : Host) (caps width : Bool)

theorem askBank_same (loaded : (r.s.slots i).idRegsLoaded = true) :
    r.askBank delivered i enc caps width = r := by
  apply if_neg
  rintro ⟨-, -, fresh⟩
  rw [loaded] at fresh
  cases fresh

theorem banked_loaded (kept : Kept delivered r) (idReg : IsIdReg enc) {slot : Nat}
    (named : ohvIdSlot enc = some slot) :
    Banked delivered (some (r.sysregAsk.getD caps)) (some (r.widthAsk.getD width)) (r.written i)
        (loadIdRegs (r.host delivered h caps width) (r.s.view i)).s ∧
      (loadIdRegs (r.host delivered h caps width) (r.s.view i)).s.idRegsLoaded = true ∧
      (loadIdRegs (r.host delivered h caps width) (r.s.view i)).g.sysregCaps =
        (r.askBank delivered i enc caps width).sysregAsk.map (left delivered) ∧
      (r.askBank delivered i enc caps width).sysregAsk = some (r.sysregAsk.getD caps) ∧
      (r.askBank delivered i enc caps width).widthAsk = some (r.widthAsk.getD width) := by
  cases loaded : (r.s.slots i).idRegsLoaded with
  | true =>
      have same : loadIdRegs (r.host delivered h caps width) (r.s.view i) = r.s.view i :=
        if_pos loaded
      obtain ⟨ok, wide, asked, measured, holds⟩ := kept.bank i loaded
      rw [same, askBank_same caps width loaded, asked, measured]
      refine ⟨fun _ => ⟨ok, wide, rfl, rfl, holds⟩, loaded, ?_, rfl, rfl⟩
      rw [← asked]
      exact kept.sysreg
  | false =>
      have asks : r.askBank delivered i enc caps width =
          { r.askWidth delivered width with sysregAsk := some (r.sysregAsk.getD caps) } :=
        if_pos ⟨idReg, by rw [named]; rfl, loaded⟩
      have held : r.s.g.sysregCaps.getD (left delivered caps) =
          left delivered (r.sysregAsk.getD caps) := by
        rw [kept.sysreg, getD_map_left]
      have filled : (loadIdRegs (r.host delivered h caps width) (r.s.view i)).g.sysregCaps =
          some (r.s.g.sysregCaps.getD (left delivered caps)) := by
        unfold loadIdRegs
        rw [if_neg (by simp [System.view, loaded])]
        rfl
      have done : (loadIdRegs (r.host delivered h caps width) (r.s.view i)).s.idRegsLoaded =
          true := by
        unfold loadIdRegs
        rw [if_neg (by simp [System.view, loaded])]
      rw [asks, filled, held]
      refine ⟨fun _ => ⟨_, _, rfl, rfl, ?_⟩, done, rfl, rfl, rfl⟩
      intro other place listed _
      rw [loadIdRegs_bank _ _ loaded listed]
      have wide : (r.host delivered h caps width).maxIpaBits =
          widthLeft delivered (r.widthAsk.getD width) := kept.widthUsed width
      rw [wide]
      exact congrArg (fun caps => idBank _ caps place) held

theorem sysregAccess_other (host : Host) (value : Word) (write : Bool) (v : VcpuView)
    (other : ¬ IsIdReg enc) :
    (sysregAccess host enc value write v).view.s.idRegs = v.s.idRegs ∧
      (sysregAccess host enc value write v).view.s.idRegsLoaded = v.s.idRegsLoaded ∧
      (sysregAccess host enc value write v).view.g = v.g := by
  have synced : ∀ (c : Prop) [Decidable c], (if c then v.sync host 0 else v).s.idRegs = v.s.idRegs ∧
      (if c then v.sync host 0 else v).s.idRegsLoaded = v.s.idRegsLoaded ∧
      (if c then v.sync host 0 else v).g = v.g := by
    intro c _
    split <;> exact ⟨rfl, rfl, rfl⟩
  unfold sysregAccess
  split
  · exact ⟨rfl, rfl, rfl⟩
  · rename_i d found
    split
    · rename_i kind
      have named : IsIdReg enc := by
        rw [IsIdReg, found]
        exact congrArg some kind
      exact absurd named other
    · unfold shadowAccess
      split
      · exact ⟨rfl, rfl, rfl⟩
      · split <;> exact ⟨rfl, rfl, rfl⟩
    · unfold contextAccess
      simp only
      split
      · exact synced _
      · split <;> exact synced _
    · exact ⟨rfl, rfl, rfl⟩

theorem sysregAccess_id (host : Host) (value : Word) (write : Bool) (v : VcpuView)
    (idReg : IsIdReg enc) :
    sysregAccess host enc value write v = idRegAccess host enc value write v := by
  unfold IsIdReg at idReg
  rw [Option.map_eq_some_iff] at idReg
  obtain ⟨d, found, kind⟩ := idReg
  rw [sysregAccess, found]
  simp only
  rw [kind]

/-- A call on any register leaves the vCPU's ID registers as the traps left them, but for
the one it writes. -/
theorem banked_access (kept : Kept delivered r) (value : Word) (write : Bool) :
    (sysregAccess (r.host delivered h caps width) enc value write (r.s.view i)).view.g.sysregCaps =
        (r.askBank delivered i enc caps width).sysregAsk.map (left delivered) ∧
      Banked delivered (r.askBank delivered i enc caps width).sysregAsk
        (r.askBank delivered i enc caps width).widthAsk
        (if write then Function.update (r.written i) enc true else r.written i)
        (sysregAccess (r.host delivered h caps width) enc value write (r.s.view i)).view.s := by
  have covers : ∀ other, (if write then Function.update (r.written i) enc true
      else r.written i) other = false → r.written i other = false := by
    intro other unwritten
    cases write with
    | true => exact (unwritten_of_update unwritten).2
    | false => exact unwritten
  by_cases idReg : IsIdReg enc
  · rw [sysregAccess_id _ value write _ idReg]
    cases named : ohvIdSlot enc with
    | none =>
        have asks : r.askBank delivered i enc caps width = r := by
          apply if_neg
          rintro ⟨-, slotted, -⟩
          rw [named] at slotted
          cases slotted
        have same : (idRegAccess (r.host delivered h caps width) enc value write
            (r.s.view i)).view = r.s.view i := by
          rw [idRegAccess, named]
        rw [asks, same]
        exact ⟨kept.sysreg, (kept.bank i).more covers⟩
    | some slot =>
        obtain ⟨banked, -, filled, capsAsk, widthAsk⟩ := banked_loaded h caps width kept idReg named
        rw [← capsAsk, ← widthAsk] at banked
        cases write with
        | true =>
            rw [idRegAccess, named]
            exact ⟨filled, banked.write named value⟩
        | false =>
            rw [idRegAccess, named]
            exact ⟨filled, banked⟩
  · have asks : r.askBank delivered i enc caps width = r := if_neg fun loads => idReg loads.1
    obtain ⟨bank, loaded, globals⟩ := sysregAccess_other (r.host delivered h caps width) value write
      (r.s.view i) idReg
    rw [asks, globals]
    refine ⟨kept.sysreg, ?_⟩
    have banked := (kept.bank i).more covers
    unfold Banked at banked ⊢
    rw [bank, loaded]
    exact banked

theorem askBank_grows {ok wide : Bool} (asked : r.sysregAsk = some ok)
    (measured : r.widthAsk = some wide) :
    (r.askBank delivered i enc caps width).sysregAsk = some ok ∧
      (r.askBank delivered i enc caps width).widthAsk = some wide := by
  unfold askBank
  split
  · simp only [askWidth, asked, measured, Option.getD_some, and_self]
  · exact ⟨asked, measured⟩

theorem askBank_rest : (r.askBank delivered i enc caps width).nv2Ask = r.nv2Ask ∧
    (r.askBank delivered i enc caps width).cached = r.cached ∧
    (r.askBank delivered i enc caps width).written = r.written := by
  unfold askBank
  split <;> exact ⟨rfl, rfl, rfl⟩

theorem Kept.askWidth (kept : Kept delivered r) (width : Bool) :
    (r.askWidth delivered width).width =
      (r.askWidth delivered width).widthAsk.map (widthLeft delivered) :=
  congrArg some (kept.widthUsed width)

theorem Kept.askBank (kept : Kept delivered r) :
    (r.askBank delivered i enc caps width).width =
      (r.askBank delivered i enc caps width).widthAsk.map (widthLeft delivered) := by
  unfold CapsRun.askBank
  split
  · exact kept.askWidth width
  · exact kept.width

theorem get_iff (kept : Kept delivered r) (idReg : IsIdReg enc)
    (unwritten : r.written i enc = false) :
    ((r.getAnswer delivered i enc h caps width).rc = hvSuccess →
        (r.getAnswer delivered i enc h caps width).value =
          idValue (widthLeft delivered true) delivered.toCapabilities enc) ↔
      ∀ slot, ohvIdSlot enc = some slot → slot < 18 →
        Known delivered slot false (r.sysregAsk.getD caps) ∧
          (slot = 4 → WidthKnown delivered (r.widthAsk.getD width)) := by
  have access : r.getAnswer delivered i enc h caps width =
      idRegAccess (r.host delivered h caps width) enc 0 false (r.s.view i) :=
    sysregAccess_id _ 0 false _ idReg
  rw [access]
  cases named : ohvIdSlot enc with
  | none =>
      rw [idRegAccess, idValue, named]
      refine ⟨?_, fun _ _ => rfl⟩
      intro _ slot slotted
      cases slotted
  | some slot =>
      obtain ⟨banked, loaded, -⟩ := banked_loaded (i := i) h caps width kept idReg named
      obtain ⟨_, _, asked, measured, holds⟩ := banked loaded
      cases asked
      cases measured
      have shown : (idRegAccess (r.host delivered h caps width) enc 0 false (r.s.view i)).value =
          idBank (widthLeft delivered (r.widthAsk.getD width))
            (left delivered (r.sysregAsk.getD caps)) slot := by
        rw [idRegAccess, named]
        exact holds enc slot named unwritten
      have succeeds : (idRegAccess (r.host delivered h caps width) enc 0 false (r.s.view i)).rc =
          hvSuccess := by
        rw [idRegAccess, named]
        rfl
      have wanted : idValue (widthLeft delivered true) delivered.toCapabilities enc =
          idBank (widthLeft delivered true) delivered.toCapabilities slot := by
        rw [idValue, named]
        rfl
      rw [shown, succeeds, wanted, idBank_eq_iff _ _ named]
      simp only [forall_const, Option.some.injEq, forall_eq']

end Access

/-! ## The guest's copy -/

theorem readsCacheId_answer (host : Host) {esr : Word} (v : VcpuView)
    (reads : (SysAccess.ofEsr esr).ReadsCacheId) :
    (serviceNv2Access host esr v).1 = true ∧
      (serviceNv2Access host esr v).2.s.ctx.readRt (SysAccess.ofEsr esr).rt =
        cacheIdValue (v.g.nv2Caps.getD host.caps) (v.s.ctx.shared 7) (.ofEsr esr) := by
  obtain ⟨cache, op1, read, rt⟩ := reads
  have other : (SysAccess.ofEsr esr).op1 ≠ 2 := by
    rw [op1]
    decide
  have taken : cacheIdAccess host (.ofEsr esr) v = some (true,
      (((asked host v).setCtx ((asked host v).s.ctx.writeRt (SysAccess.ofEsr esr).rt
        (cacheIdValue (v.g.nv2Caps.getD host.caps) (v.s.ctx.shared 7) (.ofEsr esr)))).skip)) := by
    have block : cacheIdAccess host (.ofEsr esr) v = _ := if_pos cache
    rw [block]
    simp only
    rw [if_neg other, if_pos read]
    rfl
  rw [cacheId_decides cache taken]
  refine ⟨rfl, (readRt_skip _ _).trans ((readRt_writeRt _ _ _).trans (if_neg rt))⟩

theorem guest_iff (kept : Kept delivered r) (i : VcpuId) (h : Host) (caps : Bool) {esr : Word}
    (reads : (SysAccess.ofEsr esr).ReadsCacheId) :
    (r.guestAnswer delivered i esr h caps).2.s.ctx.readRt (SysAccess.ofEsr esr).rt =
        cacheIdValue delivered.toCapabilities ((r.s.slots i).ctx.shared 7) (.ofEsr esr) ↔
      r.nv2Ask.getD caps = true ∨ 0 =
        cacheIdValue delivered.toCapabilities ((r.s.slots i).ctx.shared 7) (.ofEsr esr) := by
  have shown := (readsCacheId_answer { h with caps := left delivered caps } (r.s.view i) reads).2
  have used : (r.s.view i).g.nv2Caps.getD (left delivered caps) =
      left delivered (r.nv2Ask.getD caps) := by
    rw [show (r.s.view i).g.nv2Caps = _ from kept.nv2, getD_map_left]
  have answer : (r.guestAnswer delivered i esr h caps).2.s.ctx.readRt (SysAccess.ofEsr esr).rt =
      cacheIdValue (left delivered (r.nv2Ask.getD caps)) ((r.s.slots i).ctx.shared 7)
        (.ofEsr esr) :=
    shown.trans (congrArg (fun caps => cacheIdValue caps _ _) used)
  rw [answer]
  cases r.nv2Ask.getD caps with
  | true => simp [left]
  | false =>
      have zero : cacheIdValue (left delivered false) ((r.s.slots i).ctx.shared 7)
          (.ofEsr esr) = 0 := by
        unfold cacheIdValue
        repeat' split
        all_goals rfl
      simp [zero]

/-! ## Runs -/

theorem Kept.start : Kept delivered {} where
  nv2 := rfl
  sysreg := rfl
  width := rfl
  cached := rfl
  bank _ loaded := by cases loaded

theorem Kept.ofBank (kept : Kept delivered r) (i : VcpuId) (enc : BitVec 16) (value : Word)
    (write : Bool) (h : Host) (caps width : Bool) {next : CapsRun}
    (asks : next = { r.askBank delivered i enc caps width with
      s := r.s.setView i
        (sysregAccess (r.host delivered h caps width) enc value write (r.s.view i)).view
      written := if write then
          Function.update r.written i (Function.update (r.written i) enc true)
        else r.written }) : Kept delivered next := by
  obtain ⟨filled, banked⟩ :
      (sysregAccess (r.host delivered h caps width) enc value write
        (r.s.view i)).view.g.sysregCaps = _ ∧ _ := banked_access h caps width kept value write
  obtain ⟨nv2Ask, cached, -⟩ : (r.askBank delivered i enc caps width).nv2Ask = _ ∧ _ ∧ _ :=
    askBank_rest caps width
  have frame := (sysregAccess_frame (r.host delivered h caps width) enc value write
    (r.s.view i)).globals
  subst asks
  refine ⟨?_, filled, kept.askBank caps width, ?_, ?_⟩
  · have same : (sysregAccess (r.host delivered h caps width) enc value write
        (r.s.view i)).view.g.nv2Caps = r.s.g.nv2Caps := by
      rw [frame]
      rfl
    simp only [System.setView, same, nv2Ask]
    exact kept.nv2
  · simp only [cached]
    exact kept.cached
  · intro j
    by_cases own : j = i
    · subst own
      simp only [System.setView_slots_self]
      cases write with
      | true => simpa only [if_true, Function.update_self] using banked
      | false => exact banked
    · have slot : (r.s.setView i (sysregAccess (r.host delivered h caps width) enc value write
          (r.s.view i)).view).slots j = r.s.slots j := r.s.setView_slots_of_ne own _
      have written : (if write then
          Function.update r.written i (Function.update (r.written i) enc true)
        else r.written) j = r.written j := by
        split
        · exact Function.update_of_ne own _ _
        · rfl
      simp only [slot, written]
      intro loaded
      obtain ⟨ok, wide, asked, measured, holds⟩ := kept.bank j loaded
      obtain ⟨still, yet⟩ : (r.askBank delivered i enc caps width).sysregAsk = _ ∧ _ :=
        askBank_grows caps width asked measured
      exact ⟨ok, wide, still, yet, holds⟩

theorem Kept.ofWidth (kept : Kept delivered r) (width : Bool) :
    Kept delivered (r.askWidth delivered width) where
  nv2 := kept.nv2
  sysreg := kept.sysreg
  width := kept.askWidth width
  cached := kept.cached
  bank i loaded := by
    obtain ⟨ok, wide, asked, measured, holds⟩ := kept.bank i loaded
    refine ⟨ok, wide, asked, ?_, holds⟩
    simp only [CapsRun.askWidth, measured, Option.getD_some]

theorem Kept.ofCached (kept : Kept delivered r) (caps : Bool) :
    Kept delivered { r with cached := ohvCapsCached r.cached (trap delivered caps) } := by
  obtain ⟨used, has⟩ := kept.capsUsed caps
  refine ⟨kept.nv2, kept.sysreg, kept.width, ?_, kept.bank⟩
  simp only [used, has]

theorem Kept.ofGuest (kept : Kept delivered r) (i : VcpuId) (esr : Word) (h : Host)
    (caps : Bool) : Kept delivered (r.next delivered (.guest i esr h caps)) := by
  have only := ExitOnly.serviceNv2Access { h with caps := left delivered caps } esr (r.s.view i)
  refine ⟨?_, ?_, kept.width, kept.cached, ?_⟩
  · have copied := serviceNv2Access_nv2Caps { h with caps := left delivered caps } esr
      (r.s.view i)
    refine copied.trans ?_
    simp only [CapsRun.next]
    split
    · rw [show (r.s.view i).g.nv2Caps = _ from kept.nv2, getD_map_left]
      rfl
    · exact kept.nv2
  · have same := congrArg Globals.sysregCaps only.globals
    exact same.trans kept.sysreg
  · -- The exit handler leaves the ID registers of its own slot, and no other slot is its.
    apply (Function.forall_update_iff r.s.slots fun j slot =>
      Banked delivered r.sysregAsk r.widthAsk (r.written j) slot).mpr
    refine ⟨?_, fun j _ => kept.bank j⟩
    have bank := congrArg VcpuSlot.idRegs only.slot
    have loaded := congrArg VcpuSlot.idRegsLoaded only.slot
    unfold Banked
    rw [show (r.guestAnswer delivered i esr h caps).2.s.idRegs = _ from bank,
      show (r.guestAnswer delivered i esr h caps).2.s.idRegsLoaded = _ from loaded]
    exact kept.bank i

theorem Kept.ofDestroy (kept : Kept delivered r) (i : VcpuId) :
    Kept delivered (r.next delivered (.destroy i)) := by
  refine ⟨kept.nv2, kept.sysreg, kept.width, kept.cached, ?_⟩
  intro j
  by_cases own : j = i
  · subst own
    intro loaded
    simp only [CapsRun.next, hvVcpuDestroy, Function.update_self] at loaded
    cases loaded
  · simp only [CapsRun.next, hvVcpuDestroy, Function.update_of_ne own]
    exact kept.bank j

theorem Kept.next (kept : Kept delivered r) (act : CapsAct) :
    Kept delivered (r.next delivered act) := by
  cases act with
  | feature reg caps width =>
      by_cases four : reg = 4
      · rw [show r.next delivered (.feature reg caps width) = _ from if_pos four]
        exact (kept.ofCached caps).ofWidth width
      · rw [show r.next delivered (.feature reg caps width) = _ from if_neg four]
        exact kept.ofCached caps
  | get i enc h caps width =>
      apply kept.ofBank i enc 0 false h caps width
      obtain ⟨-, -, written⟩ : _ ∧ _ ∧ (r.askBank delivered i enc caps width).written = _ :=
        askBank_rest caps width
      rw [if_neg (by decide), ← written]
      rfl
  | set i enc value h caps width =>
      apply kept.ofBank i enc value true h caps width
      rw [← hvVcpuSetSysReg_eq_access]
      rfl
  | guest i esr h caps => exact kept.ofGuest i esr h caps
  | maxIpa width => exact kept.ofWidth width
  | destroy i => exact kept.ofDestroy i
  | elsewhere s => exact ⟨kept.nv2, kept.sysreg, kept.width, kept.cached, kept.bank⟩

end CapsRun

/-- In every run each read is the host's exactly as long as each copy it is served from
came from a trap that succeeded, or carries nothing the zeros of a failed one do not. -/
theorem hostIdentity_iff (delivered : HostCaps) (word : List CapsAct) :
    Runs.Along (CapsRun.step delivered) (CapsRun.ServesHost delivered) {} word ↔
      Runs.Along (CapsRun.step delivered) (CapsRun.TrapHeld delivered) {} word := by
  apply Runs.along_iff_of_invariant (CapsRun.Kept delivered)
  · intro r act next taken kept
    cases taken
    cases act with
    | feature reg caps width => exact CapsRun.feature_iff kept reg caps width
    | get i enc h caps width =>
        refine forall_congr' fun idReg => forall_congr' fun unwritten => ?_
        exact CapsRun.get_iff h caps width kept idReg unwritten
    | guest i esr h caps =>
        refine forall_congr' fun reads => ?_
        have slot : ((r.next delivered (.guest i esr h caps)).s.slots i) =
            (r.guestAnswer delivered i esr h caps).2.s := r.s.setView_slots_self i _
        have served : (r.guestAnswer delivered i esr h caps).1 = true :=
          (CapsRun.readsCacheId_answer _ _ reads).1
        rw [slot, ← CapsRun.guest_iff kept i h caps reads]
        exact ⟨fun answer => answer served, fun same _ => same⟩
    | set i enc value h caps width => exact Iff.rfl
    | maxIpa width => exact Iff.rfl
    | destroy i => exact Iff.rfl
    | elsewhere s => exact Iff.rfl
  · intro r act next taken _ kept
    cases taken
    exact kept.next act
  · exact CapsRun.Kept.start

/-- A guest's first read of CLIDR_EL1 into x0, its trap failing, and another one whose
trap would not. -/
def earlyFailure : List CapsAct :=
  [.guest vcpu0 0x324001 {} false, .guest vcpu0 0x324001 {} true]

theorem earlyFailure_latched :
    (Runs.runFrom (CapsRun.step { clidrEl1 := 0x80000023 }) {} earlyFailure).map
        (fun r => ((r.s.slots vcpu0).ctx.x 0, (r.s.slots vcpu0).ctx.pc)) = some (0, 8) ∧
      ¬ Runs.Along (CapsRun.step { clidrEl1 := 0x80000023 })
        (CapsRun.ServesHost { clidrEl1 := 0x80000023 }) {} earlyFailure := by
  refine ⟨by decide, fun along => ?_⟩
  obtain ⟨first, -⟩ := along _ rfl
  exact absurd (first (by decide) (by decide)) (by decide)

end OpenHypervisor
