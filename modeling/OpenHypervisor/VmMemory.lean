import Mathlib.Algebra.Group.Nat.Defs
import OpenHypervisor.Gic
import OpenHypervisor.GuestMap
import OpenHypervisor.Library.Regions
import OpenHypervisor.Library.Runs

/-!
# Guest memory and its record

The VM calls of `ohv_vm.cpp` and, next to them, what the kernel has mapped: a
space of 16 KiB pages, each with the map call it came from.  The question is
when the record `ohv_guest_ptr` reads says what that space says.

A copy of every mapping goes to each nested address space as well; those answers
are dropped and nothing is recorded of them.
-/

set_option autoImplicit false

namespace OpenHypervisor

/-! ## The calls -/

structure VmConfig where
  el2Enabled : Bool := false
  vheEnabled : Bool := false

def hvVmCreate (config : Option VmConfig) (answer : HvReturn) (g : Globals) :
    HvReturn × Globals :=
  if g.vmAlive then (hvBusy, g)
  else if answer = hvSuccess then
    (hvSuccess, { g with
      vmAlive := true
      vmEl2 := (config.map (·.el2Enabled)).getD false
      vmVhe := (config.map (·.vheEnabled)).getD false })
  else (answer, g)

/-- The slots are rebuilt; the record is left as it is. -/
def hvVmDestroy (answer : HvReturn) (g : Globals) (slots : VcpuTable) :
    HvReturn × Globals × VcpuTable :=
  if g.vmAlive = false then (hvNoDevice, g, slots)
  else if answer = hvSuccess then
    (hvSuccess, { g with vmAlive := false, gic := none }, fun _ => {})
  else (answer, g, slots)

def requireVm (g : Globals) : HvReturn := if g.vmAlive then hvSuccess else hvNoDevice

/-- `map_op`: the checks, and the kernel's answer to the trap behind them. -/
def mapOp (answer : HvReturn) (ipa size : Word) (g : Globals) : HvReturn :=
  if requireVm g ≠ hvSuccess then requireVm g
  else if size = 0 ∨ size &&& 0x3fff ≠ 0 ∨ ipa &&& 0x3ff ≠ 0 then hvBadArgument
  else answer

def hvVmMap (answer : HvReturn) (addr ipa size : Word) (g : Globals) : HvReturn × Globals :=
  if addr = 0 then (hvBadArgument, g)
  else
    let r := mapOp answer ipa size g
    if r = hvSuccess then (r, { g with maps := mapRemember g.maps addr ipa size }) else (r, g)

/-- The record goes before the kernel is asked. -/
def hvVmUnmap (answer : HvReturn) (ipa size : Word) (g : Globals) : HvReturn × Globals :=
  let g := { g with maps := mapForget g.maps ipa }
  (mapOp answer ipa size g, g)

/-! ## The kernel's side -/

def pageSize : Nat := 0x4000

def PageOf (ipa size : Word) (page : Nat) : Prop :=
  ipa.toNat ≤ page * pageSize ∧ page * pageSize < ipa.toNat + size.toNat

instance (ipa size : Word) : DecidablePred (PageOf ipa size) :=
  fun _ => inferInstanceAs (Decidable (_ ∧ _))

def MapRecord.Extent (m : MapRecord) : Nat → Prop := PageOf m.ipa m.size

instance (m : MapRecord) : DecidablePred m.Extent := inferInstanceAs (DecidablePred (PageOf _ _))

abbrev PageSpace := Nat → Option MapRecord

inductive VmCall where
  | create (config : Option VmConfig) (answer : HvReturn)
  | map (addr ipa size : Word) (answer : HvReturn)
  | unmap (ipa size : Word) (answer : HvReturn)
  | destroy (answer : HvReturn)

structure VmState where
  g : Globals := {}
  slots : VcpuTable := fun _ => {}
  space : PageSpace := fun _ => none

namespace VmCall

def serve (s : VmState) : VmCall → HvReturn × Globals × VcpuTable
  | .create config answer =>
      let after := hvVmCreate config answer s.g
      (after.1, after.2, s.slots)
  | .map addr ipa size answer =>
      let after := hvVmMap answer addr ipa size s.g
      (after.1, after.2, s.slots)
  | .unmap ipa size answer =>
      let after := hvVmUnmap answer ipa size s.g
      (after.1, after.2, s.slots)
  | .destroy answer => hvVmDestroy answer s.g s.slots

def effect (space : PageSpace) : VmCall → PageSpace
  | .create _ _ => space
  | .map addr ipa size _ => Regions.assign space (PageOf ipa size) (some ⟨addr, ipa, size⟩)
  | .unmap ipa size _ => Regions.assign space (PageOf ipa size) none
  | .destroy _ => fun _ => none

/-- The kernel accepts whole pages only, to map free ones and to unmap mapped
ones. -/
def Admitted (space : PageSpace) : VmCall → Prop
  | .map _ ipa size _ =>
      ipa.toNat % pageSize = 0 ∧ ipa.toNat + size.toNat ≤ 2 ^ 64 ∧
        ∀ page, PageOf ipa size page → space page = none
  | .unmap ipa size _ =>
      ipa.toNat % pageSize = 0 ∧ ipa.toNat + size.toNat ≤ 2 ^ 64 ∧
        ∀ page, PageOf ipa size page → space page ≠ none
  | .create _ _ | .destroy _ => True

end VmCall

def VmState.step (s : VmState) (call : VmCall) : Option VmState :=
  let answer := call.serve s
  some {
    g := answer.2.1
    slots := answer.2.2
    space := if answer.1 = hvSuccess then call.effect s.space else s.space }

def KernelAnswers (s : VmState) (call : VmCall) (_ : VmState) : Prop :=
  (call.serve s).1 = hvSuccess → call.Admitted s.space

/-! ## What the lookup owes -/

def RangeIn (space : PageSpace) (m : MapRecord) (ipa len : Word) : Prop :=
  0 < len.toNat ∧
    ∀ x, ipa.toNat ≤ x → x < ipa.toNat + len.toNat → space (x / pageSize) = some m

def RangeBroken (space : PageSpace) (ipa len : Word) : Prop :=
  ∃ x, ipa.toNat ≤ x ∧ x < ipa.toNat + len.toNat ∧ space (x / pageSize) = none

def LookupExact (s : VmState) : Prop :=
  ∀ ipa len : Word, ipa.toNat + len.toNat < 2 ^ 64 → len.toNat ≤ pageSize →
    (∀ m, RangeIn s.space m ipa len → ohvGuestPtr s.g.maps ipa len = some (m.host ipa)) ∧
    (RangeBroken s.space ipa len → ohvGuestPtr s.g.maps ipa len = none)

/-! ## When the record keeps up -/

def MapAccepted (answer : HvReturn) (ipa size : Word) (g : Globals) : Prop :=
  g.vmAlive = true ∧ size ≠ 0 ∧ size &&& 0x3fff = 0 ∧ ipa &&& 0x3ff = 0 ∧ answer = hvSuccess

instance (answer : HvReturn) (ipa size : Word) (g : Globals) :
    Decidable (MapAccepted answer ipa size g) :=
  inferInstanceAs (Decidable (_ ∧ _))

theorem mapOp_eq_success_iff (answer : HvReturn) (ipa size : Word) (g : Globals) :
    mapOp answer ipa size g = hvSuccess ↔ MapAccepted answer ipa size g := by
  have refused : hvNoDevice ≠ hvSuccess := by decide
  have malformed : hvBadArgument ≠ hvSuccess := by decide
  cases alive : g.vmAlive with
  | false => simp [mapOp, requireVm, MapAccepted, alive, refused]
  | true =>
      by_cases bad : size = 0 ∨ size &&& 0x3fff ≠ 0 ∨ ipa &&& 0x3ff ≠ 0
      · simp only [mapOp, requireVm, alive, if_true, ne_eq, not_true_eq_false, if_false, bad,
          malformed, false_iff]
        rintro ⟨-, size, whole, aligned, -⟩
        exact bad.elim size (Or.rec (fun odd => odd whole) fun odd => odd aligned)
      · simp only [mapOp, requireVm, alive, if_true, ne_eq, not_true_eq_false, if_false, bad,
          MapAccepted, true_and]
        obtain ⟨sized, whole, aligned⟩ : size ≠ 0 ∧ size &&& 0x3fff = 0 ∧ ipa &&& 0x3ff = 0 := by
          simpa only [not_or, not_not, ne_eq] using bad
        exact ⟨fun accepted => ⟨sized, whole, aligned, accepted⟩, fun all => all.2.2.2⟩

theorem MapAccepted.whole_pages {answer : HvReturn} {ipa size : Word} {g : Globals}
    (accepted : MapAccepted answer ipa size g) : 0 < size.toNat ∧ size.toNat % pageSize = 0 := by
  obtain ⟨-, sized, whole, -, -⟩ := accepted
  refine ⟨Nat.pos_of_ne_zero fun zero => sized (BitVec.eq_of_toNat_eq zero), ?_⟩
  have masked : size.toNat &&& 2 ^ 14 - 1 = 0 := congrArg BitVec.toNat whole
  rwa [Nat.and_two_pow_sub_one_eq_mod] at masked

/-- The calls the record follows: a map while a slot is free and the end of the
range is an address, an accepted unmap of exactly one region, a refused unmap at
no region's base, and the end of a VM with nothing mapped. -/
def VmCall.RecordKept (s : VmState) : VmCall → Prop
  | .create _ _ => True
  | .map addr ipa size answer =>
      addr ≠ 0 → MapAccepted answer ipa size s.g →
        s.g.maps.length < mapCapacity ∧ ipa.toNat + size.toNat < 2 ^ 64
  | .unmap ipa size answer =>
      if MapAccepted answer ipa size s.g then ∃ m ∈ s.g.maps, m.ipa = ipa ∧ m.size = size
      else ∀ m ∈ s.g.maps, m.ipa ≠ ipa
  | .destroy answer => s.g.vmAlive = true → answer = hvSuccess → s.g.maps = []

/-! ## What a call does -/

namespace VmState

variable {s : VmState}

theorem step_create (config : Option VmConfig) (answer : HvReturn) :
    ∃ g, s.step (.create config answer) = some { s with g } ∧ g.maps = s.g.maps ∧
      (s.g.vmAlive = true → g.vmAlive = true) := by
  refine ⟨(hvVmCreate config answer s.g).2, ?_, ?_⟩
  · simp only [step, VmCall.serve, VmCall.effect]
    exact congrArg some (congrArg (VmState.mk _ _) (ite_self _))
  · simp only [hvVmCreate]
    split_ifs with alive accepted
    · exact ⟨rfl, id⟩
    · exact ⟨rfl, fun _ => rfl⟩
    · exact ⟨rfl, id⟩

theorem serve_map_accepted {addr ipa size : Word} {answer : HvReturn} (present : addr ≠ 0)
    (accepted : MapAccepted answer ipa size s.g) :
    (VmCall.map addr ipa size answer).serve s =
      (hvSuccess, { s.g with maps := mapRemember s.g.maps addr ipa size }, s.slots) := by
  have success := (mapOp_eq_success_iff answer ipa size s.g).mpr accepted
  simp only [VmCall.serve, hvVmMap, present, if_false, success, if_true]

theorem step_map_accepted {addr ipa size : Word} {answer : HvReturn} (present : addr ≠ 0)
    (accepted : MapAccepted answer ipa size s.g) :
    s.step (.map addr ipa size answer) = some { s with
      g := { s.g with maps := mapRemember s.g.maps addr ipa size }
      space := Regions.assign s.space (PageOf ipa size) (some ⟨addr, ipa, size⟩) } := by
  simp only [step, serve_map_accepted present accepted, VmCall.effect, if_true]

theorem step_map_refused {addr ipa size : Word} {answer : HvReturn}
    (refused : addr ≠ 0 → ¬ MapAccepted answer ipa size s.g) :
    s.step (.map addr ipa size answer) = some s := by
  have malformed : hvBadArgument ≠ hvSuccess := by decide
  by_cases present : addr = 0
  · simp only [step, VmCall.serve, hvVmMap, present, if_true, malformed, if_false]
  · have failure := mt (mapOp_eq_success_iff answer ipa size s.g).mp (refused present)
    simp only [step, VmCall.serve, hvVmMap, present, if_false, failure]

theorem serve_unmap_accepted {ipa size : Word} {answer : HvReturn}
    (accepted : MapAccepted answer ipa size s.g) :
    (VmCall.unmap ipa size answer).serve s =
      (hvSuccess, { s.g with maps := mapForget s.g.maps ipa }, s.slots) := by
  have success := (mapOp_eq_success_iff answer ipa size
    { s.g with maps := mapForget s.g.maps ipa }).mpr accepted
  simp only [VmCall.serve, hvVmUnmap, success]

theorem step_unmap_accepted {ipa size : Word} {answer : HvReturn}
    (accepted : MapAccepted answer ipa size s.g) :
    s.step (.unmap ipa size answer) = some { s with
      g := { s.g with maps := mapForget s.g.maps ipa }
      space := Regions.assign s.space (PageOf ipa size) none } := by
  simp only [step, serve_unmap_accepted accepted, VmCall.effect, if_true]

theorem step_unmap_refused {ipa size : Word} {answer : HvReturn}
    (refused : ¬ MapAccepted answer ipa size s.g) :
    s.step (.unmap ipa size answer) = some { s with
      g := { s.g with maps := mapForget s.g.maps ipa } } := by
  have failure := mt (mapOp_eq_success_iff answer ipa size
    { s.g with maps := mapForget s.g.maps ipa }).mp refused
  simp only [step, VmCall.serve, hvVmUnmap, failure, if_false]

theorem step_destroy_accepted (alive : s.g.vmAlive = true) :
    s.step (.destroy hvSuccess) = some {
      g := { s.g with vmAlive := false, gic := none }
      slots := fun _ => {}
      space := fun _ => none } := by
  simp only [step, VmCall.serve, VmCall.effect, hvVmDestroy, alive, Bool.true_eq_false, if_false,
    if_true]

theorem step_destroy_refused {answer : HvReturn}
    (refused : s.g.vmAlive = true → answer ≠ hvSuccess) : s.step (.destroy answer) = some s := by
  have absent : hvNoDevice ≠ hvSuccess := by decide
  cases alive : s.g.vmAlive with
  | false => simp only [step, VmCall.serve, hvVmDestroy, alive, if_true, absent, if_false]
  | true =>
      simp only [step, VmCall.serve, hvVmDestroy, alive, Bool.true_eq_false, refused alive, if_false]

end VmState

/-! ## Pages and bytes -/

/-- A record of whole pages that ends below the end of the address space. -/
structure MapRecord.Whole (m : MapRecord) : Prop where
  base : m.ipa.toNat % pageSize = 0
  pages : m.size.toNat % pageSize = 0
  nonempty : 0 < m.size.toNat
  ends : m.ipa.toNat + m.size.toNat < 2 ^ 64

theorem pageOf_byte {ipa size : Word} (base : ipa.toNat % pageSize = 0)
    (pages : size.toNat % pageSize = 0) (x : Nat) :
    PageOf ipa size (x / pageSize) ↔ ipa.toNat ≤ x ∧ x < ipa.toNat + size.toNat := by
  simp only [PageOf, pageSize] at *
  omega

theorem MapRecord.Whole.extent_byte {m : MapRecord} (whole : m.Whole) (x : Nat) :
    m.Extent (x / pageSize) ↔ m.ipa.toNat ≤ x ∧ x < m.ipa.toNat + m.size.toNat :=
  pageOf_byte whole.base whole.pages x

theorem MapRecord.covers_iff {m : MapRecord} {ipa len : Word}
    (ends : m.ipa.toNat + m.size.toNat < 2 ^ 64) (fits : ipa.toNat + len.toNat < 2 ^ 64) :
    m.covers ipa len = true ↔
      m.ipa.toNat ≤ ipa.toNat ∧ ipa.toNat + len.toNat ≤ m.ipa.toNat + m.size.toNat := by
  simp only [MapRecord.covers, Bool.and_eq_true, decide_eq_true_eq, BitVec.le_def, BitVec.toNat_add,
    Nat.mod_eq_of_lt ends, Nat.mod_eq_of_lt fits]

/-- A region that reaches the end of the address space ends at 0. -/
theorem MapRecord.covers_wrapped {m : MapRecord} {ipa len : Word}
    (wraps : m.ipa.toNat + m.size.toNat = 2 ^ 64) (some : 0 < len.toNat)
    (fits : ipa.toNat + len.toNat < 2 ^ 64) : m.covers ipa len = false := by
  simp only [MapRecord.covers, Bool.and_eq_false_iff, decide_eq_false_iff_not, BitVec.le_def,
    BitVec.toNat_add, wraps, Nat.mod_self, Nat.mod_eq_of_lt fits]
  omega

/-! ## The invariant -/

/-- The record and the kernel's pages are the same. -/
structure VmState.Mirrored (s : VmState) : Prop where
  mirrors : Regions.Mirrors MapRecord.Extent s.g.maps s.space
  whole : ∀ m ∈ s.g.maps, m.Whole
  room : s.g.maps.length ≤ mapCapacity
  gone : s.g.vmAlive = false → s.g.maps = []

namespace VmState.Mirrored

variable {s : VmState}

theorem byte (mirrored : s.Mirrored) {m : MapRecord} (member : m ∈ s.g.maps) {x : Nat}
    (low : m.ipa.toNat ≤ x) (high : x < m.ipa.toNat + m.size.toNat) :
    s.space (x / pageSize) = some m :=
  mirrored.mirrors.held m member _ (((mirrored.whole m member).extent_byte x).mpr ⟨low, high⟩)

theorem owns (mirrored : s.Mirrored) {m : MapRecord} (member : m ∈ s.g.maps) {ipa len : Word}
    (fits : ipa.toNat + len.toNat < 2 ^ 64) (covered : m.covers ipa len = true) {x : Nat}
    (low : ipa.toNat ≤ x) (high : x < ipa.toNat + len.toNat) :
    s.space (x / pageSize) = some m := by
  obtain ⟨before, after⟩ := (MapRecord.covers_iff (mirrored.whole m member).ends fits).mp covered
  exact mirrored.byte member (Nat.le_trans before low) (Nat.lt_of_lt_of_le high after)

theorem lookupExact (mirrored : s.Mirrored) : LookupExact s := by
  intro ipa len fits _
  constructor
  · rintro m ⟨some, owned⟩
    have first := owned ipa.toNat (Nat.le_refl _) (by omega)
    have last := owned (ipa.toNat + len.toNat - 1) (by omega) (by omega)
    obtain ⟨member, start⟩ := mirrored.mirrors.listed _ m first
    have start := ((mirrored.whole m member).extent_byte _).mp start
    have finish := ((mirrored.whole m member).extent_byte _).mp (mirrored.mirrors.listed _ m last).2
    have covered : m.covers ipa len = true :=
      (MapRecord.covers_iff (mirrored.whole m member).ends fits).mpr ⟨start.1, by omega⟩
    cases found : ohvGuestPtr s.g.maps ipa len with
    | none =>
        have missed := (ohvGuestPtr_eq_none_iff s.g.maps ipa len).mp found m member
        rw [covered] at missed
        cases missed
    | some host =>
        obtain ⟨other, listed, hit, rfl⟩ := ohvGuestPtr_eq_some s.g.maps ipa len host found
        have same := mirrored.owns listed fits hit (Nat.le_refl _) (by omega)
        rw [first] at same
        rw [Option.some.inj same]
  · rintro ⟨x, low, high, free⟩
    refine (ohvGuestPtr_eq_none_iff s.g.maps ipa len).mpr fun m member => ?_
    cases hit : m.covers ipa len with
    | false => rfl
    | true =>
        rw [mirrored.owns member fits hit low high] at free
        cases free

end VmState.Mirrored

/-! ## The record under the calls -/

theorem findIdx?_base_eq_none_iff (maps : List MapRecord) (ipa : Word) :
    maps.findIdx? (fun m => m.ipa == ipa) = none ↔ ∀ m ∈ maps, m.ipa ≠ ipa := by
  simp [List.findIdx?_eq_none_iff]

theorem mapRemember_of_absent {maps : List MapRecord} {ipa : Word}
    (absent : ∀ m ∈ maps, m.ipa ≠ ipa) (uva size : Word) :
    mapRemember maps uva ipa size =
      if maps.length < mapCapacity then maps ++ [⟨uva, ipa, size⟩] else maps := by
  simp only [mapRemember, (findIdx?_base_eq_none_iff maps ipa).mpr absent]

theorem mapForget_of_absent {maps : List MapRecord} {ipa : Word}
    (absent : ∀ m ∈ maps, m.ipa ≠ ipa) : mapForget maps ipa = maps := by
  simp only [mapForget, (findIdx?_base_eq_none_iff maps ipa).mpr absent]

/-- A record of the base is dropped, and no other. -/
theorem mapForget_perm {maps : List MapRecord} {m : MapRecord} (member : m ∈ maps) :
    ∃ dropped ∈ maps, dropped.ipa = m.ipa ∧ maps.Perm (dropped :: mapForget maps m.ipa) := by
  cases search : maps.findIdx? (fun other => other.ipa == m.ipa) with
  | none => exact absurd rfl ((findIdx?_base_eq_none_iff maps m.ipa).mp search m member)
  | some i =>
      obtain ⟨inside, same, -⟩ := List.findIdx?_eq_some_iff_getElem.mp search
      obtain ⟨last, tail⟩ : ∃ last, maps.getLast? = some last :=
        ⟨_, List.getLast?_eq_some_getLast (List.ne_nil_of_mem member)⟩
      refine ⟨maps[i], List.getElem_mem inside, beq_iff_eq.mp same, ?_⟩
      simp only [mapForget, search, tail]
      exact Regions.swap_remove_perm inside tail

namespace VmState.Mirrored

variable {s : VmState}

theorem base_unique (mirrored : s.Mirrored) {first second : MapRecord} (left : first ∈ s.g.maps)
    (right : second ∈ s.g.maps) (same : first.ipa = second.ipa) : first = second := by
  have one := mirrored.byte left (Nat.le_refl _)
    (Nat.lt_add_of_pos_right (mirrored.whole first left).nonempty)
  have two := mirrored.byte right (Nat.le_refl _)
    (Nat.lt_add_of_pos_right (mirrored.whole second right).nonempty)
  rw [← same, one] at two
  exact Option.some.inj two

theorem forget_perm (mirrored : s.Mirrored) {m : MapRecord} (member : m ∈ s.g.maps) :
    s.g.maps.Perm (m :: mapForget s.g.maps m.ipa) := by
  obtain ⟨dropped, listed, same, split⟩ := mapForget_perm member
  exact mirrored.base_unique listed member same ▸ split

/-- The record of the base goes, and no other. -/
theorem mem_forget_iff (mirrored : s.Mirrored) (m : MapRecord) (ipa : Word) :
    m ∈ mapForget s.g.maps ipa ↔ m ∈ s.g.maps ∧ m.ipa ≠ ipa := by
  by_cases absent : ∀ m ∈ s.g.maps, m.ipa ≠ ipa
  · rw [mapForget_of_absent absent]
    exact ⟨fun member => ⟨member, absent m member⟩, And.left⟩
  · obtain ⟨gone, listed, rfl⟩ : ∃ gone ∈ s.g.maps, gone.ipa = ipa := by
      simpa only [not_forall, not_not, exists_prop] using absent
    have split := mirrored.forget_perm listed
    have new := (List.nodup_cons.mp (split.nodup_iff.mp mirrored.mirrors.distinct)).1
    rw [split.mem_iff, List.mem_cons]
    constructor
    · intro stays
      have old : m ∈ s.g.maps := split.mem_iff.mpr (List.mem_cons_of_mem gone stays)
      exact ⟨Or.inr stays, fun same => new (mirrored.base_unique old listed same ▸ stays)⟩
    · rintro ⟨rfl | stays, other⟩
      · exact absurd rfl other
      · exact stays

/-! ## The calls the record follows -/

theorem create {g : Globals} (mirrored : s.Mirrored) (same : g.maps = s.g.maps)
    (alive : s.g.vmAlive = true → g.vmAlive = true) : VmState.Mirrored { s with g } where
  mirrors := by simpa only [same] using mirrored.mirrors
  whole := by simpa only [same] using mirrored.whole
  room := by simpa only [same] using mirrored.room
  gone := fun dead => by
    rw [same]
    refine mirrored.gone (Bool.eq_false_iff.mpr fun running => ?_)
    rw [alive running] at dead
    cases dead

theorem base_absent (mirrored : s.Mirrored) {ipa size : Word} (base : ipa.toNat % pageSize = 0)
    (sized : 0 < size.toNat) (pages : size.toNat % pageSize = 0)
    (free : ∀ page, PageOf ipa size page → s.space page = none) :
    ∀ m ∈ s.g.maps, m.ipa ≠ ipa := by
  rintro m member rfl
  have owned := mirrored.byte member (Nat.le_refl _)
    (Nat.lt_add_of_pos_right (mirrored.whole m member).nonempty)
  rw [free _ ((pageOf_byte base pages _).mpr ⟨Nat.le_refl _, Nat.lt_add_of_pos_right sized⟩)] at owned
  cases owned

theorem map (mirrored : s.Mirrored) {addr ipa size : Word} {answer : HvReturn}
    (accepted : MapAccepted answer ipa size s.g)
    (admitted : (VmCall.map addr ipa size answer).Admitted s.space)
    (room : s.g.maps.length < mapCapacity) (ends : ipa.toNat + size.toNat < 2 ^ 64) :
    VmState.Mirrored { s with
      g := { s.g with maps := mapRemember s.g.maps addr ipa size }
      space := Regions.assign s.space (PageOf ipa size) (some ⟨addr, ipa, size⟩) } := by
  obtain ⟨base, -, free⟩ := admitted
  obtain ⟨sized, pages⟩ := accepted.whole_pages
  have remembered : mapRemember s.g.maps addr ipa size = s.g.maps ++ [⟨addr, ipa, size⟩] := by
    rw [mapRemember_of_absent (mirrored.base_absent base sized pages free), if_pos room]
  rw [remembered]
  have first : PageOf ipa size (ipa.toNat / pageSize) :=
    (pageOf_byte base pages _).mpr ⟨Nat.le_refl _, Nat.lt_add_of_pos_right sized⟩
  refine ⟨mirrored.mirrors.add ⟨addr, ipa, size⟩ first free, ?_, ?_, ?_⟩
  · intro m member
    obtain old | new := List.mem_append.mp member
    · exact mirrored.whole m old
    · rw [List.mem_singleton.mp new]
      exact ⟨base, pages, sized, ends⟩
  · rw [List.length_append]
    exact room
  · intro dead
    rw [accepted.1] at dead
    cases dead

theorem unmap (mirrored : s.Mirrored) {m : MapRecord} (member : m ∈ s.g.maps) :
    VmState.Mirrored { s with
      g := { s.g with maps := mapForget s.g.maps m.ipa }
      space := Regions.assign s.space (PageOf m.ipa m.size) none } := by
  have split := mirrored.forget_perm member
  refine ⟨mirrored.mirrors.remove m split, ?_, ?_, ?_⟩
  · exact fun other stays => mirrored.whole other ((mirrored.mem_forget_iff other m.ipa).mp stays).1
  · have shorter := split.length_eq
    rw [List.length_cons] at shorter
    exact Nat.le_trans (Nat.le_of_succ_le (Nat.le_of_eq shorter.symm)) mirrored.room
  · intro dead
    rw [mirrored.gone dead] at member
    cases member

theorem destroyed (mirrored : s.Mirrored) (empty : s.g.maps = []) :
    VmState.Mirrored {
      g := { s.g with vmAlive := false, gic := none }
      slots := fun _ => {}
      space := fun _ => none } where
  mirrors := by simpa only [empty] using Regions.Mirrors.empty MapRecord.Extent
  whole := mirrored.whole
  room := mirrored.room
  gone := fun _ => empty

theorem step (mirrored : s.Mirrored) {call : VmCall} {next : VmState}
    (taken : s.step call = some next) (answered : KernelAnswers s call next)
    (kept : call.RecordKept s) : next.Mirrored := by
  cases call with
  | create config answer =>
      obtain ⟨g, run, same, alive⟩ := VmState.step_create (s := s) config answer
      rw [run] at taken
      exact Option.some.inj taken ▸ mirrored.create same alive
  | map addr ipa size answer =>
      by_cases passes : addr ≠ 0 ∧ MapAccepted answer ipa size s.g
      · obtain ⟨present, accepted⟩ := passes
        obtain ⟨room, ends⟩ := kept present accepted
        have admitted := answered (congrArg Prod.fst (VmState.serve_map_accepted present accepted))
        rw [VmState.step_map_accepted present accepted] at taken
        exact Option.some.inj taken ▸ mirrored.map accepted admitted room ends
      · rw [VmState.step_map_refused fun present accepted => passes ⟨present, accepted⟩] at taken
        exact Option.some.inj taken ▸ mirrored
  | unmap ipa size answer =>
      by_cases accepted : MapAccepted answer ipa size s.g
      · obtain ⟨m, member, rfl, rfl⟩ := (if_pos accepted).mp kept
        rw [VmState.step_unmap_accepted accepted] at taken
        exact Option.some.inj taken ▸ mirrored.unmap member
      · have absent := (if_neg accepted).mp kept
        rw [VmState.step_unmap_refused accepted, mapForget_of_absent absent] at taken
        exact Option.some.inj taken ▸ mirrored
  | destroy answer =>
      by_cases accepted : s.g.vmAlive = true ∧ answer = hvSuccess
      · obtain ⟨alive, rfl⟩ := accepted
        rw [VmState.step_destroy_accepted alive] at taken
        exact Option.some.inj taken ▸ mirrored.destroyed (kept alive rfl)
      · rw [VmState.step_destroy_refused fun alive success => accepted ⟨alive, success⟩] at taken
        exact Option.some.inj taken ▸ mirrored

end VmState.Mirrored

/-! ## The calls it loses -/

theorem toNat_byte {x : Nat} (inside : x + 1 < 2 ^ 64) : (BitVec.ofNat 64 x).toNat = x :=
  Nat.mod_eq_of_lt (Nat.lt_of_succ_lt inside)

theorem byte_fits {x : Nat} (inside : x + 1 < 2 ^ 64) :
    (BitVec.ofNat 64 x).toNat + (1 : Word).toNat < 2 ^ 64 := by
  rw [toNat_byte inside]
  exact inside

theorem not_lookupExact_of_stale {t : VmState} {m : MapRecord} (member : m ∈ t.g.maps)
    (whole : m.Whole) {x : Nat} (low : m.ipa.toNat ≤ x) (high : x < m.ipa.toNat + m.size.toNat)
    (free : t.space (x / pageSize) = none) : ¬ LookupExact t := by
  intro exact
  have inside : x + 1 < 2 ^ 64 := Nat.lt_of_le_of_lt high whole.ends
  have named := toNat_byte inside
  have silent := (exact (BitVec.ofNat 64 x) 1 (byte_fits inside) (by decide)).2
    ⟨x, Nat.le_of_eq named, by rw [named]; exact Nat.lt_succ_self x, free⟩
  have missed := (ohvGuestPtr_eq_none_iff _ _ _).mp silent m member
  rw [(MapRecord.covers_iff whole.ends (byte_fits inside)).mpr
    (by rw [named]; exact ⟨low, high⟩)] at missed
  cases missed

theorem not_lookupExact_of_missed {t : VmState} {m : MapRecord} {x : Nat} (inside : x + 1 < 2 ^ 64)
    (owned : t.space (x / pageSize) = some m)
    (missed : ∀ r ∈ t.g.maps, r.covers (BitVec.ofNat 64 x) 1 = false) : ¬ LookupExact t := by
  intro exact
  have found := (exact (BitVec.ofNat 64 x) 1 (byte_fits inside) (by decide)).1 m
    ⟨Nat.one_pos, fun y low high => by
      rw [toNat_byte inside] at low high
      rw [Nat.le_antisymm (Nat.le_of_lt_succ high) low]
      exact owned⟩
  rw [(ohvGuestPtr_eq_none_iff _ _ _).mpr missed] at found
  cases found

namespace VmState.Mirrored

variable {s : VmState}

theorem covered_byte (mirrored : s.Mirrored) {r : MapRecord} {x : Nat} (inside : x + 1 < 2 ^ 64)
    (member : r ∈ s.g.maps) (covered : r.covers (BitVec.ofNat 64 x) 1 = true) :
    s.space (x / pageSize) = some r :=
  mirrored.owns member (byte_fits inside) covered (Nat.le_of_eq (toNat_byte inside))
    (by rw [toNat_byte inside]; exact Nat.lt_succ_self x)

theorem region (mirrored : s.Mirrored) {x : Nat} (mapped : s.space (x / pageSize) ≠ none) :
    ∃ m ∈ s.g.maps, s.space (x / pageSize) = some m ∧
      m.ipa.toNat ≤ x ∧ x < m.ipa.toNat + m.size.toNat := by
  obtain ⟨m, owned⟩ := Option.ne_none_iff_exists'.mp mapped
  obtain ⟨member, extent⟩ := mirrored.mirrors.listed _ m owned
  exact ⟨m, member, owned, ((mirrored.whole m member).extent_byte x).mp extent⟩

/-- Accepted and not recorded, or recorded with an end that wraps. -/
theorem lost_map (mirrored : s.Mirrored) {addr ipa size : Word} {answer : HvReturn}
    (accepted : MapAccepted answer ipa size s.g)
    (admitted : (VmCall.map addr ipa size answer).Admitted s.space)
    (lost : ¬ (s.g.maps.length < mapCapacity ∧ ipa.toNat + size.toNat < 2 ^ 64)) :
    ¬ LookupExact { s with
      g := { s.g with maps := mapRemember s.g.maps addr ipa size }
      space := Regions.assign s.space (PageOf ipa size) (some ⟨addr, ipa, size⟩) } := by
  obtain ⟨base, ends, free⟩ := admitted
  obtain ⟨sized, pages⟩ := accepted.whole_pages
  have inside : ipa.toNat + 1 < 2 ^ 64 := by
    simp only [pageSize] at pages
    omega
  have first : PageOf ipa size (ipa.toNat / pageSize) :=
    (pageOf_byte base pages _).mpr ⟨Nat.le_refl _, Nat.lt_add_of_pos_right sized⟩
  refine not_lookupExact_of_missed inside (Regions.assign_inside _ _ _ _ first) fun r member => ?_
  have old : r ∈ s.g.maps → r.covers (BitVec.ofNat 64 ipa.toNat) 1 = false := fun listed => by
    refine Bool.eq_false_iff.mpr fun covered => ?_
    have owned := mirrored.covered_byte inside listed covered
    rw [free _ first] at owned
    cases owned
  rw [mapRemember_of_absent (mirrored.base_absent base sized pages free)] at member
  split_ifs at member with room
  · obtain listed | new := List.mem_append.mp member
    · exact old listed
    · rw [List.mem_singleton.mp new]
      have wraps : ipa.toNat + size.toNat = 2 ^ 64 := by
        have reached : ¬ ipa.toNat + size.toNat < 2 ^ 64 := fun below => lost ⟨room, below⟩
        omega
      exact MapRecord.covers_wrapped wraps Nat.one_pos (byte_fits inside)
  · exact old member

/-- A record that goes while a byte of its region is still mapped. -/
theorem lost_forget (mirrored : s.Mirrored) {m : MapRecord} (member : m ∈ s.g.maps) {x : Nat}
    (low : m.ipa.toNat ≤ x) (high : x < m.ipa.toNat + m.size.toNat) {space : PageSpace}
    (still : space (x / pageSize) = some m) :
    ¬ LookupExact { s with g := { s.g with maps := mapForget s.g.maps m.ipa }, space } := by
  have inside : x + 1 < 2 ^ 64 := Nat.lt_of_le_of_lt high (mirrored.whole m member).ends
  refine not_lookupExact_of_missed inside still fun r stays => Bool.eq_false_iff.mpr fun covered => ?_
  obtain ⟨listed, other⟩ := (mirrored.mem_forget_iff r m.ipa).mp stays
  have owned := mirrored.covered_byte inside listed covered
  rw [mirrored.byte member low high] at owned
  exact other (congrArg MapRecord.ipa (Option.some.inj owned)).symm

/-- A region of another base that an unmap takes pages of. -/
theorem lost_neighbour (mirrored : s.Mirrored) {m : MapRecord} (member : m ∈ s.g.maps)
    {ipa : Word} (other : m.ipa ≠ ipa) {x : Nat} (low : m.ipa.toNat ≤ x)
    (high : x < m.ipa.toNat + m.size.toNat) {space : PageSpace}
    (free : space (x / pageSize) = none) :
    ¬ LookupExact { s with g := { s.g with maps := mapForget s.g.maps ipa }, space } :=
  not_lookupExact_of_stale (m := m) ((mirrored.mem_forget_iff m ipa).mpr ⟨member, other⟩)
    (mirrored.whole m member) low high free

theorem lost_unmap (mirrored : s.Mirrored) {ipa size : Word} {answer : HvReturn}
    (accepted : MapAccepted answer ipa size s.g)
    (admitted : (VmCall.unmap ipa size answer).Admitted s.space)
    (lost : ¬ ∃ m ∈ s.g.maps, m.ipa = ipa ∧ m.size = size) :
    ¬ LookupExact { s with
      g := { s.g with maps := mapForget s.g.maps ipa }
      space := Regions.assign s.space (PageOf ipa size) none } := by
  obtain ⟨base, -, mapped⟩ := admitted
  obtain ⟨sized, pages⟩ := accepted.whole_pages
  have taken : ∀ x, ipa.toNat ≤ x → x < ipa.toNat + size.toNat →
      s.space (x / pageSize) ≠ none ∧
        Regions.assign s.space (PageOf ipa size) none (x / pageSize) = none := fun x low high =>
    have inside := (pageOf_byte base pages x).mpr ⟨low, high⟩
    ⟨mapped _ inside, Regions.assign_inside _ _ _ _ inside⟩
  have start := taken ipa.toNat (Nat.le_refl _) (Nat.lt_add_of_pos_right sized)
  obtain ⟨m, member, owned, low, high⟩ := mirrored.region start.1
  by_cases same : m.ipa = ipa
  · subst same
    have differs : m.size.toNat ≠ size.toNat := fun equal =>
      lost ⟨m, member, rfl, BitVec.eq_of_toNat_eq equal⟩
    have positive := (mirrored.whole m member).nonempty
    obtain shorter | longer := Nat.lt_or_gt_of_ne differs
    · -- the pages after the region are of another one, whose record stays
      have next := taken (m.ipa.toNat + m.size.toNat) (by omega) (by omega)
      obtain ⟨second, listed, -, from', upto⟩ := mirrored.region next.1
      refine mirrored.lost_neighbour listed (fun equal => ?_) from' upto next.2
      have one := mirrored.base_unique listed member equal
      rw [one] at upto
      omega
    · have outside : ¬ PageOf m.ipa size ((m.ipa.toNat + size.toNat) / pageSize) := fun inside =>
        absurd ((pageOf_byte base pages _).mp inside).2 (Nat.lt_irrefl _)
      refine mirrored.lost_forget member (x := m.ipa.toNat + size.toNat) (by omega) (by omega) ?_
      rw [Regions.assign_outside _ _ _ _ outside]
      exact mirrored.byte member (by omega) (by omega)
  · exact mirrored.lost_neighbour member same low high start.2

theorem lost_destroy (mirrored : s.Mirrored) (lost : s.g.maps ≠ []) :
    ¬ LookupExact {
      g := { s.g with vmAlive := false, gic := none }
      slots := fun _ => {}
      space := fun _ => none } := by
  obtain ⟨m, member⟩ := List.exists_mem_of_ne_nil _ lost
  exact not_lookupExact_of_stale (m := m) member (mirrored.whole m member) (Nat.le_refl _)
    (Nat.lt_add_of_pos_right (mirrored.whole m member).nonempty) rfl

theorem lost (mirrored : s.Mirrored) {call : VmCall} {next : VmState}
    (taken : s.step call = some next) (answered : KernelAnswers s call next)
    (exact : LookupExact next) : call.RecordKept s := by
  cases call with
  | create config answer => trivial
  | map addr ipa size answer =>
      intro present accepted
      have admitted := answered (congrArg Prod.fst (VmState.serve_map_accepted present accepted))
      rw [VmState.step_map_accepted present accepted] at taken
      rw [← Option.some.inj taken] at exact
      exact by_contra fun lost => mirrored.lost_map accepted admitted lost exact
  | unmap ipa size answer =>
      by_cases accepted : MapAccepted answer ipa size s.g
      · have admitted := answered (congrArg Prod.fst (VmState.serve_unmap_accepted accepted))
        rw [VmState.step_unmap_accepted accepted] at taken
        rw [← Option.some.inj taken] at exact
        exact (if_pos accepted).mpr
          (by_contra fun lost => mirrored.lost_unmap accepted admitted lost exact)
      · rw [VmState.step_unmap_refused accepted] at taken
        rw [← Option.some.inj taken] at exact
        refine (if_neg accepted).mpr ?_
        rintro m member rfl
        have high := Nat.lt_add_of_pos_right (n := m.ipa.toNat) (mirrored.whole m member).nonempty
        exact mirrored.lost_forget member (Nat.le_refl _) high
          (mirrored.byte member (Nat.le_refl _) high) exact
  | destroy answer =>
      rintro alive rfl
      rw [VmState.step_destroy_accepted alive] at taken
      rw [← Option.some.inj taken] at exact
      exact by_contra fun lost => mirrored.lost_destroy lost exact

end VmState.Mirrored

/-! ## Whole histories -/

theorem VmState.mirrored_start : VmState.Mirrored {} where
  mirrors := Regions.Mirrors.empty MapRecord.Extent
  whole := nofun
  room := Nat.zero_le _
  gone := fun _ => rfl

/-- From the start of the process the record says what the kernel has mapped
after every call if and only if it follows every call. -/
theorem mapRecord_exact_iff (calls : List VmCall)
    (answered : Runs.Along VmState.step KernelAnswers {} calls) :
    Runs.Along VmState.step (fun _ _ after => LookupExact after) {} calls ↔
      Runs.Along VmState.step (fun before call _ => call.RecordKept before) {} calls := by
  have agree : ∀ s call next, VmState.step s call = some next → KernelAnswers s call next →
      s.Mirrored → (LookupExact next ↔ call.RecordKept s) :=
    fun _ _ _ taken admitted mirrored => ⟨mirrored.lost taken admitted,
      fun kept => (mirrored.step taken admitted kept).lookupExact⟩
  have preserved : ∀ s call next, VmState.step s call = some next → KernelAnswers s call next →
      call.RecordKept s → s.Mirrored → next.Mirrored :=
    fun _ _ _ taken admitted kept mirrored => mirrored.step taken admitted kept
  exact Runs.along_iff_of_step VmState.Mirrored agree preserved answered VmState.mirrored_start

/-- The memory calls of the smoke test. -/
def smokeCalls : List VmCall :=
  [.create (some { el2Enabled := true }) hvSuccess, .map 0x10000 0x1000000 0x100000 hvSuccess,
    .unmap 0x1000000 0x100000 hvSuccess, .map 0x10000 0x1000000 0x100000 hvSuccess]

theorem mapRecord_exact_smoke :
    Runs.Along VmState.step KernelAnswers {} smokeCalls ∧
      Runs.Along VmState.step (fun _ _ after => LookupExact after) {} smokeCalls := by
  have mapped : ∀ page, PageOf 0x1000000 0x100000 page →
      Regions.assign (fun _ => none) (PageOf 0x1000000 0x100000)
        (some (MapRecord.mk 0x10000 0x1000000 0x100000)) page ≠ none := fun page inside => by
    rw [Regions.assign_inside _ _ _ _ inside]
    exact Option.some_ne_none _
  have answered : Runs.Along VmState.step KernelAnswers {} smokeCalls := by
    refine (Runs.Along.cons_of_step rfl).mpr ⟨fun _ => trivial, ?_⟩
    refine (Runs.Along.cons_of_step rfl).mpr ⟨fun _ => ⟨by decide, by decide, fun _ _ => rfl⟩, ?_⟩
    refine (Runs.Along.cons_of_step rfl).mpr ⟨fun _ => ⟨by decide, by decide, mapped⟩, ?_⟩
    exact (Runs.Along.cons_of_step rfl).mpr ⟨fun _ => ⟨by decide, by decide,
      fun page inside => Regions.assign_inside _ _ none page inside⟩, trivial⟩
  refine ⟨answered, (mapRecord_exact_iff smokeCalls answered).mpr ?_⟩
  refine (Runs.Along.cons_of_step rfl).mpr ⟨trivial, ?_⟩
  refine (Runs.Along.cons_of_step rfl).mpr ⟨fun _ _ => ⟨by decide, by decide⟩, ?_⟩
  refine (Runs.Along.cons_of_step rfl).mpr ⟨⟨_, List.mem_cons_self, rfl, rfl⟩, ?_⟩
  exact (Runs.Along.cons_of_step rfl).mpr ⟨fun _ _ => ⟨by decide, by decide⟩, trivial⟩

/-- A VM that ends with its memory still mapped leaves the record to the next. -/
def secondVmCalls : List VmCall :=
  [.create none hvSuccess, .map 0x10000 0x1000000 0x100000 hvSuccess, .destroy hvSuccess,
    .create none hvSuccess]

theorem record_outlives_vm : ∃ t,
    Runs.Along VmState.step KernelAnswers {} secondVmCalls ∧
    Runs.runFrom VmState.step {} secondVmCalls = some t ∧ t.space = (fun _ => none) ∧
    ohvGuestPtr t.g.maps 0x1000000 4 = some 0x10000 ∧ ¬ LookupExact t := by
  refine ⟨_, ?_, rfl, rfl, by decide, fun exact => ?_⟩
  · refine (Runs.Along.cons_of_step rfl).mpr ⟨fun _ => trivial, ?_⟩
    refine (Runs.Along.cons_of_step rfl).mpr ⟨fun _ => ⟨by decide, by decide, fun _ _ => rfl⟩, ?_⟩
    refine (Runs.Along.cons_of_step rfl).mpr ⟨fun _ => trivial, ?_⟩
    exact (Runs.Along.cons_of_step rfl).mpr ⟨fun _ => trivial, trivial⟩
  · have silent := (exact 0x1000000 4 (by decide) (by decide)).2 ⟨0x1000000, by decide, by decide, rfl⟩
    exact absurd silent (by decide)

end OpenHypervisor
