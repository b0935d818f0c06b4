import Mathlib.Data.List.Pairwise
import OpenHypervisor.Registers
import OpenHypervisor.Library.Cells

/-!
# The system registers as a store

Every encoding of the tables lives in one place: a word of the page, an entry of
the shadow, or an ID register of the slot.  A read answers what the place holds
and a write changes that place alone, so that registers do not alias and a write
is read back.  The breakpoint and watchpoint registers have no place at all.
-/

set_option autoImplicit false

namespace OpenHypervisor

inductive RegPlace where
  | page (off : Nat)
  | shadow (i : Nat)
  | id (slot : Nat)
  deriving DecidableEq

def SysRegDesc.place (d : SysRegDesc) : Option RegPlace :=
  match d.kind with
  | .roId => (ohvIdSlot d.encoding).map .id
  | .shadow => some (.shadow d.index)
  | _ => d.region.map fun base => .page (base + d.index * 8)

def sysRegTables : List SysRegDesc := kAppleTable ++ kEl2Table ++ kTable

/-! ## What the tables say -/

theorem places_nodup : (sysRegTables.filterMap SysRegDesc.place).Nodup := by
  decide +kernel

theorem place_injective (d d' : SysRegDesc) (listed : d ∈ sysRegTables)
    (listed' : d' ∈ sysRegTables) (other : d.encoding ≠ d'.encoding) (p : RegPlace)
    (here : d.place = some p) : d'.place ≠ some p := by
  intro there
  have different : d ≠ d' := fun same => other (congrArg SysRegDesc.encoding same)
  have apart := List.pairwise_filterMap.mp places_nodup
  have symmetric : Std.Symm fun d d' : SysRegDesc =>
      ∀ p, d.place = some p → ∀ p', d'.place = some p' → p ≠ p' :=
    ⟨fun _ _ apart p here p' there same => apart p' there p here same.symm⟩
  exact apart.forall listed listed' different p here p there rfl

/-- The words a register call writes besides the register: the flags of the
dirty state, and the two keys of the guest. -/
def Bookkeeping (off : Nat) : Prop :=
  off = ohvRwStateDirty ∨ off = ohvRwControls + 0x70 ∨ off = ohvRwControls + 0x78

instance (off : Nat) : Decidable (Bookkeeping off) := inferInstanceAs (Decidable (_ ∨ _))

/-- A place on the page lies past the general registers and before the kernel's
half, clear of the bookkeeping. -/
theorem place_page (d : SysRegDesc) (listed : d ∈ sysRegTables) (base : Nat)
    (region : d.region = some base) :
    ohvRwSharedSysregs ≤ base + d.index * 8 ∧ base + d.index * 8 < ohvRoVer ∧
      ¬ Bookkeeping (base + d.index * 8) := by
  have checked : ∀ d ∈ sysRegTables, ∀ base ∈ d.region,
      ohvRwSharedSysregs ≤ base + d.index * 8 ∧ base + d.index * 8 < ohvRoVer ∧
        ¬ Bookkeeping (base + d.index * 8) := by
    decide +kernel
  exact checked d listed base region

/-- `DBGBVR<n>`, `DBGBCR<n>`, `DBGWVR<n>` and `DBGWCR<n>_EL1`: op0 2, op1 0, CRn 0
and op2 from 4 on, for every CRm. -/
def IsDbgReg (enc : BitVec 16) : Prop := enc &&& 0xff84#16 = 0x8004#16

instance (enc : BitVec 16) : Decidable (IsDbgReg enc) := inferInstanceAs (Decidable (_ = _))

/-- The rows without a place are the breakpoint and watchpoint registers, which
the table has down as ID registers although `ohv_id_slot` knows none of them. -/
theorem placeless_iff (d : SysRegDesc) (listed : d ∈ sysRegTables) :
    d.place = none ↔ IsDbgReg d.encoding := by
  have checked : ∀ d ∈ sysRegTables, d.place = none ↔ IsDbgReg d.encoding := by
    decide +kernel
  exact checked d listed

theorem filtered_region (d : SysRegDesc) (listed : d ∈ sysRegTables)
    (filtered : d.encoding = encCptrEl2) : d.kind ≠ .roId ∧ d.kind ≠ .shadow := by
  have checked : ∀ d ∈ sysRegTables, d.encoding = encCptrEl2 →
      d.kind ≠ .roId ∧ d.kind ≠ .shadow := by
    decide +kernel
  exact checked d listed filtered

theorem shadow_fits (d : SysRegDesc) (listed : d ∈ sysRegTables) (kind : d.kind = .shadow) :
    d.index < 32 := by
  have checked : ∀ d ∈ sysRegTables, d.kind = .shadow → d.index < 32 := by
    decide +kernel
  exact checked d listed kind

theorem sysregLookup_encoding (enc : BitVec 16) (d : SysRegDesc)
    (found : sysregLookup enc = some d) : d.encoding = enc := by
  have named : ∀ table, findDesc table enc = some d → d.encoding = enc := by
    intro table hit
    have same := List.find?_some hit
    exact eq_of_beq same
  simp only [sysregLookup, sysregLookupApple, Option.or_eq_some_iff] at found
  rcases found with (apple | ⟨-, el2⟩) | ⟨-, plain⟩
  · exact named _ apple
  · exact named _ el2
  · exact named _ plain

/-! ## The places of a vCPU -/

def Host.Still (host : Host) : Prop := ∀ k c, host.sync k c = c

namespace VcpuView

def stored (v : VcpuView) : RegPlace → Word
  | .page off => v.s.ctx.word off
  | .shadow i => v.s.el2Shadow i
  | .id slot => v.s.idRegs slot

/-- What a read finds in a place; the ID registers are loaded before they are
looked at. -/
def held (host : Host) (v : VcpuView) (p : RegPlace) : Word := (loadIdRegs host v).stored p

theorem stored_loadIdRegs (host : Host) (v : VcpuView) (p : RegPlace) (stays : ∀ slot, p ≠ .id slot) :
    (loadIdRegs host v).stored p = v.stored p := by
  cases p with
  | page off => simp only [stored, (loadIdRegs_frame host v).2]
  | shadow i =>
      unfold loadIdRegs
      split <;> rfl
  | id slot => exact absurd rfl (stays slot)

theorem loadIdRegs_loads (host : Host) (v : VcpuView) :
    (loadIdRegs host v).s.idRegsLoaded = true := by
  unfold loadIdRegs
  split
  · assumption
  · rfl

theorem loadIdRegs_of_loaded (host : Host) (v : VcpuView) (loaded : v.s.idRegsLoaded = true) :
    loadIdRegs host v = v :=
  if_pos loaded

theorem loadIdRegs_loaded (host : Host) (v : VcpuView) :
    loadIdRegs host (loadIdRegs host v) = loadIdRegs host v :=
  loadIdRegs_of_loaded host _ (loadIdRegs_loads host v)

theorem held_loadIdRegs (host : Host) (v : VcpuView) (p : RegPlace) :
    (loadIdRegs host v).held host p = v.held host p := by
  simp only [held, loadIdRegs_loaded]

theorem held_page (host : Host) (v : VcpuView) (off : Nat) :
    v.held host (.page off) = v.s.ctx.word off :=
  stored_loadIdRegs host v _ fun _ other => RegPlace.noConfusion other

theorem held_shadow (host : Host) (v : VcpuView) (i : Nat) :
    v.held host (.shadow i) = v.s.el2Shadow i :=
  stored_loadIdRegs host v _ fun _ other => RegPlace.noConfusion other

theorem held_id_loaded (host : Host) (v : VcpuView) (slot : Nat) (loaded : v.s.idRegsLoaded = true) :
    v.held host (.id slot) = v.s.idRegs slot := by
  rw [held, loadIdRegs_of_loaded host v loaded]
  rfl

theorem held_id_congr (host : Host) {v w : VcpuView} (slot : Nat)
    (caps : w.g.sysregCaps = v.g.sysregCaps) (loaded : w.s.idRegsLoaded = v.s.idRegsLoaded)
    (regs : w.s.idRegs = v.s.idRegs) : w.held host (.id slot) = v.held host (.id slot) := by
  simp only [held, stored, loadIdRegs, caps, loaded, regs]
  split
  · rw [regs]
  · rfl

theorem sync_still {host : Host} (still : host.Still) (v : VcpuView) (k : Nat) :
    v.sync host k = v := by
  simp only [sync, still k v.s.ctx]
  rfl

end VcpuView

def RegPlace.Free : RegPlace → Prop
  | .page off => ¬ Bookkeeping off
  | _ => True

namespace SysRegDesc

theorem kind_cases (d : SysRegDesc) :
    (d.kind = .roId ∧ d.place = (ohvIdSlot d.encoding).map .id) ∨
      (d.kind = .shadow ∧ d.place = some (.shadow d.index)) ∨
      ∃ base, d.region = some base ∧ d.place = some (.page (base + d.index * 8)) := by
  obtain ⟨encoding, kind, index, dirtyBit, syncBefore⟩ := d
  cases kind with
  | roId => exact Or.inl ⟨rfl, rfl⟩
  | shadow => exact Or.inr (Or.inl ⟨rfl, rfl⟩)
  | shared => exact Or.inr (Or.inr ⟨_, rfl, rfl⟩)
  | banked => exact Or.inr (Or.inr ⟨_, rfl, rfl⟩)
  | extreg => exact Or.inr (Or.inr ⟨_, rfl, rfl⟩)
  | debug => exact Or.inr (Or.inr ⟨_, rfl, rfl⟩)
  | raw => exact Or.inr (Or.inr ⟨_, rfl, rfl⟩)

theorem place_free (d : SysRegDesc) (listed : d ∈ sysRegTables) (p : RegPlace)
    (here : d.place = some p) : p.Free := by
  rcases d.kind_cases with ⟨-, place⟩ | ⟨-, place⟩ | ⟨base, region, place⟩
  · rw [place, Option.map_eq_some_iff] at here
    obtain ⟨slot, -, rfl⟩ := here
    trivial
  · rw [place, Option.some.injEq] at here
    rw [← here]
    trivial
  · rw [place, Option.some.injEq] at here
    rw [← here]
    exact (place_page d listed base region).2.2

/-- The sync an access asks for is refused. -/
def Refused (host : Host) (d : SysRegDesc) (v : VcpuView) : Prop :=
  d.region.isSome ∧ needsSync d v.s.ctx = true ∧ host.syncRc ≠ hvSuccess

end SysRegDesc

section Access

variable {host : Host} {enc : BitVec 16} {d : SysRegDesc}

theorem sysregAccess_id (found : sysregLookup enc = some d) (kind : d.kind = .roId) (value : Word)
    (write : Bool) (v : VcpuView) :
    sysregAccess host enc value write v = idRegAccess host enc value write v := by
  simp only [sysregAccess, found, kind]

theorem sysregAccess_shadow (found : sysregLookup enc = some d) (kind : d.kind = .shadow)
    (value : Word) (write : Bool) (v : VcpuView) :
    sysregAccess host enc value write v = shadowAccess d value write v := by
  simp only [sysregAccess, found, kind]

theorem sysregAccess_page (found : sysregLookup enc = some d) (base : Nat)
    (region : d.region = some base) (value : Word) (write : Bool) (v : VcpuView) :
    sysregAccess host enc value write v = contextAccess host d base enc value write v := by
  cases kind : d.kind <;> simp_all [sysregAccess, SysRegDesc.region]

end Access

/-- A write that took: its place holds the value and every other place what it
held. -/
structure Wrote (host : Host) (place : Option RegPlace) (x : Word) (before after : VcpuView) :
    Prop where
  here : ∀ p, place = some p → after.held host p = x
  rest : ∀ p, p.Free → place ≠ some p → after.held host p = before.held host p

theorem mirrorVmkey_word (cfg : OhvCfg) (enc : BitVec 16) (value : Word) (c : Ctx) (off : Nat)
    (free : ¬ Bookkeeping off) : (mirrorVmkey cfg enc value c).word off = c.word off := by
  have apart : off ≠ ohvRwStateDirty ∧ off ≠ ohvRwControls + 0x70 ∧ off ≠ ohvRwControls + 0x78 := by
    simpa only [Bookkeeping, not_or] using free
  obtain ⟨flags, high, low⟩ := apart
  unfold mirrorVmkey
  split
  · rw [Ctx.markDirty_word _ _ _ flags, Ctx.setControl, Ctx.word_put, if_neg low]
  · split
    · rw [Ctx.markDirty_word _ _ _ flags, Ctx.setControl, Ctx.word_put, if_neg high]
    · rfl

theorem writeDesc_word (cfg : OhvCfg) (d : SysRegDesc) (base : Nat) (enc : BitVec 16)
    (value : Word) (c : Ctx) (off : Nat) (free : ¬ Bookkeeping off) :
    (writeDesc cfg d base enc value c).word off =
      if off = base + d.index * 8 then filterWrite enc value else c.word off := by
  have put : (mirrorVmkey cfg enc (filterWrite enc value)
      (c.put (base + d.index * 8) (filterWrite enc value))).word off =
        if off = base + d.index * 8 then filterWrite enc value else c.word off := by
    rw [mirrorVmkey_word _ _ _ _ _ free, Ctx.word_put]
  unfold writeDesc
  simp only
  split
  · exact put
  · rw [Ctx.markDirty_word _ _ _ fun flags => free (Or.inl flags), put]

section Spec

variable {host : Host} {enc : BitVec 16} {d : SysRegDesc}

theorem idRegAccess_write (enc : BitVec 16) (value : Word) (v : VcpuView) :
    (idRegAccess host enc value true v).rc = hvSuccess ∧
      Wrote host ((ohvIdSlot enc).map .id) value v (idRegAccess host enc value true v).view := by
  unfold idRegAccess
  cases slotted : ohvIdSlot enc with
  | none =>
      refine ⟨rfl, ?_, fun p _ _ => rfl⟩
      intro p here
      cases here
  | some slot =>
      have loaded := VcpuView.loadIdRegs_loads host v
      simp only [if_true]
      refine ⟨trivial, ?_, ?_⟩
      · intro p here
        cases here
        rw [VcpuView.held_id_loaded]
        · exact Function.update_self ..
        · exact loaded
      · intro p _ other
        rw [← v.held_loadIdRegs host p]
        cases p with
        | page off => rw [VcpuView.held_page, VcpuView.held_page]
        | shadow i => rw [VcpuView.held_shadow, VcpuView.held_shadow]
        | id slot' =>
            rw [VcpuView.held_id_loaded host (loadIdRegs host v) slot' loaded,
              VcpuView.held_id_loaded]
            · exact Function.update_of_ne (fun same => other (by rw [same]; rfl)) ..
            · exact loaded

theorem shadowAccess_write (fits : d.index < 32) (value : Word) (v : VcpuView) :
    (shadowAccess d value true v).rc = hvSuccess ∧
      Wrote host (some (.shadow d.index)) value v (shadowAccess d value true v).view := by
  unfold shadowAccess
  rw [if_neg (Nat.not_le.mpr fits)]
  refine ⟨rfl, ?_, ?_⟩
  · intro p here
    cases here
    rw [VcpuView.held_shadow]
    exact Function.update_self ..
  · intro p _ other
    cases p with
    | page off => rw [VcpuView.held_page, VcpuView.held_page]; rfl
    | shadow i =>
        rw [VcpuView.held_shadow, VcpuView.held_shadow]
        exact Function.update_of_ne (fun same => other (by rw [same])) ..
    | id slot => exact VcpuView.held_id_congr host slot rfl rfl rfl

theorem contextAccess_still (still : host.Still) (base : Nat) (enc : BitVec 16) (value : Word)
    (write : Bool) (v : VcpuView) :
    contextAccess host d base enc value write v =
      if needsSync d v.s.ctx = true ∧ host.syncRc ≠ hvSuccess then ⟨host.syncRc, value, v⟩
      else if write then
        ⟨hvSuccess, value, v.setCtx (writeDesc v.g.cfg d base enc value v.s.ctx)⟩
      else ⟨hvSuccess, v.s.ctx.word (base + d.index * 8), v⟩ := by
  have current : (if needsSync d v.s.ctx then v.sync host 0 else v) = v := by
    split
    · exact v.sync_still still 0
    · rfl
  unfold contextAccess
  simp only [current]

theorem contextAccess_write (still : host.Still) (base : Nat) (enc : BitVec 16) (value : Word)
    (v : VcpuView) (free : ¬ Bookkeeping (base + d.index * 8))
    (ready : ¬ (needsSync d v.s.ctx = true ∧ host.syncRc ≠ hvSuccess)) :
    (contextAccess host d base enc value true v).rc = hvSuccess ∧
      Wrote host (some (.page (base + d.index * 8))) (filterWrite enc value) v
        (contextAccess host d base enc value true v).view := by
  rw [contextAccess_still still, if_neg ready, if_pos rfl]
  refine ⟨rfl, ?_, ?_⟩
  · intro p here
    cases here
    rw [VcpuView.held_page]
    exact (writeDesc_word _ d base enc value _ _ free).trans (if_pos rfl)
  · intro p spare other
    cases p with
    | page off =>
        rw [VcpuView.held_page, VcpuView.held_page]
        have apart : off ≠ base + d.index * 8 := fun same => other (by rw [same])
        exact (writeDesc_word _ d base enc value _ off spare).trans (if_neg apart)
    | shadow i => rw [VcpuView.held_shadow, VcpuView.held_shadow]; rfl
    | id slot => exact VcpuView.held_id_congr host slot rfl rfl rfl

theorem sysregAccess_write (still : host.Still) (found : sysregLookup enc = some d) (value : Word)
    (v : VcpuView) (ready : ¬ d.Refused host v) :
    (sysregAccess host enc value true v).rc = hvSuccess ∧
      Wrote host d.place (filterWrite enc value) v (sysregAccess host enc value true v).view := by
  have listed := sysregLookup_mem enc d found
  have named := sysregLookup_encoding enc d found
  have plain : d.kind = .roId ∨ d.kind = .shadow → filterWrite enc value = value := by
    intro kind
    apply if_neg
    intro filtered
    obtain ⟨noId, noShadow⟩ := filtered_region d listed (named.trans filtered)
    rcases kind with kind | kind
    · exact noId kind
    · exact noShadow kind
  rcases d.kind_cases with ⟨kind, place⟩ | ⟨kind, place⟩ | ⟨base, region, place⟩
  · rw [sysregAccess_id found kind, place, named, plain (Or.inl kind)]
    exact idRegAccess_write enc value v
  · rw [sysregAccess_shadow found kind, place, plain (Or.inr kind)]
    exact shadowAccess_write (shadow_fits d listed kind) value v
  · rw [sysregAccess_page found base region, place]
    apply contextAccess_write still base enc value v (place_page d listed base region).2.2
    intro refused
    exact ready ⟨by rw [region]; rfl, refused⟩

theorem sysregAccess_refused (still : host.Still) (found : sysregLookup enc = some d) (value : Word)
    (write : Bool) (v : VcpuView) (refused : d.Refused host v) :
    sysregAccess host enc value write v = ⟨host.syncRc, value, v⟩ := by
  obtain ⟨onPage, asks, fails⟩ := refused
  obtain ⟨base, region⟩ := Option.isSome_iff_exists.mp onPage
  rw [sysregAccess_page found base region, contextAccess_still still, if_pos ⟨asks, fails⟩]

theorem hvVcpuSetSysReg_wrote (still : host.Still) (found : sysregLookup enc = some d)
    (value : Word) (v : VcpuView) (ready : ¬ d.Refused host v) :
    (hvVcpuSetSysReg host enc value v).1 = hvSuccess ∧
      Wrote host d.place (filterWrite enc value) v (hvVcpuSetSysReg host enc value v).2 := by
  obtain ⟨success, wrote⟩ := sysregAccess_write still found value v ready
  rw [hvVcpuSetSysReg_eq_access]
  refine ⟨?_, wrote⟩
  unfold hvVcpuSetSysReg
  simp only [success]
  split <;> rfl

/-- Whatever becomes of it, a write reaches no place but the register's. -/
theorem hvVcpuSetSysReg_rest (still : host.Still) (enc : BitVec 16) (value : Word) (v : VcpuView)
    (p : RegPlace) (free : p.Free) (other : ∀ d, sysregLookup enc = some d → d.place ≠ some p) :
    (hvVcpuSetSysReg host enc value v).2.held host p = v.held host p := by
  cases found : sysregLookup enc with
  | none =>
      rw [hvVcpuSetSysReg_eq_access]
      simp only [sysregAccess, found]
  | some d =>
      by_cases refused : d.Refused host v
      · rw [hvVcpuSetSysReg_eq_access, sysregAccess_refused still found value true v refused]
      · exact (hvVcpuSetSysReg_wrote still found value v refused).2.rest p free (other d found)

/-- A known register reads what its place holds, and 0 when it has none. -/
theorem hvVcpuGetSysReg_reads (still : host.Still) (found : sysregLookup enc = some d)
    (v : VcpuView) (ready : ¬ d.Refused host v) :
    (hvVcpuGetSysReg host enc v).rc = hvSuccess ∧
      (hvVcpuGetSysReg host enc v).value = (d.place.map (v.held host)).getD 0 := by
  have listed := sysregLookup_mem enc d found
  have named := sysregLookup_encoding enc d found
  unfold hvVcpuGetSysReg
  rcases d.kind_cases with ⟨kind, place⟩ | ⟨kind, place⟩ | ⟨base, region, place⟩
  · rw [sysregAccess_id found kind, place, named]
    unfold idRegAccess
    cases ohvIdSlot enc with
    | none => exact ⟨rfl, rfl⟩
    | some slot => exact ⟨rfl, rfl⟩
  · rw [sysregAccess_shadow found kind, place]
    unfold shadowAccess
    rw [if_neg (Nat.not_le.mpr (shadow_fits d listed kind))]
    exact ⟨rfl, (v.held_shadow host d.index).symm⟩
  · have settled : ¬ (needsSync d v.s.ctx = true ∧ host.syncRc ≠ hvSuccess) := fun refused =>
      ready ⟨by rw [region]; rfl, refused⟩
    rw [sysregAccess_page found base region, place, contextAccess_still still, if_neg settled]
    exact ⟨rfl, (v.held_page host _).symm⟩

theorem hvVcpuGetSysReg_held (still : host.Still) (enc : BitVec 16) (v : VcpuView) (p : RegPlace) :
    (hvVcpuGetSysReg host enc v).view.held host p = v.held host p := by
  have same : (hvVcpuGetSysReg host enc v).view = v ∨
      (hvVcpuGetSysReg host enc v).view = loadIdRegs host v := by
    unfold hvVcpuGetSysReg
    cases found : sysregLookup enc with
    | none =>
        left
        simp only [sysregAccess, found]
    | some d =>
        by_cases refused : d.Refused host v
        · exact Or.inl (by rw [sysregAccess_refused still found 0 false v refused])
        · rcases d.kind_cases with ⟨kind, place⟩ | ⟨kind, place⟩ | ⟨base, region, place⟩
          · rw [sysregAccess_id found kind]
            unfold idRegAccess
            cases ohvIdSlot enc with
            | none => exact Or.inl rfl
            | some slot => exact Or.inr rfl
          · rw [sysregAccess_shadow found kind]
            unfold shadowAccess
            split <;> exact Or.inl rfl
          · rw [sysregAccess_page found base region, contextAccess_still still]
            left
            split <;> rfl
  rcases same with same | same
  · rw [same]
  · rw [same, v.held_loadIdRegs]

end Spec

/-! ## A word of writes -/

def LandsIn (enc : BitVec 16) (p : RegPlace) : Prop :=
  ∃ d, sysregLookup enc = some d ∧ d.place = some p

def setSysRegs (host : Host) (writes : List (BitVec 16 × Word)) (v : VcpuView) : VcpuView :=
  writes.foldl (fun v w => (hvVcpuSetSysReg host w.1 w.2 v).2) v

/-- The register calls keep their places apart. -/
theorem setSysReg_framed {host : Host} (still : host.Still) :
    Cells.Framed (fun v w => (hvVcpuSetSysReg host w.1 w.2 v).2) (fun _ => True) (fun _ => True)
      (fun (w : BitVec 16 × Word) p => ¬ p.Free ∨ LandsIn w.1 p) fun v p => v.held host p where
  order := fun _ _ _ _ => trivial
  frame := by
    intro v w p _ _ misses
    obtain ⟨free, elsewhere⟩ := not_or.mp misses
    apply hvVcpuSetSysReg_rest still w.1 w.2 v p (not_not.mp free)
    intro d found place
    exact elsewhere ⟨d, found, place⟩

theorem landsIn_other {enc enc' : BitVec 16} {d : SysRegDesc} {p : RegPlace}
    (found : sysregLookup enc = some d) (here : d.place = some p) (other : enc' ≠ enc) :
    ¬ LandsIn enc' p := by
  rintro ⟨d', found', there⟩
  have named := sysregLookup_encoding enc d found
  have named' := sysregLookup_encoding enc' d' found'
  refine place_injective d d' (sysregLookup_mem enc d found) (sysregLookup_mem enc' d' found')
    ?_ p here there
  rw [named, named']
  exact other.symm

/-- An accepted write is read back, whatever else is written before: exactly the
breakpoint and watchpoint registers take a value and read 0. -/
theorem accepted_write_kept_iff (host : Host) (still : host.Still)
    (synced : host.syncRc = hvSuccess) (enc : BitVec 16) (value : Word) (v : VcpuView)
    (survey : v.g.cfg.surveySysreg = false)
    (accepted : (hvVcpuSetSysReg host enc value v).1 = hvSuccess) :
    (∀ later : List (BitVec 16 × Word), (∀ w ∈ later, w.1 ≠ enc) →
      let answer := hvVcpuGetSysReg host enc
        (setSysRegs host later (hvVcpuSetSysReg host enc value v).2)
      answer.rc = hvSuccess ∧
        answer.value = if enc = 0xe08a then value ||| 0x300000 else value) ↔
      ¬ IsDbgReg enc ∨ value = 0 := by
  have ready : ∀ (d : SysRegDesc) (v : VcpuView), ¬ d.Refused host v := by
    rintro d v ⟨-, -, fails⟩
    exact fails synced
  cases found : sysregLookup enc with
  | none =>
      simp [hvVcpuSetSysReg, sysregAccess, found, survey, hvUnsupported, hvSuccess] at accepted
  | some d =>
      have listed := sysregLookup_mem enc d found
      have named := sysregLookup_encoding enc d found
      have wrote := (hvVcpuSetSysReg_wrote still found value v (ready d v)).2
      have reads := fun v => hvVcpuGetSysReg_reads still found v (ready d v)
      cases place : d.place with
      | none =>
          have debug : IsDbgReg enc := by
            rw [← named]
            exact (placeless_iff d listed).mp place
          have unfiltered : enc ≠ 0xe08a := by
            rintro rfl
            exact absurd debug (by decide)
          simp only [debug, not_true_eq_false, false_or, if_neg unfiltered, (reads _).1,
            (reads _).2, place, Option.map_none, Option.getD_none, true_and]
          constructor
          · intro kept
            exact (kept [] (by simp)).symm
          · intro zero later _
            exact zero.symm
      | some p =>
          have plain : ¬ IsDbgReg enc := by
            rw [← named]
            intro debug
            rw [(placeless_iff d listed).mpr debug] at place
            cases place
          simp only [plain, not_false_eq_true, true_or, iff_true]
          intro later others
          refine ⟨(reads _).1, (reads _).2.trans ?_⟩
          rw [place, Option.map_some, Option.getD_some]
          apply (setSysReg_framed still).holds_written trivial (wrote.here p place)
          intro w member
          refine ⟨trivial, ?_⟩
          rintro (taken | lands)
          · exact taken (d.place_free listed p place)
          · exact landsIn_other found place (others w member) lands

theorem sctlr_write_kept :
    (hvVcpuGetSysReg {} 0xc080 (setSysRegs {} [(0xc082, 7), (0xc000, 9)]
      (hvVcpuSetSysReg {} 0xc080 5 ⟨{}, {}⟩).2)).value = 5 := by
  have kept := (accepted_write_kept_iff {} (fun _ _ => rfl) rfl 0xc080 5 ⟨{}, {}⟩ rfl
    (by decide)).mpr (Or.inl (by decide))
  exact (kept [(0xc082, 7), (0xc000, 9)] (by simp)).2

/-- `DBGBVR0_EL1` accepts a 1 and reads 0, with nothing written in between. -/
theorem breakpoint_write_lost :
    let set := hvVcpuSetSysReg {} 0x8004 1 ⟨{}, {}⟩
    set.1 = hvSuccess ∧
      ¬ ∀ later : List (BitVec 16 × Word), (∀ w ∈ later, w.1 ≠ 0x8004) →
        let answer := hvVcpuGetSysReg {} 0x8004 (setSysRegs {} later set.2)
        answer.rc = hvSuccess ∧
          answer.value = if (0x8004 : BitVec 16) = 0xe08a then 1 ||| 0x300000 else 1 := by
  refine ⟨by decide, fun kept => ?_⟩
  have read := (kept [] (by simp)).2
  exact absurd read (by decide)

/-! ## Registers apart -/

theorem hvVcpuGetReg_congr (reg : Nat) (s s' : VcpuSlot)
    (same : ∀ off < ohvRwSharedSysregs, s'.ctx.word off = s.ctx.word off) :
    hvVcpuGetReg reg s' = hvVcpuGetReg reg s := by
  have pstate := same ohvRwCpsr (by decide)
  have fp := same ohvRwFpsrFpcr (by decide)
  have pc := same ohvRwPc (by decide)
  simp only [hvVcpuGetReg, Ctx.cpsr, Ctx.lo32, Ctx.hi32, Ctx.pc, pstate, fp, pc]
  have general : reg < hvRegPc → s'.ctx.x reg = s.ctx.x reg := by
    intro small
    apply same
    simp only [hvRegPc] at small
    simp only [ohvRwRegsX0, ohvRwSharedSysregs]
    omega
  by_cases small : reg < hvRegPc
  · rw [general small]
  · simp only [if_neg small]

theorem hvVcpuSetSysReg_words {host : Host} (still : host.Still) (enc : BitVec 16) (value : Word)
    (v : VcpuView) (off : Nat) (outside : off < ohvRwSharedSysregs ∨ ohvRoVer ≤ off) :
    (hvVcpuSetSysReg host enc value v).2.s.ctx.word off = v.s.ctx.word off := by
  have free : ¬ Bookkeeping off := by
    simp only [Bookkeeping, ohvRwStateDirty, ohvRwControls]
    simp only [ohvRwSharedSysregs, ohvRoVer] at outside
    omega
  rw [← VcpuView.held_page host, ← VcpuView.held_page host v]
  apply hvVcpuSetSysReg_rest still enc value v (.page off) free
  intro d found here
  have listed := sysregLookup_mem enc d found
  rcases d.kind_cases with ⟨-, place⟩ | ⟨-, place⟩ | ⟨base, region, place⟩
  · rw [place, Option.map_eq_some_iff] at here
    obtain ⟨slot, -, same⟩ := here
    cases same
  · rw [place] at here
    cases here
  · rw [place] at here
    cases here
    obtain ⟨above, below, -⟩ := place_page d listed base region
    omega

theorem sysregs_apart (host : Host) (still : host.Still) (a b : BitVec 16) (other : a ≠ b)
    (value : Word) (v : VcpuView) :
    let after := (hvVcpuSetSysReg host a value v).2
    (hvVcpuGetSysReg host b after).rc = (hvVcpuGetSysReg host b v).rc ∧
      (hvVcpuGetSysReg host b after).value = (hvVcpuGetSysReg host b v).value ∧
      ∀ reg, hvVcpuGetReg reg after.s = hvVcpuGetReg reg v.s := by
  intro after
  have words := hvVcpuSetSysReg_words still a value v
  suffices same : (hvVcpuGetSysReg host b after).rc = (hvVcpuGetSysReg host b v).rc ∧
      (hvVcpuGetSysReg host b after).value = (hvVcpuGetSysReg host b v).value by
    refine ⟨same.1, same.2, fun reg => ?_⟩
    exact hvVcpuGetReg_congr reg v.s after.s fun off below => words off (Or.inl below)
  cases found : sysregLookup b with
  | none =>
      simp only [hvVcpuGetSysReg, sysregAccess, found, and_self]
  | some d =>
      have valid : needsSync d after.s.ctx = needsSync d v.s.ctx := by
        have mask := words ohvRoStateValid (Or.inr (by decide))
        simp only [needsSync, after, mask]
      have listed := sysregLookup_mem b d found
      by_cases refused : d.Refused host v
      · have refused' : d.Refused host after := by
          rw [SysRegDesc.Refused, valid]
          exact refused
        simp only [hvVcpuGetSysReg, sysregAccess_refused still found 0 false _ refused,
          sysregAccess_refused still found 0 false _ refused', and_self]
      · have ready' : ¬ d.Refused host after := by
          rw [SysRegDesc.Refused, valid]
          exact refused
        have before := hvVcpuGetSysReg_reads still found v refused
        have later := hvVcpuGetSysReg_reads still found after ready'
        refine ⟨later.1.trans before.1.symm, later.2.trans (Eq.trans ?_ before.2.symm)⟩
        cases place : d.place with
        | none => rfl
        | some p =>
            simp only [Option.map_some, Option.getD_some]
            apply hvVcpuSetSysReg_rest still a value v p (d.place_free listed p place)
            intro d' found' there
            exact landsIn_other found place other ⟨d', found', there⟩

theorem cpacr_apart_from_sctlr :
    (hvVcpuGetSysReg {} 0xc082 (hvVcpuSetSysReg {} 0xc080 5 ⟨{}, {}⟩).2).value =
        (hvVcpuGetSysReg {} 0xc082 ⟨{}, {}⟩).value ∧
      hvVcpuGetReg hvRegPc (hvVcpuSetSysReg {} 0xc080 5 ⟨{}, {}⟩).2.s =
        hvVcpuGetReg hvRegPc {} := by
  have apart := sysregs_apart {} (fun _ _ => rfl) 0xc080 0xc082 (by decide) 5 ⟨{}, {}⟩
  exact ⟨apart.2.1, apart.2.2 hvRegPc⟩

end OpenHypervisor
