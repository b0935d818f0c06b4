import OpenHypervisor.GuestView

/-!
# Two views of one register

A register that the guest reaches by a trapped access and the VMM by a register
call.  For thirteen of the encodings both answer, the two name one place, and a
read on either side returns what was last written on either.  The others are two
registers each: the guest hypervisor's own, and the one kept for the VMM.
-/

set_option autoImplicit false

namespace OpenHypervisor

/-! ## What both sides answer -/

def GuestAnswers (enc : BitVec 16) : Prop :=
  ∃ host esr v, (SysAccess.ofEsr esr).enc = enc ∧ (serviceNv2Access host esr v).1 = true

def VmmAnswers (enc : BitVec 16) : Prop :=
  ∃ host v, (hvVcpuGetSysReg host enc v).rc = hvSuccess

def BothAnswer (enc : BitVec 16) : Prop := GuestAnswers enc ∧ VmmAnswers enc

def pageAt (base index : Nat) : RegPlace := .page (base + index * 8)

/-- What both sides answer, with the place of the guest's register and of the
VMM's. -/
def dualViews : List (BitVec 16 × RegPlace × RegPlace) :=
  [(0xf78a, pageAt ohvRwExtregs 42), (0xf7c1, pageAt ohvRwExtregs 43),
    (0xf7c2, pageAt ohvRwExtregs 44), (0xd000, pageAt ohvRwSharedSysregs 7),
    (0xdf11, .shadow 30), (0xdf12, pageAt ohvRwBankedSysregs 10),
    (0xdf19, pageAt ohvRwBankedSysregs 18), (0xdf1a, pageAt ohvRwBankedSysregs 9),
    (0xe088, .page 0x1078), (0xe108, .page 0x1020), (0xe10a, .page 0x1040),
    (0xe682, .page 0x1090), (0xe703, .page 0x1060)].map (fun row => (row.1, row.2, row.2)) ++
  [(0xe080, pageAt ohvRwBankedSysregs 12, .shadow 0),
    (0xe08a, pageAt ohvRwBankedSysregs 13, .page 0x930),
    (0xe100, pageAt ohvRwBankedSysregs 0, .shadow 2),
    (0xe101, pageAt ohvRwBankedSysregs 1, .shadow 3),
    (0xe102, pageAt ohvRwBankedSysregs 2, .shadow 4),
    (0xe200, pageAt ohvRwBankedSysregs 14, .shadow 5),
    (0xe201, pageAt ohvRwBankedSysregs 3, .shadow 6),
    (0xe290, pageAt ohvRwBankedSysregs 5, .shadow 7),
    (0xe300, pageAt ohvRwBankedSysregs 4, .shadow 8),
    (0xe510, pageAt ohvRwBankedSysregs 6, .shadow 10),
    (0xe000, .page 0x1088, .page 0x948), (0xe005, .page 0x1050, .page 0x940),
    (0xe089, .page 0x1130, .page 0x938), (0xe304, .page 0x11f8, .shadow 9),
    (0xe600, .page 0x1250, .shadow 11), (0xe708, .page 0x10e0, .shadow 12)]

def dualEncodings : List (BitVec 16) := dualViews.map Prod.fst

def SysAccess.Carried (a : SysAccess) : Prop :=
  a.op0 = 1 ∨ isGicInterfaceReg a = true ∨ (nv2Lookup a.enc).isSome = true ∨
    a.op0 = 3 ∧
      (a.op1 = 0 ∧ a.crn = 15 ∨ (a.op1 = 1 ∨ a.op1 = 2) ∧ a.crn = 0 ∨
        a.op1 = 3 ∧ (a.crn = 14 ∧ (a.crm = 0 ∨ a.crm = 2 ∨ a.crm = 3) ∨ a.crn = 4 ∧ a.crm = 2) ∨
        a.op1 = 4 ∧ (a.crm = 10 ∨ a.crn = 15 ∧ (a.crm = 2 ∨ a.crm = 6)) ∨
        a.op1 = 5 ∧ a.crn = 15 ∨
        a.op1 = 6 ∧ a.crn = 15 ∧ (a.crm = 11 ∨ (a.crm = 2 ∨ a.crm = 15) ∧ a.op2 = 7 ∨
          a.crm = 1 ∧ a.op2 = 2 ∨ a.crm = 8 ∧ (a.op2 = 1 ∨ a.op2 = 2)))

instance (a : SysAccess) : Decidable a.Carried := inferInstanceAs (Decidable (_ ∨ _))

theorem guard_of_some {c : Prop} [Decidable c] {α : Type} {x : Option α} {y : α}
    (taken : (if c then x else none) = some y) : c := by
  by_contra other
  rw [if_neg other] at taken
  cases taken

theorem carried_of_answer (host : Host) (esr : Word) (v : VcpuView)
    (answers : (serviceNv2Access host esr v).1 = true) : (SysAccess.ofEsr esr).Carried := by
  unfold serviceNv2Access at answers
  cases answer : accessBlocks.findSome? fun block => block host (.ofEsr esr) v with
  | none =>
      rw [answer] at answers
      cases answers
  | some result =>
      rw [answer] at answers
      obtain ⟨carried, after⟩ := result
      obtain rfl : carried = true := answers
      obtain ⟨block, listed, taken⟩ := List.exists_of_findSome?_eq_some answer
      generalize SysAccess.ofEsr esr = a at taken ⊢
      simp only [accessBlocks, List.mem_cons, List.not_mem_nil, or_false] at listed
      rcases listed with rfl | rfl | rfl | rfl | rfl | rfl | rfl | rfl | rfl | rfl | rfl | rfl |
        rfl | rfl | rfl | rfl
      · obtain ⟨op0, op1, crn, crm, op2, -⟩ := guard_of_some taken
        simp [SysAccess.Carried, op0, op1, crn, crm, op2]
      · obtain ⟨op0, op1, crn, crm, op2, -⟩ := (handoffAccess_eq_some taken).1
        simp [SysAccess.Carried, op0, op1, crn, crm, op2]
      · obtain ⟨op0, op1, crn, which⟩ := guard_of_some taken
        rcases which with ⟨crm, op2⟩ | ⟨crm, op2⟩
        · simp [SysAccess.Carried, op0, op1, crn, crm, op2]
        · rcases op2 with op2 | op2
          · simp [SysAccess.Carried, op0, op1, crn, crm, op2]
          · simp [SysAccess.Carried, op0, op1, crn, crm, op2]
      · obtain ⟨op0, crn, -, which⟩ := guard_of_some taken
        rcases which with ⟨op1, -⟩ | ⟨op1, -⟩
        · simp [SysAccess.Carried, op0, op1, crn]
        · simp [SysAccess.Carried, op0, op1, crn]
      · obtain ⟨op0, op1, crn, crm, -⟩ := guard_of_some taken
        simp [SysAccess.Carried, op0, op1, crn, crm]
      · obtain ⟨op0, op1, crn, crm⟩ := guard_of_some taken
        rcases crm with crm | crm
        · simp [SysAccess.Carried, op0, op1, crn, crm]
        · simp [SysAccess.Carried, op0, op1, crn, crm]
      · exact Or.inr (Or.inl (guard_of_some taken))
      · exact Or.inl (guard_of_some taken).1
      · exact Or.inl (guard_of_some taken).1
      · obtain ⟨op0, op1, crn, crm, -⟩ := guard_of_some taken
        simp [SysAccess.Carried, op0, op1, crn, crm]
      · obtain ⟨op0, op1, crn, crm⟩ := guard_of_some taken
        simp [SysAccess.Carried, op0, op1, crn, crm]
      · obtain ⟨op0, op1, crn, -⟩ := guard_of_some taken
        simp [SysAccess.Carried, op0, op1, crn]
      · obtain ⟨op0, op1, crn, which⟩ := guard_of_some taken
        rcases which with ⟨crm, -⟩ | ⟨crm, -⟩
        · simp [SysAccess.Carried, op0, op1, crn, crm]
        · simp [SysAccess.Carried, op0, op1, crn, crm]
      · obtain ⟨op0, crn, op1, -⟩ := guard_of_some taken
        simp [SysAccess.Carried, op0, op1, crn]
      · obtain ⟨op0, which⟩ := guard_of_some taken
        rcases which with op1 | ⟨op1, crm⟩
        · have crn : a.crn = 15 := by
            by_contra different
            have other : a.crn ≠ 15#4 := different
            simp [appleShadowAccess, op0, op1, other, refused] at taken
          simp [SysAccess.Carried, op0, op1, crn]
        · simp [SysAccess.Carried, op0, op1, crm]
      · unfold nv2RegAccess at taken
        split at taken
        · cases taken
        · rename_i r found
          split at found
          · exact Or.inr (Or.inr (Or.inl (by rw [found]; rfl)))
          · cases found

theorem dual_of_both (enc : BitVec 16) (both : BothAnswer enc) : enc ∈ dualEncodings := by
  obtain ⟨⟨host, esr, v, named, answers⟩, host', v', success⟩ := both
  have carried := carried_of_answer host esr v answers
  rw [← (SysAccess.ofEsr esr).ofEnc_enc, named] at carried
  have checked : ∀ d ∈ sysRegTables, (SysAccess.ofEnc d.encoding 0 true).Carried →
      d.encoding ∈ dualEncodings := by
    decide +kernel
  cases found : sysregLookup enc with
  | none =>
      simp [hvVcpuGetSysReg, sysregAccess, found, hvUnsupported, hvSuccess] at success
  | some d =>
      have same := sysregLookup_encoding enc d found
      rw [← same] at carried ⊢
      exact checked d (sysregLookup_mem enc d found) carried

/-! ## The places of the two sides -/

inductive Side where
  | guest
  | vmm
  deriving DecidableEq

def vmmPlace (enc : BitVec 16) : Option RegPlace := (sysregLookup enc).bind SysRegDesc.place

def Side.place : Side → BitVec 16 → Option RegPlace
  | .guest => guestPlace
  | .vmm => vmmPlace

def Side.pick : Side → RegPlace × RegPlace → RegPlace
  | .guest => Prod.fst
  | .vmm => Prod.snd

/-- The encodings under which the two sides keep one register: the guarded
registers, CSSELR_EL1, the timers, and HCR_EL2, VTTBR_EL2, VTCR_EL2, TPIDR_EL2
and CNTVOFF_EL2 of the nested page. -/
def sharedEncodings : List (BitVec 16) := [
  0xf78a, 0xf7c1, 0xf7c2, 0xd000, 0xdf11, 0xdf12, 0xdf19, 0xdf1a, 0xe088, 0xe108, 0xe10a,
  0xe682, 0xe703]

theorem dual_place (S : Side) (row : BitVec 16 × RegPlace × RegPlace) (listed : row ∈ dualViews) :
    S.place row.1 = some (S.pick row.2) := by
  have checked : ∀ row ∈ dualViews, guestPlace row.1 = some row.2.1 ∧
      vmmPlace row.1 = some row.2.2 := by
    decide +kernel
  cases S with
  | guest => exact (checked row listed).1
  | vmm => exact (checked row listed).2

theorem dual_watched (S : Side) (row : BitVec 16 × RegPlace × RegPlace)
    (listed : row ∈ dualViews) : (S.pick row.2).Watched := by
  have checked : ∀ row ∈ dualViews, row.2.1.Watched ∧ row.2.2.Watched := by
    decide +kernel
  cases S with
  | guest => exact (checked row listed).1
  | vmm => exact (checked row listed).2

/-- Two names of one place are one encoding, on one side or shared. -/
theorem dual_places (S T : Side) (enc enc' : BitVec 16) (dual : enc ∈ dualEncodings)
    (dual' : enc' ∈ dualEncodings) :
    T.place enc' = S.place enc ↔ enc' = enc ∧ (T = S ∨ enc ∈ sharedEncodings) := by
  have side : ∀ S, S ∈ [Side.guest, Side.vmm] := by
    intro S
    cases S <;> decide
  have checked : ∀ row ∈ dualViews, ∀ row' ∈ dualViews,
      ∀ S ∈ [Side.guest, Side.vmm], ∀ T ∈ [Side.guest, Side.vmm],
      (T.pick row'.2 = S.pick row.2 ↔ row'.1 = row.1 ∧ (T = S ∨ row.1 ∈ sharedEncodings)) := by
    decide +kernel
  obtain ⟨row, listed, rfl⟩ := List.mem_map.mp dual
  obtain ⟨row', listed', rfl⟩ := List.mem_map.mp dual'
  rw [dual_place S row listed, dual_place T row' listed', Option.some.injEq]
  exact checked row listed row' listed' S (side S) T (side T)

theorem guest_serves (host : Host) (esr : Word) (v : VcpuView)
    (dual : (SysAccess.ofEsr esr).enc ∈ dualEncodings) (p : RegPlace)
    (place : guestPlace (SysAccess.ofEsr esr).enc = some p) :
    Serves (SysAccess.ofEsr esr).enc p (.ofEsr esr) v (serviceNv2Access host esr v) := by
  have sorted : ∀ row ∈ dualViews, (row.1 = 0xf78a ∨ row.1 = 0xf7c1 ∨ row.1 = 0xf7c2) ∨
      row.1 = 0xd000 ∨ (row.1 = 0xdf11 ∨ row.1 = 0xdf12 ∨ row.1 = 0xdf19 ∨ row.1 = 0xdf1a) ∨
      (nv2Lookup row.1).isSome = true := by
    decide +kernel
  obtain ⟨row, listed, here⟩ := List.mem_map.mp dual
  have kind := sorted row listed
  rw [here] at kind
  have places : guestPlace 0xf78a = some (.page (ohvRwExtregs + 42 * 8)) ∧
      guestPlace 0xf7c1 = some (.page (ohvRwExtregs + 43 * 8)) ∧
      guestPlace 0xf7c2 = some (.page (ohvRwExtregs + 44 * 8)) ∧
      guestPlace 0xd000 = some (.page (ohvRwSharedSysregs + 7 * 8)) := by
    decide +kernel
  obtain ⟨first, second, third, cacheSize⟩ := places
  rcases kind with guarded | csselr | timer | el2
  · rcases guarded with named | named | named
    · obtain ⟨op0, op1, crn, crm, op2⟩ := (SysAccess.ofEsr esr).fields_of_enc _ named
      obtain rfl := Option.some.inj ((named ▸ place).symm.trans first)
      exact gxf_serves 42 ⟨op0, op1, crn, Or.inl ⟨crm, op2, rfl⟩⟩
    · obtain ⟨op0, op1, crn, crm, op2⟩ := (SysAccess.ofEsr esr).fields_of_enc _ named
      obtain rfl := Option.some.inj ((named ▸ place).symm.trans second)
      exact gxf_serves 43 ⟨op0, op1, crn, Or.inr ⟨crm, Or.inl ⟨op2, rfl⟩⟩⟩
    · obtain ⟨op0, op1, crn, crm, op2⟩ := (SysAccess.ofEsr esr).fields_of_enc _ named
      obtain rfl := Option.some.inj ((named ▸ place).symm.trans third)
      exact gxf_serves 44 ⟨op0, op1, crn, Or.inr ⟨crm, Or.inr ⟨op2, rfl⟩⟩⟩
  · obtain rfl := Option.some.inj ((csselr ▸ place).symm.trans cacheSize)
    exact csselr_serves csselr
  · rcases timer with named | named | named | named
    · obtain ⟨op0, op1, crn, crm, op2⟩ := (SysAccess.ofEsr esr).fields_of_enc _ named
      exact timer_serves ⟨op0, op1, crn, Or.inl crm⟩ p (Or.inl op2) place
    · obtain ⟨op0, op1, crn, crm, op2⟩ := (SysAccess.ofEsr esr).fields_of_enc _ named
      exact timer_serves ⟨op0, op1, crn, Or.inl crm⟩ p (Or.inr op2) place
    · obtain ⟨op0, op1, crn, crm, op2⟩ := (SysAccess.ofEsr esr).fields_of_enc _ named
      exact timer_serves ⟨op0, op1, crn, Or.inr crm⟩ p (Or.inl op2) place
    · obtain ⟨op0, op1, crn, crm, op2⟩ := (SysAccess.ofEsr esr).fields_of_enc _ named
      exact timer_serves ⟨op0, op1, crn, Or.inr crm⟩ p (Or.inr op2) place
  · obtain ⟨r, found⟩ := Option.isSome_iff_exists.mp el2
    obtain ⟨member, named⟩ := nv2Lookup_row found
    have here := nv2_place r member
    rw [named, place] at here
    obtain rfl := Option.some.inj here
    exact nv2_serves r found

/-! ## The accesses of both sides -/

inductive Access where
  /-- A trapped access, the guest having put its operand in the register. -/
  | trap (host : Host) (esr operand : Word)
  | set (host : Host) (enc : BitVec 16) (value : Word)
  | get (host : Host) (enc : BitVec 16)

namespace Access

def side : Access → Side
  | .trap .. => .guest
  | .set .. => .vmm
  | .get .. => .vmm

def enc : Access → BitVec 16
  | .trap _ esr _ => (SysAccess.ofEsr esr).enc
  | .set _ enc _ => enc
  | .get _ enc => enc

def written : Access → Option Word
  | .trap _ esr operand =>
      let a := SysAccess.ofEsr esr
      if a.read then none else some (if a.rt = 31 then 0 else operand)
  | .set _ _ value => some value
  | .get .. => none

def trapped (host : Host) (esr operand : Word) (v : VcpuView) : Bool × VcpuView :=
  serviceNv2Access host esr (v.setCtx (v.s.ctx.writeRt (SysAccess.ofEsr esr).rt operand))

def serve (v : VcpuView) : Access → VcpuView
  | .trap host esr operand => (trapped host esr operand v).2
  | .set host enc value => (hvVcpuSetSysReg host enc value v).2
  | .get host enc => (hvVcpuGetSysReg host enc v).view

def Asks : Access → Prop
  | .trap _ esr _ => (SysAccess.ofEsr esr).read = true ∧ (SysAccess.ofEsr esr).rt ≠ 31
  | .set .. => False
  | .get .. => True

def answer (v : VcpuView) : Access → Option Word
  | .trap host esr operand =>
      let a := SysAccess.ofEsr esr
      let result := trapped host esr operand v
      if result.1 = true ∧ a.read = true ∧ a.rt ≠ 31 then some (result.2.s.ctx.x a.rt.toNat)
      else none
  | .set .. => none
  | .get host enc =>
      let result := hvVcpuGetSysReg host enc v
      if result.rc = hvSuccess then some result.value else none

/-- The sync a register call may ask for leaves the page as it is. -/
def Still : Access → Prop
  | .trap .. => True
  | .set host _ _ => host.Still
  | .get host _ => host.Still

def Synced (a : Access) : Prop :=
  a.Still ∧ match a with
    | .trap .. => True
    | .set host _ _ => host.syncRc = hvSuccess
    | .get host _ => host.syncRc = hvSuccess

def Overwrites (S : Side) (enc : BitVec 16) (a : Access) : Prop :=
  a.written.isSome = true ∧ a.side.place a.enc = S.place enc

end Access

/-- What one side sees of a value the other, or itself, has written. -/
def seen (writer reader : Side) (enc : BitVec 16) (offset x : Word) : Word :=
  match writer, reader with
  | .guest, .guest => x
  | .guest, .vmm => if IsCval enc then x + offset else x
  | .vmm, .guest => if IsCval enc then x - offset else x
  | .vmm, .vmm => if enc = 0xe08a then x ||| 0x300000 else x

/-- What a write leaves in the register's place. -/
def Side.stores (S : Side) (enc : BitVec 16) (offset x : Word) : Word :=
  match S with
  | .guest => if IsCval enc then x + offset else x
  | .vmm => filterWrite enc x

def Side.loads (S : Side) (enc : BitVec 16) (offset raw : Word) : Word :=
  match S with
  | .guest => if IsCval enc then raw - offset else raw
  | .vmm => raw

theorem loads_stores (writer reader : Side) (enc : BitVec 16) (offset x : Word)
    (same : writer = reader ∨ enc ∈ sharedEncodings) :
    reader.loads enc offset (writer.stores enc offset x) = seen writer reader enc offset x := by
  cases writer with
  | guest =>
      cases reader with
      | guest =>
          simp only [Side.loads, Side.stores, seen]
          split
          · exact BitVec.add_sub_cancel x offset
          · rfl
      | vmm => rfl
  | vmm =>
      cases reader with
      | guest =>
          have shared : enc ∈ sharedEncodings := same.resolve_left fun never => Side.noConfusion never
          have unfiltered : enc ≠ encCptrEl2 := by
            rintro rfl
            exact absurd shared (by decide)
          simp only [Side.loads, Side.stores, seen, filterWrite, if_neg unfiltered]
      | vmm => rfl

theorem watched_free (p : RegPlace) (watched : p.Watched) : p.Free := by
  cases p with
  | page off => exact fun taken => watched.2.2 (Or.inr (Or.inr (Or.inr taken)))
  | shadow i => trivial
  | id slot => trivial

theorem held_watched (host : Host) (v : VcpuView) (p : RegPlace) (watched : p.Watched) :
    v.held host p = v.stored p := by
  refine v.stored_loadIdRegs host p fun slot same => ?_
  rw [same] at watched
  exact watched

theorem vmmPlace_eq_some {enc : BitVec 16} {p : RegPlace} (place : vmmPlace enc = some p) :
    ∃ d, sysregLookup enc = some d ∧ d.place = some p :=
  Option.bind_eq_some_iff.mp place

/-- The accesses of both sides keep the places apart. -/
theorem access_framed :
    Cells.Framed Access.serve (fun _ => True) Access.Still
      (fun a p => ¬ p.Watched ∨ a.written.isSome = true ∧ a.side.place a.enc = some p)
      VcpuView.stored where
  order := fun _ _ _ _ => trivial
  frame := by
    intro v a p _ still misses
    obtain ⟨seenToo, elsewhere⟩ := not_or.mp misses
    have watched : p.Watched := not_not.mp seenToo
    cases a with
    | trap host esr operand =>
        have operandSet := stored_writeRt watched v (SysAccess.ofEsr esr).rt operand
        refine (serviceNv2Access_leaves host esr _ p watched fun writes here => ?_).trans operandSet
        refine elsewhere ⟨?_, here⟩
        simp [Access.written, writes]
    | set host enc value =>
        have kept : (hvVcpuSetSysReg host enc value v).2.held host p = v.held host p := by
          refine hvVcpuSetSysReg_rest still enc value v p (watched_free p watched) fun d found here => ?_
          exact elsewhere ⟨rfl, Option.bind_eq_some_iff.mpr ⟨d, found, here⟩⟩
        rw [held_watched host _ p watched, held_watched host v p watched] at kept
        exact kept
    | get host enc =>
        have kept := hvVcpuGetSysReg_held still enc v p
        rw [held_watched host _ p watched, held_watched host v p watched] at kept
        exact kept

theorem offset_place (S : Side) (enc : BitVec 16) : S.place enc ≠ some (.page ohvRwVtimerOffset) := by
  cases S with
  | guest =>
      have checked : ∀ cell ∈ guestCells, cell.2 ≠ .page ohvRwVtimerOffset := by
        decide +kernel
      intro here
      obtain ⟨cell, found, same⟩ := Option.map_eq_some_iff.mp here
      exact checked cell (List.mem_of_find?_eq_some found) same
  | vmm =>
      have checked : ∀ d ∈ sysRegTables, d.place ≠ some (.page ohvRwVtimerOffset) := by
        decide +kernel
      intro here
      obtain ⟨d, found, place⟩ := vmmPlace_eq_some here
      exact checked d (sysregLookup_mem enc d found) place

theorem serve_offset (v : VcpuView) (a : Access) (still : a.Still) :
    (a.serve v).s.ctx.vtimerOffset = v.s.ctx.vtimerOffset := by
  refine access_framed.frame v a (.page ohvRwVtimerOffset) trivial still ?_
  rintro (unwatched | ⟨-, here⟩)
  · exact unwatched (by decide)
  · exact offset_place _ _ here

theorem vmm_ready {host : Host} (synced : host.syncRc = hvSuccess) (d : SysRegDesc)
    (v : VcpuView) : ¬ d.Refused host v :=
  fun refused => refused.2.2 synced

theorem write_stores (v : VcpuView) (w : Access) (dual : w.enc ∈ dualEncodings) (x : Word)
    (written : w.written = some x) (synced : w.Synced) (p : RegPlace) (watched : p.Watched)
    (place : w.side.place w.enc = some p) :
    (w.serve v).stored p = w.side.stores w.enc v.s.ctx.vtimerOffset x := by
  cases w with
  | trap host esr operand =>
      have serves := guest_serves host esr
        (v.setCtx (v.s.ctx.writeRt (SysAccess.ofEsr esr).rt operand)) dual p place
      have writes : (SysAccess.ofEsr esr).read = false := by
        cases read : (SysAccess.ofEsr esr).read with
        | true =>
            simp only [Access.written, read, if_true] at written
            cases written
        | false => rfl
      have offset := stored_writeRt (p := .page ohvRwVtimerOffset) (by decide) v
        (SysAccess.ofEsr esr).rt operand
      have value : (v.s.ctx.writeRt (SysAccess.ofEsr esr).rt operand).readRt
          (SysAccess.ofEsr esr).rt = x := by
        rw [readRt_writeRt]
        simpa [Access.written, writes] using written
      have stored := serves.stores writes
      rw [show (v.setCtx (v.s.ctx.writeRt (SysAccess.ofEsr esr).rt operand)).s.ctx.readRt
        (SysAccess.ofEsr esr).rt = x from value] at stored
      rw [show (v.setCtx (v.s.ctx.writeRt (SysAccess.ofEsr esr).rt operand)).s.ctx.vtimerOffset =
        v.s.ctx.vtimerOffset from offset] at stored
      exact stored
  | set host enc value =>
      obtain ⟨still, success⟩ := synced
      obtain ⟨d, found, here⟩ := vmmPlace_eq_some place
      have wrote := (hvVcpuSetSysReg_wrote still found value v (vmm_ready success d v)).2
      have held := wrote.here p here
      rw [held_watched host _ p watched] at held
      rw [← Option.some.inj written]
      exact held
  | get host enc => cases written

theorem read_loads (v : VcpuView) (r : Access) (dual : r.enc ∈ dualEncodings) (asks : r.Asks)
    (synced : r.Synced) (p : RegPlace) (watched : p.Watched)
    (place : r.side.place r.enc = some p) :
    r.answer v = some (r.side.loads r.enc v.s.ctx.vtimerOffset (v.stored p)) := by
  cases r with
  | trap host esr operand =>
      obtain ⟨reads, used⟩ := asks
      have serves := guest_serves host esr
        (v.setCtx (v.s.ctx.writeRt (SysAccess.ofEsr esr).rt operand)) dual p place
      have offset := stored_writeRt (p := .page ohvRwVtimerOffset) (by decide) v
        (SysAccess.ofEsr esr).rt operand
      have same := stored_writeRt watched v (SysAccess.ofEsr esr).rt operand
      have loaded := serves.loads reads used
      rw [same, show (v.setCtx (v.s.ctx.writeRt (SysAccess.ofEsr esr).rt operand)).s.ctx.vtimerOffset =
        v.s.ctx.vtimerOffset from offset] at loaded
      exact (if_pos ⟨serves.carried, reads, used⟩).trans (congrArg some loaded)
  | set host enc value => exact asks.elim
  | get host enc =>
      obtain ⟨still, success⟩ := synced
      obtain ⟨d, found, here⟩ := vmmPlace_eq_some place
      have reads := hvVcpuGetSysReg_reads still found v (vmm_ready success d v)
      rw [here, Option.map_some, Option.getD_some, held_watched host v p watched] at reads
      exact (if_pos reads.1).trans (congrArg some reads.2)

/-- A side reads back what was last written to its register: by either side where
the two keep one register, by the side itself where they keep two. -/
theorem views_read_last_write (S : Side) (enc : BitVec 16) (both : BothAnswer enc) :
    (∀ T enc', BothAnswer enc' →
      (T.place enc' = S.place enc ↔ enc' = enc ∧ (T = S ∨ enc ∈ sharedEncodings))) ∧
    ∀ (v : VcpuView) (w : Access) (x : Word), w.enc = enc → w.written = some x → w.Synced →
      w.side = S ∨ enc ∈ sharedEncodings →
      ∀ later : List Access, (∀ a ∈ later, a.Still ∧ ¬ a.Overwrites S enc) →
      ∀ r : Access, r.side = S → r.enc = enc → r.Asks → r.Synced →
        r.answer (later.foldl Access.serve (w.serve v)) =
          some (seen w.side S enc v.s.ctx.vtimerOffset x) := by
  have dual := dual_of_both enc both
  refine ⟨fun T enc' both' => dual_places S T enc enc' dual (dual_of_both enc' both'), ?_⟩
  intro v w x named written synced lands later apart r side asked asks synced'
  obtain ⟨row, listed, here⟩ := List.mem_map.mp dual
  have place : S.place enc = some (S.pick row.2) := by
    rw [← here]
    exact dual_place S row listed
  have watched := dual_watched S row listed
  generalize S.pick row.2 = p at place watched
  have landed : w.side.place w.enc = some p := by
    rw [named, ← place]
    exact (dual_places S w.side enc enc dual dual).mpr ⟨rfl, lands⟩
  have stored := write_stores v w (named ▸ dual) x written synced p watched landed
  have misses : ∀ a ∈ later, a.Still ∧
      ¬ (¬ p.Watched ∨ a.written.isSome = true ∧ a.side.place a.enc = some p) := by
    intro a member
    obtain ⟨still, leaves⟩ := apart a member
    refine ⟨still, ?_⟩
    rintro (unwatched | ⟨writes, taken⟩)
    · exact unwatched watched
    · exact leaves ⟨writes, taken.trans place.symm⟩
  have held := access_framed.holds_written trivial stored later misses
  have offset := access_framed.holds_written (p := .page ohvRwVtimerOffset) trivial
    (serve_offset v w synced.1) later fun a member => ⟨(apart a member).1, by
      rintro (unwatched | ⟨-, taken⟩)
      · exact unwatched (by decide)
      · exact offset_place _ _ taken⟩
  rw [read_loads _ r (asked ▸ dual) asks synced' p watched (by rw [side, asked, place])]
  rw [show (later.foldl Access.serve (w.serve v)).s.ctx.vtimerOffset = v.s.ctx.vtimerOffset from
    offset, held, side, asked, named]
  exact congrArg some (loads_stores w.side S enc _ x lands)

/-- The VMM sets `CNTV_CVAL_EL0`, the guest sees it in its own counter. -/
theorem cntv_cval_translated :
    let v : VcpuView := ⟨{}, { ctx := Ctx.put ⟨⟨fun _ => 0⟩⟩ ohvRwVtimerOffset 16 }⟩
    Access.answer ([Access.set {} 0xdf12 3, .get {} 0xdf1a].foldl Access.serve
      (Access.serve v (.set {} 0xdf1a 100))) (.trap {} 0x6234f807 0) = some 84 := by
  intro v
  have both : BothAnswer 0xdf1a :=
    ⟨⟨{}, 0x6234f807, v, by decide, by decide +kernel⟩, {}, v, by decide +kernel⟩
  have value : seen .vmm .guest 0xdf1a v.s.ctx.vtimerOffset 100 = 84 := by
    decide +kernel
  rw [← value]
  refine (views_read_last_write .guest 0xdf1a both).2 v (.set {} 0xdf1a 100) 100 rfl rfl
    ⟨fun _ _ => rfl, rfl⟩ (Or.inr (by decide)) [.set {} 0xdf12 3, .get {} 0xdf1a] ?_
    (.trap {} 0x6234f807 0) rfl (by decide) ⟨by decide, by decide⟩ ⟨trivial, trivial⟩
  intro a member
  simp only [List.mem_cons, List.not_mem_nil, or_false] at member
  rcases member with rfl | rfl
  · refine ⟨fun _ _ => rfl, ?_⟩
    rintro ⟨-, taken⟩
    revert taken
    decide +kernel
  · refine ⟨fun _ _ => rfl, ?_⟩
    rintro ⟨never, -⟩
    cases never

/-- `SCTLR_EL2` as the VMM sets it is not what the guest reads. -/
theorem sctlr_el2_views_differ :
    BothAnswer 0xe080 ∧
      ¬ ∀ (v : VcpuView) (w r : Access) (x : Word), w.enc = 0xe080 → w.written = some x →
        w.Synced → r.enc = 0xe080 → r.Asks → r.Synced →
        r.answer (w.serve v) = some (seen w.side r.side 0xe080 v.s.ctx.vtimerOffset x) := by
  have both : BothAnswer 0xe080 :=
    ⟨⟨{}, 0x62310401, ⟨{}, {}⟩, by decide, by decide +kernel⟩, {}, ⟨{}, {}⟩, by decide +kernel⟩
  refine ⟨both, fun agree => ?_⟩
  have same := agree ⟨{}, {}⟩ (.set {} 0xe080 5) (.trap {} 0x62310401 0) 5 rfl rfl
    ⟨fun _ _ => rfl, rfl⟩ (by decide) ⟨by decide, by decide⟩ ⟨trivial, trivial⟩
  revert same
  decide +kernel

end OpenHypervisor
