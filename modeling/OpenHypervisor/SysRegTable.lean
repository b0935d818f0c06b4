import OpenHypervisor.State

/-!
# The system register table

`ohv_sysreg_table.cpp` and `ohv_sysreg_apple.cpp`: where in the context a
register the VMM names lives, and `ohv_id_slot` with the narrowing of the ID
registers of `ohv_misc.cpp`.
-/

set_option autoImplicit false

namespace OpenHypervisor

inductive SysRegKind where
  | shared
  | banked
  | extreg
  | debug
  | roId
  /-- The index is the context offset itself, over eight. -/
  | raw
  /-- No context slot; see `el2Shadow`. -/
  | shadow
  deriving DecidableEq, Repr

structure SysRegDesc where
  encoding : BitVec 16
  kind : SysRegKind
  index : Nat
  dirtyBit : Word
  syncBefore : Bool

def kTable : List SysRegDesc := [
  ⟨0x8004, .roId, 0, 0, false⟩, ⟨0x8005, .roId, 0, 0, false⟩, ⟨0x8006, .roId, 0, 0, false⟩,
  ⟨0x8007, .roId, 0, 0, false⟩, ⟨0x800c, .roId, 0, 0, false⟩, ⟨0x800d, .roId, 0, 0, false⟩,
  ⟨0x800e, .roId, 0, 0, false⟩, ⟨0x800f, .roId, 0, 0, false⟩,
  ⟨0x8010, .debug, 64, ohvStateDebug, true⟩, ⟨0x8012, .shared, 0, 0, false⟩,
  ⟨0x8014, .roId, 0, 0, false⟩, ⟨0x8015, .roId, 0, 0, false⟩, ⟨0x8016, .roId, 0, 0, false⟩,
  ⟨0x8017, .roId, 0, 0, false⟩, ⟨0x801c, .roId, 0, 0, false⟩, ⟨0x801d, .roId, 0, 0, false⟩,
  ⟨0x801e, .roId, 0, 0, false⟩, ⟨0x801f, .roId, 0, 0, false⟩, ⟨0x8024, .roId, 0, 0, false⟩,
  ⟨0x8025, .roId, 0, 0, false⟩, ⟨0x8026, .roId, 0, 0, false⟩, ⟨0x8027, .roId, 0, 0, false⟩,
  ⟨0x802c, .roId, 0, 0, false⟩, ⟨0x802d, .roId, 0, 0, false⟩, ⟨0x802e, .roId, 0, 0, false⟩,
  ⟨0x802f, .roId, 0, 0, false⟩, ⟨0x8034, .roId, 0, 0, false⟩, ⟨0x8035, .roId, 0, 0, false⟩,
  ⟨0x8036, .roId, 0, 0, false⟩, ⟨0x8037, .roId, 0, 0, false⟩, ⟨0x803c, .roId, 0, 0, false⟩,
  ⟨0x803d, .roId, 0, 0, false⟩, ⟨0x803e, .roId, 0, 0, false⟩, ⟨0x803f, .roId, 0, 0, false⟩,
  ⟨0x8044, .roId, 0, 0, false⟩, ⟨0x8045, .roId, 0, 0, false⟩, ⟨0x8046, .roId, 0, 0, false⟩,
  ⟨0x8047, .roId, 0, 0, false⟩, ⟨0x804c, .roId, 0, 0, false⟩, ⟨0x804d, .roId, 0, 0, false⟩,
  ⟨0x804e, .roId, 0, 0, false⟩, ⟨0x804f, .roId, 0, 0, false⟩, ⟨0x8054, .roId, 0, 0, false⟩,
  ⟨0x8055, .roId, 0, 0, false⟩, ⟨0x8056, .roId, 0, 0, false⟩, ⟨0x8057, .roId, 0, 0, false⟩,
  ⟨0x805c, .roId, 0, 0, false⟩, ⟨0x805d, .roId, 0, 0, false⟩, ⟨0x805e, .roId, 0, 0, false⟩,
  ⟨0x805f, .roId, 0, 0, false⟩, ⟨0x8064, .roId, 0, 0, false⟩, ⟨0x8065, .roId, 0, 0, false⟩,
  ⟨0x8066, .roId, 0, 0, false⟩, ⟨0x8067, .roId, 0, 0, false⟩, ⟨0x806c, .roId, 0, 0, false⟩,
  ⟨0x806d, .roId, 0, 0, false⟩, ⟨0x806e, .roId, 0, 0, false⟩, ⟨0x806f, .roId, 0, 0, false⟩,
  ⟨0x8074, .roId, 0, 0, false⟩, ⟨0x8075, .roId, 0, 0, false⟩, ⟨0x8076, .roId, 0, 0, false⟩,
  ⟨0x8077, .roId, 0, 0, false⟩, ⟨0x807c, .roId, 0, 0, false⟩, ⟨0x807d, .roId, 0, 0, false⟩,
  ⟨0x807e, .roId, 0, 0, false⟩, ⟨0x807f, .roId, 0, 0, false⟩, ⟨0xc000, .roId, 0, 0, false⟩,
  ⟨0xc005, .roId, 0, 0, false⟩, ⟨0xc020, .roId, 0, 0, false⟩, ⟨0xc021, .roId, 0, 0, false⟩,
  ⟨0xc028, .roId, 0, 0, false⟩, ⟨0xc029, .roId, 0, 0, false⟩, ⟨0xc030, .roId, 0, 0, false⟩,
  ⟨0xc031, .roId, 0, 0, false⟩, ⟨0xc038, .roId, 0, 0, false⟩, ⟨0xc039, .roId, 0, 0, false⟩,
  ⟨0xc03a, .roId, 0, 0, false⟩, ⟨0xc080, .banked, 12, ohvStateSysregs, true⟩,
  ⟨0xc082, .banked, 13, ohvStateSysregs, true⟩, ⟨0xc100, .banked, 0, ohvStateSysregs, true⟩,
  ⟨0xc101, .banked, 1, ohvStateSysregs, true⟩, ⟨0xc102, .banked, 2, ohvStateSysregs, true⟩,
  ⟨0xc108, .extreg, 33, ohvStatePtrauthArm, true⟩,
  ⟨0xc109, .extreg, 32, ohvStatePtrauthArm, true⟩,
  ⟨0xc10a, .extreg, 35, ohvStatePtrauthArm, true⟩,
  ⟨0xc10b, .extreg, 34, ohvStatePtrauthArm, true⟩,
  ⟨0xc110, .extreg, 37, ohvStatePtrauthArm, true⟩,
  ⟨0xc111, .extreg, 36, ohvStatePtrauthArm, true⟩,
  ⟨0xc112, .extreg, 39, ohvStatePtrauthArm, true⟩,
  ⟨0xc113, .extreg, 38, ohvStatePtrauthArm, true⟩,
  ⟨0xc118, .extreg, 31, ohvStatePtrauthArm, true⟩,
  ⟨0xc119, .extreg, 30, ohvStatePtrauthArm, true⟩, ⟨0xc200, .banked, 14, ohvStateSysregs, true⟩,
  ⟨0xc201, .banked, 3, ohvStateSysregs, true⟩, ⟨0xc208, .shared, 4, 0, false⟩,
  ⟨0xc288, .banked, 15, ohvStateSysregs, true⟩, ⟨0xc289, .banked, 16, ohvStateSysregs, true⟩,
  ⟨0xc290, .banked, 5, ohvStateSysregs, true⟩, ⟨0xc300, .banked, 4, ohvStateSysregs, true⟩,
  ⟨0xc3a0, .shared, 6, 0, false⟩, ⟨0xc510, .banked, 6, ohvStateSysregs, true⟩,
  ⟨0xc518, .banked, 7, ohvStateSysregs, true⟩, ⟨0xc600, .banked, 8, ohvStateSysregs, true⟩,
  ⟨0xc681, .banked, 17, ohvStateSysregs, true⟩, ⟨0xc684, .shared, 1, 0, false⟩,
  ⟨0xc708, .banked, 20, ohvStateSysregs, true⟩, ⟨0xd000, .shared, 7, 0, false⟩,
  ⟨0xde82, .shared, 2, 0, false⟩, ⟨0xde83, .shared, 3, 0, false⟩,
  ⟨0xdf19, .banked, 18, ohvStateSysregs, true⟩, ⟨0xdf1a, .banked, 9, ohvStateSysregs, true⟩,
  ⟨0xe208, .shared, 5, 0, false⟩, ⟨0xdf11, .shadow, 30, 0, false⟩,
  ⟨0xdf12, .banked, 10, ohvStateSysregs, true⟩]

def kAppleTable : List SysRegDesc := [
  ⟨0xf788, .extreg, 55, ohvStateSprr, true⟩, ⟨0xf78d, .extreg, 58, ohvStateSprr, true⟩,
  ⟨0xf78e, .extreg, 57, ohvStateSprr, true⟩, ⟨0xf78a, .extreg, 42, ohvStateGxf, true⟩,
  ⟨0xf7c1, .extreg, 43, ohvStateGxf, true⟩, ⟨0xf7c2, .extreg, 44, ohvStateGxf, true⟩,
  ⟨0xf7d0, .extreg, 45, ohvStateGxf, true⟩, ⟨0xf7d1, .extreg, 46, ohvStateGxf, true⟩,
  ⟨0xf7d2, .extreg, 48, ohvStateGxf, true⟩, ⟨0xf7d3, .extreg, 52, ohvStateGxf, true⟩,
  ⟨0xf7d4, .extreg, 47, ohvStateGxf, true⟩, ⟨0xf7d5, .extreg, 50, ohvStateGxf, true⟩,
  ⟨0xf7d6, .extreg, 51, ohvStateGxf, true⟩, ⟨0xf7d7, .extreg, 49, ohvStateGxf, true⟩]

def kEl2Table : List SysRegDesc := [
  ⟨0xe000, .raw, 297, ohvStateControls, false⟩, ⟨0xe005, .raw, 296, ohvStateControls, false⟩,
  ⟨0xe08a, .raw, 294, ohvStateControls, false⟩, ⟨0xe089, .raw, 295, ohvStateControls, false⟩,
  ⟨0xe088, .raw, 527, ohvStateControls, false⟩, ⟨0xe108, .raw, 516, ohvStateControls, false⟩,
  ⟨0xe10a, .raw, 520, ohvStateControls, false⟩, ⟨0xe703, .raw, 524, ohvStateControls, false⟩,
  ⟨0xe682, .raw, 530, ohvStateControls, false⟩, ⟨0xe784, .extreg, 29, ohvStatePtrauthApple, true⟩,
  ⟨0xe789, .extreg, 40, ohvStatePtrauthApple, true⟩,
  ⟨0xe788, .extreg, 41, ohvStatePtrauthApple, true⟩, ⟨0xf7c7, .extreg, 53, ohvStateGxf, true⟩,
  ⟨0xf781, .extreg, 54, ohvStateGxf, true⟩, ⟨0xf78b, .extreg, 56, ohvStateSprr, true⟩,
  ⟨0xf799, .extreg, 59, ohvStateSprr, true⟩, ⟨0xe7f9, .extreg, 76, ohvStateJitbox, true⟩,
  ⟨0xe7fc, .extreg, 77, ohvStateJitbox, true⟩, ⟨0xe7ed, .extreg, 78, ohvStateJitbox, true⟩,
  ⟨0xe7ec, .extreg, 79, ohvStateJitbox, true⟩, ⟨0xe7ef, .extreg, 80, ohvStateJitbox, true⟩,
  ⟨0xe7ee, .extreg, 81, ohvStateJitbox, true⟩, ⟨0xe080, .shadow, 0, 0, false⟩,
  ⟨0xe100, .shadow, 2, 0, false⟩, ⟨0xe101, .shadow, 3, 0, false⟩, ⟨0xe102, .shadow, 4, 0, false⟩,
  ⟨0xe200, .shadow, 5, 0, false⟩, ⟨0xe201, .shadow, 6, 0, false⟩, ⟨0xe290, .shadow, 7, 0, false⟩,
  ⟨0xe300, .shadow, 8, 0, false⟩, ⟨0xe304, .shadow, 9, 0, false⟩, ⟨0xe510, .shadow, 10, 0, false⟩,
  ⟨0xe600, .shadow, 11, 0, false⟩, ⟨0xe708, .shadow, 12, 0, false⟩,
  ⟨0xf208, .shadow, 13, 0, false⟩]

def findDesc (table : List SysRegDesc) (enc : BitVec 16) : Option SysRegDesc :=
  table.find? fun d => d.encoding == enc

def sysregLookupApple (enc : BitVec 16) : Option SysRegDesc :=
  (findDesc kAppleTable enc).or (findDesc kEl2Table enc)

/-- The hand-kept Apple tables are asked first. -/
def sysregLookup (enc : BitVec 16) : Option SysRegDesc :=
  (sysregLookupApple enc).or (findDesc kTable enc)

namespace SysRegDesc

/-- The base of the region the index counts in; the two kinds that are answered
without the context have none. -/
def region (d : SysRegDesc) : Option Nat :=
  match d.kind with
  | .shared => some ohvRwSharedSysregs
  | .banked => some ohvRwBankedSysregs
  | .extreg => some ohvRwExtregs
  | .debug => some ohvRwDbgregs
  | .raw => some 0
  | .roId | .shadow => none

def need (d : SysRegDesc) : Word :=
  match d.kind with
  | .shared | .banked => ohvStateSysregs
  | .debug => ohvStateDebug
  | .extreg => ohvStatePtrauthArm
  | .raw => ohvStateControls
  | .roId | .shadow => 0

end SysRegDesc

/-! ## The ID registers -/

def kCapsMap : List (BitVec 16 × Nat) := [
  (0xc028, 0), (0xc029, 1), (0xc030, 2), (0xc031, 3), (0xc038, 4), (0xc039, 5), (0xc03a, 6),
  (0xc020, 7), (0xc021, 8), (0xd801, 9), (0xc801, 10), (0xd807, 11)]

def ohvIdSlotMidr : Nat := 18
def ohvIdSlotMpidr : Nat := 19
def hvSysRegMidrEl1 : BitVec 16 := 0xc000
def hvSysRegMpidrEl1 : BitVec 16 := 0xc005

def ohvIdSlot (enc : BitVec 16) : Option Nat :=
  if enc = hvSysRegMidrEl1 then some ohvIdSlotMidr
  else if enc = hvSysRegMpidrEl1 then some ohvIdSlotMpidr
  else (kCapsMap.find? fun e => e.1 == enc).map Prod.snd

/-- PARange, rounded down to a value the field can name. -/
def parangeField (ipaBits : Nat) : Word :=
  if ipaBits ≥ 52 then 6
  else if ipaBits ≥ 48 then 5
  else if ipaBits ≥ 44 then 4
  else if ipaBits ≥ 42 then 3
  else if ipaBits ≥ 40 then 2
  else if ipaBits ≥ 36 then 1
  else 0

def ohvIdRegFor (ipaBits : Nat) (c : Capabilities) (which : Nat) (forConfig : Bool) : Word :=
  match which with
  | 3 => c.idAa64isar1El1 &&& (if forConfig then 0x00F0FFFFFFFFFFFF else 0x0000FFFFFFFFFFFF)
  | 0 => (c.idAa64dfr0El1 &&& 0xF0F0F000) ||| 6
  | 2 => c.idAa64isar0El1 &&& 0xFFFFFFFFF0FFFFF0
  | 4 => (c.idAa64mmfr0El1 &&& 0x0000F000FFF000F0) ||| parangeField ipaBits
  | 5 => c.idAa64mmfr1El1 &&& 0x0000F000FFFFF0F0
  | 6 => c.idAa64mmfr2El1 &&& 0xF0FF00FF0F0FF0FF
  | 7 => c.idAa64pfr0El1 &&& 0xFF0F0000F0FF00FF
  | 8 => c.idAa64pfr1El1 &&& 0x0000000F0F00000F
  | 9 => c.ctrEl0
  | 10 => c.clidrEl1
  | 11 => c.dczidEl0
  | 12 =>
      let raw := c.idAa64smfr0El1
      if 0x0200000000000000#64 < (raw &&& 0x0F00000000000000) then
        (raw &&& 0x90F1FFFF70000000) ||| 0x0200000000000000
      else raw &&& 0x9FF1FFFF70000000
  | 13 =>
      let raw := c.idAa64zfr0El1
      if raw &&& 0xF ≤ 2 then raw &&& 0x0FF0FF0F0FFF00FF
      else (raw &&& 0x0FF0FF0F0FFF00F0) ||| 2
  | _ => 0

def ohvCapsField (ipaBits : Nat) (c : Capabilities) (enc : BitVec 16) : Word :=
  if enc = hvSysRegMidrEl1 then 0x610f0000
  else
    match kCapsMap.find? fun e => e.1 == enc with
    | some e => ohvIdRegFor ipaBits c e.2 false
    | none => 0

/-! ## What the tables never name -/

theorem table_avoids_hcr (d : SysRegDesc) (listed : d ∈ kAppleTable ++ kEl2Table ++ kTable)
    (base : Nat) (region : d.region = some base) :
    base + d.index * 8 ≠ ohvRwControls ∧ base + d.index * 8 < ohvRoVer := by
  have checked : ∀ d ∈ kAppleTable ++ kEl2Table ++ kTable, ∀ base ∈ d.region,
      base + d.index * 8 ≠ ohvRwControls ∧ base + d.index * 8 < ohvRoVer := by
    decide +kernel
  exact checked d listed base region

theorem sysregLookup_mem (enc : BitVec 16) (d : SysRegDesc) (found : sysregLookup enc = some d) :
    d ∈ kAppleTable ++ kEl2Table ++ kTable := by
  have member : ∀ table, findDesc table enc = some d → d ∈ table := by
    intro table hit
    exact List.mem_of_find?_eq_some hit
  simp only [sysregLookup, sysregLookupApple, Option.or_eq_some_iff] at found
  simp only [List.mem_append]
  rcases found with (apple | ⟨-, el2⟩) | ⟨-, plain⟩
  · exact Or.inl (Or.inl (member _ apple))
  · exact Or.inl (Or.inr (member _ el2))
  · exact Or.inr (member _ plain)

end OpenHypervisor
