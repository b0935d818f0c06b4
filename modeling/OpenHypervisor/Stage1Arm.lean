import Mathlib.Algebra.Group.Nat.Defs
import OpenHypervisor.GuestPointer
import OpenHypervisor.Stage1Walk

/-!
# The stage-1 walk and the architecture's

The reference: the translation table walk of the architecture for one stage at EL1,
with 48-bit output addresses and without access flag, permissions or the disabling of
a half.  It refuses an address whose top bits do not repeat bit 63 and a descriptor
that is reserved.  The code's walk is this one wherever the tables are legal and the
address is canonical; where they are not, it is said exactly when it still faults.
-/

set_option autoImplicit false

namespace OpenHypervisor

open TableWalk

/-! ## The reference -/

inductive Granule where
  | kib4
  | kib16
  | kib64
  deriving DecidableEq, Repr

namespace Granule

def pageBits : Granule → Nat
  | kib4 => 12
  | kib16 => 14
  | kib64 => 16

def hasBlocks : Granule → Nat → Bool
  | kib4, level => level == 1 || level == 2
  | kib16, level => level == 2
  | kib64, level => level == 2

def maxAddressBits : Granule → Nat
  | kib4 => 48
  | kib16 => 48
  | kib64 => 52

def split (g : Granule) (addressBits : Nat) : Split := ⟨g.pageBits, g.pageBits - 3, addressBits⟩

end Granule

inductive Selects : Bool → BitVec 2 → Granule → Prop
  | tg0Kib4 : Selects false 0 .kib4
  | tg0Kib64 : Selects false 1 .kib64
  | tg0Kib16 : Selects false 2 .kib16
  | tg1Kib16 : Selects true 1 .kib16
  | tg1Kib4 : Selects true 2 .kib4
  | tg1Kib64 : Selects true 3 .kib64

def Canonical (addressBits : Nat) (va : Word) : Prop :=
  ∀ i < 64, addressBits ≤ i → va.getLsbD i = va.getLsbD 63

instance (addressBits : Nat) (va : Word) : Decidable (Canonical addressBits va) :=
  inferInstanceAs (Decidable (∀ i < 64, addressBits ≤ i → _))

/-- Bits 1:0 are 01 at the last level, or at one the granule has no blocks at. -/
def Reserved (g : Granule) (below : Nat) (d : Word) : Prop :=
  d.toNat % 4 = 1 ∧ (below = 0 ∨ g.hasBlocks (3 - below) = false)

instance (g : Granule) (below : Nat) (d : Word) : Decidable (Reserved g below d) :=
  inferInstanceAs (Decidable (_ ∧ _))

def armEntry (g : Granule) (p : Split) (below : Nat) (d : Word) : Entry :=
  if d.toNat % 2 = 0 then .absent
  else if Reserved g below d then .reserved
  else if d.toNat % 4 = 1 then .output (field d (p.lsb below))
  else if below = 0 then .output (field d p.pageBits)
  else .table (field d p.pageBits)

/-- The first table is aligned to its own size, of eight bytes an entry. -/
def armBase (p : Split) (ttbr : Word) : Nat := field ttbr (3 + p.width (p.top 3))

def armWalk (maps : List MapRecord) (mem : HostMem) (g : Granule) (va : Word) (p : Split)
    (below table : Nat) : Option Nat :=
  walk (guestEntry maps mem) (armEntry g p) (entryOffset p va) (pageOffset p va) below table

/-- The walk starts at level 4 less the levels the address needs. -/
def armTranslate (maps : List MapRecord) (mem : HostMem) (g : Granule) (addressBits : Nat)
    (ttbr va : Word) : Option Nat :=
  let p := g.split addressBits
  if Canonical addressBits va then armWalk maps mem g va p (3 - (4 - p.levels)) (armBase p ttbr)
  else none

/-- Bit 0, and on a hit bits 47:12. -/
def ParAgrees (par : Word) : Option Nat → Prop
  | none => par.getLsbD 0 = true
  | some address => par.getLsbD 0 = false ∧ par.toNat % 2 ^ 48 / 2 ^ 12 = address / 2 ^ 12

def ArmVisits (maps : List MapRecord) (mem : HostMem) (g : Granule) (va : Word) (p : Split)
    (base last at' : Nat) : Prop :=
  Visits (guestEntry maps mem) (armEntry g p) (entryOffset p va) (p.top 3) base last at'

/-- Every descriptor met is invalid or legal. -/
def LegalTables (maps : List MapRecord) (mem : HostMem) (g : Granule) (va : Word) (p : Split)
    (base : Nat) : Prop :=
  ∀ last at' d, ArmVisits maps mem g va p base last at' →
    guestEntry maps mem (at' + entryOffset p va last) = some d → ¬ Reserved g last d

/-! ## The granules in TCR_EL1 -/

theorem granuleBits_of_selects {upper : Bool} {tg : BitVec 2} {g : Granule}
    (selects : Selects upper tg g) : granuleBits upper tg = some g.pageBits := by
  cases selects <;> rfl

theorem selects_of_granuleBits {upper : Bool} {tg : BitVec 2} {pageBits : Nat}
    (named : granuleBits upper tg = some pageBits) :
    ∃ g, Selects upper tg g ∧ g.pageBits = pageBits := by
  have four : ∀ tg : BitVec 2, tg = 0 ∨ tg = 1 ∨ tg = 2 ∨ tg = 3 := by decide
  cases upper with
  | false =>
      obtain rfl | rfl | rfl | rfl := four tg
      · exact ⟨.kib4, .tg0Kib4, Option.some.inj named⟩
      · exact ⟨.kib64, .tg0Kib64, Option.some.inj named⟩
      · exact ⟨.kib16, .tg0Kib16, Option.some.inj named⟩
      · cases named
  | true =>
      obtain rfl | rfl | rfl | rfl := four tg
      · cases named
      · exact ⟨.kib16, .tg1Kib16, Option.some.inj named⟩
      · exact ⟨.kib4, .tg1Kib4, Option.some.inj named⟩
      · exact ⟨.kib64, .tg1Kib64, Option.some.inj named⟩

theorem Granule.pageBits_cases (g : Granule) :
    g.pageBits = 12 ∨ g.pageBits = 14 ∨ g.pageBits = 16 := by
  cases g <;> decide

theorem Granule.stride_le (g : Granule) : g.pageBits - 3 ≤ 13 := by
  cases g <;> decide

theorem Granule.maxAddressBits_le (g : Granule) : g.maxAddressBits ≤ 52 := by
  cases g <;> decide

theorem walkSplit_of_selects {s : VcpuSlot} {va : Word} {g : Granule}
    (selects : Selects (upperHalf va) (tgField s va) g) :
    walkSplit s va =
      if addressBits s va < g.pageBits ∨ 52 < addressBits s va then none
      else some (g.split (addressBits s va)) := by
  rw [walkSplit, granuleBits_of_selects selects]
  rfl

/-! ## One descriptor, as the code and as the architecture have it -/

section Entry

variable {g : Granule} {p : Split} {below : Nat} {d : Word}

/-- Only a reserved descriptor divides them. -/
theorem loopEntry_eq_armEntry (legal : ¬ Reserved g below d) :
    loopEntry p below d = armEntry g p below d := by
  rw [loopEntry, armEntry]
  by_cases invalid : d.toNat % 2 = 0
  · rw [if_pos invalid, if_pos invalid]
  · rw [if_neg invalid, if_neg invalid, if_neg legal]
    by_cases block : d.toNat % 4 = 1
    · rw [if_pos (.inr block), if_pos block]
    · rw [if_neg block]
      by_cases last : below = 0
      · have page : p.lsb 0 = p.pageBits := by rw [Split.lsb, Nat.zero_mul, Nat.add_zero]
        subst last
        rw [if_pos (.inl rfl), if_pos rfl, page]
      · rw [if_neg (by omega), if_neg last]

theorem loopEntry_of_reserved (reserved : Reserved g below d) :
    loopEntry p below d = .output (field d (p.lsb below)) := by
  have odd : ¬ d.toNat % 2 = 0 := by
    have one := reserved.1
    omega
  rw [loopEntry, if_neg odd, if_pos (.inr reserved.1)]

theorem armEntry_of_reserved (reserved : Reserved g below d) :
    armEntry g p below d = .reserved := by
  have odd : ¬ d.toNat % 2 = 0 := by
    have one := reserved.1
    omega
  rw [armEntry, if_neg odd, if_pos reserved]

theorem armEntry_table_iff {next : Nat} :
    armEntry g p below d = .table next ↔ loopEntry p below d = .table next := by
  by_cases reserved : Reserved g below d
  · rw [armEntry_of_reserved reserved, loopEntry_of_reserved reserved]
    constructor <;> intro impossible <;> cases impossible
  · rw [loopEntry_eq_armEntry reserved]

end Entry

/-! ## Where the two walks start -/

section Start

variable {g : Granule} {addressBits : Nat} (above : g.pageBits < addressBits)
  (fits : addressBits ≤ g.maxAddressBits)

include above fits in
theorem levels_split : 1 ≤ (g.split addressBits).levels ∧ (g.split addressBits).levels ≤ 4 := by
  refine ⟨Split.levels_pos (p := g.split addressBits) ?_ above, ?_⟩
  · cases g <;> exact Nat.zero_lt_succ _
  · have counted : (g.split addressBits).levels < 5 := by
      cases g with
      | kib4 =>
          simp only [Granule.split, Split.levels, Granule.pageBits, Granule.maxAddressBits] at *
          omega
      | kib16 =>
          simp only [Granule.split, Split.levels, Granule.pageBits, Granule.maxAddressBits] at *
          omega
      | kib64 =>
          simp only [Granule.split, Split.levels, Granule.pageBits, Granule.maxAddressBits] at *
          omega
    omega

include above fits in
theorem top_split : (g.split addressBits).top 3 = 3 - (4 - (g.split addressBits).levels) := by
  obtain ⟨least, most⟩ := levels_split above fits
  rw [Split.top]
  omega

/-- A page-aligned base, the lowest bit aside, is not rounded. -/
theorem field_of_aligned {ttbr : Word} {page n : Nat} (aligned : ttbr.toNat % 2 ^ page < 2)
    (small : page ≤ 48) (positive : 1 ≤ n) (within : n ≤ page) :
    field ttbr n = field ttbr page := by
  have multiple : ∀ m, 1 ≤ m → m ≤ page → field ttbr m = ttbr.toNat % 2 ^ 48 - ttbr.toNat % 2 := by
    intro m one most
    have low : ttbr.toNat % 2 ^ 48 % 2 ^ m = ttbr.toNat % 2 := by
      rw [Nat.mod_mod_of_dvd _ (Nat.pow_dvd_pow 2 (by omega))]
      have tail : ttbr.toNat % 2 ^ page % 2 ^ m = ttbr.toNat % 2 ^ m :=
        Nat.mod_mod_of_dvd _ (Nat.pow_dvd_pow 2 most)
      have parity : ttbr.toNat % 2 ^ page % 2 = ttbr.toNat % 2 :=
        Nat.mod_mod_of_dvd _ (Nat.pow_dvd_pow 2 (show 1 ≤ page by omega))
      have two : 2 ≤ 2 ^ m := Nat.pow_le_pow_right (n := 2) (by omega) one
      rw [← tail, Nat.mod_eq_of_lt (by omega), ← parity, Nat.mod_eq_of_lt aligned]
    have parts := Nat.div_add_mod (ttbr.toNat % 2 ^ 48) (2 ^ m)
    rw [field, Nat.mul_comm]
    omega
  rw [multiple n positive within, multiple page (by omega) (Nat.le_refl page)]

end Start

/-! ## What PAR_EL1 reads as -/

theorem ohvParFault_bit : ohvParFault.getLsbD 0 = true := by decide

theorem parAgrees_parOf {answer : Option Nat} (low : ∀ address ∈ answer, address < 2 ^ 48) :
    ParAgrees (parOf answer) answer := by
  cases answer with
  | none => exact ohvParFault_bit
  | some address =>
      have small := low address rfl
      have value : (parOf (some address)).toNat = address / 2 ^ 12 * 2 ^ 12 := by
        rw [parOf, BitVec.toNat_ofNat]
        exact Nat.mod_eq_of_lt (by omega)
      refine ⟨?_, ?_⟩
      · rw [BitVec.getLsbD, value, Nat.testBit_zero]
        exact decide_eq_false (by omega)
      · rw [value]
        omega

theorem output_lt {d : Word} {n : Nat} (small : n ≤ 48) (va : Word) :
    field d n + va.toNat % 2 ^ n < 2 ^ 48 := by
  have whole : (2 : Nat) ^ 48 = 2 ^ n * 2 ^ (48 - n) := by
    rw [← Nat.pow_add]
    congr 1
    omega
  have top : d.toNat % 2 ^ 48 / 2 ^ n < 2 ^ (48 - n) := by
    rw [Nat.div_lt_iff_lt_mul (Nat.two_pow_pos n), Nat.mul_comm, ← whole]
    exact Nat.mod_lt _ (Nat.two_pow_pos 48)
  have offset : va.toNat % 2 ^ n < 2 ^ n := Nat.mod_lt _ (Nat.two_pow_pos n)
  calc field d n + va.toNat % 2 ^ n
      < field d n + 2 ^ n := Nat.add_lt_add_left offset _
    _ = (d.toNat % 2 ^ 48 / 2 ^ n + 1) * 2 ^ n := by rw [field, Nat.add_mul, Nat.one_mul]
    _ ≤ 2 ^ (48 - n) * 2 ^ n := Nat.mul_le_mul_right _ top
    _ = 2 ^ 48 := (Nat.mul_comm _ _).trans whole.symm

/-! ## What is read -/

section Reads

variable {maps : List MapRecord} {mem : HostMem} {va : Word} {p : Split} {last at' : Nat}

def tableBytes (p : Split) (level : Nat) : Nat := 8 * 2 ^ p.width (3 - level)

theorem visited_page {ttbr : Word} {below : Nat}
    (visits : Visits (guestEntry maps mem) (loopEntry p) (entryOffset p va) below
      (field ttbr p.pageBits) last at') : ∃ w, at' = field w p.pageBits := by
  apply visits.invariant (P := fun table => ∃ w, table = field w p.pageBits) ⟨ttbr, rfl⟩
  intro below entry next meaning
  exact ⟨entry, (loopEntry_table meaning).2⟩

theorem logged_inside (stride : p.stride ≤ 13) (shallow : last ≤ 3) (low : at' < 2 ^ 48) :
    (logged va p (last, at')).table.toNat = at' ∧
      (logged va p (last, at')).entry.toNat = at' + entryOffset p va last ∧
      entryOffset p va last + 8 ≤ tableBytes p (logged va p (last, at')).level ∧
      (logged va p (last, at')).entry.toNat + 8 < 2 ^ 64 := by
  have index : p.index va.toNat last < 2 ^ p.width last := Split.index_lt _ _
  have entries : 2 ^ p.width last ≤ 2 ^ 13 :=
    Nat.pow_le_pow_right (by omega) (Nat.le_trans (Split.width_le last) stride)
  have level : 3 - (3 - last) = last := by omega
  have offset : entryOffset p va last + 8 ≤ tableBytes p (3 - last) := by
    rw [tableBytes, level, entryOffset]
    omega
  have bounded : entryOffset p va last < 2 ^ 16 := by
    rw [entryOffset]
    omega
  have table : (logged va p (last, at')).table.toNat = at' := by
    rw [logged, BitVec.toNat_ofNat, Nat.mod_eq_of_lt (by omega)]
  have entry : (logged va p (last, at')).entry.toNat = at' + entryOffset p va last := by
    have small : at' + entryOffset p va last < 2 ^ 64 := by omega
    rw [logged, BitVec.toNat_ofNat]
    exact Nat.mod_eq_of_lt small
  refine ⟨table, entry, offset, ?_⟩
  rw [entry]
  omega

theorem tableWalk_lt {below table : Nat} (low : p.lsb below ≤ 48) {address : Nat}
    (answer : tableWalk maps mem va p below table = some address) : address < 2 ^ 48 := by
  obtain ⟨last, at', d, base, visits, -, meaning, rfl⟩ := walk_eq_some_iff.mp answer
  rw [loopEntry_output meaning]
  exact output_lt (Nat.le_trans (Split.lsb_mono visits.le) low) va

theorem walk_of_unheld {below table : Nat}
    (visits : Visits (guestEntry maps mem) (loopEntry p) (entryOffset p va) below table last at')
    (below' : (logged va p (last, at')).entry.toNat + 8 < 2 ^ 64)
    (unheld : ∀ m ∈ maps, ¬ m.Holds (logged va p (last, at')).entry 8) :
    tableWalk maps mem va p below table = none := by
  have unmapped : guestEntry maps mem (at' + entryOffset p va last) = none := by
    rw [guestEntry]
    exact congrArg (Option.map mem.read64) (ohvGuestPtr_eq_none_of_unheld below' unheld)
  refine (walk_eq_none_iff below table).mpr ⟨last, at', visits, ?_⟩
  intro entry read
  rw [unmapped] at read
  cases read

end Reads

/-! ## Legal tables -/

section Legal

variable {maps : List MapRecord} {mem : HostMem} {s : VcpuSlot} {va : Word} {g : Granule}
  (selects : Selects (upperHalf va) (tgField s va) g) (above : g.pageBits < addressBits s va)
  (fits : addressBits s va ≤ g.maxAddressBits)

include selects above fits in
theorem walkSplit_legal : walkSplit s va = some (g.split (addressBits s va)) := by
  rw [walkSplit_of_selects selects, if_neg]
  have most := g.maxAddressBits_le
  omega

theorem armBase_aligned {ttbr : Word} (aligned : ttbr.toNat % 2 ^ g.pageBits < 2) :
    armBase (g.split (addressBits s va)) ttbr = field ttbr g.pageBits := by
  have pages := g.pageBits_cases
  have narrow := Split.width_le (p := g.split (addressBits s va))
    ((g.split (addressBits s va)).top 3)
  have stride : (g.split (addressBits s va)).stride = g.pageBits - 3 := rfl
  rw [stride] at narrow
  exact field_of_aligned aligned (by omega) (by omega) (by omega)

include above fits in
/-- On legal tables the code's walk is the architecture's. -/
theorem tableWalk_eq_armWalk {ttbr : Word}
    (legal : LegalTables maps mem g va (g.split (addressBits s va))
      (armBase (g.split (addressBits s va)) ttbr))
    (aligned : ttbr.toNat % 2 ^ g.pageBits < 2) :
    tableWalk maps mem va (g.split (addressBits s va)) ((g.split (addressBits s va)).top 3)
        (field ttbr g.pageBits) =
      armWalk maps mem g va (g.split (addressBits s va))
        (3 - (4 - (g.split (addressBits s va)).levels))
        (armBase (g.split (addressBits s va)) ttbr) := by
  rw [← top_split above fits, ← armBase_aligned aligned]
  apply walk_congr
  intro last at' d visits read
  exact loopEntry_eq_armEntry (legal last at' d visits read)

section Answer

variable (on : (s.ctx.banked 12).getLsbD 0 = true)

include selects above fits on

theorem stage1_answer :
    ohvTranslateStage1 maps mem s va =
      parOf (tableWalk maps mem va (g.split (addressBits s va))
        ((g.split (addressBits s va)).top 3) (field (ttbrOf s va) g.pageBits)) := by
  rw [ohvTranslateStage1_eq maps mem va on, walkSplit_legal selects above fits]
  rfl

theorem stage1_log :
    (stage1Log maps mem s va).2 =
      (reads (guestEntry maps mem) (loopEntry (g.split (addressBits s va)))
        (entryOffset (g.split (addressBits s va)) va) ((g.split (addressBits s va)).top 3)
        (field (ttbrOf s va) g.pageBits)).map (logged va (g.split (addressBits s va))) := by
  rw [stage1Log_eq maps mem va on, walkSplit_legal selects above fits]
  rfl

theorem stage1_log_inside {r : DescRead} (read : r ∈ (stage1Log maps mem s va).2) :
    r.table.toNat ≤ r.entry.toNat ∧
      r.entry.toNat + 8 ≤ r.table.toNat + tableBytes (g.split (addressBits s va)) r.level ∧
      ((∀ m ∈ maps, ¬ m.Holds r.entry 8) →
        (ohvTranslateStage1 maps mem s va).getLsbD 0 = true) := by
  rw [stage1_log selects above fits on, List.mem_map] at read
  obtain ⟨⟨last, at'⟩, member, rfl⟩ := read
  have visits := mem_reads_iff.mp member
  have page : ∃ w, at' = field w g.pageBits := visited_page visits
  obtain ⟨w, page⟩ := page
  have shallow : last ≤ 3 := Nat.le_trans visits.le (Nat.min_le_left _ _)
  have stride : (g.split (addressBits s va)).stride ≤ 13 := g.stride_le
  have low : at' < 2 ^ 48 := page ▸ field_lt w _
  obtain ⟨table, entry, inside, below⟩ :
      (logged va (g.split (addressBits s va)) (last, at')).table.toNat = at' ∧ _ :=
    logged_inside stride shallow low
  refine ⟨by omega, by omega, fun unheld => ?_⟩
  rw [stage1_answer selects above fits on, walk_of_unheld visits below unheld]
  exact ohvParFault_bit

end Answer

end Legal

/-- The walk is the architectural one on legal tables: the same answer, from level
4 - ⌈(va_bits - page_bits) / (page_bits - 3)⌉ by at most four descriptors, each inside
its table; and where no region holds a descriptor the answer is a fault. -/
theorem stage1_eq_arm (maps : List MapRecord) (mem : HostMem) (s : VcpuSlot) (va : Word)
    (g : Granule) (on : (s.ctx.banked 12).getLsbD 0 = true)
    (selects : Selects (upperHalf va) (tgField s va) g) (above : g.pageBits < addressBits s va)
    (fits : addressBits s va ≤ g.maxAddressBits)
    (aligned : (ttbrOf s va).toNat % 2 ^ g.pageBits < 2)
    (canonical : Canonical (addressBits s va) va)
    (legal : LegalTables maps mem g va (g.split (addressBits s va))
      (armBase (g.split (addressBits s va)) (ttbrOf s va))) :
    ParAgrees (ohvTranslateStage1 maps mem s va)
        (armTranslate maps mem g (addressBits s va) (ttbrOf s va) va) ∧
      (stage1Log maps mem s va).1 = ohvTranslateStage1 maps mem s va ∧
      (stage1Log maps mem s va).2.head?.map DescRead.level = some (4 -
        (addressBits s va - g.pageBits + (g.pageBits - 3) - 1) / (g.pageBits - 3)) ∧
      (stage1Log maps mem s va).2.length ≤ 4 ∧
      ∀ r ∈ (stage1Log maps mem s va).2, r.table.toNat ≤ r.entry.toNat ∧
        r.entry.toNat + 8 ≤
          r.table.toNat + tableBytes (g.split (addressBits s va)) r.level ∧
        ((∀ m ∈ maps, ¬ m.Holds r.entry 8) →
          (ohvTranslateStage1 maps mem s va).getLsbD 0 = true) := by
  have top := top_split above fits
  obtain ⟨least, most⟩ := levels_split above fits
  have log : (stage1Log maps mem s va).2 = _ := stage1_log selects above fits on
  refine ⟨?_, stage1Log_fst maps mem s va, ?_, ?_,
    fun r read => stage1_log_inside selects above fits on read⟩
  · have reference : armTranslate maps mem g (addressBits s va) (ttbrOf s va) va =
        armWalk maps mem g va (g.split (addressBits s va))
          (3 - (4 - (g.split (addressBits s va)).levels))
          (armBase (g.split (addressBits s va)) (ttbrOf s va)) := if_pos canonical
    have short : addressBits s va ≤ 52 := Nat.le_trans fits g.maxAddressBits_le
    have low : (g.split (addressBits s va)).lsb ((g.split (addressBits s va)).top 3) ≤ 48 :=
      lsb_top_le g.pageBits_cases rfl short
    rw [reference, stage1_answer selects above fits on,
      ← tableWalk_eq_armWalk above fits legal aligned]
    exact parAgrees_parOf fun address given => tableWalk_lt low given
  · have start : (4 : Nat) - (addressBits s va - g.pageBits + (g.pageBits - 3) - 1) /
        (g.pageBits - 3) = 4 - (g.split (addressBits s va)).levels := rfl
    rw [log, start, List.head?_map, head_reads]
    simp only [Option.map_some, logged, top]
    congr 1
    omega
  · rw [log, List.length_map]
    refine Nat.le_trans (length_reads_le _ _) ?_
    omega

/-! A guest with a table at 0 and one at 0x1000, whose second page is at 0x4000. -/

def pagesSlot : VcpuSlot :=
  { ctx := (({} : VcpuSlot).ctx.setBanked 2 0x27).setBanked 12 1 }

def pagesMaps : List MapRecord := [⟨0x10000, 0, 0x2000⟩]

def pagesMem (page : Word) : HostMem :=
  { read64 := fun at' => if at' = 0x10000 then 0x1003 else if at' = 0x11008 then page else 0 }

theorem pages_reads :
    reads (guestEntry pagesMaps (pagesMem 0x4003)) (armEntry .kib4 (Granule.kib4.split 25))
      (entryOffset (Granule.kib4.split 25) 0x1234) ((Granule.kib4.split 25).top 3)
      (armBase (Granule.kib4.split 25) 0) = [(1, 0), (0, 0x1000)] := by
  decide +kernel

theorem stage1_eq_arm_pages :
    ohvTranslateStage1 pagesMaps (pagesMem 0x4003) pagesSlot 0x1234 = 0x4000 ∧
      ParAgrees (ohvTranslateStage1 pagesMaps (pagesMem 0x4003) pagesSlot 0x1234)
        (armTranslate pagesMaps (pagesMem 0x4003) .kib4 25 0 0x1234) := by
  have legal : LegalTables pagesMaps (pagesMem 0x4003) .kib4 0x1234 (Granule.kib4.split 25)
      (armBase (Granule.kib4.split 25) 0) := by
    intro last at' d visits read
    have member := mem_reads_iff.mpr visits
    rw [pages_reads] at member
    simp only [List.mem_cons, Prod.mk.injEq, List.not_mem_nil, or_false] at member
    have descriptors : guestEntry pagesMaps (pagesMem 0x4003) 0 = some 0x1003 ∧
        guestEntry pagesMaps (pagesMem 0x4003) 0x1008 = some 0x4003 ∧
        entryOffset (Granule.kib4.split 25) 0x1234 1 = 0 ∧
        entryOffset (Granule.kib4.split 25) 0x1234 0 = 8 := by decide +kernel
    obtain ⟨first, second, start, index⟩ := descriptors
    rcases member with ⟨rfl, rfl⟩ | ⟨rfl, rfl⟩
    · rw [start, first] at read
      rw [← Option.some.inj read]
      decide
    · rw [index, second] at read
      rw [← Option.some.inj read]
      decide
  refine ⟨?_, ?_⟩
  · rw [ohvTranslateStage1_eq _ _ _ (by decide)]
    decide +kernel
  · exact (stage1_eq_arm pagesMaps (pagesMem 0x4003) pagesSlot 0x1234 .kib4 (by decide) .tg0Kib4
      (by decide) (by decide) (by decide) (by decide +kernel) legal).1

/-! ## Addresses and descriptors the architecture refuses -/

/-- The loop's test `(desc & 3) == 1 || level == 3`, of a valid descriptor. -/
def TakenForLast (below : Nat) (d : Word) : Prop :=
  d.toNat % 2 ≠ 0 ∧ (below = 0 ∨ d.toNat % 4 = 1)

instance (below : Nat) (d : Word) : Decidable (TakenForLast below d) :=
  inferInstanceAs (Decidable (_ ∧ _))

/-- The size is one the code walks: VA bits beyond it are dropped by the index masks. -/
def Sized (s : VcpuSlot) (va : Word) (g : Granule) : Prop :=
  g.pageBits ≤ addressBits s va ∧ addressBits s va ≤ 52

/-- From the page TTBR points into, the tables lead to this descriptor and it passes the
loop's test. -/
def ComesToLast (maps : List MapRecord) (mem : HostMem) (s : VcpuSlot) (va : Word) (g : Granule)
    (last : Nat) (d : Word) : Prop :=
  ∃ at', Visits (guestEntry maps mem) (loopEntry (g.split (addressBits s va)))
      (entryOffset (g.split (addressBits s va)) va) ((g.split (addressBits s va)).top 3)
      (field (ttbrOf s va) g.pageBits) last at' ∧
    guestEntry maps mem (at' + entryOffset (g.split (addressBits s va)) va last) = some d ∧
    TakenForLast last d

def MeetsReserved (maps : List MapRecord) (mem : HostMem) (s : VcpuSlot) (va : Word) : Prop :=
  ∃ g, Selects (upperHalf va) (tgField s va) g ∧ ∃ last at' d,
    ArmVisits maps mem g va (g.split (addressBits s va))
      (armBase (g.split (addressBits s va)) (ttbrOf s va)) last at' ∧
    guestEntry maps mem (at' + entryOffset (g.split (addressBits s va)) va last) = some d ∧
    Reserved g last d

def PageAligned (s : VcpuSlot) (va : Word) (g : Granule) : Prop :=
  armBase (g.split (addressBits s va)) (ttbrOf s va) = field (ttbrOf s va) g.pageBits

/-- What has to be right about a descriptor that passes the test: the bits dropped from
the address, the 01 in the descriptor, and the table the walk came from. -/
structure RightlyLast (maps : List MapRecord) (mem : HostMem) (s : VcpuSlot) (va : Word)
    (g : Granule) (last : Nat) (d : Word) : Prop where
  canonical : Canonical (addressBits s va) va
  legal : PageAligned s va g → ¬ Reserved g last d
  aligned : ¬ PageAligned s va g → ¬ MeetsReserved maps mem s va

section Faults

variable {maps : List MapRecord} {mem : HostMem} {s : VcpuSlot} {va : Word} {g : Granule}

theorem Selects.unique {upper : Bool} {tg : BitVec 2} {other : Granule} (one : Selects upper tg g)
    (two : Selects upper tg other) : g = other := by
  cases one <;> cases two <;> rfl

theorem parOf_hit_iff {answer : Option Nat} :
    (parOf answer).getLsbD 0 = false ↔ ∃ address, answer = some address := by
  cases answer with
  | none => exact iff_of_false (by decide) nofun
  | some address =>
      refine iff_of_true ?_ ⟨address, rfl⟩
      have even : address / 2 ^ 12 * 2 ^ 12 % 2 ^ 64 % 2 = 0 := by omega
      rw [parOf, BitVec.getLsbD, BitVec.toNat_ofNat, Nat.testBit_zero, even]
      rfl

theorem loopEntry_output_iff {p : Split} {below : Nat} {d : Word} :
    (∃ base, loopEntry p below d = .output base) ↔ TakenForLast below d := by
  obtain ⟨invalid, entry⟩ | ⟨valid, leaf, entry⟩ | ⟨valid, inner, entry⟩ :=
    loopEntry_cases p below d
  · rw [entry]
    exact iff_of_false nofun fun taken => taken.1 invalid
  · rw [entry]
    exact iff_of_true ⟨_, rfl⟩ ⟨valid, leaf⟩
  · rw [entry]
    exact iff_of_false nofun fun taken => inner taken.2

theorem takenForLast_of_reserved {below : Nat} {d : Word} (reserved : Reserved g below d) :
    TakenForLast below d := by
  have one := reserved.1
  exact ⟨by omega, .inr one⟩

theorem stage1_hit_iff (maps : List MapRecord) (mem : HostMem) (va : Word)
    (on : (s.ctx.banked 12).getLsbD 0 = true) :
    (ohvTranslateStage1 maps mem s va).getLsbD 0 = false ↔
      ∃ g, Selects (upperHalf va) (tgField s va) g ∧ Sized s va g ∧
        ∃ last d, ComesToLast maps mem s va g last d := by
  rw [ohvTranslateStage1_eq maps mem va on]
  cases named : granuleBits (upperHalf va) (tgField s va) with
  | none =>
      have split : walkSplit s va = none := by
        rw [walkSplit, named]
        rfl
      rw [split]
      refine iff_of_false (fun hit => absurd (ohvParFault_bit.symm.trans hit) (by decide)) ?_
      rintro ⟨g, selects, -⟩
      rw [granuleBits_of_selects selects] at named
      cases named
  | some pageBits =>
      obtain ⟨g, selects, -⟩ := selects_of_granuleBits named
      rw [walkSplit_of_selects selects]
      by_cases sized : addressBits s va < g.pageBits ∨ 52 < addressBits s va
      · rw [if_pos sized]
        refine iff_of_false (fun hit => absurd (ohvParFault_bit.symm.trans hit) (by decide)) ?_
        rintro ⟨other, also, ⟨least, most⟩, -⟩
        obtain rfl := selects.unique also
        omega
      · rw [if_neg sized]
        have fits : Sized s va g := ⟨by omega, by omega⟩
        refine parOf_hit_iff.trans ⟨?_, ?_⟩
        · rintro ⟨address, answer⟩
          obtain ⟨last, at', d, base, visits, read, meaning, -⟩ := walk_eq_some_iff.mp answer
          exact ⟨g, selects, fits, last, d, at', visits, read,
            loopEntry_output_iff.mp ⟨base, meaning⟩⟩
        · rintro ⟨other, also, -, last, d, at', visits, read, taken⟩
          obtain rfl := selects.unique also
          obtain ⟨base, meaning⟩ := loopEntry_output_iff.mpr taken
          exact ⟨_, walk_eq_some_iff.mpr ⟨last, at', d, base, visits, read, meaning, rfl⟩⟩

theorem MeetsReserved.comes (meets : MeetsReserved maps mem s va)
    (selects : Selects (upperHalf va) (tgField s va) g) (aligned : PageAligned s va g) :
    ∃ last d, ComesToLast maps mem s va g last d ∧ Reserved g last d := by
  obtain ⟨other, also, last, at', d, visits, read, reserved⟩ := meets
  obtain rfl := selects.unique also
  rw [ArmVisits, aligned] at visits
  exact ⟨last, d, ⟨at', visits.follow fun _ _ _ meaning => armEntry_table_iff.mp meaning, read,
    takenForLast_of_reserved reserved⟩, reserved⟩

theorem ComesToLast.meets {last : Nat} {d : Word} (comes : ComesToLast maps mem s va g last d)
    (selects : Selects (upperHalf va) (tgField s va) g) (aligned : PageAligned s va g)
    (reserved : Reserved g last d) : MeetsReserved maps mem s va := by
  obtain ⟨at', visits, read, -⟩ := comes
  refine ⟨g, selects, last, at', d, ?_, read, reserved⟩
  rw [ArmVisits, aligned]
  exact visits.follow fun _ _ _ meaning => armEntry_table_iff.mpr meaning

end Faults

/-- The code faults on every non-canonical address and every reserved descriptor exactly
as long as each descriptor that passes its test passes it rightly: no bit the index masks
dropped differs from bit 63, the descriptor is no 01 where the granule has no block, and
the walk did not start before the table TTBR points to. -/
theorem stage1_faults_iff (maps : List MapRecord) (mem : HostMem) (s : VcpuSlot) (va : Word)
    (on : (s.ctx.banked 12).getLsbD 0 = true) :
    ((¬ Canonical (addressBits s va) va →
          (ohvTranslateStage1 maps mem s va).getLsbD 0 = true) ∧
        (MeetsReserved maps mem s va → (ohvTranslateStage1 maps mem s va).getLsbD 0 = true)) ↔
      ∀ g, Selects (upperHalf va) (tgField s va) g → Sized s va g → ∀ last d,
        ComesToLast maps mem s va g last d → RightlyLast maps mem s va g last d := by
  have hit := stage1_hit_iff maps mem va on
  constructor
  · rintro ⟨wide, reserved⟩ g selects sized last d comes
    have clear : ¬ (ohvTranslateStage1 maps mem s va).getLsbD 0 = true := by
      rw [Bool.not_eq_true]
      exact hit.mpr ⟨g, selects, sized, last, d, comes⟩
    refine ⟨?_, fun aligned bad => ?_, fun _ meets => clear (reserved meets)⟩
    · by_contra other
      exact clear (wide other)
    · exact clear (reserved (comes.meets selects aligned bad))
  · intro rightly
    by_cases fault : (ohvTranslateStage1 maps mem s va).getLsbD 0 = true
    · exact ⟨fun _ => fault, fun _ => fault⟩
    · rw [Bool.not_eq_true] at fault
      obtain ⟨g, selects, sized, last, d, comes⟩ := hit.mp fault
      have here := rightly g selects sized last d comes
      refine ⟨fun wide => absurd here.canonical wide, fun meets => ?_⟩
      by_cases aligned : PageAligned s va g
      · obtain ⟨last', d', comes', reserved⟩ := meets.comes selects aligned
        exact absurd reserved ((rightly g selects sized last' d' comes').legal aligned)
      · exact absurd meets (here.aligned aligned)

theorem stage1_faults_iff_pages :
    (¬ Canonical (addressBits pagesSlot 0x1234) 0x1234 →
        (ohvTranslateStage1 pagesMaps (pagesMem 0x4003) pagesSlot 0x1234).getLsbD 0 = true) ∧
      (MeetsReserved pagesMaps (pagesMem 0x4003) pagesSlot 0x1234 →
        (ohvTranslateStage1 pagesMaps (pagesMem 0x4003) pagesSlot 0x1234).getLsbD 0 = true) := by
  refine (stage1_faults_iff pagesMaps (pagesMem 0x4003) pagesSlot 0x1234 (by decide)).mpr ?_
  rintro g selects - last d ⟨at', visits, read, taken⟩
  obtain rfl := selects.unique .tg0Kib4
  have walked : reads (guestEntry pagesMaps (pagesMem 0x4003))
      (loopEntry (Granule.kib4.split 25)) (entryOffset (Granule.kib4.split 25) 0x1234)
      ((Granule.kib4.split 25).top 3) (field (ttbrOf pagesSlot 0x1234) 12) =
        [(1, 0), (0, 0x1000)] := by decide +kernel
  have descriptors : guestEntry pagesMaps (pagesMem 0x4003)
        (0 + entryOffset (Granule.kib4.split 25) 0x1234 1) = some 0x1003 ∧
      guestEntry pagesMaps (pagesMem 0x4003)
        (0x1000 + entryOffset (Granule.kib4.split 25) 0x1234 0) = some 0x4003 := by decide +kernel
  have member : (last, at') ∈ [(1, 0), (0, 0x1000)] := walked ▸ mem_reads_iff.mpr visits
  simp only [List.mem_cons, Prod.mk.injEq, List.not_mem_nil, or_false] at member
  rcases member with ⟨rfl, rfl⟩ | ⟨rfl, rfl⟩
  · rw [← Option.some.inj (descriptors.1.symm.trans read)] at taken
    exact absurd taken (by decide)
  · rw [← Option.some.inj (descriptors.2.symm.trans read)]
    exact ⟨by decide +kernel, fun _ => by decide, fun apart => absurd rfl apart⟩

/-- The same page by an address with bit 40 set, and by a descriptor that ends in 01. -/
theorem stage1_hits_refused :
    ¬ (¬ Canonical (addressBits pagesSlot 0x10000001234) 0x10000001234 →
        (ohvTranslateStage1 pagesMaps (pagesMem 0x4003) pagesSlot 0x10000001234).getLsbD 0 =
          true) ∧
      ¬ (MeetsReserved pagesMaps (pagesMem 0x4001) pagesSlot 0x1234 →
        (ohvTranslateStage1 pagesMaps (pagesMem 0x4001) pagesSlot 0x1234).getLsbD 0 = true) := by
  have table : guestEntry pagesMaps (pagesMem 0x4001)
      (0 + entryOffset (Granule.kib4.split 25) 0x1234 1) = some 0x1003 := by decide +kernel
  have follows : armEntry .kib4 (Granule.kib4.split 25) 1 0x1003 = .table 0x1000 := by
    decide +kernel
  have page : guestEntry pagesMaps (pagesMem 0x4001)
      (0x1000 + entryOffset (Granule.kib4.split 25) 0x1234 0) = some 0x4001 := by decide +kernel
  have meets : MeetsReserved pagesMaps (pagesMem 0x4001) pagesSlot 0x1234 :=
    ⟨.kib4, .tg0Kib4, 0, 0x1000, 0x4001, .deeper table follows (.here 0 0x1000), page, by decide⟩
  refine ⟨fun faults => ?_, fun faults => ?_⟩
  · have fault := faults (by decide +kernel)
    rw [ohvTranslateStage1_eq _ _ _ (by decide)] at fault
    exact absurd fault (by decide +kernel)
  · have fault := faults meets
    rw [ohvTranslateStage1_eq _ _ _ (by decide)] at fault
    exact absurd fault (by decide +kernel)

end OpenHypervisor
