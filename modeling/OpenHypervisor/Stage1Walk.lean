import Mathlib.Algebra.Group.Nat.Defs
import OpenHypervisor.Stage1
import OpenHypervisor.Library.TableWalk

/-!
# The stage-1 walk as a walk of tables

`ohv_translate_stage1` masks and shifts words.  Here its loop is the walk of the
library, in numbers: where it starts, which entry of a table it reads, and what it
makes of a descriptor.
-/

set_option autoImplicit false

namespace OpenHypervisor

open TableWalk

/-! ## Masks as numbers -/

theorem lowMask_toNat {n : Nat} (small : n < 64) : (lowMask n).toNat = 2 ^ n - 1 := by
  have positive : 0 < 2 ^ n := Nat.two_pow_pos n
  have below : 2 ^ n < 2 ^ 64 := Nat.pow_lt_pow_right (by omega) small
  have one : (1#64 <<< n).toNat = 2 ^ n := by
    rw [BitVec.toNat_shiftLeft, Nat.shiftLeft_eq]
    exact (congrArg (· % 2 ^ 64) (Nat.one_mul _)).trans (Nat.mod_eq_of_lt below)
  have least : 1#64 ≤ 1#64 <<< n := by
    rw [BitVec.le_def, one]
    exact positive
  exact (BitVec.toNat_sub_of_le least).trans (congrArg (· - 1) one)

theorem and_lowMask (x : Word) {n : Nat} (small : n < 64) :
    (x &&& lowMask n).toNat = x.toNat % 2 ^ n := by
  rw [BitVec.toNat_and, lowMask_toNat small, Nat.and_two_pow_sub_one_eq_mod]

theorem getLsbD_lowMask {n : Nat} (small : n < 64) (i : Nat) :
    (lowMask n).getLsbD i = decide (i < n) := by
  rw [BitVec.getLsbD, lowMask_toNat small, Nat.testBit_two_pow_sub_one]

def field (d : Word) (n : Nat) : Nat := d.toNat % 2 ^ 48 / 2 ^ n * 2 ^ n

theorem outputMask_eq : outputMask = lowMask 48 &&& ~~~lowMask 12 := by decide

theorem and_field (x : Word) {n : Nat} (small : n ≤ 48) :
    (x &&& lowMask 48 &&& ~~~lowMask n).toNat = field x n := by
  have cut : x &&& lowMask 48 &&& ~~~lowMask n = ((x &&& lowMask 48) >>> n) <<< n := by
    apply BitVec.eq_of_getLsbD_eq
    intro i inside
    simp only [BitVec.getLsbD_and, BitVec.getLsbD_not, BitVec.getLsbD_shiftLeft,
      BitVec.getLsbD_ushiftRight, getLsbD_lowMask (show 48 < 64 by omega),
      getLsbD_lowMask (show n < 64 by omega)]
    by_cases low : i < n
    · simp [low]
    · have whole : n + (i - n) = i := by omega
      simp [low, inside, whole]
  have short : (x &&& lowMask 48).toNat / 2 ^ n * 2 ^ n < 2 ^ 64 := by
    have bounded := (x &&& lowMask 48).isLt
    have less := Nat.div_mul_le_self (x &&& lowMask 48).toNat (2 ^ n)
    omega
  rw [cut, BitVec.toNat_shiftLeft, BitVec.toNat_ushiftRight, Nat.shiftRight_eq_div_pow,
    Nat.shiftLeft_eq, Nat.mod_eq_of_lt short, and_lowMask x (by omega), field]

theorem and_outputMask_field (x : Word) {n : Nat} (large : 12 ≤ n) (small : n ≤ 48) :
    (x &&& outputMask &&& ~~~lowMask n).toNat = field x n := by
  have same : x &&& outputMask &&& ~~~lowMask n = x &&& lowMask 48 &&& ~~~lowMask n := by
    apply BitVec.eq_of_getLsbD_eq
    intro i inside
    rw [outputMask_eq]
    simp only [BitVec.getLsbD_and, BitVec.getLsbD_not, getLsbD_lowMask (show 48 < 64 by omega),
      getLsbD_lowMask (show n < 64 by omega), getLsbD_lowMask (show 12 < 64 by omega)]
    by_cases low : i < n
    · simp [low]
    · simp [low, inside, show ¬ i < 12 by omega]
  rw [same, and_field x small]

theorem field_lt (d : Word) (n : Nat) : field d n < 2 ^ 48 :=
  Nat.lt_of_le_of_lt (Nat.div_mul_le_self _ _) (Nat.mod_lt _ (Nat.two_pow_pos 48))

/-- The address of a page or a block with the offset put in, its low twelve bits
aside. -/
theorem walkLeaf_toNat (va d : Word) {shift : Nat} (large : 12 ≤ shift) (small : shift ≤ 48) :
    (walkLeaf va (d &&& outputMask) shift).toNat =
      (field d shift + va.toNat % 2 ^ shift) / 2 ^ 12 * 2 ^ 12 := by
  have base : (d &&& outputMask &&& ~~~lowMask shift).toNat = field d shift :=
    and_outputMask_field d large small
  have offset : (va &&& lowMask shift &&& outputMask).toNat =
      va.toNat % 2 ^ shift / 2 ^ 12 * 2 ^ 12 := by
    have within : va.toNat % 2 ^ shift < 2 ^ 48 :=
      Nat.lt_of_lt_of_le (Nat.mod_lt _ (Nat.two_pow_pos shift))
        (Nat.pow_le_pow_right (by omega) small)
    rw [outputMask_eq, ← BitVec.and_assoc, and_field _ (by omega), field,
      and_lowMask va (by omega), Nat.mod_eq_of_lt within]
  have pages : 2 ^ shift = 2 ^ 12 * 2 ^ (shift - 12) := by
    rw [← Nat.pow_add]
    congr 1
    omega
  have low : va.toNat % 2 ^ shift / 2 ^ 12 * 2 ^ 12 < 2 ^ shift :=
    Nat.lt_of_le_of_lt (Nat.div_mul_le_self _ _) (Nat.mod_lt _ (Nat.two_pow_pos shift))
  have whole : field d shift = 2 ^ shift * (d.toNat % 2 ^ 48 / 2 ^ shift) := Nat.mul_comm _ _
  rw [walkLeaf, BitVec.toNat_or, base, offset, whole, ← Nat.two_pow_add_eq_or_of_lt low]
  generalize d.toNat % 2 ^ 48 / 2 ^ shift = top
  rw [pages, Nat.mul_assoc, Nat.mul_add_div (Nat.two_pow_pos 12), Nat.add_mul,
    Nat.mul_comm (2 ^ 12) (2 ^ (shift - 12) * top)]

/-- What the walk's answer reads as in PAR_EL1. -/
def parOf : Option Nat → Word
  | none => ohvParFault
  | some address => BitVec.ofNat 64 (address / 2 ^ 12 * 2 ^ 12)

theorem walkLeaf_eq (va d : Word) {shift : Nat} (large : 12 ≤ shift) (small : shift ≤ 48) :
    walkLeaf va (d &&& outputMask) shift =
      parOf (some (field d shift + va.toNat % 2 ^ shift)) := by
  have value := walkLeaf_toNat va d large small
  apply BitVec.eq_of_toNat_eq
  rw [parOf, BitVec.toNat_ofNat, ← value, Nat.mod_eq_of_lt (BitVec.isLt _)]

/-! ## One descriptor -/

def WalkShape.split (shape : WalkShape) : Split :=
  ⟨shape.pageBits, shape.levelBits, shape.vaBits⟩

def entryOffset (p : Split) (va : Word) (below : Nat) : Nat := p.index va.toNat below * 8

def pageOffset (p : Split) (va : Word) (below : Nat) : Nat := va.toNat % 2 ^ p.lsb below

def guestEntry (maps : List MapRecord) (mem : HostMem) (at' : Nat) : Option Word :=
  (ohvGuestPtr maps (BitVec.ofNat 64 at') 8).map mem.read64

/-- What the loop makes of a descriptor: at the last level bit 1 is not looked at, and
above it a block is one at every level. -/
def loopEntry (p : Split) (below : Nat) (d : Word) : Entry :=
  if d.toNat % 2 = 0 then .absent
  else if below = 0 ∨ d.toNat % 4 = 1 then .output (field d (p.lsb below))
  else .table (field d p.pageBits)

section Entry

variable {p : Split} {below : Nat} {d : Word}

theorem loopEntry_cases (p : Split) (below : Nat) (d : Word) :
    (d.toNat % 2 = 0 ∧ loopEntry p below d = .absent) ∨
    (d.toNat % 2 ≠ 0 ∧ (below = 0 ∨ d.toNat % 4 = 1) ∧
      loopEntry p below d = .output (field d (p.lsb below))) ∨
    (d.toNat % 2 ≠ 0 ∧ ¬ (below = 0 ∨ d.toNat % 4 = 1) ∧
      loopEntry p below d = .table (field d p.pageBits)) := by
  rw [loopEntry]
  by_cases invalid : d.toNat % 2 = 0
  · exact .inl ⟨invalid, if_pos invalid⟩
  · rw [if_neg invalid]
    by_cases leaf : below = 0 ∨ d.toNat % 4 = 1
    · exact .inr (.inl ⟨invalid, leaf, if_pos leaf⟩)
    · exact .inr (.inr ⟨invalid, leaf, if_neg leaf⟩)

/-- Every table is followed for one above the last level. -/
theorem loopEntry_table {next : Nat} (follows : loopEntry p below d = .table next) :
    below ≠ 0 ∧ next = field d p.pageBits := by
  obtain ⟨-, entry⟩ | ⟨-, -, entry⟩ | ⟨-, above, entry⟩ := loopEntry_cases p below d
  · cases entry.symm.trans follows
  · cases entry.symm.trans follows
  · exact ⟨fun last => above (.inl last), (Entry.table.inj (entry.symm.trans follows)).symm⟩

theorem loopEntry_output {base : Nat} (gives : loopEntry p below d = .output base) :
    base = field d (p.lsb below) := by
  obtain ⟨-, entry⟩ | ⟨-, -, entry⟩ | ⟨-, -, entry⟩ := loopEntry_cases p below d
  · cases entry.symm.trans gives
  · exact (Entry.output.inj (entry.symm.trans gives)).symm
  · cases entry.symm.trans gives

end Entry

theorem and_one_eq_zero_iff (d : Word) : d &&& 1 = 0 ↔ d.toNat % 2 = 0 := by
  have value : (d &&& 1).toNat = d.toNat % 2 := by
    rw [BitVec.toNat_and]
    exact Nat.and_two_pow_sub_one_eq_mod d.toNat 1
  rw [← value]
  exact ⟨fun zero => congrArg BitVec.toNat zero, fun zero => BitVec.eq_of_toNat_eq zero⟩

theorem and_three_eq_one_iff (d : Word) : d &&& 3 = 1 ↔ d.toNat % 4 = 1 := by
  have value : (d &&& 3).toNat = d.toNat % 4 := by
    rw [BitVec.toNat_and]
    exact Nat.and_two_pow_sub_one_eq_mod d.toNat 2
  rw [← value]
  exact ⟨fun one => congrArg BitVec.toNat one, fun one => BitVec.eq_of_toNat_eq one⟩

theorem WalkShape.index_toNat (shape : WalkShape) (va : Word) (below : Nat)
    (narrow : shape.levelBits < 64) :
    (shape.index va (shape.split.lsb below)).toNat = shape.split.index va.toNat below := by
  have bits : (if shape.split.lsb below + shape.levelBits > shape.vaBits then
      shape.vaBits - shape.split.lsb below else shape.levelBits) = shape.split.width below := by
    have width : shape.split.width below =
        min shape.levelBits (shape.vaBits - shape.split.lsb below) := rfl
    rw [width]
    split <;> omega
  have small : shape.split.width below < 64 :=
    Nat.lt_of_le_of_lt (Split.width_le below) narrow
  rw [WalkShape.index, bits, and_lowMask _ small, BitVec.toNat_ushiftRight,
    Nat.shiftRight_eq_div_pow]
  rfl

/-! ## The loop

The loop again, with every address `ohv_guest_ptr` is asked for. -/

/-- A descriptor asked for: its level, its table and its own address. -/
structure DescRead where
  level : Nat
  table : Word
  entry : Word
  deriving DecidableEq, Repr

def walkLog (maps : List MapRecord) (mem : HostMem) (shape : WalkShape) (va : Word) :
    Nat → Word → Word × List DescRead
  | below, table =>
      let shift := shape.pageBits + below * shape.levelBits
      let entryAt := table + shape.index va shift * 8
      match ohvGuestPtr maps entryAt 8 with
      | none => (ohvParFault, [⟨3 - below, table, entryAt⟩])
      | some entry =>
          let desc := mem.read64 entry
          if desc &&& 1 = 0 then (ohvParFault, [⟨3 - below, table, entryAt⟩])
          else
            let next := desc &&& outputMask
            match below with
            | 0 => (walkLeaf va next shift, [⟨3 - below, table, entryAt⟩])
            | deeper + 1 =>
                if desc &&& 3 = 1 then (walkLeaf va next shift, [⟨3 - below, table, entryAt⟩])
                else
                  let rest := walkLog maps mem shape va deeper (next &&& ~~~lowMask shape.pageBits)
                  (rest.1, ⟨3 - below, table, entryAt⟩ :: rest.2)

theorem walkLog_fst (maps : List MapRecord) (mem : HostMem) (shape : WalkShape) (va : Word)
    (below : Nat) (table : Word) :
    (walkLog maps mem shape va below table).1 = walkStage1 maps mem shape va below table := by
  induction below generalizing table with
  | zero =>
      unfold walkLog walkStage1
      simp only
      cases ohvGuestPtr maps (table + shape.index va (shape.pageBits + 0 * shape.levelBits) * 8) 8
        with
      | none => rfl
      | some entry =>
          by_cases invalid : mem.read64 entry &&& 1 = 0
          · simp only [if_pos invalid]
          · simp only [if_neg invalid]
  | succ below ih =>
      unfold walkLog walkStage1
      simp only
      cases ohvGuestPtr maps
          (table + shape.index va (shape.pageBits + (below + 1) * shape.levelBits) * 8) 8 with
      | none => rfl
      | some entry =>
          by_cases invalid : mem.read64 entry &&& 1 = 0
          · simp only [if_pos invalid]
          · by_cases block : mem.read64 entry &&& 3 = 1
            · simp only [if_neg invalid, if_pos block]
            · simp only [if_neg invalid, if_neg block]
              exact ih _

section Loop

variable (maps : List MapRecord) (mem : HostMem) (shape : WalkShape) (va : Word)

/-- The walk of the library that the loop is. -/
def tableWalk (p : Split) (below table : Nat) : Option Nat :=
  walk (guestEntry maps mem) (loopEntry p) (entryOffset p va) (pageOffset p va) below table

def logged (p : Split) (read : Nat × Nat) : DescRead :=
  ⟨3 - read.1, BitVec.ofNat 64 read.2,
    BitVec.ofNat 64 (read.2 + entryOffset p va read.1)⟩

theorem walkLog_unmapped {below : Nat} {table : Word}
    (unmapped : ohvGuestPtr maps (table + shape.index va (shape.split.lsb below) * 8) 8 = none) :
    walkLog maps mem shape va below table =
      (ohvParFault, [⟨3 - below, table, table + shape.index va (shape.split.lsb below) * 8⟩]) := by
  have shift : shape.split.lsb below = shape.pageBits + below * shape.levelBits := rfl
  rw [shift] at unmapped ⊢
  rw [walkLog]
  simp only [unmapped]

theorem walkLog_read {below : Nat} {table entry : Word}
    (mapped : ohvGuestPtr maps (table + shape.index va (shape.split.lsb below) * 8) 8 =
      some entry) :
    walkLog maps mem shape va below table =
      if (mem.read64 entry).toNat % 2 = 0 then
        (ohvParFault, [⟨3 - below, table, table + shape.index va (shape.split.lsb below) * 8⟩])
      else if below = 0 ∨ (mem.read64 entry).toNat % 4 = 1 then
        (walkLeaf va (mem.read64 entry &&& outputMask) (shape.split.lsb below),
          [⟨3 - below, table, table + shape.index va (shape.split.lsb below) * 8⟩])
      else
        let rest := walkLog maps mem shape va (below - 1)
          (mem.read64 entry &&& outputMask &&& ~~~lowMask shape.pageBits)
        (rest.1,
          ⟨3 - below, table, table + shape.index va (shape.split.lsb below) * 8⟩ :: rest.2) := by
  have shift : shape.split.lsb below = shape.pageBits + below * shape.levelBits := rfl
  rw [shift] at mapped ⊢
  rw [walkLog]
  simp only [mapped]
  by_cases invalid : (mem.read64 entry).toNat % 2 = 0
  · rw [if_pos ((and_one_eq_zero_iff _).mpr invalid), if_pos invalid]
  · rw [if_neg fun zero => invalid ((and_one_eq_zero_iff _).mp zero), if_neg invalid]
    cases below with
    | zero => rw [if_pos (.inl rfl)]
    | succ deeper =>
        by_cases block : (mem.read64 entry).toNat % 4 = 1
        · rw [if_pos (.inr block)]
          exact if_pos ((and_three_eq_one_iff _).mpr block)
        · rw [if_neg (by omega)]
          exact if_neg fun one => block ((and_three_eq_one_iff _).mp one)

variable (narrow : shape.levelBits < 64) (large : 12 ≤ shape.pageBits)

include narrow

theorem entry_address (below : Nat) (table : Word) :
    table + shape.index va (shape.split.lsb below) * 8 =
      BitVec.ofNat 64 (table.toNat + entryOffset shape.split va below) := by
  apply BitVec.eq_of_toNat_eq
  rw [BitVec.toNat_add, BitVec.toNat_mul, shape.index_toNat va below narrow, BitVec.toNat_ofNat,
    entryOffset]
  exact Nat.add_mod_mod _ _ _

theorem logged_at (below : Nat) (table : Word) :
    logged va shape.split (below, table.toNat) =
      ⟨3 - below, table, table + shape.index va (shape.split.lsb below) * 8⟩ := by
  rw [entry_address shape va narrow below table, logged, BitVec.ofNat_toNat, BitVec.setWidth_eq]

include large

/-- The loop is the walk: the answer, and the tables it comes to. -/
theorem walkLog_eq {below : Nat} (small : shape.split.lsb below ≤ 48) (table : Word) :
    walkLog maps mem shape va below table =
      (parOf (tableWalk maps mem va shape.split below table.toNat),
        (reads (guestEntry maps mem) (loopEntry shape.split) (entryOffset shape.split va) below
          table.toNat).map (logged va shape.split)) := by
  induction below using Nat.strongRecOn generalizing table with
  | ind below ih =>
      have page : shape.pageBits ≤ 48 := Nat.le_trans (Nat.le_add_right _ _) small
      have here := logged_at shape va narrow below table
      have found : guestEntry maps mem (table.toNat + entryOffset shape.split va below) =
          (ohvGuestPtr maps (table + shape.index va (shape.split.lsb below) * 8) 8).map
            mem.read64 := by
        rw [guestEntry, entry_address shape va narrow below table]
      cases mapped : ohvGuestPtr maps (table + shape.index va (shape.split.lsb below) * 8) 8 with
      | none =>
          rw [mapped] at found
          rw [walkLog_unmapped maps mem shape va mapped, tableWalk, walk_of_unfetched found,
            reads_of_end (fun entry next read => by cases found.symm.trans read),
            List.map_singleton, here]
          rfl
      | some entry =>
          rw [mapped] at found
          have single : ∀ e, guestEntry maps mem (table.toNat + entryOffset shape.split va below) =
              some e → e = mem.read64 entry :=
            fun e read => (Option.some.inj (found.symm.trans read)).symm
          rw [walkLog_read maps mem shape va mapped, tableWalk]
          obtain ⟨invalid, absent⟩ | ⟨valid, leaf, output⟩ | ⟨valid, inner, follows⟩ :=
            loopEntry_cases shape.split below (mem.read64 entry)
          · have ends : ∀ e next, guestEntry maps mem
                (table.toNat + entryOffset shape.split va below) = some e →
                loopEntry shape.split below e ≠ .table next := by
              intro e next read table
              rw [single e read, absent] at table
              cases table
            rw [if_pos invalid, walk_of_absent found absent, reads_of_end ends,
              List.map_singleton, here]
            rfl
          · have ends : ∀ e next, guestEntry maps mem
                (table.toNat + entryOffset shape.split va below) = some e →
                loopEntry shape.split below e ≠ .table next := by
              intro e next read table
              rw [single e read, output] at table
              cases table
            rw [if_neg valid, if_pos leaf, walk_of_output found output, reads_of_end ends,
              List.map_singleton, here]
            exact congrArg (·, _) (walkLeaf_eq va _ (Nat.le_add_right_of_le large) small)
          · obtain ⟨deeper, rfl⟩ := Nat.exists_eq_succ_of_ne_zero fun last => inner (.inl last)
            have lower : shape.split.lsb deeper ≤ 48 :=
              Nat.le_trans (Split.lsb_mono (Nat.le_succ deeper)) small
            rw [if_neg valid, if_neg inner, walk_of_table found follows,
              reads_of_table found follows, List.map_cons, here, Nat.succ_sub_one,
              ih deeper (Nat.lt_succ_self deeper) lower, and_outputMask_field _ large page]
            rfl

end Loop

/-! ## Where it starts -/

/-- The loop over the strides goes down one level for each that is needed. -/
theorem walkStart_eq (levelBits vaBits level resolved : Nat) (steps : 0 < levelBits) :
    walkStart levelBits vaBits level resolved =
      level - Split.top ⟨resolved, levelBits, vaBits⟩ level := by
  induction level generalizing resolved with
  | zero => exact (Nat.zero_sub _).symm
  | succ level ih =>
      rw [walkStart, Split.top]
      by_cases long : resolved + levelBits < vaBits
      · have one : Split.levels ⟨resolved, levelBits, vaBits⟩ =
            Split.levels ⟨resolved + levelBits, levelBits, vaBits⟩ + 1 :=
          Split.levels_of_long (p := ⟨resolved, levelBits, vaBits⟩) steps long
        have more : 1 ≤ Split.levels ⟨resolved + levelBits, levelBits, vaBits⟩ :=
          Split.levels_pos (p := ⟨resolved + levelBits, levelBits, vaBits⟩) steps long
        rw [if_pos long, ih, Split.top, one]
        omega
      · have last : Split.levels ⟨resolved, levelBits, vaBits⟩ ≤ 1 :=
          Split.levels_le_one (p := ⟨resolved, levelBits, vaBits⟩) steps (by
            have short : vaBits ≤ resolved + levelBits := Nat.le_of_not_lt long
            exact short)
        rw [if_neg long]
        omega

theorem walkStart_top {levelBits resolved : Nat} (vaBits : Nat) (steps : 0 < levelBits) :
    3 - walkStart levelBits vaBits 3 resolved = Split.top ⟨resolved, levelBits, vaBits⟩ 3 := by
  have three : Split.top ⟨resolved, levelBits, vaBits⟩ 3 ≤ 3 := Nat.min_le_left _ _
  rw [walkStart_eq _ _ _ _ steps]
  omega

/-! ## The fields of TCR_EL1 that the half of the address names -/

def upperHalf (va : Word) : Bool := va.getLsbD 63

def tgField (s : VcpuSlot) (va : Word) : BitVec 2 :=
  (s.ctx.banked 2).extractLsb' (if upperHalf va then 30 else 14) 2

def addressBits (s : VcpuSlot) (va : Word) : Nat :=
  64 - ((s.ctx.banked 2).extractLsb' (if upperHalf va then 16 else 0) 6).toNat

def ttbrOf (s : VcpuSlot) (va : Word) : Word :=
  if upperHalf va then s.ctx.banked 1 else s.ctx.banked 0

/-- How the code splits the address, where it walks at all. -/
def walkSplit (s : VcpuSlot) (va : Word) : Option Split :=
  (granuleBits (upperHalf va) (tgField s va)).bind fun pageBits =>
    if addressBits s va < pageBits ∨ 52 < addressBits s va then none
    else some ⟨pageBits, pageBits - 3, addressBits s va⟩

theorem granuleBits_some {upper : Bool} {tg : BitVec 2} {pageBits : Nat}
    (named : granuleBits upper tg = some pageBits) :
    pageBits = 12 ∨ pageBits = 14 ∨ pageBits = 16 := by
  unfold granuleBits at named
  split at named <;> cases named <;> decide

theorem lsb_top_le {p : Split} (pages : p.pageBits = 12 ∨ p.pageBits = 14 ∨ p.pageBits = 16)
    (stride : p.stride = p.pageBits - 3) (short : p.addressBits ≤ 52) :
    p.lsb (p.top 3) ≤ 48 := by
  have three : p.top 3 ≤ 3 := Nat.min_le_left _ _
  have needed : p.top 3 ≤ p.levels - 1 := Nat.min_le_right _ _
  rw [Split.lsb, stride]
  rcases pages with page | page | page
  · rw [page]
    omega
  · rw [page]
    omega
  · have few : p.levels ≤ 3 := by
      have counted : p.levels < 4 := by
        rw [Split.levels, stride, page]
        omega
      omega
    rw [page]
    omega

theorem ttbr_base (ttbr : Word) {n : Nat} (page : 1 ≤ n) (small : n ≤ 48) :
    (ttbr &&& 0x0000fffffffffffe#64 &&& ~~~lowMask n).toNat = field ttbr n := by
  have even : (0x0000fffffffffffe#64 : Word) = lowMask 48 &&& ~~~lowMask 1 := by decide
  have same : ttbr &&& 0x0000fffffffffffe#64 &&& ~~~lowMask n =
      ttbr &&& lowMask 48 &&& ~~~lowMask n := by
    apply BitVec.eq_of_getLsbD_eq
    intro i inside
    rw [even]
    simp only [BitVec.getLsbD_and, BitVec.getLsbD_not, getLsbD_lowMask (show 48 < 64 by omega),
      getLsbD_lowMask (show n < 64 by omega), getLsbD_lowMask (show 1 < 64 by omega)]
    by_cases low : i < n
    · simp [low]
    · simp [low, inside, show ¬ i < 1 by omega]
  rw [same, and_field ttbr small]

/-! ## The function -/

/-- The function again, with what its loop asks for. -/
def stage1Log (maps : List MapRecord) (mem : HostMem) (s : VcpuSlot) (va : Word) :
    Word × List DescRead :=
  if s.ctx.banked 12 &&& 1 = 0 then (va &&& outputMask, [])
  else
    match granuleBits (upperHalf va) (tgField s va) with
    | none => (ohvParFault, [])
    | some pageBits =>
        if addressBits s va < pageBits ∨ addressBits s va > 52 then (ohvParFault, [])
        else
          walkLog maps mem ⟨pageBits, pageBits - 3, addressBits s va⟩ va
            (3 - walkStart (pageBits - 3) (addressBits s va) 3 pageBits)
            (ttbrOf s va &&& 0x0000fffffffffffe#64 &&& ~~~lowMask pageBits)

theorem stage1Log_fst (maps : List MapRecord) (mem : HostMem) (s : VcpuSlot) (va : Word) :
    (stage1Log maps mem s va).1 = ohvTranslateStage1 maps mem s va := by
  have whole : ohvTranslateStage1 maps mem s va =
      if s.ctx.banked 12 &&& 1 = 0 then va &&& outputMask
      else
        match granuleBits (upperHalf va) (tgField s va) with
        | none => ohvParFault
        | some pageBits =>
            if addressBits s va < pageBits ∨ addressBits s va > 52 then ohvParFault
            else walkStage1 maps mem ⟨pageBits, pageBits - 3, addressBits s va⟩ va
              (3 - walkStart (pageBits - 3) (addressBits s va) 3 pageBits)
              (ttbrOf s va &&& 0x0000fffffffffffe#64 &&& ~~~lowMask pageBits) := rfl
  rw [whole, stage1Log]
  by_cases off : s.ctx.banked 12 &&& 1 = 0
  · rw [if_pos off, if_pos off]
  · rw [if_neg off, if_neg off]
    cases granuleBits (upperHalf va) (tgField s va) with
    | none => rfl
    | some pageBits =>
        simp only
        by_cases sized : addressBits s va < pageBits ∨ addressBits s va > 52
        · rw [if_pos sized, if_pos sized]
        · rw [if_neg sized, if_neg sized, walkLog_fst]

/-- With translation on the answer is the walk's and the log is of its tables, or the code
walks nothing. -/
theorem stage1Log_eq (maps : List MapRecord) (mem : HostMem) {s : VcpuSlot} (va : Word)
    (on : (s.ctx.banked 12).getLsbD 0 = true) :
    stage1Log maps mem s va =
      match walkSplit s va with
      | none => (ohvParFault, [])
      | some p => (parOf (tableWalk maps mem va p (p.top 3) (field (ttbrOf s va) p.pageBits)),
          (reads (guestEntry maps mem) (loopEntry p) (entryOffset p va) (p.top 3)
            (field (ttbrOf s va) p.pageBits)).map (logged va p)) := by
  have translating : ¬ s.ctx.banked 12 &&& 1 = 0 := by
    intro off
    have bit := congrArg (fun word => word.getLsbD 0) off
    simp only [BitVec.getLsbD_and, on] at bit
    exact absurd bit (by decide)
  rw [stage1Log, if_neg translating, walkSplit]
  cases named : granuleBits (upperHalf va) (tgField s va) with
  | none => rfl
  | some pageBits =>
      have pages := granuleBits_some named
      simp only [Option.bind_some]
      by_cases sized : addressBits s va < pageBits ∨ 52 < addressBits s va
      · rw [if_pos sized, if_pos sized]
      · have low : Split.lsb ⟨pageBits, pageBits - 3, addressBits s va⟩
            (Split.top ⟨pageBits, pageBits - 3, addressBits s va⟩ 3) ≤ 48 :=
          lsb_top_le pages rfl (by simp only; omega)
        have narrow : pageBits - 3 < 64 := by omega
        have large : 12 ≤ pageBits := by omega
        rw [if_neg sized, if_neg sized, walkStart_top _ (by omega),
          walkLog_eq maps mem ⟨pageBits, pageBits - 3, addressBits s va⟩ va narrow large low,
          ttbr_base _ (by omega) (by omega)]
        rfl

theorem ohvTranslateStage1_eq (maps : List MapRecord) (mem : HostMem) {s : VcpuSlot} (va : Word)
    (on : (s.ctx.banked 12).getLsbD 0 = true) :
    ohvTranslateStage1 maps mem s va =
      match walkSplit s va with
      | none => ohvParFault
      | some p => parOf (tableWalk maps mem va p (p.top 3) (field (ttbrOf s va) p.pageBits)) := by
  rw [← stage1Log_fst, stage1Log_eq maps mem va on]
  cases walkSplit s va <;> rfl

end OpenHypervisor
