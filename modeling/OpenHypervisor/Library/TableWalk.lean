import Mathlib.Algebra.Group.Nat.Defs
import Mathlib.Order.Basic

/-!
# Walks of tables of tables

A walk starts at a table some levels above the last and reads one entry of each
table it comes to, until an entry ends it.  What an entry of a level says is the
reader's to decide (`decode`), and which entry of a table is read is the address's
(`slot`, in bytes).  `Visits` names the tables the walk comes to, each with its
level, counted from the last.

Two readers that agree on the entries the one meets give the same answer
(`walk_congr`); a walk gives no answer exactly when it comes to an entry that has
none (`walk_eq_none_iff`); and it reads one entry of each level at the most
(`length_reads_le`).  The second half is the arithmetic of an address that is
split into an offset and equal indices.
-/

set_option autoImplicit false

namespace TableWalk

/-- What an entry says to who reads it. -/
inductive Entry where
  | absent
  | reserved
  | table (base : Nat)
  | output (base : Nat)
  deriving DecidableEq, Repr

section Walk

variable {D : Type} (fetch : Nat → Option D) (decode : Nat → D → Entry) (slot low : Nat → Nat)

/-- `low` is what the address itself adds to an output at a level. -/
def walk : Nat → Nat → Option Nat
  | 0, table =>
      match (fetch (table + slot 0)).map (decode 0) with
      | some (.output base) => some (base + low 0)
      | _ => none
  | deeper + 1, table =>
      match (fetch (table + slot (deeper + 1))).map (decode (deeper + 1)) with
      | some (.output base) => some (base + low (deeper + 1))
      | some (.table next) => walk deeper next
      | _ => none

inductive Visits : Nat → Nat → Nat → Nat → Prop
  | here (below table : Nat) : Visits below table below table
  | deeper {below table next last at' : Nat} {entry : D}
      (read : fetch (table + slot (below + 1)) = some entry)
      (meaning : decode (below + 1) entry = .table next) (rest : Visits below next last at') :
      Visits (below + 1) table last at'

def reads : Nat → Nat → List (Nat × Nat)
  | 0, table => [(0, table)]
  | deeper + 1, table =>
      (deeper + 1, table) ::
        match (fetch (table + slot (deeper + 1))).map (decode (deeper + 1)) with
        | some (.table next) => reads deeper next
        | _ => []

variable {fetch decode slot low}

theorem walk_of_unfetched {below table : Nat} (unmapped : fetch (table + slot below) = none) :
    walk fetch decode slot low below table = none := by
  cases below <;> simp only [walk, unmapped, Option.map_none]

section Read

variable {below table : Nat} {entry : D} (read : fetch (table + slot below) = some entry)

include read

theorem walk_of_output {base : Nat} (meaning : decode below entry = .output base) :
    walk fetch decode slot low below table = some (base + low below) := by
  cases below <;> simp only [walk, read, Option.map_some, meaning]

theorem walk_of_absent (meaning : decode below entry = .absent) :
    walk fetch decode slot low below table = none := by
  cases below <;> simp only [walk, read, Option.map_some, meaning]

theorem walk_of_reserved (meaning : decode below entry = .reserved) :
    walk fetch decode slot low below table = none := by
  cases below <;> simp only [walk, read, Option.map_some, meaning]

end Read

theorem walk_of_table {below table next : Nat} {entry : D}
    (read : fetch (table + slot (below + 1)) = some entry)
    (meaning : decode (below + 1) entry = .table next) :
    walk fetch decode slot low (below + 1) table = walk fetch decode slot low below next := by
  simp only [walk, read, Option.map_some, meaning]

theorem walk_of_last {table next : Nat} {entry : D} (read : fetch (table + slot 0) = some entry)
    (meaning : decode 0 entry = .table next) : walk fetch decode slot low 0 table = none := by
  simp only [walk, read, Option.map_some, meaning]

/-! ## The tables a walk comes to -/

theorem Visits.le {below table last at' : Nat}
    (visits : Visits fetch decode slot below table last at') : last ≤ below := by
  induction visits with
  | here below table => exact Nat.le_refl below
  | deeper _ _ _ ih => omega

theorem mem_reads_iff {below table last at' : Nat} :
    (last, at') ∈ reads fetch decode slot below table ↔
      Visits fetch decode slot below table last at' := by
  constructor
  · intro member
    induction below generalizing table with
    | zero =>
        obtain ⟨rfl, rfl⟩ := Prod.mk.inj (List.mem_singleton.mp member)
        exact .here 0 at'
    | succ below ih =>
        rcases List.mem_cons.mp member with first | later
        · obtain ⟨rfl, rfl⟩ := Prod.mk.inj first
          exact .here _ _
        · cases read : fetch (table + slot (below + 1)) with
          | none =>
              simp only [read, Option.map_none] at later
              cases later
          | some entry =>
              simp only [read, Option.map_some] at later
              cases meaning : decode (below + 1) entry with
              | table next =>
                  simp only [meaning] at later
                  exact .deeper read meaning (ih later)
              | absent =>
                  simp only [meaning] at later
                  cases later
              | reserved =>
                  simp only [meaning] at later
                  cases later
              | output base =>
                  simp only [meaning] at later
                  cases later
  · intro visits
    induction visits with
    | here below table => cases below <;> exact List.mem_cons_self
    | deeper read meaning _ ih =>
        simp only [reads, read, Option.map_some, meaning]
        exact List.mem_cons_of_mem _ ih

theorem reads_of_end {below table : Nat}
    (ends : ∀ entry next, fetch (table + slot below) = some entry →
      decode below entry ≠ .table next) :
    reads fetch decode slot below table = [(below, table)] := by
  cases below with
  | zero => rfl
  | succ below =>
      rw [reads, List.cons_inj_right]
      split
      · rename_i next found
        obtain ⟨entry, read, follows⟩ := Option.map_eq_some_iff.mp found
        exact absurd follows (ends entry next read)
      · rfl

theorem reads_of_table {below table next : Nat} {entry : D}
    (read : fetch (table + slot (below + 1)) = some entry)
    (follows : decode (below + 1) entry = .table next) :
    reads fetch decode slot (below + 1) table =
      (below + 1, table) :: reads fetch decode slot below next := by
  simp only [reads, read, Option.map_some, follows]

theorem head_reads (below table : Nat) :
    (reads fetch decode slot below table).head? = some (below, table) := by
  cases below <;> rfl

theorem length_reads_le (below table : Nat) :
    (reads fetch decode slot below table).length ≤ below + 1 := by
  induction below generalizing table with
  | zero => exact Nat.le_refl 1
  | succ below ih =>
      simp only [reads, List.length_cons]
      split
      · rename_i next _
        have rest := ih next
        omega
      · simp only [List.length_nil]
        omega

/-! ## Where a walk ends -/

def Stops (fetch : Nat → Option D) (decode : Nat → D → Entry) (slot : Nat → Nat)
    (last at' : Nat) : Prop :=
  ∀ entry, fetch (at' + slot last) = some entry →
    decode last entry = .absent ∨ decode last entry = .reserved ∨
      (last = 0 ∧ ∃ next, decode last entry = .table next)

theorem walk_step (fetch : Nat → Option D) (decode : Nat → D → Entry) (slot low : Nat → Nat)
    (below table : Nat) :
    (Stops fetch decode slot below table ∧ walk fetch decode slot low below table = none) ∨
    (∃ entry base, fetch (table + slot below) = some entry ∧ decode below entry = .output base ∧
      walk fetch decode slot low below table = some (base + low below)) ∨
    (∃ deeper entry next, below = deeper + 1 ∧ fetch (table + slot below) = some entry ∧
      decode below entry = .table next ∧
      walk fetch decode slot low below table = walk fetch decode slot low deeper next) := by
  cases read : fetch (table + slot below) with
  | none =>
      refine .inl ⟨?_, walk_of_unfetched read⟩
      intro entry found
      cases read.symm.trans found
  | some entry =>
      have alone : ∀ other, fetch (table + slot below) = some other → other = entry :=
        fun other found => (Option.some.inj (read.symm.trans found)).symm
      cases meaning : decode below entry with
      | absent =>
          refine .inl ⟨fun other found => .inl ?_, walk_of_absent read meaning⟩
          rw [alone other found, meaning]
      | reserved =>
          refine .inl ⟨fun other found => .inr (.inl ?_), walk_of_reserved read meaning⟩
          rw [alone other found, meaning]
      | output base => exact .inr (.inl ⟨entry, base, rfl, meaning, walk_of_output read meaning⟩)
      | table next =>
          cases below with
          | zero =>
              refine .inl ⟨fun other found => .inr (.inr ⟨rfl, next, ?_⟩), walk_of_last read meaning⟩
              rw [alone other found, meaning]
          | succ deeper =>
              exact .inr (.inr ⟨deeper, entry, next, rfl, rfl, meaning, walk_of_table read meaning⟩)

theorem walk_ends (fetch : Nat → Option D) (decode : Nat → D → Entry) (slot low : Nat → Nat)
    (below table : Nat) :
    ∃ last at', Visits fetch decode slot below table last at' ∧
      ((Stops fetch decode slot last at' ∧ walk fetch decode slot low below table = none) ∨
        ∃ entry base, fetch (at' + slot last) = some entry ∧ decode last entry = .output base ∧
          walk fetch decode slot low below table = some (base + low last)) := by
  induction below using Nat.strongRecOn generalizing table with
  | ind below ih =>
      obtain stops | output | ⟨deeper, entry, next, rfl, read, meaning, same⟩ :=
        walk_step fetch decode slot low below table
      · exact ⟨below, table, .here below table, .inl stops⟩
      · exact ⟨below, table, .here below table, .inr output⟩
      · obtain ⟨last, at', visits, ends⟩ := ih deeper (Nat.lt_succ_self deeper) next
        rw [same]
        exact ⟨last, at', .deeper read meaning visits, ends⟩

theorem walk_eq_none_iff (below table : Nat) :
    walk fetch decode slot low below table = none ↔
      ∃ last at', Visits fetch decode slot below table last at' ∧
        Stops fetch decode slot last at' := by
  constructor
  · intro none
    obtain ⟨last, at', visits, ⟨stops, -⟩ | ⟨entry, base, -, -, some'⟩⟩ :=
      walk_ends fetch decode slot low below table
    · exact ⟨last, at', visits, stops⟩
    · cases none.symm.trans some'
  · rintro ⟨last, at', visits, stops⟩
    induction visits with
    | here below table =>
        obtain ⟨-, none⟩ | ⟨entry, base, read, meaning, -⟩ |
            ⟨deeper, entry, next, rfl, read, meaning, -⟩ :=
          walk_step fetch decode slot low below table
        · exact none
        · obtain absent | reserved | ⟨-, next, table⟩ := stops entry read
          · cases meaning.symm.trans absent
          · cases meaning.symm.trans reserved
          · cases meaning.symm.trans table
        · obtain absent | reserved | ⟨zero, -⟩ := stops entry read
          · cases meaning.symm.trans absent
          · cases meaning.symm.trans reserved
          · cases zero
    | deeper read meaning _ ih =>
        rw [walk_of_table read meaning]
        exact ih stops

/-- The answer is an output the walk comes to, and every one it comes to is. -/
theorem walk_eq_some_iff {below table address : Nat} :
    walk fetch decode slot low below table = some address ↔
      ∃ last at' entry base, Visits fetch decode slot below table last at' ∧
        fetch (at' + slot last) = some entry ∧ decode last entry = .output base ∧
        address = base + low last := by
  constructor
  · intro answer
    obtain ⟨last, at', visits, ⟨-, none⟩ | ⟨entry, base, read, meaning, same⟩⟩ :=
      walk_ends fetch decode slot low below table
    · cases none.symm.trans answer
    · exact ⟨last, at', entry, base, visits, read, meaning,
        Option.some.inj (answer.symm.trans same)⟩
  · rintro ⟨last, at', entry, base, visits, read, meaning, rfl⟩
    induction visits with
    | here below table => exact walk_of_output read meaning
    | deeper first follows _ ih =>
        rw [walk_of_table first follows]
        exact ih read meaning

/-! ## Two readers of the same tables -/

theorem Visits.follow {other : Nat → D → Entry} {below table last at' : Nat}
    (visits : Visits fetch decode slot below table last at')
    (same : ∀ below entry next, decode below entry = .table next →
      other below entry = .table next) :
    Visits fetch other slot below table last at' := by
  induction visits with
  | here below table => exact .here below table
  | deeper read meaning _ ih => exact .deeper read (same _ _ _ meaning) ih

/-- What holds of the first table and of every one an entry names holds of all. -/
theorem Visits.invariant {P : Nat → Prop} {below table last at' : Nat}
    (visits : Visits fetch decode slot below table last at') (first : P table)
    (named : ∀ below entry next, decode below entry = .table next → P next) : P at' := by
  induction visits with
  | here below table => exact first
  | deeper _ meaning _ ih => exact ih (named _ _ _ meaning)

/-- Readers that agree on all that is met give the same answer. -/
theorem walk_congr {other : Nat → D → Entry} {below table : Nat}
    (agree : ∀ last at' entry, Visits fetch decode slot below table last at' →
      fetch (at' + slot last) = some entry → other last entry = decode last entry) :
    walk fetch other slot low below table = walk fetch decode slot low below table := by
  induction below generalizing table with
  | zero =>
      cases read : fetch (table + slot 0) with
      | none => rw [walk_of_unfetched read, walk_of_unfetched read]
      | some entry =>
          simp only [walk, read, Option.map_some, agree 0 table entry (.here 0 table) read]
  | succ below ih =>
      cases read : fetch (table + slot (below + 1)) with
      | none => rw [walk_of_unfetched read, walk_of_unfetched read]
      | some entry =>
          have same := agree (below + 1) table entry (.here _ _) read
          cases meaning : decode (below + 1) entry with
          | absent => rw [walk_of_absent read meaning, walk_of_absent read (same.trans meaning)]
          | reserved =>
              rw [walk_of_reserved read meaning, walk_of_reserved read (same.trans meaning)]
          | output base =>
              rw [walk_of_output read meaning, walk_of_output read (same.trans meaning)]
          | table next =>
              rw [walk_of_table read meaning, walk_of_table read (same.trans meaning)]
              apply ih
              intro last at' entry later
              exact agree last at' entry (.deeper read meaning later)

end Walk

/-! ## How an address is split -/

/-- An offset in a page, and above it indices of one stride each; the last of them may
have less of the address left. -/
structure Split where
  pageBits : Nat
  stride : Nat
  addressBits : Nat

namespace Split

variable (p : Split)

def lsb (below : Nat) : Nat := p.pageBits + below * p.stride

def width (below : Nat) : Nat := min p.stride (p.addressBits - p.lsb below)

def index (address below : Nat) : Nat := address / 2 ^ p.lsb below % 2 ^ p.width below

/-- How many levels resolve the address: the strides above the page, rounded up. -/
def levels : Nat := (p.addressBits - p.pageBits + p.stride - 1) / p.stride

/-- Where a walk of at most so many levels below its first starts. -/
def top (most : Nat) : Nat := min most (p.levels - 1)

variable {p}

theorem index_lt (address below : Nat) : p.index address below < 2 ^ p.width below :=
  Nat.mod_lt _ (Nat.two_pow_pos _)

theorem width_le (below : Nat) : p.width below ≤ p.stride := Nat.min_le_left _ _

theorem lsb_mono {low high : Nat} (within : low ≤ high) : p.lsb low ≤ p.lsb high :=
  Nat.add_le_add_left (Nat.mul_le_mul_right _ within) _

theorem levels_of_long (steps : 0 < p.stride) (long : p.pageBits + p.stride < p.addressBits) :
    p.levels = levels { p with pageBits := p.pageBits + p.stride } + 1 := by
  have regroup : p.addressBits - p.pageBits + p.stride - 1 =
      p.addressBits - (p.pageBits + p.stride) + p.stride - 1 + p.stride := by omega
  rw [levels, levels, regroup, Nat.add_div_right _ steps]

theorem levels_le_one (steps : 0 < p.stride) (short : p.addressBits ≤ p.pageBits + p.stride) :
    p.levels ≤ 1 := by
  have small : p.addressBits - p.pageBits + p.stride - 1 < 2 * p.stride := by omega
  have levels : p.levels < 2 := (Nat.div_lt_iff_lt_mul steps).mpr small
  omega

theorem levels_pos (steps : 0 < p.stride) (above : p.pageBits < p.addressBits) : 1 ≤ p.levels := by
  rw [levels, Nat.le_div_iff_mul_le steps]
  omega

end Split

end TableWalk
