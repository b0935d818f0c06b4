import Mathlib.Algebra.Group.Nat.Defs
import OpenHypervisor.GuestMap

/-!
# Which pointers the map record hands out

`ohv_guest_ptr` against the regions it was told of, in unbounded arithmetic.  The
program counters and table addresses it is asked about are the guest's to choose,
so the end of an access may lie past the top of the address space.  Below the top
the answer is inside the region it is taken from.  At the top the sum wraps, and
the theorem at the end says which accesses are then still answered rightly.
-/

set_option autoImplicit false

namespace OpenHypervisor

namespace MapRecord

def stop (m : MapRecord) : Nat := m.ipa.toNat + m.size.toNat

structure Holds (m : MapRecord) (ipa len : Word) : Prop where
  starts : m.ipa ≤ ipa
  stops : ipa.toNat + len.toNat ≤ m.stop

theorem covers_wrapping_iff (m : MapRecord) (ipa len : Word) :
    m.covers ipa len = true ↔
      m.ipa ≤ ipa ∧ (ipa.toNat + len.toNat) % 2 ^ 64 ≤ m.stop % 2 ^ 64 := by
  simp only [covers, Bool.and_eq_true, decide_eq_true_eq, stop]
  rw [BitVec.le_def (x := ipa + len), BitVec.toNat_add, BitVec.toNat_add]

theorem holds_of_covers {m : MapRecord} {ipa len : Word} (hit : m.covers ipa len = true)
    (below : ipa.toNat + len.toNat < 2 ^ 64) : m.Holds ipa len := by
  obtain ⟨starts, stops⟩ := (covers_wrapping_iff m ipa len).mp hit
  rw [Nat.mod_eq_of_lt below] at stops
  have short : m.stop % 2 ^ 64 ≤ m.stop := Nat.mod_le m.stop (2 ^ 64)
  exact ⟨starts, by omega⟩

theorem not_holds_of_past {m : MapRecord} {ipa len : Word} (region : m.stop ≤ 2 ^ 64)
    (past : 2 ^ 64 < ipa.toNat + len.toNat) : ¬ m.Holds ipa len := by
  rintro ⟨_, stops⟩
  omega

theorem covers_past (m : MapRecord) {ipa len : Word} (past : 2 ^ 64 < ipa.toNat + len.toNat) :
    m.covers ipa len = (decide (m.ipa ≤ ipa) &&
      decide (ipa.toNat + len.toNat - 2 ^ 64 ≤ m.stop % 2 ^ 64)) := by
  have wrapped : (ipa.toNat + len.toNat) % 2 ^ 64 = ipa.toNat + len.toNat - 2 ^ 64 := by omega
  rw [Bool.eq_iff_iff, covers_wrapping_iff, wrapped, Bool.and_eq_true, decide_eq_true_eq,
    decide_eq_true_eq]

theorem covers_top (m : MapRecord) {ipa len : Word} (top : ipa.toNat + len.toNat = 2 ^ 64) :
    m.covers ipa len = decide (m.ipa ≤ ipa) := by
  rw [Bool.eq_iff_iff, covers_wrapping_iff, top, decide_eq_true_eq, Nat.mod_self]
  exact and_iff_left (Nat.zero_le _)

theorem holds_top_iff {m : MapRecord} {ipa len : Word} (region : m.stop ≤ 2 ^ 64)
    (top : ipa.toNat + len.toNat = 2 ^ 64) :
    m.Holds ipa len ↔ m.ipa ≤ ipa ∧ m.stop = 2 ^ 64 := by
  constructor
  · rintro ⟨starts, stops⟩
    exact ⟨starts, by omega⟩
  · rintro ⟨starts, reaches⟩
    exact ⟨starts, by omega⟩

end MapRecord

/-- Every pointer handed out for an access, null aside, is into a region that holds all
of it. -/
def PointsInside (maps : List MapRecord) (ipa len : Word) : Prop :=
  ∀ host, ohvGuestPtr maps ipa len = some host → host ≠ 0 →
    ∃ m ∈ maps, m.Holds ipa len ∧ host = m.host ipa

/-- The wrap of the sum does no harm: there is none; or the first region that starts below
and reaches what is left of the end gives null; or the end reads as zero and the first
region that starts below gives null or happens to agree with one that does reach the top. -/
def WrapHarmless (maps : List MapRecord) (ipa len : Word) : Prop :=
  ipa.toNat + len.toNat < 2 ^ 64 ∨
    (2 ^ 64 < ipa.toNat + len.toNat ∧
      ∀ first, maps.find? (fun m => decide (m.ipa ≤ ipa) &&
          decide (ipa.toNat + len.toNat - 2 ^ 64 ≤ m.stop % 2 ^ 64)) = some first →
        first.host ipa = 0) ∨
    (ipa.toNat + len.toNat = 2 ^ 64 ∧
      ∀ first, maps.find? (fun m => decide (m.ipa ≤ ipa)) = some first →
        first.host ipa ≠ 0 →
          ∃ m ∈ maps, (m.ipa ≤ ipa ∧ m.stop = 2 ^ 64) ∧ first.host ipa = m.host ipa)

section Answers

variable {maps : List MapRecord} {ipa len : Word}

theorem pointsInside_of_below (below : ipa.toNat + len.toNat < 2 ^ 64) :
    PointsInside maps ipa len := by
  intro host found _
  obtain ⟨m, recorded, hit, rfl⟩ := ohvGuestPtr_eq_some maps ipa len host found
  exact ⟨m, recorded, m.holds_of_covers hit below, rfl⟩

theorem ohvGuestPtr_eq_none_of_unheld (below : ipa.toNat + len.toNat < 2 ^ 64)
    (unheld : ∀ m ∈ maps, ¬ m.Holds ipa len) : ohvGuestPtr maps ipa len = none := by
  rw [ohvGuestPtr_eq_none_iff]
  intro m recorded
  rw [← Bool.not_eq_true]
  intro hit
  exact unheld m recorded (m.holds_of_covers hit below)

theorem ohvGuestPtr_past (maps : List MapRecord) (past : 2 ^ 64 < ipa.toNat + len.toNat) :
    ohvGuestPtr maps ipa len =
      (maps.find? fun m => decide (m.ipa ≤ ipa) &&
        decide (ipa.toNat + len.toNat - 2 ^ 64 ≤ m.stop % 2 ^ 64)).map fun m => m.host ipa := by
  rw [ohvGuestPtr, funext fun m : MapRecord => m.covers_past past]

/-- Past the top any answer but null is wrong. -/
theorem pointsInside_past_iff (regions : ∀ m ∈ maps, m.stop ≤ 2 ^ 64)
    (past : 2 ^ 64 < ipa.toNat + len.toNat) :
    PointsInside maps ipa len ↔
      ∀ first, maps.find? (fun m => decide (m.ipa ≤ ipa) &&
          decide (ipa.toNat + len.toNat - 2 ^ 64 ≤ m.stop % 2 ^ 64)) = some first →
        first.host ipa = 0 := by
  unfold PointsInside
  rw [ohvGuestPtr_past maps past]
  constructor
  · intro inside first found
    by_contra answered
    obtain ⟨m, recorded, held, -⟩ := inside _ (by rw [found, Option.map_some]) answered
    exact MapRecord.not_holds_of_past (regions m recorded) past held
  · intro null host found answered
    obtain ⟨first, chosen, rfl⟩ := Option.map_eq_some_iff.mp found
    exact absurd (null first chosen) answered

theorem ohvGuestPtr_top (maps : List MapRecord) (top : ipa.toNat + len.toNat = 2 ^ 64) :
    ohvGuestPtr maps ipa len =
      (maps.find? fun m => decide (m.ipa ≤ ipa)).map fun m => m.host ipa := by
  rw [ohvGuestPtr, funext fun m : MapRecord => m.covers_top top]

theorem pointsInside_top_iff (regions : ∀ m ∈ maps, m.stop ≤ 2 ^ 64)
    (top : ipa.toNat + len.toNat = 2 ^ 64) :
    PointsInside maps ipa len ↔
      ∀ first, maps.find? (fun m => decide (m.ipa ≤ ipa)) = some first →
        first.host ipa ≠ 0 →
          ∃ m ∈ maps, (m.ipa ≤ ipa ∧ m.stop = 2 ^ 64) ∧ first.host ipa = m.host ipa := by
  unfold PointsInside
  rw [ohvGuestPtr_top maps top]
  constructor
  · intro inside first found answered
    obtain ⟨m, recorded, held, same⟩ :=
      inside (first.host ipa) (by rw [found, Option.map_some]) answered
    exact ⟨m, recorded, (MapRecord.holds_top_iff (regions m recorded) top).mp held, same⟩
  · intro agree host found answered
    obtain ⟨first, chosen, rfl⟩ := Option.map_eq_some_iff.mp found
    obtain ⟨m, recorded, reaches, same⟩ := agree first chosen answered
    exact ⟨m, recorded, (MapRecord.holds_top_iff (regions m recorded) top).mpr reaches, same⟩

end Answers

/-- With regions that lie in the address space, a non-null pointer handed out
is into a region that holds the access exactly when the wrap of its end does no harm. -/
theorem guestPtr_inside_iff (maps : List MapRecord) (ipa len : Word)
    (regions : ∀ m ∈ maps, m.stop ≤ 2 ^ 64) :
    PointsInside maps ipa len ↔ WrapHarmless maps ipa len := by
  unfold WrapHarmless
  obtain below | top | past := Nat.lt_trichotomy (ipa.toNat + len.toNat) (2 ^ 64)
  · exact iff_of_true (pointsInside_of_below below) (Or.inl below)
  · rw [pointsInside_top_iff regions top]
    constructor
    · intro agree
      exact Or.inr (Or.inr ⟨top, agree⟩)
    · rintro (below | ⟨past, _⟩ | ⟨_, agree⟩)
      · omega
      · omega
      · exact agree
  · rw [pointsInside_past_iff regions past]
    constructor
    · intro null
      exact Or.inr (Or.inl ⟨past, null⟩)
    · rintro (below | ⟨_, null⟩ | ⟨top, _⟩)
      · omega
      · exact null
      · omega

def lowPage : MapRecord := ⟨0x100000000#64, 0, 0x1000#64⟩

theorem guestPtr_inside_lowPage :
    PointsInside [lowPage] 0xffc#64 4#64 ↔ WrapHarmless [lowPage] 0xffc#64 4#64 :=
  guestPtr_inside_iff [lowPage] 0xffc#64 4#64 (by simp [lowPage, MapRecord.stop])

/-- A program counter on the last word of the address space is found in the page at
zero, four bytes before the page in host memory. -/
theorem guestPtr_wildRead :
    ohvGuestPtr [lowPage] 0xfffffffffffffffc#64 4#64 = some 0xfffffffc#64 ∧
      ¬ PointsInside [lowPage] 0xfffffffffffffffc#64 4#64 := by
  have found : ohvGuestPtr [lowPage] 0xfffffffffffffffc#64 4#64 = some 0xfffffffc#64 := by decide
  refine ⟨found, fun inside => ?_⟩
  obtain ⟨m, recorded, held, _⟩ := inside _ found (by decide)
  obtain rfl := List.mem_singleton.mp recorded
  exact absurd held.stops (by decide)

end OpenHypervisor
