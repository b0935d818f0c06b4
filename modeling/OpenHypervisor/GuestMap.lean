import OpenHypervisor.State

/-!
# The map record

What is mapped where, kept here because the kernel does not keep it on the
library's behalf: `map_remember`, `map_forget` and `ohv_guest_ptr`.
-/

set_option autoImplicit false

namespace OpenHypervisor

def mapCapacity : Nat := 64

def mapRemember (maps : List MapRecord) (uva ipa size : Word) : List MapRecord :=
  match maps.findIdx? (fun m => m.ipa == ipa) with
  | some i => maps.set i ⟨uva, ipa, size⟩
  | none => if maps.length < mapCapacity then maps ++ [⟨uva, ipa, size⟩] else maps

/-- The record of the base goes and the last one takes its place. -/
def mapForget (maps : List MapRecord) (ipa : Word) : List MapRecord :=
  match maps.findIdx? (fun m => m.ipa == ipa), maps.getLast? with
  | some i, some last => (maps.set i last).dropLast
  | _, _ => maps

namespace MapRecord

/-- The test of `ohv_guest_ptr`, in 64-bit arithmetic. -/
def covers (m : MapRecord) (ipa len : Word) : Bool :=
  decide (m.ipa ≤ ipa) && decide (ipa + len ≤ m.ipa + m.size)

def host (m : MapRecord) (ipa : Word) : Word := m.uva + (ipa - m.ipa)

end MapRecord

def ohvGuestPtr (maps : List MapRecord) (ipa len : Word) : Option Word :=
  (maps.find? fun m => m.covers ipa len).map fun m => m.host ipa

theorem ohvGuestPtr_eq_some (maps : List MapRecord) (ipa len host : Word)
    (found : ohvGuestPtr maps ipa len = some host) :
    ∃ m ∈ maps, m.covers ipa len = true ∧ host = m.host ipa := by
  simp only [ohvGuestPtr, Option.map_eq_some_iff] at found
  obtain ⟨m, first, rfl⟩ := found
  have hit : m.covers ipa len = true :=
    List.find?_some (p := fun record : MapRecord => record.covers ipa len) first
  exact ⟨m, List.mem_of_find?_eq_some first, hit, rfl⟩

theorem ohvGuestPtr_eq_none_iff (maps : List MapRecord) (ipa len : Word) :
    ohvGuestPtr maps ipa len = none ↔ ∀ m ∈ maps, m.covers ipa len = false := by
  simp [ohvGuestPtr]

end OpenHypervisor
