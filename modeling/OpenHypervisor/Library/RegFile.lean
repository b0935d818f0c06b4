/-!
# Lazily allocated register files

A bounded table of `(key, value)` rows in allocation order.  A key gets its row
on first use and keeps it; the file refuses a new key once it is full.
-/

set_option autoImplicit false

abbrev RegFile (κ V : Type) := List (κ × V)

namespace RegFile

variable {κ V : Type} [DecidableEq κ]

def get : RegFile κ V → κ → Option V
  | [], _ => none
  | (key, value) :: rest, wanted => if key = wanted then some value else get rest wanted

/-- Overwrites the first row of the key. -/
def set : RegFile κ V → κ → V → RegFile κ V
  | [], _, _ => []
  | (key, old) :: rest, wanted, value =>
      if key = wanted then (key, value) :: rest else (key, old) :: set rest wanted value

/-- The file with a row for the key, or `none` when it has none and is full. -/
def alloc (capacity : Nat) (file : RegFile κ V) (key : κ) (initial : V) :
    Option (RegFile κ V) :=
  if (file.get key).isSome then some file
  else if file.length < capacity then some (file ++ [(key, initial)])
  else none

variable {capacity : Nat} {file : RegFile κ V} {key : κ} {initial : V}

/-- The key has its row, or one is left for it. -/
def Room (capacity : Nat) (file : RegFile κ V) (key : κ) : Prop :=
  (file.get key).isSome ∨ file.length < capacity

instance (capacity : Nat) (file : RegFile κ V) (key : κ) : Decidable (Room capacity file key) :=
  inferInstanceAs (Decidable (_ ∨ _))

theorem get_append (file : RegFile κ V) (key wanted : κ) (value : V) :
    RegFile.get (file ++ [(key, value)]) wanted =
      (file.get wanted).or (if key = wanted then some value else none) := by
  induction file with
  | nil => rfl
  | cons row rest ih =>
      obtain ⟨held, old⟩ := row
      simp only [List.cons_append, get]
      split
      · rfl
      · exact ih

theorem get_set (file : RegFile κ V) (key wanted : κ) (value : V) :
    (file.set key value).get wanted =
      if wanted = key then (file.get key).map fun _ => value else file.get wanted := by
  induction file with
  | nil => simp [set, get]
  | cons row rest ih =>
      obtain ⟨held, old⟩ := row
      by_cases there : held = key
      · by_cases same : wanted = key
        · simp [set, get, there, same]
        · simp [set, get, there, same, Ne.symm same]
      · by_cases here : held = wanted
        · have other : wanted ≠ key := fun same => there (here.trans same)
          simp [set, get, here, other]
        · simp only [set, get, if_neg there, if_neg here]
          exact ih

theorem length_set (file : RegFile κ V) (key : κ) (value : V) :
    (file.set key value).length = file.length := by
  induction file with
  | nil => rfl
  | cons row rest ih =>
      obtain ⟨held, old⟩ := row
      simp only [set]
      split
      · rfl
      · simp only [List.length_cons, ih]

/-! ## Rows once given, and files once full -/

/-- A later state of a file: no row is lost, and no key finds room that had none. -/
structure Grows (capacity : Nat) (before after : RegFile κ V) : Prop where
  rows : ∀ k, (before.get k).isSome → (after.get k).isSome
  room : ∀ k, Room capacity after k → Room capacity before k

theorem Grows.refl (file : RegFile κ V) : Grows capacity file file :=
  ⟨fun _ row => row, fun _ room => room⟩

theorem Grows.trans {first second third : RegFile κ V} (left : Grows capacity first second)
    (right : Grows capacity second third) : Grows capacity first third :=
  ⟨fun k row => right.rows k (left.rows k row), fun k room => left.room k (right.room k room)⟩

theorem grows_set (file : RegFile κ V) (key : κ) (value : V) :
    Grows capacity file (file.set key value) := by
  have rows : ∀ k, ((file.set key value).get k).isSome = (file.get k).isSome := by
    intro k
    rw [get_set]
    split
    · rename_i same
      rw [same, Option.isSome_map]
    · rfl
  constructor
  · intro k row
    rw [rows]
    exact row
  · intro k room
    rw [Room, rows, length_set] at room
    exact room

section Alloc

variable {grown : RegFile κ V}

theorem alloc_none_iff : file.alloc capacity key initial = none ↔ ¬ Room capacity file key := by
  unfold alloc Room
  split
  · rename_i row
    simp [row]
  · rename_i noRow
    split
    · rename_i fits
      simp [fits]
    · rename_i full
      simp [noRow, full]

theorem get_alloc (given : file.alloc capacity key initial = some grown) (wanted : κ) :
    grown.get wanted = (file.get wanted).or (if key = wanted then some initial else none) := by
  unfold alloc at given
  split at given
  · rename_i row
    cases given
    split
    · rename_i same
      rw [← same]
      cases held : file.get key with
      | none => simp [held] at row
      | some value => rfl
    · rw [Option.or_none]
  · split at given
    · cases given
      exact get_append file key wanted initial
    · cases given

theorem getD_alloc (given : file.alloc capacity key initial = some grown) (wanted : κ) :
    (grown.get wanted).getD initial = (file.get wanted).getD initial := by
  rw [get_alloc given]
  cases file.get wanted with
  | some value => rfl
  | none =>
      simp only [Option.none_or]
      split <;> rfl

theorem row_alloc (given : file.alloc capacity key initial = some grown) :
    (grown.get key).isSome := by
  rw [get_alloc given, if_pos rfl]
  cases file.get key <;> rfl

theorem room_alloc (given : file.alloc capacity key initial = some grown) :
    Room capacity file key := by
  cases Decidable.em (Room capacity file key) with
  | inl room => exact room
  | inr full =>
      rw [alloc_none_iff.mpr full] at given
      cases given

theorem grows_alloc (given : file.alloc capacity key initial = some grown) :
    Grows capacity file grown := by
  constructor
  · intro k row
    rw [get_alloc given, Option.isSome_or, row, Bool.true_or]
  · intro k room
    unfold alloc at given
    split at given
    · cases given
      exact room
    · split at given
      · rename_i fits
        exact Or.inr fits
      · cases given

/-- What a write under the key leaves of the file, read with the initial value. -/
theorem getD_set (given : file.alloc capacity key initial = some grown) (value : V) (wanted : κ) :
    ((grown.set key value).get wanted).getD initial =
      if wanted = key then value else (file.get wanted).getD initial := by
  rw [get_set]
  split
  · have row := row_alloc given
    cases held : grown.get key with
    | none => simp [held] at row
    | some old => rfl
  · exact getD_alloc given wanted

end Alloc

theorem length_of_alloc_none (full : file.alloc capacity key initial = none) :
    capacity ≤ file.length := by
  unfold alloc at full
  split at full
  · cases full
  · split at full
    · cases full
    · omega

end RegFile
