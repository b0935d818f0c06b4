import Mathlib.Logic.Equiv.Basic
import Mathlib.Data.Option.Basic

/-!
# Owning handles

Handles that own what they name: of two handles at most one has a given resource, and it
goes from one to the other only by a move or an exchange.  The table of handles against the
set of resources in use, and against a store of what each resource is.
-/

set_option autoImplicit false

namespace Handles

variable {H K V : Type*} {held : H → Option K} {live : K → Prop}

/-- A handle's resource is in use and nobody else's. -/
structure Held (held : H → Option K) (live : K → Prop) : Prop where
  alone : ∀ h h' k, held h = some k → held h' = some k → h = h'
  used : ∀ h k, held h = some k → live k

/-- And every resource in use has a handle. -/
structure Owned (held : H → Option K) (live : K → Prop) : Prop extends Held held live where
  covered : ∀ k, live k → ∃ h, held h = some k

/-! ## What is done with handles -/

theorem Held.empty (live : K → Prop) : Held (fun _ : H => none) live := ⟨nofun, nofun⟩

theorem Owned.empty (dead : ∀ k, ¬ live k) : Owned (fun _ : H => none) live :=
  ⟨.empty live, fun k inUse => absurd inUse (dead k)⟩

theorem Held.permute (own : Held held live) (places : Equiv.Perm H) :
    Held (held ∘ places) live where
  alone := by
    intro h h' k here there
    exact places.injective (own.alone _ _ k here there)
  used := fun h k here => own.used _ k here

theorem Owned.permute (own : Owned held live) (places : Equiv.Perm H) :
    Owned (held ∘ places) live where
  toHeld := own.toHeld.permute places
  covered := by
    intro k inUse
    obtain ⟨h, has⟩ := own.covered k inUse
    exact ⟨places.symm h, by simpa using has⟩

section Update

variable [DecidableEq H] {h : H} {k : K} {after : K → Prop}

theorem Held.acquire (own : Held held live) (fresh : ¬ live k) (inUse : after k)
    (others : ∀ k', live k' → after k') : Held (Function.update held h (some k)) after where
  alone := by
    have other : ∀ x, x ≠ h → held x ≠ some k := fun x _ has => fresh (own.used x k has)
    intro x y k' here there
    by_cases atX : x = h <;> by_cases atY : y = h
    · rw [atX, atY]
    · rw [atX, Function.update_self] at here
      rw [Function.update_of_ne atY, ← here] at there
      exact absurd there (other y atY)
    · rw [atY, Function.update_self] at there
      rw [Function.update_of_ne atX, ← there] at here
      exact absurd here (other x atX)
    · rw [Function.update_of_ne atX] at here
      rw [Function.update_of_ne atY] at there
      exact own.alone x y k' here there
  used := by
    intro x k' here
    by_cases atX : x = h
    · rw [atX, Function.update_self] at here
      exact Option.some.inj here ▸ inUse
    · rw [Function.update_of_ne atX] at here
      exact others k' (own.used x k' here)

theorem Owned.acquire (own : Owned held live) (free : held h = none) (fresh : ¬ live k)
    (inUse : ∀ k', after k' ↔ k' = k ∨ live k') :
    Owned (Function.update held h (some k)) after where
  toHeld := own.toHeld.acquire fresh ((inUse k).mpr (Or.inl rfl))
    fun k' used => (inUse k').mpr (Or.inr used)
  covered := by
    intro k' used
    obtain rfl | before := (inUse k').mp used
    · exact ⟨h, Function.update_self h _ held⟩
    · obtain ⟨x, has⟩ := own.covered k' before
      have other : x ≠ h := by
        rintro rfl
        rw [free] at has
        cases has
      exact ⟨x, (Function.update_of_ne other _ held).trans has⟩

theorem Held.release (own : Held held live)
    (others : ∀ x k', x ≠ h → held x = some k' → after k') :
    Held (Function.update held h none) after where
  alone := by
    intro x y k' here there
    by_cases atX : x = h
    · rw [atX, Function.update_self] at here
      cases here
    · by_cases atY : y = h
      · rw [atY, Function.update_self] at there
        cases there
      · rw [Function.update_of_ne atX] at here
        rw [Function.update_of_ne atY] at there
        exact own.alone x y k' here there
  used := by
    intro x k' here
    by_cases atX : x = h
    · rw [atX, Function.update_self] at here
      cases here
    · rw [Function.update_of_ne atX] at here
      exact others x k' atX here

theorem Owned.release (own : Owned held live) (has : held h = some k)
    (inUse : ∀ k', after k' ↔ k' ≠ k ∧ live k') :
    Owned (Function.update held h none) after where
  toHeld := by
    refine own.toHeld.release fun x k' other holds => (inUse k').mpr ⟨?_, own.used x k' holds⟩
    rintro rfl
    exact other (own.alone x h k' holds has)
  covered := by
    intro k' used
    obtain ⟨apart, before⟩ := (inUse k').mp used
    obtain ⟨x, holds⟩ := own.covered k' before
    have other : x ≠ h := by
      rintro rfl
      exact apart (Option.some.inj (holds.symm.trans has))
    exact ⟨x, (Function.update_of_ne other _ held).trans holds⟩

/-- Out of one handle into an empty one: the two change places. -/
theorem move_eq_swap {dest : H} (free : held dest = none) :
    Function.update (Function.update held dest (held h)) h none = held ∘ Equiv.swap dest h := by
  funext x
  by_cases atH : x = h
  · rw [atH, Function.update_self, Function.comp_apply, Equiv.swap_apply_right, free]
  · rw [Function.update_of_ne atH]
    by_cases atDest : x = dest
    · rw [atDest, Function.update_self, Function.comp_apply, Equiv.swap_apply_left]
    · rw [Function.update_of_ne atDest, Function.comp_apply,
        Equiv.swap_apply_of_ne_of_ne atDest atH]

end Update

/-! ## What the handles stand for -/

/-- A handle as the value it owns. -/
def valueOf (held : H → Option K) (store : K → V) (h : H) : Option V := (held h).map store

variable [DecidableEq H] [DecidableEq K] {h : H} {k : K}

theorem Held.valueOf_update (own : Held held live) (has : held h = some k) (store : K → V)
    (v : V) : valueOf held (Function.update store k v) =
      Function.update (valueOf held store) h (some v) := by
  funext x
  by_cases here : x = h
  · rw [here, Function.update_self, valueOf, has, Option.map_some, Function.update_self]
  · rw [Function.update_of_ne here, valueOf, valueOf]
    refine Option.map_congr fun k' holds => Function.update_of_ne ?_ v store
    rintro rfl
    exact here (own.alone x h k' holds has)

theorem Held.valueOf_acquire (own : Held held live) (fresh : ¬ live k) (store : K → V) (v : V) :
    valueOf (Function.update held h (some k)) (Function.update store k v) =
      Function.update (valueOf held store) h (some v) := by
  funext x
  by_cases here : x = h
  · rw [here, valueOf, Function.update_self, Option.map_some, Function.update_self,
      Function.update_self]
  · rw [Function.update_of_ne here, valueOf, Function.update_of_ne here, valueOf]
    refine Option.map_congr fun k' holds => Function.update_of_ne ?_ v store
    rintro rfl
    exact fresh (own.used x k' holds)

theorem Held.valueOf_release (own : Held held live) (has : held h = some k) (store : K → V)
    (v : V) : valueOf (Function.update held h none) (Function.update store k v) =
      Function.update (valueOf held store) h none := by
  funext x
  by_cases here : x = h
  · rw [here, valueOf, Function.update_self, Function.update_self, Option.map_none]
  · rw [Function.update_of_ne here, valueOf, Function.update_of_ne here, valueOf]
    refine Option.map_congr fun k' holds => Function.update_of_ne ?_ v store
    rintro rfl
    exact here (own.alone x h k' holds has)

end Handles
