import Mathlib.Data.List.Nodup

/-!
# A bounded table without repetitions

Entries are added at the end, unless one of the same key is there or the table is full.
What is in it was added, in order and once, and a table that is not full has every key that
was offered to it.
-/

set_option autoImplicit false

namespace Ledger

variable {A K : Type*} [DecidableEq K]

def add (key : A → K) (cap : Nat) (t : List A) (x : A) : List A :=
  if key x ∈ t.map key then t
  else if t.length < cap then t ++ [x]
  else t

def addAll (key : A → K) (cap : Nat) (t xs : List A) : List A := xs.foldl (add key cap) t

variable {key : A → K} {cap : Nat}

theorem addAll_append (t xs ys : List A) :
    addAll key cap t (xs ++ ys) = addAll key cap (addAll key cap t xs) ys :=
  List.foldl_append

theorem add_nodup {t : List A} (nodup : (t.map key).Nodup) (x : A) :
    ((add key cap t x).map key).Nodup := by
  rw [add]
  split
  · exact nodup
  · split
    · rename_i new _
      rw [List.map_append, List.nodup_append]
      refine ⟨nodup, List.pairwise_singleton _ _, ?_⟩
      intro k old k' last same
      cases List.mem_singleton.mp last
      exact new (same ▸ old)
    · exact nodup

theorem addAll_nodup {t : List A} (nodup : (t.map key).Nodup) (xs : List A) :
    ((addAll key cap t xs).map key).Nodup := by
  induction xs generalizing t with
  | nil => exact nodup
  | cons x rest ih => exact ih (add_nodup nodup x)

theorem prefix_add (t : List A) (x : A) : t <+: add key cap t x := by
  rw [add]
  split
  · exact List.prefix_rfl
  · split
    · exact List.prefix_append t [x]
    · exact List.prefix_rfl

theorem prefix_addAll (t xs : List A) : t <+: addAll key cap t xs := by
  induction xs generalizing t with
  | nil => exact List.prefix_rfl
  | cons x rest ih => exact (prefix_add t x).trans (ih _)

/-- What is in the table was in it or was offered. -/
theorem mem_addAll {t xs : List A} {y : A} (member : y ∈ addAll key cap t xs) :
    y ∈ t ∨ y ∈ xs := by
  induction xs generalizing t with
  | nil => exact Or.inl member
  | cons x rest ih =>
      rcases ih member with early | later
      · rw [add] at early
        split at early
        · exact Or.inl early
        · split at early
          · rcases List.mem_append.mp early with old | new
            · exact Or.inl old
            · cases List.mem_singleton.mp new
              exact Or.inr List.mem_cons_self
          · exact Or.inl early
      · exact Or.inr (List.mem_cons_of_mem x later)

/-- A table that is not full has every key it was offered. -/
theorem key_mem_addAll {t xs : List A} (room : (addAll key cap t xs).length < cap) {x : A}
    (offered : x ∈ xs) : key x ∈ (addAll key cap t xs).map key := by
  induction xs generalizing t with
  | nil => cases offered
  | cons y rest ih =>
      rcases List.mem_cons.mp offered with rfl | later
      · have onward : add key cap t x <+: addAll key cap (add key cap t x) rest := prefix_addAll _ rest
        have shorter : (add key cap t x).length < cap :=
          Nat.lt_of_le_of_lt onward.length_le room
        refine (onward.map key).subset ?_
        rw [add] at shorter ⊢
        split
        · assumption
        · rename_i new
          rw [if_neg new] at shorter
          split
          · rw [List.map_append]
            exact List.mem_append_right _ List.mem_cons_self
          · rename_i full
            rw [if_neg full] at shorter
            exact absurd shorter full
      · exact ih room later

end Ledger
