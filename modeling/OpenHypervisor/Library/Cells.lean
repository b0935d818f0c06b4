import Mathlib.Logic.Function.Basic

/-!
# Cells behind an interface

An interface whose registers live in cells: each access may touch some cells and
leaves the others.  What a cell held is then what it holds after any run of
accesses that do not touch it, so a value once written is read back until the
next write that lands in its cell, whoever makes it and under whichever name.
-/

set_option autoImplicit false

namespace Cells

variable {S A P V : Type*}

/-- The interface against its cells: in every state that is in order, an allowed
access leaves order behind and every cell it does not touch. -/
structure Framed (serve : S → A → S) (Order : S → Prop) (Allowed : A → Prop)
    (touches : A → P → Prop) (value : S → P → V) : Prop where
  order : ∀ s a, Order s → Allowed a → Order (serve s a)
  frame : ∀ s a p, Order s → Allowed a → ¬ touches a p → value (serve s a) p = value s p

variable {serve : S → A → S} {Order : S → Prop} {Allowed : A → Prop} {touches : A → P → Prop}
  {value : S → P → V}

theorem Framed.run (framed : Framed serve Order Allowed touches value) {s : S} {p : P}
    (order : Order s) (word : List A) (apart : ∀ a ∈ word, Allowed a ∧ ¬ touches a p) :
    Order (word.foldl serve s) ∧ value (word.foldl serve s) p = value s p := by
  induction word generalizing s with
  | nil => exact ⟨order, rfl⟩
  | cons a rest ih =>
      obtain ⟨allowed, misses⟩ := apart a List.mem_cons_self
      have next := framed.order s a order allowed
      obtain ⟨settled, kept⟩ := ih next fun b later => apart b (List.mem_cons_of_mem a later)
      refine ⟨settled, ?_⟩
      rw [List.foldl_cons, kept]
      exact framed.frame s a p order allowed misses

theorem Framed.holds_written (framed : Framed serve Order Allowed touches value) {s : S} {p : P}
    {x : V} (order : Order s) (written : value s p = x) (word : List A)
    (apart : ∀ a ∈ word, Allowed a ∧ ¬ touches a p) : value (word.foldl serve s) p = x :=
  (framed.run order word apart).2.trans written

/-- What each access of a word makes stand and no access of the word takes back
stands at its end. -/
theorem stands_all (serve : S → A → S) (Order : S → Prop) (Stands : A → S → Prop) (word : List A)
    (order : ∀ s, ∀ a ∈ word, Order s → Order (serve s a))
    (made : ∀ s, ∀ a ∈ word, Order s → Stands a (serve s a))
    (kept : ∀ s, ∀ a ∈ word, ∀ b ∈ word, Order s → Stands a s → Stands a (serve s b))
    {s : S} (start : Order s) :
    Order (word.foldl serve s) ∧ ∀ a ∈ word, Stands a (word.foldl serve s) := by
  suffices later : ∀ rest : List A, (∀ b ∈ rest, b ∈ word) → ∀ s, Order s →
      Order (rest.foldl serve s) ∧
        ∀ a ∈ word, a ∈ rest ∨ Stands a s → Stands a (rest.foldl serve s) by
    obtain ⟨settled, standing⟩ := later word (fun _ member => member) s start
    exact ⟨settled, fun a member => standing a member (Or.inl member)⟩
  intro rest
  induction rest with
  | nil =>
      intro _ s settled
      refine ⟨settled, fun a _ either => ?_⟩
      rcases either with none | stands
      · cases none
      · exact stands
  | cons b rest ih =>
      intro within s settled
      have here : b ∈ word := within b List.mem_cons_self
      have next := order s b here settled
      obtain ⟨final, standing⟩ :=
        ih (fun c later => within c (List.mem_cons_of_mem b later)) (serve s b) next
      refine ⟨final, fun a member either => standing a member ?_⟩
      rcases either with listed | stands
      · rcases List.mem_cons.mp listed with rfl | later
        · exact Or.inr (made s a here settled)
        · exact Or.inl later
      · exact Or.inr (kept s a member b here settled stands)

/-! ## Reading the last write

A log of writes, each under the key its access named the cell by. -/

section Log

variable {K : Type*}

def lastUnder (same : K → Prop) [DecidablePred same] : List (K × V) → Option V
  | [] => none
  | (key, x) :: rest => (lastUnder same rest).or (if same key then some x else none)

def log (serve : S → A → S) (writes : S → A → Option (K × V)) : S → List A → List (K × V)
  | _, [] => []
  | s, a :: rest => (writes s a).toList ++ log serve writes (serve s a) rest

variable {same : K → Prop} [DecidablePred same]

theorem lastUnder_append (front back : List (K × V)) :
    lastUnder same (front ++ back) = (lastUnder same back).or (lastUnder same front) := by
  induction front with
  | nil => simp [lastUnder]
  | cons entry rest ih =>
      obtain ⟨key, x⟩ := entry
      simp only [List.cons_append, lastUnder, ih, Option.or_assoc]

theorem value_of_log {writes : S → A → Option (K × V)} (value : S → V) (word : List A)
    (step : ∀ s, ∀ a ∈ word, value (serve s a) =
      (lastUnder same (writes s a).toList).getD (value s)) (s : S) :
    value (word.foldl serve s) = (lastUnder same (log serve writes s word)).getD (value s) := by
  induction word generalizing s with
  | nil => rfl
  | cons a rest ih =>
      have here := step s a List.mem_cons_self
      have later := ih (fun s b member => step s b (List.mem_cons_of_mem a member)) (serve s a)
      rw [List.foldl_cons, later, log, lastUnder_append]
      cases lastUnder same (log serve writes (serve s a) rest) with
      | some x => rfl
      | none => exact here

end Log

end Cells
