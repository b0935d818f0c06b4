import Mathlib.Logic.Basic

/-!
# Runs of a partial transition function

A machine is a partial function `step : S → A → Option S`: the action is the
label an observer sees, `none` says that it is not enabled.  `runFrom` executes
a word of actions.  `Along` says that a property of a step (state before,
action, state after) holds of every step a word takes.

The rules at the end are the ones the developments use: an invariant is carried
along the steps that meet a guard (`invariant_along`), a step property follows
from an invariant (`along_of_invariant`), and a property and a guard that agree
on every step from the invariant agree on whole runs (`along_iff_of_step`).
-/

set_option autoImplicit false

namespace Runs

variable {S A : Type*} {step : S → A → Option S}

def runFrom (step : S → A → Option S) : S → List A → Option S
  | s, [] => some s
  | s, a :: rest => (step s a).bind fun next => runFrom step next rest

/-- `P before action after` holds of every step the word takes from `s`.  A
word whose action is not enabled stops there. -/
def Along (step : S → A → Option S) (P : S → A → S → Prop) : S → List A → Prop
  | _, [] => True
  | s, a :: rest => ∀ next, step s a = some next → P s a next ∧ Along step P next rest

@[simp]
theorem runFrom_nil (s : S) : runFrom step s [] = some s := rfl

@[simp]
theorem along_nil (P : S → A → S → Prop) (s : S) : Along step P s [] := trivial

theorem runFrom_cons_iff (s t : S) (a : A) (rest : List A) :
    runFrom step s (a :: rest) = some t ↔
      ∃ next, step s a = some next ∧ runFrom step next rest = some t := by
  simp only [runFrom, Option.bind_eq_some_iff]

theorem runFrom_append (s : S) (first second : List A) :
    runFrom step s (first ++ second) =
      (runFrom step s first).bind fun middle => runFrom step middle second := by
  induction first generalizing s with
  | nil => rfl
  | cons a rest ih =>
      simp only [List.cons_append, runFrom]
      cases taken : step s a with
      | none => rfl
      | some next => simpa using ih next

theorem Along.cons_iff (P : S → A → S → Prop) (s : S) (a : A) (rest : List A) :
    Along step P s (a :: rest) ↔
      ∀ next, step s a = some next → P s a next ∧ Along step P next rest :=
  Iff.rfl

theorem Along.cons_of_step {P : S → A → S → Prop} {s next : S} {a : A} {rest : List A}
    (taken : step s a = some next) :
    Along step P s (a :: rest) ↔ P s a next ∧ Along step P next rest := by
  rw [Along.cons_iff]
  constructor
  · intro holds
    exact holds next taken
  · rintro both other enabled
    rw [taken] at enabled
    exact Option.some.inj enabled ▸ both

theorem Along.and {P Q : S → A → S → Prop} {s : S} {word : List A} (first : Along step P s word)
    (second : Along step Q s word) :
    Along step (fun s a next => P s a next ∧ Q s a next) s word := by
  induction word generalizing s with
  | nil => trivial
  | cons a rest ih =>
      intro next taken
      obtain ⟨left, early⟩ := first next taken
      obtain ⟨right, late⟩ := second next taken
      exact ⟨⟨left, right⟩, ih early late⟩

theorem along_of_forall {G : A → Prop} {word : List A} (all : ∀ a ∈ word, G a) (s : S) :
    Along step (fun _ a _ => G a) s word := by
  induction word generalizing s with
  | nil => trivial
  | cons a rest ih =>
      intro next _
      exact ⟨all a List.mem_cons_self, ih (fun b later => all b (List.mem_cons_of_mem a later)) next⟩

theorem Along.mono {P Q : S → A → S → Prop} {s : S} {word : List A} (holds : Along step P s word)
    (weaker : ∀ s a next, P s a next → Q s a next) : Along step Q s word := by
  induction word generalizing s with
  | nil => trivial
  | cons a rest ih =>
      intro next taken
      obtain ⟨head, tail⟩ := holds next taken
      exact ⟨weaker s a next head, ih tail⟩

theorem Along.at_step {P : S → A → S → Prop} {s middle next : S} (front : List A) {rest : List A}
    {a : A} (holds : Along step P s (front ++ a :: rest)) (run : runFrom step s front = some middle)
    (taken : step middle a = some next) : P middle a next := by
  induction front generalizing s with
  | nil =>
      cases run
      exact (holds next taken).1
  | cons b front ih =>
      obtain ⟨after, first, later⟩ := (runFrom_cons_iff s middle b front).mp run
      exact ih (holds after first).2 later

theorem Along.append {P : S → A → S → Prop} {s middle : S} {first second : List A}
    (run : runFrom step s first = some middle) (front : Along step P s first)
    (back : Along step P middle second) : Along step P s (first ++ second) := by
  induction first generalizing s with
  | nil =>
      cases run
      exact back
  | cons a rest ih =>
      obtain ⟨after, taken, later⟩ := (runFrom_cons_iff s middle a rest).mp run
      obtain ⟨head, tail⟩ := front after taken
      exact (Along.cons_of_step taken).mpr ⟨head, ih later tail⟩

theorem Along.front {P : S → A → S → Prop} {s : S} (first : List A) {second : List A}
    (holds : Along step P s (first ++ second)) : Along step P s first := by
  induction first generalizing s with
  | nil => trivial
  | cons a rest ih =>
      intro next taken
      obtain ⟨head, tail⟩ := holds next taken
      exact ⟨head, ih tail⟩

theorem Along.back {P : S → A → S → Prop} {s middle : S} {first second : List A}
    (run : runFrom step s first = some middle) (holds : Along step P s (first ++ second)) :
    Along step P middle second := by
  induction first generalizing s with
  | nil =>
      cases run
      exact holds
  | cons a rest ih =>
      obtain ⟨after, taken, later⟩ := (runFrom_cons_iff s middle a rest).mp run
      exact ih later (holds after taken).2

theorem along_true (s : S) (word : List A) : Along step (fun _ _ _ => True) s word := by
  induction word generalizing s with
  | nil => trivial
  | cons a rest ih => exact fun next _ => ⟨trivial, ih next⟩

/-- The guarded induction over runs: an invariant preserved by the steps that
meet the guard holds at the end of a run all of whose steps meet it. -/
theorem invariant_along (Inv : S → Prop) {Guard : S → A → S → Prop}
    (preserved : ∀ s a next, step s a = some next → Guard s a next → Inv s → Inv next)
    {s t : S} {word : List A} (guarded : Along step Guard s word)
    (run : runFrom step s word = some t) (initial : Inv s) : Inv t := by
  induction word generalizing s with
  | nil =>
      simp only [runFrom_nil, Option.some.injEq] at run
      exact run ▸ initial
  | cons a rest ih =>
      obtain ⟨next, taken, later⟩ := (runFrom_cons_iff s t a rest).mp run
      obtain ⟨head, tail⟩ := guarded next taken
      exact ih tail later (preserved s a next taken head initial)

theorem invariant_runFrom (Inv : S → Prop)
    (preserved : ∀ s a next, step s a = some next → Inv s → Inv next)
    {s t : S} {word : List A} (run : runFrom step s word = some t) (initial : Inv s) : Inv t := by
  exact invariant_along Inv (fun s a next taken _ => preserved s a next taken) (along_true s word)
    run initial

theorem along_of_invariant (Inv : S → Prop) {Guard P : S → A → S → Prop}
    (preserved : ∀ s a next, step s a = some next → Guard s a next → Inv s → Inv next)
    (established : ∀ s a next, step s a = some next → Guard s a next → Inv s → P s a next)
    {s : S} {word : List A} (guarded : Along step Guard s word) (initial : Inv s) :
    Along step P s word := by
  induction word generalizing s with
  | nil => trivial
  | cons a rest ih =>
      intro next taken
      obtain ⟨head, tail⟩ := guarded next taken
      exact ⟨established s a next taken head initial,
        ih tail (preserved s a next taken head initial)⟩

/-- Two step properties that agree wherever the invariant holds, the second of
which preserves it, agree on whole runs: neither side is ever read after the
first step that breaks it. -/
theorem along_iff_of_step (Inv : S → Prop) {Guard P Q : S → A → S → Prop}
    (agree : ∀ s a next, step s a = some next → Guard s a next → Inv s → (P s a next ↔ Q s a next))
    (preserved : ∀ s a next, step s a = some next → Guard s a next → Q s a next → Inv s → Inv next)
    {s : S} {word : List A} (guarded : Along step Guard s word) (initial : Inv s) :
    Along step P s word ↔ Along step Q s word := by
  induction word generalizing s with
  | nil => exact Iff.rfl
  | cons a rest ih =>
      constructor
      · intro holds next taken
        obtain ⟨head, tail⟩ := guarded next taken
        obtain ⟨now, later⟩ := holds next taken
        have meets : Q s a next := (agree s a next taken head initial).mp now
        exact ⟨meets, (ih tail (preserved s a next taken head meets initial)).mp later⟩
      · intro holds next taken
        obtain ⟨head, tail⟩ := guarded next taken
        obtain ⟨meets, later⟩ := holds next taken
        exact ⟨(agree s a next taken head initial).mpr meets,
          (ih tail (preserved s a next taken head meets initial)).mpr later⟩

theorem along_iff_of_invariant (Inv : S → Prop) {P Q : S → A → S → Prop}
    (agree : ∀ s a next, step s a = some next → Inv s → (P s a next ↔ Q s a next))
    (preserved : ∀ s a next, step s a = some next → Q s a next → Inv s → Inv next)
    {s : S} (word : List A) (initial : Inv s) : Along step P s word ↔ Along step Q s word :=
  along_iff_of_step Inv (fun s a next taken _ => agree s a next taken)
    (fun s a next taken _ => preserved s a next taken) (along_true s word) initial

/-! ## Observations of the word -/

/-- What each step updates by its action alone is at the end of a run the fold of
its word. -/
theorem read_eq_foldl {B : Type*} (Inv : S → Prop) {Guard : S → A → S → Prop} (read : S → B)
    (track : B → A → B)
    (follows : ∀ s a next, step s a = some next → Guard s a next → Inv s →
      Inv next ∧ read next = track (read s) a)
    {s t : S} {word : List A} (guarded : Along step Guard s word)
    (run : runFrom step s word = some t) (initial : Inv s) :
    read t = word.foldl track (read s) := by
  induction word generalizing s with
  | nil =>
      cases run
      rfl
  | cons a rest ih =>
      obtain ⟨next, taken, later⟩ := (runFrom_cons_iff s t a rest).mp run
      obtain ⟨head, tail⟩ := guarded next taken
      obtain ⟨standing, tracked⟩ := follows s a next taken head initial
      rw [ih tail later standing, tracked, List.foldl_cons]

/-! ## Counting -/

/-- A potential that every counted step spends one of, and no other step moves,
counts them. -/
theorem countP_add_potential (Inv : S → Prop) {Guard : S → A → S → Prop} (counted : A → Bool)
    (potential : S → Nat)
    (spends : ∀ s a next, step s a = some next → Guard s a next → Inv s →
      Inv next ∧ (if counted a then 1 else 0) + potential next = potential s)
    {s t : S} {word : List A} (guarded : Along step Guard s word)
    (run : runFrom step s word = some t) (initial : Inv s) :
    word.countP counted + potential t = potential s := by
  induction word generalizing s with
  | nil =>
      cases run
      simp
  | cons a rest ih =>
      obtain ⟨next, taken, later⟩ := (runFrom_cons_iff s t a rest).mp run
      obtain ⟨head, tail⟩ := guarded next taken
      obtain ⟨standing, spent⟩ := spends s a next taken head initial
      have rest := ih tail later standing
      rw [List.countP_cons]
      omega

def sumAlong (step : S → A → Option S) (weight : S → A → S → Nat) : S → List A → Nat
  | _, [] => 0
  | s, a :: rest =>
      match step s a with
      | none => 0
      | some next => weight s a next + sumAlong step weight next rest

theorem sumAlong_cons {weight : S → A → S → Nat} {s next : S} {a : A} {rest : List A}
    (taken : step s a = some next) :
    sumAlong step weight s (a :: rest) = weight s a next + sumAlong step weight next rest := by
  simp only [sumAlong, taken]

theorem sumAlong_add (first second : S → A → S → Nat) (s : S) (word : List A) :
    sumAlong step (fun s a next => first s a next + second s a next) s word =
      sumAlong step first s word + sumAlong step second s word := by
  induction word generalizing s with
  | nil => rfl
  | cons a rest ih =>
      simp only [sumAlong]
      cases step s a with
      | none => rfl
      | some next =>
          simp only [ih next]
          omega

/-- Books that balance at every step balance over a run: what came in, and what stood at
the start, is what went out and what stands at the end. -/
theorem sumAlong_balance (Inv : S → Prop) {Guard : S → A → S → Prop} (into out : S → A → S → Nat)
    (stock : S → Nat)
    (balanced : ∀ s a next, step s a = some next → Guard s a next → Inv s →
      Inv next ∧ into s a next + stock s = out s a next + stock next)
    {s t : S} {word : List A} (guarded : Along step Guard s word)
    (run : runFrom step s word = some t) (initial : Inv s) :
    sumAlong step into s word + stock s = sumAlong step out s word + stock t := by
  induction word generalizing s with
  | nil =>
      cases run
      rfl
  | cons a rest ih =>
      obtain ⟨next, taken, later⟩ := (runFrom_cons_iff s t a rest).mp run
      obtain ⟨head, tail⟩ := guarded next taken
      obtain ⟨standing, here⟩ := balanced s a next taken head initial
      have after := ih tail later standing
      rw [sumAlong_cons taken, sumAlong_cons taken]
      omega

end Runs
