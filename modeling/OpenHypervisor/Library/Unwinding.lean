import OpenHypervisor.Library.Runs

/-!
# Unwinding

When the actions of one party can be read off a run with everybody else's taken out of it.
The relation is between the machine as it is and the machine on which that party acts
alone: the others' steps keep it from the left, and the party's own steps are matched.
-/

set_option autoImplicit false

namespace Unwinding

open Runs

variable {S A : Type*}

/-- The two conditions on a step, for the steps that meet the guard. -/
structure Unwinds (step : S → A → Option S) (own : A → Bool) (Guard : S → A → S → Prop)
    (R : S → S → Prop) : Prop where
  aside : ∀ {s alone next a}, R s alone → own a = false → step s a = some next →
    Guard s a next → R next alone
  follow : ∀ {s alone next a}, R s alone → own a = true → step s a = some next →
    Guard s a next → ∃ after, step alone a = some after ∧ R next after

variable {step : S → A → Option S} {own : A → Bool} {Guard : S → A → S → Prop}
  {R : S → S → Prop} {s t alone : S} {word : List A}

theorem Unwinds.purge (unwinds : Unwinds step own Guard R) (start : R s alone)
    (ran : runFrom step s word = some t) (guarded : Along step Guard s word) :
    ∃ after, runFrom step alone (word.filter own) = some after ∧ R t after := by
  induction word generalizing s alone with
  | nil =>
      cases ran
      exact ⟨alone, rfl, start⟩
  | cons a rest ih =>
      obtain ⟨next, taken, later⟩ := (runFrom_cons_iff s t a rest).mp ran
      obtain ⟨head, tail⟩ := guarded next taken
      cases mine : own a with
      | false =>
          rw [List.filter_cons_of_neg (by simp [mine])]
          exact ih (unwinds.aside start mine taken head) later tail
      | true =>
          rw [List.filter_cons_of_pos mine]
          obtain ⟨after, matched, related⟩ := unwinds.follow start mine taken head
          obtain ⟨last, ends, same⟩ := ih related later tail
          exact ⟨last, (runFrom_cons_iff _ _ _ _).mpr ⟨after, matched, ends⟩, same⟩

end Unwinding
