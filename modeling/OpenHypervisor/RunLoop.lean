import Mathlib.Data.Nat.Find
import Mathlib.Logic.Function.Iterate
import OpenHypervisor.State

/-!
# The callback run loop

`Vcpu::run` and `Vcpu::run_loop` of the C++ front end.  The world is whatever a run
and a handler reach, so each may do anything to it; the loop keeps beside it a log of
the calls it made.
-/

set_option autoImplicit false

namespace OpenHypervisor.RunLoop

structure ExitInfo where
  reason : HvExitReason
  syndrome : Word
  virtualAddress : Word
  physicalAddress : Word
  deriving DecidableEq, Repr

inductive Action where
  | continue'
  | stop
  deriving DecidableEq, Repr

inductive Thrown (E : Type) where
  | error (code : HvReturn)
  | other (thrown : E)
  deriving DecidableEq, Repr

/-- `hv_vcpu_run` on the vCPU, and the exit record it points at. -/
structure Vcpu (W : Type) where
  hvVcpuRun : W → HvReturn × W
  exit : W → HvVcpuExit

abbrev ExitHandler (W E : Type) := ExitInfo → W → Except (Thrown E) Action × W

inductive Call (E : Type) where
  | run
  | handler (answer : Except (Thrown E) Action)

namespace Call

variable {E : Type}

def isRun : Call E → Bool
  | .run => true
  | .handler _ => false

def isHandler : Call E → Bool
  | .run => false
  | .handler _ => true

end Call

structure Ran (W E : Type) where
  world : W
  log : List (Call E) := []

section Loop
variable {W E : Type}

def Vcpu.run (vcpu : Vcpu W) (w : W) : Except (Thrown E) ExitInfo × W :=
  let (rc, w) := vcpu.hvVcpuRun w
  if rc ≠ hvSuccess then (.error (.error rc), w)
  else
    let record := vcpu.exit w
    (.ok ⟨record.reason, record.syndrome, record.virtualAddress, record.physicalAddress⟩, w)

variable (vcpu : Vcpu W) (handler : ExitHandler W E)

def round (r : Ran W E) : Except (Thrown E) Action × Ran W E :=
  match vcpu.run r.world with
  | (.error thrown, w) => (.error thrown, ⟨w, r.log ++ [.run]⟩)
  | (.ok e, w) =>
      let (answer, w) := handler e w
      (answer, ⟨w, r.log ++ [.run, .handler answer]⟩)

/-- `while (n++ < max_iters)`: the count goes up on the way out as well. -/
def loopFrom (maxIters n : Word) (r : Ran W E) : Except (Thrown E) Word × Ran W E :=
  if inside : n < maxIters then
    match round vcpu handler r with
    | (.error thrown, r) => (.error thrown, r)
    | (.ok .stop, r) => (.ok (n + 1), r)
    | (.ok .continue', r) => loopFrom maxIters (n + 1) r
  else (.ok (n + 1), r)
termination_by maxIters.toNat - n.toNat
decreasing_by
  have below : n.toNat < maxIters.toNat := inside
  rw [BitVec.toNat_add_of_lt (by simp; omega)]
  simp
  omega

def runLoop (maxIters : Word) (w : W) : Except (Thrown E) Word × Ran W E :=
  loopFrom vcpu handler maxIters 0 { world := w }

/-! ## What the loop is for -/

structure Counted (maxIters : Word) (log : List (Call E)) (returned : Word) : Prop where
  runs : log.countP Call.isRun = returned.toNat
  handled : log.countP Call.isHandler = returned.toNat
  bounded : log.countP Call.isRun ≤ maxIters.toNat
  stops : .handler (.ok .stop) ∉ log.dropLast
  /-- Nothing but a Stop and the bound ends it. -/
  ends : log.getLast? = some (.handler (.ok .stop)) ∨ log.countP Call.isRun = maxIters.toNat

/-- The loop counts the exits it processed, when no call throws. -/
def CountsExits (maxIters : Word) (w : W) : Prop :=
  ∀ returned, (runLoop vcpu handler maxIters w).1 = .ok returned →
    Counted maxIters (runLoop vcpu handler maxIters w).2.log returned

def after (k : Nat) (w : W) : Ran W E :=
  (fun r => (round vcpu handler r).2)^[k] { world := w }

/-- One of the first rounds says something other than Continue. -/
def Ends (maxIters : Word) (w : W) : Prop :=
  ∃ k < maxIters.toNat, (round vcpu handler (after vcpu handler k w)).1 ≠ .ok .continue'

/-! ## One round -/

variable {vcpu : Vcpu W} {handler : ExitHandler W E} {maxIters n : Word} {w : W} {k : Nat}

theorem after_succ (k : Nat) (w : W) :
    after vcpu handler (k + 1) w = (round vcpu handler (after vcpu handler k w)).2 :=
  Function.iterate_succ_apply' _ k _

theorem round_log {r : Ran W E} {answer : Action}
    (answered : (round vcpu handler r).1 = .ok answer) :
    (round vcpu handler r).2.log = r.log ++ [.run, .handler (.ok answer)] := by
  unfold round at answered ⊢
  split at answered
  · exact absurd answered (by simp)
  · simp only at answered ⊢
    rw [answered]

theorem toNat_succ (below : n.toNat < maxIters.toNat) : (n + 1).toNat = n.toNat + 1 := by
  have top := maxIters.isLt
  rw [BitVec.toNat_add_of_lt (by simp; omega)]
  rfl

theorem loopFrom_round (below : n < maxIters) (r : Ran W E) :
    loopFrom vcpu handler maxIters n r =
      match (round vcpu handler r).1 with
      | .error thrown => (.error thrown, (round vcpu handler r).2)
      | .ok .stop => (.ok (n + 1), (round vcpu handler r).2)
      | .ok .continue' => loopFrom vcpu handler maxIters (n + 1) (round vcpu handler r).2 := by
  rw [loopFrom, dif_pos below]
  rcases round vcpu handler r with ⟨_ | _ | _, _⟩ <;> rfl

theorem after_log (continues : ∀ j < k, (round vcpu handler (after vcpu handler j w)).1 =
    .ok .continue') :
    (after vcpu handler k w).log.countP Call.isRun = k ∧
      (after vcpu handler k w).log.countP Call.isHandler = k ∧
      .handler (.ok .stop) ∉ (after vcpu handler k w).log := by
  induction k with
  | zero => simp [after]
  | succ k ih =>
      obtain ⟨runs, handled, stops⟩ := ih fun j small => continues j (Nat.lt_succ_of_lt small)
      have log := round_log (continues k (Nat.lt_succ_self k))
      rw [after_succ, log]
      refine ⟨?_, ?_, ?_⟩
      · rw [List.countP_append, runs]
        rfl
      · rw [List.countP_append, handled]
        rfl
      · simp [stops]

/-! ## The two ways out -/

theorem loopFrom_exhausted (small : n ≤ maxIters)
    (continues : ∀ j < maxIters.toNat, (round vcpu handler (after vcpu handler j w)).1 =
      .ok .continue') :
    loopFrom vcpu handler maxIters n (after vcpu handler n.toNat w) =
      (.ok (maxIters + 1), after vcpu handler maxIters.toNat w) := by
  induction gap : maxIters.toNat - n.toNat generalizing n with
  | zero =>
      have le : n.toNat ≤ maxIters.toNat := small
      have same : n = maxIters := BitVec.eq_of_toNat_eq (by omega)
      rw [loopFrom, same, dif_neg (BitVec.lt_irrefl maxIters)]
  | succ gap ih =>
      have below : n.toNat < maxIters.toNat := by omega
      have succ := toNat_succ below
      have answer := continues n.toNat below
      have next := ih (n := n + 1) (by rw [BitVec.le_def, succ]; exact below) (by omega)
      rw [succ, after_succ] at next
      rw [loopFrom_round below, answer]
      exact next

theorem loopFrom_ended (inside : k < maxIters.toNat) (small : n.toNat ≤ k)
    (continues : ∀ j < k, (round vcpu handler (after vcpu handler j w)).1 = .ok .continue')
    (ends : (round vcpu handler (after vcpu handler k w)).1 ≠ .ok .continue') :
    loopFrom vcpu handler maxIters n (after vcpu handler n.toNat w) =
      ((round vcpu handler (after vcpu handler k w)).1.map fun _ => BitVec.ofNat 64 (k + 1),
        after vcpu handler (k + 1) w) := by
  induction gap : k - n.toNat generalizing n with
  | zero =>
      have same : n.toNat = k := by omega
      have below : n < maxIters := by
        rw [BitVec.lt_def, same]
        exact inside
      have count : n + 1 = BitVec.ofNat 64 (k + 1) := by
        rw [← same, BitVec.ofNat_add, BitVec.ofNat_toNat, BitVec.setWidth_eq]
        rfl
      rw [loopFrom_round below, same, after_succ, count]
      cases answer : (round vcpu handler (after vcpu handler k w)).1 with
      | error thrown => rfl
      | ok action =>
          cases action with
          | stop => rfl
          | continue' => exact absurd answer ends
  | succ gap ih =>
      have below : n.toNat < maxIters.toNat := by omega
      have succ := toNat_succ below
      have answer := continues n.toNat (by omega)
      have next := ih (n := n + 1) (by omega) (by omega)
      rw [succ, after_succ] at next
      rw [loopFrom_round below, answer]
      exact next

/-! ## The count -/

theorem counted_of_stop (inside : k < maxIters.toNat)
    (continues : ∀ j < k, (round vcpu handler (after vcpu handler j w)).1 = .ok .continue')
    (stop : (round vcpu handler (after vcpu handler k w)).1 = .ok .stop) :
    Counted maxIters (after vcpu handler (k + 1) w).log (BitVec.ofNat 64 (k + 1)) := by
  have top := maxIters.isLt
  have count : (BitVec.ofNat 64 (k + 1)).toNat = k + 1 := by
    rw [BitVec.toNat_ofNat, Nat.mod_eq_of_lt (by omega)]
  obtain ⟨runs, handled, stops⟩ := after_log continues
  have log : (after vcpu handler (k + 1) w).log =
      ((after vcpu handler k w).log ++ [.run]) ++ [.handler (.ok .stop)] := by
    rw [after_succ, round_log stop, List.append_assoc]
    rfl
  have once : (after vcpu handler (k + 1) w).log.countP Call.isRun = k + 1 := by
    rw [log, List.append_assoc, List.countP_append, runs]
    rfl
  refine ⟨by rw [once, count], ?_, by rw [once]; exact inside, ?_, Or.inl ?_⟩
  · rw [log, List.append_assoc, List.countP_append, handled, count]
    rfl
  · rw [log, List.dropLast_concat]
    simp [stops]
  · rw [log]
    exact List.getLast?_concat

/-- The loop counts the exits it processed exactly when something other than its bound
ends it: left at the bound it has counted one more. -/
theorem countsExits_iff (vcpu : Vcpu W) (handler : ExitHandler W E) (maxIters : Word) (w : W) :
    CountsExits vcpu handler maxIters w ↔ Ends vcpu handler maxIters w := by
  constructor
  · intro counts
    by_contra bound
    have continues : ∀ j < maxIters.toNat, (round vcpu handler (after vcpu handler j w)).1 =
        .ok .continue' := by
      intro j small
      by_contra other
      exact bound ⟨j, small, other⟩
    have whole : runLoop vcpu handler maxIters w =
        (.ok (maxIters + 1), after vcpu handler maxIters.toNat w) :=
      loopFrom_exhausted (n := 0) (BitVec.le_def.mpr (Nat.zero_le _)) continues
    have counted := counts (maxIters + 1) (by rw [whole])
    rw [whole] at counted
    have runs := counted.runs
    rw [(after_log continues).1] at runs
    have apart : maxIters ≠ maxIters + 1 := by bv_omega
    exact apart (BitVec.eq_of_toNat_eq runs)
  · intro ends returned came
    classical
    obtain ⟨inside, other⟩ := Nat.find_spec ends
    have continues : ∀ j < Nat.find ends,
        (round vcpu handler (after vcpu handler j w)).1 = .ok .continue' := by
      intro j small
      by_contra sooner
      exact Nat.find_min ends small ⟨Nat.lt_trans small inside, sooner⟩
    generalize Nat.find ends = k at *
    have whole : runLoop vcpu handler maxIters w = _ :=
      loopFrom_ended (n := 0) inside (Nat.zero_le k) continues other
    rw [whole] at came ⊢
    cases answer : (round vcpu handler (after vcpu handler k w)).1 with
    | error thrown =>
        rw [answer] at came
        exact absurd came (by simp [Except.map])
    | ok action =>
        cases action with
        | continue' => exact absurd answer other
        | stop =>
            rw [answer] at came
            have count : BitVec.ofNat 64 (k + 1) = returned := by simpa [Except.map] using came
            rw [← count]
            exact counted_of_stop inside continues answer

end Loop

def forever : Vcpu Unit × ExitHandler Unit Empty :=
  (⟨fun w => (hvSuccess, w), fun _ => {}⟩, fun _ w => (.ok .continue', w))

/-- Three exits are handled and four returned. -/
theorem forever_not_counted :
    (runLoop forever.1 forever.2 3 ()).1 = .ok 4 ∧
      (runLoop forever.1 forever.2 3 ()).2.log.countP Call.isRun = 3 ∧
      ¬ CountsExits forever.1 forever.2 3 () := by
  have continues : ∀ j < (3 : Word).toNat,
      (round forever.1 forever.2 (after forever.1 forever.2 j ())).1 = .ok .continue' :=
    fun _ _ => rfl
  have whole : runLoop forever.1 forever.2 3 () =
      (.ok 4, after forever.1 forever.2 (3 : Word).toNat ()) :=
    loopFrom_exhausted (n := 0) (by decide) continues
  have three := (after_log continues).1
  refine ⟨by rw [whole], by rw [whole]; exact three, fun counts => ?_⟩
  have counted := (counts 4 (by rw [whole])).runs
  rw [whole, three] at counted
  exact absurd counted (by decide)

end OpenHypervisor.RunLoop
