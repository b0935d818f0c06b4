import Mathlib.Algebra.Order.BigOperators.Group.List
import Mathlib.Algebra.Order.Ring.Nat
import Mathlib.Order.Basic

/-!
# Searching a graph to a depth

A stack of nodes with their depths, taken from its top: each visit pushes nodes one edge
further on.  A search whose visits push no entry beyond a limit, and a bounded number of
them, ends.  What it visits is reached from where it started by as many edges as the depth
says, and where its visits lose nothing the nodes it visits are closed under the edges,
those at the limit apart.
-/

set_option autoImplicit false

namespace Search

structure Entry (V : Type*) where
  node : V
  depth : Nat
  deriving DecidableEq

structure Work (V T : Type*) where
  stack : List (Entry V)
  store : T

variable {V T : Type*}

section Loop
variable (go : T → Bool) (visit : Entry V → Work V T → Option (Work V T))

/-- `none`: the fuel has run out, or a visit has no end. -/
def drain : Nat → Work V T → Option (Work V T)
  | 0, _ => none
  | fuel + 1, w =>
      match w.stack with
      | [] => some w
      | e :: rest => if go w.store then (visit e ⟨rest, w.store⟩).bind (drain fuel) else some w

def visits : Nat → Work V T → List (Entry V)
  | 0, _ => []
  | fuel + 1, w =>
      match w.stack with
      | [] => []
      | e :: rest =>
          if go w.store then
            match visit e ⟨rest, w.store⟩ with
            | some next => e :: visits fuel next
            | none => []
          else []

variable {go visit}

theorem drain_rule (Inv : List (Entry V) → Work V T → Prop)
    (visited : ∀ log e rest store next, Inv log ⟨e :: rest, store⟩ → go store = true →
      visit e ⟨rest, store⟩ = some next → Inv (log ++ [e]) next)
    (log : List (Entry V)) {fuel : Nat} {w fin : Work V T}
    (run : drain go visit fuel w = some fin) (start : Inv log w) :
    Inv (log ++ visits go visit fuel w) fin ∧ (fin.stack = [] ∨ go fin.store = false) := by
  induction fuel generalizing w log with
  | zero => cases run
  | succ fuel ih =>
      obtain ⟨stack, store⟩ := w
      cases stack with
      | nil =>
          cases run
          rw [visits, List.append_nil]
          exact ⟨start, Or.inl rfl⟩
      | cons e rest =>
          simp only [drain, visits] at run ⊢
          by_cases goes : go store = true
          · rw [if_pos goes] at run ⊢
            obtain ⟨next, taken, later⟩ := Option.bind_eq_some_iff.mp run
            rw [taken]
            have onward := ih (log ++ [e]) later (visited log e rest store next start goes taken)
            rwa [List.append_assoc] at onward
          · rw [if_neg goes] at run ⊢
            cases run
            rw [List.append_nil]
            exact ⟨start, Or.inr (Bool.not_eq_true _ ▸ goes)⟩

theorem drain_preserves (Inv : Work V T → Prop)
    (visited : ∀ e rest store next, Inv ⟨e :: rest, store⟩ → go store = true →
      visit e ⟨rest, store⟩ = some next → Inv next)
    {fuel : Nat} {w fin : Work V T} (run : drain go visit fuel w = some fin) (start : Inv w) :
    Inv fin ∧ (fin.stack = [] ∨ go fin.store = false) :=
  drain_rule (fun _ w => Inv w) (fun _ => visited) [] run start

theorem drain_more {fuel more : Nat} {w fin : Work V T}
    (run : drain go visit fuel w = some fin) (enough : fuel ≤ more) :
    drain go visit more w = some fin := by
  induction fuel generalizing w more with
  | zero => cases run
  | succ fuel ih =>
      obtain ⟨more, rfl⟩ := Nat.exists_eq_add_of_le' (Nat.le_trans (Nat.succ_pos fuel) enough)
      obtain ⟨stack, store⟩ := w
      cases stack with
      | nil => exact run
      | cons e rest =>
          simp only [drain] at run ⊢
          split at run
          · rename_i goes
            rw [if_pos goes]
            obtain ⟨next, taken, later⟩ := Option.bind_eq_some_iff.mp run
            rw [taken, Option.bind_some]
            exact ih later (Nat.le_of_succ_le_succ enough)
          · rename_i stops
            rw [if_neg stops]
            exact run

/-! ## It ends -/

/-- The visits an entry can lead to, each pushing at most `fan` entries. -/
def weight (limit fan : Nat) (e : Entry V) : Nat := (fan + 1) ^ (limit - e.depth)

theorem weight_pos (limit fan : Nat) (e : Entry V) : 0 < weight limit fan e :=
  Nat.pow_pos (Nat.succ_pos fan)

/-- What a visit may push: a bounded number of entries one deeper, none beyond the limit. -/
def Spreads (limit fan : Nat) (e : Entry V) (pushed : List (Entry V)) : Prop :=
  pushed.length ≤ fan ∧ ∀ x ∈ pushed, x.depth = e.depth + 1 ∧ x.depth ≤ limit

theorem sum_weight_lt {limit fan : Nat} {e : Entry V} {pushed : List (Entry V)}
    (spreads : Spreads limit fan e pushed) :
    (pushed.map (weight limit fan)).sum < weight limit fan e := by
  obtain ⟨few, deeper⟩ := spreads
  by_cases shallow : e.depth < limit
  · have each : ∀ n ∈ pushed.map (weight limit fan), n ≤ (fan + 1) ^ (limit - (e.depth + 1)) := by
      intro n member
      obtain ⟨x, pushedX, rfl⟩ := List.mem_map.mp member
      rw [weight, (deeper x pushedX).1]
    have total := List.sum_le_card_nsmul _ _ each
    rw [List.length_map, nsmul_eq_mul, Nat.cast_id] at total
    have positive : 0 < (fan + 1) ^ (limit - (e.depth + 1)) := Nat.pow_pos (Nat.succ_pos fan)
    calc (pushed.map (weight limit fan)).sum
        ≤ pushed.length * (fan + 1) ^ (limit - (e.depth + 1)) := total
      _ ≤ fan * (fan + 1) ^ (limit - (e.depth + 1)) := Nat.mul_le_mul_right _ few
      _ < (fan + 1) * (fan + 1) ^ (limit - (e.depth + 1)) :=
          Nat.mul_lt_mul_of_pos_right (Nat.lt_succ_self fan) positive
      _ = weight limit fan e := by
          rw [weight, ← Nat.pow_succ', show (limit - (e.depth + 1)).succ = limit - e.depth by omega]
  · have none : pushed = [] := by
      cases pushed with
      | nil => rfl
      | cons x rest =>
          obtain ⟨depth, inside⟩ := deeper x List.mem_cons_self
          omega
    rw [none]
    exact weight_pos limit fan e

/-- A search whose visits end and spread within bounds ends, after no more visits than its
entries weigh. -/
theorem drain_returns {limit fan : Nat} (Good : Work V T → Prop)
    (visited : ∀ e rest store, Good ⟨e :: rest, store⟩ → ∃ next pushed,
      visit e ⟨rest, store⟩ = some next ∧ Good next ∧ next.stack = pushed ++ rest ∧
        Spreads limit fan e pushed)
    {fuel : Nat} {w : Work V T} (good : Good w)
    (enough : (w.stack.map (weight limit fan)).sum < fuel) :
    ∃ fin, drain go visit fuel w = some fin := by
  induction fuel generalizing w with
  | zero => exact absurd enough (Nat.not_lt_zero _)
  | succ fuel ih =>
      obtain ⟨stack, store⟩ := w
      cases stack with
      | nil => exact ⟨⟨[], store⟩, rfl⟩
      | cons e rest =>
          by_cases goes : go store = true
          · obtain ⟨next, pushed, taken, standing, grown, spreads⟩ := visited e rest store good
            have lighter := sum_weight_lt spreads
            have less : (next.stack.map (weight limit fan)).sum < fuel := by
              rw [List.map_cons, List.sum_cons] at enough
              rw [grown, List.map_append, List.sum_append]
              omega
            obtain ⟨fin, ended⟩ := ih standing less
            refine ⟨fin, ?_⟩
            simp only [drain]
            rw [if_pos goes, taken]
            exact ended
          · refine ⟨⟨e :: rest, store⟩, ?_⟩
            simp only [drain]
            rw [if_neg goes]

end Loop

/-! ## What it visits -/

inductive Path (succ : V → V → Prop) (a : V) : Nat → V → Prop
  | here : Path succ a 0 a
  | edge {n : Nat} {b c : V} (front : Path succ a n b) (last : succ b c) : Path succ a (n + 1) c

structure Covered (succ : V → V → Prop) (limit : Nat) (seed : V) (log : List (Entry V)) :
    Prop where
  seeded : ∃ e ∈ log, e.node = seed
  once : (log.map Entry.node).Nodup
  closed : ∀ e ∈ log, e.depth < limit → ∀ t, succ e.node t → ∃ x ∈ log, x.node = t
  beside : ∀ t, succ seed t → ∃ x ∈ log, x.node = t ∧ x.depth ≤ 1

variable {succ : V → V → Prop} {limit : Nat} {seed : V} {log : List (Entry V)}

theorem Covered.all (covered : Covered succ limit seed log) (shallow : ∀ e ∈ log, e.depth < limit)
    {n : Nat} {v : V} (path : Path succ seed n v) : ∃ e ∈ log, e.node = v := by
  induction path with
  | here => exact covered.seeded
  | edge front last ih =>
      obtain ⟨e, member, rfl⟩ := ih
      exact covered.closed e member (shallow e member) _ last

theorem Covered.near (covered : Covered succ limit seed log) (deep : 1 < limit) {n : Nat} {v : V}
    (path : Path succ seed n v) (two : n ≤ 2) : ∃ e ∈ log, e.node = v := by
  cases path with
  | here => exact covered.seeded
  | edge front last =>
      cases front with
      | here =>
          obtain ⟨e, member, same, -⟩ := covered.beside _ last
          exact ⟨e, member, same⟩
      | edge front middle =>
          cases front with
          | here =>
              obtain ⟨e, member, rfl, depth⟩ := covered.beside _ middle
              exact covered.closed e member (Nat.lt_of_le_of_lt depth deep) _ last
          | edge _ _ => omega

/-- One visit, of a search that marks what it pushes, as long as it is whole. -/
structure Visit (succ : V → V → Prop) (limit : Nat) (marked : T → V → Prop) (whole : T → Prop)
    (e : Entry V) (w next : Work V T) (pushed : List (Entry V)) : Prop where
  grown : next.stack = pushed ++ w.stack
  edges : ∀ x ∈ pushed, succ e.node x.node ∧ x.depth = e.depth + 1 ∧ x.depth ≤ limit
  fresh : ∀ v, marked next.store v → marked w.store v ∨ ∃ x ∈ pushed, x.node = v
  marks : ∀ v, marked w.store v → marked next.store v
  before : whole next.store → whole w.store
  reached : whole next.store → e.depth < limit → ∀ t, succ e.node t → marked next.store t
  distinct : whole next.store → (pushed.map Entry.node).Nodup
  news : whole next.store →
    ∀ x ∈ pushed, ¬ marked w.store x.node ∧ marked next.store x.node

section Composition
variable {succ' : V → V → Prop} {marked : T → V → Prop} {whole : T → Prop} {e : Entry V}
  {w middle next : Work V T} {pushed later : List (Entry V)}

theorem Visit.still (stack : next.stack = w.stack) (marks : marked next.store = marked w.store)
    (before : whole next.store → whole w.store)
    (reached : whole next.store → e.depth < limit → ∀ t, succ e.node t → marked next.store t) :
    Visit succ limit marked whole e w next [] where
  grown := stack
  edges x none := by cases none
  fresh v mark := Or.inl (marks ▸ mark)
  marks v mark := marks ▸ mark
  before := before
  reached := reached
  distinct _ := List.nodup_nil
  news _ x none := by cases none

theorem Visit.comp (first : Visit succ limit marked whole e w middle pushed)
    (second : Visit succ' limit marked whole e middle next later) :
    Visit (fun a t => succ a t ∨ succ' a t) limit marked whole e w next (later ++ pushed) where
  grown := by rw [second.grown, first.grown, List.append_assoc]
  edges x member := by
    rcases List.mem_append.mp member with last | early
    · obtain ⟨edge, depth⟩ := second.edges x last
      exact ⟨Or.inr edge, depth⟩
    · obtain ⟨edge, depth⟩ := first.edges x early
      exact ⟨Or.inl edge, depth⟩
  fresh v mark := by
    rcases second.fresh v mark with between | ⟨x, member, same⟩
    · rcases first.fresh v between with before | ⟨x, member, same⟩
      · exact Or.inl before
      · exact Or.inr ⟨x, List.mem_append_right later member, same⟩
    · exact Or.inr ⟨x, List.mem_append_left pushed member, same⟩
  marks v mark := second.marks v (first.marks v mark)
  before all := first.before (second.before all)
  reached all shallow t edge := by
    rcases edge with early | last
    · exact second.marks t (first.reached (second.before all) shallow t early)
    · exact second.reached all shallow t last
  distinct all := by
    rw [List.map_append, List.nodup_append]
    refine ⟨second.distinct all, first.distinct (second.before all), ?_⟩
    intro v inLast v' inEarly same
    obtain ⟨x, member, rfl⟩ := List.mem_map.mp inLast
    obtain ⟨y, member', rfl⟩ := List.mem_map.mp inEarly
    exact (second.news all x member).1 (same ▸ (first.news (second.before all) y member').2)
  news all x member := by
    rcases List.mem_append.mp member with last | early
    · obtain ⟨new, mark⟩ := second.news all x last
      exact ⟨fun old => new (first.marks x.node old), mark⟩
    · obtain ⟨new, mark⟩ := first.news (second.before all) x early
      exact ⟨new, second.marks x.node mark⟩

theorem Visit.congr (same : ∀ t, succ e.node t ↔ succ' e.node t)
    (visit : Visit succ limit marked whole e w next pushed) :
    Visit succ' limit marked whole e w next pushed :=
  { visit with
    edges := fun x member => by
      obtain ⟨edge, depth⟩ := visit.edges x member
      exact ⟨(same x.node).mp edge, depth⟩
    reached := fun all shallow t edge => visit.reached all shallow t ((same t).mpr edge) }

end Composition

/-- The invariant of the search: its marks are what it took or still holds, and what it
took has its edges marked. -/
structure Marking (succ : V → V → Prop) (limit : Nat) (marked : T → V → Prop) (seed : V)
    (log : List (Entry V)) (w : Work V T) : Prop where
  seeded : ∃ e ∈ log ++ w.stack, e.node = seed
  once : ((log ++ w.stack).map Entry.node).Nodup
  pushed : ∀ e ∈ log ++ w.stack, marked w.store e.node
  held : ∀ v, marked w.store v → ∃ e ∈ log ++ w.stack, e.node = v
  closed : ∀ e ∈ log, e.depth < limit → ∀ t, succ e.node t → marked w.store t
  -- the seed is taken before anything else is marked
  beside : log = [] ∧ w.stack = [⟨seed, 0⟩] ∨
    ∀ t, succ seed t → ∃ e ∈ log ++ w.stack, e.node = t ∧ e.depth ≤ 1

section Invariants
variable {marked : T → V → Prop} {whole : T → Prop}

theorem marking_seed {store : T} (only : ∀ v, marked store v ↔ v = seed) :
    Marking succ limit marked seed [] ⟨[⟨seed, 0⟩], store⟩ where
  seeded := ⟨⟨seed, 0⟩, List.mem_cons_self, rfl⟩
  once := List.pairwise_singleton _ seed
  pushed e member := by
    cases List.mem_singleton.mp member
    exact (only seed).mpr rfl
  held v mark := ⟨⟨seed, 0⟩, List.mem_cons_self, ((only v).mp mark).symm⟩
  closed e none := by cases none
  beside := Or.inl ⟨rfl, rfl⟩

theorem Marking.visit {e : Entry V} {rest pushed : List (Entry V)} {store : T} {next : Work V T}
    (deep : 0 < limit) (marking : Marking succ limit marked seed log ⟨e :: rest, store⟩)
    (visit : Visit succ limit marked whole e ⟨rest, store⟩ next pushed) (all : whole next.store) :
    Marking succ limit marked seed (log ++ [e]) next := by
  have old : ∀ x, x ∈ log ++ e :: rest → x ∈ log ++ [e] ++ next.stack := by
    intro x member
    rw [List.append_assoc, List.singleton_append, visit.grown]
    simp only [List.mem_append, List.mem_cons] at member ⊢
    tauto
  have new : ∀ x ∈ pushed, x ∈ log ++ [e] ++ next.stack := by
    intro x member
    rw [visit.grown]
    exact List.mem_append_right _ (List.mem_append_left rest member)
  have split : ∀ x, x ∈ log ++ [e] ++ next.stack → x ∈ log ++ e :: rest ∨ x ∈ pushed := by
    intro x member
    rw [visit.grown] at member
    simp only [List.mem_append, List.mem_cons, List.not_mem_nil, or_false] at member ⊢
    tauto
  refine ⟨?_, ?_, ?_, ?_, ?_, Or.inr ?_⟩
  · obtain ⟨x, member, same⟩ := marking.seeded
    exact ⟨x, old x member, same⟩
  · have order : ((log ++ [e] ++ next.stack).map Entry.node).Perm
        ((log ++ e :: rest).map Entry.node ++ pushed.map Entry.node) := by
      rw [visit.grown, ← List.map_append]
      refine List.Perm.map _ ?_
      rw [List.append_assoc, List.append_assoc]
      have swap : (pushed ++ rest).Perm (rest ++ pushed) := List.perm_append_comm
      exact List.Perm.append_left log (swap.cons e)
    rw [order.nodup_iff, List.nodup_append]
    refine ⟨marking.once, visit.distinct all, ?_⟩
    intro v inOld v' inNew same
    obtain ⟨x, member, rfl⟩ := List.mem_map.mp inOld
    obtain ⟨y, member', rfl⟩ := List.mem_map.mp inNew
    exact (visit.news all y member').1 (same ▸ marking.pushed x member)
  · intro x member
    rcases split x member with before | after
    · exact visit.marks _ (marking.pushed x before)
    · exact (visit.news all x after).2
  · intro v mark
    rcases visit.fresh v mark with before | ⟨x, member, same⟩
    · obtain ⟨x, member, same⟩ := marking.held v before
      exact ⟨x, old x member, same⟩
    · exact ⟨x, new x member, same⟩
  · intro x member shallow t edge
    rcases List.mem_append.mp member with before | last
    · exact visit.marks t (marking.closed x before shallow t edge)
    · cases List.mem_singleton.mp last
      exact visit.reached all shallow t edge
  · intro t edge
    rcases marking.beside with ⟨rfl, first⟩ | beside
    · -- the seed's own visit: what it marks besides itself it pushes, one deep
      obtain ⟨rfl, rfl⟩ := List.cons.inj first
      rcases visit.fresh t (visit.reached all deep t edge) with before | ⟨x, member, same⟩
      · obtain ⟨x, member, same⟩ := marking.held t before
        cases List.mem_singleton.mp member
        exact ⟨⟨seed, 0⟩, old _ member, same, Nat.zero_le 1⟩
      · exact ⟨x, new x member, same, Nat.le_of_eq (visit.edges x member).2.1⟩
    · obtain ⟨x, member, same⟩ := beside t edge
      exact ⟨x, old x member, same⟩

variable {go : T → Bool} {visit : Entry V → Work V T → Option (Work V T)}
  {Good : Work V T → Prop}

theorem drain_reaches
    (visited : ∀ e rest store next, Good ⟨e :: rest, store⟩ → visit e ⟨rest, store⟩ = some next →
      Good next ∧ ∃ pushed, Visit succ limit marked whole e ⟨rest, store⟩ next pushed)
    {fuel : Nat} {w fin : Work V T} (run : drain go visit fuel w = some fin) (good : Good w)
    (start : ∀ e ∈ w.stack, Path succ seed e.depth e.node ∧ e.depth ≤ limit) :
    ∀ e ∈ visits go visit fuel w, Path succ seed e.depth e.node ∧ e.depth ≤ limit := by
  have step : ∀ log e rest store next,
      (Good ⟨e :: rest, store⟩ ∧
        ∀ x ∈ log ++ e :: rest, Path succ seed x.depth x.node ∧ x.depth ≤ limit) →
      go store = true → visit e ⟨rest, store⟩ = some next →
      Good next ∧
        ∀ x ∈ log ++ [e] ++ next.stack, Path succ seed x.depth x.node ∧ x.depth ≤ limit := by
    intro log e rest store next ⟨standing, inv⟩ _ taken
    obtain ⟨good', pushed, step⟩ := visited e rest store next standing taken
    refine ⟨good', fun x member => ?_⟩
    have here := inv e (List.mem_append_right log List.mem_cons_self)
    rw [step.grown] at member
    simp only [List.mem_append, List.mem_cons, List.not_mem_nil, or_false] at member
    rcases member with (old | rfl) | new | waiting
    · exact inv x (List.mem_append_left _ old)
    · exact here
    · obtain ⟨edge, depth, inside⟩ := step.edges x new
      exact ⟨depth ▸ here.1.edge edge, inside⟩
    · exact inv x (List.mem_append_right log (List.mem_cons_of_mem e waiting))
  have initial : Good w ∧
      ∀ x ∈ [] ++ w.stack, Path succ seed x.depth x.node ∧ x.depth ≤ limit := ⟨good, start⟩
  have outcome := drain_rule (fun log w => Good w ∧
    ∀ x ∈ log ++ w.stack, Path succ seed x.depth x.node ∧ x.depth ≤ limit) step [] run initial
  intro e member
  exact outcome.1.2 e (List.mem_append_left _ member)

theorem drain_covers (deep : 0 < limit)
    (visited : ∀ e rest store next, Good ⟨e :: rest, store⟩ → visit e ⟨rest, store⟩ = some next →
      Good next ∧ ∃ pushed, Visit succ limit marked whole e ⟨rest, store⟩ next pushed)
    {fuel : Nat} {store : T} {fin : Work V T}
    (run : drain go visit fuel ⟨[⟨seed, 0⟩], store⟩ = some fin) (good : Good ⟨[⟨seed, 0⟩], store⟩)
    (only : ∀ v, marked store v ↔ v = seed) (ended : go fin.store = true)
    (all : whole fin.store) :
    Covered succ limit seed (visits go visit fuel ⟨[⟨seed, 0⟩], store⟩) := by
  have step : ∀ log e rest store next,
      (Good ⟨e :: rest, store⟩ ∧
        (whole store → Marking succ limit marked seed log ⟨e :: rest, store⟩)) →
      go store = true → visit e ⟨rest, store⟩ = some next →
      Good next ∧ (whole next.store → Marking succ limit marked seed (log ++ [e]) next) := by
    intro log e rest store next ⟨standing, inv⟩ _ taken
    obtain ⟨good', pushed, step⟩ := visited e rest store next standing taken
    exact ⟨good', fun all => (inv (step.before all)).visit deep step all⟩
  have initial : Good ⟨[⟨seed, 0⟩], store⟩ ∧
      (whole store → Marking succ limit marked seed [] ⟨[⟨seed, 0⟩], store⟩) :=
    ⟨good, fun _ => marking_seed only⟩
  obtain ⟨⟨-, marking⟩, emptied⟩ := drain_rule (fun log w => Good w ∧
    (whole w.store → Marking succ limit marked seed log w)) step [] run initial
  obtain ⟨seeded, once, -, held, closed, beside⟩ := marking all
  have empty : fin.stack = [] := emptied.resolve_right (by rw [ended]; exact Bool.true_eq_false.mp)
  rw [List.nil_append, empty, List.append_nil] at seeded once held beside
  rw [List.nil_append] at closed
  refine ⟨seeded, once, ?_, ?_⟩
  · intro e member shallow t edge
    exact held t (closed e member shallow t edge)
  · rcases beside with ⟨-, waiting⟩ | beside
    · cases waiting
    · exact beside

end Invariants

end Search
