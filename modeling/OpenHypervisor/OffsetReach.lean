import OpenHypervisor.VisitedSet

/-!
# What the walk reaches

The walk ends on every text, at a bounded depth, and stays on the edges of the text.  As
long as the set of visited addresses is smaller than the stack it scans each body once and
leaves no edge of a scanned body unfollowed, those of the bodies at the last depth apart.
-/

set_option autoImplicit false

namespace OpenHypervisor.OffsetProbe

open ProbeTable Search

/-! ## What a body holds -/

def isBranch : Kind → Bool
  | .bl | .b => true
  | _ => false

def ends : Kind → Bool
  | .b | .ret | .retab => true
  | _ => false

def idle : Kind → Bool
  | .movk | .unk => true
  | _ => false

variable (img : Image)

def kindAt (a : BitVec 64) (i : Nat) : Kind := (insnOf (wordAt img a i)).kind

/-- Where the words lie that a scan from byte `i` looks at, `left` words before the end of
the node and after `junk` words of no use. -/
def bodyFrom (a : BitVec 64) : Nat → Nat → Nat → List Nat
  | 0, _, _ => []
  | left + 1, i, junk =>
      if junk < 320 then
        i :: if ends (kindAt img a i) then []
          else bodyFrom a left (i + 4) (if idle (kindAt img a i) then junk + 1 else 0)
      else []

def body (a : BitVec 64) : List Nat := bodyFrom img a (nodeMax / 4) 0 0

def Image.InText (a : BitVec 64) : Prop := img.textLo ≤ a ∧ a < img.textHi

def CallsBy (seen : List Nat) (a t : BitVec 64) : Prop :=
  img.InText t ∧ ∃ i ∈ seen, isBranch (kindAt img a i) = true ∧ target img a i = t

def Calls (a t : BitVec 64) : Prop := CallsBy img (body img a) a t

theorem bodyFrom_length (a : BitVec 64) (left i junk : Nat) :
    (bodyFrom img a left i junk).length ≤ left := by
  induction left generalizing i junk with
  | zero => exact Nat.le_refl 0
  | succ left ih =>
      rw [bodyFrom]
      split
      · split
        · exact Nat.succ_le_succ (Nat.zero_le left)
        · exact Nat.succ_le_succ (ih _ _)
      · exact Nat.zero_le _

/-! ## One push -/

/-- What every turn leaves in order: the stack holds no more than was counted, until the
table is half full. -/
structure InOrder (s : Walk) : Prop where
  sound : Sound s.store.vis
  fits : s.store.vis.nodes < visSlots / 2 → s.stack.length ≤ s.store.vis.nodes

def Probe.Marked (p : Probe) (a : BitVec 64) : Prop := p.vis.Holds a

/-- No bound of the walk is met while it marks fewer addresses than the stack takes. -/
def Probe.Whole (p : Probe) : Prop := p.vis.nodes < stackMax

inductive Enqueued (tgt : BitVec 64) (depth : Nat) (s : Walk) : Walk → Prop
  | refused (why : maxDepth < depth ∨ ¬ img.InText tgt) : Enqueued tgt depth s s
  | dropped (full : stackMax ≤ s.stack.length) : Enqueued tgt depth s s
  | known (held : s.store.vis.Holds tgt) : Enqueued tgt depth s s
  | pushed (vis : Visited) (shallow : depth ≤ maxDepth) (inside : img.InText tgt)
      (asked : Asked s.store.vis tgt false vis) :
      Enqueued tgt depth s ⟨⟨tgt, depth⟩ :: s.stack, { s.store with vis := vis }⟩

variable {img} {tgt : BitVec 64} {depth : Nat} {s s' : Walk}

variable (img) in
theorem enqueue_cases (order : InOrder s) (tgt : BitVec 64) (depth : Nat) :
    ∃ s', enqueue img tgt depth s = some s' ∧ InOrder s' ∧ Enqueued img tgt depth s s' := by
  rw [enqueue]
  by_cases deep : depth > maxDepth
  · rw [if_pos deep]
    exact ⟨s, rfl, order, .refused (Or.inl deep)⟩
  rw [if_neg deep]
  by_cases outside : tgt < img.textLo ∨ tgt ≥ img.textHi
  · rw [if_pos outside]
    refine ⟨s, rfl, order, .refused (Or.inr fun inside => ?_)⟩
    rcases outside with low | high
    · exact absurd inside.1 (BitVec.not_le.mpr low)
    · exact absurd inside.2 (BitVec.not_lt.mpr high)
  rw [if_neg outside]
  by_cases full : s.stack.length ≥ stackMax
  · rw [if_pos full]
    exact ⟨s, rfl, order, .dropped full⟩
  rw [if_neg full]
  obtain ⟨seen, vis, answered, sound, asked⟩ := visSeen_cases order.sound tgt
  rw [answered, Option.map_some]
  have inside : img.InText tgt := by
    obtain ⟨low, high⟩ := not_or.mp outside
    exact ⟨BitVec.not_lt.mp low, BitVec.not_le.mp high⟩
  cases asked with
  | known held => exact ⟨s, rfl, order, .known held⟩
  | noted _ fresh room holds count =>
      refine ⟨_, rfl, ⟨sound, fun _ => ?_⟩,
        .pushed vis (Nat.le_of_not_lt deep) inside (.noted vis fresh room holds count)⟩
      have fits := order.fits room
      change s.stack.length + 1 ≤ vis.nodes
      omega
  | full fresh room =>
      exact ⟨_, rfl, ⟨sound, fun room' => absurd room' room⟩,
        .pushed _ (Nat.le_of_not_lt deep) inside (.full fresh room)⟩

theorem Enqueued.visit (order : InOrder s) {e : Entry (BitVec 64)} (next : e.depth + 1 = depth)
    (enqueued : Enqueued img tgt depth s s') :
    ∃ pushed, pushed.length ≤ 1 ∧
      Visit (fun _ t => img.InText t ∧ t = tgt) maxDepth Probe.Marked Probe.Whole e s s' pushed := by
  cases enqueued with
  | refused why =>
      refine ⟨[], Nat.zero_le 1, .still rfl rfl id fun _ shallow t edge => ?_⟩
      rcases why with deep | outside
      · omega
      · exact absurd (edge.2 ▸ edge.1) outside
  | dropped full =>
      refine ⟨[], Nat.zero_le 1, .still rfl rfl id fun whole => ?_⟩
      -- a full stack has counted as many addresses
      have few : s.store.vis.nodes < 4096 := whole
      have fits := order.fits (Nat.lt_trans few (by decide))
      have many : 4096 ≤ s.stack.length := full
      omega
  | known held =>
      exact ⟨[], Nat.zero_le 1, .still rfl rfl id fun _ _ t edge => edge.2 ▸ held⟩
  | pushed vis shallow inside asked =>
      have edges : ∀ x ∈ [(⟨tgt, depth⟩ : Entry (BitVec 64))],
          (img.InText x.node ∧ x.node = tgt) ∧ x.depth = e.depth + 1 ∧ x.depth ≤ maxDepth := by
        intro x member
        cases List.mem_singleton.mp member
        exact ⟨⟨inside, rfl⟩, next.symm, shallow⟩
      have real : tgt ≠ 0 := by
        rintro rfl
        exact img.based (BitVec.le_zero_iff.mp inside.1)
      cases asked with
      | noted _ fresh room holds count =>
          refine ⟨[⟨tgt, depth⟩], Nat.le_refl 1, rfl, edges, ?_, ?_, ?_, ?_,
            fun _ => List.pairwise_singleton _ tgt, ?_⟩
          · intro v mark
            rcases (holds v).mp mark with ⟨same, -⟩ | old
            · exact Or.inr ⟨_, List.mem_cons_self, same.symm⟩
            · exact Or.inl old
          · intro v mark
            exact (holds v).mpr (Or.inr mark)
          · intro whole
            have few : vis.nodes < stackMax := whole
            exact Nat.lt_of_le_of_lt (by omega) few
          · intro _ _ t edge
            exact (holds t).mpr (Or.inl ⟨edge.2, real⟩)
          · intro _ x member
            cases List.mem_singleton.mp member
            exact ⟨fresh, (holds tgt).mpr (Or.inl ⟨rfl, real⟩)⟩
      | full fresh room =>
          have never : ¬ s.store.Whole := fun whole => room (Nat.lt_trans whole (by decide))
          exact ⟨[⟨tgt, depth⟩], Nat.le_refl 1, rfl, edges, fun _ mark => Or.inl mark, fun _ mark => mark,
            id, fun whole => absurd whole never, fun whole => absurd whole never,
            fun whole => absurd whole never⟩

theorem enqueue_some (order : InOrder s) (taken : enqueue img tgt depth s = some s') :
    InOrder s' ∧ Enqueued img tgt depth s s' := by
  obtain ⟨other, taken', rest⟩ := enqueue_cases img order tgt depth
  rw [taken] at taken'
  cases taken'
  exact rest

/-! ## One turn of the scan -/

variable {e : Entry (BitVec 64)} {i : Nat} {cur : Cursor} {r : Option Cursor}

theorem look_cases (looked : look img e i cur s = some (r, s')) :
    isBranch (kindAt img e.node i) = false ∧ s'.stack = s.stack ∧ s'.store.vis = s.store.vis ∨
      isBranch (kindAt img e.node i) = true ∧ ∃ p : Probe, p.vis = s.store.vis ∧
        enqueue img (target img e.node i) (e.depth + 1) ⟨s.stack, p⟩ = some s' := by
  rw [kindAt]
  cases kind : (insnOf (wordAt img e.node i)).kind <;> simp only [look, kind] at looked
  case movz =>
      split at looked <;> cases looked <;> exact Or.inl ⟨rfl, rfl, rfl⟩
  case ldr | str | ldur | stur | movk | unk | svc | ret | retab =>
      cases looked
      exact Or.inl ⟨rfl, rfl, rfl⟩
  case bl =>
      obtain ⟨s₁, taken, same⟩ := Option.map_eq_some_iff.mp looked
      cases same
      exact Or.inr ⟨rfl, (collect _ s).store, rfl, taken⟩
  case b =>
      obtain ⟨s₁, taken, same⟩ := Option.map_eq_some_iff.mp looked
      cases same
      exact Or.inr ⟨rfl, s.store, rfl, taken⟩

theorem look_cursor (looked : look img e i cur s = some (r, s')) :
    ends (kindAt img e.node i) = true ∧ r = none ∨
      ends (kindAt img e.node i) = false ∧ ∃ last, r = some
        ⟨last, if idle (kindAt img e.node i) then cur.junk + 1 else 0⟩ := by
  rw [kindAt]
  cases kind : (insnOf (wordAt img e.node i)).kind <;> simp only [look, kind] at looked
  case ldr | str | ldur | stur | movk | unk | svc =>
      cases looked
      exact Or.inr ⟨rfl, _, rfl⟩
  case movz =>
      split at looked <;> cases looked <;> exact Or.inr ⟨rfl, _, rfl⟩
  case ret | retab =>
      cases looked
      exact Or.inl ⟨rfl, rfl⟩
  case bl =>
      obtain ⟨s₁, taken, same⟩ := Option.map_eq_some_iff.mp looked
      cases same
      exact Or.inr ⟨rfl, _, rfl⟩
  case b =>
      obtain ⟨s₁, taken, same⟩ := Option.map_eq_some_iff.mp looked
      cases same
      exact Or.inl ⟨rfl, rfl⟩

theorem inOrder_of_same {s₁ : Walk} (order : InOrder s) (stack : s₁.stack = s.stack)
    (vis : s₁.store.vis = s.store.vis) : InOrder s₁ where
  sound := vis ▸ order.sound
  fits := by
    rw [stack, vis]
    exact order.fits

variable (img) in
theorem look_returns (order : InOrder s) (e : Entry (BitVec 64)) (i : Nat) (cur : Cursor) :
    ∃ r s', look img e i cur s = some (r, s') := by
  have pushes : ∀ (p : Probe), p.vis = s.store.vis →
      ∃ s', enqueue img (target img e.node i) (e.depth + 1) ⟨s.stack, p⟩ = some s' := by
    intro p same
    have order' : InOrder ⟨s.stack, p⟩ := inOrder_of_same order rfl same
    obtain ⟨s', taken, -⟩ := enqueue_cases img order' (target img e.node i) (e.depth + 1)
    exact ⟨s', taken⟩
  cases kind : (insnOf (wordAt img e.node i)).kind <;> simp only [look, kind]
  case ldr | str | ldur | stur | movk | unk | svc | ret | retab => exact ⟨_, _, rfl⟩
  case movz => split <;> exact ⟨_, _, rfl⟩
  case bl =>
      obtain ⟨s', taken⟩ := pushes (collect (fun t => if target img e.node i = img.hvtrap then
        takeTrap img e.node cur t else t) s).store rfl
      simp only [collect] at taken ⊢
      rw [taken]
      exact ⟨_, _, rfl⟩
  case b =>
      obtain ⟨s', taken⟩ := pushes s.store rfl
      rw [taken]
      exact ⟨_, _, rfl⟩

theorem callsBy_singleton_iff (a t : BitVec 64) :
    CallsBy img [i] a t ↔
      img.InText t ∧ isBranch (kindAt img a i) = true ∧ target img a i = t := by
  simp only [CallsBy, List.mem_singleton, exists_eq_left]

theorem look_visit (order : InOrder s) (looked : look img e i cur s = some (r, s')) :
    InOrder s' ∧ ∃ pushed, pushed.length ≤ 1 ∧
      Visit (CallsBy img [i]) maxDepth Probe.Marked Probe.Whole e s s' pushed := by
  rcases look_cases looked with ⟨other, stack, vis⟩ | ⟨branch, p, vis, taken⟩
  · refine ⟨inOrder_of_same order stack vis, [], Nat.zero_le 1, .still stack ?_ ?_ ?_⟩
    · funext a
      rw [Probe.Marked, Probe.Marked, vis]
    · rw [Probe.Whole, Probe.Whole, vis]
      exact id
    · intro _ _ t edge
      have branch := ((callsBy_singleton_iff e.node t).mp edge).2.1
      rw [other] at branch
      cases branch
  · have order₁ : InOrder ⟨s.stack, p⟩ := inOrder_of_same order rfl vis
    obtain ⟨order', enqueued⟩ := enqueue_some order₁ taken
    obtain ⟨pushed, one, visit⟩ := enqueued.visit order₁ rfl
    refine ⟨order', pushed, one, ?_⟩
    have edges : ∀ t, (img.InText t ∧ t = target img e.node i) ↔ CallsBy img [i] e.node t := by
      intro t
      rw [callsBy_singleton_iff, eq_comm]
      tauto
    obtain ⟨grown, each, fresh, marks, before, reached, distinct, news⟩ := visit.congr edges
    have marked : Probe.Marked p = Probe.Marked s.store := by
      funext a
      rw [Probe.Marked, Probe.Marked, vis]
    have whole : Probe.Whole p ↔ Probe.Whole s.store := by
      rw [Probe.Whole, Probe.Whole, vis]
    refine ⟨grown, each, ?_, ?_, ?_, reached, distinct, ?_⟩
    · exact fun v mark => marked ▸ fresh v mark
    · exact fun v mark => marks v (marked ▸ mark)
    · exact fun all => whole.mp (before all)
    · exact fun all x member => marked ▸ news all x member

/-! ## One node -/

theorem scanFrom_rule (Inv : List Nat → Option Cursor → Walk → Prop)
    (turn : ∀ seen i cur s r s', Inv seen (some cur) s → look img e i cur s = some (r, s') →
      Inv (seen ++ [i]) r s')
    {left : Nat} {seen : List Nat} (run : scanFrom img e left i cur s = some s')
    (start : Inv seen (some cur) s) :
    ∃ r, Inv (seen ++ bodyFrom img e.node left i cur.junk) r s' := by
  induction left generalizing i cur s seen with
  | zero =>
      cases run
      rw [bodyFrom, List.append_nil]
      exact ⟨some cur, start⟩
  | succ left ih =>
      rw [scanFrom] at run
      rw [bodyFrom]
      by_cases goes : cur.junk < 320
      · rw [if_pos goes] at run ⊢
        obtain ⟨⟨r, middle⟩, looked, later⟩ := Option.bind_eq_some_iff.mp run
        have here := turn seen i cur s r middle start looked
        rcases look_cursor looked with ⟨last, rfl⟩ | ⟨onward, word, rfl⟩
        · cases later
          rw [if_pos last]
          exact ⟨none, here⟩
        · rw [if_neg (Bool.eq_false_iff.mp onward)]
          have rest := ih later here
          rwa [List.append_assoc] at rest
      · rw [if_neg goes] at run ⊢
        cases run
        rw [List.append_nil]
        exact ⟨some cur, start⟩

variable (img) in
theorem scanFrom_returns (order : InOrder s) (e : Entry (BitVec 64)) (left i : Nat)
    (cur : Cursor) : ∃ s', scanFrom img e left i cur s = some s' := by
  induction left generalizing i cur s with
  | zero => exact ⟨s, rfl⟩
  | succ left ih =>
      rw [scanFrom]
      split
      · obtain ⟨r, middle, looked⟩ := look_returns img order e i cur
        rw [looked, Option.bind_some]
        cases r with
        | none => exact ⟨middle, rfl⟩
        | some cur => exact ih (look_visit order looked).1 (i + 4) cur
      · exact ⟨s, rfl⟩

def Followed (img : Image) (e : Entry (BitVec 64)) (s : Walk) (seen : List Nat) (s₁ : Walk) :
    Prop :=
  InOrder s₁ ∧ ∃ pushed, pushed.length ≤ seen.length ∧
    Visit (CallsBy img seen) maxDepth Probe.Marked Probe.Whole e s s₁ pushed

theorem Followed.look {seen : List Nat} {s₁ s₂ : Walk} (followed : Followed img e s seen s₁)
    (looked : look img e i cur s₁ = some (r, s₂)) : Followed img e s (seen ++ [i]) s₂ := by
  obtain ⟨order₁, pushed, few, visit⟩ := followed
  obtain ⟨order₂, last, one, visit'⟩ := look_visit order₁ looked
  refine ⟨order₂, last ++ pushed, ?_, (visit.comp visit').congr fun t => ?_⟩
  · rw [List.length_append, List.length_append, List.length_singleton]
    omega
  · simp only [CallsBy, List.mem_append, List.mem_singleton]
    constructor
    · rintro (⟨inside, j, member, branch⟩ | ⟨inside, j, member, branch⟩)
      · exact ⟨inside, j, Or.inl member, branch⟩
      · exact ⟨inside, j, Or.inr member, branch⟩
    · rintro ⟨inside, j, member | member, branch⟩
      · exact Or.inl ⟨inside, j, member, branch⟩
      · exact Or.inr ⟨inside, j, member, branch⟩

theorem scan_visit (order : InOrder s) (run : scan img e s = some s') :
    InOrder s' ∧ ∃ pushed, pushed.length ≤ nodeMax / 4 ∧
      Visit (Calls img) maxDepth Probe.Marked Probe.Whole e s s' pushed := by
  have start : Followed img e s [] s := by
    refine ⟨order, [], Nat.zero_le _, .still rfl rfl id ?_⟩
    rintro _ _ t ⟨-, j, none, -⟩
    cases none
  obtain ⟨-, order', pushed, few, visit⟩ := scanFrom_rule
    (fun seen _ s₁ => Followed img e s seen s₁)
    (fun seen i cur s₁ r s₂ followed looked => followed.look looked) run start
  have same : ∀ t, CallsBy img ([] ++ body img e.node) e.node t ↔ Calls img e.node t :=
    fun t => Iff.rfl
  exact ⟨order', pushed, few.trans (bodyFrom_length img e.node _ _ _), visit.congr same⟩

/-! ## The whole walk -/

theorem InOrder.pop {rest : List (Entry (BitVec 64))} {p : Probe}
    (order : InOrder ⟨e :: rest, p⟩) : InOrder ⟨rest, p⟩ := by
  refine ⟨order.sound, fun room => ?_⟩
  have fits := order.fits room
  rw [List.length_cons] at fits
  exact Nat.le_of_succ_le fits

variable (img) in
theorem scan_spreads (e : Entry (BitVec 64)) (rest : List (Entry (BitVec 64))) (p : Probe)
    (order : InOrder ⟨e :: rest, p⟩) :
    ∃ next pushed, scan img e ⟨rest, p⟩ = some next ∧ InOrder next ∧
      next.stack = pushed ++ rest ∧ Spreads maxDepth (nodeMax / 4) e pushed := by
  obtain ⟨next, run⟩ := scanFrom_returns img order.pop e (nodeMax / 4) 0 {}
  obtain ⟨order', pushed, few, visit⟩ := scan_visit order.pop run
  exact ⟨next, pushed, run, order', visit.grown, few, fun x member => (visit.edges x member).2⟩

theorem scan_visits (e : Entry (BitVec 64)) (rest : List (Entry (BitVec 64))) (p : Probe)
    (next : Walk) (order : InOrder ⟨e :: rest, p⟩) (run : scan img e ⟨rest, p⟩ = some next) :
    InOrder next ∧ ∃ pushed,
      Visit (Calls img) maxDepth Probe.Marked Probe.Whole e ⟨rest, p⟩ next pushed := by
  obtain ⟨order', pushed, -, visit⟩ := scan_visit order.pop run
  exact ⟨order', pushed, visit⟩

variable (img) in
theorem walk_start (start : BitVec 64) (p : Probe) :
    ∃ s, enqueue img start 0 ⟨[], { p with vis := visReset }⟩ = some s ∧ InOrder s ∧
      (s.stack = [⟨start, 0⟩] ∧ img.InText start ∧ (∀ v, s.store.Marked v ↔ v = start) ∨
        s.stack = [] ∧ ¬ img.InText start) := by
  have order : InOrder ⟨[], { p with vis := visReset }⟩ := ⟨sound_reset, fun _ => Nat.le_refl 0⟩
  obtain ⟨s, taken, order', enqueued⟩ := enqueue_cases img order start 0
  refine ⟨s, taken, order', ?_⟩
  cases enqueued with
  | refused why =>
      refine Or.inr ⟨rfl, why.resolve_left (Nat.not_lt_zero _)⟩
  | dropped full => exact absurd full (show ¬ stackMax ≤ 0 by decide)
  | known held => exact absurd held (holds_reset start)
  | pushed vis shallow inside asked =>
      refine Or.inl ⟨rfl, inside, fun v => ?_⟩
      cases asked with
      | noted _ fresh room holds count =>
          refine (holds v).trans ⟨?_, ?_⟩
          · rintro (⟨same, -⟩ | old)
            · exact same
            · exact absurd old (holds_reset v)
          · rintro rfl
            refine Or.inl ⟨rfl, ?_⟩
            rintro rfl
            exact img.based (BitVec.le_zero_iff.mp inside.1)
      | full fresh room => exact absurd (show 0 < visSlots / 2 by decide) room

/-- The table is never more than half full, so the bound on the nodes is never met. -/
theorem under_of_inOrder (order : InOrder s) : under s.store = true := by
  have half : s.store.vis.nodes ≤ 8192 := order.sound.half
  exact decide_eq_true (half.trans (by decide))

/-- The walk ends on every text from every seed, with its stack empty, after at most as
many bodies as a tree of this depth and fan has nodes. -/
theorem walk_ends (img : Image) (start : BitVec 64) (p : Probe) (fuel : Nat)
    (enough : (nodeMax / 4 + 1) ^ maxDepth < fuel) :
    ∃ s fin, enqueue img start 0 ⟨[], { p with vis := visReset }⟩ = some s ∧
      drain under (scan img) fuel s = some fin ∧ walkFrom img fuel start p = some fin.store ∧
      fin.stack = [] ∧ fin.store.vis.nodes ≤ visSlots / 2 := by
  obtain ⟨s, taken, order, holds⟩ := walk_start img start p
  have light : (s.stack.map (weight maxDepth (nodeMax / 4))).sum < fuel := by
    refine Nat.lt_of_le_of_lt ?_ enough
    rcases holds with ⟨stack, -⟩ | ⟨stack, -⟩
    · rw [stack]
      simp only [List.map_cons, List.map_nil, List.sum_cons, List.sum_nil, weight, Nat.sub_zero,
        Nat.add_zero, Nat.le_refl]
    · rw [stack]
      exact Nat.zero_le _
  obtain ⟨fin, run⟩ : ∃ fin, drain under (scan img) fuel s = some fin :=
    drain_returns InOrder (scan_spreads img) order light
  obtain ⟨order', ended⟩ := drain_preserves InOrder
    (fun e rest p next order _ taken => (scan_visits e rest p next order taken).1) run order
  refine ⟨s, fin, taken, run, ?_, ?_, order'.sound.half⟩
  · rw [walkFrom, taken, Option.bind_some, run]
    rfl
  · exact ended.resolve_right (by rw [under_of_inOrder order']; exact Bool.true_eq_false.mp)

/-- The walk has an outcome on every text from every seed, which more fuel does not change,
and its set of visited addresses is never more than half full. -/
theorem walk_settles (img : Image) (start : BitVec 64) (p : Probe) :
    ∃ p', p'.vis.nodes ≤ visSlots / 2 ∧
      ∀ fuel, (nodeMax / 4 + 1) ^ maxDepth < fuel → walkFrom img fuel start p = some p' := by
  obtain ⟨s, fin, taken, run, -, -, half⟩ :=
    walk_ends img start p ((nodeMax / 4 + 1) ^ maxDepth + 1) (Nat.lt_succ_self _)
  refine ⟨fin.store, half, fun fuel enough => ?_⟩
  rw [walkFrom, taken, Option.bind_some, drain_more run enough]
  rfl

theorem scanned_eq {start : BitVec 64} {p : Probe} {fuel : Nat}
    (taken : enqueue img start 0 ⟨[], { p with vis := visReset }⟩ = some s) :
    scanned img fuel start p = visits under (scan img) fuel s := by
  rw [scanned, taken]

theorem walkFrom_some {start : BitVec 64} {p p' : Probe} {fuel : Nat}
    (walked : walkFrom img fuel start p = some p') :
    ∃ s fin, enqueue img start 0 ⟨[], { p with vis := visReset }⟩ = some s ∧ InOrder s ∧
      drain under (scan img) fuel s = some fin ∧ fin.store = p' ∧
      (s.stack = [⟨start, 0⟩] ∧ img.InText start ∧ (∀ v, s.store.Marked v ↔ v = start) ∨
        s.stack = [] ∧ ¬ img.InText start) := by
  obtain ⟨s, taken, order, holds⟩ := walk_start img start p
  rw [walkFrom, taken, Option.bind_some] at walked
  obtain ⟨fin, run, same⟩ := Option.map_eq_some_iff.mp walked
  exact ⟨s, fin, taken, order, run, same, holds⟩

theorem inText_of_path {start a : BitVec 64} {n : Nat} (inside : img.InText start)
    (path : Path (Calls img) start n a) : img.InText a := by
  cases path with
  | here => exact inside
  | edge front last => exact last.1

/-- Every body the walk scans lies in the text and is reached from the seed by as many
edges as its depth says, six at most. -/
theorem scanned_path (img : Image) (start : BitVec 64) (p p' : Probe) (fuel : Nat)
    (walked : walkFrom img fuel start p = some p') :
    ∀ e ∈ scanned img fuel start p,
      e.depth ≤ maxDepth ∧ img.InText e.node ∧ Path (Calls img) start e.depth e.node := by
  obtain ⟨s, fin, taken, order, run, -, holds⟩ := walkFrom_some walked
  have seeds : ∀ e ∈ s.stack, Path (Calls img) start e.depth e.node ∧ e.depth ≤ maxDepth := by
    intro e member
    rcases holds with ⟨stack, -⟩ | ⟨stack, -⟩
    · rw [stack] at member
      cases List.mem_singleton.mp member
      exact ⟨.here, Nat.zero_le _⟩
    · rw [stack] at member
      cases member
  have reaches := drain_reaches scan_visits run order seeds
  rw [← scanned_eq taken] at reaches
  intro e member
  obtain ⟨path, shallow⟩ := reaches e member
  rcases holds with ⟨-, inside, -⟩ | ⟨stack, -⟩
  · exact ⟨shallow, inText_of_path inside path, path⟩
  · -- nothing is on the stack, so nothing is scanned
    rw [scanned_eq taken] at member
    cases fuel <;> simp [visits, stack] at member

/-- A walk that marks fewer addresses than its stack takes meets no bound but its depth:
it scans each body once, and every body one edge on from a body above the last depth. -/
theorem walk_covers (img : Image) (start : BitVec 64) (p p' : Probe) (fuel : Nat)
    (walked : walkFrom img fuel start p = some p') (inside : img.InText start)
    (few : p'.vis.nodes < stackMax) :
    Covered (Calls img) maxDepth start (scanned img fuel start p) := by
  obtain ⟨s, fin, taken, order, run, rfl, holds⟩ := walkFrom_some walked
  rcases holds with ⟨stack, -, only⟩ | ⟨-, outside⟩
  · obtain ⟨waiting, store⟩ := s
    cases stack
    obtain ⟨order', -⟩ := drain_preserves InOrder
      (fun e rest p next order _ taken => (scan_visits e rest p next order taken).1) run order
    rw [scanned_eq taken]
    exact drain_covers (by decide) scan_visits run order only (under_of_inOrder order') few
  · exact absurd inside outside

/-- Such a walk scans no body twice, and every body that can be reached, unless it scans one
at the last depth; the bodies within two edges of the seed in any case. -/
theorem walk_reaches_all (img : Image) (start : BitVec 64) (p p' : Probe) (fuel : Nat)
    (walked : walkFrom img fuel start p = some p') (inside : img.InText start)
    (few : p'.vis.nodes < stackMax) :
    ((scanned img fuel start p).map Entry.node).Nodup ∧
      ∀ n a, Path (Calls img) start n a →
        n ≤ 2 ∨ (∀ e ∈ scanned img fuel start p, e.depth < maxDepth) →
        ∃ e ∈ scanned img fuel start p, e.node = a := by
  have covered := walk_covers img start p p' fuel walked inside few
  refine ⟨covered.once, fun n a path near => ?_⟩
  rcases near with two | shallow
  · exact covered.near (by decide) path two
  · exact covered.all shallow path

/-- Three bodies.  The first, at 0x1000, loads at offset 8, moves 9 to w0, calls `hv_trap`
and then the second; the second, at 0x1800, loads at offset 16, calls the first and goes on
to the third, at 0x1a00, which returns. -/
def threeBodies : Image where
  word a :=
    if a = 0x1000 then 0xf9400420
    else if a = 0x1004 then 0x52800120
    else if a = 0x1008 then 0x940007fe
    else if a = 0x100c then 0x940001fd
    else if a = 0x1800 then 0xf9400820
    else if a = 0x1804 then 0x97fffdff
    else if a = 0x1808 then 0x1400007e
    else 0xd65f03c0
  textLo := 0x1000
  textHi := 0x2000
  hvtrap := 0x3000
  based := by decide

theorem walk_reaches_three :
    ∃ p', walkFrom threeBodies 4 0x1000 {} = some p' ∧
      (scanned threeBodies 4 0x1000 {}).map Entry.node = [0x1000, 0x1800, 0x1a00] ∧
      ((scanned threeBodies 4 0x1000 {}).map Entry.node).Nodup ∧
      ∀ n a, Path (Calls threeBodies) 0x1000 n a →
        n ≤ 2 ∨ (∀ e ∈ scanned threeBodies 4 0x1000 {}, e.depth < maxDepth) →
        ∃ e ∈ scanned threeBodies 4 0x1000 {}, e.node = a :=
  ⟨_, rfl, by decide +kernel, walk_reaches_all threeBodies 0x1000 {} _ 4 rfl
    ⟨by decide, by decide⟩ (by decide +kernel)⟩

end OpenHypervisor.OffsetProbe
