import OpenHypervisor.OffsetReach

/-!
# What the walk collects

The tables of a walk are those of the bodies it scans: each body's own findings, in the
order its words come, offered to the tables body after body.
-/

set_option autoImplicit false

namespace OpenHypervisor.OffsetProbe

open Search Ledger

/-! ## The findings of one word -/

def isAccess : Kind → Bool
  | .ldr | .str | .ldur | .stur => true
  | _ => false

variable (img : Image) (a : BitVec 64)

def immAt (i : Nat) : BitVec 64 := (insnOf (wordAt img a i)).imm.signExtend 64

/-- The offset and the width a load or store is recorded with. -/
def accessAt (i : Nat) : Option (BitVec 64 × BitVec 8) :=
  let ins := insnOf (wordAt img a i)
  if isAccess ins.kind then (offsetOf ins).map fun off => (off, ins.size) else none

def strbAt (i : Nat) : Option (BitVec 64) :=
  let ins := insnOf (wordAt img a i)
  if ins.kind = .str ∧ ins.size = 1 then some (immAt img a i) else none

def movesW0 (i : Nat) : Bool :=
  let w := wordAt img a i
  (insnOf w).kind = .movz ∧ (insnOf w).rt = 0 ∧ (w >>> 21) &&& 3 = 0

def w0At (i : Nat) : Option (BitVec 64) :=
  let ins := insnOf (wordAt img a i)
  if movesW0 img a i ∧ 0 ≤ ins.imm.toInt ∧ ins.imm.toInt ≤ 255 then some (immAt img a i) else none

/-- SVC, or a call of hv_trap itself. -/
def trapsAt (i : Nat) : Bool :=
  kindAt img a i = .svc ∨ kindAt img a i = .bl ∧ target img a i = img.hvtrap

def lastMove (last : Option Nat) (words : List Nat) : Option Nat :=
  words.foldl (fun last i => if movesW0 img a i then some i else last) last

/-- The numbers the traps among these words are taken with. -/
def trapNumbers : Option Nat → List Nat → List (BitVec 64)
  | _, [] => []
  | last, i :: rest =>
      (if trapsAt img a i then (last.map (immAt img a)).toList else []) ++
        trapNumbers (if movesW0 img a i then some i else last) rest

def Tables.after (t : Tables) (words : List Nat) : Tables where
  out := addAll Prod.fst maxOffs t.out (words.filterMap (accessAt img a))
  traps := addAll id maxHits t.traps (trapNumbers img a none words)
  strb := addAll id maxHits t.strb (words.filterMap (strbAt img a))
  w0 := addAll id maxHits t.w0 (words.filterMap (w0At img a))

variable {img a}

theorem trapNumbers_append (last : Option Nat) (words : List Nat) (i : Nat) :
    trapNumbers img a last (words ++ [i]) = trapNumbers img a last words ++
      (if trapsAt img a i then ((lastMove img a last words).map (immAt img a)).toList else []) := by
  induction words generalizing last with
  | nil =>
      simp only [List.nil_append, trapNumbers, lastMove, List.foldl_nil, List.append_nil]
  | cons j rest ih =>
      rw [List.cons_append, trapNumbers, trapNumbers, ih, List.append_assoc]
      rfl

theorem lastMove_append (last : Option Nat) (words : List Nat) (i : Nat) :
    lastMove img a last (words ++ [i]) =
      if movesW0 img a i then some i else lastMove img a last words := by
  rw [lastMove, List.foldl_append]
  rfl

/-! ## One turn -/

theorem enqueue_tables {tgt : BitVec 64} {depth : Nat} {s s' : Walk}
    (taken : enqueue img tgt depth s = some s') : s'.store.tables = s.store.tables := by
  rw [enqueue] at taken
  split at taken
  · cases taken
    rfl
  split at taken
  · cases taken
    rfl
  split at taken
  · cases taken
    rfl
  obtain ⟨answer, -, same⟩ := Option.map_eq_some_iff.mp taken
  cases same
  split <;> rfl

/-- What one word adds to the tables, after a last move to w0. -/
def Tables.note (img : Image) (a : BitVec 64) (last : Option Nat) (t : Tables) (i : Nat) :
    Tables where
  out := addAll Prod.fst maxOffs t.out (accessAt img a i).toList
  traps := addAll id maxHits t.traps
    (if trapsAt img a i then (last.map (immAt img a)).toList else [])
  strb := addAll id maxHits t.strb (strbAt img a i).toList
  w0 := addAll id maxHits t.w0 (w0At img a i).toList

section Note
variable {i : Nat} {last : Option Nat}

theorem accessAt_none (other : isAccess (kindAt img a i) = false) : accessAt img a i = none :=
  if_neg (Bool.eq_false_iff.mp other)

theorem strbAt_none (other : kindAt img a i ≠ .str) : strbAt img a i = none :=
  if_neg fun both => other both.1

theorem movesW0_false (other : kindAt img a i ≠ .movz) : movesW0 img a i = false :=
  decide_eq_false fun moves => other moves.1

theorem w0At_none (other : movesW0 img a i = false) : w0At img a i = none :=
  if_neg fun both => Bool.eq_false_iff.mp other both.1

theorem trapsAt_false (svc : kindAt img a i ≠ .svc) (bl : kindAt img a i ≠ .bl) :
    trapsAt img a i = false := by
  refine decide_eq_false fun either => ?_
  rcases either with one | ⟨other, -⟩
  · exact svc one
  · exact bl other

theorem note_eq (t : Tables) (access : accessAt img a i = none) (strb : strbAt img a i = none)
    (w0 : w0At img a i = none) : t.note img a last i = { t with
      traps := addAll id maxHits t.traps
        (if trapsAt img a i then (last.map (immAt img a)).toList else []) } := by
  rw [Tables.note, access, strb, w0]
  rfl

theorem note_of_none (t : Tables) (access : accessAt img a i = none)
    (strb : strbAt img a i = none) (w0 : w0At img a i = none) (trap : trapsAt img a i = false) :
    t.note img a last i = t := by
  rw [note_eq t access strb w0, trap]
  rfl

theorem takeTrap_eq (cur : Cursor) (t : Tables) (trap : trapsAt img a i = true) :
    takeTrap img a cur t = { t with
      traps := addAll id maxHits t.traps
        (if trapsAt img a i then (cur.lastMovzW0.map (immAt img a)).toList else []) } := by
  rw [takeTrap, if_pos trap]
  cases cur.lastMovzW0 <;> rfl

theorem recordAccess_eq (t : Tables) (access : isAccess (kindAt img a i) = true) :
    recordAccess (insnOf (wordAt img a i)) t = t.note img a last i := by
  have moves : movesW0 img a i = false := by
    refine movesW0_false fun same => ?_
    rw [same] at access
    cases access
  have trap : trapsAt img a i = false := by
    refine trapsAt_false (fun same => ?_) (fun same => ?_) <;>
      · rw [same] at access
        cases access
  have offset : accessAt img a i = (offsetOf (insnOf (wordAt img a i))).map
      fun off => (off, (insnOf (wordAt img a i)).size) := if_pos access
  rw [Tables.note, w0At_none moves, trap, offset, recordAccess, strbAt, immAt]
  cases offsetOf (insnOf (wordAt img a i)) <;> split <;> rfl

end Note

theorem look_tables {e : Entry (BitVec 64)} {i : Nat} {cur : Cursor} {r : Option Cursor}
    {s s' : Walk} (looked : look img e i cur s = some (r, s')) :
    s'.store.tables = s.store.tables.note img e.node cur.lastMovzW0 i ∧
      ∀ cur', r = some cur' →
        cur'.lastMovzW0 = if movesW0 img e.node i then some i else cur.lastMovzW0 := by
  obtain ⟨k, kind⟩ : ∃ k, kindAt img e.node i = k := ⟨_, rfl⟩
  have here : (insnOf (wordAt img e.node i)).kind = k := kind
  -- of a word that is no load or store and no move
  have plain : isAccess k = false → k ≠ .movz → k ≠ .str → accessAt img e.node i = none ∧
      strbAt img e.node i = none ∧ w0At img e.node i = none ∧ movesW0 img e.node i = false := by
    intro access movz str
    have moves := movesW0_false (kind.trans_ne movz)
    exact ⟨accessAt_none (kind ▸ access), strbAt_none (kind.trans_ne str), w0At_none moves, moves⟩
  cases k <;> simp only [look, here] at looked
  case ldr | str | ldur | stur =>
      cases looked
      refine ⟨recordAccess_eq _ (by rw [kind]; rfl), ?_⟩
      rintro _ ⟨rfl⟩
      rw [movesW0_false (by rw [kind]; decide)]
      rfl
  case movz =>
      have access : accessAt img e.node i = none := accessAt_none (by rw [kind]; rfl)
      have strb : strbAt img e.node i = none := strbAt_none (by rw [kind]; decide)
      have trap : trapsAt img e.node i = false :=
        trapsAt_false (by rw [kind]; decide) (by rw [kind]; decide)
      by_cases moves : (insnOf (wordAt img e.node i)).rt = 0 ∧
          (wordAt img e.node i >>> 21) &&& 3 = 0
      · have moved : movesW0 img e.node i = true := decide_eq_true ⟨here, moves⟩
        rw [if_pos moves] at looked
        cases looked
        refine ⟨?_, ?_⟩
        · rw [Tables.note, access, strb, trap, w0At, moved]
          simp only [collect, immAt, true_and]
          split <;> rfl
        · rintro _ ⟨rfl⟩
          rw [if_pos moved]
      · have moved : movesW0 img e.node i = false := decide_eq_false fun all => moves all.2
        rw [if_neg moves] at looked
        cases looked
        refine ⟨(note_of_none _ access strb (w0At_none moved) trap).symm, ?_⟩
        rintro _ ⟨rfl⟩
        rw [moved]
        rfl
  case movk | unk | ret | retab =>
      cases looked
      obtain ⟨access, strb, w0, moves⟩ := plain rfl (by decide) (by decide)
      have trap : trapsAt img e.node i = false :=
        trapsAt_false (by rw [kind]; decide) (by rw [kind]; decide)
      refine ⟨(note_of_none _ access strb w0 trap).symm, ?_⟩
      intro cur' same
      cases same <;> rw [moves] <;> rfl
  case svc =>
      cases looked
      obtain ⟨access, strb, w0, moves⟩ := plain rfl (by decide) (by decide)
      have trap : trapsAt img e.node i = true := decide_eq_true (Or.inl kind)
      refine ⟨(takeTrap_eq _ _ trap).trans (note_eq _ access strb w0).symm, ?_⟩
      rintro _ ⟨rfl⟩
      rw [moves]
      rfl
  case bl =>
      obtain ⟨s₁, taken, same⟩ := Option.map_eq_some_iff.mp looked
      cases same
      obtain ⟨access, strb, w0, moves⟩ := plain rfl (by decide) (by decide)
      refine ⟨(enqueue_tables taken).trans ?_, ?_⟩
      · simp only [collect]
        by_cases gate : target img e.node i = img.hvtrap
        · have trap : trapsAt img e.node i = true := decide_eq_true (Or.inr ⟨kind, gate⟩)
          rw [if_pos gate]
          exact (takeTrap_eq _ _ trap).trans (note_eq _ access strb w0).symm
        · have trap : trapsAt img e.node i = false := by
            refine decide_eq_false fun either => ?_
            rcases either with svc | ⟨-, same⟩
            · rw [kind] at svc
              cases svc
            · exact gate same
          rw [if_neg gate]
          exact (note_of_none _ access strb w0 trap).symm
      · rintro _ ⟨rfl⟩
        rw [moves]
        rfl
  case b =>
      obtain ⟨s₁, taken, same⟩ := Option.map_eq_some_iff.mp looked
      cases same
      obtain ⟨access, strb, w0, moves⟩ := plain rfl (by decide) (by decide)
      have trap : trapsAt img e.node i = false :=
        trapsAt_false (by rw [kind]; decide) (by rw [kind]; decide)
      refine ⟨(enqueue_tables taken).trans (note_of_none _ access strb w0 trap).symm, ?_⟩
      intro cur' none
      cases none

/-! ## The whole walk -/

theorem after_append (t : Tables) (words : List Nat) (i : Nat) :
    t.after img a (words ++ [i]) =
      (t.after img a words).note img a (lastMove img a none words) i := by
  simp only [Tables.after, Tables.note, List.filterMap_append, trapNumbers_append, addAll_append,
    List.filterMap_cons, List.filterMap_nil]
  cases accessAt img a i <;> cases strbAt img a i <;> cases w0At img a i <;> rfl

theorem scan_tables {e : Entry (BitVec 64)} {s s' : Walk} (run : scan img e s = some s') :
    s'.store.tables = s.store.tables.after img e.node (body img e.node) := by
  have start : s.store.tables = s.store.tables.after img e.node [] ∧
      ∀ cur, some ({} : Cursor) = some cur → cur.lastMovzW0 = lastMove img e.node none [] := by
    refine ⟨rfl, ?_⟩
    rintro _ ⟨rfl⟩
    rfl
  have turn : ∀ seen i cur (s₁ : Walk) r s₂,
      (s₁.store.tables = s.store.tables.after img e.node seen ∧
        ∀ c, some cur = some c → Cursor.lastMovzW0 c = lastMove img e.node none seen) →
      look img e i cur s₁ = some (r, s₂) →
      s₂.store.tables = s.store.tables.after img e.node (seen ++ [i]) ∧
        ∀ c, r = some c → c.lastMovzW0 = lastMove img e.node none (seen ++ [i]) := by
    intro seen i cur s₁ r s₂ ⟨tables, last⟩ looked
    obtain ⟨noted, kept⟩ := look_tables looked
    have before := last cur rfl
    refine ⟨?_, fun cur' same => ?_⟩
    · rw [noted, tables, before, after_append]
    · rw [kept cur' same, before, lastMove_append]
  obtain ⟨-, tables, -⟩ := scanFrom_rule
    (fun seen r s₁ => s₁.store.tables = s.store.tables.after img e.node seen ∧
      ∀ c, r = some c → c.lastMovzW0 = lastMove img e.node none seen) turn run start
  rw [List.nil_append] at tables
  exact tables

def Tables.afterAll (img : Image) (t : Tables) (log : List (Entry (BitVec 64))) : Tables :=
  log.foldl (fun t e => t.after img e.node (body img e.node)) t

/-- The tables of a walk are those of the bodies it scans, one after the other. -/
theorem walk_tables (img : Image) (start : BitVec 64) (p p' : Probe) (fuel : Nat)
    (walked : walkFrom img fuel start p = some p') :
    p'.tables = p.tables.afterAll img (scanned img fuel start p) := by
  obtain ⟨s, fin, taken, order, run, rfl, -⟩ := walkFrom_some walked
  have start' : s.store.tables = p.tables := enqueue_tables taken
  have step : ∀ log e rest store next, store.tables = p.tables.afterAll img log →
      under store = true → scan img e ⟨rest, store⟩ = some next →
      next.store.tables = p.tables.afterAll img (log ++ [e]) := by
    intro log e rest store next before _ visited
    rw [scan_tables visited, before, Tables.afterAll, Tables.afterAll, List.foldl_append]
    rfl
  have outcome := drain_rule (fun log w => w.store.tables = p.tables.afterAll img log) step []
    run start'
  rw [scanned_eq taken]
  exact outcome.1

section Findings

variable (img)

def outOf (log : List (Entry (BitVec 64))) : List (BitVec 64 × BitVec 8) :=
  log.flatMap fun e => (body img e.node).filterMap (accessAt img e.node)

def w0Of (log : List (Entry (BitVec 64))) : List (BitVec 64) :=
  log.flatMap fun e => (body img e.node).filterMap (w0At img e.node)

def trapsOf (log : List (Entry (BitVec 64))) : List (BitVec 64) :=
  log.flatMap fun e => trapNumbers img e.node none (body img e.node)

variable {img}

theorem afterAll_out (t : Tables) (log : List (Entry (BitVec 64))) :
    (t.afterAll img log).out = addAll Prod.fst maxOffs t.out (outOf img log) := by
  induction log generalizing t with
  | nil => rfl
  | cons e rest ih =>
      rw [outOf, List.flatMap_cons, addAll_append]
      exact ih (t.after img e.node (body img e.node))

theorem afterAll_w0 (t : Tables) (log : List (Entry (BitVec 64))) :
    (t.afterAll img log).w0 = addAll id maxHits t.w0 (w0Of img log) := by
  induction log generalizing t with
  | nil => rfl
  | cons e rest ih =>
      rw [w0Of, List.flatMap_cons, addAll_append]
      exact ih (t.after img e.node (body img e.node))

theorem afterAll_traps (t : Tables) (log : List (Entry (BitVec 64))) :
    (t.afterAll img log).traps = addAll id maxHits t.traps (trapsOf img log) := by
  induction log generalizing t with
  | nil => rfl
  | cons e rest ih =>
      rw [trapsOf, List.flatMap_cons, addAll_append]
      exact ih (t.after img e.node (body img e.node))

end Findings

/-- What the walk records was recorded before or stands in a body that the seed leads to by
at most six edges, once; and of the bodies it scans it records every access and every trap
while there is room. -/
theorem walk_collects (img : Image) (start : BitVec 64) (p p' : Probe) (fuel : Nat)
    (walked : walkFrom img fuel start p = some p') :
    (∀ x ∈ p'.tables.out, x ∈ p.tables.out ∨ ∃ n b, n ≤ maxDepth ∧ img.InText b ∧
      Path (Calls img) start n b ∧ ∃ i ∈ body img b, accessAt img b i = some x) ∧
    (∀ v ∈ p'.tables.traps, v ∈ p.tables.traps ∨ ∃ n b, n ≤ maxDepth ∧ img.InText b ∧
      Path (Calls img) start n b ∧ v ∈ trapNumbers img b none (body img b)) ∧
    ((p.tables.out.map Prod.fst).Nodup → (p'.tables.out.map Prod.fst).Nodup) ∧
    (p'.tables.out.length < maxOffs → ∀ e ∈ scanned img fuel start p, ∀ i ∈ body img e.node,
      ∀ x, accessAt img e.node i = some x → x.1 ∈ p'.tables.out.map Prod.fst) ∧
    (p'.tables.traps.length < maxHits → ∀ e ∈ scanned img fuel start p,
      ∀ v ∈ trapNumbers img e.node none (body img e.node), v ∈ p'.tables.traps) := by
  have paths := scanned_path img start p p' fuel walked
  rw [walk_tables img start p p' fuel walked, afterAll_out, afterAll_traps]
  refine ⟨?_, ?_, ?_, ?_, ?_⟩
  · intro x member
    rcases mem_addAll member with old | offered
    · exact Or.inl old
    · obtain ⟨e, scanned, found⟩ := List.mem_flatMap.mp offered
      obtain ⟨i, inBody, access⟩ := List.mem_filterMap.mp found
      obtain ⟨shallow, inside, path⟩ := paths e scanned
      exact Or.inr ⟨e.depth, e.node, shallow, inside, path, i, inBody, access⟩
  · intro v member
    rcases mem_addAll member with old | offered
    · exact Or.inl old
    · obtain ⟨e, scanned, found⟩ := List.mem_flatMap.mp offered
      obtain ⟨shallow, inside, path⟩ := paths e scanned
      exact Or.inr ⟨e.depth, e.node, shallow, inside, path, found⟩
  · exact fun nodup => addAll_nodup nodup _
  · intro room e taken i inBody x access
    have offered : x ∈ outOf img (scanned img fuel start p) :=
      List.mem_flatMap.mpr ⟨e, taken, List.mem_filterMap.mpr ⟨i, inBody, access⟩⟩
    exact key_mem_addAll room offered
  · intro room e taken v found
    have offered : v ∈ trapsOf img (scanned img fuel start p) :=
      List.mem_flatMap.mpr ⟨e, taken, found⟩
    have recorded := key_mem_addAll room offered
    rwa [List.map_id] at recorded

theorem walk_collects_three :
    ∃ p', walkFrom threeBodies 4 0x1000 {} = some p' ∧ p'.tables.out = [(8, 8), (16, 8)] ∧
      p'.tables.traps = [9] ∧
      (∀ v ∈ p'.tables.traps, v ∈ ({} : Probe).tables.traps ∨ ∃ n b, n ≤ maxDepth ∧
        threeBodies.InText b ∧ Path (Calls threeBodies) 0x1000 n b ∧
        v ∈ trapNumbers threeBodies b none (body threeBodies b)) :=
  ⟨_, rfl, by decide +kernel, by decide +kernel, (walk_collects threeBodies 0x1000 {} _ 4 rfl).2.1⟩

/-! ## The tables do not steer the walk -/

/-- Two walks that differ in their tables at most. -/
def Alike (s t : Walk) : Prop := s.stack = t.stack ∧ s.store.vis = t.store.vis

section Steering
variable {s s' t : Walk}

theorem enqueue_alike {tgt : BitVec 64} {depth : Nat} (alike : Alike s t)
    (taken : enqueue img tgt depth s = some s') :
    ∃ t', enqueue img tgt depth t = some t' ∧ Alike s' t' := by
  obtain ⟨stack, vis⟩ := alike
  rw [enqueue] at taken ⊢
  rw [← stack, ← vis]
  split at taken
  · rename_i deep
    cases taken
    exact ⟨t, if_pos deep, stack, vis⟩
  rename_i shallow
  rw [if_neg shallow]
  split at taken
  · rename_i outside
    cases taken
    exact ⟨t, if_pos outside, stack, vis⟩
  rename_i inside
  rw [if_neg inside]
  split at taken
  · rename_i full
    cases taken
    exact ⟨t, if_pos full, stack, vis⟩
  rename_i room
  rw [if_neg room]
  obtain ⟨answer, answered, same⟩ := Option.map_eq_some_iff.mp taken
  cases same
  rw [answered, Option.map_some]
  refine ⟨_, rfl, ?_⟩
  cases answer.1
  · exact ⟨rfl, rfl⟩
  · exact ⟨rfl, rfl⟩

theorem look_alike {e : Entry (BitVec 64)} {i : Nat} {cur : Cursor} {r : Option Cursor}
    (alike : Alike s t) (looked : look img e i cur s = some (r, s')) :
    ∃ t', look img e i cur t = some (r, t') ∧ Alike s' t' := by
  cases kind : (insnOf (wordAt img e.node i)).kind <;> simp only [look, kind] at looked ⊢
  case ldr | str | ldur | stur | movk | unk | svc | ret | retab =>
      cases looked
      exact ⟨_, rfl, alike⟩
  case movz =>
      split at looked <;> cases looked
      · rename_i moves
        exact ⟨_, if_pos moves, alike⟩
      · rename_i stays
        exact ⟨_, if_neg stays, alike⟩
  case bl =>
      obtain ⟨s₁, taken, same⟩ := Option.map_eq_some_iff.mp looked
      cases same
      have alike₁ : Alike (collect (fun t => if target img e.node i = img.hvtrap then
          takeTrap img e.node cur t else t) s) (collect (fun t =>
          if target img e.node i = img.hvtrap then takeTrap img e.node cur t else t) t) := alike
      obtain ⟨t₁, taken', alike'⟩ := enqueue_alike alike₁ taken
      exact ⟨t₁, by rw [taken']; rfl, alike'⟩
  case b =>
      obtain ⟨s₁, taken, same⟩ := Option.map_eq_some_iff.mp looked
      cases same
      obtain ⟨t₁, taken', alike'⟩ := enqueue_alike alike taken
      exact ⟨t₁, by rw [taken']; rfl, alike'⟩

theorem scanFrom_alike {e : Entry (BitVec 64)} {left i : Nat} {cur : Cursor} (alike : Alike s t)
    (run : scanFrom img e left i cur s = some s') :
    ∃ t', scanFrom img e left i cur t = some t' ∧ Alike s' t' := by
  induction left generalizing i cur s t with
  | zero =>
      cases run
      exact ⟨t, rfl, alike⟩
  | succ left ih =>
      rw [scanFrom] at run ⊢
      split at run
      · rename_i goes
        rw [if_pos goes]
        obtain ⟨⟨r, middle⟩, looked, later⟩ := Option.bind_eq_some_iff.mp run
        obtain ⟨middle', looked', alike'⟩ := look_alike alike looked
        rw [looked', Option.bind_some]
        cases r with
        | none =>
            cases later
            exact ⟨middle', rfl, alike'⟩
        | some cur => exact ih alike' later
      · rename_i stops
        rw [if_neg stops]
        cases run
        exact ⟨t, rfl, alike⟩

theorem visits_alike (fuel : Nat) (alike : Alike s t) (order : InOrder s) :
    visits under (scan img) fuel s = visits under (scan img) fuel t := by
  induction fuel generalizing s t with
  | zero => rfl
  | succ fuel ih =>
      obtain ⟨stack, p⟩ := s
      obtain ⟨stack', p'⟩ := t
      obtain ⟨rfl, vis⟩ := alike
      have vis : p.vis = p'.vis := vis
      cases stack with
      | nil => rfl
      | cons e rest =>
          have goes : under p = true := under_of_inOrder order
          have goes' : under p' = true := by
            rw [under, ← vis]
            exact goes
          obtain ⟨next, pushed, run, order', -⟩ := scan_spreads img e rest p order
          have popped : Alike ⟨rest, p⟩ ⟨rest, p'⟩ := ⟨rfl, vis⟩
          obtain ⟨next', run', alike'⟩ := scanFrom_alike popped run
          have ran : scan img e ⟨rest, p'⟩ = some next' := run'
          simp only [visits, goes, goes', if_true, run, ran]
          rw [ih alike' order']

end Steering

/-- What a walk scans depends on the text and the seed only. -/
theorem scanned_fresh (img : Image) (fuel : Nat) (start : BitVec 64) (p : Probe) :
    scanned img fuel start p = scanned img fuel start {} := by
  obtain ⟨s, taken, order, -⟩ := walk_start img start p
  have alike : Alike ⟨[], { p with vis := visReset }⟩ ⟨[], {}⟩ := ⟨rfl, rfl⟩
  obtain ⟨t, taken', alike'⟩ := enqueue_alike alike taken
  rw [scanned_eq taken, visits_alike fuel alike' order]
  exact (scanned_eq taken').symm

end OpenHypervisor.OffsetProbe
