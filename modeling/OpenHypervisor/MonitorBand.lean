import OpenHypervisor.System

/-!
# The shared monitor band

`ohv_note_image_band` cut at its accesses to `g_monitor_band`: the load when the
vCPU has no copy yet, the load at the head of the loop, and the weak
compare-exchange, which may fail for no reason.  Calls of different vCPUs
interleave at these points.

Next to the state the history a reader needs is kept: the kernel bands noted so
far, each from the moment its call is through with the shared band, and for
every vCPU the ones it noted itself and what it last read of the shared one.
-/

set_option autoImplicit false

namespace OpenHypervisor

inductive BandPhase where
  | idle
  /-- The head of the loop, with the band to be stored. -/
  | loop (band : Word)
  /-- The compare-exchange is next, against this value. -/
  | exchange (band seen : Word)
  | returning
  deriving DecidableEq, Repr

structure BandState where
  shared : Word
  own : VcpuId → Word := fun _ => 0
  phase : VcpuId → BandPhase := fun _ => .idle
  noted : List Word := []
  mine : VcpuId → List Word := fun _ => []
  learned : VcpuId → Word := fun _ => 0

inductive BandAct where
  /-- The call up to the loop, or to its end if there is nothing to store. -/
  | start (i : VcpuId) (pc : Word)
  | look (i : VcpuId)
  | exchange (i : VcpuId) (spurious : Bool)
  | ret (i : VcpuId)
  | rebuild (i : VcpuId)

def BandAct.owner : BandAct → VcpuId
  | .start i _ | .look i | .exchange i _ | .ret i | .rebuild i => i

namespace BandState

def goto (s : BandState) (i : VcpuId) (phase : BandPhase) : BandState :=
  { s with phase := Function.update s.phase i phase }

def note (s : BandState) (i : VcpuId) (band : Word) : BandState :=
  { s with
    noted := band :: s.noted
    mine := Function.update s.mine i (band :: s.mine i)
    phase := Function.update s.phase i .returning }

def setOwn (s : BandState) (i : VcpuId) (band : Word) : BandState :=
  { s with own := Function.update s.own i band }

/-- `if (s->sptm_base == 0) s->sptm_base = g_monitor_band`. -/
def load (s : BandState) (i : VcpuId) : BandState :=
  if s.own i = 0 then
    { s.setOwn i s.shared with learned := Function.update s.learned i s.shared }
  else s

def started (s : BandState) (i : VcpuId) (pc : Word) : BandState :=
  let s := s.load i
  if pc < kernelVa then s.goto i .returning
  else
    let band := imageBand pc
    if s.own i = 0 ∨ band < s.own i then (s.setOwn i band).goto i (.loop band)
    else s.note i band

def step (s : BandState) : BandAct → Option BandState
  | .start i pc =>
      match s.phase i with
      | .idle => some (s.started i pc)
      | _ => none
  | .look i =>
      match s.phase i with
      | .loop band =>
          if s.shared ≠ 0 ∧ s.shared ≤ band then some (s.note i band)
          else some (s.goto i (.exchange band s.shared))
      | _ => none
  | .exchange i spurious =>
      match s.phase i with
      | .exchange band seen =>
          if spurious = false ∧ s.shared = seen then some ({ s with shared := band }.note i band)
          else some (s.goto i (.loop band))
      | _ => none
  | .ret i =>
      match s.phase i with
      | .returning => some (s.goto i .idle)
      | _ => none
  | .rebuild i =>
      match s.phase i with
      | .idle =>
          some { s with
            own := Function.update s.own i 0
            mine := Function.update s.mine i []
            learned := Function.update s.learned i 0 }
      | _ => none

end BandState

/-- The least of the bands, 0 if there are none. -/
def LowestBand (bands : List Word) (band : Word) : Prop :=
  bands = [] ∧ band = 0 ∨ band ∈ bands ∧ ∀ other ∈ bands, band ≤ other

theorem LowestBand.unique {bands : List Word} {first second : Word}
    (left : LowestBand bands first) (right : LowestBand bands second) : first = second := by
  obtain ⟨empty, rfl⟩ | ⟨member, least⟩ := left
  · obtain ⟨-, rfl⟩ | ⟨member, -⟩ := right
    · rfl
    · rw [empty] at member
      cases member
  · obtain ⟨empty, -⟩ | ⟨member', least'⟩ := right
    · rw [empty] at member
      cases member
    · exact BitVec.le_antisymm (least second member') (least' first member)

theorem LowestBand.singleton (band : Word) : LowestBand [band] band :=
  Or.inr ⟨List.mem_cons_self, fun other member => by
    rw [List.mem_singleton.mp member]
    exact BitVec.le_refl band⟩

/-! ## The invariant -/

def AtMost (value band : Word) : Prop := value ≠ 0 ∧ value ≤ band

theorem AtMost.trans {low middle high : Word} (left : AtMost low middle)
    (right : AtMost middle high) : AtMost low high :=
  ⟨left.1, BitVec.le_trans left.2 right.2⟩

/-- One vCPU's part. -/
structure OwnBand (initial : Word) (s : BandState) (i : VcpuId) : Prop where
  /-- A call in the loop has its band in the copy already, and would lower the
  shared value it saw. -/
  loop : ∀ band, s.phase i = .loop band → s.own i = band ∧ band ≠ 0
  exchange : ∀ band seen, s.phase i = .exchange band seen →
    s.own i = band ∧ band ≠ 0 ∧ (seen = 0 ∨ band < seen)
  /-- Outside it the shared band is no higher than the copy. -/
  above : s.phase i = .idle ∨ s.phase i = .returning → s.own i ≠ 0 → AtMost s.shared (s.own i)
  source : s.phase i = .idle ∨ s.phase i = .returning → s.own i = s.learned i ∨ s.own i ∈ s.mine i
  belowMine : ∀ band ∈ s.mine i, AtMost (s.own i) band
  belowLearned : s.learned i ≠ 0 → AtMost (s.own i) (s.learned i)
  learned : s.learned i = 0 ∨ s.learned i = initial ∨ s.learned i ∈ s.noted
  mine : ∀ band ∈ s.mine i, band ∈ s.noted

structure SharedBand (initial : Word) (s : BandState) : Prop where
  source : s.shared = initial ∨ s.shared ∈ s.noted
  below : ∀ band ∈ s.noted, AtMost s.shared band
  belowInitial : initial ≠ 0 → AtMost s.shared initial

def BandInv (initial : Word) (s : BandState) : Prop :=
  SharedBand initial s ∧ ∀ i, OwnBand initial s i

theorem AtMost.of_eq_zero {band : Word} (atMost : AtMost 0 band) : False := atMost.1 rfl

theorem AtMost.lower {low middle band : Word} (some' : low ≠ 0) (below : middle = 0 ∨ low < middle)
    (atMost : AtMost middle band) : AtMost low band := by
  obtain rfl | below := below
  · exact atMost.of_eq_zero.elim
  · exact ⟨some', BitVec.le_trans (BitVec.le_of_lt below) atMost.2⟩

/-- A vCPU whose own part a step leaves alone, while the shared band only sinks. -/
theorem OwnBand.kept {initial : Word} {s t : BandState} {j : VcpuId} (inv : OwnBand initial s j)
    (own : t.own j = s.own j) (phase : t.phase j = s.phase j) (mine : t.mine j = s.mine j)
    (learned : t.learned j = s.learned j) (noted : ∀ band ∈ s.noted, band ∈ t.noted)
    (sinks : ∀ band, AtMost s.shared band → AtMost t.shared band) : OwnBand initial t j where
  loop := by rw [own, phase]; exact inv.loop
  exchange := by rw [own, phase]; exact inv.exchange
  above := by rw [own, phase]; exact fun out some' => sinks _ (inv.above out some')
  source := by rw [own, phase, mine, learned]; exact inv.source
  belowMine := by rw [own, mine]; exact inv.belowMine
  belowLearned := by rw [own, learned]; exact inv.belowLearned
  learned := by rw [learned]; exact inv.learned.imp_right (Or.imp_right (noted _))
  mine := by rw [mine]; exact fun band member => noted band (inv.mine band member)

section Steps

variable {initial : Word} {s : BandState} {i : VcpuId}

theorem BandInv.local_step {t : BandState} (inv : BandInv initial s) (shared : t.shared = s.shared)
    (noted : t.noted = s.noted) (own : ∀ j, j ≠ i → t.own j = s.own j)
    (phase : ∀ j, j ≠ i → t.phase j = s.phase j) (mine : ∀ j, j ≠ i → t.mine j = s.mine j)
    (learned : ∀ j, j ≠ i → t.learned j = s.learned j) (self : OwnBand initial t i) :
    BandInv initial t := by
  refine ⟨⟨?_, ?_, ?_⟩, fun j => ?_⟩
  · rw [shared, noted]; exact inv.1.source
  · rw [shared, noted]; exact inv.1.below
  · rw [shared]; exact inv.1.belowInitial
  · by_cases here : j = i
    · exact here ▸ self
    · exact (inv.2 j).kept (own j here) (phase j here) (mine j here) (learned j here)
        (by rw [noted]; exact fun _ member => member) (by rw [shared]; exact fun _ atMost => atMost)

theorem BandInv.goto (inv : BandInv initial s) (phase : BandPhase)
    (self : OwnBand initial (s.goto i phase) i) : BandInv initial (s.goto i phase) :=
  inv.local_step rfl rfl (fun _ _ => rfl) (fun j other => by simp [BandState.goto, other])
    (fun _ _ => rfl) (fun _ _ => rfl) self

theorem OwnBand.goto_out (inv : OwnBand initial s i)
    (out : s.phase i = .idle ∨ s.phase i = .returning) (phase : BandPhase)
    (outside : phase = .idle ∨ phase = .returning) : OwnBand initial (s.goto i phase) i where
  loop band here := by
    simp only [BandState.goto, Function.update_self] at here
    rcases outside with rfl | rfl <;> cases here
  exchange band seen here := by
    simp only [BandState.goto, Function.update_self] at here
    rcases outside with rfl | rfl <;> cases here
  above _ := inv.above out
  source _ := inv.source out
  belowMine := inv.belowMine
  belowLearned := inv.belowLearned
  learned := inv.learned
  mine := inv.mine

theorem BandInv.load (inv : BandInv initial s) (idle : s.phase i = .idle) :
    BandInv initial (s.load i) := by
  unfold BandState.load
  split
  · rename_i unset
    refine inv.local_step (i := i) rfl rfl (fun j other => by simp [BandState.setOwn, other])
      (fun _ _ => rfl) (fun _ _ => rfl) (fun j other => by simp [other]) ?_
    refine ⟨?_, ?_, ?_, ?_, ?_, ?_, ?_, (inv.2 i).mine⟩
    · intro band here
      rw [BandState.setOwn, idle] at here
      cases here
    · intro band seen here
      rw [BandState.setOwn, idle] at here
      cases here
    · intro _ some'
      simp only [BandState.setOwn, Function.update_self] at some' ⊢
      exact ⟨some', BitVec.le_refl _⟩
    · intro _
      simp [BandState.setOwn]
    · intro band member
      have atMost := (inv.2 i).belowMine band member
      rw [unset] at atMost
      exact atMost.of_eq_zero.elim
    · intro some'
      simp only [BandState.setOwn, Function.update_self] at some' ⊢
      exact ⟨some', BitVec.le_refl _⟩
    · simp only [BandState.setOwn, Function.update_self]
      exact Or.inr inv.1.source
  · exact inv

theorem BandInv.note (inv : BandInv initial s) (value band : Word)
    (source : value = initial ∨ value ∈ band :: s.noted)
    (sinks : ∀ other, AtMost s.shared other → AtMost value other) (inside : AtMost value band)
    (copied : AtMost value (s.own i)) (copy : AtMost (s.own i) band)
    (known : s.own i = s.learned i ∨ s.own i ∈ band :: s.mine i) :
    BandInv initial ({ s with shared := value }.note i band) := by
  refine ⟨⟨source, ?_, fun some' => sinks _ (inv.1.belowInitial some')⟩, fun j => ?_⟩
  · intro other member
    obtain rfl | member := List.mem_cons.mp member
    · exact inside
    · exact sinks other (inv.1.below other member)
  · by_cases here : j = i
    · subst here
      refine ⟨?_, ?_, fun _ _ => copied, fun _ => ?_, ?_, (inv.2 j).belowLearned, ?_, ?_⟩
      · intro other here
        simp [BandState.note] at here
      · intro other seen here
        simp [BandState.note] at here
      · simpa [BandState.note] using known
      · intro other member
        simp only [BandState.note, Function.update_self] at member
        obtain rfl | member := List.mem_cons.mp member
        · exact copy
        · exact (inv.2 j).belowMine other member
      · exact (inv.2 j).learned.imp_right (Or.imp_right (List.mem_cons_of_mem band))
      · intro other member
        simp only [BandState.note, Function.update_self] at member
        obtain rfl | member := List.mem_cons.mp member
        · exact List.mem_cons_self
        · exact List.mem_cons_of_mem _ ((inv.2 j).mine other member)
    · exact (inv.2 j).kept rfl (by simp [BandState.note, here]) (by simp [BandState.note, here])
        rfl (fun _ member => List.mem_cons_of_mem band member) sinks

theorem imageBand_ne_zero {pc : Word} (kernel : ¬ pc < kernelVa) : imageBand pc ≠ 0 := by
  have high : kernelVa.toNat ≤ pc.toNat := BitVec.le_def.mp (BitVec.not_lt.mp kernel)
  have top : pc.msb = true := by
    rw [BitVec.msb_eq_decide, decide_eq_true_eq]
    exact Nat.le_trans (by decide) high
  intro empty
  have kept : (imageBand pc).msb = true := by
    rw [imageBand, BitVec.msb_and, top]
    decide
  rw [empty] at kept
  exact absurd kept (by decide)

theorem BandInv.started (inv : BandInv initial s) (idle : s.phase i = .idle) (pc : Word) :
    BandInv initial (s.started i pc) := by
  have loaded := inv.load idle
  have still : (s.load i).phase i = .idle := by
    unfold BandState.load
    split <;> exact idle
  unfold BandState.started
  revert loaded still
  generalize s.load i = s
  intro inv idle
  have own := inv.2 i
  simp only
  split
  · exact inv.goto _ (own.goto_out (Or.inl idle) _ (Or.inr rfl))
  · rename_i kernel
    have some' := imageBand_ne_zero kernel
    split
    · rename_i lowers
      have sinks : ∀ other, AtMost (s.own i) other → AtMost (imageBand pc) other :=
        fun other => AtMost.lower some' lowers
      refine inv.local_step (i := i) rfl rfl (fun j other => by simp [BandState.goto, BandState.setOwn, other])
        (fun j other => by simp [BandState.goto, BandState.setOwn, other]) (fun _ _ => rfl)
        (fun _ _ => rfl) ⟨?_, ?_, ?_, ?_, ?_, ?_, own.learned, own.mine⟩
      · intro band here
        simp only [BandState.goto, BandState.setOwn, Function.update_self] at here ⊢
        cases here
        exact ⟨rfl, some'⟩
      · intro band seen here
        simp [BandState.goto] at here
      · intro out
        simp [BandState.goto] at out
      · intro out
        simp [BandState.goto] at out
      · intro other member
        simpa [BandState.goto, BandState.setOwn] using sinks other (own.belowMine other member)
      · intro learned
        simpa [BandState.goto, BandState.setOwn] using sinks _ (own.belowLearned learned)
    · rename_i keeps
      rw [not_or, BitVec.not_lt] at keeps
      have shared := own.above (Or.inl idle) keeps.1
      exact inv.note s.shared _ (inv.1.source.imp_right (List.mem_cons_of_mem _)) (fun _ h => h)
        (shared.trans keeps) shared keeps ((own.source (Or.inl idle)).imp_right (List.mem_cons_of_mem _))

theorem OwnBand.goto_in (inv : OwnBand initial s i) (phase : BandPhase)
    (inside : phase ≠ .idle ∧ phase ≠ .returning)
    (loop : ∀ band, phase = .loop band → s.own i = band ∧ band ≠ 0)
    (exchange : ∀ band seen, phase = .exchange band seen →
      s.own i = band ∧ band ≠ 0 ∧ (seen = 0 ∨ band < seen)) :
    OwnBand initial (s.goto i phase) i := by
  have here : (s.goto i phase).phase i = phase := Function.update_self ..
  have within : ¬ ((s.goto i phase).phase i = .idle ∨ (s.goto i phase).phase i = .returning) := by
    rw [here]
    exact fun out => out.elim inside.1 inside.2
  exact {
    loop := by rw [here]; exact loop
    exchange := by rw [here]; exact exchange
    above := fun out => absurd out within
    source := fun out => absurd out within
    belowMine := inv.belowMine
    belowLearned := inv.belowLearned
    learned := inv.learned
    mine := inv.mine }

theorem BandInv.look (inv : BandInv initial s) {band : Word} (here : s.phase i = .loop band) :
    BandInv initial (if s.shared ≠ 0 ∧ s.shared ≤ band then s.note i band
      else s.goto i (.exchange band s.shared)) := by
  obtain ⟨copy, some'⟩ := (inv.2 i).loop band here
  split
  · rename_i seen
    refine inv.note s.shared band (inv.1.source.imp_right (List.mem_cons_of_mem _))
      (fun _ atMost => atMost) seen ?_ ?_ ?_
    · rw [copy]; exact seen
    · rw [copy]; exact ⟨some', BitVec.le_refl _⟩
    · rw [copy]; exact Or.inr List.mem_cons_self
  · rename_i unseen
    rw [not_and_or, not_not, BitVec.not_le] at unseen
    refine inv.goto _ ((inv.2 i).goto_in _ ⟨nofun, nofun⟩ nofun ?_)
    rintro _ _ ⟨⟩
    exact ⟨copy, some', unseen⟩

/-- The compare-exchange, won or lost. -/
theorem BandInv.exchange (inv : BandInv initial s) {band seen : Word}
    (here : s.phase i = .exchange band seen) (spurious : Bool) :
    BandInv initial (if spurious = false ∧ s.shared = seen then
      { s with shared := band }.note i band else s.goto i (.loop band)) := by
  obtain ⟨copy, some', lower⟩ := (inv.2 i).exchange band seen here
  split
  · rename_i won
    obtain ⟨-, same⟩ := won
    refine inv.note band band (Or.inr List.mem_cons_self) ?_ ⟨some', BitVec.le_refl _⟩ ?_ ?_ ?_
    · rw [same]; exact fun other => AtMost.lower some' lower
    · rw [copy]; exact ⟨some', BitVec.le_refl _⟩
    · rw [copy]; exact ⟨some', BitVec.le_refl _⟩
    · rw [copy]; exact Or.inr List.mem_cons_self
  · refine inv.goto _ ((inv.2 i).goto_in _ ⟨nofun, nofun⟩ ?_ nofun)
    rintro _ ⟨⟩
    exact ⟨copy, some'⟩

theorem BandInv.rebuild (inv : BandInv initial s) (idle : s.phase i = .idle) :
    BandInv initial { s with
      own := Function.update s.own i 0
      mine := Function.update s.mine i []
      learned := Function.update s.learned i 0 } := by
  refine inv.local_step (i := i) rfl rfl (fun j other => by simp [other]) (fun _ _ => rfl)
    (fun j other => by simp [other]) (fun j other => by simp [other]) ?_
  refine ⟨?_, ?_, ?_, ?_, ?_, ?_, ?_, ?_⟩
  · intro band here
    rw [idle] at here
    cases here
  · intro band seen here
    rw [idle] at here
    cases here
  all_goals simp

theorem BandInv.step {t : BandState} {act : BandAct} (taken : s.step act = some t)
    (inv : BandInv initial s) : BandInv initial t := by
  cases act with
  | start i pc =>
      simp only [BandState.step] at taken
      split at taken <;> cases taken
      rename_i idle
      exact inv.started idle pc
  | look i =>
      simp only [BandState.step] at taken
      split at taken
      · rename_i band here
        rw [← apply_ite some] at taken
        exact Option.some.inj taken ▸ inv.look here
      · cases taken
  | exchange i spurious =>
      simp only [BandState.step] at taken
      split at taken
      · rename_i band seen here
        rw [← apply_ite some] at taken
        exact Option.some.inj taken ▸ inv.exchange here spurious
      · cases taken
  | ret i =>
      simp only [BandState.step] at taken
      split at taken <;> cases taken
      rename_i back
      exact inv.goto _ ((inv.2 i).goto_out (Or.inr back) _ (Or.inl rfl))
  | rebuild i =>
      simp only [BandState.step] at taken
      split at taken <;> cases taken
      rename_i idle
      exact inv.rebuild idle

end Steps

/-! ## What the history says -/

/-- The band a call in the loop is about to store. -/
def BandPhase.pending : BandPhase → Option Word
  | .loop band | .exchange band _ => some band
  | .idle | .returning => none

/-- Noted, or about to be. -/
def BandState.Seen (s : BandState) (band : Word) : Prop :=
  band ∈ s.noted ∨ ∃ j, (s.phase j).pending = some band

def BandAct.Shows (band : Word) : BandAct → Prop
  | .start _ pc => kernelVa ≤ pc ∧ imageBand pc = band
  | _ => False

theorem pending_update (phase : VcpuId → BandPhase) (i : VcpuId) (next : BandPhase) (band : Word) :
    (∃ j, (Function.update phase i next j).pending = some band) ↔
      next.pending = some band ∨ ∃ j, j ≠ i ∧ (phase j).pending = some band := by
  constructor
  · rintro ⟨j, here⟩
    by_cases same : j = i
    · subst same
      rw [Function.update_self] at here
      exact Or.inl here
    · rw [Function.update_of_ne same] at here
      exact Or.inr ⟨j, same, here⟩
  · rintro (here | ⟨j, other, here⟩)
    · exact ⟨i, by rwa [Function.update_self]⟩
    · exact ⟨j, by rwa [Function.update_of_ne other]⟩

theorem pending_split (phase : VcpuId → BandPhase) (i : VcpuId) (band : Word) :
    (∃ j, (phase j).pending = some band) ↔
      (phase i).pending = some band ∨ ∃ j, j ≠ i ∧ (phase j).pending = some band := by
  simpa using pending_update phase i (phase i) band

@[simp] theorem pending_idle : BandPhase.idle.pending = none := rfl
@[simp] theorem pending_returning : BandPhase.returning.pending = none := rfl
@[simp] theorem pending_loop (band : Word) : (BandPhase.loop band).pending = some band := rfl
@[simp] theorem pending_exchange (band seen : Word) :
    (BandPhase.exchange band seen).pending = some band := rfl

theorem BandState.seen_goto (s : BandState) (i : VcpuId) (next : BandPhase) (band : Word) :
    (s.goto i next).Seen band ↔ band ∈ s.noted ∨ next.pending = some band ∨
      ∃ j, j ≠ i ∧ (s.phase j).pending = some band := by
  simp only [Seen, goto, pending_update]

theorem BandState.seen_note (s : BandState) (i : VcpuId) (stored band : Word) :
    (s.note i stored).Seen band ↔ (band = stored ∨ band ∈ s.noted) ∨
      ∃ j, j ≠ i ∧ (s.phase j).pending = some band := by
  simp [Seen, note, pending_update]

theorem BandState.seen_split (s : BandState) (i : VcpuId) (band : Word) :
    s.Seen band ↔ band ∈ s.noted ∨ (s.phase i).pending = some band ∨
      ∃ j, j ≠ i ∧ (s.phase j).pending = some band := by
  rw [Seen, pending_split s.phase i]

theorem BandState.seen_started (s : BandState) (i : VcpuId) (idle : s.phase i = .idle) (pc band : Word) :
    (s.started i pc).Seen band ↔ s.Seen band ∨ (BandAct.start i pc).Shows band := by
  have loaded : (s.load i).noted = s.noted ∧ (s.load i).phase = s.phase := by
    unfold BandState.load
    split <;> exact ⟨rfl, rfl⟩
  obtain ⟨noted, phase⟩ := loaded
  rw [s.seen_split i]
  simp only [BandState.started, BandAct.Shows, idle, pending_idle, reduceCtorEq, false_or]
  split
  · rename_i low
    have notKernel : ¬ kernelVa ≤ pc := BitVec.not_le.mpr low
    simp [BandState.seen_goto, noted, phase, notKernel]
  · rename_i high
    have kernel : kernelVa ≤ pc := BitVec.not_lt.mp high
    split
    · have shown : (((s.load i).setOwn i (imageBand pc)).goto i (.loop (imageBand pc))).Seen
          band ↔ band ∈ s.noted ∨ imageBand pc = band ∨
            ∃ j, j ≠ i ∧ (s.phase j).pending = some band := by
        rw [BandState.seen_goto, pending_loop, Option.some.injEq, ← noted, ← phase]
        rfl
      rw [shown]
      grind
    · rw [BandState.seen_note, noted, phase]
      grind

theorem seen_step {s t : BandState} {act : BandAct} (taken : s.step act = some t) (band : Word) :
    t.Seen band ↔ s.Seen band ∨ act.Shows band := by
  cases act with
  | start i pc =>
      simp only [BandState.step] at taken
      split at taken <;> cases taken
      rename_i idle
      exact s.seen_started i idle pc band
  | look i =>
      simp only [BandState.step] at taken
      split at taken
      · rename_i stored here
        rw [s.seen_split i]
        simp only [BandAct.Shows, here, pending_loop, Option.some.injEq, or_false]
        split at taken <;> cases taken
        · rw [BandState.seen_note]
          grind
        · rw [BandState.seen_goto, pending_exchange, Option.some.injEq]
      · cases taken
  | exchange i spurious =>
      simp only [BandState.step] at taken
      split at taken
      · rename_i stored seen here
        rw [s.seen_split i]
        simp only [BandAct.Shows, here, pending_exchange, Option.some.injEq, or_false]
        split at taken <;> cases taken
        · rw [BandState.seen_note]
          grind
        · rw [BandState.seen_goto, pending_loop, Option.some.injEq]
      · cases taken
  | ret i =>
      simp only [BandState.step] at taken
      split at taken <;> cases taken
      rename_i back
      rw [BandState.seen_goto, s.seen_split i]
      simp [BandAct.Shows, back]
  | rebuild i =>
      simp only [BandState.step] at taken
      split at taken <;> cases taken
      rename_i idle
      rw [BandState.seen_split _ i, s.seen_split i]
      simp [BandAct.Shows, idle]

theorem seen_iff {s t : BandState} {word : List BandAct}
    (run : Runs.runFrom BandState.step s word = some t) (band : Word) :
    t.Seen band ↔ s.Seen band ∨ ∃ act ∈ word, act.Shows band := by
  induction word generalizing s with
  | nil =>
      cases run
      simp
  | cons act rest ih =>
      obtain ⟨next, taken, later⟩ := (Runs.runFrom_cons_iff s t act rest).mp run
      rw [ih later, seen_step taken band, or_assoc]
      simp only [List.mem_cons, exists_eq_or_imp]

/-! ## What a call returns to -/

/-- The start of a VM's life.  The shared band is the process's, so that an earlier
VM may have left one. -/
def bandsAtStart (initial : Word) : BandState := { shared := initial }

theorem bandInv_atStart (initial : Word) : BandInv initial (bandsAtStart initial) := by
  refine ⟨⟨Or.inl rfl, nofun, fun some' => ⟨some', BitVec.le_refl _⟩⟩, fun i => ?_⟩
  exact ⟨nofun, nofun, fun _ some' => absurd rfl some', fun _ => Or.inl rfl, nofun,
    fun some' => absurd rfl some', Or.inl rfl, nofun⟩

theorem noted_iff {initial : Word} {t : BandState} {word : List BandAct}
    (run : Runs.runFrom BandState.step (bandsAtStart initial) word = some t)
    (through : ∀ j, (t.phase j).pending = none) (band : Word) :
    band ∈ t.noted ↔ ∃ act ∈ word, act.Shows band := by
  have seen := seen_iff run band
  simpa [BandState.Seen, through, bandsAtStart] using seen

/-- After a call the shared band and the copy are the lowest one noted, just when
no lower band was left by an earlier VM and the lowest is one the vCPU showed
itself or found when it last looked. -/
theorem band_agreement_iff {initial : Word} {t : BandState} {i : VcpuId} {word : List BandAct}
    (run : Runs.runFrom BandState.step (bandsAtStart initial) word = some t)
    (back : t.phase i = .returning) :
    (LowestBand t.noted t.shared ∧ LowestBand t.noted (t.own i)) ↔
      (initial = 0 ∨ ∃ band ∈ t.noted, band ≤ initial) ∧
        ∃ lowest, LowestBand t.noted lowest ∧ (lowest ∈ t.mine i ∨ lowest = t.learned i) := by
  obtain ⟨shared, own⟩ : BandInv initial t :=
    Runs.invariant_runFrom (BandInv initial) (fun _ _ _ taken inv => inv.step taken) run
      (bandInv_atStart initial)
  have own := own i
  have source := own.source (Or.inr back)
  constructor
  · rintro ⟨lowest, copied⟩
    refine ⟨?_, t.own i, copied, source.symm⟩
    by_cases clean : initial = 0
    · exact Or.inl clean
    · have below := shared.belowInitial clean
      obtain ⟨-, none⟩ | ⟨member, -⟩ := lowest
      · exact absurd none below.1
      · exact Or.inr ⟨t.shared, member, below.2⟩
  · rintro ⟨stale, lowest, least, known⟩
    obtain ⟨empty, rfl⟩ | ⟨member, below⟩ := id least
    · have clean : initial = 0 := by
        obtain clean | ⟨band, member, -⟩ := stale
        · exact clean
        · rw [empty] at member
          cases member
      have never : ∀ band, band ∉ t.noted := by simp [empty]
      have sharedZero : t.shared = 0 :=
        (shared.source.resolve_right (never _)).trans clean
      have learnedZero : t.learned i = 0 := by
        obtain none | same | member := own.learned
        · exact none
        · exact same.trans clean
        · exact absurd member (never _)
      have ownZero : t.own i = 0 := by
        obtain same | mine := source
        · exact same.trans learnedZero
        · exact absurd (own.mine _ mine) (never _)
      exact ⟨Or.inl ⟨empty, sharedZero⟩, Or.inl ⟨empty, ownZero⟩⟩
    · have atMost : AtMost t.shared lowest := shared.below lowest member
      have inNoted : t.shared ∈ t.noted := by
        obtain same | member := shared.source
        · obtain clean | ⟨band, member, low⟩ := stale
          · exact absurd (same.trans clean) atMost.1
          · rw [← same] at low
            exact BitVec.le_antisymm (shared.below band member).2 low ▸ member
        · exact member
      have sharedLeast : LowestBand t.noted t.shared :=
        Or.inr ⟨inNoted, fun other there => (shared.below other there).2⟩
      have same : t.shared = lowest := sharedLeast.unique least
      have some' : lowest ≠ 0 := same ▸ atMost.1
      have copy : AtMost (t.own i) lowest := by
        obtain mine | rfl := known
        · exact own.belowMine lowest mine
        · exact own.belowLearned some'
      have above := own.above (Or.inr back) copy.1
      have agrees : t.own i = lowest :=
        BitVec.le_antisymm copy.2 (same ▸ above.2)
      exact ⟨sharedLeast, agrees ▸ least⟩

def lowering (i : VcpuId) (pc : Word) : List BandAct :=
  [.start i pc, .look i, .exchange i false]

theorem band_agreement_first : ∃ t,
    Runs.runFrom BandState.step (bandsAtStart 0) (lowering vcpu0 0xfffffff040000000) = some t ∧
    LowestBand t.noted t.shared ∧ LowestBand t.noted (t.own vcpu0) := by
  have run : Runs.runFrom BandState.step (bandsAtStart 0) (lowering vcpu0 0xfffffff040000000) =
      some _ := rfl
  have agreed := band_agreement_iff (i := vcpu0) run rfl
  exact ⟨_, run, agreed.mpr ⟨Or.inl rfl, imageBand 0xfffffff040000000, LowestBand.singleton _,
    Or.inl List.mem_cons_self⟩⟩

/-- A core that learned the band before another one lowered it keeps the old. -/
def staleCopyRun : List BandAct :=
  lowering vcpu0 0xfffffff040000000 ++ .ret vcpu0 ::
    (lowering vcpu1 0xfffffff020000000 ++ [.ret vcpu1, .start vcpu0 0xfffffff040000000])

theorem stale_copy_after_call : ∃ t,
    Runs.runFrom BandState.step (bandsAtStart 0) staleCopyRun = some t ∧
    t.phase vcpu0 = .returning ∧ t.shared = 0xfffffff020000000 ∧
    t.own vcpu0 = 0xfffffff040000000 ∧ ¬ LowestBand t.noted (t.own vcpu0) := by
  refine ⟨_, rfl, rfl, by decide, by decide, ?_⟩
  rintro (⟨empty, -⟩ | ⟨-, least⟩)
  · cases empty
  · exact absurd (least 0xfffffff020000000 (by decide)) (by decide)

/-! ## One call on its own -/

theorem solo_call (s : BandState) (i : VcpuId) (pc : Word) (idle : s.phase i = .idle) :
    ∃ word t, (∀ act ∈ word, act.owner = i) ∧ Runs.runFrom BandState.step s word = some t ∧
      t.phase i = .returning ∧
      (t.shared, t.own i) = noteImageBand s.shared (s.own i) pc := by
  have loaded : (s.load i).shared = s.shared ∧
      (s.load i).own i = if s.own i = 0 then s.shared else s.own i := by
    unfold BandState.load
    split <;> simp [BandState.setOwn]
  obtain ⟨shared, own⟩ := loaded
  have spec : noteImageBand s.shared (s.own i) pc =
      if pc < kernelVa then (s.shared, (s.load i).own i)
      else if (s.load i).own i = 0 ∨ imageBand pc < (s.load i).own i then
        (lowerBand s.shared (imageBand pc), imageBand pc)
      else (s.shared, (s.load i).own i) := by
    rw [own]
    rfl
  have first : s.step (.start i pc) = some (s.started i pc) := by
    simp only [BandState.step, idle]
  rw [spec]
  by_cases low : pc < kernelVa
  · refine ⟨[.start i pc], (s.load i).goto i .returning, by simp [BandAct.owner], ?_, by simp [BandState.goto], ?_⟩
    · rw [Runs.runFrom, first, BandState.started, if_pos low]
      rfl
    · rw [if_pos low, ← shared]
      rfl
  · by_cases lowers : (s.load i).own i = 0 ∨ imageBand pc < (s.load i).own i
    · rw [BandState.started, if_neg low, if_pos lowers] at first
      rw [if_neg low, if_pos lowers]
      by_cases seen : s.shared ≠ 0 ∧ s.shared ≤ imageBand pc
      · refine ⟨[.start i pc, .look i],
          (((s.load i).setOwn i (imageBand pc)).goto i (.loop (imageBand pc))).note i
            (imageBand pc), by simp [BandAct.owner], ?_, by simp [BandState.note], ?_⟩
        · rw [Runs.runFrom, first]
          simp only [Runs.runFrom, Option.bind_some, BandState.step, BandState.goto,
            BandState.setOwn, Function.update_self, shared, if_pos seen]
        · simp only [BandState.note, BandState.goto, BandState.setOwn, Function.update_self,
            lowerBand, shared, if_pos seen]
      · refine ⟨lowering i pc, { ((((s.load i).setOwn i (imageBand pc)).goto i
          (.loop (imageBand pc))).goto i (.exchange (imageBand pc) s.shared)) with
            shared := imageBand pc }.note i (imageBand pc), by simp [lowering, BandAct.owner],
          ?_, by simp [BandState.note], ?_⟩
        · rw [lowering, Runs.runFrom, first]
          simp only [Runs.runFrom, Option.bind_some, BandState.step, BandState.goto,
            BandState.setOwn, Function.update_self, shared, if_neg seen, and_self, if_true]
        · simp only [BandState.note, BandState.goto, BandState.setOwn, Function.update_self,
            lowerBand, if_neg seen]
    · refine ⟨[.start i pc], (s.load i).note i (imageBand pc), by simp [BandAct.owner], ?_,
        by simp [BandState.note], ?_⟩
      · rw [Runs.runFrom, first, BandState.started, if_neg low, if_neg lowers]
        rfl
      · rw [if_neg low, if_neg lowers, ← shared]
        rfl

end OpenHypervisor
