import OpenHypervisor.OffsetEvidence

/-!
# The report of the offset probe

What `rule_offsets` and `main` make of the walks once the framework is loaded: each pinned
constant is matched by what a walk collects, found elsewhere in the text or missing, and the
exit status says whether one is missing.
-/

set_option autoImplicit false

namespace OpenHypervisor.OffsetProbe

open Search Ledger

/-! ## The pins -/

structure Pin where
  name : String
  val : BitVec 64

def pinsConfig : List Pin :=
  [⟨"granule", 0x14⟩, ⟨"el2", 24⟩, ⟨"vhe", 25⟩, ⟨"isa", 28⟩]

def pinsRegs : List Pin :=
  [⟨"x0", 0x008⟩, ⟨"fp", 0x0f0⟩, ⟨"lr", 0x0f8⟩, ⟨"sp", 0x100⟩, ⟨"pc", 0x108⟩, ⟨"cpsr", 0x110⟩]

def pinsRo : List Pin :=
  [⟨"ver", 0x4000⟩, ⟨"exit_reason", 0x4008⟩, ⟨"esr", 0x400c⟩, ⟨"instr", 0x4010⟩,
    ⟨"far", 0x4018⟩, ⟨"hpfar", 0x4020⟩, ⟨"controls_mirror", 0x4028⟩, ⟨"state_valid", 0x4100⟩,
    ⟨"state_dirty", 0x4108⟩, ⟨"state_used", 0x4110⟩]

def pinsTraps : List Pin :=
  [⟨"capabilities", 0⟩, ⟨"vm_create", 1⟩, ⟨"vm_destroy", 2⟩, ⟨"vm_map", 3⟩, ⟨"vm_unmap", 4⟩,
    ⟨"vm_protect", 5⟩, ⟨"vcpu_create", 6⟩, ⟨"vcpu_destroy", 7⟩, ⟨"sysregs_sync", 8⟩,
    ⟨"vcpu_run", 9⟩, ⟨"run_cancel", 10⟩, ⟨"set_address_space", 11⟩, ⟨"as_create", 12⟩,
    ⟨"invalidate_tlb", 13⟩, ⟨"stage1_tlb", 14⟩, ⟨"set_svcr", 15⟩, ⟨"amx_prepare", 16⟩,
    ⟨"monitor_data_abort", 17⟩]

def setters : List String :=
  ["_hv_vm_config_set_vhe_enabled", "hv_vm_config_set_el2_enabled", "_hv_vm_config_set_isa",
    "hv_vm_config_set_ipa_granule", "hv_vm_config_set_ipa_size"]

def seedsRo : List String :=
  ["__hv_vcpu_get_context", "hv_vcpu_get_exec_time", "hv_vcpus_exit",
    "hv_vcpu_get_pending_interrupt", "hv_vcpu_set_pending_interrupt"]

def entry : List String :=
  ["hv_vm_create", "hv_vm_map", "hv_vm_unmap", "hv_vm_protect", "hv_vcpu_create",
    "hv_vcpu_destroy", "hv_vcpu_run", "__hv_vcpu_get_context", "hv_vm_get_max_vcpu_count",
    "hv_vm_config_get_max_ipa_size", "hv_vm_destroy"]

def seedsTraps : List String :=
  ["hv_vcpus_exit", "hv_vcpu_invalidate_tlb", "__hv_vm_stage1_tlb_op",
    "__hv_vcpu_set_control_field", "__hv_vcpu_get_control_field", "__hv_vcpu_amx_prepare",
    "__hv_vm_space_create", "__hv_vm_map_space", "hv_vcpu_set_sme_state",
    "hv_vcpu_get_sme_z_reg"]

/-! ## The source -/

structure Report where
  findings : Nat := 0
  mismatches : Nat := 0
  misses : Nat := 0
  indirects : Nat := 0
  deriving DecidableEq

def verdict (pr : Pin) (found : Bool) (got : BitVec 64) (r : Report) : Report :=
  let r := { r with findings := r.findings + 1 }
  if !found then { r with misses := r.misses + 1 }
  else if got ≠ pr.val then { r with mismatches := r.mismatches + 1 }
  else r

/-- `g_global` and `g_movz`. -/
structure Global where
  built : Bool := false
  offs : Offsets := []
  movz : List (BitVec 64) := []

/-- What the report keeps between its rules; `out` is a rule's own. -/
structure Run where
  report : Report := {}
  global : Global := {}
  tables : Tables := {}

variable (img : Image) (sym : String → Option (BitVec 64)) (fuel : Nat)

def scanWord (g : Global) (i : Nat) : Global :=
  let w := wordAt img img.textLo i
  let ins := insnOf w
  let g := if isAccess ins.kind then
      match offsetOf ins with
      | some off => { g with offs := offsAdd g.offs off ins.size }
      | none => g
    else g
  if w &&& 0x7f800000 = 0x52800000 ∧ (w >>> 29) &&& 3 = 2 ∧ (w >>> 21) &&& 3 = 0 then
    { g with movz := pushHit g.movz (((w >>> 5) &&& 0xffff).setWidth 64) }
  else g

def textWords : List Nat :=
  (List.range ((img.textHi - img.textLo).toNat / 4)).map fun k => k * 4

def ensureGlobal (g : Global) : Global :=
  if g.built then g else (textWords img).foldl (scanWord img) { g with built := true }

def walkSeed (run : Run) (name : String) : Option Run :=
  match sym name with
  | some a => (walkFrom img fuel a { tables := run.tables }).map fun p =>
      { run with tables := p.tables }
  | none => some run

def walkSeeds (names : List String) (run : Run) : Option Run :=
  names.foldlM (walkSeed img sym fuel) run

def rulePin (run : Run) (pin : Pin) : Run :=
  if pin.val ∈ run.tables.out.map Prod.fst then
    { run with report := verdict pin true pin.val run.report }
  else
    let g := ensureGlobal img run.global
    if pin.val ∈ g.offs.map Prod.fst ∨ pin.val ∈ g.movz then
      { run with
        global := g
        report := { run.report with
          findings := run.report.findings + 1
          indirects := run.report.indirects + 1 } }
    else { run with global := g, report := verdict pin false 0 run.report }

def ruleOffsets (name : String) (pins : List Pin) (extra : List String) (run : Run) :
    Option Run :=
  (walkSeeds img sym fuel (name :: extra) { run with tables := { run.tables with out := [] } }).map
    fun run => pins.foldl (rulePin img) run

def checkConfig (run : Run) : Option Run :=
  (walkSeeds img sym fuel setters
    { run with tables := { run.tables with out := [], strb := [] } }).map fun run =>
      pinsConfig.foldl (fun run pin => { run with
        report := verdict pin (pin.val ∈ run.tables.out.map Prod.fst) pin.val run.report }) run

def checkTraps (run : Run) : Option Run :=
  (walkSeeds img sym fuel (entry ++ seedsTraps)
    { run with tables := { run.tables with out := [], w0 := [], traps := [] } }).map fun run =>
      pinsTraps.foldl (fun run pin => { run with
        report := verdict pin (pin.val ∈ run.tables.w0 ∨ pin.val ∈ run.tables.traps) pin.val
          run.report }) run

/-- What `main` checks of the text. -/
def rules : Option Run :=
  (checkConfig img sym fuel {}).bind fun run =>
  (ruleOffsets img sym fuel "hv_vcpu_get_reg" pinsRegs [] run).bind fun run =>
  (ruleOffsets img sym fuel "hv_vcpu_set_reg" pinsRegs [] run).bind fun run =>
  (ruleOffsets img sym fuel "hv_vcpu_run" pinsRo seedsRo run).bind fun run =>
  (ruleOffsets img sym fuel "hv_vcpu_get_sys_reg" [] [] run).bind fun run =>
  checkTraps img sym fuel run

def exitStatus (r : Report) : Nat := if r.mismatches ≠ 0 ∨ r.misses ≠ 0 then 1 else 0

def paths : List String :=
  ["/System/Library/Frameworks/Hypervisor.framework/Hypervisor",
    "/System/Library/Frameworks/Hypervisor.framework/Versions/A/Hypervisor"]

structure LoadCommand where
  cmd : BitVec 32
  segname : String
  vmaddr : BitVec 64
  vmsize : BitVec 64

def lcSegment64 : BitVec 32 := 0x19

/-- `text_vm` and `text_sz`. -/
def textSegment (commands : List LoadCommand) : BitVec 64 × BitVec 64 :=
  commands.foldl (fun found lc =>
    if lc.cmd = lcSegment64 ∧ lc.segname = "__TEXT" then (lc.vmaddr, lc.vmsize) else found) (0, 0)

/-- What the loader answers, and the memory it maps.  `dladdr` answers with the base of the
image an address lies in. -/
structure Loader where
  dlopen : String → Bool
  sym : String → Option (BitVec 64)
  dladdr : BitVec 64 → Option { base : BitVec 64 // base ≠ 0 }
  commands : BitVec 64 → List LoadCommand
  word : BitVec 64 → BitVec 32
  hvtrap : BitVec 64

/-- The text between `g_text_lo` and `g_text_hi`; none where `main` gives up. -/
def Loader.image (l : Loader) : Option Image :=
  if paths.any l.dlopen then
    (l.sym "hv_vm_create").bind fun any =>
      (l.dladdr any).map fun fbase : { base : BitVec 64 // base ≠ 0 } =>
        let text := textSegment (l.commands fbase.val)
        let slide := fbase.val - text.1
        { word := l.word
          textLo := text.1 + slide
          textHi := text.1 + slide + text.2
          hvtrap := l.hvtrap
          based := by
            show text.1 + (fbase.val - text.1) ≠ 0
            rw [BitVec.add_comm, BitVec.sub_add_cancel]
            exact fbase.property }
  else none

/-- The exit status and the counts it goes with. -/
def main (l : Loader) : Option (Nat × Report) :=
  match l.image with
  | none => some (2, {})
  | some img => (rules img l.sym fuel).map fun run => (exitStatus run.report, run.report)

/-! ## The tables of a rule -/

def logOf (names : List String) : List (Entry (BitVec 64)) :=
  names.flatMap fun name =>
    match sym name with
    | some a => scanned img fuel a {}
    | none => []

variable {img sym fuel}

theorem walkSeed_eq {run run' : Run} {name : String}
    (walked : walkSeed img sym fuel run name = some run') :
    run' = { run with tables := run.tables.afterAll img (logOf img sym fuel [name]) } := by
  rw [walkSeed] at walked
  rw [logOf, List.flatMap_cons, List.flatMap_nil, List.append_nil]
  cases found : sym name with
  | none =>
      rw [found] at walked
      cases walked
      rfl
  | some a =>
      rw [found] at walked
      obtain ⟨p, walk, same⟩ := Option.map_eq_some_iff.mp walked
      cases same
      rw [walk_tables img a _ p fuel walk, scanned_fresh]

theorem walkSeeds_eq {names : List String} {run run' : Run}
    (walked : walkSeeds img sym fuel names run = some run') :
    run' = { run with tables := run.tables.afterAll img (logOf img sym fuel names) } := by
  induction names generalizing run with
  | nil =>
      cases walked
      rfl
  | cons name rest ih =>
      obtain ⟨middle, first, later⟩ := Option.bind_eq_some_iff.mp walked
      rw [ih later, walkSeed_eq first]
      simp only [logOf, List.flatMap_cons, List.flatMap_nil, List.append_nil, Tables.afterAll,
        List.foldl_append]

variable (img sym) in
theorem walkSeeds_returns (enough : (nodeMax / 4 + 1) ^ maxDepth < fuel) (names : List String)
    (run : Run) : ∃ run', walkSeeds img sym fuel names run = some run' := by
  induction names generalizing run with
  | nil => exact ⟨run, rfl⟩
  | cons name rest ih =>
      have first : ∃ middle, walkSeed img sym fuel run name = some middle := by
        rw [walkSeed]
        cases sym name with
        | none => exact ⟨run, rfl⟩
        | some a =>
            obtain ⟨s, fin, -, -, walk, -⟩ := walk_ends img a { tables := run.tables } fuel enough
            simp only [walk]
            exact ⟨_, rfl⟩
      obtain ⟨middle, first⟩ := first
      obtain ⟨run', later⟩ := ih middle
      refine ⟨run', ?_⟩
      rw [walkSeeds, List.foldlM_cons, first]
      exact later

/-! ## The verdicts -/

inductive Verdict where
  | direct
  | indirect
  | missing
  deriving DecidableEq

def Report.count (r : Report) : Verdict → Report
  | .direct => { r with findings := r.findings + 1 }
  | .indirect => { r with findings := r.findings + 1, indirects := r.indirects + 1 }
  | .missing => { r with findings := r.findings + 1, misses := r.misses + 1 }

/-- A constant that is found is found at its pinned value, so none ever drifts. -/
theorem verdict_eq (pr : Pin) (found : Bool) (r : Report) :
    verdict pr found pr.val r = r.count (if found then .direct else .missing) := by
  cases found
  · rfl
  · simp only [verdict, Report.count, Bool.not_true, Bool.false_eq_true, if_false, ne_eq,
      not_true_eq_false, if_true]

theorem count_foldl (vs : List Verdict) (r : Report) :
    (vs.foldl Report.count r).findings = r.findings + vs.length ∧
      (vs.foldl Report.count r).mismatches = r.mismatches ∧
      (vs.foldl Report.count r).misses = r.misses + vs.count .missing ∧
      (vs.foldl Report.count r).indirects = r.indirects + vs.count .indirect := by
  induction vs generalizing r with
  | nil => exact ⟨rfl, rfl, rfl, rfl⟩
  | cons v rest ih =>
      obtain ⟨findings, mismatches, misses, indirects⟩ := ih (r.count v)
      rw [List.foldl_cons, findings, mismatches, misses, indirects, List.length_cons,
        List.count_cons, List.count_cons]
      cases v <;> simp [Report.count] <;> omega

def classify (out : Offsets) (g : Global) (pin : Pin) : Verdict :=
  if pin.val ∈ out.map Prod.fst then .direct
  else if pin.val ∈ g.offs.map Prod.fst ∨ pin.val ∈ g.movz then .indirect
  else .missing

/-- The whole-text tables are not built yet, or they are those of this text. -/
def Settled (img : Image) (g : Global) : Prop := ensureGlobal img g = ensureGlobal img {}

theorem scanWord_built (g : Global) (words : List Nat) :
    (words.foldl (scanWord img) g).built = g.built := by
  induction words generalizing g with
  | nil => rfl
  | cons i rest ih =>
      rw [List.foldl_cons, ih, scanWord]
      cases offsetOf (insnOf (wordAt img img.textLo i)) <;> split <;> split <;> rfl

theorem settled_ensure {g : Global} (settled : Settled img g) :
    Settled img (ensureGlobal img g) := by
  rw [Settled, settled]
  have built : (ensureGlobal img {}).built = true := scanWord_built _ _
  exact if_pos built

theorem rulePin_eq {run : Run} (settled : Settled img run.global) (pin : Pin) :
    (rulePin img run pin).tables = run.tables ∧ Settled img (rulePin img run pin).global ∧
      (rulePin img run pin).report =
        run.report.count (classify run.tables.out (ensureGlobal img {}) pin) := by
  rw [rulePin, classify]
  by_cases direct : pin.val ∈ run.tables.out.map Prod.fst
  · rw [if_pos direct, if_pos direct]
    exact ⟨rfl, settled, verdict_eq pin true run.report⟩
  · rw [if_neg direct, if_neg direct]
    simp only [Settled] at settled
    simp only [settled]
    by_cases indirect : pin.val ∈ (ensureGlobal img {}).offs.map Prod.fst ∨
        pin.val ∈ (ensureGlobal img {}).movz
    · rw [if_pos indirect, if_pos indirect]
      exact ⟨rfl, settled_ensure rfl, rfl⟩
    · rw [if_neg indirect, if_neg indirect]
      exact ⟨rfl, settled_ensure rfl, rfl⟩

theorem rulePins_eq (run : Run) (settled : Settled img run.global) (pins : List Pin) :
    (pins.foldl (rulePin img) run).tables = run.tables ∧
      Settled img (pins.foldl (rulePin img) run).global ∧
      (pins.foldl (rulePin img) run).report =
        (pins.map (classify run.tables.out (ensureGlobal img {}))).foldl Report.count
          run.report := by
  induction pins generalizing run with
  | nil => exact ⟨rfl, settled, rfl⟩
  | cons pin rest ih =>
      obtain ⟨tables, settled', report⟩ := rulePin_eq settled pin
      obtain ⟨tables', settled'', report'⟩ := ih _ settled'
      refine ⟨tables'.trans tables, settled'', ?_⟩
      rw [List.foldl_cons, report', report, tables]
      rfl

variable (img sym fuel)

def ruleVerdicts (names : List String) (pins : List Pin) : List Verdict :=
  pins.map (classify (addAll Prod.fst maxOffs [] (outOf img (logOf img sym fuel names)))
    (ensureGlobal img {}))

def plainVerdicts (found : Pin → Bool) (pins : List Pin) : List Verdict :=
  pins.map fun pin => if found pin then .direct else .missing

def configVerdicts : List Verdict :=
  plainVerdicts (fun pin => pin.val ∈ (addAll Prod.fst maxOffs []
    (outOf img (logOf img sym fuel setters))).map Prod.fst) pinsConfig

def trapVerdicts : List Verdict :=
  plainVerdicts (fun pin =>
    pin.val ∈ addAll id maxHits [] (w0Of img (logOf img sym fuel (entry ++ seedsTraps))) ∨
      pin.val ∈ addAll id maxHits [] (trapsOf img (logOf img sym fuel (entry ++ seedsTraps))))
    pinsTraps

def verdicts : List Verdict :=
  configVerdicts img sym fuel ++
    (ruleVerdicts img sym fuel ["hv_vcpu_get_reg"] pinsRegs ++
      (ruleVerdicts img sym fuel ["hv_vcpu_set_reg"] pinsRegs ++
        (ruleVerdicts img sym fuel ("hv_vcpu_run" :: seedsRo) pinsRo ++
          trapVerdicts img sym fuel)))

variable {img sym fuel}

theorem ruleOffsets_eq {name : String} {pins : List Pin} {extra : List String} {run run' : Run}
    (settled : Settled img run.global)
    (ran : ruleOffsets img sym fuel name pins extra run = some run') :
    Settled img run'.global ∧ run'.report =
      (ruleVerdicts img sym fuel (name :: extra) pins).foldl Report.count run.report := by
  obtain ⟨middle, walked, same⟩ := Option.map_eq_some_iff.mp ran
  have tables := walkSeeds_eq walked
  subst tables
  cases same
  obtain ⟨-, settled', report⟩ := rulePins_eq { run with
    tables := Tables.afterAll img { run.tables with out := [] } _ } settled pins
  refine ⟨settled', ?_⟩
  rw [report, ruleVerdicts, afterAll_out]

theorem plainPins_eq (found : Tables → Pin → Bool) (pins : List Pin) (run : Run) :
    pins.foldl (fun run pin => { run with
      report := verdict pin (found run.tables pin) pin.val run.report }) run =
        { run with report :=
            (plainVerdicts (found run.tables) pins).foldl Report.count run.report } := by
  induction pins generalizing run with
  | nil => rfl
  | cons pin rest ih =>
      rw [List.foldl_cons, ih, verdict_eq]
      rfl

theorem checkConfig_eq {run run' : Run} (ran : checkConfig img sym fuel run = some run') :
    run'.global = run.global ∧
      run'.report = (configVerdicts img sym fuel).foldl Report.count run.report := by
  obtain ⟨middle, walked, same⟩ := Option.map_eq_some_iff.mp ran
  have tables := walkSeeds_eq walked
  subst tables
  rw [plainPins_eq fun t pin => decide (pin.val ∈ t.out.map Prod.fst)] at same
  subst same
  refine ⟨rfl, ?_⟩
  rw [afterAll_out]
  rfl

theorem checkTraps_eq {run run' : Run} (ran : checkTraps img sym fuel run = some run') :
    run'.report = (trapVerdicts img sym fuel).foldl Report.count run.report := by
  obtain ⟨middle, walked, same⟩ := Option.map_eq_some_iff.mp ran
  have tables := walkSeeds_eq walked
  subst tables
  rw [plainPins_eq fun t pin => decide (pin.val ∈ t.w0 ∨ pin.val ∈ t.traps)] at same
  subst same
  rw [afterAll_w0, afterAll_traps]
  rfl

theorem ruleVerdicts_nil (names : List String) : ruleVerdicts img sym fuel names [] = [] := rfl

theorem rules_eq {run : Run} (ran : rules img sym fuel = some run) :
    run.report = (verdicts img sym fuel).foldl Report.count {} := by
  obtain ⟨r₁, config, ran⟩ := Option.bind_eq_some_iff.mp ran
  obtain ⟨r₂, getReg, ran⟩ := Option.bind_eq_some_iff.mp ran
  obtain ⟨r₃, setReg, ran⟩ := Option.bind_eq_some_iff.mp ran
  obtain ⟨r₄, ro, ran⟩ := Option.bind_eq_some_iff.mp ran
  obtain ⟨r₅, ctx, traps⟩ := Option.bind_eq_some_iff.mp ran
  obtain ⟨global, report₁⟩ := checkConfig_eq config
  have settled : Settled img r₁.global := by rw [global, Settled]
  obtain ⟨settled, report₂⟩ := ruleOffsets_eq settled getReg
  obtain ⟨settled, report₃⟩ := ruleOffsets_eq settled setReg
  obtain ⟨settled, report₄⟩ := ruleOffsets_eq settled ro
  obtain ⟨-, report₅⟩ := ruleOffsets_eq settled ctx
  rw [checkTraps_eq traps, report₅, report₄, report₃, report₂, report₁, ruleVerdicts_nil, verdicts,
    List.foldl_append, List.foldl_append, List.foldl_append, List.foldl_append]
  rfl

variable (img sym) in
theorem ruleOffsets_returns (enough : (nodeMax / 4 + 1) ^ maxDepth < fuel) (name : String)
    (pins : List Pin) (extra : List String) (run : Run) :
    ∃ run', ruleOffsets img sym fuel name pins extra run = some run' := by
  obtain ⟨walked, returned⟩ := walkSeeds_returns img sym enough
    (name :: extra) { run with tables := { run.tables with out := [] } }
  rw [ruleOffsets, returned]
  exact ⟨_, rfl⟩

variable (img sym) in
theorem rules_returns (enough : (nodeMax / 4 + 1) ^ maxDepth < fuel) :
    ∃ run, rules img sym fuel = some run := by
  obtain ⟨w₁, config⟩ := walkSeeds_returns img sym enough setters {}
  obtain ⟨r₁, checked⟩ : ∃ r₁, checkConfig img sym fuel {} = some r₁ := by
    rw [checkConfig, config]
    exact ⟨_, rfl⟩
  obtain ⟨r₂, getReg⟩ := ruleOffsets_returns img sym enough "hv_vcpu_get_reg"
    pinsRegs [] r₁
  obtain ⟨r₃, setReg⟩ := ruleOffsets_returns img sym enough "hv_vcpu_set_reg"
    pinsRegs [] r₂
  obtain ⟨r₄, ro⟩ := ruleOffsets_returns img sym enough "hv_vcpu_run"
    pinsRo seedsRo r₃
  obtain ⟨r₅, ctx⟩ := ruleOffsets_returns img sym enough "hv_vcpu_get_sys_reg"
    [] [] r₄
  obtain ⟨w₆, walked⟩ := walkSeeds_returns img sym enough (entry ++ seedsTraps)
    { r₅ with tables := { r₅.tables with out := [], w0 := [], traps := [] } }
  obtain ⟨r₆, traps⟩ : ∃ r₆, checkTraps img sym fuel r₅ = some r₆ := by
    rw [checkTraps, walked]
    exact ⟨_, rfl⟩
  refine ⟨r₆, ?_⟩
  rw [rules, checked, Option.bind_some, getReg, Option.bind_some, setReg, Option.bind_some, ro,
    Option.bind_some, ctx, Option.bind_some, traps]

theorem exitStatus_eq {run : Run} (ran : rules img sym fuel = some run) :
    exitStatus run.report = if .missing ∈ verdicts img sym fuel then 1 else 0 := by
  obtain ⟨-, mismatches, misses, -⟩ := count_foldl (verdicts img sym fuel) {}
  rw [← rules_eq ran] at mismatches misses
  have none : run.report.mismatches = 0 := mismatches
  have counted : run.report.misses = (verdicts img sym fuel).count .missing := by
    rw [misses]
    exact Nat.zero_add _
  have test : run.report.mismatches ≠ 0 ∨ run.report.misses ≠ 0 ↔
      .missing ∈ verdicts img sym fuel := by
    rw [none, counted, or_iff_right fun drift => drift rfl, ne_eq, List.count_eq_zero, not_not]
  exact if_congr test rfl rfl

/-- The rules end on every text with a finding for each pin and no drift. -/
theorem rules_account (img : Image) (sym : String → Option (BitVec 64)) (fuel : Nat)
    (enough : (nodeMax / 4 + 1) ^ maxDepth < fuel) :
    ∃ run, rules img sym fuel = some run ∧ run.report.findings = 44 ∧
      run.report.mismatches = 0 ∧ run.report.misses + run.report.indirects ≤ 44 := by
  obtain ⟨run, ran⟩ := rules_returns img sym enough
  have total : (verdicts img sym fuel).length = 44 := by
    simp only [verdicts, configVerdicts, trapVerdicts, plainVerdicts, ruleVerdicts,
      List.length_append, List.length_map]
    rfl
  obtain ⟨findings, mismatches, misses, indirects⟩ := count_foldl (verdicts img sym fuel) {}
  rw [← rules_eq ran] at findings mismatches misses indirects
  refine ⟨run, ran, ?_, mismatches, ?_⟩
  · rw [findings, total]
  · have apart : (verdicts img sym fuel).count .missing + (verdicts img sym fuel).count .indirect ≤
        (verdicts img sym fuel).length := by
      generalize verdicts img sym fuel = vs
      induction vs with
      | nil => exact Nat.le_refl 0
      | cons v rest ih =>
          rw [List.count_cons, List.count_cons, List.length_cons]
          cases v <;> simp <;> omega
    have zero : ({} : Report).misses = 0 ∧ ({} : Report).indirects = 0 := ⟨rfl, rfl⟩
    omega

/-- The probe gives up with 2 where the framework cannot be found, and otherwise ends with a
finding for each pin, no drift, and 1 or 0 as a pin is missing or not. -/
theorem probe_accounts (l : Loader) (fuel : Nat) (enough : (nodeMax / 4 + 1) ^ maxDepth < fuel) :
    ∃ status report, main fuel l = some (status, report) ∧
      (l.image = none → status = 2 ∧ report = {}) ∧
      (l.image ≠ none → report.findings = 44 ∧ report.mismatches = 0 ∧
        report.misses + report.indirects ≤ 44 ∧ status = if report.misses = 0 then 0 else 1) := by
  unfold main
  cases found : l.image with
  | none => exact ⟨2, {}, rfl, fun _ => ⟨rfl, rfl⟩, fun loaded => absurd rfl loaded⟩
  | some img =>
      obtain ⟨run, ran, findings, mismatches, few⟩ := rules_account img l.sym fuel enough
      refine ⟨exitStatus run.report, run.report, ?_, nofun, fun _ =>
        ⟨findings, mismatches, few, ?_⟩⟩
      · show (rules img l.sym fuel).map _ = _
        rw [ran]
        rfl
      · rw [exitStatus, mismatches]
        by_cases all : run.report.misses = 0 <;> simp [all]

/-- A framework that exports `hv_vm_create` and nothing else. -/
def soleExport : Loader where
  dlopen _ := true
  sym name := if name = "hv_vm_create" then some 0x4000 else none
  dladdr _ := some ⟨0x4000, by decide⟩
  commands _ := [⟨lcSegment64, "__TEXT", 0, 0x1000⟩]
  word _ := 0xd65f03c0
  hvtrap := 0

theorem probe_accounts_sole :
    ∃ status report, main ((nodeMax / 4 + 1) ^ maxDepth + 1) soleExport = some (status, report) ∧
      report.findings = 44 ∧ report.mismatches = 0 := by
  obtain ⟨status, report, ended, -, loaded⟩ :=
    probe_accounts soleExport ((nodeMax / 4 + 1) ^ maxDepth + 1) (Nat.lt_succ_self _)
  obtain ⟨findings, mismatches, -⟩ := loaded (Option.some_ne_none _)
  exact ⟨status, report, ended, findings, mismatches⟩

/-! ## What a finding means -/

variable (img sym)

/-- A body that some of these symbols lead to by at most six edges of the text. -/
def Reached (names : List String) (b : BitVec 64) : Prop :=
  ∃ name ∈ names, ∃ a, sym name = some a ∧ img.InText b ∧
    ∃ n ≤ maxDepth, Path (Calls img) a n b

def Accesses (b off : BitVec 64) : Prop :=
  ∃ i ∈ body img b, ∃ width, accessAt img b i = some (off, width)

def Prepares (b v : BitVec 64) : Prop :=
  (∃ i ∈ body img b, w0At img b i = some v) ∨ v ∈ trapNumbers img b none (body img b)

def movzAt (i : Nat) : Option (BitVec 64) :=
  let w := wordAt img img.textLo i
  if w &&& 0x7f800000 = 0x52800000 ∧ (w >>> 29) &&& 3 = 2 ∧ (w >>> 21) &&& 3 = 0 then
    some (((w >>> 5) &&& 0xffff).setWidth 64)
  else none

/-- Some word of the text loads or stores at this offset or moves it. -/
def Mentions (v : BitVec 64) : Prop :=
  ∃ i ∈ textWords img, (∃ width, accessAt img img.textLo i = some (v, width)) ∨
    movzAt img i = some v

/-- Every pin has what a finding stands for. -/
structure Supported : Prop where
  config : ∀ pin ∈ pinsConfig, ∃ b, Reached img sym setters b ∧ Accesses img b pin.val
  getReg : ∀ pin ∈ pinsRegs, (∃ b, Reached img sym ["hv_vcpu_get_reg"] b ∧
    Accesses img b pin.val) ∨ Mentions img pin.val
  setReg : ∀ pin ∈ pinsRegs, (∃ b, Reached img sym ["hv_vcpu_set_reg"] b ∧
    Accesses img b pin.val) ∨ Mentions img pin.val
  ro : ∀ pin ∈ pinsRo, (∃ b, Reached img sym ("hv_vcpu_run" :: seedsRo) b ∧
    Accesses img b pin.val) ∨ Mentions img pin.val
  traps : ∀ pin ∈ pinsTraps, ∃ b, Reached img sym (entry ++ seedsTraps) b ∧
    Prepares img b pin.val

variable {img sym}

theorem reached_of_log (enough : (nodeMax / 4 + 1) ^ maxDepth < fuel) {names : List String}
    {e : Entry (BitVec 64)} (member : e ∈ logOf img sym fuel names) :
    Reached img sym names e.node := by
  obtain ⟨name, named, member⟩ := List.mem_flatMap.mp member
  cases found : sym name with
  | none =>
      rw [found] at member
      cases member
  | some a =>
      rw [found] at member
      obtain ⟨s, fin, -, -, walked, -⟩ := walk_ends img a {} fuel enough
      obtain ⟨shallow, inside, path⟩ := scanned_path img a {} _ fuel walked e member
      exact ⟨name, named, a, found, inside, e.depth, shallow, path⟩

theorem accesses_of_out {log : List (Entry (BitVec 64))} {off : BitVec 64}
    (member : off ∈ (addAll Prod.fst maxOffs [] (outOf img log)).map Prod.fst) :
    ∃ e ∈ log, Accesses img e.node off := by
  obtain ⟨⟨o, width⟩, recorded, same⟩ := List.mem_map.mp member
  cases same
  have offered := (mem_addAll recorded).resolve_left List.not_mem_nil
  obtain ⟨e, scanned, found⟩ := List.mem_flatMap.mp offered
  obtain ⟨i, inBody, access⟩ := List.mem_filterMap.mp found
  exact ⟨e, scanned, i, inBody, width, access⟩

theorem prepares_of_hits {log : List (Entry (BitVec 64))} {v : BitVec 64}
    (member : v ∈ addAll id maxHits [] (w0Of img log) ∨
      v ∈ addAll id maxHits [] (trapsOf img log)) : ∃ e ∈ log, Prepares img e.node v := by
  rcases member with moved | trapped
  · have offered := (mem_addAll moved).resolve_left List.not_mem_nil
    obtain ⟨e, scanned, found⟩ := List.mem_flatMap.mp offered
    obtain ⟨i, inBody, here⟩ := List.mem_filterMap.mp found
    exact ⟨e, scanned, Or.inl ⟨i, inBody, here⟩⟩
  · have offered := (mem_addAll trapped).resolve_left List.not_mem_nil
    obtain ⟨e, scanned, found⟩ := List.mem_flatMap.mp offered
    exact ⟨e, scanned, Or.inr found⟩

theorem scanWord_offs (words : List Nat) (g : Global) :
    (words.foldl (scanWord img) g).offs =
      addAll Prod.fst maxOffs g.offs (words.filterMap (accessAt img img.textLo)) := by
  induction words generalizing g with
  | nil => rfl
  | cons i rest ih =>
      have one : (scanWord img g i).offs =
          addAll Prod.fst maxOffs g.offs (accessAt img img.textLo i).toList := by
        rw [scanWord, accessAt]
        cases offsetOf (insnOf (wordAt img img.textLo i)) <;> split <;> split <;> rfl
      rw [List.foldl_cons, ih, one, List.filterMap_cons]
      cases accessAt img img.textLo i <;> rfl

theorem scanWord_movz (words : List Nat) (g : Global) :
    (words.foldl (scanWord img) g).movz =
      addAll id maxHits g.movz (words.filterMap (movzAt img)) := by
  induction words generalizing g with
  | nil => rfl
  | cons i rest ih =>
      have one : (scanWord img g i).movz = addAll id maxHits g.movz (movzAt img i).toList := by
        rw [scanWord, movzAt]
        cases offsetOf (insnOf (wordAt img img.textLo i)) <;> split <;> split <;> rfl
      rw [List.foldl_cons, ih, one, List.filterMap_cons]
      cases movzAt img i <;> rfl

theorem mentions_of_global {v : BitVec 64}
    (member : v ∈ (ensureGlobal img {}).offs.map Prod.fst ∨ v ∈ (ensureGlobal img {}).movz) :
    Mentions img v := by
  have built : ensureGlobal img {} = (textWords img).foldl (scanWord img) { built := true } := rfl
  rw [built, scanWord_offs, scanWord_movz] at member
  rcases member with offset | moved
  · obtain ⟨⟨o, width⟩, recorded, same⟩ := List.mem_map.mp offset
    cases same
    have offered := (mem_addAll recorded).resolve_left List.not_mem_nil
    obtain ⟨i, inText, access⟩ := List.mem_filterMap.mp offered
    exact ⟨i, inText, Or.inl ⟨width, access⟩⟩
  · have offered := (mem_addAll moved).resolve_left List.not_mem_nil
    obtain ⟨i, inText, moves⟩ := List.mem_filterMap.mp offered
    exact ⟨i, inText, Or.inr moves⟩

theorem rule_supported (enough : (nodeMax / 4 + 1) ^ maxDepth < fuel) {names : List String}
    {pins : List Pin} (all : .missing ∉ ruleVerdicts img sym fuel names pins) :
    ∀ pin ∈ pins,
      (∃ b, Reached img sym names b ∧ Accesses img b pin.val) ∨ Mentions img pin.val := by
  intro pin member
  have given : classify (addAll Prod.fst maxOffs [] (outOf img (logOf img sym fuel names)))
      (ensureGlobal img {}) pin ≠ .missing := by
    intro missing
    exact all (missing ▸ List.mem_map_of_mem member)
  rw [classify] at given
  split at given
  · rename_i direct
    obtain ⟨e, scanned, accesses⟩ := accesses_of_out direct
    exact Or.inl ⟨e.node, reached_of_log enough scanned, accesses⟩
  · split at given
    · rename_i indirect
      exact Or.inr (mentions_of_global indirect)
    · exact absurd rfl given

theorem plain_found {found : Pin → Bool} {pins : List Pin}
    (all : .missing ∉ plainVerdicts found pins) : ∀ pin ∈ pins, found pin = true := by
  intro pin member
  by_contra missing
  refine all (List.mem_map.mpr ⟨pin, member, ?_⟩)
  rw [if_neg missing]

theorem supported_of_verdicts (enough : (nodeMax / 4 + 1) ^ maxDepth < fuel)
    (all : .missing ∉ verdicts img sym fuel) : Supported img sym := by
  simp only [verdicts, List.mem_append, not_or] at all
  obtain ⟨config, getReg, setReg, ro, traps⟩ := all
  refine ⟨?_, rule_supported enough getReg, rule_supported enough setReg,
    rule_supported enough ro, ?_⟩
  · intro pin member
    obtain ⟨e, scanned, accesses⟩ :=
      accesses_of_out (of_decide_eq_true (plain_found config pin member))
    exact ⟨e.node, reached_of_log enough scanned, accesses⟩
  · intro pin member
    obtain ⟨e, scanned, prepares⟩ :=
      prepares_of_hits (of_decide_eq_true (plain_found traps pin member))
    exact ⟨e.node, reached_of_log enough scanned, prepares⟩

/-- Where a pin lacks its support the probe exits with 1. -/
theorem probe_fails_of_unsupported (l : Loader) (fuel : Nat) (img : Image)
    (enough : (nodeMax / 4 + 1) ^ maxDepth < fuel) (loaded : l.image = some img)
    (unsupported : ¬ Supported img l.sym) :
    ∃ report, main fuel l = some (1, report) := by
  obtain ⟨run, ran⟩ := rules_returns img l.sym enough
  have status : exitStatus run.report = 1 := by
    rw [exitStatus_eq ran]
    exact if_pos (by_contra fun all => unsupported (supported_of_verdicts enough all))
  refine ⟨run.report, ?_⟩
  rw [main, loaded]
  show (rules img l.sym fuel).map _ = _
  rw [ran, ← status]
  rfl

theorem probe_fails_of_sole :
    ∃ report, main ((nodeMax / 4 + 1) ^ maxDepth + 1) soleExport = some (1, report) := by
  refine probe_fails_of_unsupported soleExport _ _ (Nat.lt_succ_self _) rfl ?_
  intro supported
  -- no setter of the configuration is exported
  obtain ⟨b, ⟨name, listed, a, found, -⟩, -⟩ := supported.config _ List.mem_cons_self
  have missing : ∀ name ∈ setters, soleExport.sym name = none := by decide
  rw [missing name listed] at found
  cases found

end OpenHypervisor.OffsetProbe
