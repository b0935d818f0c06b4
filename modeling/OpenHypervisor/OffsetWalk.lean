import OpenHypervisor.Library.Ledger
import OpenHypervisor.Library.ProbeTable
import OpenHypervisor.Library.Search
import OpenHypervisor.OffsetProbe

/-!
# The call graph walk of the offset probe

`walk_from` follows the B and BL edges of the mapped text from a seed and collects what
the bodies it scans hold: the offsets of their loads and stores, the small values moved to
w0 and the numbers their traps are taken with.
-/

set_option autoImplicit false

namespace OpenHypervisor.OffsetProbe

open ProbeTable Search

/-! ## The tables -/

abbrev Offsets := List (BitVec 64 × BitVec 8)

def maxOffs : Nat := 8192

def offsAdd (t : Offsets) (off : BitVec 64) (width : BitVec 8) : Offsets :=
  Ledger.add Prod.fst maxOffs t (off, width)

def maxHits : Nat := 256

def pushHit (hits : List (BitVec 64)) (v : BitVec 64) : List (BitVec 64) :=
  Ledger.add id maxHits hits v

def visSlots : Nat := 16384

structure Visited where
  tab : Nat → BitVec 64
  nodes : Nat

def visReset : Visited := ⟨fun _ => 0, 0⟩

def visHash (a : BitVec 64) : Nat :=
  ((((a >>> 2) * 0x9e3779b97f4a7c15#64) >>> 50) &&& 0x3fff#64).toNat

/-- `none`: every slot holds another address and the loop goes round. -/
def visSeen (v : Visited) (a : BitVec 64) : Option (Bool × Visited) :=
  (seek 0 visSlots v.tab a visSlots (visHash a)).map fun i =>
    if v.tab i ≠ 0 then (true, v)
    else if v.nodes < visSlots / 2 then (false, ⟨Function.update v.tab i a, v.nodes + 1⟩)
    else (false, v)

/-! ## The walk -/

/-- The mapped text: `word` is what four bytes at an address hold. -/
structure Image where
  word : BitVec 64 → BitVec 32
  textLo : BitVec 64
  textHi : BitVec 64
  hvtrap : BitVec 64
  based : textLo ≠ 0

/-- What a walk collects: `out`, `g_traps`, `g_strb` and `g_w0`. -/
structure Tables where
  out : Offsets := []
  traps : List (BitVec 64) := []
  strb : List (BitVec 64) := []
  w0 : List (BitVec 64) := []

structure Probe where
  vis : Visited := visReset
  tables : Tables := {}

abbrev Walk := Work (BitVec 64) Probe

def stackMax : Nat := 4096
def maxDepth : Nat := 6
def maxNodes : Nat := 12000
def nodeMax : Nat := 6144

/-- Where the decoder's shift has no value the kind and the register have one, and the walk
looks at no more: `hw` is not zero there. -/
def insnOf (w : BitVec 32) : Insn :=
  (decode w).getD { kind := .movz, rt := (w &&& 31).setWidth 8 }

variable (img : Image)

def enqueue (tgt : BitVec 64) (depth : Nat) (s : Walk) : Option Walk :=
  if depth > maxDepth then some s
  else if tgt < img.textLo ∨ tgt ≥ img.textHi then some s
  else if s.stack.length ≥ stackMax then some s
  else (visSeen s.store.vis tgt).map fun answer =>
    if answer.1 then { s with store := { s.store with vis := answer.2 } }
    else ⟨⟨tgt, depth⟩ :: s.stack, { s.store with vis := answer.2 }⟩

def offsetOf (ins : Insn) : Option (BitVec 64) :=
  if 0 ≤ ins.imm.toInt ∧ ins.imm.toInt ≤ 0x8000 ∧ ins.imm.toNat % ins.size.toNat = 0 then
    some (ins.imm.signExtend 64)
  else none

def recordAccess (ins : Insn) (t : Tables) : Tables :=
  let t := match offsetOf ins with
    | some off => { t with out := offsAdd t.out off ins.size }
    | none => t
  if ins.kind = .str ∧ ins.size = 1 then { t with strb := pushHit t.strb (ins.imm.signExtend 64) }
  else t

/-- `last_movz_w0` and `junk`. -/
structure Cursor where
  lastMovzW0 : Option Nat := none
  junk : Nat := 0

def wordAt (a : BitVec 64) (i : Nat) : BitVec 32 := img.word (a + BitVec.ofNat 64 i)

/-- The number the last move to w0 leaves there is that of the trap. -/
def takeTrap (a : BitVec 64) (cur : Cursor) (t : Tables) : Tables :=
  match cur.lastMovzW0 with
  | some j => { t with traps := pushHit t.traps ((insnOf (wordAt img a j)).imm.signExtend 64) }
  | none => t

def target (a : BitVec 64) (i : Nat) : BitVec 64 :=
  a + BitVec.ofNat 64 i + BitVec.ofInt 64 (branchOff (wordAt img a i))

def collect (f : Tables → Tables) (s : Walk) : Walk :=
  { s with store := { s.store with tables := f s.store.tables } }

/-- One turn of the scan, with no cursor where it goes to the next node. -/
def look (e : Entry (BitVec 64)) (i : Nat) (cur : Cursor) (s : Walk) :
    Option (Option Cursor × Walk) :=
  let w := wordAt img e.node i
  let ins := insnOf w
  match ins.kind with
  | .ldr | .str | .ldur | .stur =>
      some (some { cur with junk := 0 }, collect (recordAccess ins) s)
  | .movz =>
      if ins.rt = 0 ∧ (w >>> 21) &&& 3 = 0 then
        some (some ⟨some i, 0⟩, collect (fun t =>
          if 0 ≤ ins.imm.toInt ∧ ins.imm.toInt ≤ 255 then
            { t with w0 := pushHit t.w0 (ins.imm.signExtend 64) }
          else t) s)
      else some (some { cur with junk := 0 }, s)
  | .movk | .unk => some (some { cur with junk := cur.junk + 1 }, s)
  | .svc => some (some { cur with junk := 0 }, collect (takeTrap img e.node cur) s)
  | .bl =>
      (enqueue img (target img e.node i) (e.depth + 1) (collect (fun t =>
        if target img e.node i = img.hvtrap then takeTrap img e.node cur t else t) s)).map
          fun s => (some { cur with junk := 0 }, s)
  | .b => (enqueue img (target img e.node i) (e.depth + 1) s).map fun s => (none, s)
  | .ret | .retab => some (none, s)

/-- The scan from byte `i` on, `left` words before the end of the node. -/
def scanFrom (e : Entry (BitVec 64)) : Nat → Nat → Cursor → Walk → Option Walk
  | 0, _, _, s => some s
  | left + 1, i, cur, s =>
      if cur.junk < 320 then
        (look img e i cur s).bind fun turn =>
          match turn.1 with
          | some cur => scanFrom e left (i + 4) cur turn.2
          | none => some turn.2
      else some s

def scan (e : Entry (BitVec 64)) (s : Walk) : Option Walk :=
  scanFrom img e (nodeMax / 4) 0 {} s

def under (p : Probe) : Bool := p.vis.nodes ≤ maxNodes

def walkFrom (fuel : Nat) (start : BitVec 64) (p : Probe) : Option Probe :=
  (enqueue img start 0 ⟨[], { p with vis := visReset }⟩).bind fun s =>
    (drain under (scan img) fuel s).map Work.store

def scanned (fuel : Nat) (start : BitVec 64) (p : Probe) : List (Entry (BitVec 64)) :=
  match enqueue img start 0 ⟨[], { p with vis := visReset }⟩ with
  | some s => visits under (scan img) fuel s
  | none => []

end OpenHypervisor.OffsetProbe
