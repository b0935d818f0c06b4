import OpenHypervisor.GuestMap

/-!
# The stage-1 walk

`ohv_translate_stage1`: a walk of the guest's own tables, as AT would do it.
The answer is what `PAR_EL1` should read.
-/

set_option autoImplicit false

namespace OpenHypervisor

def ohvParFault : Word := 1

def lowMask (n : Nat) : Word := (1#64 <<< n) - 1

def outputMask : Word := 0x0000fffffffff000#64

/-- `page_bits` for a granule field; TG1 spells the granules in a different
order than TG0 does. -/
def granuleBits (upper : Bool) (tg : BitVec 2) : Option Nat :=
  match upper, tg.toNat with
  | true, 1 => some 14
  | true, 2 => some 12
  | true, 3 => some 16
  | false, 0 => some 12
  | false, 1 => some 16
  | false, 2 => some 14
  | _, _ => none

def walkStart (levelBits vaBits : Nat) : Nat → Nat → Nat
  | 0, _ => 0
  | level + 1, resolved =>
      if resolved + levelBits < vaBits then
        walkStart levelBits vaBits level (resolved + levelBits)
      else level + 1

structure WalkShape where
  pageBits : Nat
  levelBits : Nat
  vaBits : Nat

def WalkShape.index (shape : WalkShape) (va : Word) (shift : Nat) : Word :=
  let bits := if shift + shape.levelBits > shape.vaBits then shape.vaBits - shift
    else shape.levelBits
  (va >>> shift) &&& lowMask bits

/-- A block, or the last level, which is the page itself. -/
def walkLeaf (va next : Word) (shift : Nat) : Word :=
  let mask := lowMask shift
  (next &&& ~~~mask) ||| (va &&& mask &&& outputMask)

/-- The loop, by the levels still below the current one: `3 - level`. -/
def walkStage1 (maps : List MapRecord) (mem : HostMem) (shape : WalkShape) (va : Word) :
    Nat → Word → Word
  | below, table =>
      let shift := shape.pageBits + below * shape.levelBits
      match ohvGuestPtr maps (table + shape.index va shift * 8) 8 with
      | none => ohvParFault
      | some entry =>
          let desc := mem.read64 entry
          if desc &&& 1 = 0 then ohvParFault
          else
            let next := desc &&& outputMask
            match below with
            | 0 => walkLeaf va next shift
            | deeper + 1 =>
                if desc &&& 3 = 1 then walkLeaf va next shift
                else walkStage1 maps mem shape va deeper (next &&& ~~~lowMask shape.pageBits)

def ohvTranslateStage1 (maps : List MapRecord) (mem : HostMem) (s : VcpuSlot) (va : Word) :
    Word :=
  let tcr := s.ctx.banked 2
  if s.ctx.banked 12 &&& 1 = 0 then va &&& outputMask
  else
    let upper := va.getLsbD 63
    let tsz : BitVec 6 := tcr.extractLsb' (if upper then 16 else 0) 6
    let tg : BitVec 2 := tcr.extractLsb' (if upper then 30 else 14) 2
    let ttbr := if upper then s.ctx.banked 1 else s.ctx.banked 0
    match granuleBits upper tg with
    | none => ohvParFault
    | some pageBits =>
        let levelBits := pageBits - 3
        let vaBits := 64 - tsz.toNat
        if vaBits < pageBits ∨ vaBits > 52 then ohvParFault
        else
          let level := walkStart levelBits vaBits 3 pageBits
          walkStage1 maps mem ⟨pageBits, levelBits, vaBits⟩ va (3 - level)
            (ttbr &&& 0x0000fffffffffffe#64 &&& ~~~lowMask pageBits)

end OpenHypervisor
