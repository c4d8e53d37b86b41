import MarvellBoot.UBoot.Lmb.Impl

/-!
Allocation in `lib/lmb.c`: `__lmb_alloc_base` and what it needs.
-/

namespace UBoot.Lmb

def lmbAddrsOverlap (base1 size1 base2 size2 : Nat) : Bool :=
  base1 < Size.add base2 size2 ∧ base2 < Size.add base1 size1

def lmbOverlapsLoop (rgn : LmbRegion) (base size i : Nat) : (left : Nat) → Option Nat
  | 0 => none
  | left + 1 =>
    let p := rgn.region i
    if lmbAddrsOverlap base size p.base p.size then
      some i
    else
      lmbOverlapsLoop rgn base size (i + 1) left

def lmbOverlapsRegion (rgn : LmbRegion) (base size : Nat) : Option Nat := lmbOverlapsLoop rgn base size 0 rgn.cnt

def lmbAlignDown (addr size : Nat) : Nat := addr &&& (2 ^ 64 - 1 - Size.sub size 1)

def lmbAlignUp (addr size : Nat) : Nat := lmbAlignDown (Size.add addr (Size.sub size 1)) size

def lmbAllocAnywhere : Nat := 0

def lmbAllocStart (p : LmbProperty) (size align maxAddr : Nat) : Option Nat :=
  if p.size < size then
    none
  else if maxAddr = lmbAllocAnywhere then
    some (lmbAlignDown (Size.sub (Size.add p.base p.size) size) align)
  else if p.base < maxAddr then
    let base := Size.add p.base p.size
    let base := if base < p.base then 2 ^ 64 - 1 else base
    some (lmbAlignDown (Size.sub (min base maxAddr) size) align)
  else
    none

def lmbAllocSearch (reserved : LmbRegion) (size align lmbbase : Nat) : (fuel base : Nat) → Option (Option Nat)
  | 0, _ => none
  | fuel + 1, base =>
    if base ≠ 0 ∧ lmbbase ≤ base then
      match lmbOverlapsRegion reserved base size with
      | none => some (some base)
      | some j =>
        let resBase := (reserved.region j).base
        if resBase < size then
          some none
        else
          lmbAllocSearch reserved size align lmbbase fuel (lmbAlignDown (Size.sub resBase size) align)
    else
      some none

def lmbAllocTake (lmb : Lmb) (size align base : Nat) : Option (Nat × Lmb) :=
  match lmbAddRegion lmb.reserved base (lmbAlignUp size align) with
  | none => none
  | some (ret, reserved) => if ret < 0 then some (0, { lmb with reserved }) else some (base, { lmb with reserved })

def lmbAllocLoop (lmb : Lmb) (size align maxAddr : Nat) : (left : Nat) → Option (Nat × Lmb)
  | 0 => some (0, lmb)
  | i + 1 =>
    let p := lmb.memory.region i
    match lmbAllocStart p size align maxAddr with
    | none => lmbAllocLoop lmb size align maxAddr i
    | some base =>
      match lmbAllocSearch lmb.reserved size align p.base (base + 1) base with
      | none => none
      | some none => lmbAllocLoop lmb size align maxAddr i
      | some (some base) => lmbAllocTake lmb size align base

def lmbAllocBase (lmb : Lmb) (size align maxAddr : Nat) : Option (Nat × Lmb) :=
  lmbAllocLoop lmb size align maxAddr lmb.memory.cnt

def lmbAlloc (lmb : Lmb) (size align : Nat) : Option (Nat × Lmb) := lmbAllocBase lmb size align lmbAllocAnywhere

end UBoot.Lmb
