import MarvellBoot.Lib.Mem

/-!
The tables of logical memory blocks of `lib/lmb.c`. A table is an array with a count, the entries
from the count on keep what they were last set to. Addresses and sizes are below `2 ^ 64`.
-/

namespace UBoot

structure LmbProperty where
  base : Nat
  size : Nat
  deriving Repr, DecidableEq

structure LmbRegion where
  cnt : Nat
  region : Nat → LmbProperty

structure Lmb where
  memory : LmbRegion
  reserved : LmbRegion

def LmbRegion.set (rgn : LmbRegion) (i : Nat) (p : LmbProperty) : LmbRegion :=
  { rgn with region := Function.update rgn.region i p }

namespace Lmb

def maxLmbRegions : Nat := 8

def lmbAddrsAdjacent (base1 size1 base2 size2 : Nat) : Int :=
  if base2 = Size.add base1 size1 then
    1
  else if base1 = Size.add base2 size2 then
    -1
  else
    0

def lmbRegionsAdjacent (rgn : LmbRegion) (r1 r2 : Nat) : Int :=
  let p1 := rgn.region r1
  let p2 := rgn.region r2
  lmbAddrsAdjacent p1.base p1.size p2.base p2.size

def lmbRemoveLoop (rgn : LmbRegion) (i : Nat) : (left : Nat) → LmbRegion
  | 0 => rgn
  | left + 1 => lmbRemoveLoop (rgn.set i (rgn.region (i + 1))) (i + 1) left

-- There is no result when the loop leaves the array.
def lmbRemoveRegion (rgn : LmbRegion) (r : Nat) : Option LmbRegion :=
  let last := Size.sub rgn.cnt 1
  if r < last ∧ maxLmbRegions < last then
    none
  else
    some { lmbRemoveLoop rgn r (last - r) with cnt := last }

def lmbCoalesceRegions (rgn : LmbRegion) (r1 r2 : Nat) : Option LmbRegion :=
  let p := rgn.region r1
  lmbRemoveRegion (rgn.set r1 { p with size := Size.add p.size (rgn.region r2).size }) r2

def lmbInitRegion (rgn : LmbRegion) : LmbRegion := { rgn.set 0 { base := 0, size := 0 } with cnt := 1 }

def lmbInit (lmb : Lmb) : Lmb where
  memory := lmbInitRegion lmb.memory
  reserved := lmbInitRegion lmb.reserved

-- The index the loop is left with, whether an entry has been extended and the table. There is no
-- result when the table has the region already.
def lmbAddLoop (rgn : LmbRegion) (base size i : Nat) : (left : Nat) → Option (Nat × Nat × LmbRegion)
  | 0 => some (i, 0, rgn)
  | left + 1 =>
    let p := rgn.region i
    if p.base = base ∧ p.size = size then
      none
    else
      let adjacent := lmbAddrsAdjacent base size p.base p.size
      if 0 < adjacent then
        some (i, 1, rgn.set i { base := Size.sub p.base size, size := Size.add p.size size })
      else if adjacent < 0 then
        some (i, 1, rgn.set i { p with size := Size.add p.size size })
      else
        lmbAddLoop rgn base size (i + 1) left

def lmbInsertLoop (rgn : LmbRegion) (base size : Nat) : (left : Nat) → LmbRegion
  | 0 => rgn
  | i + 1 =>
    if base < (rgn.region i).base then
      lmbInsertLoop (rgn.set (i + 1) (rgn.region i)) base size i
    else
      rgn.set (i + 1) { base, size }

def lmbInsert (rgn : LmbRegion) (base size : Nat) : LmbRegion :=
  let res := lmbInsertLoop rgn base size rgn.cnt
  let res := if base < (res.region 0).base then res.set 0 { base, size } else res
  { res with cnt := Size.add rgn.cnt 1 }

def lmbAddRegion (rgn : LmbRegion) (base size : Nat) : Option (Int × LmbRegion) :=
  if rgn.cnt = 1 ∧ (rgn.region 0).size = 0 then
    some (0, rgn.set 0 { base, size })
  else
    match lmbAddLoop rgn base size 0 rgn.cnt with
    | none => some (0, rgn)
    | some (i, coalesced, rgn) =>
      if i < Size.sub rgn.cnt 1 ∧ lmbRegionsAdjacent rgn i (i + 1) ≠ 0 then
        (lmbCoalesceRegions rgn i (i + 1)).map fun rgn => ((coalesced + 1 : Nat), rgn)
      else if coalesced ≠ 0 then
        some (coalesced, rgn)
      else if maxLmbRegions ≤ rgn.cnt then
        some (-1, rgn)
      else
        some (0, lmbInsert rgn base size)

def lmbFreeLoop (rgn : LmbRegion) (base stop i : Nat) : (left : Nat) → Option Nat
  | 0 => none
  | left + 1 =>
    let p := rgn.region i
    if p.base ≤ base ∧ stop ≤ Size.add p.base p.size then
      some i
    else
      lmbFreeLoop rgn base stop (i + 1) left

def lmbFreeRegion (rgn : LmbRegion) (base size : Nat) : Option (Int × LmbRegion) :=
  let stop := Size.add base size
  match lmbFreeLoop rgn base stop 0 rgn.cnt with
  | none => some (-1, rgn)
  | some i =>
    let p := rgn.region i
    let rgnend := Size.add p.base p.size
    if p.base = base ∧ rgnend = stop then
      (lmbRemoveRegion rgn i).map fun rgn => (0, rgn)
    else if p.base = base then
      some (0, rgn.set i { base := stop, size := Size.sub p.size size })
    else if rgnend = stop then
      some (0, rgn.set i { p with size := Size.sub p.size size })
    else
      let rgn := rgn.set i { p with size := Size.sub base p.base }
      lmbAddRegion rgn stop (Size.sub rgnend stop)

def lmbReserve (lmb : Lmb) (base size : Nat) : Option (Int × Lmb) :=
  (lmbAddRegion lmb.reserved base size).map fun res => (res.1, { lmb with reserved := res.2 })

def lmbFree (lmb : Lmb) (base size : Nat) : Option (Int × Lmb) :=
  (lmbFreeRegion lmb.reserved base size).map fun res => (res.1, { lmb with reserved := res.2 })

def lmbIsReserved (lmb : Lmb) (addr : Nat) : Bool :=
  (List.range lmb.reserved.cnt).any fun i =>
    let p := lmb.reserved.region i
    let upper := Size.sub (Size.add p.base p.size) 1
    p.base ≤ addr && addr ≤ upper

end Lmb
end UBoot
