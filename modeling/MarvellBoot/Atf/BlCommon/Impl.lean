import MarvellBoot.Lib.Mem

/-!
Loading of images as in `common/bl_common.c`, without `LOAD_IMAGE_V2`. Addresses and sizes are below
`2 ^ 64`, `image_size` of `image_info_t` has 32 bits.
-/

namespace Atf.BlCommon

structure Meminfo where
  freeBase : Nat
  freeSize : Nat
  deriving Repr, DecidableEq

def uintptrMax : Nat := 2 ^ 64 - 1

def checkUptrOverflow (ptr inc : Nat) : Bool := uintptrMax - inc < ptr

def isMemFree (freeBase freeSize addr size : Nat) : Bool :=
  if size = 0 then
    true
  else if freeSize = 0 then
    false
  else if checkUptrOverflow freeBase (freeSize - 1) then
    false
  else
    let freeEnd := Size.add freeBase (freeSize - 1)
    if checkUptrOverflow addr (size - 1) then
      false
    else
      let requestedEnd := Size.add addr (size - 1)
      freeBase ≤ addr ∧ requestedEnd ≤ freeEnd

inductive MemPos where
  | top
  | bottom
  deriving Repr, DecidableEq

-- The position and the size of the smaller chunk. There is no result when an assertion fails.
def chooseMemPos (memStart memEnd submemStart submemEnd : Nat) : Option (MemPos × Nat) :=
  if memStart ≤ submemStart ∧ submemStart ≤ submemEnd ∧ submemEnd ≤ memEnd then
    let topChunkSize := Size.sub memEnd submemEnd
    let bottomChunkSize := Size.sub submemStart memStart
    if topChunkSize < bottomChunkSize then
      some (.top, topChunkSize)
    else
      some (.bottom, bottomChunkSize)
  else
    none

def reserveMem (mem : Meminfo) (addr size : Nat) : Option Meminfo :=
  if isMemFree mem.freeBase mem.freeSize addr size then
    if size = 0 then
      some mem
    else
      match chooseMemPos mem.freeBase (Size.add mem.freeBase (mem.freeSize - 1)) addr (Size.add addr (size - 1)) with
      | none => none
      | some (pos, discardSize) =>
        let reservedSize := Size.add size discardSize
        let freeSize := Size.sub mem.freeSize reservedSize
        match pos with
        | .bottom => some ⟨Size.add addr size, freeSize⟩
        | .top => some ⟨mem.freeBase, freeSize⟩
  else
    none

structure ImageIo where
  source : Int
  openRc : Int
  sizeRc : Int
  size : Nat
  readRc : Int
  bytesRead : Nat
  deriving Repr, DecidableEq

structure ImageInfo where
  imageBase : Nat
  imageSize : Nat
  deriving Repr, DecidableEq

def enomem : Int := 12

def loadImage (io : ImageIo) (imageBase : Nat) (mem : Meminfo) (info : ImageInfo) (pc : Option Nat)
    : Option (Int × Meminfo × ImageInfo × Option Nat) :=
  if io.source ≠ 0 then
    some (io.source, mem, info, pc)
  else if io.openRc ≠ 0 then
    some (io.openRc, mem, info, pc)
  else if io.sizeRc ≠ 0 ∨ io.size = 0 then
    some (io.sizeRc, mem, info, pc)
  else if isMemFree mem.freeBase mem.freeSize imageBase io.size = false then
    some (-enomem, mem, info, pc)
  else if io.readRc ≠ 0 ∨ io.bytesRead < io.size then
    some (io.readRc, mem, info, pc)
  else
    let info := ⟨imageBase, io.size % 2 ^ 32⟩
    match pc with
    | none => some (io.readRc, mem, info, none)
    | some _ =>
      match reserveMem mem imageBase io.size with
      | none => none
      | some mem => some (io.readRc, mem, info, some imageBase)

structure Load where
  io : ImageIo
  imageBase : Nat
  info : ImageInfo
  pc : Nat
  deriving Repr, DecidableEq

def loadAll (mem : Meminfo) : List Load → Option (Meminfo × List ImageInfo)
  | [] => some (mem, [])
  | load :: loads =>
    match loadImage load.io load.imageBase mem load.info (some load.pc) with
    | none => none
    | some (rc, mem, _, _) =>
      match loadAll mem loads with
      | none => none
      | some (mem, images) =>
        some (mem, if rc = 0 ∧ load.io.size ≠ 0 then ⟨load.imageBase, load.io.size⟩ :: images else images)

end Atf.BlCommon
