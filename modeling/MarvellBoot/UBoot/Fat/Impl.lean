import MarvellBoot.Lib.Packed

/-!
The table of a FAT volume and its one window in memory, `fs/fat/fat.c` and `fs/fat/fat_write.c`. Sectors are counted from
the start of the partition.
-/

namespace UBoot.Fat

open Packed

inductive FatSize where
  | fat12 | fat16 | fat32
  deriving Repr, DecidableEq

def FatSize.bits : FatSize → Nat
  | .fat12 => 12
  | .fat16 => 16
  | .fat32 => 32

def FatSize.reserved : FatSize → Nat
  | .fat12 => 0xff0
  | .fat16 => 0xfff0
  | .fat32 => 0xffffff0

def checkClust (x : Nat) (fatsize : FatSize) : Bool := x ≤ 1 || fatsize.reserved ≤ x

structure Fsdata where
  fatsize : FatSize
  fatlength : Nat
  fatSect : Nat
  rootdirSect : Nat
  sectSize : Nat
  clustSize : Nat
  dataBegin : Int
  numOfFats : Nat
  totalSector : Nat
  lba : Nat
  sectSize_pos : 0 < sectSize
  clustSize_pos : 0 < clustSize

structure State where
  disk : Nat → UInt8
  fatbuf : Nat → UInt8
  fatbufnum : Option Nat := none
  fatDirty : Bool := false

namespace Fsdata

variable (fs : Fsdata)

def fatbufblocks : Nat := 6

def fatbufsize : Nat := fs.sectSize * fatbufblocks

def entries : Nat :=
  match fs.fatsize with
  | .fat12 => fs.fatbufsize * 2 / 3
  | .fat16 => fs.fatbufsize / 2
  | .fat32 => fs.fatbufsize / 4

def diskRead (disk : Nat → UInt8) (block nrBlocks : Nat) (buf : Nat → UInt8) : Option (Nat → UInt8) :=
  if 0 < nrBlocks ∧ fs.lba < block + nrBlocks then
    none
  else
    some fun i => if i < nrBlocks * fs.sectSize then disk (block * fs.sectSize + i) else buf i

def diskWrite (disk : Nat → UInt8) (block nrBlocks : Nat) (buf : Nat → UInt8) : Option (Nat → UInt8) :=
  if fs.totalSector < block + nrBlocks then
    none
  else if 0 < nrBlocks ∧ fs.lba < block + nrBlocks then
    none
  else
    some fun i =>
      if block * fs.sectSize ≤ i ∧ i < (block + nrBlocks) * fs.sectSize then
        buf (i - block * fs.sectSize)
      else
        disk i

def getsize (startblock : Nat) : Nat :=
  if fs.fatlength < startblock + fatbufblocks then
    (fs.fatlength + 2 ^ 32 - startblock) % 2 ^ 32
  else
    fatbufblocks

def flushDirtyFatBuffer (st : State) : Bool × State :=
  match st.fatDirty, st.fatbufnum with
  | true, some fatbufnum =>
    let getsize := fs.getsize (fatbufnum * fatbufblocks)
    let startblock := fatbufnum * fatbufblocks + fs.fatSect
    match fs.diskWrite st.disk startblock getsize st.fatbuf with
    | none => (false, st)
    | some disk =>
      if fs.numOfFats = 2 then
        match fs.diskWrite disk (startblock + fs.fatlength) getsize st.fatbuf with
        | none => (false, { st with disk })
        | some disk => (true, { st with disk, fatDirty := false })
      else
        (true, { st with disk, fatDirty := false })
  | _, _ => (true, st)

inductive Fetched where
  | ok | notFlushed | notRead

def fetch (st : State) (bufnum : Nat) : Fetched × State :=
  if st.fatbufnum = some bufnum then
    (.ok, st)
  else
    match fs.flushDirtyFatBuffer st with
    | (false, st) => (.notFlushed, st)
    | (true, st) =>
      let startblock := bufnum * fatbufblocks
      match fs.diskRead st.disk (startblock + fs.fatSect) (fs.getsize startblock) st.fatbuf with
      | none => (.notRead, st)
      | some fatbuf => (.ok, { st with fatbuf, fatbufnum := some bufnum })

def getEntry (fatbuf : Nat → UInt8) (offset : Nat) : Nat :=
  match fs.fatsize with
  | .fat32 => load fatbuf (4 * offset) 4
  | .fat16 => load fatbuf (2 * offset) 2
  | .fat12 =>
    let off8 := offset * 3 / 2
    let ret := load fatbuf off8 2
    (if offset % 2 = 1 then ret >>> 4 else ret) &&& 0xfff

def getFatent (st : State) (entry : Nat) : Nat × State :=
  if checkClust entry fs.fatsize then
    (0, st)
  else
    let bufnum := entry / fs.entries
    match fs.fetch st bufnum with
    | (.notFlushed, st) => (0xffffffff, st)
    | (.notRead, st) => (0, st)
    | (.ok, st) => (fs.getEntry st.fatbuf (entry - bufnum * fs.entries), st)

def setBits (fatbuf : Nat → UInt8) (i mask val shift : Nat) : Nat → UInt8 :=
  store fatbuf (2 * i) 2 (load fatbuf (2 * i) 2 &&& mask ||| val <<< shift)

def setEntry (fatbuf : Nat → UInt8) (offset value : Nat) : Nat → UInt8 :=
  match fs.fatsize with
  | .fat32 => store fatbuf (4 * offset) 4 value
  | .fat16 => store fatbuf (2 * offset) 2 value
  | .fat12 =>
    let off16 := offset * 3 / 4
    match offset % 4 with
    | 0 => setBits fatbuf off16 0xf000 (value &&& 0xfff) 0
    | 1 => setBits (setBits fatbuf off16 0x0fff (value &&& 0xf) 12) (off16 + 1) 0xff00 (value >>> 4 &&& 0xff) 0
    | 2 => setBits (setBits fatbuf off16 0x00ff (value &&& 0xff) 8) (off16 + 1) 0xfff0 (value >>> 8 &&& 0xf) 0
    | _ => setBits fatbuf off16 0x000f (value &&& 0xfff) 4

def setFatentValue (st : State) (entry value : Nat) : Int × State :=
  let bufnum := entry / fs.entries
  match fs.fetch st bufnum with
  | (.ok, st) =>
    (0, { st with fatDirty := true, fatbuf := fs.setEntry st.fatbuf (entry - bufnum * fs.entries) value })
  | (_, st) => (-1, st)

end Fsdata

inductive Call where
  | get (entry : Nat)
  | set (entry value : Nat)

def Fsdata.call (fs : Fsdata) (st : State) : Call → Int × State
  | .get entry => ((fs.getFatent st entry).1, (fs.getFatent st entry).2)
  | .set entry value => fs.setFatentValue st entry value

def Fsdata.calls (fs : Fsdata) (st : State) : List Call → List Int × State
  | [] => ([], st)
  | c :: cs =>
    let (ret, st) := fs.call st c
    let (rets, st) := fs.calls st cs
    (ret :: rets, st)

end UBoot.Fat
