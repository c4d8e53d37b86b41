import MarvellBoot.Lib.Bytes

/-!
The GUID partition table of `disk/part_efi.c`. A block device is a byte addressed memory that is read and
written in blocks, the CRC is a parameter.
-/

namespace UBoot.PartEfi

open Mem

-- The size of the device in bytes fits in 64 bits.
structure BlkDesc where
  lba : Nat
  blksz : Nat
  le_blksz : 512 ≤ blksz
  size_lt : lba * blksz < 2 ^ 64

abbrev Disk := Int → UInt8

abbrev Guid := Vector UInt8 16

def blockCnt (dev : BlkDesc) (size : Nat) : Nat := (size - 1) / dev.blksz + 1

def blkDread (dev : BlkDesc) (disk : Disk) (start cnt : Nat) : Option (List UInt8) :=
  if start + cnt ≤ dev.lba then
    some (load disk (start * dev.blksz : Nat) (cnt * dev.blksz))
  else
    none

-- `len` bytes of a buffer, what is behind the buffer is taken as zero.
def bytesAt (b : List UInt8) (off len : Nat) : List UInt8 := Bytes.load (fun i => b.getD (off + i) 0) len

def le (len x : Nat) : List UInt8 := (Bytes.ofNat len x).reverse

def leAt (b : List UInt8) (off len : Nat) : Nat := Bytes.val (bytesAt b off len).reverse

structure GptHeader where
  signature : UInt64
  revision : UInt32
  headerSize : UInt32
  headerCrc32 : UInt32
  reserved1 : UInt32
  myLba : UInt64
  alternateLba : UInt64
  firstUsableLba : UInt64
  lastUsableLba : UInt64
  diskGuid : Guid
  partitionEntryLba : UInt64
  numPartitionEntries : UInt32
  sizeofPartitionEntry : UInt32
  partitionEntryArrayCrc32 : UInt32
  deriving DecidableEq

def GptHeader.bytes (h : GptHeader) : List UInt8 :=
  le 8 h.signature.toNat ++ le 4 h.revision.toNat ++ le 4 h.headerSize.toNat ++ le 4 h.headerCrc32.toNat
    ++ le 4 h.reserved1.toNat ++ le 8 h.myLba.toNat ++ le 8 h.alternateLba.toNat ++ le 8 h.firstUsableLba.toNat
    ++ le 8 h.lastUsableLba.toNat ++ h.diskGuid.toList ++ le 8 h.partitionEntryLba.toNat
    ++ le 4 h.numPartitionEntries.toNat ++ le 4 h.sizeofPartitionEntry.toNat ++ le 4 h.partitionEntryArrayCrc32.toNat

def GptHeader.ofBytes (b : List UInt8) : GptHeader where
  signature := .ofNat (leAt b 0 8)
  revision := .ofNat (leAt b 8 4)
  headerSize := .ofNat (leAt b 12 4)
  headerCrc32 := .ofNat (leAt b 16 4)
  reserved1 := .ofNat (leAt b 20 4)
  myLba := .ofNat (leAt b 24 8)
  alternateLba := .ofNat (leAt b 32 8)
  firstUsableLba := .ofNat (leAt b 40 8)
  lastUsableLba := .ofNat (leAt b 48 8)
  diskGuid := .ofFn fun i => b.getD (56 + i) 0
  partitionEntryLba := .ofNat (leAt b 72 8)
  numPartitionEntries := .ofNat (leAt b 80 4)
  sizeofPartitionEntry := .ofNat (leAt b 84 4)
  partitionEntryArrayCrc32 := .ofNat (leAt b 88 4)

def gptHeaderSignature : UInt64 := 0x5452415020494645
def gptHeaderRevisionV1 : UInt32 := 0x00010000
def gptPrimaryPartitionTableLba : Nat := 1
def gptEntryNumbers : Nat := 128
def gptEntrySize : Nat := 128
def gptHeaderSize : Nat := 92

def GptHeader.count (h : GptHeader) : Nat := (h.numPartitionEntries * h.sizeofPartitionEntry).toNat

section

variable (crc32 : List UInt8 → UInt32)

-- The CRC of a header that is followed by `rest` in its buffer.
def headerCrc (h : GptHeader) (rest : List UInt8) : UInt32 :=
  crc32 ((({ h with headerCrc32 := 0 }).bytes ++ rest).take h.headerSize.toNat)

-- A header that is longer than its buffer is taken as one with a wrong CRC.
def validateGptHeader (h : GptHeader) (rest : List UInt8) (lba lastlba : Nat) : Bool :=
  h.signature == gptHeaderSignature
    && h.headerSize.toNat ≤ gptHeaderSize + rest.length
    && headerCrc crc32 h rest == h.headerCrc32
    && h.myLba.toNat == lba
    && h.firstUsableLba.toNat ≤ lastlba
    && h.lastUsableLba.toNat ≤ lastlba

def validateGptEntries (h : GptHeader) (pte : List UInt8) : Bool :=
  crc32 (pte.take h.count) == h.partitionEntryArrayCrc32

def allocReadGptEntries (dev : BlkDesc) (disk : Disk) (h : GptHeader) : Option (List UInt8) :=
  if h.count = 0 then
    none
  else
    blkDread dev disk h.partitionEntryLba.toNat (blockCnt dev h.count)

def isGptValid (dev : BlkDesc) (disk : Disk) (lba : Nat) : Option (GptHeader × List UInt8) :=
  match blkDread dev disk lba 1 with
  | none => none
  | some block =>
    let h := GptHeader.ofBytes block
    if validateGptHeader crc32 h (block.drop gptHeaderSize) lba dev.lba then
      match allocReadGptEntries dev disk h with
      | none => none
      | some pte => if validateGptEntries crc32 h pte then some (h, pte) else none
    else
      none

end

structure GptEntry where
  partitionTypeGuid : List UInt8
  uniquePartitionGuid : List UInt8
  startingLba : UInt64
  endingLba : UInt64
  attributes : UInt64
  partitionName : List UInt8

def gptPte (pte : List UInt8) (i : Nat) : GptEntry where
  partitionTypeGuid := bytesAt pte (gptEntrySize * i) 16
  uniquePartitionGuid := bytesAt pte (gptEntrySize * i + 16) 16
  startingLba := .ofNat (leAt pte (gptEntrySize * i + 32) 8)
  endingLba := .ofNat (leAt pte (gptEntrySize * i + 40) 8)
  attributes := .ofNat (leAt pte (gptEntrySize * i + 48) 8)
  partitionName := bytesAt pte (gptEntrySize * i + 56) 72

def isPteValid (e : GptEntry) : Bool := e.partitionTypeGuid != List.replicate 16 0

def isprint (c : UInt8) : Bool := (0x20 ≤ c && c ≤ 0x7e) || 0xa0 ≤ c

def printEfiname (e : GptEntry) : List UInt8 :=
  let name := (List.range 36).map fun i =>
    let c := e.partitionName.getD (2 * i) 0
    if c ≠ 0 ∧ isprint c = false then 0x2e else c
  name.takeWhile (· ≠ 0)

def partitionSystemGuid : List UInt8 :=
  [0x28, 0x73, 0x2a, 0xc1, 0x1f, 0xf8, 0xd2, 0x11, 0xba, 0x4b, 0x00, 0xa0, 0xc9, 0x3e, 0xc9, 0x3b]

def partitionBasicDataGuid : List UInt8 :=
  [0xa2, 0xa0, 0xd0, 0xeb, 0xe5, 0xb9, 0x33, 0x44, 0x87, 0xc0, 0x68, 0xb6, 0xb7, 0x26, 0x99, 0xc7]

def isBootable (e : GptEntry) : Bool := e.attributes.toNat / 4 % 2 = 1 || e.partitionTypeGuid == partitionSystemGuid

def hexDigit (x : Nat) : UInt8 := .ofNat (if x < 10 then 0x30 + x else 0x57 + x)

-- The text of a GUID, the first three of its numbers are little endian.
def uuidBinToStr (guid : List UInt8) : List UInt8 :=
  [3, 2, 1, 0].flatMap hex ++ [0x2d] ++ [5, 4].flatMap hex ++ [0x2d] ++ [7, 6].flatMap hex ++ [0x2d]
    ++ [8, 9].flatMap hex ++ [0x2d] ++ [10, 11, 12, 13, 14, 15].flatMap hex
where
  hex (i : Nat) : List UInt8 := [hexDigit ((guid.getD i 0).toNat / 16), hexDigit ((guid.getD i 0).toNat % 16)]

structure Info where
  start : UInt64
  size : UInt64
  blksz : Nat
  name : List UInt8
  bootable : Bool
  uuid : List UInt8
  deriving DecidableEq

def tableInfo (dev : BlkDesc) (table : GptHeader × List UInt8) (part : Int) : Option Info :=
  let e := gptPte table.2 (part - 1).toNat
  if part < 1 ∨ table.1.numPartitionEntries.toNat < part ∨ isPteValid e = false then
    none
  else
    some {
      start := e.startingLba
      size := e.endingLba + 1 - e.startingLba
      blksz := dev.blksz
      name := printEfiname e
      bootable := isBootable e
      uuid := uuidBinToStr e.uniquePartitionGuid
    }

def partGetInfoEfi (crc32 : List UInt8 → UInt32) (dev : BlkDesc) (disk : Disk) (part : Int) : Option Info :=
  if part < 1 then
    none
  else
    match isGptValid crc32 dev disk gptPrimaryPartitionTableLba with
    | some table => tableInfo dev table part
    | none =>
      match isGptValid crc32 dev disk (dev.lba - 1) with
      | some table => tableInfo dev table part
      | none => none

structure PartEntry where
  startLpa : UInt64
  endLpa : UInt64
  partName : List UInt8
  deriving Repr, DecidableEq

abbrev EfiPart := Vector PartEntry 3

/--
The loop of `part_efi` over the entries that are left, it stops at the first one that is not valid. Entries that
are not in the table are written behind it.
-/
def fillEfiPart (pte : List UInt8) : (entries : List Nat) → EfiPart → EfiPart
  | [], efiPart => efiPart
  | i :: entries, efiPart =>
    let e := gptPte pte i
    if isPteValid e then
      fillEfiPart pte entries (efiPart.setIfInBounds i ⟨e.startingLba, e.endingLba, printEfiname e⟩)
    else
      efiPart

def partEfi (crc32 : List UInt8 → UInt32) (dev : BlkDesc) (disk : Disk) (efiPart : EfiPart) : EfiPart × Int :=
  match isGptValid crc32 dev disk gptPrimaryPartitionTableLba with
  | none => (efiPart, -1)
  | some (h, pte) => (fillEfiPart pte (List.range h.numPartitionEntries.toNat) efiPart, 0)

-- The GUID is what `uuid_str_to_bin` makes of the text, there is none for a text that is not valid.
structure DiskPartition where
  start : UInt64
  size : UInt64
  name : Vector UInt8 32
  bootable : Bool
  uuid : Option Guid

def GptEntry.bytes (e : GptEntry) : List UInt8 :=
  e.partitionTypeGuid ++ e.uniquePartitionGuid ++ le 8 e.startingLba.toNat ++ le 8 e.endingLba.toNat
    ++ le 8 e.attributes.toNat ++ e.partitionName

def gptFillPte (lastUsableLba : UInt64) : (offset : UInt64) → List DiskPartition → Option (List GptEntry)
  | _, [] => some []
  | offset, p :: ps =>
    if p.start ≠ 0 ∧ p.start < offset then
      none
    else
      let start := if p.start ≠ 0 then p.start else offset
      let offset := start + p.size
      if offset > lastUsableLba + 1 then
        none
      else
        match p.uuid with
        | none => none
        | some uuid =>
          let e : GptEntry := {
            partitionTypeGuid := partitionBasicDataGuid
            uniquePartitionGuid := uuid.toList
            startingLba := start
            -- extend the last partition
            endingLba := if ps.isEmpty && p.size == 0 then lastUsableLba else offset - 1
            attributes := if p.bootable then 4 else 0
            partitionName := p.name.toList.flatMap (fun c => [c, 0]) ++ List.replicate 8 0
          }
          (gptFillPte lastUsableLba offset ps).map (e :: ·)

def gptFillHeader (dev : BlkDesc) (diskGuid : Guid) : GptHeader where
  signature := gptHeaderSignature
  revision := gptHeaderRevisionV1
  headerSize := .ofNat gptHeaderSize
  headerCrc32 := 0
  reserved1 := 0
  myLba := 1
  alternateLba := .ofNat dev.lba - 1
  firstUsableLba := 34
  lastUsableLba := .ofNat dev.lba - 34
  diskGuid
  partitionEntryLba := 2
  numPartitionEntries := .ofNat gptEntryNumbers
  sizeofPartitionEntry := .ofNat gptEntrySize
  partitionEntryArrayCrc32 := 0

section

variable (crc32 : List UInt8 → UInt32)

def prepareBackupGptHeader (h : GptHeader) : GptHeader :=
  let h := {
    h with
    myLba := h.alternateLba
    alternateLba := h.myLba
    partitionEntryLba := h.lastUsableLba + 1
    headerCrc32 := 0
  }
  { h with headerCrc32 := headerCrc crc32 h [] }

structure Request where
  start : Nat
  cnt : Nat
  data : List UInt8

def Request.blocks (r : Request) (dev : BlkDesc) : List (Nat × List UInt8) :=
  (List.range r.cnt).map fun i => (r.start + i, (r.data.drop (i * dev.blksz)).take dev.blksz)

def blkDwrite (dev : BlkDesc) : List Request → List (Nat × List UInt8) × Int
  | [] => ([], 0)
  | r :: rs =>
    if r.start + r.cnt ≤ dev.lba then
      let res := blkDwrite dev rs
      (r.blocks dev ++ res.1, res.2)
    else
      ([], -1)

def setBytes (b : List UInt8) (off : Nat) (data : List UInt8) : List UInt8 :=
  b.take off ++ data ++ b.drop (off + data.length)

def protectiveMbr (dev : BlkDesc) (mbr : List UInt8) : List UInt8 :=
  let mbr := setBytes mbr 510 [0x55, 0xaa]
  let mbr := setBytes mbr 450 [0xee]
  let mbr := setBytes mbr 454 (le 4 1)
  setBytes mbr 458 (le 4 (UInt32.ofNat dev.lba - 1).toNat)

def headerBlock (dev : BlkDesc) (h : GptHeader) : List UInt8 := h.bytes ++ List.replicate (dev.blksz - gptHeaderSize) 0

def primaryHeader (h : GptHeader) (pte : List UInt8) : GptHeader :=
  let h := { h with partitionEntryArrayCrc32 := crc32 (pte.take h.count) }
  { h with headerCrc32 := headerCrc crc32 h [] }

def sizeofMbr : Nat := 512

-- There is no result when the block that is read to the MBR on the stack is larger than it.
def writeGptTable (dev : BlkDesc) (disk : Disk) (h : GptHeader) (pte : List UInt8)
    : Option (List (Nat × List UInt8) × Int) :=
  let pteBlkCnt := blockCnt dev (h.numPartitionEntries.toNat * gptEntrySize)
  match blkDread dev disk 0 1 with
  | none => some ([], -1)
  | some mbr =>
    if sizeofMbr < mbr.length then
      none
    else
      let h := primaryHeader crc32 h pte
      let backup := prepareBackupGptHeader crc32 h
      some <| blkDwrite dev [
        ⟨0, 1, protectiveMbr dev mbr⟩,
        ⟨1, 1, headerBlock dev h⟩,
        ⟨2, pteBlkCnt, pte⟩,
        ⟨(backup.lastUsableLba + 1).toNat, pteBlkCnt, pte⟩,
        ⟨backup.myLba.toNat, 1, headerBlock dev backup⟩
      ]

def pteBuffer (dev : BlkDesc) (entries : List GptEntry) : List UInt8 :=
  let bytes := entries.flatMap GptEntry.bytes
  bytes ++ List.replicate (blockCnt dev (gptEntryNumbers * gptEntrySize) * dev.blksz - bytes.length) 0

-- There is no result for more partitions than the buffer has entries.
def gptRestore (dev : BlkDesc) (disk : Disk) (diskGuid : Option Guid) (partitions : List DiskPartition)
    : Option (List (Nat × List UInt8) × Int) :=
  match diskGuid with
  | none => some ([], -1)
  | some diskGuid =>
    let h := gptFillHeader dev diskGuid
    if gptEntryNumbers < partitions.length then
      none
    else
      match gptFillPte h.lastUsableLba h.firstUsableLba partitions with
      | none => some ([], -1)
      | some entries => writeGptTable crc32 dev disk h (pteBuffer dev entries)

end

def writeBlock (dev : BlkDesc) (disk : Disk) (block : Nat × List UInt8) : Disk :=
  store disk (block.1 * dev.blksz : Nat) block.2

def writeBlocks (dev : BlkDesc) (disk : Disk) (blocks : List (Nat × List UInt8)) : Disk :=
  blocks.foldl (writeBlock dev) disk

end UBoot.PartEfi
