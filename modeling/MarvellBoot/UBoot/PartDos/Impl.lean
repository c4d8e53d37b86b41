import Mathlib

/-!
DOS partition tables as in `disk/part_dos.c`. Block numbers are below `2 ^ 64`, a block has at least 512
bytes. `part_num` is an integer that does not overflow.
-/

namespace UBoot.PartDos

-- `read` is what `blk_dread` gives for one block, `genericName` what `part_set_generic_name` writes.
structure BlkDesc where
  lba : Nat
  genericName : Int → String
  read : Nat → Option (Nat → UInt8)

def dosPartDefaultSector : Nat := 512
def dosPartDisksigOffset : Nat := 0x1b8
def dosPartTblOffset : Nat := 0x1be
def dosPartMagicOffset : Nat := 0x1fe
def dosPbrFstypeOffset : Nat := 0x36
def dosPbr32FstypeOffset : Nat := 0x52

def le32ToInt (buffer : Nat → UInt8) (off : Nat) : Nat :=
  ((buffer (off + 3)).toNat <<< 24) + ((buffer (off + 2)).toNat <<< 16) + ((buffer (off + 1)).toNat <<< 8)
    + (buffer off).toNat

structure DosPartition where
  bootInd : UInt8
  sysInd : UInt8
  start4 : Nat
  size4 : Nat
  deriving Repr, DecidableEq

def dosPartition (buffer : Nat → UInt8) (slot : Nat) : DosPartition where
  bootInd := buffer (dosPartTblOffset + 16 * slot)
  sysInd := buffer (dosPartTblOffset + 16 * slot + 4)
  start4 := le32ToInt buffer (dosPartTblOffset + 16 * slot + 8)
  size4 := le32ToInt buffer (dosPartTblOffset + 16 * slot + 12)

def partitionTable (buffer : Nat → UInt8) : List DosPartition := (List.range 4).map (dosPartition buffer)

def isExtended (partType : UInt8) : Bool := partType = 0x5 || partType = 0xf || partType = 0x85

def isBootable (p : DosPartition) : Bool := p.bootInd = 0x80

def hasSignature (buffer : Nat → UInt8) : Bool :=
  buffer dosPartMagicOffset = 0x55 && buffer (dosPartMagicOffset + 1) = 0xaa

def startsWith (buffer : Nat → UInt8) (off : Nat) (text : List UInt8) : Bool :=
  (List.range text.length).map (fun i => buffer (off + i)) = text

inductive BlockType where
  | mbr
  | pbr
  | bad
  deriving Repr, DecidableEq

-- `p` is not advanced, every slot looks at the first partition.
def testBlockType.slots (buffer : Nat → UInt8) : (left slot : Nat) → BlockType
  | 0, _ => .mbr
  | left + 1, slot =>
    let p := dosPartition buffer 0
    if p.bootInd ≠ 0 ∧ p.bootInd ≠ 0x80 then
      if slot = 0 ∧ (startsWith buffer dosPbrFstypeOffset [0x46, 0x41, 0x54]
          ∨ startsWith buffer dosPbr32FstypeOffset [0x46, 0x41, 0x54, 0x33, 0x32]) then
        .pbr
      else
        .bad
    else
      slots buffer left (slot + 1)

def testBlockType (buffer : Nat → UInt8) : BlockType :=
  if hasSignature buffer then
    testBlockType.slots buffer 3 0
  else
    .bad

def lbaAdd (a b : Nat) : Nat := (a + b) % 2 ^ 64

def isNumbered (extPartSector : Nat) (pt : DosPartition) : Bool :=
  extPartSector = 0 || (pt.sysInd ≠ 0 && !isExtended pt.sysInd)

def nextNum (extPartSector : Nat) (pt : DosPartition) (partNum : Int) : Int :=
  if isNumbered extPartSector pt then partNum + 1 else partNum

structure Line where
  partNum : Int
  lbaStart : Nat
  lbaSize : Nat
  disksig : Nat
  sysInd : UInt8
  bootable : Bool
  deriving Repr, DecidableEq

def printOnePart (p : DosPartition) (extPartSector : Nat) (partNum : Int) (disksig : Nat) : Line where
  partNum := partNum
  lbaStart := lbaAdd extPartSector p.start4
  lbaSize := p.size4
  disksig := disksig
  sysInd := p.sysInd
  bootable := isBootable p

def diskSignature (extPartSector : Nat) (buffer : Nat → UInt8) (disksig : Nat) : Nat :=
  if extPartSector = 0 then le32ToInt buffer dosPartDisksigOffset else disksig

def follow (extPartSector relative : Nat) (pt : DosPartition) : Nat × Nat :=
  let lbaStart := lbaAdd pt.start4 relative
  (lbaStart, if extPartSector = 0 then lbaStart else relative)

def printPartitionExtended.table (extPartSector disksig : Nat)
    : List DosPartition → Int → List Line × Int
  | [], partNum => ([], partNum)
  | pt :: pts, partNum =>
    let (lines, last) := table extPartSector disksig pts (nextNum extPartSector pt partNum)
    if pt.sysInd ≠ 0 ∧ (extPartSector = 0 ∨ !isExtended pt.sysInd) then
      (printOnePart pt extPartSector partNum disksig :: lines, last)
    else
      (lines, last)

-- There is no result when `fuel` records are not enough.
def printPartitionExtended (dev : BlkDesc)
    : (fuel : Nat) → (extPartSector relative : Nat) → (partNum : Int) → (disksig : Nat) → Option (List Line)
  | 0, _, _, _, _ => none
  | fuel + 1, extPartSector, relative, partNum, disksig =>
    match dev.read extPartSector with
    | none => some []
    | some buffer =>
      if testBlockType buffer ≠ .mbr then
        some []
      else
        let disksig := diskSignature extPartSector buffer disksig
        let (lines, partNum) := printPartitionExtended.table extPartSector disksig (partitionTable buffer) partNum
        let extended := (partitionTable buffer).filter fun pt => isExtended pt.sysInd
        let printed := extended.mapM fun pt =>
          let (lbaStart, relative) := follow extPartSector relative pt
          printPartitionExtended dev fuel lbaStart relative partNum disksig
        printed.map fun rest => lines ++ rest.flatten

def partPrintDos (dev : BlkDesc) (fuel : Nat) : Option (List Line) := printPartitionExtended dev fuel 0 0 1 0

structure DiskPartition where
  start : Nat
  size : Nat
  blksz : Nat
  name : String
  type : String
  bootable : Bool
  uuid : String
  sysInd : UInt8
  deriving Repr, DecidableEq

-- `part_get_info_extended` returns 0 for an entry of a table and for a PBR.
inductive GetInfo where
  | entry (info : DiskPartition)
  | pbr (size blksz : Nat)
  | error
  deriving Repr, DecidableEq

def hex (width x : Nat) : String :=
  let digits := Nat.toDigits 16 x
  String.ofList (List.replicate (width - digits.length) '0' ++ digits)

def fillInfo (dev : BlkDesc) (pt : DosPartition) (extPartSector : Nat) (partNum : Int) (disksig : Nat)
    : DiskPartition where
  start := lbaAdd extPartSector pt.start4
  size := pt.size4
  blksz := dosPartDefaultSector
  name := dev.genericName partNum
  type := "U-Boot"
  bootable := isBootable pt
  uuid := hex 8 disksig ++ "-" ++ hex 2 partNum.toNat
  sysInd := pt.sysInd

def partGetInfoExtended.table (dev : BlkDesc) (extPartSector : Nat) (whichPart : Int) (disksig : Nat)
    : List DosPartition → Int → DiskPartition ⊕ Int
  | [], partNum => .inr partNum
  | pt :: pts, partNum =>
    if pt.bootInd &&& ~~~(0x80 : UInt8) = 0 ∧ pt.sysInd ≠ 0 ∧ partNum = whichPart ∧ isExtended pt.sysInd = false then
      .inl (fillInfo dev pt extPartSector partNum disksig)
    else
      table dev extPartSector whichPart disksig pts (nextNum extPartSector pt partNum)

def partGetInfoExtended (dev : BlkDesc) (whichPart : Int)
    : (fuel : Nat) → (extPartSector relative : Nat) → (partNum : Int) → (disksig : Nat) → Option GetInfo
  | 0, _, _, _, _ => none
  | fuel + 1, extPartSector, relative, partNum, disksig =>
    match dev.read extPartSector with
    | none => some .error
    | some buffer =>
      if hasSignature buffer = false then
        some .error
      else
        let disksig := diskSignature extPartSector buffer disksig
        match partGetInfoExtended.table dev extPartSector whichPart disksig (partitionTable buffer) partNum with
        | .inl info => some (.entry info)
        | .inr partNum =>
          match (partitionTable buffer).find? fun pt => isExtended pt.sysInd with
          | some pt =>
            let (lbaStart, relative) := follow extPartSector relative pt
            partGetInfoExtended dev whichPart fuel lbaStart relative partNum disksig
          | none =>
            if testBlockType buffer = .pbr then
              some (.pbr dev.lba dosPartDefaultSector)
            else
              some .error

def partGetInfoDos (dev : BlkDesc) (fuel : Nat) (part : Int) : Option GetInfo :=
  partGetInfoExtended dev part fuel 0 0 1 0

end UBoot.PartDos
