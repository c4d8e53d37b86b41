import MarvellBoot.Lib.Bytes

/-!
The burn command of `cmd/mvebu/bubt.c`. The image is read to the load address and is written from
there. Pointers are integers, the sizes of the source's `size_t` are below `2 ^ 64`.
-/

namespace UBoot.Bubt

open Mem

abbrev Memory := Int → UInt8

def ENOEXEC : Int := 8
def EIO : Int := 5
def ENODEV : Int := 19
def EINVAL : Int := 22
def ENOTSUPP : Int := 524

structure Hashes where
  sha1 : List UInt8 → Vector UInt8 20
  sha256 : List UInt8 → Vector UInt8 32

namespace Armada8k

def mainHdrMagic : Nat := 0xB105B002

lemma left_lt {len : Int} (h : 0 < Int.bmod (len - 4) (2 ^ 32))
    : (if 0 < Int.bmod (len - 4) (2 ^ 32) then (Int.bmod (len - 4) (2 ^ 32)).toNat else 2 ^ 32)
      < if 0 < len then len.toNat else 2 ^ 32 := by
  have hlt := @Int.bmod_lt (len - 4) (2 ^ 32) (by omega)
  rw [if_pos h]
  split
  . rw [Int.bmod_def] at *
    split at * <;> omega
  . omega

-- The `int32_t` length wraps around when it is decremented below the least one.
def doChecksum32 (m : Memory) (startp : Int) (len : Int) (sum : UInt32) : UInt32 :=
  let sum := sum + UInt32.ofNat (Bytes.loadLe m startp 4)
  let left := Int.bmod (len - 4) (2 ^ 32)
  if 0 < left then doChecksum32 m (startp + 4) left sum else sum
  termination_by if 0 < len then len.toNat else 2 ^ 32
  decreasing_by exact left_lt ‹_›

def checkImageHeader (hdr : Int) (m : Memory) : Int × Memory :=
  let headerLen := Bytes.loadLe m (hdr + 4) 4
  let checksumRef := Bytes.loadLe m (hdr + 8) 4
  if Bytes.loadLe m hdr 4 ≠ mainHdrMagic then
    (-ENOEXEC, m)
  else
    let m := Bytes.storeLe m (hdr + 8) 4 0
    let checksum := doChecksum32 m hdr (Size.toInt headerLen) 0
    if checksum.toNat ≠ checksumRef then
      (-ENOEXEC, m)
    else
      (0, Bytes.storeLe m (hdr + 8) 4 checksumRef)

end Armada8k

namespace Armada3700

def imageVersion360 : Nat := 0x030600
def imageVersion350 : Nat := 0x030500
def sizeofTim : Int := 56
def sizeofInfo : Int := 108
def hashLen : Nat := 64

structure CommonTimData where
  version : Nat
  trusted : Nat
  numImages : Nat
  deriving Repr, DecidableEq

structure MvebuImageInfo where
  flashEntryAddr : Nat
  imageSizeToHash : Nat
  hashAlgorithmId : Nat
  hash : Int
  deriving Repr, DecidableEq

def commonTimData (m : Memory) (hdr : Int) : CommonTimData where
  version := Bytes.loadLe m hdr 4
  trusted := Bytes.loadLe m (hdr + 8) 4
  numImages := Bytes.loadLe m (hdr + 44) 4

def mvebuImageInfo (m : Memory) (hdr : Int) (imageNum : Nat) : MvebuImageInfo :=
  let info := hdr + sizeofTim + imageNum * sizeofInfo
  {
    flashEntryAddr := Bytes.loadLe m (info + 8) 4
    imageSizeToHash := Bytes.loadLe m (info + 20) 4
    hashAlgorithmId := Bytes.loadLe m (info + 24) 4
    hash := info + 28
  }

def hashOutput (h : Hashes) (hashAlgorithmId : Nat) (data : List UInt8) : Option (List UInt8) :=
  match hashAlgorithmId with
  | 20 => some (h.sha1 data).toList
  | 32 => some (h.sha256 data).toList
  | _ => none

def checkImage (h : Hashes) (hdr : Int) (imageNum : Nat) (m : Memory) : Int × Memory :=
  let info := mvebuImageInfo m hdr imageNum
  let internalHash := load m info.hash hashLen
  let m := if imageNum = 0 then store m info.hash (List.replicate hashLen 0) else m
  if info.imageSizeToHash = 0 then
    (0, m)
  else
    let buff := load m (hdr + info.flashEntryAddr) info.imageSizeToHash
    match hashOutput h info.hashAlgorithmId buff with
    | none => (-ENOEXEC, m)
    | some output =>
      let m := if imageNum = 0 then store m info.hash internalHash else m
      if load m info.hash info.hashAlgorithmId ≠ output then
        (-ENOEXEC, m)
      else
        (0, m)

def checkImages (h : Hashes) (hdr : Int) (imageNum : Nat) : (left : Nat) → Memory → Int × Memory
  | 0, m => (0, m)
  | left + 1, m =>
    let res := checkImage h hdr imageNum m
    if res.1 ≠ 0 then res else checkImages h hdr (imageNum + 1) left res.2

def checkImageHeader (h : Hashes) (hdr : Int) (m : Memory) : Int × Memory :=
  let tim := commonTimData m hdr
  -- validation only supports nontrusted images
  if tim.trusted = 1 then
    (0, m)
  else if tim.version ≠ imageVersion350 ∧ tim.version ≠ imageVersion360 then
    (-ENOEXEC, m)
  else
    checkImages h hdr 0 tim.numImages m

end Armada3700

inductive Soc where
  | armada8k
  | armada3700
  | other
  deriving Repr, DecidableEq

structure BubtDev where
  name : String
  read : Option (List Char → Memory → UInt64 × Memory)
  write : Option (Nat → Memory → Int)
  active : Option Bool

structure Drivers where
  tftpReadFile : List Char → Memory → UInt64 × Memory
  usbReadFile : List Char → Memory → UInt64 × Memory
  mmcReadFile : List Char → Memory → UInt64 × Memory
  mmcBurnImage : Nat → Memory → Int
  spiBurnImage : Nat → Memory → Int
  nandBurnImage : Nat → Memory → Int
  isTftpActive : Bool
  isUsbActive : Bool
  isMmcActive : Bool
  isSpiActive : Bool
  isNandActive : Bool

structure Board where
  soc : Soc
  loadAddr : Int
  hashes : Hashes
  drivers : Drivers
  dfltName : List Char
  defaultBubtDst : List Char

def checkImageHeader (board : Board) (m : Memory) : Int × Memory :=
  match board.soc with
  | .armada8k => Armada8k.checkImageHeader board.loadAddr m
  | .armada3700 => Armada3700.checkImageHeader board.hashes board.loadAddr m
  | .other => (-ENOEXEC, m)

def bubtDevs (d : Drivers) : List BubtDev := [
  { name := "tftp", read := some d.tftpReadFile, write := none, active := some d.isTftpActive },
  { name := "usb", read := some d.usbReadFile, write := none, active := some d.isUsbActive },
  { name := "mmc", read := some d.mmcReadFile, write := some d.mmcBurnImage, active := some d.isMmcActive },
  { name := "spi", read := none, write := some d.spiBurnImage, active := some d.isSpiActive },
  { name := "nand", read := none, write := some d.nandBurnImage, active := some d.isNandActive }
]

def findBubtDev (d : Drivers) (devName : List Char) : Option BubtDev :=
  (bubtDevs d).find? fun dev => dev.name.toList == devName

def bubtIsDevActive (dev : BubtDev) : Bool := dev.active.getD false

-- The `int` that the source returns the `size_t` as, together with what the device has read.
def bubtReadFile (src : BubtDev) (fileName : List Char) (m : Memory) : Int × Option (UInt64 × Memory) :=
  match src.read with
  | none => (0, none)
  | some read =>
    let res := read fileName m
    if res.1 = 0 then (0, some res) else (Size.toInt res.1.toNat, some res)

def bubtWriteFile (dst : BubtDev) (imageSize : Nat) (m : Memory) : Int × Option (Nat × Memory) :=
  match dst.write with
  | none => (-ENOTSUPP, none)
  | some write => (write imageSize m, some (imageSize, m))

def copyFilename (src : List Char) (size : Nat) : List Char :=
  match src with
  | '"' :: src => (src.take (size - 2)).takeWhile (· ≠ '"')
  | src => (src.take (size - 1)).takeWhile (· ≠ '"')

structure Burn where
  ret : Int
  fetched : Option (UInt64 × Memory)
  burned : Option (Nat × Memory)

def doBubtCmd (board : Board) (argv : List (List Char)) (m : Memory) : Burn :=
  let netBootFileName := copyFilename (argv.getD 1 board.dfltName) 1024
  let dstDevName := (argv.getD 2 board.defaultBubtDst).take 8
  let srcDevName := (argv.getD 3 "tftp".toList).take 8
  match findBubtDev board.drivers dstDevName with
  | none => { ret := -EINVAL, fetched := none, burned := none }
  | some dst =>
    if bubtIsDevActive dst = false then
      { ret := -ENODEV, fetched := none, burned := none }
    else
      match findBubtDev board.drivers srcDevName with
      | none => { ret := 1, fetched := none, burned := none }
      | some src =>
        if bubtIsDevActive src = false then
          { ret := -ENODEV, fetched := none, burned := none }
        else
          let (size, fetched) := bubtReadFile src netBootFileName m
          let imageSize := Size.ofInt size
          if imageSize = 0 then
            { ret := - EIO, fetched, burned := none }
          else
            let m := (fetched.map (·.2)).getD m
            let (err, m) := checkImageHeader board m
            if err ≠ 0 then
              { ret := err, fetched, burned := none }
            else
              let (err, burned) := bubtWriteFile dst imageSize m
              { ret := err, fetched, burned }

end UBoot.Bubt
