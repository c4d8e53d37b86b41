import Mathlib

/-!
The allocation of PCI resources as in `drivers/pci/pci_auto_common.c` and `drivers/pci/pci_auto.c`. `w` is the width of
`pci_addr_t`: 64 with `CONFIG_SYS_PCI_64BIT` and 32 without it.
-/

namespace UBoot.Pci

structure PciRegion (w : Nat) where
  busStart : BitVec w
  size : BitVec w
  busLower : BitVec w
  deriving Repr, DecidableEq

section

variable {w : Nat}

def pciautoRegionInit (res : PciRegion w) : PciRegion w :=
  { res with busLower := if res.busStart ≠ 0 then res.busStart else 0x1000#w }

def pciautoRegionAlign (res : PciRegion w) (size : BitVec w) : PciRegion w :=
  { res with busLower := ((res.busLower - 1) ||| (size - 1)) + 1 }

-- There is no result on an error, `*bar` is then -1.
def pciautoRegionAllocate (res : PciRegion w) (size : BitVec w) : Option (BitVec w × PciRegion w) :=
  let addr := ((res.busLower - 1) ||| (size - 1)) + 1
  if addr - res.busStart + size > res.size then
    none
  else
    some (addr, { res with busLower := addr + size })

end

-- The upper half of the register of an I/O range may be hard-wired to 0, this is `io16`.
inductive Bar where
  | unused
  | io (k : Nat) (h : 2 ≤ k ∧ k ≤ 16)
  | io16 (k : Nat) (h : 2 ≤ k ∧ k < 16)
  | mem32 (k : Nat) (prefetch : Bool) (h : 4 ≤ k ∧ k < 32)
  | mem64 (k : Nat) (prefetch : Bool) (h : 4 ≤ k ∧ k < 64)
  deriving DecidableEq

/--
A register has the bits that were written where it can be written, and fixed bits elsewhere.
-/
structure Reg where
  writable : BitVec 32
  fixed : BitVec 32

def addrMask (n k : Nat) : BitVec n := ~~~(1#n <<< k - 1#n)

def memFlags (mem64 prefetch : Bool) : BitVec 32 := (if mem64 then 4 else 0) ||| (if prefetch then 8 else 0)

def Bar.regs : Bar → List Reg
  | .unused => [⟨0, 0⟩]
  | .io k _ => [⟨addrMask 32 k, 1⟩]
  | .io16 k _ => [⟨(addrMask 16 k).setWidth 32, 1⟩]
  | .mem32 k prefetch _ => [⟨addrMask 32 k, memFlags false prefetch⟩]
  | .mem64 k prefetch _ =>
    [⟨(addrMask 64 k).setWidth 32, memFlags true prefetch⟩, ⟨(addrMask 64 k >>> 32).setWidth 32, 0⟩]

structure Device where
  bars : List Bar
  rom : Option { k : Nat // 11 ≤ k ∧ k < 32 }
  headerType : BitVec 8
  pciClass : BitVec 16

def Device.reg (dev : Device) (bar : Nat) : Reg := (dev.bars.flatMap Bar.regs).getD bar ⟨0, 0⟩

def Device.romReg (dev : Device) : Reg :=
  match dev.rom with
  | none => ⟨0, 0⟩
  | some k => ⟨addrMask 32 k.val ||| 1, 0⟩

structure Config where
  bars : Nat → BitVec 32
  rom : BitVec 32
  command : BitVec 16
  cacheLineSize : BitVec 8
  latencyTimer : BitVec 8

inductive Res where
  | mem
  | prefetch
  | io
  deriving Repr, DecidableEq

/--
A range that `dm_pciauto_setup_device` has got for a register. The log is not part of the code.
-/
structure Alloc (w : Nat) where
  -- The expansion ROM has no index.
  bar : Option Nat
  addr : BitVec w
  deriving Repr, DecidableEq

structure State (w : Nat) where
  config : Config
  region : Res → Option (PciRegion w)
  log : List (Alloc w)

namespace State

variable {w : Nat}

def readBar (dev : Device) (s : State w) (bar : Nat) : BitVec 32 :=
  (s.config.bars bar &&& (dev.reg bar).writable) ||| (dev.reg bar).fixed

def writeBar (s : State w) (bar : Nat) (value : BitVec 32) : State w :=
  { s with config := { s.config with bars := Function.update s.config.bars bar value } }

def readRom (dev : Device) (s : State w) : BitVec 32 := (s.config.rom &&& dev.romReg.writable) ||| dev.romReg.fixed

def writeRom (s : State w) (value : BitVec 32) : State w := { s with config := { s.config with rom := value } }

def allocate (s : State w) (bar : Option Nat) (res : Res) (size : BitVec w) : Option (BitVec w × State w) :=
  match s.region res with
  | none => none
  | some region =>
    match pciautoRegionAllocate region size with
    | none => none
    | some (addr, region) =>
      some (addr, { s with region := Function.update s.region res (some region), log := s.log ++ [⟨bar, addr⟩] })

end State

def pciBaseAddressSpace : BitVec 32 := 0x01
def pciBaseAddressMemTypeMask : BitVec 32 := 0x06
def pciBaseAddressMemType64 : BitVec 32 := 0x04
def pciBaseAddressMemPrefetch : BitVec 32 := 0x08
def pciBaseAddressMemMask : BitVec 64 := ~~~0x0f#64
def pciBaseAddressIoMask : BitVec 64 := ~~~0x03#64

def pciCommandIo : BitVec 16 := 0x1
def pciCommandMemory : BitVec 16 := 0x2
def pciCommandMaster : BitVec 16 := 0x4

def pciHeaderTypeCardbus : BitVec 8 := 2
def pciClassDisplayVga : BitVec 16 := 0x0300
def cacheLineSize : BitVec 8 := 8

namespace dmPciautoSetupDevice

variable {w : Nat} (dev : Device)

def ioSize (barResponse : BitVec 32) : BitVec 64 :=
  (~~~(barResponse.setWidth 64 &&& pciBaseAddressIoMask) &&& 0xffff#64) + 1#64

def mem64Size (barResponse barResponseUpper : BitVec 32) : BitVec 64 :=
  let bar64 := barResponseUpper.setWidth 64 <<< 32 ||| barResponse.setWidth 64
  ~~~(bar64 &&& pciBaseAddressMemMask) + 1#64

def mem32Size (barResponse : BitVec 32) : BitVec 32 :=
  (~~~(barResponse.setWidth 64 &&& pciBaseAddressMemMask) + 1#64).setWidth 32

def memRes (s : State w) (barResponse : BitVec 32) : Res :=
  if (s.region .prefetch).isSome && barResponse &&& pciBaseAddressMemPrefetch ≠ 0 then .prefetch else .mem

def assign (s : State w) (bar : Nat) (res : Res) (barSize : BitVec w) (foundMem64 enumOnly : Bool) : State w × Nat :=
  if enumOnly then
    (s, bar + 1)
  else
    match s.allocate (some bar) res barSize with
    | none => (s, bar + 1)
    | some (barValue, s) =>
      let s := s.writeBar bar (barValue.setWidth 32)
      if foundMem64 then
        -- Without `CONFIG_SYS_PCI_64BIT` the upper half is 0.
        (s.writeBar (bar + 1) (if 32 < w then (barValue >>> 32).setWidth 32 else 0), bar + 2)
      else
        (s, bar + 1)

def setupBar (enumOnly : Bool) (bar : Nat) (s : State w) (cmdstat : BitVec 16) : State w × Nat × BitVec 16 :=
  let s := if enumOnly then s else s.writeBar bar 0xffffffff
  let barResponse := s.readBar dev bar
  if barResponse = 0 then
    (s, bar + 1, cmdstat)
  else if barResponse &&& pciBaseAddressSpace ≠ 0 then
    let (s, next) := assign s bar .io ((ioSize barResponse).setWidth w) false enumOnly
    (s, next, cmdstat ||| pciCommandIo)
  else if barResponse &&& pciBaseAddressMemTypeMask = pciBaseAddressMemType64 then
    let s := if enumOnly then s else s.writeBar (bar + 1) 0xffffffff
    let barResponseUpper := s.readBar dev (bar + 1)
    let barSize := (mem64Size barResponse barResponseUpper).setWidth w
    let (s, next) := assign s bar (memRes s barResponse) barSize (!enumOnly) enumOnly
    (s, next, cmdstat ||| pciCommandMemory)
  else
    let (s, next) := assign s bar (memRes s barResponse) ((mem32Size barResponse).setWidth w) false enumOnly
    (s, next, cmdstat ||| pciCommandMemory)

def loop (barsNum : Nat) (enumOnly : Bool) : (fuel bar : Nat) → State w → BitVec 16 → State w × BitVec 16
  | 0, _, s, cmdstat => (s, cmdstat)
  | fuel + 1, bar, s, cmdstat =>
    if bar < barsNum then
      let (s, bar, cmdstat) := setupBar dev enumOnly bar s cmdstat
      loop barsNum enumOnly fuel bar s cmdstat
    else
      (s, cmdstat)

def setupRom (s : State w) (cmdstat : BitVec 16) : State w × BitVec 16 :=
  if dev.headerType &&& 0x7f ≠ pciHeaderTypeCardbus then
    let s := s.writeRom 0xfffffffe
    let barResponse := s.readRom dev
    if barResponse ≠ 0 then
      let barSize := (-(barResponse &&& ~~~1#32)).setWidth w
      let s :=
        match s.allocate none .mem barSize with
        | none => s
        | some (barValue, s) => s.writeRom (barValue.setWidth 32)
      (s, cmdstat ||| pciCommandMemory)
    else
      (s, cmdstat)
  else
    (s, cmdstat)

end dmPciautoSetupDevice

open dmPciautoSetupDevice in
def dmPciautoSetupDevice {w : Nat} (dev : Device) (barsNum : Nat) (enumOnly : Bool) (s : State w) : State w :=
  let cmdstat := (s.config.command &&& ~~~(pciCommandIo ||| pciCommandMemory)) ||| pciCommandMaster
  -- Each iteration takes at least one register.
  let (s, cmdstat) := loop dev barsNum enumOnly barsNum 0 s cmdstat
  let (s, cmdstat) := if enumOnly then (s, cmdstat) else setupRom dev s cmdstat
  let cmdstat := if dev.pciClass = pciClassDisplayVga then cmdstat ||| pciCommandIo else cmdstat
  { s with config := { s.config with command := cmdstat, cacheLineSize := cacheLineSize, latencyTimer := 0x80 } }

end UBoot.Pci
