import MarvellBoot.UBoot.PartEfi.Impl

/-!
The updates of the board in `rcboot/wg/sag_100/sag_100.c`. The commands that are run are recorded, what comes
of them is a parameter.
-/

namespace UBoot.Sag100

open PartEfi

def sysLen : UInt32 := 0x40000
def dataLen : UInt32 := 0x40000
def loadAddr : UInt32 := 0x5000000

inductive Command where
  | tftpboot (addr : UInt32) (name : List UInt8)
  | mmcDev
  | mmcRead (addr : UInt32) (start : UInt64) (cnt : UInt32)
  | mmcWrite (addr : UInt32) (start : UInt64) (cnt : UInt32)
  | reset
  deriving DecidableEq

def cmdRetFailure : Int := 1

structure Env where
  fileName : Except Int (List UInt8)
  run : Command → Int
  mmc : Option (BlkDesc × Disk)

structure Result where
  efiPart : EfiPart
  commands : List Command
  ret : Int

def getPartInfo (crc32 : List UInt8 → UInt32) (mmc : Option (BlkDesc × Disk)) (efiPart : EfiPart) : EfiPart × Int :=
  match mmc with
  | none => (efiPart, cmdRetFailure)
  | some (dev, disk) => partEfi crc32 dev disk efiPart

section

variable (crc32 : List UInt8 → UInt32) (env : Env)

def update (i : Fin 3) (len : UInt32) (efiPart : EfiPart) : Result :=
  let res := getPartInfo crc32 env.mmc efiPart
  let efiPart := res.1
  if res.2 ≠ 0 then
    ⟨efiPart, [], -1⟩
  else
    match env.fileName with
    | .error ret => ⟨efiPart, [], ret⟩
    | .ok name =>
      let tftp := .tftpboot loadAddr name
      if env.run tftp ≠ 0 then
        ⟨efiPart, [tftp], cmdRetFailure⟩
      else
        let write := .mmcWrite loadAddr (efiPart.get i).startLpa len
        ⟨efiPart, [tftp, .mmcDev, write], env.run .mmcDev + env.run write⟩

def doSysup (efiPart : EfiPart) : Result := update crc32 env 0 sysLen efiPart

def doDataUpdate (efiPart : EfiPart) : Result := update crc32 env 1 dataLen efiPart

def doSysRecovry (efiPart : EfiPart) : Result := update crc32 env 2 sysLen efiPart

def resetSysRecovry (efiPart : EfiPart) : Result :=
  let res := getPartInfo crc32 env.mmc efiPart
  let efiPart := res.1
  if res.2 ≠ 0 then
    ⟨efiPart, [], -1⟩
  else
    let read := .mmcRead loadAddr (efiPart.get 2).startLpa sysLen
    let write := .mmcWrite loadAddr (efiPart.get 0).startLpa sysLen
    ⟨efiPart, [.mmcDev, read, write, .reset], env.run .mmcDev + env.run read + env.run write + env.run .reset⟩

end

def EfiPart.init : EfiPart := Vector.replicate 3 ⟨0, 0, []⟩

def leftOver (crc32 : List UInt8 → UInt32) (history : List (Option (BlkDesc × Disk))) : EfiPart :=
  history.foldl (fun efiPart mmc => (getPartInfo crc32 mmc efiPart).1) EfiPart.init

def Command.blocks : Command → List Nat
  | .mmcWrite _ start cnt => (List.range cnt.toNat).map fun i => start.toUInt32.toNat + i
  | _ => []

inductive Operation where
  | sysup
  | data
  | recovry
  | reset
  deriving Repr, DecidableEq

def Operation.call (crc32 : List UInt8 → UInt32) (env : Env) : Operation → EfiPart → Result
  | .sysup => doSysup crc32 env
  | .data => doDataUpdate crc32 env
  | .recovry => doSysRecovry crc32 env
  | .reset => resetSysRecovry crc32 env

def Operation.entry : Operation → Fin 3
  | .sysup => 0
  | .data => 1
  | .recovry => 2
  | .reset => 0

end UBoot.Sag100
