import MarvellBoot.Lib.Flash

/-!
The redundant environment of `common/env_sf.c`. A copy of the environment starts with the CRC of its data and
the flags.
-/

namespace UBoot.EnvSf

open Mem

structure Config where
  envOffset : Nat
  envOffsetRedund : Nat
  envSize : Nat
  envSectSize : Nat
  deriving Repr, DecidableEq

def envHeaderSize : Nat := 5

def activeFlag : UInt8 := 1
def obsoleteFlag : UInt8 := 0

structure EnvT where
  crc : List UInt8
  flags : UInt8
  data : List UInt8
  deriving Repr, DecidableEq

def EnvT.bytes (env : EnvT) : List UInt8 := env.crc ++ [env.flags] ++ env.data

def le32 (x : UInt32) : List UInt8 := [x.toUInt8, (x >>> 8).toUInt8, (x >>> 16).toUInt8, (x >>> 24).toUInt8]

def Config.offset (cfg : Config) (copy : Bool) : Nat := if copy then cfg.envOffsetRedund else cfg.envOffset

def Config.sector (cfg : Config) : Nat :=
  if cfg.envSectSize < cfg.envSize then
    cfg.envSize / cfg.envSectSize + if cfg.envSize % cfg.envSectSize ≠ 0 then 1 else 0
  else
    1

def Config.eraseLen (cfg : Config) : Nat := cfg.sector * cfg.envSectSize

def readCopy (cfg : Config) (m : Int → UInt8) (copy : Bool) : EnvT where
  crc := load m (cfg.offset copy) 4
  flags := m (cfg.offset copy + 4)
  data := load m (cfg.offset copy + 5) (cfg.envSize - envHeaderSize)

inductive Op where
  | done
  | failed (ret : Int) (left : Int → UInt8)
  | cut (left : Int → UInt8)

-- The results of the probe, of `env_export`, of `memalign` and the read for the rest of the sector, and the
-- operations in their order.
structure SaveIo where
  probeError : Bool
  exported : Except Int (List UInt8)
  memalign : Bool
  readRet : Int
  erase : Op
  writeEnv : Op
  writeSaved : Op
  writeFlag : Op

inductive Saved where
  | returned (ret : Int) (envValid : Nat) (m : Int → UInt8)
  | cut (m : Int → UInt8)

def Op.andThen (op : Op) (envValid : Nat) (full : Int → UInt8) (next : (Int → UInt8) → Saved) : Saved :=
  match op with
  | done => next full
  | failed ret left => .returned ret envValid left
  | cut left => .cut left

def envNew (crc32 : List UInt8 → UInt32) (data : List UInt8) : EnvT where
  crc := le32 (crc32 data)
  flags := activeFlag
  data := data

def flashEnv (cfg : Config) (io : SaveIo) (env : EnvT) (saved : Option (List UInt8)) (envValid : Nat)
    (m : Int → UInt8) : Saved :=
  let new := cfg.offset (envValid == 1)
  let old := cfg.offset (envValid != 1)
  io.erase.andThen envValid (Flash.erase m new cfg.eraseLen) fun m =>
  io.writeEnv.andThen envValid (Flash.program m new env.bytes) fun m =>
  let flag m := io.writeFlag.andThen envValid (Flash.program m (old + 4) [obsoleteFlag]) fun m =>
    .returned 0 (if envValid = 2 then 1 else 2) m
  match saved with
  | none => flag m
  | some saved => io.writeSaved.andThen envValid (Flash.program m (new + cfg.envSize) saved) flag

def saveenv (cfg : Config) (crc32 : List UInt8 → UInt32) (io : SaveIo) (envValid : Nat) (m : Int → UInt8) : Saved :=
  if io.probeError then
    .returned 1 envValid m
  else
    match io.exported with
    | .error ret => .returned ret envValid m
    | .ok data =>
      let env := envNew crc32 data
      -- the sector is larger than the environment
      if cfg.envSize < cfg.envSectSize then
        if io.memalign = false then
          .returned 1 envValid m
        else if io.readRet ≠ 0 then
          .returned io.readRet envValid m
        else
          let saved := load m (cfg.offset (envValid == 1) + cfg.envSize) (cfg.envSectSize - cfg.envSize)
          flashEnv cfg io env (some saved) envValid m
      else
        flashEnv cfg io env none envValid m

inductive Import where
  | env (data : List UInt8)
  | default (errmsg : String)
  deriving Repr, DecidableEq

def crcOk (crc32 : List UInt8 → UInt32) (env : EnvT) : Bool := le32 (crc32 env.data) = env.crc

def checkFlags (flags1 flags2 : UInt8) : Nat :=
  if flags1 = activeFlag ∧ flags2 = obsoleteFlag then
    1
  else if flags1 = obsoleteFlag ∧ flags2 = activeFlag then
    2
  else if flags1 = flags2 then
    1
  else if flags1 = 0xff then
    1
  else if flags2 = 0xff then
    2
  else
    1

def envRelocateSpec (cfg : Config) (crc32 : List UInt8 → UInt32) (memalign probe : Bool) (read1Ret read2Ret : Int)
    (envValid : Nat) (m : Int → UInt8) : Nat × Import :=
  if memalign = false then
    (envValid, .default "!malloc() failed")
  else if probe = false then
    (envValid, .default "!spi_flash_probe() failed")
  else if read1Ret ≠ 0 then
    (envValid, .default "!spi_flash_read() failed")
  else
    let env1 := readCopy cfg m false
    let env2 := readCopy cfg m true
    let crc1Ok := crcOk crc32 env1
    let crc2Ok := if read2Ret = 0 then crcOk crc32 env2 else false
    match crc1Ok, crc2Ok with
    | false, false => (envValid, .default "!bad CRC")
    | true, false => (1, .env env1.data)
    | false, true => (2, .env env2.data)
    | true, true =>
      let envValid := checkFlags env1.flags env2.flags
      (envValid, .env (if envValid = 1 then env1 else env2).data)

end UBoot.EnvSf
