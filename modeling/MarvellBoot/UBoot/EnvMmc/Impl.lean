import Mathlib

/-!
The redundant environment of `common/env_mmc.c`. The card is seen as the two copies of the
environment, what the block device does to a copy is a parameter.
-/

namespace UBoot.EnvMmc

structure EnvT where
  crc : UInt32
  flags : UInt8
  data : List UInt8
  deriving Repr, DecidableEq

abbrev Card := Bool → EnvT

structure Ram where
  envValid : Nat
  envFlags : UInt8
  deriving Repr, DecidableEq

inductive Write where
  | done
  | failed (left : EnvT)
  | cut (left : EnvT)
  deriving Repr, DecidableEq

structure SaveIo where
  initError : Option String
  exported : Except Int (List UInt8)
  addrError : Bool
  write : Write

inductive Saved where
  | returned (ret : Int) (ram : Ram) (card : Card)
  | cut (card : Card)

def saveenv (crc32 : List UInt8 → UInt32) (io : SaveIo) (ram : Ram) (card : Card) : Saved :=
  match io.initError with
  | some _ => .returned 1 ram card
  | none =>
    match io.exported with
    | .error ret => .returned ret ram card
    | .ok data =>
      -- increase the serial
      let envNew : EnvT := { crc := crc32 data, flags := ram.envFlags + 1, data }
      let ram := { ram with envFlags := ram.envFlags + 1 }
      let copy := ram.envValid == 1
      if io.addrError then
        .returned 1 ram card
      else
        match io.write with
        | .failed left => .returned 1 ram (Function.update card copy left)
        | .cut left => .cut (Function.update card copy left)
        | .done =>
          let ram := { ram with envValid := if ram.envValid = 2 then 1 else 2 }
          .returned 0 ram (Function.update card copy envNew)

structure RelocateIo where
  initError : Option String
  addrError : Bool
  read1 : Option EnvT
  read2 : Option EnvT

inductive Import where
  | env (data : List UInt8)
  | default (errmsg : Option String)
  deriving Repr, DecidableEq

def crcOk (crc32 : List UInt8 → UInt32) (env : EnvT) : Bool := crc32 env.data == env.crc

def checkSerial (flags1 flags2 : UInt8) : Nat :=
  if flags1 = 255 ∧ flags2 = 0 then
    2
  else if flags2 = 255 ∧ flags1 = 0 then
    1
  else if flags1 > flags2 then
    1
  else if flags2 > flags1 then
    2
  else
    1

def envRelocateSpec (crc32 : List UInt8 → UInt32) (io : RelocateIo) (ram : Ram) : Ram × Import :=
  match io.initError with
  | some errmsg => (ram, .default (some errmsg))
  | none =>
    if io.addrError then
      (ram, .default none)
    else
      match io.read1.filter (crcOk crc32), io.read2.filter (crcOk crc32) with
      | none, none => (ram, .default (some "!bad CRC"))
      | some env1, none => ({ envValid := 1, envFlags := env1.flags }, .env env1.data)
      | none, some env2 => ({ envValid := 2, envFlags := env2.flags }, .env env2.data)
      | some env1, some env2 =>
        let envValid := checkSerial env1.flags env2.flags
        let ep := if envValid = 1 then env1 else env2
        ({ envValid, envFlags := ep.flags }, .env ep.data)

end UBoot.EnvMmc
