import MarvellBoot.Lib.Flash
import MarvellBoot.Lib.Loop

/-!
The `sf update` command of `cmd/sf.c`. Addresses and lengths of the flash are 32 bit values.
-/

namespace UBoot

structure SpiFlash (σ : Type) where
  size : Nat
  sectorSize : Nat
  eraseSize : Nat
  size_lt : size < 2 ^ 32
  contents : σ → Int → UInt8
  read : σ → (offset len : Nat) → Option (List UInt8) × σ
  erase : σ → (offset len : Nat) → Bool × σ
  write : σ → (offset : Nat) → (data : List UInt8) → Bool × σ

namespace SpiFlash

inductive ErrOper where
  | malloc
  | read
  | erase
  | write
  deriving Repr, DecidableEq

section

variable {σ : Type} (flash : SpiFlash σ)

-- The step that failed, the number of skipped bytes and the state.
def spiFlashUpdateBlock (s : σ) (offset len : Nat) (buf : List UInt8) (skipped : Nat) : Option ErrOper × Nat × σ :=
  match flash.read s offset flash.sectorSize with
  | (none, s) => (some .read, skipped, s)
  | (some cmpBuf, s) =>
    if cmpBuf.take len = buf.take len then
      (none, skipped + len, s)
    else
      match flash.erase s offset flash.sectorSize with
      | (false, s) => (some .erase, skipped, s)
      | (true, s) =>
        let ptr := if len ≠ flash.sectorSize then buf.take len ++ cmpBuf.drop len else buf
        match flash.write s offset (ptr.take flash.sectorSize) with
        | (false, s) => (some .write, skipped, s)
        | (true, s) => (none, skipped, s)

structure Update (σ : Type) where
  s : σ
  offset : Nat
  buf : List UInt8
  skipped : Nat
  errOper : Option ErrOper

def updateBody (u : Update σ) : Loop.Next (Update σ) (Update σ) :=
  if u.buf ≠ [] ∧ u.errOper = none then
    let todo := min u.buf.length flash.sectorSize
    let (errOper, skipped, s) := spiFlashUpdateBlock flash u.s u.offset todo u.buf u.skipped
    .again ⟨s, (u.offset + todo) % 2 ^ 32, u.buf.drop todo, skipped, errOper⟩
  else
    .done u

-- The return value and the state, `memalign` says whether there is memory for the comparison buffer.
def spiFlashUpdate (memalign : Bool) (s : σ) (offset : Nat) (buf : List UInt8) (fuel : Nat) : Option (Int × σ) :=
  let err :=
    if memalign then
      Loop.run (updateBody flash) fuel ⟨s, offset, buf, 0, none⟩
    else
      some ⟨s, offset, buf, 0, some .malloc⟩
  err.map fun u => (if u.errOper.isSome then 1 else 0, u.s)

end

end SpiFlash
end UBoot
