import MarvellBoot.Lib.Bytes

/-!
Modular exponentiation as in `lib/rsa/rsa-mod-exp.c`. Arrays of words are little endian lists,
`uint64_t` values are natural numbers that every operation reduces.
-/

namespace UBoot.Rsa

structure RsaPublicKey where
  len : Nat
  n0inv : UInt32
  modulus : List UInt32
  rr : List UInt32
  exponent : UInt64
  deriving Repr, DecidableEq

def rsaMaxKeyBits : Nat := 4096

def rsaMinKeyBits : Nat := 2048

def einval : Int := -22

def efault : Int := -14

def u64 (x : Nat) : Nat := x % 2 ^ 64

def overflows (x : Nat) : Bool := 2 ^ 64 ≤ x

-- `acc` is an `int64_t`, the shift by 32 rounds towards minus infinity.
def subtractModulus.go : Int → List UInt32 → List UInt32 → List UInt32
  | acc, num :: nums, modulus :: moduli =>
    let acc := Int.bmod (acc + (num.toNat - modulus.toNat)) (2 ^ 64)
    UInt32.ofNat (acc % 2 ^ 32).toNat :: go (acc / 2 ^ 32) nums moduli
  | _, _, _ => []

def subtractModulus (key : RsaPublicKey) (num : List UInt32) : List UInt32 := subtractModulus.go 0 num key.modulus

def greaterEqualModulus.go : List UInt32 → List UInt32 → Bool
  | num :: nums, modulus :: moduli =>
    if num < modulus then
      false
    else if modulus < num then
      true
    else
      go nums moduli
  | _, _ => true

def greaterEqualModulus (key : RsaPublicKey) (num : List UInt32) : Bool :=
  greaterEqualModulus.go num.reverse key.modulus.reverse

-- `overflow` is not part of the code, it records that a `uint64_t` sum did not fit.
structure Words where
  words : List UInt32
  overflow : Bool
  deriving Repr, DecidableEq

namespace montgomeryMulAddStep

structure Accs where
  accA : Nat
  accB : Nat
  overflow : Bool

def sumA (accA : Nat) (a b result : UInt32) : Nat := accA / 2 ^ 32 + a.toNat * b.toNat + result.toNat

def sumB (accA accB : Nat) (d0 modulus : UInt32) : Nat := accB / 2 ^ 32 + d0.toNat * modulus.toNat + accA % 2 ^ 32

def go (a d0 : UInt32) : Accs → List UInt32 → List UInt32 → List UInt32 → List UInt32 × Accs
  | acc, b :: bs, result :: results, modulus :: moduli =>
    let sa := sumA acc.accA a b result
    let accA := u64 sa
    let sb := sumB accA acc.accB d0 modulus
    let accB := u64 sb
    let overflow := acc.overflow || overflows sa || overflows sb
    let (words, acc) := go a d0 { accA, accB, overflow } bs results moduli
    (UInt32.ofNat accB :: words, acc)
  | acc, _, _, _ => ([], acc)

end montgomeryMulAddStep

open montgomeryMulAddStep in
def montgomeryMulAddStep (key : RsaPublicKey) (result : Words) (a : UInt32) (b : List UInt32) : Words :=
  match b, result.words, key.modulus with
  | b0 :: bs, result0 :: results, modulus0 :: moduli =>
    let sa := sumA 0 a b0 result0
    let accA := u64 sa
    let d0 := UInt32.ofNat accA * key.n0inv
    let sb := sumB accA 0 d0 modulus0
    let accB := u64 sb
    let overflow := result.overflow || overflows sa || overflows sb
    let (words, acc) := go a d0 { accA, accB, overflow } bs results moduli
    let accA := acc.accA / 2 ^ 32 + acc.accB / 2 ^ 32
    let words := words ++ [UInt32.ofNat accA]
    let words := if accA / 2 ^ 32 ≠ 0 then subtractModulus key words else words
    { words, overflow := acc.overflow || overflows accA }
  | _, _, _ => result

def montgomeryMul (key : RsaPublicKey) (a b : Words) : Words :=
  let zero := { words := List.replicate key.len 0, overflow := a.overflow || b.overflow }
  a.words.foldl (fun result a => montgomeryMulAddStep key result a b.words) zero

def numPublicExponentBits.go : (left bits exponent : Nat) → Option Nat
  | 0, _, _ => none
  | left + 1, bits, exponent =>
    let exponent := exponent / 2
    if exponent = 0 then some bits else go left (bits + 1) exponent

-- `none` is -EINVAL.
def numPublicExponentBits (key : RsaPublicKey) : Option Nat :=
  if key.exponent = 0 then
    some 0
  else
    numPublicExponentBits.go 64 1 key.exponent.toNat

-- The bit is isolated in a `uint64_t` and returned as `int`.
def isPublicExponentBitSet (key : RsaPublicKey) (pos : Nat) : Int :=
  Int.bmod (key.exponent.toNat &&& u64 (1 <<< pos) : Nat) (2 ^ 32)

def powMod.loop (key : RsaPublicKey) (aScaled : Words) : Nat → Words → Words
  | 0, acc => acc
  | j + 1, acc =>
    let tmp := montgomeryMul key acc acc
    let acc :=
      if isPublicExponentBitSet key (j + 1) ≠ 0 then
        montgomeryMul key tmp aScaled
      else
        tmp
    loop key aScaled j acc

-- The words of `inout` are those that `get_unaligned_be32` and `put_unaligned_be32` access.
def powMod (key : RsaPublicKey) (inout : List UInt32) : Int × Words :=
  let fail := (einval, { words := inout, overflow := false })
  if rsaMaxKeyBits / 32 < key.len then
    fail
  else
    let val : Words := { words := (inout.take key.len).reverse, overflow := false }
    match numPublicExponentBits key with
    | none => fail
    | some k =>
      if k < 2 then
        fail
      else if isPublicExponentBitSet key 0 = 0 then
        fail
      else
        let acc := montgomeryMul key val { words := key.rr, overflow := false }
        let acc := powMod.loop key acc (k - 2) acc
        let tmp := montgomeryMul key acc acc
        let result := montgomeryMul key tmp val
        let words :=
          if greaterEqualModulus key result.words then
            subtractModulus key result.words
          else
            result.words
        (0, { words := words.reverse ++ inout.drop key.len, overflow := result.overflow })

-- The pointers are those of a `struct key_prop`, `none` is NULL.
structure KeyProp where
  rr : Option (Nat → UInt8)
  modulus : Option (Nat → UInt8)
  publicExponent : Option (Nat → UInt8)
  n0inv : UInt32
  numBits : Int
  expLen : Nat

def rsaDefaultPubexp : UInt64 := 65537

def rsaConvertBigEndian (src : Nat → UInt8) (len : Nat) : List UInt32 :=
  (Bytes.words (Bytes.load src (4 * len))).reverse

def rsaModExpSw.exponent (prop : KeyProp) : UInt64 :=
  match prop.publicExponent with
  | none => rsaDefaultPubexp
  | some publicExponent => UInt64.ofNat (Bytes.val (Bytes.load publicExponent 8))

def rsaModExpSw.publicKey (prop : KeyProp) (modulus rr : Nat → UInt8) (len : Nat) : RsaPublicKey :=
  {
    len
    n0inv := prop.n0inv
    modulus := rsaConvertBigEndian modulus len
    rr := rsaConvertBigEndian rr len
    exponent := exponent prop
  }

-- `none` is an access outside of `buf`, which has `sig_len / 4` words.
def rsaModExpSw (prop : KeyProp) (sig : List UInt8) : Option (Int × List UInt8) :=
  let len := (prop.numBits % 2 ^ 32).toNat
  match prop.modulus, prop.rr with
  | some modulus, some rr =>
    if len = 0 then
      some (efault, [])
    else if rsaMaxKeyBits < len ∨ len < rsaMinKeyBits then
      some (efault, [])
    else
      let len := len / 32
      if sig.length % 4 ≠ 0 ∨ sig.length / 4 < len then
        none
      else
        let (ret, buf) := powMod (rsaModExpSw.publicKey prop modulus rr len) (Bytes.words sig)
        if ret ≠ 0 then some (ret, []) else some (0, Bytes.ofWords buf.words)
  | _, _ => some (efault, [])

end UBoot.Rsa
