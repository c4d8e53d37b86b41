import MarvellBoot.UBoot.Rsa.Impl.ModExp

/-!
PKCS #1 v1.5 verification as in `lib/rsa/rsa-verify.c`. A buffer is the list of its bytes, a read
outside of it makes the result `none`.
-/

namespace UBoot.Rsa

def eacces : Int := -13

def rsaMaxSigBits : Nat := 4096

-- From `lib/string.c`: the bytes after the first difference are not read.
def memcmp : (cs ct : List UInt8) → (count : Nat) → Option Int
  | _, _, 0 => some 0
  | c :: cs, t :: ct, count + 1 =>
    let res : Int := c.toNat - t.toNat
    if res ≠ 0 then some res else memcmp cs ct count
  | _, _, _ + 1 => none

structure ChecksumAlgo where
  name : List Char
  checksumLen : Nat
  derLen : Nat
  derPrefix : List UInt8
  deriving Repr, DecidableEq

def sha1DerPrefix : List UInt8 :=
  [0x30, 0x21, 0x30, 0x09, 0x06, 0x05, 0x2b, 0x0e, 0x03, 0x02, 0x1a, 0x05, 0x00, 0x04, 0x14]

def sha256DerPrefix : List UInt8 :=
  [0x30, 0x31, 0x30, 0x0d, 0x06, 0x09, 0x60, 0x86, 0x48, 0x01, 0x65, 0x03, 0x04, 0x02, 0x01, 0x05, 0x00, 0x04, 0x20]

def checksumSha1 : ChecksumAlgo :=
  { name := ['s', 'h', 'a', '1'], checksumLen := 20, derLen := 15, derPrefix := sha1DerPrefix }

def checksumSha256 : ChecksumAlgo :=
  { name := ['s', 'h', 'a', '2', '5', '6'], checksumLen := 32, derLen := 19, derPrefix := sha256DerPrefix }

structure CryptoAlgo where
  name : List Char
  keyLen : Nat
  deriving Repr, DecidableEq

def cryptoRsa2048 : CryptoAlgo := { name := ['r', 's', 'a', '2', '0', '4', '8'], keyLen := 2048 / 8 }

def cryptoRsa4096 : CryptoAlgo := { name := ['r', 's', 'a', '4', '0', '9', '6'], keyLen := 4096 / 8 }

def byteAt (msg : List UInt8) (i : Int) : Option (BitVec 32) :=
  if i < 0 then none else msg[i.toNat]?.map fun b => BitVec.ofNat 32 b.toNat

def rsaVerifyPadding (msg : List UInt8) (padLen : Int) (algo : ChecksumAlgo)
    : Option (BitVec 32) := do
  let ret ← byteAt msg 0
  let ret := ret ||| ((← byteAt msg 1) ^^^ 0x01)
  let ffLen := padLen - algo.derLen - 3
  let ret := ret ||| ((← byteAt msg 2) ^^^ 0xff)
  -- The third argument is converted to `size_t`.
  let ret := ret ||| BitVec.ofInt 32 (← memcmp (msg.drop 2) (msg.drop 3) ((ffLen - 1) % 2 ^ 64).toNat)
  let ret := ret ||| (← byteAt msg (2 + ffLen))
  let der := msg.drop (3 + ffLen).toNat
  return ret ||| BitVec.ofInt 32 (← memcmp der algo.derPrefix algo.derLen)

-- The result is what `rsa_mod_exp` returns and what it leaves in `out`.
abbrev ModExp := KeyProp → List UInt8 → Option (Int × List UInt8)

-- `modExp` is `none` when there is no such device.
def rsaVerifyKey (modExp : Option ModExp) (prop : KeyProp) (sig hash : List UInt8) (keyLen : Nat)
    (algo : ChecksumAlgo) : Option Int :=
  if (sig.length : Int) ≠ Int.tdiv prop.numBits 8 % 2 ^ 32 then
    some einval
  else if rsaMaxSigBits / 8 < sig.length then
    some einval
  else
    match modExp with
    | none => some einval
    | some modExp => do
      let (ret, buf) ← modExp prop sig
      if ret ≠ 0 then
        return ret
      let padLen := Int.bmod (keyLen - algo.checksumLen) (2 ^ 32)
      let ret ← rsaVerifyPadding buf padLen algo
      if ret ≠ 0 then
        return einval
      let ret ← memcmp (buf.drop padLen.toNat) hash ((sig.length - padLen) % 2 ^ 32).toNat
      if ret ≠ 0 then
        return eacces
      return 0

end UBoot.Rsa
