import MarvellBoot.UBoot.Fdt.Impl
import MarvellBoot.UBoot.Rsa.Impl.Verify

/-!
Verification with the keys of the control device tree as in `lib/rsa/rsa-verify.c`.
-/

namespace UBoot.Rsa

open Fdt Loop

def ebadf : Int := -9

def enoent : Int := -2

structure ImageSignInfo where
  keyname : Option Int
  fit : Blob
  nodeOffset : Int
  checksum : ChecksumAlgo
  crypto : CryptoAlgo
  fdtBlob : Blob
  requiredKeynode : Int

structure Primitives where
  calculate : ChecksumAlgo → List (List UInt8) → Int × List UInt8
  modExp : Option ModExp

def fitSigNodename : List UInt8 := ascii ['s', 'i', 'g', 'n', 'a', 't', 'u', 'r', 'e']

section

variable (prims : Primitives) (info : ImageSignInfo)

def rsaVerifyWithKeynode.pointer (blob : Blob) (p : Int) (i : Nat) : UInt8 := blob (p + i)

def rsaVerifyWithKeynode.keyProp (blob : Blob) (node : Int) : Option KeyProp := do
  let numBits ← fdtdecGetInt blob node (ascii ['r', 's', 'a', ',', 'n', 'u', 'm', '-', 'b', 'i', 't', 's']) 0
  let n0inv ← fdtdecGetInt blob node (ascii ['r', 's', 'a', ',', 'n', '0', '-', 'i', 'n', 'v', 'e', 'r', 's', 'e']) 0
  let (publicExponent, length) ← fdtGetprop blob node
    (ascii ['r', 's', 'a', ',', 'e', 'x', 'p', 'o', 'n', 'e', 'n', 't'])
  let (modulus, _) ← fdtGetprop blob node (ascii ['r', 's', 'a', ',', 'm', 'o', 'd', 'u', 'l', 'u', 's'])
  let (rr, _) ← fdtGetprop blob node (ascii ['r', 's', 'a', ',', 'r', '-', 's', 'q', 'u', 'a', 'r', 'e', 'd'])
  return {
    rr := rr.map (pointer blob)
    modulus := modulus.map (pointer blob)
    publicExponent := if toU64 length < 8 then none else publicExponent.map (pointer blob)
    n0inv := UInt32.ofNat (toU32 n0inv)
    numBits
    expLen := 8
  }

def rsaVerifyWithKeynode (hash sig : List UInt8) (node : Int) : Option Int :=
  if node < 0 then
    some ebadf
  else do
    let prop ← rsaVerifyWithKeynode.keyProp info.fdtBlob node
    if prop.numBits = 0 ∨ prop.modulus.isNone then
      return efault
    else
      rsaVerifyKey prims.modExp prop sig hash info.crypto.keyLen info.checksum

namespace rsaVerify

-- `snprintf` to a buffer of 100 bytes, a NULL string is printed as "<NULL>".
def hintName : List UInt8 :=
  let keyname :=
    match info.keyname with
    | none => ascii ['<', 'N', 'U', 'L', 'L', '>']
    | some p => Mem.load info.fit p (strnlen info.fit p (2 ^ 64))
  (ascii ['k', 'e', 'y', '-'] ++ keyname).take 99

-- The nodes are those of the FIT, from the offset of the node in the control tree on. The state has
-- the offset, the depth and the last result.
def body (hash sig : List UInt8) (node : Int) (s : (Int × Int) × Int) : Option (Next ((Int × Int) × Int) Int) :=
  let ((noffset, ndepth), ret) := s
  if 0 ≤ noffset ∧ 0 < ndepth then
    if ndepth = 1 ∧ noffset ≠ node then do
      let ret ← rsaVerifyWithKeynode prims info hash sig noffset
      if ret = 0 then
        return .done ret
      else
        return .again (← fdtNextNode info.fit noffset ndepth, ret)
    else do
      return .again (← fdtNextNode info.fit noffset ndepth, ret)
  else
    some (.done ret)

def anyKey (hash sig : List UInt8) (sigNode : Int) : Option Int := do
  let node ← fdtSubnodeOffset info.fdtBlob sigNode (hintName info)
  let ret ← rsaVerifyWithKeynode prims info hash sig node
  if ret = 0 then
    return ret
  else
    runM (body prims info hash sig node) maxSteps (← fdtNextNode info.fit sigNode 0, ret)

end rsaVerify

def rsaVerify (region : List (List UInt8)) (sig : List UInt8) : Option Int :=
  if info.crypto.keyLen < info.checksum.checksumLen then
    some einval
  else do
    let sigNode ← fdtSubnodeOffset info.fdtBlob 0 fitSigNodename
    if sigNode < 0 then
      return enoent
    else
      let (ret, hash) := prims.calculate info.checksum region
      if ret < 0 then
        return einval
      else if info.requiredKeynode ≠ -1 then
        let ret ← rsaVerifyWithKeynode prims info hash sig info.requiredKeynode
        if ret = 0 then return ret else rsaVerify.anyKey prims info hash sig sigNode
      else
        rsaVerify.anyKey prims info hash sig sigNode

end

end UBoot.Rsa
