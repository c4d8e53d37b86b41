import MarvellBoot.UBoot.Fdt.Regions
import MarvellBoot.UBoot.Rsa.Impl.RsaVerify

/-!
Signed images and configurations as in `common/image-sig.c`. `none` is a NULL pointer that is
followed, a write outside of an array or a loop that does not end.
-/

namespace UBoot.Image

open Fdt Loop Rsa

def imageMaxHashedNodes : Nat := 100

def eperm : Int := -1

def checksumAlgos : List ChecksumAlgo := [checksumSha1, checksumSha256]

def cryptoAlgos : List CryptoAlgo := [cryptoRsa2048, cryptoRsa4096]

section

variable (fit : Blob)

def imageGetChecksumAlgo (fullName : Int) : Option ChecksumAlgo :=
  checksumAlgos.find? fun algo =>
    Mem.load fit fullName (algo.name.length + 1) = ascii (algo.name ++ [','])

def imageGetCryptoAlgo (fullName : Int) : Option CryptoAlgo :=
  let str := Mem.load fit fullName (strnlen fit fullName (2 ^ 64))
  let comma := str.findIdx (· = ','.toNat.toUInt8)
  if comma = str.length then
    none
  else
    cryptoAlgos.find? fun algo => strcmpEq fit (fullName + comma + 1) (ascii algo.name)

def fitImageHashGetAlgo (noffset : Int) : Option (Option Int) := do
  let (algo, _) ← fdtGetprop fit noffset (ascii ['a', 'l', 'g', 'o'])
  return algo

def fitImageHashGetValue (noffset : Int) : Option (Option (Int × Int)) := do
  let (value, len) ← fdtGetprop fit noffset (ascii ['v', 'a', 'l', 'u', 'e'])
  return value.map fun value => (value, len)

end

structure Env where
  prims : Primitives
  gdFdtBlob : Blob

section

variable (env : Env) (fit : Blob)

-- The error is the message, the functions then return -1.
def fitImageSetupVerify (noffset requiredKeynode : Int) : Option (Except String ImageSignInfo) := do
  match ← fitImageHashGetAlgo fit noffset with
  | none => return .error "Can't get hash algo property"
  | some algoName =>
    let (keyname, _) ← fdtGetprop fit noffset (ascii ['k', 'e', 'y', '-', 'n', 'a', 'm', 'e', '-', 'h', 'i', 'n', 't'])
    match imageGetChecksumAlgo fit algoName, imageGetCryptoAlgo fit algoName with
    | some checksum, some crypto =>
      return .ok {
        keyname
        fit
        nodeOffset := noffset
        checksum
        crypto
        fdtBlob := env.gdFdtBlob
        requiredKeynode
      }
    | _, _ => return .error "Unknown signature algorithm"

def fitValueBytes (value : Int × Int) : List UInt8 := Mem.load fit value.1 (toU32 value.2)

def fitImageCheckSig (noffset : Int) (data : List UInt8) (requiredKeynode : Int)
    : Option (Except String Unit) := do
  match ← fitImageSetupVerify env fit noffset requiredKeynode with
  | .error msg => return .error msg
  | .ok info =>
    match ← fitImageHashGetValue fit noffset with
    | none => return .error "Can't get hash value property"
    | some value =>
      let ret ← rsaVerify env.prims info [data] (fitValueBytes fit value)
      return if ret ≠ 0 then .error "Verification failed" else .ok ()

namespace fitConfigCheckSig

def hashedNodes (noffset : Int) : Option (List UInt8) := do
  let (prop, propLen) ← fdtGetprop fit noffset (ascii ['h', 'a', 's', 'h', 'e', 'd', '-', 'n', 'o', 'd', 'e', 's'])
  return match prop with
    | none => []
    | some prop => Mem.load fit prop propLen.toNat

-- The strings of the property. There is room for as many as it has zero bytes.
def nodeInc (prop : List UInt8) : Option (List (List UInt8)) :=
  if prop.getLast? = some 0 then some (prop.dropLast.splitOn 0) else none

def findRegions (noffset : Int) : Option (Except String (List FdtRegion)) := do
  let hashedNodes ← hashedNodes fit noffset
  let count := hashedNodes.count 0
  if count = 0 then
    return .error "Can't get hashed-nodes property"
  else if imageMaxHashedNodes < count then
    return .error "Number of hashed nodes exceeds maximum"
  else
    let inc ← nodeInc hashedNodes
    let maxRegions := 20 + count * 7
    let (count, region) ← fdtFindRegions {
      fdt := fit
      inc
      excProp := [ascii ['d', 'a', 't', 'a']]
      maxRegions := maxRegions - 1
      pathLen := 200
    }
    if count < 0 then
      return .error "Failed to hash configuration"
    else if count = 0 then
      return .error "No data to hash"
    else if (maxRegions - 1 : Nat) ≤ count then
      return .error "Too many hash regions"
    else
      return .ok region

-- The region of `hashed-strings`, when there is one.
def strings (noffset : Int) : Option (List FdtRegion) := do
  let (strings, _) ← fdtGetprop fit noffset
    (ascii ['h', 'a', 's', 'h', 'e', 'd', '-', 's', 't', 'r', 'i', 'n', 'g', 's'])
  match strings with
  | none => return []
  | some strings =>
    return [{
      offset := toI32 (fdtOffDtStrings fit + fdt32ToCpu fit strings)
      size := toI32 (fdt32ToCpu fit (strings + 4))
    }]

end fitConfigCheckSig

def fitRegionMakeList (region : List FdtRegion) : List (List UInt8) :=
  region.map fun r => Mem.load fit r.offset (toU32 r.size)

def fitConfigCheckSig (noffset requiredKeynode : Int) : Option (Except String Unit) := do
  match ← fitImageSetupVerify env fit noffset requiredKeynode with
  | .error msg => return .error msg
  | .ok info =>
    match ← fitImageHashGetValue fit noffset with
    | none => return .error "Can't get hash value property"
    | some value =>
      match ← fitConfigCheckSig.findRegions fit noffset with
      | .error msg => return .error msg
      | .ok region =>
        let strings ← fitConfigCheckSig.strings fit noffset
        let ret ← rsaVerify env.prims info (fitRegionMakeList fit (region ++ strings)) (fitValueBytes fit value)
        return if ret ≠ 0 then .error "Verification failed" else .ok ()

-- The state of the loop is `noffset`, the result is it and `verified`.
def fitVerifySig.body (check : Int → Option (Except String Unit)) (noffset : Int) : Option (Next Int (Int × Bool)) :=
  if 0 ≤ noffset then
    match fdtGetName fit noffset with
    | none => none
    | some name =>
      if Mem.load fit name fitSigNodename.length = fitSigNodename then do
        match ← check noffset with
        | .ok () => return .done (noffset, true)
        | .error _ => return .again (← fdtNextSubnode fit noffset)
      else do
        return .again (← fdtNextSubnode fit noffset)
  else
    some (.done (noffset, false))

def fitVerifySig (check : Int → Option (Except String Unit)) (node : Int) : Option Int := do
  let noffset ← fdtFirstSubnode fit node
  let (noffset, verified) ← runM (fitVerifySig.body fit check) maxSteps noffset
  if noffset = -fdtErrTruncated ∨ noffset = -fdtErrBadstructure then
    return -1
  else
    return if verified then 0 else eperm

-- The required key is not handed on.
def fitImageVerifySig (imageNoffset : Int) (data : List UInt8) (_sigOffset : Int) : Option Int :=
  fitVerifySig fit (fun noffset => fitImageCheckSig env fit noffset data (-1)) imageNoffset

def fitConfigVerifySig (confNoffset sigOffset : Int) : Option Int :=
  fitVerifySig fit (fun noffset => fitConfigCheckSig env fit noffset sigOffset) confNoffset

-- The state is the key node and `verify_count`.
def fitVerifyRequiredSigs.body (sigBlob : Blob) (use : List UInt8) (verifySig : Int → Option Int) (s : Int × Nat)
    : Option (Next (Int × Nat) (Int × Nat)) :=
  let (noffset, verifyCount) := s
  if 0 ≤ noffset then do
    let (required, _) ← fdtGetprop sigBlob noffset (ascii ['r', 'e', 'q', 'u', 'i', 'r', 'e', 'd'])
    if required.any fun p => strcmpEq sigBlob p use then
      let ret ← verifySig noffset
      if ret ≠ 0 then
        return .done (ret, verifyCount)
      else
        return .again (← fdtNextSubnode sigBlob noffset, verifyCount + 1)
    else
      return .again (← fdtNextSubnode sigBlob noffset, verifyCount)
  else
    some (.done (0, verifyCount))

def fitVerifyRequiredSigs (sigBlob : Blob) (use : List UInt8) (verifySig : Int → Option Int)
    : Option (Int × Nat) := do
  let sigNode ← fdtSubnodeOffset sigBlob 0 fitSigNodename
  if sigNode < 0 then
    return (0, 0)
  else
    let noffset ← fdtFirstSubnode sigBlob sigNode
    runM (fitVerifyRequiredSigs.body sigBlob use verifySig) maxSteps (noffset, 0)

def useImage : List UInt8 := ascii ['i', 'm', 'a', 'g', 'e']

def useConf : List UInt8 := ascii ['c', 'o', 'n', 'f']

-- The second result is `*no_sigsp`.
def fitImageVerifyRequiredSigs (imageNoffset : Int) (data : List UInt8) (sigBlob : Blob)
    : Option (Int × Bool) := do
  let (ret, verifyCount) ← fitVerifyRequiredSigs sigBlob useImage (fitImageVerifySig env fit imageNoffset data)
  return (ret, ret ≠ 0 ∨ verifyCount = 0)

def fitConfigVerifyRequiredSigs (confNoffset : Int) (sigBlob : Blob) : Option Int := do
  let (ret, _) ← fitVerifyRequiredSigs sigBlob useConf (fitConfigVerifySig env fit confNoffset)
  return ret

end

end UBoot.Image
