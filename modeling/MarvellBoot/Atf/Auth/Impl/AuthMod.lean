import MarvellBoot.Lib.Bytes
import MarvellBoot.Lib.Mem

/-!
The authentication module as in `drivers/auth/auth_mod.c`. The image parser, the crypto module and
the platform are parameters, the buffers of the extracted parameters are a memory of their own.
-/

namespace Atf.Auth

inductive AuthParamType where
  | none
  | rawData
  | sig
  | sigAlg
  | hash
  | pubKey
  | nvCtr
  deriving Repr, DecidableEq

-- The cookie is a pointer and compared as such.
structure AuthParamTypeDesc where
  type : AuthParamType
  cookie : Nat
  deriving Repr, DecidableEq

structure AuthParamDataDesc where
  ptr : Int
  len : Nat
  deriving Repr, DecidableEq

structure AuthParamDesc where
  typeDesc : Option AuthParamTypeDesc
  data : AuthParamDataDesc
  deriving Repr, DecidableEq

inductive ImgType where
  | raw
  | plat
  | cert
  deriving Repr, DecidableEq

inductive AuthMethodDesc where
  | none
  | hash (data hash : AuthParamTypeDesc)
  | sig (pk sig alg data : AuthParamTypeDesc)
  | nvCtr (certNvCtr platNvCtr : AuthParamTypeDesc)
  | unknown
  deriving Repr, DecidableEq

structure AuthImgDesc where
  imgId : Nat
  imgType : ImgType
  parent : Option Nat
  imgAuthMethods : List AuthMethodDesc
  authenticatedData : List AuthParamDesc
  deriving Repr, DecidableEq

/--
A chain of trust: `depth` witnesses that the parents form a forest.
-/
structure Cot where
  desc : Nat → AuthImgDesc
  depth : Nat → Nat
  depth_lt : ∀ {id p}, (desc id).parent = some p → depth p < depth id
  parent_imgId : ∀ {id p}, (desc id).parent = some p → (desc p).imgId = p

structure Buf where
  ptr : Nat → UInt8
  len : Nat

def Buf.bytes (buf : Buf) : List UInt8 := Bytes.load buf.ptr buf.len

structure RotpkInfo where
  rc : Int
  pk : List UInt8
  isHash : Bool
  notDeployed : Bool
  deriving Repr, DecidableEq

structure Env where
  checkIntegrity : ImgType → List UInt8 → Int
  getAuthParam : ImgType → AuthParamTypeDesc → List UInt8 → Int × Buf
  verifySignature : (data sig sigAlg pk : List UInt8) → Int
  verifyHash : (data digestInfo : List UInt8) → Int
  platGetRotpkInfo : Nat → RotpkInfo
  platGetNvCtr : (time cookie : Nat) → Int
  platSetNvCtr : (time cookie : Nat) → Int

/--
`owner` and `extracted` are not part of the code. They record which image a parameter was last
copied to a buffer from, and the last parameter that was extracted from an image.
-/
structure State where
  params : Int → UInt8
  authenticated : Nat → Bool
  nvCtr : Nat → UInt32
  time : Nat
  owner : Int → Option Nat
  extracted : Nat → AuthParamTypeDesc → Option (List UInt8)

def imgParserCheckIntegrity (env : Env) (imgType : ImgType) (img : Buf) : Int :=
  if imgType = .raw then 0 else env.checkIntegrity imgType img.bytes

def imgParserGetAuthParam (env : Env) (imgType : ImgType) (typeDesc : AuthParamTypeDesc) (img : Buf) : Int × Buf :=
  if imgType = .raw then (0, img) else env.getAuthParam imgType typeDesc img.bytes

-- The outer `none` is a NULL pointer that is followed, the inner one an error.
def authGetParam (typeDesc : AuthParamTypeDesc) : List AuthParamDesc → Option (Option AuthParamDataDesc)
  | [] => some none
  | entry :: entries =>
    match entry.typeDesc with
    | none => none
    | some entryType =>
      if entryType = typeDesc then some (some entry.data) else authGetParam typeDesc entries

def State.param (s : State) (data : AuthParamDataDesc) : List UInt8 := Mem.load s.params data.ptr data.len

section

variable (env : Env) (cot : Cot) (desc : AuthImgDesc) (img : Buf)

def authHash (data hash : AuthParamTypeDesc) (s : State) : Option Int :=
  match desc.parent with
  | none => none
  | some parent =>
    match authGetParam hash (cot.desc parent).authenticatedData with
    | none => none
    | some none => some 1
    | some (some hashDer) =>
      let (rc, data) := imgParserGetAuthParam env desc.imgType data img
      if rc ≠ 0 then
        some rc
      else
        some (env.verifyHash data.bytes (s.param hashDer))

-- `none` is a NULL pointer that is followed.
def authSignature.getPk (pk : AuthParamTypeDesc) (s : State) : Option RotpkInfo :=
  match desc.parent with
  | none => some (env.platGetRotpkInfo pk.cookie)
  | some parent =>
    match authGetParam pk (cot.desc parent).authenticatedData with
    | none => none
    | some none => some { rc := 1, pk := [], isHash := false, notDeployed := false }
    | some (some data) =>
      some { rc := 0, pk := s.param data, isHash := false, notDeployed := false }

def authSignature.verify (pk : AuthParamTypeDesc) (info : RotpkInfo) (data sig sigAlg : List UInt8) : Int :=
  if info.isHash || info.notDeployed then
    let (rc, key) := imgParserGetAuthParam env desc.imgType pk img
    if rc ≠ 0 then
      rc
    else
      let rc := env.verifySignature data sig sigAlg key.bytes
      if rc ≠ 0 then
        rc
      else if info.notDeployed then
        0
      else
        env.verifyHash key.bytes info.pk
  else
    env.verifySignature data sig sigAlg info.pk

def authSignature (pk sig alg data : AuthParamTypeDesc) (s : State) : Option Int :=
  let (rc, data) := imgParserGetAuthParam env desc.imgType data img
  if rc ≠ 0 then
    some rc
  else
    let (rc, sig) := imgParserGetAuthParam env desc.imgType sig img
    if rc ≠ 0 then
      some rc
    else
      let (rc, sigAlg) := imgParserGetAuthParam env desc.imgType alg img
      if rc ≠ 0 then
        some rc
      else
        match authSignature.getPk env cot desc pk s with
        | none => none
        | some info =>
          if info.rc ≠ 0 then
            some info.rc
          else
            some (authSignature.verify env desc img pk info data.bytes sig.bytes sigAlg.bytes)

def authNvctr.convert (p : Nat → UInt8) : Nat → UInt32
  | 0 => 0
  | i + 1 => convert p i <<< 8 ||| (p i).toUInt32

def authNvctr.parse (p : Nat → UInt8) : Option UInt32 :=
  if p 0 ≠ 0x02 then
    none
  else
    let len := (p 1 &&& 0x7f).toNat
    if p 1 &&& 0x80 ≠ 0 ∨ 4 < len then
      none
    else if p 2 &&& 0x80 ≠ 0 then
      none
    else
      some (convert (fun i => p (i + 2)) len)

def State.tick (s : State) : State := { s with time := s.time + 1 }

def State.setNvCtr (s : State) (cookie : Nat) (value : UInt32) : State :=
  { s with nvCtr := fun c => if c = cookie then value else s.nvCtr c }

def authNvctr (certNvCtr platNvCtr : AuthParamTypeDesc) (s : State) : Int × State :=
  let (rc, data) := imgParserGetAuthParam env desc.imgType certNvCtr img
  if rc ≠ 0 then
    (rc, s)
  else
    match authNvctr.parse data.ptr with
    | none => (1, s)
    | some certValue =>
      let rc := env.platGetNvCtr s.time platNvCtr.cookie
      let s := s.tick
      let platValue := s.nvCtr platNvCtr.cookie
      if rc ≠ 0 then
        (rc, s)
      else if certValue < platValue then
        (1, s)
      else if platValue < certValue then
        if desc.parent = none then
          let rc := env.platSetNvCtr s.time platNvCtr.cookie
          let s := s.tick
          if rc ≠ 0 then (rc, s) else (0, s.setNvCtr platNvCtr.cookie certValue)
        else
          (1, s)
      else
        (0, s)

namespace authModVerifyImg

def method (s : State) : AuthMethodDesc → Option (Int × State)
  | .none => some (0, s)
  | .hash data hash => (authHash env cot desc img data hash s).map fun rc => (rc, s)
  | .sig pk sig alg data => (authSignature env cot desc img pk sig alg data s).map fun rc => (rc, s)
  | .nvCtr certNvCtr platNvCtr => some (authNvctr env desc img certNvCtr platNvCtr s)
  | .unknown => some (1, s)

def methods : List AuthMethodDesc → State → Option (Int × State)
  | [], s => some (0, s)
  | m :: ms, s =>
    match method env cot desc img s m with
    | none => none
    | some (rc, s) => if rc ≠ 0 then some (rc, s) else methods ms s

def copy (entry : AuthParamDataDesc) (typeDesc : AuthParamTypeDesc) (param : Buf) (s : State) : State :=
  {
    s with
    params := Mem.store s.params entry.ptr param.bytes
    owner := fun a => if a = entry.ptr then some desc.imgId else s.owner a
    extracted := fun id t =>
      if id = desc.imgId ∧ t = typeDesc then some param.bytes else s.extracted id t
  }

def extract : List AuthParamDesc → State → Int × State
  | [], s => (0, s)
  | entry :: entries, s =>
    match entry.typeDesc with
    | none => extract entries s
    | some typeDesc =>
      let (rc, param) := imgParserGetAuthParam env desc.imgType typeDesc img
      if rc ≠ 0 then
        (rc, s)
      else if entry.data.len < param.len then
        (1, s)
      else
        extract entries (copy desc entry.data typeDesc param s)

end authModVerifyImg

end

def State.setAuthenticated (s : State) (imgId : Nat) : State :=
  { s with authenticated := fun id => if id = imgId then true else s.authenticated id }

open authModVerifyImg in
def authModVerifyImg (env : Env) (cot : Cot) (imgId : Nat) (img : Buf) (s : State) : Option (Int × State) :=
  let desc := cot.desc imgId
  let rc := imgParserCheckIntegrity env desc.imgType img
  if rc ≠ 0 then
    some (rc, s)
  else
    match methods env cot desc img desc.imgAuthMethods s with
    | none => none
    | some (rc, s) =>
      if rc ≠ 0 then
        some (rc, s)
      else
        let (rc, s) := extract env desc img desc.authenticatedData s
        if rc ≠ 0 then some (rc, s) else some (0, s.setAuthenticated desc.imgId)

-- `none` is the return value 1: there is no parent, or it is authenticated.
def authModGetParentId (cot : Cot) (imgId : Nat) (s : State) : Option Nat :=
  match (cot.desc imgId).parent with
  | none => none
  | some parent =>
    if s.authenticated (cot.desc parent).imgId then none else some (cot.desc parent).imgId

end Atf.Auth
