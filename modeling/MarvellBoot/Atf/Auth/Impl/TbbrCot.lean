import MarvellBoot.Atf.Auth.Impl.AuthMod

/-!
The chain of trust of `drivers/auth/tbbr/tbbr_cot.c`.
-/

namespace Atf.Auth
namespace Tbbr

def pkDerLen : Nat := 294

def hashDerLen : Nat := 51

def cotMaxVerifiedParams : Nat := 4

def authMethodNum : Nat := 4

def tbFwHashBuf : AuthParamDataDesc := { ptr := 0, len := hashDerLen }

def scpFwHashBuf : AuthParamDataDesc := { ptr := 51, len := hashDerLen }

def socFwHashBuf : AuthParamDataDesc := { ptr := 102, len := hashDerLen }

def tosFwHashBuf : AuthParamDataDesc := { ptr := 153, len := hashDerLen }

def ntWorldBlHashBuf : AuthParamDataDesc := { ptr := 204, len := hashDerLen }

def trustedWorldPkBuf : AuthParamDataDesc := { ptr := 255, len := pkDerLen }

def nonTrustedWorldPkBuf : AuthParamDataDesc := { ptr := 549, len := pkDerLen }

def contentPkBuf : AuthParamDataDesc := { ptr := 843, len := pkDerLen }

def trustedNvCtr : AuthParamTypeDesc := { type := .nvCtr, cookie := 1 }

def nonTrustedNvCtr : AuthParamTypeDesc := { type := .nvCtr, cookie := 2 }

def subjectPk : AuthParamTypeDesc := { type := .pubKey, cookie := 0 }

def sig : AuthParamTypeDesc := { type := .sig, cookie := 0 }

def sigAlg : AuthParamTypeDesc := { type := .sigAlg, cookie := 0 }

def rawData : AuthParamTypeDesc := { type := .rawData, cookie := 0 }

def trustedWorldPk : AuthParamTypeDesc := { type := .pubKey, cookie := 3 }

def nonTrustedWorldPk : AuthParamTypeDesc := { type := .pubKey, cookie := 4 }

def scpFwContentPk : AuthParamTypeDesc := { type := .pubKey, cookie := 5 }

def socFwContentPk : AuthParamTypeDesc := { type := .pubKey, cookie := 6 }

def tosFwContentPk : AuthParamTypeDesc := { type := .pubKey, cookie := 7 }

def ntFwContentPk : AuthParamTypeDesc := { type := .pubKey, cookie := 8 }

def tbFwHash : AuthParamTypeDesc := { type := .hash, cookie := 9 }

def scpFwHash : AuthParamTypeDesc := { type := .hash, cookie := 10 }

def socFwHash : AuthParamTypeDesc := { type := .hash, cookie := 11 }

def tosFwHash : AuthParamTypeDesc := { type := .hash, cookie := 12 }

def ntWorldBlHash : AuthParamTypeDesc := { type := .hash, cookie := 13 }

def scpBl2uHash : AuthParamTypeDesc := { type := .hash, cookie := 14 }

def bl2uHash : AuthParamTypeDesc := { type := .hash, cookie := 15 }

def nsBl2uHash : AuthParamTypeDesc := { type := .hash, cookie := 16 }

def bl2ImageId : Nat := 1

def scpBl2ImageId : Nat := 2

def bl31ImageId : Nat := 3

def bl32ImageId : Nat := 4

def bl33ImageId : Nat := 5

def trustedBootFwCertId : Nat := 6

def trustedKeyCertId : Nat := 7

def scpFwKeyCertId : Nat := 8

def socFwKeyCertId : Nat := 9

def trustedOsFwKeyCertId : Nat := 10

def nonTrustedFwKeyCertId : Nat := 11

def scpFwContentCertId : Nat := 12

def socFwContentCertId : Nat := 13

def trustedOsFwContentCertId : Nat := 14

def nonTrustedFwContentCertId : Nat := 15

def fwuCertId : Nat := 17

def scpBl2uImageId : Nat := 18

def bl2uImageId : Nat := 19

def nsBl2uImageId : Nat := 20

-- The elements of an array that are not initialised are zero.
def imgAuthMethods (methods : List AuthMethodDesc) : List AuthMethodDesc :=
  methods ++ List.replicate (authMethodNum - methods.length) .none

def authenticatedData (params : List (AuthParamTypeDesc × AuthParamDataDesc)) : List AuthParamDesc :=
  params.map (fun param => { typeDesc := some param.1, data := param.2 })
    ++ List.replicate (cotMaxVerifiedParams - params.length) { typeDesc := none, data := { ptr := 0, len := 0 } }

def cert (imgId : Nat) (parent : Option Nat) (pk : AuthParamTypeDesc) (nvCtr : Option AuthParamTypeDesc)
    (params : List (AuthParamTypeDesc × AuthParamDataDesc)) : AuthImgDesc :=
  {
    imgId
    imgType := .cert
    parent
    imgAuthMethods := imgAuthMethods <| .sig pk sig sigAlg rawData :: (nvCtr.map fun ctr => .nvCtr ctr ctr).toList
    authenticatedData := authenticatedData params
  }

def image (imgId parent : Nat) (hash : AuthParamTypeDesc) : AuthImgDesc :=
  {
    imgId
    imgType := .raw
    parent := some parent
    imgAuthMethods := imgAuthMethods [.hash rawData hash]
    authenticatedData := authenticatedData []
  }

def cotDesc (id : Nat) : AuthImgDesc :=
  match id with
  | 6 => cert trustedBootFwCertId none subjectPk trustedNvCtr [(tbFwHash, tbFwHashBuf)]
  | 1 => image bl2ImageId trustedBootFwCertId tbFwHash
  | 7 => cert trustedKeyCertId none subjectPk trustedNvCtr
      [(trustedWorldPk, trustedWorldPkBuf), (nonTrustedWorldPk, nonTrustedWorldPkBuf)]
  | 8 => cert scpFwKeyCertId trustedKeyCertId trustedWorldPk trustedNvCtr [(scpFwContentPk, contentPkBuf)]
  | 12 => cert scpFwContentCertId scpFwKeyCertId scpFwContentPk trustedNvCtr [(scpFwHash, scpFwHashBuf)]
  | 2 => image scpBl2ImageId scpFwContentCertId scpFwHash
  | 9 => cert socFwKeyCertId trustedKeyCertId trustedWorldPk trustedNvCtr [(socFwContentPk, contentPkBuf)]
  | 13 => cert socFwContentCertId socFwKeyCertId socFwContentPk trustedNvCtr [(socFwHash, socFwHashBuf)]
  | 3 => image bl31ImageId socFwContentCertId socFwHash
  | 10 => cert trustedOsFwKeyCertId trustedKeyCertId trustedWorldPk trustedNvCtr [(tosFwContentPk, contentPkBuf)]
  | 14 => cert trustedOsFwContentCertId trustedOsFwKeyCertId tosFwContentPk trustedNvCtr [(tosFwHash, tosFwHashBuf)]
  | 4 => image bl32ImageId trustedOsFwContentCertId tosFwHash
  | 11 => cert nonTrustedFwKeyCertId trustedKeyCertId nonTrustedWorldPk nonTrustedNvCtr [(ntFwContentPk, contentPkBuf)]
  | 15 => cert nonTrustedFwContentCertId nonTrustedFwKeyCertId ntFwContentPk nonTrustedNvCtr
      [(ntWorldBlHash, ntWorldBlHashBuf)]
  | 5 => image bl33ImageId nonTrustedFwContentCertId ntWorldBlHash
  | 17 => cert fwuCertId none subjectPk none
      [(scpBl2uHash, scpFwHashBuf), (bl2uHash, tbFwHashBuf), (nsBl2uHash, ntWorldBlHashBuf)]
  | 18 => image scpBl2uImageId fwuCertId scpBl2uHash
  | 19 => image bl2uImageId fwuCertId bl2uHash
  | 20 => image nsBl2uImageId fwuCertId nsBl2uHash
  | _ => {
      imgId := 0
      imgType := .raw
      parent := none
      imgAuthMethods := imgAuthMethods []
      authenticatedData := authenticatedData []
    }

def depth (id : Nat) : Nat :=
  match id with
  | 2 | 3 | 4 | 5 => 3
  | 12 | 13 | 14 | 15 => 2
  | 1 | 8 | 9 | 10 | 11 | 18 | 19 | 20 => 1
  | _ => 0

lemma parent_spec {id p : Nat} (h : (cotDesc id).parent = some p) : depth p < depth id ∧ (cotDesc p).imgId = p := by
  unfold cotDesc at h
  split at h
  all_goals cases h
  all_goals decide

def tbbrCot : Cot where
  desc := cotDesc
  depth := depth
  depth_lt h := (parent_spec h).1
  parent_imgId h := (parent_spec h).2

end Tbbr
end Atf.Auth
