import MarvellBoot.UBoot.Fdt.Flatten
import MarvellBoot.UBoot.Image.Impl
import MarvellBoot.UBoot.Rsa.Lemmas.RsaVerify

namespace UBoot.Image

open Fdt Loop Rsa Option

variable {noffset n : Int} {s : Int × Nat} {res : Except String Unit} {next : Next (Int × Nat) (Int × Nat)}
  {data : List UInt8} {msg : String}

def NodeLive (noffset : Int) : Prop :=
  0 ≤ noffset
  deriving Decidable

def Subnode (fdt : Blob) (parent noffset : Int) : Prop :=
  0 ≤ noffset ∧ ∃ n₀, fdtFirstSubnode fdt parent = some n₀ ∧ Reach (fdtNextSubnode fdt) NodeLive n₀ noffset

lemma Subnode.eq_of_single {fdt : Blob} {parent n₀ : Int} (hfirst : fdtFirstSubnode fdt parent = some n₀)
    (hnext : fdtNextSubnode fdt n₀ = some (-1)) (h : Subnode fdt parent n) : n = n₀ := by
  have ⟨hlive, n1, hn1, hreach⟩ := h
  cases hfirst.symm.trans hn1
  cases hreach.cases_head with
  | inl heq => exact heq
  | inr hhead =>
    have ⟨_, n2, hn2, hreach⟩ := hhead
    cases hnext.symm.trans hn2
    cases hreach.cases_head with
    | inl heq => omega
    | inr hhead => exact absurd hhead.1 (by decide)

def SignatureName (fit : Blob) (noffset : Int) : Prop :=
  ∃ name, fdtGetName fit noffset = some name ∧ Mem.load fit name fitSigNodename.length = fitSigNodename

def SignatureNode (fit : Blob) (node noffset : Int) : Prop := Subnode fit node noffset ∧ SignatureName fit noffset

def RequiredFor (sigBlob : Blob) (use : List UInt8) (noffset : Int) : Prop :=
  ∃ p len, fdtGetprop sigBlob noffset (ascii ['r', 'e', 'q', 'u', 'i', 'r', 'e', 'd']) = some (some p, len)
    ∧ strcmpEq sigBlob p use = true

def RequiredKey (sigBlob : Blob) (use : List UInt8) (noffset : Int) : Prop :=
  ∃ sigNode, fdtSubnodeOffset sigBlob 0 fitSigNodename = some sigNode ∧ 0 ≤ sigNode
    ∧ Subnode sigBlob sigNode noffset ∧ RequiredFor sigBlob use noffset

section

variable {env : Env} {fit sigBlob : Blob} {check : Int → Option (Except String Unit)} {node ret : Int}

namespace fitVerifySig

def Hit (fit : Blob) (check : Int → Option (Except String Unit)) (noffset : Int) (r : Int × Bool) : Prop :=
  SignatureName fit noffset ∧ check noffset = some (.ok ()) ∧ r = (noffset, true)

def Fails (fit : Blob) (check : Int → Option (Except String Unit)) (noffset : Int) : Prop :=
  SignatureName fit noffset → ∃ msg, check noffset = some (.error msg)

def Accepted (fit : Blob) (check : Int → Option (Except String Unit)) (node noffset : Int) : Prop :=
  ∃ n₀, fdtFirstSubnode fit node = some n₀
    ∧ Reach (fdtNextSubnode fit) (fun n => NodeLive n ∧ Fails fit check n) n₀ noffset
    ∧ NodeLive noffset ∧ SignatureName fit noffset ∧ check noffset = some (.ok ())

lemma Accepted.signatureNode (h : Accepted fit check node n) : SignatureNode fit node n := by
  have ⟨n₀, hn0, hreach, hlive, hname, _⟩ := h
  exact ⟨⟨hlive, n₀, hn0, hreach.mono fun _ h => h.1⟩, hname⟩

lemma Accepted.check_ok (h : Accepted fit check node n) : check n = some (.ok ()) := by
  have ⟨_, _, _, _, _, hok⟩ := h
  exact hok

variable {next : Next Int (Int × Bool)}

lemma body_live (hlive : NodeLive noffset) (h : body fit check noffset = some next)
    : (∃ r, next = .done r ∧ Hit fit check noffset r)
      ∨ ∃ noffset', next = .again noffset' ∧ fdtNextSubnode fit noffset = some noffset' ∧ True
        ∧ Fails fit check noffset := by
  unfold body at h
  unfold NodeLive at hlive
  rw [if_pos hlive] at h
  split at h
  . contradiction
  next name hname =>
  split at h
  . next hsig =>
    have ⟨res, hres, h⟩ := bind_eq_some_iff.mp h
    split at h
    . injection h with h
      exact .inl ⟨_, h.symm, ⟨name, hname, hsig⟩, hres, rfl⟩
    next msg =>
    have ⟨noffset', hnext, h⟩ := bind_eq_some_iff.mp h
    injection h with h
    exact .inr ⟨noffset', h.symm, hnext, trivial, fun _ => ⟨msg, hres⟩⟩
  next hsig =>
  have ⟨noffset', hnext, h⟩ := bind_eq_some_iff.mp h
  injection h with h
  refine .inr ⟨noffset', h.symm, hnext, trivial, ?_⟩
  intro ⟨name', hname', hsig'⟩
  rw [hname] at hname'
  injection hname' with hname'
  rw [← hname'] at hsig'
  contradiction

lemma body_end (hend : ¬NodeLive noffset)
    (h : body fit check noffset = some next) : ∃ r, next = .done r ∧ r.2 = false := by
  unfold body at h
  unfold NodeLive at hend
  rw [if_neg hend] at h
  injection h with h
  exact ⟨_, h.symm, rfl⟩

end fitVerifySig

lemma fitVerifySig_spec (h : fitVerifySig fit check node = some ret)
    : (ret = 0 ∧ ∃ n, fitVerifySig.Accepted fit check node n)
      ∨ (ret ≠ 0 ∧ ∀ n, SignatureNode fit node n → ∃ msg, check n = some (.error msg)) := by
  have ⟨n₀, hn0, h⟩ := bind_eq_some_iff.mp h
  have ⟨r, hr, h⟩ := bind_eq_some_iff.mp h
  have hsearch : (∃ n, Reach (fdtNextSubnode fit) (fun n => NodeLive n ∧ fitVerifySig.Fails fit check n) n₀ n
        ∧ NodeLive n ∧ fitVerifySig.Hit fit check n r)
      ∨ (r.2 = false ∧ ∀ n, Reach (fdtNextSubnode fit) NodeLive n₀ n → NodeLive n → fitVerifySig.Fails fit check n) :=
    runM_search (I := fun _ => True) (p := id) (M := fun (r : Int × Bool) => r.2 = false) hr trivial
      (fun _ _ _ => fitVerifySig.body_live) (fun _ _ _ => fitVerifySig.body_end)
  cases hsearch with
  | inl hfound =>
    have ⟨n, hreach, hlive, hname, hcheck, hr⟩ := hfound
    refine .inl ⟨?_, n, n₀, hn0, hreach, hlive, hname, hcheck⟩
    have hn : ¬(n = -fdtErrTruncated ∨ n = -fdtErrBadstructure) := by
      unfold NodeLive at hlive
      unfold fdtErrTruncated fdtErrBadstructure
      omega
    rw [hr] at h
    dsimp only at h
    rw [if_neg hn] at h
    injection h with h
    exact h.symm
  | inr hmiss =>
    refine .inr ⟨?_, ?_⟩
    . dsimp only at h
      rw [hmiss.1] at h
      split at h
      . injection h with h
        rw [← h]
        decide
      . injection h with h
        rw [← h]
        decide
    intro n ⟨⟨hlive, n0', hn0', hreach⟩, hname⟩
    rw [hn0] at hn0'
    injection hn0' with hn0'
    rw [← hn0'] at hreach
    exact hmiss.2 n hreach hlive hname

namespace fitVerifyRequiredSigs

variable {use : List UInt8} {verifySig : Int → Option Int}

def Hit (sigBlob : Blob) (use : List UInt8) (verifySig : Int → Option Int) (noffset : Int) (r : Int × Nat) : Prop :=
  RequiredFor sigBlob use noffset ∧ r.1 ≠ 0 ∧ verifySig noffset = some r.1

lemma required_any_iff {p : Option Int} {len : Int}
    (h : fdtGetprop sigBlob noffset (ascii ['r', 'e', 'q', 'u', 'i', 'r', 'e', 'd']) = some (p, len))
    : (p.any fun p => strcmpEq sigBlob p use) = true ↔ RequiredFor sigBlob use noffset := by
  rw [any_eq_true]
  constructor
  . intro ⟨p', hp', hstr⟩
    rw [hp'] at h
    exact ⟨p', len, h, hstr⟩
  intro ⟨p', len', h', hstr⟩
  rw [h] at h'
  injection h' with h'
  injection h' with hp _
  exact ⟨p', hp, hstr⟩

lemma body_live (hlive : NodeLive s.1)
    (h : body sigBlob use verifySig s = some next)
    : (∃ r, next = .done r ∧ Hit sigBlob use verifySig s.1 r)
      ∨ ∃ s', next = .again s' ∧ fdtNextSubnode sigBlob s.1 = some s'.1 ∧ True
        ∧ (RequiredFor sigBlob use s.1 → verifySig s.1 = some 0) := by
  unfold body at h
  unfold NodeLive at hlive
  dsimp only at h
  rw [if_pos hlive] at h
  have ⟨p, hp, h⟩ := bind_eq_some_iff.mp h
  split at h
  . next hany =>
    have hrequired := (required_any_iff hp).mp hany
    have ⟨r, hr, h⟩ := bind_eq_some_iff.mp h
    split at h
    . next hne =>
      injection h with h
      exact .inl ⟨_, h.symm, hrequired, hne, hr⟩
    next hzero =>
    have ⟨n, hn, h⟩ := bind_eq_some_iff.mp h
    injection h with h
    rw [not_not.mp hzero] at hr
    exact .inr ⟨_, h.symm, hn, trivial, fun _ => hr⟩
  next hany =>
  have ⟨n, hn, h⟩ := bind_eq_some_iff.mp h
  injection h with h
  exact .inr ⟨_, h.symm, hn, trivial, fun hrequired => absurd ((required_any_iff hp).mpr hrequired) hany⟩

lemma body_end (hend : ¬NodeLive s.1)
    (h : body sigBlob use verifySig s = some next) : ∃ r, next = .done r ∧ r.1 = 0 := by
  unfold body at h
  unfold NodeLive at hend
  dsimp only at h
  rw [if_neg hend] at h
  injection h with h
  exact ⟨_, h.symm, rfl⟩

end fitVerifyRequiredSigs

lemma fitVerifyRequiredSigs_spec {use : List UInt8} {verifySig : Int → Option Int} {r : Int × Nat}
    (h : fitVerifyRequiredSigs sigBlob use verifySig = some r)
    : (r.1 = 0 ∧ ∀ k, RequiredKey sigBlob use k → verifySig k = some 0)
      ∨ (r.1 ≠ 0 ∧ ∃ k, RequiredKey sigBlob use k ∧ verifySig k = some r.1) := by
  have ⟨sigNode, hsigNode, h⟩ := bind_eq_some_iff.mp h
  split at h
  . next hneg =>
    injection h with h
    rw [← h]
    refine .inl ⟨rfl, ?_⟩
    intro k ⟨sigNode', hsigNode', hpos, _⟩
    rw [hsigNode] at hsigNode'
    injection hsigNode' with heq
    omega
  next hpos =>
  have ⟨n₀, hn0, h⟩ := bind_eq_some_iff.mp h
  have hsearch : (∃ n, Reach (fdtNextSubnode sigBlob)
        (fun n => NodeLive n ∧ (RequiredFor sigBlob use n → verifySig n = some 0)) n₀ n ∧ NodeLive n
        ∧ fitVerifyRequiredSigs.Hit sigBlob use verifySig n r)
      ∨ (r.1 = 0 ∧ ∀ n, Reach (fdtNextSubnode sigBlob) NodeLive n₀ n → NodeLive n →
        RequiredFor sigBlob use n → verifySig n = some 0) :=
    runM_search (I := fun _ => True) (p := Prod.fst) (M := fun (r : Int × Nat) => r.1 = 0) h trivial
      (fun _ _ _ => fitVerifyRequiredSigs.body_live) (fun _ _ _ => fitVerifyRequiredSigs.body_end)
  cases hsearch with
  | inl hfound =>
    have ⟨n, hreach, hlive, hrequired, hne, hverify⟩ := hfound
    have hsubnode : Subnode sigBlob sigNode n := ⟨hlive, n₀, hn0, hreach.mono fun _ h => h.1⟩
    exact .inr ⟨hne, n, ⟨sigNode, hsigNode, not_lt.mp hpos, hsubnode, hrequired⟩, hverify⟩
  | inr hall =>
    refine .inl ⟨hall.1, ?_⟩
    intro k ⟨sigNode', hsigNode', _, ⟨hlive, n0', hn0', hreach⟩, hrequired⟩
    rw [hsigNode] at hsigNode'
    injection hsigNode' with heq
    rw [← heq, hn0] at hn0'
    injection hn0' with heq
    rw [← heq] at hreach
    exact hall.2 k hreach hlive hrequired

def TriedFor (env : Env) (fit : Blob) (required n k : Int) : Prop :=
  ∃ info, fitImageSetupVerify env fit n required = some (.ok info) ∧ Tried info k

def SignedBy (env : Env) (fit : Blob) (regions : Int → Option (List (List UInt8))) (n k : Int) : Prop :=
  ∃ info value region, fitImageSetupVerify env fit n k = some (.ok info)
    ∧ fitImageHashGetValue fit n = some (some value) ∧ regions n = some region
    ∧ Verifies env.prims info region (fitValueBytes fit value) k

def imageRegions (data : List UInt8) (_ : Int) : Option (List (List UInt8)) := some [data]

def handedRegions (fit : Blob) (n : Int) : Option (List FdtRegion) := do
  match ← fitConfigCheckSig.findRegions fit n with
  | .error _ => none
  | .ok region => return region ++ (← fitConfigCheckSig.strings fit n)

def confRegions (fit : Blob) (n : Int) : Option (List (List UInt8)) := (handedRegions fit n).map (fitRegionMakeList fit)

def keyResult (env : Env) (fit : Blob) (regions : Int → Option (List (List UInt8))) (n k : Int) : Option Int :=
  match fitImageSetupVerify env fit n k, fitImageHashGetValue fit n, regions n with
  | some (.ok info), some (some value), some region =>
    let (ret, hash) := env.prims.calculate info.checksum region
    if ret < 0 then none else rsaVerifyWithKeynode env.prims info hash (fitValueBytes fit value) k
  | _, _, _ => none

lemma keyResult_eq_zero_iff {regions : Int → Option (List (List UInt8))} {k : Int}
    : keyResult env fit regions n k = some 0 ↔ SignedBy env fit regions n k := by
  constructor
  . intro h
    unfold keyResult at h
    split at h
    . next info value region hsetup hvalue hregion =>
      dsimp only at h
      split at h
      . contradiction
      . next hret => exact ⟨info, value, region, hsetup, hvalue, hregion, not_lt.mp hret, h⟩
    . contradiction
  intro ⟨info, value, region, hsetup, hvalue, hregion, hret, h⟩
  unfold keyResult
  rw [hsetup, hvalue, hregion]
  dsimp only
  rw [if_neg (not_lt.mpr hret)]
  exact h

instance {regions : Int → Option (List (List UInt8))} {n k : Int} : Decidable (SignedBy env fit regions n k) :=
  decidable_of_iff _ keyResult_eq_zero_iff

lemma checksumLen_le_keyLen {checksum : ChecksumAlgo} {crypto : CryptoAlgo} {fullName : Int}
    (hchecksum : imageGetChecksumAlgo fit fullName = some checksum)
    (hcrypto : imageGetCryptoAlgo fit fullName = some crypto) : checksum.checksumLen ≤ crypto.keyLen := by
  have hmem : crypto ∈ cryptoAlgos := by
    unfold imageGetCryptoAlgo at hcrypto
    dsimp only at hcrypto
    split at hcrypto
    . contradiction
    . exact List.mem_of_find?_eq_some hcrypto
  have hall : ∀ checksum ∈ checksumAlgos, ∀ crypto ∈ cryptoAlgos, checksum.checksumLen ≤ crypto.keyLen := by
    decide
  exact hall checksum (List.mem_of_find?_eq_some hchecksum) crypto hmem

lemma fitImageSetupVerify_ok {required : Int} {info : ImageSignInfo}
    (h : fitImageSetupVerify env fit n required = some (.ok info))
    : info.checksum.checksumLen ≤ info.crypto.keyLen ∧ info.fdtBlob = env.gdFdtBlob ∧ info.fit = fit
      ∧ ∀ k, fitImageSetupVerify env fit n k = some (.ok { info with requiredKeynode := k }) := by
  have ⟨algo, halgo, h⟩ := bind_eq_some_iff.mp h
  split at h
  . injection h with h
    contradiction
  next algoName =>
  have ⟨keyname, hkeyname, h⟩ := bind_eq_some_iff.mp h
  dsimp only at h
  split at h
  . next checksum crypto hchecksum hcrypto =>
    injection h with h
    injection h with h
    rw [← h]
    refine ⟨checksumLen_le_keyLen hchecksum hcrypto, rfl, rfl, ?_⟩
    intro k
    unfold fitImageSetupVerify
    rw [halgo]
    dsimp only [bind_eq_bind, bind_some]
    rw [hkeyname]
    rw [hchecksum, hcrypto]
    rfl
  . injection h with h
    contradiction

section

variable {required n : Int} {info : ImageSignInfo} {value : Int × Int} {region : List (List UInt8)}
  {regions : Int → Option (List (List UInt8))}

lemma rsaVerify_eq_zero_iff_signedBy (hsetup : fitImageSetupVerify env fit n required = some (.ok info))
    (hvalue : fitImageHashGetValue fit n = some (some value)) (hregion : regions n = some region)
    (h : rsaVerify env.prims info region (fitValueBytes fit value) = some ret)
    : ret = 0 ↔ ∃ k, TriedFor env fit required n k ∧ SignedBy env fit regions n k := by
  have ⟨hlen, _, _, hsetup'⟩ := fitImageSetupVerify_ok hsetup
  rw [rsaVerify_eq_zero_iff hlen h]
  constructor
  . intro ⟨k, htried, hverifies⟩
    exact ⟨k, ⟨info, hsetup, htried⟩, _, value, region, hsetup' k, hvalue, hregion, hverifies⟩
  intro ⟨k, ⟨info1, hinfo1, htried⟩, info2, value', region', hinfo2, hvalue', hregion', hverifies⟩
  cases hsetup.symm.trans hinfo1
  cases (hsetup' k).symm.trans hinfo2
  cases hvalue.symm.trans hvalue'
  cases hregion.symm.trans hregion'
  exact ⟨k, htried, hverifies⟩

lemma not_signedBy_of_value (hvalue : fitImageHashGetValue fit n = some none)
    : ¬∃ k, TriedFor env fit required n k ∧ SignedBy env fit regions n k := by
  intro ⟨k, _, _, value, _, _, hvalue', _⟩
  cases hvalue.symm.trans hvalue'

lemma not_signedBy_of_setup (hsetup : fitImageSetupVerify env fit n required = some (.error msg))
    : ¬∃ k, TriedFor env fit required n k ∧ SignedBy env fit regions n k := by
  intro ⟨k, ⟨info, hinfo, _⟩, _⟩
  cases hsetup.symm.trans hinfo

lemma not_ok_iff {P : Prop} (h : some (.error msg) = some res) (hnot : ¬P) : res = .ok () ↔ P := by
  cases h
  simp [hnot]

lemma fitImageCheckSig_ok_iff (h : fitImageCheckSig env fit n data required = some res)
    : res = .ok () ↔ ∃ k, TriedFor env fit required n k ∧ SignedBy env fit (imageRegions data) n k := by
  have ⟨setup, hsetup, h⟩ := bind_eq_some_iff.mp h
  split at h
  . exact not_ok_iff h (not_signedBy_of_setup hsetup)
  next info =>
  have ⟨value, hvalue, h⟩ := bind_eq_some_iff.mp h
  split at h
  . exact not_ok_iff h (not_signedBy_of_value hvalue)
  next value =>
  have ⟨ret, hret, h⟩ := bind_eq_some_iff.mp h
  injection h with h
  rw [← rsaVerify_eq_zero_iff_signedBy hsetup hvalue rfl hret, ← h]
  simp

lemma fitConfigCheckSig_ok_iff (h : fitConfigCheckSig env fit n required = some res)
    : res = .ok () ↔ ∃ k, TriedFor env fit required n k ∧ SignedBy env fit (confRegions fit) n k := by
  have ⟨setup, hsetup, h⟩ := bind_eq_some_iff.mp h
  split at h
  . exact not_ok_iff h (not_signedBy_of_setup hsetup)
  next info =>
  have ⟨value, hvalue, h⟩ := bind_eq_some_iff.mp h
  split at h
  . exact not_ok_iff h (not_signedBy_of_value hvalue)
  next value =>
  have ⟨found, hfound, h⟩ := bind_eq_some_iff.mp h
  split at h
  . apply not_ok_iff h
    intro ⟨k, _, _, _, region, _, _, hregion, _⟩
    unfold confRegions handedRegions at hregion
    rw [hfound] at hregion
    contradiction
  next region =>
  have ⟨strings, hstrings, h⟩ := bind_eq_some_iff.mp h
  have ⟨ret, hret, h⟩ := bind_eq_some_iff.mp h
  injection h with h
  have hregions : confRegions fit n = some (fitRegionMakeList fit (region ++ strings)) := by
    unfold confRegions handedRegions
    rw [hfound]
    rw [hstrings]
    rfl
  rw [← rsaVerify_eq_zero_iff_signedBy hsetup hvalue hregions hret, ← h]
  simp

end

def OwnSignatures (env : Env) (fit : Blob) (use : List UInt8) (regions : Int → Option (List (List UInt8)))
    (node : Int) : Prop :=
  ∀ k, RequiredKey env.gdFdtBlob use k → ∃ n, SignatureNode fit node n ∧ SignedBy env fit regions n k

def SomeUnsigned (env : Env) (fit : Blob) (use : List UInt8) (regions : Int → Option (List (List UInt8)))
    (handed : Int → Int) (node : Int) : Prop :=
  ∃ k, RequiredKey env.gdFdtBlob use k ∧ ∀ n k', SignatureNode fit node n →
    TriedFor env fit (handed k) n k' → ¬SignedBy env fit regions n k'

section

variable {use : List UInt8} {regions : Int → Option (List (List UInt8))} {handed : Int → Int}
  {check : Int → Int → Option (Except String Unit)} {r : Int × Nat}

lemma fitVerifyRequiredSigs_eq_zero_iff (hcheck : ∀ k n res, check k n = some res →
      (res = .ok () ↔ ∃ k', TriedFor env fit (handed k) n k' ∧ SignedBy env fit regions n k'))
    (h : fitVerifyRequiredSigs env.gdFdtBlob use (fun k => fitVerifySig fit (check k) node) = some r)
    : r.1 = 0 ↔ ¬SomeUnsigned env fit use regions handed node := by
  cases fitVerifyRequiredSigs_spec h with
  | inl hall =>
    refine ⟨fun _ => ?_, fun _ => hall.1⟩
    intro ⟨k, hk, hnone⟩
    cases fitVerifySig_spec (hall.2 k hk) with
    | inr hfail => exact absurd rfl hfail.1
    | inl hok =>
      have ⟨n, hn⟩ := hok.2
      have ⟨k', htried, hsigned⟩ := (hcheck k n _ hn.check_ok).mp rfl
      exact absurd hsigned (hnone n k' hn.signatureNode htried)
  | inr hsome =>
    have ⟨hne, k, hk, hverify⟩ := hsome
    refine ⟨fun hzero => absurd hzero hne, fun hsigned => absurd ⟨k, hk, ?_⟩ hsigned⟩
    intro n k' hn htried hsigned
    cases fitVerifySig_spec hverify with
    | inl hok => exact hne hok.1
    | inr hfail =>
      have ⟨msg, hmsg⟩ := hfail.2 n hn
      have hok := (hcheck k n _ hmsg).mpr ⟨k', htried, hsigned⟩
      contradiction

lemma fitImageVerifyRequiredSigs_eq_zero_iff {noSigs : Bool}
    (h : fitImageVerifyRequiredSigs env fit node data env.gdFdtBlob = some (ret, noSigs))
    : ret = 0 ↔ ¬SomeUnsigned env fit useImage (imageRegions data) (fun _ => -1) node := by
  have ⟨r, hr, h⟩ := bind_eq_some_iff.mp h
  cases h
  exact fitVerifyRequiredSigs_eq_zero_iff (fun _ _ _ => fitImageCheckSig_ok_iff) hr

lemma fitConfigVerifyRequiredSigs_eq_zero_iff
    (h : fitConfigVerifyRequiredSigs env fit node env.gdFdtBlob = some ret)
    : ret = 0 ↔ ¬SomeUnsigned env fit useConf (confRegions fit) id node := by
  have ⟨r, hr, h⟩ := bind_eq_some_iff.mp h
  cases h
  exact fitVerifyRequiredSigs_eq_zero_iff (fun _ _ _ => fitConfigCheckSig_ok_iff) hr

end

/-- No node that `rsa_verify` comes to for a required key holds a key, but for the required one itself. -/
def NoOtherKey (env : Env) (fit : Blob) (use : List UInt8) (handed : Int → Int) (node : Int) : Prop :=
  ∀ k n k', RequiredKey env.gdFdtBlob use k → SignatureNode fit node n → TriedFor env fit (handed k) n k' →
    HoldsKey env.gdFdtBlob k' → k' = k

lemma SignedBy.holdsKey {regions : Int → Option (List (List UInt8))} {k : Int} (h : SignedBy env fit regions n k)
    : HoldsKey env.gdFdtBlob k := by
  obtain ⟨info, value, region, hsetup, _, _, hverifies⟩ := h
  rw [← (fitImageSetupVerify_ok hsetup).2.1]
  exact hverifies.holdsKey

lemma NoOtherKey.ownSignatures {use : List UInt8} {regions : Int → Option (List (List UInt8))} {handed : Int → Int}
    (h : NoOtherKey env fit use handed node) (hsigned : ¬SomeUnsigned env fit use regions handed node)
    : OwnSignatures env fit use regions node := by
  intro k hk
  by_contra hnone
  apply hsigned
  refine ⟨k, hk, ?_⟩
  intro n k' hn htried hsigned'
  rw [h k n k' hk hn htried hsigned'.holdsKey] at hsigned'
  exact hnone ⟨n, hn, hsigned'⟩

end

namespace CrossKey

def required : List Char := ['r', 'e', 'q', 'u', 'i', 'r', 'e', 'd']

def numBits : List Char := ['r', 's', 'a', ',', 'n', 'u', 'm', '-', 'b', 'i', 't', 's']

def rsaModulus : List Char := ['r', 's', 'a', ',', 'm', 'o', 'd', 'u', 'l', 'u', 's']

def control : Blob :=
  flatten [required, numBits, rsaModulus] [
    .beginNode [],
    .beginNode ['s', 'i', 'g', 'n', 'a', 't', 'u', 'r', 'e'],
    .beginNode ['k', 'e', 'y', '-', 'a'],
    .prop required (cstring ['i', 'm', 'a', 'g', 'e']),
    .prop numBits (cpuToFdt32 2048),
    .prop rsaModulus (cpuToFdt32 1),
    .endNode,
    .beginNode ['k', 'e', 'y', '-', 'c'],
    .prop required (cstring ['c', 'o', 'n', 'f']),
    .prop numBits (cpuToFdt32 2048),
    .prop rsaModulus (cpuToFdt32 1),
    .endNode,
    .beginNode ['k', 'e', 'y', '-', 'b'],
    .prop numBits (cpuToFdt32 2048),
    .prop rsaModulus (cpuToFdt32 2),
    .endNode,
    .endNode,
    .endNode]

def paddedHash : List UInt8 := [0, 1] ++ List.replicate 218 0xff ++ [0] ++ sha1DerPrefix ++ List.replicate 20 0

def prims : Primitives where
  calculate _ _ := (0, List.replicate 20 0)
  modExp := some fun prop sig =>
    some (0, if (prop.modulus.map fun m => m 3) = some 2 then sig else sig.reverse)

def fit : Blob :=
  let algo := ['a', 'l', 'g', 'o']
  let keyNameHint := ['k', 'e', 'y', '-', 'n', 'a', 'm', 'e', '-', 'h', 'i', 'n', 't']
  let hashedNodes := ['h', 'a', 's', 'h', 'e', 'd', '-', 'n', 'o', 'd', 'e', 's']
  let value := ['v', 'a', 'l', 'u', 'e']
  flatten [algo, keyNameHint, hashedNodes, value] [
    .beginNode [],
    .beginNode ['k', 'e', 'r', 'n', 'e', 'l'],
    .beginNode ['s', 'i', 'g', 'n', 'a', 't', 'u', 'r', 'e'],
    .prop algo (cstring ['s', 'h', 'a', '1', ',', 'r', 's', 'a', '2', '0', '4', '8']),
    .prop keyNameHint (cstring ['b']),
    .prop hashedNodes (cstring ['/']),
    .prop value paddedHash,
    .endNode,
    .endNode,
    .endNode]

def env : Env := { prims, gdFdtBlob := control }

lemma fit_nodes
    : fdtFirstSubnode fit 8 = some 20 ∧ fdtNextSubnode fit 20 = some (-1)
      ∧ fdtNextNode fit 8 0 = some (20, 1) ∧ keyNext fit (20, 1) = some (372, -1) := by
  decide +kernel

lemma eq_of_signatureNode (h : SignatureNode fit 8 n) : n = 20 := h.1.eq_of_single fit_nodes.1 fit_nodes.2.1

lemma requiredKeys : RequiredKey control useImage 24 ∧ RequiredKey control useConf 92 := by
  have hsig : fdtSubnodeOffset control 0 fitSigNodename = some 8 := by decide +kernel
  have hfirst : fdtFirstSubnode control 8 = some 24 := by decide +kernel
  exact ⟨⟨8, hsig, by decide, ⟨by decide, 24, hfirst, .refl⟩, 88, 6, by decide +kernel, by decide +kernel⟩,
    8, hsig, by decide, ⟨by decide, 24, hfirst, .step .refl (by decide) (by decide +kernel)⟩, 156, 5, by decide +kernel,
    by decide +kernel⟩

end CrossKey

namespace SoleKey

open CrossKey (required numBits rsaModulus prims fit fit_nodes eq_of_signatureNode)

def control : Blob :=
  flatten [required, numBits, rsaModulus] [
    .beginNode [],
    .beginNode ['s', 'i', 'g', 'n', 'a', 't', 'u', 'r', 'e'],
    .beginNode ['k', 'e', 'y', '-', 'b'],
    .prop required (cstring ['i', 'm', 'a', 'g', 'e']),
    .prop numBits (cpuToFdt32 2048),
    .prop rsaModulus (cpuToFdt32 2),
    .endNode,
    .endNode,
    .endNode]

def env : Env := { prims, gdFdtBlob := control }

lemma control_nodes
    : fdtSubnodeOffset control 0 fitSigNodename = some 8
      ∧ fdtSubnodeOffset control 8 (ascii ['k', 'e', 'y', '-', 'b']) = some 24
      ∧ fdtFirstSubnode control 8 = some 24 ∧ fdtNextSubnode control 24 = some (-1)
      ∧ (rsaVerifyWithKeynode.keyProp control 20).all (fun prop => prop.numBits = 0) = true := by
  decide +kernel

lemma eq_of_requiredKey {k : Int} (h : RequiredKey control useImage k) : k = 24 := by
  obtain ⟨sigNode, hsigNode, _, hsubnode, _⟩ := h
  cases control_nodes.1.symm.trans hsigNode
  exact hsubnode.eq_of_single control_nodes.2.2.1 control_nodes.2.2.2.1

lemma not_holdsKey : ¬HoldsKey control 20 := by
  intro h
  obtain ⟨_, prop, hprop, hbits, _⟩ := h
  have hzero := control_nodes.2.2.2.2
  rw [hprop] at hzero
  exact hbits (of_decide_eq_true hzero)

-- The walk over the FIT comes to the offset of its signature node only.
lemma eq_of_keyWalk {m : Int} (h : KeyWalk fit 8 (m, 1)) : m = 20 := by
  obtain ⟨s, hs, hreach⟩ := h
  cases fit_nodes.2.2.1.symm.trans hs
  cases hreach.cases_head with
  | inl heq => exact (Prod.mk.inj heq).1
  | inr hhead =>
    obtain ⟨_, s', hs', hreach⟩ := hhead
    cases fit_nodes.2.2.2.symm.trans hs'
    cases hreach.cases_head with
    | inl heq => cases heq
    | inr hhead => exact absurd hhead.1.2 (by decide)

lemma noOtherKey : NoOtherKey env fit useImage (fun _ => -1) 8 := by
  intro k n k' hk hn htried hholds
  rw [eq_of_requiredKey hk]
  obtain ⟨info, hsetup, htried⟩ := htried
  obtain ⟨_, hblob, hfit, hsame⟩ := fitImageSetupVerify_ok hsetup
  rw [eq_of_signatureNode hn] at hsetup hsame
  have hkeynode : info.requiredKeynode = -1 := by
    have heq := Except.ok.inj (some_inj.mp (hsetup.symm.trans (hsame (-1))))
    exact congrArg ImageSignInfo.requiredKeynode heq
  have hname : ((fitImageSetupVerify env fit 20 (-1)).bind Except.toOption).map rsaVerify.hintName
      = some (ascii ['k', 'e', 'y', '-', 'b']) := by
    decide +kernel
  rw [hsetup] at hname
  have hname : rsaVerify.hintName info = ascii ['k', 'e', 'y', '-', 'b'] := some_inj.mp hname
  cases htried with
  | required _ _ hne => exact absurd hkeynode hne
  | @fallback sigNode _ hsigNode _ hfallback =>
    rw [hblob] at hsigNode
    cases control_nodes.1.symm.trans hsigNode
    cases hfallback with
    | hint hnode =>
      rw [hblob, hname] at hnode
      cases control_nodes.2.1.symm.trans hnode
      rfl
    | walk hwalk _ =>
      rw [hfit] at hwalk
      rw [eq_of_keyWalk hwalk] at hholds
      exact absurd hholds not_holdsKey

end SoleKey

end UBoot.Image
