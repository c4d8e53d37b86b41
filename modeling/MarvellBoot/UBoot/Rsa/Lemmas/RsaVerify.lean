import MarvellBoot.UBoot.Rsa.Impl.RsaVerify

namespace UBoot.Rsa

open Fdt Loop Option

def keyNext (fit : Blob) (s : Int × Int) : Option (Int × Int) := fdtNextNode fit s.1 s.2

def KeyLive (s : Int × Int) : Prop := 0 ≤ s.1 ∧ 0 < s.2

def KeyWalk (fit : Blob) (sigNode : Int) (s : Int × Int) : Prop :=
  ∃ s₀, fdtNextNode fit sigNode 0 = some s₀ ∧ Reach (keyNext fit) KeyLive s₀ s

inductive Fallback (info : ImageSignInfo) (sigNode : Int) : Int → Prop where
  | hint {node : Int} : fdtSubnodeOffset info.fdtBlob sigNode (rsaVerify.hintName info) = some node →
      Fallback info sigNode node
  | walk {n : Int} : KeyWalk info.fit sigNode (n, 1) → 0 ≤ n → Fallback info sigNode n

inductive Tried (info : ImageSignInfo) : Int → Prop where
  | required {sigNode : Int} : fdtSubnodeOffset info.fdtBlob 0 fitSigNodename = some sigNode →
      0 ≤ sigNode → info.requiredKeynode ≠ -1 → Tried info info.requiredKeynode
  | fallback {sigNode k : Int} : fdtSubnodeOffset info.fdtBlob 0 fitSigNodename = some sigNode →
      0 ≤ sigNode → Fallback info sigNode k → Tried info k

def Verifies (prims : Primitives) (info : ImageSignInfo) (region : List (List UInt8)) (sig : List UInt8)
    (k : Int) : Prop :=
  0 ≤ (prims.calculate info.checksum region).1
    ∧ rsaVerifyWithKeynode prims info (prims.calculate info.checksum region).2 sig k = some 0

def HoldsKey (blob : Blob) (k : Int) : Prop :=
  0 ≤ k ∧ ∃ prop, rsaVerifyWithKeynode.keyProp blob k = some prop ∧ prop.numBits ≠ 0 ∧ prop.modulus ≠ none

variable {prims : Primitives} {info : ImageSignInfo} {hash sig : List UInt8} {sigNode node ret : Int}
  {next : Next ((Int × Int) × Int) Int} {s : (Int × Int) × Int}

lemma Verifies.holdsKey {region : List (List UInt8)} {k : Int} (h : Verifies prims info region sig k)
    : HoldsKey info.fdtBlob k := by
  have hverify := h.2
  unfold rsaVerifyWithKeynode at hverify
  split at hverify
  . contradiction
  next hneg =>
  obtain ⟨prop, hprop, hverify⟩ := bind_eq_some_iff.mp hverify
  split at hverify
  . contradiction
  next hkey =>
  rw [not_or] at hkey
  refine ⟨not_lt.mp hneg, prop, hprop, hkey.1, ?_⟩
  intro hmodulus
  apply hkey.2
  rw [hmodulus]
  rfl

namespace rsaVerify

def Hit (prims : Primitives) (info : ImageSignInfo) (hash sig : List UInt8) (node : Int) (s : Int × Int)
    (ret : Int) : Prop :=
  s.2 = 1 ∧ s.1 ≠ node ∧ rsaVerifyWithKeynode prims info hash sig s.1 = some 0 ∧ ret = 0

lemma body_live (hs : s.2 ≠ 0)
    (hlive : KeyLive s.1) (h : body prims info hash sig node s = some next)
    : (∃ ret, next = .done ret ∧ Hit prims info hash sig node s.1 ret)
      ∨ ∃ s', next = .again s' ∧ keyNext info.fit s.1 = some s'.1 ∧ s'.2 ≠ 0
        ∧ ∀ ret, ¬Hit prims info hash sig node s.1 ret := by
  unfold body at h
  unfold KeyLive at hlive
  dsimp only at h
  rw [if_pos hlive] at h
  split at h
  . next htried =>
    have ⟨ret, hret, h⟩ := bind_eq_some_iff.mp h
    split at h
    . next hzero =>
      injection h with h
      rw [hzero] at hret h
      exact .inl ⟨0, h.symm, htried.1, htried.2, hret, rfl⟩
    next hne =>
    have ⟨t, ht, h⟩ := bind_eq_some_iff.mp h
    injection h with h
    refine .inr ⟨(t, ret), h.symm, ht, hne, ?_⟩
    intro ret' hhit
    have hzero := hhit.2.2.1
    rw [hret] at hzero
    injection hzero with hzero
    exact hne hzero
  next hskip =>
  have ⟨t, ht, h⟩ := bind_eq_some_iff.mp h
  injection h with h
  refine .inr ⟨(t, s.2), h.symm, ht, hs, ?_⟩
  intro ret' hhit
  exact hskip ⟨hhit.1, hhit.2.1⟩

lemma body_end (hs : s.2 ≠ 0)
    (hend : ¬KeyLive s.1) (h : body prims info hash sig node s = some next)
    : ∃ ret, next = .done ret ∧ ret ≠ 0 := by
  unfold body at h
  unfold KeyLive at hend
  dsimp only at h
  rw [if_neg hend] at h
  injection h with h
  exact ⟨s.2, h.symm, hs⟩

lemma anyKey_eq_zero_iff (h : anyKey prims info hash sig sigNode = some ret)
    : ret = 0 ↔ ∃ k, Fallback info sigNode k ∧ rsaVerifyWithKeynode prims info hash sig k = some 0 := by
  have ⟨node, hnode, h⟩ := bind_eq_some_iff.mp h
  have ⟨r0, hr0, h⟩ := bind_eq_some_iff.mp h
  split at h
  . next hzero =>
    injection h with h
    rw [hzero] at hr0 h
    exact ⟨fun _ => ⟨node, .hint hnode, hr0⟩, fun _ => h.symm⟩
  next hne =>
  have ⟨s₀, hs0, h⟩ := bind_eq_some_iff.mp h
  have hsearch : (∃ s, Reach (keyNext info.fit) (fun s => KeyLive s ∧ ∀ ret, ¬Hit prims info hash sig node s ret)
        s₀ s ∧ KeyLive s ∧ Hit prims info hash sig node s ret)
      ∨ (ret ≠ 0 ∧ ∀ s, Reach (keyNext info.fit) KeyLive s₀ s → KeyLive s →
        ∀ ret', ¬Hit prims info hash sig node s ret') :=
    runM_search (I := fun s => s.2 ≠ 0) (p := Prod.fst) (M := fun ret => ret ≠ 0) h hne
      (fun _ _ => body_live) (fun _ _ => body_end)
  cases hsearch with
  | inl hfound =>
    have ⟨s, hs, hlive, hdepth, _, hverify, hret⟩ := hfound
    refine ⟨fun _ => ⟨s.1, .walk ⟨s₀, hs0, ?_⟩ hlive.1, hverify⟩, fun _ => hret⟩
    rw [← hdepth]
    exact hs.mono fun _ h => h.1
  | inr hmiss =>
    refine ⟨fun hret => absurd hret hmiss.1, ?_⟩
    intro ⟨k, hk, hverify⟩
    have hk' : k ≠ node := by
      intro heq
      rw [heq, hr0] at hverify
      injection hverify with hverify
      exact hne hverify
    cases hk with
    | hint hhint =>
      rw [hnode] at hhint
      injection hhint with hhint
      exact absurd hhint.symm hk'
    | walk hwalk hn =>
      have ⟨s0', hs0', hreach⟩ := hwalk
      rw [hs0] at hs0'
      injection hs0' with hs0'
      rw [← hs0'] at hreach
      exact absurd ⟨rfl, hk', hverify, rfl⟩ (hmiss.2 (k, 1) hreach ⟨hn, zero_lt_one⟩ 0)

end rsaVerify

lemma Tried.sigNode_nonneg {k : Int} (h : Tried info k)
    (hsigNode : fdtSubnodeOffset info.fdtBlob 0 fitSigNodename = some sigNode) : 0 ≤ sigNode := by
  cases h with
  | required hsig hpos _ | fallback hsig hpos _ =>
    rw [hsigNode] at hsig
    injection hsig with hsig
    rw [hsig]
    exact hpos

lemma anyKey_eq_zero_iff_tried
    (hsigNode : fdtSubnodeOffset info.fdtBlob 0 fitSigNodename = some sigNode) (hpos : 0 ≤ sigNode)
    (hrequired : info.requiredKeynode ≠ -1 → rsaVerifyWithKeynode prims info hash sig info.requiredKeynode ≠ some 0)
    (h : rsaVerify.anyKey prims info hash sig sigNode = some ret)
    : ret = 0 ↔ ∃ k, Tried info k ∧ rsaVerifyWithKeynode prims info hash sig k = some 0 := by
  rw [rsaVerify.anyKey_eq_zero_iff h]
  constructor
  . intro ⟨k, hk, hverify⟩
    exact ⟨k, .fallback hsigNode hpos hk, hverify⟩
  intro ⟨k, hk, hverify⟩
  cases hk with
  | required _ _ hne => exact absurd hverify (hrequired hne)
  | fallback hsig _ hk =>
    rw [hsigNode] at hsig
    injection hsig with hsig
    rw [← hsig] at hk
    exact ⟨k, hk, hverify⟩

lemma rsaVerify_eq_zero_iff {region : List (List UInt8)} (hlen : info.checksum.checksumLen ≤ info.crypto.keyLen)
    (h : rsaVerify prims info region sig = some ret)
    : ret = 0 ↔ ∃ k, Tried info k ∧ Verifies prims info region sig k := by
  unfold rsaVerify at h
  rw [if_neg (Nat.not_lt_of_le hlen)] at h
  have ⟨sigNode, hsigNode, h⟩ := bind_eq_some_iff.mp h
  split at h
  . next hneg =>
    injection h with h
    rw [← h]
    refine ⟨fun hret => by contradiction, ?_⟩
    intro ⟨k, hk, _⟩
    have hpos := hk.sigNode_nonneg hsigNode
    omega
  next hpos =>
  have hpos : 0 ≤ sigNode := Int.not_lt.mp hpos
  dsimp only at h
  split at h
  . next hfail =>
    injection h with h
    rw [← h]
    refine ⟨fun hret => by contradiction, ?_⟩
    intro ⟨_, _, hcalc, _⟩
    exact absurd hfail (Int.not_lt.mpr hcalc)
  next hcalc =>
  have hcalc : 0 ≤ (prims.calculate info.checksum region).1 := Int.not_lt.mp hcalc
  simp only [Verifies, hcalc, true_and]
  split at h
  . next hne =>
    have ⟨r, hr, h⟩ := bind_eq_some_iff.mp h
    split at h
    . next hzero =>
      injection h with h
      rw [hzero] at hr h
      rw [← h]
      exact ⟨fun _ => ⟨_, .required hsigNode hpos hne, hr⟩, fun _ => rfl⟩
    next hnz =>
    apply anyKey_eq_zero_iff_tried hsigNode hpos _ h
    intro _ hzero
    rw [hr] at hzero
    injection hzero with hzero
    exact hnz hzero
  . next heq => exact anyKey_eq_zero_iff_tried hsigNode hpos (fun hne => absurd hne heq) h

end UBoot.Rsa
