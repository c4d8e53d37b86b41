import MarvellBoot.UBoot.Rsa.Lemmas.Verify

namespace UBoot.Rsa

open Bytes List Nat

variable {len : Nat} {m : List UInt8}

structure KeyProp.For (prop : KeyProp) (n e : Nat) : Prop where
  numBits_ge : rsaMinKeyBits ≤ prop.numBits
  numBits_le : prop.numBits ≤ rsaMaxKeyBits
  modulus : ∃ p, prop.modulus = some p ∧ val (load p (prop.numBits / 8).toNat) = n
  odd : n % 2 = 1
  n0inv : 2 ^ 32 ∣ prop.n0inv.toNat * n + 1
  rr : ∃ p, prop.rr = some p
    ∧ val (load p (prop.numBits / 8).toNat) = (256 ^ (prop.numBits / 8).toNat) ^ 2 % n
  exponent : (rsaModExpSw.exponent prop).toNat = e
  exponent_odd : e % 2 = 1
  exponent_ge : 3 ≤ e

def encode (algo : ChecksumAlgo) (hash : List UInt8) (emLen : Nat) : Option (List UInt8) :=
  if algo.derLen + algo.checksumLen + 3 ≤ emLen then
    some (padding algo (emLen - (algo.derLen + algo.checksumLen + 3)) ++ hash)
  else
    none

/--
`rsa_mod_exp_sw` gives `sig ^ e % n`: the bits of the exponent that it drops do not matter, and the signature is
less than the modulus or the modulus has its top bit set.
-/
structure Powers (n e : Nat) (sig : List UInt8) : Prop where
  exponent : val sig ^ effectiveExponent e % n = val sig ^ e % n
  bound : val sig < n ∨ 256 ^ sig.length ≤ 2 * n

def Exact (prop : KeyProp) (n e : Nat) (sig hash : List UInt8) (keyLen : Nat) (algo : ChecksumAlgo) : Prop :=
  ∃ ret, rsaVerifyKey (some rsaModExpSw) prop sig hash keyLen algo = some ret
    ∧ (ret = 0
        ↔ sig.length = prop.numBits / 8 ∧ encode algo hash sig.length = some (ofNat sig.length (val sig ^ e % n)))

variable {modExp : ModExp} {prop : KeyProp} {n e keyLen : Nat} {sig hash buf : List UInt8}
  {algo : ChecksumAlgo} (src : Nat → UInt8)

lemma rsaVerifyKey_eq_einval (hkey : prop.For n e) (hsig : (sig.length : Int) ≠ prop.numBits / 8)
    : rsaVerifyKey (some modExp) prop sig hash keyLen algo = some einval := by
  have hge := hkey.numBits_ge
  have hle := hkey.numBits_le
  unfold rsaMaxKeyBits at hle
  unfold rsaVerifyKey
  rw [if_pos]
  rw [Int.tdiv_eq_ediv_of_nonneg (by omega)]
  omega

lemma KeyProp.For.length_tests (hkey : prop.For n e) (hsig : sig.length = prop.numBits / 8)
    : Int.tdiv prop.numBits 8 % 2 ^ 32 = sig.length ∧ ¬rsaMaxSigBits / 8 < sig.length := by
  have hnumBits_le := hkey.numBits_le
  unfold rsaMaxKeyBits at hnumBits_le
  unfold rsaMaxSigBits
  rw [Int.tdiv_eq_ediv_of_nonneg (by omega)]
  omega

lemma rsaVerifyKey_eq_none (hkey : prop.For n e) (hsig : sig.length = prop.numBits / 8) (hmod : modExp prop sig = none)
    : rsaVerifyKey (some modExp) prop sig hash keyLen algo = none := by
  have ⟨hdiv, hshort⟩ := hkey.length_tests hsig
  unfold rsaVerifyKey
  rw [if_neg (not_not.mpr hdiv.symm), if_neg hshort]
  simp only [hmod, Option.bind_eq_bind, Option.bind_none]

lemma rsaVerifyKey_eq_check (hkey : prop.For n e) (hsig : sig.length = prop.numBits / 8)
    (hmod : modExp prop sig = some (0, buf)) (hbuf : buf.length = sig.length)
    (hle : algo.checksumLen ≤ keyLen) (hlt : keyLen < 2 ^ 31)
    : rsaVerifyKey (some modExp) prop sig hash keyLen algo
      = rsaVerifyKey.check buf hash (keyLen - algo.checksumLen) algo := by
  have ⟨hdiv, hshort⟩ := hkey.length_tests hsig
  have hpad : Int.bmod ((keyLen : Int) - algo.checksumLen) (2 ^ 32) = (keyLen - algo.checksumLen : Nat) := by
    rw [Int.bmod_eq_of_le] <;> omega
  unfold rsaVerifyKey rsaVerifyKey.check
  rw [if_neg (not_not.mpr hdiv.symm), if_neg hshort]
  simp only [hmod, hpad, hbuf, Int.toNat_natCast, Option.bind_eq_bind, Option.bind_some]
  rfl

lemma rsaConvertBigEndian_length (len : Nat) : (rsaConvertBigEndian src len).length = len := by
  unfold rsaConvertBigEndian
  rw [length_reverse, length_words (length_load _ _)]

lemma val_rsaConvertBigEndian (len : Nat) : Limbs.val (rsaConvertBigEndian src len) = val (load src (4 * len)) := by
  unfold rsaConvertBigEndian
  rw [val_words (length_load _ _)]

lemma rsaModExpSw.publicKey_for {modulus rr : Nat → UInt8} (hpos : 0 < len)
    (hn : val (load modulus (4 * len)) = n) (hodd : n % 2 = 1)
    (hn0inv : 2 ^ 32 ∣ prop.n0inv.toNat * n + 1)
    (hrr : val (load rr (4 * len)) = (2 ^ (32 * len)) ^ 2 % n)
    : (publicKey prop modulus rr len).For n where
  len_pos := hpos
  modulus_length := rsaConvertBigEndian_length _ _
  rr_length := rsaConvertBigEndian_length _ _
  val_modulus := (val_rsaConvertBigEndian _ _).trans hn
  odd := hodd
  n0inv := hn0inv
  val_rr := (val_rsaConvertBigEndian _ _).trans hrr

lemma rsaModExpSw_eq (hkey : prop.For n e) (hwhole : prop.numBits / 8 % 4 = 0)
    (hpowers : Powers n e sig) (hsig : sig.length = prop.numBits / 8)
    : rsaModExpSw prop sig = some (0, ofNat sig.length (val sig ^ e % n)) := by
  have hge := hkey.numBits_ge
  have hle := hkey.numBits_le
  unfold rsaMinKeyBits at hge
  unfold rsaMaxKeyBits at hle
  have ⟨modulus, hmodulus, hn⟩ := hkey.modulus
  have ⟨rr, hrr, hrrval⟩ := hkey.rr
  have hbound := hpowers.bound
  generalize hlen : prop.numBits.toNat / 32 = len
  have hbytes : (prop.numBits / 8).toNat = 4 * len := by omega
  have hsigLen : sig.length = 4 * len := by omega
  have hpow : 256 ^ (4 * len) = 2 ^ (32 * len) := by
    rw [← Nat.pow_mul 2 8, ← Nat.mul_assoc]
  rw [hbytes] at hn hrrval
  rw [hpow] at hrrval
  rw [hsigLen, hpow] at hbound
  have hfor := rsaModExpSw.publicKey_for (by omega) hn hkey.odd hkey.n0inv hrrval
  generalize hpublicKey : rsaModExpSw.publicKey prop modulus rr len = key at hfor
  have hkeyLen : key.len = len := by rw [← hpublicKey]; rfl
  have hexponent : key.exponent.toNat = e := by rw [← hpublicKey]; exact hkey.exponent
  have hge3 := hkey.exponent_ge
  have hwords : (words sig).length = len := length_words hsigLen
  have hval : Limbs.val (words sig).reverse = val sig := val_words hsigLen
  have hmax : key.len ≤ rsaMaxKeyBits / 32 := by
    unfold rsaMaxKeyBits
    omega
  rw [← hval, ← hkeyLen] at hbound
  have hres := powMod_spec_of_bound hfor hmax (by rw [hexponent, hkey.exponent_odd]) (by omega) (by omega) hbound
  rw [hexponent] at hres
  have hodd := hkey.odd
  have hlt : val sig ^ e % n < 256 ^ sig.length := by
    have hn' := val_lt (load modulus (4 * len))
    rw [hn, length_load, ← hsigLen] at hn'
    exact lt_trans (mod_lt _ (by omega)) hn'
  have hout : ofWords (powMod key (words sig)).2.words = ofNat sig.length (val sig ^ e % n) := by
    apply val_inj
    . rw [length_ofWords, hres.length, length_ofNat, hkeyLen, hsigLen]
    . rw [val_ofWords, hres.val_eq, hval, hpowers.exponent, val_ofNat hlt]
  have hnumBits' : (prop.numBits % 2 ^ 32).toNat = prop.numBits.toNat := by omega
  have hrange : ¬(rsaMaxKeyBits < prop.numBits.toNat ∨ prop.numBits.toNat < rsaMinKeyBits) := by
    unfold rsaMaxKeyBits rsaMinKeyBits
    omega
  unfold rsaModExpSw
  simp only [hmodulus, hrr, hnumBits', hlen, hpublicKey, hres.ret, hout]
  rw [if_neg (by omega), if_neg hrange, if_neg (by omega), if_neg (not_not.mpr rfl)]

lemma rsaModExpSw_eq_none (hkey : prop.For n e) (hwhole : prop.numBits / 8 % 4 ≠ 0)
    (hsig : sig.length = prop.numBits / 8)
    : rsaModExpSw prop sig = none := by
  have hge := hkey.numBits_ge
  have hle := hkey.numBits_le
  have ⟨modulus, hmodulus, _⟩ := hkey.modulus
  have ⟨rr, hrr, _⟩ := hkey.rr
  unfold rsaModExpSw
  simp only [hmodulus, hrr]
  unfold rsaMaxKeyBits at hle ⊢
  unfold rsaMinKeyBits at hge ⊢
  rw [if_neg (by omega), if_neg (by omega), if_pos (by omega)]

lemma exists_n0inv (hodd : n % 2 = 1) : ∃ n0inv : UInt32, 2 ^ 32 ∣ n0inv.toNat * n + 1 := by
  have hcoprime : Nat.Coprime n (2 ^ 32) := by
    apply Nat.Coprime.pow_right
    rw [coprime_two_right, odd_iff]
    exact hodd
  have ⟨m, hm⟩ := exists_mul_mod_eq_one_of_coprime hcoprime (by norm_num)
  refine ⟨UInt32.ofNat ((2 ^ 32 - 1) * m), ?_⟩
  rw [UInt32.toNat_ofNat', dvd_iff_mod_eq_zero, add_mod, mod_mul_mod, mul_assoc, mul_comm m n]
  omega

lemma exists_of_parity (k m : Nat) : ∃ s, 2 ^ k ≤ s ∧ s ≤ 2 ^ (k + 1) ∧ s % 2 ≠ m % 2 := by
  have hpos := Nat.two_pow_pos k
  cases Nat.decEq (2 ^ k % 2) (m % 2) with
  | isTrue heq => exact ⟨2 ^ k + 1, by omega, by omega, by omega⟩
  | isFalse hne => exact ⟨2 ^ k, by omega, by omega, hne⟩

lemma exists_modulus {m : Nat} (hlen : 2 ≤ len) (hm : m < 2 ^ (8 * len - 15))
    : ∃ s n, n % 2 = 1 ∧ n < 256 ^ len ∧ s < n ∧ s ^ 3 % n = m := by
  generalize hk : (8 * len - 12) / 3 = k
  have ⟨s, hge, hle, hparity⟩ := exists_of_parity k m
  have hlow : 2 * 2 ^ (8 * len - 15) ≤ s ^ 3 := by
    calc 2 * 2 ^ (8 * len - 15)
      _ = 2 ^ (8 * len - 15 + 1) := by ring
      _ ≤ 2 ^ (k * 3) := Nat.pow_le_pow_right (by omega) (by omega)
      _ = (2 ^ k) ^ 3 := pow_mul 2 k 3
      _ ≤ s ^ 3 := Nat.pow_le_pow_left hge 3
  have hhigh : s ^ 3 < 256 ^ len := by
    calc s ^ 3
      _ ≤ (2 ^ (k + 1)) ^ 3 := Nat.pow_le_pow_left hle 3
      _ = 2 ^ ((k + 1) * 3) := (pow_mul 2 (k + 1) 3).symm
      _ < 2 ^ (8 * len) := Nat.pow_lt_pow_right (by omega) (by omega)
      _ = 256 ^ len := pow_mul 2 8 len
  have hodd : s ^ 3 % 2 = s % 2 := by
    rw [pow_mod]
    cases mod_two_eq_zero_or_one s with
    | inl h => rw [h]
    | inr h => rw [h]
  have hself : s * 2 ≤ s ^ 3 := by
    have htwo : 2 ≤ s * s := by
      have hpow : 2 ^ 1 ≤ 2 ^ k := Nat.pow_le_pow_right (by omega) (by omega)
      exact le_trans (by omega) (mul_le_mul_right s (by omega : 1 ≤ s))
    rw [pow_succ, pow_two, mul_comm]
    exact mul_le_mul_right s htwo
  refine ⟨s, s ^ 3 - m, by omega, by omega, by omega, ?_⟩
  have hsum : s ^ 3 = s ^ 3 - m + m := by omega
  rw [hsum, Nat.add_sub_cancel, Nat.add_mod_left, Nat.mod_eq_of_lt (by omega)]

def pointer (len x : Nat) : Nat → UInt8 := fun i => (ofNat len x).getD i 0

lemma val_load_pointer {x : Nat} (h : x < 256 ^ len) : val (load (pointer len x) len) = x := by
  unfold pointer
  have hload := load_getD (ofNat len x)
  rw [length_ofNat] at hload
  rw [hload, val_ofNat h]

lemma exists_key (numBits : Int) (hge : 2048 ≤ numBits) (hle : numBits ≤ 4096)
    (hlen : m.length = numBits / 8) (hm : val m < 2 ^ (8 * m.length - 15))
    : ∃ prop n e sig, prop.numBits = numBits
        ∧ KeyProp.For prop n e
        ∧ Powers n e sig
        ∧ sig.length = m.length
        ∧ ofNat sig.length (val sig ^ e % n) = m := by
  have ⟨s, n, hodd, hn, hs, hmod⟩ := exists_modulus (by omega) hm
  have ⟨n0inv, hn0inv⟩ := exists_n0inv hodd
  have hbytes : (numBits / 8).toNat = m.length := by omega
  have hrr : (256 ^ m.length) ^ 2 % n < 256 ^ m.length := lt_trans (mod_lt _ (by omega)) hn
  let prop : KeyProp := {
    rr := some (pointer m.length ((256 ^ m.length) ^ 2 % n))
    modulus := some (pointer m.length n)
    publicExponent := some (pointer 8 3)
    n0inv
    numBits
    expLen := 8
  }
  have hval := val_ofNat (lt_trans hs hn)
  refine ⟨prop, n, 3, ofNat m.length s, rfl, ?_, ⟨rfl, .inl ?_⟩, length_ofNat _ _, ?_⟩
  . constructor
    . exact hge
    . exact hle
    . refine ⟨_, rfl, ?_⟩
      rw [hbytes, val_load_pointer hn]
    . exact hodd
    . exact hn0inv
    . refine ⟨_, rfl, ?_⟩
      rw [hbytes, val_load_pointer hrr]
    . change (UInt64.ofNat (val (load (pointer 8 3) 8))).toNat = 3
      rfl
    . rfl
    . exact le_refl 3
  . rw [hval]
    exact hs
  . rw [length_ofNat, hval, hmod, ofNat_val]

lemma val_lt_of_start (h : [0x00, 0x01] <+: m) : val m < 2 ^ (8 * m.length - 15) := by
  have ⟨rest, hrest⟩ := h
  have hlt := val_lt rest
  have hexp : 8 * (rest.length + 1 + 1) - 15 = 8 * rest.length + 1 := by omega
  have hpow : 2 ^ (8 * rest.length + 1) = 256 ^ rest.length * 2 := by
    rw [Nat.pow_succ, Nat.pow_mul]
  rw [← hrest, cons_append, cons_append, nil_append, val_cons, val_cons,
    length_cons, length_cons, length_cons, hexp, hpow]
  change 0 * _ + (1 * 256 ^ rest.length + _) < 256 ^ rest.length * 2
  omega

lemma padding_getElem?_ff {ffLen i : Nat} (h : i < ffLen) : (padding algo ffLen)[2 + i]? = some 0xff := by
  unfold padding
  rw [getElem?_append_right (by simp), length_cons, length_singleton,
    Nat.add_sub_cancel_left, getElem?_append_left (by simpa), getElem?_replicate, if_pos h]

lemma padding_getElem?_zero (algo : ChecksumAlgo) (ffLen : Nat) : (padding algo ffLen)[2 + ffLen]? = some 0x00 := by
  unfold padding
  rw [getElem?_append_right (by simp), length_cons, length_singleton,
    Nat.add_sub_cancel_left, getElem?_append_right (by simp), length_replicate,
    Nat.sub_self, getElem?_cons_zero]

section

variable (hder : algo.derPrefix.length = algo.derLen)

include hder

lemma encode_ne_of_lt {k emLen : Nat}
    (rest : List UInt8) (h : emLen < k + 1 + algo.derLen + 3 + algo.checksumLen)
    : encode algo hash emLen ≠ some (padding algo (k + 1) ++ rest) := by
  unfold encode
  split
  . next hle =>
    intro heq
    injection heq with heq
    generalize hj : emLen - (algo.derLen + algo.checksumLen + 3) = j at heq
    have hlen := length_padding hder j
    have hlen' := length_padding hder (k + 1)
    have hget := congrArg (fun l => l[2 + j]?) heq
    rw [getElem?_append_left (by omega), getElem?_append_left (by omega),
      padding_getElem?_zero, padding_getElem?_ff (by omega)] at hget
    simp at hget
  . simp

lemma exists_diverging (hderLen : algo.derLen < 2 ^ 31)
    (hle : algo.checksumLen ≤ keyLen) (emLen : Nat) (hge : 3 ≤ emLen) (hlt : emLen < 2 ^ 31)
    (h : ¬(keyLen = emLen ∧ algo.derLen + algo.checksumLen + 4 ≤ keyLen))
    : ∃ m hash, m.length = emLen
        ∧ [0x00, 0x01] <+: m
        ∧ hash.length = algo.checksumLen
        ∧ ∀ ret, rsaVerifyKey.check m hash (keyLen - algo.checksumLen) algo = some ret
            → ¬(ret = 0 ↔ encode algo hash emLen = some m) := by
  generalize hhash : replicate algo.checksumLen (0 : UInt8) = hash
  have hhash_length : hash.length = algo.checksumLen := by
    rw [← hhash, length_replicate]
  cases lt_or_ge keyLen (algo.derLen + algo.checksumLen + 4) with
  | inl hsmall =>
    refine ⟨0x00 :: 0x01 :: replicate (emLen - 3 + 1) 0xff, hash, ?_, ?_, hhash_length, ?_⟩
    . simp
      omega
    . simp
    . intro ret hret
      rw [rsaVerifyKey.check_eq_none_of_run (emLen - 3) (by omega) (by omega) (by omega) rfl] at hret
      contradiction
  | inr hroom =>
    generalize hk : keyLen - algo.checksumLen - algo.derLen - 4 = k
    have hpadLen : keyLen - algo.checksumLen = k + 1 + algo.derLen + 3 := by omega
    have hpadding := length_padding hder (k + 1)
    have hstart : [0x00, 0x01] <+: padding algo (k + 1) := prefix_append _ _
    rw [hpadLen]
    cases lt_trichotomy emLen keyLen with
    | inl hshort =>
      cases lt_or_ge emLen (k + 1 + algo.derLen + 3) with
      | inl hnone =>
        have hlen : ((padding algo (k + 1)).take emLen).length = emLen := by
          rw [length_take]
          omega
        refine ⟨(padding algo (k + 1)).take emLen, hash, hlen, ?_, hhash_length, ?_⟩
        . rw [prefix_take_iff]
          exact ⟨hstart, by simp; omega⟩
        . intro ret hret
          rw [rsaVerifyKey.check_eq_none_of_short (by omega) ( take_prefix _ _)] at hret
          contradiction
      | inr hzero =>
        generalize hrest : hash.take (emLen - (k + 1 + algo.derLen + 3)) = rest
        have hpre : rest <+: hash := by
          rw [← hrest]
          apply take_prefix
        have hlen : (padding algo (k + 1) ++ rest).length = emLen := by
          rw [length_append, ← hrest, length_take]
          omega
        refine ⟨padding algo (k + 1) ++ rest, hash, hlen, hstart.trans (prefix_append _ _), hhash_length, ?_⟩
        intro ret hret
        rw [rsaVerifyKey.check_eq_zero_of_lt hder hpre rfl (by omega)] at hret
        injection hret with hret
        intro hiff
        exact encode_ne_of_lt hder rest (by omega) (hiff.mp hret.symm)
    | inr hge =>
      cases hge with
      | inl heq => omega
      | inr hlong =>
        have hlen : (padding algo (k + 1) ++ (hash ++ replicate (emLen - keyLen) 0)).length = emLen := by
          rw [length_append, length_append, length_replicate]
          omega
        have hrest : replicate (emLen - keyLen) (0 : UInt8) ≠ [] := by
          simp
          omega
        refine ⟨_, hash, hlen, hstart.trans (prefix_append _ _), hhash_length, ?_⟩
        intro ret hret
        rw [rsaVerifyKey.check_eq_none_of_lt hder hrest rfl (by omega)] at hret
        contradiction

end

lemma exact_of_lengths (hder : algo.derPrefix.length = algo.derLen) (hlt : keyLen < 2 ^ 31)
    (hlen : keyLen = prop.numBits / 8) (hroom : algo.derLen + algo.checksumLen + 4 ≤ keyLen) (hwhole : keyLen % 4 = 0)
    (hkey : prop.For n e) (hpowers : Powers n e sig) (hhash : hash.length = algo.checksumLen)
    : Exact prop n e sig hash keyLen algo := by
  cases Int.decEq sig.length (prop.numBits / 8) with
  | isFalse hne =>
    refine ⟨einval, rsaVerifyKey_eq_einval hkey hne, ?_⟩
    simp [hne, einval]
  | isTrue heq =>
    have hmod := rsaModExpSw_eq hkey (by omega) hpowers heq
    have hbuf := length_ofNat sig.length (val sig ^ e % n)
    generalize hpow : ofNat sig.length (val sig ^ e % n) = buf at hmod hbuf
    generalize hk : keyLen - algo.checksumLen - algo.derLen - 4 = k
    have hpadLen : keyLen - algo.checksumLen = k + 1 + algo.derLen + 3 := by omega
    have hbuf' : buf.length = k + 1 + algo.derLen + 3 + hash.length := by omega
    obtain ⟨ret, hret, hiff⟩ := rsaVerifyKey.check_spec hder hbuf' (by omega)
    refine ⟨ret, ?_, ?_⟩
    . rw [rsaVerifyKey_eq_check hkey heq hmod hbuf (by omega) hlt, hpadLen, hret]
    have hff : sig.length - (algo.derLen + algo.checksumLen + 3) = k + 1 := by omega
    unfold encode
    rw [hiff, if_pos (by omega), hff, hpow, Option.some_inj, eq_comm]
    exact (and_iff_right heq).symm

theorem rsaVerifyKey_exact_iff {numBits : Int} (hge : rsaMinKeyBits ≤ numBits)
    (hle : numBits ≤ rsaMaxKeyBits) (hder : algo.derPrefix.length = algo.derLen)
    (hderLen : algo.derLen < 2 ^ 31) (hkeyLen : algo.checksumLen ≤ keyLen) (hlt : keyLen < 2 ^ 31)
    : (∀ prop n e sig hash, prop.numBits = numBits → KeyProp.For prop n e → Powers n e sig →
          hash.length = algo.checksumLen → Exact prop n e sig hash keyLen algo)
      ↔ keyLen = numBits / 8 ∧ algo.derLen + algo.checksumLen + 4 ≤ keyLen ∧ keyLen % 4 = 0 := by
  unfold rsaMinKeyBits at hge
  unfold rsaMaxKeyBits at hle
  constructor
  . intro hall
    by_contra hlengths
    -- A message that the check gets wrong, any message when the words do not fill the buffer.
    obtain ⟨m, hash, hm, hstart, hhash, hdiverges⟩ : ∃ m hash, m.length = (numBits / 8).toNat ∧ [0x00, 0x01] <+: m
        ∧ hash.length = algo.checksumLen ∧ (numBits / 8 % 4 = 0 →
          ∀ ret, rsaVerifyKey.check m hash (keyLen - algo.checksumLen) algo = some ret
            → ¬(ret = 0 ↔ encode algo hash (numBits / 8).toNat = some m)) := by
      by_cases hwhole : numBits / 8 % 4 = 0
      . obtain ⟨m, hash, hm, hstart, hhash, hdiverges⟩ := exists_diverging hder hderLen hkeyLen
          (numBits / 8).toNat (by omega) (by omega) (by omega)
        exact ⟨m, hash, hm, hstart, hhash, fun _ => hdiverges⟩
      . refine ⟨0x00 :: 0x01 :: replicate ((numBits / 8).toNat - 2) 0, replicate algo.checksumLen 0, ?_,
          prefix_append _ _, length_replicate, fun h => absurd h hwhole⟩
        rw [length_cons, length_cons, length_replicate]
        omega
    obtain ⟨prop, n, e, sig, hnumBits, hkey, hpowers, hsig, hpow⟩ :=
      exists_key numBits hge hle (by omega) (val_lt_of_start hstart)
    have hsigLen : (sig.length : Int) = prop.numBits / 8 := by omega
    obtain ⟨ret, hret, hiff⟩ := hall prop n e sig hash hnumBits hkey hpowers hhash
    by_cases hwhole : prop.numBits / 8 % 4 = 0
    . have hmod := rsaModExpSw_eq hkey hwhole hpowers hsigLen
      rw [hpow] at hmod
      rw [rsaVerifyKey_eq_check hkey hsigLen hmod hsig.symm hkeyLen hlt] at hret
      apply hdiverges (by omega) ret hret
      rw [hiff, hpow, hsig, hm]
      constructor
      . intro h
        exact h.2
      . intro h
        exact ⟨by omega, h⟩
    . rw [rsaVerifyKey_eq_none hkey hsigLen (rsaModExpSw_eq_none hkey hwhole hsigLen)] at hret
      contradiction
  rintro ⟨hlen, hroom, hwhole⟩ prop n e sig hash hnumBits hkey hpowers hhash
  exact exact_of_lengths hder hlt (by omega) hroom hwhole hkey hpowers hhash

-- A key of 2048 bits and a signature that is accepted.
theorem rsaVerifyKey_exact_rsa2048
    : ∃ prop n e sig, prop.numBits = 2048 ∧ KeyProp.For prop n e ∧ Powers n e sig ∧ sig.length = 256
        ∧ Exact prop n e sig (replicate 32 0) cryptoRsa2048.keyLen checksumSha256
        ∧ rsaVerifyKey (some rsaModExpSw) prop sig (replicate 32 0) cryptoRsa2048.keyLen checksumSha256 = some 0 := by
  generalize hm : padding checksumSha256 202 ++ replicate 32 0 = m
  have hder : checksumSha256.derPrefix.length = checksumSha256.derLen := rfl
  have hlen : m.length = 256 := by
    rw [← hm, length_append, length_padding hder, length_replicate]
    rfl
  have hstart : [0x00, 0x01] <+: m := by
    rw [← hm]
    exact (prefix_append _ _).trans (prefix_append _ _)
  have ⟨prop, n, e, sig, hnumBits, hkey, hpowers, hsig, hpow⟩ :=
    exists_key 2048 (by decide) (by decide) (by rw [hlen]; rfl) (val_lt_of_start hstart)
  have hiff := @rsaVerifyKey_exact_iff cryptoRsa2048.keyLen checksumSha256 2048 (by decide) (by decide) rfl (by decide)
    (by decide) (by decide)
  have hexact := hiff.mpr (by decide) prop n e sig (replicate 32 0) hnumBits hkey hpowers length_replicate
  refine ⟨prop, n, e, sig, hnumBits, hkey, hpowers, hsig.trans hlen, hexact, ?_⟩
  obtain ⟨ret, hret, hzero⟩ := hexact
  rw [hret, hzero.mpr]
  refine ⟨?_, ?_⟩
  . rw [hsig, hlen, hnumBits]
    rfl
  . rw [hpow, hsig, hlen, ← hm]
    rfl

-- The key has 508 bytes, the algorithm of the image 512: the end of the digest is not compared.
theorem rsaVerifyKey_truncated
    : ∃ prop n e sig hash, prop.numBits = 4064
        ∧ KeyProp.For prop n e
        ∧ sig.length = 508
        ∧ hash.length = checksumSha256.checksumLen
        ∧ rsaModExpSw prop sig = some (0, Bytes.ofNat sig.length (Bytes.val sig ^ e % n))
        ∧ rsaVerifyKey (some rsaModExpSw) prop sig hash cryptoRsa4096.keyLen checksumSha256 = some 0
        ∧ encode checksumSha256 hash sig.length ≠ some (Bytes.ofNat sig.length (Bytes.val sig ^ e % n)) := by
  generalize hm : padding checksumSha256 (457 + 1) ++ replicate 28 0 = m
  have hder : checksumSha256.derPrefix.length = checksumSha256.derLen := rfl
  have hlen : m.length = 508 := by
    rw [← hm, length_append, length_padding hder, length_replicate]
    rfl
  have hstart : [0x00, 0x01] <+: m := by
    rw [← hm]
    exact (prefix_append _ _).trans (prefix_append _ _)
  have hrest : replicate 28 (0 : UInt8) <+: replicate 32 0 := by decide
  have hpadLen : cryptoRsa4096.keyLen - checksumSha256.checksumLen = 457 + 1 + checksumSha256.derLen + 3 := by decide
  have ⟨prop, n, e, sig, hnumBits, hkey, hpowers, hsig, hpow⟩ :=
    exists_key 4064 (by decide) (by decide) (by rw [hlen]; rfl) (val_lt_of_start hstart)
  have hsigLen : (sig.length : Int) = prop.numBits / 8 := by
    rw [hsig, hlen, hnumBits]
    rfl
  have hmod := rsaModExpSw_eq hkey (by rw [hnumBits]; rfl) hpowers hsigLen
  refine ⟨prop, n, e, sig, replicate 32 0, hnumBits, hkey, hsig.trans hlen, length_replicate, hmod, ?_, ?_⟩
  . rw [hpow] at hmod
    rw [rsaVerifyKey_eq_check hkey hsigLen hmod hsig.symm (by decide) (by decide), hpadLen]
    exact rsaVerifyKey.check_eq_zero_of_lt hder hrest hm.symm (by omega)
  . rw [hpow, hsig, hlen, ← hm]
    exact encode_ne_of_lt hder _ (by decide)

end UBoot.Rsa
