import MarvellBoot.UBoot.Rsa.Lemmas.Montgomery

namespace UBoot.Rsa

open Limbs Nat Bool Nat.ModEq List

variable {a b : Words} {x y : Nat} {inout : List UInt32}

variable {key : RsaPublicKey} {n : Nat} (exponent pos : Nat)

lemma RsaPublicKey.For.coprime (hkey : key.For n) : Nat.Coprime n (2 ^ (32 * key.len)) := by
  apply Nat.Coprime.pow_right
  rw [coprime_two_right, odd_iff]
  exact hkey.odd

structure Words.Represents (key : RsaPublicKey) (n x : Nat) (a : Words) : Prop where
  length : a.words.length = key.len
  overflow : a.overflow = false
  modEq : val a.words ≡ x * 2 ^ (32 * key.len) [MOD n]

lemma montgomeryMul_represents (hkey : key.For n) (ha : a.Represents key n x) (hb : b.Represents key n y)
    : (montgomeryMul key a b).Represents key n (x * y) := by
  have ⟨hwords, hovf, hmod⟩ := montgomeryMul_spec hkey ha.length hb.length
  refine ⟨hwords.length, ?_, ?_⟩
  . rw [hovf, ha.overflow, hb.overflow, Bool.or_false]
  apply cancel_left_of_coprime hkey.coprime
  calc 2 ^ (32 * key.len) * val (montgomeryMul key a b).words
    _ ≡ val a.words * val b.words [MOD n] := hmod
    _ ≡ x * 2 ^ (32 * key.len) * (y * 2 ^ (32 * key.len)) [MOD n] := ha.modEq.mul hb.modEq
    _ = 2 ^ (32 * key.len) * (x * y * 2 ^ (32 * key.len)) := by ring

lemma montgomeryMul_rr_represents (hkey : key.For n) (hlen : a.words.length = key.len) (hovf : a.overflow = false)
    : (montgomeryMul key a { words := key.rr, overflow := false }).Represents key n (val a.words) := by
  have ⟨hwords, hovf', hmod⟩ :=
    montgomeryMul_spec (b := { words := key.rr, overflow := false }) hkey hlen hkey.rr_length
  refine ⟨hwords.length, ?_, ?_⟩
  . rw [hovf', hovf, Bool.or_false]
  apply cancel_left_of_coprime hkey.coprime
  calc 2 ^ (32 * key.len) * _
    _ ≡ val a.words * val key.rr [MOD n] := hmod
    _ ≡ val a.words * (2 ^ (32 * key.len)) ^ 2 [MOD n] := by
      rw [hkey.val_rr]
      exact Nat.ModEq.mul_left _ (mod_modEq _ _)
    _ = 2 ^ (32 * key.len) * (val a.words * 2 ^ (32 * key.len)) := by ring

lemma montgomeryMul_val_spec (hkey : key.For n)
    (ha : a.Represents key n x) (hlen : b.words.length = key.len) (hovf : b.overflow = false)
    : (montgomeryMul key a b).Partial key n (val b.words)
      ∧ (montgomeryMul key a b).overflow = false
      ∧ val (montgomeryMul key a b).words ≡ x * val b.words [MOD n] := by
  have ⟨hwords, hovf', hmod⟩ := montgomeryMul_spec hkey ha.length hlen
  refine ⟨hwords, ?_, ?_⟩
  . rw [hovf', ha.overflow, hovf, Bool.or_false]
  apply cancel_left_of_coprime hkey.coprime
  calc 2 ^ (32 * key.len) * val (montgomeryMul key a b).words
    _ ≡ val a.words * val b.words [MOD n] := hmod
    _ ≡ x * 2 ^ (32 * key.len) * val b.words [MOD n] := Nat.ModEq.mul_right _ ha.modEq
    _ = 2 ^ (32 * key.len) * (x * val b.words) := by ring

lemma numPublicExponentBits.go_eq {left bits exponent : Nat} (hpos : exponent ≠ 0)
    (hlt : exponent < 2 ^ left) : go left bits exponent = some (bits + exponent.log2) := by
  induction left generalizing bits exponent with
  | zero => omega
  | succ left ih =>
    rw [log2_def]
    unfold go
    dsimp only
    split
    . next hzero =>
      rw [if_neg (by omega), add_zero]
    next hne =>
    rw [ih hne (by omega), if_pos (by omega)]
    congr 1
    omega

lemma numPublicExponentBits_eq (hpos : key.exponent ≠ 0)
    : numPublicExponentBits key = some (key.exponent.toNat.log2 + 1) := by
  have hne : key.exponent.toNat ≠ 0 := by
    intro hzero
    apply hpos
    exact UInt64.toNat_inj.mp hzero
  unfold numPublicExponentBits
  rw [if_neg hpos, numPublicExponentBits.go_eq hne key.exponent.toNat_lt, add_comm]

lemma isPublicExponentBitSet_ne_zero_iff (key : RsaPublicKey) (pos : Nat) (hpos : pos < 64)
    : isPublicExponentBitSet key pos ≠ 0 ↔ pos < 32 ∧ key.exponent.toNat.testBit pos = true := by
  have hlt : 2 ^ pos < 2 ^ 64 := Nat.pow_lt_pow_right (by omega) hpos
  unfold isPublicExponentBitSet
  rw [Nat.one_shiftLeft, u64_eq hlt, Nat.and_two_pow]
  cases key.exponent.toNat.testBit pos with
  | false => simp
  | true =>
    rw [toNat_true, Nat.one_mul]
    have hbmod : Int.bmod (2 ^ pos : Nat) (2 ^ 32) ≠ 0 ↔ 2 ^ pos % 2 ^ 32 ≠ 0 := by
      unfold Int.bmod
      dsimp only
      split <;> omega
    rw [hbmod]
    constructor
    . intro hne
      apply And.intro _ rfl
      apply Nat.lt_of_not_le
      intro hle
      apply hne
      exact Nat.mod_eq_zero_of_dvd (Nat.pow_dvd_pow 2 hle)
    . intro ⟨hlt32, _⟩
      rw [Nat.mod_eq_of_lt (Nat.pow_lt_pow_right (by omega) hlt32)]
      exact (Nat.two_pow_pos pos).ne'

/--
The exponent that `powMod` computes with: the bits above the 32 low ones are gone, except for the
leading one.
-/
def effectiveExponent (exponent : Nat) : Nat := exponent % 2 ^ 32 ||| 2 ^ exponent.log2

lemma testBit_effectiveExponent
    : (effectiveExponent exponent).testBit pos
      = ((decide (pos < 32) && exponent.testBit pos) || decide (exponent.log2 = pos)) := by
  unfold effectiveExponent
  rw [testBit_or, testBit_mod_two_pow, testBit_two_pow]

lemma effectiveExponent_lt : effectiveExponent exponent < 2 ^ (exponent.log2 + 1) := by
  apply or_lt_two_pow
  . apply lt_of_le_of_lt (mod_le _ _)
    exact lt_log2_self
  . exact Nat.pow_lt_pow_right (by omega) (by omega)

lemma effectiveExponent_div_eq_one : effectiveExponent exponent / 2 ^ exponent.log2 = 1 := by
  have hlt := effectiveExponent_lt exponent
  have hge : 2 ^ exponent.log2 ≤ effectiveExponent exponent := right_le_or
  apply Nat.div_eq_of_lt_le
  . rw [Nat.one_mul]
    exact hge
  . rw [pow_succ] at hlt
    omega

lemma effectiveExponent_div_two_pow
    : effectiveExponent exponent / 2 ^ pos
      = effectiveExponent exponent / 2 ^ (pos + 1) * 2 + ((effectiveExponent exponent).testBit pos).toNat := by
  rw [Nat.toNat_testBit, Nat.pow_succ, ← Nat.div_div_eq_div_mul]
  omega

lemma powMod.loop_represents {aScaled acc : Words} {j : Nat} (hkey : key.For n)
    (haScaled : aScaled.Represents key n x) (hj : j < key.exponent.toNat.log2)
    (hacc : acc.Represents key n (x ^ (effectiveExponent key.exponent.toNat / 2 ^ (j + 1))))
    : (loop key aScaled j acc).Represents key n (x ^ (effectiveExponent key.exponent.toNat / 2)) := by
  induction j generalizing acc with
  | zero => exact hacc
  | succ j ih =>
    have hsquare := montgomeryMul_represents hkey hacc hacc
    have hlog : key.exponent.toNat.log2 < 64 := by
      rw [log2_lt]
      . exact key.exponent.toNat_lt
      . intro hzero
        rw [hzero, log2_zero] at hj
        omega
    have hbit := isPublicExponentBitSet_ne_zero_iff key (j + 1) (by omega)
    have hdiv := effectiveExponent_div_two_pow key.exponent.toNat (j + 1)
    rw [testBit_effectiveExponent, decide_eq_false (p := _ = _) (by omega), Bool.or_false] at hdiv
    rw [← pow_add, ← mul_two] at hsquare
    unfold loop
    apply ih (by omega)
    split
    . next hset =>
      have ⟨hlow, hset⟩ := hbit.mp hset
      rw [hset, decide_eq_true hlow, Bool.and_true, Bool.toNat_true] at hdiv
      rw [hdiv, pow_succ]
      exact montgomeryMul_represents hkey hsquare haScaled
    next hclear =>
    have hfalse : (decide (j + 1 < 32) && key.exponent.toNat.testBit (j + 1)) = false := by
      rw [← not_eq_true, and_eq_true, decide_eq_true_iff, ← hbit]
      exact hclear
    rw [hfalse, toNat_false, add_zero] at hdiv
    rw [hdiv]
    exact hsquare

structure PowModInput (key : RsaPublicKey) (n : Nat) (inout : List UInt32) : Prop where
  isFor : key.For n
  len_le : key.len ≤ rsaMaxKeyBits / 32
  exponent_odd : key.exponent.toNat % 2 = 1
  exponent_ge : 3 ≤ key.exponent.toNat
  length : inout.length = key.len
  lt : val inout.reverse < n

structure PowModResult (key : RsaPublicKey) (n : Nat) (inout : List UInt32) (exponent : Nat)
    (res : Int × Words) : Prop where
  ret : res.1 = 0
  overflow : res.2.overflow = false
  length : res.2.words.length = key.len
  val_eq : val res.2.words.reverse = val inout.reverse ^ exponent % n

lemma val_reduce {words : List UInt32} (hkey : key.For n)
    (hlen : words.length = key.len) (hlt : val words < 2 * n) (hmod : val words ≡ x [MOD n])
    : val (if greaterEqualModulus key words then subtractModulus key words else words) = x % n := by
  have hiff := greaterEqualModulus_iff hkey hlen
  split
  . next hge =>
    rw [hiff] at hge
    rw [val_subtractModulus hkey hlen, if_pos hge, ← hmod, mod_eq_sub_mod hge, mod_eq_of_lt (by omega)]
  . next hlt' =>
    rw [hiff] at hlt'
    rw [← hmod, mod_eq_of_lt (by omega)]

lemma Words.Partial.lt_two_mul {b : Nat} {result : Words} (h : result.Partial key n b)
    (hbound : b < n ∨ 2 ^ (32 * key.len) ≤ 2 * n) : val result.words < 2 * n := by
  cases hbound with
  | inl hlt =>
    have := h.lt
    omega
  | inr hle =>
    apply lt_of_lt_of_le (val_lt _)
    rw [h.length]
    exact hle

lemma powMod_spec_of_bound (hkey : key.For n)
    (hle : key.len ≤ rsaMaxKeyBits / 32) (hexponent : key.exponent.toNat % 2 = 1)
    (hge : 3 ≤ key.exponent.toNat) (hlength : inout.length = key.len)
    (hbound : val inout.reverse < n ∨ 2 ^ (32 * key.len) ≤ 2 * n)
    : PowModResult key n inout (effectiveExponent key.exponent.toNat) (powMod key inout) := by
  have hlog : 1 ≤ key.exponent.toNat.log2 := (Nat.le_log2 (by omega)).mpr (by omega)
  have hne : key.exponent ≠ 0 := by
    intro hzero
    rw [hzero] at hge
    contradiction
  have hbit : isPublicExponentBitSet key 0 ≠ 0 := by
    rw [isPublicExponentBitSet_ne_zero_iff key 0 (by omega), Nat.testBit_zero, decide_eq_true_iff]
    exact ⟨by omega, hexponent⟩
  have hodd : effectiveExponent key.exponent.toNat = effectiveExponent key.exponent.toNat / 2 * 2 + 1 := by
    have hdiv := effectiveExponent_div_two_pow key.exponent.toNat 0
    rw [testBit_effectiveExponent, Nat.testBit_zero, decide_eq_true hexponent] at hdiv
    simpa using hdiv
  generalize hval : Words.mk inout.reverse false = value
  have hlen : value.words.length = key.len := by
    rw [← hval, length_reverse, hlength]
  have hovf : value.overflow = false := by rw [← hval]
  have hscaled := montgomeryMul_rr_represents hkey hlen hovf
  have hloop := powMod.loop_represents (j := key.exponent.toNat.log2 - 1) hkey hscaled (by omega)
    (by
      rw [Nat.sub_add_cancel hlog, effectiveExponent_div_eq_one, Nat.pow_one]
      exact hscaled)
  have hsquare := montgomeryMul_represents hkey hloop hloop
  have ⟨hwords, hovf', hmod⟩ := montgomeryMul_val_spec hkey hsquare hlen hovf
  rw [← Nat.pow_add, ← Nat.mul_two, ← Nat.pow_succ, Nat.succ_eq_add_one, ← hodd] at hmod
  have hbound : val value.words < n ∨ 2 ^ (32 * key.len) ≤ 2 * n := by
    rw [← hval]
    exact hbound
  have hreduce := val_reduce hkey hwords.length (hwords.lt_two_mul hbound) hmod
  have htake : inout.take key.len = inout := take_of_length_le (by rw [hlength])
  have hdrop : inout.drop key.len = [] := drop_of_length_le (by rw [hlength])
  unfold powMod
  rw [if_neg (Nat.not_lt.mpr hle), numPublicExponentBits_eq hne]
  dsimp only
  rw [if_neg (by omega), if_neg hbit, htake, hdrop, hval]
  constructor
  . rfl
  . exact hovf'
  . dsimp only
    rw [append_nil, length_reverse]
    split
    . exact length_subtractModulus hkey hwords.length
    . exact hwords.length
  rw [append_nil, reverse_reverse]
  rw [← hval] at hreduce ⊢
  exact hreduce

lemma powMod_spec (h : PowModInput key n inout)
    : PowModResult key n inout (effectiveExponent key.exponent.toNat) (powMod key inout) := by
  apply powMod_spec_of_bound h.isFor h.len_le h.exponent_odd h.exponent_ge h.length
  exact .inl h.lt

lemma powModResult_iff_modEq (h : PowModInput key n inout)
    : PowModResult key n inout key.exponent.toNat (powMod key inout)
      ↔ val inout.reverse ^ effectiveExponent key.exponent.toNat ≡ val inout.reverse ^ key.exponent.toNat [MOD n] := by
  have hspec := powMod_spec h
  constructor
  . intro hres
    rw [Nat.ModEq, ← hspec.val_eq, ← hres.val_eq]
  intro hmod
  refine ⟨hspec.ret, hspec.overflow, hspec.length, ?_⟩
  rw [hspec.val_eq]
  exact hmod

def HighBitsClear (exponent : Nat) : Prop := ∀ pos < exponent.log2, 32 ≤ pos → exponent.testBit pos = false

instance : DecidablePred HighBitsClear :=
  fun exponent => inferInstanceAs (Decidable (∀ pos < exponent.log2, _))

lemma effectiveExponent_eq_iff {exponent : Nat} (hpos : exponent ≠ 0)
    : effectiveExponent exponent = exponent ↔ HighBitsClear exponent := by
  constructor
  . intro heq pos hlt hge
    rw [← heq, testBit_effectiveExponent, decide_eq_false (p := pos < 32) (by omega),
      decide_eq_false (p := _ = _) (by omega)]
    rfl
  intro hclear
  apply eq_of_testBit_eq
  intro pos
  rw [testBit_effectiveExponent]
  cases lt_trichotomy pos exponent.log2 with
  | inl hlt =>
    rw [decide_eq_false (p := _ = _) (by omega), Bool.or_false]
    cases lt_or_ge pos 32 with
    | inl hlow => rw [decide_eq_true hlow, Bool.true_and]
    | inr hhigh => rw [hclear pos hlt hhigh, Bool.and_false]
  | inr hge =>
    cases hge with
    | inl heq => rw [decide_eq_true heq.symm, Bool.or_true, heq, testBit_log2 hpos]
    | inr hgt =>
      have hbig : exponent.testBit pos = false := by
        apply testBit_lt_two_pow
        exact Nat.lt_of_lt_of_le Nat.lt_log2_self (Nat.pow_le_pow_right (by omega) hgt)
      rw [decide_eq_false (p := _ = _) (by omega), hbig, Bool.and_false, Bool.or_false]

lemma one_add_pow_modEq (q exponent : Nat) : (1 + q) ^ exponent ≡ 1 + exponent * q [MOD q * q] := by
  induction exponent with
  | zero =>
    rw [zero_mul]
    rfl
  | succ exponent ih =>
    calc (1 + q) ^ exponent * (1 + q)
      _ ≡ (1 + exponent * q) * (1 + q) [MOD q * q] := ih.mul_right _
      _ = 1 + (exponent + 1) * q + q * q * exponent := by ring
      _ ≡ 1 + (exponent + 1) * q [MOD q * q] := by simp [Nat.ModEq]

lemma one_add_pow_modEq_iff {q : Nat} (hx : x < q) (hy : y < q) : (1 + q) ^ x ≡ (1 + q) ^ y [MOD q * q] ↔ x = y := by
  constructor
  . intro hmod
    have hlin : 1 + x * q ≡ 1 + y * q [MOD q * q] :=
      (one_add_pow_modEq q x).symm.trans (hmod.trans (one_add_pow_modEq q y))
    have hcancel := Nat.ModEq.mul_right_cancel' (by omega) (Nat.ModEq.add_left_cancel' 1 hlin)
    exact eq_of_lt_of_lt hcancel hx hy
  . intro heq
    rw [heq]

def squareKey (exponent : UInt64) : RsaPublicKey :=
  {
    len := 5
    n0inv := 0xffffffff
    modulus := [1, 0, 2, 0, 1]
    rr := [4, 0, 5, 0, 0]
    exponent
  }

lemma squareKey_input (exponent : UInt64) (hodd : exponent.toNat % 2 = 1) (hge : 3 ≤ exponent.toNat)
    : PowModInput (squareKey exponent) ((2 ^ 64 + 1) * (2 ^ 64 + 1)) [0, 0, 1, 0, 2] where
  isFor := {
    len_pos := succ_pos 4
    modulus_length := rfl
    rr_length := rfl
    val_modulus := by
      dsimp only [squareKey]
      decide
    odd := by decide
    n0inv := by
      dsimp only [squareKey]
      decide
    val_rr := by
      dsimp only [squareKey]
      decide
  }
  len_le := by
    dsimp only [squareKey]
    decide
  exponent_odd := hodd
  exponent_ge := hge
  length := rfl
  lt := by decide

lemma squareKey_pow_modEq
    : val [2, 0, 1, 0, 0] ^ exponent ≡ 1 + exponent * (2 ^ 64 + 1) [MOD (2 ^ 64 + 1) * (2 ^ 64 + 1)] :=
  one_add_pow_modEq (2 ^ 64 + 1) exponent

theorem powMod_result_iff {inout : List UInt32} (h : PowModInput key n inout)
    : (PowModResult key n inout key.exponent.toNat (powMod key inout)
        ↔ val inout.reverse ^ effectiveExponent key.exponent.toNat ≡ val inout.reverse ^ key.exponent.toNat [MOD n])
      ∧ ((∀ key' n' inout', key'.exponent = key.exponent → PowModInput key' n' inout'
            → PowModResult key' n' inout' key'.exponent.toNat (powMod key' inout'))
          ↔ HighBitsClear key.exponent.toNat) := by
  have hge := h.exponent_ge
  refine ⟨powModResult_iff_modEq h, ?_⟩
  rw [← effectiveExponent_eq_iff (by omega)]
  constructor
  . intro hall
    have hinput := squareKey_input key.exponent h.exponent_odd h.exponent_ge
    have hmod := (powModResult_iff_modEq hinput).mp (hall _ _ _ rfl hinput)
    have hlt : effectiveExponent key.exponent.toNat < 2 ^ 64 := by
      apply lt_of_lt_of_le (effectiveExponent_lt _)
      apply Nat.pow_le_pow_right (by omega)
      apply (Nat.log2_lt (by omega)).mpr
      exact key.exponent.toNat_lt
    have hlt' := key.exponent.toNat_lt
    exact (one_add_pow_modEq_iff (q := 2 ^ 64 + 1) (by omega) (by omega)).mp hmod
  . intro heq key' n' inout' hexponent hinput
    rw [powModResult_iff_modEq hinput, hexponent, heq]

theorem powMod_result_iff_squareKey
    : PowModInput (squareKey 65537) ((2 ^ 64 + 1) * (2 ^ 64 + 1)) [0, 0, 1, 0, 2]
      ∧ HighBitsClear 65537
      ∧ PowModResult (squareKey 65537) ((2 ^ 64 + 1) * (2 ^ 64 + 1)) [0, 0, 1, 0, 2] 65537
          (powMod (squareKey 65537) [0, 0, 1, 0, 2]) := by
  have hinput := squareKey_input 65537 (by decide) (by decide)
  have hclear : HighBitsClear 65537 := by decide
  exact ⟨hinput, hclear, (powMod_result_iff hinput).2.mpr hclear _ _ _ rfl hinput⟩

-- Bit 32 of the exponent is lost, the power that is computed is the one by `0x200000001`.
theorem powMod_squareKey_ne
    : PowModInput (squareKey 0x300000001) ((2 ^ 64 + 1) * (2 ^ 64 + 1)) [0, 0, 1, 0, 2]
      ∧ powMod (squareKey 0x300000001) [0, 0, 1, 0, 2] = (0, ⟨[0, 2, 1, 2, 2], false⟩)
      ∧ val [2, 0, 1, 0, 0] ^ 0x300000001 ≡ val [2, 3, 1, 3, 0] [MOD (2 ^ 64 + 1) * (2 ^ 64 + 1)] := by
  have hmod := squareKey_pow_modEq 0x300000001
  exact ⟨squareKey_input 0x300000001 (by decide) (by decide), by decide +kernel, hmod⟩

end UBoot.Rsa
