import MarvellBoot.UBoot.Rsa.Impl.ModExp

namespace UBoot.Rsa

open Limbs List UInt32 Nat

variable {x : Nat} {moduli nums num b : List UInt32} {result : Words} (acc : Int)

structure RsaPublicKey.For (key : RsaPublicKey) (n : Nat) : Prop where
  len_pos : 0 < key.len
  modulus_length : key.modulus.length = key.len
  rr_length : key.rr.length = key.len
  val_modulus : val key.modulus = n
  odd : n % 2 = 1
  n0inv : 2 ^ 32 ∣ key.n0inv.toNat * n + 1
  val_rr : val key.rr = (2 ^ (32 * key.len)) ^ 2 % n

lemma u64_eq (h : x < 2 ^ 64) : u64 x = x := mod_eq_of_lt h

lemma overflows_eq (h : x < 2 ^ 64) : overflows x = false := by
  simp [overflows]
  omega

lemma subtractModulus.length_go (hlen : nums.length = moduli.length) : (go acc nums moduli).length = nums.length := by
  induction nums generalizing acc moduli with
  | nil => simp [go]
  | cons num nums ih =>
    cases moduli with
    | nil => simp at hlen
    | cons modulus moduli =>
      simp only [length_cons, add_right_cancel_iff] at hlen
      simp only [go, length_cons, ih _ hlen]

lemma subtractModulus.val_go (hlen : nums.length = moduli.length) (hacc : acc = 0 ∨ acc = -1)
    : ∃ borrow : Int, (borrow = 0 ∨ borrow = -1)
        ∧ (val nums : Int) - val moduli + acc = val (go acc nums moduli) + (2 ^ (32 * nums.length) : Nat) * borrow := by
  induction nums generalizing acc moduli with
  | nil =>
    cases moduli with
    | nil => exact ⟨acc, hacc, by simp [go]⟩
    | cons => simp at hlen
  | cons num nums ih =>
    cases moduli with
    | nil => simp at hlen
    | cons modulus moduli =>
      simp only [length_cons, add_right_cancel_iff] at hlen
      have hnum := num.toNat_lt
      have hmodulus := modulus.toNat_lt
      have hexact : Int.bmod (acc + (num.toNat - modulus.toNat)) (2 ^ 64) = acc + (num.toNat - modulus.toNat) := by
        apply Int.bmod_eq_of_le <;> omega
      simp only [go]
      rw [hexact]
      generalize hsum : acc + ((num.toNat : Int) - modulus.toNat) = sum
      have ⟨borrow, hborrow, heq⟩ := ih (sum / 2 ^ 32) hlen (by omega)
      refine ⟨borrow, hborrow, ?_⟩
      have hword : ((sum % 2 ^ 32).toNat % 2 ^ 32 : Nat) = sum % 2 ^ 32 := by omega
      have hpow : (2 ^ (32 * (nums.length + 1)) : Nat) = 2 ^ 32 * 2 ^ (32 * nums.length) := by ring
      have hdiv := Int.emod_add_mul_ediv sum 4294967296
      rw [val_cons, val_cons, val_cons, toNat_ofNat', length_cons, hpow]
      push_cast at heq hword ⊢
      rw [hword]
      linear_combination 4294967296 * heq + hsum - hdiv

variable {key : RsaPublicKey} {n : Nat}

lemma length_subtractModulus (hkey : key.For n) (hlen : num.length = key.len)
    : (subtractModulus key num).length = key.len := by
  unfold subtractModulus
  rw [subtractModulus.length_go _ (by rw [hlen, hkey.modulus_length]), hlen]

lemma val_subtractModulus (hkey : key.For n) (hlen : num.length = key.len)
    : val (subtractModulus key num)
      = if n ≤ val num then val num - n else val num + 2 ^ (32 * key.len) - n := by
  have hlen' : num.length = key.modulus.length := by rw [hlen, hkey.modulus_length]
  have ⟨borrow, hborrow, heq⟩ := subtractModulus.val_go 0 hlen' (.inl rfl)
  have hlt := val_lt (subtractModulus.go 0 num key.modulus)
  rw [subtractModulus.length_go _ hlen', hlen] at hlt
  rw [hkey.val_modulus, hlen] at heq
  unfold subtractModulus
  cases hborrow with
  | inl hzero =>
    rw [hzero] at heq
    split <;> omega
  | inr hneg =>
    rw [hneg] at heq
    split <;> omega

lemma greaterEqualModulus.go_iff (hlen : nums.length = moduli.length)
    : go nums moduli = true ↔ val moduli.reverse ≤ val nums.reverse := by
  induction nums generalizing moduli with
  | nil =>
    cases moduli with
    | nil => simp [go]
    | cons => simp at hlen
  | cons num nums ih =>
    cases moduli with
    | nil => simp at hlen
    | cons modulus moduli =>
      simp only [length_cons, add_right_cancel_iff] at hlen
      have hrev : nums.reverse.length = moduli.reverse.length := by simpa using hlen
      rw [reverse_cons, reverse_cons]
      unfold go
      split
      . next hlt =>
        have := val_concat_lt hrev hlt
        simp
        omega
      next hge =>
      split
      . next hgt =>
        have := val_concat_lt hrev.symm hgt
        simp
        omega
      next hle =>
      have heq : num = modulus := by
        apply UInt32.le_antisymm
        . exact UInt32.not_lt.mp hle
        . exact UInt32.not_lt.mp hge
      rw [ih hlen, val_concat, val_concat, hrev, heq]
      omega

lemma greaterEqualModulus_iff (hkey : key.For n) (hlen : num.length = key.len)
    : greaterEqualModulus key num = true ↔ n ≤ val num := by
  unfold greaterEqualModulus
  rw [greaterEqualModulus.go_iff, reverse_reverse, reverse_reverse, hkey.val_modulus]
  simp [hlen, hkey.modulus_length]

namespace montgomeryMulAddStep

lemma sumA_lt (accA : Nat) (a b result : UInt32) (h : accA < 2 ^ 64) : sumA accA a b result < 2 ^ 64 := by
  have ha := a.toNat_lt
  have hb := b.toNat_lt
  have hresult := result.toNat_lt
  have hmul : a.toNat * b.toNat ≤ (2 ^ 32 - 1) * (2 ^ 32 - 1) := Nat.mul_le_mul (by omega) (by omega)
  unfold sumA
  omega

lemma sumB_lt (accA accB : Nat) (d0 modulus : UInt32) (h : accB < 2 ^ 64) : sumB accA accB d0 modulus < 2 ^ 64 := by
  have hd0 := d0.toNat_lt
  have hmodulus := modulus.toNat_lt
  have hmul : d0.toNat * modulus.toNat ≤ (2 ^ 32 - 1) * (2 ^ 32 - 1) := Nat.mul_le_mul (by omega) (by omega)
  unfold sumB
  omega

structure Accs.Fits (acc : Accs) : Prop where
  accA : acc.accA < 2 ^ 64
  accB : acc.accB < 2 ^ 64

def Accs.carry (acc : Accs) : Nat := acc.accA / 2 ^ 32 + acc.accB / 2 ^ 32

lemma go_spec (a d0 : UInt32) {acc : Accs} (hacc : acc.Fits) {bs results : List UInt32}
    (hresults : results.length = bs.length) (hmoduli : moduli.length = bs.length)
    : (go a d0 acc bs results moduli).1.length = bs.length
      ∧ (go a d0 acc bs results moduli).2.Fits
      ∧ (go a d0 acc bs results moduli).2.overflow = acc.overflow
      ∧ val (go a d0 acc bs results moduli).1
            + 2 ^ (32 * bs.length) * (go a d0 acc bs results moduli).2.carry
          = acc.carry + a.toNat * val bs + val results + d0.toNat * val moduli := by
  induction bs generalizing acc results moduli with
  | nil =>
    rw [length_nil, length_eq_zero_iff] at hresults hmoduli
    subst hresults hmoduli
    refine ⟨rfl, hacc, rfl, ?_⟩
    simp [go]
  | cons b bs ih =>
    cases results with
    | nil => simp at hresults
    | cons result results =>
      cases moduli with
      | nil => simp at hmoduli
      | cons modulus moduli =>
        simp only [length_cons, add_right_cancel_iff] at hresults hmoduli
        have ha := sumA_lt acc.accA a b result hacc.accA
        have hb := sumB_lt (sumA acc.accA a b result) acc.accB d0 modulus hacc.accB
        simp only [go, u64_eq ha, u64_eq hb, overflows_eq ha, overflows_eq hb, Bool.or_false]
        generalize hnext : Accs.mk (sumA acc.accA a b result)
          (sumB (sumA acc.accA a b result) acc.accB d0 modulus) acc.overflow = next
        have hfits : next.Fits := by
          rw [← hnext]
          exact ⟨ha, hb⟩
        have ⟨hlen, hres, hovf, hval⟩ := ih hfits hresults hmoduli
        refine ⟨by simp [hlen], hres, ?_, ?_⟩
        . rw [hovf, ← hnext]
        have hpow : 2 ^ (32 * (bs.length + 1)) = 2 ^ 32 * 2 ^ (32 * bs.length) := by ring
        have hword : sumB (sumA acc.accA a b result) acc.accB d0 modulus % 2 ^ 32 + 2 ^ 32 * next.carry
            = acc.carry + a.toNat * b.toNat + result.toNat + d0.toNat * modulus.toNat := by
          rw [← hnext]
          unfold Accs.carry sumB
          dsimp only
          have hA : sumA acc.accA a b result = acc.accA / 2 ^ 32 + a.toNat * b.toNat + result.toNat := rfl
          omega
        simp only [val_cons, length_cons, hpow, toNat_ofNat']
        generalize sumB (sumA acc.accA a b result) acc.accB d0 modulus % 2 ^ 32 = w at hword ⊢
        generalize go a d0 next bs results moduli = res at hval ⊢
        calc w + 2 ^ 32 * val res.1 + 2 ^ 32 * 2 ^ (32 * bs.length) * res.2.carry
          _ = w + 2 ^ 32 * (val res.1 + 2 ^ (32 * bs.length) * res.2.carry) := by ring
          _ = w + 2 ^ 32 * next.carry + 2 ^ 32 * (a.toNat * val bs + val results + d0.toNat * val moduli) := by
            rw [hval]
            ring
          _ = _ := by
            rw [hword]
            ring

end montgomeryMulAddStep

lemma RsaPublicKey.For.dvd_low {modulus0 : UInt32} (hkey : key.For n) (hmodulus : key.modulus = modulus0 :: moduli)
    : 2 ^ 32 ∣ key.n0inv.toNat * modulus0.toNat + 1 := by
  have hdvd := hkey.n0inv
  rw [← hkey.val_modulus, hmodulus, val_cons] at hdvd
  have heq : key.n0inv.toNat * (modulus0.toNat + 2 ^ 32 * val moduli) + 1
      = key.n0inv.toNat * modulus0.toNat + 1 + 2 ^ 32 * (key.n0inv.toNat * val moduli) := by ring
  rw [heq] at hdvd
  exact (Nat.dvd_add_left (Nat.dvd_mul_right _ _)).mp hdvd

lemma RsaPublicKey.For.lt_radix (hkey : key.For n) : n < 2 ^ (32 * key.len) := by
  rw [← hkey.val_modulus, ← hkey.modulus_length]
  apply val_lt

structure Words.Partial (key : RsaPublicKey) (n b : Nat) (result : Words) : Prop where
  length : result.words.length = key.len
  lt : val result.words < n + b

lemma montgomeryMulAddStep.exists_eq_cons {ws : List UInt32} {len : Nat} (hlen : ws.length = len) (hpos : 0 < len)
    : ∃ w ws', ws = w :: ws' ∧ ws'.length + 1 = len := by
  cases ws with
  | nil =>
    rw [length_nil] at hlen
    omega
  | cons w ws' => exact ⟨w, ws', rfl, hlen⟩

section

variable (hkey : key.For n) (a : UInt32)

include hkey

lemma montgomeryMulAddStep.exists_eq_sum
    (hb : b.length = key.len) (hresult : result.words.length = key.len)
    : ∃ (words : List UInt32) (d top : Nat),
        words.length = key.len
          ∧ d < 2 ^ 32
          ∧ 2 ^ 32 * (val words + 2 ^ (32 * key.len) * top) = val result.words + a.toNat * val b + d * n
          ∧ montgomeryMulAddStep key result a b
              = {
                  words := if top ≠ 0 then subtractModulus key words else words
                  overflow := result.overflow
                } := by
  have ⟨b0, bs, hbs, hlen⟩ := exists_eq_cons hb hkey.len_pos
  have ⟨result0, results, hresults, hlen'⟩ := exists_eq_cons hresult hkey.len_pos
  have ⟨modulus0, moduli, hmoduli, hlen''⟩ := exists_eq_cons hkey.modulus_length hkey.len_pos
  have ha := sumA_lt 0 a b0 result0 (by omega)
  generalize hsa : sumA 0 a b0 result0 = sa at ha
  generalize hd0 : ofNat sa * key.n0inv = d0
  have hsb := sumB_lt sa 0 d0 modulus0 (by omega)
  generalize hsb' : sumB sa 0 d0 modulus0 = sb at hsb
  have hfits : Accs.Fits ⟨sa, sb, result.overflow⟩ := ⟨ha, hsb⟩
  have hresults_length : results.length = bs.length := by omega
  have hmoduli_length : moduli.length = bs.length := by omega
  have ⟨hwords, hfits, hovf, hval⟩ := go_spec a d0 hfits hresults_length hmoduli_length
  unfold montgomeryMulAddStep
  simp only [hbs, hresults, hmoduli, hsa, u64_eq ha, hd0, hsb', u64_eq hsb, overflows_eq ha,
    overflows_eq hsb, Bool.or_false]
  generalize go a d0 ⟨sa, sb, result.overflow⟩ bs results moduli = res at hwords hfits hovf hval ⊢
  have hA := hfits.accA
  have hB := hfits.accB
  have htop : res.2.accA / 2 ^ 32 + res.2.accB / 2 ^ 32 < 2 ^ 64 := by omega
  refine ⟨res.1 ++ [ofNat res.2.carry], d0.toNat, res.2.carry / 2 ^ 32, ?_, d0.toNat_lt, ?_, ?_⟩
  . rw [length_append, hwords, length_singleton, hlen]
  . have hdvd : 2 ^ 32 ∣ sa + d0.toNat * modulus0.toNat := by
      rw [← hd0, UInt32.toNat_mul, UInt32.toNat_ofNat', mod_mul_mod]
      exact Montgomery.dvd_add_mul (hkey.dvd_low hmoduli)
    have hcarry : 2 ^ 32 * Accs.carry ⟨sa, sb, result.overflow⟩ = sa + d0.toNat * modulus0.toNat := by
      unfold Accs.carry
      unfold sumB at hsb'
      dsimp only
      omega
    have hsum : val (res.1 ++ [ofNat res.2.carry])
          + 2 ^ (32 * key.len) * (res.2.carry / 2 ^ 32)
        = val res.1 + 2 ^ (32 * bs.length) * res.2.carry := by
      have hpow : 2 ^ (32 * key.len) = 2 ^ (32 * bs.length) * 2 ^ 32 := by
        rw [← hlen]
        ring
      rw [val_concat, hwords, toNat_ofNat', hpow, mul_assoc, add_assoc, ← mul_add, mod_add_div]
    rw [hsum, hval, ← hkey.val_modulus, hmoduli, val_cons, val_cons, val_cons]
    unfold sumA at hsa
    calc 2 ^ 32 * (Accs.carry ⟨sa, sb, result.overflow⟩ + a.toNat * val bs + val results
          + d0.toNat * val moduli)
      _ = 2 ^ 32 * Accs.carry ⟨sa, sb, result.overflow⟩
          + 2 ^ 32 * (a.toNat * val bs + val results + d0.toNat * val moduli) := by ring
      _ = _ := by
        rw [hcarry, ← hsa, Nat.zero_div]
        ring
  . rw [hovf, overflows_eq htop, Bool.or_false]
    rfl

lemma montgomeryMulAddStep_spec (hb : b.length = key.len) (hresult : result.Partial key n (val b))
    : (montgomeryMulAddStep key result a b).Partial key n (val b)
      ∧ (montgomeryMulAddStep key result a b).overflow = result.overflow
      ∧ 2 ^ 32 * val (montgomeryMulAddStep key result a b).words ≡ val result.words + a.toNat * val b [MOD n] := by
  have ⟨words, d, top, hlen, hd, hsum, heq⟩ := montgomeryMulAddStep.exists_eq_sum hkey a hb hresult.length
  rw [heq]
  have hlt := Montgomery.step_lt a.toNat_lt hd hresult.lt hsum
  have hmod := Montgomery.step_modEq hsum
  split
  . next htop =>
    have hn := hkey.lt_radix
    have hvalb := val_lt b
    rw [hb] at hvalb
    have hone : top = 1 := by
      have : top < 2 := by
        apply Nat.lt_of_mul_lt_mul_left (a := 2 ^ (32 * key.len))
        omega
      omega
    rw [hone, Nat.mul_one] at hlt hmod
    have hval := val_subtractModulus hkey hlen
    rw [if_neg (by omega)] at hval
    refine ⟨⟨length_subtractModulus hkey hlen, ?_⟩, rfl, ?_⟩
    . rw [hval]
      omega
    rw [hval]
    have hback : val words + 2 ^ (32 * key.len) - n + n = val words + 2 ^ (32 * key.len) := by
      omega
    rw [← hback] at hmod
    exact (Nat.ModEq.mul_left _ Nat.add_modEq_right.symm).trans hmod
  . next htop =>
    rw [not_not.mp htop, Nat.mul_zero, Nat.add_zero] at hlt hmod
    exact ⟨⟨hlen, hlt⟩, rfl, hmod⟩

lemma foldl_montgomeryMulAddStep_spec (as : List UInt32) (hb : b.length = key.len)
    (hresult : result.Partial key n (val b))
    : (as.foldl (fun result a => montgomeryMulAddStep key result a b) result).Partial key n (val b)
      ∧ (as.foldl (fun result a => montgomeryMulAddStep key result a b) result).overflow = result.overflow
      ∧ 2 ^ (32 * as.length)
            * val (as.foldl (fun result a => montgomeryMulAddStep key result a b) result).words
          ≡ val result.words + val as * val b [MOD n] := by
  induction as generalizing result with
  | nil =>
    refine ⟨hresult, rfl, ?_⟩
    simp [Nat.ModEq]
  | cons a as ih =>
    have ⟨hstep, hovf, hmod⟩ := montgomeryMulAddStep_spec hkey a hb hresult
    have ⟨hfold, hovf', hmod'⟩ := ih hstep
    rw [foldl_cons]
    refine ⟨hfold, hovf'.trans hovf, ?_⟩
    generalize as.foldl _ _ = res at hmod'
    rw [length_cons, val_cons]
    calc 2 ^ (32 * (as.length + 1)) * val res.words
      _ = 2 ^ 32 * (2 ^ (32 * as.length) * val res.words) := by ring
      _ ≡ 2 ^ 32 * (val (montgomeryMulAddStep key result a b).words + val as * val b) [MOD n] :=
        Nat.ModEq.mul_left _ hmod'
      _ = 2 ^ 32 * val (montgomeryMulAddStep key result a b).words + 2 ^ 32 * (val as * val b) := by
        ring
      _ ≡ val result.words + a.toNat * val b + 2 ^ 32 * (val as * val b) [MOD n] := Nat.ModEq.add_right _ hmod
      _ = _ := by ring

lemma montgomeryMul_spec {a b : Words} (ha : a.words.length = key.len)
    (hb : b.words.length = key.len)
    : (montgomeryMul key a b).Partial key n (val b.words)
      ∧ (montgomeryMul key a b).overflow = (a.overflow || b.overflow)
      ∧ 2 ^ (32 * key.len) * val (montgomeryMul key a b).words ≡ val a.words * val b.words [MOD n] := by
  have hpos : 0 < n := by
    have := hkey.odd
    omega
  have hzero : Words.Partial key n (val b.words)
      { words := replicate key.len 0, overflow := a.overflow || b.overflow } := by
    constructor
    . apply length_replicate
    . rw [val_replicate_zero]
      omega
  have ⟨hwords, hovf, hmod⟩ := foldl_montgomeryMulAddStep_spec hkey a.words hb hzero
  rw [ha, val_replicate_zero, zero_add] at hmod
  exact ⟨hwords, hovf, hmod⟩

end

end UBoot.Rsa
