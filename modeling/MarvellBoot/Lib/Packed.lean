import Mathlib

/-!
Fields of any width packed into bytes, least significant bit first.
-/

namespace Packed

open Nat

def bit (p : Nat → UInt8) (n : Nat) : Bool := (p (n / 8)).toNat.testBit (n % 8)

def field (p : Nat → UInt8) (lo len : Nat) : Nat := Nat.ofBits fun i : Fin len => bit p (lo + i)

def load (p : Nat → UInt8) (k : Nat) : Nat → Nat
  | 0 => 0
  | len + 1 => 256 * load p (k + 1) len + (p k).toNat

def store (p : Nat → UInt8) (k len x : Nat) : Nat → UInt8 :=
  fun i => if k ≤ i ∧ i < k + len then UInt8.ofNat (x >>> (8 * (i - k))) else p i

def Patched (p q : Nat → UInt8) (lo len x : Nat) : Prop :=
  ∀ n, bit q n = if lo ≤ n ∧ n < lo + len then x.testBit (n - lo) else bit p n

variable {p q r : Nat → UInt8} {lo len x y : Nat}

lemma testBit_load (p : Nat → UInt8) (k len i : Nat)
    : (load p k len).testBit i = (decide (i < 8 * len) && bit p (8 * k + i)) := by
  induction len generalizing k i with
  | zero => simp [load]
  | succ len ih =>
    have hbyte : (p k).toNat < 2 ^ 8 := (p k).toNat_lt
    rw [load, show 256 = 2 ^ 8 by rfl, testBit_two_pow_mul_add _ hbyte]
    split
    next h =>
      have hdiv : (8 * k + i) / 8 = k := by omega
      have hmod : (8 * k + i) % 8 = i := by omega
      have hlt : i < 8 * (len + 1) := by omega
      simp [bit, hdiv, hmod, hlt]
    next h =>
    have hlt : i - 8 < 8 * len ↔ i < 8 * (len + 1) := by omega
    have hpos : 8 * (k + 1) + (i - 8) = 8 * k + i := by omega
    rw [ih, decide_eq_decide.mpr hlt, hpos]

lemma patched_store (p : Nat → UInt8) (k len x : Nat) : Patched p (store p k len x) (8 * k) (8 * len) x := by
  intro n
  have hin : (k ≤ n / 8 ∧ n / 8 < k + len) ↔ (8 * k ≤ n ∧ n < 8 * k + 8 * len) := by omega
  unfold bit store
  simp only [hin]
  split
  next h =>
    have hmod : n % 8 < 8 := by omega
    have hpos : 8 * (n / 8 - k) + n % 8 = n - 8 * k := by omega
    rw [UInt8.toNat_ofNat', testBit_mod_two_pow, testBit_shiftRight, hpos]
    simp [hmod]
  next => rfl

lemma Patched.congr (h : Patched p q lo len x) (hx : ∀ i < len, x.testBit i = y.testBit i)
    : Patched p q lo len y := by
  intro n
  rw [h n]
  split
  next hn => apply hx; omega
  next => rfl

lemma Patched.trans {len' : Nat} (h : Patched p q lo len x)
    (h' : Patched q r (lo + len) len' (x >>> len)) : Patched p r lo (len + len') x := by
  intro n
  rw [h' n, h n]
  by_cases hn : lo + len ≤ n
  . have hpos : len + (n - (lo + len)) = n - lo := by omega
    by_cases hlt : n < lo + len + len'
    . rw [if_pos ⟨hn, hlt⟩, if_pos (by omega), testBit_shiftRight, hpos]
    . rw [if_neg (by omega), if_neg (by omega), if_neg (by omega)]
  . by_cases hlo : lo ≤ n
    . rw [if_neg (by omega), if_pos (by omega), if_pos (by omega)]
    . rw [if_neg (by omega), if_neg (by omega), if_neg (by omega)]

lemma field_congr {lo' : Nat} (h : ∀ i < len, bit p (lo + i) = bit q (lo' + i))
    : field p lo len = field q lo' len := by
  unfold field
  congr 1
  funext i
  exact h i i.isLt

lemma eq_field (hlt : x < 2 ^ len) (h : ∀ i < len, x.testBit i = bit p (lo + i)) : x = field p lo len := by
  apply eq_of_testBit_eq
  intro i
  by_cases hi : i < len
  . rw [h i hi, field, testBit_ofBits_lt _ _ hi]
  . rw [field, testBit_ofBits_ge _ _ (by omega)]
    apply testBit_lt_two_pow
    exact Nat.lt_of_lt_of_le hlt (Nat.pow_le_pow_right (by omega) (by omega))

lemma eq_field_load {k : Nat} (h : lo = 8 * k) : load p k len = field p lo (8 * len) := by
  have hbit := testBit_load p k len
  apply eq_field
  . apply lt_pow_two_of_testBit
    intro i hi
    rw [hbit, decide_eq_false (by omega), Bool.false_and]
  . intro i hi
    rw [hbit, decide_eq_true hi, Bool.true_and, h]

lemma Patched.field {w e : Nat} (h : Patched p q (w * e) w x) (hx : x < 2 ^ w) (e' : Nat)
    : field q (w * e') w = if e' = e then x else field p (w * e') w := by
  split
  next he =>
    rw [he]
    symm
    apply eq_field hx
    intro i hi
    rw [h, if_pos (by omega)]
    simp
  next he =>
  apply field_congr
  intro i hi
  rw [h, if_neg]
  intro ⟨hle, hlt⟩
  apply he
  have h1 : w * e' < w * (e + 1) := by rw [mul_add]; omega
  have h2 : w * e < w * (e' + 1) := by rw [mul_add]; omega
  have := Nat.lt_of_mul_lt_mul_left h1
  have := Nat.lt_of_mul_lt_mul_left h2
  omega

lemma patched_word (p : Nat → UInt8) {i mask v : Nat}
    (hmask : ∀ j < 16, mask.testBit j = !decide (lo ≤ j ∧ j < lo + len)) (hlo : lo + len ≤ 16)
    (hv : v < 2 ^ len)
    : Patched p (store p (2 * i) 2 (load p (2 * i) 2 &&& mask ||| v <<< lo)) (16 * i + lo) len v := by
  intro n
  rw [patched_store]
  by_cases hn : 8 * (2 * i) ≤ n ∧ n < 8 * (2 * i) + 8 * 2
  . have hj : n - 8 * (2 * i) < 16 := by omega
    have hpos : 8 * (2 * i) + (n - 8 * (2 * i)) = n := by omega
    rw [if_pos hn, testBit_or, testBit_and, testBit_load, hmask _ hj, hpos, testBit_shiftLeft]
    by_cases hin : 16 * i + lo ≤ n ∧ n < 16 * i + lo + len
    . have hsub : n - 8 * (2 * i) - lo = n - (16 * i + lo) := by omega
      have h1 : lo ≤ n - 8 * (2 * i) ∧ n - 8 * (2 * i) < lo + len := by omega
      rw [if_pos hin, hsub]
      simp [h1]
    have h1 : ¬(lo ≤ n - 8 * (2 * i) ∧ n - 8 * (2 * i) < lo + len) := by omega
    have hzero : (decide (n - 8 * (2 * i) ≥ lo) && v.testBit (n - 8 * (2 * i) - lo)) = false := by
      by_cases hge : lo ≤ n - 8 * (2 * i)
      . rw [Nat.testBit_lt_two_pow (Nat.lt_of_lt_of_le hv (Nat.pow_le_pow_right (by omega) (by omega)))]
        simp
      . simp [hge]
    rw [if_neg hin, hzero]
    simp [h1, hj]
  . rw [if_neg hn, if_neg (by omega)]

end Packed
