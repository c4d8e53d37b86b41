import Mathlib

/-!
Numbers as little endian lists of 32 bit words, and Montgomery multiplication of such numbers
for an arbitrary radix.
-/

namespace Limbs

open Nat List

def val (ws : List UInt32) : Nat := Nat.ofDigits (2 ^ 32) (ws.map UInt32.toNat)

@[simp]
lemma val_nil : val [] = 0 := rfl

variable (w : UInt32)

lemma val_cons (ws : List UInt32) : val (w :: ws) = w.toNat + 2 ^ 32 * val ws := by
  unfold val
  rw [map_cons, ofDigits_cons]

variable (ws : List UInt32)

lemma val_append (vs : List UInt32) : val (ws ++ vs) = val ws + 2 ^ (32 * ws.length) * val vs := by
  unfold val
  rw [map_append, ofDigits_append, length_map, pow_mul]

lemma val_concat : val (ws ++ [w]) = val ws + 2 ^ (32 * ws.length) * w.toNat := by
  rw [val_append, val_cons, val_nil, mul_zero, add_zero]

lemma val_replicate_zero (k : Nat) : val (replicate k 0) = 0 := by
  unfold val
  rw [map_replicate]
  exact ofDigits_replicate_zero

lemma val_lt : val ws < 2 ^ (32 * ws.length) := by
  rw [pow_mul, ← length_map UInt32.toNat]
  apply ofDigits_lt_base_pow_length
  . norm_num
  intro x hx
  have ⟨w, _, hw⟩ := mem_map.mp hx
  rw [← hw]
  exact w.toNat_lt

-- The most significant words decide a comparison.
lemma val_concat_lt {ws vs : List UInt32} {w v : UInt32} (hlen : ws.length = vs.length) (h : w < v)
    : val (ws ++ [w]) < val (vs ++ [v]) := by
  rw [val_concat, val_concat, hlen]
  have hws := val_lt ws
  rw [hlen] at hws
  have hle := mul_le_mul_left (2 ^ (32 * vs.length)) (UInt32.lt_iff_toNat_lt.mp h)
  rw [mul_succ] at hle
  omega

end Limbs

namespace Montgomery

variable {B n b r a d s : Nat}

lemma dvd_add_mul {x m m' : Nat} (hm : B ∣ m' * m + 1) : B ∣ x + x * m' % B * m := by
  rw [← Nat.modEq_zero_iff_dvd] at hm ⊢
  calc x + x * m' % B * m
    _ ≡ x + x * m' * m [MOD B] := by
      apply Nat.ModEq.add_left
      apply Nat.ModEq.mul_right
      exact Nat.mod_modEq _ _
    _ = x * (m' * m + 1) := by ring
    _ ≡ x * 0 [MOD B] := Nat.ModEq.mul_left x hm

lemma step_lt (ha : a < B) (hd : d < B) (hr : r < n + b) (hs : B * s = r + a * b + d * n) : s < n + b := by
  apply Nat.lt_of_mul_lt_mul_left (a := B)
  have hab : a * b ≤ (B - 1) * b := Nat.mul_le_mul_right b (by omega)
  have hdn : d * n ≤ (B - 1) * n := Nat.mul_le_mul_right n (by omega)
  have hB : B * (n + b) = (B - 1) * b + (B - 1) * n + (n + b) := by
    obtain ⟨c, rfl⟩ : ∃ c, B = c + 1 := ⟨B - 1, by omega⟩
    rw [Nat.add_sub_cancel]
    ring
  omega

lemma step_modEq (hs : B * s = r + a * b + d * n) : B * s ≡ r + a * b [MOD n] := by
  rw [hs]
  unfold Nat.ModEq
  rw [Nat.add_mul_mod_self_right]

end Montgomery
