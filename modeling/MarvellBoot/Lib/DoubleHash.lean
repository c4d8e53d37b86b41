import Mathlib

/-!
The positions of double hashing, numbered from `1` to `size`. Every step goes down by `step` and around
at the start of the table.
-/

namespace DoubleHash

open Nat

def next (size step idx : Nat) : Nat := if idx ≤ step then size + idx - step else idx - step

def probe (size step start : Nat) : Nat → Nat
  | 0 => start
  | n + 1 => next size step (probe size step start n)

variable {size step start : Nat}

section

variable (hstep : 0 < step) (hsize : step < size) (hstart : 0 < start) (hle : start ≤ size) (n : Nat)

include hstep hsize hstart hle

lemma probe_mem : 0 < probe size step start n ∧ probe size step start n ≤ size := by
  induction n with
  | zero => exact ⟨hstart, hle⟩
  | succ n ih =>
    rw [probe, next]
    split
    . omega
    . omega

lemma probe_modEq : probe size step start n + n * step ≡ start [MOD size] := by
  induction n with
  | zero =>
    rw [probe, zero_mul, add_zero]
  | succ n ih =>
    have hmem := probe_mem hstep hsize hstart hle n
    rw [probe, next, add_mul, one_mul]
    split
    . have hback : size + probe size step start n - step + (n * step + step)
          = size + (probe size step start n + n * step) := by omega
      rw [hback]
      exact (add_modEq_left).trans ih
    have hback : probe size step start n - step + (n * step + step) = probe size step start n + n * step := by omega
    rw [hback]
    exact ih

-- Two positions of the table that are the same modulo its size.
lemma probe_eq_of_modEq {n idx : Nat} (hpos : 0 < idx) (hidx : idx ≤ size)
    (hmod : probe size step start n ≡ idx [MOD size]) : probe size step start n = idx := by
  have hmem := probe_mem hstep hsize hstart hle n
  have hlow : probe size step start n - 1 ≡ idx - 1 [MOD size] := by
    apply Nat.ModEq.add_right_cancel' 1
    rw [Nat.sub_add_cancel hmem.1, Nat.sub_add_cancel hpos]
    exact hmod
  have := hlow.eq_of_lt_of_lt (by omega) (by omega)
  omega

lemma probe_size : probe size step start size = start := by
  apply probe_eq_of_modEq hstep hsize hstart hle hstart hle
  have hmod := probe_modEq hstep hsize hstart hle size
  have hzero : size * step ≡ 0 [MOD size] := modEq_zero_iff_dvd.mpr (dvd_mul_right size step)
  exact (Nat.ModEq.add_left _ hzero).symm.trans hmod

variable (hcoprime : Nat.Coprime step size)

include hcoprime

lemma probe_ne_start {n : Nat} (hpos : 0 < n) (hn : n < size) : probe size step start n ≠ start := by
  intro heq
  have hmod := probe_modEq hstep hsize hstart hle n
  rw [heq] at hmod
  have hzero : n * step ≡ 0 [MOD size] := Nat.ModEq.add_left_cancel' start hmod
  rw [modEq_zero_iff_dvd] at hzero
  have hdvd := hcoprime.symm.dvd_of_dvd_mul_right hzero
  have := le_of_dvd hpos hdvd
  omega

lemma exists_probe_eq {idx : Nat} (hpos : 0 < idx) (hidx : idx ≤ size)
    : ∃ n, n < size ∧ probe size step start n = idx := by
  have ⟨n, hn, hmul⟩ := exists_mul_mod_eq_of_coprime (start + size - idx) hcoprime (by omega)
  refine ⟨n, hn, ?_⟩
  have hprobe := probe_modEq hstep hsize hstart hle n
  have hidxmod : idx + n * step ≡ start [MOD size] := by
    have hstep : idx + n * step ≡ idx + (start + size - idx) [MOD size] := by
      rw [mul_comm]
      exact Nat.ModEq.add_left idx hmul
    have hsum : idx + (start + size - idx) = start + size := by omega
    rw [hsum] at hstep
    exact hstep.trans add_modEq_right
  apply probe_eq_of_modEq hstep hsize hstart hle hpos hidx
  exact Nat.ModEq.add_right_cancel' (n * step) (hprobe.trans hidxmod.symm)

end

end DoubleHash
