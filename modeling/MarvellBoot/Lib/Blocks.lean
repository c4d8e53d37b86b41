import Mathlib

/-!
A list as a sequence of blocks that are counted from 1. All blocks are full but the last one, which may be empty.
-/

namespace Blocks

variable {α : Type} (data : List α) (size : Nat) {p : Nat}

def count : Nat := data.length / size + 1

def block (p : Nat) : List α := (data.drop ((p - 1) * size)).take size

lemma mul_eq_pred_mul_add (hp : 1 ≤ p) (size : Nat) : p * size = (p - 1) * size + size := by
  rw [← Nat.succ_mul, Nat.succ_eq_add_one, Nat.sub_add_cancel hp]

lemma length_block (p : Nat) : (block data size p).length = min size (data.length - (p - 1) * size) := by
  unfold block
  rw [List.length_take, List.length_drop]

variable {data size}

lemma start_le_of_le_count (h : p ≤ count data size) : (p - 1) * size ≤ data.length := by
  have hp : p - 1 ≤ data.length / size := Nat.sub_le_of_le_add h
  exact Nat.le_trans (Nat.mul_le_mul_right size hp) (Nat.div_mul_le_self _ _)

lemma take_append_block (hp : 1 ≤ p) : data.take ((p - 1) * size) ++ block data size p = data.take (p * size) := by
  unfold block
  rw [mul_eq_pred_mul_add hp, List.take_add]

lemma lt_count_mul (hsize : 0 < size) : data.length < count data size * size := by
  have hdiv := Nat.div_add_mod data.length size
  have hmod := Nat.mod_lt data.length hsize
  unfold count
  rw [Nat.succ_mul, Nat.mul_comm (data.length / size)]
  omega

lemma take_count (hsize : 0 < size) : data.take (count data size * size) = data := by
  apply List.take_of_length_le
  exact Nat.le_of_lt (lt_count_mul hsize)

lemma length_block_lt_iff (hsize : 0 < size) (hp : 1 ≤ p) (hcount : p ≤ count data size)
    : (block data size p).length < size ↔ p = count data size := by
  have hend := mul_eq_pred_mul_add hp size
  rw [length_block]
  constructor
  . intro h
    have hlast : data.length / size < p := by
      rw [Nat.div_lt_iff_lt_mul hsize]
      omega
    unfold count at hcount ⊢
    omega
  intro h
  have hlt := @lt_count_mul _ data _ hsize
  rw [← h] at hlt
  omega

end Blocks
