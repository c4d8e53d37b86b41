import MarvellBoot.Lib.Mem

/-!
The copy functions of `lib/string.c`.
-/

namespace UBoot.CString

open Mem

def copyUp (width : Nat) : (n : Nat) → (Int → UInt8) → (dest src : Int) → Int → UInt8
  | 0, m, _, _ => m
  | n + 1, m, dest, src =>
    copyUp width n (store m dest (load m src width)) (dest + width) (src + width)

def copyDown : (count : Nat) → (Int → UInt8) → (dest src : Int) → Int → UInt8
  | 0, m, _, _ => m
  | count + 1, m, dest, src => copyDown count (store m (dest + count) (load m (src + count) 1)) dest src

def memcpy (m : Int → UInt8) (dest src : Int) (count : Nat) : Int → UInt8 :=
  if src = dest then
    m
  else if dest % 8 = 0 ∧ src % 8 = 0 then
    let words := count / 8
    copyUp 1 (count % 8) (copyUp 8 words m dest src) (dest + 8 * words) (src + 8 * words)
  else
    copyUp 1 count m dest src

def memmove (m : Int → UInt8) (dest src : Int) (count : Nat) : Int → UInt8 :=
  if src = dest then
    m
  else if dest ≤ src then
    copyUp 1 count m dest src
  else
    copyDown count m dest src

lemma copyUp_eq (width n : Nat) (m : Int → UInt8) {dest src : Int} (h : dest ≤ src)
    : copyUp width n m dest src = store m dest (load m src (width * n)) := by
  induction n generalizing m dest src with
  | zero =>
    funext x
    rw [copyUp, Nat.mul_zero]
    unfold store
    rw [length_load, if_neg (by omega)]
  | succ n ih =>
    rw [copyUp, ih _ (by omega), load_store_above _ _ (by rw [length_load]; omega)]
    rw [Nat.mul_succ, Nat.add_comm, load_add, store_append, length_load]

variable (count : Nat)

lemma copyDown_eq (m : Int → UInt8) {dest src : Int} (h : src ≤ dest)
    : copyDown count m dest src = store m dest (load m src count) := by
  induction count generalizing m with
  | zero =>
    funext x
    rw [copyDown]
    unfold store
    rw [length_load, if_neg (by omega)]
  | succ count ih =>
    rw [copyDown, ih, load_store_below _ _ (by omega), load_add, store_append, length_load]
    funext x
    unfold store
    simp only [length_load]
    by_cases hx : x < dest + count
    . rw [if_neg (by omega : ¬(dest + count ≤ x ∧ x < dest + count + (1 : Nat)))]
      rw [if_neg (by omega : ¬(dest + count ≤ x ∧ x < dest + count + (1 : Nat)))]
    . rw [if_neg (by omega : ¬(dest ≤ x ∧ x < dest + count))]
      rw [if_neg (by omega : ¬(dest ≤ x ∧ x < dest + count))]

variable (m : Int → UInt8)

lemma memcpy_eq {dest src : Int} (h : dest ≤ src) : memcpy m dest src count = store m dest (load m src count) := by
  unfold memcpy
  split
  . next heq => rw [heq, store_load_self]
  split
  . dsimp only
    rw [copyUp_eq 1 _ _ (by omega), copyUp_eq 8 _ _ h]
    rw [load_store_above _ _ (by rw [length_load]; omega)]
    have hlen : count = 8 * (count / 8) + 1 * (count % 8) := by omega
    conv => rhs; rw [hlen, load_add, store_append, length_load]
    simp
  . rw [copyUp_eq 1 _ _ h, Nat.one_mul]

lemma memmove_eq (dest src : Int) (count : Nat) : memmove m dest src count = store m dest (load m src count) := by
  unfold memmove
  split
  . next heq => rw [heq, store_load_self]
  split
  . next hle => rw [copyUp_eq 1 _ _ hle, Nat.one_mul]
  . apply copyDown_eq
    omega

end UBoot.CString
