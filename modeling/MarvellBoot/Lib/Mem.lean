import Mathlib

/-!
Byte addressed memory and the arithmetic of 64 bit sizes. An address is an integer, a memory
is total and only the bytes a program moves are looked at.
-/

namespace Mem

open List

variable {n k skip : Nat} {a x b : Int} {m : Int → UInt8} {data : List UInt8}

def load (m : Int → UInt8) (a : Int) (n : Nat) : List UInt8 := (List.range n).map fun (i : Nat) => m (a + i)

def store (m : Int → UInt8) (a : Int) (data : List UInt8) : Int → UInt8 :=
  fun x => if a ≤ x ∧ x < a + data.length then data.getD (x - a).toNat 0 else m x

@[simp]
lemma length_load (m : Int → UInt8) (a : Int) (n : Nat) : (load m a n).length = n := by
  simp [load]

lemma load_getD (m : Int → UInt8) (a : Int) {i : Nat} (h : i < n) : (load m a n).getD i 0 = m (a + i) := by
  simp [load, getD, h]

@[simp]
lemma store_nil (m : Int → UInt8) (a : Int) : store m a [] = m := by
  funext x
  unfold store
  rw [length_nil, if_neg (by omega)]

lemma store_of_lt (m : Int → UInt8) (data : List UInt8) (h : x < a) : store m a data x = m x := by
  unfold store
  rw [if_neg]
  omega

lemma store_of_ge (m : Int → UInt8) (h : a + data.length ≤ x) : store m a data x = m x := by
  unfold store
  rw [if_neg]
  omega

lemma store_load_of_mem (m m' : Int → UInt8) (h1 : a ≤ x) (h2 : x < a + n)
    : store m a (load m' b n) x = m' (b + (x - a)) := by
  unfold store
  rw [length_load, if_pos ⟨h1, h2⟩, load_getD _ _ (by omega)]
  congr 2
  omega

lemma store_load_self (m : Int → UInt8) (a : Int) (n : Nat) : store m a (load m a n) = m := by
  funext x
  by_cases h : a ≤ x ∧ x < a + n
  . rw [store_load_of_mem m m h.1 h.2]
    congr 1
    omega
  . unfold store
    rw [length_load, if_neg h]

lemma store_store_of_length_eq {data' : List UInt8}
    (h : data.length = data'.length) : store (store m a data) a data' = store m a data' := by
  funext x
  unfold store
  rw [h]
  split
  . rfl
  . rfl

lemma load_congr {m' : Int → UInt8} (h : ∀ i < n, m (a + i) = m' (b + i)) : load m a n = load m' b n := by
  apply map_congr_left
  intro i hi
  exact h i (mem_range.mp hi)

lemma load_store_of_le (m : Int → UInt8) (a : Int) (h : skip + n ≤ data.length)
    : load (store m a data) (a + skip) n = (data.drop skip).take n := by
  apply ext_getElem
  . simp
    omega
  intro i h1 h2
  simp only [length_load] at h1
  simp only [load, getElem_map, getElem_range, getElem_take, getElem_drop]
  unfold store
  rw [if_pos (by omega), show (a + skip + i - a).toNat = skip + i by omega]
  rw [getD_eq_getElem?_getD, getElem?_eq_getElem (by omega), Option.getD_some]

lemma load_add (m : Int → UInt8) (a : Int) (i j : Nat) : load m a (i + j) = load m a i ++ load m (a + i) j := by
  unfold load
  rw [range_add, map_append, map_map]
  congr 1
  apply map_congr_left
  intro k _
  simp [add_assoc]

lemma load_store_below (m : Int → UInt8) (data : List UInt8) (h : a + n ≤ b)
    : load (store m b data) a n = load m a n := by
  apply load_congr
  intro i hi
  apply store_of_lt
  omega

lemma load_store_above (m : Int → UInt8) (n : Nat)
    (h : b + data.length ≤ a) : load (store m b data) a n = load m a n := by
  apply load_congr
  intro i hi
  apply store_of_ge
  omega

lemma load_store_self (m : Int → UInt8) (a : Int) (data : List UInt8)
    : load (store m a data) a data.length = data := by
  have h : load (store m a data) (a + (0 : Nat)) data.length = (data.drop 0).take data.length :=
    load_store_of_le m a (by omega)
  simpa using h

lemma store_append (m : Int → UInt8) (a : Int) (data data' : List UInt8)
    : store m a (data ++ data') = store (store m a data) (a + data.length) data' := by
  funext x
  unfold store
  rw [length_append, getD_eq_getElem?_getD, getD_eq_getElem?_getD, getD_eq_getElem?_getD]
  by_cases h : a + data.length ≤ x
  . rw [getElem?_append_right (by omega)]
    by_cases h' : x < a + data.length + data'.length
    . rw [if_pos ⟨by omega, by omega⟩, if_pos ⟨h, h'⟩]
      congr 2
      omega
    . rw [if_neg (by omega), if_neg (by omega), if_neg (by omega)]
  . by_cases ha : a ≤ x
    . rw [getElem?_append_left (by omega), if_pos (by omega), if_neg (fun hc => h hc.1), if_pos (by omega)]
    . rw [if_neg (by omega), if_neg (by omega), if_neg (by omega)]

lemma drop_load (m : Int → UInt8) (a : Int) (n skip : Nat)
    : (load m a n).drop skip = load m (a + skip) (n - skip) := by
  apply ext_getElem
  . simp
  . intro i h1 h2
    simp [load, add_assoc]

lemma take_load (m : Int → UInt8) (a : Int) (h : k ≤ n) : (load m a n).take k = load m a k := by
  apply ext_getElem
  . simp [h]
  . intro i h1 h2
    simp [load]

lemma store_load_store (m b : Int → UInt8) (a : Int) (h : skip + data.length ≤ n)
    : store m a (load (store (store b 0 (load m a n)) skip data) 0 n) = store m (a + skip) data := by
  funext x
  by_cases hx : a ≤ x ∧ x < a + n
  . rw [store_load_of_mem m _ hx.1 hx.2]
    by_cases hd : a + skip ≤ x ∧ x < a + skip + data.length
    . unfold store
      rw [if_pos (by omega), if_pos hd]
      congr 1
      omega
    unfold store
    rw [if_neg hd, if_neg (by omega), length_load, if_pos (by omega), load_getD _ _ (by omega)]
    congr 1
    omega
  . unfold store
    rw [length_load, if_neg hx, if_neg (by omega)]

end Mem

namespace Size

def add (a b : Nat) : Nat := (a + b) % 2 ^ 64

def sub (a b : Nat) : Nat := (a + 2 ^ 64 - b) % 2 ^ 64

variable {a b : Nat}

lemma add_eq (h : a + b < 2 ^ 64) : add a b = a + b := Nat.mod_eq_of_lt h

lemma sub_eq (h : b ≤ a) (ha : a < 2 ^ 64) : sub a b = a - b := by
  unfold sub
  omega

def toInt (a : Nat) : Int := Int.bmod a (2 ^ 32)

def ofInt (a : Int) : Nat := (a % 2 ^ 64).toNat

lemma toInt_eq (h : a < 2 ^ 31) : toInt a = a := by
  unfold toInt
  rw [Int.bmod_eq_of_le] <;> omega

lemma toInt_lt (a : Nat) : toInt a < 2 ^ 31 := by
  unfold toInt
  have := @Int.bmod_lt a (2 ^ 32) (by omega)
  omega

lemma toInt_le (a : Nat) : toInt a ≤ a := by
  unfold toInt
  rw [Int.bmod_def]
  split
  . omega
  . omega

lemma and_compl_mask_mod (a : Nat) (hk : k < n) : a &&& (2 ^ n - 1 - (2 ^ k - 1)) = a % 2 ^ n / 2 ^ k * 2 ^ k := by
  apply Nat.eq_of_testBit_eq
  intro i
  have hpos := Nat.two_pow_pos k
  have hle : 2 ^ k < 2 ^ n := Nat.pow_lt_pow_right (by omega) hk
  have hmask : 2 ^ n - 1 - (2 ^ k - 1) = 2 ^ n - ((2 ^ k - 1) + 1) := by omega
  rw [hmask, Nat.testBit_and, Nat.testBit_two_pow_sub_succ (by omega), Nat.testBit_two_pow_sub_one,
    ← Nat.shiftLeft_eq, ← Nat.shiftRight_eq_div_pow, Nat.testBit_shiftLeft, Nat.testBit_shiftRight,
    Nat.testBit_mod_two_pow]
  by_cases hi : i < k
  . simp [hi]
  . have hki : k ≤ i := by omega
    simp [hi, hki, Bool.and_comm]

lemma and_compl_mask (ha : a < 2 ^ 64) (hk : k < 64) : a &&& (2 ^ 64 - 1 - (2 ^ k - 1)) = a / 2 ^ k * 2 ^ k := by
  rw [and_compl_mask_mod a hk, Nat.mod_eq_of_lt ha]

end Size
