import Mathlib

/-!
`get_ram_size` of `common/memsize.c` for a `long` of 64 bits. The RAM has `2 ^ m` words and is seen again behind its end,
`maxsize` is `2 ^ n` words.
-/

namespace UBoot.MemSize

open Function List

abbrev Ram := Nat → BitVec 64

variable (m : Nat)

def read (ram : Ram) (cnt : Nat) : BitVec 64 := ram (cnt % 2 ^ m)

def write (ram : Ram) (cnt : Nat) (value : BitVec 64) : Ram := update ram (cnt % 2 ^ m) value

def mark (j : Nat) : BitVec 64 := ~~~BitVec.ofNat 64 (2 ^ j)

-- The words from the largest `cnt` down to the one with 1, as they are saved.
def saveWords : (n : Nat) → Ram → List (BitVec 64) × Ram
  | 0, ram => ([], ram)
  | n + 1, ram =>
    let (save, ram') := saveWords n (write m ram (2 ^ n) (mark n))
    (read m ram (2 ^ n) :: save, ram')

def restore : (j : Nat) → List (BitVec 64) → Ram → Ram
  | _, [], ram => ram
  | j, value :: save, ram => restore (j + 1) save (write m ram (2 ^ j) value)

-- The size that is found before `maxsize`, in words.
def check : (j : Nat) → List (BitVec 64) → Ram → Option Nat × Ram
  | _, [], ram => (none, ram)
  | j, value :: save, ram =>
    let val := read m ram (2 ^ j)
    let ram := write m ram (2 ^ j) value
    if val ≠ mark j then (some (2 ^ j), restore m (j + 1) save ram) else check (j + 1) save ram

structure Result where
  size : Nat
  ram : Ram
  -- The number of elements of `save` that are used.
  saved : Nat

def getRamSize (n : Nat) (ram : Ram) : Result :=
  let (save, ram) := saveWords m n ram
  let base := read m ram 0
  let ram := write m ram 0 0
  if read m ram 0 ≠ 0 then
    ⟨0, restore m 0 save.reverse (write m ram 0 base), save.length + 1⟩
  else
    let (size, ram) := check m 0 save.reverse ram
    ⟨size.getD (2 ^ n) * 8, ram, save.length + 1⟩

variable {m} {n j : Nat} {ram : Ram} {value : BitVec 64}

lemma two_pow_mod_of_lt (h : j < m) : 2 ^ j % 2 ^ m = 2 ^ j := Nat.mod_eq_of_lt (Nat.pow_lt_pow_right (by decide) h)

lemma two_pow_mod_of_le (h : m ≤ j) : 2 ^ j % 2 ^ m = 0 := Nat.mod_eq_zero_of_dvd (Nat.pow_dvd_pow 2 h)

lemma length_saveWords (n : Nat) (ram : Ram) : (saveWords m n ram).1.length = n := by
  induction n generalizing ram with
  | zero => rfl
  | succ n ih => exact congrArg (· + 1) (ih _)

lemma saveWords_update_zero (h : n ≤ m) (ram : Ram) (value : BitVec 64)
    : saveWords m n (update ram 0 value) = ((saveWords m n ram).1, update (saveWords m n ram).2 0 value) := by
  induction n generalizing ram with
  | zero => rfl
  | succ n ih =>
    have hne : 2 ^ n ≠ 0 := Nat.ne_of_gt (Nat.two_pow_pos n)
    unfold saveWords write read
    rw [two_pow_mod_of_lt h, update_comm hne.symm, ih (by omega), update_of_ne hne]

lemma check_saveWords (h : n ≤ m) (ram : Ram) (save : List (BitVec 64))
    : check m 0 ((saveWords m n ram).1.reverse ++ save) (saveWords m n ram).2 = check m n save ram := by
  induction n generalizing ram save with
  | zero => rfl
  | succ n ih =>
    rw [saveWords]
    dsimp only
    rw [reverse_cons, append_assoc, ih (by omega), singleton_append, check]
    unfold write read
    rw [two_pow_mod_of_lt h, update_self, if_neg (by simp), update_idem, update_eq_self]

lemma restore_of_le (h : m ≤ j) (save : List (BitVec 64)) (ram : Ram) (value : BitVec 64)
    : restore m j save (update ram 0 value) = update ram 0 (save.getLastD value) := by
  induction save generalizing j value with
  | nil => rfl
  | cons value' save ih =>
    rw [restore, write, two_pow_mod_of_le h, update_idem, ih (by omega), getLastD_cons]

lemma saveWords_mirrored (d : Nat) (ram : Ram)
    : ∃ save, saveWords m (m + d + 1) ram
      = (ram 0 :: save ++ (saveWords m m ram).1, update (saveWords m m ram).2 0 (mark m)) := by
  induction d generalizing ram with
  | zero =>
    refine ⟨[], ?_⟩
    rw [Nat.add_zero, saveWords, write, read, two_pow_mod_of_le (Nat.le_refl m), saveWords_update_zero (Nat.le_refl m)]
    rfl
  | succ d ih =>
    have ⟨save, heq⟩ := ih (update ram 0 (mark (m + d + 1)))
    refine ⟨mark (m + d + 1) :: save, ?_⟩
    rw [← Nat.add_assoc, saveWords, write, read, two_pow_mod_of_le (by omega), heq,
      saveWords_update_zero (Nat.le_refl m), update_self, update_idem]
    rfl

lemma mark_ne_zero (m : Nat) : mark m ≠ 0 := by
  by_cases hm : m < 64
  . have hall : ∀ m : Fin 64, mark m ≠ 0 := by decide
    exact hall ⟨m, hm⟩
  . have hzero : BitVec.ofNat 64 (2 ^ m) = 0 := by
      apply BitVec.eq_of_toNat_eq
      rw [BitVec.toNat_ofNat]
      exact two_pow_mod_of_le (Nat.not_lt.mp hm)
    unfold mark
    rw [hzero]
    decide

lemma getRamSize_of_le (h : n ≤ m) (ram : Ram) : getRamSize m n ram = ⟨2 ^ n * 8, update ram 0 0, n + 1⟩ := by
  have hcheck := check_saveWords h (update ram 0 0) []
  rw [saveWords_update_zero h, append_nil] at hcheck
  have hlen := @length_saveWords m n ram
  unfold getRamSize read write
  simp only [Nat.zero_mod, update_self, ne_eq, not_true_eq_false, if_false, hcheck, hlen]
  rfl

lemma getRamSize_of_lt (h : m < n) (ram : Ram) : getRamSize m n ram = ⟨2 ^ m * 8, ram, n + 1⟩ := by
  have ⟨d, hd⟩ := Nat.exists_eq_add_of_lt h
  have ⟨save, hsave⟩ := @saveWords_mirrored m d ram
  have hcheck := check_saveWords (Nat.le_refl m) (update ram 0 0) (ram 0 :: save).reverse
  rw [saveWords_update_zero (Nat.le_refl m)] at hcheck
  have hlen := @length_saveWords m n ram
  have hfound : check m m (ram 0 :: save).reverse (update ram 0 0) = (some (2 ^ m), ram) := by
    rw [reverse_cons]
    cases hrest : save.reverse ++ [ram 0] with
    | nil => simp at hrest
    | cons value rest =>
      have hlast : rest.getLastD value = ram 0 := by
        rw [← @List.getLastD_cons _ 0, ← hrest, getLastD_concat]
      rw [check, read, write, two_pow_mod_of_le (Nat.le_refl m), update_self, if_pos (mark_ne_zero m).symm, update_idem,
        restore_of_le (Nat.le_succ m), hlast, update_eq_self]
  unfold getRamSize read write
  rw [hd] at hlen ⊢
  rw [hsave] at hlen ⊢
  dsimp only at hlen ⊢
  rw [reverse_append]
  simp only [Nat.zero_mod, update_self, update_idem, ne_eq, not_true_eq_false, if_false, hcheck, hfound, hlen]
  rfl

theorem getRamSize_exact_iff (m n : Nat) (ram : Ram)
    : (getRamSize m n ram).size = min (2 ^ m * 8) (2 ^ n * 8) ∧ (getRamSize m n ram).ram = ram
        ∧ (getRamSize m n ram).saved ≤ 32
      ↔ n < 32 ∧ (m < n ∨ ram 0 = 0) := by
  cases Nat.lt_or_ge m n with
  | inl hlt =>
    have hpow : 2 ^ m ≤ 2 ^ n := Nat.pow_le_pow_right (by decide) (Nat.le_of_lt hlt)
    rw [getRamSize_of_lt hlt]
    simp only [hlt, Nat.min_eq_left (Nat.mul_le_mul_right 8 hpow), true_and, true_or, and_true]
    omega
  | inr hle =>
    have hpow : 2 ^ n ≤ 2 ^ m := Nat.pow_le_pow_right (by decide) hle
    rw [getRamSize_of_le hle]
    simp only [Nat.not_lt.mpr hle, Nat.min_eq_right (Nat.mul_le_mul_right 8 hpow), update_eq_iff, true_and, false_or]
    grind

theorem not_exact_baseWord : (getRamSize 1 1 fun _ => 1).ram ≠ fun _ => 1 := by
  intro h
  have hbase : (getRamSize 1 1 fun _ => 1).ram 0 = 0 := by decide
  rw [h] at hbase
  contradiction

end UBoot.MemSize
