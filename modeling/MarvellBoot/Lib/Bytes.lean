import MarvellBoot.Lib.Limbs
import MarvellBoot.Lib.Mem

/-!
Numbers as big endian lists of bytes, the 32 bit words of such a list, and little endian numbers in
memory.
-/

namespace Bytes

open List Mem Nat UInt8

variable {len x k : Nat} {bs : List UInt8} {a b : Int} {m : Int → UInt8} (ws : List UInt32)

def val (bs : List UInt8) : Nat := Nat.ofDigits 256 (bs.reverse.map UInt8.toNat)

def ofNat : (len x : Nat) → List UInt8
  | 0, _ => []
  | len + 1, x => ofNat len (x / 256) ++ [UInt8.ofNat x]

def load (p : Nat → UInt8) (len : Nat) : List UInt8 := (List.range len).map p

def words : List UInt8 → List UInt32
  | a :: b :: c :: d :: bs => UInt32.ofNat (val [a, b, c, d]) :: words bs
  | _ => []

def ofWords (ws : List UInt32) : List UInt8 := ws.flatMap fun w => ofNat 4 w.toNat

@[simp]
lemma val_nil : val [] = 0 := rfl

lemma val_append (bs cs : List UInt8) : val (bs ++ cs) = val bs * 256 ^ cs.length + val cs := by
  unfold val
  rw [reverse_append, map_append, ofDigits_append, length_map, length_reverse, add_comm, mul_comm]

lemma val_singleton (b : UInt8) : val [b] = b.toNat := by
  simp [val]

lemma val_concat (bs : List UInt8) (b : UInt8) : val (bs ++ [b]) = val bs * 256 + b.toNat := by
  rw [val_append, val_singleton, length_singleton, pow_one]

lemma val_cons (b : UInt8) (bs : List UInt8) : val (b :: bs) = b.toNat * 256 ^ bs.length + val bs := by
  rw [← singleton_append, val_append, val_singleton]

lemma val_lt (bs : List UInt8) : val bs < 256 ^ bs.length := by
  rw [← length_reverse, ← length_map toNat]
  apply ofDigits_lt_base_pow_length
  . norm_num
  intro x hx
  have ⟨b, _, hb⟩ := mem_map.mp hx
  rw [← hb]
  exact b.toNat_lt

@[simp]
lemma length_ofNat (len x : Nat) : (ofNat len x).length = len := by
  induction len generalizing x with
  | zero => rfl
  | succ len ih => rw [ofNat, length_append, ih, length_singleton]

lemma val_ofNat (h : x < 256 ^ len) : val (ofNat len x) = x := by
  induction len generalizing x with
  | zero =>
    rw [ofNat, val_nil]
    omega
  | succ len ih =>
    rw [ofNat, val_concat, ih (by omega), toNat_ofNat']
    omega

lemma ofNat_val (bs : List UInt8) : ofNat bs.length (val bs) = bs := by
  induction bs using reverseRecOn with
  | nil => rfl
  | append_singleton bs b ih =>
    have hb := b.toNat_lt
    have hdiv : (val bs * 256 + b.toNat) / 256 = val bs := by omega
    have hbyte : UInt8.ofNat (val bs * 256 + b.toNat) = b := by
      rw [← UInt8.toNat_inj, UInt8.toNat_ofNat']
      omega
    rw [length_append, length_singleton, ofNat, val_concat, hdiv, hbyte, ih]

lemma val_inj {cs : List UInt8} (hlen : bs.length = cs.length) (h : val bs = val cs) : bs = cs := by
  rw [← ofNat_val bs, ← ofNat_val cs, hlen, h]

@[simp]
lemma length_load (p : Nat → UInt8) (len : Nat) : (load p len).length = len := by
  simp [load]

lemma load_getD (bs : List UInt8) : load (fun i => bs.getD i 0) bs.length = bs := by
  apply ext_getElem
  . apply length_load
  . intro i h1 h2
    simp only [load, getElem_map, getElem_range, getD_eq_getElem?_getD, getElem?_eq_getElem h2, Option.getD_some]

lemma length_words (h : bs.length = 4 * k) : (words bs).length = k := by
  induction k generalizing bs with
  | zero =>
    rw [length_eq_zero_iff.mp h]
    rfl
  | succ k ih =>
    match bs, h with
    | a :: b :: c :: d :: bs, h =>
      simp only [length_cons] at h
      rw [words, length_cons, ih (by omega)]

lemma val_words (h : bs.length = 4 * k) : Limbs.val (words bs).reverse = val bs := by
  induction k generalizing bs with
  | zero =>
    rw [length_eq_zero_iff.mp h]
    rfl
  | succ k ih =>
    match bs, h with
    | a :: b :: c :: d :: bs, h =>
      have hlen : bs.length = 4 * k := by
        simp only [length_cons] at h
        omega
      have hlt : val [a, b, c, d] < 2 ^ 32 := by simpa using val_lt [a, b, c, d]
      have hsplit : a :: b :: c :: d :: bs = [a, b, c, d] ++ bs := rfl
      have hpow : 2 ^ (32 * k) = 256 ^ bs.length := by
        rw [hlen, Nat.pow_mul, Nat.pow_mul]
      rw [words, reverse_cons, Limbs.val_concat, length_reverse, length_words hlen,
        ih hlen, UInt32.toNat_ofNat', Nat.mod_eq_of_lt hlt, hsplit, val_append, hpow]
      ring

lemma length_ofWords : (ofWords ws).length = 4 * ws.length := by
  induction ws with
  | nil => rfl
  | cons w ws ih =>
    unfold ofWords at ih ⊢
    rw [flatMap_cons, length_append, ih, length_ofNat, length_cons]
    omega

lemma val_ofWords : val (ofWords ws) = Limbs.val ws.reverse := by
  induction ws with
  | nil => rfl
  | cons w ws ih =>
    have hlen := length_ofWords ws
    unfold ofWords at ih hlen ⊢
    have hpow : 256 ^ (4 * ws.length) = 2 ^ (32 * ws.length) := by
      rw [Nat.pow_mul, Nat.pow_mul]
    rw [flatMap_cons, val_append, hlen, ih, val_ofNat w.toNat_lt, reverse_cons, Limbs.val_concat, length_reverse, hpow]
    ring

def loadLe (m : Int → UInt8) (a : Int) (len : Nat) : Nat := val (Mem.load m a len).reverse

def storeLe (m : Int → UInt8) (a : Int) (len x : Nat) : Int → UInt8 := Mem.store m a (ofNat len x).reverse

lemma reverse_ofNat_loadLe (m : Int → UInt8) (a : Int) (len : Nat)
    : (ofNat len (loadLe m a len)).reverse = Mem.load m a len := by
  have h := ofNat_val (Mem.load m a len).reverse
  rw [length_reverse, Mem.length_load] at h
  unfold loadLe
  rw [h, reverse_reverse]

lemma storeLe_storeLe_loadLe (m : Int → UInt8) (a : Int) (len x : Nat)
    : storeLe (storeLe m a len x) a len (loadLe m a len) = m := by
  unfold storeLe
  rw [reverse_ofNat_loadLe, Mem.store_store_of_length_eq (by simp), Mem.store_load_self]

lemma loadLe_storeLe (h : x < 256 ^ len) : loadLe (storeLe m a len x) a len = x := by
  have hload := load_store_self m a (ofNat len x).reverse
  rw [length_reverse, length_ofNat] at hload
  unfold loadLe storeLe
  rw [hload, reverse_reverse, val_ofNat h]

lemma loadLe_congr {m' : Int → UInt8} (h : ∀ i < len, m (a + i) = m' (b + i)) : loadLe m a len = loadLe m' b len := by
  unfold loadLe
  rw [load_congr h]

lemma loadLe_store {data : List UInt8}
    (h : b + len ≤ a ∨ a + data.length ≤ b) : loadLe (store m a data) b len = loadLe m b len := by
  apply loadLe_congr
  intro i hi
  cases h with
  | inl h => exact store_of_lt m data (by omega)
  | inr h => exact store_of_ge m (by omega)

lemma loadLe_storeLe_of_disjoint {len' : Nat}
    (h : b + len ≤ a ∨ a + len' ≤ b) : loadLe (storeLe m a len' x) b len = loadLe m b len := by
  apply loadLe_store
  rw [length_reverse, length_ofNat]
  exact h

end Bytes
