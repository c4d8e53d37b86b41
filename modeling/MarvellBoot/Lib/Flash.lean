import MarvellBoot.Lib.Mem

/-!
NOR flash. Erasing sets all bits of a range, programming can only clear bits.
-/

namespace Flash

open Mem

variable {a x : Int} {n : Nat} {m : Int → UInt8} {data : List UInt8}

def erase (m : Int → UInt8) (a : Int) (n : Nat) : Int → UInt8 := fun x => if a ≤ x ∧ x < a + n then 0xff else m x

def program (m : Int → UInt8) (a : Int) (data : List UInt8) : Int → UInt8 :=
  fun x => if a ≤ x ∧ x < a + data.length then m x &&& data.getD (x - a).toNat 0 else m x

lemma erase_of_not_mem (m : Int → UInt8) (h : ¬(a ≤ x ∧ x < a + n)) : erase m a n x = m x := if_neg h

lemma program_of_not_mem (m : Int → UInt8) (h : ¬(a ≤ x ∧ x < a + data.length)) : program m a data x = m x := if_neg h

lemma ff_and (c : UInt8) : 0xff &&& c = c := by
  apply UInt8.toNat_inj.mp
  have h := Nat.and_two_pow_sub_one_of_lt_two_pow c.toNat_lt
  rw [UInt8.toNat_and, Nat.and_comm]
  exact h

lemma program_eq_store (h : ∀ x, a ≤ x → x < a + data.length → m x = 0xff) : program m a data = store m a data := by
  funext x
  unfold program store
  split
  . next hx =>
    rw [h x hx.1 hx.2, ff_and]
  . rfl

lemma store_erase (h : data.length = n) : store (erase m a n) a data = store m a data := by
  funext x
  unfold store
  split
  . rfl
  . next hx =>
    rw [h] at hx
    exact erase_of_not_mem m hx

lemma program_erase (h : data.length = n) : program (erase m a n) a data = store m a data := by
  rw [program_eq_store, store_erase h]
  intro x hx hx'
  rw [h] at hx'
  exact if_pos ⟨hx, hx'⟩

end Flash
