import MarvellBoot.Lib.Mem

/-!
Lists of bytes in a memory.
-/

namespace Mem

def Text (m : Int → UInt8) (a : Int) (l : List UInt8) : Prop := load m a l.length = l

section

variable {m : Int → UInt8} {a : Int} {c : UInt8} {l l' : List UInt8}

lemma text_append : Text m a (l ++ l') ↔ Text m a l ∧ Text m (a + l.length) l' := by
  unfold Text
  rw [List.length_append, load_add]
  constructor
  . intro h
    exact List.append_inj h (length_load _ _ _)
  . intro ⟨h, h'⟩
    rw [h, h']

lemma text_cons : Text m a (c :: l) ↔ m a = c ∧ Text m (a + 1) l := by
  rw [← List.singleton_append, text_append]
  simp [Text, load]

lemma Text.congr {m' : Int → UInt8} (h : Text m a l) (heq : ∀ i : Nat, i < l.length → m' (a + i) = m (a + i))
    : Text m' a l := by
  rw [← h]
  unfold Text
  rw [length_load]
  exact load_congr heq

lemma text_store_self : Text (store m a l) a l := load_store_self m a l

lemma Text.store {b : Int} (h : Text m a l) (hout : b + l'.length ≤ a ∨ a + l.length ≤ b)
    : Text (Mem.store m b l') a l := by
  apply h.congr
  intro i hi
  cases hout with
  | inl h => exact store_of_ge _ (by omega)
  | inr h => exact store_of_lt _ _ (by omega)

lemma Text.append_store (h : Text m a l) : Text (Mem.store m (a + l.length) l') a (l ++ l') :=
  text_append.mpr ⟨h.store (.inr (le_refl _)), text_store_self⟩

end

end Mem
