import MarvellBoot.Lib.Bytes

/-!
Areas of options that each have a code, a length and as many bytes of data. The code 0 is a pad without a length and the
code 255 ends the area. An option may reach over the end of the area.
-/

namespace Tlv

open List Option

variable {i n : Nat} {m : List UInt8} {α β : Type} {f : β → α → Option β} {l : List α}

def readBytes (m : List UInt8) (i n : Nat) : Option (List UInt8) :=
  if i + n ≤ m.length then some ((m.drop i).take n) else none

def readU32 (m : List UInt8) (i : Nat) : Option (BitVec 32) :=
  (readBytes m i 4).map fun bs => BitVec.ofNat 32 (Bytes.val bs)

structure Item where
  pos : Nat
  code : UInt8
  len : Nat
  deriving Repr, DecidableEq

def Item.isPad (x : Item) : Bool := x.code = 0

def Item.next (x : Item) : Nat := if x.isPad then x.pos + 1 else x.pos + x.len + 2

def items (m : List UInt8) (stop i : Nat) : Option (List Item) :=
  if i < stop then
    match m[i]? with
    | none => none
    | some code =>
      if code = 0xff then
        some []
      else if code = 0 then
        (items m stop (i + 1)).map (⟨i, code, 0⟩ :: ·)
      else
        match m[i + 1]? with
        | none => none
        | some len => (items m stop (i + len.toNat + 2)).map (⟨i, code, len.toNat⟩ :: ·)
  else
    some []
termination_by stop - i

lemma isSome_readBytes : (readBytes m i n).isSome ↔ i + n ≤ m.length := by
  unfold readBytes
  split
  next h => simp [h]
  next h => simp [h]

lemma length_readBytes {bs : List UInt8} (h : readBytes m i n = some bs) : bs.length = n := by
  unfold readBytes at h
  split at h
  next hle =>
    cases h
    rw [length_take, length_drop]
    omega
  next => cases h

lemma isSome_readU32 : (readU32 m i).isSome ↔ i + 4 ≤ m.length := by
  unfold readU32
  rw [isSome_map, isSome_readBytes]

lemma items_mem {stop : Nat} {l : List Item} (h : items m stop i = some l) {x : Item} (hx : x ∈ l)
    : x.isPad ∨ x.pos + 1 < m.length := by
  fun_induction items m stop i generalizing l with
  | case1 => cases h
  | case2 =>
    cases h
    cases hx
  | case3 i hlt hcode hff ih =>
    rw [map_eq_some_iff] at h
    obtain ⟨l, hl, rfl⟩ := h
    cases hx with
    | head => exact .inl rfl
    | tail _ hx => exact ih hl hx
  | case4 => cases h
  | case5 i hlt code hcode hff hpad len hlen ih =>
    rw [map_eq_some_iff] at h
    obtain ⟨l, hl, rfl⟩ := h
    cases hx with
    | head =>
      right
      obtain ⟨hi, -⟩ := List.getElem?_eq_some_iff.mp hlen
      exact hi
    | tail _ hx => exact ih hl hx
  | case6 =>
    cases h
    cases hx

lemma bind_foldlM_cons (f : β → α → Option β) (b : β) (x : α) (o : Option (List α))
    : (o.map (x :: ·)).bind (fun l => l.foldlM f b) = (f b x).bind fun b => o.bind fun l => l.foldlM f b := by
  cases o with
  | none => simp
  | some l => simp

lemma foldlM_invariant {P : β → Prop} {b b' : β}
    (h : l.foldlM f b = some b') (hstep : ∀ b x b', x ∈ l → f b x = some b' → P b → P b') (hb : P b) : P b' := by
  induction l generalizing b with
  | nil =>
    cases h
    exact hb
  | cons x l ih =>
    obtain ⟨b1, hx, hrest⟩ := bind_eq_some_iff.mp h
    apply ih hrest
    . intro b y b' hy
      exact hstep b y b' (mem_cons_of_mem x hy)
    . exact hstep b x b1 mem_cons_self hx hb

lemma isSome_foldlM {P : α → Prop}
    (h : ∀ b, ∀ x ∈ l, (f b x).isSome ↔ P x) (b : β) : (l.foldlM f b).isSome ↔ ∀ x ∈ l, P x := by
  induction l generalizing b with
  | nil => simp
  | cons x l ih =>
    have hx := h b x mem_cons_self
    have ih := ih fun b y hy => h b y (mem_cons_of_mem x hy)
    rw [foldlM_cons, forall_mem_cons, ← hx]
    cases hf : f b x with
    | none => simp
    | some b => simp [ih b]

end Tlv
