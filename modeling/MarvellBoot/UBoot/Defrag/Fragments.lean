import MarvellBoot.UBoot.Defrag.Impl

/-!
A payload that is cut into fragments, the packets that carry them and the runs of fragments that have not
been seen.
-/

namespace UBoot.Defrag

open Mem List

structure Fragmentation where
  data : List UInt8
  id : List UInt8
  count : Nat
  cut : Nat → Nat
  count_pos : 0 < count
  cut_zero : cut 0 = 0
  cut_count : cut count = data.length
  cut_lt : ∀ i, i + 1 < count → cut i < cut (i + 1)
  cut_last : ∀ i, i + 1 = count → cut i ≤ cut count
  aligned : ∀ i, i < count → 8 ∣ cut i
  bound : data.length ≤ ipMaxudp

def Fragmentation.fragment (F : Fragmentation) (i : Nat) : List UInt8 :=
  (F.data.drop (F.cut i)).take (F.cut (i + 1) - F.cut i)

variable {F : Fragmentation} {i j : Nat}

structure Packet (F : Fragmentation) where
  index : Nat
  index_lt : index < F.count
  ip : Int → UInt8
  id_eq : ipId ip = F.id
  offs_eq : 8 * ipOffs ip = F.cut index
  mfrag_eq : ipFlagsMfrag ip = decide (index + 1 < F.count)
  len_eq : ipLen ip = ipHdrSize + (F.cut (index + 1) - F.cut index)
  load_eq : load ip ipHdrSize (F.cut (index + 1) - F.cut index) = F.fragment index

namespace Fragmentation

lemma cut_le_succ (hi : i < F.count) : F.cut i ≤ F.cut (i + 1) := by
  cases Nat.lt_or_eq_of_le (Nat.succ_le_of_lt hi) with
  | inl h => exact le_of_lt (F.cut_lt i h)
  | inr h =>
    have := F.cut_last i h
    rw [← h] at this
    exact this

lemma cut_lt_of_lt (hij : i < j) (hj : j < F.count) : F.cut i < F.cut j := by
  induction j with
  | zero => omega
  | succ j ih =>
    have := F.cut_lt j hj
    cases Nat.lt_or_eq_of_le (Nat.le_of_lt_succ hij) with
    | inl h =>
      omega
    | inr h => rwa [h]

lemma cut_le_of_le (hij : i ≤ j) (hj : j ≤ F.count) : F.cut i ≤ F.cut j := by
  induction j with
  | zero => rw [Nat.le_zero.mp hij]
  | succ j ih =>
    cases lt_or_eq_of_le hij with
    | inl h =>
      have := cut_le_succ (F := F) (i := j) (by omega)
      omega
    | inr h => rw [h]

lemma cut_le_bound (hi : i ≤ F.count) : F.cut i ≤ 16364 := by
  have hbound := F.bound
  have := cut_le_of_le hi le_rfl
  rw [F.cut_count] at this
  simp only [ipMaxudp, ipPktsize, ipHdrSize] at hbound
  omega

lemma cut_apart (hi : i < F.count) (hj : j < F.count) (hne : i ≠ j)
    : F.cut i + 8 ≤ F.cut j ∨ F.cut (j + 1) ≤ F.cut i := by
  cases lt_or_gt_of_ne hne with
  | inl h =>
    have := cut_lt_of_lt h hj
    have := F.aligned i hi
    have := F.aligned j hj
    omega
  | inr h => exact .inr (cut_le_of_le h (by omega))

lemma length_fragment (hi : i < F.count) : (F.fragment i).length = F.cut (i + 1) - F.cut i := by
  have := cut_le_of_le (F := F) (i := i + 1) hi le_rfl
  rw [F.cut_count] at this
  rw [fragment, length_take, length_drop]
  omega

lemma exists_fragment {n : Nat} (hn : n < F.data.length) : ∃ i, i < F.count ∧ F.cut i ≤ n ∧ n < F.cut (i + 1) := by
  have h : ∀ m, m ≤ F.count → n < F.cut m → ∃ i, i < F.count ∧ F.cut i ≤ n ∧ n < F.cut (i + 1) := by
    intro m hm hlt
    induction m with
    | zero =>
      rw [F.cut_zero] at hlt
      contradiction
    | succ m ih =>
      cases lt_or_ge n (F.cut m) with
      | inl h => exact ih (by omega) h
      | inr h => exact ⟨m, by omega, h, hlt⟩
  apply h F.count le_rfl
  rw [F.cut_count]
  exact hn

end Fragmentation

structure Missing (F : Fragmentation) (seen : List Nat) (runs : List (Nat × Nat)) : Prop where
  lt : ∀ x ∈ runs, x.1 < x.2 ∧ x.2 ≤ F.count
  gap : runs.Pairwise fun x y => x.2 < y.1
  mem : ∀ i, i < F.count → (i ∉ seen ↔ ∃ x ∈ runs, x.1 ≤ i ∧ i < x.2)

def rest (a b i : Nat) : List (Nat × Nat) :=
  (if a < i then [(a, i)] else []) ++ (if i + 1 < b then [(i + 1, b)] else [])

section

variable {seen : List Nat} {runs pre post : List (Nat × Nat)} {a b i : Nat}

lemma mem_rest {x : Nat × Nat} : x ∈ rest a b i ↔ (a < i ∧ x = (a, i)) ∨ (i + 1 < b ∧ x = (i + 1, b)) := by
  unfold rest
  split
  . split
    . simp [*]
    . simp [*]
  . split
    . simp [*]
    . simp [*]

lemma missing_nil : Missing F [] [(0, F.count)] := by
  constructor
  . intro x hx
    rw [mem_singleton.mp hx]
    exact ⟨F.count_pos, le_rfl⟩
  . exact pairwise_singleton _ _
  . intro i hi
    simp [hi]

lemma Missing.runs_eq_nil_iff (hm : Missing F seen runs) : runs = [] ↔ ∀ i, i < F.count → i ∈ seen := by
  constructor
  . intro hnil i hi
    by_contra hout
    have ⟨x, hx, _⟩ := (hm.mem i hi).mp hout
    rw [hnil] at hx
    contradiction
  intro hall
  cases runs with
  | nil => rfl
  | cons x runs =>
    have ⟨hlt, hle⟩ := hm.lt x mem_cons_self
    have hx : x.1 ∉ seen := by
      rw [hm.mem x.1 (by omega)]
      exact ⟨x, mem_cons_self, le_rfl, hlt⟩
    exact absurd (hall x.1 (by omega)) hx

lemma Missing.of_mem (hm : Missing F seen runs) (hi : i ∈ seen) : Missing F (i :: seen) runs := by
  refine ⟨hm.lt, hm.gap, ?_⟩
  intro j hj
  rw [← hm.mem j hj, mem_cons, not_or]
  constructor
  . intro h
    exact h.2
  intro h
  refine ⟨?_, h⟩
  intro hji
  rw [hji] at h
  contradiction

section

variable (hm : Missing F seen (pre ++ (a, b) :: post))

include hm

lemma Missing.gaps : (∀ x ∈ pre, x.2 < a) ∧ (∀ x ∈ post, b < x.1) ∧ a < b ∧ b ≤ F.count := by
  have hgap := hm.gap
  rw [pairwise_append, pairwise_cons] at hgap
  have ⟨hlt, hle⟩ := hm.lt (a, b) (by simp)
  exact ⟨fun x hx => hgap.2.2 x hx _ mem_cons_self, hgap.2.1.1, hlt, hle⟩

lemma Missing.insert (hai : a ≤ i) (hib : i < b) : Missing F (i :: seen) (pre ++ rest a b i ++ post) := by
  have ⟨hpre, hpost, hab, hb⟩ := hm.gaps
  have hgap := hm.gap
  rw [pairwise_append, pairwise_cons] at hgap
  constructor
  . intro x hx
    rw [mem_append, mem_append, mem_rest] at hx
    rcases hx with (hx | hx | hx) | hx
    . exact hm.lt x (by simp [hx])
    . rw [hx.2]
      exact ⟨hx.1, by omega⟩
    . rw [hx.2]
      exact ⟨hx.1, hb⟩
    . exact hm.lt x (by simp [hx])
  . rw [pairwise_append, pairwise_append]
    refine ⟨⟨hgap.1, ?_, ?_⟩, hgap.2.1.2, ?_⟩
    . unfold rest
      split
      . split
        . simp
        . simp
      . split
        . simp
        . simp
    . intro x hx y hy
      have := hpre x hx
      rw [mem_rest] at hy
      rcases hy with hy | hy
      . rw [hy.2]
        exact this
      . rw [hy.2]
        omega
    intro x hx y hy
    have := hpost y hy
    rw [mem_append, mem_rest] at hx
    rcases hx with hx | hx | hx
    . exact hgap.2.2 x hx y (mem_cons_of_mem _ hy)
    . rw [hx.2]
      omega
    . rw [hx.2]
      exact this
  intro j hj
  rw [mem_cons, not_or, hm.mem j hj]
  constructor
  . intro ⟨hne, x, hx, hxj⟩
    rw [mem_append, mem_cons] at hx
    rcases hx with hx | hx | hx
    . exact ⟨x, by simp [hx], hxj⟩
    . rw [hx] at hxj
      cases lt_or_gt_of_ne hne with
      | inl h =>
        refine ⟨(a, i), ?_, hxj.1, h⟩
        rw [mem_append, mem_append, mem_rest]
        exact .inl (.inr (.inl ⟨by omega, rfl⟩))
      | inr h =>
        refine ⟨(i + 1, b), ?_, h, hxj.2⟩
        rw [mem_append, mem_append, mem_rest]
        exact .inl (.inr (.inr ⟨by omega, rfl⟩))
    . exact ⟨x, by simp [hx], hxj⟩
  intro ⟨x, hx, hxj⟩
  rw [mem_append, mem_append, mem_rest] at hx
  rcases hx with (hx | hx | hx) | hx
  . have := hpre x hx
    exact ⟨by omega, x, by simp [hx], hxj⟩
  . rw [hx.2] at hxj
    exact ⟨by omega, (a, b), by simp, by dsimp only; omega⟩
  . rw [hx.2] at hxj
    exact ⟨by omega, (a, b), by simp, by dsimp only; omega⟩
  . have := hpost x hx
    exact ⟨by omega, x, by simp [hx], hxj⟩

end

end

/--
What fragment `i` must meet when it arrives after the fragments `seen`: it covers a part of its hole, the
descriptor of a hole that begins after it lies within the packet buffer, and the hole before the one that
begins with `i` is not the one at the start of the payload.
-/
structure Accepted (F : Fragmentation) (seen : List Nat) (i : Nat) : Prop where
  covers : F.cut i < F.cut (i + 1) ∨ (0 < i ∧ i - 1 ∉ seen)
  room : i + 1 < F.count → i + 1 ∉ seen → F.cut (i + 1) + 8 ≤ ipMaxudp
  first : ∀ a, 0 < a → a < i → (∀ j, j < a → j ∉ seen) → ∃ j, a ≤ j ∧ j < i ∧ j ∉ seen

def Meets (F : Fragmentation) (seen : List Nat) (i : Nat) : Prop := i ∉ seen → Accepted F seen i

def AllMeet (F : Fragmentation) : (seen : List Nat) → List (Packet F) → Prop
  | _, [] => True
  | seen, p :: ps => Meets F seen p.index ∧ AllMeet F (p.index :: seen) ps

def Complete (F : Fragmentation) (seen : List Nat) : Prop := ∀ i, i < F.count → i ∈ seen

def deliver (s : State) : List (Int → UInt8) → Option (List (Option Nat) × State)
  | [] => some ([], s)
  | ip :: rest =>
    match netDefragment ip s with
    | none => none
    | some (res, s) =>
      match deliver s rest with
      | none => none
      | some (results, s) => some (res :: results, s)

end UBoot.Defrag
