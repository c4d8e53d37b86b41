import Mathlib

/-!
Tables with open addressing. A key is looked for at the positions `probe k 0`, `probe k 1`, .. up to
the first cell that was never used, a deleted cell does not end the search.
-/

namespace OpenAddressing

open Function Finset

inductive Cell (κ : Type u) (ν : Type v) where
  | free
  | deleted
  | live (key : κ) (val : ν)
  deriving DecidableEq

def Cell.isLive : Cell κ ν → Bool
  | live _ _ => true
  | _ => false

variable {ι : Type u} {κ : Type v} {ν : Type w} {probe : κ → Nat → ι} {bound : Nat}
  {cells : ι → Cell κ ν} {i : ι} {k : κ} {v : ν}

/--
Every key has one cell and the cells before it on its way are not free.
-/
structure WellFormed (probe : κ → Nat → ι) (bound : Nat) (cells : ι → Cell κ ν) : Prop where
  reach : ∀ {i k v}, cells i = .live k v → ∃ n, n < bound ∧ probe k n = i ∧ ∀ m, m < n → cells (probe k m) ≠ .free
  unique : ∀ {i j k v w}, cells i = .live k v → cells j = .live k w → i = j

def Represents (cells : ι → Cell κ ν) (map : κ → Option ν) : Prop := ∀ k v, map k = some v ↔ ∃ i, cells i = .live k v

lemma Represents.eq_none_iff {map : κ → Option ν} (hr : Represents cells map)
    : map k = none ↔ ∀ i v, cells i ≠ .live k v := by
  rw [Option.eq_none_iff_forall_ne_some]
  constructor
  . intro h i v hi
    exact h v ((hr k v).mpr ⟨i, hi⟩)
  . intro h v hv
    have ⟨i, hi⟩ := (hr k v).mp hv
    exact h i v hi

variable [DecidableEq ι] {w : ν}

section

variable (hw : WellFormed probe bound cells)

include hw in
lemma WellFormed.update {c : Cell κ ν} (hc : c ≠ .free)
    (hreach : ∀ {k v}, c = .live k v → ∃ n, n < bound ∧ probe k n = i ∧ ∀ m, m < n → cells (probe k m) ≠ .free)
    (hunique : ∀ {j k v w}, c = .live k v → j ≠ i → cells j ≠ .live k w)
    : WellFormed probe bound (Function.update cells i c) := by
  have hused {j : ι} (h : cells j ≠ .free) : Function.update cells i c j ≠ .free := by
    by_cases hj : j = i
    . rw [hj, Function.update_self]
      exact hc
    . rw [Function.update_of_ne hj]
      exact h
  constructor
  . intro j k v hj
    by_cases hji : j = i
    . rw [hji, Function.update_self] at hj
      have ⟨n, hn, hprobe, hbefore⟩ := hreach hj
      exact ⟨n, hn, hprobe.trans hji.symm, fun m hm => hused (hbefore m hm)⟩
    . rw [Function.update_of_ne hji] at hj
      have ⟨n, hn, hprobe, hbefore⟩ := hw.reach hj
      exact ⟨n, hn, hprobe, fun m hm => hused (hbefore m hm)⟩
  intro j j' k v w hj hj'
  by_cases hji : j = i
  . by_cases hji' : j' = i
    . rw [hji, hji']
    . rw [hji, Function.update_self] at hj
      rw [Function.update_of_ne hji'] at hj'
      exact absurd hj' (hunique hj hji')
  rw [Function.update_of_ne hji] at hj
  by_cases hji' : j' = i
  . rw [hji', Function.update_self] at hj'
    exact absurd hj (hunique hj' hji)
  . rw [Function.update_of_ne hji'] at hj'
    exact hw.unique hj hj'

include hw in
lemma WellFormed.delete : WellFormed probe bound (Function.update cells i .deleted) := by
  apply hw.update
  . intro h
    contradiction
  . intro k v h
    contradiction
  . intro j k v w h
    contradiction

include hw in
lemma WellFormed.overwrite (hi : cells i = .live k v)
    : WellFormed probe bound (Function.update cells i (.live k w)) := by
  apply hw.update
  . intro h
    contradiction
  . intro k' v' h
    cases h
    exact hw.reach hi
  . intro j k' v' w' h hji hj
    cases h
    exact hji (hw.unique hj hi)

include hw in
lemma WellFormed.insert {n : Nat} (habsent : ∀ i v, cells i ≠ .live k v) (hn : n < bound)
    (hprobe : probe k n = i) (hbefore : ∀ m, m < n → cells (probe k m) ≠ .free)
    : WellFormed probe bound (Function.update cells i (.live k v)) := by
  apply hw.update
  . intro h
    contradiction
  . intro k' v' h
    cases h
    exact ⟨n, hn, hprobe, hbefore⟩
  . intro j k' v' w' h _
    cases h
    exact habsent j w'

end

section

variable [DecidableEq κ] {map : κ → Option ν}

lemma Represents.delete (hr : Represents cells map) (hw : WellFormed probe bound cells) (hi : cells i = .live k v)
    : Represents (update cells i .deleted) (update map k none) := by
  intro k' v'
  by_cases hk : k' = k
  . rw [hk, update_self]
    constructor
    . intro h
      contradiction
    intro ⟨j, hj⟩
    by_cases hji : j = i
    . rw [hji, update_self] at hj
      contradiction
    . rw [update_of_ne hji] at hj
      exact absurd (hw.unique hj hi) hji
  rw [update_of_ne hk, hr k' v']
  constructor
  . intro ⟨j, hj⟩
    refine ⟨j, ?_⟩
    rw [update_of_ne, hj]
    intro hji
    rw [hji, hi] at hj
    cases hj
    contradiction
  intro ⟨j, hj⟩
  by_cases hji : j = i
  . rw [hji, update_self] at hj
    contradiction
  . rw [update_of_ne hji] at hj
    exact ⟨j, hj⟩

lemma Represents.write (hr : Represents cells map) (hi : ∀ k' v, cells i = .live k' v → k' = k)
    (hother : ∀ j v, j ≠ i → cells j ≠ .live k v)
    : Represents (update cells i (.live k w)) (update map k (some w)) := by
  intro k' v'
  by_cases hk : k' = k
  . rw [hk, update_self, Option.some_inj]
    constructor
    . intro h
      exact ⟨i, by rw [update_self, h]⟩
    intro ⟨j, hj⟩
    by_cases hji : j = i
    . rw [hji, update_self] at hj
      cases hj
      rfl
    . rw [update_of_ne hji] at hj
      exact absurd hj (hother j v' hji)
  rw [update_of_ne hk, hr k' v']
  constructor
  . intro ⟨j, hj⟩
    refine ⟨j, ?_⟩
    rw [update_of_ne, hj]
    intro hji
    rw [hji] at hj
    exact hk (hi k' v' hj)
  intro ⟨j, hj⟩
  by_cases hji : j = i
  . rw [hji, update_self] at hj
    cases hj
    contradiction
  . rw [update_of_ne hji] at hj
    exact ⟨j, hj⟩

end

def liveCount (range : Finset ι) (cells : ι → Cell κ ν) : Nat := (range.filter fun i => (cells i).isLive).card

section

variable {range : Finset ι} {c : Cell κ ν}

lemma liveCount_update_same (h : c.isLive = (cells i).isLive)
    : liveCount range (update cells i c) = liveCount range cells := by
  unfold liveCount
  congr 1
  apply filter_congr
  intro j _
  by_cases hji : j = i
  . rw [hji, update_self, h]
  . rw [update_of_ne hji]

lemma liveCount_insert (hi : i ∈ range) (hdead : (cells i).isLive = false) (hc : c.isLive = true)
    : liveCount range (update cells i c) = liveCount range cells + 1 := by
  have hset : range.filter (fun j => (update cells i c j).isLive)
      = insert i (range.filter fun j => (cells j).isLive) := by
    ext j
    by_cases hji : j = i
    . simp [hji, hi, hc]
    . simp [hji]
  unfold liveCount
  rw [hset, card_insert_of_notMem (by simp [hdead])]

lemma liveCount_update_le (range : Finset ι) (cells : ι → Cell κ ν) (i : ι) (c : Cell κ ν)
    : liveCount range (update cells i c) ≤ liveCount range cells + 1 := by
  have hset : range.filter (fun j => (update cells i c j).isLive)
      ⊆ insert i (range.filter fun j => (cells j).isLive) := by
    intro j
    by_cases hji : j = i
    . simp [hji]
    . simp [hji]
  exact (card_le_card hset).trans (card_insert_le _ _)

lemma liveCount_delete (hi : i ∈ range) (hlive : (cells i).isLive = true) (hc : c.isLive = false)
    : liveCount range (update cells i c) + 1 = liveCount range cells := by
  have hback : update (update cells i c) i (cells i) = cells := by
    rw [update_idem, update_eq_self]
  have hdead : (update cells i c i).isLive = false := by
    rw [update_self, hc]
  have h := liveCount_insert hi hdead hlive
  rw [hback] at h
  exact h.symm

end

end OpenAddressing
