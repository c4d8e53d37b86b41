import MarvellBoot.UBoot.Lmb.Lemmas

namespace UBoot.Lmb

open LmbRegion Option

variable {rgn rgn' : LmbRegion} {base size i left : Nat} {p : LmbProperty} {ret : Int}

lemma lmbAddRegion_neg_iff (hcnt : rgn.cnt ≤ maxLmbRegions)
    : (lmbAddRegion rgn base size = some (ret, rgn') ∧ ret < 0)
      ↔ ret = -1 ∧ rgn' = rgn ∧ rgn.cnt = maxLmbRegions ∧ ∀ j < rgn.cnt, ¬Touches base size (rgn.region j) := by
  constructor
  . intro ⟨h, hret⟩
    by_cases hzero : rgn.cnt = 0
    . rw [lmbAddRegion_of_empty hzero] at h
      split at h
      . cases h
        contradiction
      . contradiction
    cases added_of_lmbAddRegion (by omega) hcnt h with
    | dummy => contradiction
    | same => contradiction
    | touch _ _ hret' => omega
    | insert => contradiction
    | full hapart hfull => exact ⟨rfl, rfl, hfull, hapart⟩
  . rintro ⟨rfl, rfl, hfull, hapart⟩
    exact ⟨lmbAddRegion_of_full hfull hapart, by decide⟩

def Covers (p : LmbProperty) (a : Nat) : Prop := p.base ≤ a ∧ a ≤ Size.sub (Size.add p.base p.size) 1

lemma lmbIsReserved_iff {lmb : UBoot.Lmb} {a : Nat}
    : lmbIsReserved lmb a = true ↔ ∃ j < lmb.reserved.cnt, Covers (lmb.reserved.region j) a := by
  unfold lmbIsReserved Covers
  rw [List.any_eq_true]
  simp only [List.mem_range, Bool.and_eq_true, decide_eq_true_eq]

/--
The region lies inside of the entry and neither begins nor ends with it. It is the first entry in which the region is
found.
-/
structure Splits (rgn : LmbRegion) (base size i : Nat) : Prop where
  found : lmbFreeLoop rgn base (Size.add base size) 0 rgn.cnt = some i
  base_ne : (rgn.region i).base ≠ base
  end_ne : Size.add (rgn.region i).base (rgn.region i).size ≠ Size.add base size

def head (base : Nat) (p : LmbProperty) : LmbProperty := { p with size := Size.sub base p.base }

def tail (base size : Nat) (p : LmbProperty) : LmbProperty where
  base := Size.add base size
  size := Size.sub (Size.add p.base p.size) (Size.add base size)

structure Stuck (rgn : LmbRegion) (base size i : Nat) : Prop extends Splits rgn base size i where
  full : rgn.cnt = maxLmbRegions
  apart : ∀ j < rgn.cnt, ¬Touches (tail base size (rgn.region i)).base (tail base size (rgn.region i)).size
    ((rgn.set i (head base (rgn.region i))).region j)

lemma lmbFreeRegion_neg_iff (hcnt : rgn.cnt ≤ maxLmbRegions)
    : (lmbFreeRegion rgn base size = some (ret, rgn') ∧ ret < 0)
      ↔ ret = -1 ∧ ((lmbFreeLoop rgn base (Size.add base size) 0 rgn.cnt = none ∧ rgn' = rgn)
        ∨ ∃ i, Stuck rgn base size i ∧ rgn' = rgn.set i (head base (rgn.region i))) := by
  have hadd {i : Nat} := @lmbAddRegion_neg_iff (rgn.set i (head base (rgn.region i))) rgn'
    (tail base size (rgn.region i)).base (tail base size (rgn.region i)).size ret hcnt
  unfold lmbFreeRegion
  dsimp only
  constructor
  . intro ⟨h, hret⟩
    split at h
    next hloop =>
      cases h
      exact ⟨rfl, .inl ⟨hloop, rfl⟩⟩
    next i hloop =>
    split at h
    . rw [map_eq_some_iff] at h
      have ⟨_, _, heq⟩ := h
      cases heq
      contradiction
    next hwhole =>
    split at h
    . cases h
      contradiction
    next hfront =>
    split at h
    . cases h
      contradiction
    next hback =>
    have ⟨hneg, hrgn, hfull, hapart⟩ := hadd.mp ⟨h, hret⟩
    exact ⟨hneg, .inr ⟨i, ⟨⟨hloop, hfront, hback⟩, hfull, hapart⟩, hrgn⟩⟩
  rintro ⟨hneg, ⟨hloop, hrgn⟩ | ⟨i, hstuck, hrgn⟩⟩
  . rw [hloop, hneg, hrgn]
    exact ⟨rfl, by decide⟩
  rw [hstuck.found]
  dsimp only
  rw [if_neg (fun h => hstuck.base_ne h.1), if_neg hstuck.base_ne, if_neg hstuck.end_ne]
  exact hadd.mpr ⟨hneg, hrgn, hstuck.full, hstuck.apart⟩

theorem lmb_free_atomic_iff (lmb : UBoot.Lmb) (hcnt : lmb.reserved.cnt ≤ maxLmbRegions) (base size : Nat)
    : (∀ ret lmb', lmbFree lmb base size = some (ret, lmb') → ret < 0 →
        ∀ a, lmbIsReserved lmb' a = lmbIsReserved lmb a)
      ↔ ∀ i, Stuck lmb.reserved base size i → ∀ a,
        (∃ j < lmb.reserved.cnt, j ≠ i ∧ Covers (lmb.reserved.region j) a)
          ∨ (Covers (head base (lmb.reserved.region i)) a ↔ Covers (lmb.reserved.region i) a) := by
  -- what the shortened table covers
  have hset {i : Nat} (hi : i < lmb.reserved.cnt) (p : LmbProperty) (a : Nat)
      : (∃ j < lmb.reserved.cnt, Covers ((lmb.reserved.set i p).region j) a)
        ↔ (∃ j < lmb.reserved.cnt, j ≠ i ∧ Covers (lmb.reserved.region j) a) ∨ Covers p a := by
    constructor
    . intro ⟨j, hj, hcov⟩
      by_cases hji : j = i
      . subst hji
        rw [set_region_self] at hcov
        exact .inr hcov
      . rw [set_region_of_ne _ _ hji] at hcov
        exact .inl ⟨j, hj, hji, hcov⟩
    rintro (⟨j, hj, hji, hcov⟩ | hcov)
    . refine ⟨j, hj, ?_⟩
      rw [set_region_of_ne _ _ hji]
      exact hcov
    . refine ⟨i, hi, ?_⟩
      rw [set_region_self]
      exact hcov
  have hself (i : Nat) : lmb.reserved.set i (lmb.reserved.region i) = lmb.reserved := by
    unfold LmbRegion.set
    rw [Function.update_eq_self]
  have hprop (A B C : Prop) : (A ∨ B ↔ A ∨ C) ↔ A ∨ (B ↔ C) := by tauto
  -- the two tables cover the same addresses
  have hsame {i : Nat} (hi : i < lmb.reserved.cnt)
      : (∀ a, lmbIsReserved { lmb with reserved := lmb.reserved.set i (head base (lmb.reserved.region i)) } a
          = lmbIsReserved lmb a)
        ↔ ∀ a, (∃ j < lmb.reserved.cnt, j ≠ i ∧ Covers (lmb.reserved.region j) a)
          ∨ (Covers (head base (lmb.reserved.region i)) a ↔ Covers (lmb.reserved.region i) a) := by
    apply forall_congr'
    intro a
    rw [Bool.eq_iff_iff, lmbIsReserved_iff, lmbIsReserved_iff]
    have hold := hset hi (lmb.reserved.region i) a
    rw [hself] at hold
    rw [set_cnt, hset hi, hold, hprop]
  constructor
  . intro h i hstuck
    have hi := (lmbFreeLoop_spec hstuck.found).1
    apply (hsame (by omega)).mp
    have hneg := (lmbFreeRegion_neg_iff hcnt).mpr ⟨rfl, .inr ⟨i, hstuck, rfl⟩⟩
    have hfree : lmbFree lmb base size
        = some (-1, { lmb with reserved := lmb.reserved.set i (head base (lmb.reserved.region i)) }) := by
      unfold lmbFree
      rw [hneg.1, map_some]
    exact h _ _ hfree hneg.2
  intro h ret lmb' hfree hret
  unfold lmbFree at hfree
  rw [map_eq_some_iff] at hfree
  have ⟨⟨ret', rgn'⟩, hres, heq⟩ := hfree
  cases heq
  have ⟨_, hcases⟩ := (lmbFreeRegion_neg_iff hcnt).mp ⟨hres, hret⟩
  rcases hcases with ⟨_, hrgn⟩ | ⟨i, hstuck, hrgn⟩
  . intro a
    rw [hrgn]
  . have hi := (lmbFreeLoop_spec hstuck.found).1
    rw [hrgn]
    exact (hsame (by omega)).mpr (h i hstuck)

theorem lmb_free_atomic_onePage
    : (lmbFree (Sample.onePage 1) 0x800 0x1000).map Prod.fst = some (-1)
      ∧ ∀ ret lmb', lmbFree (Sample.onePage 1) 0x800 0x1000 = some (ret, lmb') → ret < 0 →
        ∀ a, lmbIsReserved lmb' a = lmbIsReserved (Sample.onePage 1) a := by
  refine ⟨by decide, ?_⟩
  apply (lmb_free_atomic_iff (Sample.onePage 1) (by decide) 0x800 0x1000).mpr
  intro i hstuck
  have := hstuck.full
  contradiction

def eightRegions : List (Nat × Nat) := (List.range 8).map fun i => (0x10000 + 0x4000 * i, 0x3000)

-- The page in the middle of the first region is freed.
theorem not_atomic_full
    : ¬∀ (lmb₀ : UBoot.Lmb) (regions : List (Nat × Nat)) (lmb : UBoot.Lmb),
      regions.foldlM (fun lmb region => (lmbReserve lmb region.1 region.2).map Prod.snd) (lmbInit lmb₀) = some lmb →
      ∀ (base size : Nat) (ret : Int) (lmb' : UBoot.Lmb), lmbFree lmb base size = some (ret, lmb') → ret < 0 →
      ∀ a, lmbIsReserved lmb' a = lmbIsReserved lmb a := by
  intro h
  have hrun : ((eightRegions.foldlM (fun lmb region => (lmbReserve lmb region.1 region.2).map Prod.snd)
      (lmbInit Sample.lmb)).bind fun lmb => (lmbFree lmb 0x11000 0x1000).map fun res =>
        (res.1, lmbIsReserved res.2 0x12000, lmbIsReserved lmb 0x12000)) = some (-1, false, true) := by
    decide
  rw [bind_eq_some_iff] at hrun
  have ⟨lmb, hreserve, hrun⟩ := hrun
  rw [map_eq_some_iff] at hrun
  have ⟨⟨ret, lmb'⟩, hfree, hres⟩ := hrun
  simp only [Prod.mk.injEq] at hres
  have := h Sample.lmb eightRegions lmb hreserve 0x11000 0x1000 ret lmb' hfree (by omega) 0x12000
  rw [hres.2.1, hres.2.2] at this
  contradiction

end UBoot.Lmb
