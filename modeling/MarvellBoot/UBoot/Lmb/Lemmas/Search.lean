import MarvellBoot.UBoot.Lmb.Alloc
import MarvellBoot.UBoot.Lmb.Lemmas

namespace UBoot.Lmb

open Size

section

variable {rgn : LmbRegion} {base size i : Nat}

lemma lmbOverlapsLoop_eq_none_iff {left : Nat}
    : lmbOverlapsLoop rgn base size i left = none
      ↔ ∀ j, i ≤ j → j < i + left → lmbAddrsOverlap base size (rgn.region j).base (rgn.region j).size = false := by
  induction left generalizing i with
  | zero =>
    simp only [lmbOverlapsLoop, true_iff]
    intro j _ _
    omega
  | succ left ih =>
    rw [lmbOverlapsLoop]
    split
    next hover =>
      constructor
      . intro h
        contradiction
      . intro h
        rw [h i (by omega) (by omega)] at hover
        contradiction
    next hover =>
    rw [Bool.not_eq_true] at hover
    rw [ih]
    constructor
    . intro h j hj hlt
      by_cases hji : j = i
      . rw [hji]
        exact hover
      . apply h
        . omega
        . omega
    intro h j hj hlt
    apply h
    . omega
    . omega

lemma lmbOverlapsLoop_spec {left k : Nat} (h : lmbOverlapsLoop rgn base size i left = some k)
    : k < i + left ∧ lmbAddrsOverlap base size (rgn.region k).base (rgn.region k).size = true := by
  induction left generalizing i with
  | zero => contradiction
  | succ left ih =>
    rw [lmbOverlapsLoop] at h
    split at h
    next hover =>
      cases h
      exact ⟨by omega, hover⟩
    next =>
    have ⟨hk, hover⟩ := ih h
    exact ⟨by omega, hover⟩

lemma lmbAlignDown_le (addr align : Nat) : lmbAlignDown addr align ≤ addr := Nat.and_le_left

lemma add_le (a b : Nat) : add a b ≤ a + b := Nat.mod_le _ _

lemma next_lt {j align : Nat} (h : NoWrap rgn) (hj : lmbOverlapsRegion rgn base size = some j)
    (hge : size ≤ (rgn.region j).base)
    : lmbAlignDown (sub (rgn.region j).base size) align + size ≤ (rgn.region j).base
      ∧ (rgn.region j).base < add base size := by
  have ⟨hlt, hover⟩ := lmbOverlapsLoop_spec hj
  have hend := h.end_lt j (by omega)
  have hle := lmbAlignDown_le (sub (rgn.region j).base size) align
  rw [sub_eq hge (by omega)] at hle ⊢
  unfold lmbAddrsOverlap at hover
  rw [decide_eq_true_eq] at hover
  exact ⟨by omega, hover.2⟩

end

section

variable {reserved : LmbRegion} {size align lmbbase : Nat} {inv : Nat → Prop}

structure Found (reserved : LmbRegion) (size lmbbase : Nat) (inv : Nat → Prop) (base : Nat) : Prop where
  inv : inv base
  ne_zero : base ≠ 0
  ge : lmbbase ≤ base
  free : lmbOverlapsRegion reserved base size = none

lemma lmbAllocSearch_spec (h : NoWrap reserved)
    (hstep : ∀ base j, inv base → lmbOverlapsRegion reserved base size = some j → size ≤ (reserved.region j).base →
      inv (lmbAlignDown (sub (reserved.region j).base size) align))
    {fuel base : Nat} (hfuel : base < fuel) (hbase : inv base)
    : ∃ res, lmbAllocSearch reserved size align lmbbase fuel base = some res
      ∧ ∀ base' ∈ res, Found reserved size lmbbase inv base' := by
  -- each address tried is below the one before it
  induction fuel generalizing base with
  | zero => omega
  | succ fuel ih =>
    rw [lmbAllocSearch]
    split
    next hin =>
      split
      next hfree =>
        refine ⟨_, rfl, ?_⟩
        intro base' hmem
        cases hmem
        exact ⟨hbase, hin.1, hin.2, hfree⟩
      next j hj =>
      dsimp only
      split
      . exact ⟨none, rfl, fun _ hmem => absurd hmem (Option.not_mem_none _)⟩
      next hge =>
      have hle : size ≤ (reserved.region j).base := by omega
      obtain ⟨hnext, hlt⟩ := @next_lt _ _ _ j align h hj hle
      have hadd := add_le base size
      exact ih (by omega) (hstep base j hbase hj hle)
    next => exact ⟨none, rfl, fun _ hmem => absurd hmem (Option.not_mem_none _)⟩

end

end UBoot.Lmb
