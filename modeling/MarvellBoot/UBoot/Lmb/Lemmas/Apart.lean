import MarvellBoot.UBoot.Lmb.Lemmas.Alloc

namespace UBoot.Lmb

open LmbRegion Sample Size Option

def Apart (rgn : LmbRegion) : Prop :=
  ∀ i j, i < rgn.cnt → j < rgn.cnt → i ≠ j → Disjoint (rgn.region i).range (rgn.region j).range

def FreeOf (rgn : LmbRegion) (base size : Nat) : Prop :=
  ∀ i < rgn.cnt, Disjoint (rgn.region i).range (LmbProperty.mk base size).range

lemma disjoint_range_iff_of_pos {p q : LmbProperty} (h : 0 < q.size)
    : Disjoint p.range q.range ↔ p.base + p.size ≤ q.base ∨ q.base + q.size ≤ p.base ∨ p.size = 0 := by
  rw [disjoint_range_iff]
  omega

lemma disjoint_of_size_eq_zero {p q : LmbProperty} (h : p.size = 0) : Disjoint p.range q.range := by
  rw [disjoint_range_iff]
  omega

section

variable {rgn : LmbRegion} {base size k : Nat}

lemma joined_disjoint (h : NoWrap rgn) (hapart : Apart rgn) (hfree : FreeOf rgn base size)
    (htouch : FirstTouch rgn base size k) (hne : rgn.region k ≠ ⟨base, size⟩) (hend : base + size < 2 ^ 64)
    (hnext : JoinsNext rgn base size k → 0 ≤ nextAdjacent rgn base size k) {j : Nat}
    (hj : j < rgn.cnt) (hjk : j ≠ k) (hjk' : JoinsNext rgn base size k → j ≠ k + 1)
    : Disjoint (joined rgn base size k).range (rgn.region j).range := by
  by_cases hzero : (rgn.region j).size = 0
  . exact (disjoint_of_size_eq_zero hzero).symm
  have hpos : 0 < (rgn.region j).size := by omega
  have hlt := h.end_lt k htouch.lt
  have hltj := h.end_lt j hj
  have ⟨hcases, hsum⟩ := extend_eq h htouch hne (by omega) (by omega)
  have hd := (disjoint_range_iff_of_pos hpos).mp (hapart k j htouch.lt hj hjk.symm)
  have hdn := (disjoint_range_iff_of_pos hpos).mp (hfree j hj).symm
  dsimp only at hdn
  have hbase_eq : (joined rgn base size k).base = (extend base size (rgn.region k)).base := by
    unfold joined
    split
    . rfl
    . rfl
  rw [disjoint_range_iff_of_pos hpos, hbase_eq]
  rw [add_eq hend] at hcases
  have hp : add (rgn.region k).size size = (rgn.region k).size + size := add_eq (by omega)
  rw [hp] at hsum
  unfold joined
  split
  next hjoin =>
    have hltn := h.end_lt (k + 1) hjoin.1
    have hdq := (disjoint_range_iff_of_pos hpos).mp (hapart (k + 1) j hjoin.1 hj (Ne.symm (hjk' hjoin)))
    have hadj := hnext hjoin
    have hadj' := hjoin.2
    unfold nextAdjacent lmbAddrsAdjacent at hadj hadj'
    dsimp only at hadj hadj' ⊢
    rw [hsum] at hadj hadj' ⊢
    generalize (extend base size (rgn.region k)).base = e at *
    generalize rgn.region k = p at *
    generalize rgn.region (k + 1) = q at *
    have he : add e (p.size + size) = e + (p.size + size) := add_eq (by omega)
    have hq : q.base = e + (p.size + size) := by
      by_contra hnot
      split at hadj
      . omega
      . simp_all
    rw [add_eq (by omega)]
    omega
  next =>
  dsimp only
  omega

end

section

variable {rgn : LmbRegion} {base size k : Nat}

lemma merged_apart (hapart : Apart rgn) (hk : k < rgn.cnt)
    (h : ∀ j < rgn.cnt, j ≠ k → (JoinsNext rgn base size k → j ≠ k + 1) →
      Disjoint (joined rgn base size k).range (rgn.region j).range)
    : Apart (merged rgn base size k) := by
  have ⟨hk', hself, hothers⟩ := merged_region rgn base size hk
  intro i j hi hj hij
  by_cases hik : i = k
  . subst hik
    have ⟨hlt, hne, hne', hregion⟩ := hothers j hj hij.symm
    rw [hself, hregion]
    exact h _ hlt hne hne'
  have ⟨hlt, hne, hne', hregion⟩ := hothers i hi hik
  by_cases hjk : j = k
  . subst hjk
    rw [hself, hregion]
    exact (h _ hlt hne hne').symm
  have ⟨hlt', _, _, hregion'⟩ := hothers j hj hjk
  rw [hregion, hregion']
  apply hapart _ _ hlt hlt'
  intro heq
  exact hij ((shift_strictMono rgn base size k).injective heq)

lemma lmbInsert_apart (hapart : Apart rgn) (hfree : FreeOf rgn base size) (hpos : 0 < rgn.cnt)
    (hroom : rgn.cnt < maxLmbRegions)
    (horder : base < (rgn.region 0).base → ∀ j < rgn.cnt, base < (rgn.region j).base)
    : Apart (lmbInsert rgn base size) := by
  have ⟨pos, hle, hnew, hbelow, habove, hlast, hfirst⟩ := @lmbInsert_regions _ base size hpos
  have hcnt := @lmbInsert_cnt _ base size hroom
  -- An entry is the new one, or one of the table with its index.
  have hentry {i : Nat} (hi : i < rgn.cnt + 1)
      : (lmbInsert rgn base size).region i = ⟨base, size⟩ ∧ i = pos
        ∨ ∃ i' < rgn.cnt, (lmbInsert rgn base size).region i = rgn.region i'
          ∧ (i < pos ∧ i' = i ∨ pos < i ∧ i' + 1 = i) := by
    by_cases hipos : i = pos
    . rw [hipos]
      exact .inl ⟨hnew, rfl⟩
    by_cases hlt : i < pos
    . by_cases hzero : i = 0
      . subst hzero
        have hregion := hfirst hlt
        split at hregion
        next hbase =>
          have := horder hbase (pos - 1) (by omega)
          omega
        next => exact .inr ⟨0, hpos, hregion, .inl ⟨hlt, rfl⟩⟩
      . exact .inr ⟨i, by omega, hbelow i (by omega) hlt, .inl ⟨hlt, rfl⟩⟩
    right
    refine ⟨i - 1, by omega, ?_, .inr ⟨by omega, by omega⟩⟩
    have hregion := (habove (i - 1) (by omega) (by omega)).2
    rw [Nat.sub_add_cancel (by omega)] at hregion
    exact hregion
  intro i j hi hj hij
  rw [hcnt] at hi hj
  rcases hentry hi with ⟨hregion, hnew1⟩ | ⟨i', hi', hregion, hidx⟩
  . rw [hregion]
    rcases hentry hj with ⟨hregion', hnew2⟩ | ⟨j', hj', hregion', _⟩
    . omega
    . rw [hregion']
      exact (hfree j' hj').symm
  rw [hregion]
  rcases hentry hj with ⟨hregion', _⟩ | ⟨j', hj', hregion', hidx'⟩
  . rw [hregion']
    exact hfree i' hi'
  . rw [hregion']
    apply hapart i' j' hi' hj'
    omega

lemma apart_of_cnt_le_one (h : rgn.cnt ≤ 1) : Apart rgn := by
  intro i j hi hj hij
  omega

def Ascending (rgn : LmbRegion) : Prop :=
  ∀ i j, i < j → j < rgn.cnt → (rgn.region i).base < (rgn.region j).base

section

variable (h : NoWrap rgn) (hasc : Ascending rgn)

include hasc

lemma base_zero_le {j : Nat} (hj : j < rgn.cnt) : (rgn.region 0).base ≤ (rgn.region j).base := by
  cases j with
  | zero => exact le_rfl
  | succ j => exact (hasc 0 (j + 1) (by omega) hj).le

include h

/-- The next entry is not below the extended one. -/
lemma nextAdjacent_nonneg (htouch : FirstTouch rgn base size k) (hne : rgn.region k ≠ ⟨base, size⟩)
    (hend : base + size < 2 ^ 64) (hjoin : JoinsNext rgn base size k) : 0 ≤ nextAdjacent rgn base size k := by
  obtain ⟨hcases, _⟩ := extend_eq h htouch hne (by omega) (by omega)
  have hlt := h.end_lt (k + 1) hjoin.1
  have hbelow := hasc k (k + 1) (by omega) hjoin.1
  rw [add_eq hend] at hcases
  unfold nextAdjacent lmbAddrsAdjacent
  dsimp only
  rw [add_eq hlt]
  split
  . decide
  split
  . omega
  . decide

end

lemma lmbAddRegion_apart (h : NoWrap rgn) (hcnt : rgn.cnt ≠ 0) (hasc : Ascending rgn) (hapart : Apart rgn)
    (hfree : FreeOf rgn base size) (hend : base + size < 2 ^ 64) (hfull : ¬Full rgn base size)
    : ∃ ret rgn', lmbAddRegion rgn base size = some (ret, rgn') ∧ Apart rgn' := by
  by_cases hdummy : IsDummy rgn
  . rw [lmbAddRegion_of_dummy hdummy]
    refine ⟨0, _, rfl, apart_of_cnt_le_one ?_⟩
    rw [set_cnt, hdummy.1]
  cases exists_firstTouch_or rgn base size rgn.cnt with
  | inl htouch =>
    obtain ⟨k, hk, htouches, hbefore⟩ := htouch
    have htouch : FirstTouch rgn base size k := ⟨hk, htouches, hbefore⟩
    by_cases hsame : rgn.region k = ⟨base, size⟩
    . rw [lmbAddRegion_of_same hdummy htouch hsame]
      exact ⟨0, rgn, rfl, hapart⟩
    obtain ⟨ret, hres, _⟩ := lmbAddRegion_of_touch h.cnt_le hdummy htouch hsame
    refine ⟨ret, _, hres, merged_apart hapart hk ?_⟩
    intro j hj hjk hjk'
    exact joined_disjoint h hapart hfree htouch hsame hend (nextAdjacent_nonneg h hasc htouch hsame hend) hj hjk hjk'
  | inr hnone =>
    have hroom : rgn.cnt < maxLmbRegions := by
      have := h.cnt_le
      by_contra hnot
      exact hfull ⟨by omega, hnone⟩
    rw [lmbAddRegion_of_apart (by omega) hroom hdummy hnone]
    refine ⟨0, _, rfl, lmbInsert_apart hapart hfree (by omega) hroom ?_⟩
    intro hlt j hj
    have := base_zero_le hasc hj
    omega

end

section

variable {lmb : UBoot.Lmb} {base size k maxAddr : Nat}

/-- What the rounding adds to the area does not reach a region: there is nothing to add, or regions begin aligned. -/
def Aligned (rgn : LmbRegion) (size align : Nat) : Prop := align ∣ size ∨ ∀ i < rgn.cnt, align ∣ (rgn.region i).base

lemma Placed.freeOf (hplaced : Placed lmb size k maxAddr base) (h : Roomy lmb size k maxAddr)
    (haligned : Aligned lmb.reserved size (2 ^ k)) : FreeOf lmb.reserved base (lmbAlignUp size (2 ^ k)) := by
  obtain ⟨hlt, _, _⟩ := hplaced.rounded h
  obtain ⟨_, _, _, _, hfit⟩ := hplaced.inside
  obtain ⟨hdvd, hle, hup⟩ := lmbAlignUp_spec h.align (hplaced.size_add_le h)
  intro i hi
  have hdisj := disjoint_of_free h.reserved hlt hplaced.free hi
  rw [disjoint_range_iff] at hdisj ⊢
  dsimp only at hdisj ⊢
  by_cases hsize : 2 ^ k ∣ size
  . have := Nat.le_of_lt_add_of_dvd hup hdvd hsize
    omega
  have hpos : size ≠ 0 := by
    intro hzero
    exact hsize (hzero ▸ Nat.dvd_zero _)
  by_cases habove : base + size ≤ (lmb.reserved.region i).base
  . have hgap := Nat.dvd_sub (haligned.resolve_left hsize i hi) hfit.dvd
    have := Nat.le_of_lt_add_of_dvd (b := (lmb.reserved.region i).base - base) (by omega) hdvd hgap
    omega
  . omega

end

lemma Sample.ram_apart (p : LmbProperty) : Apart (ram p).reserved := by
  apply apart_of_cnt_le_one
  change 1 ≤ 1
  decide

end UBoot.Lmb
