import MarvellBoot.UBoot.Lmb.Lemmas.Merge

namespace UBoot

open Size Nat Option

namespace LmbProperty

variable {j k left : Nat} {s s' : State} {op : Op}

def range (p : LmbProperty) : Set Nat := Set.Ico p.base (p.base + p.size)

lemma mem_range (p : LmbProperty) (a : Nat) : a ∈ p.range ↔ p.base ≤ a ∧ a < p.base + p.size := Iff.rfl

end LmbProperty

open LmbProperty

variable {i : Nat}

namespace LmbRegion

structure Sorted (rgn : LmbRegion) : Prop where
  size_pos : ∀ i < rgn.cnt, 0 < (rgn.region i).size
  sorted : ∀ i j, i < j → j < rgn.cnt → (rgn.region i).base + (rgn.region i).size ≤ (rgn.region j).base

structure Holds (rgn : LmbRegion) (r : Set Nat) : Prop extends Sorted rgn where
  cnt_le : rgn.cnt ≤ Lmb.maxLmbRegions
  end_lt : ∀ i < rgn.cnt, (rgn.region i).base + (rgn.region i).size < 2 ^ 64
  mem_iff : ∀ a, a ∈ r ↔ ∃ i < rgn.cnt, a ∈ (rgn.region i).range

variable {rgn rgn' : LmbRegion} {r : Set Nat} {i : Nat} {p : LmbProperty}

lemma Holds.noWrap (h : Holds rgn r) : Lmb.NoWrap rgn := ⟨h.cnt_le, h.end_lt⟩

lemma Holds.index_eq {a j : Nat} (h : Holds rgn r) (hi : i < rgn.cnt) (hj : j < rgn.cnt) (hmem : a ∈ (rgn.region i).range)
    (hmem' : a ∈ (rgn.region j).range) : i = j := by
  rw [mem_range] at hmem hmem'
  by_contra hne
  cases lt_or_gt_of_ne hne with
  | inl hlt =>
    have := h.sorted i j hlt hj
    omega
  | inr hgt =>
    have := h.sorted j i hgt hi
    omega

lemma Holds.apart (h : Holds rgn r) (hsize : 0 < p.size) (hdisj : Disjoint p.range r) (hi : i < rgn.cnt)
    : (rgn.region i).base + (rgn.region i).size ≤ p.base ∨ p.base + p.size ≤ (rgn.region i).base := by
  rw [Set.disjoint_left] at hdisj
  have hpos := h.size_pos i hi
  by_cases hle : (rgn.region i).base ≤ p.base
  . have := hdisj (a := p.base) ⟨by omega, by omega⟩
    rw [h.mem_iff] at this
    left
    apply Nat.le_of_not_lt
    intro hlt
    exact this ⟨i, hi, hle, hlt⟩
  right
  apply Nat.le_of_not_lt
  intro hlt
  apply hdisj (a := (rgn.region i).base) ⟨by omega, by omega⟩
  rw [h.mem_iff]
  exact ⟨i, hi, by omega, by omega⟩

end LmbRegion

variable {ret : Int}

namespace Lmb

open LmbRegion

variable {rgn rgn' : LmbRegion} {r : Set Nat} {i : Nat} {p : LmbProperty} {base size : Nat}

lemma removed_holds (h : Holds rgn r) (hi : i < rgn.cnt) : Holds (removed rgn i) (r \ (rgn.region i).range) := by
  constructor
  . constructor
    . intro j hj
      have ⟨k, hk, _, heq, _⟩ := removed_region_eq (i := i) hj
      rw [heq]
      exact h.size_pos k hk
    . intro j j' hlt hj'
      have ⟨k, _, _, heq, hside⟩ := removed_region_eq (i := i) (j := j) (lt_trans hlt hj')
      have ⟨k', hk', _, heq', hside'⟩ := removed_region_eq (i := i) hj'
      rw [heq, heq']
      exact h.sorted k k' (by omega) hk'
  . have := h.cnt_le
    change rgn.cnt - 1 ≤ _
    omega
  . intro j hj
    have ⟨k, hk, _, heq, _⟩ := removed_region_eq (i := i) hj
    rw [heq]
    exact h.end_lt k hk
  intro a
  rw [Set.mem_sdiff, h.mem_iff]
  constructor
  . intro ⟨⟨j, hj, hmem⟩, hnot⟩
    have hji : j ≠ i := by
      intro hji
      rw [hji] at hmem
      contradiction
    have ⟨k, hk, heq⟩ := exists_removed_region hi hj hji
    refine ⟨k, hk, ?_⟩
    rw [heq]
    exact hmem
  intro ⟨j, hj, hmem⟩
  have ⟨k, hk, hne, heq, _⟩ := removed_region_eq (i := i) hj
  rw [heq] at hmem
  exact ⟨⟨k, hk, hmem⟩, fun hmem' => hne (h.index_eq hk hi hmem hmem')⟩

lemma lmbInsert_holds (h : Holds rgn r) (hcnt : 0 < rgn.cnt) (hmax : rgn.cnt < maxLmbRegions)
    (hsize : 0 < size) (hend : base + size < 2 ^ 64)
    (hdisj : Disjoint (LmbProperty.mk base size).range r)
    : Holds (lmbInsert rgn base size) (r ∪ (LmbProperty.mk base size).range) := by
  have ⟨pos, hpos, hnew, hsame, habove, hlast, hfirst⟩ := @lmbInsert_regions _ base size hcnt
  have hcnt' := @lmbInsert_cnt _ base size hmax
  have hle {j : Nat} (hj : j < pos) : (rgn.region j).base ≤ base := by
    have hlast := hlast (by omega)
    by_cases heq : j = pos - 1
    . rw [heq]
      exact hlast
    . have := h.sorted j (pos - 1) (by omega) (by omega)
      omega
  have hbelow {j : Nat} (hj : j < pos) : (lmbInsert rgn base size).region j = rgn.region j := by
    by_cases hzero : j = 0
    . have := hle (j := 0) (by omega)
      rw [hzero, hfirst (by omega), if_neg (by omega)]
    . exact hsame j (by omega) hj
  have hlow {j : Nat} (hj : j < pos) : (rgn.region j).base + (rgn.region j).size ≤ base := by
    have hle := hle hj
    have := h.apart hsize hdisj (i := j) (by omega)
    dsimp only at this
    omega
  have hhigh {j : Nat} (hj : pos ≤ j) (hn : j < rgn.cnt) : base + size ≤ (rgn.region j).base := by
    have hlt := (habove j hj hn).1
    have := h.apart hsize hdisj hn
    dsimp only at this
    omega
  -- An entry of the new table is the new one or stands for one of the old table.
  have hcases {j : Nat} (hj : j < rgn.cnt + 1) : j = pos
      ∨ ∃ k < rgn.cnt, (lmbInsert rgn base size).region j = rgn.region k ∧ (j < pos ∧ k = j ∨ pos < j ∧ j = k + 1) := by
    by_cases hlt : j < pos
    . exact .inr ⟨j, by omega, hbelow hlt, by omega⟩
    by_cases heq : j = pos
    . exact .inl heq
    . have := (habove (j - 1) (by omega) (by omega)).2
      rw [Nat.sub_add_cancel (by omega)] at this
      exact .inr ⟨j - 1, by omega, this, by omega⟩
  constructor
  . constructor
    . rw [hcnt']
      intro j hj
      cases hcases hj with
      | inl heq =>
        rw [heq, hnew]
        exact hsize
      | inr hold =>
        have ⟨k, hk, heq, _⟩ := hold
        rw [heq]
        exact h.size_pos k hk
    . rw [hcnt']
      intro j j' hlt hj'
      cases hcases (lt_trans hlt hj') with
      | inl heq =>
        cases hcases hj' with
        | inl heq' => omega
        | inr hold' =>
          have ⟨k', hk', heq', hside'⟩ := hold'
          rw [heq, hnew, heq']
          exact hhigh (by omega) hk'
      | inr hold =>
        have ⟨k, hk, heq, hside⟩ := hold
        cases hcases hj' with
        | inl heq' =>
          rw [heq, heq', hnew]
          exact hlow (by omega)
        | inr hold' =>
          have ⟨k', hk', heq', hside'⟩ := hold'
          rw [heq, heq']
          exact h.sorted k k' (by omega) hk'
  . rw [hcnt']
    exact hmax
  . rw [hcnt']
    intro j hj
    cases hcases hj with
    | inl heq =>
      rw [heq, hnew]
      exact hend
    | inr hold =>
      have ⟨k, hk, heq, _⟩ := hold
      rw [heq]
      exact h.end_lt k hk
  intro a
  rw [Set.mem_union, h.mem_iff, hcnt']
  constructor
  . intro ha
    cases ha with
    | inl ha =>
      have ⟨j, hj, hmem⟩ := ha
      by_cases hlt : j < pos
      . refine ⟨j, by omega, ?_⟩
        rw [hbelow hlt]
        exact hmem
      . refine ⟨j + 1, by omega, ?_⟩
        rw [(habove j (by omega) hj).2]
        exact hmem
    | inr ha =>
      refine ⟨pos, by omega, ?_⟩
      rw [hnew]
      exact ha
  intro ⟨j, hj, hmem⟩
  cases hcases hj with
  | inl heq =>
    rw [heq, hnew] at hmem
    exact .inr hmem
  | inr hold =>
    have ⟨k, hk, heq, _⟩ := hold
    rw [heq] at hmem
    exact .inl ⟨k, hk, hmem⟩

lemma joined_span (h : Holds rgn r) (hend : base + size < 2 ^ 64) (htouch : FirstTouch rgn base size k)
    (hne : rgn.region k ≠ { base, size })
    : (joined rgn base size k).base = min (rgn.region k).base base
      ∧ ((rgn.region k).base = base + size ∨ base = (rgn.region k).base + (rgn.region k).size)
      ∧ (¬JoinsNext rgn base size k → (joined rgn base size k).size = (rgn.region k).size + size)
      ∧ (JoinsNext rgn base size k →
        (rgn.region (k + 1)).base = (joined rgn base size k).base + ((rgn.region k).size + size)
        ∧ (joined rgn base size k).size = (rgn.region k).size + size + (rgn.region (k + 1)).size) := by
  have hlt := h.end_lt k htouch.lt
  have ⟨hcases, hsum⟩ := extend_eq h.noWrap htouch hne (by omega) (by omega)
  rw [add_eq hend] at hcases
  rw [add_eq (by omega)] at hsum
  unfold joined
  by_cases hjoin : JoinsNext rgn base size k
  . have hlt' := h.end_lt (k + 1) hjoin.1
    have hpos := h.size_pos (k + 1) hjoin.1
    have hsorted := h.sorted k (k + 1) (by omega) hjoin.1
    have hadj := hjoin.2
    unfold nextAdjacent lmbAddrsAdjacent at hadj
    dsimp only at hadj
    rw [hsum, add_eq hlt', add_eq (by omega)] at hadj
    -- the next entry is above
    have hnext : (rgn.region (k + 1)).base = (extend base size (rgn.region k)).base + ((rgn.region k).size + size) := by
      by_contra hnot
      rw [if_neg hnot, if_neg (by omega)] at hadj
      contradiction
    simp only [hjoin, if_true, hsum]
    rw [add_eq (by omega)]
    refine ⟨by omega, by omega, ?_, fun _ => ⟨hnext, rfl⟩⟩
    intro hnot
    contradiction
  . simp only [hjoin, if_false, hsum]
    refine ⟨by omega, by omega, fun _ => trivial, ?_⟩
    intro hjoin
    contradiction

section

variable (h : Holds rgn r) (hsize : 0 < size) (hend : base + size < 2 ^ 64)
  (hdisj : Disjoint (LmbProperty.mk base size).range r)

include h hsize hend hdisj

lemma merged_holds (htouch : FirstTouch rgn base size k) (hne : rgn.region k ≠ { base, size })
    : Holds (merged rgn base size k) (r ∪ (LmbProperty.mk base size).range) := by
  have hk := htouch.lt
  have ⟨hk', hself, hothers⟩ := merged_region rgn base size hk
  have ⟨hbase, htouches, hspan, hnext⟩ := joined_span h hend htouch hne
  have hpos := h.size_pos k hk
  have hlt := h.end_lt k hk
  have hfix : shift rgn base size k k = k := if_neg fun h => by omega
  have hmem (a : Nat) : a ∈ (joined rgn base size k).range ↔ a ∈ (rgn.region k).range
      ∨ a ∈ (LmbProperty.mk base size).range ∨ JoinsNext rgn base size k ∧ a ∈ (rgn.region (k + 1)).range := by
    simp only [mem_range]
    by_cases hjoin : JoinsNext rgn base size k
    . have := hnext hjoin
      simp only [hjoin, true_and]
      omega
    . have := hspan hjoin
      simp only [hjoin, false_and, or_false]
      omega
  constructor
  . constructor
    . intro j hj
      by_cases hjk : j = k
      . have hin := (hmem base).mpr (.inr (.inl ⟨le_rfl, by dsimp only; omega⟩))
        rw [mem_range] at hin
        rw [hjk, hself]
        omega
      . have ⟨hlt, _, _, hregion⟩ := hothers j hj hjk
        rw [hregion]
        exact h.size_pos _ hlt
    intro i j hij hj
    have hmono := shift_strictMono rgn base size k hij
    by_cases hik : i = k
    . have ⟨hj', _, hne', hregion⟩ := hothers j hj (by omega)
      rw [hik, hfix] at hmono
      rw [hik, hself, hregion]
      by_cases hjoin : JoinsNext rgn base size k
      . have := hne' hjoin
        have := h.sorted (k + 1) _ (by omega) hj'
        have := hnext hjoin
        omega
      . have := h.sorted k _ hmono hj'
        have := h.size_pos _ hj'
        have := h.apart hsize hdisj hj'
        have := hspan hjoin
        dsimp only at *
        omega
    have ⟨hi', _, _, hregion⟩ := hothers i (by omega) hik
    rw [hregion]
    by_cases hjk : j = k
    . rw [hjk, hfix] at hmono
      have := h.sorted _ k hmono hk
      have := h.size_pos _ hi'
      have := h.apart hsize hdisj hi'
      rw [hjk, hself]
      dsimp only at *
      omega
    . have ⟨hj', _, _, hregion'⟩ := hothers j hj hjk
      rw [hregion']
      exact h.sorted _ _ hmono hj'
  . have := h.cnt_le
    unfold merged
    split
    . change rgn.cnt - 1 ≤ _
      omega
    . exact this
  . intro j hj
    by_cases hjk : j = k
    . rw [hjk, hself]
      by_cases hjoin : JoinsNext rgn base size k
      . have := h.end_lt _ hjoin.1
        have := hnext hjoin
        omega
      . have := hspan hjoin
        omega
    . have ⟨hlt, _, _, hregion⟩ := hothers j hj hjk
      rw [hregion]
      exact h.end_lt _ hlt
  intro a
  rw [Set.mem_union, h.mem_iff]
  constructor
  . intro ha
    by_cases hin : a ∈ (joined rgn base size k).range
    . refine ⟨k, hk', ?_⟩
      rw [hself]
      exact hin
    rw [hmem, not_or, not_or] at hin
    have ⟨j, hj, hmemj⟩ := ha.resolve_right hin.2.1
    have ⟨i, hi, _, hregion⟩ := exists_merged_region (k := k) hj
      (fun hjk => hin.1 (hjk ▸ hmemj)) (fun (hjoin : JoinsNext rgn base size k) hjk => hin.2.2 ⟨hjoin, hjk ▸ hmemj⟩)
    refine ⟨i, hi, ?_⟩
    rw [hregion]
    exact hmemj
  intro ⟨j, hj, hmemj⟩
  by_cases hjk : j = k
  . rw [hjk, hself, hmem] at hmemj
    rcases hmemj with hold | hnew | ⟨hjoin, hold⟩
    . exact .inl ⟨k, hk, hold⟩
    . exact .inr hnew
    . exact .inl ⟨k + 1, hjoin.1, hold⟩
  . have ⟨hlt, _, _, hregion⟩ := hothers j hj hjk
    rw [hregion] at hmemj
    exact .inl ⟨_, hlt, hmemj⟩

lemma lmbAddRegion_holds (hcnt : 0 < rgn.cnt) (hres : lmbAddRegion rgn base size = some (ret, rgn')) (hret : 0 ≤ ret)
    : Holds rgn' (r ∪ (LmbProperty.mk base size).range) := by
  cases added_of_lmbAddRegion hcnt h.cnt_le hres with
  | dummy hdummy =>
    have := h.size_pos 0 hcnt
    have := hdummy.2
    omega
  | @same k htouch hsame =>
    have := h.apart hsize hdisj htouch.lt
    rw [hsame] at this
    dsimp only at this
    omega
  | touch htouch hne _ => exact merged_holds h hsize hend hdisj htouch hne
  | insert _ hroom => exact lmbInsert_holds h hcnt hroom hsize hend hdisj
  | full => contradiction

end

lemma lmbFreeLoop_spec {stop : Nat} (h : lmbFreeLoop rgn base stop i left = some k)
    : k < i + left ∧ (rgn.region k).base ≤ base ∧ stop ≤ add (rgn.region k).base (rgn.region k).size := by
  induction left generalizing i with
  | zero => contradiction
  | succ left ih =>
    rw [lmbFreeLoop] at h
    split at h
    . next hfound =>
      cases h
      exact ⟨by omega, hfound⟩
    . have ⟨hk, hrest⟩ := ih h
      exact ⟨by omega, hrest⟩

lemma cut_holds {q : LmbProperty} (h : Holds rgn r) (hi : i < rgn.cnt) (hq : 0 < q.size)
    (hlow : (rgn.region i).base ≤ q.base)
    (hhigh : q.base + q.size ≤ (rgn.region i).base + (rgn.region i).size)
    : Holds (rgn.set i q) (r \ ((rgn.region i).range \ q.range)) := by
  have hsame {j : Nat} (hj : j ≠ i) := set_region_of_ne rgn q hj
  have hinside {j : Nat} (hj : j < rgn.cnt) : 0 < ((rgn.set i q).region j).size
      ∧ (rgn.region j).base ≤ ((rgn.set i q).region j).base
      ∧ ((rgn.set i q).region j).base + ((rgn.set i q).region j).size ≤ (rgn.region j).base + (rgn.region j).size := by
    by_cases hji : j = i
    . rw [hji, set_region_self]
      exact ⟨hq, hlow, hhigh⟩
    . rw [hsame hji]
      exact ⟨h.size_pos j hj, le_rfl, le_rfl⟩
  constructor
  . constructor
    . intro j hj
      exact (hinside hj).1
    . intro j k hjk hk
      have := hinside (lt_trans hjk hk)
      have := hinside hk
      have := h.sorted j k hjk hk
      omega
  . exact h.cnt_le
  . intro j hj
    have := hinside hj
    have := h.end_lt j hj
    omega
  intro a
  rw [Set.mem_sdiff, Set.mem_sdiff, h.mem_iff]
  constructor
  . intro ⟨⟨j, hj, hmem⟩, hnot⟩
    refine ⟨j, hj, ?_⟩
    by_cases hji : j = i
    . rw [hji] at hmem ⊢
      rw [set_region_self]
      by_contra hnot'
      exact hnot ⟨hmem, hnot'⟩
    . rw [hsame hji]
      exact hmem
  intro ⟨j, hj, hmem⟩
  have hold : a ∈ (rgn.region j).range := by
    have := hinside hj
    rw [mem_range] at hmem ⊢
    omega
  refine ⟨⟨j, hj, hold⟩, ?_⟩
  intro ⟨hmem', hnot⟩
  rw [h.index_eq hj hi hold hmem', set_region_self] at hmem
  contradiction

lemma lmbFreeRegion_holds (h : Holds rgn r) (hend : base + size < 2 ^ 64)
    (hres : lmbFreeRegion rgn base size = some (ret, rgn')) (hret : 0 ≤ ret)
    : Holds rgn' (r \ (LmbProperty.mk base size).range) := by
  unfold lmbFreeRegion at hres
  dsimp only at hres
  split at hres
  . cases hres
    contradiction
  next k hloop =>
  have ⟨hk, hlow, hhigh⟩ := lmbFreeLoop_spec hloop
  rw [Nat.zero_add] at hk
  have hlt := h.end_lt k hk
  rw [add_eq hlt, add_eq hend] at hhigh hres
  split at hres
  . next hall =>
    rw [lmbRemoveRegion_eq h.cnt_le hk] at hres
    cases hres
    convert removed_holds h hk using 2
    unfold range
    rw [hall.2, hall.1]
  next hall =>
  split at hres
  . next hfront =>
    cases hres
    rw [sub_eq (by omega) (by omega)]
    convert cut_holds h hk (q := ⟨base + size, (rgn.region k).size - size⟩) _ _ _ using 2
    . ext a
      simp only [Set.mem_sdiff, mem_range]
      omega
    . dsimp only
      omega
    . dsimp only
      omega
    . dsimp only
      omega
  next hfront =>
  split at hres
  . next hback =>
    cases hres
    rw [sub_eq (by omega) (by omega)]
    convert cut_holds h hk (q := ⟨(rgn.region k).base, (rgn.region k).size - size⟩) _ _ _ using 2
    . ext a
      simp only [Set.mem_sdiff, mem_range]
      omega
    . dsimp only
      omega
    . dsimp only
      omega
    . dsimp only
      omega
  next hback =>
  rw [sub_eq (by omega) (by omega), sub_eq (by omega) (by omega)] at hres
  have hcut := cut_holds h hk (q := ⟨(rgn.region k).base, base - (rgn.region k).base⟩)
    (by dsimp only; omega) (by dsimp only; omega) (by dsimp only; omega)
  have hadd := lmbAddRegion_holds hcut (by omega) (by omega)
    (by
      rw [Set.disjoint_left]
      intro a ha
      simp only [Set.mem_sdiff, mem_range] at ha ⊢
      omega)
    (by rw [set_cnt]; omega) hres hret
  convert hadd using 1
  ext a
  simp only [Set.mem_union, Set.mem_sdiff, mem_range]
  constructor
  . intro ha
    by_cases hin : base + size ≤ a ∧ a < (rgn.region k).base + (rgn.region k).size
    . right
      omega
    . exact .inl ⟨ha.1, by omega⟩
  intro ha
  cases ha with
  | inl ha => exact ⟨ha.1, by omega⟩
  | inr ha =>
    refine ⟨?_, by omega⟩
    rw [h.mem_iff]
    exact ⟨k, hk, by omega, by omega⟩

structure Dummy (rgn : LmbRegion) : Prop where
  cnt : rgn.cnt = 1
  region : rgn.region 0 = { base := 0, size := 0 }

lemma lmbInitRegion_dummy (rgn : LmbRegion) : Dummy (lmbInitRegion rgn) where
  cnt := rfl
  region := set_region_self rgn 0 _

lemma holds_of_cnt_eq_zero (h : rgn.cnt = 0) : Holds rgn ∅ := by
  constructor
  . constructor
    . intro i hi
      omega
    . intro i j _ hj
      omega
  . rw [h]
    exact zero_le _
  . intro i hi
    omega
  . intro a
    simp [h]

lemma holds_of_cnt_eq_one (h : rgn.cnt = 1) (hp : rgn.region 0 = p) (hsize : 0 < p.size)
    (hend : p.base + p.size < 2 ^ 64) : Holds rgn p.range := by
  have hzero {i : Nat} (hi : i < rgn.cnt) : rgn.region i = p := by
    rw [h, lt_one_iff] at hi
    rw [hi, hp]
  constructor
  . constructor
    . intro i hi
      rw [hzero hi]
      exact hsize
    . intro i j hij hj
      omega
  . rw [h]
    unfold maxLmbRegions
    omega
  . intro i hi
    rw [hzero hi]
    exact hend
  intro a
  constructor
  . intro ha
    refine ⟨0, by omega, ?_⟩
    rw [hp]
    exact ha
  . intro ⟨i, hi, ha⟩
    rw [hzero hi] at ha
    exact ha

/--
When the table has been emptied a region is stored only below the one that was removed last, or when
it is that one again. The first two entries are looked at although they are not in the table.
-/
def RefillOk (rgn : LmbRegion) (base size : Nat) : Prop :=
  lmbRegionsAdjacent rgn 0 1 = 0 ∧ (base < (rgn.region 0).base ∨ rgn.region 0 = { base, size })

lemma lmbAddRegion_dummy (h : Dummy rgn) (hsize : 0 < size)
    (hend : base + size < 2 ^ 64) (hres : lmbAddRegion rgn base size = some (ret, rgn'))
    : Holds rgn' (LmbProperty.mk base size).range := by
  rw [lmbAddRegion_of_dummy ⟨h.cnt, by rw [h.region]⟩] at hres
  cases hres
  exact holds_of_cnt_eq_one h.cnt (set_region_self ..) hsize hend

lemma lmbAddRegion_emptied (h : rgn.cnt = 0) (hok : RefillOk rgn base size)
    (hsize : 0 < size) (hend : base + size < 2 ^ 64)
    (hres : lmbAddRegion rgn base size = some (ret, rgn'))
    : Holds rgn' (LmbProperty.mk base size).range := by
  have ⟨hcnt, hregion⟩ := @lmbInsert_of_empty _ base size h
  rw [lmbAddRegion_of_empty h, if_pos hok.1] at hres
  cases hres
  apply holds_of_cnt_eq_one hcnt _ hsize hend
  rw [hregion]
  split
  . rfl
  . next hge => exact hok.2.resolve_left hge

lemma lmbFreeRegion_dummy (h : Dummy rgn) (hbase : base < 2 ^ 64)
    (hres : lmbFreeRegion rgn base 0 = some (ret, rgn')) (hret : 0 ≤ ret) : rgn'.cnt = 0 := by
  have hzero : add 0 0 = 0 := rfl
  unfold lmbFreeRegion at hres
  dsimp only at hres
  rw [add_eq hbase, Nat.add_zero] at hres
  split at hres
  . cases hres
    contradiction
  next k hloop =>
  have ⟨hk, hlow, hhigh⟩ := lmbFreeLoop_spec hloop
  rw [h.cnt, Nat.zero_add, Nat.lt_one_iff] at hk
  rw [hk, h.region, hzero] at hhigh hres
  rw [if_pos (by dsimp only; omega)] at hres
  unfold lmbRemoveRegion at hres
  rw [h.cnt] at hres
  cases hres
  rfl

structure State where
  lmb : UBoot.Lmb
  reserved : Set Nat

inductive Op where
  | reserve (base size : Nat)
  | free (base size : Nat)

inductive Step (s : State) : Op → State → Prop where
  | reserve {base size : Nat} {ret : Int} {lmb : UBoot.Lmb} (hbase : base < 2 ^ 64)
    (hsize : size < 2 ^ 64) (hend : base + size ≤ 2 ^ 64)
    (hdisj : Disjoint (Set.Ico base (base + size)) s.reserved)
    (hres : lmbReserve s.lmb base size = some (ret, lmb)) (hret : 0 ≤ ret)
    : Step s (.reserve base size) { lmb, reserved := s.reserved ∪ Set.Ico base (base + size) }
  | free {base size : Nat} {ret : Int} {lmb : UBoot.Lmb} (hbase : base < 2 ^ 64)
    (hsize : size < 2 ^ 64) (hend : base + size ≤ 2 ^ 64)
    (hsub : Set.Ico base (base + size) ⊆ s.reserved)
    (hres : lmbFree s.lmb base size = some (ret, lmb)) (hret : 0 ≤ ret)
    : Step s (.free base size) { lmb, reserved := s.reserved \ Set.Ico base (base + size) }

inductive Run (cond : UBoot.Lmb → Op → Prop) (lmb : UBoot.Lmb) : List Op → State → Prop where
  | nil : Run cond lmb [] { lmb := lmbInit lmb, reserved := ∅ }
  | snoc {ops : List Op} {s s' : State} {op : Op} :
    Run cond lmb ops s → cond s.lmb op → Step s op s' → Run cond lmb (ops ++ [op]) s'

structure Exact (s : State) : Prop where
  isReserved : ∀ addr < 2 ^ 64, lmbIsReserved s.lmb addr = true ↔ addr ∈ s.reserved
  sorted : Sorted s.lmb.reserved

def Regular (lmb : UBoot.Lmb) : Op → Prop
  | .reserve base size => 0 < size ∧ base + size < 2 ^ 64 ∧ (lmb.reserved.cnt = 0 → RefillOk lmb.reserved base size)
  | .free _ _ => True

lemma exact_of_holds (h : Holds s.lmb.reserved s.reserved) : Exact s := by
  refine ⟨?_, h.toSorted⟩
  intro addr _
  unfold lmbIsReserved
  rw [h.mem_iff, List.any_eq_true]
  constructor
  . intro ⟨i, hi, hmem⟩
    rw [List.mem_range] at hi
    have hlt := h.end_lt i hi
    have hpos := h.size_pos i hi
    simp only [Bool.and_eq_true, decide_eq_true_eq] at hmem
    rw [add_eq hlt, sub_eq (by omega) (by omega)] at hmem
    exact ⟨i, hi, hmem.1, by omega⟩
  intro ⟨i, hi, hmem⟩
  have hlt := h.end_lt i hi
  rw [mem_range] at hmem
  refine ⟨i, List.mem_range.mpr hi, ?_⟩
  simp only [Bool.and_eq_true, decide_eq_true_eq]
  rw [add_eq hlt, sub_eq (by omega) (by omega)]
  omega

def Inv (ops : List Op) (s : State) : Prop :=
  (ops = [] ∧ Dummy s.lmb.reserved ∧ s.reserved = ∅) ∨ (ops ≠ [] ∧ Holds s.lmb.reserved s.reserved)

lemma step_holds_of_holds (h : Holds s.lmb.reserved s.reserved)
    (hreg : Regular s.lmb op) (hstep : Step s op s') : Holds s'.lmb.reserved s'.reserved := by
  cases hstep with
  | @reserve _ _ _ _ _ hsize hend hdisj hres hret =>
    have ⟨hpos, hlt, hrefill⟩ := hreg
    unfold lmbReserve at hres
    rw [map_eq_some_iff] at hres
    have ⟨res, hadd, heq⟩ := hres
    cases heq
    by_cases hcnt : s.lmb.reserved.cnt = 0
    . have hempty : s.reserved = ∅ := by
        ext a
        rw [h.mem_iff, hcnt]
        simp
      rw [hempty, Set.empty_union]
      exact lmbAddRegion_emptied hcnt (hrefill hcnt) hpos hlt hadd
    . exact lmbAddRegion_holds h hpos hlt hdisj (by omega) hadd hret
  | @free base size ret lmb hbase hsize hend hsub hres hret =>
    unfold lmbFree at hres
    rw [map_eq_some_iff] at hres
    have ⟨res, hfree, heq⟩ := hres
    cases heq
    have hlt : base + size < 2 ^ 64 := by
      cases size with
      | zero => omega
      | succ size =>
        have hlast := hsub (a := base + size) ⟨by omega, by omega⟩
        rw [h.mem_iff] at hlast
        have ⟨i, hi, _, hend⟩ := hlast
        have := h.end_lt i hi
        omega
    exact lmbFreeRegion_holds h hlt hfree hret

lemma step_holds_of_dummy (h : Dummy s.lmb.reserved)
    (hempty : s.reserved = ∅) (hreg : Regular s.lmb op) (hstep : Step s op s')
    : Holds s'.lmb.reserved s'.reserved := by
  cases hstep with
  | reserve hbase hsize hend hdisj hres hret =>
    have ⟨hpos, hlt, _⟩ := hreg
    unfold lmbReserve at hres
    rw [map_eq_some_iff] at hres
    have ⟨res, hadd, heq⟩ := hres
    cases heq
    rw [hempty, Set.empty_union]
    exact lmbAddRegion_dummy h hpos hlt hadd
  | @free base size ret lmb hbase hsize hend hsub hres hret =>
    unfold lmbFree at hres
    rw [map_eq_some_iff] at hres
    have ⟨res, hfree, heq⟩ := hres
    cases heq
    have hzero : size = 0 := by
      by_contra hne
      have := hsub (a := base) ⟨by omega, by omega⟩
      rw [hempty] at this
      contradiction
    rw [hzero] at hfree
    rw [hempty, Set.empty_sdiff]
    exact holds_of_cnt_eq_zero (lmbFreeRegion_dummy h hbase hfree hret)

lemma run_inv {lmb : UBoot.Lmb} {ops : List Op} (h : Run Regular lmb ops s) : Inv ops s := by
  induction h with
  | nil => exact .inl ⟨rfl, lmbInitRegion_dummy _, rfl⟩
  | snoc _ hreg hstep ih =>
    refine .inr ⟨List.append_ne_nil_of_right_ne_nil _ (List.cons_ne_nil _ _), ?_⟩
    cases ih with
    | inl hinit => exact step_holds_of_dummy hinit.2.1 hinit.2.2 hreg hstep
    | inr hinv => exact step_holds_of_holds hinv.2 hreg hstep

theorem lmb_reserved_exact_iff (lmb : UBoot.Lmb) (ops : List Op) (s : State)
    (h : Run Regular lmb ops s) : Exact s ↔ ops ≠ [] := by
  cases run_inv h with
  | inl hinit =>
    have ⟨hops, hdummy, _⟩ := hinit
    constructor
    . intro hexact
      have hpos := hexact.sorted.size_pos 0 (by rw [hdummy.cnt]; omega)
      rw [hdummy.region] at hpos
      contradiction
    . intro hne
      contradiction
  | inr hinv =>
    constructor
    . intro _
      exact hinv.1
    . intro _
      exact exact_of_holds hinv.2

namespace Sample

def table : LmbRegion where
  cnt := 0
  region _ := { base := 0, size := 0 }

def lmb : UBoot.Lmb where
  memory := table
  reserved := table

def reserved : LmbRegion := (lmbInitRegion table).set 0 { base := 0x1000, size := 0x1000 }

def onePage (cnt : Nat) : UBoot.Lmb where
  memory := lmbInitRegion table
  reserved := { reserved with cnt }

def spaced : UBoot.Lmb := ((lmbReserve (onePage 1) 0x3000 0x1000).get rfl).2

def whole : UBoot.Lmb := ((lmbReserve spaced 0x2000 0x1000).get rfl).2

def parted : UBoot.Lmb := ((lmbFree whole 0x2000 0x1000).get rfl).2

end Sample

open Sample

lemma reserve_onePage
    : Step { lmb := lmbInit lmb, reserved := ∅ } (.reserve 0x1000 0x1000)
      { lmb := onePage 1, reserved := ∅ ∪ Set.Ico 0x1000 0x2000 } := by
  have hcall : lmbReserve (lmbInit lmb) 0x1000 0x1000 = some (0, onePage 1) := rfl
  exact .reserve (by omega) (by omega) (by omega) (Set.disjoint_empty _) hcall (by omega)

-- The page in the middle merges the two around it, and is then taken out again.
theorem lmb_reserved_exact_threePages
    : ∃ s, Run Regular lmb [.reserve 0x1000 0x1000, .reserve 0x3000 0x1000, .reserve 0x2000 0x1000,
        .free 0x2000 0x1000, .free 0x3000 0x1000] s ∧ Exact s := by
  have hreg {base : Nat} {lmb : UBoot.Lmb} (hbase : base < 2 ^ 32) (hcnt : lmb.reserved.cnt ≠ 0)
      : Regular lmb (.reserve base 0x1000) := ⟨by omega, by omega, fun h => absurd h hcnt⟩
  have hreg' {base : Nat} {lmb : UBoot.Lmb} : Regular lmb (.free base 0x1000) := trivial
  have hthird : lmbReserve (onePage 1) 0x3000 0x1000 = some (0, spaced) := rfl
  have hsecond : lmbReserve spaced 0x2000 0x1000 = some (2, whole) := rfl
  have hsplit : lmbFree whole 0x2000 0x1000 = some (0, parted) := rfl
  have ⟨left, hlast⟩ : ∃ left, lmbFree parted 0x3000 0x1000 = some (0, left) := ⟨_, rfl⟩
  have h1 : Run Regular lmb [.reserve 0x1000 0x1000] _ := .snoc .nil (hreg (by omega) (by decide)) reserve_onePage
  have h2 := h1.snoc (hreg (by omega) (by decide)) (.reserve (by omega) (by omega) (by omega)
    (by simp [Set.Ico_disjoint_Ico]) hthird (by decide))
  have h3 := h2.snoc (hreg (by omega) (by decide)) (.reserve (by omega) (by omega) (by omega)
    (by simp [Set.Ico_disjoint_Ico]) hsecond (by decide))
  have h4 := h3.snoc hreg' (.free (by omega) (by omega) (by omega) Set.subset_union_right hsplit (by decide))
  have h5 := h4.snoc hreg' (.free (by omega) (by omega) (by omega) (by intro x hx; simp at hx ⊢; omega) hlast (by decide))
  exact ⟨_, h5, (lmb_reserved_exact_iff _ _ _ h5).mpr (List.cons_ne_nil _ _)⟩

-- The emptied table takes the page that was freed for the one that is reserved.
theorem not_exact_refilled
    : ∃ s, Run (fun _ _ => True) lmb
        [.reserve 0x1000 0x1000, .free 0x1000 0x1000, .reserve 0x2000 0x1000] s
      ∧ 0x2000 ∈ s.reserved ∧ lmbIsReserved s.lmb 0x2000 = false
      ∧ 0x1000 ∉ s.reserved ∧ lmbIsReserved s.lmb 0x1000 = true := by
  have hfree : lmbFree (onePage 1) 0x1000 0x1000 = some (0, onePage 0) := rfl
  have hrefill : lmbReserve (onePage 0) 0x2000 0x1000 = some (0, onePage 1) := rfl
  have h1 : Run (fun _ _ => True) lmb [.reserve 0x1000 0x1000] _ := .snoc .nil trivial reserve_onePage
  have h2 := h1.snoc trivial (.free (by omega) (by omega) (by omega) (by simp) hfree (by omega))
  have h3 := h2.snoc trivial (.reserve (by omega) (by omega) (by omega) (by simp) hrefill (by omega))
  refine ⟨_, h3, ?_, ?_, ?_, ?_⟩
  . simp
  . decide
  . simp
  . decide

end Lmb
end UBoot
