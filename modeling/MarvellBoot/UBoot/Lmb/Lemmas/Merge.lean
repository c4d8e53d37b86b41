import MarvellBoot.UBoot.Lmb.Impl

namespace UBoot

open Size Nat

namespace LmbRegion

variable {i j : Nat}

@[simp]
lemma set_cnt (rgn : LmbRegion) (i : Nat) (p : LmbProperty) : (rgn.set i p).cnt = rgn.cnt := rfl

@[simp]
lemma set_region_self (rgn : LmbRegion) (i : Nat) (p : LmbProperty) : (rgn.set i p).region i = p :=
  Function.update_self ..

lemma set_region_of_ne (rgn : LmbRegion) (p : LmbProperty) (h : j ≠ i) : (rgn.set i p).region j = rgn.region j :=
  Function.update_of_ne h ..

end LmbRegion

namespace Lmb

open LmbRegion

variable {rgn rgn' : LmbRegion} {base size i j k left : Nat} {p q : LmbProperty} {ret : Int}

lemma lmbRemoveLoop_region (rgn : LmbRegion) (i left j : Nat)
    : (lmbRemoveLoop rgn i left).region j = if i ≤ j ∧ j < i + left then rgn.region (j + 1) else rgn.region j := by
  induction left generalizing rgn i with
  | zero =>
    rw [lmbRemoveLoop, if_neg (by omega)]
  | succ left ih =>
    rw [lmbRemoveLoop, ih]
    by_cases hji : j = i
    . rw [hji, if_neg (by omega), if_pos (by omega), set_region_self]
    rw [set_region_of_ne _ _ hji]
    by_cases hj : i ≤ j ∧ j < i + (left + 1)
    . rw [if_pos (by omega), if_pos hj, set_region_of_ne _ _ (by omega)]
    . rw [if_neg (by omega), if_neg hj]

def removed (rgn : LmbRegion) (i : Nat) : LmbRegion := { lmbRemoveLoop rgn i (rgn.cnt - 1 - i) with cnt := rgn.cnt - 1 }

lemma lmbRemoveRegion_eq (hcnt : rgn.cnt ≤ maxLmbRegions) (hi : i < rgn.cnt)
    : lmbRemoveRegion rgn i = some (removed rgn i) := by
  unfold maxLmbRegions at hcnt
  have hlast : sub rgn.cnt 1 = rgn.cnt - 1 := sub_eq (by omega) (by omega)
  unfold lmbRemoveRegion removed
  rw [hlast, if_neg]
  unfold maxLmbRegions
  omega

lemma removed_region_of_lt (h : j < i) : (removed rgn i).region j = rgn.region j := by
  unfold removed
  rw [lmbRemoveLoop_region, if_neg (by omega)]

lemma removed_region_of_ge {j : Nat} (h : i ≤ j) (hj : j < rgn.cnt - 1)
    : (removed rgn i).region j = rgn.region (j + 1) := by
  unfold removed
  rw [lmbRemoveLoop_region, if_pos (by omega)]

lemma exists_removed_region (hi : i < rgn.cnt) (hj : j < rgn.cnt) (hji : j ≠ i)
    : ∃ k < rgn.cnt - 1, (removed rgn i).region k = rgn.region j := by
  by_cases hlt : j < i
  . exact ⟨j, by omega, removed_region_of_lt hlt⟩
  . refine ⟨j - 1, by omega, ?_⟩
    rw [removed_region_of_ge (by omega) (by omega), Nat.sub_add_cancel (by omega)]

lemma removed_region_eq (hj : j < rgn.cnt - 1)
    : ∃ k < rgn.cnt, k ≠ i ∧ (removed rgn i).region j = rgn.region k ∧ (j < i ∧ k = j ∨ i ≤ j ∧ k = j + 1) := by
  by_cases hlt : j < i
  . exact ⟨j, by omega, by omega, removed_region_of_lt hlt, by omega⟩
  . exact ⟨j + 1, by omega, by omega, removed_region_of_ge (by omega) hj, by omega⟩

lemma lmbInsertLoop_region_of_lt (rgn : LmbRegion) (base size : Nat) {n : Nat} (h : n < j)
    : (lmbInsertLoop rgn base size n).region j = rgn.region j := by
  induction n generalizing rgn with
  | zero => rfl
  | succ n ih =>
    rw [lmbInsertLoop]
    split
    . rw [ih _ (by omega), set_region_of_ne _ _ (by omega)]
    . rw [set_region_of_ne _ _ (by omega)]

lemma lmbInsertLoop_region (rgn : LmbRegion) (base size n : Nat)
    : ∃ pos ≤ n, (∀ j < pos, (lmbInsertLoop rgn base size n).region j = rgn.region j)
      ∧ (∀ j, pos ≤ j → j < n → base < (rgn.region j).base
        ∧ (lmbInsertLoop rgn base size n).region (j + 1) = rgn.region j)
      ∧ (∀ j, pos = j + 1 → (rgn.region j).base ≤ base ∧ (lmbInsertLoop rgn base size n).region pos = { base, size })
      ∧ (pos = 0 → (lmbInsertLoop rgn base size n).region 0 = rgn.region 0) := by
  induction n generalizing rgn with
  | zero =>
    refine ⟨0, by omega, ?_, ?_, ?_, ?_⟩
    . intro j hj
      omega
    . intro j _ hj
      omega
    . intro j hj
      omega
    . intro _
      rfl
  | succ n ih =>
    rw [lmbInsertLoop]
    split
    . next hlt =>
      have ⟨pos, hpos, hbelow, habove, hnew, hfirst⟩ := ih (rgn.set (n + 1) (rgn.region n))
      have hsame {j : Nat} (hj : j < n + 1) := set_region_of_ne rgn (j := j) (rgn.region n) hj.ne
      refine ⟨pos, by omega, ?_, ?_, ?_, ?_⟩
      . intro j hj
        rw [hbelow j hj, hsame (by omega)]
      . intro j hj hn
        by_cases hjn : j = n
        . rw [hjn, lmbInsertLoop_region_of_lt _ _ _ (by omega), set_region_self]
          exact ⟨hlt, rfl⟩
        . have habove := habove j hj (by omega)
          rw [hsame (by omega)] at habove
          exact habove
      . intro j hj
        have hnew := hnew j hj
        rw [hsame (by omega)] at hnew
        exact hnew
      . intro hzero
        rw [hfirst hzero, hsame (by omega)]
    next hge =>
    refine ⟨n + 1, by omega, ?_, ?_, ?_, ?_⟩
    . intro j hj
      rw [set_region_of_ne _ _ (by omega)]
    . intro j hj hn
      omega
    . intro j hj
      rw [set_region_self]
      cases hj
      exact ⟨by omega, rfl⟩
    . intro hzero
      omega

structure NoWrap (rgn : LmbRegion) : Prop where
  cnt_le : rgn.cnt ≤ maxLmbRegions
  end_lt : ∀ i < rgn.cnt, (rgn.region i).base + (rgn.region i).size < 2 ^ 64

def Touches (base size : Nat) (p : LmbProperty) : Prop :=
  p = { base, size } ∨ p.base = Size.add base size ∨ base = Size.add p.base p.size

lemma lmbAddLoop_of_apart (h : ∀ j, i ≤ j → j < i + left → ¬Touches base size (rgn.region j))
    : lmbAddLoop rgn base size i left = some (i + left, 0, rgn) := by
  induction left generalizing i with
  | zero => rfl
  | succ left ih =>
    have hfirst := h i (by omega) (by omega)
    simp only [Touches, not_or] at hfirst
    have hsame : ¬((rgn.region i).base = base ∧ (rgn.region i).size = size) := by
      rintro ⟨rfl, rfl⟩
      exact hfirst.1 rfl
    rw [lmbAddLoop]
    unfold lmbAddrsAdjacent
    rw [if_neg hsame, if_neg hfirst.2.1, if_neg hfirst.2.2, if_neg (by omega), if_neg (by omega), ih]
    . rw [Nat.add_assoc, Nat.add_comm 1]
    intro j hj hlt
    apply h j
    . omega
    . omega

def extend (base size : Nat) (p : LmbProperty) : LmbProperty :=
  if p.base = Size.add base size then
    { base := Size.sub p.base size, size := Size.add p.size size }
  else
    { p with size := Size.add p.size size }

structure FirstTouch (rgn : LmbRegion) (base size k : Nat) : Prop where
  lt : k < rgn.cnt
  touches : Touches base size (rgn.region k)
  before : ∀ j < k, ¬Touches base size (rgn.region j)

lemma exists_firstTouch_or (rgn : LmbRegion) (base size n : Nat)
    : (∃ k < n, Touches base size (rgn.region k) ∧ ∀ j < k, ¬Touches base size (rgn.region j))
      ∨ ∀ j < n, ¬Touches base size (rgn.region j) := by
  induction n with
  | zero =>
    right
    intro j hj
    omega
  | succ n ih =>
    cases ih with
    | inl hsome =>
      have ⟨k, hk, hrest⟩ := hsome
      exact .inl ⟨k, by omega, hrest⟩
    | inr hnone =>
      by_cases hlast : Touches base size (rgn.region n)
      . exact .inl ⟨n, by omega, hlast, hnone⟩
      right
      intro j hj
      by_cases hjn : j = n
      . rw [hjn]
        exact hlast
      . exact hnone j (by omega)

lemma lmbAddLoop_of_touch {left : Nat} (hi : i ≤ k) (hk : k < i + left)
    (hbefore : ∀ j, i ≤ j → j < k → ¬Touches base size (rgn.region j)) (htouch : Touches base size (rgn.region k))
    : lmbAddLoop rgn base size i left
      = if rgn.region k = { base, size } then none else some (k, 1, rgn.set k (extend base size (rgn.region k))) := by
  induction left generalizing i with
  | zero => omega
  | succ left ih =>
    have hsame (j : Nat) : (rgn.region j).base = base ∧ (rgn.region j).size = size ↔ rgn.region j = { base, size } := by
      rw [LmbProperty.mk.injEq (rgn.region j).base]
    by_cases hik : i = k
    . subst hik
      rw [lmbAddLoop]
      simp only [hsame]
      split
      . rfl
      next hne =>
      unfold lmbAddrsAdjacent extend
      rcases htouch with heq | hfront | hback
      . contradiction
      . rw [if_pos hfront, if_pos hfront, if_pos (by omega)]
      . by_cases hfront : (rgn.region i).base = add base size
        . rw [if_pos hfront, if_pos hfront, if_pos (by omega)]
        . rw [if_neg hfront, if_neg hfront, if_pos hback, if_neg (by omega), if_pos (by omega)]
    have hfirst := hbefore i (by omega) (by omega)
    simp only [Touches, not_or] at hfirst
    rw [lmbAddLoop]
    simp only [hsame]
    unfold lmbAddrsAdjacent
    rw [if_neg hfirst.1, if_neg hfirst.2.1, if_neg hfirst.2.2, if_neg (by omega), if_neg (by omega)]
    apply ih
    . omega
    . omega
    intro j hj hlt
    apply hbefore j
    . omega
    . exact hlt

def nextAdjacent (rgn : LmbRegion) (base size k : Nat) : Int :=
  let p := extend base size (rgn.region k)
  let q := rgn.region (k + 1)
  lmbAddrsAdjacent p.base p.size q.base q.size

def JoinsNext (rgn : LmbRegion) (base size k : Nat) : Prop := k + 1 < rgn.cnt ∧ nextAdjacent rgn base size k ≠ 0

instance : Decidable (JoinsNext rgn base size k) := inferInstanceAs (Decidable (_ ∧ _))

def joined (rgn : LmbRegion) (base size k : Nat) : LmbProperty :=
  let p := extend base size (rgn.region k)
  if JoinsNext rgn base size k then
    { p with size := Size.add p.size (rgn.region (k + 1)).size }
  else
    p

def IsDummy (rgn : LmbRegion) : Prop := rgn.cnt = 1 ∧ (rgn.region 0).size = 0

lemma lmbAddRegion_of_dummy (h : IsDummy rgn) : lmbAddRegion rgn base size = some (0, rgn.set 0 { base, size }) := by
  unfold IsDummy at h
  unfold lmbAddRegion
  rw [if_pos h]

lemma lmbAddRegion_of_same (hdummy : ¬IsDummy rgn) (h : FirstTouch rgn base size k)
    (hsame : rgn.region k = { base, size }) : lmbAddRegion rgn base size = some (0, rgn) := by
  have hk := h.lt
  unfold IsDummy at hdummy
  unfold lmbAddRegion
  rw [if_neg hdummy, lmbAddLoop_of_touch (Nat.zero_le k) (by omega) (fun j _ => h.before j) h.touches, if_pos hsame]

def merged (rgn : LmbRegion) (base size k : Nat) : LmbRegion :=
  if JoinsNext rgn base size k then
    removed (rgn.set k (joined rgn base size k)) (k + 1)
  else
    rgn.set k (joined rgn base size k)

lemma lmbAddRegion_of_touch (hcnt : rgn.cnt ≤ maxLmbRegions) (hdummy : ¬IsDummy rgn)
    (h : FirstTouch rgn base size k) (hne : rgn.region k ≠ { base, size })
    : ∃ ret, lmbAddRegion rgn base size = some (ret, merged rgn base size k) ∧ 0 ≤ ret := by
  have hk := h.lt
  have hmax : rgn.cnt ≤ 8 := hcnt
  unfold IsDummy at hdummy
  unfold lmbAddRegion merged
  rw [if_neg hdummy, lmbAddLoop_of_touch (Nat.zero_le k) (by omega) (fun j _ => h.before j) h.touches, if_neg hne]
  dsimp only
  rw [set_cnt, sub_eq (by omega) (by omega)]
  have hadj : lmbRegionsAdjacent (rgn.set k (extend base size (rgn.region k))) k (k + 1)
      = nextAdjacent rgn base size k := by
    unfold lmbRegionsAdjacent nextAdjacent
    rw [set_region_self, set_region_of_ne _ _ (by omega)]
  rw [hadj]
  by_cases hjoin : JoinsNext rgn base size k
  . have hset : (rgn.set k (extend base size (rgn.region k))).set k (joined rgn base size k)
        = rgn.set k (joined rgn base size k) := by
      unfold LmbRegion.set
      rw [Function.update_idem]
    have hcoalesce : lmbCoalesceRegions (rgn.set k (extend base size (rgn.region k))) k (k + 1)
        = some (removed (rgn.set k (joined rgn base size k)) (k + 1)) := by
      unfold lmbCoalesceRegions
      dsimp only
      rw [set_region_self, set_region_of_ne _ _ (by omega : k + 1 ≠ k)]
      have hjoined : joined rgn base size k
          = { extend base size (rgn.region k) with
              size := add (extend base size (rgn.region k)).size (rgn.region (k + 1)).size } := by
        unfold joined
        rw [if_pos hjoin]
      rw [← hjoined, hset]
      exact lmbRemoveRegion_eq hcnt hjoin.1
    rw [if_pos ⟨by have := hjoin.1; omega, hjoin.2⟩, if_pos hjoin, hcoalesce]
    exact ⟨_, rfl, by omega⟩
  have hjoined : joined rgn base size k = extend base size (rgn.region k) := by
    unfold joined
    rw [if_neg hjoin]
  have hnot : ¬(k < rgn.cnt - 1 ∧ nextAdjacent rgn base size k ≠ 0) := by
    intro ⟨hlt, hadj'⟩
    exact hjoin ⟨by omega, hadj'⟩
  rw [if_neg hnot, if_pos (by omega), if_neg hjoin, hjoined]
  exact ⟨_, rfl, by omega⟩

lemma lmbAddRegion_of_apart (hpos : 0 < rgn.cnt) (hcnt : rgn.cnt < maxLmbRegions) (hdummy : ¬IsDummy rgn)
    (h : ∀ j < rgn.cnt, ¬Touches base size (rgn.region j))
    : lmbAddRegion rgn base size = some (0, lmbInsert rgn base size) := by
  have hmax : rgn.cnt < 8 := hcnt
  have hloop := @lmbAddLoop_of_apart _ _ _ 0 rgn.cnt (fun j _ hj => h j (by omega))
  unfold IsDummy at hdummy
  unfold lmbAddRegion
  rw [if_neg hdummy, hloop]
  dsimp only
  rw [sub_eq (by omega) (by omega), if_neg (by omega), if_neg (by omega), if_neg (by omega)]

lemma lmbAddRegion_of_full (hfull : rgn.cnt = maxLmbRegions) (h : ∀ j < rgn.cnt, ¬Touches base size (rgn.region j))
    : lmbAddRegion rgn base size = some (-1, rgn) := by
  have hmax : rgn.cnt = 8 := hfull
  have hloop := @lmbAddLoop_of_apart _ _ _ 0 rgn.cnt (fun j _ hj => h j (by omega))
  unfold lmbAddRegion
  rw [if_neg (by omega), hloop]
  dsimp only
  rw [sub_eq (by omega) (by omega), if_neg (by omega), if_neg (by omega), if_pos (by omega)]

inductive Added (rgn : LmbRegion) (base size : Nat) : Int → LmbRegion → Prop where
  | dummy (h : IsDummy rgn) : Added rgn base size 0 (rgn.set 0 { base, size })
  | same {k : Nat} (h : FirstTouch rgn base size k) (hsame : rgn.region k = { base, size }) : Added rgn base size 0 rgn
  | touch {k : Nat} {ret : Int} (h : FirstTouch rgn base size k) (hne : rgn.region k ≠ { base, size }) (hret : 0 ≤ ret)
    : Added rgn base size ret (merged rgn base size k)
  | insert (h : ∀ j < rgn.cnt, ¬Touches base size (rgn.region j)) (hroom : rgn.cnt < maxLmbRegions)
    : Added rgn base size 0 (lmbInsert rgn base size)
  | full (h : ∀ j < rgn.cnt, ¬Touches base size (rgn.region j)) (hfull : rgn.cnt = maxLmbRegions)
    : Added rgn base size (-1) rgn

lemma added_of_lmbAddRegion (hpos : 0 < rgn.cnt) (hcnt : rgn.cnt ≤ maxLmbRegions)
    (h : lmbAddRegion rgn base size = some (ret, rgn')) : Added rgn base size ret rgn' := by
  by_cases hdummy : IsDummy rgn
  . rw [lmbAddRegion_of_dummy hdummy] at h
    cases h
    exact .dummy hdummy
  cases exists_firstTouch_or rgn base size rgn.cnt with
  | inl htouch =>
    have ⟨k, hk, htouches, hbefore⟩ := htouch
    have htouch : FirstTouch rgn base size k := ⟨hk, htouches, hbefore⟩
    by_cases hsame : rgn.region k = { base, size }
    . rw [lmbAddRegion_of_same hdummy htouch hsame] at h
      cases h
      exact .same htouch hsame
    have ⟨ret', hres, hret⟩ := lmbAddRegion_of_touch hcnt hdummy htouch hsame
    rw [hres] at h
    cases h
    exact .touch htouch hsame hret
  | inr hnone =>
    by_cases hroom : rgn.cnt < maxLmbRegions
    . rw [lmbAddRegion_of_apart hpos hroom hdummy hnone] at h
      cases h
      exact .insert hnone hroom
    have hfull : rgn.cnt = maxLmbRegions := by omega
    rw [lmbAddRegion_of_full hfull hnone] at h
    cases h
    exact .full hnone hfull

lemma lmbAddRegion_of_empty (hcnt : rgn.cnt = 0)
    : lmbAddRegion rgn base size
      = if lmbRegionsAdjacent rgn 0 1 = 0 then some (0, lmbInsert rgn base size) else none := by
  have hlast : sub 0 1 = 2 ^ 64 - 1 := rfl
  unfold lmbAddRegion
  rw [if_neg (by omega), hcnt, lmbAddLoop]
  dsimp only
  rw [hcnt, hlast]
  by_cases hadj : lmbRegionsAdjacent rgn 0 1 = 0
  . rw [if_neg (fun h => h.2 hadj), if_neg (by omega), if_neg (by decide), if_pos hadj]
  rw [if_pos ⟨by decide, hadj⟩, if_neg hadj]
  unfold lmbCoalesceRegions lmbRemoveRegion
  dsimp only
  rw [set_cnt, hcnt, hlast, if_pos (by decide)]
  rfl

lemma lmbInsert_of_empty (hcnt : rgn.cnt = 0)
    : (lmbInsert rgn base size).cnt = 1
      ∧ (lmbInsert rgn base size).region 0 = if base < (rgn.region 0).base then { base, size } else rgn.region 0 := by
  unfold lmbInsert
  rw [hcnt, lmbInsertLoop]
  refine ⟨rfl, ?_⟩
  dsimp only
  split
  . rw [set_region_self]
  . rfl

lemma lmbInsert_cnt (hcnt : rgn.cnt < maxLmbRegions) : (lmbInsert rgn base size).cnt = rgn.cnt + 1 := by
  have hmax : rgn.cnt < 8 := hcnt
  exact add_eq (by omega)

lemma lmbInsert_regions (hpos : 0 < rgn.cnt)
    : ∃ pos ≤ rgn.cnt, (lmbInsert rgn base size).region pos = { base, size }
      ∧ (∀ j, 0 < j → j < pos → (lmbInsert rgn base size).region j = rgn.region j)
      ∧ (∀ j, pos ≤ j → j < rgn.cnt → base < (rgn.region j).base ∧ (lmbInsert rgn base size).region (j + 1)
        = rgn.region j)
      ∧ (0 < pos → (rgn.region (pos - 1)).base ≤ base)
      ∧ (0 < pos → (lmbInsert rgn base size).region 0
        = if base < (rgn.region 0).base then { base, size } else rgn.region 0) := by
  have ⟨pos, hle, hbelow, habove, hnew, hfirst⟩ := lmbInsertLoop_region rgn base size rgn.cnt
  refine ⟨pos, hle, ?_⟩
  unfold lmbInsert
  dsimp only
  cases pos with
  | zero =>
    have hlt := (habove 0 (by omega) hpos).1
    rw [hfirst rfl, if_pos hlt]
    refine ⟨set_region_self .., ?_, ?_, ?_, ?_⟩
    . intro j _ hj
      omega
    . intro j hj hn
      exact habove j hj hn
    . intro h
      omega
    . intro h
      omega
  | succ pos =>
    have hnew := hnew pos rfl
    have hzero := hbelow 0 (by omega)
    have hset (j : Nat) (hj : 0 < j)
        : (if base < ((lmbInsertLoop rgn base size rgn.cnt).region 0).base then
            (lmbInsertLoop rgn base size rgn.cnt).set 0 { base, size }
          else lmbInsertLoop rgn base size rgn.cnt).region j = (lmbInsertLoop rgn base size rgn.cnt).region j := by
      split
      . rw [set_region_of_ne _ _ (by omega)]
      . rfl
    refine ⟨?_, ?_, ?_, ?_, ?_⟩
    . rw [hset _ (by omega)]
      exact hnew.2
    . intro j hj hlt
      rw [hset _ hj]
      exact hbelow j hlt
    . intro j hj hn
      rw [hset _ (by omega)]
      exact habove j hj hn
    . intro _
      exact hnew.1
    intro _
    rw [hzero]
    split
    . rw [set_region_self]
    . exact hzero

lemma extend_eq (h : NoWrap rgn) (htouch : FirstTouch rgn base size k) (hne : rgn.region k ≠ ⟨base, size⟩)
    (hbase : base < 2 ^ 64) (hsize : size < 2 ^ 64)
    : ((rgn.region k).base = add base size ∧ (extend base size (rgn.region k)).base = base
        ∨ base = (rgn.region k).base + (rgn.region k).size
          ∧ (extend base size (rgn.region k)).base = (rgn.region k).base)
      ∧ (extend base size (rgn.region k)).size = add (rgn.region k).size size := by
  have hlt := h.end_lt k htouch.lt
  unfold extend
  split
  next hfront =>
    refine ⟨.inl ⟨hfront, ?_⟩, rfl⟩
    dsimp only
    rw [hfront]
    unfold add sub
    omega
  next hfront =>
  refine ⟨.inr ⟨?_, rfl⟩, rfl⟩
  rcases htouch.touches with hsame | hfront' | hback
  . contradiction
  . contradiction
  . rw [add_eq hlt] at hback
    exact hback

def shift (rgn : LmbRegion) (base size k j : Nat) : Nat := if JoinsNext rgn base size k ∧ k < j then j + 1 else j

lemma shift_strictMono (rgn : LmbRegion) (base size k : Nat) : StrictMono (shift rgn base size k) := by
  intro i j hij
  unfold shift
  split
  . next h =>
    rw [if_pos ⟨h.1, by omega⟩]
    omega
  split
  . omega
  . exact hij

lemma merged_region (rgn : LmbRegion) (base size : Nat) {k : Nat} (hk : k < rgn.cnt)
    : k < (merged rgn base size k).cnt
      ∧ (merged rgn base size k).region k = joined rgn base size k
      ∧ ∀ j < (merged rgn base size k).cnt, j ≠ k →
        shift rgn base size k j < rgn.cnt ∧ shift rgn base size k j ≠ k
          ∧ (JoinsNext rgn base size k → shift rgn base size k j ≠ k + 1)
          ∧ (merged rgn base size k).region j = rgn.region (shift rgn base size k j) := by
  unfold merged shift
  split
  next hjoin =>
    have hlt := hjoin.1
    refine ⟨?_, ?_, ?_⟩
    . change k < rgn.cnt - 1
      omega
    . rw [removed_region_of_lt (lt_succ_self k), set_region_self]
    intro j hj hjk
    change j < rgn.cnt - 1 at hj
    by_cases hlt' : j < k
    . rw [if_neg (fun h => by omega)]
      refine ⟨by omega, hjk, by omega, ?_⟩
      rw [removed_region_of_lt (by omega), set_region_of_ne _ _ hjk]
    rw [if_pos ⟨hjoin, by omega⟩]
    refine ⟨by omega, by omega, by omega, ?_⟩
    have hregion := @removed_region_of_ge (rgn.set k (joined rgn base size k)) (k + 1) j (by omega) hj
    rw [hregion, set_region_of_ne _ _ (by omega)]
  next hjoin =>
  refine ⟨hk, set_region_self .., ?_⟩
  intro j hj hjk
  rw [if_neg (fun h => hjoin h.1)]
  refine ⟨hj, hjk, ?_, set_region_of_ne _ _ hjk⟩
  intro h
  contradiction

lemma exists_merged_region {j : Nat} (hj : j < rgn.cnt) (hjk : j ≠ k) (hjk' : JoinsNext rgn base size k → j ≠ k + 1)
    : ∃ i < (merged rgn base size k).cnt, i ≠ k ∧ (merged rgn base size k).region i = rgn.region j := by
  unfold merged
  split
  next hjoin =>
    have hlt := hjoin.1
    have hjk' := hjk' hjoin
    by_cases hlt' : j < k
    . refine ⟨j, ?_, hjk, ?_⟩
      . change j < rgn.cnt - 1
        omega
      . rw [removed_region_of_lt (by omega), set_region_of_ne _ _ hjk]
    refine ⟨j - 1, ?_, by omega, ?_⟩
    . change j - 1 < rgn.cnt - 1
      omega
    . have hregion := @removed_region_of_ge (rgn.set k (joined rgn base size k)) (k + 1) (j - 1) (by omega)
        (by change j - 1 < rgn.cnt - 1; omega)
      rw [hregion, Nat.sub_add_cancel (by omega), set_region_of_ne _ _ hjk]
  next => exact ⟨j, hj, hjk, set_region_of_ne _ _ hjk⟩

end Lmb

end UBoot
