import MarvellBoot.UBoot.Lmb.Lemmas.Free
import MarvellBoot.UBoot.Lmb.Lemmas.Search

namespace UBoot.Lmb

open LmbRegion Size Nat LmbProperty

variable {p : LmbProperty} {addr maxAddr : Nat}

lemma disjoint_range_iff {q : LmbProperty}
    : Disjoint p.range q.range ↔ min (p.base + p.size) (q.base + q.size) ≤ max p.base q.base :=
  Set.Ico_disjoint_Ico

section

variable {k : Nat} (hk : k < 64)

include hk

lemma lmbAlignDown_eq (h : addr < 2 ^ 64) : lmbAlignDown addr (2 ^ k) = addr / 2 ^ k * 2 ^ k := by
  have hpow : 2 ^ k < 2 ^ 64 := Nat.pow_lt_pow_right (by omega) hk
  have hpos : 1 ≤ 2 ^ k := Nat.two_pow_pos k
  unfold lmbAlignDown
  rw [sub_eq hpos hpow, and_compl_mask h hk]

lemma dvd_lmbAlignDown (h : addr < 2 ^ 64) : 2 ^ k ∣ lmbAlignDown addr (2 ^ k) := by
  rw [lmbAlignDown_eq hk h]
  exact Nat.dvd_mul_left _ _

lemma lmbAlignUp_spec {size : Nat} (hsize : size + 2 ^ k ≤ 2 ^ 64)
    : 2 ^ k ∣ lmbAlignUp size (2 ^ k) ∧ size ≤ lmbAlignUp size (2 ^ k) ∧ lmbAlignUp size (2 ^ k) < size + 2 ^ k := by
  have hpow : 2 ^ k < 2 ^ 64 := Nat.pow_lt_pow_right (by omega) hk
  have hpos : 1 ≤ 2 ^ k := Nat.two_pow_pos k
  unfold lmbAlignUp
  rw [sub_eq hpos hpow, add_eq (by omega), lmbAlignDown_eq hk (by omega)]
  have hlt := lt_div_mul_add (a := size + (2 ^ k - 1)) hpos
  have hle := Nat.div_mul_le_self (size + (2 ^ k - 1)) (2 ^ k)
  exact ⟨Nat.dvd_mul_left _ _, by omega, by omega⟩

structure Fitting (p : LmbProperty) (size k maxAddr base : Nat) : Prop where
  dvd : 2 ^ k ∣ base
  end_le : base + size ≤ p.base + p.size
  le_max : maxAddr ≠ 0 → base + size ≤ maxAddr

lemma fitting_of_start {size start : Nat} (hp : p.base + p.size < 2 ^ 64)
    (hmax : maxAddr = 0 ∨ size ≤ maxAddr) (h : lmbAllocStart p size (2 ^ k) maxAddr = some start)
    : Fitting p size k maxAddr start := by
  unfold lmbAllocStart lmbAllocAnywhere at h
  split at h
  . contradiction
  next hsize =>
  split at h
  next hany =>
    cases h
    rw [add_eq hp, sub_eq (by omega) hp]
    have hle := lmbAlignDown_le (p.base + p.size - size) (2 ^ k)
    refine ⟨dvd_lmbAlignDown hk (by omega), by omega, ?_⟩
    intro hne
    contradiction
  next hany =>
  split at h
  next hlt =>
    cases h
    rw [add_eq hp, if_neg (by omega), sub_eq (by omega) (by omega)]
    have hle := lmbAlignDown_le (min (p.base + p.size) maxAddr - size) (2 ^ k)
    refine ⟨dvd_lmbAlignDown hk (by omega), by omega, ?_⟩
    intro _
    omega
  next => contradiction

lemma fitting_next {reserved : LmbRegion} {size base j : Nat} (h : NoWrap reserved)
    (hbase : Fitting p size k maxAddr base)
    (hj : lmbOverlapsRegion reserved base size = some j) (hge : size ≤ (reserved.region j).base)
    : Fitting p size k maxAddr (lmbAlignDown (sub (reserved.region j).base size) (2 ^ k)) := by
  obtain ⟨hnext, hlt⟩ := @next_lt _ _ _ j (2 ^ k) h hj hge
  have hadd := add_le base size
  have hend := h.end_lt j (by have := (lmbOverlapsLoop_spec hj).1; omega)
  have hbelow := hbase.end_le
  refine ⟨?_, by omega, ?_⟩
  . apply dvd_lmbAlignDown hk
    rw [sub_eq hge (by omega)]
    omega
  . intro hmax
    have := hbase.le_max hmax
    omega

end

section

variable {lmb : UBoot.Lmb} {size k : Nat}

/-- An address is looked for in the region. -/
def Tried (p : LmbProperty) (size maxAddr : Nat) : Prop :=
  size ≤ p.size ∧ (maxAddr = lmbAllocAnywhere ∨ p.base < maxAddr)

lemma tried_of_start {align start : Nat} (h : lmbAllocStart p size align maxAddr = some start)
    : Tried p size maxAddr := by
  unfold lmbAllocStart at h
  unfold Tried
  grind

/--
A region that is tried ends at least `align` below the end of the address space, so that a size rounded up does not
reach it, and the limit is not below the size; no reserved region reaches the end and their table has not been emptied.
-/
structure Roomy (lmb : UBoot.Lmb) (size k maxAddr : Nat) : Prop where
  align : k < 64
  memory : ∀ i < lmb.memory.cnt, Tried (lmb.memory.region i) size maxAddr →
    (lmb.memory.region i).base + (lmb.memory.region i).size + 2 ^ k ≤ 2 ^ 64
      ∧ (maxAddr = lmbAllocAnywhere ∨ size ≤ maxAddr)
  reserved : NoWrap lmb.reserved
  reserved_ne : lmb.reserved.cnt ≠ 0

structure Placed (lmb : UBoot.Lmb) (size k maxAddr base : Nat) : Prop where
  inside : ∃ i < lmb.memory.cnt, Tried (lmb.memory.region i) size maxAddr ∧ (lmb.memory.region i).base ≤ base
    ∧ Fitting (lmb.memory.region i) size k maxAddr base
  ne_zero : base ≠ 0
  free : lmbOverlapsRegion lmb.reserved base size = none

lemma lmbAllocLoop_spec (h : Roomy lmb size k maxAddr) {n : Nat} (hn : n ≤ lmb.memory.cnt)
    : lmbAllocLoop lmb size (2 ^ k) maxAddr n = some (0, lmb)
      ∨ ∃ base, Placed lmb size k maxAddr base
        ∧ lmbAllocLoop lmb size (2 ^ k) maxAddr n = lmbAllocTake lmb size (2 ^ k) base := by
  induction n with
  | zero => exact .inl rfl
  | succ n ih =>
    have ih := ih (by omega)
    rw [lmbAllocLoop]
    cases hstart : lmbAllocStart (lmb.memory.region n) size (2 ^ k) maxAddr with
    | none => exact ih
    | some start =>
      have htried := tried_of_start hstart
      have ⟨hmem, hlimit⟩ := h.memory n (by omega) htried
      have hpos := Nat.two_pow_pos k
      have hfit := fitting_of_start h.align (by omega) hlimit hstart
      obtain ⟨res, hsearch, hfound⟩ := lmbAllocSearch_spec h.reserved
        (fun _ _ hbase hj hge => fitting_next h.align h.reserved hbase hj hge) (Nat.lt_succ_self start) hfit
      dsimp only
      rw [hsearch]
      cases res with
      | none => exact ih
      | some base =>
        have hbase := hfound base rfl
        exact .inr ⟨base, ⟨⟨n, by omega, htried, hbase.ge, hbase.inv⟩, hbase.ne_zero, hbase.free⟩, rfl⟩

lemma Placed.size_add_le {base : Nat} (hplaced : Placed lmb size k maxAddr base) (h : Roomy lmb size k maxAddr)
    : size + 2 ^ k ≤ 2 ^ 64 := by
  obtain ⟨i, hi, htried, _, hfit⟩ := hplaced.inside
  have hmem := (h.memory i hi htried).1
  have hend := hfit.end_le
  omega

lemma Placed.rounded {base : Nat} (hplaced : Placed lmb size k maxAddr base) (h : Roomy lmb size k maxAddr)
    : base + size < 2 ^ 64 ∧ size ≤ lmbAlignUp size (2 ^ k) ∧ base + lmbAlignUp size (2 ^ k) < 2 ^ 64 := by
  obtain ⟨i, hi, htried, _, hfit⟩ := hplaced.inside
  have hmem := (h.memory i hi htried).1
  have hend := hfit.end_le
  have hpos := Nat.two_pow_pos k
  obtain ⟨_, hle, hlt⟩ := lmbAlignUp_spec h.align (hplaced.size_add_le h)
  exact ⟨by omega, hle, by omega⟩

end

section

variable {rgn : LmbRegion} {base size rounded i k : Nat}

lemma disjoint_of_free (h : NoWrap rgn) (hend : base + size < 2 ^ 64) (hfree : lmbOverlapsRegion rgn base size = none)
    (hi : i < rgn.cnt) : Disjoint (rgn.region i).range (LmbProperty.mk base size).range := by
  have hover := lmbOverlapsLoop_eq_none_iff.mp hfree i (by omega) (by omega)
  have hlt := h.end_lt i hi
  unfold lmbAddrsOverlap at hover
  rw [decide_eq_false_iff_not, add_eq hlt, add_eq hend] at hover
  rw [disjoint_range_iff]
  dsimp only
  omega

def Covered (rgn : LmbRegion) (base size : Nat) : Prop :=
  ∀ a, base ≤ a → a < base + size → ∃ i < rgn.cnt, a ∈ (rgn.region i).range

lemma covered_of_entry (hi : i < rgn.cnt) (hp : rgn.region i = p) (hle : p.base ≤ base)
    (hge : base + size ≤ p.base + p.size) : Covered rgn base size := by
  intro a ha hlt
  refine ⟨i, hi, ?_⟩
  rw [hp, mem_range]
  omega

structure Full (rgn : LmbRegion) (base size : Nat) : Prop where
  cnt_eq : rgn.cnt = maxLmbRegions
  apart : ∀ j < rgn.cnt, ¬Touches base size (rgn.region j)

end

section

variable {rgn : LmbRegion} {base size rounded k : Nat}

lemma joined_base_le (h : NoWrap rgn) (htouch : FirstTouch rgn base rounded k) (hne : rgn.region k ≠ ⟨base, rounded⟩)
    (hbase : base < 2 ^ 64) (hrounded : rounded < 2 ^ 64) : (joined rgn base rounded k).base ≤ base := by
  have ⟨hcases, _⟩ := extend_eq h htouch hne hbase hrounded
  have heq : (joined rgn base rounded k).base = (extend base rounded (rgn.region k)).base := by
    unfold joined
    split
    . rfl
    . rfl
  omega

lemma joined_end_ge (h : NoWrap rgn) (htouch : FirstTouch rgn base rounded k) (hne : rgn.region k ≠ ⟨base, rounded⟩)
    (hsize : size ≤ rounded) (hend : base + rounded < 2 ^ 64)
    : base + size ≤ (joined rgn base rounded k).base + (joined rgn base rounded k).size := by
  have hlt := h.end_lt k htouch.lt
  have ⟨hcases, hsum⟩ := extend_eq h htouch hne (by omega) (by omega)
  rw [add_eq hend] at hcases
  unfold joined
  split
  next hjoin =>
    have hlt' := h.end_lt (k + 1) hjoin.1
    have hadj := hjoin.2
    unfold nextAdjacent lmbAddrsAdjacent at hadj
    dsimp only at hadj ⊢
    rw [hsum]
    rw [hsum, add_eq hlt'] at hadj
    generalize (extend base rounded (rgn.region k)).base = e at *
    generalize rgn.region k = p at *
    have hp : add p.size rounded = p.size + rounded := add_eq (by omega)
    have he : add e (p.size + rounded) = e + (p.size + rounded) := add_eq (by omega)
    rw [hp, he] at hadj
    rw [hp, add_eq (by omega)]
    omega
  next =>
  dsimp only
  have hp : add (rgn.region k).size rounded = (rgn.region k).size + rounded := add_eq (by omega)
  omega

section

variable (h : NoWrap rgn) (hcnt : rgn.cnt ≠ 0) (hle : size ≤ rounded) (hlt : base + rounded < 2 ^ 64)

include h hle hlt

lemma merged_covers (hdummy : ¬IsDummy rgn) (htouch : FirstTouch rgn base rounded k)
    (hne : rgn.region k ≠ ⟨base, rounded⟩)
    : ∃ ret rgn', lmbAddRegion rgn base rounded = some (ret, rgn') ∧ Covered rgn' base size := by
  obtain ⟨ret, hres, _⟩ := lmbAddRegion_of_touch h.cnt_le hdummy htouch hne
  obtain ⟨hk, hself, _⟩ := merged_region rgn base rounded htouch.lt
  exact ⟨ret, _, hres, covered_of_entry hk hself (joined_base_le h htouch hne (by omega) (by omega))
    (joined_end_ge h htouch hne hle hlt)⟩

include hcnt

lemma lmbAddRegion_covers (hsize : 0 < size) (hfree : lmbOverlapsRegion rgn base size = none)
    (hfull : ¬Full rgn base rounded)
    : ∃ ret rgn', lmbAddRegion rgn base rounded = some (ret, rgn') ∧ Covered rgn' base size := by
  by_cases hdummy : IsDummy rgn
  . rw [lmbAddRegion_of_dummy hdummy]
    refine ⟨0, _, rfl, covered_of_entry (i := 0) ?_ (set_region_self ..) le_rfl ?_⟩
    . rw [set_cnt]
      omega
    . dsimp only
      omega
  cases exists_firstTouch_or rgn base rounded rgn.cnt with
  | inl htouch =>
    obtain ⟨k, hk, htouches, hbefore⟩ := htouch
    apply merged_covers h hle hlt hdummy ⟨hk, htouches, hbefore⟩
    intro heq
    have hdisj := disjoint_of_free h (by omega) hfree hk
    rw [heq, disjoint_range_iff] at hdisj
    dsimp only at hdisj
    omega
  | inr hapart =>
    have hroom : rgn.cnt < maxLmbRegions := by
      have := h.cnt_le
      by_contra hnot
      exact hfull ⟨by omega, hapart⟩
    obtain ⟨pos, hpos, hnew, _⟩ := @lmbInsert_regions rgn base rounded (by omega)
    rw [lmbAddRegion_of_apart (by omega) hroom hdummy hapart]
    refine ⟨0, _, rfl, covered_of_entry ?_ hnew le_rfl ?_⟩
    . rw [lmbInsert_cnt hroom]
      omega
    . dsimp only
      omega

end

end

section

variable {lmb : UBoot.Lmb} {size align base : Nat}

lemma lmbAllocTake_of_full (h : NoWrap lmb.reserved) (hfull : Full lmb.reserved base (lmbAlignUp size align))
    : lmbAllocTake lmb size align base = some (0, lmb) := by
  have ⟨hadd, hneg⟩ := (lmbAddRegion_neg_iff h.cnt_le).mpr ⟨rfl, rfl, hfull.cnt_eq, hfull.apart⟩
  unfold lmbAllocTake
  rw [hadd]
  rfl

lemma lmbAllocTake_of_not_full (h : NoWrap lmb.reserved) (hfull : ¬Full lmb.reserved base (lmbAlignUp size align))
    : lmbAllocTake lmb size align base
      = (lmbAddRegion lmb.reserved base (lmbAlignUp size align)).map fun res =>
        (base, { lmb with reserved := res.2 }) := by
  unfold lmbAllocTake
  cases hadd : lmbAddRegion lmb.reserved base (lmbAlignUp size align) with
  | none => rfl
  | some res =>
    have hret : ¬res.1 < 0 := by
      intro hneg
      have ⟨_, _, hcnt, hapart⟩ := (lmbAddRegion_neg_iff h.cnt_le).mp ⟨hadd, hneg⟩
      exact hfull ⟨hcnt, hapart⟩
    dsimp only
    rw [if_neg hret]
    rfl

end

structure AllocOk (lmb lmb' : UBoot.Lmb) (size align maxAddr base : Nat) : Prop where
  dvd : align ∣ base
  noWrap : base + size ≤ 2 ^ 64
  inside : ∃ i < lmb.memory.cnt, (lmb.memory.region i).base ≤ base
    ∧ base + size ≤ (lmb.memory.region i).base + (lmb.memory.region i).size
  le_max : maxAddr ≠ 0 → base + size ≤ maxAddr
  apart : ∀ i < lmb.reserved.cnt, Disjoint (lmb.reserved.region i).range (Set.Ico base (base + size))
  covered : Covered lmb'.reserved base size

def Sample.ram (reserved : LmbProperty) : UBoot.Lmb where
  memory := (lmbInitRegion table).set 0 { base := 0x1000, size := 0x8000 }
  reserved := (lmbInitRegion table).set 0 reserved

lemma Sample.ram_noWrap {p : LmbProperty} (h : p.base + p.size < 2 ^ 64)
    : NoWrap (ram p).memory ∧ NoWrap (ram p).reserved := by
  have hone (q : LmbProperty) (hq : q.base + q.size < 2 ^ 64) : NoWrap ((lmbInitRegion table).set 0 q) := by
    constructor
    . change 1 ≤ 8
      decide
    intro i hi
    change i < 1 at hi
    rw [lt_one_iff] at hi
    rw [hi, set_region_self]
    exact hq
  exact ⟨hone _ (by decide), hone _ h⟩

open Sample

lemma Sample.ram_roomy {p : LmbProperty} {size maxAddr : Nat} (h : p.base + p.size < 2 ^ 64)
    (hmax : maxAddr = 0 ∨ size ≤ maxAddr) : Roomy (ram p) size 12 maxAddr := by
  refine ⟨by decide, ?_, (ram_noWrap h).2, Nat.one_ne_zero⟩
  intro i hi _
  change i < 1 at hi
  rw [lt_one_iff] at hi
  rw [hi]
  have hend : 0x1000 + 0x8000 + 2 ^ 12 ≤ 2 ^ 64 := by decide
  exact ⟨hend, hmax⟩

end UBoot.Lmb
