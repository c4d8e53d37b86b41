import MarvellBoot.UBoot.Pci.Impl

namespace UBoot.Pci

open BitVec Nat

variable {w : Nat} (x : BitVec w)

def alignUp (x n : Nat) : Nat := (x + n - 1) / n * n

def position (busLower : BitVec w) : Nat := if busLower = 0 then 2 ^ w else busLower.toNat

lemma le_alignUp {x n : Nat} (hn : 0 < n) : x ≤ alignUp x n := by
  unfold alignUp
  have := div_add_mod (x + n - 1) n
  have := mod_lt (x + n - 1) hn
  rw [mul_comm]
  omega

lemma alignUp_lt {x n : Nat} (hn : 0 < n) : alignUp x n < x + n := by
  unfold alignUp
  have := div_mul_le_self (x + n - 1) n
  omega

lemma dvd_alignUp (x n : Nat) : n ∣ alignUp x n := dvd_mul_left n _

lemma alignUp_le {x n m : Nat} (hn : 0 < n) (hx : x ≤ m) (hm : n ∣ m) : alignUp x n ≤ m := by
  obtain ⟨q, hq⟩ := hm
  obtain ⟨p, hp⟩ := dvd_alignUp x n
  have hlt := @alignUp_lt x n hn
  rw [hp] at hlt ⊢
  subst hq
  apply Nat.mul_le_mul_left
  by_contra hne
  have : n * (q + 1) ≤ n * p := mul_le_mul_left _ (by omega)
  rw [Nat.mul_add] at this
  omega

lemma or_two_pow_sub_one (x k : Nat) : x ||| (2 ^ k - 1) = 2 ^ k * (x / 2 ^ k) + (2 ^ k - 1) := by
  have hpos := Nat.two_pow_pos k
  apply Nat.eq_of_testBit_eq
  intro i
  rw [Nat.testBit_or, Nat.testBit_two_pow_sub_one, Nat.testBit_two_pow_mul_add _ (by omega)]
  split
  . next h =>
    rw [Nat.testBit_two_pow_sub_one, decide_eq_true h, Bool.or_true]
  next h =>
  rw [decide_eq_false h, Bool.or_false, Nat.testBit_div_two_pow]
  congr 1
  omega

lemma position_pos : 0 < position x := by
  unfold position
  split
  . exact Nat.two_pow_pos w
  . next h =>
    have : x.toNat ≠ 0 := fun h0 => h (eq_of_toNat_eq (by simpa using h0))
    omega

lemma position_le : position x ≤ 2 ^ w := by
  unfold position
  split
  . exact le_rfl
  . exact le_of_lt x.isLt

lemma toNat_sub_one (hw : 0 < w) : (x - 1).toNat = position x - 1 := by
  have hone : (1 : BitVec w).toNat = 1 := by
    exact Nat.mod_eq_of_lt (Nat.one_lt_two_pow (by omega))
  rw [toNat_sub, hone]
  unfold position
  split
  . next h =>
    rw [h]
    simp
  next h =>
  have : x.toNat ≠ 0 := fun h0 => h (eq_of_toNat_eq (by simpa using h0))
  rw [show 2 ^ w - 1 + x.toNat = x.toNat - 1 + 2 ^ w by omega, add_mod_right]
  exact mod_eq_of_lt (by omega)

def sizeOf (w k : Nat) : BitVec w := BitVec.ofNat w (2 ^ k)

section

variable {k : Nat}

lemma toNat_sizeOf (hk : k < w) : (sizeOf w k).toNat = 2 ^ k := by
  exact Nat.mod_eq_of_lt (Nat.pow_lt_pow_right (by omega) hk)

lemma position_sizeOf (hk : k < w) : position (sizeOf w k) = 2 ^ k := by
  unfold position
  rw [if_neg, toNat_sizeOf hk]
  intro h
  have := congrArg BitVec.toNat h
  rw [toNat_sizeOf hk] at this
  simp at this

lemma toNat_roundUp (hk : k < w)
    : (((x - 1) ||| (sizeOf w k - 1)) + 1).toNat = alignUp (position x) (2 ^ k) % 2 ^ w := by
  have hpos := position_pos x
  have htwo := Nat.two_pow_pos k
  have hone : (1 : BitVec w).toNat = 1 := by
    exact Nat.mod_eq_of_lt (Nat.one_lt_two_pow (by omega))
  rw [toNat_add, toNat_or, toNat_sub_one x (by omega), toNat_sub_one _ (by omega), position_sizeOf hk,
    or_two_pow_sub_one, hone]
  congr 1
  unfold alignUp
  rw [show position x + 2 ^ k - 1 = position x - 1 + 2 ^ k by omega, Nat.add_div_right _ htwo, Nat.succ_mul,
    Nat.mul_comm]
  omega

lemma alignUp_le_two_pow (hk : k < w) : alignUp (position x) (2 ^ k) ≤ 2 ^ w :=
  alignUp_le (Nat.two_pow_pos k) (position_le x) (Nat.pow_dvd_pow 2 (by omega))

lemma position_of_toNat {x : BitVec w} {a : Nat} (h : x.toNat = a % 2 ^ w) (hpos : 0 < a) (hle : a ≤ 2 ^ w)
    : position x = a := by
  unfold position
  by_cases heq : a = 2 ^ w
  . rw [if_pos, heq]
    apply eq_of_toNat_eq
    rw [h, heq, mod_self]
    simp
  rw [mod_eq_of_lt (by omega)] at h
  rw [if_neg, h]
  intro h0
  rw [h0] at h
  simp at h
  omega

end

def PciRegion.stop (res : PciRegion w) : Nat := res.busStart.toNat + res.size.toNat

/--
The first multiple of the size from `busLower` on ends before the address space does, or so far behind it that the
region cannot seem to have room.
-/
def NoWrap (res : PciRegion w) (k : Nat) : Prop :=
  ∀ a, position res.busLower ≤ a → a < position res.busLower + 2 ^ k → 2 ^ k ∣ a →
    a + 2 ^ k < 2 ^ w + res.busStart.toNat ∨ 2 ^ w + res.stop < a + 2 ^ k

structure Valid (res : PciRegion w) : Prop where
  stop_le : res.stop ≤ 2 ^ w
  start_le : res.busStart.toNat ≤ position res.busLower

section

variable {k : Nat} {res res' : PciRegion w} {addr : BitVec w}

lemma pciautoRegionInit_valid (hstop : res.stop ≤ 2 ^ w) : Valid (pciautoRegionInit res) := by
  refine ⟨hstop, ?_⟩
  unfold pciautoRegionInit position
  by_cases h : res.busStart = 0
  . rw [h]
    simp
  . rw [if_pos h, if_neg h]

lemma pciautoRegionAlign_position (hk : k < w)
    : position (pciautoRegionAlign res (sizeOf w k)).busLower = alignUp (position res.busLower) (2 ^ k) := by
  have := position_pos res.busLower
  have := @le_alignUp (position res.busLower) _ (Nat.two_pow_pos k)
  exact position_of_toNat (toNat_roundUp res.busLower hk) (by omega) (alignUp_le_two_pow res.busLower hk)

structure Placed (res : PciRegion w) (k : Nat) (addr : BitVec w) (res' : PciRegion w) : Prop where
  dvd : 2 ^ k ∣ addr.toNat
  position_le : position res.busLower ≤ addr.toNat
  add_le : addr.toNat + 2 ^ k ≤ res.stop
  position_eq : position res'.busLower = addr.toNat + 2 ^ k
  same : res'.busStart = res.busStart ∧ res'.size = res.size

lemma dvd_addr (hk : k < w) (h : pciautoRegionAllocate res (sizeOf w k) = some (addr, res')) : 2 ^ k ∣ addr.toNat := by
  unfold pciautoRegionAllocate at h
  dsimp only at h
  split at h
  . contradiction
  . cases h
    rw [toNat_roundUp res.busLower hk]
    exact (dvd_mod_iff (pow_dvd_pow 2 (by omega))).mpr (dvd_alignUp _ _)

lemma toNat_filled {x start size : BitVec w} {a : Nat} (hx : x.toNat = a % 2 ^ w) (hstart : start.toNat ≤ a)
    : (x - start + size).toNat = (a + size.toNat - start.toNat) % 2 ^ w := by
  rw [toNat_add, toNat_sub, hx, add_mod_mod, mod_add_mod,
    show 2 ^ w - start.toNat + a + size.toNat = a + size.toNat - start.toNat + 2 ^ w by omega, add_mod_right]

lemma pciautoRegionAllocate_placed (hk : k < w) (hvalid : Valid res) (hwrap : NoWrap res k)
    (h : pciautoRegionAllocate res (sizeOf w k) = some (addr, res')) : Placed res k addr res' := by
  have htwo := Nat.two_pow_pos k
  have hle := @le_alignUp (position res.busLower) _ htwo
  have hlt := @alignUp_lt (position res.busLower) _ htwo
  have hcond := hwrap (alignUp (position res.busLower) (2 ^ k)) hle hlt (dvd_alignUp _ _)
  have hend := alignUp_le_two_pow res.busLower hk
  have haddr := toNat_roundUp res.busLower hk
  have hdvd := dvd_addr hk h
  have hstart := hvalid.start_le
  have hstop := hvalid.stop_le
  have hpow : 2 ^ k < 2 ^ w := Nat.pow_lt_pow_right (by omega) hk
  have hfilled := @toNat_filled w _ _ (sizeOf w k) _ haddr (Nat.le_trans hstart hle)
  unfold pciautoRegionAllocate at h
  dsimp only at h
  generalize res.busLower - 1 ||| sizeOf w k - 1 = y at h haddr hfilled
  generalize alignUp (position res.busLower) (2 ^ k) = a at *
  unfold PciRegion.stop at hcond hstop
  split at h
  . contradiction
  next hroom =>
  rw [gt_iff_lt, lt_def, hfilled, toNat_sizeOf hk] at hroom
  -- the sum has not wrapped, otherwise it would be at most the size of the region
  have hnowrap : a + 2 ^ k - res.busStart.toNat < 2 ^ w := by
    by_contra hge
    rw [Nat.mod_eq_sub_mod (by omega), Nat.mod_eq_of_lt (by omega)] at hroom
    omega
  rw [Nat.mod_eq_of_lt hnowrap] at hroom
  cases h
  rw [Nat.mod_eq_of_lt (by omega)] at haddr
  have hlower : (y + 1 + sizeOf w k).toNat = (a + 2 ^ k) % 2 ^ w := by
    rw [toNat_add, haddr, toNat_sizeOf hk]
  refine ⟨hdvd, ?_, ?_, ?_, rfl, rfl⟩
  . rw [haddr]
    exact hle
  . rw [haddr]
    unfold PciRegion.stop
    omega
  . rw [haddr]
    exact position_of_toNat hlower (by omega) (by omega)

lemma Placed.valid (h : Placed res k addr res') (hvalid : Valid res) : Valid res' := by
  have hstart := hvalid.start_le
  have hstop := hvalid.stop_le
  have hpos := h.position_le
  have htwo := Nat.two_pow_pos k
  refine ⟨?_, ?_⟩
  . unfold PciRegion.stop
    rw [h.same.1, h.same.2]
    exact hstop
  . rw [h.same.1, h.position_eq]
    omega

end

/--
The calls on a region since `pciauto_region_init`, with the ranges that were got. A call that fails changes nothing. `P`
is the condition for a call that allocates.
-/
inductive Trace (P : PciRegion w → Nat → Prop) (res₀ : PciRegion w) : PciRegion w → List (Nat × Nat) → Prop where
  | init : Trace P res₀ (pciautoRegionInit res₀) []
  | align {res : PciRegion w} {l : List (Nat × Nat)} {k : Nat} : Trace P res₀ res l → k < w →
      Trace P res₀ (pciautoRegionAlign res (sizeOf w k)) l
  | allocate {res res' : PciRegion w} {l : List (Nat × Nat)} {k : Nat} {addr : BitVec w} : Trace P res₀ res l → k < w →
      P res k → pciautoRegionAllocate res (sizeOf w k) = some (addr, res') →
      Trace P res₀ res' ((addr.toNat, 2 ^ k) :: l)

def Disjoint (x y : Nat × Nat) : Prop := x.1 + x.2 ≤ y.1 ∨ y.1 + y.2 ≤ x.1

def InRegion (res : PciRegion w) (x : Nat × Nat) : Prop := x.2 ∣ x.1 ∧ res.busStart.toNat ≤ x.1 ∧ x.1 + x.2 ≤ res.stop

structure Inv (res₀ res : PciRegion w) (l : List (Nat × Nat)) : Prop where
  same : res.busStart = res₀.busStart ∧ res.size = res₀.size
  valid : Valid res
  inRegion : ∀ x ∈ l, InRegion res₀ x
  le_position : ∀ x ∈ l, x.1 + x.2 ≤ position res.busLower
  disjoint : l.Pairwise Disjoint

lemma Trace.inv {res₀ res : PciRegion w} {l : List (Nat × Nat)} (hstop : res₀.stop ≤ 2 ^ w) (h : Trace NoWrap res₀ res l)
    : Inv res₀ res l := by
  induction h with
  | init =>
    refine ⟨⟨rfl, rfl⟩, pciautoRegionInit_valid hstop, ?_, ?_, List.Pairwise.nil⟩
    . intro x hx
      contradiction
    . intro x hx
      contradiction
  | @align res l k _ hk ih =>
    have hpos := @pciautoRegionAlign_position w k res hk
    have hle := @le_alignUp (position res.busLower) _ (Nat.two_pow_pos k)
    have hstart := ih.valid.start_le
    refine ⟨ih.same, ⟨ih.valid.stop_le, ?_⟩, ih.inRegion, ?_, ih.disjoint⟩
    . rw [hpos]
      exact le_trans hstart hle
    . intro x hx
      rw [hpos]
      exact le_trans (ih.le_position x hx) hle
  | @allocate res res' l k addr _ hk hwrap halloc ih =>
    have hplaced := pciautoRegionAllocate_placed hk ih.valid hwrap halloc
    have hstop' : res.stop = res₀.stop := by
      unfold PciRegion.stop
      rw [ih.same.1, ih.same.2]
    refine ⟨?_, hplaced.valid ih.valid, ?_, ?_, ?_⟩
    . rw [hplaced.same.1, hplaced.same.2]
      exact ih.same
    . intro x hx
      rcases List.mem_cons.mp hx with rfl | hx
      . refine ⟨hplaced.dvd, ?_, ?_⟩
        . rw [← ih.same.1]
          exact le_trans ih.valid.start_le hplaced.position_le
        . rw [← hstop']
          exact hplaced.add_le
      . exact ih.inRegion x hx
    . intro x hx
      rw [hplaced.position_eq]
      rcases List.mem_cons.mp hx with rfl | hx
      . exact le_rfl
      . exact le_add_right_of_le (le_trans (ih.le_position x hx) hplaced.position_le)
    rw [List.pairwise_cons]
    refine ⟨?_, ih.disjoint⟩
    intro x hx
    have := ih.le_position x hx
    exact .inr (le_trans this hplaced.position_le)

end UBoot.Pci
