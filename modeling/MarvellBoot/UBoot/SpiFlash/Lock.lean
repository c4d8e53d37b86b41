import Mathlib

/-!
The block protection of `spi_flash.c` for flashes of STMicro and the like.
-/

namespace UBoot.Stm

open Nat

structure Flash where
  size : Nat
  eraseSize : Nat
  deriving Repr, DecidableEq

-- `SR_BP2 | SR_BP1 | SR_BP0`
def mask : BitVec 8 := 0x1c

def stmGetLockedRange (flash : Flash) (sr : BitVec 8) : Nat × Nat :=
  if sr &&& mask = 0 then
    (0, 0)
  else
    let pow := ((sr &&& mask) ^^^ mask) >>> 2
    let len := flash.size >>> pow.toNat
    (flash.size - len, len)

def stmIsLockedSr (flash : Flash) (ofs len : Nat) (sr : BitVec 8) : Bool :=
  let (lockOffs, lockLen) := stmGetLockedRange flash sr
  (ofs + len) % 2 ^ 64 ≤ lockOffs + lockLen ∧ lockOffs ≤ ofs

-- The value for `write_sr`, there is none on an error.
def stmLock (flash : Flash) (ofs len : Nat) (statusOld : BitVec 8) : Option (BitVec 8) :=
  if ofs + len ≠ flash.size ∧ stmIsLockedSr flash (ofs + len) (flash.size - ofs - len) statusOld = false then
    none
  else
    let len := flash.size - ofs
    let pow := BitVec.ofNat 8 (flash.size.log2 - len.log2)
    let val := mask - (pow <<< 2)
    if val &&& ~~~mask ≠ 0 then
      none
    else if val &&& mask = 0 then
      none
    else
      let statusNew := (statusOld &&& ~~~mask) ||| val
      if statusNew &&& mask ≤ statusOld &&& mask then none else some statusNew

def orderBase2 (n : Nat) : Nat := if n ≤ 1 then 0 else (n - 1).log2 + 1

def stmUnlock (flash : Flash) (ofs len : Nat) (statusOld : BitVec 8) : Option (BitVec 8) :=
  if stmIsLockedSr flash ((ofs + 2 ^ 32 - flash.eraseSize) % 2 ^ 32) flash.eraseSize statusOld then
    none
  else
    let pow := BitVec.ofNat 8 (flash.size.log2 - orderBase2 (flash.size - (ofs + len)))
    let val := if ofs + len = flash.size then 0#8 else mask - (pow <<< 2)
    if val &&& ~~~mask ≠ 0 then
      none
    else
      let statusNew := (statusOld &&& ~~~mask) ||| val
      if statusOld &&& mask ≤ statusNew &&& mask then none else some statusNew

-- The number in the bits `BP2`, `BP1` and `BP0`.
def bp (sr : BitVec 8) : Nat := (sr &&& mask).toNat / 4

-- The size of the protected area, which ends with the flash.
def protLen (size : Nat) (sr : BitVec 8) : Nat := if bp sr = 0 then 0 else size / 2 ^ (7 - bp sr)

def prot (size : Nat) (sr : BitVec 8) : Set Nat := Set.Ico (size - protLen size sr) size

lemma and_mask_eq_zero_iff (sr : BitVec 8) : sr &&& mask = 0 ↔ bp sr = 0 := by
  revert sr
  decide +kernel

lemma xor_mask (sr : BitVec 8) : (((sr &&& mask) ^^^ mask) >>> 2).toNat = 7 - bp sr := by
  revert sr
  decide +kernel

lemma and_mask_toNat (sr : BitVec 8) : (sr &&& mask).toNat = 4 * bp sr := by
  revert sr
  decide +kernel

lemma and_mask_le_iff (sr sr' : BitVec 8) : sr &&& mask ≤ sr' &&& mask ↔ bp sr ≤ bp sr' := by
  rw [BitVec.le_def, and_mask_toNat, and_mask_toNat]
  omega

variable {pow : Nat} (size : Nat)

lemma val_and_iff (h : pow < 32) : (mask - (BitVec.ofNat 8 pow <<< 2)) &&& ~~~mask = 0 ↔ pow ≤ 7 := by
  revert pow
  decide +kernel

lemma bp_statusNew (sr : BitVec 8) (h : pow ≤ 7)
    : bp ((sr &&& ~~~mask) ||| (mask - (BitVec.ofNat 8 pow <<< 2))) = 7 - pow := by
  have hall : ∀ sr : BitVec 8, ∀ pow < 8, bp ((sr &&& ~~~mask) ||| (mask - (BitVec.ofNat 8 pow <<< 2))) = 7 - pow := by
    decide +kernel
  exact hall sr pow (by omega)

section

variable {flash : Flash} {sr sr' : BitVec 8} {k ofs len : Nat}

lemma protLen_le (sr : BitVec 8) : protLen size sr ≤ size := by
  unfold protLen
  split
  . exact zero_le _
  . exact div_le_self _ _

lemma protLen_mono (h : bp sr ≤ bp sr') : protLen size sr ≤ protLen size sr' := by
  unfold protLen
  split
  . exact zero_le _
  . rw [if_neg (by omega)]
    exact Nat.div_le_div_left (Nat.pow_le_pow_right (by decide) (by omega)) (Nat.pow_pos (by decide))

lemma stmIsLockedSr_iff (hpos : 0 < ofs + len) (hlt : ofs + len < 2 ^ 64)
    : stmIsLockedSr flash ofs len sr = true
      ↔ bp sr ≠ 0 ∧ flash.size - protLen flash.size sr ≤ ofs ∧ ofs + len ≤ flash.size := by
  have hle := protLen_le flash.size sr
  unfold stmIsLockedSr stmGetLockedRange
  by_cases hbp : bp sr = 0
  . rw [if_pos ((and_mask_eq_zero_iff sr).mpr hbp)]
    simp [hbp]
    omega
  rw [if_neg (fun h => hbp ((and_mask_eq_zero_iff sr).mp h))]
  dsimp only
  rw [xor_mask, shiftRight_eq_div_pow]
  rw [protLen, if_neg hbp] at hle ⊢
  simp [hbp]
  omega

lemma protLen_eq_pow {e : Nat} (he : e ≤ k) (hpow : k - e ≤ 6) (hbp : bp sr = 7 - (k - e))
    : protLen (2 ^ k) sr = 2 ^ e := by
  rw [protLen, if_neg (by omega), Nat.pow_div (by omega) (by decide)]
  congr 1
  omega

lemma stmLock_spec (hsize : flash.size = 2 ^ k) (hk : k < 32) (hpos : 0 < len) (hin : ofs + len ≤ flash.size)
    (h : stmLock flash ofs len sr = some sr')
    : bp sr < bp sr' ∧ protLen flash.size sr' ≤ flash.size - ofs
      ∧ (ofs + len = flash.size ∨ flash.size - protLen flash.size sr ≤ ofs + len) := by
  have hlt : flash.size < 2 ^ 32 := by
    rw [hsize]
    exact Nat.pow_lt_pow_right (by decide) hk
  unfold stmLock at h
  split at h
  next => contradiction
  next hend =>
  have hlog : (flash.size - ofs).log2 ≤ k := by
    have hlt : (flash.size - ofs).log2 < k + 1 := by
      rw [log2_lt (by omega), pow_succ, ← hsize]
      omega
    omega
  have hle := log2_self_le (n := flash.size - ofs) (by omega)
  dsimp only at h
  rw [show flash.size.log2 = k by rw [hsize, log2_two_pow]] at h
  generalize (flash.size - ofs).log2 = e at h hlog hle
  split at h
  next => contradiction
  next hval =>
  rw [ne_eq, not_not, val_and_iff (by omega)] at hval
  have hbp := bp_statusNew sr hval
  split at h
  next => contradiction
  next hzero =>
  split at h
  next => contradiction
  next hgrows =>
  cases h
  rw [and_mask_le_iff, hbp] at hgrows
  refine ⟨by omega, ?_, ?_⟩
  . by_cases hpow : k - e ≤ 6
    . rw [hsize] at hle ⊢
      rw [protLen_eq_pow hlog hpow hbp]
      exact hle
    . rw [protLen, if_pos (by omega)]
      exact zero_le _
  by_cases heq : ofs + len = flash.size
  . exact .inl heq
  have hlocked : stmIsLockedSr flash (ofs + len) (flash.size - ofs - len) sr = true := by
    simpa [heq] using hend
  rw [stmIsLockedSr_iff (by omega) (by omega)] at hlocked
  exact .inr hlocked.2.1

lemma orderBase2_le_iff {n e : Nat} : orderBase2 n ≤ e ↔ n ≤ 2 ^ e := by
  have hpos : 0 < 2 ^ e := Nat.pow_pos (by decide)
  unfold orderBase2
  split
  . omega
  . rw [succ_le_iff, log2_lt (by omega)]
    omega

lemma stmUnlock_spec (hsize : flash.size = 2 ^ k) (hk : k < 32) (h : stmUnlock flash ofs len sr = some sr')
    : stmIsLockedSr flash ((ofs + 2 ^ 32 - flash.eraseSize) % 2 ^ 32) flash.eraseSize sr = false ∧ bp sr' < bp sr
      ∧ (ofs + len = flash.size ∨ k - orderBase2 (flash.size - (ofs + len)) ≤ 7
        ∧ bp sr' = 7 - (k - orderBase2 (flash.size - (ofs + len)))) := by
  unfold stmUnlock at h
  split at h
  next => contradiction
  next hlocked =>
  dsimp only at h
  rw [show flash.size.log2 = k by rw [hsize, log2_two_pow]] at h
  generalize hv : (if ofs + len = flash.size then 0#8
    else mask - (BitVec.ofNat 8 (k - orderBase2 (flash.size - (ofs + len))) <<< 2)) = val at h
  split at h
  next => contradiction
  next hval =>
  split at h
  next => contradiction
  next hshrinks =>
  cases h
  rw [and_mask_le_iff, not_le] at hshrinks
  refine ⟨by simpa using hlocked, hshrinks, ?_⟩
  by_cases hend : ofs + len = flash.size
  . exact .inl hend
  rw [if_neg hend] at hv
  rw [← hv, ne_eq, not_not, val_and_iff (by omega)] at hval
  rw [← hv]
  exact .inr ⟨hval, bp_statusNew sr hval⟩

def Locks (flash : Flash) (ofs len : Nat) (sr : BitVec 8) : Prop :=
  ∀ sr', stmLock flash ofs len sr = some sr' → prot flash.size sr ⊆ prot flash.size sr'
    ∧ prot flash.size sr' \ prot flash.size sr ⊆ Set.Ico ofs (ofs + len)

def Unlocks (flash : Flash) (ofs len : Nat) (sr : BitVec 8) : Prop :=
  ∀ sr', stmUnlock flash ofs len sr = some sr' → prot flash.size sr' ⊆ prot flash.size sr
    ∧ prot flash.size sr \ prot flash.size sr' ⊆ Set.Ico ofs (ofs + len)

lemma prot_subset (h : bp sr ≤ bp sr') : prot size sr ⊆ prot size sr' := by
  have := protLen_mono size h
  intro a ⟨hlo, hhi⟩
  exact ⟨by omega, hhi⟩

lemma locks (hsize : flash.size = 2 ^ k) (hk : k < 32) (hpos : 0 < len) (hin : ofs + len ≤ flash.size)
    : Locks flash ofs len sr := by
  intro sr' h
  have ⟨hbp, hlen, hend⟩ := stmLock_spec hsize hk hpos hin h
  refine ⟨prot_subset _ (by omega), ?_⟩
  intro a ⟨⟨hlo, hhi⟩, hnew⟩
  have hnew : a < flash.size - protLen flash.size sr := by
    by_contra hle
    exact hnew ⟨by omega, hhi⟩
  exact ⟨by omega, by omega⟩

/--
The last sectors are not among the ones to unlock, and they are less than the smallest area that can be protected.
-/
def Lost (flash : Flash) (ofs len : Nat) (sr : BitVec 8) : Prop :=
  bp sr ≠ 0 ∧ ofs ≤ flash.size - protLen flash.size sr ∧ flash.size < 256 * (flash.size - (ofs + len))
    ∧ 128 * (flash.size - (ofs + len)) ≤ flash.size

structure Sectors (flash : Flash) (k : Nat) : Prop where
  size_eq : flash.size = 2 ^ k
  lt : k < 32
  pos : 0 < flash.eraseSize
  dvd : flash.eraseSize ∣ flash.size
  blocks : 128 * flash.eraseSize ≤ flash.size

section

variable (hf : Sectors flash k)

include hf

lemma Sectors.dvd_protLen (hbp : bp sr ≠ 0) : flash.eraseSize ∣ protLen flash.size sr := by
  have hdvd := hf.dvd
  have hblocks := hf.blocks
  rw [hf.size_eq] at hdvd hblocks ⊢
  have ⟨j, _, hj⟩ := (Nat.dvd_prime_pow Nat.prime_two).mp hdvd
  rw [hj, show 128 = 2 ^ 7 by rfl, ← Nat.pow_add, Nat.pow_le_pow_iff_right (by decide)] at hblocks
  rw [hj, protLen, if_neg hbp, Nat.pow_div (by omega) (by decide)]
  exact Nat.pow_dvd_pow 2 (by omega)

lemma Sectors.unlocked_iff (hofs : flash.eraseSize ∣ ofs) (hin : ofs ≤ flash.size) (hbp : bp sr ≠ 0)
    : stmIsLockedSr flash ((ofs + 2 ^ 32 - flash.eraseSize) % 2 ^ 32) flash.eraseSize sr = false
      ↔ ofs ≤ flash.size - protLen flash.size sr := by
  have hlt : flash.size < 2 ^ 32 := by
    rw [hf.size_eq]
    exact Nat.pow_lt_pow_right (by decide) hf.lt
  have hpos := hf.pos
  have hblocks := hf.blocks
  rw [← Bool.not_eq_true, stmIsLockedSr_iff (by omega) (by omega)]
  have ⟨x, hx⟩ := hofs
  have ⟨y, hy⟩ := dvd_sub hf.dvd (hf.dvd_protLen hbp)
  by_cases hzero : ofs = 0
  . simp only [hzero]
    omega
  -- both are multiples of the size of a sector
  have hmul : ofs < flash.eraseSize * y + flash.eraseSize ↔ ofs ≤ flash.eraseSize * y := by
    rw [hx, ← Nat.mul_succ, Nat.mul_lt_mul_left hpos, Nat.mul_le_mul_left_iff hpos]
    omega
  omega

lemma Sectors.seven_le : 7 ≤ k := by
  have hblocks := hf.blocks
  have hpos := hf.pos
  by_contra hlt
  have := Nat.pow_le_pow_right (show 0 < 2 by decide) (show k ≤ 6 by omega)
  rw [hf.size_eq] at hblocks
  omega

lemma Sectors.protLen_pos (hbp : bp sr ≠ 0) : 0 < protLen flash.size sr := by
  have hk := hf.seven_le
  rw [protLen, if_neg hbp, hf.size_eq, Nat.pow_div (by omega) (by decide)]
  exact Nat.pow_pos (by decide)

lemma Sectors.pow_eq_seven_iff {n : Nat} (hpos : 0 < n)
    : k - orderBase2 n = 7 ↔ flash.size < 256 * n ∧ 128 * n ≤ flash.size := by
  obtain ⟨e, rfl⟩ : ∃ e, k = e + 7 := ⟨k - 7, by have := hf.seven_le; omega⟩
  have hsize := hf.size_eq
  have hle := @orderBase2_le_iff n e
  rw [pow_add] at hsize
  cases e with
  | zero => omega
  | succ e =>
    have hlt := @orderBase2_le_iff n e
    omega

end

theorem stm_lock_unlock_iff (hf : Sectors flash k) (hofs : flash.eraseSize ∣ ofs) (hpos : 0 < len)
    (hin : ofs + len ≤ flash.size) : Locks flash ofs len sr ∧ Unlocks flash ofs len sr ↔ ¬Lost flash ofs len sr := by
  have hk := hf.lt
  constructor
  . rintro ⟨_, hunlocks⟩ ⟨hbp, hfirst, hfew⟩
    have hpow := (hf.pow_eq_seven_iff (by omega)).mpr hfew
    have hlocked := (hf.unlocked_iff hofs (by omega) hbp).mpr hfirst
    have hunlock : stmUnlock flash ofs len sr = some ((sr &&& ~~~mask) ||| (mask - (BitVec.ofNat 8 7 <<< 2))) := by
      have hlog : flash.size.log2 = k := by rw [hf.size_eq, log2_two_pow]
      have hle : ¬sr &&& mask ≤ ((sr &&& ~~~mask) ||| (mask - (BitVec.ofNat 8 7 <<< 2))) &&& mask := by
        rw [and_mask_le_iff, bp_statusNew sr (le_refl 7)]
        omega
      unfold stmUnlock
      rw [hlocked, hlog, hpow]
      simp only [Bool.false_eq_true, if_false, if_neg (show ofs + len ≠ flash.size by omega)]
      rw [if_neg (by decide), if_neg hle]
    have hlost := (hunlocks _ hunlock).2
    have hnone : protLen flash.size ((sr &&& ~~~mask) ||| (mask - (BitVec.ofNat 8 7 <<< 2))) = 0 := by
      rw [protLen, if_pos (bp_statusNew sr (le_refl 7))]
    have hsome := hf.protLen_pos hbp
    have hmem : flash.size - 1 ∈ prot flash.size sr \ prot flash.size
      ((sr &&& ~~~mask) ||| (mask - (BitVec.ofNat 8 7 <<< 2))) := by
      refine ⟨⟨by omega, by omega⟩, ?_⟩
      rintro ⟨hlo, hhi⟩
      omega
    have := (hlost hmem).2
    omega
  intro hkept
  refine ⟨locks hf.size_eq hk hpos hin, ?_⟩
  intro sr' h
  have ⟨hlocked, hbp, hend⟩ := stmUnlock_spec hf.size_eq hk h
  have hfirst := (hf.unlocked_iff hofs (by omega) (by omega)).mp hlocked
  refine ⟨prot_subset _ (by omega), ?_⟩
  intro a ⟨⟨hlo, hhi⟩, hnew⟩
  have hnew : a < flash.size - protLen flash.size sr' := by
    by_contra hle
    exact hnew ⟨by omega, hhi⟩
  refine ⟨by omega, ?_⟩
  rcases lt_or_ge a (ofs + len) with hlt | hge
  . exact hlt
  obtain ⟨hpow, hbp'⟩ := hend.resolve_left (by omega)
  have hne : k - orderBase2 (flash.size - (ofs + len)) ≠ 7 := by
    intro heq
    exact hkept ⟨by omega, hfirst, (hf.pow_eq_seven_iff (by omega)).mp heq⟩
  have htop := (@orderBase2_le_iff (flash.size - (ofs + len)) k).mpr (by rw [hf.size_eq]; exact sub_le _ _)
  have hcover := orderBase2_le_iff.mp (le_refl (orderBase2 (flash.size - (ofs + len))))
  rw [hf.size_eq, protLen_eq_pow htop (by omega) hbp', ← hf.size_eq] at hnew
  omega

end

def smallFlash : Flash := ⟨2 ^ 19, 4096⟩

theorem stm_lock_unlock_twoSectors
    : Sectors smallFlash 19 ∧ Locks smallFlash 516096 8192 0x04 ∧ Unlocks smallFlash 516096 8192 0x04 := by
  have hf : Sectors smallFlash 19 := ⟨rfl, by decide, by decide, by decide, by decide⟩
  exact ⟨hf, (stm_lock_unlock_iff hf (by decide) (by decide) (by decide)).mpr fun h => absurd h.2.2.1 (by decide)⟩

-- The first one of the two protected sectors is unlocked, the other one loses its protection too.
theorem not_unlocks_oneSector : ¬(Locks smallFlash 516096 4096 0x04 ∧ Unlocks smallFlash 516096 4096 0x04) := by
  intro h
  have hlost := (h.2 0 (by decide +kernel)).2
  have hmem : 524287 ∈ prot smallFlash.size 0x04 \ prot smallFlash.size 0 := by
    refine ⟨⟨by decide +kernel, by decide⟩, ?_⟩
    rintro ⟨hlo, _⟩
    exact absurd hlo (by decide +kernel)
  exact absurd (hlost hmem).2 (by decide)

end UBoot.Stm
