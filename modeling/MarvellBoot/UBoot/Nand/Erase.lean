import Mathlib

/-!
`nand_erase_opts` of `drivers/mtd/nand/nand_util.c`. The loop goes on whatever the clean marker gives, it is left out with
the messages.
-/

namespace UBoot.Nand

open List

def EFBIG : Int := 27

structure NandEraseOptions where
  length : UInt64
  offset : UInt64
  scrub : Bool
  spread : Bool
  lim : UInt64

structure MtdInfo where
  erasesize : UInt64
  blockIsbad : UInt64 → Int
  erase : UInt64 → Int
  erasesize_pow : ∃ k < 32, erasesize.toNat = 2 ^ k

section

variable (mtd : MtdInfo) (opts : NandEraseOptions)

def eraseLength : Nat := ((opts.length + mtd.erasesize - 1) / mtd.erasesize).toNat

def beyondLimit (addr : UInt64) : Prop := opts.lim ≠ 0 ∧ opts.offset + opts.lim ≤ addr deriving Decidable

-- The result and the blocks that `mtd_erase` was called for, each with what it gave.
def nandEraseOpts.loop : (fuel erasedLength : Nat) → UInt64 → List (UInt64 × Int) → Option (Int × List (UInt64 × Int))
  | 0, _, _, _ => none
  | fuel + 1, erasedLength, addr, ops =>
    if erasedLength < eraseLength mtd opts then
      if beyondLimit opts addr then
        some (-EFBIG, ops)
      else if opts.scrub = false ∧ 0 < mtd.blockIsbad addr then
        loop fuel (if opts.spread then erasedLength else erasedLength + 1) (addr + mtd.erasesize) ops
      else if opts.scrub = false ∧ mtd.blockIsbad addr < 0 then
        some (-1, ops)
      else
        loop fuel (erasedLength + 1) (addr + mtd.erasesize) (ops ++ [(addr, mtd.erase addr)])
    else
      some (0, ops)

def nandEraseOpts (fuel : Nat) : Option (Int × List (UInt64 × Int)) :=
  if opts.offset &&& (mtd.erasesize - 1) ≠ 0 then some (-1, [])
  else nandEraseOpts.loop mtd opts fuel 0 opts.offset []

def Bad (addr : UInt64) : Prop := opts.scrub = false ∧ 0 < mtd.blockIsbad addr deriving Decidable

-- The good ones of the `n` blocks from `addr` on.
def goodBlocks (n : Nat) (addr : UInt64) : List UInt64 :=
  match n with
  | 0 => []
  | n + 1 =>
    let blocks := goodBlocks n (addr + mtd.erasesize)
    if Bad mtd opts addr then blocks else addr :: blocks

/-- The block at `addr` has an address of `[offset, offset + length)`. -/
def Overlaps (addr : UInt64) : Prop :=
  mtd.erasesize.toNat ∣ addr.toNat ∧ opts.offset.toNat < addr.toNat + mtd.erasesize.toNat
    ∧ addr.toNat < opts.offset.toNat + opts.length.toNat

structure Reported (ops : List (UInt64 × Int)) : Prop where
  erased : opts.spread = false → ∀ a, Overlaps mtd opts a → ¬Bad mtd opts a → (a, 0) ∈ ops
  spread : opts.spread = true → ∃ n, ops = (goodBlocks mtd opts n opts.offset).map (·, 0)
    ∧ ops.length = opts.length.toNat ⌈/⌉ mtd.erasesize.toNat ∧ ∀ op ∈ ops, opts.offset ≤ op.1
  good : ∀ op ∈ ops, ¬Bad mtd opts op.1
  within : ∀ op ∈ ops, opts.lim ≠ 0 → op.1.toNat < opts.offset.toNat + opts.lim.toNat

/-- Rounding `length` up to blocks does not wrap, and each block that is to be erased is. -/
def Erasable : Prop :=
  if opts.spread then
    opts.length.toNat + mtd.erasesize.toNat ≤ 2 ^ 64
      ∧ ∀ n, (goodBlocks mtd opts n opts.offset).length = opts.length.toNat ⌈/⌉ mtd.erasesize.toNat →
        ∀ a ∈ goodBlocks mtd opts n opts.offset, mtd.erase a = 0 ∧ opts.offset ≤ a
  else
    ∀ a, Overlaps mtd opts a → ¬Bad mtd opts a →
      opts.length.toNat + mtd.erasesize.toNat ≤ 2 ^ 64 ∧ mtd.erase a = 0

end

variable {mtd : MtdInfo} {opts : NandEraseOptions} {ops ops' : List (UInt64 × Int)} {fuel k n m : Nat} {addr a : UInt64}

lemma loop_erases (hk : k ≤ eraseLength mtd opts)
    (h : nandEraseOpts.loop mtd opts fuel k addr ops = some (0, ops'))
    : ∃ n, ops' = ops ++ (goodBlocks mtd opts n addr).map (fun a => (a, mtd.erase a))
      ∧ k + (if opts.spread then (goodBlocks mtd opts n addr).length else n) = eraseLength mtd opts
      ∧ ∀ a ∈ goodBlocks mtd opts n addr, ¬beyondLimit opts a := by
  induction fuel generalizing k addr ops with
  | zero => contradiction
  | succ fuel ih =>
    unfold nandEraseOpts.loop at h
    split at h
    . next hlt =>
      split at h
      . simp [EFBIG] at h
      next hlim =>
      split at h
      . next hbad =>
        have ⟨n, hops, hcount, hwithin⟩ := ih (by split <;> omega) h
        have hskip : goodBlocks mtd opts (n + 1) addr = goodBlocks mtd opts n (addr + mtd.erasesize) := if_pos hbad
        refine ⟨n + 1, ?_, ?_, ?_⟩
        . rw [hskip, hops]
        . rw [hskip]
          grind
        . rw [hskip]
          exact hwithin
      next hbad =>
      split at h
      . simp at h
      have ⟨n, hops, hcount, hwithin⟩ := ih (by omega) h
      have hcons : goodBlocks mtd opts (n + 1) addr = addr :: goodBlocks mtd opts n (addr + mtd.erasesize) := if_neg hbad
      refine ⟨n + 1, ?_, ?_, ?_⟩
      . rw [hcons, hops, append_assoc]
        rfl
      . rw [hcons, length_cons]
        grind
      . rw [hcons]
        exact forall_mem_cons.mpr ⟨hlim, hwithin⟩
    . next hge =>
      injection h with h
      injection h with _ h
      refine ⟨0, ?_, ?_, ?_⟩
      . simp [goodBlocks, h]
      . simp only [goodBlocks, length_nil, ite_self]
        omega
      . simp [goodBlocks]

lemma not_bad_of_mem (h : a ∈ goodBlocks mtd opts n addr) : ¬Bad mtd opts a := by
  induction n generalizing addr with
  | zero => contradiction
  | succ n ih =>
    unfold goodBlocks at h
    split at h
    . exact ih h
    next hgood =>
    cases h with
    | head => exact hgood
    | tail _ h => exact ih h

lemma goodBlocks_isPrefix (n m : Nat) (addr : UInt64)
    : goodBlocks mtd opts n addr <+: goodBlocks mtd opts (n + m) addr := by
  induction n generalizing addr with
  | zero => exact nil_prefix
  | succ n ih =>
    rw [Nat.succ_add]
    unfold goodBlocks
    split
    . exact ih _
    . exact (prefix_cons_inj _).mpr (ih _)

lemma goodBlocks_eq (h : (goodBlocks mtd opts n addr).length = (goodBlocks mtd opts m addr).length)
    : goodBlocks mtd opts n addr = goodBlocks mtd opts m addr := by
  cases Nat.le_total n m with
  | inl hle =>
    obtain ⟨d, rfl⟩ := Nat.exists_eq_add_of_le hle
    exact (goodBlocks_isPrefix n d _).eq_of_length h
  | inr hle =>
    obtain ⟨d, rfl⟩ := Nat.exists_eq_add_of_le hle
    exact ((goodBlocks_isPrefix m d _).eq_of_length h.symm).symm

lemma mem_goodBlocks {i : Nat} (hgood : ¬Bad mtd opts a) (h : a.toNat = addr.toNat + i * mtd.erasesize.toNat)
    (hi : i < n) : a ∈ goodBlocks mtd opts n addr := by
  induction n generalizing addr i with
  | zero => omega
  | succ n ih =>
    have hlt := a.toNat_lt
    unfold goodBlocks
    cases i with
    | zero =>
      have heq : a = addr := UInt64.toNat_inj.mp (by omega)
      rw [heq] at hgood ⊢
      rw [if_neg hgood]
      exact mem_cons_self
    | succ i =>
      rw [Nat.succ_mul] at h
      have hnext : (addr + mtd.erasesize).toNat = addr.toNat + mtd.erasesize.toNat := by
        rw [UInt64.toNat_add, Nat.mod_eq_of_lt (by omega)]
      have hmem := @ih (addr + mtd.erasesize) i (by omega) (by omega)
      split
      . exact hmem
      . exact mem_cons_of_mem _ hmem

lemma erasesize_dvd_of_and (h : opts.offset &&& (mtd.erasesize - 1) = 0) : mtd.erasesize.toNat ∣ opts.offset.toNat := by
  obtain ⟨k, hk, hpow⟩ := mtd.erasesize_pow
  have hpos := Nat.two_pow_pos k
  have hle : (1 : UInt64) ≤ mtd.erasesize := by
    rw [UInt64.le_iff_toNat_le, hpow]
    exact hpos
  have hand := congrArg UInt64.toNat h
  rw [UInt64.toNat_and, UInt64.toNat_sub_of_le _ _ hle, hpow] at hand
  rw [hpow]
  exact Nat.dvd_of_mod_eq_zero ((Nat.and_two_pow_sub_one_eq_mod _ _).symm.trans hand)

lemma Overlaps.mem (h : Overlaps mtd opts a) (hdvd : mtd.erasesize.toNat ∣ opts.offset.toNat)
    (hgood : ¬Bad mtd opts a)
    : a ∈ goodBlocks mtd opts (opts.length.toNat ⌈/⌉ mtd.erasesize.toNat) opts.offset := by
  obtain ⟨k, _, hpow⟩ := mtd.erasesize_pow
  have hpos : 0 < mtd.erasesize.toNat := by
    rw [hpow]
    exact Nat.two_pow_pos k
  obtain ⟨⟨x, hx⟩, hlow, hhigh⟩ := h
  obtain ⟨y, hy⟩ := hdvd
  rw [hx, hy, ← Nat.mul_succ] at hlow
  have hle : y ≤ x := Nat.le_of_lt_succ (Nat.lt_of_mul_lt_mul_left hlow)
  have hsum : a.toNat = opts.offset.toNat + (x - y) * mtd.erasesize.toNat := by
    rw [hx, hy, ← Nat.mul_comm mtd.erasesize.toNat (x - y), ← Nat.mul_add, Nat.add_sub_cancel' hle]
  apply mem_goodBlocks hgood hsum
  rw [← not_le, ceilDiv_le_iff_le_mul hpos, Nat.mul_comm]
  omega

lemma eraseLength_eq
    : eraseLength mtd opts = if opts.length.toNat + mtd.erasesize.toNat ≤ 2 ^ 64
      then opts.length.toNat ⌈/⌉ mtd.erasesize.toNat else 0 := by
  obtain ⟨k, hk, hpow⟩ := mtd.erasesize_pow
  have hpos := Nat.two_pow_pos k
  have hlt := opts.length.toNat_lt
  have hsmall := mtd.erasesize.toNat_lt
  have hsum : (opts.length + mtd.erasesize - 1).toNat
      = (opts.length.toNat + mtd.erasesize.toNat - 1) % 2 ^ 64 := by
    rw [UInt64.toNat_sub, UInt64.toNat_add]
    change (2 ^ 64 - 1 + _) % 2 ^ 64 = _
    omega
  rw [eraseLength, UInt64.toNat_div, hsum, Nat.ceilDiv_eq_add_pred_div]
  split
  . rw [Nat.mod_eq_of_lt (by omega)]
  . apply Nat.div_eq_of_lt
    omega

lemma erased_iff {blocks : List UInt64} (hops : ops = blocks.map fun a => (a, mtd.erase a))
    : (a, 0) ∈ ops ↔ a ∈ blocks ∧ mtd.erase a = 0 := by
  rw [hops, mem_map]
  constructor
  . rintro ⟨b, hb, heq⟩
    obtain ⟨rfl, hzero⟩ := Prod.mk.inj heq
    exact ⟨hb, hzero⟩
  . rintro ⟨ha, hzero⟩
    exact ⟨a, ha, by rw [hzero]⟩

theorem nandEraseOpts_reported_iff (h : nandEraseOpts mtd opts fuel = some (0, ops))
    : Reported mtd opts ops ↔ Erasable mtd opts := by
  unfold nandEraseOpts at h
  split at h
  . simp at h
  next haligned =>
  have hdvd := erasesize_dvd_of_and (not_not.mp haligned)
  obtain ⟨m, hops, hcount, hwithin⟩ := loop_erases (Nat.zero_le _) h
  rw [nil_append] at hops
  rw [Nat.zero_add, eraseLength_eq] at hcount
  have hrest : (∀ op ∈ ops, ¬Bad mtd opts op.1)
      ∧ ∀ op ∈ ops, opts.lim ≠ 0 → op.1.toNat < opts.offset.toNat + opts.lim.toNat := by
    rw [hops, forall_mem_map, forall_mem_map]
    refine ⟨fun a ha => not_bad_of_mem ha, ?_⟩
    intro a ha hlim
    have hlt : a < opts.offset + opts.lim := by
      have := hwithin a ha
      unfold beyondLimit at this
      rw [not_and] at this
      exact UInt64.not_le.mp (this hlim)
    rw [UInt64.lt_iff_toNat_lt, UInt64.toNat_add] at hlt
    exact Nat.lt_of_lt_of_le hlt (Nat.mod_le _ _)
  unfold Erasable
  cases hspread : opts.spread with
  | false =>
    rw [hspread] at hcount
    simp only [Bool.false_eq_true, if_false] at hcount ⊢
    constructor
    . intro hreported a ha hgood
      have ⟨hmem, hzero⟩ := (erased_iff hops).mp (hreported.erased hspread a ha hgood)
      refine ⟨?_, hzero⟩
      by_contra hwrap
      rw [if_neg hwrap] at hcount
      rw [hcount] at hmem
      contradiction
    . intro herase
      refine ⟨?_, fun h => absurd (hspread.symm.trans h) (by decide), hrest.1, hrest.2⟩
      intro _ a ha hgood
      have ⟨hfits, hzero⟩ := herase a ha hgood
      rw [if_pos hfits] at hcount
      rw [erased_iff hops, hcount]
      exact ⟨ha.mem hdvd hgood, hzero⟩
  | true =>
    rw [hspread] at hcount
    simp only [if_true] at hcount ⊢
    have hlength : ops.length = (goodBlocks mtd opts m opts.offset).length := by rw [hops, length_map]
    constructor
    . intro hreported
      obtain ⟨n, hn, hlen, hfrom⟩ := hreported.spread hspread
      have hfits : opts.length.toNat + mtd.erasesize.toNat ≤ 2 ^ 64 := by
        by_contra hwrap
        rw [if_neg hwrap] at hcount
        have hzero := (hlen.symm.trans hlength).trans hcount
        have hsmall := mtd.erasesize.toNat_lt
        rw [Nat.ceilDiv_eq_add_pred_div, Nat.div_eq_zero_iff] at hzero
        have hlt := opts.length.toNat_lt
        omega
      refine ⟨hfits, ?_⟩
      intro n' hn' a ha
      rw [goodBlocks_eq (hn'.trans (hlen.symm.trans hlength))] at ha
      have hop : (a, mtd.erase a) ∈ ops := by
        rw [hops]
        exact mem_map_of_mem (f := fun a => (a, mtd.erase a)) ha
      refine ⟨?_, hfrom _ hop⟩
      rw [hn, mem_map] at hop
      obtain ⟨b, _, heq⟩ := hop
      exact (Prod.mk.inj heq).2.symm
    . rintro ⟨hfits, herase⟩
      rw [if_pos hfits] at hcount
      have herase := herase m hcount
      refine ⟨fun h => absurd (hspread.symm.trans h) (by decide), ?_, hrest.1, hrest.2⟩
      intro _
      refine ⟨m, ?_, hlength.trans hcount, ?_⟩
      . rw [hops]
        apply map_congr_left
        intro a ha
        rw [(herase a ha).1]
      . rw [hops, forall_mem_map]
        exact fun a ha => (herase a ha).2

def device (ret : Int) : MtdInfo where
  erasesize := 0x20000
  blockIsbad addr := if addr = 0x20000 then 1 else 0
  erase _ := ret
  erasesize_pow := ⟨17, by decide, rfl⟩

def twoBlocks (spread : Bool) : NandEraseOptions where
  length := 0x30000
  offset := 0
  scrub := false
  spread := spread
  lim := 0x80000

theorem nandEraseOpts_reported_spread
    : nandEraseOpts (device 0) (twoBlocks true) 4 = some (0, [(0, 0), (0x40000, 0)])
      ∧ Reported (device 0) (twoBlocks true) [(0, 0), (0x40000, 0)] := by
  have h : nandEraseOpts (device 0) (twoBlocks true) 4 = some (0, [(0, 0), (0x40000, 0)]) := by decide
  refine ⟨h, (nandEraseOpts_reported_iff h).mpr ?_⟩
  have hspread : (twoBlocks true).spread = true := rfl
  rw [Erasable, if_pos hspread]
  exact ⟨by decide, fun _ _ _ _ => ⟨rfl, UInt64.zero_le⟩⟩

theorem not_reported_failing
    : nandEraseOpts (device (-5)) (twoBlocks false) 3 = some (0, [(0, -5)])
      ∧ ¬Reported (device (-5)) (twoBlocks false) [(0, -5)] := by
  refine ⟨by decide, ?_⟩
  intro h
  have hmem := h.erased rfl 0 ⟨Nat.dvd_zero _, by decide, by decide⟩ (by decide)
  contradiction

end UBoot.Nand
