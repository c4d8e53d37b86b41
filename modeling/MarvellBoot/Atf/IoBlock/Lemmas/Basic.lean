import MarvellBoot.Atf.IoBlock.Impl

namespace Atf.IoBlock

open Mem Loop Nat Size

variable {x blockSize fuel : Nat} {w' : World} (n : Nat)

structure Request (spec : IoBlockDevSpec) (cur : BlockDevState) (length : Nat) : Prop where
  devOpen : blockDevOpen spec = .ok ()
  blockSize_lt : spec.blockSize < 2 ^ 64
  buffer_pos : 0 < spec.buffer.length
  buffer_lt : spec.buffer.length < 2 ^ 64
  opened : ∃ region, blockOpen spec region = .ok { cur with filePos := 0 }
  base_lt : cur.base < 2 ^ 64
  size_lt : cur.size < 2 ^ 64
  length_pos : 0 < length
  length_le : cur.filePos + length ≤ cur.size

def roundUp (n blockSize : Nat) : Nat := (n + (blockSize - 1)) / blockSize * blockSize

lemma exists_pow_of_isPowerOf2 (h : isPowerOf2 x) : ∃ k, x = 2 ^ k := by
  simp only [isPowerOf2, ne_eq, decide_not, Bool.and_eq_true, Bool.not_eq_eq_eq_not, Bool.not_true,
    decide_eq_false_iff_not, decide_eq_true_eq] at h
  exact (and_sub_one_eq_zero_iff_isPowerOfTwo h.1).mp h.2

namespace Request

variable {spec : IoBlockDevSpec} {cur : BlockDevState} {length : Nat}

section

variable (h : Request spec cur length)

include h

lemma exists_pow : ∃ k < 64, spec.blockSize = 2 ^ k := by
  have hopen := h.devOpen
  unfold blockDevOpen at hopen
  split at hopen
  . next hassert =>
    have ⟨k, hk⟩ := exists_pow_of_isPowerOf2 hassert.2.1
    refine ⟨k, ?_, hk⟩
    have hlt := h.blockSize_lt
    rw [hk] at hlt
    exact (Nat.pow_lt_pow_iff_right (by omega)).mp hlt
  . simp at hopen

lemma withOps {ops : IoBlockOps} : Request { spec with ops } cur length :=
  ⟨h.devOpen, h.blockSize_lt, h.buffer_pos, h.buffer_lt, h.opened, h.base_lt, h.size_lt, h.length_pos, h.length_le⟩

lemma blockSize_pos : 0 < spec.blockSize := by
  have ⟨k, _, hk⟩ := h.exists_pow
  rw [hk]
  exact Nat.two_pow_pos k

lemma buffer_mod : spec.buffer.length % spec.blockSize = 0 := by
  have hopen := h.devOpen
  unfold blockDevOpen at hopen
  split at hopen
  . next hassert => exact hassert.2.2.2
  . simp at hopen

lemma base_size_mod : cur.base % spec.blockSize = 0 ∧ cur.size % spec.blockSize = 0 := by
  have ⟨region, hopen⟩ := h.opened
  unfold blockOpen at hopen
  split at hopen
  . next hassert =>
    simp only [Except.ok.injEq, BlockDevState.mk.injEq, true_and] at hopen
    rw [← hopen.1, ← hopen.2]
    exact hassert
  . simp at hopen

lemma blockSize_le_buffer : spec.blockSize ≤ spec.buffer.length :=
  le_of_dvd h.buffer_pos (dvd_of_mod_eq_zero h.buffer_mod)

lemma skip_lt : cur.filePos % spec.blockSize < spec.blockSize := mod_lt _ h.blockSize_pos

lemma roundUp_le_size : roundUp (cur.filePos % spec.blockSize + length) spec.blockSize ≤ cur.size := by
  have hpos := h.blockSize_pos
  have hlen := h.length_le
  have hdiv : cur.size = cur.size / spec.blockSize * spec.blockSize := by
    have := div_add_mod' cur.size spec.blockSize
    rw [h.base_size_mod.2] at this
    omega
  have hskip := mod_le cur.filePos spec.blockSize
  rw [hdiv]
  apply Nat.mul_le_mul_right
  apply le_of_lt_succ
  rw [div_lt_iff_lt_mul hpos, succ_mul, ← hdiv]
  omega

lemma roundUp_lt : roundUp (cur.filePos % spec.blockSize + length) spec.blockSize < 2 ^ 64 :=
  lt_of_le_of_lt h.roundUp_le_size h.size_lt

end

end Request

lemma le_roundUp (h : 0 < blockSize) : n ≤ roundUp n blockSize := by
  unfold roundUp
  have := div_add_mod' (n + (blockSize - 1)) blockSize
  have := mod_lt (n + (blockSize - 1)) h
  omega

lemma roundUp_sub_lt (h : 0 < blockSize) : roundUp n blockSize < n + blockSize := by
  unfold roundUp
  have := div_mul_le_self (n + (blockSize - 1)) blockSize
  omega

lemma roundUp_mod (blockSize : Nat) : roundUp n blockSize % blockSize = 0 := by
  exact mul_mod_left _ _

lemma eq_of_mod_eq_zero {a b n : Nat} (ha : a % n = 0) (hb : b % n = 0) (hle : a ≤ b) (hlt : b < a + n) : a = b := by
  have ha := Nat.div_add_mod' a n
  have hb := Nat.div_add_mod' b n
  have hdiv : a / n = b / n := by
    apply Nat.le_antisymm
    . exact Nat.div_le_div_right hle
    apply Nat.le_of_lt_succ
    apply Nat.lt_of_mul_lt_mul_right (a := n)
    rw [Nat.succ_mul]
    omega
  rw [hdiv] at ha
  omega

namespace Request

variable {spec : IoBlockDevSpec} {cur : BlockDevState} {length : Nat}

section

variable (h : Request spec cur length)

include h

lemma add_eq : Size.add (cur.filePos % spec.blockSize) length = cur.filePos % spec.blockSize + length := by
  apply Size.add_eq
  have := h.length_le
  have := h.size_lt
  have := mod_le cur.filePos spec.blockSize
  omega

lemma alignedLength_eq
    : alignedLength spec (cur.filePos % spec.blockSize) length
        =
      roundUp (cur.filePos % spec.blockSize + length) spec.blockSize := by
  have ⟨k, hk64, hk⟩ := h.exists_pow
  have hpos := h.blockSize_pos
  have hlt : cur.filePos % spec.blockSize + length + (spec.blockSize - 1) < 2 ^ 64 := by
    have hle := h.length_le
    have hskip := Nat.mod_le cur.filePos spec.blockSize
    -- the size of the region is a multiple of the block size, as is `2 ^ 64`
    have hsize : cur.size + spec.blockSize ≤ 2 ^ 64 := by
      have hdvd : spec.blockSize ∣ 2 ^ 64 := by
        rw [hk]
        exact Nat.pow_dvd_pow 2 (by omega)
      have hdiv := Nat.div_mul_cancel hdvd
      have hsz := Nat.div_mul_cancel (Nat.dvd_of_mod_eq_zero h.base_size_mod.2)
      have hlt := h.size_lt
      rw [← hdiv, ← hsz] at hlt
      have := Nat.lt_of_mul_lt_mul_right hlt
      have := Nat.mul_le_mul_right spec.blockSize this
      rw [Nat.succ_mul] at this
      omega
    omega
  unfold alignedLength roundUp
  rw [h.add_eq, Size.add_eq hlt, hk]
  rw [hk] at hlt
  exact Size.and_compl_mask hlt hk64

lemma paddingOf_eq
    : paddingOf spec (cur.filePos % spec.blockSize) length
        =
      roundUp (cur.filePos % spec.blockSize + length) spec.blockSize - (cur.filePos % spec.blockSize + length) := by
  unfold paddingOf
  rw [h.alignedLength_eq, h.add_eq]
  apply Size.sub_eq
  . exact le_roundUp _ h.blockSize_pos
  . exact h.roundUp_lt

end

end Request

def LbaFits (spec : IoBlockDevSpec) (cur : BlockDevState) : Prop :=
  cur.base + cur.filePos < 2 ^ 64 ∧ (cur.base + cur.filePos) / spec.blockSize < 2 ^ 31

def OneTransfer (spec : IoBlockDevSpec) (cur : BlockDevState) (length : Nat) : Prop :=
  roundUp (cur.filePos % spec.blockSize + length) spec.blockSize < spec.buffer.length
    ∨ (cur.filePos % spec.blockSize = 0 ∧ length = spec.buffer.length)

lemma div_mod_lt_div {k : Nat} (hk : k < 64) (hx : 2 ^ 64 ≤ x) : x % 2 ^ 64 / 2 ^ k < x / 2 ^ k := by
  have hpow : 2 ^ 64 = 2 ^ k * 2 ^ (64 - k) := by
    rw [← pow_add]
    congr 1
    omega
  rw [hpow, mod_mul_right_div_self]
  apply lt_of_lt_of_le
  . exact Nat.mod_lt _ (Nat.two_pow_pos _)
  . rw [Nat.le_div_iff_mul_le (Nat.two_pow_pos k), Nat.mul_comm, ← hpow]
    exact hx

lemma lbaOf_mul_eq_iff {spec : IoBlockDevSpec} {cur : BlockDevState} {length : Nat} (h : Request spec cur length)
    : lbaOf spec cur * spec.blockSize + (cur.filePos % spec.blockSize : Nat)
        = ((cur.base + cur.filePos : Nat) : Int)
      ↔ LbaFits spec cur := by
  have ⟨k, hk64, hk⟩ := h.exists_pow
  have hpos := h.blockSize_pos
  have hmod : (cur.base + cur.filePos) % spec.blockSize = cur.filePos % spec.blockSize := by
    rw [add_mod, h.base_size_mod.1, zero_add, mod_mod]
  have hdiv := div_add_mod' (cur.base + cur.filePos) spec.blockSize
  rw [hmod] at hdiv
  unfold lbaOf LbaFits
  rw [add, add_comm cur.filePos]
  generalize cur.base + cur.filePos = x at *
  constructor
  . intro heq
    have hlt := toInt_lt (x % 2 ^ 64 / spec.blockSize)
    have hle := toInt_le (x % 2 ^ 64 / spec.blockSize)
    generalize toInt (x % 2 ^ 64 / spec.blockSize) = lba at *
    have hlba : lba = (x / spec.blockSize : Nat) := by
      apply Int.eq_of_mul_eq_mul_right (a := spec.blockSize)
      . omega
      omega
    constructor
    . by_cases hx : x < 2 ^ 64
      . exact hx
      . have := div_mod_lt_div hk64 (Nat.le_of_not_lt hx)
        rw [← hk] at this
        omega
    . omega
  . intro ⟨h64, h31⟩
    rw [mod_eq_of_lt h64, toInt_eq h31]
    exact_mod_cast hdiv

variable {spec : IoBlockDevSpec} {length : Nat} {w : World}
  {body : Nat → LoopState → Next LoopState (Except Fault World)}

lemma initState_left (h : Request spec w.cur length)
    : (initState spec length w).left
        =
      roundUp (w.cur.filePos % spec.blockSize + length) spec.blockSize :=
  h.alignedLength_eq

lemma returns_of_request_eq_some (h : Request spec w.cur length)
    (hreq : request body spec length w fuel = some (.ok (length, w')))
    : Returns (body (paddingOf spec (w.cur.filePos % spec.blockSize) length)) (initState spec length w) (.ok w') := by
  have hlen := h.length_le
  have hpos := h.length_pos
  unfold request at hreq
  rw [if_pos (by omega)] at hreq
  simp only [Option.map_eq_some_iff] at hreq
  have ⟨r, hrun, heq⟩ := hreq
  cases r with
  | error => simp [Except.map] at heq
  | ok w =>
    simp only [Except.map, Except.ok.injEq, Prod.mk.injEq, true_and] at heq
    rw [← heq]
    exact ⟨fuel, hrun⟩

lemma request_unique
    {fuel' : Nat} {r r' : Except Fault (Nat × World)}
    (h : request body spec length w fuel = some r) (h' : request body spec length w fuel' = some r')
    : r = r' := by
  unfold request at h h'
  split at h
  . next hassert =>
    rw [if_pos hassert] at h'
    simp only [Option.map_eq_some_iff] at h h'
    have ⟨r1, hrun, heq⟩ := h
    have ⟨r2, hrun', heq'⟩ := h'
    rw [← heq, ← heq', Returns.unique ⟨fuel, hrun⟩ ⟨fuel', hrun'⟩]
  next hassert =>
  rw [if_neg hassert] at h'
  rw [h] at h'
  injection h'

lemma exists_request_of_returns (h : Request spec w.cur length)
    (hret : Returns (body (paddingOf spec (w.cur.filePos % spec.blockSize) length)) (initState spec length w) (.ok w'))
    : ∃ fuel, request body spec length w fuel = some (.ok (length, w')) := by
  have hlen := h.length_le
  have hpos := h.length_pos
  have ⟨fuel, hrun⟩ := hret
  refine ⟨fuel, ?_⟩
  unfold request
  rw [if_pos (by omega)]
  simp only [Option.map_eq_some_iff]
  exact ⟨.ok w', hrun, rfl⟩

def strictOps (blockSize : Nat) : IoBlockOps where
  read dev lba n := if n % blockSize = 0 then load dev (lba * blockSize) n else []
  write dev lba data :=
    if data.length % blockSize = 0 then (store dev (lba * blockSize) data, data.length) else (dev, 0)

lemma strictOps_exact (blockSize : Nat) : (strictOps blockSize).Exact blockSize where
  read := by
    intro dev lba n hn
    simp [strictOps, hn]
  write := by
    intro dev lba data hdata
    simp [strictOps, hdata]

end Atf.IoBlock
