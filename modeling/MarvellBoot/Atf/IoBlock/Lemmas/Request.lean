import MarvellBoot.Atf.IoBlock.Lemmas.Basic

namespace Atf.IoBlock

open Mem Loop Nat

variable {a b n : Nat} {w' : World}

structure Transfers (spec : IoBlockDevSpec) (padding : Nat)
    (body : LoopState → Next LoopState (Except Fault World))
    (Step : Nat → LoopState → World → Prop) : Prop where
  full : ∀ s, spec.buffer.length ≤ s.left → s.skip ≤ spec.buffer.length → s.left < 2 ^ 64 →
    ∃ w, body s = nextIter spec (s.left - (spec.buffer.length - s.skip)) w ∧ Step (spec.buffer.length - s.skip) s w
  last : ∀ s, s.left < spec.buffer.length → s.left % spec.blockSize = 0 →
    s.skip + padding ≤ s.left → s.left < 2 ^ 64 →
    ∃ w, body s = .done (.ok w) ∧ Step (s.left - (s.skip + padding)) s w
  cur : ∀ m s w, Step m s w → w.cur = { s.w.cur with filePos := Size.add s.w.cur.filePos m }

def RefusesParts (spec : IoBlockDevSpec) (body : LoopState → Next LoopState (Except Fault World)) : Prop :=
  ∀ s, s.left < spec.buffer.length → s.left % spec.blockSize ≠ 0 → body s = .done (.error .assertion)

variable {spec : IoBlockDevSpec} {length : Nat} {w : World}
variable {body : LoopState → Next LoopState (Except Fault World)}
variable {Step : Nat → LoopState → World → Prop}

lemma nextIter_zero : nextIter spec 0 w = .done (.ok w) := rfl

lemma nextIter_of_pos {left : Nat} (h : 0 < left)
    : nextIter spec left w = .again { left, skip := w.cur.filePos % spec.blockSize, w } := by
  unfold nextIter
  rw [if_pos h]

lemma sub_mod_eq_zero (ha : a % n = 0) (hb : b % n = 0) : (a - b) % n = 0 :=
  mod_eq_zero_of_dvd (dvd_sub (dvd_of_mod_eq_zero ha) (dvd_of_mod_eq_zero hb))

lemma sub_mod_eq_self (h : b ≤ a) (hb : b % n = 0) : (a - b) % n = a % n := by
  have ha : a = a - b + b := by omega
  conv => rhs; rw [ha, add_mod, hb, add_zero, mod_mod]

namespace Request

section

variable (h : Request spec w.cur length)

include h

lemma padding_lt : paddingOf spec (w.cur.filePos % spec.blockSize) length < spec.blockSize := by
  have := roundUp_sub_lt (w.cur.filePos % spec.blockSize + length) h.blockSize_pos
  have := le_roundUp (w.cur.filePos % spec.blockSize + length) h.blockSize_pos
  rw [h.paddingOf_eq]
  omega

lemma roundUp_le_buffer (hn : n ≤ spec.buffer.length) : roundUp n spec.blockSize ≤ spec.buffer.length := by
  by_contra hlt
  have := roundUp_sub_lt n h.blockSize_pos
  have := eq_of_mod_eq_zero h.buffer_mod (roundUp_mod n spec.blockSize) (by omega) (by omega)
  omega

lemma exists_step_of_oneTransfer
    (ht : Transfers spec (paddingOf spec (w.cur.filePos % spec.blockSize) length) body Step)
    (hone : OneTransfer spec w.cur length)
    : ∃ w', Returns body (initState spec length w) (.ok w') ∧ Step length (initState spec length w) w' := by
  have hleft := initState_left h
  have hskip : (initState spec length w).skip = w.cur.filePos % spec.blockSize := rfl
  have hle := le_roundUp (w.cur.filePos % spec.blockSize + length) h.blockSize_pos
  have hlt := h.roundUp_lt
  have hpad := h.paddingOf_eq
  cases hone with
  | inl hfits =>
    have ⟨w', hbody, hw'⟩ := ht.last (initState spec length w) (by omega)
      (by rw [hleft]; exact roundUp_mod _ _) (by omega) (by omega)
    refine ⟨w', returns_of_done hbody, ?_⟩
    have hm : (initState spec length w).left - ((initState spec length w).skip
        + paddingOf spec (w.cur.filePos % spec.blockSize) length) = length := by omega
    rw [hm] at hw'
    exact hw'
  | inr hfull =>
    have hround := h.roundUp_le_buffer (n := w.cur.filePos % spec.blockSize + length) (by omega)
    have ⟨w', hbody, hw'⟩ := ht.full (initState spec length w) (by omega) (by omega) (by omega)
    have hzero : (initState spec length w).left - (spec.buffer.length - (initState spec length w).skip) = 0 := by omega
    have hm : spec.buffer.length - (initState spec length w).skip = length := by omega
    rw [hzero, nextIter_zero] at hbody
    rw [hm] at hw'
    exact ⟨w', returns_of_done hbody, hw'⟩

lemma blockSize_dvd : spec.blockSize ∣ 2 ^ 64 := by
  have ⟨k, hk64, hk⟩ := h.exists_pow
  rw [hk]
  exact pow_dvd_pow 2 (by omega)

section

variable (ht : Transfers spec (paddingOf spec (w.cur.filePos % spec.blockSize) length) body Step)

include ht

lemma filePos_mod_of_full
    {s : LoopState} (hskip : s.skip = s.w.cur.filePos % spec.blockSize)
    (hw' : Step (spec.buffer.length - s.skip) s w')
    : w'.cur.filePos % spec.blockSize = 0 := by
  have hle : s.skip ≤ spec.buffer.length := by
    have := mod_lt s.w.cur.filePos h.blockSize_pos
    have := h.blockSize_le_buffer
    omega
  have hdiv := div_add_mod' s.w.cur.filePos spec.blockSize
  have hsum : s.w.cur.filePos + (spec.buffer.length - s.skip)
      = s.w.cur.filePos / spec.blockSize * spec.blockSize + spec.buffer.length := by omega
  rw [ht.cur _ _ _ hw']
  dsimp only [Size.add]
  rw [mod_mod_of_dvd _ h.blockSize_dvd, hsum, mul_add_mod_self_right, h.buffer_mod]

lemma error_of_skip
    (hparts : RefusesParts spec body) (hskip : w.cur.filePos % spec.blockSize ≠ 0)
    (hlong : spec.buffer.length ≤ roundUp (w.cur.filePos % spec.blockSize + length) spec.blockSize)
    {r : Except Fault World} (hret : Returns body (initState spec length w) r)
    : r = .error .assertion := by
  have hslt := h.skip_lt
  have hble := h.blockSize_le_buffer
  have hlt := h.roundUp_lt
  have hleft := initState_left h
  -- the state at the head of every iteration but the first
  let Later (s : LoopState) : Prop :=
    s.skip = 0 ∧ s.w.cur.filePos % spec.blockSize = 0 ∧ s.left < 2 ^ 64
      ∧ s.left % spec.blockSize = w.cur.filePos % spec.blockSize
  have hfirst : ∃ s, body (initState spec length w) = .again s ∧ Later s := by
    have ⟨w', hbody, hw'⟩ := ht.full (initState spec length w) (by omega) (by dsimp only [initState]; omega) (by omega)
    have hpos := h.filePos_mod_of_full ht rfl hw'
    rw [nextIter_of_pos (by dsimp only [initState] at *; omega)] at hbody
    refine ⟨_, hbody, hpos, hpos, by dsimp only; omega, ?_⟩
    have hsum : (initState spec length w).left - (spec.buffer.length - (initState spec length w).skip)
        = (initState spec length w).left - spec.buffer.length + w.cur.filePos % spec.blockSize := by
      dsimp only [initState] at *
      omega
    rw [hsum, hleft, add_mod,
      sub_mod_eq_zero (roundUp_mod (w.cur.filePos % spec.blockSize + length) _) h.buffer_mod,
      zero_add, mod_mod, mod_mod]
  have ⟨s1, hbody, hs1⟩ := hfirst
  rw [returns_iff_of_again hbody] at hret
  apply hret.of_inv (I := Later) (Q := fun r => r = .error .assertion) hs1
  . intro s s' ⟨hs, hfp, hl, hm⟩ hbody
    by_cases hfull : spec.buffer.length ≤ s.left
    . have ⟨w', hbody', hw'⟩ := ht.full s hfull (by omega) hl
      have hpos := h.filePos_mod_of_full ht (by omega) hw'
      have hsub : (s.left - (spec.buffer.length - s.skip)) % spec.blockSize = w.cur.filePos % spec.blockSize := by
        rw [hs, Nat.sub_zero, ← hm]
        exact sub_mod_eq_self hfull h.buffer_mod
      rw [hbody'] at hbody
      unfold nextIter at hbody
      split at hbody
      . injection hbody with hbody
        rw [← hbody]
        exact ⟨hpos, hpos, by dsimp only; omega, hsub⟩
      . cases hbody
    . rw [hparts s (by omega) (by omega)] at hbody
      cases hbody
  intro s r ⟨hs, hfp, hl, hm⟩ hbody
  by_cases hfull : spec.buffer.length ≤ s.left
  . have ⟨w', hbody', hw'⟩ := ht.full s hfull (by omega) hl
    have hne : 0 < s.left - (spec.buffer.length - s.skip) := by
      apply pos_of_ne_zero
      intro hzero
      have heq : s.left = spec.buffer.length := by omega
      rw [heq, h.buffer_mod] at hm
      omega
    rw [hbody', nextIter_of_pos hne] at hbody
    cases hbody
  . rw [hparts s (by omega) (by omega)] at hbody
    injection hbody with hbody
    exact hbody.symm

section

variable (hskip : w.cur.filePos % spec.blockSize = 0)

include hskip

lemma filePos_of_short
    (hshort : length < spec.buffer.length)
    (hlong : spec.buffer.length ≤ roundUp (w.cur.filePos % spec.blockSize + length) spec.blockSize)
    (hret : Returns body (initState spec length w) (.ok w'))
    : w'.cur.filePos ≠ w.cur.filePos + length := by
  have hleft := initState_left h
  have hle := h.roundUp_le_buffer (n := w.cur.filePos % spec.blockSize + length) (by omega)
  have hlt := h.roundUp_lt
  have hin : (initState spec length w).skip = 0 := hskip
  have ⟨w1, hbody, hw1⟩ := ht.full (initState spec length w) (by omega) (by omega) (by omega)
  have hzero : (initState spec length w).left - (spec.buffer.length - (initState spec length w).skip) = 0 := by omega
  rw [hzero, nextIter_zero] at hbody
  rw [returns_iff_of_done hbody] at hret
  injection hret with hret
  rw [hret, ht.cur _ _ _ hw1, hin]
  dsimp only [Size.add, initState]
  omega

lemma inv_of_long
    {I : World → Prop} (hinit : I w)
    (hstep : ∀ m s w', m ≤ spec.buffer.length → s.skip = 0 → I s.w → Step m s w' → I w')
    (hret : Returns body (initState spec length w) (.ok w'))
    : I w' := by
  have hlt := h.roundUp_lt
  have hleft := initState_left h
  have hpad := h.padding_lt
  let J (s : LoopState) : Prop :=
    s.skip = 0 ∧ s.w.cur.filePos % spec.blockSize = 0 ∧ 0 < s.left ∧ s.left < 2 ^ 64
      ∧ s.left % spec.blockSize = 0 ∧ I s.w
  have hJ : J (initState spec length w) := by
    refine ⟨hskip, hskip, ?_, by omega, ?_, hinit⟩
    . have := le_roundUp (w.cur.filePos % spec.blockSize + length) h.blockSize_pos
      have := h.length_pos
      omega
    . rw [hleft]
      exact roundUp_mod _ _
  have := hret.of_inv (I := J) (Q := fun r => ∀ w', r = .ok w' → I w') hJ
  apply this
  . intro s s' ⟨hs, hfp, hpos, hl, hm, hI⟩ hbody
    by_cases hfull : spec.buffer.length ≤ s.left
    . have ⟨w1, hbody', hw1⟩ := ht.full s hfull (by omega) hl
      have hfp' := h.filePos_mod_of_full ht (by omega) hw1
      rw [hbody'] at hbody
      unfold nextIter at hbody
      split at hbody
      . next hnext =>
        injection hbody with hbody
        rw [← hbody]
        refine ⟨hfp', hfp', hnext, by dsimp only; omega, ?_, hstep _ s w1 (by omega) hs hI hw1⟩
        rw [hs, Nat.sub_zero]
        exact sub_mod_eq_zero hm h.buffer_mod
      . cases hbody
    have hle := le_of_dvd hpos (dvd_of_mod_eq_zero hm)
    have ⟨w1, hbody', _⟩ := ht.last s (by omega) hm (by omega) hl
    rw [hbody'] at hbody
    cases hbody
  . intro s r ⟨hs, hfp, hpos, hl, hm, hI⟩ hbody w2 hr
    by_cases hfull : spec.buffer.length ≤ s.left
    . have ⟨w1, hbody', hw1⟩ := ht.full s hfull (by omega) hl
      rw [hbody'] at hbody
      unfold nextIter at hbody
      split at hbody
      . cases hbody
      injection hbody with hbody
      rw [← hbody] at hr
      injection hr with hr
      rw [← hr]
      exact hstep _ s w1 (by omega) hs hI hw1
    have hle := le_of_dvd hpos (dvd_of_mod_eq_zero hm)
    have ⟨w1, hbody', hw1⟩ := ht.last s (by omega) hm (by omega) hl
    rw [hbody'] at hbody
    injection hbody with hbody
    rw [← hbody] at hr
    injection hr with hr
    rw [← hr]
    exact hstep _ s w1 (by omega) hs hI hw1
  . rfl

end

end

end

end Request

def fourBlocks : IoBlockDevSpec where
  buffer := { offset := 0, length := 8 }
  ops := strictOps 4
  blockSize := 4

def fourBlocksState : BlockDevState := { base := 0, filePos := 0, size := 16 }

def fourBlocksWorld (dev mem : Int → UInt8) : World :=
  { dev, buf := fun _ => 0, mem, cur := fourBlocksState, srcEnd := 0 }

lemma fourBlocks_request {length : Nat} (hpos : 0 < length) (hle : length ≤ 16)
    : Request fourBlocks fourBlocksState length where
  devOpen := rfl
  blockSize_lt := by decide
  buffer_pos := by decide
  buffer_lt := by decide
  opened := ⟨{ offset := 0, length := 16 }, rfl⟩
  base_lt := by decide
  size_lt := by decide
  length_pos := hpos
  length_le := by
    dsimp only [fourBlocksState]
    omega

end Atf.IoBlock
