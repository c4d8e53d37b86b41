import MarvellBoot.Atf.IoBlock.Lemmas.Request

namespace Atf.IoBlock

open Mem Loop Size

namespace blockRead

variable {spec : IoBlockDevSpec} {buffer padding : Nat} {s : LoopState}

structure Delivers (spec : IoBlockDevSpec) (buffer m : Nat) (s : LoopState) (w : World) : Prop where
  dev : w.dev = s.w.dev
  mem : w.mem = store s.w.mem buffer (load s.w.dev (lbaOf spec s.w.cur * spec.blockSize + s.skip) m)
  cur : w.cur = { s.w.cur with filePos := Size.add s.w.cur.filePos m }

lemma delivers_copyOut {bounce : Bool} {n m : Nat} (hle : s.skip + m ≤ n)
    (hdirect : bounce = false → s.skip = 0 ∧ m = n)
    : Delivers spec buffer m s (copyOut buffer bounce s.skip m
        ((transfer buffer bounce (load s.w.dev (lbaOf spec s.w.cur * spec.blockSize) n) s.w).advance m)) := by
  cases bounce with
  | true =>
    refine ⟨rfl, ?_, rfl⟩
    rw [← @length_load s.w.dev (lbaOf spec s.w.cur * spec.blockSize) n] at hle
    have hload := load_store_of_le s.w.buf 0 hle
    rw [length_load] at hle
    rw [zero_add, drop_load, take_load _ _ (by omega)] at hload
    simp [copyOut, transfer, World.advance, hload]
  | false =>
    have ⟨hskip, hm⟩ := hdirect rfl
    refine ⟨rfl, ?_, rfl⟩
    simp [copyOut, transfer, World.advance, hskip, hm]

lemma transfers (buffer padding : Nat) (hops : spec.ops.Exact spec.blockSize)
    (hmod : spec.buffer.length % spec.blockSize = 0)
    : Transfers spec padding (body spec buffer padding) (Delivers spec buffer) where
  full := by
    intro s hlen hskip hlt
    have hsub := sub_eq hskip (by omega)
    have hleft := sub_eq (a := s.left) (b := spec.buffer.length - s.skip) (by omega) hlt
    unfold body
    dsimp only
    rw [if_pos hlen, hops.read _ _ _ hmod, length_load, if_pos rfl, hsub, hleft]
    refine ⟨_, rfl, delivers_copyOut (by omega) ?_⟩
    intro hdirect
    simp at hdirect
    omega
  last := by
    intro s hlen hleft hpad hlt
    have hadd := add_eq (a := s.skip) (b := padding) (by omega)
    have hsub := sub_eq hpad hlt
    unfold body
    dsimp only
    rw [if_neg (by omega), hops.read _ _ _ hleft, length_load, if_pos rfl, hadd, hsub]
    refine ⟨_, rfl, delivers_copyOut (by omega) ?_⟩
    intro hdirect
    simp at hdirect
    omega
  cur := by
    intro m s w hw
    exact hw.cur

lemma refusesParts (hops : spec.ops = strictOps spec.blockSize) : RefusesParts spec (body spec buffer padding) := by
  intro s hlen hleft
  have hne : (spec.ops.read s.w.dev (lbaOf spec s.w.cur) s.left).length ≠ s.left := by
    rw [hops]
    unfold strictOps
    dsimp only
    rw [if_neg hleft]
    intro hzero
    rw [← hzero] at hleft
    simp at hleft
  unfold body
  rw [if_neg (by omega), if_neg hne]

end blockRead

structure ReadsFile (spec : IoBlockDevSpec) (buffer length : Nat) (w w' : World) : Prop where
  returns : ∃ fuel, blockRead spec buffer length w fuel = some (.ok (length, w'))
  data : ∀ i < length, w'.mem (buffer + i) = w.dev (w.cur.base + w.cur.filePos + i)
  frame : ∀ a, a < (buffer : Int) ∨ buffer + length ≤ a → w'.mem a = w.mem a
  filePos : w'.cur.filePos = w.cur.filePos + length

variable {spec : IoBlockDevSpec} {buffer length : Nat} {w : World}

lemma ReadsFile.returns_body {w' : World} (h : Request spec w.cur length)
    (hread : ReadsFile spec buffer length w w')
    : Returns (blockRead.body spec buffer
        (paddingOf spec (w.cur.filePos % spec.blockSize) length)) (initState spec length w) (.ok w') := by
  have ⟨fuel, hfuel⟩ := hread.returns
  exact returns_of_request_eq_some h hfuel

section

variable (h : Request spec w.cur length)

include h

lemma exists_readsFile (hops : spec.ops.Exact spec.blockSize)
    (hlba : LbaFits spec w.cur) (hone : OneTransfer spec w.cur length)
    : ∃ w', ReadsFile spec buffer length w w' := by
  have ⟨w', hret, hw'⟩ := h.exists_step_of_oneTransfer (blockRead.transfers buffer _ hops h.buffer_mod) hone
  have haddr := (lbaOf_mul_eq_iff h).mpr hlba
  have hmem := hw'.mem
  dsimp only [initState] at hmem
  rw [haddr] at hmem
  refine ⟨w', exists_request_of_returns h hret, ?_, ?_, ?_⟩
  . intro i hi
    have hi : ((w.cur.base + w.cur.filePos : Nat) : Int) + (buffer + i - buffer)
        = w.cur.base + w.cur.filePos + i := by omega
    rw [hmem, store_load_of_mem _ _ (by omega) (by omega), hi]
  . intro a ha
    rw [hmem]
    cases ha with
    | inl ha => exact store_of_lt _ _ ha
    | inr ha =>
      apply store_of_ge
      rw [length_load]
      omega
  rw [hw'.cur]
  have := h.length_le
  have := h.size_lt
  exact add_eq (by dsimp only [initState]; omega)

lemma not_readsFile_of_not_oneTransfer
    (hops : spec.ops = strictOps spec.blockSize) (hdev : w.dev = fun _ => 1)
    (hmem : w.mem = fun _ => 0) (hone : ¬OneTransfer spec w.cur length) (w' : World)
    : ¬ReadsFile spec buffer length w w' := by
  intro hread
  have hret := hread.returns_body h
  have hexact : spec.ops.Exact spec.blockSize := by
    rw [hops]
    exact strictOps_exact _
  have ht := blockRead.transfers buffer (paddingOf spec (w.cur.filePos % spec.blockSize) length) hexact h.buffer_mod
  unfold OneTransfer at hone
  by_cases hskip : w.cur.filePos % spec.blockSize = 0
  . by_cases hshort : length < spec.buffer.length
    . exact h.filePos_of_short ht hskip hshort (by omega) hret hread.filePos
    . -- every iteration stores to the same bytes at the beginning of the destination
      have hinv := h.inv_of_long ht hskip
        (I := fun w => w.dev = (fun _ => 1) ∧ ∀ a : Int, buffer + spec.buffer.length ≤ a → w.mem a = 0)
        ⟨hdev, by intros; rw [hmem]⟩
        (by
          intro m s w1 hm hs ⟨hI, hI'⟩ hw1
          refine ⟨by rw [hw1.dev, hI], ?_⟩
          intro a ha
          rw [hw1.mem, store_of_ge, hI' a ha]
          rw [length_load]
          omega)
        hret
      have hlast := hread.data (length - 1) (by omega)
      rw [hdev, hinv.2 _ (by omega)] at hlast
      simp at hlast
  . have := h.error_of_skip ht (blockRead.refusesParts hops) hskip (by omega) hret
    simp at this

lemma not_readsFile_of_not_lbaFits
    (hops : spec.ops.Exact spec.blockSize) (hone : OneTransfer spec w.cur length)
    (hdev : w.dev = fun a : Int => if a = w.cur.base + w.cur.filePos then 1 else 0)
    (hlba : ¬LbaFits spec w.cur) (w' : World)
    : ¬ReadsFile spec buffer length w w' := by
  intro hread
  have ⟨w1, hret, hw1⟩ := h.exists_step_of_oneTransfer (blockRead.transfers buffer _ hops h.buffer_mod) hone
  have heq := hret.unique (hread.returns_body h)
  injection heq with heq
  have hpos := h.length_pos
  have hfirst := hread.data 0 (by omega)
  rw [← lbaOf_mul_eq_iff h] at hlba
  rw [← heq, hw1.mem, store_load_of_mem _ _ (by omega) (by omega)] at hfirst
  dsimp only [initState] at hfirst
  rw [hdev] at hfirst
  dsimp only at hfirst
  rw [if_neg (by push_cast at hlba; omega), if_pos (by omega)] at hfirst
  simp at hfirst

end

theorem blockRead_readsFile_iff {cur : BlockDevState} (h : Request spec cur length)
    : (∀ ops : IoBlockOps, ops.Exact spec.blockSize → ∀ w : World, w.cur = cur →
        ∃ w', ReadsFile { spec with ops } buffer length w w')
      ↔ LbaFits spec cur ∧ OneTransfer spec cur length := by
  constructor
  . intro hall
    by_cases hone : OneTransfer spec cur length
    . refine ⟨?_, hone⟩
      by_contra hlba
      let w : World := {
        dev := fun a => if a = cur.base + cur.filePos then 1 else 0
        buf := fun _ => 0
        mem := fun _ => 0
        cur
        srcEnd := 0
      }
      have ⟨w', hread⟩ := hall (strictOps spec.blockSize) (strictOps_exact _) w rfl
      exact not_readsFile_of_not_lbaFits h.withOps (strictOps_exact _) hone rfl hlba w' hread
    . let w : World := { dev := fun _ => 1, buf := fun _ => 0, mem := fun _ => 0, cur, srcEnd := 0 }
      have ⟨w', hread⟩ := hall (strictOps spec.blockSize) (strictOps_exact _) w rfl
      exact absurd hread (not_readsFile_of_not_oneTransfer h.withOps rfl rfl rfl hone w')
  intro ⟨hlba, hone⟩ ops hops w hw
  subst hw
  have h : Request { spec with ops } w.cur length := h.withOps
  exact exists_readsFile h hops hlba hone

def blockRead.numbered : World := fourBlocksWorld (fun a => UInt8.ofNat a.toNat) fun _ => 0

theorem blockRead_readsFile_iff_fourBlocks : ∃ w', ReadsFile fourBlocks 3 2 blockRead.numbered w' := by
  have hfits : LbaFits fourBlocks fourBlocksState ∧ OneTransfer fourBlocks fourBlocksState 2 := by
    unfold LbaFits OneTransfer
    decide
  exact (blockRead_readsFile_iff (fourBlocks_request (by decide) (by decide))).mpr hfits
    (strictOps 4) (strictOps_exact 4) blockRead.numbered rfl

-- Both halves are read to the beginning of the destination, its second half is not written.
theorem not_readsFile_fourBlocks
    : Request fourBlocks fourBlocksState 16
      ∧ fourBlocks.ops.Exact 4
      ∧ ∀ w', ¬ReadsFile fourBlocks 0 16 blockRead.numbered w' := by
  refine ⟨fourBlocks_request (by decide) (by decide), strictOps_exact 4, ?_⟩
  intro w' hread
  have ⟨fuel, hfuel⟩ := hread.returns
  have hlast := hread.data 15 (by decide)
  cases hrun : blockRead fourBlocks 0 16 blockRead.numbered 2 with
  | none =>
    have : (blockRead fourBlocks 0 16 blockRead.numbered 2).isSome := by decide
    simp [hrun] at this
  | some r =>
    have heq := request_unique hrun hfuel
    have hmem : (blockRead fourBlocks 0 16 blockRead.numbered 2).map
        (fun r => r.toOption.map fun p => p.2.mem 15) = some (some 0) := by decide
    rw [hrun, heq] at hmem
    simp only [Option.map_some, Except.toOption, Option.some.injEq] at hmem
    rw [show ((0 : Nat) : Int) + (15 : Nat) = 15 from rfl, hmem] at hlast
    revert hlast
    decide

end Atf.IoBlock
