import MarvellBoot.Atf.IoBlock.Lemmas.Request

namespace Atf.IoBlock

open Mem Loop Size

namespace blockWrite

variable {spec : IoBlockDevSpec} {buffer padding : Nat} {s : LoopState}

structure Takes (spec : IoBlockDevSpec) (buffer m : Nat) (s : LoopState) (w : World) : Prop where
  dev : w.dev = store s.w.dev (lbaOf spec s.w.cur * spec.blockSize + s.skip) (load s.w.mem buffer m)
  mem : w.mem = s.w.mem
  srcEnd : w.srcEnd = max s.w.srcEnd m
  cur : w.cur = { s.w.cur with filePos := Size.add s.w.cur.filePos m }

lemma exists_takes {size m : Nat} (b : Bool) (hops : spec.ops.Exact spec.blockSize) (hmod : size % spec.blockSize = 0)
    (hle : s.skip + m ≤ size) (hdirect : b = false → s.skip = 0 ∧ m = size)
    : ∃ w, (if b = true then bounceWrite spec buffer (lbaOf spec s.w.cur) size s.skip m s.w
          else directWrite spec buffer (lbaOf spec s.w.cur) size s.w) = .ok w
        ∧ Takes spec buffer m s (w.advance m) := by
  cases b with
  | true =>
    rw [if_pos rfl]
    unfold bounceWrite
    dsimp only
    rw [hops.read _ _ _ hmod, length_load, if_pos rfl]
    rw [hops.write _ _ _ (by rw [length_load]; exact hmod), length_load, if_pos rfl]
    rw [store_load_store _ _ _ (by rw [length_load]; exact hle)]
    exact ⟨_, rfl, rfl, rfl, rfl, rfl⟩
  | false =>
    have ⟨hskip, hm⟩ := hdirect rfl
    rw [if_neg (by decide)]
    unfold directWrite
    rw [hops.write _ _ _ (by rw [length_load]; exact hmod), length_load, if_pos rfl]
    refine ⟨_, rfl, ?_, rfl, ?_, rfl⟩
    . simp [World.advance, hskip, hm]
    . simp [World.advance, hm]

lemma transfers (buffer padding : Nat) (hops : spec.ops.Exact spec.blockSize)
    (hmod : spec.buffer.length % spec.blockSize = 0)
    : Transfers spec padding (body spec buffer padding) (Takes spec buffer) where
  full := by
    intro s hlen hskip hlt
    have hsub := sub_eq hskip (by omega)
    have hleft := sub_eq (a := s.left) (b := spec.buffer.length - s.skip) (by omega) hlt
    unfold body
    dsimp only
    rw [if_pos hlen, hsub, hleft]
    have ⟨w, hw, htakes⟩ := @exists_takes spec buffer s _ _ (s.skip ≠ 0 || bufferNotAligned spec buffer) hops hmod
      (Nat.le_of_eq (Nat.add_sub_of_le hskip)) (by simp; omega)
    rw [hw]
    exact ⟨_, rfl, htakes⟩
  last := by
    intro s hlen hleft hpad hlt
    have hadd := add_eq (a := s.skip) (b := padding) (by omega)
    have hsub := sub_eq hpad hlt
    have hsub1 := sub_eq (a := s.left) (b := s.skip) (by omega) hlt
    have hsub2 := sub_eq (a := s.left - s.skip) (b := padding) (by omega) (by omega)
    unfold body
    rw [if_neg (by omega), hadd, hsub, hsub1, hsub2, Nat.sub_sub]
    have ⟨w, hw, htakes⟩ := @exists_takes spec buffer s _ (s.left - (s.skip + padding))
      (s.skip ≠ 0 || padding ≠ 0 || bufferNotAligned spec buffer) hops hleft (by omega) (by simp; omega)
    rw [hw]
    exact ⟨_, rfl, htakes⟩
  cur := by
    intro m s w hw
    exact hw.cur

lemma refusesParts (hops : spec.ops = strictOps spec.blockSize) : RefusesParts spec (body spec buffer padding) := by
  intro s hlen hleft
  have hne : 0 ≠ s.left := by
    intro hzero
    rw [← hzero] at hleft
    simp at hleft
  unfold body
  rw [if_neg (by omega)]
  by_cases hbranch : (s.skip ≠ 0 || padding ≠ 0 || bufferNotAligned spec buffer) = true
  . rw [if_pos hbranch]
    simp [bounceWrite, hops, strictOps, hleft, hne]
  . rw [if_neg hbranch]
    simp [directWrite, hops, strictOps, hleft, hne]

end blockWrite

structure WritesFile (spec : IoBlockDevSpec) (buffer length : Nat) (w w' : World) : Prop where
  returns : ∃ fuel, blockWrite spec buffer length w fuel = some (.ok (length, w'))
  data : ∀ i < length, w'.dev (w.cur.base + w.cur.filePos + i) = w.mem (buffer + i)
  frame : ∀ a, a < (w.cur.base + w.cur.filePos : Int) ∨ w.cur.base + w.cur.filePos + length ≤ a → w'.dev a = w.dev a
  srcEnd : w'.srcEnd ≤ max w.srcEnd length
  filePos : w'.cur.filePos = w.cur.filePos + length

variable {spec : IoBlockDevSpec} {buffer length : Nat} {w : World}

lemma WritesFile.returns_body {w' : World} (h : Request spec w.cur length)
    (hwrite : WritesFile spec buffer length w w')
    : Returns (blockWrite.body spec buffer
        (paddingOf spec (w.cur.filePos % spec.blockSize) length)) (initState spec length w) (.ok w') := by
  have ⟨fuel, hfuel⟩ := hwrite.returns
  exact returns_of_request_eq_some h hfuel

section

variable (h : Request spec w.cur length)

include h

lemma exists_writesFile (hops : spec.ops.Exact spec.blockSize)
    (hlba : LbaFits spec w.cur) (hone : OneTransfer spec w.cur length)
    : ∃ w', WritesFile spec buffer length w w' := by
  have ⟨w', hret, hw'⟩ := h.exists_step_of_oneTransfer (blockWrite.transfers buffer _ hops h.buffer_mod) hone
  have haddr := (lbaOf_mul_eq_iff h).mpr hlba
  have hdev := hw'.dev
  dsimp only [initState] at hdev
  rw [haddr] at hdev
  refine ⟨w', exists_request_of_returns h hret, ?_, ?_, ?_, ?_⟩
  . intro i hi
    rw [hdev, store_load_of_mem _ _ (by omega) (by omega)]
    have hi : (buffer : Int) + (w.cur.base + w.cur.filePos + i - ((w.cur.base + w.cur.filePos : Nat) : Int))
        = buffer + i := by omega
    rw [hi]
  . intro a ha
    rw [hdev]
    cases ha with
    | inl ha => exact store_of_lt _ _ (by omega)
    | inr ha =>
      apply store_of_ge
      rw [length_load]
      omega
  . rw [hw'.srcEnd]
    rfl
  rw [hw'.cur]
  have := h.length_le
  have := h.size_lt
  exact add_eq (by dsimp only [initState]; omega)

lemma not_writesFile_of_not_oneTransfer
    (hops : spec.ops = strictOps spec.blockSize) (hdev : w.dev = fun _ => 0)
    (hmem : w.mem = fun a : Int => if a = buffer + (length - 1 : Nat) then 1 else 0)
    (hone : ¬OneTransfer spec w.cur length) (w' : World)
    : ¬WritesFile spec buffer length w w' := by
  intro hwrite
  have hret := hwrite.returns_body h
  have hexact : spec.ops.Exact spec.blockSize := by
    rw [hops]
    exact strictOps_exact _
  have ht := blockWrite.transfers buffer (paddingOf spec (w.cur.filePos % spec.blockSize) length) hexact h.buffer_mod
  unfold OneTransfer at hone
  by_cases hskip : w.cur.filePos % spec.blockSize = 0
  . by_cases hshort : length < spec.buffer.length
    . exact h.filePos_of_short ht hskip hshort (by omega) hret hwrite.filePos
    . -- only zeros at the beginning of the source are ever written
      have hinv := h.inv_of_long ht hskip
        (I := fun w1 => w1.dev = (fun _ => 0) ∧ w1.mem = w.mem) ⟨hdev, rfl⟩
        (by
          intro m s w1 hm hs ⟨hI, hI'⟩ hw1
          refine ⟨?_, by rw [hw1.mem, hI']⟩
          rw [hw1.dev, hI, hI']
          funext x
          unfold store
          split
          . next hx =>
            rw [length_load] at hx
            rw [load_getD _ _ (by omega), hmem]
            dsimp only
            rw [if_neg (by omega)]
          . rfl)
        hret
      have hlast := hwrite.data (length - 1) (by have := h.length_pos; omega)
      rw [hinv.1, hmem] at hlast
      simp at hlast
  . have := h.error_of_skip ht (blockWrite.refusesParts hops) hskip (by omega) hret
    simp at this

lemma not_writesFile_of_not_lbaFits
    (hops : spec.ops.Exact spec.blockSize) (hone : OneTransfer spec w.cur length)
    (hdev : w.dev = fun _ => 0) (hmem : w.mem = fun a : Int => if a = buffer then 1 else 0)
    (hlba : ¬LbaFits spec w.cur) (w' : World)
    : ¬WritesFile spec buffer length w w' := by
  intro hwrite
  have ⟨w1, hret, hw1⟩ := h.exists_step_of_oneTransfer (blockWrite.transfers buffer _ hops h.buffer_mod) hone
  have heq := hret.unique (hwrite.returns_body h)
  injection heq with heq
  have hpos := h.length_pos
  have hfirst := hwrite.data 0 (by omega)
  rw [← lbaOf_mul_eq_iff h] at hlba
  rw [← heq, hw1.dev] at hfirst
  dsimp only [initState] at hfirst
  unfold store at hfirst
  split at hfirst
  . next hx =>
    rw [length_load] at hx
    rw [load_getD _ _ (by omega), hmem] at hfirst
    dsimp only at hfirst
    rw [if_neg (by push_cast; omega), if_pos (by omega)] at hfirst
    simp at hfirst
  . rw [hdev, hmem] at hfirst
    simp at hfirst

end

theorem blockWrite_writesFile_iff {cur : BlockDevState} (h : Request spec cur length)
    : (∀ ops : IoBlockOps, ops.Exact spec.blockSize → ∀ w : World, w.cur = cur →
        ∃ w', WritesFile { spec with ops } buffer length w w')
      ↔ LbaFits spec cur ∧ OneTransfer spec cur length := by
  constructor
  . intro hall
    by_cases hone : OneTransfer spec cur length
    . refine ⟨?_, hone⟩
      by_contra hlba
      let w : World := {
        dev := fun _ => 0
        buf := fun _ => 0
        mem := fun a => if a = buffer then 1 else 0
        cur
        srcEnd := 0
      }
      have ⟨w', hwrite⟩ := hall (strictOps spec.blockSize) (strictOps_exact _) w rfl
      exact not_writesFile_of_not_lbaFits h.withOps (strictOps_exact _) hone rfl rfl hlba w' hwrite
    let w : World := {
      dev := fun _ => 0
      buf := fun _ => 0
      mem := fun a => if a = buffer + (length - 1 : Nat) then 1 else 0
      cur
      srcEnd := 0
    }
    have ⟨w', hwrite⟩ := hall (strictOps spec.blockSize) (strictOps_exact _) w rfl
    exact absurd hwrite (not_writesFile_of_not_oneTransfer h.withOps rfl rfl rfl hone w')
  intro ⟨hlba, hone⟩ ops hops w hw
  subst hw
  have h : Request { spec with ops } w.cur length := h.withOps
  exact exists_writesFile h hops hlba hone

def blockWrite.numbered : World := fourBlocksWorld (fun _ => 0) fun a => UInt8.ofNat a.toNat

theorem blockWrite_writesFile_iff_fourBlocks : ∃ w', WritesFile fourBlocks 3 2 blockWrite.numbered w' := by
  have hfits : LbaFits fourBlocks fourBlocksState ∧ OneTransfer fourBlocks fourBlocksState 2 := by
    unfold LbaFits OneTransfer
    decide
  exact (blockWrite_writesFile_iff (fourBlocks_request (by decide) (by decide))).mpr hfits
    (strictOps 4) (strictOps_exact 4) blockWrite.numbered rfl

-- The first half of the source is written twice, the second half never.
theorem not_writesFile_fourBlocks
    : Request fourBlocks fourBlocksState 16
      ∧ fourBlocks.ops.Exact 4
      ∧ ∀ w', ¬WritesFile fourBlocks 0 16 blockWrite.numbered w' := by
  refine ⟨fourBlocks_request (by decide) (by decide), strictOps_exact 4, ?_⟩
  intro w' hwrite
  have ⟨fuel, hfuel⟩ := hwrite.returns
  have hlast := hwrite.data 15 (by decide)
  cases hrun : blockWrite fourBlocks 0 16 blockWrite.numbered 2 with
  | none =>
    have : (blockWrite fourBlocks 0 16 blockWrite.numbered 2).isSome := by decide
    simp [hrun] at this
  | some r =>
    have heq := request_unique hrun hfuel
    have hdev : (blockWrite fourBlocks 0 16 blockWrite.numbered 2).map
        (fun r => r.toOption.map fun p => p.2.dev 15) = some (some 7) := by decide
    rw [hrun, heq] at hdev
    simp only [Option.map_some, Except.toOption, Option.some.injEq] at hdev
    have haddr : (blockWrite.numbered.cur.base : Int) + blockWrite.numbered.cur.filePos + (15 : Nat) = 15 := rfl
    rw [haddr, hdev] at hlast
    revert hlast
    decide

end Atf.IoBlock
