import Mathlib

/-!
The download of `drivers/dfu/dfu.c`. The hash is only printed and left out.
-/

namespace UBoot.Dfu

open List

structure DfuEntity where
  inited : Bool
  offset : Nat
  iBlkSeqNum : Nat
  -- The bytes from `i_buf_start` to `i_buf`, and the size from `i_buf_start` to `i_buf_end`.
  buf : List UInt8
  room : Nat
  -- What `write_medium` has got.
  written : List (Nat × List UInt8)
  deriving DecidableEq

section

-- The result of `write_medium` and the size that it stores.
variable (writeMedium : Nat → List UInt8 → Int × Nat)

def dfuWriteBufferDrain (dfu : DfuEntity) : Int × DfuEntity :=
  if dfu.buf.length = 0 then
    (0, dfu)
  else
    let (ret, wSize) := writeMedium dfu.offset dfu.buf
    (ret, { dfu with
      buf := [], offset := (dfu.offset + wSize) % 2 ^ 64, written := dfu.written ++ [(dfu.offset, dfu.buf)] })

def dfuWriteTransactionCleanup (dfu : DfuEntity) : DfuEntity :=
  { dfu with offset := 0, iBlkSeqNum := 0, buf := [], room := 0, inited := false }

def dfuFlush (flushMedium : Int) (dfu : DfuEntity) : Int × DfuEntity :=
  let (ret, dfu) := dfuWriteBufferDrain writeMedium dfu
  if ret ≠ 0 then (ret, dfu) else (flushMedium, dfuWriteTransactionCleanup dfu)

def dfuInit (dfuBufSize : Nat) (dfu : DfuEntity) : DfuEntity :=
  if dfu.inited then dfu
  else { dfu with offset := 0, iBlkSeqNum := 0, buf := [], room := dfuBufSize, inited := true }

def dfuWrite.drainIf (p : Prop) [Decidable p] (dfu : DfuEntity) : Int × DfuEntity :=
  if p then dfuWriteBufferDrain writeMedium dfu else (0, dfu)

def dfuWrite (dfuBufSize : Nat) (block : List UInt8) (blkSeqNum : Nat) (dfu : DfuEntity) : Int × DfuEntity :=
  let dfu := dfuInit dfuBufSize dfu
  if dfu.iBlkSeqNum ≠ blkSeqNum then
    (-1, dfuWriteTransactionCleanup dfu)
  else
    let dfu := { dfu with iBlkSeqNum := (dfu.iBlkSeqNum + 1) % 2 ^ 16 }
    -- flush buffer if overflow
    let (ret, dfu) := dfuWrite.drainIf writeMedium (dfu.buf.length + block.length > dfu.room) dfu
    if ret ≠ 0 then
      (ret, dfuWriteTransactionCleanup dfu)
    else if dfu.buf.length + block.length > dfu.room then
      (-1, dfuWriteTransactionCleanup dfu)
    else
      let dfu := { dfu with buf := dfu.buf ++ block }
      -- if end or if buffer full flush
      let (ret, dfu) := dfuWrite.drainIf writeMedium (block.length = 0 ∨ dfu.buf.length + block.length > dfu.room) dfu
      if ret ≠ 0 then (ret, dfuWriteTransactionCleanup dfu) else (0, dfu)

def download (dfuBufSize : Nat) : (blkSeqNum : Nat) → List (List UInt8) → DfuEntity → Int × DfuEntity
  | _, [], dfu => dfuFlush writeMedium 0 dfu
  | blkSeqNum, block :: blocks, dfu =>
    let (ret, dfu) := dfuWrite writeMedium dfuBufSize block (blkSeqNum % 2 ^ 16) dfu
    if ret ≠ 0 then (ret, dfu) else download dfuBufSize (blkSeqNum + 1) blocks dfu

end

def place (offset : Nat) : List (List UInt8) → List (Nat × List UInt8)
  | [] => []
  | chunk :: chunks => (offset % 2 ^ 64, chunk) :: place (offset + chunk.length) chunks

-- Each write takes all that it is given.
def takesAll (_ : Nat) (data : List UInt8) : Int × Nat := (0, data.length)

-- No transfer is under way.
def Idle (dfu : DfuEntity) : Prop := dfu.inited = false ∧ dfu.buf = []

-- The blocks are written at consecutive offsets from 0, behind what was written before.
def WritesAll (dfuBufSize : Nat) (blocks : List (List UInt8)) (dfu : DfuEntity) : Prop :=
  ∃ dfu' chunks, download takesAll dfuBufSize 0 blocks dfu = (0, dfu') ∧ Idle dfu'
    ∧ dfu'.written = dfu.written ++ place 0 chunks ∧ chunks.flatten = blocks.flatten

variable {dfu dfu0 : DfuEntity} {dfuBufSize n : Nat} {data block : List UInt8} {blocks : List (List UInt8)}

structure Sent (dfuBufSize n : Nat) (data : List UInt8) (dfu0 dfu : DfuEntity) : Prop where
  inited : dfu.inited = true
  room : dfu.room = dfuBufSize
  seq : dfu.iBlkSeqNum = n % 2 ^ 16
  le : dfu.buf.length ≤ dfuBufSize
  written : ∃ chunks, dfu.written = dfu0.written ++ place 0 chunks ∧ chunks.flatten ++ dfu.buf = data
    ∧ dfu.offset = chunks.flatten.length % 2 ^ 64

lemma place_append (offset : Nat) (chunks : List (List UInt8)) (chunk : List UInt8)
    : place offset (chunks ++ [chunk])
      = place offset chunks ++ [((offset + chunks.flatten.length) % 2 ^ 64, chunk)] := by
  induction chunks generalizing offset with
  | nil => simp [place]
  | cons c chunks ih => simp [place, ih, Nat.add_assoc]

section

variable (h : Sent dfuBufSize n data dfu0 dfu)

include h

lemma Sent.drain
    : ∃ dfu', dfuWriteBufferDrain takesAll dfu = (0, dfu') ∧ dfu'.buf = [] ∧ Sent dfuBufSize n data dfu0 dfu' := by
  unfold dfuWriteBufferDrain takesAll
  split
  . next hnil => exact ⟨dfu, rfl, length_eq_zero_iff.mp hnil, h⟩
  have ⟨chunks, hwritten, hdata, hoffset⟩ := h.written
  refine ⟨_, rfl, rfl, h.inited, h.room, h.seq, Nat.zero_le _, chunks ++ [dfu.buf], ?_, ?_, ?_⟩
  . rw [place_append, ← append_assoc, ← hwritten, hoffset, Nat.zero_add]
  . rw [flatten_concat, append_nil, hdata]
  . simp [hoffset]

lemma Sent.drainIf (p : Prop) [Decidable p]
    : ∃ dfu', dfuWrite.drainIf takesAll p dfu = (0, dfu') ∧ (dfu'.buf = [] ∨ dfu' = dfu ∧ ¬p)
      ∧ Sent dfuBufSize n data dfu0 dfu' := by
  unfold dfuWrite.drainIf
  split
  . have ⟨dfu', heq, hnil, h'⟩ := h.drain
    exact ⟨dfu', heq, .inl hnil, h'⟩
  . next hp => exact ⟨dfu, rfl, .inr ⟨rfl, hp⟩, h⟩

lemma Sent.write (hle : block.length ≤ dfuBufSize)
    : ∃ dfu', dfuWrite takesAll dfuBufSize block (n % 2 ^ 16) dfu = (0, dfu')
      ∧ Sent dfuBufSize (n + 1) (data ++ block) dfu0 dfu' := by
  have hnext : Sent dfuBufSize (n + 1) data dfu0 { dfu with iBlkSeqNum := (dfu.iBlkSeqNum + 1) % 2 ^ 16 } :=
    ⟨h.inited, h.room, by simp [h.seq], h.le, h.written⟩
  have ⟨dfu1, hdrain1, hroom, h1⟩ := hnext.drainIf (dfu.buf.length + block.length > dfu.room)
  have hfits : dfu1.buf.length + block.length ≤ dfuBufSize := by
    rcases hroom with hnil | ⟨heq, hfits⟩
    . simpa [hnil] using hle
    . rw [heq, ← h.room]
      exact Nat.not_lt.mp hfits
  have hput : Sent dfuBufSize (n + 1) (data ++ block) dfu0 { dfu1 with buf := dfu1.buf ++ block } := by
    have ⟨chunks, hwritten, hdata, hoffset⟩ := h1.written
    refine ⟨h1.inited, h1.room, h1.seq, by simpa using hfits, chunks, hwritten, ?_, hoffset⟩
    rw [← hdata, append_assoc]
  have ⟨dfu2, hdrain2, _, h2⟩ := hput.drainIf (block.length = 0 ∨ (dfu1.buf ++ block).length + block.length > dfu1.room)
  refine ⟨dfu2, ?_, h2⟩
  have hinit : dfuInit dfuBufSize dfu = dfu := if_pos h.inited
  unfold dfuWrite
  rw [hinit, if_neg (not_not_intro h.seq)]
  dsimp only
  rw [hdrain1]
  dsimp only
  rw [if_neg (by simp), if_neg (by rw [h1.room]; omega), hdrain2]
  rfl

lemma download_of_sent (hle : ∀ block ∈ blocks, block.length ≤ dfuBufSize)
    : ∃ dfu' chunks, download takesAll dfuBufSize n blocks dfu = (0, dfu')
      ∧ Idle dfu' ∧ dfu'.written = dfu0.written ++ place 0 chunks ∧ chunks.flatten = data ++ blocks.flatten := by
  induction blocks generalizing n data dfu with
  | nil =>
    have ⟨dfu', heq, hnil, h'⟩ := h.drain
    have ⟨chunks, hwritten, hdata, _⟩ := h'.written
    rw [hnil] at hdata
    refine ⟨dfuWriteTransactionCleanup dfu', chunks, ?_, ⟨rfl, rfl⟩, hwritten, by simpa using hdata⟩
    simp [download, dfuFlush, heq]
  | cons block blocks ih =>
    have ⟨hblock, hblocks⟩ := forall_mem_cons.mp hle
    have ⟨dfu', heq, h'⟩ := h.write hblock
    simp only [download, heq, ne_eq, not_true_eq_false, if_false, flatten_cons, ← append_assoc]
    exact ih h' hblocks

end

lemma writesAll_of_idle (h : Idle dfu) (hle : ∀ block ∈ blocks, block.length ≤ dfuBufSize)
    : WritesAll dfuBufSize blocks dfu := by
  cases blocks with
  | nil =>
    refine ⟨dfuWriteTransactionCleanup dfu, [], ?_, ⟨rfl, rfl⟩, by simp [place, dfuWriteTransactionCleanup], rfl⟩
    simp [download, dfuFlush, dfuWriteBufferDrain, h.2]
  | cons block blocks =>
    have hinit : Sent dfuBufSize 0 [] dfu (dfuInit dfuBufSize dfu) := by
      unfold dfuInit
      rw [h.1]
      exact ⟨rfl, rfl, rfl, Nat.zero_le _, [], by simp [place], rfl, rfl⟩
    have hwrite (n : Nat) : dfuWrite takesAll dfuBufSize block n dfu
        = dfuWrite takesAll dfuBufSize block n (dfuInit dfuBufSize dfu) := by
      unfold dfuWrite
      rw [show dfuInit dfuBufSize (dfuInit dfuBufSize dfu) = _ from if_pos hinit.inited]
    have hdownload := download_of_sent hinit hle
    unfold WritesAll
    unfold download at hdownload ⊢
    rwa [hwrite]

theorem dfu_download_faithful (writeMedium : Nat → List UInt8 → Int × Nat)
    (hle : ∀ block ∈ blocks, block.length ≤ dfuBufSize)
    : (∀ dfu, Idle dfu → WritesAll dfuBufSize blocks dfu)
      ∧ ∀ dfu block blkSeqNum, (dfuInit dfuBufSize dfu).iBlkSeqNum ≠ blkSeqNum →
        let res := dfuWrite writeMedium dfuBufSize block blkSeqNum dfu
        res.1 ≠ 0 ∧ Idle res.2 ∧ res.2.written = dfu.written := by
  refine ⟨fun dfu hidle => writesAll_of_idle hidle hle, ?_⟩
  intro dfu block blkSeqNum hne
  unfold dfuWrite
  rw [if_pos hne]
  refine ⟨by simp, ⟨rfl, rfl⟩, ?_⟩
  unfold dfuWriteTransactionCleanup dfuInit
  split <;> rfl

def fresh : DfuEntity := ⟨false, 0, 0, [], 0, []⟩

theorem dfu_download_twoBlocks : WritesAll 3 [[1, 2], [3, 4]] fresh :=
  (dfu_download_faithful takesAll (by decide)).1 fresh ⟨rfl, rfl⟩

end UBoot.Dfu
