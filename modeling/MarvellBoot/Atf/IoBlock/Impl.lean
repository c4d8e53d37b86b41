import MarvellBoot.Lib.Loop
import MarvellBoot.Lib.Mem

/-!
The block device driver of `drivers/io/io_block.c`. The memory of the caller, the block buffer
and the device are separate. A byte of the device is addressed by `lba * block_size + i` where `lba`
is the `int` that the driver hands to the operations of the device.
-/

namespace Atf.IoBlock

open Mem Loop

inductive Fault where
  | assertion
  deriving Repr, DecidableEq

structure IoBlockSpec where
  offset : Nat
  length : Nat
  deriving Repr, DecidableEq

structure IoBlockOps where
  read : (Int → UInt8) → Int → Nat → List UInt8
  write : (Int → UInt8) → Int → List UInt8 → (Int → UInt8) × Nat

structure IoBlockDevSpec where
  buffer : IoBlockSpec
  ops : IoBlockOps
  blockSize : Nat

structure BlockDevState where
  base : Nat
  filePos : Nat
  size : Nat
  deriving Repr, DecidableEq

-- `srcEnd` is one past the last byte of the caller's buffer that was read, the driver has no such field.
structure World where
  dev : Int → UInt8
  buf : Int → UInt8
  mem : Int → UInt8
  cur : BlockDevState
  srcEnd : Nat

structure IoBlockOps.Exact (ops : IoBlockOps) (blockSize : Nat) : Prop where
  read : ∀ dev lba n, n % blockSize = 0 → ops.read dev lba n = load dev (lba * blockSize) n
  write : ∀ dev lba data, data.length % blockSize = 0 →
    ops.write dev lba data = (store dev (lba * blockSize) data, data.length)

def isPowerOf2 (x : Nat) : Bool := x ≠ 0 && x &&& (x - 1) = 0

def blockDevOpen (spec : IoBlockDevSpec) : Except Fault Unit :=
  if 0 < spec.blockSize ∧ isPowerOf2 spec.blockSize ∧ spec.buffer.offset % spec.blockSize = 0
      ∧ spec.buffer.length % spec.blockSize = 0 then
    .ok ()
  else
    .error .assertion

def blockOpen (spec : IoBlockDevSpec) (region : IoBlockSpec) : Except Fault BlockDevState :=
  if region.offset % spec.blockSize = 0 ∧ region.length % spec.blockSize = 0 then
    .ok { base := region.offset, size := region.length, filePos := 0 }
  else
    .error .assertion

structure LoopState where
  left : Nat
  skip : Nat
  w : World

def bufferNotAligned (spec : IoBlockDevSpec) (buffer : Nat) : Bool := buffer &&& (spec.blockSize - 1) ≠ 0

def alignedLength (spec : IoBlockDevSpec) (skip length : Nat) : Nat :=
  Size.add (Size.add skip length) (spec.blockSize - 1) &&& (2 ^ 64 - 1 - (spec.blockSize - 1))

def paddingOf (spec : IoBlockDevSpec) (skip length : Nat) : Nat :=
  Size.sub (alignedLength spec skip length) (Size.add skip length)

def lbaOf (spec : IoBlockDevSpec) (cur : BlockDevState) : Int :=
  Size.toInt (Size.add cur.filePos cur.base / spec.blockSize)

def World.advance (w : World) (n : Nat) : World := { w with cur := { w.cur with filePos := Size.add w.cur.filePos n } }

def initState (spec : IoBlockDevSpec) (length : Nat) (w : World) : LoopState :=
  let skip := w.cur.filePos % spec.blockSize
  { left := alignedLength spec skip length, skip, w }

def nextIter (spec : IoBlockDevSpec) (left : Nat) (w : World) : Next LoopState (Except Fault World) :=
  if 0 < left then
    .again { left, skip := w.cur.filePos % spec.blockSize, w }
  else
    .done (.ok w)

-- The frame that `block_read` and `block_write` share. The first component of the result is
-- `*length_read` or `*length_written`, a return is always a return of 0.
def request (body : Nat → LoopState → Next LoopState (Except Fault World)) (spec : IoBlockDevSpec)
    (length : Nat) (w : World) (fuel : Nat)
    : Option (Except Fault (Nat × World)) :=
  if length ≤ w.cur.size ∧ 0 < length then
    let s := initState spec length w
    let res := run (body (paddingOf spec s.skip length)) fuel s
    res.map fun r => r.map fun w => (length, w)
  else
    some (.error .assertion)

namespace blockRead

def transfer (buffer : Nat) (bounce : Bool) (data : List UInt8) (w : World) : World :=
  if bounce then
    { w with buf := store w.buf 0 data }
  else
    { w with mem := store w.mem buffer data }

def copyOut (buffer : Nat) (bounce : Bool) (skip n : Nat) (w : World) : World :=
  if bounce then
    { w with mem := store w.mem buffer (load w.buf skip n) }
  else
    w

def body (spec : IoBlockDevSpec) (buffer padding : Nat) (s : LoopState) : Next LoopState (Except Fault World) :=
  let lba := lbaOf spec s.w.cur
  if spec.buffer.length ≤ s.left then
    let bounce := s.skip ≠ 0 || bufferNotAligned spec buffer
    let data := spec.ops.read s.w.dev lba spec.buffer.length
    let count := data.length
    if count = spec.buffer.length then
      let w := transfer buffer bounce data s.w
      let w := w.advance (Size.sub count s.skip)
      let w := copyOut buffer bounce s.skip (Size.sub count s.skip) w
      -- `buffer` is not moved, the next iteration uses the same address
      nextIter spec (Size.sub s.left (Size.sub count s.skip)) w
    else
      .done (.error .assertion)
  else
    let bounce := s.skip ≠ 0 || padding ≠ 0 || bufferNotAligned spec buffer
    let data := spec.ops.read s.w.dev lba s.left
    let count := data.length
    if count = s.left then
      let w := transfer buffer bounce data s.w
      let left := Size.sub s.left (Size.add s.skip padding)
      let w := w.advance left
      let w := copyOut buffer bounce s.skip left w
      nextIter spec 0 w
    else
      .done (.error .assertion)

end blockRead

def blockRead (spec : IoBlockDevSpec) (buffer length : Nat) (w : World) (fuel : Nat)
    : Option (Except Fault (Nat × World)) :=
  request (blockRead.body spec buffer) spec length w fuel

namespace blockWrite

def bounceWrite (spec : IoBlockDevSpec) (buffer : Nat) (lba : Int) (size skip n : Nat) (w : World)
    : Except Fault World :=
  let data := spec.ops.read w.dev lba size
  if data.length = size then
    let src := load w.mem buffer n
    let buf := store (store w.buf 0 data) skip src
    let res := spec.ops.write w.dev lba (load buf 0 size)
    if res.2 = size then
      .ok { w with dev := res.1, buf, srcEnd := max w.srcEnd n }
    else
      .error .assertion
  else
    .error .assertion

def directWrite (spec : IoBlockDevSpec) (buffer : Nat) (lba : Int) (size : Nat) (w : World) : Except Fault World :=
  let res := spec.ops.write w.dev lba (load w.mem buffer size)
  if res.2 = size then
    .ok { w with dev := res.1, srcEnd := max w.srcEnd size }
  else
    .error .assertion

def body (spec : IoBlockDevSpec) (buffer padding : Nat) (s : LoopState) : Next LoopState (Except Fault World) :=
  let lba := lbaOf spec s.w.cur
  if spec.buffer.length ≤ s.left then
    let count := spec.buffer.length
    let n := Size.sub count s.skip
    let res :=
      if s.skip ≠ 0 || bufferNotAligned spec buffer then
        bounceWrite spec buffer lba count s.skip n s.w
      else
        directWrite spec buffer lba count s.w
    match res with
    | .error e => .done (.error e)
    | .ok w => nextIter spec (Size.sub s.left n) (w.advance n)
  else
    let n := Size.sub s.left (Size.add s.skip padding)
    let res :=
      if s.skip ≠ 0 || padding ≠ 0 || bufferNotAligned spec buffer then
        bounceWrite spec buffer lba s.left s.skip (Size.sub (Size.sub s.left s.skip) padding) s.w
      else
        directWrite spec buffer lba s.left s.w
    match res with
    | .error e => .done (.error e)
    | .ok w => nextIter spec 0 (w.advance n)

end blockWrite

def blockWrite (spec : IoBlockDevSpec) (buffer length : Nat) (w : World) (fuel : Nat)
    : Option (Except Fault (Nat × World)) :=
  request (blockWrite.body spec buffer) spec length w fuel

end Atf.IoBlock
