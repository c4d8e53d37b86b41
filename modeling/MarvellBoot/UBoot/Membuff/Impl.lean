import MarvellBoot.Lib.Loop
import MarvellBoot.UBoot.CString

/-!
The byte buffer of `lib/membuff.c`. The bytes of the caller are lists, the pointers of the buffer are
addresses of the memory it lives in.
-/

namespace UBoot.Membuff

open Mem Loop CString

def E2BIG : Int := 7
def ENOMEM : Int := 12

structure Buff where
  start : Int
  stop : Int
  head : Int
  tail : Int
  deriving Repr, DecidableEq

def membuffPurge (mb : Buff) : Buff := { mb with head := mb.start, tail := mb.start }

def membuffInit (buff size : Int) : Buff := membuffPurge { start := buff, stop := buff + size, head := 0, tail := 0 }

-- Lengths are not clamped by a negative one.
def clamp (maxlen len : Int) : Int := if 0 ≤ maxlen ∧ maxlen < len then maxlen else len

def membuffPutrawflex (mb : Buff) (maxlen : Int) (update : Bool) : Int × Int × Buff :=
  let offset := mb.head - mb.start
  if mb.start = 0 then
    (0, offset, mb)
  else if mb.tail ≤ mb.head then
    let len := clamp maxlen (mb.stop - mb.head - 1)
    let res := if update then { mb with head := mb.head + len } else mb
    -- one more byte can be written right at the end
    if (maxlen < 0 ∨ len < maxlen) ∧ mb.tail ≠ mb.start then
      (len + 1, offset, if update then { res with head := mb.start } else res)
    else
      (len, offset, res)
  else
    let len := clamp maxlen (mb.tail - mb.head - 1)
    (len, offset, if update then { mb with head := mb.head + len } else mb)

def membuffPutraw (mb : Buff) (maxlen : Int) (update : Bool) : Int × Int × Buff :=
  let (size, offset, res) := membuffPutrawflex mb maxlen update
  (size, res.start + offset, res)

def toChar (ch : Int) : UInt8 := UInt8.ofNat (ch % 256).toNat

def membuffPutbyte (m : Int → UInt8) (mb : Buff) (ch : Int) : Bool × (Int → UInt8) × Buff :=
  let (size, data, mb) := membuffPutraw mb 1 true
  if size ≠ 1 then
    (false, m, mb)
  else
    (true, store m data [toChar ch], mb)

def membuffGetraw (mb : Buff) (maxlen : Int) (update : Bool) : Int × Int × Buff :=
  if mb.tail < mb.head then
    let len := clamp maxlen (mb.head - mb.tail)
    (len, mb.tail, if update then { mb with tail := mb.tail + len } else mb)
  else if mb.head < mb.tail then
    let len := clamp maxlen (mb.stop - mb.tail)
    let tail := if mb.tail + len = mb.stop then mb.start else mb.tail + len
    (len, mb.tail, if update then { mb with tail } else mb)
  else
    (0, 0, mb)

def membuffGetbyte (m : Int → UInt8) (mb : Buff) : Int × Buff :=
  let (len, data, mb) := membuffGetraw mb 1 true
  (if len ≠ 1 then -1 else (m data).toNat, mb)

def membuffPeekbyte (m : Int → UInt8) (mb : Buff) : Int :=
  let (len, data, _) := membuffGetraw mb 1 false
  if len ≠ 1 then -1 else (m data).toNat

def membuffGetLoop (m : Int → UInt8) : (rounds : Nat) → Buff → (maxlen : Int) → List UInt8 × Buff
  | 0, mb, _ => ([], mb)
  | rounds + 1, mb, maxlen =>
    let (len, data, mb) := membuffGetraw mb maxlen true
    let res := if len = 0 then ([], mb) else membuffGetLoop m rounds mb (maxlen - len)
    (load m data len.toNat ++ res.1, res.2)

def membuffGet (m : Int → UInt8) (mb : Buff) (maxlen : Int) : List UInt8 × Buff := membuffGetLoop m 2 mb maxlen

def membuffPutLoop : (rounds : Nat) → (Int → UInt8) → Buff → List UInt8 → Int × (Int → UInt8) × Buff
  | 0, m, mb, _ => (0, m, mb)
  | rounds + 1, m, mb, buff =>
    let (towrite, data, mb) := membuffPutraw mb buff.length true
    let m := store m data (buff.take towrite.toNat)
    let res := membuffPutLoop rounds m mb (buff.drop towrite.toNat)
    (towrite + res.1, res.2)

def membuffPut (m : Int → UInt8) (mb : Buff) (buff : List UInt8) : Int × (Int → UInt8) × Buff :=
  membuffPutLoop 2 m mb buff

def membuffAvail (mb : Buff) : Int :=
  let (len, _, copy) := membuffGetraw mb (-1) true
  let (len', _, _) := membuffGetraw copy (-1) true
  len + len'

def membuffSize (mb : Buff) : Int := mb.stop - mb.start

def membuffMakecontig (m : Int → UInt8) (mb : Buff) : Bool × (Int → UInt8) × Buff :=
  if mb.head < mb.tail then
    let topsize := mb.stop - mb.tail
    let botsize := mb.head - mb.start
    if mb.tail ≤ mb.head + topsize then
      (false, m, mb)
    else
      let m := memmove m (mb.start + topsize) mb.start botsize.toNat
      let m := memcpy m mb.start mb.tail topsize.toNat
      (true, m, { mb with tail := mb.start, head := mb.start + topsize + botsize })
  else
    let topsize := mb.head - mb.tail
    let m := memcpy m mb.start mb.tail topsize.toNat
    (true, m, { mb with tail := mb.start, head := mb.start + topsize })

def membuffFree (mb : Buff) : Int := if mb.stop = mb.start then 0 else mb.stop - mb.start - 1 - membuffAvail mb

def isTerminator (minch : Int) (c : UInt8) : Bool := c.toNat = 10 || c.toNat < minch

-- Whether the line has an end, the bytes stored and where reading stopped. After the bottom part has
-- been read it is read again.
def membuffReadlineLoop (m : Int → UInt8) (mb : Buff) (minch : Int)
    : (left : Nat) → (s stop : Int) → (str : List UInt8) → Bool × List UInt8 × Int
  | 0, s, _, str => (false, str, s)
  | left + 1, s, stop, str =>
    if s < stop then
      let c := m s
      if isTerminator minch c then
        -- the terminator is overwritten
        (true, str ++ [0], s + 1)
      else if s + 1 = stop ∧ mb.head < mb.tail then
        membuffReadlineLoop m mb minch left mb.start mb.head (str ++ [c])
      else
        membuffReadlineLoop m mb minch left (s + 1) stop (str ++ [c])
    else
      (false, str, s)

def membuffReadline (m : Int → UInt8) (mb : Buff) (maxlen minch : Int) : Int × List UInt8 × Buff :=
  let stop := if mb.tail ≤ mb.head then mb.head else mb.stop
  let (ok, str, s) := membuffReadlineLoop m mb minch (maxlen - 1).toNat mb.tail stop []
  if ok = false then
    (0, if maxlen ≠ 0 then 0 :: str.drop 1 else str, mb)
  else
    (str.length, str, { mb with tail := if s = mb.stop then mb.start else s })

structure Realloc where
  realloc : (m : Int → UInt8) → (ptr : Int) → (old size : Nat) → Option (Int × (Int → UInt8))
  ne_null : ∀ m ptr old size ptr' m', realloc m ptr old size = some (ptr', m') → ptr' ≠ 0
  keeps : ∀ m ptr old size ptr' m', realloc m ptr old size = some (ptr', m') →
    ∀ i : Nat, i < old → i < size → m' (ptr' + i) = m (ptr + i)

def toI32 (x : Int) : Int := Int.bmod x (2 ^ 32)

def doubleBody (goal size : Int) : Next Int Int := if size < goal then .again (toI32 (size * 2)) else .done size

-- There is no result when the loop that doubles the size does not end.
def membuffExtendBy (r : Realloc) (fuel : Nat) (m : Int → UInt8) (mb : Buff) (by' max : Int)
    : Option (Int × (Int → UInt8) × Buff) :=
  let orig := mb.stop - mb.start
  match Loop.run (doubleBody (toI32 (orig + by'))) fuel orig with
  | none => none
  | some size =>
    let size := if max ≠ -1 then min size max else size
    let by' := toI32 (size - orig)
    if by' ≤ 0 then
      some (-E2BIG, m, mb)
    else
      match r.realloc m mb.start orig.toNat (Size.ofInt size) with
      | none => some (-ENOMEM, m, mb)
      | some (ptr, m) =>
        let head := ptr + (mb.head - mb.start)
        let tail := ptr + (mb.tail - mb.start)
        if head < tail then
          let m := memmove m (tail + by') tail (orig - (mb.tail - mb.start)).toNat
          some (0, m, { start := ptr, stop := ptr + size, head, tail := tail + by' })
        else
          some (0, m, { start := ptr, stop := ptr + size, head, tail })

end UBoot.Membuff
