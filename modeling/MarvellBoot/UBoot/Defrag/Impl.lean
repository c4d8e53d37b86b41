import MarvellBoot.Lib.Bytes

/-!
The reassembly of IP fragments, `__net_defragment` of `net/net.c`. The missing parts of the packet are
a linked list of descriptors that lie in the parts themselves.
-/

namespace UBoot.Defrag

open Mem

def ipPktsize : Nat := 16384
def ipHdrSize : Nat := 20
def ipMaxudp : Int := ipPktsize - ipHdrSize

-- The static variables of the function, `buff` is indexed from the start of `pkt_buff`.
structure State where
  buff : Int → UInt8
  firstHole : Nat
  totalLen : Nat

structure Hole where
  lastByte : Nat
  nextHole : Nat
  prevHole : Nat
  deriving Repr, DecidableEq

def payload (i : Nat) : Int := ipHdrSize + 8 * i

def hole (buff : Int → UInt8) (i : Nat) : Hole where
  lastByte := Bytes.loadLe buff (payload i) 2
  nextHole := Bytes.loadLe buff (payload i + 2) 2
  prevHole := Bytes.loadLe buff (payload i + 4) 2

def State.setLastByte (s : State) (i x : Nat) : State := { s with buff := Bytes.storeLe s.buff (payload i) 2 x }

def State.setNextHole (s : State) (i x : Nat) : State := { s with buff := Bytes.storeLe s.buff (payload i + 2) 2 x }

def State.setPrevHole (s : State) (i x : Nat) : State := { s with buff := Bytes.storeLe s.buff (payload i + 4) 2 x }

def State.copyHole (s : State) (newh h : Nat) : State :=
  { s with buff := store s.buff (payload newh) (load s.buff (payload h) 8) }

def ntohs (ip : Int → UInt8) (offset : Int) : Nat := Bytes.val (load ip offset 2)

def ipLen (ip : Int → UInt8) : Nat := ntohs ip 2
def ipId (ip : Int → UInt8) : List UInt8 := load ip 4 2
def ipOff (ip : Int → UInt8) : Nat := ntohs ip 6

def ipOffs (ip : Int → UInt8) : Nat := ipOff ip % 2 ^ 13
def ipFlagsMfrag (ip : Int → UInt8) : Bool := (ipOff ip).testBit 13

def State.reset (s : State) (ip : Int → UInt8) : State :=
  let s := s.setLastByte 0 0xffff
  let s := s.setNextHole 0 0
  let s := s.setPrevHole 0 0
  { buff := store s.buff 0 (load ip 0 ipHdrSize), firstHole := 0, totalLen := 0xffff }

-- Whether there is a hole that far away. There is no result when the list does not end.
def findHole (buff : Int → UInt8) (start : Nat) : (fuel h : Nat) → Option (Option Nat)
  | 0, _ => none
  | fuel + 1, h =>
    if (hole buff h).lastByte < start then
      if (hole buff h).nextHole = 0 then
        some none
      else
        findHole buff start fuel (hole buff h).nextHole
    else
      some (some h)

def removeHole (s : State) (h : Nat) : Bool × State :=
  let d := hole s.buff h
  if d.prevHole = 0 ∧ d.nextHole = 0 then
    (true, s)
  else if d.prevHole = 0 then
    (false, { s with firstHole := d.nextHole }.setPrevHole d.nextHole 0)
  else if d.nextHole = 0 then
    (false, s.setNextHole d.prevHole 0)
  else
    (false, (s.setPrevHole d.nextHole d.prevHole).setNextHole d.prevHole d.nextHole)

def moveHole (s : State) (h newh : Nat) : State :=
  let s := s.copyHole newh h
  let d := hole s.buff newh
  let s := if d.nextHole ≠ 0 then s.setPrevHole d.nextHole newh else s
  if d.prevHole ≠ 0 then s.setNextHole d.prevHole newh else { s with firstHole := newh }

def splitHole (s : State) (h newh start : Nat) : State :=
  let s := s.copyHole newh h
  let s := s.setLastByte h start
  let s := s.setNextHole h newh
  let s := s.setPrevHole newh h
  let d := hole s.buff newh
  if d.nextHole ≠ 0 then s.setPrevHole d.nextHole newh else s

def Outside (i : Nat) : Prop := ipPktsize < payload i + 8 deriving Decidable

/--
The length that is stored in `*lenp` when the packet is complete. There is no result when memory
outside the packet buffer is written.
-/
def netDefragment (ip : Int → UInt8) (s : State) : Option (Option Nat × State) :=
  let offset8 := ipOffs ip
  let start := offset8 * 8
  let len : Int := ipLen ip - ipHdrSize
  -- `IP_MAXUDP` is unsigned, so a negative end is too far as well
  if start + len < 0 ∨ ipMaxudp < start + len then
    some (none, s)
  else
    let s := if s.totalLen = 0 ∨ ipId s.buff ≠ ipId ip then s.reset ip else s
    match findHole s.buff start (2 ^ 13) s.firstHole with
    | none => none
    | some none => some (none, s)
    | some (some h) =>
      if offset8 + (len + 7).tdiv 8 ≤ h then
        some (none, s)
      else
        let stop := (start + len).toNat
        let s := if ipFlagsMfrag ip = false then { s with totalLen := stop }.setLastByte h stop else s
        let lastByte := (hole s.buff h).lastByte
        let newh := (offset8 + len.tdiv 8).toNat
        let res :=
          if offset8 ≤ h ∧ lastByte ≤ stop then
            some (removeHole s h)
          else if lastByte ≤ stop then
            some (false, s.setLastByte h start)
          else if Outside newh then
            none
          else if offset8 ≤ h then
            some (false, moveHole s h newh)
          else
            some (false, splitHole s h newh start)
        match res with
        | none => none
        | some (done, s) =>
          if len < 0 then
            none
          else
            let s := { s with buff := store s.buff (payload offset8) (load ip ipHdrSize len.toNat) }
            if done = false then
              some (none, s)
            else
              let s := { s with buff := store s.buff 2 (Bytes.ofNat 2 s.totalLen) }
              some (some (s.totalLen + ipHdrSize), s)

end UBoot.Defrag
