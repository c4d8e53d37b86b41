import MarvellBoot.UBoot.Defrag.Impl

/-!
The parts of the packet buffer that `__net_defragment` reads and writes, and the checks of
`net_process_received_packet` before it is called.
-/

namespace UBoot.Defrag

open Mem

structure Range where
  start : Int
  nbytes : Int
  deriving Repr, DecidableEq

def Range.Inside (r : Range) : Prop := 0 ≤ r.nbytes ∧ 0 ≤ r.start ∧ r.start + r.nbytes ≤ ipPktsize

instance (r : Range) : Decidable r.Inside := inferInstanceAs (Decidable (_ ∧ _ ∧ _))

def descriptor (i : Int) : Range := ⟨ipHdrSize + 8 * i, 8⟩

def linkedTo (i : Int) : List Range := if i ≠ 0 then [descriptor i] else []

def ipStart (ip : Int → UInt8) : Nat := ipOffs ip * 8

def payloadLen (ip : Int → UInt8) : Int := ipLen ip - ipHdrSize

def TooFar (ip : Int → UInt8) : Prop := ipStart ip + payloadLen ip < 0 ∨ ipMaxudp < ipStart ip + payloadLen ip

instance (ip : Int → UInt8) : Decidable (TooFar ip) := inferInstanceAs (Decidable (_ ∨ _))

def Fresh (s : State) (ip : Int → UInt8) : Prop := s.totalLen = 0 ∨ ipId s.buff ≠ ipId ip

instance (s : State) (ip : Int → UInt8) : Decidable (Fresh s ip) := inferInstanceAs (Decidable (_ ∨ _))

def visited (buff : Int → UInt8) (start : Nat) : (fuel h : Nat) → List Nat
  | 0, _ => []
  | fuel + 1, h =>
    h :: if (hole buff h).lastByte < start ∧ (hole buff h).nextHole ≠ 0 then
      visited buff start fuel (hole buff h).nextHole
    else
      []

def Removes (buff : Int → UInt8) (ip : Int → UInt8) (h : Nat) : Prop :=
  ipOffs ip ≤ h ∧ (hole buff h).lastByte ≤ ipStart ip + payloadLen ip

instance (buff ip : Int → UInt8) (h : Nat) : Decidable (Removes buff ip h) := inferInstanceAs (Decidable (_ ∧ _))

def IsLastHole (buff : Int → UInt8) (h : Nat) : Prop := (hole buff h).prevHole = 0 ∧ (hole buff h).nextHole = 0

instance (buff : Int → UInt8) (h : Nat) : Decidable (IsLastHole buff h) := inferInstanceAs (Decidable (_ ∧ _))

def fixTouched (buff ip : Int → UInt8) (h : Nat) : List Range :=
  let d := hole buff h
  let newh := ipOffs ip + (payloadLen ip).tdiv 8
  if Removes buff ip h then
    linkedTo d.nextHole ++ linkedTo d.prevHole
  else if d.lastByte ≤ ipStart ip + payloadLen ip then
    []
  else if ipOffs ip ≤ h then
    -- the link back is written before `prev_hole` of the moved hole is read
    let prevHole := if d.nextHole ≠ 0 ∧ d.nextHole = newh then newh else d.prevHole
    descriptor newh :: linkedTo d.nextHole ++ linkedTo prevHole
  else
    let nextHole := if newh = h then newh else d.nextHole
    descriptor newh :: linkedTo nextHole

def touchedList (fuel : Nat) (ip : Int → UInt8) (s : State) : Option (List Range) :=
  let walk := (visited s.buff (ipStart ip) fuel s.firstHole).map fun h : Nat => descriptor h
  match findHole s.buff (ipStart ip) fuel s.firstHole with
  | none => none
  | some none => some walk
  | some (some h) =>
    if ipOffs ip + (payloadLen ip + 7).tdiv 8 ≤ h then
      some walk
    else
      let last := ((ipStart ip + payloadLen ip) % 2 ^ 16).toNat
      let buff := if ipFlagsMfrag ip = false then (s.setLastByte h last).buff else s.buff
      let length := if Removes buff ip h ∧ IsLastHole buff h then [⟨2, 2⟩] else []
      some (walk ++ fixTouched buff ip h ++ ⟨payload (ipOffs ip), payloadLen ip⟩ :: length)

def touched (fuel : Nat) (ip : Int → UInt8) (s : State) : Option (List Range) :=
  if TooFar ip then
    some []
  else
    let id := if s.totalLen = 0 then [] else [⟨4, 2⟩]
    if Fresh s ip then
      (touchedList fuel ip (s.reset ip)).map fun ranges => id ++ [descriptor 0, ⟨0, ipHdrSize⟩] ++ ranges
    else
      (touchedList fuel ip s).map fun ranges => id ++ ranges

def computeIpChecksum (ip : Int → UInt8) (nbytes : Nat) : Nat :=
  let sum := ((List.range (nbytes / 2)).map fun i : Nat => Bytes.loadLe ip (2 * i) 2).sum
  let sum := if nbytes % 2 = 1 then sum + (ip (nbytes - 1)).toNat else sum
  let sum := sum / 2 ^ 16 + sum % 2 ^ 16
  let sum := sum + sum / 2 ^ 16
  2 ^ 16 - 1 - sum % 2 ^ 16

-- The lowest bit is not looked at.
def ipChecksumOk (ip : Int → UInt8) (nbytes : Nat) : Bool := computeIpChecksum ip nbytes / 2 = 0

def ipUdpHdrSize : Nat := 28

def Passes (netIp : List UInt8) (ip : Int → UInt8) (len : Nat) : Prop :=
  ipUdpHdrSize ≤ len ∧ ipLen ip ≤ len ∧ ip 0 &&& 0xf0 = 0x40 ∧ ip 0 &&& 0x0f ≤ 0x05
    ∧ ipChecksumOk ip ipHdrSize = true
    ∧ (netIp = [0, 0, 0, 0] ∨ load ip 16 4 = netIp ∨ load ip 16 4 = [0xff, 0xff, 0xff, 0xff])

instance (netIp : List UInt8) (ip : Int → UInt8) (len : Nat) : Decidable (Passes netIp ip len) :=
  inferInstanceAs (Decidable (_ ∧ _ ∧ _ ∧ _ ∧ _ ∧ _))

def IsFragment (ip : Int → UInt8) : Prop := ipOffs ip ≠ 0 ∨ ipFlagsMfrag ip = true

instance (ip : Int → UInt8) : Decidable (IsFragment ip) := inferInstanceAs (Decidable (_ ∨ _))

end UBoot.Defrag
