import MarvellBoot.Lib.Tlv

/-!
The BOOTP and DHCP client of `net/bootp.c`. `dhcp_handler` is there with `CONFIG_CMD_DHCP`, `bootp_handler` and its parser
without.
-/

namespace UBoot.Bootp

open Tlv

abbrev Ip := BitVec 32

abbrev Buf (n : Nat) := { l : List UInt8 // l.length = n }

def Buf.first (b : Buf n) : UInt8 := b.1.headD 0

def Buf.set (b : Buf n) (data : List UInt8) : Option (Buf n) :=
  if h : data.length < n then
    some ⟨data ++ 0 :: b.1.drop (data.length + 1), by
      have := b.2
      rw [List.length_append, List.length_cons, List.length_drop]
      omega⟩
  else
    none

structure Globals where
  netmask : Ip
  gateway : Ip
  dnsServer : Ip
  hostname : Buf 32
  rootPath : Buf 64
  nisDomain : Buf 32
  bootFileName : Buf 1024
  bootFileExpectedSizeInBlocks : BitVec 32
  dhcpLeasetime : BitVec 32
  dhcpOptionOverload : UInt8
  dhcpServerIp : Ip
  netIp : Ip
  netServerIp : Ip
  netServerEthaddr : BitVec 48

/--
A received payload. `mem` has the bytes from its start on, those behind the payload too. What is behind `mem` cannot be read.
-/
structure Packet where
  mem : List UInt8
  len : Nat
  dest : Nat
  src : Nat
  etSrc : BitVec 48
  len_le : len ≤ mem.length

namespace Packet

def offYiaddr : Nat := 16
def offSiaddr : Nat := 20
def offChaddr : Nat := 28
def offSname : Nat := 44
def offFile : Nat := 108
def offVend : Nat := 236

def u32 (pkt : Packet) (off : Nat) : BitVec 32 := BitVec.ofNat 32 (Bytes.val ((pkt.mem.drop off).take 4))

def yiaddr (pkt : Packet) : Ip := pkt.u32 offYiaddr

def payload (pkt : Packet) : Packet :=
  { pkt with
    mem := pkt.mem.take pkt.len
    len_le := by
      rw [List.length_take]
      exact Nat.le_min.mpr ⟨Nat.le_refl _, pkt.len_le⟩ }

end Packet

def bootpVendorMagic : BitVec 32 := 0x63825363
def optFieldSize : Nat := 312
def bootpHdrSize : Nat := Packet.offVend + optFieldSize

structure IdCache where
  ids : Fin 4 → BitVec 32
  num : Fin 5

def bootpAddId (c : IdCache) (id : BitVec 32) : IdCache :=
  if h : c.num.val < 4 then
    { ids := Function.update c.ids ⟨c.num.val, h⟩ id, num := ⟨c.num.val + 1, by omega⟩ }
  else
    -- `sizeof(id)` is 8, so that only two entries are moved.
    { c with
      ids := fun
        | 0 => c.ids 1
        | 1 => c.ids 2
        | 2 => c.ids 2
        | 3 => id }

def bootpMatchId (c : IdCache) (id : BitVec 32) : Bool :=
  (List.finRange 4).any fun i => i.val < c.num.val && c.ids i = id

inductive DhcpState where
  | init
  | initReboot
  | rebooting
  | selecting
  | requesting
  | rebinding
  | bound
  | renewing
  deriving Repr, DecidableEq

inductive Tx where
  | discover (id : BitVec 32)
  | request (id : BitVec 32) (serverId requestedIp : Option Ip)
  deriving Repr, DecidableEq

structure State where
  globals : Globals
  dhcpState : DhcpState
  ids : IdCache
  ethaddr : List UInt8
  tx : Option Tx
  -- A timeout handler is set.
  timer : Bool

def checkReplyPacket (s : State) (pkt : Packet) : Int :=
  if pkt.dest ≠ 68 ∨ pkt.src ≠ 67 then
    -1
  else if pkt.len < bootpHdrSize - optFieldSize then
    -2
  else if pkt.mem.getD 0 0 ≠ 2 then
    -3
  else if pkt.mem.getD 1 0 ≠ 1 then
    -4
  else if pkt.mem.getD 2 0 ≠ 6 then
    -5
  else if !bootpMatchId s.ids (pkt.u32 4) then
    -6
  else if (pkt.mem.drop Packet.offChaddr).take 6 ≠ s.ethaddr then
    -7
  else
    0

def truncateSz (maxlen curlen : Nat) : Nat := if maxlen ≤ curlen then maxlen - 1 else curlen

def copyFilename (dst : Buf n) (mem : List UInt8) (src size : Nat) : Option (Buf n) :=
  -- A quote at the start is left out, one further on ends the name.
  let skip := if mem.getD src 0 = 34 then 1 else 0
  dst.set (((mem.drop (src + skip)).takeWhile fun c => c ≠ 0 ∧ c ≠ 34).take (size - skip - 1))

def overloadFile : UInt8 := 1
def overloadSname : UInt8 := 2

def storeNetParams (g : Globals) (pkt : Packet) (dhcp : Bool) : Option Globals :=
  let siaddr := pkt.u32 Packet.offSiaddr
  let bootFileName :=
    if (dhcp → g.dhcpOptionOverload &&& overloadFile = 0) ∧ pkt.mem.getD Packet.offFile 0 ≠ 0 then
      copyFilename g.bootFileName pkt.mem Packet.offFile 1024
    else
      some g.bootFileName
  bootFileName.map fun bootFileName =>
    { g with
      netServerIp := if siaddr ≠ 0 then siaddr else g.netServerIp
      netServerEthaddr := pkt.etSrc
      bootFileName
      netIp := pkt.yiaddr }

def optionText (m : List UInt8) (popt oplen : Nat) (b : Buf n) : Option (Buf n) :=
  (readBytes m (popt + 2) (truncateSz n oplen)).bind b.set

def dhcpProcessOption (m : List UInt8) (g : Globals) (popt : Nat) (code : UInt8) (oplen : Nat) : Option Globals :=
  match code.toNat with
  | 1 => (readU32 m (popt + 2)).map fun ip => { g with netmask := ip }
  | 3 => (readU32 m (popt + 2)).map fun ip => { g with gateway := ip }
  | 6 => (readU32 m (popt + 2)).map fun ip => { g with dnsServer := ip }
  | 12 => (optionText m popt oplen g.hostname).map fun b => { g with hostname := b }
  | 17 => (optionText m popt oplen g.rootPath).map fun b => { g with rootPath := b }
  | 51 => (readU32 m (popt + 2)).map fun t => { g with dhcpLeasetime := t }
  | 52 => m[popt + 2]?.map fun o => { g with dhcpOptionOverload := o }
  | 54 => (readU32 m (popt + 2)).map fun ip => { g with dhcpServerIp := ip }
  | 67 => (optionText m popt oplen g.bootFileName).map fun b => { g with bootFileName := b }
  | _ => some g

def dhcpProcessOptions (m : List UInt8) (stop popt : Nat) (g : Globals) : Option Globals :=
  if popt < stop then
    match m[popt]? with
    | none => none
    | some code =>
      if code = 0xff then
        some g
      else
        -- Also read for a pad.
        match m[popt + 1]? with
        | none => none
        | some oplen =>
          match dhcpProcessOption m g popt code oplen.toNat with
          | none => none
          | some g => dhcpProcessOptions m stop (if code = 0 then popt + 1 else popt + oplen.toNat + 2) g
  else
    some g
termination_by stop - popt
decreasing_by split <;> omega

def dhcpProcessOverload (m : List UInt8) (bit : UInt8) (stop popt : Nat) (g : Globals) : Option Globals :=
  if g.dhcpOptionOverload &&& bit ≠ 0 then dhcpProcessOptions m stop popt g else some g

def dhcpPacketProcessOptions (m : List UInt8) (g : Globals) : Option Globals := do
  let popt := Packet.offVend + 4
  let magic ← readU32 m Packet.offVend
  if magic ≠ bootpVendorMagic then
    some g
  else
    let g := { g with dhcpOptionOverload := 0 }
    let g ← dhcpProcessOptions m (popt + bootpHdrSize) popt g
    let g ← dhcpProcessOverload m overloadFile (Packet.offFile + 128) Packet.offFile g
    dhcpProcessOverload m overloadSname (Packet.offSname + 64) Packet.offSname g

def dhcpMessageType.go (m : List UInt8) (popt : Nat) : Option Int :=
  if h : popt < m.length then
    let code := m.get ⟨popt, h⟩
    if code = 0xff then
      some (-1)
    else if code = 53 then
      m[popt + 2]?.map fun t => Int.ofNat t.toNat
    else if code = 0 then
      go m (popt + 1)
    else
      match m[popt + 1]? with
      | none => none
      | some oplen => go m (popt + oplen.toNat + 2)
  else
    none
termination_by m.length - popt

def dhcpMessageType (m : List UInt8) (popt : Nat) : Option Int := do
  let magic ← readU32 m popt
  if magic ≠ bootpVendorMagic then
    some (-1)
  else
    dhcpMessageType.go m (popt + 4)

def named (ip : Ip) : Option Ip := if ip = 0 then none else some ip

def dhcpSendRequestPacket (s : State) (offer : Packet) : State :=
  { s with tx := some (.request (offer.u32 4) (named s.globals.dhcpServerIp) (named offer.yiaddr)) }

def dhcpOffer : Int := 2
def dhcpAck : Int := 5

/--
`none` when it reads behind `pkt.mem` or writes behind an array.
-/
def dhcpHandler (s : State) (pkt : Packet) : Option State :=
  if checkReplyPacket s pkt ≠ 0 then
    some s
  else if pkt.yiaddr = 0 then
    some s
  else
    match s.dhcpState with
    | .selecting => do
      let globals ← dhcpPacketProcessOptions pkt.mem s.globals
      let s := { s with globals, dhcpState := .requesting, timer := true }
      some (dhcpSendRequestPacket s pkt)
    | .requesting => do
      let type ← dhcpMessageType pkt.mem Packet.offVend
      if type = dhcpAck then
        let globals ← dhcpPacketProcessOptions pkt.mem s.globals
        let globals ← storeNetParams globals pkt true
        some { s with globals, dhcpState := .bound, timer := false }
      else
        some s
    | _ => some s

def bootpRequest (s : State) (id : BitVec 32) : State :=
  { s with ids := bootpAddId s.ids id, dhcpState := .selecting, tx := some (.discover id), timer := true }

def bootpReset (s : State) : State := { s with ids := { s.ids with num := 0 } }

inductive Event where
  | packet (pkt : Packet)
  -- `bootp_timeout_handler` sends a new request with this id.
  | timeout (id : BitVec 32)
  -- The retry time is over and `net_start_again` starts the loop of the network with DHCP again.
  | restart (id : BitVec 32)

def State.step (s : State) : Event → Option State
  | .packet pkt => dhcpHandler s pkt
  | .timeout id => if s.timer then some (bootpRequest s id) else none
  | .restart id =>
    if s.timer then
      let s := bootpReset s
      some (bootpRequest { s with globals := { s.globals with netIp := 0 } } id)
    else
      none

def bootpProcessVendorField (m : List UInt8) (g : Globals) (ext : Nat) (code : UInt8) (size : Nat) : Option Globals :=
  let g := { g with bootFileExpectedSizeInBlocks := 0 }
  match code.toNat with
  | 1 => if g.netmask = 0 then (readU32 m (ext + 2)).map fun ip => { g with netmask := ip } else some g
  | 3 => if g.gateway = 0 then (readU32 m (ext + 2)).map fun ip => { g with gateway := ip } else some g
  | 6 => if g.dnsServer = 0 then (readU32 m (ext + 2)).map fun ip => { g with dnsServer := ip } else some g
  | 12 => if g.hostname.first = 0 then (optionText m ext size g.hostname).map fun b => { g with hostname := b } else some g
  | 13 =>
    if size = 2 then
      (readBytes m (ext + 2) 2).map fun bs => { g with bootFileExpectedSizeInBlocks := BitVec.ofNat 32 (Bytes.val bs) }
    else if size = 4 then
      -- Eight bytes are read, as an `ulong`, of which `ntohl` takes the first four.
      (readBytes m (ext + 2) 8).map fun bs =>
        { g with bootFileExpectedSizeInBlocks := BitVec.ofNat 32 (Bytes.val (bs.take 4)) }
    else
      some g
  | 17 => if g.rootPath.first = 0 then (optionText m ext size g.rootPath).map fun b => { g with rootPath := b } else some g
  | 40 =>
    if g.nisDomain.first = 0 then (optionText m ext size g.nisDomain).map fun b => { g with nisDomain := b } else some g
  | _ => some g

def bootpProcessVendor (m : List UInt8) (stop ext : Nat) (g : Globals) : Option Globals :=
  if ext < stop then
    match m[ext]? with
    | none => none
    | some code =>
      if code = 0xff then
        some g
      else if code = 0 then
        bootpProcessVendor m stop (ext + 1) g
      else
        match m[ext + 1]? with
        | none => none
        | some size =>
          let next := ext + size.toNat + 2
          if next ≤ stop then
            match bootpProcessVendorField m g ext code size.toNat with
            | none => none
            | some g => bootpProcessVendor m stop next g
          else
            bootpProcessVendor m stop next g
  else
    some g
termination_by stop - ext

def bootpHandler (s : State) (pkt : Packet) : Option State :=
  if checkReplyPacket s pkt ≠ 0 then
    some s
  else do
    let globals ← storeNetParams s.globals pkt false
    let magic ← readU32 pkt.mem Packet.offVend
    if magic = bootpVendorMagic then
      let ext := Packet.offVend + 4
      let globals ← bootpProcessVendor pkt.mem (ext + pkt.len) ext globals
      some { s with globals, timer := false }
    else
      some { s with globals, timer := false }

end UBoot.Bootp
