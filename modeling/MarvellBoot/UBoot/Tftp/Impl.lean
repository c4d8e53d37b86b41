import MarvellBoot.Lib.Bytes

/-!
The TFTP client of `net/tftp.c` with `CONFIG_CMD_TFTPPUT` and `CONFIG_CMD_TFTPSRV`.
-/

namespace UBoot.Tftp

open Mem

inductive State where
  | sendRrq
  | data
  | tooLarge
  | badMagic
  | oack
  | recvWrq
  | sendWrq
  deriving Repr, DecidableEq

inductive NetState where
  | continue
  | restart
  | success
  | fail
  deriving Repr, DecidableEq

structure Client where
  remotePort : Nat
  ourPort : Nat
  timeoutCount : Int
  timeoutCountMax : Int
  curBlock : Nat
  prevBlock : Nat
  blockWrap : Nat
  blockWrapOffset : Nat
  state : State
  putActive : Bool
  putFinalBlockSent : Bool
  blockSize : Nat
  loadAddr : Nat
  saveAddr : Nat
  netBootFileSize : Nat
  netState : NetState
  m : Int → UInt8

structure Request where
  filename : List UInt8
  timeoutMs : Nat
  blockSizeOption : Nat
  timeoutCountMax : Int

structure Packet where
  port : Nat
  payload : List UInt8
  deriving Repr, DecidableEq

def tftpSequenceSize : Nat := 2 ^ 16
def wellKnownPort : Nat := 69
def tftpBlockSize : Nat := 512

def Client.netStartAgain (s : Client) : Client := { s with netState := .restart }

def storeBlock (s : Client) (block : Int) (src : List UInt8) (len : Nat) : Client :=
  let offset := Size.add (Size.ofInt (Int.bmod (block * s.blockSize) (2 ^ 32))) s.blockWrapOffset
  let newsize := Size.add offset len
  { s with
    m := store s.m (Size.add s.loadAddr offset) (src.take len)
    netBootFileSize := if s.netBootFileSize < newsize then newsize % 2 ^ 32 else s.netBootFileSize }

def newTransfer (s : Client) : Client :=
  { s with prevBlock := 0, blockWrap := 0, blockWrapOffset := 0, putFinalBlockSent := false }

def loadBlock (s : Client) (block len : Nat) : List UInt8 :=
  let offset := Size.add (((Size.toInt block - 1) * len) % 2 ^ 32).toNat s.blockWrapOffset
  let tosend := min (Size.sub s.netBootFileSize offset) len
  load s.m (Size.add s.saveAddr offset) tosend

def updateBlockNumber (s : Client) : Client :=
  if s.curBlock = 0 ∧ s.prevBlock ≠ 0 then
    { s with
      blockWrap := Size.add s.blockWrap 1
      blockWrapOffset := Size.add s.blockWrapOffset (s.blockSize * tftpSequenceSize)
      timeoutCount := 0 }
  else
    s

def tftpComplete (s : Client) : Client := { s with netState := .success }

def htons (x : Nat) : List UInt8 := Bytes.ofNat 2 x

def text (x : String) : List UInt8 := x.toList.map fun c => UInt8.ofNat c.toNat

def decimal (x : Nat) : List UInt8 := (Nat.toDigits 10 x).map fun c => UInt8.ofNat c.toNat

def request (req : Request) (opcode : Nat) : List UInt8 :=
  htons opcode ++ req.filename ++ [0] ++ text "octet" ++ [0] ++ text "timeout" ++ [0]
    ++ decimal (req.timeoutMs / 1000) ++ [0] ++ text "blksize" ++ [0] ++ decimal req.blockSizeOption ++ [0]

def tftpSend (req : Request) (s : Client) : Client × Packet :=
  match s.state with
  | .sendRrq => (s, ⟨s.remotePort, request req 1⟩)
  | .sendWrq => (s, ⟨s.remotePort, request req 2⟩)
  | .oack | .recvWrq | .data =>
    if s.putActive then
      let loaded := loadBlock s s.curBlock s.blockSize
      ({ s with putFinalBlockSent := loaded.length < s.blockSize },
        ⟨s.remotePort, htons 3 ++ htons s.curBlock ++ loaded⟩)
    else
      (s, ⟨s.remotePort, htons 4 ++ htons s.curBlock⟩)
  | .tooLarge => (s, ⟨s.remotePort, htons 5 ++ htons 3 ++ text "File too large" ++ [0]⟩)
  | .badMagic => (s, ⟨s.remotePort, htons 5 ++ htons 2 ++ text "File has bad magic" ++ [0]⟩)

def xdigit (c : UInt8) : Option Nat :=
  if 0x30 ≤ c ∧ c ≤ 0x39 then
    some (c.toNat - 0x30)
  else if 0x61 ≤ c ∧ c ≤ 0x66 then
    some (c.toNat - 0x61 + 10)
  else if 0x41 ≤ c ∧ c ≤ 0x46 then
    some (c.toNat - 0x41 + 10)
  else
    none

def digits (base : Nat) : (result : Nat) → List UInt8 → Nat
  | result, [] => result
  | result, c :: cp =>
    match xdigit c with
    | none => result
    | some value => if value < base then digits base ((result * base + value) % 2 ^ 64) cp else result

def simpleStrtoul (cp : List UInt8) : Nat :=
  match cp with
  | 0x30 :: 0x78 :: c :: cp => if (xdigit c).isSome then digits 16 0 (c :: cp) else digits 10 0 (0x78 :: c :: cp)
  | 0x30 :: cp => digits 10 0 cp
  | cp => digits 10 0 cp

def blksizeOption (pkt : List UInt8) (len blockSize : Nat) : Nat :=
  (List.range (len - 8)).foldl (fun blockSize i =>
    if (pkt.drop i).take 8 = text "blksize" ++ [0] then simpleStrtoul (pkt.drop (i + 8)) % 2 ^ 16 else blockSize)
    blockSize

def ntohs (pkt : List UInt8) : Nat := Bytes.val [pkt.getD 0 0, pkt.getD 1 0]

def handleAck (req : Request) (s : Client) (pkt : List UInt8) : Client × Option Packet :=
  if s.putActive then
    if s.putFinalBlockSent then
      (tftpComplete s, none)
    else
      let block := ntohs pkt
      let ackOk := s.curBlock = block
      let s := updateBlockNumber { s with curBlock := (block + 1) % 2 ^ 16 }
      if ackOk then
        let (s, sent) := tftpSend req s
        (s, some sent)
      else
        (s, none)
  else
    (s, none)

def handleOack (req : Request) (s : Client) (src : Nat) (pkt : List UInt8) (len : Nat) : Client × Option Packet :=
  let s := { s with state := .oack, remotePort := src, blockSize := blksizeOption pkt len s.blockSize }
  let s := if s.putActive then { s with state := .data, curBlock := Size.add s.curBlock 1 } else s
  let (s, sent) := tftpSend req s
  (s, some sent)

def receiveBlock (req : Request) (s : Client) (pkt : List UInt8) (len : Nat) : Client × Option Packet :=
  let s := { s with prevBlock := s.curBlock, timeoutCountMax := req.timeoutCountMax }
  let s := storeBlock s (Size.toInt (Size.sub s.curBlock 1)) (pkt.drop 2) len
  let (s, sent) := tftpSend req s
  (if len < s.blockSize then tftpComplete s else s, some sent)

def handleData (req : Request) (s : Client) (src : Nat) (pkt : List UInt8) (len : Nat) : Client × Option Packet :=
  if len < 2 then
    (s, none)
  else
    let s := updateBlockNumber { s with curBlock := ntohs pkt }
    if s.state = .sendRrq ∨ s.state = .oack ∨ s.state = .recvWrq then
      -- first block received
      let s := newTransfer { s with state := .data, remotePort := src }
      if s.curBlock ≠ 1 then
        (s.netStartAgain, none)
      else
        receiveBlock req s pkt (len - 2)
    else if s.curBlock = s.prevBlock then
      (s, none)
    else
      receiveBlock req s pkt (len - 2)

def handleError (s : Client) (pkt : List UInt8) : Client :=
  if ntohs pkt = 1 ∨ ntohs pkt = 2 then { s with netState := .fail } else s.netStartAgain

/--
`pkt` is the receive buffer from the payload on, `len` the length of the payload. `newPort` is the port that is
taken for a write request.
-/
def tftpHandler (req : Request) (s : Client) (newPort : Nat) (pkt : List UInt8) (dest src len : Nat)
    : Client × Option Packet :=
  if dest ≠ s.ourPort then
    (s, none)
  else if s.state ≠ .sendRrq ∧ src ≠ s.remotePort ∧ s.state ≠ .recvWrq ∧ s.state ≠ .sendWrq then
    (s, none)
  else if len < 2 then
    (s, none)
  else
    match ntohs pkt with
    | 2 =>
      let (s, sent) := tftpSend req (newTransfer { s with remotePort := src, ourPort := newPort })
      (s, some sent)
    | 3 => handleData req s src (pkt.drop 2) (len - 2)
    | 4 => handleAck req s (pkt.drop 2)
    | 5 => (handleError s (pkt.drop 2), none)
    | 6 => handleOack req s src (pkt.drop 2) (len - 2)
    | _ => (s, none)

def tftpTimeoutHandler (req : Request) (s : Client) : Client × Option Packet :=
  let s := { s with timeoutCount := s.timeoutCount + 1 }
  if s.timeoutCountMax < s.timeoutCount then
    (s.netStartAgain, none)
  else if s.state ≠ .recvWrq then
    let (s, sent) := tftpSend req s
    (s, some sent)
  else
    (s, none)

def tftpStart (req : Request) (s : Client) (newPort : Nat) (saveSize : Option Nat) : Client × Packet :=
  let s := { s with netState := .continue, netBootFileSize := 0 }
  let s :=
    match saveSize with
    | some saveSize =>
      newTransfer { s with putActive := true, netBootFileSize := saveSize % 2 ^ 32, state := .sendWrq }
    | none => { s with putActive := false, state := .sendRrq }
  tftpSend req { s with
    timeoutCountMax := req.timeoutCountMax
    remotePort := wellKnownPort
    timeoutCount := 0
    ourPort := newPort
    curBlock := 0
    blockSize := tftpBlockSize }

end UBoot.Tftp
