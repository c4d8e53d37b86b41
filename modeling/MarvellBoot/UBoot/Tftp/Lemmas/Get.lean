import MarvellBoot.Lib.Blocks
import MarvellBoot.Lib.Text
import MarvellBoot.UBoot.Tftp.Impl

namespace UBoot.Tftp

open Mem List Size Nat Int

variable {n p h t port : Nat} {s c : Client} {g : Get} (x : Nat) (rest : List UInt8)

lemma ntohs_htons : ntohs (htons x ++ rest) = x % 2 ^ 16 := by
  have hbytes : htons x ++ rest = UInt8.ofNat (x / 256) :: UInt8.ofNat x :: rest := rfl
  rw [hbytes]
  unfold ntohs
  rw [getD_cons_zero, getD_cons_succ, getD_cons_zero, Bytes.val_cons, Bytes.val_singleton,
    UInt8.toNat_ofNat', UInt8.toNat_ofNat', length_singleton]
  omega

lemma drop_htons : (htons x ++ rest).drop 2 = rest := rfl

structure Transfer where
  req : Request
  tid : Nat
  file : List UInt8
  size : Nat
  addr : Nat

def Transfer.block (tr : Transfer) (p : Nat) : List UInt8 := Blocks.block tr.file tr.size p
def Transfer.count (tr : Transfer) : Nat := Blocks.count tr.file tr.size

lemma Transfer.count_of_length {tr : Transfer} (h : tr.file.length = n) : tr.count = n / tr.size + 1 := by
  rw [← h]
  rfl

def Transfer.data (tr : Transfer) (p : Nat) : List UInt8 := htons 3 ++ (htons p ++ tr.block p)

def acknowledges (tr : Transfer) (p : Nat) (sent : Option Packet) : Bool :=
  match sent with
  | some pkt =>
    pkt.port = tr.tid ∧ ntohs pkt.payload = 4 ∧ ntohs (pkt.payload.drop 2) = p % tftpSequenceSize
  | none => false

structure Get where
  client : Client
  sent : Nat
  acked : Bool

def Get.after (tr : Transfer) (g : Get) (res : Client × Option Packet) : Get where
  client := res.1
  sent := g.sent
  acked := g.acked || acknowledges tr g.sent res.2

def Get.deliver (tr : Transfer) (g : Get) (p : Nat) (rest : List UInt8) : Get :=
  g.after tr (tftpHandler tr.req g.client g.client.ourPort (tr.data p ++ rest) g.client.ourPort tr.tid
    (tr.data p).length)

@[simp]
lemma Get.sent_deliver (tr : Transfer) (g : Get) (p : Nat) (rest : List UInt8) : (g.deliver tr p rest).sent = g.sent :=
  rfl

def Get.timeout (tr : Transfer) (g : Get) : Get := g.after tr (tftpTimeoutHandler tr.req g.client)

def Get.next (g : Get) : Get := { g with sent := g.sent + 1, acked := false }

/--
Transfers in which each DATA packet that is delivered meets `P`. Acknowledgements may be lost or delayed. A server
without options answers the request with the first block, another one with an OACK.
-/
inductive Get.Run (tr : Transfer) (P : Client → Nat → Prop) : Get → Prop where
  | start {s : Client} {port : Nat} (haddr : s.loadAddr = tr.addr) (hsize : tr.size = tftpBlockSize)
      : Run tr P ⟨(tftpStart tr.req s port none).1, 1, false⟩
  | oack {s : Client} {port len : Nat} {pkt : List UInt8} (haddr : s.loadAddr = tr.addr)
      (hoack : ntohs pkt = 6) (hlen : 2 ≤ len)
      (hsize : tr.size = blksizeOption (pkt.drop 2) (len - 2) tftpBlockSize)
      : Run tr P ⟨(tftpHandler tr.req (tftpStart tr.req s port none).1 port pkt port tr.tid len).1, 1, false⟩
  | deliver {g : Get} {p : Nat} {rest : List UInt8} (h : Run tr P g) (hloop : g.client.netState ≠ .restart)
      (hpos : 1 ≤ p) (hsent : p ≤ g.sent) (hP : P g.client p) : Run tr P (g.deliver tr p rest)
  | timeout {g : Get} (h : Run tr P g) (hloop : g.client.netState ≠ .restart) : Run tr P (g.timeout tr)
  | next {g : Get} (h : Run tr P g) (hacked : g.acked = true) (hmore : g.sent < tr.count) : Run tr P g.next

lemma offset_eq {size : Nat} (hp : 1 ≤ p) (hsize : size < 2 ^ 16)
    (hint : p % tftpSequenceSize ≠ 0 → (p % tftpSequenceSize - 1) * size < 2 ^ 31)
    (hlt : (p - 1) * size < 2 ^ 32)
    : add (ofInt (bmod (toInt (sub (p % tftpSequenceSize) 1) * size) (2 ^ 32)))
        (p / tftpSequenceSize * (size * tftpSequenceSize)) = (p - 1) * size := by
  have hseq : tftpSequenceSize = 65536 := rfl
  have hdiv := div_add_mod p tftpSequenceSize
  have hmod := mod_lt p (show 0 < tftpSequenceSize by decide)
  have hstart := Blocks.mul_eq_pred_mul_add hp size
  have hcycle : p * size = p / tftpSequenceSize * (size * tftpSequenceSize) + p % tftpSequenceSize * size := by
    nth_rewrite 1 [← hdiv]
    ring
  by_cases hzero : p % tftpSequenceSize = 0
  . have hblock : toInt (sub 0 1) = -1 := by decide
    rw [hzero, zero_mul] at hcycle
    rw [hzero, hblock, bmod_eq_of_le (by omega) (by omega)]
    unfold add ofInt
    omega
  have hblock : toInt (sub (p % tftpSequenceSize) 1) = (p % tftpSequenceSize - 1 : Nat) := by
    rw [sub_eq (by omega) (by omega), toInt_eq (by omega)]
  have hnumber := Blocks.mul_eq_pred_mul_add (pos_of_ne_zero hzero) size
  rw [hblock, ← natCast_mul, bmod_eq_of_le (by omega) (by omega)]
  unfold add ofInt
  omega

variable {tr : Transfer} {g : Get}

structure Stored (tr : Transfer) (c : Client) (h : Nat) : Prop where
  size : c.netBootFileSize = (tr.file.take (h * tr.size)).length
  bytes : Text c.m tr.addr (tr.file.take (h * tr.size))

lemma take_split {p h : Nat} (hp : 1 ≤ p) (hle : p ≤ h)
    : tr.file.take (h * tr.size)
      = tr.file.take ((p - 1) * tr.size) ++ (tr.block p ++ (tr.file.take (h * tr.size)).drop (p * tr.size)) := by
  have hmul := mul_le_mul_right tr.size hle
  rw [← append_assoc, Transfer.block, Blocks.take_append_block hp]
  conv => lhs; rw [← take_append_drop (p * tr.size) (tr.file.take (h * tr.size))]
  rw [take_take, min_eq_left hmul]

lemma Stored.storeBlock {c : Client} {p h : Nat} {rest : List UInt8} (hs : Stored tr c h)
    (hfile : tr.file.length < 2 ^ 32) (haddr : tr.addr + tr.file.length < 2 ^ 64)
    (hload : c.loadAddr = tr.addr) (hp : 1 ≤ p) (hph : p ≤ h + 1) (hcount : p ≤ tr.count)
    (hoff : add (ofInt (bmod (toInt (sub c.curBlock 1) * c.blockSize) (2 ^ 32))) c.blockWrapOffset = (p - 1) * tr.size)
    : Stored tr (storeBlock c (toInt (sub c.curBlock 1)) (tr.block p ++ rest) (tr.block p).length) (max h p) := by
  have hstart : (p - 1) * tr.size ≤ tr.file.length := Blocks.start_le_of_le_count hcount
  have hlen : (tr.block p).length = min tr.size (tr.file.length - (p - 1) * tr.size) :=
    Blocks.length_block tr.file tr.size p
  have hnewsize : add ((p - 1) * tr.size) (tr.block p).length = (tr.file.take (p * tr.size)).length := by
    rw [add_eq (by omega), ← Blocks.take_append_block hp, length_append, length_take_of_le hstart]
    rfl
  have hdest : add tr.addr ((p - 1) * tr.size) = tr.addr + (p - 1) * tr.size := add_eq (by omega)
  unfold Tftp.storeBlock
  dsimp only
  rw [hoff, hload, hdest, hnewsize, take_left]
  by_cases hle : p ≤ h
  . have hmul := mul_le_mul_right tr.size hle
    have hbytes := hs.bytes
    rw [take_split hp hle, text_append, text_append, length_take_of_le hstart] at hbytes
    have hsame : store c.m (tr.addr + (p - 1) * tr.size : Nat) (tr.block p) = c.m := by
      rw [← hbytes.2.1]
      exact store_load_self _ _ _
    rw [max_eq_left hle]
    refine ⟨?_, ?_⟩
    . dsimp only
      rw [if_neg, hs.size]
      rw [hs.size, length_take, length_take]
      omega
    . dsimp only
      rw [hsame]
      exact hs.bytes
  have hmax : max h p = p := by omega
  have hh : p - 1 = h := by omega
  rw [hmax]
  refine ⟨?_, ?_⟩
  . have hfit : (tr.file.take (p * tr.size)).length < 2 ^ 32 := by
      rw [length_take]
      omega
    split
    . rw [mod_eq_of_lt hfit]
    next hge =>
    rw [hs.size] at hge ⊢
    rw [length_take] at hge ⊢
    rw [length_take] at hge ⊢
    have hmul := mul_le_mul_right tr.size (show h ≤ p by omega)
    omega
  . have htext : Text (store c.m _ (tr.block p)) tr.addr _ := hs.bytes.append_store
    rw [← hh, Transfer.block, Blocks.take_append_block hp, length_take_of_le hstart] at htext
    exact htext

structure Kept (tr : Transfer) (c : Client) : Prop where
  get : c.putActive = false
  size : c.blockSize = tr.size
  addr : c.loadAddr = tr.addr

structure At (tr : Transfer) (c : Client) (t h : Nat) : Prop where
  kept : Kept tr c
  state : c.state = .data
  remote : c.remotePort = tr.tid
  cur : c.curBlock = t % tftpSequenceSize
  prev : c.prevBlock = t % tftpSequenceSize
  wrap : c.blockWrap = t / tftpSequenceSize
  wrapOffset : c.blockWrapOffset = t / tftpSequenceSize * (tr.size * tftpSequenceSize)
  stored : Stored tr c h

structure Transfer.Fits (tr : Transfer) : Prop where
  file : tr.file.length < 2 ^ 32
  addr : tr.addr + tr.file.length < 2 ^ 64

def ackPacket (tr : Transfer) (t : Nat) : Packet := ⟨tr.tid, htons 4 ++ htons (t % tftpSequenceSize)⟩

def FitsInt (size p : Nat) : Prop := p % tftpSequenceSize ≠ 0 → (p % tftpSequenceSize - 1) * size < 2 ^ 31

lemma tftpSend_ack (req : Request) (hstate : s.state = .data) (hget : s.putActive = false)
    : tftpSend req s = (s, ⟨s.remotePort, htons 4 ++ htons s.curBlock⟩) := by
  unfold tftpSend
  rw [hstate]
  simp [hget]

lemma At.complete (hat : At tr c t h) : At tr (tftpComplete c) t h :=
  ⟨⟨hat.kept.get, hat.kept.size, hat.kept.addr⟩, hat.state, hat.remote, hat.cur, hat.prev, hat.wrap, hat.wrapOffset,
    ⟨hat.stored.size, hat.stored.bytes⟩⟩

lemma receiveBlock_eq (req : Request) (hstate : c.state = .data) (hget : c.putActive = false)
    (pkt : List UInt8) (len : Nat)
    : receiveBlock req c pkt len =
      (if len < c.blockSize then
        tftpComplete (storeBlock { c with prevBlock := c.curBlock, timeoutCountMax := req.timeoutCountMax }
          (toInt (sub c.curBlock 1)) (pkt.drop 2) len)
      else
        storeBlock { c with prevBlock := c.curBlock, timeoutCountMax := req.timeoutCountMax }
          (toInt (sub c.curBlock 1)) (pkt.drop 2) len,
      some ⟨c.remotePort, htons 4 ++ htons c.curBlock⟩) := by
  unfold receiveBlock
  dsimp only
  rw [tftpSend_ack]
  . rfl
  . exact hstate
  . exact hget

structure Receives (tr : Transfer) (c : Client) (p h : Nat) (res : Client × Option Packet) : Prop where
  sent : res.2 = some (ackPacket tr p)
  client : At tr res.1 p (max h p)
  done : res.1.netState = .success → c.netState = .success ∨ (p = tr.count ∧ 0 < tr.size)
  loop : c.netState ≠ .restart → res.1.netState ≠ .restart

lemma receiveBlock_receives (hfits : tr.Fits) (hsize : tr.size < 2 ^ 16) {c : Client} {p h : Nat}
    {rest : List UInt8} (hkept : Kept tr c) (hstate : c.state = .data) (hremote : c.remotePort = tr.tid)
    (hcur : c.curBlock = p % tftpSequenceSize) (hwrap : c.blockWrap = p / tftpSequenceSize)
    (hoff : c.blockWrapOffset = p / tftpSequenceSize * (tr.size * tftpSequenceSize))
    (hstored : Stored tr c h) (hp : 1 ≤ p) (hph : p ≤ h + 1) (hcount : p ≤ tr.count) (hint : FitsInt tr.size p)
    : Receives tr c p h (receiveBlock tr.req c (htons p ++ (tr.block p ++ rest)) (tr.block p).length) := by
  have hstart : (p - 1) * tr.size ≤ tr.file.length := Blocks.start_le_of_le_count hcount
  have hfile := hfits.file
  have hoffset := offset_eq hp hsize hint (by omega)
  have hs : Stored tr { c with prevBlock := c.curBlock, timeoutCountMax := tr.req.timeoutCountMax } h :=
    ⟨hstored.size, hstored.bytes⟩
  have hnew := @Stored.storeBlock tr _ p h rest hs hfile hfits.addr hkept.addr hp hph hcount
    (by rw [hoff, hcur, hkept.size]; exact hoffset)
  have hat : At tr (storeBlock { c with prevBlock := c.curBlock, timeoutCountMax := tr.req.timeoutCountMax }
      (toInt (sub c.curBlock 1)) (tr.block p ++ rest) (tr.block p).length) p (max h p) :=
    ⟨⟨hkept.get, hkept.size, hkept.addr⟩, hstate, hremote, hcur, hcur, hwrap, hoff, hnew⟩
  rw [receiveBlock_eq tr.req hstate hkept.get, drop_htons]
  constructor
  . rw [hremote, hcur]
    rfl
  . dsimp only
    split
    . exact hat.complete
    . exact hat
  . dsimp only
    split
    . next hshort =>
      rw [hkept.size] at hshort
      have hpos : 0 < tr.size := by omega
      intro _
      exact .inr ⟨(Blocks.length_block_lt_iff hpos hp hcount).mp hshort, hpos⟩
    . exact .inl
  split
  . simp [tftpComplete]
  . exact id

def InCycle (c : Client) (p : Nat) : Prop :=
  c.state = .data → p % tftpSequenceSize ≠ c.prevBlock →
    p / tftpSequenceSize = (if p % tftpSequenceSize = 0 then c.blockWrap + 1 else c.blockWrap) ∧ FitsInt c.blockSize p

instance (c : Client) (p : Nat) : Decidable (InCycle c p) := by
  unfold InCycle FitsInt
  infer_instance

@[simp]
lemma updateBlockNumber_state (s : Client) : (updateBlockNumber s).state = s.state := by
  unfold updateBlockNumber
  split <;> rfl

@[simp]
lemma updateBlockNumber_curBlock (s : Client) : (updateBlockNumber s).curBlock = s.curBlock := by
  unfold updateBlockNumber
  split <;> rfl

@[simp]
lemma updateBlockNumber_prevBlock (s : Client) : (updateBlockNumber s).prevBlock = s.prevBlock := by
  unfold updateBlockNumber
  split <;> rfl

lemma updateBlockNumber_same (h : s.curBlock = s.prevBlock) : updateBlockNumber s = s := by
  unfold updateBlockNumber
  rw [if_neg]
  rw [h]
  exact fun hzero => hzero.2 hzero.1

lemma handleData_data {rest : List UInt8} (hstate : c.state = .data)
    : handleData tr.req c tr.tid (htons p ++ (tr.block p ++ rest)) ((tr.block p).length + 2)
      = if p % tftpSequenceSize = c.prevBlock then
          ({ c with curBlock := p % tftpSequenceSize }, none)
        else
          receiveBlock tr.req (updateBlockNumber { c with curBlock := p % tftpSequenceSize })
            (htons p ++ (tr.block p ++ rest)) (tr.block p).length := by
  have hseq : 2 ^ 16 = tftpSequenceSize := rfl
  have hlen : ¬(tr.block p).length + 2 < 2 := by omega
  unfold handleData
  rw [if_neg hlen, ntohs_htons, hseq, Nat.add_sub_cancel]
  dsimp only
  rw [updateBlockNumber_state, updateBlockNumber_curBlock, updateBlockNumber_prevBlock]
  rw [hstate, if_neg (by decide)]
  split
  . next hsame => rw [updateBlockNumber_same hsame]
  . rfl

lemma updateBlockNumber_of_ne_zero (h : s.curBlock ≠ 0) : updateBlockNumber s = s := by
  unfold updateBlockNumber
  rw [if_neg]
  exact fun hzero => h hzero.1

lemma handleData_first {rest : List UInt8} (hstate : c.state = .sendRrq ∨ c.state = .oack)
    : handleData tr.req c tr.tid (htons 1 ++ (tr.block 1 ++ rest)) ((tr.block 1).length + 2)
      = receiveBlock tr.req (newTransfer { c with curBlock := 1, state := .data, remotePort := tr.tid })
        (htons 1 ++ (tr.block 1 ++ rest)) (tr.block 1).length := by
  have hlen : ¬(tr.block 1).length + 2 < 2 := by omega
  have hnumber : updateBlockNumber { c with curBlock := 1 } = { c with curBlock := 1 } :=
    updateBlockNumber_of_ne_zero (show (1 : Nat) ≠ 0 by decide)
  unfold handleData
  rw [if_neg hlen, ntohs_htons, Nat.add_sub_cancel, Nat.mod_eq_of_lt (by decide), hnumber]
  rw [if_pos (hstate.imp_right .inl), if_neg (by simp [newTransfer])]

lemma tftpHandler_data {rest : List UInt8} (hport : c.state = .sendRrq ∨ c.remotePort = tr.tid)
    : tftpHandler tr.req c c.ourPort (tr.data p ++ rest) c.ourPort tr.tid (tr.data p).length
      = handleData tr.req c tr.tid (htons p ++ (tr.block p ++ rest)) ((tr.block p).length + 2) := by
  have hlen : (tr.data p).length = (tr.block p).length + 2 + 2 := by
    simp [Transfer.data, htons]
    omega
  have hdata : tr.data p ++ rest = htons 3 ++ (htons p ++ (tr.block p ++ rest)) := by
    rw [Transfer.data, append_assoc, append_assoc]
  have haccept : ¬(c.state ≠ .sendRrq ∧ tr.tid ≠ c.remotePort ∧ c.state ≠ .recvWrq ∧ c.state ≠ .sendWrq) := by
    intro hnot
    cases hport with
    | inl hstate => exact hnot.1 hstate
    | inr hremote => exact hnot.2.1 hremote.symm
  unfold tftpHandler
  rw [if_neg (by simp), if_neg haccept, hlen, if_neg (by omega), hdata, ntohs_htons, drop_htons]
  rfl

lemma acknowledges_ackPacket (t p : Nat)
    : acknowledges tr p (some (ackPacket tr t)) = true ↔ t % tftpSequenceSize = p % tftpSequenceSize := by
  have hnumber : ntohs (htons (t % tftpSequenceSize)) = t % tftpSequenceSize := by
    have h := ntohs_htons (t % tftpSequenceSize) []
    rw [append_nil] at h
    rw [h]
    exact mod_mod _ _
  simp [acknowledges, ackPacket, ntohs_htons, drop_htons, hnumber]

structure Loading (tr : Transfer) (g : Get) (t h : Nat) : Prop where
  client : At tr g.client t h
  pos : 1 ≤ t
  le : t ≤ h
  cycle : t / tftpSequenceSize = h / tftpSequenceSize
  start : t % tftpSequenceSize = 0 → t = h
  sent : g.sent = h ∨ g.sent = h + 1
  count : g.sent ≤ tr.count
  acked : g.acked = true → g.sent = h
  done : g.client.netState = .success → h = tr.count ∧ 0 < tr.size

structure Waiting (tr : Transfer) (g : Get) : Prop where
  kept : Kept tr g.client
  state : g.client.state = .sendRrq ∨ (g.client.state = .oack ∧ g.client.remotePort = tr.tid)
  cur : g.client.curBlock = 0
  fileSize : g.client.netBootFileSize = 0
  sent : g.sent = 1
  acked : g.acked = false
  notDone : g.client.netState ≠ .success

def Inv (tr : Transfer) (g : Get) : Prop := tr.size < 2 ^ 16 ∧ (Waiting tr g ∨ ∃ t h, Loading tr g t h)

lemma eq_of_mod_eq {k : Nat} (hk : k = h ∨ k = h + 1) (hpk : p ≤ k) (hle : h / tftpSequenceSize ≤ p / tftpSequenceSize)
    (hstart : p % tftpSequenceSize = 0 → h ≤ p) (hmod : p % tftpSequenceSize = k % tftpSequenceSize) : p = k := by
  unfold tftpSequenceSize at *
  omega

lemma count_lt (hfits : tr.Fits) : tr.count ≤ 2 ^ 32 := by
  have hfile := hfits.file
  have hdiv := div_le_self tr.file.length tr.size
  unfold Transfer.count Blocks.count
  omega

lemma updateBlockNumber_eq (s : Client)
    : ∃ wrap wrapOffset count, updateBlockNumber s
      = { s with blockWrap := wrap, blockWrapOffset := wrapOffset, timeoutCount := count } := by
  unfold updateBlockNumber
  split
  . exact ⟨_, _, _, rfl⟩
  . exact ⟨_, _, _, rfl⟩

section

variable (hfits : tr.Fits) {rest : List UInt8}

include hfits

section

variable (hsize : tr.size < 2 ^ 16)

include hsize

lemma updateBlockNumber_wrap
    (hat : At tr c t h) (hp : 1 ≤ p) (hcount : p ≤ tr.count) (hnew : p % tftpSequenceSize ≠ c.prevBlock)
    (hcycle : p / tftpSequenceSize = (if p % tftpSequenceSize = 0 then c.blockWrap + 1 else c.blockWrap))
    : (updateBlockNumber { c with curBlock := p % tftpSequenceSize }).blockWrap = p / tftpSequenceSize
      ∧ (updateBlockNumber { c with curBlock := p % tftpSequenceSize }).blockWrapOffset
        = p / tftpSequenceSize * (tr.size * tftpSequenceSize) := by
  have hwrap := hat.wrap
  have hoff := hat.wrapOffset
  unfold updateBlockNumber
  by_cases hzero : p % tftpSequenceSize = 0
  . have hprev : c.prevBlock ≠ 0 := by
      intro hprev
      exact hnew (hzero.trans hprev.symm)
    have hstart : (p - 1) * tr.size ≤ tr.file.length := Blocks.start_le_of_le_count hcount
    have hmul := Blocks.mul_eq_pred_mul_add hp tr.size
    have hfile := hfits.file
    have hcount' := count_lt hfits
    have hpsize : p * tr.size = p / tftpSequenceSize * (tr.size * tftpSequenceSize) := by
      rw [Nat.mul_comm tr.size, ← Nat.mul_assoc, Nat.div_mul_cancel (Nat.dvd_of_mod_eq_zero hzero)]
    have hsucc : (c.blockWrap + 1) * (tr.size * tftpSequenceSize)
        = c.blockWrap * (tr.size * tftpSequenceSize) + tr.size * tftpSequenceSize := succ_mul _ _
    have hdiv := div_le_self p tftpSequenceSize
    rw [if_pos hzero] at hcycle
    rw [if_pos ⟨hzero, hprev⟩]
    dsimp only
    rw [hoff, ← hwrap, hat.kept.size]
    rw [hcycle] at hpsize hdiv ⊢
    exact ⟨add_eq (by omega), (add_eq (by omega)).trans hsucc.symm⟩
  rw [if_neg hzero] at hcycle
  rw [if_neg (fun hand => hzero hand.1)]
  rw [hoff, ← hwrap, hcycle]
  exact ⟨rfl, rfl⟩

lemma At.deliver {c : Client} {t h p : Nat} (hat : At tr c t h)
    (rest : List UInt8) (hp : 1 ≤ p) (hph : p ≤ h + 1) (hcount : p ≤ tr.count)
    (hnew : p % tftpSequenceSize ≠ c.prevBlock) (hcycle : InCycle c p)
    : Receives tr c p h (tftpHandler tr.req c c.ourPort (tr.data p ++ rest) c.ourPort tr.tid (tr.data p).length) := by
  have ⟨hcyc, hint⟩ := hcycle hat.state hnew
  have ⟨hwrap, hoff⟩ := updateBlockNumber_wrap hfits hsize hat hp hcount hnew hcyc
  have ⟨wrap, wrapOffset, counted, heq⟩ := updateBlockNumber_eq { c with curBlock := p % tftpSequenceSize }
  rw [hat.kept.size] at hint
  rw [tftpHandler_data (.inr hat.remote), handleData_data hat.state, if_neg hnew]
  rw [heq] at hwrap hoff ⊢
  have hres := @receiveBlock_receives tr hfits hsize { c with
    curBlock := p % tftpSequenceSize, blockWrap := wrap, blockWrapOffset := wrapOffset, timeoutCount := counted }
    p h rest ⟨hat.kept.get, hat.kept.size, hat.kept.addr⟩ hat.state hat.remote rfl hwrap hoff
    ⟨hat.stored.size, hat.stored.bytes⟩ hp hph hcount hint
  exact ⟨hres.sent, hres.client, hres.done, hres.loop⟩

lemma Loading.deliver {t h p : Nat}
    (hl : Loading tr g t h) (hp : 1 ≤ p) (hsent : p ≤ g.sent) (hcycle : InCycle g.client p)
    : ∃ t h, Loading tr (g.deliver tr p rest) t h := by
  have hat := hl.client
  have hcount : p ≤ tr.count := le_trans hsent hl.count
  have hsent' := hl.sent
  by_cases hsame : p % tftpSequenceSize = g.client.prevBlock
  . unfold Get.deliver
    rw [tftpHandler_data (.inr hat.remote), handleData_data hat.state, if_pos hsame]
    refine ⟨t, h, ?_, hl.pos, hl.le, hl.cycle, hl.start, hl.sent, hl.count, ?_, hl.done⟩
    . rw [hat.prev] at hsame
      exact ⟨⟨hat.kept.get, hat.kept.size, hat.kept.addr⟩, hat.state, hat.remote, hsame, hat.prev, hat.wrap,
        hat.wrapOffset, ⟨hat.stored.size, hat.stored.bytes⟩⟩
    . intro hacked
      exact hl.acked (by simpa [Get.after, acknowledges] using hacked)
  have ⟨hcyc, _⟩ := hcycle hat.state hsame
  have hres := hat.deliver hfits hsize rest hp (by omega) hcount hsame hcycle
  have hle : h / tftpSequenceSize ≤ p / tftpSequenceSize := by
    rw [hcyc, hat.wrap, ← hl.cycle]
    split
    . omega
    . omega
  have hstart : p % tftpSequenceSize = 0 → h ≤ p := by
    intro hzero
    rw [if_pos hzero, hat.wrap, hl.cycle] at hcyc
    unfold tftpSequenceSize at *
    omega
  refine ⟨p, max h p, hres.client, hp, le_max_right _ _, ?_, ?_, ?_, hl.count, ?_, ?_⟩
  . by_cases hge : h ≤ p
    . rw [max_eq_right hge]
    . rw [max_eq_left (by omega)]
      exact Nat.le_antisymm (Nat.div_le_div_right (by omega)) hle
  . intro hzero
    rw [max_eq_right (hstart hzero)]
  . dsimp only [Get.deliver, Get.after]
    omega
  . intro hacked
    dsimp only [Get.deliver, Get.after] at hacked ⊢
    rw [hres.sent] at hacked
    rcases Bool.or_eq_true_iff.mp hacked with hacked | hacks
    . have := hl.acked hacked
      omega
    . have := eq_of_mod_eq hsent' hsent hle hstart ((acknowledges_ackPacket _ _).mp hacks)
      omega
  intro hsuccess
  have hend := hl.count
  rcases hres.done hsuccess with hsuccess | ⟨hlast, hpos⟩
  . have ⟨hlast, hpos⟩ := hl.done hsuccess
    exact ⟨by omega, hpos⟩
  . exact ⟨by omega, hpos⟩

lemma Waiting.first (hw : Waiting tr g) (rest : List UInt8)
    : Receives tr g.client 1 0
      (tftpHandler tr.req g.client g.client.ourPort (tr.data 1 ++ rest) g.client.ourPort tr.tid
        (tr.data 1).length) := by
  have hstored : Stored tr (newTransfer { g.client with curBlock := 1, state := .data, remotePort := tr.tid }) 0 := by
    constructor
    . rw [zero_mul]
      exact hw.fileSize
    . rw [zero_mul]
      rfl
  have hres := @receiveBlock_receives tr hfits hsize
    (newTransfer { g.client with curBlock := 1, state := .data, remotePort := tr.tid }) 1 0 rest
    ⟨hw.kept.get, hw.kept.size, hw.kept.addr⟩ rfl rfl rfl rfl (by simp [newTransfer, tftpSequenceSize])
    hstored (le_refl _) (le_refl _) (le_add_left _ _) (by intro _; simp [tftpSequenceSize])
  rw [tftpHandler_data (hw.state.imp_right And.right), handleData_first (hw.state.imp_right And.left)]
  exact ⟨hres.sent, hres.client, hres.done, hres.loop⟩

lemma Waiting.deliver {p : Nat}
    (hw : Waiting tr g) (hp : 1 ≤ p) (hsent : p ≤ g.sent) : ∃ t h, Loading tr (g.deliver tr p rest) t h := by
  have hfirst : p = 1 := by
    have := hw.sent
    omega
  subst hfirst
  have hres := hw.first hfits hsize rest
  refine ⟨1, 1, hres.client, hp, le_rfl, rfl, fun _ => rfl, .inl hw.sent, ?_, fun _ => hw.sent, ?_⟩
  . dsimp only [Get.deliver, Get.after]
    rw [hw.sent]
    exact le_add_left _ _
  . intro hsuccess
    exact (hres.done hsuccess).resolve_left hw.notDone

end

end

lemma tftpTimeoutHandler_cases (req : Request) (hstate : s.state ≠ .recvWrq)
    : tftpTimeoutHandler req s = ({ s with timeoutCount := s.timeoutCount + 1, netState := .restart }, none)
      ∨ tftpTimeoutHandler req s = ((tftpSend req { s with timeoutCount := s.timeoutCount + 1 }).1,
        some (tftpSend req { s with timeoutCount := s.timeoutCount + 1 }).2) := by
  unfold tftpTimeoutHandler
  dsimp only
  split
  . exact .inl rfl
  . exact .inr rfl

lemma Waiting.tftpSend (hw : Waiting tr g)
    : (tftpSend tr.req g.client).1 = g.client ∧ acknowledges tr 1 (some (tftpSend tr.req g.client).2) = false := by
  unfold Tftp.tftpSend
  rcases hw.state with hstate | ⟨hstate, _⟩
  . rw [hstate]
    simp [acknowledges, request, append_assoc, ntohs_htons]
  rw [hstate, hw.kept.get, hw.cur]
  simp [acknowledges, drop_htons, ntohs_htons]
  intro _
  decide

lemma Waiting.timeout (hw : Waiting tr g) : Waiting tr (g.timeout tr) := by
  have hstate : g.client.state ≠ .recvWrq := by
    rcases hw.state with hstate | ⟨hstate, _⟩
    . rw [hstate]
      decide
    . rw [hstate]
      decide
  let c := { g.client with timeoutCount := g.client.timeoutCount + 1 }
  have hagain : Waiting tr { g with client := c } :=
    ⟨⟨hw.kept.get, hw.kept.size, hw.kept.addr⟩, hw.state, hw.cur, hw.fileSize, hw.sent, hw.acked, hw.notDone⟩
  have ⟨hclient, hnot⟩ := hagain.tftpSend
  unfold Get.timeout
  rcases tftpTimeoutHandler_cases tr.req hstate with hres | hres
  . rw [hres]
    refine ⟨⟨hw.kept.get, hw.kept.size, hw.kept.addr⟩, hw.state, hw.cur, hw.fileSize, hw.sent, ?_, by simp [Get.after]⟩
    simp [Get.after, hw.acked, acknowledges]
  rw [hres, hclient]
  refine ⟨hagain.kept, hw.state, hw.cur, hw.fileSize, hw.sent, ?_, hw.notDone⟩
  simp [Get.after, hw.acked, hw.sent]
  exact hnot

lemma Loading.timeout (hl : Loading tr g t h) : Loading tr (g.timeout tr) t h := by
  have hat := hl.client
  have hstate : g.client.state ≠ .recvWrq := by
    rw [hat.state]
    decide
  have hack : (⟨g.client.remotePort, htons 4 ++ htons g.client.curBlock⟩ : Packet) = ackPacket tr t := by
    rw [hat.remote, hat.cur]
    rfl
  unfold Get.timeout
  rcases tftpTimeoutHandler_cases tr.req hstate with hres | hres
  . rw [hres]
    refine ⟨?_, hl.pos, hl.le, hl.cycle, hl.start, hl.sent, hl.count, ?_, by simp [Get.after]⟩
    . exact ⟨⟨hat.kept.get, hat.kept.size, hat.kept.addr⟩, hat.state, hat.remote, hat.cur, hat.prev, hat.wrap,
        hat.wrapOffset, ⟨hat.stored.size, hat.stored.bytes⟩⟩
    . intro hacked
      exact hl.acked (by simpa [Get.after, acknowledges] using hacked)
  rw [hres, tftpSend_ack tr.req (by exact hat.state) (by exact hat.kept.get)]
  rw [hack]
  refine ⟨?_, hl.pos, hl.le, hl.cycle, hl.start, hl.sent, hl.count, ?_, hl.done⟩
  . exact ⟨⟨hat.kept.get, hat.kept.size, hat.kept.addr⟩, hat.state, hat.remote, hat.cur, hat.prev, hat.wrap,
      hat.wrapOffset, ⟨hat.stored.size, hat.stored.bytes⟩⟩
  intro hacked
  dsimp only [Get.after] at hacked ⊢
  rcases Bool.or_eq_true_iff.mp hacked with hacked | hacks
  . exact hl.acked hacked
  have hsent := hl.sent
  have hle := hl.le
  have hlast := eq_of_mod_eq hsent (by omega) (le_of_eq hl.cycle.symm) (fun hzero => le_of_eq (hl.start hzero).symm)
    ((acknowledges_ackPacket _ _).mp hacks)
  omega

lemma Loading.next (hl : Loading tr g t h) (hacked : g.acked = true)
    (hmore : g.sent < tr.count) : Loading tr g.next t h :=
  ⟨hl.client, hl.pos, hl.le, hl.cycle, hl.start, .inr (congrArg (· + 1) (hl.acked hacked)), hmore,
    fun hfalse => absurd hfalse (by simp [Get.next]), hl.done⟩

lemma blksizeOption_lt (pkt : List UInt8) (len : Nat) {blockSize : Nat} (h : blockSize < 2 ^ 16)
    : blksizeOption pkt len blockSize < 2 ^ 16 := by
  unfold blksizeOption
  generalize List.range (len - 8) = is
  induction is generalizing blockSize with
  | nil => exact h
  | cons i is ih =>
    rw [foldl_cons]
    apply ih
    split
    . exact mod_lt _ (by decide)
    . exact h

lemma waiting_start (haddr : s.loadAddr = tr.addr) (hsize : tr.size = tftpBlockSize)
    : Waiting tr ⟨(tftpStart tr.req s port none).1, 1, false⟩ :=
  ⟨⟨rfl, hsize.symm, haddr⟩, .inl rfl, rfl, rfl, rfl, rfl, by simp [tftpStart, Tftp.tftpSend]⟩

lemma waiting_oack {len : Nat} {pkt : List UInt8} (haddr : s.loadAddr = tr.addr)
    (hoack : ntohs pkt = 6) (hlen : 2 ≤ len) (hsize : tr.size = blksizeOption (pkt.drop 2) (len - 2) tftpBlockSize)
    : Waiting tr ⟨(tftpHandler tr.req (tftpStart tr.req s port none).1 port pkt port tr.tid len).1, 1, false⟩ := by
  have hstart : (tftpStart tr.req s port none).1 = { s with
      netState := .continue, netBootFileSize := 0, putActive := false, state := .sendRrq
      timeoutCountMax := tr.req.timeoutCountMax, remotePort := wellKnownPort, timeoutCount := 0, ourPort := port
      curBlock := 0, blockSize := tftpBlockSize } := rfl
  rw [hstart]
  unfold tftpHandler
  rw [if_neg (by simp), if_neg (by simp), if_neg (by omega), hoack]
  exact ⟨⟨rfl, hsize.symm, haddr⟩, .inr ⟨rfl, rfl⟩, rfl, rfl, rfl, rfl, by simp [handleOack, Tftp.tftpSend]⟩

lemma Get.Run.inv (hfits : tr.Fits) (h : Get.Run tr InCycle g) : Inv tr g := by
  induction h with
  | start haddr hsize => exact ⟨by rw [hsize]; decide, .inl (waiting_start haddr hsize)⟩
  | oack haddr hoack hlen hsize =>
    refine ⟨?_, .inl (waiting_oack haddr hoack hlen hsize)⟩
    rw [hsize]
    exact blksizeOption_lt _ _ (by decide)
  | deliver _ _ hpos hsent hP ih =>
    have ⟨hsize, hinv⟩ := ih
    refine ⟨hsize, .inr ?_⟩
    rcases hinv with hw | ⟨t, h, hl⟩
    . exact hw.deliver hfits hsize hpos hsent
    . exact hl.deliver hfits hsize hpos hsent hP
  | timeout _ _ ih =>
    refine ih.imp_right fun hinv => ?_
    rcases hinv with hw | ⟨t, h, hl⟩
    . exact .inl hw.timeout
    . exact .inr ⟨t, h, hl.timeout⟩
  | next _ hacked hmore ih =>
    refine ih.imp_right fun hinv => ?_
    rcases hinv with hw | ⟨t, h, hl⟩
    . rw [hw.acked] at hacked
      contradiction
    . exact .inr ⟨t, h, hl.next hacked hmore⟩

theorem get_complete (tr : Transfer) (hfits : tr.Fits) (g : Get) (h : Get.Run tr InCycle g)
    (hdone : g.client.netState = .success)
    : load g.client.m tr.addr tr.file.length = tr.file ∧ g.client.netBootFileSize = tr.file.length := by
  rcases (h.inv hfits).2 with hw | ⟨t, last, hl⟩
  . exact absurd hdone hw.notDone
  have ⟨hlast, hpos⟩ := hl.done hdone
  have ⟨hsize, hbytes⟩ := hl.client.stored
  rw [hlast, Transfer.count, Blocks.take_count hpos] at hsize hbytes
  exact ⟨hbytes, hsize⟩

structure InOrder (tr : Transfer) (g : Get) (n : Nat) : Prop where
  client : At tr g.client n n
  sent : g.sent = n
  acked : g.acked = true
  loop : g.client.netState ≠ .restart

lemma inCycle_next (hat : At tr c n h) (hsize : tr.size ≤ 2 ^ 15) : InCycle c (n + 1) := by
  intro _ _
  rw [hat.wrap, hat.kept.size]
  constructor
  . unfold tftpSequenceSize
    split
    . omega
    . omega
  intro _
  have hmod := Nat.mod_lt (n + 1) (show 0 < tftpSequenceSize by decide)
  have hmul := Nat.mul_le_mul (show (n + 1) % tftpSequenceSize - 1 ≤ tftpSequenceSize - 2 by omega) hsize
  exact Nat.lt_of_le_of_lt hmul (by decide)

lemma Receives.inOrder {rest : List UInt8} (hp : h ≤ p) (hsent : g.sent = p) (hloop : g.client.netState ≠ .restart)
    (hres : Receives tr g.client p h (tftpHandler tr.req g.client g.client.ourPort (tr.data p ++ rest)
      g.client.ourPort tr.tid (tr.data p).length))
    : InOrder tr (g.deliver tr p rest) p := by
  have hat := hres.client
  rw [max_eq_right hp] at hat
  refine ⟨hat, hsent, ?_, hres.loop hloop⟩
  have hacks : acknowledges tr g.sent (some (ackPacket tr p)) = true := by
    rw [acknowledges_ackPacket, hsent]
  dsimp only [Get.deliver, Get.after]
  rw [hres.sent, hacks, Bool.or_true]

lemma exists_inOrder (hfits : tr.Fits) (hsize : tr.size ≤ 2 ^ 15) {P : Client → Nat → Prop} (hP : ∀ c p, P c p)
    (hrun : Get.Run tr P g) (hw : Waiting tr g) (hloop : g.client.netState ≠ .restart) (n : Nat)
    (hn : n + 1 ≤ tr.count) : ∃ g, Get.Run tr P g ∧ InOrder tr g (n + 1) := by
  induction n with
  | zero =>
    refine ⟨g.deliver tr 1 [], hrun.deliver hloop le_rfl (by rw [hw.sent]) (hP _ _), ?_⟩
    exact (hw.first hfits (by omega) []).inOrder (zero_le _) hw.sent hloop
  | succ n ih =>
    have ⟨g, hrun, hin⟩ := ih (by omega)
    have hmore : g.sent < tr.count := by
      rw [hin.sent]
      omega
    have hsent : g.next.sent = n + 1 + 1 := congrArg (· + 1) hin.sent
    have hnew : (n + 1 + 1) % tftpSequenceSize ≠ g.client.prevBlock := by
      rw [hin.client.prev]
      unfold tftpSequenceSize
      omega
    refine ⟨g.next.deliver tr (n + 1 + 1) [], ?_, ?_⟩
    . exact (hrun.next hin.acked hmore).deliver hin.loop (by omega) (by rw [hsent]) (hP _ _)
    . have hres := hin.client.deliver hfits (by omega) [] (by omega) le_rfl hn hnew (inCycle_next hin.client hsize)
      exact Receives.inOrder (g := g.next) (le_succ _) hsent hin.loop hres

namespace Sample

def client : Client where
  remotePort := 0
  ourPort := 0
  timeoutCount := 0
  timeoutCountMax := 0
  curBlock := 0
  prevBlock := 0
  blockWrap := 0
  blockWrapOffset := 0
  state := .data
  putActive := false
  putFinalBlockSent := false
  blockSize := 0
  loadAddr := 0
  saveAddr := 0
  netBootFileSize := 0
  netState := .continue
  m := fun _ => 0

def req : Request where
  filename := [0x61]
  timeoutMs := 5000
  blockSizeOption := 8
  timeoutCountMax := 10

def oack : List UInt8 := htons 6 ++ text "blksize" ++ [0, 0x38, 0]

def small : Transfer where
  req := req
  tid := 3000
  file := List.replicate 16 1 ++ [2, 3]
  size := 8
  addr := 0

def begun : Get := ⟨(tftpHandler req (tftpStart req client 1024 none).1 1024 oack 1024 3000 oack.length).1, 1, false⟩

def large : Transfer where
  req := req
  tid := 3000
  file := List.replicate 524299 1
  size := 8
  addr := 0

end Sample

open Sample

lemma begun_run : Get.Run small InCycle begun := .oack rfl (by decide) (by decide) (by decide +kernel)

-- The first block comes twice.
theorem get_complete_threeBlocks
    : ∃ g, Get.Run Sample.small InCycle g ∧ g.client.netState = .success
      ∧ load g.client.m 0 18 = List.replicate 16 1 ++ [2, 3] ∧ g.client.netBootFileSize = 18 := by
  have hfirst := @Get.Run.deliver _ _ _ 1 [] begun_run (by decide +kernel) (by decide) (by decide +kernel)
    (by decide +kernel)
  have hrepeated := @Get.Run.deliver _ _ _ 1 [] hfirst (by decide +kernel) (by decide) (by decide +kernel)
    (by decide +kernel)
  have hsecond := @Get.Run.deliver _ _ _ 2 [] (hrepeated.next (by decide +kernel) (by decide +kernel))
    (by decide +kernel) (by decide) (by decide +kernel) (by decide +kernel)
  have hthird := @Get.Run.deliver _ _ _ 3 [] (hsecond.next (by decide +kernel) (by decide +kernel))
    (by decide +kernel) (by decide) (by decide +kernel) (by decide +kernel)
  have hdone := get_complete small ⟨by decide, by decide⟩ _ hthird (by decide +kernel)
  exact ⟨_, hthird, by decide +kernel, hdone⟩

namespace Sample

lemma length_large : large.file.length = 524299 := length_replicate

lemma large_fits : large.Fits := by
  constructor
  . rw [length_large]
    decide
  . rw [length_large]
    decide

lemma length_large_block (p : Nat) : (large.block p).length = min 8 (524299 - (p - 1) * 8) := by
  have h := Blocks.length_block large.file large.size p
  rw [length_large] at h
  exact h

structure Overrun (c : Client) : Prop where
  state : c.state = .data
  remote : c.remotePort = large.tid
  get : c.putActive = false
  size : c.blockSize = 8
  prev : c.prevBlock = 0
  wrapOffset : c.blockWrapOffset = 2 * 524288
  fileSize : c.netBootFileSize = 2 * 524288
  loop : c.netState ≠ .restart

lemma overrun_late (hat : At large g.client 65537 65537) (hloop : g.client.netState ≠ .restart)
    : Overrun (g.deliver large 65536 []).client := by
  have hprev : g.client.prevBlock = 1 := hat.prev
  have hoff : g.client.blockWrapOffset = 524288 := hat.wrapOffset
  have hsize : g.client.blockSize = 8 := hat.kept.size
  have hfileSize : g.client.netBootFileSize = 524296 := by
    have h := hat.stored.size
    rw [length_take, length_large] at h
    exact h
  have hlen : (large.block 65536).length = 8 := length_large_block 65536
  have hnumber : 65536 % tftpSequenceSize = 0 := rfl
  unfold Get.deliver Get.after
  rw [tftpHandler_data (.inr hat.remote), handleData_data hat.state, hnumber, if_neg (by rw [hprev]; decide)]
  unfold updateBlockNumber
  rw [if_pos ⟨rfl, by dsimp only; rw [hprev]; decide⟩, receiveBlock_eq _ (by exact hat.state) (by exact hat.kept.get),
    hlen, if_neg (by dsimp only; rw [hsize]; decide)]
  have hnewsize : add (add (ofInt (bmod (toInt (sub 0 1) * (8 : Nat)) (2 ^ 32)))
      (add 524288 (8 * tftpSequenceSize))) 8 = 2 * 524288 := by
    decide
  refine ⟨hat.state, hat.remote, hat.kept.get, hsize, rfl, ?_, ?_, hloop⟩
  . dsimp only [storeBlock]
    rw [hoff, hsize]
    decide
  . dsimp only [storeBlock]
    rw [hoff, hsize, hfileSize, hnewsize, if_pos (by decide)]
    decide

lemma Overrun.last (ho : Overrun g.client)
    : (g.deliver large 65538 []).client.netState = .success
      ∧ (g.deliver large 65538 []).client.netBootFileSize = 2 * 524288 + 11 := by
  have hlen : (large.block 65538).length = 3 := length_large_block 65538
  have hnumber : 65538 % tftpSequenceSize = 2 := rfl
  unfold Get.deliver Get.after
  rw [tftpHandler_data (.inr ho.remote), handleData_data ho.state, hnumber, if_neg (by rw [ho.prev]; decide),
    updateBlockNumber_of_ne_zero (succ_ne_zero 1), receiveBlock_eq _ (by exact ho.state) (by exact ho.get),
    hlen, if_pos (by dsimp only; rw [ho.size]; decide)]
  have hnewsize : add (add (ofInt (bmod (toInt (sub 2 1) * (8 : Nat)) (2 ^ 32))) (2 * 524288)) 3 = 2 * 524288 + 11 := by
    decide
  constructor
  . rfl
  . dsimp only [storeBlock, tftpComplete]
    rw [ho.wrapOffset, ho.size, ho.fileSize, hnewsize, if_pos (by decide)]
    decide

end Sample

open Sample

-- Block 65536 is delivered again after block 65537, when 65538 has been sent.
theorem not_complete_lateDuplicate
    : ∃ g, Get.Run Sample.large (fun _ _ => True) g ∧ g.client.netState = .success
      ∧ g.client.netBootFileSize ≠ Sample.large.file.length := by
  have hcount : large.count = 65538 := Transfer.count_of_length length_large
  have hstart : Get.Run large (fun _ _ => True)
      ⟨(tftpHandler large.req (tftpStart large.req client 1024 none).1 1024 oack 1024 large.tid 12).1, 1, false⟩ :=
    .oack rfl (by decide) (by decide) (by decide +kernel)
  have ⟨g, hrun, hin⟩ := exists_inOrder large_fits (by decide) (fun _ _ => trivial) hstart
    (waiting_oack rfl (by decide) (by decide) (by decide +kernel)) (by decide +kernel) 65536 (by rw [hcount]; decide)
  have hsent : g.next.sent = 65538 := congrArg (· + 1) hin.sent
  have ho : Sample.Overrun (g.next.deliver large 65536 []).client := overrun_late hin.client hin.loop
  have hlate : Get.Run large (fun _ _ => True) (g.next.deliver large 65536 []) :=
    (hrun.next hin.acked (by rw [hin.sent, hcount]; decide)).deliver hin.loop (by decide) (by rw [hsent]; decide)
      trivial
  refine ⟨_, hlate.deliver ho.loop (by decide) (by rw [Get.sent_deliver, hsent]) trivial, ho.last.1, ?_⟩
  rw [length_large, ho.last.2]
  decide

end UBoot.Tftp
