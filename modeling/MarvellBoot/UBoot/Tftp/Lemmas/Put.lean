import MarvellBoot.UBoot.Tftp.Lemmas.Get

namespace UBoot.Tftp

open Mem Blocks Nat List Size

variable {c s : Client} {n len port : Nat} {u : Put} {pkt : List UInt8}

structure Put where
  client : Client
  sent : List Packet
  expected : Nat
  content : List UInt8
  finished : Bool
  acks : List Nat

def Put.after (u : Put) (res : Client × Option Packet) : Put :=
  { u with client := res.1, sent := res.2.toList ++ u.sent }

def Put.receive (tr : Transfer) (u : Put) (pkt : Packet) : Put :=
  if pkt.port = tr.tid ∧ ntohs pkt.payload = 3 ∧ ntohs (pkt.payload.drop 2) = u.expected % tftpSequenceSize
      ∧ u.finished = false then
    { u with
      expected := u.expected + 1
      content := u.content ++ pkt.payload.drop 4
      finished := (pkt.payload.drop 4).length < tr.size
      acks := u.expected :: u.acks }
  else
    u

def Put.ack (tr : Transfer) (u : Put) (n : Nat) (rest : List UInt8) : Put :=
  u.after (tftpHandler tr.req u.client u.client.ourPort (htons 4 ++ (htons n ++ rest)) u.client.ourPort tr.tid 4)

def Put.timeout (tr : Transfer) (u : Put) : Put := u.after (tftpTimeoutHandler tr.req u.client)

/--
Transfers in which each acknowledgement that is delivered meets `P`. A server without options acknowledges the
request, another one answers it with an OACK.
-/
inductive Put.Run (tr : Transfer) (P : Client → Nat → Prop) : Put → Prop where
  | start {s : Client} {port : Nat} (haddr : s.saveAddr = tr.addr) (hfile : Text s.m tr.addr tr.file)
      (hsize : tr.size = tftpBlockSize)
      : Run tr P ⟨(tftpStart tr.req s port (some tr.file.length)).1, [], 1, [], false, [0]⟩
  | oack {s c : Client} {port len : Nat} {pkt : List UInt8} {sent : Option Packet} (haddr : s.saveAddr = tr.addr)
      (hfile : Text s.m tr.addr tr.file) (hoack : ntohs pkt = 6) (hlen : 2 ≤ len)
      (hsize : tr.size = blksizeOption (pkt.drop 2) (len - 2) tftpBlockSize)
      (hres : tftpHandler tr.req (tftpStart tr.req s port (some tr.file.length)).1 port pkt port tr.tid len = (c, sent))
      : Run tr P ⟨c, sent.toList, 1, [], false, []⟩
  | receive {u : Put} {pkt : Packet} (h : Run tr P u) (hsent : pkt ∈ u.sent) : Run tr P (u.receive tr pkt)
  | ack {u : Put} {n : Nat} {rest : List UInt8} (h : Run tr P u) (hloop : u.client.netState ≠ .restart)
      (hack : n ∈ u.acks) (hP : P u.client n) : Run tr P (u.ack tr n rest)
  | timeout {u : Put} (h : Run tr P u) (hloop : u.client.netState ≠ .restart) : Run tr P (u.timeout tr)

variable {tr : Transfer} {rest : List UInt8}

structure Transfer.Short (tr : Transfer) : Prop where
  file : tr.file.length < (tftpSequenceSize - 1) * tr.size
  addr : tr.addr + tr.file.length < 2 ^ 64

lemma Transfer.Short.size_pos (h : tr.Short) : 0 < tr.size := by
  apply pos_of_ne_zero
  intro hzero
  have hfile := h.file
  rw [hzero, mul_zero] at hfile
  omega

lemma Transfer.Short.count_lt (h : tr.Short) : tr.count < tftpSequenceSize := by
  have hdiv := (div_lt_iff_lt_mul h.size_pos).mpr h.file
  unfold Transfer.count Blocks.count
  unfold tftpSequenceSize at *
  omega

lemma Transfer.Short.length_lt (h : tr.Short) (hsize : tr.size < 2 ^ 16) : tr.file.length < 2 ^ 32 := by
  have hmul := Nat.mul_lt_mul_of_lt_of_le (show tftpSequenceSize - 1 < 2 ^ 16 by decide) (Nat.le_of_lt hsize) (by decide)
  have hfile := h.file
  omega

structure Sends (tr : Transfer) (c : Client) : Prop where
  put : c.putActive = true
  state : c.state = .data
  remote : c.remotePort = tr.tid
  size : c.blockSize = tr.size
  addr : c.saveAddr = tr.addr
  prev : c.prevBlock = 0
  wrapOffset : c.blockWrapOffset = 0
  fileSize : c.netBootFileSize = tr.file.length
  file : Text c.m tr.addr tr.file

lemma loadBlock_eq (hshort : tr.Short) (hsize : tr.size < 2 ^ 16) (hs : Sends tr c)
    (hn : 1 ≤ n) (hcount : n ≤ tr.count) : loadBlock c n c.blockSize = tr.block n := by
  have hpos := hshort.size_pos
  have hlt := hshort.count_lt
  have haddr := hshort.addr
  have hstart : (n - 1) * tr.size ≤ tr.file.length := start_le_of_le_count hcount
  have hfile := hshort.length_lt hsize
  have hlen : (tr.block n).length = min tr.size (tr.file.length - (n - 1) * tr.size) := length_block tr.file tr.size n
  have hoffset : add (((toInt n - 1) * (tr.size : Int)) % 2 ^ 32).toNat 0 = (n - 1) * tr.size := by
    unfold tftpSequenceSize at hlt
    rw [toInt_eq (by omega), show (n : Int) - 1 = (n - 1 : Nat) by omega, ← Int.natCast_mul]
    unfold add
    omega
  have htext := hs.file
  have hsplit := @take_split tr n _ hn hcount
  rw [Transfer.count, take_count hpos] at hsplit
  rw [hsplit, text_append, text_append, length_take_of_le hstart] at htext
  unfold loadBlock
  dsimp only
  rw [hs.size, hs.wrapOffset, hoffset, hs.fileSize, hs.addr, sub_eq hstart (by omega), add_eq (by omega),
    min_comm, ← hlen]
  exact htext.2.1

def dataPacket (tr : Transfer) (n : Nat) : Packet := ⟨tr.tid, htons 3 ++ (htons n ++ tr.block n)⟩

lemma tftpSend_data (hshort : tr.Short) (hsize : tr.size < 2 ^ 16) (hs : Sends tr c)
    (hcur : 1 ≤ c.curBlock) (hcount : c.curBlock ≤ tr.count)
    : tftpSend tr.req c
      = ({ c with putFinalBlockSent := decide (c.curBlock = tr.count) }, dataPacket tr c.curBlock) := by
  have hload := loadBlock_eq hshort hsize hs hcur hcount
  have hlast : decide ((tr.block c.curBlock).length < tr.size) = decide (c.curBlock = tr.count) :=
    decide_eq_decide.mpr (length_block_lt_iff hshort.size_pos hcur hcount)
  unfold tftpSend
  rw [hs.state]
  dsimp only
  rw [if_pos hs.put, hload, hs.size, hlast, hs.remote, append_assoc]
  rfl

structure Sending (tr : Transfer) (u : Put) : Prop where
  client : Sends tr u.client
  pos : 1 ≤ u.client.curBlock
  count : u.client.curBlock ≤ tr.count
  le : u.client.curBlock ≤ u.expected
  final : u.client.putFinalBlockSent = true → u.client.curBlock = tr.count
  sent : ∀ pkt ∈ u.sent, ∃ n, 1 ≤ n ∧ n ≤ tr.count ∧ pkt = dataPacket tr n
    ∧ (n = tr.count → u.client.putFinalBlockSent = true)
  content : u.content = tr.file.take ((u.expected - 1) * tr.size)
  expected : 1 ≤ u.expected ∧ u.expected ≤ tr.count + 1
  finished : u.finished = true ↔ u.expected = tr.count + 1
  all : u.expected = tr.count + 1 → u.client.putFinalBlockSent = true
  acks : ∀ n ∈ u.acks, 1 ≤ n ∧ n < u.expected
  done : u.client.netState = .success → u.expected = tr.count + 1

structure Requesting (u : Put) : Prop where
  put : u.client.putActive = true
  state : u.client.state = .sendWrq
  final : u.client.putFinalBlockSent = false
  prev : u.client.prevBlock = 0
  sent : ∀ pkt ∈ u.sent, ntohs pkt.payload = 2
  notDone : u.client.netState ≠ .success

def OwnAck (c : Client) (n : Nat) : Prop := c.putFinalBlockSent = true → n % tftpSequenceSize = c.curBlock

lemma Requesting.receive {pkt : Packet} (hr : Requesting u) (hsent : pkt ∈ u.sent) : u.receive tr pkt = u := by
  unfold Put.receive
  rw [if_neg]
  intro hdata
  rw [hr.sent pkt hsent] at hdata
  exact absurd hdata.2.1 (by decide)

lemma ntohs_dataPacket (n : Nat) : ntohs (dataPacket tr n).payload = 3
    ∧ ntohs ((dataPacket tr n).payload.drop 2) = n % tftpSequenceSize
    ∧ (dataPacket tr n).payload.drop 4 = tr.block n := by
  refine ⟨ntohs_htons 3 _, ?_, ?_⟩
  . unfold dataPacket
    rw [drop_htons, ntohs_htons]
    rfl
  . unfold dataPacket
    rfl

lemma Sending.receive (hshort : tr.Short) {pkt : Packet} (hs : Sending tr u) (hsent : pkt ∈ u.sent)
    : Sending tr (u.receive tr pkt) := by
  have hpos := hshort.size_pos
  have hlt := hshort.count_lt
  have ⟨n, hn, hcount, hpkt, hlast⟩ := hs.sent pkt hsent
  have ⟨hopcode, hnumber, hdata⟩ := @ntohs_dataPacket tr n
  unfold Put.receive
  subst hpkt
  rw [hopcode, hnumber, hdata]
  split
  . next hexp =>
    have ⟨_, _, hnum, hopen⟩ := hexp
    have hnot : u.expected ≠ tr.count + 1 := by
      intro hall
      rw [hs.finished.mpr hall] at hopen
      contradiction
    have hexpected := hs.expected
    have heq : n = u.expected := by
      rw [mod_eq_of_lt (by omega), mod_eq_of_lt (by omega)] at hnum
      exact hnum
    subst heq
    refine ⟨hs.client, hs.pos, hs.count, ?_, hs.final, hs.sent, ?_, ?_, ?_, ?_, ?_, ?_⟩
    . have := hs.le
      dsimp only
      omega
    . dsimp only
      rw [hs.content, Transfer.block, take_append_block hn, Nat.add_sub_cancel]
    . dsimp only
      omega
    . dsimp only
      rw [decide_eq_true_iff]
      rw [Transfer.block, length_block_lt_iff hpos hn hcount]
      exact (add_right_cancel_iff).symm
    . intro hall
      exact hlast (add_right_cancel hall)
    . intro k hk
      dsimp only at hk ⊢
      rcases mem_cons.mp hk with rfl | hk
      . omega
      . have := hs.acks k hk
        omega
    . intro hsuccess
      exact absurd (hs.done hsuccess) hnot
  . exact hs

lemma updateBlockNumber_of_prev (h : s.prevBlock = 0) : updateBlockNumber s = s := by
  unfold updateBlockNumber
  rw [if_neg]
  exact fun hwrap => hwrap.2 h

lemma tftpHandler_ack (hport : c.state = .sendWrq ∨ c.remotePort = tr.tid)
    : tftpHandler tr.req c c.ourPort (htons 4 ++ (htons n ++ rest)) c.ourPort tr.tid 4
      = handleAck tr.req c (htons n ++ rest) := by
  have haccept : ¬(c.state ≠ .sendRrq ∧ tr.tid ≠ c.remotePort ∧ c.state ≠ .recvWrq ∧ c.state ≠ .sendWrq) := by
    intro hnot
    cases hport with
    | inl hstate => exact hnot.2.2.2 hstate
    | inr hremote => exact hnot.2.1 hremote.symm
  unfold tftpHandler
  rw [if_neg (by simp), if_neg haccept, if_neg (by decide), ntohs_htons, drop_htons]
  rfl

lemma handleAck_final (hput : c.putActive = true) (hfinal : c.putFinalBlockSent = true)
    : handleAck tr.req c pkt = (tftpComplete c, none) := by
  unfold handleAck
  rw [if_pos hput, if_pos hfinal]

lemma handleAck_next (hput : c.putActive = true)
    (hfinal : c.putFinalBlockSent = false) (hprev : c.prevBlock = 0)
    : handleAck tr.req c (htons n ++ rest)
      = if c.curBlock = n % 2 ^ 16 then
          ((tftpSend tr.req { c with curBlock := (n % 2 ^ 16 + 1) % 2 ^ 16 }).1,
            some (tftpSend tr.req { c with curBlock := (n % 2 ^ 16 + 1) % 2 ^ 16 }).2)
        else
          ({ c with curBlock := (n % 2 ^ 16 + 1) % 2 ^ 16 }, none) := by
  unfold handleAck
  rw [if_pos hput, if_neg (by rw [hfinal]; decide), ntohs_htons]
  dsimp only
  rw [updateBlockNumber_of_prev (by exact hprev)]

lemma Sending.send (hshort : tr.Short) (hsize : tr.size < 2 ^ 16) (hs : Sending tr u)
    (hc : Sends tr c) (hpos : 1 ≤ c.curBlock) (hcount : c.curBlock ≤ tr.count) (hle : c.curBlock ≤ u.expected)
    (hfinal : u.client.putFinalBlockSent = true → c.curBlock = tr.count)
    (hdone : c.netState = .success → u.client.netState = .success)
    : Sending tr (u.after ((tftpSend tr.req c).1, some (tftpSend tr.req c).2)) := by
  rw [tftpSend_data hshort hsize hc hpos hcount]
  have hlast {p : Prop} (h : p → c.curBlock = tr.count) : p → decide (c.curBlock = tr.count) = true :=
    fun hp => decide_eq_true (h hp)
  refine ⟨?_, hpos, hcount, hle, of_decide_eq_true, ?_, hs.content, hs.expected, hs.finished, ?_, hs.acks, ?_⟩
  . exact ⟨hc.put, hc.state, hc.remote, hc.size, hc.addr, hc.prev, hc.wrapOffset, hc.fileSize, hc.file⟩
  . intro pkt hpkt
    rcases mem_cons.mp hpkt with rfl | hpkt
    . exact ⟨c.curBlock, hpos, hcount, rfl, hlast id⟩
    . have ⟨n, hn, hle, hdata, hn'⟩ := hs.sent pkt hpkt
      exact ⟨n, hn, hle, hdata, hlast (hfinal ∘ hn')⟩
  . exact hlast (hfinal ∘ hs.all)
  . exact hs.done ∘ hdone

lemma Sending.ack (hshort : tr.Short) (hsize : tr.size < 2 ^ 16)
    (hs : Sending tr u) (hack : n ∈ u.acks) (hown : OwnAck u.client n) : Sending tr (u.ack tr n rest) := by
  have hc := hs.client
  have hlt := hshort.count_lt
  have ⟨hn, hexp⟩ := hs.acks n hack
  have hexpected := hs.expected
  unfold tftpSequenceSize at hlt
  unfold Put.ack
  rw [tftpHandler_ack (.inr hc.remote)]
  by_cases hfinal : u.client.putFinalBlockSent = true
  . have hlast := hs.final hfinal
    have hnum := hown hfinal
    unfold tftpSequenceSize at hnum
    have hall : u.expected = tr.count + 1 := by omega
    rw [handleAck_final hc.put hfinal]
    exact ⟨⟨hc.put, hc.state, hc.remote, hc.size, hc.addr, hc.prev, hc.wrapOffset, hc.fileSize, hc.file⟩, hs.pos,
      hs.count, hs.le, hs.final, hs.sent, hs.content, hs.expected, hs.finished, hs.all, hs.acks, fun _ => hall⟩
  have hnot : u.expected ≠ tr.count + 1 := fun hall => hfinal (hs.all hall)
  have hfinal : u.client.putFinalBlockSent = false := by simpa using hfinal
  have hnum : n % 2 ^ 16 = n := mod_eq_of_lt (by omega)
  have hnext : (n + 1) % 2 ^ 16 = n + 1 := mod_eq_of_lt (by omega)
  have hc' : Sends tr { u.client with curBlock := n + 1 } :=
    ⟨hc.put, hc.state, hc.remote, hc.size, hc.addr, hc.prev, hc.wrapOffset, hc.fileSize, hc.file⟩
  rw [handleAck_next hc.put hfinal hc.prev, hnum, hnext]
  split
  . apply hs.send hshort hsize hc'
    . exact le_add_left 1 n
    . dsimp only
      omega
    . exact hexp
    . rw [hfinal]
      exact fun h => absurd h (by decide)
    . exact id
  refine ⟨hc', le_add_left 1 n, ?_, hexp, ?_, hs.sent, hs.content, hs.expected, hs.finished, hs.all, hs.acks, hs.done⟩
  . dsimp only [Put.after]
    omega
  . dsimp only [Put.after]
    rw [hfinal]
    exact fun h => absurd h (by decide)

lemma Sending.timeout (hshort : tr.Short) (hsize : tr.size < 2 ^ 16) (hs : Sending tr u)
    : Sending tr (u.timeout tr) := by
  have hc := hs.client
  have hstate : u.client.state ≠ .recvWrq := by
    rw [hc.state]
    decide
  have hc' : Sends tr { u.client with timeoutCount := u.client.timeoutCount + 1 } :=
    ⟨hc.put, hc.state, hc.remote, hc.size, hc.addr, hc.prev, hc.wrapOffset, hc.fileSize, hc.file⟩
  unfold Put.timeout
  rcases tftpTimeoutHandler_cases tr.req hstate with hres | hres
  . rw [hres]
    refine ⟨⟨hc.put, hc.state, hc.remote, hc.size, hc.addr, hc.prev, hc.wrapOffset, hc.fileSize, hc.file⟩, hs.pos,
      hs.count, hs.le, hs.final, hs.sent, hs.content, hs.expected, hs.finished, hs.all, hs.acks, ?_⟩
    simp [Put.after]
  . rw [hres]
    exact hs.send hshort hsize hc' hs.pos hs.count hs.le hs.final id

lemma Requesting.send (hr : Requesting u) (hput : c.putActive = true)
    (hstate : c.state = .sendWrq) (hfinal : c.putFinalBlockSent = false) (hprev : c.prevBlock = 0)
    (hdone : c.netState ≠ .success)
    : Requesting (u.after ((tftpSend tr.req c).1, some (tftpSend tr.req c).2)) := by
  have hsend : tftpSend tr.req c = (c, ⟨c.remotePort, request tr.req 2⟩) := by
    unfold tftpSend
    rw [hstate]
  rw [hsend]
  refine ⟨hput, hstate, hfinal, hprev, ?_, hdone⟩
  intro pkt hpkt
  rcases mem_cons.mp hpkt with rfl | hpkt
  . simp only [request, append_assoc, ntohs_htons]
    decide
  . exact hr.sent pkt hpkt

lemma Requesting.ack (hr : Requesting u) : Requesting (u.ack tr n rest) := by
  unfold Put.ack
  rw [tftpHandler_ack (.inl hr.state), handleAck_next hr.put hr.final hr.prev]
  split
  . exact hr.send hr.put hr.state hr.final hr.prev hr.notDone
  . exact ⟨hr.put, hr.state, hr.final, hr.prev, hr.sent, hr.notDone⟩

lemma Requesting.timeout (hr : Requesting u) : Requesting (u.timeout tr) := by
  have hstate : u.client.state ≠ .recvWrq := by
    rw [hr.state]
    decide
  unfold Put.timeout
  rcases tftpTimeoutHandler_cases tr.req hstate with hres | hres
  . rw [hres]
    exact ⟨hr.put, hr.state, hr.final, hr.prev, hr.sent, by simp [Put.after]⟩
  . rw [hres]
    exact hr.send hr.put hr.state hr.final hr.prev hr.notDone

lemma requesting_start : Requesting ⟨(tftpStart tr.req s port (some len)).1, [], 1, [], false, [0]⟩ :=
  ⟨rfl, rfl, rfl, rfl, fun _ h => absurd h (not_mem_nil), by simp [tftpStart, newTransfer, tftpSend]⟩

lemma sending_oack (hshort : tr.Short) (hsize : tr.size < 2 ^ 16)
    {sent : Option Packet} (haddr : s.saveAddr = tr.addr) (hfile : Text s.m tr.addr tr.file) (hoack : ntohs pkt = 6)
    (hlen : 2 ≤ len) (hblksize : tr.size = blksizeOption (pkt.drop 2) (len - 2) tftpBlockSize)
    (hres : tftpHandler tr.req (tftpStart tr.req s port (some tr.file.length)).1 port pkt port tr.tid len = (c, sent))
    : Sending tr ⟨c, sent.toList, 1, [], false, []⟩ := by
  have hcount : 1 ≤ tr.count := le_add_left _ _
  have hmod : tr.file.length % 2 ^ 32 = tr.file.length := mod_eq_of_lt (hshort.length_lt hsize)
  let c0 := { s with
    netState := .continue, netBootFileSize := tr.file.length % 2 ^ 32, putActive := true, state := .data
    prevBlock := 0, blockWrap := 0, blockWrapOffset := 0, putFinalBlockSent := false
    timeoutCountMax := tr.req.timeoutCountMax, remotePort := tr.tid, timeoutCount := 0, ourPort := port
    curBlock := 1, blockSize := blksizeOption (pkt.drop 2) (len - 2) tftpBlockSize }
  have hc : Sends tr c0 := ⟨rfl, rfl, rfl, hblksize.symm, haddr, rfl, rfl, hmod, hfile⟩
  have hsend := tftpSend_data hshort hsize hc (le_refl 1) hcount
  have hhandler : tftpHandler tr.req (tftpStart tr.req s port (some tr.file.length)).1 port pkt port tr.tid len
      = ((tftpSend tr.req c0).1, some (tftpSend tr.req c0).2) := by
    have hstart : (tftpStart tr.req s port (some tr.file.length)).1 = { s with
        netState := .continue, netBootFileSize := tr.file.length % 2 ^ 32, putActive := true, state := .sendWrq
        prevBlock := 0, blockWrap := 0, blockWrapOffset := 0, putFinalBlockSent := false
        timeoutCountMax := tr.req.timeoutCountMax, remotePort := wellKnownPort, timeoutCount := 0, ourPort := port
        curBlock := 0, blockSize := tftpBlockSize } := rfl
    rw [hstart]
    unfold tftpHandler
    rw [if_neg (by simp), if_neg (by simp), if_neg (by omega), hoack]
    rfl
  rw [hhandler, hsend] at hres
  cases hres
  refine ⟨⟨hc.put, hc.state, hc.remote, hc.size, hc.addr, hc.prev, hc.wrapOffset, hc.fileSize, hc.file⟩,
    le_refl 1, hcount, le_refl 1, of_decide_eq_true, ?_, ?_, ?_, ?_, ?_, ?_, ?_⟩
  . intro pkt hpkt
    have hpkt : pkt = dataPacket tr 1 := by simpa using hpkt
    exact ⟨1, le_refl 1, hcount, hpkt, decide_eq_true⟩
  . simp
  . dsimp only
    omega
  . dsimp only
    constructor
    . intro h
      contradiction
    . omega
  . dsimp only
    omega
  . intro n hn
    exact absurd hn (not_mem_nil)
  . intro h
    contradiction

lemma Put.Run.inv (hshort : tr.Short) (h : Put.Run tr OwnAck u)
    : Requesting u ∨ (tr.size < 2 ^ 16 ∧ Sending tr u) := by
  induction h with
  | start _ _ _ => exact .inl requesting_start
  | oack haddr hfile hoack hlen hblksize hres =>
    have hsize : tr.size < 2 ^ 16 := by
      rw [hblksize]
      exact blksizeOption_lt _ _ (by decide)
    exact .inr ⟨hsize, sending_oack hshort hsize haddr hfile hoack hlen hblksize hres⟩
  | receive _ hsent ih =>
    rcases ih with hr | ⟨hsize, hs⟩
    . rw [hr.receive hsent]
      exact .inl hr
    . exact .inr ⟨hsize, hs.receive hshort hsent⟩
  | ack _ _ hack hP ih =>
    rcases ih with hr | ⟨hsize, hs⟩
    . exact .inl hr.ack
    . exact .inr ⟨hsize, hs.ack hshort hsize hack hP⟩
  | timeout _ _ ih =>
    rcases ih with hr | ⟨hsize, hs⟩
    . exact .inl hr.timeout
    . exact .inr ⟨hsize, hs.timeout hshort hsize⟩

def Carries (tr : Transfer) (pkt : Packet) : Prop :=
  ntohs pkt.payload = 3 → ∃ n, 1 ≤ n ∧ n ≤ tr.count ∧ ntohs (pkt.payload.drop 2) = n % tftpSequenceSize
    ∧ pkt.payload.drop 4 = tr.block n

theorem put_complete (tr : Transfer) (hshort : tr.Short) (u : Put) (h : Put.Run tr OwnAck u)
    : (∀ pkt ∈ u.sent, Carries tr pkt) ∧ (u.client.netState = .success → u.finished = true ∧ u.content = tr.file) := by
  rcases h.inv hshort with hr | ⟨_, hs⟩
  . constructor
    . intro pkt hpkt hdata
      rw [hr.sent pkt hpkt] at hdata
      contradiction
    . intro hdone
      exact absurd hdone hr.notDone
  constructor
  . intro pkt hpkt _
    have ⟨n, hn, hcount, hdata, _⟩ := hs.sent pkt hpkt
    have ⟨_, hnumber, hblock⟩ := @ntohs_dataPacket tr n
    subst hdata
    exact ⟨n, hn, hcount, hnumber, hblock⟩
  intro hdone
  have hall := hs.done hdone
  refine ⟨hs.finished.mpr hall, ?_⟩
  rw [hs.content, hall, Nat.add_sub_cancel, Transfer.count, take_count hshort.size_pos]

namespace Sample

def upload : Transfer where
  req := req
  tid := 3000
  file := [0, 1, 2, 3, 4, 5, 6, 7, 8]
  size := 8
  addr := 0

def saver : Client := { client with m := fun x => UInt8.ofNat x.toNat }

def accepted : Client × Option Packet := tftpHandler req (tftpStart req saver 1024 (some 9)).1 1024 oack 1024 3000 12

def first : Put := ⟨accepted.1, accepted.2.toList, 1, [], false, []⟩

def second : Put := (first.receive upload (dataPacket upload 1)).ack upload 1 []

lemma upload_short : upload.Short := ⟨by decide, by decide⟩

lemma run_second {P : Client → Nat → Prop} (h : P (first.receive upload (dataPacket upload 1)).client 1)
    : Put.Run upload P second := by
  have hfile : Text saver.m upload.addr upload.file := by
    unfold Text
    decide +kernel
  have hfirst : Put.Run upload P first :=
    @Put.Run.oack _ P _ _ 1024 12 oack _ rfl hfile (by decide) (by decide) (by decide +kernel) rfl
  exact (hfirst.receive (by decide +kernel)).ack (by decide +kernel) (by decide +kernel) h

end Sample

open Sample

theorem put_complete_twoBlocks
    : ∃ u, Put.Run Sample.upload OwnAck u ∧ u.client.netState = .success ∧ u.finished = true
      ∧ u.content = [0, 1, 2, 3, 4, 5, 6, 7, 8] := by
  have hsecond : Put.Run upload OwnAck second := run_second (fun h => absurd h (by decide +kernel))
  have hdone : ((second.receive upload (dataPacket upload 2)).ack upload 2 []).client.netState = .success := by
    decide +kernel
  have hrun : Put.Run upload OwnAck ((second.receive upload (dataPacket upload 2)).ack upload 2 []) :=
    (hsecond.receive (by decide +kernel)).ack (by decide +kernel) (by decide +kernel) (fun _ => by decide +kernel)
  have ⟨hfinished, hcontent⟩ := (put_complete upload upload_short _ hrun).2 hdone
  exact ⟨_, hrun, hdone, hfinished, hcontent⟩

-- The acknowledgement of the first block is delivered again after the last one has been sent.
theorem not_complete_oldAck
    : ∃ u, Put.Run Sample.upload (fun _ _ => True) u ∧ u.client.netState = .success ∧ u.finished = false
      ∧ u.content ≠ Sample.upload.file := by
  refine ⟨second.ack upload 1 [], ?_, by decide +kernel, by decide +kernel, by decide +kernel⟩
  exact (run_second trivial).ack (by decide +kernel) (by decide +kernel) trivial

end UBoot.Tftp
