import MarvellBoot.UBoot.Bootp.Lemmas.Options

namespace UBoot.Bootp

open Tlv List Option Packet

variable {pkt : Packet} {s : State} {m : List UInt8}

def unset (g : Globals) (code : Nat) : Bool :=
  match code with
  | 1 => g.netmask = 0
  | 3 => g.gateway = 0
  | 6 => g.dnsServer = 0
  | 12 => g.hostname.first = 0
  | 17 => g.rootPath.first = 0
  | 40 => g.nisDomain.first = 0
  | _ => true

def vendorNeed (x : Item) (free : Bool) : Nat :=
  match x.code.toNat with
  | 1 | 3 | 6 => if free then 4 else 0
  | 12 | 40 => if free then truncateSz 32 x.len else 0
  | 13 => if x.len = 2 then 2 else if x.len = 4 then 8 else 0
  | 17 => if free then truncateSz 64 x.len else 0
  | _ => 0

def fills (m : List UInt8) (x : Item) : Bool :=
  match x.code.toNat with
  | 1 | 3 | 6 => readU32 m (x.pos + 2) ≠ some 0
  | 12 | 17 | 40 => x.len ≠ 0 ∧ m.getD (x.pos + 2) 0 ≠ 0
  | _ => false

def VendorInside (m : List UInt8) (stop : Nat) (free : Nat → Bool) : List Item → Prop
  | [] => True
  | x :: l =>
    if x.isPad ∨ stop < x.next then
      VendorInside m stop free l
    else
      x.pos + 2 + vendorNeed x (free x.code.toNat) ≤ m.length
        ∧ VendorInside m stop (fun code => free code && !(code = x.code.toNat && fills m x)) l

instance (m : List UInt8) (stop : Nat) (free : Nat → Bool) (l : List Item) : Decidable (VendorInside m stop free l) := by
  induction l generalizing free with
  | nil => exact instDecidableTrue
  | cons x l ih =>
    unfold VendorInside
    infer_instance

lemma truncateSz_eq_zero {n len : Nat} (hn : 1 < n) : truncateSz n len = 0 ↔ len = 0 := by
  unfold truncateSz
  split <;> omega

lemma first_optionText {popt len : Nat} {b b' : Buf n} (hn : 1 < n)
    (h : optionText m popt len b = some b') : b'.first = 0 ↔ ¬(len ≠ 0 ∧ m.getD (popt + 2) 0 ≠ 0) := by
  obtain ⟨data, hdata, hset⟩ := bind_eq_some_iff.mp h
  unfold readBytes at hdata
  split at hdata
  next =>
    cases hdata
    unfold Buf.set at hset
    split at hset
    next =>
      cases hset
      unfold Buf.first
      have hzero := @truncateSz_eq_zero n len hn
      rw [headD_eq_head?_getD, head?_append, head?_take, head?_drop, getD_eq_getElem?_getD]
      simp only [hzero]
      split
      next hlen => simp [hlen]
      next hlen => simp [hlen]
    next => cases hset
  next => cases hdata

lemma isSome_bootpProcessVendorField {g : Globals} {x : Item} (h : x.pos + 1 < m.length)
    : (bootpProcessVendorField m g x.pos x.code x.len).isSome
        ↔ x.pos + 2 + vendorNeed x (unset g x.code.toNat) ≤ m.length := by
  have hbelow : x.pos + 2 ≤ m.length := h
  unfold bootpProcessVendorField vendorNeed unset
  generalize x.code.toNat = code
  dsimp only
  split
  case h_5 =>
    split
    . simp only [isSome_map, isSome_readBytes]
    . split
      . simp only [isSome_map, isSome_readBytes]
      . simp [hbelow]
  case h_8 =>
    split
    all_goals simp_all
  all_goals
    split
    next hfree => simp [hfree, isSome_readU32, isSome_optionText]
    next hfree => simp only [isSome_some, hfree, decide_false, Bool.false_eq_true, if_false, add_zero, hbelow]

lemma bootpProcessVendorField_unset {g g' : Globals} {x : Item}
    (h : bootpProcessVendorField m g x.pos x.code x.len = some g')
    : unset g' = fun code => unset g code && !(code = x.code.toNat && fills m x) := by
  funext code
  unfold bootpProcessVendorField at h
  unfold fills
  generalize x.code.toNat = own at h ⊢
  dsimp only at h
  split at h
  case h_5 =>
    have hsame : unset g' = unset g := by
      split at h
      next =>
        obtain ⟨_, -, rfl⟩ := map_eq_some_iff.mp h
        rfl
      next =>
      split at h
      next =>
        obtain ⟨_, -, rfl⟩ := map_eq_some_iff.mp h
        rfl
      next =>
      cases h
      rfl
    simp [hsame]
  case h_8 =>
    have hsame : unset g' = unset g := by
      cases h
      rfl
    split
    all_goals simp_all
  case h_1 | h_2 | h_3 =>
    split at h
    next hfree =>
      obtain ⟨ip, hip, rfl⟩ := map_eq_some_iff.mp h
      unfold unset
      split
      all_goals simp_all
    next hfree =>
    cases h
    unfold unset
    split
    all_goals simp_all
  case h_4 | h_6 | h_7 =>
    split at h
    next hfree =>
      obtain ⟨b, hb, rfl⟩ := map_eq_some_iff.mp h
      have hfirst := first_optionText (by decide) hb
      unfold unset
      split
      all_goals simp_all
    next hfree =>
    cases h
    unfold unset
    split
    all_goals simp_all

lemma isSome_bootpProcessVendor (m : List UInt8) (stop i : Nat) (g : Globals)
    : (bootpProcessVendor m stop i g).isSome ↔ ∃ l, items m stop i = some l ∧ VendorInside m stop (unset g) l := by
  fun_induction items m stop i generalizing g with
  | case1 i hlt hcode =>
    unfold bootpProcessVendor
    simp [hlt, hcode]
  | case2 i hlt hcode =>
    unfold bootpProcessVendor
    simp [hlt, hcode, VendorInside]
  | case3 i hlt hcode hff ih =>
    unfold bootpProcessVendor
    rw [if_pos hlt, hcode]
    dsimp only
    rw [if_neg hff, if_pos rfl, ih g]
    simp [VendorInside, Item.isPad]
  | case4 i hlt code hcode hff hpad hlen =>
    unfold bootpProcessVendor
    simp [hlt, hcode, hff, hpad, hlen]
  | case5 i hlt code hcode hff hpad len hlen ih =>
    have hlt' : i + 1 < m.length := (List.getElem?_eq_some_iff.mp hlen).1
    have hisPad : Item.isPad ⟨i, code, len.toNat⟩ = false := by
      simp [Item.isPad, hpad]
    have hnext : Item.next ⟨i, code, len.toNat⟩ = i + len.toNat + 2 := by
      simp [Item.next, hisPad]
    unfold bootpProcessVendor
    rw [if_pos hlt, hcode]
    dsimp only
    rw [if_neg hff, if_neg hpad, hlen]
    simp only [map_eq_some_iff, exists_exists_and_eq_and, VendorInside, hisPad, hnext]
    split
    next hle =>
      have hneg : ¬(false = true ∨ stop < i + len.toNat + 2) := by
        simp
        omega
      have hfield := @isSome_bootpProcessVendorField m g ⟨i, code, len.toNat⟩ hlt'
      simp only [if_neg hneg]
      cases hg : bootpProcessVendorField m g i code len.toNat with
      | none =>
        rw [hg] at hfield
        constructor
        . intro h
          cases h
        . rintro ⟨l, -, hin, -⟩
          cases hfield.mpr hin
      | some g' =>
        rw [hg] at hfield
        have hin := hfield.mp rfl
        have hunset := @bootpProcessVendorField_unset m g g' ⟨i, code, len.toNat⟩ hg
        rw [ih g', hunset]
        simp [hin]
    next hle =>
    have hpos : false = true ∨ stop < i + len.toNat + 2 := .inr (by omega)
    rw [ih g]
    simp only [if_pos hpos]
  | case6 i hlt =>
    unfold bootpProcessVendor
    simp [hlt, VendorInside]

lemma isSome_copyFilename {dst : Buf n} {mem : List UInt8} {src size : Nat} (hn : 0 < n) (hsize : size ≤ n)
    : (copyFilename dst mem src size).isSome := by
  apply isSome_set
  rw [length_take]
  omega

lemma isSome_storeNetParams (g : Globals) (pkt : Packet) (dhcp : Bool) : (storeNetParams g pkt dhcp).isSome := by
  unfold storeNetParams
  rw [isSome_map]
  split
  next => exact isSome_copyFilename (by decide) (by decide)
  next => rfl

lemma storeNetParams_unset {g g' : Globals} {dhcp : Bool} (h : storeNetParams g pkt dhcp = some g')
    : unset g' = unset g := by
  obtain ⟨b, -, rfl⟩ := map_eq_some_iff.mp h
  rfl

def DhcpInside (s : State) (pkt : Packet) : Prop :=
  pkt.yiaddr ≠ 0 →
    match s.dhcpState with
    | .selecting => OptionsInside pkt.mem
    | .requesting =>
      Packet.offVend + 4 ≤ pkt.mem.length
        ∧ (readU32 pkt.mem Packet.offVend = some bootpVendorMagic →
          ∃ type, TypeAt pkt.mem (Packet.offVend + 4) type ∧ (type = dhcpAck → OptionsInside pkt.mem))
    | _ => True

def BootpInside (s : State) (pkt : Packet) : Prop :=
  Packet.offVend + 4 ≤ pkt.mem.length
    ∧ (readU32 pkt.mem Packet.offVend = some bootpVendorMagic →
      ∃ l, items pkt.mem (Packet.offVend + 4 + pkt.len) (Packet.offVend + 4) = some l
        ∧ VendorInside pkt.mem (Packet.offVend + 4 + pkt.len) (unset s.globals) l)

lemma isSome_bind_some {α β : Type} (o : Option α) (f : α → β) : (o.bind fun a => some (f a)).isSome = o.isSome := by
  cases o with
  | none => rfl
  | some a => rfl

lemma isSome_bound (s : State) (pkt : Packet) (f : Globals → State)
    : ((dhcpPacketProcessOptions pkt.mem s.globals).bind fun globals =>
        (storeNetParams globals pkt true).bind fun globals => some (f globals)).isSome ↔ OptionsInside pkt.mem := by
  rw [← isSome_dhcpPacketProcessOptions pkt.mem s.globals]
  cases dhcpPacketProcessOptions pkt.mem s.globals with
  | none => rfl
  | some globals =>
    rw [bind_some, isSome_bind_some, isSome_storeNetParams]
    rfl

lemma isSome_dhcpHandler (h : checkReplyPacket s pkt = 0) : (dhcpHandler s pkt).isSome ↔ DhcpInside s pkt := by
  unfold dhcpHandler DhcpInside
  rw [if_neg (not_not.mpr h)]
  split
  next hzero => simp [hzero]
  next hzero =>
  simp only [ne_eq, hzero, not_false_eq_true, true_imp_iff, bind_eq_bind]
  cases s.dhcpState with
  | selecting =>
    rw [isSome_bind_some]
    exact isSome_dhcpPacketProcessOptions pkt.mem s.globals
  | requesting =>
    rw [← isSome_readU32]
    unfold dhcpMessageType
    cases readU32 pkt.mem offVend with
    | none => simp
    | some magic =>
      simp only [bind_eq_bind, bind_some]
      split
      next hmagic => simp [hmagic, dhcpAck]
      next hmagic =>
      rw [ne_eq, not_not] at hmagic
      rw [hmagic]
      simp only [← dhcpMessageType.go_eq_some, isSome_some, true_and, true_imp_iff]
      cases dhcpMessageType.go pkt.mem (offVend + 4) with
      | none => simp
      | some type =>
        simp only [bind_some, some.injEq, exists_eq_left']
        split
        next hack => simp [hack, isSome_bound]
        next hack => simp [hack]
  | _ => simp

lemma isSome_bootpHandler (h : checkReplyPacket s pkt = 0) : (bootpHandler s pkt).isSome ↔ BootpInside s pkt := by
  unfold bootpHandler BootpInside
  rw [if_neg (not_not.mpr h)]
  obtain ⟨g, hg⟩ := isSome_iff_exists.mp (isSome_storeNetParams s.globals pkt false)
  have hunset := storeNetParams_unset hg
  rw [hg, ← isSome_readU32]
  simp only [bind_eq_bind, bind_some]
  cases readU32 pkt.mem offVend with
  | none => simp
  | some magic =>
    rw [bind_some]
    split
    next hmagic =>
      rw [isSome_bind_some, isSome_bootpProcessVendor, hunset]
      simp [hmagic]
    next hmagic => simp [hmagic]

lemma Packet.payload_getD (pkt : Packet) {i : Nat} (h : i < pkt.len) : pkt.payload.mem.getD i 0 = pkt.mem.getD i 0 := by
  unfold payload
  rw [getD_eq_getElem?_getD, getD_eq_getElem?_getD, getElem?_take_of_lt h]

lemma Packet.payload_slice (pkt : Packet) {off n : Nat} (h : off + n ≤ pkt.len)
    : (pkt.payload.mem.drop off).take n = (pkt.mem.drop off).take n := by
  unfold payload
  rw [drop_take, take_take, Nat.min_eq_left]
  omega

lemma checkReplyPacket_payload (h : checkReplyPacket s pkt = 0) : checkReplyPacket s pkt.payload = 0 := by
  have hlen : bootpHdrSize - optFieldSize ≤ pkt.len := by
    unfold checkReplyPacket at h
    by_contra hlt
    split at h
    next => cases h
    next =>
    rw [if_pos (by omega)] at h
    cases h
  have hle : 236 ≤ pkt.len := hlen
  rw [← h]
  unfold checkReplyPacket u32
  rw [pkt.payload_getD (by omega), pkt.payload_getD (by omega), pkt.payload_getD (by omega), pkt.payload_slice (by omega),
    pkt.payload_slice (by unfold offChaddr; omega)]
  rfl

theorem handlers_inside (s : State) (pkt : Packet) (h : checkReplyPacket s pkt = 0)
    : ((dhcpHandler s pkt.payload).isSome ↔ DhcpInside s pkt.payload)
      ∧ ((bootpHandler s pkt.payload).isSome ↔ BootpInside s pkt.payload) := by
  have hpayload := checkReplyPacket_payload h
  exact ⟨isSome_dhcpHandler hpayload, isSome_bootpHandler hpayload⟩

namespace Sample

def globals : Globals :=
  { netmask := 0, gateway := 0, dnsServer := 0, bootFileExpectedSizeInBlocks := 0, dhcpLeasetime := 0
    dhcpOptionOverload := 0, dhcpServerIp := 0, netIp := 0, netServerIp := 0, netServerEthaddr := 0
    hostname := ⟨List.replicate 32 0, List.length_replicate⟩
    rootPath := ⟨List.replicate 64 0, List.length_replicate⟩
    nisDomain := ⟨List.replicate 32 0, List.length_replicate⟩
    bootFileName := ⟨List.replicate 1024 0, List.length_replicate⟩ }

def state (dhcpState : DhcpState) : State :=
  { globals, dhcpState, ids := ⟨fun _ => 0, ⟨1, by decide⟩⟩, ethaddr := List.replicate 6 0, tx := none, timer := true }

def header (host : UInt8) : List UInt8 :=
  [2, 1, 6, 0] ++ List.replicate 12 0 ++ [10, 0, 0, host] ++ List.replicate 216 0

def reply (host : UInt8) (vend : List UInt8) : Packet :=
  { mem := header host ++ vend
    len := (header host ++ vend).length
    dest := 68
    src := 67
    etSrc := 0
    len_le := Nat.le_refl _ }

def magic : List UInt8 := [0x63, 0x82, 0x53, 0x63]

-- A netmask, a gateway, a name server, a host name and a lease time.
def configured : Packet :=
  reply 1 (magic ++ [1, 4, 255, 255, 255, 0, 3, 4, 10, 0, 0, 254, 0, 6, 4, 10, 0, 0, 53, 12, 2, 97, 98,
    51, 4, 0, 0, 14, 16, 255])

end Sample

open Sample

theorem handlers_inside_options
    : (dhcpHandler (state .selecting) configured.payload).isSome
      ∧ (bootpHandler (state .selecting) configured.payload).isSome := by
  have hdhcp : (packetItems configured.payload.mem).map
      (fun l => decide (∀ x ∈ l, x.pos + 2 + need x ≤ configured.payload.mem.length)) = some true := by
    decide +kernel
  have hbootp : (items configured.payload.mem (Packet.offVend + 4 + configured.payload.len) (Packet.offVend + 4)).map
      (fun l => decide (VendorInside configured.payload.mem (Packet.offVend + 4 + configured.payload.len)
        (unset (state .selecting).globals) l)) = some true := by
    decide +kernel
  obtain ⟨l, hitems, hneed⟩ := map_eq_some_iff.mp hdhcp
  obtain ⟨l', hitems', hneed'⟩ := map_eq_some_iff.mp hbootp
  have h := handlers_inside (state .selecting) configured (by decide +kernel)
  refine ⟨h.1.mpr fun _ => ⟨by decide +kernel, fun _ => ⟨l, hitems, of_decide_eq_true hneed⟩⟩, h.2.mpr ?_⟩
  exact ⟨by decide +kernel, fun _ => ⟨l', hitems', of_decide_eq_true hneed'⟩⟩

theorem not_inside_end
    : (checkReplyPacket (state .selecting) (reply 1 []) = 0
        ∧ (dhcpHandler (state .selecting) (reply 1 []).payload).isSome = false)
      ∧ checkReplyPacket (state .init) (reply 1 (magic ++ [13, 4, 0, 0, 0, 1, 255])) = 0
        ∧ (bootpHandler (state .init) (reply 1 (magic ++ [13, 4, 0, 0, 0, 1, 255])).payload).isSome
          = false := by
  decide +kernel

end UBoot.Bootp
