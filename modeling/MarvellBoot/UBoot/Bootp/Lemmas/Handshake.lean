import MarvellBoot.UBoot.Bootp.Lemmas.Inside

namespace UBoot.Bootp

open Tlv Option

variable {pkt : Packet} {s s' : State} {g g' : Globals} {len popt : Nat} {m : List UInt8}
  {hist : List (Event × State)} {code : UInt8} {e : Event}

inductive Run (P : State → Event → Prop) (s₀ : State) : List (Event × State) → State → Prop where
  | nil : Run P s₀ [] s₀
  | cons {hist : List (Event × State)} {s s' : State} {e : Event} (h : Run P s₀ hist s) (hp : P s e)
      (hstep : s.step e = some s') : Run P s₀ ((e, s') :: hist) s'

def messageType (pkt : Packet) : Option Int := dhcpMessageType pkt.mem Packet.offVend

def ServerIds (m : List UInt8) (P : Ip → Prop) : Prop :=
  readU32 m Packet.offVend = some bootpVendorMagic →
    ∀ l ∈ packetItems m, ∀ x ∈ l, x.code = 54 → ∀ ip ∈ readU32 m (x.pos + 2), P ip

/--
A packet that is taken as an offer is one, and an acknowledgement is for the address and the server of the request.
-/
structure PacketCond (s : State) (pkt : Packet) : Prop where
  selecting : checkReplyPacket s pkt = 0 → pkt.yiaddr ≠ 0 → s.dhcpState = .selecting → messageType pkt = some dhcpOffer
  requesting : checkReplyPacket s pkt = 0 → pkt.yiaddr ≠ 0 → s.dhcpState = .requesting → messageType pkt = some dhcpAck →
    ∀ id serverId requestedIp, s.tx = some (.request id serverId requestedIp) →
      some pkt.yiaddr = requestedIp ∧ ServerIds pkt.mem fun ip => named ip = serverId

def EventCond (s : State) : Event → Prop
  | .packet pkt => PacketCond s pkt
  | _ => True

def Answered (hist : List (Event × State)) (id : BitVec 32) (serverId requestedIp : Option Ip) : Prop :=
  ∃ mid offer s₁ pre, hist = mid ++ (Event.packet offer, s₁) :: pre ∧ messageType offer = some dhcpOffer
    ∧ s₁.tx = some (.request id serverId requestedIp) ∧ ∀ x ∈ mid, x.2.tx = s₁.tx

def Handshake (hist : List (Event × State)) (s : State) : Prop :=
  ∃ post ack s₂ pre id serverId requestedIp, hist = post ++ (Event.packet ack, s₂) :: pre
    ∧ Answered pre id serverId requestedIp ∧ messageType ack = some dhcpAck
    ∧ requestedIp = some s.globals.netIp ∧ serverId = named s.globals.dhcpServerIp

lemma dhcpHandler_cases (h : dhcpHandler s pkt = some s')
    : s' = s
      ∨ (checkReplyPacket s pkt = 0 ∧ pkt.yiaddr ≠ 0 ∧ s.dhcpState = .selecting ∧ ∃ globals,
          s' = dhcpSendRequestPacket { s with globals, dhcpState := .requesting, timer := true } pkt
          ∧ dhcpPacketProcessOptions pkt.mem s.globals = some globals)
      ∨ (checkReplyPacket s pkt = 0 ∧ pkt.yiaddr ≠ 0 ∧ s.dhcpState = .requesting ∧ messageType pkt = some dhcpAck
          ∧ ∃ g globals, dhcpPacketProcessOptions pkt.mem s.globals = some g ∧ storeNetParams g pkt true = some globals
            ∧ s' = { s with globals, dhcpState := .bound, timer := false }) := by
  unfold dhcpHandler at h
  split at h
  next =>
    cases h
    exact .inl rfl
  next hcheck =>
  rw [not_not] at hcheck
  split at h
  next =>
    cases h
    exact .inl rfl
  next hyiaddr =>
  split at h
  next hstate =>
    obtain ⟨globals, hglobals, h⟩ := bind_eq_some_iff.mp h
    cases h
    exact .inr (.inl ⟨hcheck, hyiaddr, hstate, globals, rfl, hglobals⟩)
  next hstate =>
    obtain ⟨type, htype, h⟩ := bind_eq_some_iff.mp h
    split at h
    next hack =>
      obtain ⟨g, hg, h⟩ := bind_eq_some_iff.mp h
      obtain ⟨globals, hglobals, h⟩ := bind_eq_some_iff.mp h
      cases h
      rw [hack] at htype
      exact .inr (.inr ⟨hcheck, hyiaddr, hstate, htype, g, globals, hg, hglobals, rfl⟩)
    next =>
    cases h
    exact .inl rfl
  next =>
  cases h
  exact .inl rfl

section

variable (h : dhcpProcessOption m g popt code len = some g')

include h

lemma dhcpProcessOption_serverIp
    : g'.dhcpServerIp = g.dhcpServerIp ∨ code = 54 ∧ readU32 m (popt + 2) = some g'.dhcpServerIp := by
  have hcode : code = 54 ↔ code.toNat = 54 := UInt8.toNat_inj.symm
  rw [hcode]
  unfold dhcpProcessOption at h
  generalize code.toNat = code at h
  split at h
  case h_8 =>
    obtain ⟨ip, hip, rfl⟩ := map_eq_some_iff.mp h
    exact .inr ⟨rfl, hip⟩
  case h_10 =>
    cases h
    exact .inl rfl
  all_goals
    obtain ⟨_, -, rfl⟩ := map_eq_some_iff.mp h
    exact .inl rfl

lemma dhcpProcessOption_netIp : g'.netIp = g.netIp := by
  unfold dhcpProcessOption at h
  split at h
  case h_10 =>
    cases h
    rfl
  all_goals
    obtain ⟨_, -, rfl⟩ := map_eq_some_iff.mp h
    rfl

end

lemma optionStep_cases {x : Item} (h : optionStep m g x = some g')
    : g' = g ∨ dhcpProcessOption m g x.pos x.code x.len = some g' := by
  unfold optionStep at h
  split at h
  next =>
    obtain ⟨_, -, rfl⟩ := map_eq_some_iff.mp h
    exact .inl rfl
  next => exact .inr h

lemma dhcpPacketProcessOptions_invariant {m : List UInt8} {P : Globals → Prop} {g g' : Globals}
    (h : dhcpPacketProcessOptions m g = some g') (hzero : P { g with dhcpOptionOverload := 0 }) (hg : P g)
    (hstep : readU32 m Packet.offVend = some bootpVendorMagic → ∀ l ∈ packetItems m, ∀ g x g', x ∈ l →
      dhcpProcessOption m g x.pos x.code x.len = some g' → P g → P g') : P g' := by
  rw [dhcpPacketProcessOptions_eq] at h
  obtain ⟨magic, hmagic, h⟩ := bind_eq_some_iff.mp h
  split at h
  next =>
    cases h
    exact hg
  next heq =>
  rw [ne_eq, not_not] at heq
  rw [heq] at hmagic
  obtain ⟨l, hl, h⟩ := bind_eq_some_iff.mp h
  apply foldlM_invariant h _ hzero
  intro g x g' hx hoption hg
  cases optionStep_cases hoption with
  | inl hsame =>
    rw [hsame]
    exact hg
  | inr hoption => exact hstep hmagic l hl g x g' hx hoption hg

lemma dhcpPacketProcessOptions_serverIp {P : Ip → Prop}
    (h : dhcpPacketProcessOptions m g = some g') (hids : ServerIds m P) (hg : P g.dhcpServerIp) : P g'.dhcpServerIp := by
  apply dhcpPacketProcessOptions_invariant h hg hg
  intro hmagic l hl g x g' hx hoption hg
  cases dhcpProcessOption_serverIp hoption with
  | inl hsame =>
    rw [hsame]
    exact hg
  | inr hnew => exact hids hmagic l hl x hx hnew.1 _ hnew.2

lemma dhcpPacketProcessOptions_netIp (h : dhcpPacketProcessOptions m g = some g') : g'.netIp = g.netIp := by
  apply @dhcpPacketProcessOptions_invariant m (fun g' => g'.netIp = g.netIp) g g' h rfl rfl
  intro _ l _ g1 x g2 _ hoption hg
  rw [dhcpProcessOption_netIp hoption, hg]

lemma storeNetParams_ips {dhcp : Bool} (h : storeNetParams g pkt dhcp = some g')
    : g'.netIp = pkt.yiaddr ∧ g'.dhcpServerIp = g.dhcpServerIp := by
  obtain ⟨b, -, rfl⟩ := map_eq_some_iff.mp h
  exact ⟨rfl, rfl⟩

structure Inv (hist : List (Event × State)) (s : State) : Prop where
  requesting : s.dhcpState = .requesting → ∃ id serverId requestedIp, s.tx = some (.request id serverId requestedIp)
    ∧ Answered hist id serverId requestedIp ∧ serverId = named s.globals.dhcpServerIp
  bound : s.dhcpState = .bound → Handshake hist s ∧ s.timer = false

lemma inv_selecting (h : s.dhcpState = .selecting) : Inv hist s := by
  constructor
  . intro h'
    rw [h] at h'
    cases h'
  . intro h'
    rw [h] at h'
    cases h'

lemma Inv.same (h : Inv hist s) (e : Event) : Inv ((e, s) :: hist) s := by
  constructor
  . intro hstate
    obtain ⟨id, serverId, requestedIp, htx, ⟨mid, offer, s₁, pre, rfl, hoffer, hs1, hmid⟩, hserver⟩ := h.requesting hstate
    refine ⟨id, serverId, requestedIp, htx, ⟨(e, s) :: mid, offer, s₁, pre, rfl, hoffer, hs1, ?_⟩, hserver⟩
    intro x hx
    cases hx with
    | head => exact htx.trans hs1.symm
    | tail _ hx => exact hmid x hx
  . intro hstate
    obtain ⟨⟨post, ack, s₂, pre, id, serverId, requestedIp, rfl, hrest⟩, htimer⟩ := h.bound hstate
    exact ⟨⟨(e, s) :: post, ack, s₂, pre, id, serverId, requestedIp, rfl, hrest⟩, htimer⟩

lemma Inv.packet (h : Inv hist s) (hcond : PacketCond s pkt)
    (hstep : dhcpHandler s pkt = some s') : Inv ((.packet pkt, s') :: hist) s' := by
  obtain rfl | ⟨hcheck, hyiaddr, hstate, globals, rfl, -⟩ | ⟨hcheck, hyiaddr, hstate, hack, g, globals, hg, hstore, rfl⟩ :=
    dhcpHandler_cases hstep
  . exact h.same _
  . have hoffer := hcond.selecting hcheck hyiaddr hstate
    constructor
    . intro _
      exact ⟨_, _, _, rfl, ⟨[], pkt, _, hist, rfl, hoffer, rfl, by simp⟩, rfl⟩
    . intro hbound
      cases hbound
  obtain ⟨id, serverId, requestedIp, htx, hanswered, hserver⟩ := h.requesting hstate
  obtain ⟨hip, hids⟩ := hcond.requesting hcheck hyiaddr hstate hack id serverId requestedIp htx
  obtain ⟨hnetIp, hserverIp⟩ := storeNetParams_ips hstore
  constructor
  . intro hrequesting
    cases hrequesting
  intro _
  refine ⟨⟨[], pkt, _, hist, id, serverId, requestedIp, rfl, hanswered, hack, ?_, ?_⟩, rfl⟩
  . dsimp only
    rw [← hip, hnetIp]
  . dsimp only
    rw [hserverIp]
    exact (dhcpPacketProcessOptions_serverIp hg hids hserver.symm).symm

lemma Inv.step {hist : List (Event × State)} {s s' : State} (h : Inv hist s) (hcond : EventCond s e)
    (hstep : s.step e = some s') : Inv ((e, s') :: hist) s' := by
  cases e with
  | packet pkt => exact h.packet hcond hstep
  | timeout id | restart id =>
    unfold State.step at hstep
    dsimp only at hstep
    split at hstep
    next =>
      cases hstep
      exact inv_selecting rfl
    next => cases hstep

lemma Run.inv {s₀ : State} {id : BitVec 32} (h : Run EventCond (bootpRequest s₀ id) hist s) : Inv hist s := by
  induction h with
  | nil => exact inv_selecting rfl
  | cons _ hcond hstep ih => exact ih.step hcond hstep

lemma step_netIp (h : s.step e = some s') (hne : s'.globals.netIp ≠ s.globals.netIp)
    : (s'.dhcpState = .bound ∧ ∃ pkt, e = .packet pkt ∧ messageType pkt = some dhcpAck) ∨ ∃ id, e = .restart id := by
  cases e with
  | packet pkt =>
    left
    obtain rfl | ⟨-, -, -, globals, rfl, hglobals⟩ | ⟨-, -, -, hack, g, globals, -, -, rfl⟩ := dhcpHandler_cases h
    . exact absurd rfl hne
    . exact absurd (dhcpPacketProcessOptions_netIp hglobals) hne
    . exact ⟨rfl, pkt, rfl, hack⟩
  | timeout id =>
    unfold State.step at h
    dsimp only at h
    split at h
    next =>
      cases h
      exact absurd rfl hne
    next => cases h
  | restart id => exact .inr ⟨id, rfl⟩

theorem dhcp_handshake (s₀ : State) (id : BitVec 32)
    : (∀ hist s, Run EventCond (bootpRequest s₀ id) hist s → s.dhcpState = .bound → Handshake hist s)
      ∧ ∀ (s s' : State) (e : Event), s.step e = some s' → s'.globals.netIp ≠ s.globals.netIp →
        (s'.dhcpState = .bound ∧ ∃ pkt, e = .packet pkt ∧ messageType pkt = some dhcpAck) ∨ ∃ id, e = .restart id := by
  constructor
  . intro hist s hrun hbound
    exact (hrun.inv.bound hbound).1
  . intro s s' e hstep hne
    exact step_netIp hstep hne

namespace Sample

def options (type : UInt8) : List UInt8 := magic ++ [53, 1, type, 54, 4, 10, 0, 0, 254, 255]

def client : State := bootpRequest { state .init with ids := ⟨fun _ => 0, ⟨0, by decide⟩⟩ } 0

def after (s : State) (pkt : Packet) : State := (dhcpHandler s pkt).getD s

lemma step_eq (h : (dhcpHandler s pkt).isSome) : s.step (.packet pkt) = some (after s pkt) := by
  obtain ⟨s', hs'⟩ := isSome_iff_exists.mp h
  unfold after
  rw [hs']
  exact hs'

def offer : Packet := reply 1 (options 2)
def ack : Packet := reply 1 (options 5)
def otherAck : Packet := reply 2 (options 5)

lemma offer_cond : EventCond client (.packet offer) := by
  constructor
  . intro _ _ _
    decide +kernel
  . intro _ _ h
    cases h

lemma ack_items
    : packetItems ack.mem = some [⟨240, 53, 1⟩, ⟨243, 54, 4⟩] ∧ readU32 ack.mem 245 = some 0x0a0000fe := by
  decide +kernel

lemma requesting
    : (after client offer).dhcpState = .requesting
      ∧ (after client offer).tx = some (.request 0 (some 0x0a0000fe) (some 0x0a000001)) := by
  decide +kernel

lemma ack_serverIds : ServerIds ack.mem fun ip => named ip = some 0x0a0000fe := by
  intro _ l hl x hx hcode ip hip
  rw [ack_items.1] at hl
  cases hl
  cases hx with
  | head => cases hcode
  | tail _ hx =>
    cases hx with
    | head =>
      rw [ack_items.2] at hip
      cases hip
      rfl
    | tail _ hx => cases hx

lemma ack_cond : EventCond (after client offer) (.packet ack) := by
  constructor
  . intro _ _ h
    rw [requesting.1] at h
    cases h
  intro _ _ _ _ id serverId requestedIp h
  rw [requesting.2] at h
  cases h
  exact ⟨by decide +kernel, ack_serverIds⟩

end Sample

open Sample

theorem dhcp_handshake_offer
    : ∃ hist s, Run EventCond Sample.client hist s ∧ s.dhcpState = .bound ∧ s.globals.netIp = 0x0a000001
        ∧ Handshake hist s := by
  have hoffer : (dhcpHandler client offer).isSome := by
    decide +kernel
  have hack : (dhcpHandler (after client offer) ack).isSome := by
    decide +kernel
  have hfirst := Run.nil.cons offer_cond (step_eq hoffer)
  have hrun := hfirst.cons ack_cond (step_eq hack)
  have hbound : (after (after client offer) ack).dhcpState = .bound := by
    decide +kernel
  have hip : (after (after client offer) ack).globals.netIp = 0x0a000001 := by
    decide +kernel
  have hshake := (dhcp_handshake { state .init with ids := ⟨fun _ => 0, 0⟩ } 0).1 _ _ hrun hbound
  exact ⟨_, _, hrun, hbound, hip, hshake⟩

theorem not_handshake_ack
    : ∃ hist s, Run (fun _ _ => True) Sample.client hist s ∧ s.dhcpState = .bound ∧ s.globals.netIp = 0x0a000002
        ∧ s.tx = some (.request 0 (some 0x0a0000fe) (some 0x0a000001))
        ∧ ∀ x ∈ hist, ∃ pkt, x.1 = .packet pkt ∧ messageType pkt = some dhcpAck := by
  have hfirst : (dhcpHandler client ack).isSome := by
    decide +kernel
  have hother : (dhcpHandler (after client ack) otherAck).isSome := by
    decide +kernel
  have hrun : Run (fun _ _ => True) client _ _ := (Run.nil.cons trivial (step_eq hfirst)).cons trivial (step_eq hother)
  have hend : (after (after client ack) otherAck).dhcpState = .bound
      ∧ (after (after client ack) otherAck).globals.netIp = 0x0a000002
      ∧ (after (after client ack) otherAck).tx = some (.request 0 (some 0x0a0000fe) (some 0x0a000001)) := by
    decide +kernel
  obtain ⟨hbound, hip, htx⟩ := hend
  refine ⟨_, _, hrun, hbound, hip, htx, ?_⟩
  intro x hx
  cases hx with
  | head => exact ⟨otherAck, rfl, by decide +kernel⟩
  | tail _ hx =>
    cases hx with
    | head => exact ⟨ack, rfl, by decide +kernel⟩
    | tail _ hx => cases hx

end UBoot.Bootp
