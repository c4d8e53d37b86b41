import MarvellBoot.UBoot.Bootp.Impl

namespace UBoot.Bootp

open Tlv List Option

variable {m : List UInt8} {popt : Nat} {g g' : Globals} {x : Item} {l : List Item} {b : Buf n}

lemma truncateSz_lt {n : Nat} (hn : 0 < n) (len : Nat) : truncateSz n len < n := by
  unfold truncateSz
  split <;> omega

lemma isSome_set {data : List UInt8} (h : data.length < n) : (b.set data).isSome := by
  unfold Buf.set
  rw [dif_pos h]
  rfl

lemma isSome_optionText {oplen : Nat} (hn : 0 < n)
    : (optionText m popt oplen b).isSome ↔ popt + 2 + truncateSz n oplen ≤ m.length := by
  unfold optionText
  rw [← isSome_readBytes]
  cases hread : readBytes m (popt + 2) (truncateSz n oplen) with
  | none => rfl
  | some data =>
    have hlen := length_readBytes hread
    have hlt := truncateSz_lt hn oplen
    have := @isSome_set n b data (by omega)
    rw [bind_some, this]
    rfl

def need (x : Item) : Nat :=
  match x.code.toNat with
  | 1 | 3 | 6 | 51 | 54 => 4
  | 12 => truncateSz 32 x.len
  | 17 => truncateSz 64 x.len
  | 52 => 1
  | 67 => truncateSz 1024 x.len
  | _ => 0

def optionStep (m : List UInt8) (g : Globals) (x : Item) : Option Globals :=
  if x.isPad then m[x.pos + 1]?.map fun _ => g else dhcpProcessOption m g x.pos x.code x.len

lemma isSome_dhcpProcessOption (h : x.pos + 1 < m.length)
    : (dhcpProcessOption m g x.pos x.code x.len).isSome ↔ x.pos + 2 + need x ≤ m.length := by
  unfold dhcpProcessOption need
  generalize x.code.toNat = code
  split
  . simp only [isSome_map, isSome_readU32]
  . simp only [isSome_map, isSome_readU32]
  . simp only [isSome_map, isSome_readU32]
  . simp only [isSome_map, isSome_optionText, Nat.zero_lt_succ]
  . simp only [isSome_map, isSome_optionText, Nat.zero_lt_succ]
  . simp only [isSome_map, isSome_readU32]
  . simp only [isSome_map, isSome_getElem?]
    omega
  . simp only [isSome_map, isSome_readU32]
  . simp only [isSome_map, isSome_optionText, Nat.zero_lt_succ]
  next =>
    split
    all_goals simp_all
    omega

lemma isSome_optionStep (h : x.isPad ∨ x.pos + 1 < m.length)
    : (optionStep m g x).isSome ↔ x.pos + 2 + need x ≤ m.length := by
  unfold optionStep
  split
  next hpad =>
    have hcode : x.code = 0 := by
      simpa [Item.isPad] using hpad
    have hneed : need x = 0 := by
      unfold need
      rw [hcode]
      rfl
    rw [hneed, isSome_map, isSome_getElem?]
    omega
  next hpad => exact isSome_dhcpProcessOption (h.resolve_left hpad)

lemma dhcpProcessOptions_eq (m : List UInt8) (stop i : Nat) (g : Globals)
    : dhcpProcessOptions m stop i g = (items m stop i).bind fun l => l.foldlM (optionStep m) g := by
  fun_induction items m stop i generalizing g with
  | case1 i hlt hcode | case2 i hlt hcode =>
    unfold dhcpProcessOptions
    simp [hlt, hcode]
  | case3 i hlt hcode hff ih =>
    unfold dhcpProcessOptions
    rw [if_pos hlt, hcode, bind_foldlM_cons]
    have hstep : optionStep m g ⟨i, 0, 0⟩ = m[i + 1]?.map fun _ => g := rfl
    rw [hstep]
    cases m[i + 1]? with
    | none => rfl
    | some oplen => exact ih g
  | case4 i hlt code hcode hff hpad hlen =>
    unfold dhcpProcessOptions
    simp [hlt, hcode, hff, hlen]
  | case5 i hlt code hcode hff hpad len hlen ih =>
    unfold dhcpProcessOptions
    rw [if_pos hlt, hcode, bind_foldlM_cons]
    dsimp only
    rw [if_neg hff, hlen]
    have hstep : optionStep m g ⟨i, code, len.toNat⟩ = dhcpProcessOption m g i code len.toNat := by
      simp [optionStep, Item.isPad, hpad]
    rw [hstep]
    dsimp only
    cases dhcpProcessOption m g i code len.toNat with
    | none => rfl
    | some g =>
      dsimp only
      rw [if_neg hpad, ih g]
      rfl
  | case6 i hlt =>
    unfold dhcpProcessOptions
    simp [hlt]

def overload (m : List UInt8) (o : UInt8) (l : List Item) : UInt8 :=
  l.foldl (fun o x => if x.code = 52 then m.getD (x.pos + 2) 0 else o) o

lemma dhcpProcessOption_overload {len : Nat} {code : UInt8} (h : dhcpProcessOption m g popt code len = some g')
    : g'.dhcpOptionOverload = if code = 52 then m.getD (popt + 2) 0 else g.dhcpOptionOverload := by
  have hcode : code = 52 ↔ code.toNat = 52 := UInt8.toNat_inj.symm
  simp only [hcode]
  unfold dhcpProcessOption at h
  generalize code.toNat = code at h
  split at h
  case h_7 =>
    obtain ⟨o, ho, rfl⟩ := map_eq_some_iff.mp h
    simp [ho]
  case h_10 =>
    cases h
    rw [if_neg (by assumption)]
  all_goals
    obtain ⟨_, -, rfl⟩ := map_eq_some_iff.mp h
    rfl

lemma foldlM_overload (h : l.foldlM (optionStep m) g = some g')
    : g'.dhcpOptionOverload = overload m g.dhcpOptionOverload l := by
  induction l generalizing g with
  | nil =>
    cases h
    rfl
  | cons x l ih =>
    obtain ⟨g1, hstep, hrest⟩ := bind_eq_some_iff.mp h
    rw [ih hrest]
    unfold overload
    rw [foldl_cons]
    congr 1
    unfold optionStep at hstep
    split at hstep
    next hpad =>
      have hcode : x.code = 0 := by
        simpa [Item.isPad] using hpad
      obtain ⟨_, -, rfl⟩ := map_eq_some_iff.mp hstep
      rw [hcode]
      rfl
    next => exact dhcpProcessOption_overload hstep

def overloadItems (m : List UInt8) (o bit : UInt8) (stop i : Nat) : Option (List Item) :=
  if o &&& bit ≠ 0 then items m stop i else some []

def packetItems (m : List UInt8) : Option (List Item) := do
  let l ← items m (Packet.offVend + 4 + bootpHdrSize) (Packet.offVend + 4)
  let o := overload m 0 l
  let file ← overloadItems m o overloadFile (Packet.offFile + 128) Packet.offFile
  let sname ← overloadItems m (overload m o file) overloadSname (Packet.offSname + 64) Packet.offSname
  some (l ++ file ++ sname)

lemma dhcpProcessOverload_eq (m : List UInt8) (bit : UInt8) (stop i : Nat) (g : Globals)
    : dhcpProcessOverload m bit stop i g
        = (overloadItems m g.dhcpOptionOverload bit stop i).bind fun l => l.foldlM (optionStep m) g := by
  unfold dhcpProcessOverload overloadItems
  split
  next => exact dhcpProcessOptions_eq m stop i g
  next => rfl

lemma dhcpPacketProcessOptions_eq (m : List UInt8) (g : Globals)
    : dhcpPacketProcessOptions m g = (readU32 m Packet.offVend).bind fun magic =>
        if magic ≠ bootpVendorMagic then
          some g
        else
          (packetItems m).bind fun l => l.foldlM (optionStep m) { g with dhcpOptionOverload := 0 } := by
  unfold dhcpPacketProcessOptions packetItems
  simp only [bind_eq_bind, dhcpProcessOptions_eq, dhcpProcessOverload_eq, bind_assoc, bind_some, foldlM_append]
  congr 1
  funext magic
  split
  next => rfl
  next =>
  congr 1
  funext l
  -- The areas are found first here and in turn with the effects there, which is the same as far as `none` goes.
  cases hl : l.foldlM (optionStep m) { g with dhcpOptionOverload := 0 } with
  | none => simp
  | some g1 =>
    rw [bind_some, foldlM_overload hl]
    congr 1
    funext file
    simp only [bind_some]
    cases hfile : file.foldlM (optionStep m) g1 with
    | none => simp
    | some g2 =>
      rw [bind_some, foldlM_overload hfile, foldlM_overload hl]
      rfl

def OptionsInside (m : List UInt8) : Prop :=
  Packet.offVend + 4 ≤ m.length
    ∧ (readU32 m Packet.offVend = some bootpVendorMagic →
      ∃ l, packetItems m = some l ∧ ∀ x ∈ l, x.pos + 2 + need x ≤ m.length)

lemma packetItems_mem (h : packetItems m = some l) (hx : x ∈ l) : x.isPad ∨ x.pos + 1 < m.length := by
  unfold packetItems at h
  simp only [bind_eq_bind, bind_eq_some_iff] at h
  obtain ⟨area, harea, file, hfile, sname, hsname, h⟩ := h
  cases h
  have hoverload : ∀ {o bit : UInt8} {stop i : Nat} {l : List Item}, overloadItems m o bit stop i = some l → x ∈ l →
      x.isPad ∨ x.pos + 1 < m.length := by
    intro o bit stop i l h hx
    unfold overloadItems at h
    split at h
    next => exact items_mem h hx
    next =>
    cases h
    cases hx
  rw [mem_append, mem_append] at hx
  obtain (hx | hx) | hx := hx
  . exact items_mem harea hx
  . exact hoverload hfile hx
  . exact hoverload hsname hx

lemma isSome_dhcpPacketProcessOptions (m : List UInt8) (g : Globals)
    : (dhcpPacketProcessOptions m g).isSome ↔ OptionsInside m := by
  rw [dhcpPacketProcessOptions_eq]
  unfold OptionsInside
  rw [← isSome_readU32]
  cases readU32 m Packet.offVend with
  | none => simp
  | some magic =>
    rw [bind_some]
    split
    next h => simp [h]
    next h =>
    rw [ne_eq, not_not] at h
    rw [h]
    cases hl : packetItems m with
    | none => simp
    | some l =>
      have hstep : ∀ g, ∀ x ∈ l, (optionStep m g x).isSome ↔ x.pos + 2 + need x ≤ m.length := by
        intro g x hx
        exact isSome_optionStep (packetItems_mem hl hx)
      rw [bind_some, isSome_foldlM hstep]
      simp

inductive TypeAt (m : List UInt8) : Nat → Int → Prop where
  | stop {i : Nat} (h : m[i]? = some 0xff) : TypeAt m i (-1)
  | found {i : Nat} {type : UInt8} (h : m[i]? = some 53) (htype : m[i + 2]? = some type) : TypeAt m i (Int.ofNat type.toNat)
  | pad {i : Nat} {type : Int} (h : m[i]? = some 0) (hrest : TypeAt m (i + 1) type) : TypeAt m i type
  | skip {i : Nat} {code len : UInt8} {type : Int} (h : m[i]? = some code) (hff : code ≠ 0xff) (hcode : code ≠ 53)
      (hpad : code ≠ 0) (hlen : m[i + 1]? = some len) (hrest : TypeAt m (i + len.toNat + 2) type) : TypeAt m i type

lemma dhcpMessageType.go_eq_some {i : Nat} {type : Int} : go m i = some type ↔ TypeAt m i type := by
  constructor
  . intro h
    fun_induction go m i with
    | case1 i hlt code hff =>
      cases h
      apply TypeAt.stop
      rw [List.getElem?_eq_getElem hlt]
      exact congrArg some hff
    | case2 i hlt code hff hcode =>
      obtain ⟨t, ht, rfl⟩ := map_eq_some_iff.mp h
      apply TypeAt.found _ ht
      rw [List.getElem?_eq_getElem hlt]
      exact congrArg some hcode
    | case3 i hlt code hff hcode hpad ih =>
      apply TypeAt.pad _ (ih h)
      rw [List.getElem?_eq_getElem hlt]
      exact congrArg some hpad
    | case4 => cases h
    | case5 i hlt code hff hcode hpad len hlen ih =>
      exact TypeAt.skip (List.getElem?_eq_getElem hlt) hff hcode hpad hlen (ih h)
    | case6 => cases h
  intro h
  induction h with
  | stop h =>
    obtain ⟨hlt, hget⟩ := List.getElem?_eq_some_iff.mp h
    unfold go
    simp [hlt, hget]
  | found h htype =>
    obtain ⟨hlt, hget⟩ := List.getElem?_eq_some_iff.mp h
    unfold go
    simp [hlt, hget, htype]
  | pad h _ ih =>
    obtain ⟨hlt, hget⟩ := List.getElem?_eq_some_iff.mp h
    unfold go
    simp [hlt, hget, ih]
  | skip h hff hcode hpad hlen _ ih =>
    obtain ⟨hlt, hget⟩ := List.getElem?_eq_some_iff.mp h
    unfold go
    simp [hlt, hget, hff, hcode, hpad, hlen, ih]

end UBoot.Bootp
