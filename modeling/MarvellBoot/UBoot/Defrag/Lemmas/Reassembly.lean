import MarvellBoot.UBoot.Defrag.Fragments
import MarvellBoot.UBoot.Defrag.Lemmas.Holes

namespace UBoot.Defrag

open Mem DLinked Fragmentation Packet List

def Fragmentation.stop (F : Fragmentation) (b : Nat) : Nat := if b = F.count then 0xffff else F.cut b

def holes (F : Fragmentation) (runs : List (Nat × Nat)) : List (Nat × Nat) :=
  runs.map fun x => (F.cut x.1 / 8, F.stop x.2)

def Free (F : Fragmentation) (seen : List Nat) (p : Nat) : Prop := ∃ j, j < F.count ∧ j ∉ seen ∧ p = F.cut j / 8

variable {p : Nat → Prop}

section

variable {F : Fragmentation} {seen : List Nat} {runs pre post : List (Nat × Nat)} {a b i : Nat} {s s' : State}

lemma block_lt_iff {i j : Nat} (hi : i < F.count) (hj : j < F.count) : F.cut i / 8 < F.cut j / 8 ↔ i < j := by
  have := F.aligned j hj
  constructor
  . intro h
    by_contra hge
    have := cut_le_of_le (F := F) (Nat.le_of_not_lt hge) (by omega)
    omega
  . intro h
    have := cut_lt_of_lt h hj
    omega

lemma Missing.free (hm : Missing F seen runs) {p v : Nat} (h : (p, v) ∈ holes F runs) : Free F seen p := by
  have ⟨x, hx, heq⟩ := mem_map.mp h
  have ⟨hlt, hle⟩ := hm.lt x hx
  refine ⟨x.1, by omega, ?_, (congrArg Prod.fst heq).symm⟩
  rw [hm.mem x.1 (by omega)]
  exact ⟨x, hx, le_rfl, hlt⟩

lemma Accepted.prev_ne (hacc : Accepted F seen a) (hm : Missing F seen (pre ++ (a, b) :: post))
    : holes F pre ≠ [] → lastOr 0 (holes F pre) ≠ 0 := by
  intro hne hzero
  have ⟨hpre, hpost, hab, hb⟩ := hm.gaps
  cases eq_nil_or_concat pre with
  | inl h =>
    rw [h] at hne
    contradiction
  | inr h =>
    obtain ⟨pre, x, rfl⟩ := h
    have hxa := hpre x (by simp)
    have ⟨hx, hxb⟩ := hm.lt x (by simp)
    have hlast : F.cut x.1 / 8 = 0 := by
      rw [holes, concat_eq_append, map_append, lastOr_append] at hzero
      exact hzero
    have hxzero : x.1 = 0 := by
      by_contra hpos
      have := (block_lt_iff (F := F) (i := 0) (j := x.1) (by omega) (by omega)).mpr (by omega)
      omega
    have ⟨j, hj, hja, hout⟩ := hacc.first x.2 (by omega) hxa (by
      intro j hj
      rw [hm.mem j (by omega)]
      exact ⟨x, by simp, by omega, hj⟩)
    have ⟨y, hy, hyj⟩ := (hm.mem j (by omega)).mp hout
    rw [concat_eq_append, append_assoc, mem_append, singleton_append, mem_cons, mem_cons] at hy
    have hgap := hm.gap
    rw [concat_eq_append, append_assoc, pairwise_append] at hgap
    rcases hy with hy | hy | hy | hy
    . have := hgap.2.2 y hy x (by simp)
      omega
    . rw [hy] at hyj
      omega
    . rw [hy] at hyj
      omega
    . have := hpost y hy
      omega

lemma newh_eq (hi : i < F.count) : F.cut i / 8 + (F.cut (i + 1) - F.cut i) / 8 = F.cut (i + 1) / 8 := by
  have := cut_le_succ hi
  have := F.aligned i hi
  omega

lemma fixHole_eq {h e : Nat} (hi : i < F.count) (hlast : (hole s.buff h).lastByte = e)
    : fixHole s h (F.cut i / 8) (F.cut (i + 1) - F.cut i)
      = if F.cut i / 8 ≤ h ∧ e ≤ F.cut (i + 1) then some (removeHole s h)
        else if e ≤ F.cut (i + 1) then some (false, s.setLastByte h (F.cut i))
        else if Outside (F.cut (i + 1) / 8) then none
        else if F.cut i / 8 ≤ h then some (false, moveHole s h (F.cut (i + 1) / 8))
        else some (false, splitHole s h (F.cut (i + 1) / 8) (F.cut i)) := by
  have hle := cut_le_succ hi
  have hstart : 8 * (F.cut i / 8) = F.cut i := Nat.mul_div_cancel' (F.aligned i hi)
  have hstop : F.cut i + (F.cut (i + 1) - F.cut i) = F.cut (i + 1) := by omega
  unfold fixHole
  rw [hlast, newh_eq hi, hstart, hstop]

lemma fixHole_spec {e : Nat} (hm : Missing F seen (pre ++ (a, b) :: post)) (hai : a ≤ i) (hib : i < b)
    (hacc : Accepted F seen i) (hl : Listed s (holes F pre ++ (F.cut a / 8, e) :: holes F post))
    (he : e ≤ F.cut (i + 1) ↔ b = i + 1) (hstop : i + 1 < b → e = F.stop b)
    : ∃ done s', fixHole s (F.cut a / 8) (F.cut i / 8) (F.cut (i + 1) - F.cut i) = some (done, s')
      ∧ Frame (Free F seen) s s'
      ∧ (done = true ↔ pre ++ rest a b i ++ post = [])
      ∧ (done = false → Listed s' (holes F (pre ++ rest a b i ++ post))) := by
  obtain ⟨hpre, hpost, hab, hb⟩ := hm.gaps
  have hpos : F.cut i / 8 ≤ F.cut a / 8 ↔ i = a := by
    have := block_lt_iff (F := F) (i := a) (j := i) (by omega) (by omega)
    omega
  have hcut := cut_le_bound (F := F) (i := i) (by omega)
  have hfree {p v : Nat} (h : (p, v) ∈ holes F pre ++ holes F post) : Free F seen p := by
    apply hm.free (v := v)
    simp only [holes, map_append, map_cons, mem_append, mem_cons] at h ⊢
    rcases h with h | h
    . exact .inl h
    . exact .inr (.inr h)
  have hfreeA : Free F seen (F.cut a / 8) := by
    apply hm.free (v := F.stop b)
    simp [holes]
  rw [fixHole_eq (by omega) (congrArg Node.val hl.node)]
  simp only [hpos, he]
  by_cases hbi : b = i + 1
  . by_cases hia : i = a
    . subst hia
      rw [if_pos ⟨rfl, hbi⟩]
      generalize hres : removeHole s (F.cut i / 8) = res
      obtain ⟨done, s'⟩ := res
      have hrest : rest i b i = [] := by simp [rest, hbi]
      obtain ⟨hframe, hdone, hlisted⟩ := removeHole_listed hl (hacc.prev_ne hm) hres
      refine ⟨done, s', rfl, hframe.mono ?_, ?_, ?_⟩
      . intro p hp
        obtain ⟨w, hw⟩ := hp
        exact hfree hw
      . rw [hdone, hrest]
        simp [holes]
      intro hfalse
      rw [hrest]
      have := hlisted hfalse
      simpa [holes] using this
    . have hrest : rest a b i = [(a, i)] := by
        simp only [rest, hbi, lt_irrefl, if_false, append_nil]
        rw [if_pos (by omega)]
      have hne : i ≠ F.count := by omega
      rw [if_neg (fun h => hia h.1), if_pos hbi]
      refine ⟨false, _, rfl, frame_setLastByte hfreeA, ?_, ?_⟩
      . simp [hrest]
      intro _
      have hstart : F.cut i < 2 ^ 16 := by omega
      have := setLastByte_listed hl hstart
      simpa [hrest, holes, stop, hne] using this
  have hlt : i + 1 < b := by omega
  have hnew : F.cut a / 8 < F.cut (i + 1) / 8 := (block_lt_iff (by omega) (by omega)).mpr (by omega)
  have hunseen : i + 1 ∉ seen := by
    rw [hm.mem (i + 1) (by omega)]
    exact ⟨(a, b), by simp, by dsimp only; omega, hlt⟩
  have hroom := hacc.room (by omega) hunseen
  simp only [ipMaxudp, ipPktsize, ipHdrSize] at hroom
  have hbound : F.cut (i + 1) / 8 < 2 ^ 13 := by omega
  have hgt : ∀ x ∈ holes F post, F.cut (i + 1) / 8 < x.1 := by
    intro x hx
    obtain ⟨y, hy, hyx⟩ := mem_map.mp hx
    obtain ⟨_, hyb⟩ := hm.lt y (by simp [hy])
    have := hpost y hy
    rw [← hyx]
    exact (block_lt_iff (by omega) (by omega)).mpr (by omega)
  have houtside : ¬Outside (F.cut (i + 1) / 8) := by
    simp only [Outside, payload, ipPktsize, ipHdrSize]
    omega
  have hfreeNew : Free F seen (F.cut (i + 1) / 8) := ⟨i + 1, by omega, hunseen, rfl⟩
  rw [hstop hlt] at hl
  rw [if_neg (fun h => hbi h.2), if_neg hbi, if_neg houtside]
  by_cases hia : i = a
  . subst hia
    have hrest : rest i b i = [(i + 1, b)] := by simp [rest, hlt]
    obtain ⟨hframe, hlisted⟩ := moveHole_listed hl hnew hbound hgt (hacc.prev_ne hm)
    rw [if_pos rfl]
    refine ⟨false, _, rfl, hframe.mono ?_, ?_, ?_⟩
    . intro p hp
      rcases hp with hp | ⟨w, hw⟩
      . rw [hp]
        exact hfreeNew
      . exact hfree hw
    . simp [hrest]
    . intro _
      simpa [hrest, holes] using hlisted
  have hrest : rest a b i = [(a, i), (i + 1, b)] := by
    simp only [rest, hlt, if_true]
    rw [if_pos (by omega)]
    rfl
  have hne : i ≠ F.count := by omega
  have hstart : F.cut i < 2 ^ 16 := by omega
  obtain ⟨hframe, hlisted⟩ := splitHole_listed hl hnew hbound hgt hstart
  rw [if_neg hia]
  refine ⟨false, _, rfl, hframe.mono ?_, ?_, ?_⟩
  . intro p hp
    rcases hp with hp | ⟨w, hw⟩
    . rw [hp]
      exact hfreeNew
    rw [mem_append, mem_cons] at hw
    rcases hw with hw | hw | hw
    . exact hfree (mem_append_left _ hw)
    . cases hw
      exact hfreeA
    . exact hfree (mem_append_right _ hw)
  . simp [hrest]
  . intro _
    simpa [hrest, holes, stop, hne] using hlisted

def truncate (F : Fragmentation) (s : State) (i h : Nat) : State :=
  if i + 1 < F.count then s else { s with totalLen := F.cut (i + 1) }.setLastByte h (F.cut (i + 1))

lemma not_tooFar (p : Packet F) : ¬TooFar p.ip := by
  have := cut_le_succ p.index_lt
  have := cut_le_bound (F := F) (i := p.index + 1) p.index_lt
  have := p.offs_eq
  unfold TooFar ipStart payloadLen ipMaxudp ipPktsize ipHdrSize
  rw [p.len_eq]
  unfold ipHdrSize
  omega

lemma netDefragment_eq (p : Packet F) (hpos : s.totalLen ≠ 0) (hid : ipId s.buff = F.id)
    : netDefragment p.ip s
      = match findHole s.buff (F.cut p.index) (2 ^ 13) s.firstHole with
        | none => none
        | some none => some (none, s)
        | some (some h) =>
          if F.cut p.index / 8 + (F.cut (p.index + 1) - F.cut p.index + 7) / 8 ≤ h then
            some (none, s)
          else
            (fixHole (truncate F s p.index h) h (F.cut p.index / 8) (F.cut (p.index + 1) - F.cut p.index)).map
              fun res => finish res.2 p.ip (F.cut (p.index + 1) - F.cut p.index) res.1 := by
  have hoffs := p.offs_eq
  have hoffs' : ipOffs p.ip = F.cut p.index / 8 := by omega
  have hstart : ipStart p.ip = F.cut p.index := (mul_comm _ _).trans hoffs
  have hlen : payloadLen p.ip = (F.cut (p.index + 1) - F.cut p.index : Nat) := by
    unfold payloadLen
    rw [p.len_eq]
    omega
  have hold : ¬Fresh s p.ip := by
    unfold Fresh
    rw [p.id_eq, hid]
    simp [hpos]
  have hstop : 8 * ipOffs p.ip + (F.cut (p.index + 1) - F.cut p.index) = F.cut (p.index + 1) := by
    have := cut_le_succ p.index_lt
    omega
  have htrunc (h : Nat) : truncated s p.ip h (F.cut (p.index + 1) - F.cut p.index) = truncate F s p.index h := by
    unfold truncated truncate
    simp only [p.mfrag_eq, hstop, decide_eq_false_iff_not, ite_not]
  have hcall := netDefragment_call (not_tooFar p) hlen hold
  simp only [hstart, hoffs', htrunc] at hcall
  exact hcall

lemma finish_eq (p : Packet F) (done : Bool)
    : finish s p.ip (F.cut (p.index + 1) - F.cut p.index) done
      = let s := { s with buff := store s.buff (ipHdrSize + F.cut p.index) (F.fragment p.index) }
        if done = false then (none, s)
        else (some (s.totalLen + ipHdrSize), { s with buff := store s.buff 2 (Bytes.ofNat 2 s.totalLen) }) := by
  have hpayload : payload (ipOffs p.ip) = ipHdrSize + F.cut p.index := by
    have := p.offs_eq
    unfold payload
    omega
  unfold finish
  rw [p.load_eq, hpayload]

def Received (F : Fragmentation) (seen : List Nat) (buff : Int → UInt8) : Prop :=
  ∀ i ∈ seen, i < F.count → ∀ n, F.cut i ≤ n → n < F.cut (i + 1) → buff (ipHdrSize + n) = F.data.getD n 0

lemma Received.frame (hr : Received F seen s.buff) (hf : Frame (Free F seen) s s') : Received F seen s'.buff := by
  intro i hi hlt n hn hn'
  rw [hf.2, hr i hi hlt n hn hn']
  intro p ⟨j, hj, hout, hp⟩
  have hji : j ≠ i := by
    intro heq
    rw [heq] at hout
    contradiction
  have := cut_apart hj hlt hji
  have := F.aligned j hj
  unfold payload
  omega

lemma Received.store (hr : Received F seen s.buff) (hi : i < F.count)
    : Received F (i :: seen) (store s.buff (ipHdrSize + F.cut i) (F.fragment i)) := by
  have hlen := length_fragment hi
  have hle := cut_le_succ hi
  intro j hj hlt n hn hn'
  by_cases hji : j = i
  . rw [hji] at hn hn'
    unfold Mem.store
    rw [hlen, if_pos (by omega), fragment, getD_eq_getElem?_getD, getD_eq_getElem?_getD,
      getElem?_take_of_lt (by omega), getElem?_drop]
    congr 2
    omega
  have hj : j ∈ seen := by
    rw [mem_cons] at hj
    exact hj.resolve_left hji
  rw [← hr j hj hlt n hn hn']
  cases lt_or_gt_of_ne hji with
  | inl h =>
    have := cut_le_of_le (F := F) (i := j + 1) (j := i) (by omega) (by omega)
    exact store_of_lt _ _ (by omega)
  | inr h =>
    have := cut_le_of_le (F := F) (i := i + 1) (j := j) (by omega) (by omega)
    exact store_of_ge _ (by rw [hlen]; omega)

lemma Received.load_eq {buff : Int → UInt8} (hr : Received F seen buff)
    (hall : ∀ i, i < F.count → i ∈ seen) : load buff ipHdrSize F.data.length = F.data := by
  apply ext_getElem
  . exact length_load _ _ _
  intro n hn hn'
  have ⟨i, hi, hle, hlt⟩ := exists_fragment hn'
  have := hr i (hall i hi) hi n hle hlt
  simp only [load, getElem_map, getElem_range]
  rw [this, getD_eq_getElem?_getD, getElem?_eq_getElem hn']
  rfl

lemma Listed.stored (hl : Listed s (holes F runs)) (hm : Missing F (i :: seen) runs) (hi : i < F.count)
    : Listed { s with buff := store s.buff (ipHdrSize + F.cut i) (F.fragment i) } (holes F runs) := by
  refine ⟨hl.linked.congr ?_, hl.first, hl.sorted, hl.bound⟩
  intro x hx
  have ⟨j, hj, hout, hp⟩ := hm.free (p := x.1) (v := x.2) hx
  have hji : j ≠ i := by
    intro heq
    rw [heq] at hout
    exact hout mem_cons_self
  have := cut_apart hj hi hji
  have := F.aligned j hj
  have := cut_le_succ hi
  apply nodes_store
  rw [length_fragment hi]
  unfold payload
  omega

structure Assembling (F : Fragmentation) (seen : List Nat) (s : State) : Prop where
  id_eq : ipId s.buff = F.id
  totalLen_ne : s.totalLen ≠ 0
  totalLen_eq : F.count - 1 ∈ seen → s.totalLen = F.data.length
  received : Received F seen s.buff
  listed : ∃ runs, Missing F seen runs ∧ Listed s (holes F runs)

lemma Frame.ipId_eq (hf : Frame p s s') : ipId s'.buff = ipId s.buff := by
  apply load_congr
  intro k hk
  apply hf.2
  intro i _
  unfold payload ipHdrSize
  omega

lemma truncate_spec {l l' : List (Nat × Nat)} {h v : Nat}
    (hl : Listed s (l ++ (h, v) :: l')) (hh : p h) (hi : i < F.count)
    : Frame p { s with totalLen := if i + 1 < F.count then s.totalLen else F.cut (i + 1) } (truncate F s i h)
      ∧ Listed (truncate F s i h) (l ++ (h, if i + 1 < F.count then v else F.cut (i + 1)) :: l') := by
  have := cut_le_bound (F := F) (i := i + 1) hi
  unfold truncate
  split
  . exact ⟨.refl, hl⟩
  . have hl : Listed { s with totalLen := F.cut (i + 1) } (l ++ (h, v) :: l') :=
      ⟨hl.linked, hl.first, hl.sorted, hl.bound⟩
    exact ⟨frame_setLastByte hh, setLastByte_listed hl (by omega)⟩

section

variable (hs : Assembling F seen s) (hi : i < F.count) (hdata : F.data ≠ [])
  (hf : Frame (Free F seen) { s with totalLen := if i + 1 < F.count then s.totalLen else F.cut (i + 1) } s')

include hs hi hf in
lemma Assembling.totalLen_copy (hmem : F.count - 1 ∈ i :: seen) : s'.totalLen = F.data.length := by
  rw [hf.1]
  split
  . apply hs.totalLen_eq
    rw [mem_cons] at hmem
    exact hmem.resolve_left (by omega)
  . have hcount : i + 1 = F.count := by omega
    rw [hcount, F.cut_count]

include hs hi hf in
lemma Assembling.received_copy : Received F (i :: seen) (store s'.buff (ipHdrSize + F.cut i) (F.fragment i)) := by
  have hr : Received F seen { s with
    totalLen := if i + 1 < F.count then s.totalLen else F.cut (i + 1) : State }.buff := hs.received
  exact (hr.frame hf).store hi

include hs hi hdata hf in
lemma Assembling.copy (hm : Missing F (i :: seen) runs) (hl : Listed s' (holes F runs))
    : Assembling F (i :: seen) { s' with buff := store s'.buff (ipHdrSize + F.cut i) (F.fragment i) } := by
  have htotal := hs.totalLen_copy hi hf
  refine ⟨?_, ?_, htotal, hs.received_copy hi hf, runs, hm, hl.stored hm hi⟩
  . unfold ipId
    rw [load_store_below _ _ (by unfold ipHdrSize; omega)]
    exact hf.ipId_eq.trans hs.id_eq
  rw [hf.1]
  split
  . exact hs.totalLen_ne
  . have hcount : i + 1 = F.count := by omega
    rw [hcount, F.cut_count]
    simpa using hdata

end

lemma Assembling.of_mem (hs : Assembling F seen s) (hi : i ∈ seen) : Assembling F (i :: seen) s := by
  have hsub {j : Nat} (hj : j ∈ i :: seen) : j ∈ seen := by
    rw [mem_cons] at hj
    cases hj with
    | inl h => rwa [h]
    | inr h => exact h
  have ⟨runs, hm, hl⟩ := hs.listed
  refine ⟨hs.id_eq, hs.totalLen_ne, ?_, ?_, runs, hm.of_mem hi, hl⟩
  . intro h
    exact hs.totalLen_eq (hsub h)
  . intro j hj
    exact hs.received j (hsub hj)

lemma holes_append (l : List (Nat × Nat)) : holes F (l ++ (a, b) :: runs)
    = holes F l ++ (F.cut a / 8, F.stop b) :: holes F runs := by
  simp [holes]

section

variable (hm : Missing F seen (pre ++ (a, b) :: post))

include hm

lemma Missing.find_fresh (hai : a ≤ i) (hib : i < b)
    : (holes F (pre ++ (a, b) :: post)).find? (fun x => F.cut i ≤ x.2) = some (F.cut a / 8, F.stop b) := by
  have ⟨hpre, hpost, hab, hb⟩ := hm.gaps
  rw [holes_append, find?_append, find?_eq_none.mpr, Option.none_or, find?_cons_of_pos]
  . have := cut_le_bound (F := F) (i := i) (by omega)
    have hle := cut_le_of_le (F := F) (i := i) (j := b) (by omega) hb
    unfold Fragmentation.stop
    split
    . simp
      omega
    . simpa using hle
  intro x hx
  have ⟨y, hy, hyx⟩ := mem_map.mp hx
  have hya := hpre y hy
  have hlt := cut_lt_of_lt (F := F) (i := y.2) (j := i) (by omega) (by omega)
  have hne : y.2 ≠ F.count := by omega
  rw [← hyx]
  simp only [stop, hne, if_false]
  simpa using hlt

lemma Missing.covers (hai : a ≤ i) (hib : i < b)
    (hacc : Accepted F seen i)
    : ¬F.cut i / 8 + (F.cut (i + 1) - F.cut i + 7) / 8 ≤ F.cut a / 8 := by
  have ⟨hpre, hpost, hab, hb⟩ := hm.gaps
  cases lt_or_eq_of_le hai with
  | inl h =>
    have := (block_lt_iff (F := F) (i := a) (j := i) (by omega) (by omega)).mpr h
    omega
  | inr h =>
    subst h
    have hcovers := hacc.covers.resolve_right (by
      intro ⟨hpos, hout⟩
      have ⟨x, hx, hxa⟩ := (hm.mem (a - 1) (by omega)).mp hout
      rw [mem_append, mem_cons] at hx
      rcases hx with hx | hx | hx
      . have := hpre x hx
        omega
      . rw [hx] at hxa
        omega
      . have := hpost x hx
        omega)
    omega

end

lemma truncated_le_iff (hib : i < b) (hb : b ≤ F.count)
    : (if i + 1 < F.count then F.stop b else F.cut (i + 1)) ≤ F.cut (i + 1) ↔ b = i + 1 := by
  split
  . next hlt =>
    have := cut_le_bound (F := F) (i := i + 1) (by omega)
    unfold Fragmentation.stop
    split
    . omega
    next hne =>
    constructor
    . intro hle
      by_contra hbi
      have := cut_lt_of_lt (F := F) (i := i + 1) (j := b) (by omega) (by omega)
      omega
    . intro hbi
      rw [hbi]
  . next hge =>
    have hbi : b = i + 1 := by omega
    simp [hbi]

def Delivers (F : Fragmentation) (seen : List Nat) (res : Option Nat) (s : State) : Prop :=
  (Complete F seen → res = some (F.data.length + ipHdrSize) ∧ load s.buff ipHdrSize F.data.length = F.data)
    ∧ (¬Complete F seen → res = none ∧ Assembling F seen s)

lemma Assembling.step_fresh (hs : Assembling F seen s) (p : Packet F) (hdata : F.data ≠ [])
    (hout : p.index ∉ seen) (hacc : Accepted F seen p.index)
    : ∃ res s', netDefragment p.ip s = some (res, s') ∧ Delivers F (p.index :: seen) res s' := by
  have ⟨runs, hm, hl⟩ := hs.listed
  have ⟨x, hx, hxi⟩ := (hm.mem p.index p.index_lt).mp hout
  obtain ⟨pre, post, rfl⟩ := append_of_mem hx
  have ⟨a, b⟩ := x
  have ⟨hpre, hpost, hab, hb⟩ := hm.gaps
  have hne : holes F (pre ++ (a, b) :: post) ≠ [] := by simp [holes]
  have hm' := hm.insert hxi.1 hxi.2
  rw [netDefragment_eq p hs.totalLen_ne hs.id_eq, hl.findHole_eq hne, hm.find_fresh hxi.1 hxi.2]
  dsimp only [Option.map_some]
  rw [if_neg (hm.covers hxi.1 hxi.2 hacc)]
  rw [holes_append] at hl
  have hfree : Free F seen (F.cut a / 8) := by
    apply hm.free (v := F.stop b)
    rw [holes_append]
    simp
  have ⟨hf, hl⟩ := truncate_spec (F := F) (i := p.index) hl hfree p.index_lt
  have ⟨done, s2, hfix, hf', hdone, hlisted⟩ :=
    fixHole_spec hm hxi.1 hxi.2 hacc hl (truncated_le_iff hxi.2 hb) (fun hlt => if_pos (by omega))
  rw [hfix, Option.map_some, finish_eq]
  have hf := hf.trans hf'
  have hdone := hdone.trans hm'.runs_eq_nil_iff
  cases done with
  | false =>
    refine ⟨none, _, rfl, ?_, ?_⟩
    . intro hall
      exact absurd (hdone.mpr hall) (by simp)
    . intro _
      exact ⟨rfl, hs.copy p.index_lt hdata hf hm' (hlisted rfl)⟩
  | true =>
    have hall := hdone.mp rfl
    refine ⟨_, _, rfl, ?_, ?_⟩
    . intro _
      have hr := hs.received_copy p.index_lt hf
      rw [hs.totalLen_copy p.index_lt hf (hall _ (by omega)), load_store_above _ _ (by
        rw [Bytes.length_ofNat]
        unfold ipHdrSize
        omega)]
      exact ⟨rfl, hr.load_eq hall⟩
    . intro hnot
      contradiction

lemma Assembling.step_seen (hs : Assembling F seen s) (p : Packet F) (hdata : F.data ≠ [])
    (hin : p.index ∈ seen) (hnot : ¬Complete F seen)
    : ∃ s', netDefragment p.ip s = some (none, s') ∧ Assembling F (p.index :: seen) s' := by
  have ⟨runs, hm, hl⟩ := hs.listed
  have hne : holes F runs ≠ [] := by
    intro hnil
    exact hnot (hm.runs_eq_nil_iff.mp (map_eq_nil_iff.mp hnil))
  rw [netDefragment_eq p hs.totalLen_ne hs.id_eq, hl.findHole_eq hne]
  generalize hfind : (holes F runs).find? (fun x => F.cut p.index ≤ x.2) = found
  cases found with
  | none => exact ⟨s, rfl, hs.of_mem hin⟩
  | some x =>
    have ⟨hge, l, l', hsplit, _⟩ := find?_eq_some_iff_append.mp hfind
    obtain ⟨pre, runs', rfl, rfl, hcons⟩ := map_eq_append_iff.mp hsplit
    obtain ⟨y, post, rfl, rfl, rfl⟩ := map_eq_cons_iff.mp hcons
    have ⟨a, b⟩ := y
    have ⟨hpre, hpost, hab, hb⟩ := hm.gaps
    have hrun : ¬(a ≤ p.index ∧ p.index < b) := by
      intro h
      have : p.index ∉ seen := (hm.mem p.index p.index_lt).mpr ⟨(a, b), by simp, h⟩
      contradiction
    dsimp only [Option.map_some]
    by_cases hlt : p.index < a
    . have := cut_le_of_le (F := F) (i := p.index + 1) (j := a) (by omega) (by omega)
      have := F.aligned (p.index + 1) (by omega)
      have := newh_eq p.index_lt
      rw [if_pos (by omega)]
      exact ⟨s, rfl, hs.of_mem hin⟩
    -- the hole ends where the fragment begins
    have hi := p.index_lt
    have hstop : F.stop b = F.cut b := if_neg (by omega)
    have hbi : b = p.index := by
      by_contra hbi
      have := cut_lt_of_lt (F := F) (i := b) (j := p.index) (by omega) p.index_lt
      simp only [hstop, decide_eq_true_eq] at hge
      omega
    subst hbi
    have hblock := (block_lt_iff (F := F) (i := a) (j := p.index) (by omega) p.index_lt).mpr hab
    have hfree : Free F seen (F.cut a / 8) := by
      apply hm.free (v := F.stop p.index)
      rw [holes_append]
      simp
    rw [if_neg (by omega)]
    rw [holes_append] at hl
    have ⟨hf, hl⟩ := truncate_spec (F := F) (i := p.index) hl hfree p.index_lt
    rw [fixHole_eq p.index_lt (congrArg Node.val hl.node)]
    have hle : (if p.index + 1 < F.count then F.stop p.index else F.cut (p.index + 1)) ≤ F.cut (p.index + 1) := by
      have := cut_le_succ p.index_lt
      rw [hstop]
      split
      . exact this
      . exact le_rfl
    have hbound := cut_le_bound (F := F) (i := p.index) (by omega)
    have hstart : F.cut p.index < 2 ^ 16 := by omega
    have hl := setLastByte_listed hl hstart
    have hholes : holes F pre ++ (F.cut a / 8, F.cut p.index) :: holes F post
        = holes F (pre ++ (a, p.index) :: post) := by
      rw [holes_append, hstop]
    rw [hholes] at hl
    rw [if_neg (by omega), if_pos hle, Option.map_some, finish_eq]
    exact ⟨_, rfl, hs.copy p.index_lt hdata (hf.trans (frame_setLastByte hfree)) (hm.of_mem hin) hl⟩

lemma Meets.data_ne_nil (p : Packet F) (hmeets : Meets F seen p.index) (hnot : ¬Complete F seen) : F.data ≠ [] := by
  intro hnil
  have hlen : F.cut F.count = 0 := by
    rw [F.cut_count, hnil]
    rfl
  have hpos := F.count_pos
  have hone : F.count = 1 := by
    by_contra hne
    have := cut_lt_of_lt (F := F) (i := 0) (j := 1) (by omega) (by omega)
    have := cut_le_of_le (F := F) (i := 1) (by omega) le_rfl
    omega
  have hzero : p.index = 0 := by
    have := p.index_lt
    omega
  have hout : p.index ∉ seen := by
    intro hin
    apply hnot
    intro i hi
    have : i = p.index := by omega
    rwa [this]
  have hcovers := (hmeets hout).covers
  rw [hzero, F.cut_zero, zero_add, ← hone, hlen] at hcovers
  omega

lemma Assembling.step (hs : Assembling F seen s) (p : Packet F) (hnot : ¬Complete F seen)
    (hmeets : Meets F seen p.index)
    : ∃ res s', netDefragment p.ip s = some (res, s') ∧ Delivers F (p.index :: seen) res s' := by
  have hdata := hmeets.data_ne_nil p hnot
  by_cases hin : p.index ∈ seen
  . have ⟨s', hcall, hs'⟩ := hs.step_seen p hdata hin hnot
    refine ⟨none, s', hcall, ?_, fun _ => ⟨rfl, hs'⟩⟩
    intro hall
    refine absurd ?_ hnot
    intro i hi
    have hmem := hall i hi
    rw [mem_cons] at hmem
    cases hmem with
    | inl h => rwa [h]
    | inr h => exact h
  . exact hs.step_fresh p hdata hin (hmeets hin)

lemma assembling_reset (p : Packet F) : Assembling F [] (s.reset p.ip) := by
  have hholes : holes F [(0, F.count)] = [(0, 0xffff)] := by
    simp [holes, F.cut_zero, Fragmentation.stop]
  refine ⟨?_, totalLen_reset s p.ip, ?_, ?_, [(0, F.count)], missing_nil, ?_⟩
  . rw [ipId_reset, p.id_eq]
  . intro h
    contradiction
  . intro i hi
    contradiction
  . rw [hholes]
    exact reset_listed s p.ip

lemma netDefragment_reset (p : Packet F) (hnew : s.totalLen = 0 ∨ ipId s.buff ≠ F.id)
    : netDefragment p.ip s = netDefragment p.ip (s.reset p.ip) := by
  rw [← p.id_eq] at hnew
  exact netDefragment_of_new hnew (not_tooFar p)

lemma Assembling.deliver (hs : Assembling F seen s) (ps : List (Packet F)) (hmeet : AllMeet F seen ps)
    (hnot : ¬Complete F ((ps.map index).reverse ++ seen))
    : ∃ s', Defrag.deliver s (ps.map ip) = some (replicate ps.length none, s')
      ∧ Assembling F ((ps.map index).reverse ++ seen) s' := by
  induction ps generalizing s seen with
  | nil => exact ⟨s, rfl, hs⟩
  | cons p ps ih =>
    have hseen : ((p :: ps).map index).reverse ++ seen = (ps.map index).reverse ++ p.index :: seen := by
      simp
    rw [hseen] at hnot ⊢
    have hnot1 : ¬Complete F (p.index :: seen) := by
      intro hall
      apply hnot
      intro i hi
      exact mem_append_right _ (hall i hi)
    have hnot0 : ¬Complete F seen := by
      intro hall
      apply hnot1
      intro i hi
      exact mem_cons_of_mem _ (hall i hi)
    have ⟨res, s1, hcall, hdelivers⟩ := hs.step p hnot0 hmeet.1
    have ⟨hres, hs1⟩ := hdelivers.2 hnot1
    have ⟨s', hrun, hs'⟩ := ih hs1 hmeet.2 hnot
    refine ⟨s', ?_, hs'⟩
    rw [map_cons, Defrag.deliver, hcall, hres]
    dsimp only
    rw [hrun]
    rfl

lemma allMeet_concat {ps : List (Packet F)} {p : Packet F}
    : AllMeet F seen (ps ++ [p]) ↔ AllMeet F seen ps ∧ Meets F ((ps.map index).reverse ++ seen) p.index := by
  induction ps generalizing seen with
  | nil => simp [AllMeet]
  | cons q ps ih => simp [AllMeet, ih, and_assoc]

lemma complete_reverse : Complete F seen.reverse ↔ Complete F seen := by
  simp [Complete]

lemma deliver_new (hnew : s.totalLen = 0 ∨ ipId s.buff ≠ F.id) (ps : List (Packet F)) (p : Packet F)
    (hmeet : AllMeet F [] ps) (hnot : ¬Complete F (ps.map index).reverse)
    : ∃ s1 s1', deliver s (ps.map ip) = some (replicate ps.length none, s1)
      ∧ netDefragment p.ip s1 = netDefragment p.ip s1'
      ∧ Assembling F (ps.map index).reverse s1' := by
  cases ps with
  | nil => exact ⟨s, s.reset p.ip, rfl, netDefragment_reset p hnew, assembling_reset p⟩
  | cons q ps =>
    have hs : Assembling F [] (s.reset q.ip) := assembling_reset q
    rw [← append_nil (reverse _)] at hnot ⊢
    have ⟨s1, hrun, hs1⟩ := hs.deliver (q :: ps) hmeet hnot
    refine ⟨s1, s1, ?_, rfl, hs1⟩
    rw [← hrun, map_cons, deliver, deliver, netDefragment_reset q hnew]

theorem netDefragment_reassembles (F : Fragmentation) (s : State)
    (hnew : s.totalLen = 0 ∨ ipId s.buff ≠ F.id) (ps : List (Packet F)) (p : Packet F)
    (hmeet : AllMeet F [] (ps ++ [p])) (hnot : ¬Complete F (ps.map Packet.index))
    : ∃ s₁ res s₂, deliver s (ps.map Packet.ip) = some (List.replicate ps.length none, s₁)
      ∧ netDefragment p.ip s₁ = some (res, s₂)
      ∧ (¬Complete F ((ps ++ [p]).map Packet.index) → res = none)
      ∧ (Complete F ((ps ++ [p]).map Packet.index) →
        res = some (F.data.length + ipHdrSize) ∧ load s₂.buff ipHdrSize F.data.length = F.data) := by
  rw [allMeet_concat, append_nil] at hmeet
  rw [← complete_reverse] at hnot
  have hlast : ((ps ++ [p]).map index).reverse = p.index :: (ps.map index).reverse := by
    simp
  have ⟨s₁, s1', hrun, hsame, hs⟩ := deliver_new hnew ps p hmeet.1 hnot
  have ⟨res, s₂, hcall, hdelivers⟩ := hs.step p hnot hmeet.2
  rw [← hlast] at hdelivers
  refine ⟨s₁, res, s₂, hrun, hsame.trans hcall, ?_, ?_⟩
  . intro hincomplete
    rw [← complete_reverse] at hincomplete
    exact (hdelivers.2 hincomplete).1
  . intro hall
    rw [← complete_reverse] at hall
    exact hdelivers.1 hall

end

def threeBlocks : Fragmentation where
  data := (List.range 24).map UInt8.ofNat
  id := [0x12, 0x34]
  count := 3
  cut i := 8 * i
  count_pos := by decide
  cut_zero := rfl
  cut_count := rfl
  cut_lt i _ := by omega
  cut_last i h := by omega
  aligned i _ := Nat.dvd_mul_right 8 i
  bound := by decide

def threeBlocksIp (i : Nat) (address : Int) : UInt8 :=
  let off := if i = 2 then [0, 2] else [0x20, UInt8.ofNat i]
  let header := [0x45, 0, 0, 28, 0x12, 0x34] ++ off ++ List.replicate 12 0
  (header ++ threeBlocks.fragment i).getD address.toNat 0

def threeBlocksPacket (i : Fin 3) : Packet threeBlocks where
  index := i
  index_lt := i.isLt
  ip := threeBlocksIp i
  id_eq := by
    revert i
    decide +kernel
  offs_eq := by
    revert i
    decide +kernel
  mfrag_eq := by
    revert i
    decide +kernel
  len_eq := by
    revert i
    decide +kernel
  load_eq := by
    revert i
    decide +kernel

def emptyState : State where
  buff _ := 0
  firstHole := 0
  totalLen := 0

theorem netDefragment_reassembles_threeBlocks
    : ∃ s₁ s₂, deliver emptyState [threeBlocksIp 2, threeBlocksIp 0, threeBlocksIp 2]
        = some ([none, none, none], s₁)
      ∧ netDefragment (threeBlocksIp 1) s₁ = some (some 44, s₂)
      ∧ load s₂.buff ipHdrSize 24 = threeBlocks.data := by
  have hmeet : AllMeet threeBlocks []
      ([threeBlocksPacket 2, threeBlocksPacket 0, threeBlocksPacket 2] ++ [threeBlocksPacket 1]) := by
    refine ⟨fun _ => ⟨.inl (by decide), ?_, ?_⟩, fun _ => ⟨.inl (by decide), ?_, ?_⟩,
      fun hout => absurd ?_ hout, fun _ => ⟨.inl (by decide), ?_, ?_⟩, trivial⟩
    . decide
    . intro a hpos ha _
      exact ⟨1, by change a < 2 at ha; omega, by decide, by decide⟩
    . decide
    . intro a hpos ha
      change a < 0 at ha
      omega
    . decide
    . decide
    . intro a hpos ha
      change a < 1 at ha
      omega
  have hnot : ¬Complete threeBlocks ([threeBlocksPacket 2, threeBlocksPacket 0, threeBlocksPacket 2].map index) := by
    intro hall
    exact absurd (hall 1 (by decide)) (by decide)
  have hall : Complete threeBlocks
      (([threeBlocksPacket 2, threeBlocksPacket 0, threeBlocksPacket 2] ++ [threeBlocksPacket 1]).map index) := by
    intro i hi
    change i < 3 at hi
    interval_cases i
    . decide
    . decide
    . decide
  have ⟨s₁, res, s₂, hrun, hcall, _, hres⟩ := netDefragment_reassembles threeBlocks emptyState (.inl rfl)
    [threeBlocksPacket 2, threeBlocksPacket 0, threeBlocksPacket 2] (threeBlocksPacket 1) hmeet hnot
  have ⟨hlen, hload⟩ := hres hall
  rw [hlen] at hcall
  exact ⟨s₁, s₂, hrun, hcall, hload⟩

lemma deliver_concat {s s1 s2 : State} {ips : List (Int → UInt8)} {ip : Int → UInt8}
    {results : List (Option Nat)} {res : Option Nat} (hrun : deliver s ips = some (results, s1))
    (hcall : netDefragment ip s1 = some (res, s2)) : deliver s (ips ++ [ip]) = some (results ++ [res], s2) := by
  induction ips generalizing s results with
  | nil =>
    cases hrun
    rw [nil_append, deliver, hcall]
    rfl
  | cons x ips ih =>
    rw [deliver] at hrun
    rw [cons_append, deliver]
    split at hrun
    . contradiction
    split at hrun
    . contradiction
    next hrest =>
    cases hrun
    rw [ih hrest]
    rfl

-- The second and the third block complete the packet without the first one.
theorem not_reassembles_firstMissing
    : ¬∀ (F : Fragmentation) (s : State), s.totalLen = 0 ∨ ipId s.buff ≠ F.id →
      ∀ (ps : List (Packet F)) (p : Packet F), ¬Complete F (ps.map Packet.index) →
      ∃ s₁ res s₂, deliver s (ps.map Packet.ip) = some (List.replicate ps.length none, s₁)
        ∧ netDefragment p.ip s₁ = some (res, s₂)
        ∧ (¬Complete F ((ps ++ [p]).map Packet.index) → res = none)
        ∧ (Complete F ((ps ++ [p]).map Packet.index) →
          res = some (F.data.length + ipHdrSize) ∧ load s₂.buff ipHdrSize F.data.length = F.data) := by
  intro h
  have hnot : ¬Complete threeBlocks ([threeBlocksPacket 1].map index) := by
    intro hall
    exact absurd (hall 0 (by decide)) (by decide)
  have hnot' : ¬Complete threeBlocks (([threeBlocksPacket 1] ++ [threeBlocksPacket 2]).map index) := by
    intro hall
    exact absurd (hall 0 (by decide)) (by decide)
  have ⟨s₁, res, s₂, hrun, hcall, hres, _⟩ :=
    h threeBlocks emptyState (.inl rfl) [threeBlocksPacket 1] (threeBlocksPacket 2) hnot
  have hboth : deliver emptyState [threeBlocksIp 1, threeBlocksIp 2] = some ([none, res], s₂) :=
    deliver_concat hrun hcall
  have heval : (deliver emptyState [threeBlocksIp 1, threeBlocksIp 2]).map Prod.fst = some [none, some 44] := by
    decide +kernel
  rw [hboth, hres hnot'] at heval
  simp at heval

end UBoot.Defrag
