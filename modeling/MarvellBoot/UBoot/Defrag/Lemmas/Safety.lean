import MarvellBoot.UBoot.Defrag.Lemmas.Holes

namespace UBoot.Defrag

open Mem DLinked List Int

structure Ordered (l : List (Nat × Nat)) : Prop where
  le : ∀ x ∈ l, 8 * x.1 ≤ x.2
  apart : l.Pairwise fun x y => x.2 ≤ 8 * y.1
  room : ∀ x ∈ l, (8 * x.1 : Nat) + 8 ≤ ipMaxudp

def Clear (l : List (Nat × Nat)) (start stop : Nat) : Prop := ∀ x ∈ l, 8 * x.1 + 8 ≤ start ∨ stop ≤ 8 * x.1

section

variable {s s' : State} {l pre post : List (Nat × Nat)} {h v o n : Nat}

lemma Listed.copy {data : List UInt8} (hl : Listed s l) (hclear : Clear l (8 * o) (8 * o + data.length))
    : Listed { s with buff := store s.buff (payload o) data } l := by
  refine ⟨hl.linked.congr ?_, hl.first, hl.sorted, hl.bound⟩
  intro x hx
  apply nodes_store
  have := hclear x hx
  unfold payload
  omega

lemma Ordered.replace (ho : Ordered (pre ++ (h, v) :: post)) (mid : List (Nat × Nat))
    (hsorted : mid.Pairwise fun x y => x.2 ≤ 8 * y.1)
    (hmid : ∀ x ∈ mid, h ≤ x.1 ∧ 8 * x.1 ≤ x.2 ∧ (8 * x.1 : Nat) + 8 ≤ ipMaxudp ∧ ∀ y ∈ post, x.2 ≤ 8 * y.1)
    : Ordered (pre ++ mid ++ post) := by
  have ⟨hle, happart, hroom⟩ := ho
  rw [forall_mem_append, forall_mem_cons] at hle hroom
  rw [pairwise_append, pairwise_cons] at happart
  have ⟨hpp, ⟨_, hpo⟩, hcross⟩ := happart
  refine ⟨?_, ?_, ?_⟩
  . rw [forall_mem_append, forall_mem_append]
    exact ⟨⟨hle.1, fun x hx => (hmid x hx).2.1⟩, hle.2.2⟩
  . rw [pairwise_append, pairwise_append, forall_mem_append]
    refine ⟨⟨hpp, hsorted, ?_⟩, hpo, fun x hx y hy => hcross x hx y (mem_cons_of_mem _ hy),
      fun x hx => (hmid x hx).2.2.2⟩
    intro x hx y hy
    exact (hcross x hx (h, v) mem_cons_self).trans (Nat.mul_le_mul_left 8 (hmid y hy).1)
  . rw [forall_mem_append, forall_mem_append]
    exact ⟨⟨hroom.1, fun x hx => (hmid x hx).2.2.1⟩, hroom.2.2⟩

lemma Ordered.tail (ho : Ordered (pre ++ (h, v) :: post)) : Ordered ((h, v) :: post) :=
  ⟨(forall_mem_append.mp ho.le).2, (pairwise_append.mp ho.apart).2.1, (forall_mem_append.mp ho.room).2⟩

lemma Listed.tail (hl : Listed s (pre ++ (h, v) :: post)) (hzero : lastOr 0 pre = 0)
    : Listed { s with firstHole := h } ((h, v) :: post) := by
  have hlinked := hl.linked
  rw [linked_append, hzero] at hlinked
  refine ⟨hlinked.2, rfl, (pairwise_append.mp hl.sorted).2.1, ?_⟩
  intro x hx
  exact hl.bound x (mem_append_right _ hx)

lemma removeHole_first (hprev : (hole s.buff h).prevHole = 0) {s0 : State} (hres : removeHole s h = (false, s'))
    (hs : s0 = { s with firstHole := h }) : removeHole s0 h = (false, s') := by
  subst hs
  unfold removeHole at hres ⊢
  simp only [hprev, true_and, if_true] at hres ⊢
  split at hres
  . cases hres
  . next hnext =>
    rw [if_neg hnext]
    exact hres

lemma moveHole_first (hprev : (hole s.buff h).prevHole = 0) (newh : Nat)
    : moveHole { s with firstHole := h } h newh = moveHole s h newh := by
  have hcopied : (hole (s.copyHole newh h).buff newh).prevHole = 0 := by
    have hnodes := congrFun (nodes_copyHole s newh h) newh
    rw [Function.update_self] at hnodes
    exact (congrArg Node.prev hnodes).trans hprev
  have hsame : (State.copyHole { s with firstHole := h } newh h).buff = (s.copyHole newh h).buff := rfl
  unfold moveHole
  simp only [hsame, hcopied, ne_eq, not_true, if_false]
  split
  . rfl
  . rfl

structure Found (s : State) (pre post : List (Nat × Nat)) (h v o n : Nat) : Prop where
  listed : Listed s (pre ++ (h, v) :: post)
  ordered : Ordered (pre ++ (h, v) :: post)
  before : ∀ x ∈ pre, x.2 < 8 * o
  overlaps : h < o + (n + 7) / 8
  after : ∀ x ∈ post, 8 * o + n ≤ 8 * x.1
  stop : (8 * o + n : Nat) ≤ ipMaxudp
  more : 8 * o + n < v → 8 ∣ n ∧ (8 * o + n : Nat) + 8 ≤ ipMaxudp

def Fixed (s : State) (o n : Nat) : Prop := ∃ l, l ≠ [] ∧ Listed s l ∧ Ordered l ∧ Clear l (8 * o) (8 * o + n)

section

variable (hf : Found s pre post h v o n)

include hf

lemma Found.fixed (mid : List (Nat × Nat)) (hl : Listed s' (pre ++ mid ++ post)) (hne : pre ++ mid ++ post ≠ [])
    (hsorted : mid.Pairwise fun x y => x.2 ≤ 8 * y.1)
    (hmid : ∀ x ∈ mid, h ≤ x.1 ∧ 8 * x.1 ≤ x.2 ∧ (8 * x.1 : Nat) + 8 ≤ ipMaxudp ∧ ∀ y ∈ post, x.2 ≤ 8 * y.1)
    (hclear : Clear mid (8 * o) (8 * o + n)) : Fixed s' o n := by
  refine ⟨_, hne, hl, hf.ordered.replace mid hsorted hmid, ?_⟩
  unfold Clear
  rw [forall_mem_append, forall_mem_append]
  refine ⟨⟨?_, hclear⟩, fun x hx => .inr (hf.after x hx)⟩
  intro x hx
  have := hf.before x hx
  have := hf.ordered.le x (by simp [hx])
  omega

lemma Found.tail (hzero : lastOr 0 pre = 0) : Found { s with firstHole := h } [] post h v o n :=
  ⟨hf.listed.tail hzero, hf.ordered.tail, fun _ hx => absurd hx (not_mem_nil), hf.overlaps, hf.after, hf.stop, hf.more⟩

lemma Found.remove (hprev : pre ≠ [] → lastOr 0 pre ≠ 0) (hres : removeHole s h = (false, s')) : Fixed s' o n := by
  have ⟨_, hdone, hlisted⟩ := removeHole_listed hf.listed hprev hres
  have hl := hlisted rfl
  rw [← append_nil pre] at hl
  refine hf.fixed [] hl ?_ .nil nofun nofun
  rw [append_nil]
  intro hnil
  exact absurd (hdone.mpr (append_eq_nil_iff.mp hnil)) (by decide)

lemma Found.shorten (hlt : h < o) : Fixed (s.setLastByte h (8 * o)) o n := by
  have hstop := hf.stop
  unfold ipMaxudp ipPktsize ipHdrSize at hstop
  have hl := setLastByte_listed hf.listed (show 8 * o < 2 ^ 16 by omega)
  refine hf.fixed [(h, 8 * o)] (by simpa using hl) (by simp) (pairwise_singleton _ _) ?_ ?_
  . rw [forall_mem_singleton]
    refine ⟨le_rfl, by omega, hf.ordered.room (h, v) (by simp), ?_⟩
    intro y hy
    have := hf.after y hy
    omega
  . unfold Clear
    rw [forall_mem_singleton]
    omega

end

structure NewHole (post : List (Nat × Nat)) (h v o n : Nat) : Prop where
  eq : 8 * (o + n / 8) = 8 * o + n
  lt : h < o + n / 8
  bound : o + n / 8 < 2 ^ 13
  room : (8 * (o + n / 8) : Nat) + 8 ≤ ipMaxudp
  before : ∀ x ∈ post, o + n / 8 < x.1
  after : ∀ x ∈ post, v ≤ 8 * x.1
  inside : ¬Outside (o + n / 8)

section

variable (hf : Found s pre post h v o n)

include hf

section

variable (hmore : 8 * o + n < v)

include hmore

lemma Found.newHole : NewHole post h v o n := by
  have ⟨hdvd, hroom⟩ := hf.more hmore
  have hoverlaps := hf.overlaps
  have happart := hf.ordered.apart
  rw [pairwise_append, pairwise_cons] at happart
  have heq : 8 * (o + n / 8) = 8 * o + n := by omega
  have hafter : ∀ x ∈ post, v ≤ 8 * x.1 := happart.2.1.1
  refine ⟨heq, by omega, ?_, ?_, ?_, hafter, ?_⟩
  . unfold ipMaxudp ipPktsize ipHdrSize at hroom
    omega
  . rw [heq]
    exact hroom
  . intro x hx
    have := hafter x hx
    omega
  . unfold Outside payload
    unfold ipMaxudp at hroom
    omega

lemma Found.move (hprev : pre ≠ [] → lastOr 0 pre ≠ 0) : Fixed (moveHole s h (o + n / 8)) o n := by
  have hnew := hf.newHole hmore
  have heq := hnew.eq
  have ⟨_, hl⟩ := moveHole_listed hf.listed hnew.lt hnew.bound hnew.before hprev
  refine hf.fixed [(o + n / 8, v)] (by simpa using hl) (by simp) (pairwise_singleton _ _) ?_ ?_
  . rw [forall_mem_singleton]
    exact ⟨hnew.lt.le, by omega, hnew.room, hnew.after⟩
  . unfold Clear
    rw [forall_mem_singleton]
    omega

lemma Found.split (hlt : h < o) : Fixed (splitHole s h (o + n / 8) (8 * o)) o n := by
  have hnew := hf.newHole hmore
  have heq := hnew.eq
  have hstop := hf.stop
  unfold ipMaxudp ipPktsize ipHdrSize at hstop
  have ⟨_, hl⟩ := splitHole_listed hf.listed hnew.lt hnew.bound hnew.before (show 8 * o < 2 ^ 16 by omega)
  refine hf.fixed [(h, 8 * o), (o + n / 8, v)] (by simpa using hl) (by simp) (by simp) ?_ ?_
  . rw [forall_mem_cons, forall_mem_singleton]
    refine ⟨⟨le_rfl, by omega, hf.ordered.room (h, v) (by simp), ?_⟩, hnew.lt.le, by omega, hnew.room, hnew.after⟩
    intro y hy
    have := hnew.after y hy
    omega
  . unfold Clear
    rw [forall_mem_cons, forall_mem_singleton]
    omega

end

lemma Found.fix : ∃ done s', fixHole s h o n = some (done, s') ∧ (done = false → Fixed s' o n) := by
  have hnode := hf.listed.node
  have hlast : (hole s.buff h).lastByte = v := congrArg Node.val hnode
  have hprev : (hole s.buff h).prevHole = lastOr 0 pre := congrArg Node.prev hnode
  unfold fixHole
  split
  . generalize hres : removeHole s h = res
    have ⟨done, s'⟩ := res
    refine ⟨done, s', rfl, ?_⟩
    rintro rfl
    by_cases hzero : lastOr 0 pre = 0
    . exact (hf.tail hzero).remove (by simp) (removeHole_first (hprev.trans hzero) hres rfl)
    . exact hf.remove (fun _ => hzero) hres
  next hnot =>
  split
  . next hle => exact ⟨false, _, rfl, fun _ => hf.shorten (by omega)⟩
  next hgt =>
  have hmore : 8 * o + n < v := by omega
  rw [if_neg (hf.newHole hmore).inside]
  split
  . refine ⟨false, _, rfl, fun _ => ?_⟩
    by_cases hzero : lastOr 0 pre = 0
    . rw [← moveHole_first (hprev.trans hzero)]
      exact (hf.tail hzero).move hmore (by simp)
    . exact hf.move hmore (fun _ => hzero)
  . exact ⟨false, _, rfl, fun _ => hf.split hmore (by omega)⟩

end

end

variable {l : List (Nat × Nat)}

section

variable {s : State} {ip : Int → UInt8} {n : Nat}

lemma visited_linked {buff : Int → UInt8} {start p fuel x : Nat}
    (hlinked : Linked (nodes buff) p l 0) (hne : l ≠ []) (hx : x ∈ visited buff start fuel (headOr 0 l))
    : ∃ v, (x, v) ∈ l := by
  induction fuel generalizing p l with
  | zero => contradiction
  | succ fuel ih =>
    cases l with
    | nil => contradiction
    | cons y l =>
      have hnext : (hole buff y.1).nextHole = headOr 0 l := congrArg Node.next hlinked.1
      rw [headOr_cons, visited, hnext] at hx
      rcases mem_cons.mp hx with hx | hx
      . exact ⟨y.2, by rw [hx]; exact mem_cons_self⟩
      split at hx
      . next hmore =>
        have hne : l ≠ [] := by
          intro hnil
          rw [hnil] at hmore
          exact hmore.2 rfl
        have ⟨v, hv⟩ := ih hlinked.2 hne hx
        exact ⟨v, mem_cons_of_mem _ hv⟩
      . contradiction

structure Within (l : List (Nat × Nat)) (ip : Int → UInt8) (n : Nat) : Prop where
  len : payloadLen ip = n
  more : ipFlagsMfrag ip = true → 8 ∣ n ∧ (8 * ipOffs ip + n : Nat) + 8 ≤ ipMaxudp
  once : l.Pairwise fun x y => ipStart ip ≤ x.2 → 8 * ipOffs ip + n ≤ 8 * y.1

lemma found {h v : Nat} (hl : Listed s l) (ho : Ordered l) (hfar : ¬TooFar ip)
    (hw : Within l ip n) (hfind : l.find? (fun x => decide (ipStart ip ≤ x.2)) = some (h, v))
    (hoverlaps : ¬ipOffs ip + (n + 7) / 8 ≤ h)
    : ∃ pre post w, l = pre ++ (h, v) :: post ∧ Found (truncated s ip h n) pre post h w (ipOffs ip) n := by
  have hstart : ipStart ip = 8 * ipOffs ip := mul_comm _ _
  have hstop : (8 * ipOffs ip + n : Nat) ≤ ipMaxudp := by
    unfold TooFar at hfar
    rw [hw.len, hstart] at hfar
    omega
  have hstop' := hstop
  unfold ipMaxudp ipPktsize ipHdrSize at hstop'
  have ⟨hv, pre, post, hsplit, hbefore⟩ := find?_eq_some_iff_append.mp hfind
  subst hsplit
  have hbefore : ∀ x ∈ pre, x.2 < 8 * ipOffs ip := by
    intro x hx
    have := hbefore x hx
    simp at this
    omega
  have hafter : ∀ x ∈ post, 8 * ipOffs ip + n ≤ 8 * x.1 := by
    have honce := hw.once
    rw [pairwise_append, pairwise_cons] at honce
    intro x hx
    exact honce.2.1.1 x hx (of_decide_eq_true hv)
  refine ⟨pre, post, if ipFlagsMfrag ip = false then 8 * ipOffs ip + n else v, rfl, ?_⟩
  unfold truncated
  split
  . have hlt : 8 * ipOffs ip + n < 2 ^ 16 := by omega
    have hl' : Listed { s with totalLen := 8 * ipOffs ip + n } (pre ++ (h, v) :: post) :=
      ⟨hl.linked, hl.first, hl.sorted, hl.bound⟩
    refine ⟨setLastByte_listed hl' hlt, ?_, hbefore, by omega, hafter, hstop, fun hmore => absurd hmore (by omega)⟩
    have hord := ho.replace [(h, 8 * ipOffs ip + n)] (pairwise_singleton _ _) ?_
    . simpa using hord
    . rw [forall_mem_singleton]
      exact ⟨le_rfl, by omega, ho.room (h, v) (by simp), hafter⟩
  . next hmfrag =>
    exact ⟨hl, ho, hbefore, by omega, hafter, hstop, fun _ => hw.more (by simpa using hmfrag)⟩

lemma descriptor_inside {x : Nat} (hroom : (8 * x : Nat) + 8 ≤ ipMaxudp) : (descriptor x).Inside := by
  unfold ipMaxudp at hroom
  simp only [Range.Inside, descriptor]
  omega

lemma Ordered.inside (ho : Ordered l) {x : Nat × Nat} (hx : x ∈ l) : (descriptor x.1).Inside :=
  descriptor_inside (ho.room x hx)

lemma linkedTo_inside {x : Int} (hx : x ≠ 0 → (descriptor x).Inside) : ∀ r ∈ linkedTo x, r.Inside := by
  unfold linkedTo
  split
  . next hne => exact forall_mem_singleton.mpr (hx hne)
  . exact forall_mem_nil _

lemma Found.fixTouched {pre post : List (Nat × Nat)} {h v : Nat} (hf : Found s pre post h v (ipOffs ip) n)
    (hlen : payloadLen ip = n) : ∀ r ∈ fixTouched s.buff ip h, r.Inside := by
  have hnode := hf.listed.node
  have hnext : (hole s.buff h).nextHole = headOr 0 post := congrArg Node.next hnode
  have hprev : (hole s.buff h).prevHole = lastOr 0 pre := congrArg Node.prev hnode
  have hlast : (hole s.buff h).lastByte = v := congrArg Node.val hnode
  have hfloor : (n : Int).tdiv 8 = (n / 8 : Nat) := by
    rw [tdiv_eq_ediv_of_nonneg (by omega)]
    omega
  have hnextIn : (headOr 0 post : Int) ≠ 0 → (descriptor (headOr 0 post)).Inside := by
    intro hne
    cases post with
    | nil => contradiction
    | cons y post =>
      exact hf.ordered.inside (by simp)
  have hprevIn : (lastOr 0 pre : Int) ≠ 0 → (descriptor (lastOr 0 pre)).Inside := by
    intro hne
    have hpre : pre ≠ [] := by
      rintro rfl
      contradiction
    have ⟨w, hw⟩ := lastOr_mem (p := 0) hpre
    exact hf.ordered.inside (mem_append_left _ hw)
  have hnewIn (hmore : 8 * ipOffs ip + n < v) : (descriptor (ipOffs ip + (n / 8 : Nat))).Inside := by
    exact descriptor_inside (hf.newHole hmore).room
  unfold Defrag.fixTouched Removes ipStart
  simp only [hlen, hfloor, hnext, hprev, hlast]
  split
  . exact forall_mem_append.mpr ⟨linkedTo_inside hnextIn, linkedTo_inside hprevIn⟩
  split
  . exact forall_mem_nil _
  next hgt =>
  have hmore : 8 * ipOffs ip + n < v := by omega
  split
  . rw [forall_mem_append, forall_mem_cons]
    refine ⟨⟨hnewIn hmore, linkedTo_inside hnextIn⟩, linkedTo_inside ?_⟩
    split
    . exact fun _ => hnewIn hmore
    . exact hprevIn
  refine forall_mem_cons.mpr ⟨hnewIn hmore, linkedTo_inside ?_⟩
  split
  . exact fun _ => hnewIn hmore
  . exact hnextIn

lemma touchedList_inside (hl : Listed s l) (ho : Ordered l) (hne : l ≠ [])
    (hfar : ¬TooFar ip) (hw : Within l ip n)
    : ∃ ranges, touchedList (2 ^ 13) ip s = some ranges ∧ ∀ r ∈ ranges, r.Inside := by
  have hwalk : ∀ r ∈ (visited s.buff (ipStart ip) (2 ^ 13) s.firstHole).map fun h : Nat => descriptor h, r.Inside := by
    intro r hr
    have ⟨x, hx, hr⟩ := mem_map.mp hr
    rw [hl.first] at hx
    have ⟨v, hv⟩ := visited_linked hl.linked hne hx
    rw [← hr]
    exact ho.inside hv
  have hceil : ((n : Int) + 7).tdiv 8 = ((n + 7) / 8 : Nat) := by
    rw [tdiv_eq_ediv_of_nonneg (by omega)]
    omega
  have hcall : findHole s.buff (ipStart ip) (2 ^ 13) s.firstHole = _ := hl.findHole_eq hne
  unfold touchedList
  rw [hcall]
  cases hfind : l.find? (fun x => decide (ipStart ip ≤ x.2)) with
  | none => exact ⟨_, rfl, hwalk⟩
  | some x =>
    have ⟨h, v⟩ := x
    dsimp only [Option.map_some]
    rw [hw.len, hceil]
    norm_cast
    split
    . exact ⟨_, rfl, hwalk⟩
    next hoverlaps =>
    have ⟨pre, post, w, _, hf⟩ := found hl ho hfar hw hfind hoverlaps
    have hstop := hf.stop
    have hbuff : (if ipFlagsMfrag ip = false then (s.setLastByte h ((ipStart ip + n) % 2 ^ 16)).buff else s.buff)
        = (truncated s ip h n).buff := by
      have hlast : (ipStart ip + n) % 2 ^ 16 = 8 * ipOffs ip + n := by
        unfold ipMaxudp ipPktsize ipHdrSize at hstop
        unfold ipStart
        omega
      unfold truncated
      rw [hlast]
      split
      . rfl
      . rfl
    refine ⟨_, rfl, ?_⟩
    simp only [hbuff]
    intro r hr
    rcases mem_append.mp hr with hr | hr
    . rcases mem_append.mp hr with hr | hr
      . exact hwalk r hr
      . exact hf.fixTouched hw.len r hr
    rcases mem_cons.mp hr with rfl | hr
    . unfold ipMaxudp at hstop
      simp only [Range.Inside, payload]
      omega
    split at hr
    . rw [mem_singleton.mp hr]
      decide
    . contradiction

lemma netDefragment_intact (hl : Listed s l) (ho : Ordered l) (hne : l ≠ [])
    (hfar : ¬TooFar ip) (hold : ¬Fresh s ip) (hw : Within l ip n)
    : ∃ res s', netDefragment ip s = some (res, s') ∧ (res = none → ∃ l, l ≠ [] ∧ Listed s' l ∧ Ordered l) := by
  have hcall : findHole s.buff (ipStart ip) (2 ^ 13) s.firstHole = _ := hl.findHole_eq hne
  rw [netDefragment_call hfar hw.len hold, hcall]
  cases hfind : l.find? (fun x => decide (ipStart ip ≤ x.2)) with
  | none => exact ⟨none, s, rfl, fun _ => ⟨l, hne, hl, ho⟩⟩
  | some x =>
    dsimp only [Option.map_some]
    split
    . exact ⟨none, s, rfl, fun _ => ⟨l, hne, hl, ho⟩⟩
    next hoverlaps =>
    have ⟨pre, post, w, _, hf⟩ := found hl ho hfar hw hfind hoverlaps
    have ⟨done, s', hfix, hfixed⟩ := hf.fix
    rw [hfix, Option.map_some]
    refine ⟨_, _, rfl, ?_⟩
    cases done with
    | true =>
      intro hnone
      contradiction
    | false =>
      intro _
      have ⟨l, hne, hl, ho, hclear⟩ := hfixed rfl
      rw [← length_load ip ipHdrSize n] at hclear
      exact ⟨l, hne, hl.copy hclear, ho⟩

end

structure Intact (s : State) (done : Bool) (ip : Int → UInt8) : Prop where
  len : ipHdrSize ≤ ipLen ip
  more : ipFlagsMfrag ip = true → 8 ∣ payloadLen ip ∧ ipStart ip + payloadLen ip + 8 ≤ ipMaxudp
  new : done = true → Fresh s ip
  once : ¬Fresh s ip → ∀ l, Listed s l →
    l.Pairwise fun x y => ipStart ip ≤ x.2 → ipStart ip + payloadLen ip ≤ (8 * y.1 : Nat)

def Keeps (s : State) (done : Bool) (ip : Int → UInt8) : Prop := ¬TooFar ip → Intact s done ip

def completed (s : State) (done : Bool) (ip : Int → UInt8) (res : Option Nat) : Bool :=
  if TooFar ip then done else res.isSome || (done && !decide (Fresh s ip))

inductive Run (netIp : List UInt8) (P : State → Bool → (Int → UInt8) → Prop) : State → Bool → Prop where
  | start {s : State} (h : s.totalLen = 0) : Run netIp P s false
  | packet {s s' : State} {done : Bool} {ip : Int → UInt8} {len : Nat} {res : Option Nat} (h : Run netIp P s done)
      (hpasses : Passes netIp ip len) (hfragment : IsFragment ip) (hP : P s done ip)
      (hcall : netDefragment ip s = some (res, s')) : Run netIp P s' (completed s done ip res)

def Inv (s : State) (done : Bool) : Prop := done = false → s.totalLen ≠ 0 → ∃ l, l ≠ [] ∧ Listed s l ∧ Ordered l

section

variable {s : State} {done : Bool} {ip : Int → UInt8}

lemma ordered_reset : Ordered [(0, 0xffff)] :=
  ⟨by simp, pairwise_singleton _ _, by simp [ipMaxudp, ipPktsize, ipHdrSize]⟩

section

variable (hi : Intact s done ip)

include hi

lemma Intact.len_eq : payloadLen ip = (ipLen ip - ipHdrSize : Nat) := by
  have hlen := hi.len
  unfold payloadLen
  omega

lemma Intact.more_eq (hmfrag : ipFlagsMfrag ip = true)
    : 8 ∣ ipLen ip - ipHdrSize ∧ (8 * ipOffs ip + (ipLen ip - ipHdrSize) : Nat) + 8 ≤ ipMaxudp := by
  have ⟨hdvd, hroom⟩ := hi.more hmfrag
  rw [hi.len_eq] at hdvd hroom
  unfold ipStart at hroom
  omega

lemma Intact.within (hold : ¬Fresh s ip) (hl : Listed s l) : Within l ip (ipLen ip - ipHdrSize) := by
  refine ⟨hi.len_eq, hi.more_eq, ?_⟩
  apply (hi.once hold l hl).imp
  intro x y honce hle
  have hend := honce hle
  rw [hi.len_eq] at hend
  unfold ipStart at hend
  omega

lemma Intact.within_reset : Within [(0, 0xffff)] ip (ipLen ip - ipHdrSize) :=
  ⟨hi.len_eq, hi.more_eq, pairwise_singleton _ _⟩

end

lemma Inv.call (hinv : Inv s done) (hk : Keeps s done ip)
    : (∃ ranges, touched (2 ^ 13) ip s = some ranges ∧ ∀ r ∈ ranges, r.Inside)
      ∧ ∃ res s', netDefragment ip s = some (res, s') ∧ Inv s' (completed s done ip res) := by
  unfold touched completed
  by_cases hfar : TooFar ip
  . rw [if_pos hfar]
    refine ⟨⟨[], rfl, fun r hr => absurd hr (not_mem_nil)⟩, none, s, ?_, ?_⟩
    . unfold netDefragment
      exact if_pos hfar
    . rw [if_pos hfar]
      exact hinv
  have hi := hk hfar
  have hid : ∀ r ∈ (if s.totalLen = 0 then [] else [⟨4, 2⟩] : List Range), r.Inside := by
    intro r hr
    split at hr
    . contradiction
    . rw [mem_singleton.mp hr]
      decide
  simp only [if_neg hfar]
  by_cases hfresh : Fresh s ip
  . have ⟨ranges, htouched, hinside⟩ := touchedList_inside (reset_listed s ip) ordered_reset (by simp) hfar
      hi.within_reset
    have ⟨res, s', hcall, hlist⟩ := netDefragment_intact (reset_listed s ip) ordered_reset (by simp) hfar
      (not_fresh_reset s ip) hi.within_reset
    rw [if_pos hfresh, htouched]
    refine ⟨⟨_, rfl, ?_⟩, res, s', ?_, ?_⟩
    . intro r hr
      rcases mem_append.mp hr with hr | hr
      . rcases mem_append.mp hr with hr | hr
        . exact hid r hr
        . simp only [mem_cons, not_mem_nil, or_false] at hr
          rcases hr with rfl | rfl
          . decide
          . decide
      . exact hinside r hr
    . rw [netDefragment_of_new hfresh hfar, hcall]
    . intro hdone _
      apply hlist
      simpa [hfresh] using hdone
  have hnot : done = false := by
    cases done with
    | false => rfl
    | true => exact absurd (hi.new rfl) hfresh
  have hlen : s.totalLen ≠ 0 := fun hzero => hfresh (.inl hzero)
  have ⟨l, hne, hl, ho⟩ := hinv hnot hlen
  have ⟨ranges, htouched, hinside⟩ := touchedList_inside hl ho hne hfar (hi.within hfresh hl)
  have ⟨res, s', hcall, hlist⟩ := netDefragment_intact hl ho hne hfar hfresh (hi.within hfresh hl)
  rw [if_neg hfresh, htouched]
  refine ⟨⟨_, rfl, ?_⟩, res, s', hcall, ?_⟩
  . intro r hr
    rcases mem_append.mp hr with hr | hr
    . exact hid r hr
    . exact hinside r hr
  intro hdone _
  apply hlist
  rw [hnot] at hdone
  simpa using hdone

end

lemma Run.inv {netIp : List UInt8} {s : State} {done : Bool} (h : Run netIp Keeps s done) : Inv s done := by
  induction h with
  | start h => exact fun _ hne => absurd h hne
  | packet _ _ _ hP hcall ih =>
    have ⟨_, res, s', hcall', hinv⟩ := ih.call hP
    rw [hcall'] at hcall
    cases hcall
    exact hinv

theorem netDefragment_inside (netIp : List UInt8) (s : State) (done : Bool) (h : Run netIp Keeps s done)
    (ip : Int → UInt8) (hkeeps : Keeps s done ip)
    : (∃ fuel ranges, touched fuel ip s = some ranges ∧ ∀ r ∈ ranges, r.Inside)
      ∧ ∃ res s', netDefragment ip s = some (res, s') := by
  have ⟨⟨ranges, htouched, hinside⟩, res, s', hcall, _⟩ := h.inv.call hkeeps
  exact ⟨⟨2 ^ 13, ranges, htouched, hinside⟩, res, s', hcall⟩

namespace Sample

def packet (len off sum : Nat) (address : Int) : UInt8 :=
  let fields := [0x45, 0] ++ Bytes.ofNat 2 len ++ [0x12, 0x34] ++ Bytes.ofNat 2 off ++ [0x40, 0x11]
  (fields ++ Bytes.ofNat 2 sum ++ [10, 0, 0, 2, 10, 0, 0, 1]).getD address.toNat 0

def netIp : List UInt8 := [10, 0, 0, 1]

def empty : State where
  buff _ := 0
  firstHole := 0
  totalLen := 0

def first : Int → UInt8 := packet 28 0x2000 0x349b

def second : Int → UInt8 := packet 28 0x2002 0x3499

def afterFirst : Option Nat × State := (netDefragment first empty).get (by decide +kernel)

end Sample

lemma Listed.pairwise_of_last {s : State} {l : List (Nat × Nat)} {R : Nat × Nat → Nat × Nat → Prop} (hl : Listed s l)
    (hlast : (nodes s.buff s.firstHole).next = 0) : l.Pairwise R := by
  match l, hl with
  | [], _ => exact .nil
  | [x], _ => exact pairwise_singleton _ _
  | (x, v) :: y :: rest, hl =>
    have hlt := (pairwise_cons.mp hl.sorted).1 y mem_cons_self
    have hnode := hl.linked.1
    rw [hl.first, headOr_cons, hnode, headOr_cons] at hlast
    exact absurd hlast (Nat.ne_zero_of_lt hlt)

lemma run_first : Run Sample.netIp Keeps Sample.afterFirst.2 false := by
  have hcall : netDefragment Sample.first Sample.empty = some (Sample.afterFirst.1, Sample.afterFirst.2) :=
    (Option.some_get (by decide +kernel)).symm
  have hkeeps : Keeps Sample.empty false Sample.first := by
    intro _
    exact ⟨by decide +kernel, by decide +kernel, by decide, fun hold => absurd (.inl rfl) hold⟩
  have hpasses : Passes Sample.netIp Sample.first 46 := by decide +kernel
  exact .packet (.start rfl) hpasses (by decide +kernel) hkeeps hcall

theorem netDefragment_inside_second
    : Run Sample.netIp Keeps Sample.afterFirst.2 false
      ∧ Passes Sample.netIp Sample.second 46 ∧ IsFragment Sample.second ∧ ¬Fresh Sample.afterFirst.2 Sample.second
      ∧ (∃ fuel ranges, touched fuel Sample.second Sample.afterFirst.2 = some ranges ∧ ∀ r ∈ ranges, r.Inside)
      ∧ ∃ res s', netDefragment Sample.second Sample.afterFirst.2 = some (res, s') := by
  refine ⟨run_first, by decide +kernel, by decide +kernel, by decide +kernel, ?_⟩
  apply netDefragment_inside Sample.netIp _ _ run_first
  intro _
  refine ⟨by decide +kernel, by decide +kernel, by decide, fun _ l hl => hl.pairwise_of_last ?_⟩
  decide +kernel

-- The length in the header is zero, and the end of the fragment is still not negative.
theorem not_inside_emptyLength
    : Run Sample.netIp (fun _ _ _ => True) Sample.empty false
      ∧ Passes Sample.netIp (Sample.packet 0 0x2003 0x34b4) 46 ∧ IsFragment (Sample.packet 0 0x2003 0x34b4)
      ∧ ∃ ranges, touched (2 ^ 13) (Sample.packet 0 0x2003 0x34b4) Sample.empty = some ranges
        ∧ ⟨ipHdrSize + 24, -20⟩ ∈ ranges ∧ ∃ r ∈ ranges, ¬r.Inside := by
  refine ⟨.start rfl, by decide +kernel, by decide +kernel, ?_⟩
  refine ⟨[descriptor 0, ⟨0, ipHdrSize⟩, descriptor 0, descriptor 1, ⟨ipHdrSize + 24, -20⟩], by decide +kernel, ?_⟩
  exact ⟨by decide, ⟨ipHdrSize + 24, -20⟩, by decide, by decide⟩

end UBoot.Defrag
