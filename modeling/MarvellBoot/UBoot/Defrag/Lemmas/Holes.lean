import MarvellBoot.Lib.DLinked
import MarvellBoot.UBoot.Defrag.Access

namespace UBoot.Defrag

open Mem DLinked Function List State

variable {buff : Int → UInt8} {j k i : Nat} {l : List (Nat × Nat)}

def nodes (buff : Int → UInt8) (i : Nat) : Node Nat where
  val := (hole buff i).lastByte
  next := (hole buff i).nextHole
  prev := (hole buff i).prevHole

lemma nodes_congr {buff' : Int → UInt8}
    (h : ∀ k : Nat, k < 8 → buff (payload i + k) = buff' (payload j + k)) : nodes buff i = nodes buff' j := by
  have hfield {k : Nat} (hk : k + 2 ≤ 8)
      : Bytes.loadLe buff (payload i + k) 2 = Bytes.loadLe buff' (payload j + k) 2 := by
    apply Bytes.loadLe_congr
    intro n hn
    rw [add_assoc, add_assoc]
    exact h (k + n) (by omega)
  have h0 := hfield (k := 0) (by omega)
  have h2 := hfield (k := 2) (by omega)
  have h4 := hfield (k := 4) (by omega)
  unfold nodes hole
  congr 1

lemma nodes_store {a : Int} {data : List UInt8} (h : payload i + 8 ≤ a ∨ a + data.length ≤ payload i)
    : nodes (store buff a data) i = nodes buff i := by
  apply nodes_congr
  intro k hk
  cases h with
  | inl h => exact store_of_lt _ _ (by omega)
  | inr h => exact store_of_ge _ (by omega)

lemma payload_apart (h : j ≠ i) : payload j + 8 ≤ payload i ∨ payload i + 8 ≤ payload j := by
  unfold payload
  omega

section

variable (s : State) (i : Nat) {x : Nat}

-- The fields of a hole are stored two bytes at a time.
lemma nodes_storeLe (hk : k + 2 ≤ 8) {node : Node Nat}
    (h : nodes (Bytes.storeLe s.buff (payload i + k) 2 x) i = node)
    : nodes (Bytes.storeLe s.buff (payload i + k) 2 x) = update (nodes s.buff) i node := by
  funext j
  by_cases hji : j = i
  . rw [hji, update_self, h]
  . rw [update_of_ne hji]
    apply nodes_store
    rw [length_reverse, Bytes.length_ofNat]
    have := payload_apart hji
    omega

lemma nodes_setLastByte (hx : x < 2 ^ 16)
    : nodes (s.setLastByte i x).buff = update (nodes s.buff) i { nodes s.buff i with val := x } := by
  have h := @nodes_storeLe 0 s i x (by omega) { nodes s.buff i with val := x }
  apply h
  simp only [nodes, hole, Node.mk.injEq]
  exact ⟨Bytes.loadLe_storeLe hx, Bytes.loadLe_storeLe_of_disjoint (.inr (by omega)),
    Bytes.loadLe_storeLe_of_disjoint (.inr (by omega))⟩

lemma nodes_setNextHole (hx : x < 2 ^ 16)
    : nodes (s.setNextHole i x).buff = update (nodes s.buff) i { nodes s.buff i with next := x } := by
  apply nodes_storeLe s i (k := 2) (by omega)
  simp only [nodes, hole, Node.mk.injEq]
  exact ⟨Bytes.loadLe_storeLe_of_disjoint (.inl (by omega)), Bytes.loadLe_storeLe hx,
    Bytes.loadLe_storeLe_of_disjoint (.inr (by omega))⟩

lemma nodes_setPrevHole (hx : x < 2 ^ 16)
    : nodes (s.setPrevHole i x).buff = update (nodes s.buff) i { nodes s.buff i with prev := x } := by
  apply nodes_storeLe s i (k := 4) (by omega)
  simp only [nodes, hole, Node.mk.injEq]
  exact ⟨Bytes.loadLe_storeLe_of_disjoint (.inl (by omega)), Bytes.loadLe_storeLe_of_disjoint (.inl (by omega)),
    Bytes.loadLe_storeLe hx⟩

lemma nodes_copyHole (h : Nat) : nodes (s.copyHole i h).buff = update (nodes s.buff) i (nodes s.buff h) := by
  funext j
  by_cases hji : j = i
  . rw [hji, update_self]
    apply nodes_congr
    intro k hk
    unfold copyHole
    dsimp only
    rw [store_load_of_mem _ _ (by omega) (by omega)]
    congr 1
    omega
  rw [update_of_ne hji]
  apply nodes_store
  rw [length_load]
  have := payload_apart hji
  omega

end

def Frame (p : Nat → Prop) (s s' : State) : Prop :=
  s'.totalLen = s.totalLen ∧ ∀ a, (∀ i, p i → a < payload i ∨ payload i + 8 ≤ a) → s'.buff a = s.buff a

section

variable {p : Nat → Prop} {s s' s'' : State} {i x : Nat}

lemma Frame.refl : Frame p s s := ⟨rfl, fun _ _ => rfl⟩

lemma Frame.trans (h : Frame p s s') (h' : Frame p s' s'') : Frame p s s'' := by
  refine ⟨h'.1.trans h.1, ?_⟩
  intro a ha
  rw [h'.2 a ha, h.2 a ha]

lemma Frame.mono {q : Nat → Prop} (hf : Frame p s s') (hpq : ∀ i, p i → q i) : Frame q s s' :=
  ⟨hf.1, fun a ha => hf.2 a fun i hi => ha i (hpq i hi)⟩

section

variable (hi : p i)

include hi

lemma frame_storeLe (hk : k + 2 ≤ 8) : Frame p s { s with buff := Bytes.storeLe s.buff (payload i + k) 2 x } := by
  refine ⟨rfl, ?_⟩
  intro a ha
  cases ha i hi with
  | inl h => exact store_of_lt _ _ (by omega)
  | inr h => exact store_of_ge _ (by rw [length_reverse, Bytes.length_ofNat]; omega)

lemma frame_setLastByte : Frame p s (s.setLastByte i x) := by
  have h := frame_storeLe (s := s) (k := 0) (x := x) hi (by omega)
  exact h

lemma frame_setNextHole : Frame p s (s.setNextHole i x) := frame_storeLe (k := 2) hi (by omega)

lemma frame_setPrevHole : Frame p s (s.setPrevHole i x) := frame_storeLe (k := 4) hi (by omega)

lemma frame_copyHole : Frame p s (s.copyHole i x) := by
  refine ⟨rfl, ?_⟩
  intro a ha
  cases ha i hi with
  | inl h => exact store_of_lt _ _ h
  | inr h => exact store_of_ge _ (by rw [length_load]; omega)

end

end

structure Listed (s : State) (l : List (Nat × Nat)) : Prop where
  linked : Linked (nodes s.buff) 0 l 0
  first : s.firstHole = headOr 0 l
  sorted : l.Pairwise fun x y => x.1 < y.1
  bound : ∀ x ∈ l, x.1 < 2 ^ 13

section

variable {s s' : State} {pre post : List (Nat × Nat)} {h v start newh : Nat}

section

variable (hl : Listed s (pre ++ (h, v) :: post))

include hl

lemma Listed.node : nodes s.buff h = ⟨v, headOr 0 post, lastOr 0 pre⟩ := by
  have hlinked := hl.linked
  rw [linked_append] at hlinked
  exact hlinked.2.1

lemma Listed.next_last (hne : pre ≠ [])
    : { nodes s.buff (lastOr 0 pre) with next := h } = nodes s.buff (lastOr 0 pre) := by
  have hlinked := hl.linked
  rw [linked_append] at hlinked
  have hnext : (nodes s.buff (lastOr 0 pre)).next = h := hlinked.1.next_last hne
  rw [← hnext]

lemma Listed.prev_first (hne : post ≠ [])
    : { nodes s.buff (headOr 0 post) with prev := h } = nodes s.buff (headOr 0 post) := by
  have hlinked := hl.linked
  rw [linked_append] at hlinked
  have hprev : (nodes s.buff (headOr 0 post)).prev = h := hlinked.2.2.prev_first hne
  rw [← hprev]

end

structure Apart (pre post : List (Nat × Nat)) (h : Nat) : Prop where
  pre_sorted : pre.Pairwise fun x y => x.1 < y.1
  post_sorted : post.Pairwise fun x y => x.1 < y.1
  lt : ∀ x ∈ pre, x.1 < h
  gt : ∀ x ∈ post, h < x.1
  last : pre ≠ [] → lastOr 0 pre < h ∧ lastOr 0 pre < 2 ^ 13
  first : post ≠ [] → h < headOr 0 post ∧ headOr 0 post < 2 ^ 13

lemma Listed.apart (hl : Listed s (pre ++ (h, v) :: post)) : Apart pre post h := by
  have hsorted := hl.sorted
  rw [pairwise_append, pairwise_cons] at hsorted
  have ⟨hpre, ⟨hgt, hpost⟩, hcross⟩ := hsorted
  have hlt : ∀ x ∈ pre, x.1 < h := by
    intro x hx
    exact hcross x hx _ mem_cons_self
  refine ⟨hpre, hpost, hlt, hgt, ?_, ?_⟩
  . intro hne
    have ⟨w, hw⟩ := lastOr_mem (p := 0) hne
    exact ⟨hlt _ hw, hl.bound _ (mem_append_left _ hw)⟩
  intro hne
  cases post with
  | nil => contradiction
  | cons y post =>
    have hy : y ∈ pre ++ (h, v) :: y :: post := by simp
    exact ⟨hgt y mem_cons_self, hl.bound y hy⟩

lemma headOr_mem (hne : post ≠ []) : ∃ w, (headOr 0 post, w) ∈ post := by
  cases post with
  | nil => contradiction
  | cons y post => exact ⟨y.2, mem_cons_self⟩

section

variable (d : Nat → Node Nat)

def relinkPrev (post : List (Nat × Nat)) (x : Nat) : Nat → Node Nat :=
  if post = [] then d else update d (headOr 0 post) { d (headOr 0 post) with prev := x }

def relinkNext (pre : List (Nat × Nat)) (x : Nat) : Nat → Node Nat :=
  if pre = [] then d else update d (lastOr 0 pre) { d (lastOr 0 pre) with next := x }

variable {x : Nat}

lemma relinkPrev_of_ne (h : post ≠ [] → i ≠ headOr 0 post) : relinkPrev d post x i = d i := by
  unfold relinkPrev
  split
  . rfl
  . next hne => rw [update_of_ne (h hne)]

lemma relinkNext_of_ne (h : pre ≠ [] → i ≠ lastOr 0 pre) : relinkNext d pre x i = d i := by
  unfold relinkNext
  split
  . rfl
  . next hne => rw [update_of_ne (h hne)]

end

lemma Listed.replace {mid : List (Nat × Nat)} {d : Nat → Node Nat} (hl : Listed s (pre ++ (h, v) :: post))
    (hsorted : mid.Pairwise fun x y => x.1 < y.1)
    (hmid : ∀ x ∈ mid, h ≤ x.1 ∧ x.1 < 2 ^ 13 ∧ ∀ y ∈ post, x.1 < y.1)
    (hsame : ∀ x ∈ pre ++ post, d x.1 = nodes s.buff x.1)
    (hlinked : Linked d (lastOr 0 pre) mid (headOr 0 post))
    (hnodes : nodes s'.buff
      = relinkNext (relinkPrev d post (lastOr (lastOr 0 pre) mid)) pre (headOr (headOr 0 post) mid))
    (hhead : s'.firstHole = headOr 0 (pre ++ mid ++ post)) : Listed s' (pre ++ mid ++ post) := by
  have hapart := hl.apart
  have hbound := hl.bound
  rw [forall_mem_append] at hsame
  rw [forall_mem_append, forall_mem_cons] at hbound
  have hlt {i : Nat} (hi : i < h) (hne : post ≠ []) : i ≠ headOr 0 post := by
    have := (hapart.first hne).1
    omega
  have hgt {i : Nat} (hi : h ≤ i) (hne : pre ≠ []) : i ≠ lastOr 0 pre := by
    have := (hapart.last hne).1
    omega
  constructor
  . have hold := hl.linked
    have hlist : pre ++ (h, v) :: post = pre ++ [(h, v)] ++ post := by simp
    rw [hlist] at hold
    rw [hnodes]
    apply hold.replace (hapart.pre_sorted.imp ne_of_lt) (hapart.post_sorted.imp ne_of_lt)
    . intro x hx hne
      rw [relinkNext_of_ne _ fun _ => hne, relinkPrev_of_ne _ (hlt (hapart.lt x hx)), hsame.1 x hx]
    . intro hne
      have ⟨w, hw⟩ := lastOr_mem (p := 0) hne
      rw [relinkNext, if_neg hne, update_self, relinkPrev_of_ne _ (hlt (hapart.lt _ hw)), hsame.1 _ hw]
    . apply hlinked.congr
      intro x hx
      have ⟨hle, _, hbefore⟩ := hmid x hx
      rw [relinkNext_of_ne _ (hgt hle), relinkPrev_of_ne]
      intro hne
      have ⟨w, hw⟩ := headOr_mem hne
      exact ne_of_lt (hbefore _ hw)
    . intro x hx hne
      rw [relinkNext_of_ne _ (hgt (hapart.gt x hx).le), relinkPrev_of_ne _ fun _ => hne, hsame.2 x hx]
    . intro hne
      have ⟨w, hw⟩ := headOr_mem hne
      rw [relinkNext_of_ne _ (hgt (hapart.gt _ hw).le), relinkPrev, if_neg hne, update_self, hsame.2 _ hw]
  . exact hhead
  . rw [pairwise_append, pairwise_append, forall_mem_append]
    refine ⟨⟨hapart.pre_sorted, hsorted, ?_⟩, hapart.post_sorted, ?_, fun x hx => (hmid x hx).2.2⟩
    . intro x hx y hy
      exact lt_of_lt_of_le (hapart.lt x hx) (hmid y hy).1
    . intro x hx y hy
      exact lt_trans (hapart.lt x hx) (hapart.gt y hy)
  . rw [forall_mem_append, forall_mem_append]
    exact ⟨⟨hbound.1, fun x hx => (hmid x hx).2.1⟩, hbound.2.2⟩

lemma Listed.relinkNext_eq {d : Nat → Node Nat} (hl : Listed s (pre ++ (h, v) :: post))
    (hsame : pre ≠ [] → d (lastOr 0 pre) = nodes s.buff (lastOr 0 pre)) : relinkNext d pre h = d := by
  unfold relinkNext
  split
  . rfl
  . next hne => rw [hsame hne, hl.next_last hne, ← hsame hne, update_eq_self]

lemma headOr_eq_zero (hgt : ∀ x ∈ post, h < x.1) : headOr 0 post = 0 ↔ post = [] := by
  cases post with
  | nil => simp
  | cons y post =>
    have := hgt y mem_cons_self
    simp only [headOr_cons, cons_ne_nil, iff_false]
    omega

lemma lastOr_eq_zero (hprev : pre ≠ [] → lastOr 0 pre ≠ 0) : lastOr 0 pre = 0 ↔ pre = [] := by
  constructor
  . intro hzero
    by_contra hne
    exact hprev hne hzero
  . intro hnil
    rw [hnil]
    rfl

lemma setLastByte_listed (hl : Listed s (pre ++ (h, v) :: post)) (hstart : start < 2 ^ 16)
    : Listed (s.setLastByte h start) (pre ++ (h, start) :: post) := by
  have hapart := hl.apart
  have hnodes := nodes_setLastByte s h hstart
  have hsame {x : Nat} (hx : x ≠ h) : nodes (s.setLastByte h start).buff x = nodes s.buff x := by
    rw [hnodes, update_of_ne hx]
  have hlist : pre ++ (h, start) :: post = pre ++ [(h, start)] ++ post := by simp
  rw [hlist]
  apply hl.replace (d := nodes (s.setLastByte h start).buff) (pairwise_singleton _ _)
  . intro x hx
    rw [mem_singleton.mp hx]
    exact ⟨le_refl h, hl.bound (h, v) (by simp), hapart.gt⟩
  . rw [forall_mem_append]
    exact ⟨fun x hx => hsame (ne_of_lt (hapart.lt x hx)), fun x hx => hsame (ne_of_gt (hapart.gt x hx))⟩
  . refine ⟨?_, trivial⟩
    rw [hnodes, update_self, hl.node]
    rfl
  . have hprev : relinkPrev (nodes (s.setLastByte h start).buff) post h = nodes (s.setLastByte h start).buff := by
      unfold relinkPrev
      split
      . rfl
      . next hne =>
        have hfirst := hsame (ne_of_gt (hapart.first hne).1)
        rw [hfirst, hl.prev_first hne, ← hfirst, update_eq_self]
    rw [headOr_cons, lastOr_cons, lastOr_nil, hprev, hl.relinkNext_eq]
    exact fun hne => hsame (ne_of_lt (hapart.last hne).1)
  have hfirst := hl.first
  rw [headOr_append] at hfirst
  rw [headOr_append, headOr_append]
  exact hfirst

lemma removeHole_listed {done : Bool} (hl : Listed s (pre ++ (h, v) :: post))
    (hprev : pre ≠ [] → lastOr 0 pre ≠ 0) (hres : removeHole s h = (done, s'))
    : Frame (fun i => ∃ w, (i, w) ∈ pre ++ post) s s' ∧ (done = true ↔ pre = [] ∧ post = [])
      ∧ (done = false → Listed s' (pre ++ post)) := by
  have hapart := hl.apart
  have hnode := hl.node
  have hfirst := hl.first
  have hnext : (hole s.buff h).nextHole = headOr 0 post := congrArg Node.next hnode
  have hprev' : (hole s.buff h).prevHole = lastOr 0 pre := congrArg Node.prev hnode
  have hpost := headOr_eq_zero hapart.gt
  have hpre := lastOr_eq_zero hprev
  have hfirstMem (hne : post ≠ []) : ∃ w, (headOr 0 post, w) ∈ pre ++ post := by
    have ⟨w, hw⟩ := headOr_mem hne
    exact ⟨w, mem_append_right _ hw⟩
  have hlastMem (hne : pre ≠ []) : ∃ w, (lastOr 0 pre, w) ∈ pre ++ post := by
    have ⟨w, hw⟩ := lastOr_mem (p := 0) hne
    exact ⟨w, mem_append_left _ hw⟩
  have hlisted (hnodes : nodes s'.buff = relinkNext (relinkPrev (nodes s.buff) post (lastOr 0 pre)) pre (headOr 0 post))
      (hhead : s'.firstHole = headOr 0 (pre ++ post)) : Listed s' (pre ++ post) := by
    have hlist : pre ++ post = pre ++ [] ++ post := by simp
    rw [hlist] at hhead ⊢
    exact hl.replace .nil nofun (fun _ _ => rfl) trivial hnodes hhead
  unfold removeHole at hres
  simp only [hnext, hprev', hpost, hpre] at hres
  split at hres
  . next hboth =>
    cases hres
    exact ⟨.refl, by simp [hboth], nofun⟩
  next hnot =>
  split at hres
  . next hnil =>
    have hne : post ≠ [] := fun hpost => hnot ⟨hnil, hpost⟩
    cases hres
    refine ⟨frame_setPrevHole (hfirstMem hne), by simp [hne], fun _ => hlisted ?_ ?_⟩
    . rw [nodes_setPrevHole _ _ (by omega), relinkNext, if_pos hnil, relinkPrev, if_neg hne, hnil]
      rfl
    . rw [hnil]
      rfl
  next hne =>
  have ⟨hlt, hbound⟩ := hapart.last hne
  have hhead : s.firstHole = headOr 0 (pre ++ post) := by
    cases pre with
    | nil => contradiction
    | cons y pre => exact hfirst
  split at hres
  . next hnil =>
    cases hres
    refine ⟨frame_setNextHole (hlastMem hne), by simp [hne], fun _ => hlisted ?_ hhead⟩
    rw [nodes_setNextHole _ _ (by omega), relinkNext, if_neg hne, relinkPrev, if_pos hnil, hnil]
    rfl
  next hne' =>
  have ⟨hgt, hbound'⟩ := hapart.first hne'
  cases hres
  refine ⟨.trans (frame_setPrevHole (hfirstMem hne')) (frame_setNextHole (hlastMem hne)), by simp [hne],
    fun _ => hlisted ?_ hhead⟩
  rw [nodes_setNextHole _ _ (by omega), nodes_setPrevHole _ _ (by omega), relinkNext, if_neg hne, relinkPrev,
    if_neg hne']

lemma frame_linkPrev {p : Nat → Prop} (hp : ∀ x ∈ post, p x.1)
    : Frame p s (if ¬post = [] then s.setPrevHole (headOr 0 post) newh else s) := by
  split
  . next hne =>
    have ⟨w, hw⟩ := headOr_mem hne
    exact frame_setPrevHole (hp _ hw)
  . exact .refl

lemma nodes_linkPrev (hbound : newh < 2 ^ 13)
    : nodes (if ¬post = [] then s.setPrevHole (headOr 0 post) newh else s).buff
      = relinkPrev (nodes s.buff) post newh := by
  unfold relinkPrev
  split
  . exact nodes_setPrevHole _ _ (by omega)
  . next hnil => rw [if_pos (not_not.mp hnil)]

lemma firstHole_linkPrev
    : (if ¬post = [] then s.setPrevHole (headOr 0 post) newh else s).firstHole = s.firstHole := by
  split
  . rfl
  . rfl

section

variable (hl : Listed s (pre ++ (h, v) :: post)) (hlt : h < newh) (hbound : newh < 2 ^ 13)
  (hgt : ∀ x ∈ post, newh < x.1)

include hl hlt hbound hgt

lemma moveHole_listed (hprev : pre ≠ [] → lastOr 0 pre ≠ 0)
    : Frame (fun i => i = newh ∨ ∃ w, (i, w) ∈ pre ++ post) s (moveHole s h newh)
      ∧ Listed (moveHole s h newh) (pre ++ (newh, v) :: post) := by
  have hapart := hl.apart
  have hpost := headOr_eq_zero hapart.gt
  have hpre := lastOr_eq_zero hprev
  have hnodes := nodes_copyHole s newh h
  rw [hl.node] at hnodes
  have hnode : nodes (s.copyHole newh h).buff newh = ⟨v, headOr 0 post, lastOr 0 pre⟩ := by
    rw [hnodes, update_self]
  have hnext : (hole (s.copyHole newh h).buff newh).nextHole = headOr 0 post := congrArg Node.next hnode
  have hprev' : (hole (s.copyHole newh h).buff newh).prevHole = lastOr 0 pre := congrArg Node.prev hnode
  have hframe : Frame (fun i => i = newh ∨ ∃ w, (i, w) ∈ pre ++ post) s
      (if ¬post = [] then (s.copyHole newh h).setPrevHole (headOr 0 post) newh else s.copyHole newh h) := by
    refine (frame_copyHole (.inl rfl)).trans (frame_linkPrev ?_)
    intro x hx
    exact .inr ⟨x.2, mem_append_right _ hx⟩
  have hlisted {s' : State} (hnodes' : nodes s'.buff
        = relinkNext (relinkPrev (nodes (s.copyHole newh h).buff) post newh) pre newh)
      (hhead : s'.firstHole = headOr 0 (pre ++ [(newh, v)] ++ post)) : Listed s' (pre ++ (newh, v) :: post) := by
    have hlist : pre ++ (newh, v) :: post = pre ++ [(newh, v)] ++ post := by simp
    rw [hlist]
    refine hl.replace (pairwise_singleton _ _) ?_ ?_ ⟨hnode, trivial⟩ hnodes' hhead
    . intro x hx
      rw [mem_singleton.mp hx]
      exact ⟨hlt.le, hbound, hgt⟩
    . rw [hnodes, forall_mem_append]
      refine ⟨?_, fun x hx => update_of_ne (ne_of_gt (hgt x hx)) _ _⟩
      intro x hx
      exact update_of_ne (ne_of_lt ((hapart.lt x hx).trans hlt)) _ _
  unfold moveHole
  simp only [hnext, hprev', hpost, hpre, ne_eq]
  split
  . next hne =>
    have ⟨w, hw⟩ := lastOr_mem (p := 0) hne
    refine ⟨hframe.trans (frame_setNextHole (.inr ⟨w, mem_append_left _ hw⟩)), hlisted ?_ ?_⟩
    . rw [nodes_setNextHole _ _ (by omega), nodes_linkPrev hbound, relinkNext, if_neg hne]
    . have hhead := hl.first
      cases pre with
      | nil => contradiction
      | cons y pre => exact firstHole_linkPrev.trans hhead
  . next hnil =>
    rw [not_not] at hnil
    refine ⟨hframe, hlisted ?_ ?_⟩
    . rw [relinkNext, if_pos hnil]
      exact nodes_linkPrev hbound
    . rw [hnil]
      rfl

lemma splitHole_listed (hstart : start < 2 ^ 16)
    : Frame (fun i => i = newh ∨ ∃ w, (i, w) ∈ pre ++ (h, v) :: post) s (splitHole s h newh start)
      ∧ Listed (splitHole s h newh start) (pre ++ (h, start) :: (newh, v) :: post) := by
  have hapart := hl.apart
  have hpost := headOr_eq_zero hapart.gt
  have hnode := hl.node
  have hne : h ≠ newh := ne_of_lt hlt
  have hnodes : nodes ((((s.copyHole newh h).setLastByte h start).setNextHole h newh).setPrevHole newh h).buff
      = update (update (nodes s.buff) h ⟨start, newh, lastOr 0 pre⟩) newh ⟨v, headOr 0 post, h⟩ := by
    rw [nodes_setPrevHole _ _ (by omega), nodes_setNextHole _ _ (by omega), nodes_setLastByte _ _ hstart,
      nodes_copyHole, hnode]
    simp only [update_self, update_of_ne hne, update_of_ne hne.symm, update_idem, hnode]
    rw [update_comm hne.symm, update_idem]
  have hframe : Frame (fun i => i = newh ∨ ∃ w, (i, w) ∈ pre ++ (h, v) :: post) s
      ((((s.copyHole newh h).setLastByte h start).setNextHole h newh).setPrevHole newh h) := by
    have hmem : h = newh ∨ ∃ w, (h, w) ∈ pre ++ (h, v) :: post := .inr ⟨v, by simp⟩
    exact ((frame_copyHole (.inl rfl)).trans (frame_setLastByte hmem)).trans
      ((frame_setNextHole hmem).trans (frame_setPrevHole (.inl rfl)))
  unfold splitHole
  dsimp only
  have hfirst : ((((s.copyHole newh h).setLastByte h start).setNextHole h newh).setPrevHole newh h).firstHole
      = s.firstHole := rfl
  generalize (((s.copyHole newh h).setLastByte h start).setNextHole h newh).setPrevHole newh h = s1
    at hnodes hframe hfirst ⊢
  have hh : nodes s1.buff h = ⟨start, newh, lastOr 0 pre⟩ := by rw [hnodes, update_of_ne hne, update_self]
  have hnewh : nodes s1.buff newh = ⟨v, headOr 0 post, h⟩ := by rw [hnodes, update_self]
  have hnext : (hole s1.buff newh).nextHole = headOr 0 post := congrArg Node.next hnewh
  have hother {x : Nat} (hx : x < h ∨ newh < x) : nodes s1.buff x = nodes s.buff x := by
    rw [hnodes, update_of_ne (by omega), update_of_ne (by omega)]
  have hlist : pre ++ (h, start) :: (newh, v) :: post = pre ++ [(h, start), (newh, v)] ++ post := by simp
  simp only [hnext, hpost, ne_eq]
  refine ⟨hframe.trans (frame_linkPrev fun x hx => .inr ⟨x.2, by simp [hx]⟩), ?_⟩
  rw [hlist]
  refine hl.replace ?_ ?_ ?_ ⟨hh, hnewh, trivial⟩ ?_ ?_
  . simp [hlt]
  . rw [forall_mem_cons, forall_mem_cons]
    exact ⟨⟨le_refl h, hl.bound (h, v) (by simp), hapart.gt⟩, ⟨hlt.le, hbound, hgt⟩, forall_mem_nil _⟩
  . rw [forall_mem_append]
    exact ⟨fun x hx => hother (.inl (hapart.lt x hx)), fun x hx => hother (.inr (hgt x hx))⟩
  . rw [nodes_linkPrev hbound, headOr_cons, hl.relinkNext_eq]
    . rfl
    . intro hne
      have hlast := (hapart.last hne).1
      rw [relinkPrev_of_ne, hother (.inl hlast)]
      intro hne
      have := (hapart.first hne).1
      omega
  have hhead := hl.first
  rw [headOr_append] at hhead
  rw [append_assoc, headOr_append, firstHole_linkPrev, hfirst]
  exact hhead

end

lemma findHole_linked {p fuel : Nat}
    (hlinked : Linked (nodes buff) p l 0) (hsorted : l.Pairwise fun x y => x.1 < y.1) (hne : l ≠ [])
    (hfuel : l.length ≤ fuel)
    : findHole buff start fuel (headOr 0 l) = some ((l.find? fun x => start ≤ x.2).map Prod.fst) := by
  induction l generalizing p fuel with
  | nil => contradiction
  | cons x l ih =>
    rw [pairwise_cons] at hsorted
    have hlast : (hole buff x.1).lastByte = x.2 := congrArg Node.val hlinked.1
    have hnext : (hole buff x.1).nextHole = headOr 0 l := congrArg Node.next hlinked.1
    cases fuel with
    | zero => contradiction
    | succ fuel =>
      simp only [headOr_cons, findHole, hlast, hnext, headOr_eq_zero hsorted.1]
      split
      . next hlt =>
        rw [find?_cons_of_neg (by simpa using hlt)]
        split
        . next hnil =>
          rw [hnil]
          rfl
        . next hne => exact ih hlinked.2 hsorted.2 hne (Nat.le_of_succ_le_succ hfuel)
      . next hge =>
        rw [find?_cons_of_pos (by simpa using hge)]
        rfl

lemma reset_listed (s : State) (ip : Int → UInt8) : Listed (s.reset ip) [(0, 0xffff)] := by
  refine ⟨⟨?_, trivial⟩, rfl, pairwise_singleton _ _, ?_⟩
  . have hheader : nodes (s.reset ip).buff 0
        = nodes (((s.setLastByte 0 0xffff).setNextHole 0 0).setPrevHole 0 0).buff 0 := by
      apply nodes_store
      rw [length_load]
      unfold payload
      omega
    rw [hheader, nodes_setPrevHole _ _ (by omega), nodes_setNextHole _ _ (by omega), nodes_setLastByte _ _ (by omega)]
    simp
  . simp

lemma ipId_reset (s : State) (ip : Int → UInt8) : ipId (s.reset ip).buff = ipId ip := by
  apply load_congr
  intro n hn
  unfold reset ipHdrSize
  dsimp only
  rw [store_load_of_mem _ _ (by omega) (by omega)]
  congr 1
  omega

lemma totalLen_reset (s : State) (ip : Int → UInt8) : (s.reset ip).totalLen ≠ 0 := Nat.succ_ne_zero _

lemma not_fresh_reset (s : State) (ip : Int → UInt8) : ¬Fresh (s.reset ip) ip := by
  unfold Fresh
  rw [ipId_reset]
  simp [totalLen_reset]

lemma netDefragment_of_new {ip : Int → UInt8} (hnew : Fresh s ip) (hfar : ¬TooFar ip)
    : netDefragment ip s = netDefragment ip (s.reset ip) := by
  have hkeep := not_fresh_reset s ip
  unfold Fresh at hnew hkeep
  unfold TooFar ipStart payloadLen at hfar
  unfold netDefragment
  simp only [hnew, hkeep, hfar, if_true, if_false]

lemma Listed.length_le (hl : Listed s l) : l.length ≤ 2 ^ 13 := by
  have hnodup : (l.map Prod.fst).Nodup := pairwise_map.mpr (hl.sorted.imp ne_of_lt)
  have hsub : l.map Prod.fst ⊆ range (2 ^ 13) := by
    intro i hi
    have ⟨x, hx, hxi⟩ := mem_map.mp hi
    rw [← hxi, mem_range]
    exact hl.bound x hx
  have hle := (hnodup.subperm hsub).length_le
  rw [length_map, length_range] at hle
  exact hle

lemma Listed.findHole_eq (hl : Listed s l) (hne : l ≠ [])
    : findHole s.buff start (2 ^ 13) s.firstHole = some ((l.find? fun x => start ≤ x.2).map Prod.fst) := by
  rw [hl.first]
  exact findHole_linked hl.linked hl.sorted hne hl.length_le

def fixHole (s : State) (h o n : Nat) : Option (Bool × State) :=
  if o ≤ h ∧ (hole s.buff h).lastByte ≤ 8 * o + n then
    some (removeHole s h)
  else if (hole s.buff h).lastByte ≤ 8 * o + n then
    some (false, s.setLastByte h (8 * o))
  else if Outside (o + n / 8) then
    none
  else if o ≤ h then
    some (false, moveHole s h (o + n / 8))
  else
    some (false, splitHole s h (o + n / 8) (8 * o))

def finish (s : State) (ip : Int → UInt8) (n : Nat) (done : Bool) : Option Nat × State :=
  let s := { s with buff := store s.buff (payload (ipOffs ip)) (load ip ipHdrSize n) }
  if done = false then
    (none, s)
  else
    (some (s.totalLen + ipHdrSize), { s with buff := store s.buff 2 (Bytes.ofNat 2 s.totalLen) })

def truncated (s : State) (ip : Int → UInt8) (h n : Nat) : State :=
  if ipFlagsMfrag ip = false then
    { s with totalLen := 8 * ipOffs ip + n }.setLastByte h (8 * ipOffs ip + n)
  else
    s

lemma netDefragment_call {ip : Int → UInt8} {n : Nat} (hfar : ¬TooFar ip) (hlen : payloadLen ip = n) (hold : ¬Fresh s ip)
    : netDefragment ip s
      = match findHole s.buff (ipStart ip) (2 ^ 13) s.firstHole with
        | none => none
        | some none => some (none, s)
        | some (some h) =>
          if ipOffs ip + (n + 7) / 8 ≤ h then
            some (none, s)
          else
            (fixHole (truncated s ip h n) h (ipOffs ip) n).map fun res => finish res.2 ip n res.1 := by
  unfold TooFar at hfar
  rw [hlen] at hfar
  have hstart : ipOffs ip * 8 = ipStart ip := rfl
  have hstart' : ipStart ip = 8 * ipOffs ip := mul_comm _ _
  have hlen' : (ipLen ip : Int) - (ipHdrSize : Nat) = n := hlen
  have hstop : ((ipStart ip : Int) + n).toNat = 8 * ipOffs ip + n := by
    omega
  have hceil : ((n : Int) + 7).tdiv 8 = ((n + 7) / 8 : Nat) := by
    rw [Int.tdiv_eq_ediv_of_nonneg (by omega)]
    omega
  have hfloor : (n : Int).tdiv 8 = (n / 8 : Nat) := by
    rw [Int.tdiv_eq_ediv_of_nonneg (by omega)]
    omega
  have hneg : ¬(n : Int) < 0 := by omega
  unfold Fresh at hold
  unfold netDefragment
  simp only [hstart, hlen', hfar, hold, hstop, hceil, hfloor, hneg, if_false, Int.toNat_natCast]
  norm_cast
  rcases findHole s.buff (ipStart ip) (2 ^ 13) s.firstHole with _ | (_ | h)
  . rfl
  . rfl
  dsimp only
  split
  . rfl
  rw [hstart']
  rcases hfix : fixHole (truncated s ip h n) h (ipOffs ip) n with _ | ⟨done, s'⟩
  all_goals
    unfold fixHole truncated at hfix
    rw [hfix]
  . rfl
  . cases done with
    | false => rfl
    | true => rfl

end

end UBoot.Defrag
