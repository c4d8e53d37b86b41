import MarvellBoot.UBoot.Device.Impl

namespace UBoot.Device

open List Bool

variable {c x y : Nat} {l : List Nat}

variable {t : DeviceTree} {r : Results} {flags : BitVec 32} {s s' : State} {dev depth : Nat}
  {remove : Nat → State → Int × State}

def Below (t : DeviceTree) (x y : Nat) : Prop := Relation.ReflTransGen (fun p c => t.parent c = some p ∧ c < t.count) x y

def Inv (t : DeviceTree) (s : State) : Prop := ∀ c < t.count, s c = true → ∀ p, t.parent c = some p → s p = true

lemma DeviceTree.mem_children : c ∈ t.children dev ↔ c < t.count ∧ t.parent c = some dev := by
  unfold children
  rw [mem_filter, mem_range, decide_eq_true_iff]

lemma DeviceTree.lt_of_mem_children (h : c ∈ t.children dev) : dev < c := t.parent_lt c dev (mem_children.mp h).2

open DeviceTree Function

lemma Below.le (h : Below t x y) : x ≤ y := by
  induction h with
  | refl => exact Nat.le_refl _
  | tail _ hstep ih =>
    have := t.parent_lt _ _ hstep.1
    omega

lemma Below.cases_child (h : Below t x y) : y = x ∨ ∃ c ∈ t.children x, Below t c y := by
  induction h using Relation.ReflTransGen.head_induction_on with
  | refl => exact .inl rfl
  | head hstep hrest _ => exact .inr ⟨_, mem_children.mpr ⟨hstep.2, hstep.1⟩, hrest⟩

lemma Below.of_child (hc : c ∈ t.children x) (h : Below t c y) : Below t x y :=
  h.head ⟨(mem_children.mp hc).2, (mem_children.mp hc).1⟩

lemma Inv.below_inactive (h : Inv t s) (hx : s x = false) (hbelow : Below t x y) : s y = false := by
  induction hbelow with
  | refl => exact hx
  | @tail y z _ hstep ih =>
    by_contra hactive
    rw [not_eq_false] at hactive
    rw [h z hstep.2 hactive y hstep.1] at ih
    contradiction

def Closed (t : DeviceTree) (flags : BitVec 32) (s : State) : Prop :=
  ∀ p, ∀ c ∈ t.children p, s c = true → removes t flags p = true → removes t flags c = true

def Loud (t : DeviceTree) (r : Results) : Prop :=
  ∀ x, r .postProbe x ≠ 0 ∨ ∀ y, Below t x y → r .preRemove y = 0 ∧ r .remove y = 0 ∧ r .childPostRemove y = 0

structure Removed (t : DeviceTree) (flags : BitVec 32) (P : Nat → Prop) (s : State) (ret : Int) (s' : State) : Prop where
  frame : ∀ x, ¬P x → s' x = s x
  mono : ∀ x, s' x = true → s x = true
  removed : ret = 0 → ∀ x, P x → s' x = true → removes t flags x = false
  inv : Inv t s'

lemma Closed.mono (h : Closed t flags s) (hmono : ∀ x, s' x = true → s x = true) : Closed t flags s' := by
  intro p c hc hactive
  exact h p c hc (hmono c hactive)

lemma deviceChldRemove_removed
    (hremove : ∀ c ∈ l, ∀ s, Inv t s → Closed t flags s → Removed t flags (Below t c) s (remove c s).1 (remove c s).2)
    (hinv : Inv t s) (hclosed : Closed t flags s)
    : Removed t flags (fun x => ∃ c ∈ l, Below t c x) s (deviceChldRemove remove l s).1
        (deviceChldRemove remove l s).2 := by
  induction l generalizing s with
  | nil =>
    refine ⟨fun _ _ => rfl, fun _ h => h, ?_, hinv⟩
    rintro _ x ⟨c, hc, _⟩
    contradiction
  | cons pos rest ih =>
    have hpos := hremove pos mem_cons_self s hinv hclosed
    unfold deviceChldRemove
    dsimp only at hpos ⊢
    split
    . next hne =>
      refine ⟨?_, hpos.mono, fun h => absurd h hne, hpos.inv⟩
      intro x hx
      exact hpos.frame x fun hbelow => hx ⟨pos, mem_cons_self, hbelow⟩
    next hzero =>
    have hrest := ih (fun c hc => hremove c (mem_cons_of_mem _ hc)) hpos.inv (hclosed.mono hpos.mono)
    refine ⟨?_, ?_, ?_, hrest.inv⟩
    . intro x hx
      rw [hrest.frame x, hpos.frame x]
      . exact fun hbelow => hx ⟨pos, mem_cons_self, hbelow⟩
      . rintro ⟨c, hc, hbelow⟩
        exact hx ⟨c, mem_cons_of_mem _ hc, hbelow⟩
    . intro x hx
      exact hpos.mono x (hrest.mono x hx)
    rintro hret x ⟨c, hc, hbelow⟩ hactive
    rcases mem_cons.mp hc with rfl | hc
    . exact hpos.removed (not_not.mp hzero) x hbelow (hrest.mono x hactive)
    . exact hrest.removed hret x ⟨c, hc, hbelow⟩ hactive

lemma deviceChldRemove_eq_zero
    (hremove : ∀ c ∈ l, ∀ s, (remove c s).1 = 0) : (deviceChldRemove remove l s).1 = 0 := by
  induction l generalizing s with
  | nil => rfl
  | cons pos rest ih =>
    unfold deviceChldRemove
    dsimp only
    rw [if_neg (not_not_intro (hremove pos mem_cons_self s))]
    exact ih fun c hc => hremove c (mem_cons_of_mem _ hc)

namespace deviceRemove

lemma go_eq_zero (hquiet : ∀ y, Below t dev y → r .preRemove y = 0 ∧ r .remove y = 0 ∧ r .childPostRemove y = 0)
    : (go t r flags depth dev s).1 = 0 := by
  induction depth generalizing dev s with
  | zero => rfl
  | succ depth ih =>
    obtain ⟨hpre, hremove, hpost⟩ := hquiet dev .refl
    have hchildren : (deviceChldRemove (go t r flags depth) (t.children dev) s).1 = 0 := by
      apply deviceChldRemove_eq_zero
      intro c hc s
      apply ih
      intro y hy
      exact hquiet y (hy.of_child hc)
    unfold go
    dsimp only
    rw [hpre, hremove, hpost, hchildren]
    split
    . rfl
    rw [if_neg (by decide), if_neg (by decide), if_neg (by simp), ite_self]
    split
    . rfl
    . rfl

lemma self_removed {s1 : State} (hclosed : Closed t flags s) (hactive : s1 dev = true)
    (hchildren : Removed t flags (fun x => ∃ c ∈ t.children dev, Below t c x) s 0 s1) (ret : Int)
    : Removed t flags (Below t dev) s ret (if removes t flags dev then update s1 dev false else s1) := by
  have hframe (x : Nat) (hx : ¬Below t dev x) : s1 x = s x := by
    apply hchildren.frame
    rintro ⟨c, hc, hbelow⟩
    exact hx (hbelow.of_child hc)
  split
  . next hremoves =>
    have hmono (x : Nat) (hx : update s1 dev false x = true) : x ≠ dev ∧ s1 x = true := by
      rw [update_apply] at hx
      split at hx
      . contradiction
      . next hne => exact ⟨hne, hx⟩
    refine ⟨?_, ?_, ?_, ?_⟩
    . intro x hx
      rw [update_of_ne, hframe x hx]
      rintro rfl
      exact hx .refl
    . intro x hx
      exact hchildren.mono x (hmono x hx).2
    . intro _ x hbelow hx
      obtain ⟨hne, hx⟩ := hmono x hx
      rcases hbelow.cases_child with heq | hchild
      . contradiction
      . exact hchildren.removed rfl x hchild hx
    intro c hc hx p hp
    obtain ⟨hne, hc1⟩ := hmono c hx
    rw [update_of_ne]
    . exact hchildren.inv c hc hc1 p hp
    rintro rfl
    have hmem := mem_children.mpr ⟨hc, hp⟩
    have hnot := hchildren.removed rfl c ⟨c, hmem, .refl⟩ hc1
    rw [hclosed p c hmem (hchildren.mono c hc1) hremoves] at hnot
    contradiction
  next hremoves =>
  refine ⟨hframe, hchildren.mono, ?_, hchildren.inv⟩
  intro _ x hbelow hx
  rcases hbelow.cases_child with rfl | hchild
  . exact not_eq_true _ ▸ hremoves
  . exact hchildren.removed rfl x hchild hx

lemma go_removed (hloud : Loud t r) (hdepth : t.count ≤ dev + depth) (hdev : dev < t.count) (hinv : Inv t s)
    (hclosed : Closed t flags s)
    : Removed t flags (Below t dev) s (go t r flags depth dev s).1 (go t r flags depth dev s).2 := by
  induction depth generalizing dev s with
  | zero => omega
  | succ depth ih =>
    unfold go
    split
    . next hinactive =>
      rw [not_eq_true'] at hinactive
      refine ⟨fun _ _ => rfl, fun _ h => h, ?_, hinv⟩
      intro _ x hbelow hx
      have hx : s x = true := hx
      rw [hinv.below_inactive hinactive hbelow] at hx
      contradiction
    next hactive =>
    rw [not_eq_true', not_eq_false] at hactive
    split
    . next hpre => exact ⟨fun _ _ => rfl, fun _ h => h, fun h => absurd h hpre, hinv⟩
    have hchildren : Removed t flags (fun x => ∃ c ∈ t.children dev, Below t c x) s
        (deviceChldRemove (go t r flags depth) (t.children dev) s).1
        (deviceChldRemove (go t r flags depth) (t.children dev) s).2 := by
      apply deviceChldRemove_removed _ hinv hclosed
      intro c hc s hinv hclosed
      have := lt_of_mem_children hc
      exact ih (by omega) (mem_children.mp hc).1 hinv hclosed
    have hquiet (hzero : r .postProbe dev = 0)
        : (deviceChldRemove (go t r flags depth) (t.children dev) s).1 = 0 ∧ r .remove dev = 0 := by
      rcases hloud dev with hpost | hquiet
      . contradiction
      . refine ⟨deviceChldRemove_eq_zero fun c hc s => ?_, (hquiet dev .refl).2.1⟩
        exact go_eq_zero fun y hy => hquiet y (hy.of_child hc)
    generalize deviceChldRemove (go t r flags depth) (t.children dev) s = result at hchildren hquiet
    obtain ⟨ret, s1⟩ := result
    dsimp only at hchildren hquiet ⊢
    have hframe (x : Nat) (hx : ¬Below t dev x) : s1 x = s x := by
      apply hchildren.frame
      rintro ⟨c, hc, hbelow⟩
      exact hx (hbelow.of_child hc)
    have hactive1 : s1 dev = true := by
      rw [hchildren.frame, hactive]
      rintro ⟨c, hc, hbelow⟩
      have := lt_of_mem_children hc
      have := hbelow.le
      omega
    split
    . next hret =>
      exact ⟨hframe, hchildren.mono, fun hzero => absurd (hquiet hzero).1 hret, hchildren.inv⟩
    next hret =>
    rw [not_not.mp hret] at hchildren
    split
    . next hfail =>
      refine ⟨hframe, hchildren.mono, ?_, hchildren.inv⟩
      intro hzero
      rw [(hquiet hzero).2] at hfail
      simp at hfail
    have hself := self_removed hclosed hactive1 hchildren
      (if (t.parent dev).isSome = true then r .childPostRemove dev else 0)
    split
    . next hremoves => rwa [if_pos hremoves] at hself
    . next hremoves => rwa [if_neg hremoves] at hself

end deviceRemove

lemma deviceRemove_removed (hloud : Loud t r) (hdev : dev < t.count) (hinv : Inv t s) (hclosed : Closed t flags s)
    : Removed t flags (Below t dev) s (deviceRemove t r flags dev s).1 (deviceRemove t r flags dev s).2 :=
  deviceRemove.go_removed hloud (by omega) hdev hinv hclosed

lemma deviceRemove_leaf (hdev : dev < t.count) (hchildren : ∀ c ∈ t.children dev, s c = false)
    : ∃ active, (deviceRemove t r flags dev s).2 = update s dev active := by
  have hinactive (depth : Nat) (l : List Nat) (hl : ∀ c ∈ l, s c = false)
      : deviceChldRemove (deviceRemove.go t r flags depth) l s = (0, s) := by
    induction l with
    | nil => rfl
    | cons pos rest ih =>
      have hpos : deviceRemove.go t r flags depth pos s = (0, s) := by
        cases depth with
        | zero => rfl
        | succ depth =>
          unfold deviceRemove.go
          rw [hl pos mem_cons_self]
          rfl
      unfold deviceChldRemove
      rw [hpos]
      exact ih fun c hc => hl c (mem_cons_of_mem _ hc)
  obtain ⟨depth, hdepth⟩ : ∃ depth, t.count - dev = depth + 1 := ⟨t.count - dev - 1, by omega⟩
  unfold deviceRemove
  rw [hdepth]
  unfold deviceRemove.go
  rw [hinactive depth _ hchildren]
  dsimp only
  repeat' split
  all_goals first
    | exact ⟨s dev, (update_eq_self dev s).symm⟩
    | exact ⟨false, rfl⟩

lemma Inv.activate (hinv : Inv t s) (hparent : ∀ p, t.parent dev = some p → s p = true)
    : Inv t (update s dev true) := by
  intro c hc hactive p hp
  rw [update_apply]
  split
  . rfl
  rw [update_apply] at hactive
  split at hactive
  . next heq =>
    rw [heq] at hp
    exact hparent p hp
  . exact hinv c hc hactive p hp

namespace deviceProbe

lemma self_eq (hdev : dev < t.count) (hinv : Inv t s) (hinactive : s dev = false)
    : self t r dev s = (0, update s dev true) ∨ ∃ ret, ret ≠ 0 ∧ self t r dev s = (ret, s) := by
  have hfalse : update s dev false = s := by
    rw [← hinactive, update_eq_self]
  have hchildren : ∀ c ∈ t.children dev, update s dev true c = false := by
    intro c hc
    have := lt_of_mem_children hc
    rw [update_of_ne (by omega)]
    exact hinv.below_inactive hinactive (Below.of_child hc .refl)
  obtain ⟨active, hremove⟩ := deviceRemove_leaf hdev hchildren
  unfold self
  dsimp only
  rw [hremove]
  simp only [update_idem, hfalse]
  split
  . next h => exact .inr ⟨_, Int.ne_of_lt h, rfl⟩
  split
  . next h => exact .inr ⟨_, h, rfl⟩
  split
  . next h => exact .inr ⟨_, of_decide_eq_true (and_eq_true_iff.mp h).2, rfl⟩
  split
  . next h => exact .inr ⟨_, of_decide_eq_true (and_eq_true_iff.mp h).2, rfl⟩
  split
  . next h => exact .inr ⟨_, h, rfl⟩
  split
  . next h => exact .inr ⟨_, h, rfl⟩
  . split
    . next h => exact .inr ⟨_, h, rfl⟩
    . exact .inl rfl

structure Probed (t : DeviceTree) (dev : Nat) (s : State) (ret : Int) (s' : State) : Prop where
  inv : Inv t s'
  active : ret = 0 → s' dev = true
  frame : ∀ x, dev < x → s' x = s x

lemma self_probed (hdev : dev < t.count) (hinv : Inv t s) (hinactive : s dev = false)
    (hparent : ∀ p, t.parent dev = some p → s p = true)
    : Probed t dev s (self t r dev s).1 (self t r dev s).2 := by
  rcases self_eq hdev hinv hinactive with heq | ⟨ret, hne, heq⟩
  . rw [heq]
    refine ⟨hinv.activate hparent, fun _ => update_self _ _ _, ?_⟩
    intro x hx
    exact update_of_ne (by omega) _ _
  . rw [heq]
    exact ⟨hinv, fun hzero => absurd hzero hne, fun _ _ => rfl⟩

lemma go_probed {height : Nat} (hheight : dev < height) (hdev : dev < t.count) (hinv : Inv t s)
    : Probed t dev s (go t r height dev s).1 (go t r height dev s).2 := by
  induction height generalizing dev s with
  | zero => omega
  | succ height ih =>
    have hfail (s : State) (hinv : Inv t s) (hinactive : s dev = false) (ret : Int) (hne : ret ≠ 0)
        : Probed t dev s ret (update s dev false) := by
      have : update s dev false = s := by
        rw [← hinactive, update_eq_self]
      rw [this]
      exact ⟨hinv, fun hzero => absurd hzero hne, fun _ _ => rfl⟩
    unfold go
    split
    . next hactive => exact ⟨hinv, fun _ => hactive, fun _ _ => rfl⟩
    next hinactive =>
    rw [not_eq_true] at hinactive
    split
    . exact hfail s hinv hinactive (-enomem) (by decide)
    split
    . next hnone =>
      apply self_probed hdev hinv hinactive
      intro p hp
      rw [hnone] at hp
      contradiction
    next p hsome =>
    split
    . exact hfail s hinv hinactive (-enomem) (by decide)
    have hlt := t.parent_lt dev p hsome
    have hparent := @ih s p (by omega) (by omega) hinv
    generalize go t r height p s = result at hparent
    obtain ⟨ret, s1⟩ := result
    dsimp only at hparent ⊢
    have hinactive1 : s1 dev = false := by
      rw [hparent.frame dev hlt, hinactive]
    have hlater {ret' : Int} {s' : State} (h : Probed t dev s1 ret' s') : Probed t dev s ret' s' := by
      refine ⟨h.inv, h.active, ?_⟩
      intro x hx
      rw [h.frame x hx, hparent.frame x (by omega)]
    split
    . next hne => exact hlater (hfail s1 hparent.inv hinactive1 ret hne)
    next hzero =>
    split
    . next hactive =>
      rw [hinactive1] at hactive
      contradiction
    apply hlater
    apply self_probed hdev hparent.inv hinactive1
    intro q hq
    rw [hsome, Option.some.injEq] at hq
    rw [← hq]
    exact hparent.active (not_not.mp hzero)

end deviceProbe

lemma deviceProbe_inv (hdev : dev < t.count) (hinv : Inv t s) : Inv t (deviceProbe t r dev s).2 :=
  (deviceProbe.go_probed (Nat.lt_succ_self dev) hdev hinv).inv

def Call.Cond (t : DeviceTree) (r : Results) (s : State) : Call → Prop
  | .probe _ => True
  | .remove _ flags => Loud t r ∧ Closed t flags s

inductive Trace (t : DeviceTree) (P : Results → State → Call → Prop) : State → Prop where
  | init : Trace t P fun _ => false
  | call {s : State} {r : Results} {call : Call} : Trace t P s → call.dev < t.count → P r s call →
      Trace t P (call.run t r s).2

lemma Call.run_inv {call : Call} (hdev : call.dev < t.count) (hcond : call.Cond t r s) (hinv : Inv t s)
    : Inv t (call.run t r s).2 := by
  cases call with
  | probe dev => exact deviceProbe_inv hdev hinv
  | remove dev flags => exact (deviceRemove_removed hcond.1 hdev hinv hcond.2).inv

lemma Trace.inv (h : Trace t (fun r s call => call.Cond t r s) s) : Inv t s := by
  induction h with
  | init =>
    intro c _ hactive
    contradiction
  | call _ hdev hcond ih => exact Call.run_inv hdev hcond ih

lemma removes_dmRemoveNormal : removes t dmRemoveNormal dev = true := by
  unfold removes
  rw [or_eq_true]
  exact .inl (by decide)

theorem activation_hierarchical (h : Trace t (fun r s call => call.Cond t r s) s)
    : Inv t s
      ∧ ∀ r, ∀ dev < t.count, (Call.remove dev dmRemoveNormal).Cond t r s →
        (deviceRemove t r dmRemoveNormal dev s).1 = 0 →
        ∀ y, Below t dev y → (deviceRemove t r dmRemoveNormal dev s).2 y = false := by
  refine ⟨h.inv, ?_⟩
  intro r dev hdev hcond hret y hbelow
  have hremoved := deviceRemove_removed hcond.1 hdev h.inv hcond.2
  by_contra hactive
  rw [not_eq_false] at hactive
  have hnot := hremoved.removed hret y hbelow hactive
  contradiction

namespace Sample

def tree : DeviceTree where
  count := 2
  parent := fun dev => if dev = 1 then some 0 else none
  driverFlags := fun dev => if dev = 0 then dmFlagActiveDma else 0
  parent_lt := by
    intro dev p h
    split at h
    . cases h
      omega
    . contradiction

def good : Results := fun _ _ => 0

def stuck : Results := fun callback dev => if callback = .remove ∧ dev = 1 then -5 else 0

def probed : State := ((Call.probe 1).run tree good fun _ => false).2

lemma probed_trace {P : Results → State → Call → Prop} (h : P good (fun _ => false) (.probe 1)) : Trace tree P probed :=
  .call .init (by decide) h

lemma good_loud : Loud tree good := fun _ => .inr fun _ _ => ⟨rfl, rfl, rfl⟩

lemma closed_normal (s : State) : Closed tree dmRemoveNormal s := fun _ _ _ _ _ => removes_dmRemoveNormal

end Sample

open Sample

theorem activation_hierarchical_child
    : Inv Sample.tree ((Call.remove 1 dmRemoveNormal).run Sample.tree Sample.good Sample.probed).2
      ∧ (deviceRemove Sample.tree Sample.good dmRemoveNormal 0 Sample.probed).1 = 0
      ∧ (deviceRemove Sample.tree Sample.good dmRemoveNormal 0 Sample.probed).2 1 = false
      ∧ Sample.probed 1 = true := by
  have htrace := @probed_trace (fun r s call => call.Cond tree r s) trivial
  have hcond (dev : Nat) : (Call.remove dev dmRemoveNormal).Cond tree good probed := ⟨good_loud, closed_normal _⟩
  refine ⟨?_, by decide, ?_, by decide⟩
  . exact (activation_hierarchical (.call htrace (by decide) (hcond 1))).1
  . apply (activation_hierarchical htrace).2 good 0 (by decide) (hcond 0) (by decide)
    exact Relation.ReflTransGen.single ⟨rfl, by decide⟩

/--
The error of the child is lost: the call returns 0 with the child active and its parent not. The same is left by a removal
for active DMA without any error.
-/
theorem not_hierarchical_stuck
    : (∃ s, Trace Sample.tree (fun _ _ _ => True) s
        ∧ (deviceRemove Sample.tree Sample.stuck dmRemoveNormal 0 s).1 = 0
        ∧ (deviceRemove Sample.tree Sample.stuck dmRemoveNormal 0 s).2 1 = true
        ∧ ¬Inv Sample.tree (deviceRemove Sample.tree Sample.stuck dmRemoveNormal 0 s).2)
      ∧ ∃ s, Trace Sample.tree (fun _ _ _ => True) s
        ∧ ¬Inv Sample.tree (deviceRemove Sample.tree Sample.good dmFlagActiveDma 0 s).2 := by
  have htrace := @probed_trace (fun _ _ _ => True) trivial
  constructor
  . refine ⟨probed, htrace, by decide, by decide, ?_⟩
    intro h
    have := h 1 (by decide) (by decide) 0 rfl
    revert this
    decide
  refine ⟨probed, htrace, ?_⟩
  intro h
  have := h 1 (by decide) (by decide) 0 rfl
  revert this
  decide

end UBoot.Device
