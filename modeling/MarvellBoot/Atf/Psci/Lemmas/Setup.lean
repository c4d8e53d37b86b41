import MarvellBoot.Atf.Psci.Setup

namespace Atf.Psci

open List Nat

variable {count : Nat} {t : Topology}

namespace populatePowerDomainTree

variable {c : PlatformDef} {topology : Nat → UInt8} {level n : Nat} {acc acc' : Acc}

def link (level : Nat) (s : PdNodes) (k : Nat) : Nat :=
  if 0 < level then (s.nonCpu k).parentNode else (s.cpu k).parentNode

section Children

variable {parent j k : Nat} {s : PdNodes}

lemma psciInitPwrDomainNode_of_ne (h : k ≠ j)
    : (psciInitPwrDomainNode c s j parent level).nonCpu k = s.nonCpu k
      ∧ (psciInitPwrDomainNode c s j parent level).cpu k = s.cpu k := by
  unfold psciInitPwrDomainNode
  split
  . exact ⟨Function.update_of_ne h _ _, rfl⟩
  . exact ⟨rfl, Function.update_of_ne h _ _⟩

lemma children_of_lt (h : k < j)
    : (children c parent level n j s).nonCpu k = s.nonCpu k ∧ (children c parent level n j s).cpu k = s.cpu k := by
  induction n generalizing j s with
  | zero => exact ⟨rfl, rfl⟩
  | succ n ih =>
    have hne := @psciInitPwrDomainNode_of_ne c level parent j k s (by omega)
    have hrest := @ih (j + 1) (psciInitPwrDomainNode c s j parent level) (by omega)
    exact ⟨hrest.1.trans hne.1, hrest.2.trans hne.2⟩

lemma nonCpu_children_zero : (children c parent 0 n j s).nonCpu = s.nonCpu := by
  induction n generalizing j s with
  | zero => rfl
  | succ n ih =>
    rw [children, ih]
    rfl

lemma children_of_mem (hle : j ≤ k) (hlt : k < j + n)
    : link level (children c parent level n j s) k = parent
      ∧ (0 < level → ((children c parent level n j s).nonCpu k).level = level % 256) := by
  induction n generalizing j s with
  | zero => omega
  | succ n ih =>
    rw [children]
    by_cases heq : k = j
    . have hrest := @children_of_lt c level n parent (j + 1) k (psciInitPwrDomainNode c s j parent level) (by omega)
      unfold link
      rw [hrest.1, hrest.2, heq]
      unfold psciInitPwrDomainNode
      split <;> simp
      omega
    . exact ih (by omega) (by omega)

end Children

structure Placed (topology : Nat → UInt8) (level n : Nat) (acc acc' : Acc) : Prop where
  parentNodeIndex : acc'.parentNodeIndex = acc.parentNodeIndex + n
  nodeIndex : acc'.nodeIndex
    = acc.nodeIndex + ((List.range n).map fun i => (topology (acc.parentNodeIndex + i)).toNat).sum
  numNodesAtNextLvl : acc'.numNodesAtNextLvl
    = acc.numNodesAtNextLvl + ((List.range n).map fun i => (topology (acc.parentNodeIndex + i)).toNat).sum
  frame : ∀ k < acc.nodeIndex, acc'.nodes.nonCpu k = acc.nodes.nonCpu k ∧ acc'.nodes.cpu k = acc.nodes.cpu k
  nonCpu : level = 0 → acc'.nodes.nonCpu = acc.nodes.nonCpu
  placed : ∃ entry : Nat → Nat,
    (∀ k, acc.nodeIndex ≤ k → k < acc'.nodeIndex →
      acc.parentNodeIndex ≤ entry k ∧ entry k < acc.parentNodeIndex + n
        ∧ link level acc'.nodes k = parentIdx (entry k)
        ∧ (0 < level → (acc'.nodes.nonCpu k).level = level % 256))
    ∧ ∀ k k', acc.nodeIndex ≤ k → k ≤ k' → k' < acc'.nodeIndex → entry k ≤ entry k'

lemma sum_range_succ (f : Nat → Nat) (n : Nat)
    : ((range (n + 1)).map f).sum = f 0 + ((range n).map fun i => f (i + 1)).sum := by
  rw [range_succ_eq_map, map_cons, sum_cons, map_map]
  rfl

lemma parents_placed (h : parents c topology level n acc = some acc') : Placed topology level n acc acc' := by
  induction n generalizing acc with
  | zero =>
    rw [parents, Option.some.injEq] at h
    rw [← h]
    refine ⟨rfl, rfl, rfl, fun _ _ => ⟨rfl, rfl⟩, fun _ => rfl, fun _ => 0, ?_, ?_⟩
    . omega
    . omega
  | succ n ih =>
    rw [parents] at h
    split at h
    . have hrest := ih h
      have ⟨entry, hentry, hmono⟩ := hrest.placed
      generalize hnum : (topology acc.parentNodeIndex).toNat = numChildren at hrest hentry hmono
      have hsum := sum_range_succ (fun i => (topology (acc.parentNodeIndex + i)).toNat) n
      have hshift : (fun i => (topology (acc.parentNodeIndex + (i + 1))).toNat)
          = fun i => (topology (acc.parentNodeIndex + 1 + i)).toNat := by
        funext i
        rw [show acc.parentNodeIndex + (i + 1) = acc.parentNodeIndex + 1 + i by omega]
      simp only [Nat.add_zero, hnum, hshift] at hsum
      have hindex := hrest.nodeIndex
      have hnext := hrest.numNodesAtNextLvl
      have hparent := hrest.parentNodeIndex
      simp only [parent] at hindex hnext hparent hentry hmono
      refine ⟨?_, ?_, ?_, ?_, ?_, ?_⟩
      . omega
      . rw [hsum]
        omega
      . rw [hsum]
        omega
      . intro k hk
        have hframe := hrest.frame k (by simp only [parent]; omega)
        have hchildren := @children_of_lt c level numChildren (parentIdx acc.parentNodeIndex) _ k acc.nodes hk
        exact ⟨hframe.1.trans hchildren.1, hframe.2.trans hchildren.2⟩
      . intro hzero
        rw [hrest.nonCpu hzero, hzero]
        exact nonCpu_children_zero
      refine ⟨fun k => if k < acc.nodeIndex + numChildren then acc.parentNodeIndex else entry k, ?_, ?_⟩
      . intro k hk hk'
        dsimp only
        split
        . next hlt =>
          have hframe := hrest.frame k (by simp only [parent]; omega)
          have hchild := @children_of_mem c level _ (parentIdx acc.parentNodeIndex) _ k acc.nodes hk hlt
          unfold link at hchild ⊢
          rw [hframe.1, hframe.2]
          exact ⟨by omega, by omega, hchild⟩
        . have := hentry k (by omega) hk'
          omega
      intro k k' hk hle hk'
      dsimp only
      split
      . split
        . omega
        . have := hentry k' (by omega) hk'
          omega
      . rw [if_neg (by omega)]
        exact hmono k k' (by omega) hle hk'
    . cases h

lemma first_pos (topology : Nat → UInt8) (depth : Nat) : 1 ≤ (entries topology (depth + 1)).1 := by
  induction depth with
  | zero => exact Nat.le_refl 1
  | succ depth ih =>
    rw [entries]
    dsimp only
    omega

structure Above (c : PlatformDef) (level first count : Nat) (s : PdNodes) : Prop where
  level_gt : ∀ k, k + 1 < first + count → level < (s.nonCpu k).level ∧ (s.nonCpu k).level ≤ c.maxPwrLvl
  last : ∀ k, k + 1 < first + count → first ≤ k + 1 → (s.nonCpu k).level = level + 1
  root : ∀ k, k + 1 < first + count → (s.nonCpu k).level = c.maxPwrLvl → (s.nonCpu k).parentNode = invalidNode
  inner : ∀ k, k + 1 < first + count → (s.nonCpu k).level < c.maxPwrLvl →
    (s.nonCpu k).parentNode + 1 < first + count ∧ (s.nonCpu (s.nonCpu k).parentNode).level = (s.nonCpu k).level + 1
  mono : ∀ k k', k ≤ k' → k' + 1 < first + count → (s.nonCpu k).level = (s.nonCpu k').level →
    (s.nonCpu k).level < c.maxPwrLvl → (s.nonCpu k).parentNode ≤ (s.nonCpu k').parentNode

structure Built (c : PlatformDef) (topology : Nat → UInt8) (level count : Nat) (acc : Acc) : Prop where
  level_le : level ≤ c.maxPwrLvl
  entries_eq : entries topology (c.maxPwrLvl - level) = (acc.parentNodeIndex, count)
  nodeIndex : level ≠ 0 → acc.nodeIndex + 1 = acc.parentNodeIndex + count
  nodeIndex_cpu : level = 0 → acc.nodeIndex = 0
  above : Above c level acc.parentNodeIndex count acc.nodes

lemma Built.pos (h : Built c topology level count acc) (hlt : level < c.maxPwrLvl) : 1 ≤ acc.parentNodeIndex := by
  have hfirst := first_pos topology (c.maxPwrLvl - level - 1)
  rw [show c.maxPwrLvl - level - 1 + 1 = c.maxPwrLvl - level by omega, h.entries_eq] at hfirst
  exact hfirst

lemma Built.entries_next (h : Built c topology level count acc)
    (hplaced : Placed topology level count { acc with numNodesAtNextLvl := 0 } acc')
    : entries topology (c.maxPwrLvl - level + 1) = (acc'.parentNodeIndex, acc'.numNodesAtNextLvl) := by
  rw [entries, h.entries_eq, hplaced.parentNodeIndex, hplaced.numNodesAtNextLvl]
  rw [Nat.zero_add]

lemma parentIdx_of_pos {k : Nat} (h : 1 ≤ k) : parentIdx k = k - 1 := by
  unfold parentIdx
  rw [if_neg (by omega)]

lemma Built.parent_placed {k entry : Nat} (h : Built c topology level count acc)
    (hle : acc.parentNodeIndex ≤ entry) (hlt : entry < acc.parentNodeIndex + count)
    (hlink : k = parentIdx entry)
    : (level = c.maxPwrLvl → k = invalidNode)
      ∧ (level < c.maxPwrLvl → k + 1 = entry ∧ (acc.nodes.nonCpu k).level = level + 1) := by
  constructor
  . intro htop
    have hentries := h.entries_eq
    rw [htop, Nat.sub_self, entries, Prod.mk.injEq] at hentries
    rw [hlink, parentIdx, if_pos (by omega)]
  intro hinner
  have hpos := h.pos hinner
  rw [parentIdx_of_pos (by omega)] at hlink
  refine ⟨by omega, ?_⟩
  apply h.above.last
  . omega
  . omega

lemma built_next (h : Built c topology (level + 1) count acc)
    (hplaced : Placed topology (level + 1) count { acc with numNodesAtNextLvl := 0 } acc')
    : Built c topology level acc'.numNodesAtNextLvl
        { acc' with nodeIndex := if level + 1 = 1 then 0 else acc'.nodeIndex } := by
  have hlevel := h.level_le
  have hindex := h.nodeIndex (by omega)
  have hfirst : acc'.parentNodeIndex = acc.parentNodeIndex + count := hplaced.parentNodeIndex
  have hnext : acc'.nodeIndex = acc.nodeIndex + acc'.numNodesAtNextLvl := by
    rw [hplaced.nodeIndex, hplaced.numNodesAtNextLvl]
    dsimp only
    omega
  have ⟨entry, hentry, hmono⟩ := hplaced.placed
  have hold : ∀ k, k + 1 < acc'.parentNodeIndex → acc'.nodes.nonCpu k = acc.nodes.nonCpu k := by
    intro k hk
    have hlt : k < acc.nodeIndex := by omega
    exact (hplaced.frame k hlt).1
  have hnew : ∀ k, acc'.parentNodeIndex ≤ k + 1 → k + 1 < acc'.parentNodeIndex + acc'.numNodesAtNextLvl →
      (acc'.nodes.nonCpu k).level = level + 1
        ∧ (level + 1 = c.maxPwrLvl → (acc'.nodes.nonCpu k).parentNode = invalidNode)
        ∧ (level + 1 < c.maxPwrLvl → (acc'.nodes.nonCpu k).parentNode + 1 = entry k
          ∧ entry k < acc'.parentNodeIndex
          ∧ (acc'.nodes.nonCpu (acc'.nodes.nonCpu k).parentNode).level = level + 2) := by
    intro k hk hk'
    have hbelow : acc.nodeIndex ≤ k := by omega
    have ⟨hle, hlt, hlink, hlev⟩ := hentry k hbelow (by omega)
    have ⟨hroot, hinner⟩ := h.parent_placed hle hlt hlink
    have hlink' : link (level + 1) acc'.nodes k = (acc'.nodes.nonCpu k).parentNode := if_pos (succ_pos _)
    refine ⟨?_, hroot, ?_⟩
    . rw [hlev (succ_pos _)]
      have := c.maxPwrLvl_lt
      omega
    intro hmax
    have ⟨heq, hparent⟩ := hinner hmax
    have hlt' : entry k < acc'.parentNodeIndex := by
      rw [hfirst]
      exact hlt
    refine ⟨heq, hlt', ?_⟩
    rw [hold _ (by omega)]
    exact hparent
  refine ⟨by omega, ?_, ?_, ?_, ?_, ?_, ?_, ?_, ?_⟩
  . rw [← h.entries_next hplaced]
    congr 1
    omega
  . intro hne
    dsimp only
    rw [if_neg (by omega)]
    omega
  . intro hzero
    rw [if_pos (by omega)]
  . intro k hk
    by_cases hk' : k + 1 < acc'.parentNodeIndex
    . have := h.above.level_gt k (by omega)
      rw [hold k hk']
      omega
    . have := (hnew k (by omega) hk).1
      dsimp only
      omega
  . intro k hk hk'
    exact (hnew k hk' hk).1
  . intro k hk htop
    dsimp only at htop ⊢
    by_cases hk' : k + 1 < acc'.parentNodeIndex
    . rw [hold k hk'] at htop ⊢
      exact h.above.root k (by omega) htop
    . have ⟨hlev, hroot, _⟩ := hnew k (by omega) hk
      exact hroot (by omega)
  . intro k hk hinner
    dsimp only at hinner ⊢
    by_cases hk' : k + 1 < acc'.parentNodeIndex
    . rw [hold k hk'] at hinner ⊢
      have ⟨hlt, hparent⟩ := h.above.inner k (by omega) hinner
      rw [hold _ (by omega)]
      exact ⟨by omega, hparent⟩
    . have ⟨hlev, _, hparent⟩ := hnew k (by omega) hk
      exact ⟨by omega, by omega⟩
  intro k k' hle hk hsame hinner
  dsimp only at hk hsame hinner ⊢
  by_cases hk' : k' + 1 < acc'.parentNodeIndex
  . rw [hold k' hk', hold k (by omega)] at hsame ⊢
    rw [hold k (by omega)] at hinner
    exact h.above.mono k k' hle (by omega) hsame hinner
  have ⟨hlev', _, hparent'⟩ := hnew k' (by omega) hk
  by_cases hk'' : k + 1 < acc'.parentNodeIndex
  . have := h.above.level_gt k (by omega)
    rw [hold k hk''] at hsame
    omega
  have ⟨hlev, _, hparent⟩ := hnew k (by omega) (by omega)
  have hentries := hmono k k' (by dsimp only; omega) hle (by omega)
  omega

structure Done (c : PlatformDef) (topology : Nat → UInt8) (s : PdNodes) : Prop where
  above : Above c 0 (entries topology c.maxPwrLvl).1 (entries topology c.maxPwrLvl).2 s
  cpu : 0 < c.maxPwrLvl → ∀ k < cpuCount topology c.maxPwrLvl,
    (s.cpu k).parentNode + 1 < (entries topology c.maxPwrLvl).1 + (entries topology c.maxPwrLvl).2
      ∧ (s.nonCpu (s.cpu k).parentNode).level = 1
  cpu_mono : 0 < c.maxPwrLvl → ∀ k k', k ≤ k' → k' < cpuCount topology c.maxPwrLvl →
    (s.cpu k).parentNode ≤ (s.cpu k').parentNode

lemma done_cpus (h : Built c topology 0 count acc)
    (hplaced : Placed topology 0 count { acc with numNodesAtNextLvl := 0 } acc')
    : Done c topology acc'.nodes := by
  have hentries : entries topology c.maxPwrLvl = (acc.parentNodeIndex, count) := h.entries_eq
  have hnext := h.entries_next hplaced
  rw [Nat.sub_zero] at hnext
  have hcount : cpuCount topology c.maxPwrLvl = acc'.numNodesAtNextLvl := by rw [cpuCount, hnext]
  have hindex : acc'.nodeIndex = acc'.numNodesAtNextLvl := by
    rw [hplaced.nodeIndex, hplaced.numNodesAtNextLvl]
    rw [h.nodeIndex_cpu rfl]
  have hsame : acc'.nodes.nonCpu = acc.nodes.nonCpu := hplaced.nonCpu rfl
  have ⟨entry, hentry, hmono⟩ := hplaced.placed
  have hzero : ∀ k, acc.nodeIndex ≤ k := by
    intro k
    rw [h.nodeIndex_cpu rfl]
    exact Nat.zero_le _
  have hparent : 0 < c.maxPwrLvl → ∀ k < cpuCount topology c.maxPwrLvl,
      (acc'.nodes.cpu k).parentNode + 1 = entry k ∧ entry k < acc.parentNodeIndex + count
        ∧ (acc.nodes.nonCpu (acc'.nodes.cpu k).parentNode).level = 1 := by
    intro hpos k hk
    have ⟨hle, hlt, hlink, _⟩ := hentry k (hzero k) (by omega)
    have ⟨heq, hlevel⟩ := (h.parent_placed hle hlt hlink).2 hpos
    exact ⟨heq, hlt, hlevel⟩
  refine ⟨?_, ?_, ?_⟩
  . rw [hentries]
    have ⟨h₁, h₂, h3, h4, h5⟩ := h.above
    refine ⟨?_, ?_, ?_, ?_, ?_⟩
    all_goals rw [hsame]
    all_goals assumption
  . intro hpos k hk
    have ⟨heq, hlt, hlevel⟩ := hparent hpos k hk
    rw [hentries, hsame]
    exact ⟨by dsimp only; omega, hlevel⟩
  intro hpos k k' hle hk'
  have hk := hparent hpos k (by omega)
  have hk' := hparent hpos k' hk'
  have := hmono k k' (hzero k) hle (by omega)
  omega

lemma levels_done (h : levels c topology (level + 1) count acc = some acc')
    (hbuilt : Built c topology level count acc)
    : Done c topology acc'.nodes := by
  induction level generalizing acc count with
  | zero =>
    rw [levels] at h
    split at h
    . cases h
    . next acc1 hparents =>
      cases h
      exact done_cpus hbuilt (parents_placed hparents)
  | succ level ih =>
    rw [levels] at h
    split at h
    . cases h
    . next acc1 hparents => exact ih h (built_next hbuilt (parents_placed hparents))

lemma built_init : Built c topology c.maxPwrLvl 1 init := by
  refine ⟨Nat.le_refl _, ?_, fun _ => rfl, fun _ => rfl, ?_⟩
  . rw [Nat.sub_self]
    rfl
  constructor
  all_goals
    simp only [init]
    omega

end populatePowerDomainTree

lemma populatePowerDomainTree_done {c : PlatformDef} {topology : Nat → UInt8} {s : PdNodes}
    (h : populatePowerDomainTree c topology = some s)
    : populatePowerDomainTree.Done c topology s := by
  unfold populatePowerDomainTree at h
  split at h
  . cases h
  next acc hlevels =>
  split at h
  . cases h
    exact populatePowerDomainTree.levels_done hlevels populatePowerDomainTree.built_init
  . cases h

lemma psciGetParentPwrDomainNodes_go (t : Topology) (n parentNode : Nat)
    : psciGetParentPwrDomainNodes.go t n parentNode = (range n).map fun i => t.parent^[i] parentNode := by
  induction n generalizing parentNode with
  | zero => rfl
  | succ n ih =>
    rw [psciGetParentPwrDomainNodes.go, ih, range_succ_eq_map, map_cons, map_map]
    rfl

lemma psciGetParentPwrDomainNodes_eq (t : Topology) (cpu n : Nat)
    : psciGetParentPwrDomainNodes t cpu n = (range n).map fun i => t.ancestor cpu (i + 1) :=
  psciGetParentPwrDomainNodes_go t n _

lemma mem_psciGetParentPwrDomainNodes {cpu n node : Nat}
    : node ∈ psciGetParentPwrDomainNodes t cpu n ↔ ∃ lvl, 1 ≤ lvl ∧ lvl ≤ n ∧ t.ancestor cpu lvl = node := by
  rw [psciGetParentPwrDomainNodes_eq, mem_map]
  constructor
  . intro ⟨i, hi, heq⟩
    rw [mem_range] at hi
    exact ⟨i + 1, by omega, by omega, heq⟩
  intro ⟨lvl, hpos, hle, heq⟩
  refine ⟨lvl - 1, mem_range.mpr (by omega), ?_⟩
  exact heq

namespace populatePowerDomainTree.Done

variable {c : PlatformDef} {topology : Nat → UInt8} {s : PdNodes} {cpu lvl : Nat}

def numNodes (c : PlatformDef) (topology : Nat → UInt8) : Nat :=
  (entries topology c.maxPwrLvl).1 + (entries topology c.maxPwrLvl).2 - 1

lemma ancestor (h : Done c topology s) (hcpu : cpu < cpuCount topology c.maxPwrLvl) (hlvl : 1 ≤ lvl)
    (hle : lvl ≤ c.maxPwrLvl)
    : (s.topology c).ancestor cpu lvl < numNodes c topology
      ∧ (s.nonCpu ((s.topology c).ancestor cpu lvl)).level = lvl := by
  unfold numNodes
  induction lvl with
  | zero => omega
  | succ lvl ih =>
    by_cases hzero : lvl = 0
    . have ⟨hlt, hlevel⟩ := h.cpu (by omega) cpu hcpu
      rw [hzero]
      exact ⟨lt_sub_of_add_lt hlt, hlevel⟩
    have ⟨hlt, hlevel⟩ := ih (by omega) (by omega)
    have ⟨hlt', hlevel'⟩ := h.above.inner ((s.topology c).ancestor cpu lvl) (by omega) (by omega)
    rw [hlevel] at hlevel'
    rw [Topology.ancestor_succ (by omega)]
    exact ⟨lt_sub_of_add_lt hlt', hlevel'⟩

lemma ancestor_mono (h : Done c topology s) {cpu' : Nat} (hle : cpu ≤ cpu')
    (hcpu : cpu' < cpuCount topology c.maxPwrLvl) (hlvl : 1 ≤ lvl) (hmax : lvl ≤ c.maxPwrLvl)
    : (s.topology c).ancestor cpu lvl ≤ (s.topology c).ancestor cpu' lvl := by
  induction lvl with
  | zero => omega
  | succ lvl ih =>
    by_cases hzero : lvl = 0
    . rw [hzero]
      exact h.cpu_mono (by omega) cpu cpu' hle hcpu
    have ⟨hlt, hlevel⟩ := @ancestor _ _ _ cpu lvl h (by omega) (by omega) (by omega)
    have ⟨hlt', hlevel'⟩ := @ancestor _ _ _ _ lvl h hcpu (by omega) (by omega)
    unfold numNodes at hlt hlt'
    rw [Topology.ancestor_succ (by omega), Topology.ancestor_succ (by omega)]
    exact h.above.mono _ _ (ih (by omega) (by omega)) (by omega) (by omega) (by omega)

def tree (h : Done c topology s) (hcpus : cpuCount topology c.maxPwrLvl = c.coreCount) (hpos : 0 < c.maxPwrLvl)
    : Tree where
  toTopology := s.topology c
  level node := if node < numNodes c topology then (s.nonCpu node).level else c.maxPwrLvl
  level_cpuParent := by
    intro cpu hcpu
    have hcpu : cpu < c.coreCount := hcpu
    have ⟨hlt, hlevel⟩ := @ancestor _ _ _ cpu 1 h (by omega) (by omega) hpos
    exact (if_pos hlt).trans hlevel
  level_parent := by
    intro node hnode
    split at hnode
    . next hlt =>
      have hplaced : node + 1 < (entries topology c.maxPwrLvl).1 + (entries topology c.maxPwrLvl).2 := by
        unfold numNodes at hlt
        omega
      have ⟨hlt', hlevel⟩ := h.above.inner node hplaced hnode
      have hlt' : (s.topology c).parent node < numNodes c topology := Nat.lt_sub_of_add_lt hlt'
      rw [if_pos hlt', if_pos hlt]
      exact hlevel
    . exact absurd hnode (Nat.lt_irrefl _)
  adjacent := by
    intro lvl i j k hlvl hmax hij hjk hk hsame
    have hk : k < c.coreCount := hk
    have h₁ := h.ancestor_mono hij (by omega) hlvl hmax
    have h₂ := h.ancestor_mono hjk (by omega) hlvl hmax
    omega

end populatePowerDomainTree.Done

lemma ncpus_of_no_level (hzero : t.maxPwrLvl = 0) (n node : Nat)
    : (psciUpdatePwrlvlLimits.cpus t n).limits.ncpus node = 0 := by
  induction n with
  | zero => rfl
  | succ n ih =>
    rw [psciUpdatePwrlvlLimits.cpus, hzero]
    exact ih

open populatePowerDomainTree in
theorem populate_limits (c : PlatformDef) (topology : Nat → UInt8) (s : PdNodes)
    (h : populatePowerDomainTree c topology = some s)
    (hcpus : cpuCount topology c.maxPwrLvl = c.coreCount)
    : let t := s.topology c
      let chain cpu := psciGetParentPwrDomainNodes t cpu c.maxPwrLvl
      let limits := psciUpdatePwrlvlLimits t
      (∀ cpu < c.coreCount,
        (chain cpu).map (fun node => (s.nonCpu node).level) = List.range' 1 c.maxPwrLvl
          ∧ ∀ root ∈ (chain cpu).getLast?, (s.nonCpu root).parentNode = invalidNode)
      ∧ ∀ node i, limits.cpuStartIdx node ≤ i ∧ i < limits.cpuStartIdx node + limits.ncpus node
        ↔ i < c.coreCount ∧ node ∈ chain i := by
  have hdone := populatePowerDomainTree_done h
  dsimp only
  constructor
  . intro cpu hcpu
    rw [psciGetParentPwrDomainNodes_eq]
    constructor
    . rw [map_map, range'_eq_map_range]
      apply map_congr_left
      intro i hi
      rw [mem_range] at hi
      dsimp only [Function.comp]
      rw [(hdone.ancestor (by omega) (by omega) (by omega)).2]
      omega
    intro root hroot
    rw [getLast?_map, Option.mem_def, Option.map_eq_some_iff] at hroot
    have ⟨i, hi, heq⟩ := hroot
    rw [getLast?_range] at hi
    split at hi
    . cases hi
    next hne =>
    have hi : c.maxPwrLvl - 1 = i := Option.some.inj hi
    have ⟨hlt, hlevel⟩ := @Done.ancestor _ _ _ cpu c.maxPwrLvl hdone (by omega) (by omega) (by omega)
    have hsucc : i + 1 = c.maxPwrLvl := by omega
    rw [← heq, hsucc]
    unfold Done.numNodes at hlt
    exact hdone.above.root _ (by omega) hlevel
  intro node i
  rw [mem_psciGetParentPwrDomainNodes]
  by_cases hpos : 0 < c.maxPwrLvl
  . let t := hdone.tree hcpus hpos
    by_cases hseen : ∃ cpu lvl, cpu < c.coreCount ∧ 1 ≤ lvl ∧ lvl ≤ c.maxPwrLvl ∧ (s.topology c).ancestor cpu lvl = node
    . have ⟨cpu, lvl, hcpu, hlvl, hle, hnode⟩ := hseen
      rw [← hnode]
      refine Iff.trans (@mem_limits_iff t _ _ hcpu hlvl hle i) (and_congr_right fun hi => ?_)
      have hi : i < c.coreCount := hi
      constructor
      . intro hsame
        exact ⟨lvl, hlvl, hle, hsame⟩
      intro ⟨lvl', hlvl', hle', hsame⟩
      have hlevel := (@Done.ancestor _ _ _ cpu _ hdone (by omega) hlvl hle).2
      have hlevel' := (@Done.ancestor _ _ _ i _ hdone (by omega) hlvl' hle').2
      rw [hsame, hlevel] at hlevel'
      rw [← hlevel'] at hsame
      exact hsame
    have hlevel : 1 ≤ t.level node ∧ t.level node ≤ c.maxPwrLvl := by
      have hif : t.level node = if node < Done.numNodes c topology then (s.nonCpu node).level else c.maxPwrLvl := rfl
      rw [hif]
      split
      . next hlt =>
        unfold Done.numNodes at hlt
        exact hdone.above.level_gt node (by omega)
      . exact ⟨hpos, Nat.le_refl _⟩
    have hinv := @psciUpdatePwrlvlLimits.cpus_inv t _ (Nat.le_refl _) (t.level node) hlevel.1 hlevel.2
    have hfresh : (psciUpdatePwrlvlLimits (s.topology c)).ncpus node = 0 := by
      apply hinv.fresh node rfl
      intro cpu hcpu hsame
      exact hseen ⟨cpu, t.level node, hcpu, hlevel.1, hlevel.2, hsame⟩
    constructor
    . omega
    . intro ⟨hi, lvl, hlvl, hle, hsame⟩
      exact absurd ⟨i, lvl, hi, hlvl, hle, hsame⟩ hseen
  have hnone : (psciUpdatePwrlvlLimits (s.topology c)).ncpus node = 0 := by
    apply ncpus_of_no_level
    exact Nat.eq_zero_of_not_pos hpos
  constructor
  . omega
  . intro ⟨_, lvl, hlvl, hle, _⟩
    omega

def twoClusters (i : Nat) : UInt8 := if i = 0 then 1 else if i ≤ 3 then 2 else 0

def twoClustersDef : PlatformDef := ⟨4, 3, 2, 2, by decide⟩

theorem populate_limits_twoClusters
    : ∃ s, populatePowerDomainTree twoClustersDef twoClusters = some s ∧ cpuCount twoClusters 2 = 4
      ∧ ∀ i, (psciUpdatePwrlvlLimits (s.topology twoClustersDef)).cpuStartIdx 2 ≤ i
          ∧ i < (psciUpdatePwrlvlLimits (s.topology twoClustersDef)).cpuStartIdx 2
            + (psciUpdatePwrlvlLimits (s.topology twoClustersDef)).ncpus 2
        ↔ i < 4 ∧ 2 ∈ psciGetParentPwrDomainNodes (s.topology twoClustersDef) i 2 := by
  have hsome : (populatePowerDomainTree twoClustersDef twoClusters).isSome := by decide +kernel
  have hcount : cpuCount twoClusters 2 = 4 := by decide +kernel
  have ⟨s, hs⟩ := Option.isSome_iff_exists.mp hsome
  exact ⟨s, hs, hcount, (populate_limits twoClustersDef twoClusters s hs hcount).2 2⟩

-- The last assertion does not count CPUs: two roots without children pass it as two CPUs.
example : (populatePowerDomainTree ⟨2, 2, 2, 2, by decide⟩ fun i => if i = 0 then 2 else 0).isSome = true
    ∧ cpuCount (fun i => if i = 0 then 2 else 0) 2 = 0 := by
  decide +kernel

end Atf.Psci
