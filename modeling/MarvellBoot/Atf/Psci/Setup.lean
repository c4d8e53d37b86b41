import MarvellBoot.Atf.Psci.Impl
import MarvellBoot.Atf.Psci.Topology

/-!
The nodes of the power domain tree as `lib/psci/psci_setup.c` makes them from the descriptor of the platform. Numbers of
nodes do not overflow.
-/

namespace Atf.Psci

-- The constants of the platform. The code asserts that there are at most 3 levels above the one of CPUs.
structure PlatformDef where
  coreCount : Nat
  numNonCpuPwrDomains : Nat
  maxPwrLvl : Nat
  platMaxOffState : Nat
  maxPwrLvl_lt : maxPwrLvl < 256

structure NonCpuPdNode where
  parentNode : Nat
  localState : Nat
  level : Nat
  lockIndex : Nat
  deriving Repr, DecidableEq

structure CpuPdNode where
  mpidr : Nat
  parentNode : Nat
  affInfoState : AffInfoState
  targetPwrlvl : Nat
  localState : Nat
  deriving Repr, DecidableEq

structure PdNodes where
  nonCpu : Nat → NonCpuPdNode
  cpu : Nat → CpuPdNode

def psciInvalidMpidr : Nat := 2 ^ 64 - 1

def invalidNode : Nat := 2 ^ 32 - 1

-- `level` and `lock_index` are of type `unsigned char`.
def psciInitPwrDomainNode (c : PlatformDef) (s : PdNodes) (nodeIdx parentIdx level : Nat) : PdNodes :=
  if 0 < level then
    let node : NonCpuPdNode := ⟨parentIdx, c.platMaxOffState, level % 256, nodeIdx % 256⟩
    { s with nonCpu := Function.update s.nonCpu nodeIdx node }
  else
    let node : CpuPdNode := ⟨psciInvalidMpidr, parentIdx, .off, c.maxPwrLvl + 1, c.platMaxOffState⟩
    { s with cpu := Function.update s.cpu nodeIdx node }

namespace populatePowerDomainTree

structure Acc where
  j : Nat
  nodeIndex : Nat
  parentNodeIndex : Nat
  numNodesAtNextLvl : Nat
  nodes : PdNodes

def parentIdx (parentNodeIndex : Nat) : Nat := if parentNodeIndex = 0 then invalidNode else parentNodeIndex - 1

def children (c : PlatformDef) (parent level : Nat) : (n j : Nat) → PdNodes → PdNodes
  | 0, _, s => s
  | n + 1, j, s => children c parent level n (j + 1) (psciInitPwrDomainNode c s j parent level)

def parent (c : PlatformDef) (numChildren level : Nat) (acc : Acc) : Acc where
  j := acc.nodeIndex + numChildren
  nodeIndex := acc.nodeIndex + numChildren
  parentNodeIndex := acc.parentNodeIndex + 1
  numNodesAtNextLvl := acc.numNodesAtNextLvl + numChildren
  nodes := children c (parentIdx acc.parentNodeIndex) level numChildren acc.nodeIndex acc.nodes

-- There is no result when an assertion fails.
def parents (c : PlatformDef) (topology : Nat → UInt8) (level : Nat) : (n : Nat) → Acc → Option Acc
  | 0, acc => some acc
  | n + 1, acc =>
    if acc.parentNodeIndex ≤ c.numNonCpuPwrDomains then
      parents c topology level n (parent c (topology acc.parentNodeIndex).toNat level acc)
    else
      none

def levels (c : PlatformDef) (topology : Nat → UInt8) : (n numNodesAtLvl : Nat) → Acc → Option Acc
  | 0, _, acc => some acc
  | level + 1, numNodesAtLvl, acc =>
    match parents c topology level numNodesAtLvl { acc with numNodesAtNextLvl := 0 } with
    | none => none
    | some acc =>
      levels c topology level acc.numNodesAtNextLvl { acc with nodeIndex := if level = 1 then 0 else acc.nodeIndex }

def init : Acc where
  j := 0
  nodeIndex := 0
  parentNodeIndex := 0
  numNodesAtNextLvl := 0
  nodes := ⟨fun _ => ⟨0, 0, 0, 0⟩, fun _ => ⟨0, 0, .on, 0, 0⟩⟩

end populatePowerDomainTree

def populatePowerDomainTree (c : PlatformDef) (topology : Nat → UInt8) : Option PdNodes :=
  match populatePowerDomainTree.levels c topology (c.maxPwrLvl + 1) 1 populatePowerDomainTree.init with
  | none => none
  | some acc => if acc.j = c.coreCount then some acc.nodes else none

def PdNodes.topology (c : PlatformDef) (s : PdNodes) : Topology where
  coreCount := c.coreCount
  maxPwrLvl := c.maxPwrLvl
  cpuParent cpu := (s.cpu cpu).parentNode
  parent node := (s.nonCpu node).parentNode

def psciGetParentPwrDomainNodes.go (t : Topology) : (n parentNode : Nat) → List Nat
  | 0, _ => []
  | n + 1, parentNode => parentNode :: go t n (t.parent parentNode)

def psciGetParentPwrDomainNodes (t : Topology) (cpuIdx endLvl : Nat) : List Nat :=
  psciGetParentPwrDomainNodes.go t endLvl (t.cpuParent cpuIdx)

-- Where the entries of a level begin in the descriptor, and how many there are.
def entries (topology : Nat → UInt8) : (depth : Nat) → Nat × Nat
  | 0 => (0, 1)
  | depth + 1 =>
    let (first, count) := entries topology depth
    (first + count, ((List.range count).map fun i => (topology (first + i)).toNat).sum)

def cpuCount (topology : Nat → UInt8) (maxPwrLvl : Nat) : Nat := (entries topology (maxPwrLvl + 1)).2

end Atf.Psci
