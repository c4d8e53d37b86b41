import Mathlib

/-!
The power domain tree of `lib/psci/psci_setup.c`. CPUs and the other power domains are the indices of their nodes.
-/

namespace Atf.Psci

open Function

structure Topology where
  coreCount : Nat
  maxPwrLvl : Nat
  cpuParent : Nat → Nat
  parent : Nat → Nat

def Topology.ancestor (t : Topology) (cpu lvl : Nat) : Nat := t.parent^[lvl - 1] (t.cpuParent cpu)

lemma Topology.ancestor_succ {t : Topology} {cpu lvl : Nat} (hlvl : 1 ≤ lvl)
    : t.ancestor cpu (lvl + 1) = t.parent (t.ancestor cpu lvl) := by
  unfold Topology.ancestor
  rw [← iterate_succ_apply' t.parent]
  congr 1
  omega

/--
The children of the same parent have adjacent indices, so that the CPUs of a power domain follow each other.
-/
structure Tree extends Topology where
  level : Nat → Nat
  level_cpuParent : ∀ cpu < coreCount, level (cpuParent cpu) = 1
  level_parent : ∀ node, level node < maxPwrLvl → level (parent node) = level node + 1
  adjacent : ∀ lvl i j k, 1 ≤ lvl → lvl ≤ maxPwrLvl → i ≤ j → j ≤ k → k < coreCount →
    toTopology.ancestor i lvl = toTopology.ancestor k lvl → toTopology.ancestor j lvl = toTopology.ancestor i lvl

namespace Tree

variable {t : Tree} {cpu lvl : Nat}

lemma ancestor_one : t.ancestor cpu 1 = t.cpuParent cpu := rfl

lemma ancestor_succ (hlvl : 1 ≤ lvl) : t.ancestor cpu (lvl + 1) = t.parent (t.ancestor cpu lvl) :=
  Topology.ancestor_succ hlvl

lemma level_ancestor (hcpu : cpu < t.coreCount) (hlvl : 1 ≤ lvl) (hle : lvl ≤ t.maxPwrLvl)
    : t.level (t.ancestor cpu lvl) = lvl := by
  induction lvl with
  | zero => contradiction
  | succ lvl ih =>
    cases lvl with
    | zero => exact t.level_cpuParent cpu hcpu
    | succ lvl =>
      have ih := ih (by omega) (by omega)
      rw [ancestor_succ (by omega), t.level_parent _ (by omega), ih]

end Tree

structure Limits where
  cpuStartIdx : Nat → Nat
  ncpus : Nat → Nat

namespace psciUpdatePwrlvlLimits

structure Acc where
  nodesIdx : Nat → Nat
  limits : Limits

def level (node cpu lvl : Nat) (acc : Acc) : Acc :=
  let acc :=
    if node ≠ acc.nodesIdx lvl then
      {
        nodesIdx := Function.update acc.nodesIdx lvl node
        limits := { acc.limits with cpuStartIdx := Function.update acc.limits.cpuStartIdx node cpu }
      }
    else
      acc
  let node := acc.nodesIdx lvl
  { acc with limits := { acc.limits with ncpus := Function.update acc.limits.ncpus node (acc.limits.ncpus node + 1) } }

def levels (t : Topology) (cpu : Nat) : (lvl : Nat) → Acc → Acc
  | 0, acc => acc
  | lvl + 1, acc => levels t cpu lvl (level (t.ancestor cpu (lvl + 1)) cpu (lvl + 1) acc)

def cpus (t : Topology) : (n : Nat) → Acc
  | 0 => ⟨fun _ => 0, ⟨fun _ => 0, fun _ => 0⟩⟩
  | n + 1 => levels t n t.maxPwrLvl (cpus t n)

end psciUpdatePwrlvlLimits

def psciUpdatePwrlvlLimits (t : Topology) : Limits := (psciUpdatePwrlvlLimits.cpus t t.coreCount).limits

variable {other : Nat}

namespace psciUpdatePwrlvlLimits

structure Inv (t : Tree) (n lvl : Nat) (acc : Acc) : Prop where
  nodes : acc.nodesIdx lvl = if n = 0 then 0 else t.ancestor (n - 1) lvl
  start : n = 0 → ∀ node, acc.limits.cpuStartIdx node = 0
  range : ∀ cpu < n, ∀ i,
    acc.limits.cpuStartIdx (t.ancestor cpu lvl) ≤ i
      ∧ i < acc.limits.cpuStartIdx (t.ancestor cpu lvl) + acc.limits.ncpus (t.ancestor cpu lvl)
    ↔ i < n ∧ t.ancestor i lvl = t.ancestor cpu lvl
  fresh : ∀ node, t.level node = lvl → (∀ cpu < n, t.ancestor cpu lvl ≠ node) → acc.limits.ncpus node = 0

section

variable {t : Tree} {acc : Acc} {n lvl node cpu : Nat}

lemma nodesIdx_level : (level node cpu lvl acc).nodesIdx = update acc.nodesIdx lvl node := by
  unfold level
  split
  . rfl
  . next h => rw [not_not.mp h, update_eq_self]

lemma cpuStartIdx_level
    : (level node cpu lvl acc).limits.cpuStartIdx
      = if node ≠ acc.nodesIdx lvl then
        update acc.limits.cpuStartIdx node cpu
      else
        acc.limits.cpuStartIdx := by
  unfold level
  split
  . rfl
  . rfl

lemma ncpus_level
    : (level node cpu lvl acc).limits.ncpus = update acc.limits.ncpus node (acc.limits.ncpus node + 1) := by
  unfold level
  split
  . dsimp only
    rw [update_self]
  . next h => rw [not_not.mp h]

lemma cpuStartIdx_level_of_ne (hne : other ≠ node)
    : (level node cpu lvl acc).limits.cpuStartIdx other = acc.limits.cpuStartIdx other := by
  rw [cpuStartIdx_level]
  split
  . exact update_of_ne hne _ _
  . rfl

lemma ncpus_level_of_ne (hne : other ≠ node)
    : (level node cpu lvl acc).limits.ncpus other = acc.limits.ncpus other := by
  rw [ncpus_level, update_of_ne hne]

lemma range_level_self (hinv : Inv t n lvl acc) (hn : n < t.coreCount) (hlvl : 1 ≤ lvl) (hle : lvl ≤ t.maxPwrLvl)
    (i : Nat)
    : let limits := (level (t.ancestor n lvl) n lvl acc).limits
      limits.cpuStartIdx (t.ancestor n lvl) ≤ i
        ∧ i < limits.cpuStartIdx (t.ancestor n lvl) + limits.ncpus (t.ancestor n lvl)
      ↔ i < n + 1 ∧ t.ancestor i lvl = t.ancestor n lvl := by
  have hnodes := hinv.nodes
  dsimp only
  rw [cpuStartIdx_level, ncpus_level, update_self]
  by_cases hnew : t.ancestor n lvl = acc.nodesIdx lvl
  . rw [if_neg (not_not_intro hnew)]
    by_cases hzero : n = 0
    . have hfresh := hinv.fresh _ (t.level_ancestor hn hlvl hle) (fun cpu hcpu => absurd hcpu (by omega))
      rw [hinv.start hzero, hfresh]
      constructor
      . intro hi
        exact ⟨by omega, by rw [show i = n by omega]⟩
      . intro hi
        omega
    -- the CPUs so far end at the previous one
    rw [hnodes, if_neg hzero] at hnew
    have hrange (i : Nat) := hinv.range (n - 1) (by omega) i
    rw [← hnew] at hrange
    have hlast := (hrange (n - 1)).mpr ⟨by omega, hnew.symm⟩
    have hend : acc.limits.cpuStartIdx (t.ancestor n lvl) + acc.limits.ncpus (t.ancestor n lvl) = n := by
      by_contra hne
      have := ((hrange n).mp ⟨by omega, by omega⟩).1
      omega
    constructor
    . intro hi
      by_cases heq : i = n
      . exact ⟨by omega, by rw [heq]⟩
      . exact ⟨by omega, ((hrange i).mp ⟨hi.1, by omega⟩).2⟩
    rintro ⟨hlt, hsame⟩
    by_cases heq : i = n
    . omega
    . have := (hrange i).mpr ⟨by omega, hsame⟩
      omega
  have hunseen : ∀ cpu < n, t.ancestor cpu lvl ≠ t.ancestor n lvl := by
    intro cpu hcpu hsame
    apply hnew
    rw [hnodes, if_neg (by omega), ← hsame]
    exact (t.adjacent lvl cpu (n - 1) n hlvl hle (by omega) (by omega) hn hsame).symm
  have hfresh := hinv.fresh _ (t.level_ancestor hn hlvl hle) hunseen
  rw [if_pos hnew, update_self, hfresh]
  constructor
  . intro hi
    exact ⟨by omega, by rw [show i = n by omega]⟩
  rintro ⟨hlt, hsame⟩
  by_cases heq : i = n
  . omega
  . exact absurd hsame (hunseen i (by omega))

lemma level_self (hinv : Inv t n lvl acc) (hn : n < t.coreCount) (hlvl : 1 ≤ lvl) (hle : lvl ≤ t.maxPwrLvl)
    : Inv t (n + 1) lvl (level (t.ancestor n lvl) n lvl acc) := by
  refine ⟨?_, fun h => absurd h (by omega), ?_, ?_⟩
  . rw [nodesIdx_level, update_self, if_neg (by omega), Nat.add_sub_cancel]
  . intro cpu hcpu i
    by_cases hsame : t.ancestor cpu lvl = t.ancestor n lvl
    . rw [hsame]
      exact range_level_self hinv hn hlvl hle i
    have hlt : cpu < n := by
      have : cpu ≠ n := fun heq => hsame (by rw [heq])
      omega
    rw [cpuStartIdx_level_of_ne hsame, ncpus_level_of_ne hsame, hinv.range cpu hlt i]
    constructor
    . intro hi
      exact ⟨by omega, hi.2⟩
    . rintro ⟨hi, heq⟩
      have : i ≠ n := fun hin => hsame (by rw [← heq, hin])
      exact ⟨by omega, heq⟩
  . intro node hnode hunseen
    rw [ncpus_level_of_ne (hunseen n (by omega)).symm]
    exact hinv.fresh node hnode fun cpu hcpu => hunseen cpu (by omega)

lemma level_other {m l : Nat} (hinv : Inv t m l acc) (hnode : t.level node = lvl) (hne : l ≠ lvl)
    (hm : m ≤ t.coreCount) (hl : 1 ≤ l) (hle : l ≤ t.maxPwrLvl) (hzero : m = 0 → cpu = 0)
    : Inv t m l (level node cpu lvl acc) := by
  have hother {other : Nat} (hlevel : t.level other = l) : other ≠ node := by
    intro heq
    rw [heq, hnode] at hlevel
    exact hne hlevel.symm
  refine ⟨?_, ?_, ?_, ?_⟩
  . rw [nodesIdx_level, update_of_ne hne]
    exact hinv.nodes
  . intro hm other
    rw [cpuStartIdx_level]
    split
    . rw [update_apply, hinv.start hm, hzero hm, ite_self]
    . exact hinv.start hm other
  . intro c hc i
    have hnot := hother (t.level_ancestor (by omega : c < t.coreCount) hl hle)
    rw [cpuStartIdx_level_of_ne hnot, ncpus_level_of_ne hnot]
    exact hinv.range c hc i
  . intro other hlevel hunseen
    rw [ncpus_level_of_ne (hother hlevel)]
    exact hinv.fresh other hlevel hunseen

lemma levels_inv (hinv : ∀ l, 1 ≤ l → l ≤ t.maxPwrLvl → Inv t (if l ≤ lvl then n else n + 1) l acc)
    (hn : n < t.coreCount) (hle : lvl ≤ t.maxPwrLvl)
    : ∀ l, 1 ≤ l → l ≤ t.maxPwrLvl → Inv t (n + 1) l (levels t.toTopology n lvl acc) := by
  induction lvl generalizing acc with
  | zero =>
    intro l hl hmax
    have := hinv l hl hmax
    rwa [if_neg (by omega)] at this
  | succ lvl ih =>
    apply ih
    . intro l hl hmax
      have hinv := hinv l hl hmax
      by_cases heq : l = lvl + 1
      . rw [if_pos (by omega), heq] at hinv
        rw [if_neg (by omega), heq]
        exact level_self hinv hn (by omega) hle
      have hlevel := t.level_ancestor hn (by omega) hle
      by_cases hlt : l ≤ lvl
      . rw [if_pos (by omega)] at hinv
        rw [if_pos hlt]
        exact level_other hinv hlevel heq (by omega) hl hmax id
      . rw [if_neg (by omega)] at hinv
        rw [if_neg hlt]
        exact level_other hinv hlevel heq (by omega) hl hmax (by omega)
    . omega

lemma cpus_inv (hn : n ≤ t.coreCount) : ∀ l, 1 ≤ l → l ≤ t.maxPwrLvl → Inv t n l (cpus t.toTopology n) := by
  induction n with
  | zero =>
    intro l _ _
    exact ⟨rfl, fun _ _ => rfl, fun cpu hcpu => absurd hcpu (by omega), fun _ _ _ => rfl⟩
  | succ n ih =>
    apply levels_inv
    . intro l hl hmax
      rw [if_pos hmax]
      exact ih (by omega) l hl hmax
    . omega
    . exact Nat.le_refl _

end

end psciUpdatePwrlvlLimits

lemma mem_limits_iff {t : Tree} {cpu lvl : Nat} (hcpu : cpu < t.coreCount) (hlvl : 1 ≤ lvl) (hle : lvl ≤ t.maxPwrLvl)
    (i : Nat)
    : let limits := psciUpdatePwrlvlLimits t.toTopology
      limits.cpuStartIdx (t.ancestor cpu lvl) ≤ i
        ∧ i < limits.cpuStartIdx (t.ancestor cpu lvl) + limits.ncpus (t.ancestor cpu lvl)
      ↔ i < t.coreCount ∧ t.ancestor i lvl = t.ancestor cpu lvl :=
  (psciUpdatePwrlvlLimits.cpus_inv (Nat.le_refl _) lvl hlvl hle).range cpu hcpu i

end Atf.Psci
