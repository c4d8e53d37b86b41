import MarvellBoot.Atf.Psci.Lemmas.PwrDomains

/-!
The composite states that coordination returns while the CPUs go down and wake up in any order.
-/

namespace Atf.Psci.PwrDomains

open Function

def NonIncreasing (stateInfo : Nat → Nat) (first last : Nat) : Prop :=
  ∀ k l, first ≤ k → k ≤ l → l ≤ last → stateInfo l ≤ stateInfo k

/--
The CPUs' coordinations and wake-ups in any order, after `psci_init_req_local_pwr_states`. `down` has the level to which a
CPU has to wake up before it coordinates again.
-/
inductive Alternating (p : Platform) : State → (Nat → Option Nat) → Prop where
  | init {s} : (∀ l c, s.reqLocalPwrStates l c = p.platMaxOffState) → Alternating p s fun _ => some p.maxPwrLvl
  | coordinate {s down cpuIdx endPwrlvl stateInfo} : Alternating p s down → cpuIdx < p.coreCount →
      down cpuIdx = none → endPwrlvl ≤ p.maxPwrLvl → NonIncreasing stateInfo 0 endPwrlvl →
      Alternating p (psciDoStateCoordination p s cpuIdx endPwrlvl stateInfo) (update down cpuIdx (some endPwrlvl))
  | wakeUp {s down cpuIdx lvl endPwrlvl} : Alternating p s down → cpuIdx < p.coreCount →
      down cpuIdx = some lvl → lvl ≤ endPwrlvl → endPwrlvl ≤ p.maxPwrLvl →
      Alternating p (psciSetPwrDomainsToRun p s cpuIdx endPwrlvl) (update down cpuIdx none)

structure Composite (p : Platform) (s : State) (down : Nat → Option Nat) : Prop where
  run : ∀ c l, (down c).getD 0 < l → l ≤ p.maxPwrLvl → s.reqLocalPwrStates l c = psciLocalStateRun
  nonIncreasing : ∀ c, NonIncreasing (s.reqLocalPwrStates · c) 1 p.maxPwrLvl

variable {p : Platform} {s : State} {cpuIdx endPwrlvl : Nat} {stateInfo : Nat → Nat} {down : Nat → Option Nat}

lemma Composite.update {s s' : State} {requests states : Nat → Nat} (lvl : Option Nat) (h : Composite p s down)
    (hu : Updated p s s' cpuIdx endPwrlvl requests states) (hmono : NonIncreasing requests 1 endPwrlvl)
    (habove : ∀ l, endPwrlvl < l → l ≤ p.maxPwrLvl → s.reqLocalPwrStates l cpuIdx = psciLocalStateRun)
    (hrun : ∀ l, 1 ≤ l → lvl.getD 0 < l → l ≤ endPwrlvl → requests l = psciLocalStateRun)
    : Composite p s' (Function.update down cpuIdx lvl) := by
  constructor
  . intro c l hlt hmax
    rw [hu.request]
    by_cases hc : c = cpuIdx
    . rw [hc, update_self] at hlt
      split
      . exact hrun l (by omega) hlt (by omega)
      . rw [hc]
        exact habove l (by omega) hmax
    . rw [if_neg (fun h => hc h.1)]
      rw [update_of_ne hc] at hlt
      exact h.run c l hlt hmax
  . intro c k l hk hkl hmax
    dsimp only
    rw [hu.request, hu.request]
    by_cases hc : c = cpuIdx
    . by_cases hl : l ≤ endPwrlvl
      . rw [if_pos (by omega), if_pos (by omega)]
        exact hmono k l hk hkl hl
      . rw [if_neg (by omega), hc, habove l (by omega) hmax]
        exact Nat.zero_le _
    . rw [if_neg (fun h => hc h.1), if_neg (fun h => hc h.1)]
      exact h.nonIncreasing c k l hk hkl hmax

lemma Composite.coordinate (h : Composite p s down) (hcpu : cpuIdx < p.coreCount) (hup : down cpuIdx = none)
    (hend : endPwrlvl ≤ p.maxPwrLvl) (hmono : NonIncreasing stateInfo 0 endPwrlvl)
    : Composite p (psciDoStateCoordination p s cpuIdx endPwrlvl stateInfo)
        (Function.update down cpuIdx (some endPwrlvl)) := by
  apply h.update _ (psciDoStateCoordination_updated stateInfo hcpu hend).2.1
  . intro k l _ hkl hl
    exact hmono k l (by omega) hkl hl
  . intro l hl hmax
    exact h.run _ l (by rw [hup]; exact Nat.zero_lt_of_lt hl) hmax
  . intro l _ hlt hle
    exact absurd hlt (Nat.not_lt.mpr hle)

lemma Composite.of_alternating (h : Alternating p s down) : Composite p s down := by
  induction h with
  | init h =>
    constructor
    . exact fun _ _ hlt hle => absurd hlt (Nat.not_lt.mpr hle)
    . exact fun c k l _ _ _ => Nat.le_of_eq ((h l c).trans (h k c).symm)
  | coordinate _ hcpu hup hend hmono ih => exact ih.coordinate hcpu hup hend hmono
  | wakeUp _ hcpu hdown hle hend ih =>
    apply ih.update none (psciSetPwrDomainsToRun_updated hcpu hend)
    . exact fun _ _ _ _ _ => Nat.le_refl _
    . intro l hlt hmax
      exact ih.run _ l (by rw [hdown]; exact Nat.lt_of_le_of_lt hle hlt) hmax
    . exact fun _ _ _ _ => rfl

lemma psciDoStateCoordination.stateInfo_succ_le (h : Composite p s down) (hcpu : cpuIdx < p.coreCount)
    (hup : down cpuIdx = none) (hend : endPwrlvl ≤ p.maxPwrLvl) (hmono : NonIncreasing stateInfo 0 endPwrlvl) {l : Nat}
    (hl : l < endPwrlvl)
    : psciDoStateCoordination.stateInfo p s cpuIdx endPwrlvl stateInfo (l + 1)
      ≤ psciDoStateCoordination.stateInfo p s cpuIdx endPwrlvl stateInfo l := by
  have hnext := (h.coordinate hcpu hup hend hmono).nonIncreasing
  obtain ⟨_, hu, hstates, htarget⟩ := psciDoStateCoordination_updated (s := s) stateInfo hcpu hend
  obtain ⟨hoff, hle⟩ := (htarget (l + 1) (by omega) hl).1
  by_cases hzero : l = 0
  . subst hzero
    have hown := hle cpuIdx hcpu rfl
    rw [hu.request, if_pos (by omega)] at hown
    rw [hstates 0 (by omega)]
    exact Nat.le_trans hown (hmono 0 1 (by omega) (by omega) (by omega))
  -- the CPUs below the domain at the lower level are below its parent too
  cases (htarget l (by omega) (by omega)).2 with
  | inl htarget =>
    refine htarget _ ⟨hoff, ?_⟩
    intro c hc hsame
    have hparent : p.ancestor c (l + 1) = p.ancestor cpuIdx (l + 1) := by
      rw [Tree.ancestor_succ (by omega), hsame, Tree.ancestor_succ (by omega)]
    exact Nat.le_trans (hle c hc hparent) (hnext c l (l + 1) (by omega) (by omega) (by omega))
  | inr hrun =>
    rw [hrun (l + 1) (by omega) (by omega)]
    exact Nat.zero_le _

theorem psciDoStateCoordination.stateInfo_nonIncreasing (h : Alternating p s down)
    (hcpu : cpuIdx < p.coreCount) (hup : down cpuIdx = none) (hend : endPwrlvl ≤ p.maxPwrLvl)
    (hmono : NonIncreasing stateInfo 0 endPwrlvl)
    : let states := psciDoStateCoordination.stateInfo p s cpuIdx endPwrlvl stateInfo
      NonIncreasing states 0 endPwrlvl
      ∧ (∀ k l, k ≤ l → l ≤ endPwrlvl → states k = psciLocalStateRun → states l = psciLocalStateRun)
      ∧ ∀ l, endPwrlvl < l → states l = stateInfo l := by
  intro states
  have hle : NonIncreasing states 0 endPwrlvl := by
    intro k l _ hkl
    induction hkl with
    | refl => exact fun _ => Nat.le_refl _
    | step _ ih =>
      intro hl
      exact Nat.le_trans (stateInfo_succ_le (.of_alternating h) hcpu hup hend hmono hl) (ih (by omega))
  refine ⟨hle, ?_, ?_⟩
  . intro k l hkl hl hrun
    have := hle k l (Nat.zero_le _) hkl hl
    rw [hrun] at this
    exact Nat.le_zero.mp this
  . intro l hl
    exact (psciDoStateCoordination_updated stateInfo hcpu hend).2.2.1 l (by omega)

-- One CPU asks for a shallower state than the other one.
theorem psciDoStateCoordination.stateInfo_nonIncreasing_platform
    : ∃ s, let states := psciDoStateCoordination.stateInfo Sample.platform s 0 2 fun _ => 2
      [states 0, states 1, states 2] = [2, 1, 0] ∧ NonIncreasing states 0 2
        ∧ (∀ k l, k ≤ l → l ≤ 2 → states k = psciLocalStateRun → states l = psciLocalStateRun)
        ∧ ∀ l, 2 < l → states l = 2 := by
  have h : Alternating Sample.platform { psciSetup Sample.platform 0 with reqLocalPwrStates := fun _ _ => 2 } _ :=
    .init fun _ _ => rfl
  have h := h.wakeUp (show 0 < Sample.platform.coreCount by decide) rfl (Nat.le_refl _) (Nat.le_refl _)
  have h := h.wakeUp (show 1 < Sample.platform.coreCount by decide) rfl (Nat.le_refl _) (Nat.le_refl _)
  have h := h.wakeUp (show 2 < Sample.platform.coreCount by decide) rfl (Nat.le_refl _) (Nat.le_refl _)
  have h := @Alternating.coordinate Sample.platform _ _ 1 2 (fun _ => 1) h (by decide) rfl (Nat.le_refl _)
    fun _ _ _ _ _ => Nat.le_refl _
  exact ⟨_, by decide +kernel, stateInfo_nonIncreasing h (by decide) rfl (by decide) fun _ _ _ _ _ => Nat.le_refl _⟩

end Atf.Psci.PwrDomains
