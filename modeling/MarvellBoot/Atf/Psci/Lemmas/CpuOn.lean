import MarvellBoot.Atf.Psci.Lemmas.Spec

namespace Atf.Psci

open Psci.System

variable {Cpu Ep : Type}

def Phase.Active : Phase Cpu Ep → Prop
  | .normalWorld => True
  | .cpuOnStart _ _ => True
  | .pwrDomainOn _ _ => True
  | .initContext _ _ => True
  | .restoreState _ _ => True
  | .doCpuOff => True
  | _ => False

def Phase.Holds (t : Cpu) : Phase Cpu Ep → Prop
  | .pwrDomainOn t' _ => t' = t
  | .initContext t' _ => t' = t
  | .restoreState t' _ => t' = t
  | _ => False

inductive Phase.Starting : Phase Cpu Ep → Prop where
  | warmboot : Starting .warmboot
  | domainsLocked : Starting .domainsLocked
  | cpuOnFinish : Starting .cpuOnFinish

inductive Status (s : System Cpu Ep) (a : Abs Cpu Ep) (t : Cpu) : Prop where
  | on : s.affInfoState t = .on → a.aff t = .on → a.entry t = none → s.cpuLock t = none →
      (s.phase t).Active → Status s a t
  | leaving {ep : Ep} : s.affInfoState t = .on → a.aff t = .on → a.entry t = some ep →
      s.cpuLock t = none → s.phase t = .domainsRunning ep → Status s a t
  | off : s.affInfoState t = .off → a.aff t = .off → s.cpuLock t = none → s.phase t = .off → Status s a t
  | pwrDomainOn {c : Cpu} {ep : Ep} : s.affInfoState t = .onPending → a.aff t = .off →
      s.cpuLock t = some c → s.phase c = .pwrDomainOn t ep → s.phase t = .off → Status s a t
  | restoreState {c : Cpu} {ep : Ep} : s.affInfoState t = .onPending → a.aff t = .off →
      s.cpuLock t = some c → s.phase c = .restoreState t ep → s.phase t = .off → Status s a t
  | initContext {c : Cpu} {ep : Ep} : s.affInfoState t = .onPending → a.aff t = .off →
      s.cpuLock t = some c → s.phase c = .initContext t ep → (s.phase t).Starting → Status s a t
  | starting : s.affInfoState t = .onPending → a.aff t = .onPending →
      a.entry t = some (s.context t) → s.cpuLock t = none → (s.phase t).Starting → Status s a t
  | contextReady : s.affInfoState t = .onPending → a.aff t = .onPending →
      a.entry t = some (s.context t) → s.cpuLock t = none → s.phase t = .contextReady → Status s a t
  | el3ExitPrepared {ep : Ep} : s.affInfoState t = .onPending → a.aff t = .onPending →
      a.entry t = some ep → s.cpuLock t = none → s.phase t = .el3ExitPrepared ep → Status s a t

structure Inv (s : System Cpu Ep) (a : Abs Cpu Ep) : Prop where
  status : ∀ t, Status s a t
  holds : ∀ c t, (s.phase c).Holds t → s.cpuLock t = some c

variable {s s' : System Cpu Ep} {a a' : Abs Cpu Ep} {c t : Cpu} {ep : Ep} {phase : Phase Cpu Ep}

lemma Status.holder (h : Status s a t) (hc : s.cpuLock t = some c) : (s.phase c).Holds t := by
  cases h with
  | on _ _ _ hlock _ => simp [hlock] at hc
  | leaving _ _ _ hlock _ => simp [hlock] at hc
  | off _ _ hlock _ => simp [hlock] at hc
  | pwrDomainOn _ _ hlock hphase _ | restoreState _ _ hlock hphase _ | initContext _ _ hlock hphase _ =>
    rw [hlock] at hc
    injection hc with hc
    rw [← hc, hphase]
    rfl
  | starting _ _ _ hlock _ => simp [hlock] at hc
  | contextReady _ _ _ hlock _ => simp [hlock] at hc
  | el3ExitPrepared _ _ _ hlock _ => simp [hlock] at hc

structure Same (s : System Cpu Ep) (a : Abs Cpu Ep) (s' : System Cpu Ep) (a' : Abs Cpu Ep) (t : Cpu)
    : Prop where
  affInfoState : s'.affInfoState t = s.affInfoState t
  cpuLock : s'.cpuLock t = s.cpuLock t
  context : s'.context t = s.context t
  phase : s'.phase t = s.phase t
  aff : a'.aff t = a.aff t
  entry : a'.entry t = a.entry t
  holder : ∀ c, s.cpuLock t = some c → s'.phase c = s.phase c

lemma Status.congr (h : Status s a t) (hsame : Same s a s' a' t) : Status s' a' t := by
  have ⟨h1, h2, h3, h4, h5, h6, h7⟩ := hsame
  cases h with
  | on haff habs hentry hlock hphase =>
    rw [← h1] at haff
    rw [← h5] at habs
    rw [← h6] at hentry
    rw [← h2] at hlock
    rw [← h4] at hphase
    exact .on haff habs hentry hlock hphase
  | leaving haff habs hentry hlock hphase =>
    exact .leaving (h1.trans haff) (h5.trans habs) (h6.trans hentry) (h2.trans hlock) (h4.trans hphase)
  | off haff habs hlock hphase =>
    exact .off (h1.trans haff) (h5.trans habs) (h2.trans hlock) (h4.trans hphase)
  | pwrDomainOn haff habs hlock hholder hphase =>
    exact .pwrDomainOn (h1.trans haff) (h5.trans habs) (h2.trans hlock) ((h7 _ hlock).trans hholder) (h4.trans hphase)
  | restoreState haff habs hlock hholder hphase =>
    exact .restoreState (h1.trans haff) (h5.trans habs) (h2.trans hlock) ((h7 _ hlock).trans hholder) (h4.trans hphase)
  | initContext haff habs hlock hholder hphase =>
    rw [← h4] at hphase
    exact .initContext (h1.trans haff) (h5.trans habs) (h2.trans hlock) ((h7 _ hlock).trans hholder) hphase
  | starting haff habs hentry hlock hphase =>
    rw [← h3] at hentry
    rw [← h4] at hphase
    exact .starting (h1.trans haff) (h5.trans habs) (h6.trans hentry) (h2.trans hlock) hphase
  | contextReady haff habs hentry hlock hphase =>
    rw [← h3] at hentry
    exact .contextReady (h1.trans haff) (h5.trans habs) (h6.trans hentry) (h2.trans hlock) (h4.trans hphase)
  | el3ExitPrepared haff habs hentry hlock hphase =>
    exact .el3ExitPrepared (h1.trans haff) (h5.trans habs) (h6.trans hentry) (h2.trans hlock) (h4.trans hphase)

lemma Phase.Starting.not_active (h : phase.Starting) : ¬phase.Active := by
  intro hactive
  cases h <;> exact hactive

lemma Status.of_active (h : Status s a t) (hactive : (s.phase t).Active)
    : s.affInfoState t = .on ∧ a.aff t = .on ∧ a.entry t = none ∧ s.cpuLock t = none := by
  cases h with
  | on haff habs hentry hlock _ => exact ⟨haff, habs, hentry, hlock⟩
  | leaving _ _ _ _ hphase | off _ _ _ hphase | pwrDomainOn _ _ _ _ hphase | restoreState _ _ _ _ hphase
  | contextReady _ _ _ _ hphase | el3ExitPrepared _ _ _ _ hphase => simp [hphase, Phase.Active] at hactive
  | initContext _ _ _ _ hphase | starting _ _ _ _ hphase => exact absurd hactive hphase.not_active

lemma Status.of_starting (h : Status s a t) (hstarting : (s.phase t).Starting)
    : s.affInfoState t = .onPending ∧ (s.cpuLock t = none → a.aff t = .onPending ∧ a.entry t = some (s.context t)) := by
  cases h with
  | on _ _ _ _ hactive => exact absurd hactive hstarting.not_active
  | leaving _ _ _ _ hphase | off _ _ _ hphase | pwrDomainOn _ _ _ _ hphase | restoreState _ _ _ _ hphase
  | contextReady _ _ _ _ hphase | el3ExitPrepared _ _ _ _ hphase => rw [hphase] at hstarting; contradiction
  | initContext haff _ hheld _ _ => exact ⟨haff, fun hlock => by simp [hlock] at hheld⟩
  | starting haff habs hentry _ _ => exact ⟨haff, fun _ => ⟨habs, hentry⟩⟩

lemma Status.of_phase (h : Status s a t)
    : match s.phase t with
      | .contextReady => s.affInfoState t = .onPending ∧ a.aff t = .onPending
          ∧ a.entry t = some (s.context t) ∧ s.cpuLock t = none
      | .el3ExitPrepared ep => s.affInfoState t = .onPending ∧ a.aff t = .onPending
          ∧ a.entry t = some ep ∧ s.cpuLock t = none
      | .domainsRunning ep => s.affInfoState t = .on ∧ a.aff t = .on
          ∧ a.entry t = some ep ∧ s.cpuLock t = none
      | .cpuSuspendFinish => False
      | .panic => False
      | _ => True := by
  cases h with
  | on _ _ _ _ hactive =>
    generalize s.phase t = phase at hactive
    cases phase with
    | normalWorld => trivial
    | cpuOnStart _ _ => trivial
    | pwrDomainOn _ _ => trivial
    | initContext _ _ => trivial
    | restoreState _ _ => trivial
    | doCpuOff => trivial
    | _ => contradiction
  | leaving haff habs hentry hlock hphase | contextReady haff habs hentry hlock hphase
  | el3ExitPrepared haff habs hentry hlock hphase =>
    rw [hphase]
    exact ⟨haff, habs, hentry, hlock⟩
  | off _ _ _ hphase => rw [hphase]; trivial
  | pwrDomainOn _ _ _ _ hphase => rw [hphase]; trivial
  | restoreState _ _ _ _ hphase => rw [hphase]; trivial
  | initContext _ _ _ _ hphase | starting _ _ _ _ hphase =>
    generalize s.phase t = phase at hphase
    cases hphase <;> trivial

lemma Inv.emit (h : Inv s a) (e : Event Cpu Ep) : Inv (s.emit e) a where
  status t := (h.status t).congr ⟨rfl, rfl, rfl, rfl, rfl, rfl, fun _ _ => rfl⟩
  holds := h.holds

lemma Phase.Holds.active (h : phase.Holds t) : phase.Active := by
  cases phase with
  | pwrDomainOn _ _ => trivial
  | initContext _ _ => trivial
  | restoreState _ _ => trivial
  | _ => contradiction

lemma Status.of_off (h : Status s a t) (haff : s.affInfoState t = .off) : a.aff t = .off ∧ s.phase t = .off := by
  cases h with
  | off _ habs _ hphase => exact ⟨habs, hphase⟩
  | on haff' _ _ _ _ => simp [haff] at haff'
  | leaving haff' _ _ _ _ => simp [haff] at haff'
  | pwrDomainOn haff' _ _ _ _ => simp [haff] at haff'
  | restoreState haff' _ _ _ _ => simp [haff] at haff'
  | initContext haff' _ _ _ _ => simp [haff] at haff'
  | starting haff' _ _ _ _ => simp [haff] at haff'
  | contextReady haff' _ _ _ _ => simp [haff] at haff'
  | el3ExitPrepared haff' _ _ _ _ => simp [haff] at haff'

lemma Status.aff_of_unlocked (h : Status s a t) (hlock : s.cpuLock t = none) : a.aff t = s.affInfoState t := by
  cases h with
  | on haff habs _ _ _ => rw [haff, habs]
  | leaving haff habs _ _ _ => rw [haff, habs]
  | off haff habs _ _ => rw [haff, habs]
  | pwrDomainOn _ _ hheld _ _ | restoreState _ _ hheld _ _ | initContext _ _ hheld _ _ => simp [hlock] at hheld
  | starting haff habs _ _ _ => rw [haff, habs]
  | contextReady haff habs _ _ _ => rw [haff, habs]
  | el3ExitPrepared haff habs _ _ _ => rw [haff, habs]

lemma Status.of_locked (h : Status s a t) (hlock : s.cpuLock t = some c)
    : a.aff t = .off ∧ s.affInfoState t = .onPending
      ∧ match s.phase c with
        | .initContext _ _ => (s.phase t).Starting
        | _ => s.phase t = .off := by
  cases h with
  | on _ _ _ hfree _ | leaving _ _ _ hfree _ | off _ _ hfree _ | starting _ _ _ hfree _ | contextReady _ _ _ hfree _
  | el3ExitPrepared _ _ _ hfree _ => simp [hlock] at hfree
  | pwrDomainOn haff habs hheld hholder hphase | restoreState haff habs hheld hholder hphase
  | initContext haff habs hheld hholder hphase =>
    rw [hlock] at hheld
    injection hheld with hheld
    rw [hheld, hholder]
    exact ⟨habs, haff, hphase⟩

structure Frame (s : System Cpu Ep) (a : Abs Cpu Ep) (s' : System Cpu Ep) (a' : Abs Cpu Ep) (c t : Cpu)
    : Prop where
  affInfoState : ∀ u, u ≠ t → s'.affInfoState u = s.affInfoState u
  cpuLock : ∀ u, u ≠ t → s'.cpuLock u = s.cpuLock u
  context : ∀ u, u ≠ t → s'.context u = s.context u
  phase : ∀ u, u ≠ c → u ≠ t → s'.phase u = s.phase u
  aff : ∀ u, u ≠ t → a'.aff u = a.aff u
  entry : ∀ u, u ≠ t → a'.entry u = a.entry u

lemma Inv.of_frame (h : Inv s a) (hframe : Frame s a s' a' c t)
    (hactive : (s.phase c).Active) (hactive' : (s'.phase c).Active)
    (ht : ¬(s.phase t).Active) (ht' : ¬(s'.phase t).Active)
    (hlocked : ∀ c', s.cpuLock t = some c' → c' = c)
    (hholds : ∀ u, (s.phase c).Holds u → u = t)
    (hholds' : ∀ u, (s'.phase c).Holds u → u = t ∧ s'.cpuLock t = some c)
    (hstatus : Status s' a' t) : Inv s' a' where
  status := by
    intro u
    cases Classical.em (u = t) with
    | inl heq =>
      rw [heq]
      exact hstatus
    | inr hut =>
      cases Classical.em (u = c) with
      | inl heq =>
        rw [heq] at hut ⊢
        have ⟨haff, habs, hentry, hlock⟩ := (h.status c).of_active hactive
        exact .on ((hframe.affInfoState c hut).trans haff) ((hframe.aff c hut).trans habs)
          ((hframe.entry c hut).trans hentry) ((hframe.cpuLock c hut).trans hlock) hactive'
      | inr huc =>
        refine (h.status u).congr ⟨hframe.affInfoState u hut, hframe.cpuLock u hut,
          hframe.context u hut, hframe.phase u huc hut, hframe.aff u hut, hframe.entry u hut, ?_⟩
        intro c' hlock
        have hholder := (h.status u).holder hlock
        apply hframe.phase
        . intro heq
          rw [heq] at hholder
          exact hut (hholds u hholder)
        . intro heq
          rw [heq] at hholder
          exact ht hholder.active
  holds := by
    intro c' u hc'
    cases Classical.em (c' = c) with
    | inl heq =>
      rw [heq] at hc' ⊢
      have ⟨hut, hlock⟩ := hholds' u hc'
      rw [hut]
      exact hlock
    | inr hne =>
      have hct : c' ≠ t := by
        intro heq
        rw [heq] at hc'
        exact ht' hc'.active
      rw [hframe.phase c' hne hct] at hc'
      have hlock := h.holds c' u hc'
      cases Classical.em (u = t) with
      | inl heq =>
        rw [heq] at hlock
        exact absurd (hlocked c' hlock) hne
      | inr hut => exact (hframe.cpuLock u hut).trans hlock

lemma Inv.of_own (h : Inv s a) (hframe : Frame s a s' a' c c) (hlock : s'.cpuLock c = s.cpuLock c)
    (hc : ∀ t, ¬(s.phase c).Holds t) (hc' : ∀ t, ¬(s'.phase c).Holds t) (hstatus : Status s' a' c)
    : Inv s' a' where
  status := by
    intro u
    cases Classical.em (u = c) with
    | inl heq =>
      rw [heq]
      exact hstatus
    | inr hne =>
      refine (h.status u).congr ⟨hframe.affInfoState u hne, hframe.cpuLock u hne,
        hframe.context u hne, hframe.phase u hne hne, hframe.aff u hne, hframe.entry u hne, ?_⟩
      intro c' hheld
      have hholder := (h.status u).holder hheld
      have hc'c : c' ≠ c := by
        intro heq
        rw [heq] at hholder
        exact hc u hholder
      exact hframe.phase c' hc'c hc'c
  holds := by
    intro c' u hholds
    have hc'c : c' ≠ c := by
      intro heq
      rw [heq] at hholds
      exact hc' u hholds
    rw [hframe.phase c' hc'c hc'c] at hholds
    have hheld := h.holds c' u hholds
    cases Classical.em (u = c) with
    | inl heq =>
      rw [heq] at hheld ⊢
      rw [hlock]
      exact hheld
    | inr hne => exact (hframe.cpuLock u hne).trans hheld

variable [DecidableEq Cpu] {state : AffInfoState} {lost : Bool}

lemma Inv.setPhase (h : Inv s a) (hc : ∀ t, ¬(s.phase c).Holds t)
    (hphase : ∀ t, ¬phase.Holds t) (hstatus : Status (s.setPhase c phase) a c)
    : Inv (s.setPhase c phase) a := by
  refine h.of_own ?_ rfl hc ?_ hstatus
  . constructor
    all_goals
      intro u
      simp +contextual [System.setPhase]
  . simp only [System.setPhase, Function.update_self]
    exact hphase

lemma Inv.setPhase_active (h : Inv s a) (hactive : (s.phase c).Active)
    (hc : ∀ t, ¬(s.phase c).Holds t) (hactive' : phase.Active) (hphase : ∀ t, ¬phase.Holds t)
    : Inv (s.setPhase c phase) a := by
  apply h.setPhase hc hphase
  have ⟨haff, habs, hentry, hlock⟩ := (h.status c).of_active hactive
  refine .on haff habs hentry hlock ?_
  simp only [System.setPhase, Function.update_self]
  exact hactive'

def Event.Answered (s s' : System Cpu Ep) : Event Cpu Ep → Prop
  | .ret _ t _ .success => s'.affInfoState t = .onPending
  | .ret _ t _ .internFail => s'.affInfoState t = .off
  | .ret _ t _ .alreadyOn => s.affInfoState t = .on ∧ s'.affInfoState t = .on
  | .ret _ t _ .onPending => s.affInfoState t = .onPending ∧ s'.affInfoState t = .onPending
  | _ => True

def Simulates (s : System Cpu Ep) (a : Abs Cpu Ep) (s' : System Cpu Ep) : Prop :=
  (s'.log = s.log ∧ Inv s' a) ∨ ∃ e a', s'.log = s.log ++ [e] ∧ a.Step e a' ∧ Inv s' a' ∧ e.Answered s s'

lemma smc_simulates (h : Inv s a) (hstep : smc s c phase = some s')
    (hactive : phase.Active) (hphase : ∀ t, ¬phase.Holds t) : Simulates s a s' := by
  unfold smc at hstep
  split at hstep
  . next hc =>
    injection hstep with hs
    rw [← hs]
    refine .inl ⟨rfl, h.setPhase_active ?_ ?_ hactive hphase⟩
    . rw [hc]
      trivial
    . intro t hholds
      rw [hc] at hholds
      exact hholds
  . contradiction

namespace psciCpuOnStart

lemma answer_step (hne : cpuOnValidateState (a.aff t) ≠ .success)
    : a.Step (.ret c t ep (cpuOnValidateState (a.aff t))) a := by
  cases haff : a.aff t with
  | on => exact .alreadyOn haff
  | onPending => exact .onPending haff
  | off =>
    rw [haff] at hne
    contradiction

omit [DecidableEq Cpu] in
lemma answered (hs : s.affInfoState t = state) (hs' : s'.affInfoState t = state)
    (hne : cpuOnValidateState state ≠ .success)
    : Event.Answered s s' (.ret c t ep (cpuOnValidateState state)) := by
  cases state with
  | on => exact ⟨hs, hs'⟩
  | onPending => exact ⟨hs, hs'⟩
  | off => contradiction

lemma setOnPending_eq (h : s.affInfoState t = .off) : setOnPending s t lost = s.setAffInfoState t .onPending := by
  unfold setOnPending
  cases lost with
  | false => simp [setAffInfoState]
  | true => simp [h]

lemma cpuOnValidateState_eq_success (h : cpuOnValidateState state = .success) : state = .off := by
  cases state with
  | on => contradiction
  | onPending => contradiction
  | off => rfl

lemma lock_simulates (h : Inv s a) (hstep : lock s c lost = some s') : Simulates s a s' := by
  unfold lock at hstep
  split at hstep
  . next t ep hc =>
    have hactive : (s.phase c).Active := by
      rw [hc]
      trivial
    have hnot : ∀ u, ¬(s.phase c).Holds u := by
      intro u hholds
      rw [hc] at hholds
      exact hholds
    split at hstep
    . contradiction
    next hlock =>
    have hlock := not_not.mp hlock
    have habs := (h.status t).aff_of_unlocked hlock
    dsimp only at hstep
    rw [← habs] at hstep
    split at hstep
    . next hne =>
      injection hstep with hs
      rw [← hs]
      refine .inr ⟨_, a, rfl, answer_step hne, Inv.emit ?_ _, answered habs.symm habs.symm hne⟩
      exact h.setPhase_active hactive hnot trivial fun _ hholds => hholds
    next hsuccess =>
    injection hstep with hs
    have hoff := cpuOnValidateState_eq_success (not_not.mp hsuccess)
    rw [habs] at hoff
    have ⟨habs, hphase⟩ := (h.status t).of_off hoff
    have hct : t ≠ c := by
      intro heq
      rw [heq, hc] at hphase
      contradiction
    have hoff' : (s.setCpuLock t (some c)).affInfoState t = .off := hoff
    rw [setOnPending_eq hoff'] at hs
    rw [← hs]
    refine .inl ⟨rfl, h.of_frame (c := c) (t := t) ?_ hactive ?_ ?_ ?_ ?_ ?_ ?_ ?_⟩
    . constructor
      all_goals
        intro u
        simp +contextual [setPhase, setAffInfoState, setCpuLock]
    . simp [setPhase, Phase.Active]
    . simp [hphase, Phase.Active]
    . simp [setPhase, setAffInfoState, setCpuLock, hct, hphase, Phase.Active]
    . simp [hlock]
    . intro u hholds
      exact absurd hholds (hnot u)
    . intro u hholds
      simp [setPhase, setAffInfoState, setCpuLock, Phase.Holds] at hholds ⊢
      exact hholds.symm
    . apply @Status.pwrDomainOn _ _ _ _ _ c ep
      all_goals
        simp [setPhase, setAffInfoState, setCpuLock, hct, hphase, habs]
  . contradiction

lemma pwrDomainOn_simulates {ok : Bool} (h : Inv s a) (hstep : pwrDomainOn s c ok = some s') : Simulates s a s' := by
  unfold pwrDomainOn at hstep
  split at hstep
  . next t ep hc =>
    have hlock : s.cpuLock t = some c := by
      apply h.holds
      rw [hc]
      rfl
    have ⟨habs, haff, hphase⟩ := (h.status t).of_locked hlock
    rw [hc] at hphase
    have hct : t ≠ c := by
      intro heq
      rw [heq, hc] at hphase
      contradiction
    have hct' : c ≠ t := Ne.symm hct
    have hactive : (s.phase c).Active := by
      rw [hc]
      trivial
    cases ok with
    | true =>
      simp only [setPhase, Function.update_of_ne hct, hphase, if_true] at hstep
      injection hstep with hs
      rw [← hs]
      refine .inl ⟨rfl, h.of_frame (c := c) (t := t) ?_ hactive ?_ ?_ ?_ ?_ ?_ ?_ ?_⟩
      . constructor
        all_goals
          intro u
          simp +contextual
      . simp [hct', Phase.Active]
      . simp [hphase, Phase.Active]
      . simp [Phase.Active]
      . simp [hlock]
      . simp [hc, Phase.Holds]
      . simp [hct', hlock, Phase.Holds]
      apply @Status.initContext _ _ _ _ _ c ep
      . exact haff
      . exact habs
      . exact hlock
      . simp [hct']
      . simp only [Function.update_self]
        exact .warmboot
    | false =>
      injection hstep with hs
      rw [← hs]
      refine .inl ⟨rfl, h.of_frame (c := c) (t := t) ?_ hactive ?_ ?_ ?_ ?_ ?_ ?_ ?_⟩
      . constructor
        all_goals
          intro u
          simp +contextual [setPhase]
      . simp [setPhase, Phase.Active]
      . simp [hphase, Phase.Active]
      . simp [setPhase, hct, hphase, Phase.Active]
      . simp [hlock]
      . simp [hc, Phase.Holds]
      . simp [setPhase, hlock, Phase.Holds]
      . apply @Status.restoreState _ _ _ _ _ c ep
        all_goals simp [setPhase, hct, hphase, haff, habs, hlock]
  . contradiction

lemma unlock_simulates (h : Inv s a) (hstep : unlock s c = some s') : Simulates s a s' := by
  unfold unlock at hstep
  split at hstep
  . next t ep hc =>
    have hlock : s.cpuLock t = some c := by
      apply h.holds
      rw [hc]
      rfl
    have ⟨habs, haff, hphase⟩ := (h.status t).of_locked hlock
    rw [hc] at hphase
    have hactive : (s.phase c).Active := by
      rw [hc]
      trivial
    have hct : t ≠ c := by
      intro heq
      rw [heq] at hphase
      exact hphase.not_active hactive
    injection hstep with hs
    rw [← hs]
    refine .inr ⟨_, _, rfl, .success habs, Inv.emit ?_ _, haff⟩
    refine h.of_frame (c := c) (t := t) ?_ hactive ?_ hphase.not_active ?_ ?_ ?_ ?_ ?_
    . constructor
      all_goals
        intro u
        simp +contextual [setPhase, setCpuLock, cmInitContext]
    . simp [setPhase, Phase.Active]
    . simp only [setPhase, setCpuLock, cmInitContext, Function.update_of_ne hct]
      exact hphase.not_active
    . simp [hlock]
    . simp [hc, Phase.Holds]
    . simp [setPhase, Phase.Holds]
    apply Status.starting
    . exact haff
    . simp
    . simp [setPhase, setCpuLock, cmInitContext]
    . simp [setPhase, setCpuLock]
    . simp only [setPhase, setCpuLock, cmInitContext, Function.update_of_ne hct]
      exact hphase
  . next t ep hc =>
    have hlock : s.cpuLock t = some c := by
      apply h.holds
      rw [hc]
      rfl
    have ⟨habs, _, hphase⟩ := (h.status t).of_locked hlock
    rw [hc] at hphase
    have hct : t ≠ c := by
      intro heq
      rw [heq, hc] at hphase
      contradiction
    have hactive : (s.phase c).Active := by
      rw [hc]
      trivial
    injection hstep with hs
    rw [← hs]
    refine .inr ⟨_, a, rfl, .internFail habs, Inv.emit ?_ _, Function.update_self ..⟩
    refine h.of_frame (c := c) (t := t) ?_ hactive ?_ ?_ ?_ ?_ ?_ ?_ ?_
    . constructor
      all_goals
        intro u
        simp +contextual [setPhase, setCpuLock, setAffInfoState]
    . simp [setPhase, Phase.Active]
    . simp [hphase, Phase.Active]
    . simp [setPhase, setCpuLock, setAffInfoState, hct, hphase, Phase.Active]
    . simp [hlock]
    . simp [hc, Phase.Holds]
    . simp [setPhase, Phase.Holds]
    . apply Status.off
      all_goals
        simp [setPhase, setCpuLock, setAffInfoState, hct, hphase, habs]
  . contradiction

end psciCpuOnStart

omit [DecidableEq Cpu] in
lemma Phase.Starting.not_holds (h : phase.Starting) (t : Cpu) : ¬phase.Holds t := by
  intro hholds
  exact h.not_active hholds.active

section

variable (h : Inv s a)

include h

lemma Inv.setPhase_starting (hc : (s.phase c).Starting) (hphase : phase.Starting) : Inv (s.setPhase c phase) a := by
  apply h.setPhase hc.not_holds hphase.not_holds
  have hphase' : ((s.setPhase c phase).phase c).Starting := by
    simp only [System.setPhase, Function.update_self]
    exact hphase
  have ⟨haff, hfree⟩ := (h.status c).of_starting hc
  cases hlock : s.cpuLock c with
  | none =>
    have ⟨habs, hentry⟩ := hfree hlock
    exact .starting haff habs hentry hlock hphase'
  | some c' =>
    have ⟨habs, _, hholder⟩ := (h.status c).of_locked hlock
    split at hholder
    . next t ep hc' =>
      have hholds : (s.phase c').Holds c := (h.status c).holder hlock
      have hne : c' ≠ c := by
        intro heq
        rw [heq] at hholds
        exact hc.not_holds c hholds
      rw [hc'] at hholds
      have ht : t = c := hholds
      rw [ht] at hc'
      have hholder' : (s.setPhase c phase).phase c' = .initContext c ep := by
        rw [← hc']
        exact Function.update_of_ne hne ..
      exact .initContext haff habs hlock hholder' hphase'
    . rw [hholder] at hc
      contradiction

lemma psciWarmbootEntrypoint.verify_simulates (hstep : verify s c = some s') : Simulates s a s' := by
  unfold verify at hstep
  split at hstep
  . next hc =>
    have hstarting : (s.phase c).Starting := by
      rw [hc]
      exact .warmboot
    rw [((h.status c).of_starting hstarting).1, if_neg (by decide)] at hstep
    injection hstep with hs
    rw [← hs]
    exact .inl ⟨rfl, h.setPhase_starting hstarting .domainsLocked⟩
  . contradiction

lemma psciWarmbootEntrypoint.finish_simulates (hstep : finish s c = some s') : Simulates s a s' := by
  unfold finish at hstep
  split at hstep
  . next hc =>
    have hstarting : (s.phase c).Starting := by
      rw [hc]
      exact .domainsLocked
    rw [((h.status c).of_starting hstarting).1, if_pos rfl] at hstep
    injection hstep with hs
    rw [← hs]
    exact .inl ⟨rfl, h.setPhase_starting hstarting .cpuOnFinish⟩
  . contradiction

lemma psciCpuOnFinish.sync_simulates (hstep : sync s c = some s') : Simulates s a s' := by
  unfold sync at hstep
  split at hstep
  . next hc =>
    have hstarting : (s.phase c).Starting := by
      rw [hc]
      exact .cpuOnFinish
    have ⟨haff, hfree⟩ := (h.status c).of_starting hstarting
    split at hstep
    . contradiction
    next hlock =>
    have hlock := not_not.mp hlock
    have ⟨habs, hentry⟩ := hfree hlock
    injection hstep with hs
    rw [← hs]
    refine .inl ⟨rfl, h.setPhase hstarting.not_holds (fun _ hholds => hholds) ?_⟩
    exact .contextReady haff habs hentry hlock (Function.update_self ..)
  . contradiction

lemma psciCpuOnFinish.prepareEl3Exit_simulates (hstep : prepareEl3Exit s c = some s') : Simulates s a s' := by
  unfold prepareEl3Exit at hstep
  split at hstep
  . next hc =>
    have hstatus := (h.status c).of_phase
    rw [hc] at hstatus
    have ⟨haff, habs, hentry, hlock⟩ := hstatus
    rw [haff, if_neg (not_not.mpr rfl)] at hstep
    injection hstep with hs
    rw [← hs]
    refine .inl ⟨rfl, h.setPhase ?_ (fun _ hholds => hholds) ?_⟩
    . rw [hc]
      exact fun _ hholds => hholds
    . exact .el3ExitPrepared haff habs hentry hlock (Function.update_self ..)
  . contradiction

lemma psciSetPwrDomainsToRun_simulates (hstep : psciSetPwrDomainsToRun s c = some s') : Simulates s a s' := by
  unfold psciSetPwrDomainsToRun at hstep
  split at hstep
  . next ep hc =>
    have hstatus := (h.status c).of_phase
    rw [hc] at hstatus
    have ⟨_, habs, hentry, hlock⟩ := hstatus
    injection hstep with hs
    rw [← hs]
    refine .inr ⟨_, _, rfl, .on habs, Inv.emit ?_ _, trivial⟩
    refine h.of_own (c := c) ?_ rfl ?_ ?_ ?_
    . constructor
      all_goals
        intro u
        simp +contextual [setPhase, setAffInfoState]
    . simp [hc, Phase.Holds]
    . simp [setPhase, Phase.Holds]
    . exact .leaving (Function.update_self ..) (Function.update_self ..) hentry hlock (Function.update_self ..)
  . contradiction

lemma el3Exit_simulates (hstep : el3Exit s c = some s') : Simulates s a s' := by
  unfold el3Exit at hstep
  split at hstep
  . next ep hc =>
    have hstatus := (h.status c).of_phase
    rw [hc] at hstatus
    have ⟨haff, habs, hentry, hlock⟩ := hstatus
    injection hstep with hs
    rw [← hs]
    refine .inr ⟨_, _, rfl, .enter habs hentry, Inv.emit ?_ _, trivial⟩
    refine h.of_own (c := c) ?_ rfl ?_ ?_ ?_
    . constructor
      all_goals
        intro u
        simp +contextual [setPhase]
    . simp [hc, Phase.Holds]
    . simp [setPhase, Phase.Holds]
    . refine .on haff habs (Function.update_self ..) hlock ?_
      simp [setPhase, Phase.Active]
  . contradiction

end

lemma psciDoCpuOff_simulates {denied : Bool} (h : Inv s a) (hstep : psciDoCpuOff s c denied = some s')
    : Simulates s a s' := by
  unfold psciDoCpuOff at hstep
  split at hstep
  . next hc =>
    have hactive : (s.phase c).Active := by
      rw [hc]
      trivial
    have hnot : ∀ t, ¬(s.phase c).Holds t := by
      rw [hc]
      exact fun _ hholds => hholds
    split at hstep
    . injection hstep with hs
      rw [← hs]
      exact .inl ⟨rfl, h.setPhase_active hactive hnot trivial fun _ hholds => hholds⟩
    injection hstep with hs
    have ⟨_, habs, hentry, hlock⟩ := (h.status c).of_active hactive
    rw [← hs]
    refine .inr ⟨_, _, rfl, .off habs hentry, Inv.emit ?_ _, trivial⟩
    refine h.of_own (c := c) ?_ rfl hnot ?_ ?_
    . constructor
      all_goals
        intro u
        simp +contextual [setPhase, setAffInfoState]
    . simp [setPhase, Phase.Holds]
    . exact .off (Function.update_self ..) (Function.update_self ..) hlock (Function.update_self ..)
  . contradiction

lemma next_simulates {action : Action Cpu Ep} (h : Inv s a) (hstep : next s c action = some s')
    : Simulates s a s' := by
  cases action with
  | cpuOn t ep | cpuOff => exact smc_simulates h hstep trivial fun _ hholds => hholds
  | lock lost => exact psciCpuOnStart.lock_simulates h hstep
  | pwrDomainOn ok => exact psciCpuOnStart.pwrDomainOn_simulates h hstep
  | unlock => exact psciCpuOnStart.unlock_simulates h hstep
  | warmbootVerify => exact psciWarmbootEntrypoint.verify_simulates h hstep
  | warmbootFinish => exact psciWarmbootEntrypoint.finish_simulates h hstep
  | cpuOnFinishSync => exact psciCpuOnFinish.sync_simulates h hstep
  | prepareEl3Exit => exact psciCpuOnFinish.prepareEl3Exit_simulates h hstep
  | setPwrDomainsToRun => exact psciSetPwrDomainsToRun_simulates h hstep
  | el3Exit => exact el3Exit_simulates h hstep
  | doCpuOff denied => exact psciDoCpuOff_simulates h hstep

structure Initial (s : System Cpu Ep) : Prop where
  cpu : ∀ c, (s.affInfoState c = .on ∧ s.phase c = .normalWorld) ∨ (s.affInfoState c = .off ∧ s.phase c = .off)
  cpuLock : ∀ c, s.cpuLock c = none
  log : s.log = []

inductive Reachable (s₀ : System Cpu Ep) : System Cpu Ep → Prop where
  | refl : Reachable s₀ s₀
  | step {s s' : System Cpu Ep} {c : Cpu} {action : Action Cpu Ep} :
      Reachable s₀ s → next s c action = some s' → Reachable s₀ s'

def System.abs (s : System Cpu Ep) : Abs Cpu Ep := { aff := s.affInfoState, entry := fun _ => none }

variable {s₀ : System Cpu Ep}

omit [DecidableEq Cpu] in
lemma Initial.inv (h : Initial s) : Inv s s.abs where
  status := by
    intro t
    cases h.cpu t with
    | inl hon =>
      refine .on hon.1 hon.1 rfl (h.cpuLock t) ?_
      rw [hon.2]
      trivial
    | inr hoff => exact .off hoff.1 hoff.1 (h.cpuLock t) hoff.2
  holds := by
    intro c t hholds
    cases h.cpu c with
    | inl hon =>
      rw [hon.2] at hholds
      contradiction
    | inr hoff =>
      rw [hoff.2] at hholds
      contradiction

lemma Reachable.refines (h : Reachable s₀ s) (h0 : Initial s₀) : ∃ a, s₀.abs.Run s.log a ∧ Inv s a := by
  induction h with
  | refl =>
    rw [h0.log]
    exact ⟨s₀.abs, .nil, h0.inv⟩
  | step _ hstep ih =>
    have ⟨a, hrun, hinv⟩ := ih
    cases next_simulates hinv hstep with
    | inl hsilent =>
      rw [hsilent.1]
      exact ⟨a, hrun, hsilent.2⟩
    | inr hevent =>
      have ⟨e, a', hlog, habs, hinv', _⟩ := hevent
      rw [hlog]
      exact ⟨a', hrun.concat habs, hinv'⟩

theorem psciCpuOn_exactlyOnce (h₀ : Initial s₀) (h : Reachable s₀ s)
    : ExactlyOnce s.log ∧ ∀ c action s' e, next s c action = some s' → s'.log = s.log ++ [e] → e.Answered s s' := by
  have ⟨a, hrun, hinv⟩ := h.refines h₀
  refine ⟨hrun.exactlyOnce fun _ => rfl, ?_⟩
  intro c action s' e hstep hlog
  cases next_simulates hinv hstep with
  | inl hsilent =>
    rw [hsilent.1] at hlog
    simp at hlog
  | inr hevent =>
    have ⟨e', _, hlog', _, _, hanswered⟩ := hevent
    rw [hlog'] at hlog
    have ⟨_, he⟩ := List.append_inj' hlog rfl
    injection he with he
    rw [← he]
    exact hanswered

def steps (s : System Cpu Ep) (actions : List (Cpu × Action Cpu Ep)) : Option (System Cpu Ep) :=
  actions.foldlM (fun s action => next s action.1 action.2) s

lemma steps_reachable {actions : List (Cpu × Action Cpu Ep)} (h : Reachable s₀ s)
    (hsteps : steps s actions = some s') : Reachable s₀ s' := by
  induction actions generalizing s with
  | nil =>
    injection hsteps with hs
    rw [← hs]
    exact h
  | cons action actions ih =>
    have ⟨s1, hnext, hrest⟩ := Option.bind_eq_some_iff.mp hsteps
    exact ih (h.step hnext) hrest

def twoCpus : System Bool Nat where
  affInfoState := fun cpu => if cpu then .off else .on
  cpuLock := fun _ => none
  context := fun _ => 0
  phase := fun cpu => if cpu then .off else .normalWorld
  log := []

def bootActions : List (Bool × Action Bool Nat) :=
  [(false, .cpuOn true 7), (false, .lock false), (false, .pwrDomainOn true),
    (true, .warmbootVerify), (true, .warmbootFinish), (false, .unlock), (true, .cpuOnFinishSync),
    (true, .prepareEl3Exit), (true, .setPwrDomainsToRun), (true, .el3Exit)]

theorem psciCpuOn_exactlyOnce_twoCpus
    : ∃ s, steps twoCpus bootActions = some s
        ∧ s.log = [.ret false true 7 .success, .on true] ++ [.enter true 7]
        ∧ Origin [.ret false true 7 .success, .on true] true 7 := by
  have ⟨s, hsteps, hlog⟩ : ∃ s, steps twoCpus bootActions = some s
      ∧ s.log = [.ret false true 7 .success, .on true] ++ [.enter true 7] := ⟨_, rfl, rfl⟩
  have hinitial : Initial twoCpus := by
    refine ⟨?_, fun _ => rfl, rfl⟩
    intro c
    cases c with
    | false => exact .inl ⟨rfl, rfl⟩
    | true => exact .inr ⟨rfl, rfl⟩
  have honce := (psciCpuOn_exactlyOnce hinitial (steps_reachable .refl hsteps)).1
  exact ⟨s, hsteps, hlog, honce.entry hlog⟩

end Atf.Psci
