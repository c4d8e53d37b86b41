import MarvellBoot.Atf.Psci.Impl

namespace Atf.Psci

open List

structure Abs (Cpu Ep : Type) where
  aff : Cpu → AffInfoState
  entry : Cpu → Option Ep

variable {Cpu Ep : Type} [DecidableEq Cpu]

inductive Abs.Step (a : Abs Cpu Ep) : Event Cpu Ep → Abs Cpu Ep → Prop where
  | success {c t : Cpu} {ep : Ep} : a.aff t = .off →
      Step a (.ret c t ep .success) ⟨Function.update a.aff t .onPending, Function.update a.entry t (some ep)⟩
  | internFail {c t : Cpu} {ep : Ep} : a.aff t = .off → Step a (.ret c t ep .internFail) a
  | alreadyOn {c t : Cpu} {ep : Ep} : a.aff t = .on → Step a (.ret c t ep .alreadyOn) a
  | onPending {c t : Cpu} {ep : Ep} : a.aff t = .onPending → Step a (.ret c t ep .onPending) a
  | on {t : Cpu} : a.aff t = .onPending → Step a (.on t) ⟨Function.update a.aff t .on, a.entry⟩
  | enter {t : Cpu} {ep : Ep} : a.aff t = .on → a.entry t = some ep →
      Step a (.enter t ep) ⟨a.aff, Function.update a.entry t none⟩
  | off {t : Cpu} : a.aff t = .on → a.entry t = none → Step a (.off t) ⟨Function.update a.aff t .off, a.entry⟩

inductive Abs.Run (a₀ : Abs Cpu Ep) : List (Event Cpu Ep) → Abs Cpu Ep → Prop where
  | nil : Run a₀ [] a₀
  | concat {log : List (Event Cpu Ep)} {e : Event Cpu Ep} {a a' : Abs Cpu Ep} :
      Run a₀ log a → Step a e a' → Run a₀ (log ++ [e]) a'

variable {a₀ a a' : Abs Cpu Ep} {log : List (Event Cpu Ep)} {e : Event Cpu Ep} {t c : Cpu} {ep : Ep} {rc : PsciError}

lemma Abs.Step.aff_cases (h : a.Step e a') (t : Cpu)
    : a'.aff t = a.aff t ∨ (a.aff t = .off ∧ a'.aff t = .onPending) ∨ (e = .on t ∧ a'.aff t = .on)
      ∨ (e = .off t ∧ a.aff t = .on) := by
  cases h with
  | @success _ u _ hu =>
    by_cases heq : t = u
    . rw [heq]
      exact .inr (.inl ⟨hu, Function.update_self ..⟩)
    . exact .inl (Function.update_of_ne heq ..)
  | @on u _ =>
    by_cases heq : t = u
    . rw [heq]
      exact .inr (.inr (.inl ⟨rfl, Function.update_self ..⟩))
    . exact .inl (Function.update_of_ne heq ..)
  | @off u hu _ =>
    by_cases heq : t = u
    . rw [heq]
      exact .inr (.inr (.inr ⟨rfl, hu⟩))
    . exact .inl (Function.update_of_ne heq ..)
  | internFail _ | alreadyOn _ | onPending _ | enter _ _ => exact .inl rfl

lemma Abs.Step.aff_of_on (h : a.Step e a') (ht : a.aff t = .on) (hoff : e ≠ .off t) : a'.aff t = .on := by
  have := h.aff_cases t
  grind

lemma Abs.Step.aff_of_onPending (h : a.Step e a') (ht : a.aff t = .onPending) (hon : e ≠ .on t)
    : a'.aff t = .onPending := by
  have := h.aff_cases t
  grind

lemma Abs.Step.aff_on (h : a.Step (.on t) a') : a'.aff t = .on := by
  cases h with
  | on _ => exact Function.update_self ..

lemma Abs.Run.last (h : Run a₀ (log ++ [e]) a) : ∃ a1, Run a₀ log a1 ∧ a1.Step e a := by
  generalize hlog : log ++ [e] = log' at h
  cases h with
  | nil => simp at hlog
  | concat hrun hstep =>
    have ⟨hpre, he⟩ := append_inj' hlog rfl
    injection he with he
    rw [← hpre] at hrun
    rw [← he] at hstep
    exact ⟨_, hrun, hstep⟩

lemma Abs.Run.split {pre post : List (Event Cpu Ep)} (h : Run a₀ (pre ++ e :: post) a)
    : ∃ a1 a2, Run a₀ pre a1 ∧ a1.Step e a2 := by
  induction post using reverseRecOn generalizing a with
  | nil =>
    have ⟨a1, hrun, hstep⟩ := h.last
    exact ⟨a1, a, hrun, hstep⟩
  | append_singleton post e' ih =>
    rw [← cons_append, ← append_assoc] at h
    have ⟨_, hrun, _⟩ := h.last
    exact ih hrun

lemma Abs.Run.aff_of_success {pre mid : List (Event Cpu Ep)}
    (h : Run a₀ (pre ++ .ret c t ep .success :: mid) a) (hoff : .off t ∉ mid)
    : (.on t ∈ mid → a.aff t = .on) ∧ (.on t ∉ mid → a.aff t = .onPending) := by
  induction mid using reverseRecOn generalizing a with
  | nil =>
    have ⟨_, _, hstep⟩ := h.last
    cases hstep with
    | success _ => exact ⟨fun hmem => by contradiction, fun _ => Function.update_self ..⟩
  | append_singleton mid e ih =>
    rw [← cons_append, ← append_assoc] at h
    have ⟨_, hrun, hstep⟩ := h.last
    rw [mem_append, mem_singleton, not_or] at hoff
    have ⟨hon, hpending⟩ := ih hrun hoff.1
    rw [mem_append, mem_singleton]
    constructor
    . intro hmem
      cases Classical.em (.on t ∈ mid) with
      | inl hmid => exact hstep.aff_of_on (hon hmid) (Ne.symm hoff.2)
      | inr hmid =>
        cases hmem with
        | inl hmid' => contradiction
        | inr heq =>
          rw [← heq] at hstep
          exact hstep.aff_on
    . intro hmem
      rw [not_or] at hmem
      exact hstep.aff_of_onPending (hpending hmem.1) (Ne.symm hmem.2)

/--
The log ends with a successful call for `t` with this entry point, and events that are neither of
these nor the end of its effect.
-/
def Origin (log : List (Event Cpu Ep)) (t : Cpu) (ep : Ep) : Prop :=
  ∃ pre c mid, log = pre ++ .ret c t ep .success :: mid
    ∧ .off t ∉ mid ∧ (∀ ep', .enter t ep' ∉ mid) ∧ ∀ c' ep', .ret c' t ep' .success ∉ mid

omit [DecidableEq Cpu] in
lemma Origin.concat (h : Origin log t ep) (hoff : e ≠ .off t)
    (henter : ∀ ep', e ≠ .enter t ep') (hsuccess : ∀ c' ep', e ≠ .ret c' t ep' .success)
    : Origin (log ++ [e]) t ep := by
  have ⟨pre, c, mid, hlog, hoff', henter', hsuccess'⟩ := h
  refine ⟨pre, c, mid ++ [e], by rw [hlog]; simp, ?_, ?_, ?_⟩
  . rw [mem_append, mem_singleton, not_or]
    exact ⟨hoff', Ne.symm hoff⟩
  . intro ep'
    rw [mem_append, mem_singleton, not_or]
    exact ⟨henter' ep', Ne.symm (henter ep')⟩
  . intro c' ep'
    rw [mem_append, mem_singleton, not_or]
    exact ⟨hsuccess' c' ep', Ne.symm (hsuccess c' ep')⟩

lemma Abs.Run.origin (h : Run a₀ log a) (h0 : ∀ t, a₀.entry t = none)
    (hentry : a.entry t = some ep) : a.aff t ≠ .off ∧ Origin log t ep := by
  induction h with
  | nil =>
    rw [h0] at hentry
    contradiction
  | @concat log e a a' _ hstep ih =>
    cases hstep with
    | @success c u _ hu =>
      simp only [Function.update_apply] at hentry ⊢
      split at hentry
      . next heq =>
        injection hentry with hentry
        rw [if_pos heq, heq, hentry]
        exact ⟨by decide, log, c, [], rfl, by simp, by simp, by simp⟩
      next hne =>
      have ⟨haff, horigin⟩ := ih hentry
      rw [if_neg hne]
      refine ⟨haff, horigin.concat (by simp) (by simp) ?_⟩
      intro c' ep' heq
      injection heq with _ heq
      exact hne heq.symm
    | internFail _ | alreadyOn _ | onPending _ =>
      have ⟨haff, horigin⟩ := ih hentry
      exact ⟨haff, horigin.concat (by simp) (by simp) (by simp)⟩
    | on =>
      have ⟨haff, horigin⟩ := ih hentry
      refine ⟨?_, horigin.concat (by simp) (by simp) (by simp)⟩
      simp only [Function.update_apply]
      split
      . simp
      . exact haff
    | enter =>
      simp only [Function.update_apply] at hentry
      split at hentry
      . contradiction
      next hne =>
      have ⟨haff, horigin⟩ := ih hentry
      refine ⟨haff, horigin.concat (by simp) ?_ (by simp)⟩
      intro ep'' heq
      injection heq with heq
      exact hne heq.symm
    | @off u _ hnone =>
      have ⟨haff, horigin⟩ := ih hentry
      have hne : t ≠ u := by
        intro heq
        rw [heq, hnone] at hentry
        contradiction
      refine ⟨?_, horigin.concat ?_ (by simp) (by simp)⟩
      . dsimp only
        rw [Function.update_of_ne hne]
        exact haff
      . intro heq
        injection heq with heq
        exact hne heq.symm

structure ExactlyOnce (log : List (Event Cpu Ep)) : Prop where
  once : ∀ {t c c' ep ep' pre mid post},
    log = pre ++ .ret c t ep .success :: (mid ++ .ret c' t ep' .success :: post) → .off t ∈ mid
  answer : ∀ {t c c' ep ep' rc pre mid post},
    log = pre ++ .ret c t ep .success :: (mid ++ .ret c' t ep' rc :: post) → .off t ∉ mid →
      (.on t ∈ mid → rc = .alreadyOn) ∧ (.on t ∉ mid → rc = .onPending)
  entry : ∀ {t ep pre post}, log = pre ++ .enter t ep :: post → Origin pre t ep

lemma Abs.Step.answer (h : a.Step (.ret c t ep rc) a')
    : (a.aff t = .on → rc = .alreadyOn) ∧ (a.aff t = .onPending → rc = .onPending) := by
  cases h with
  | success ht => rw [ht]; simp
  | internFail ht => rw [ht]; simp
  | alreadyOn ht => rw [ht]; simp
  | onPending ht => rw [ht]; simp

lemma Abs.Run.answer {pre mid post : List (Event Cpu Ep)} {c' : Cpu} {ep' : Ep}
    (h : Run a₀ (pre ++ .ret c t ep .success :: (mid ++ .ret c' t ep' rc :: post)) a)
    (hoff : .off t ∉ mid)
    : (.on t ∈ mid → rc = .alreadyOn) ∧ (.on t ∉ mid → rc = .onPending) := by
  rw [← cons_append, ← append_assoc] at h
  have ⟨a1, a2, hrun, hstep⟩ := h.split
  have ⟨hon, hpending⟩ := hrun.aff_of_success hoff
  exact ⟨fun hmem => hstep.answer.1 (hon hmem), fun hmem => hstep.answer.2 (hpending hmem)⟩

lemma Abs.Run.exactlyOnce (h : Run a₀ log a) (h0 : ∀ t, a₀.entry t = none) : ExactlyOnce log where
  once := by
    intro t c c' ep ep' pre mid post hlog
    apply Classical.byContradiction
    intro hoff
    rw [hlog] at h
    have ⟨hon, hpending⟩ := h.answer hoff
    cases Classical.em (.on t ∈ mid) with
    | inl hmem => exact absurd (hon hmem) (by decide)
    | inr hmem => exact absurd (hpending hmem) (by decide)
  answer := by
    intro t c c' ep ep' rc pre mid post hlog hoff
    rw [hlog] at h
    exact h.answer hoff
  entry := by
    intro t ep pre post hlog
    rw [hlog] at h
    have ⟨a1, a2, hrun, hstep⟩ := h.split
    cases hstep with
    | enter _ hentry => exact (hrun.origin h0 hentry).2

end Atf.Psci
