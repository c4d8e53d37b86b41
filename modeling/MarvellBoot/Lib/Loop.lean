import Mathlib
/-!
Loops of imperative code. The body of a loop maps a state either to the state of the next iteration
or to the value the loop is left with. A loop is run with fuel, a loop that does not terminate
runs out of every amount of it.
-/

namespace Loop

inductive Next (σ : Type u) (ρ : Type v) where
  | again (s : σ)
  | done (r : ρ)

def run (body : σ → Next σ ρ) : Nat → σ → Option ρ
  | 0, _ => none
  | fuel + 1, s =>
    match body s with
    | .again s => run body fuel s
    | .done r => some r

-- The body itself may not return.
def runM (body : σ → Option (Next σ ρ)) : Nat → σ → Option ρ
  | 0, _ => none
  | fuel + 1, s =>
    match body s with
    | none => none
    | some (.again s) => runM body fuel s
    | some (.done r) => some r

def Returns (body : σ → Next σ ρ) (s : σ) (r : ρ) : Prop := ∃ fuel, run body fuel s = some r

variable {body : σ → Next σ ρ} {s s' : σ} {I : σ → Prop} {Q : ρ → Prop} {fuel : Nat}

theorem run_succ_of_run (h : run body fuel s = some r) : run body (fuel + 1) s = some r := by
  induction fuel generalizing s with
  | zero => simp [run] at h
  | succ fuel ih =>
    unfold run at h ⊢
    split at h
    . apply ih
      assumption
    . assumption

theorem run_mono {fuel' : Nat} (h : run body fuel s = some r) (hle : fuel ≤ fuel') : run body fuel' s = some r := by
  induction hle with
  | refl => assumption
  | step _ ih =>
    apply run_succ_of_run
    assumption

theorem Returns.unique (h1 : Returns body s r1) (h2 : Returns body s r2) : r1 = r2 := by
  rcases h1 with ⟨fuel1, h1⟩
  rcases h2 with ⟨fuel2, h2⟩
  have h1 := run_mono h1 (Nat.le_max_left fuel1 fuel2)
  have h2 := run_mono h2 (Nat.le_max_right fuel1 fuel2)
  rw [h1] at h2
  injection h2

theorem returns_of_done (h : body s = .done r) : Returns body s r := by
  refine ⟨1, ?_⟩
  simp [run, h]

theorem returns_iff_of_done (h : body s = .done r) : Returns body s r' ↔ r' = r := by
  constructor
  . intro hr
    exact hr.unique (returns_of_done h)
  . intro hr
    rw [hr]
    exact returns_of_done h

theorem returns_iff_of_again (h : body s = .again s') : Returns body s r ↔ Returns body s' r := by
  constructor
  . rintro ⟨fuel, hrun⟩
    cases fuel with
    | zero => simp [run] at hrun
    | succ fuel =>
      refine ⟨fuel, ?_⟩
      simpa [run, h] using hrun
  . rintro ⟨fuel, hrun⟩
    refine ⟨fuel + 1, ?_⟩
    simpa [run, h] using hrun

theorem Returns.of_inv (hret : Returns body s r) (hs : I s)
    (hagain : ∀ s s', I s → body s = .again s' → I s')
    (hdone : ∀ s r, I s → body s = .done r → Q r)
    : Q r := by
  rcases hret with ⟨fuel, hrun⟩
  induction fuel generalizing s with
  | zero => simp [run] at hrun
  | succ fuel ih =>
    unfold run at hrun
    split at hrun
    . next hbody =>
      exact ih (hagain _ _ hs hbody) hrun
    next hbody =>
    injection hrun with hrun
    rw [← hrun]
    exact hdone _ _ hs hbody

theorem exists_returns_of_measure (m : σ → Nat) (hs : I s)
    (hagain : ∀ s s', I s → body s = .again s' → I s' ∧ m s' < m s)
    (hdone : ∀ s r, I s → body s = .done r → Q r)
    : ∃ r, Returns body s r ∧ Q r := by
  generalize hn : m s = n
  induction n using Nat.strongRecOn generalizing s with
  | ind n ih =>
    cases hbody : body s with
    | done r => exact ⟨r, returns_of_done hbody, hdone s r hs hbody⟩
    | again s' =>
      have ⟨hs', hlt⟩ := hagain s s' hs hbody
      have ⟨r, hret, hq⟩ := ih (m s') (by omega) hs' rfl
      exact ⟨r, (returns_iff_of_again hbody).mpr hret, hq⟩

inductive Reach (adv : τ → Option τ) (live : τ → Prop) (t₀ : τ) : τ → Prop where
  | refl : Reach adv live t₀ t₀
  | step {t t' : τ} : Reach adv live t₀ t → live t → adv t = some t' → Reach adv live t₀ t'

variable {body : σ → Option (Next σ ρ)} {t' : τ} {r : ρ}

section

variable {adv : τ → Option τ} {live : τ → Prop} {t₀ t₁ t : τ}

theorem Reach.mono {live' : τ → Prop} (hlive : ∀ t, live t → live' t) (h : Reach adv live t₀ t)
    : Reach adv live' t₀ t := by
  induction h with
  | refl => exact .refl
  | step _ hlive1 hadv ih => exact .step ih (hlive _ hlive1) hadv

theorem Reach.trans (h : Reach adv live t₀ t₁) (h' : Reach adv live t₁ t) : Reach adv live t₀ t := by
  induction h' with
  | refl => exact h
  | step _ hlive hadv ih => exact .step ih hlive hadv

theorem Reach.head (hlive : live t₀) (hadv : adv t₀ = some t₁) (h : Reach adv live t₁ t) : Reach adv live t₀ t :=
  Reach.trans (.step .refl hlive hadv) h

theorem Reach.cases_head (h : Reach adv live t₀ t)
    : t = t₀ ∨ live t₀ ∧ ∃ t₁, adv t₀ = some t₁ ∧ Reach adv live t₁ t := by
  induction h with
  | refl => exact .inl rfl
  | step _ hlive hadv ih =>
    right
    cases ih with
    | inl heq =>
      rw [heq] at hlive hadv
      exact ⟨hlive, _, hadv, .refl⟩
    | inr hhead =>
      have ⟨hlive0, t₁, hadv0, hreach⟩ := hhead
      exact ⟨hlive0, t₁, hadv0, .step hreach hlive hadv⟩

theorem runM_search {p : σ → τ}
    {H : τ → ρ → Prop} {N : τ → Prop} {M : ρ → Prop}
    (h : runM body fuel s = some r) (hs : I s)
    (hlive : ∀ s next, I s → live (p s) → body s = some next →
      (∃ r, next = .done r ∧ H (p s) r) ∨ ∃ s', next = .again s' ∧ adv (p s) = some (p s') ∧ I s' ∧ N (p s))
    (hend : ∀ s next, I s → ¬live (p s) → body s = some next → ∃ r, next = .done r ∧ M r)
    : (∃ t, Reach adv (fun t => live t ∧ N t) (p s) t ∧ live t ∧ H t r)
      ∨ (M r ∧ ∀ t, Reach adv live (p s) t → live t → N t) := by
  induction fuel generalizing s with
  | zero => contradiction
  | succ fuel ih =>
    cases hbody : body s with
    | none => simp [runM, hbody] at h
    | some next =>
      cases Classical.em (live (p s)) with
      | inr hdead =>
        have ⟨r', hnext, hmiss⟩ := hend s next hs hdead hbody
        simp only [runM, hbody, hnext, Option.some.injEq] at h
        rw [← h]
        refine .inr ⟨hmiss, ?_⟩
        intro t ht hlive'
        cases ht.cases_head with
        | inl heq =>
          rw [heq] at hlive'
          contradiction
        | inr hhead => exact absurd hhead.1 hdead
      | inl hlive' =>
        cases hlive s next hs hlive' hbody with
        | inl hhit =>
          have ⟨r', hnext, hhit⟩ := hhit
          simp only [runM, hbody, hnext, Option.some.injEq] at h
          rw [← h]
          exact .inl ⟨p s, .refl, hlive', hhit⟩
        | inr hagain =>
          have ⟨s', hnext, hadv, hs', hpass⟩ := hagain
          simp only [runM, hbody, hnext] at h
          cases ih h hs' with
          | inl hfound =>
            have ⟨t, ht, hrest⟩ := hfound
            exact .inl ⟨t, ht.head ⟨hlive', hpass⟩ hadv, hrest⟩
          | inr hnone =>
            refine .inr ⟨hnone.1, ?_⟩
            intro t ht ht'
            cases ht.cases_head with
            | inl heq =>
              rw [heq]
              exact hpass
            | inr hhead =>
              have ⟨_, t₁, hadv', ht1⟩ := hhead
              rw [hadv] at hadv'
              injection hadv' with hadv'
              rw [← hadv'] at ht1
              exact hnone.2 t ht1 ht'

end

end Loop
