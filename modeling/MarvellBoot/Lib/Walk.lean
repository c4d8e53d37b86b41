import MarvellBoot.Lib.Loop

/-!
Walks along a relation. Where only finitely many states are reached, every walk ends exactly if no
state is reached again from itself.
-/

open Relation Loop

namespace Walk

variable {α : Type*} {next : α → α → Prop} {s t : α}

def Revisits (next : α → α → Prop) (s : α) : Prop := ∃ t, ReflTransGen next s t ∧ TransGen next t t

def Ends (next : α → α → Prop) (s : α) : Prop := Acc (fun t s => next s t) s

lemma Ends.not_transGen (h : Ends next s) : ¬TransGen next s s := by
  induction h with
  | intro s _ ih =>
    intro hcycle
    have ⟨t, hstep, hback⟩ := TransGen.head'_iff.mp hcycle
    apply ih t hstep
    exact TransGen.tail' hback hstep

lemma Ends.of_reflTransGen (h : Ends next s) (hreach : ReflTransGen next s t) : Ends next t := by
  induction hreach with
  | refl => assumption
  | tail _ hstep ih => exact ih.inv hstep

lemma ends_iff_not_revisits (hfin : {t | ReflTransGen next s t}.Finite) : Ends next s ↔ ¬Revisits next s := by
  constructor
  . intro h ⟨t, hreach, hcycle⟩
    exact (h.of_reflTransGen hreach).not_transGen hcycle
  intro h
  let reached := {t // ReflTransGen next s t}
  let before : reached → reached → Prop := fun a b => TransGen next b.1 a.1
  have : Finite reached := hfin
  have : Std.Irrefl before := ⟨fun a ha => h ⟨a.1, a.2, ha⟩⟩
  have hwf : WellFounded before := Finite.wellFounded_of_trans_of_irrefl before
  have hacc : ∀ a : reached, Ends next a.1 := by
    intro a
    induction a using hwf.induction with
    | _ a ih =>
      apply Acc.intro
      intro t hstep
      exact ih ⟨t, a.2.tail hstep⟩ (TransGen.single hstep)
  exact hacc ⟨s, ReflTransGen.refl⟩

lemma isSome_run_iff {σ ρ : Type*} {body : σ → Loop.Next σ ρ} {s : σ}
    : (∃ fuel, (run body fuel s).isSome) ↔ Ends (fun s t => body s = .again t) s := by
  constructor
  . intro ⟨fuel, h⟩
    induction fuel generalizing s with
    | zero => simp [run] at h
    | succ fuel ih =>
      apply Acc.intro
      intro t hstep
      simp only [run, hstep] at h
      exact ih h
  intro h
  induction h with
  | intro s _ ih =>
    cases hbody : body s with
    | done r => exact ⟨1, by simp [run, hbody]⟩
    | again t =>
      have ⟨fuel, hfuel⟩ := ih t hbody
      exact ⟨fuel + 1, by simpa [run, hbody] using hfuel⟩

end Walk
