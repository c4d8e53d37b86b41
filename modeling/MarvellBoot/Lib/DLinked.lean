import Mathlib

/-!
Doubly linked lists in an array of nodes. A list is given by the positions of its nodes and their
values, `p` is the position before its first node and `t` the one after its last node.
-/

namespace DLinked

open List

structure Node (α : Type u) where
  val : α
  next : Nat
  prev : Nat

variable {α : Type u}

def headOr (t : Nat) : List (Nat × α) → Nat
  | [] => t
  | (x, _) :: _ => x

def lastOr (p : Nat) : List (Nat × α) → Nat
  | [] => p
  | (x, _) :: rest => lastOr x rest

def Linked (d : Nat → Node α) : (p : Nat) → List (Nat × α) → (t : Nat) → Prop
  | _, [], _ => True
  | p, (x, v) :: rest, t => d x = ⟨v, headOr t rest, p⟩ ∧ Linked d x rest t

variable {d d' : Nat → Node α} {p p' t t' : Nat} {l l' : List (Nat × α)} (x : Nat × α)

@[simp]
lemma headOr_nil : headOr t ([] : List (Nat × α)) = t := rfl

@[simp]
lemma headOr_cons : headOr t (x :: l) = x.1 := rfl

@[simp]
lemma lastOr_nil : lastOr p ([] : List (Nat × α)) = p := rfl

@[simp]
lemma lastOr_cons : lastOr p (x :: l) = lastOr x.1 l := rfl

lemma headOr_append : headOr t (l ++ l') = headOr (headOr t l') l := by
  cases l with
  | nil => rfl
  | cons x l => rfl

lemma lastOr_append : lastOr p (l ++ l') = lastOr (lastOr p l) l' := by
  induction l generalizing p with
  | nil => rfl
  | cons x l ih =>
    rw [cons_append, lastOr_cons, lastOr_cons, ih]

lemma lastOr_mem (h : l ≠ []) : ∃ v, (lastOr p l, v) ∈ l := by
  induction l generalizing p with
  | nil => contradiction
  | cons x l ih =>
    cases l with
    | nil => exact ⟨x.2, mem_cons_self⟩
    | cons y l =>
      have ⟨v, hv⟩ := ih (p := x.1) (cons_ne_nil y l)
      exact ⟨v, mem_cons_of_mem _ hv⟩

lemma linked_append : Linked d p (l ++ l') t ↔ Linked d p l (headOr t l') ∧ Linked d (lastOr p l) l' t := by
  induction l generalizing p with
  | nil => simp [Linked]
  | cons x l ih =>
    rw [cons_append, Linked, Linked, headOr_append, ih, lastOr_cons, and_assoc]

section

variable (h : Linked d p l t)

include h

lemma Linked.congr (heq : ∀ x ∈ l, d' x.1 = d x.1) : Linked d' p l t := by
  induction l generalizing p with
  | nil => trivial
  | cons x l ih =>
    refine ⟨?_, ih h.2 ?_⟩
    . rw [heq x mem_cons_self]
      exact h.1
    . intro y hy
      exact heq y (mem_cons_of_mem _ hy)

lemma Linked.next_last (hne : l ≠ []) : (d (lastOr p l)).next = t := by
  induction l generalizing p with
  | nil => contradiction
  | cons x l ih =>
    cases l with
    | nil =>
      rw [lastOr_cons, lastOr_nil, h.1]
      rfl
    | cons y l => exact ih h.2 (cons_ne_nil y l)

lemma Linked.prev_first (hne : l ≠ []) : (d (headOr t l)).prev = p := by
  cases l with
  | nil => contradiction
  | cons x l => rw [headOr_cons, h.1]

lemma Linked.relinkNext (hne : l.Pairwise fun x y => x.1 ≠ y.1)
    (hother : ∀ x ∈ l, x.1 ≠ lastOr p l → d' x.1 = d x.1)
    (hlast : l ≠ [] → d' (lastOr p l) = { d (lastOr p l) with next := t' }) : Linked d' p l t' := by
  induction l generalizing p with
  | nil => trivial
  | cons x l ih =>
    rw [pairwise_cons] at hne
    rw [lastOr_cons] at hother hlast
    have hlast := hlast (cons_ne_nil _ _)
    cases l with
    | nil =>
      refine ⟨?_, trivial⟩
      rw [lastOr_nil] at hlast
      rw [hlast, h.1]
      rfl
    | cons y l =>
      have ⟨v, hv⟩ := lastOr_mem (p := x.1) (cons_ne_nil y l)
      refine ⟨?_, ih h.2 hne.2 ?_ (fun _ => hlast)⟩
      . rw [hother x mem_cons_self (hne.1 _ hv), h.1]
        rfl
      . intro z hz
        exact hother z (mem_cons_of_mem _ hz)

lemma Linked.relinkPrev (hne : l.Pairwise fun x y => x.1 ≠ y.1)
    (hother : ∀ x ∈ l, x.1 ≠ headOr t l → d' x.1 = d x.1)
    (hfirst : l ≠ [] → d' (headOr t l) = { d (headOr t l) with prev := p' }) : Linked d' p' l t := by
  cases l with
  | nil => trivial
  | cons x l =>
    rw [pairwise_cons] at hne
    rw [headOr_cons] at hother hfirst
    refine ⟨?_, h.2.congr ?_⟩
    . rw [hfirst (cons_ne_nil _ _), h.1]
    . intro y hy
      exact hother y (mem_cons_of_mem _ hy) (Ne.symm (hne.1 y hy))

end

/--
The rule for changing the middle of a list: besides the new nodes only the links of its neighbours
change.
-/
lemma Linked.replace {pre mid mid' post : List (Nat × α)} (h : Linked d p (pre ++ mid ++ post) t)
    (hpre : pre.Pairwise fun x y => x.1 ≠ y.1) (hpost : post.Pairwise fun x y => x.1 ≠ y.1)
    (hpreOther : ∀ x ∈ pre, x.1 ≠ lastOr p pre → d' x.1 = d x.1)
    (hpreLast : pre ≠ [] → d' (lastOr p pre) = { d (lastOr p pre) with next := headOr (headOr t post) mid' })
    (hmid : Linked d' (lastOr p pre) mid' (headOr t post))
    (hpostOther : ∀ x ∈ post, x.1 ≠ headOr t post → d' x.1 = d x.1)
    (hpostFirst : post ≠ [] → d' (headOr t post) = { d (headOr t post) with prev := lastOr (lastOr p pre) mid' })
    : Linked d' p (pre ++ mid' ++ post) t := by
  rw [append_assoc, linked_append] at h
  rw [append_assoc, linked_append, linked_append, headOr_append]
  rw [linked_append] at h
  exact ⟨h.1.relinkNext hpre hpreOther hpreLast, hmid, h.2.2.relinkPrev hpost hpostOther hpostFirst⟩

end DLinked
