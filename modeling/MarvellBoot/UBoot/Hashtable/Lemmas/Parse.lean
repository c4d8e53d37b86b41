import MarvellBoot.Lib.Text
import MarvellBoot.UBoot.Hashtable.Linear

namespace UBoot.Hashtable

open Mem Loop List

section

variable {m : Int → UInt8} {a : Int} {c : UInt8} {l l' : List UInt8} {fuel : Nat}

lemma scanWhile_text {p : UInt8 → Bool} (h : Text m a (l ++ c :: l')) (hp : ∀ x ∈ l, p x = true)
    (hc : p c = false) (hfuel : l.length < fuel) : scanWhile p m fuel a = some (a + l.length) := by
  induction l generalizing a fuel with
  | nil =>
    rw [nil_append, text_cons] at h
    cases fuel with
    | zero => omega
    | succ fuel => simp [scanWhile, h.1, hc]
  | cons x l ih =>
    rw [cons_append, text_cons] at h
    cases fuel with
    | zero => omega
    | succ fuel =>
      rw [length_cons] at hfuel
      rw [scanWhile, h.1, if_pos (hp x mem_cons_self),
        ih h.2 (fun y hy => hp y (mem_cons_of_mem _ hy)) (by omega), length_cons]
      congr 1
      omega

lemma strAt_text (h : Text m a (l ++ [0])) (hl : ∀ x ∈ l, x ≠ 0) (hfuel : l.length < fuel) : strAt m fuel a = l := by
  induction l generalizing a fuel with
  | nil =>
    rw [nil_append, text_cons] at h
    cases fuel with
    | zero => omega
    | succ fuel => simp [strAt, h.1]
  | cons x l ih =>
    rw [cons_append, text_cons] at h
    cases fuel with
    | zero => omega
    | succ fuel =>
      rw [length_cons] at hfuel
      rw [strAt, h.1, if_neg (hl x mem_cons_self), ih h.2 (fun y hy => hl y (mem_cons_of_mem _ hy)) (by omega)]

end

section

variable {sep : UInt8} {data : CStr}

lemma escape_cons (c : UInt8)
    : escape sep (c :: data) = (if needsEscape sep c then [backslash, c] else [c]) ++ escape sep data :=
  flatMap_cons

lemma length_escape (sep : UInt8) (data : CStr)
    : (escape sep data).length = data.length + data.countP (needsEscape sep) := by
  induction data with
  | nil => rfl
  | cons c data ih =>
    rw [escape_cons, length_append, ih, length_cons, countP_cons]
    split
    . rw [length_cons, length_singleton]
      omega
    . rw [length_singleton]
      omega

lemma parseValue_text {m : Int → UInt8} {sp dp : Int} {fuel : Nat} (hsep : backslash ≠ sep)
    (h : Text m dp (escape sep data ++ [sep])) (hdata : ∀ c ∈ data, c ≠ 0) (hsp : sp ≤ dp)
    (hfuel : data.length < fuel)
    : parseValue sep fuel m sp dp = some (store m sp data, sp + data.length, dp + (escape sep data).length) := by
  induction data generalizing m sp dp fuel with
  | nil =>
    have hdp : m dp = sep := (text_cons.mp h).1
    cases fuel with
    | zero => omega
    | succ fuel => simp [parseValue, hdp, escape]
  | cons c data ih =>
    have hc := hdata c mem_cons_self
    have hrest : ∀ c ∈ data, c ≠ 0 := fun c hc => hdata c (mem_cons_of_mem _ hc)
    have hstore : store (store m sp [c]) (sp + 1) data = store m sp (c :: data) := (store_append m sp [c] data).symm
    rw [escape_cons] at h
    cases fuel with
    | zero => omega
    | succ fuel =>
      rw [length_cons] at hfuel
      rw [parseValue, escape_cons]
      by_cases hneeds : needsEscape sep c = true
      . rw [if_pos hneeds] at h ⊢
        simp only [cons_append, nil_append, text_cons] at h
        have htext : Text (store m sp [c]) (dp + 1 + 1) (escape sep data ++ [sep]) :=
          h.2.2.store (.inl (by rw [length_singleton]; omega))
        rw [if_pos ⟨by rw [h.1]; decide, by rw [h.1]; exact hsep⟩]
        dsimp only
        rw [if_pos ⟨h.1, by rw [h.2.1]; exact hc⟩, h.2.1, ih htext hrest (by omega) (by omega), hstore]
        simp only [length_append, length_cons, length_nil]
        congr 2
        . congr 1
          . omega
          . omega
      rw [if_neg hneeds] at h ⊢
      simp only [cons_append, nil_append, text_cons] at h
      simp only [needsEscape, Bool.decide_or, Bool.or_eq_true, decide_eq_true_eq, not_or] at hneeds
      have htext : Text (store m sp [c]) (dp + 1) (escape sep data ++ [sep]) :=
        h.2.store (.inl (by rw [length_singleton]; omega))
      rw [if_pos ⟨by rw [h.1]; exact hc, by rw [h.1]; exact hneeds.1⟩]
      dsimp only
      rw [if_neg (fun hslash => hneeds.2 (h.1.symm.trans hslash.1)), h.1, ih htext hrest (by omega) (by omega), hstore]
      simp only [length_append, length_cons, length_nil]
      congr 2
      . congr 1
        . omega
        . omega

end

end UBoot.Hashtable
