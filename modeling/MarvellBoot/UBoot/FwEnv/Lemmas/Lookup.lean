import MarvellBoot.UBoot.FwEnv.Impl
import MarvellBoot.UBoot.Hashtable.Lemmas.Parse

namespace UBoot.FwEnv

open Mem Hashtable List

variable {v : CStr} {post pre : List Var}

abbrev Var := CStr × CStr

def entryText (var : Var) : List UInt8 := var.1 ++ equalSign :: var.2 ++ [0]

def strings (vars : List Var) : List UInt8 := vars.flatMap entryText

def listText (vars : List Var) : List UInt8 := if vars = [] then [0, 0] else strings vars ++ [0]

def IsName (name : CStr) : Prop := ∀ c ∈ name, c ≠ 0 ∧ c ≠ equalSign

def IsValue (value : CStr) : Prop := ∀ c ∈ value, c ≠ 0

structure Holds (m : Int → UInt8) (envSize : Nat) (vars : List Var) : Prop where
  text : Text m 0 (listText vars)
  fits : (listText vars).length ≤ envSize
  nodup : (vars.map Prod.fst).Nodup
  name : ∀ var ∈ vars, IsName var.1
  value : ∀ var ∈ vars, IsValue var.2

lemma strings_cons (var : Var) (vars : List Var) : strings (var :: vars) = entryText var ++ strings vars :=
  flatMap_cons

lemma strings_append (vars vars' : List Var) : strings (vars ++ vars') = strings vars ++ strings vars' :=
  flatMap_append

lemma length_entryText (var : Var) : (entryText var).length = var.1.length + var.2.length + 2 := by
  simp [entryText]
  omega

section

variable {m : Int → UInt8} {a : Int} {envSize fuel : Nat} {l name : CStr} {var : Var} {vars : List Var}

lemma entryEnd_text (h : Text m a (l ++ [0])) (hl : IsValue l) (hend : a + l.length ≤ envSize)
    (hfuel : l.length < fuel) : entryEnd m envSize fuel a = some (a + l.length) := by
  induction l generalizing a fuel with
  | nil =>
    rw [nil_append, text_cons] at h
    cases fuel with
    | zero => omega
    | succ fuel => simp [entryEnd, h.1]
  | cons c l ih =>
    rw [cons_append, text_cons] at h
    rw [length_cons] at hend hfuel ⊢
    cases fuel with
    | zero => omega
    | succ fuel =>
      rw [entryEnd, h.1, if_neg (hl c mem_cons_self), if_neg (by omega),
        ih h.2 (fun x hx => hl x (mem_cons_of_mem c hx)) (by omega) (by omega)]
      congr 1
      omega

lemma envmatch_text {n : CStr} (h : Text m a (n ++ equalSign :: v)) (hname : IsName name) (hn : IsName n)
    : envmatch name m a = some (if name = n then some (a + n.length + 1) else none) := by
  induction name generalizing a n with
  | nil =>
    cases n with
    | nil =>
      rw [nil_append, text_cons] at h
      simp [envmatch, h.1, equalSign]
    | cons d n =>
      rw [cons_append, text_cons] at h
      have hd := hn d mem_cons_self
      simp [envmatch, h.1, hd]
  | cons c name ih =>
    have hc := hname c mem_cons_self
    cases n with
    | nil =>
      rw [nil_append, text_cons] at h
      rw [envmatch, h.1, if_neg hc.2, if_neg (cons_ne_nil c name)]
    | cons d n =>
      rw [cons_append, text_cons] at h
      rw [envmatch, h.1]
      by_cases hcd : c = d
      . rw [if_pos hcd, if_neg hc.2, ih h.2 (fun x hx => hname x (mem_cons_of_mem c hx))
          (fun x hx => hn x (mem_cons_of_mem d hx)), hcd, length_cons]
        simp only [cons.injEq, true_and]
        congr 2
        congr 1
        omega
      . rw [if_neg hcd, if_neg (fun h => hcd (cons.inj h).1)]

lemma entry_ne_zero (h : Text m a (entryText var)) (hn : IsName var.1) : m a ≠ 0 := by
  rcases var with ⟨n, v⟩
  unfold entryText at h
  cases n with
  | nil =>
    rw [nil_append, cons_append, text_cons] at h
    rw [h.1]
    decide
  | cons c n =>
    rw [cons_append, cons_append, text_cons] at h
    rw [h.1]
    exact (hn c mem_cons_self).1

lemma isValue_entry (hn : IsName var.1) (hv : IsValue var.2) : IsValue (var.1 ++ equalSign :: var.2) := by
  intro c hc
  rcases mem_append.mp hc with hc | hc
  . exact (hn c hc).1
  . cases hc with
    | head => decide
    | tail _ hc => exact hv c hc

lemma search_entry (h : Text m a (entryText var)) (hname : IsName name) (hn : IsName var.1)
    (hv : IsValue var.2) (ha : 0 ≤ a) (hend : a + (entryText var).length ≤ envSize)
    : search name m envSize (fuel + 1) a
      = if name = var.1 then some (.found a (a + var.1.length + var.2.length + 1) (a + var.1.length + 1))
        else search name m envSize fuel (a + (entryText var).length) := by
  rw [length_entryText] at hend ⊢
  have hlen : (var.1 ++ equalSign :: var.2).length = var.1.length + var.2.length + 1 := by
    rw [length_append, length_cons]
    omega
  have hnxt := @entryEnd_text m a envSize (envSize + 1) _ h (isValue_entry hn hv) (by omega) (by omega)
  rw [search, if_neg (entry_ne_zero h hn), hnxt, envmatch_text (text_append.mp h).1 hname hn, hlen]
  by_cases heq : name = var.1
  . rw [if_pos heq, if_pos heq]
    dsimp only
    congr 2
    omega
  rw [if_neg heq, if_neg heq]
  dsimp only
  congr 1
  omega

lemma search_missing (h : Text m a (strings vars ++ [0])) (hname : IsName name)
    (hnames : ∀ var ∈ vars, IsName var.1) (hvalues : ∀ var ∈ vars, IsValue var.2)
    (hmissing : ∀ var ∈ vars, name ≠ var.1) (ha : 0 ≤ a) (hend : a + (strings vars).length ≤ envSize)
    (hfuel : vars.length < fuel) : search name m envSize fuel a = some .missing := by
  induction vars generalizing a fuel with
  | nil =>
    cases fuel with
    | zero => omega
    | succ fuel => simp [search, (text_cons.mp h).1]
  | cons var vars ih =>
    rw [strings_cons, append_assoc, text_append] at h
    rw [strings_cons, length_append] at hend
    rw [length_cons] at hfuel
    cases fuel with
    | zero => omega
    | succ fuel =>
      rw [search_entry h.1 hname (hnames var mem_cons_self) (hvalues var mem_cons_self) ha (by omega),
        if_neg (hmissing var mem_cons_self)]
      exact ih h.2 (fun w hw => hnames w (mem_cons_of_mem var hw))
        (fun w hw => hvalues w (mem_cons_of_mem var hw))
        (fun w hw => hmissing w (mem_cons_of_mem var hw)) (by omega) (by omega) (by omega)

lemma search_found (h : Text m a (strings (pre ++ (name, v) :: post) ++ [0]))
    (hnames : ∀ var ∈ pre ++ (name, v) :: post, IsName var.1)
    (hvalues : ∀ var ∈ pre ++ (name, v) :: post, IsValue var.2) (hpre : ∀ var ∈ pre, name ≠ var.1) (ha : 0 ≤ a)
    (hend : a + (strings (pre ++ (name, v) :: post)).length ≤ envSize) (hfuel : pre.length < fuel)
    : search name m envSize fuel a
      = some (.found (a + (strings pre).length) (a + (strings pre).length + name.length + v.length + 1)
        (a + (strings pre).length + name.length + 1)) := by
  have hname : IsName name := hnames (name, v) (mem_append_right pre mem_cons_self)
  induction pre generalizing a fuel with
  | nil =>
    rw [nil_append, strings_cons, append_assoc, text_append] at h
    rw [nil_append, strings_cons, length_append] at hend
    cases fuel with
    | zero => omega
    | succ fuel =>
      rw [search_entry h.1 hname hname (hvalues (name, v) mem_cons_self) ha (by omega), if_pos rfl]
      simp [strings]
  | cons var pre ih =>
    rw [cons_append, strings_cons, append_assoc, text_append] at h
    rw [cons_append, strings_cons, length_append] at hend
    rw [length_cons] at hfuel
    cases fuel with
    | zero => omega
    | succ fuel =>
      rw [search_entry h.1 hname (hnames var mem_cons_self) (hvalues var mem_cons_self) ha (by omega),
        if_neg (hpre var mem_cons_self)]
      rw [ih h.2 (fun w hw => hnames w (mem_cons_of_mem var hw))
        (fun w hw => hvalues w (mem_cons_of_mem var hw))
        (fun w hw => hpre w (mem_cons_of_mem var hw)) (by omega) (by omega) (by omega),
        strings_cons, length_append]
      congr 2
      . omega
      . omega
      . omega

lemma length_le_strings (vars : List Var) : vars.length ≤ (strings vars).length := by
  induction vars with
  | nil => exact le_refl 0
  | cons var vars ih =>
    rw [strings_cons, length_append, length_cons, length_entryText]
    omega

section

variable (h : Holds m envSize vars)

include h

lemma Holds.strings : Text m 0 (FwEnv.strings vars ++ [0]) := by
  have htext := h.text
  unfold listText at htext
  split at htext
  . next hnil =>
    rw [hnil]
    exact text_cons.mpr ⟨(text_cons.mp htext).1, rfl⟩
  . exact htext

lemma Holds.strings_lt : (FwEnv.strings vars).length < envSize := by
  have hfits := h.fits
  unfold listText at hfits
  split at hfits
  . next hnil =>
    rw [hnil]
    exact lt_of_lt_of_le (by decide) hfits
  . rw [length_append, length_singleton] at hfits
    omega

lemma Holds.search_eq_missing (hname : IsName name) (hmissing : ∀ var ∈ vars, name ≠ var.1)
    : search name m envSize (envSize + 1) 0 = some .missing := by
  have hlt := h.strings_lt
  have hlen := length_le_strings vars
  exact search_missing h.strings hname h.name h.value hmissing (le_refl 0) (by omega) (by omega)

end

section

variable (h : Holds m envSize (pre ++ (name, v) :: post))

include h

lemma Holds.search_eq_found (hpre : ∀ var ∈ pre, name ≠ var.1)
    : search name m envSize (envSize + 1) 0
      = some (.found ((FwEnv.strings pre).length : Nat) ((FwEnv.strings pre).length + name.length + v.length + 1)
        ((FwEnv.strings pre).length + name.length + 1)) := by
  have hlt := h.strings_lt
  have hlen := length_le_strings (pre ++ (name, v) :: post)
  rw [length_append] at hlen
  rw [search_found h.strings h.name h.value hpre (le_refl 0) (by omega) (by omega)]
  simp

lemma Holds.value_eq : strAt m (envSize + 1) ((FwEnv.strings pre).length + name.length + 1) = v := by
  have hlt := h.strings_lt
  have htext := h.strings
  rw [strings_append, strings_cons] at htext hlt
  rw [append_assoc, text_append, append_assoc, text_append] at htext
  have hentry := htext.2.1
  unfold entryText at hentry
  rw [append_assoc, cons_append, text_append, text_cons] at hentry
  rw [length_append, length_append, length_entryText] at hlt
  dsimp only at hlt
  have hvalue := hentry.2.2
  rw [zero_add] at hvalue
  exact strAt_text hvalue (h.value (name, v) (mem_append_right pre mem_cons_self)) (by omega)

end

lemma Holds.fwGetenv_eq (h : Holds m envSize vars) (hname : IsName name)
    : fwGetenv m envSize name = some (vars.lookup name) := by
  unfold fwGetenv
  cases hlookup : vars.lookup name with
  | none =>
    have hmissing := lookup_eq_none_iff.mp hlookup
    rw [h.search_eq_missing hname fun var hvar => by simpa using hmissing var hvar]
  | some v =>
    have ⟨pre, post, hvars, hpre⟩ := lookup_eq_some_iff.mp hlookup
    subst hvars
    rw [h.search_eq_found fun var hvar => by simpa using hpre var hvar]
    dsimp only
    rw [h.value_eq]

end

end UBoot.FwEnv
