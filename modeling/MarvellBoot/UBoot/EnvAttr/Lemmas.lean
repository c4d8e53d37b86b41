import MarvellBoot.UBoot.EnvAttr.Impl

namespace UBoot.EnvAttr

open Hashtable EnvFlags List Option

def Clean (c : UInt8) : Prop := c ≠ envAttrListDelim ∧ c ≠ envAttrSep ∧ isspace c = false ∧ c ≠ 0

instance : DecidablePred Clean := fun _ => inferInstanceAs (Decidable (_ ∧ _))

structure AttrEntry where
  before : Nat
  name : CStr
  after : Nat
  attributes : Option (Nat × CStr × Nat)

def spaces (n : Nat) : CStr := List.replicate n space

def attributesText : Option (Nat × CStr × Nat) → CStr
  | none => []
  | some (before, attributes, after) => envAttrSep :: (spaces before ++ attributes ++ spaces after)

def AttrEntry.text (e : AttrEntry) : CStr := spaces e.before ++ e.name ++ spaces e.after ++ attributesText e.attributes

structure AttrEntry.WellFormed (e : AttrEntry) : Prop where
  name : ∀ c ∈ e.name, Clean c
  attributes : ∀ a ∈ e.attributes, ∀ c ∈ a.2.1, Clean c

def listText (entries : List AttrEntry) : CStr := [envAttrListDelim].intercalate (entries.map AttrEntry.text)

def reported (attrList : CStr) : Option (Int × List (CStr × Option CStr)) :=
  envAttrWalk (fun name attributes found => some (0, found ++ [(name, attributes)])) (some attrList) []

def lastNamed (name : CStr) (found : List (CStr × Option CStr)) : Option (Option CStr) :=
  (found.filter fun entry => entry.1 = name).getLast?.map Prod.snd

section

variable {pat : CStr} {s : CStr}

lemma strstrLoop_spec (pat s : CStr) (base : Nat)
    : (strstrLoop pat s base = none ∧ ∀ i ≤ s.length, ¬pat <+: s.drop i)
      ∨ ∃ i ≤ s.length, strstrLoop pat s base = some (base + i) ∧ pat <+: s.drop i ∧ ∀ j < i, ¬pat <+: s.drop j := by
  induction s generalizing base with
  | nil =>
    rw [strstrLoop]
    split
    next h =>
      right
      refine ⟨0, le_refl 0, rfl, ?_, ?_⟩
      . rw [h]
        exact nil_prefix
      . intro j hj
        omega
    next h =>
    left
    refine ⟨rfl, ?_⟩
    intro i _ hpre
    rw [drop_nil, prefix_nil] at hpre
    contradiction
  | cons c s ih =>
    rw [strstrLoop]
    split
    next h =>
      right
      refine ⟨0, Nat.zero_le _, rfl, h, ?_⟩
      intro j hj
      omega
    next h =>
    cases ih (base + 1) with
    | inl hnone =>
      left
      refine ⟨hnone.1, ?_⟩
      intro i hi
      cases i with
      | zero => exact h
      | succ i =>
        rw [length_cons] at hi
        exact hnone.2 i (by omega)
    | inr hsome =>
      have ⟨i, hi, hres, hpre, hbefore⟩ := hsome
      right
      refine ⟨i + 1, ?_, ?_, hpre, ?_⟩
      . rw [length_cons]
        omega
      . rw [hres]
        congr 1
        omega
      intro j hj
      cases j with
      | zero => exact h
      | succ j => exact hbefore j (by omega)

def Exact (s pat : CStr) (pos : Nat) : Prop := pat <+: s.drop pos ∧ isExactMatch s pat pos = true

lemma Exact.lt {pos : Nat} (h : Exact s pat pos) (hpat : pat ≠ []) : pos < s.length := by
  by_contra hge
  have hpre := h.1
  rw [drop_eq_nil_of_le (by omega), prefix_nil] at hpre
  contradiction

lemma strstr_spec (s pat : CStr) (cur : Nat)
    : (strstr s pat cur = none ∧ ∀ pos, cur ≤ pos → pos ≤ s.length → ¬pat <+: s.drop pos)
      ∨ ∃ pos, cur ≤ pos ∧ strstr s pat cur = some pos ∧ pat <+: s.drop pos
        ∧ ∀ pos', cur ≤ pos' → pos' < pos → ¬pat <+: s.drop pos' := by
  have hdrop (i : Nat) : (s.drop cur).drop i = s.drop (cur + i) := drop_drop
  cases strstrLoop_spec pat (s.drop cur) cur with
  | inl hnone =>
    left
    refine ⟨hnone.1, ?_⟩
    intro pos hcur hlen
    have h := hnone.2 (pos - cur) (by rw [length_drop]; omega)
    rw [hdrop, Nat.add_sub_cancel' hcur] at h
    exact h
  | inr hsome =>
    have ⟨i, _, hres, hpre, hbefore⟩ := hsome
    rw [hdrop] at hpre
    right
    refine ⟨cur + i, by omega, hres, hpre, ?_⟩
    intro pos hcur hlt
    have h := hbefore (pos - cur) (by omega)
    rw [hdrop, Nat.add_sub_cancel' hcur] at h
    exact h

lemma reverseSearchLoop_spec (hpat : pat ≠ []) {fuel cur : Nat} (result : Option Nat) (hfuel : s.length < fuel + cur)
    (hpos : 0 < fuel)
    : (reverseSearchLoop s pat fuel cur result = some result ∧ ∀ pos, cur ≤ pos → ¬Exact s pat pos)
      ∨ ∃ pos, cur ≤ pos ∧ reverseSearchLoop s pat fuel cur result = some (some pos) ∧ Exact s pat pos
        ∧ ∀ pos', pos < pos' → ¬Exact s pat pos' := by
  induction fuel generalizing cur result with
  | zero => omega
  | succ fuel ih =>
    rw [reverseSearchLoop]
    cases strstr_spec s pat cur with
    | inl hnone =>
      left
      rw [hnone.1]
      refine ⟨rfl, ?_⟩
      intro pos hcur hexact
      exact hnone.2 pos hcur (le_of_lt (hexact.lt hpat)) hexact.1
    | inr hsome =>
      have ⟨pos, hcur, hres, hpre, hbefore⟩ := hsome
      have hlt : pos < s.length := by
        by_contra hge
        rw [drop_eq_nil_of_le (by omega), prefix_nil] at hpre
        contradiction
      rw [hres]
      dsimp only
      -- before the match there is none
      have hskip {pos' : Nat} (hcur' : cur ≤ pos') (hexact : Exact s pat pos') : pos ≤ pos' := by
        by_contra hlt'
        exact hbefore pos' hcur' (by omega) hexact.1
      cases @ih (pos + 1) (if isExactMatch s pat pos = true then some pos else result) (by omega) (by omega) with
      | inl hlast =>
        rw [hlast.1]
        split
        next hexact =>
          right
          exact ⟨pos, hcur, rfl, ⟨hpre, hexact⟩, fun pos' hlt' => hlast.2 pos' hlt'⟩
        next hexact =>
        left
        refine ⟨rfl, ?_⟩
        intro pos' hcur' hexact'
        have hle := hskip hcur' hexact'
        by_cases heq : pos' = pos
        . rw [heq] at hexact'
          exact hexact hexact'.2
        . exact hlast.2 pos' (by omega) hexact'
      | inr hlater =>
        have ⟨pos', hcur', hres', hrest⟩ := hlater
        right
        exact ⟨pos', by omega, hres', hrest⟩

end

variable {c : UInt8} {n : Nat}

section

variable {pat rest : CStr} {e : AttrEntry} {pos : Nat}

lemma Clean.ne_space (h : Clean c) : c ≠ space := by
  intro heq
  have hspace := h.2.2.1
  rw [heq] at hspace
  contradiction

lemma mem_spaces (h : c ∈ spaces n) : c = space := (mem_replicate.mp h).2

lemma dropWhile_spaces (n : Nat) (s : CStr) : (spaces n ++ s).dropWhile (· = space) = s.dropWhile (· = space) := by
  apply dropWhile_append_of_pos
  intro c hc
  simpa using mem_spaces hc

def Follows (rest : CStr) : Prop := rest = [] ∨ ∃ tail, rest = envAttrListDelim :: tail

lemma delim_notMem_text (h : e.WellFormed) : envAttrListDelim ∉ e.text := by
  have hspaces (n : Nat) : envAttrListDelim ∉ spaces n := by
    intro hmem
    have := mem_spaces hmem
    contradiction
  have hname : envAttrListDelim ∉ e.name := by
    intro hmem
    exact (h.name _ hmem).1 rfl
  unfold AttrEntry.text
  simp only [mem_append, hspaces, hname, or_false, false_or]
  cases hattr : e.attributes with
  | none => simp [attributesText]
  | some a =>
    have hmem : envAttrListDelim ∉ a.2.1 := by
      intro hmem
      exact (h.attributes a hattr _ hmem).1 rfl
    simp only [attributesText, mem_cons, mem_append, hspaces, hmem, or_false]
    decide

def behind (e : AttrEntry) (rest : CStr) : CStr := spaces e.after ++ (attributesText e.attributes ++ rest)

lemma text_append (e : AttrEntry) (rest : CStr) : e.text ++ rest = spaces e.before ++ (e.name ++ behind e rest) := by
  simp only [AttrEntry.text, behind, append_assoc]

lemma drop_before (e : AttrEntry) (rest : CStr) : (e.text ++ rest).drop e.before = e.name ++ behind e rest := by
  have hlen : (spaces e.before).length = e.before := by simp [spaces]
  rw [text_append]
  exact drop_left' hlen

lemma dropWhile_behind (hrest : Follows rest)
    : (behind e rest).dropWhile (· = space) = attributesText e.attributes ++ rest := by
  unfold behind
  rw [dropWhile_spaces]
  cases e.attributes with
  | some a => rfl
  | none =>
    rcases hrest with hnil | ⟨tail, htail⟩
    . rw [hnil]
      rfl
    . rw [htail]
      rfl

lemma headD_attributesText (attributes : Option (Nat × CStr × Nat)) (hrest : Follows rest)
    : (attributesText attributes ++ rest).headD 0 = envAttrSep
      ∨ (attributesText attributes ++ rest).headD 0 = envAttrListDelim
      ∨ (attributesText attributes ++ rest).headD 0 = 0 := by
  cases attributes with
  | some a => exact .inl rfl
  | none =>
    rcases hrest with hnil | ⟨tail, htail⟩
    . rw [hnil]
      exact .inr (.inr rfl)
    . rw [htail]
      exact .inr (.inl rfl)

lemma behind_ne_cons {l : CStr} (hrest : Follows rest) (hc : Clean c) : behind e rest ≠ c :: l := by
  intro heq
  have hdrop := @dropWhile_behind _ e hrest
  have hhead := headD_attributesText e.attributes hrest
  rw [heq, dropWhile_cons_of_neg (by simpa using hc.ne_space)] at hdrop
  rw [← hdrop, headD_cons] at hhead
  rcases hhead with h | h | h
  . exact hc.2.1 h
  . exact hc.1 h
  . exact hc.2.2.2 h

lemma eq_space_of_isExactMatch (he : e.WellFormed) (hpos : pos ≤ e.text.length)
    (h : isExactMatch (e.text ++ rest) pat pos = true) : ∀ c ∈ (e.text ++ rest).take pos, c = space := by
  have htake : (e.text ++ rest).take pos = e.text.take pos := take_append_of_le_length hpos
  rw [htake]
  unfold isExactMatch prevch at h
  rw [htake, decide_eq_true_eq] at h
  rcases h.1 with hzero | hdelim | hnone
  . rw [hzero]
    intro c hc
    contradiction
  . exfalso
    have hmem := mem_of_mem_head? hdelim
    have hmem := (dropWhile_sublist _).mem hmem
    rw [mem_reverse] at hmem
    exact delim_notMem_text he (mem_of_mem_take hmem)
  . rw [head?_eq_none_iff, dropWhile_eq_nil_iff] at hnone
    intro c hc
    simpa using hnone c (mem_reverse.mpr hc)

lemma exact_head_iff (he : e.WellFormed) (hrest : Follows rest) (hclean : ∀ c ∈ pat, Clean c) (hpat : pat ≠ [])
    (hpos : pos ≤ e.text.length) : Exact (e.text ++ rest) pat pos ↔ pos = e.before ∧ e.name = pat := by
  constructor
  . intro ⟨hpre, hexact⟩
    have ⟨c, pat', hcons⟩ := exists_cons_of_ne_nil hpat
    have hc : Clean c := hclean c (by rw [hcons]; exact mem_cons_self)
    have hspaces := eq_space_of_isExactMatch he hpos hexact
    have ⟨l, hl⟩ := hpre
    -- what is left behind the spaces begins with the match
    have hdrop : (e.text ++ rest).dropWhile (· = space) = (e.text ++ rest).drop pos := by
      conv => lhs; rw [← take_append_drop pos (e.text ++ rest)]
      rw [dropWhile_append_of_pos (by simpa using hspaces), ← hl, hcons, cons_append,
        dropWhile_cons_of_neg (by simpa using hc.ne_space)]
    rw [text_append, dropWhile_spaces] at hdrop
    rw [text_append] at hl
    have hname : ∃ d name', e.name = d :: name' := by
      cases hname : e.name with
      | cons d name' => exact ⟨d, name', rfl⟩
      | nil =>
        exfalso
        rw [hname, nil_append, dropWhile_behind hrest] at hdrop
        have hhead := headD_attributesText e.attributes hrest
        rw [hname, nil_append] at hl
        rw [hdrop, ← hl, hcons, cons_append, headD_cons] at hhead
        rcases hhead with h | h | h
        . exact hc.2.1 h
        . exact hc.1 h
        . exact hc.2.2.2 h
    have ⟨d, name', hname⟩ := hname
    have hd : Clean d := he.name d (by rw [hname]; exact mem_cons_self)
    have hkeep : (e.name ++ behind e rest).dropWhile (· = space) = e.name ++ behind e rest := by
      rw [hname, cons_append, dropWhile_cons_of_neg (by simpa using hd.ne_space)]
    rw [hkeep] at hdrop
    have hbefore : pos = e.before := by
      have hlen := congrArg length hdrop
      have hlen' : (e.text ++ rest).length = e.before + (e.name ++ behind e rest).length := by
        rw [text_append, length_append]
        simp [spaces]
      rw [← text_append, length_drop, hlen', hname] at hlen
      simp only [length_append, length_cons] at hlen
      omega
    refine ⟨hbefore, ?_⟩
    rw [← hdrop] at hl
    rcases append_eq_append_iff.mp hl with ⟨name2, hname2, _⟩ | ⟨pat2, hpat2, hbehind⟩
    . cases name2 with
      | nil => rw [hname2, append_nil]
      | cons x name2 =>
        exfalso
        have hx : Clean x := he.name x (by rw [hname2]; simp)
        have hnext : nextch (e.text ++ rest) (pos + pat.length) = x := by
          unfold nextch
          rw [← drop_drop, hbefore, drop_before, hname2, append_assoc, drop_left, cons_append,
            dropWhile_cons_of_neg (by simpa using hx.ne_space), headD_cons]
        unfold isExactMatch at hexact
        rw [hnext, decide_eq_true_eq] at hexact
        rcases hexact.2 with h | h | h
        . exact hx.2.1 h
        . exact hx.1 h
        . exact hx.2.2.2 h
    cases pat2 with
    | nil => rw [hpat2, append_nil]
    | cons x pat2 =>
      exfalso
      have hx : Clean x := hclean x (by rw [hpat2]; simp)
      exact behind_ne_cons hrest hx hbehind
  . intro ⟨hbefore, hname⟩
    rw [hbefore]
    constructor
    . rw [drop_before, hname]
      exact prefix_append _ _
    unfold isExactMatch
    rw [decide_eq_true_eq]
    constructor
    . right
      right
      unfold prevch
      have htake : (e.text ++ rest).take e.before = spaces e.before := by
        have hlen : (spaces e.before).length = e.before := by simp [spaces]
        rw [text_append]
        exact take_left' hlen
      rw [htake, head?_eq_none_iff, dropWhile_eq_nil_iff]
      intro c hc
      simpa using mem_spaces (mem_reverse.mp hc)
    . unfold nextch
      rw [← drop_drop, drop_before, ← hname, drop_left, dropWhile_behind hrest]
      exact headD_attributesText e.attributes hrest

lemma exact_tail_iff (t tail : CStr)
    : Exact (t ++ envAttrListDelim :: tail) pat (t.length + 1 + pos) ↔ Exact tail pat pos := by
  have hdrop (n : Nat) : (t ++ envAttrListDelim :: tail).drop (t.length + 1 + n) = tail.drop n := by
    rw [Nat.add_assoc, ← drop_drop, drop_left, Nat.add_comm, drop_succ_cons]
  have htake : (t ++ envAttrListDelim :: tail).take (t.length + 1 + pos) = t ++ envAttrListDelim :: tail.take pos := by
    rw [Nat.add_assoc, take_length_add_append, Nat.add_comm, take_succ_cons]
  have hprev : prevch (t ++ envAttrListDelim :: tail) (t.length + 1 + pos)
      = (prevch tail pos).or (some envAttrListDelim) := by
    unfold prevch
    rw [htake, reverse_append, reverse_cons, append_assoc, dropWhile_append]
    split
    next hempty =>
      rw [List.isEmpty_iff] at hempty
      rw [hempty]
      rfl
    next hempty =>
    cases hd : dropWhile (fun x => decide (x = space)) (tail.take pos).reverse with
    | nil =>
      rw [hd] at hempty
      contradiction
    | cons c l => rfl
  have hnext : nextch (t ++ envAttrListDelim :: tail) (t.length + 1 + pos + pat.length)
      = nextch tail (pos + pat.length) := by
    unfold nextch
    rw [Nat.add_assoc, hdrop]
  unfold Exact isExactMatch
  rw [hdrop, hprev, hnext, decide_eq_true_eq, decide_eq_true_eq]
  have hstart : pos = 0 → prevch tail pos = none := by
    intro h
    rw [h]
    rfl
  cases hp : prevch tail pos with
  | none => simp
  | some c =>
    rw [hp] at hstart
    have hne : pos ≠ 0 := by
      intro h
      have := hstart h
      contradiction
    simp [hne]

lemma entryAttributes_behind (he : e.WellFormed) (hrest : Follows rest)
    : entryAttributes (behind e rest) = (e.attributes.map fun a => a.2.1).getD [] := by
  unfold entryAttributes
  rw [dropWhile_behind hrest]
  cases hattr : e.attributes with
  | none =>
    rcases hrest with hnil | ⟨tail, htail⟩
    . rw [hnil]
      rfl
    . rw [htail]
      rfl
  | some a =>
    have hclean := he.attributes a hattr
    have hstop : (spaces a.2.2 ++ rest).takeWhile (fun c => decide (c ≠ envAttrListDelim ∧ c ≠ space)) = [] := by
      cases hafter : a.2.2 with
      | zero =>
        rcases hrest with hnil | ⟨tail, htail⟩
        . rw [hnil]
          rfl
        . rw [htail]
          rfl
      | succ n => rfl
    have hkeep : (a.2.1 ++ (spaces a.2.2 ++ rest)).dropWhile (· = space)
        = a.2.1 ++ (if a.2.1 = [] then rest else spaces a.2.2 ++ rest) := by
      cases hlist : a.2.1 with
      | nil =>
        rw [nil_append, dropWhile_spaces]
        rcases hrest with hnil | ⟨tail, htail⟩
        . rw [hnil]
          rfl
        . rw [htail]
          rfl
      | cons c l =>
        have hc : Clean c := hclean c (by rw [hlist]; exact mem_cons_self)
        rw [cons_append, dropWhile_cons_of_neg (by simpa using hc.ne_space), if_neg (cons_ne_nil _ _)]
        rfl
    have hstop' : (if a.2.1 = [] then rest else spaces a.2.2 ++ rest).takeWhile
        (fun c => decide (c ≠ envAttrListDelim ∧ c ≠ space)) = [] := by
      split
      . rcases hrest with hnil | ⟨tail, htail⟩
        . rw [hnil]
          rfl
        . rw [htail]
          rfl
      . exact hstop
    have hall : ∀ c ∈ a.2.1, decide (c ≠ envAttrListDelim ∧ c ≠ space) = true := by
      intro c hc
      rw [decide_eq_true_eq]
      exact ⟨(hclean c hc).1, (hclean c hc).ne_space⟩
    simp only [attributesText, cons_append, append_assoc, ne_eq, not_true_eq_false, if_false, map_some, getD_some]
    rw [dropWhile_spaces, hkeep]
    rw [takeWhile_append_of_pos hall, hstop', append_nil]

end

section

variable {pat : CStr} {e : AttrEntry} {entries : List AttrEntry}

lemma listText_cons (e : AttrEntry) (hne : entries ≠ [])
    : listText (e :: entries) = e.text ++ envAttrListDelim :: listText entries := by
  have ⟨e', entries', heq⟩ := exists_cons_of_ne_nil hne
  rw [heq]
  simp [listText, intercalate]

lemma listText_singleton (e : AttrEntry) : listText [e] = e.text := by
  simp [listText, intercalate]

def report (e : AttrEntry) : Option (CStr × Option CStr) :=
  if e.name = [] then none else some (e.name, e.attributes.map fun a => a.2.1)

lemma isspace_spaces (h : c ∈ spaces n) : isspace c = true := by
  rw [mem_spaces h]
  rfl

lemma strim_spaces {w : CStr} (hclean : ∀ c ∈ w, Clean c) (before after : Nat)
    : strim (spaces before ++ w ++ spaces after) = w := by
  have hkeep (l : CStr) (hl : ∀ c ∈ l, Clean c) : l.dropWhile isspace = l := by
    cases l with
    | nil => rfl
    | cons c l =>
      have hc := hl c mem_cons_self
      exact dropWhile_cons_of_neg (by rw [hc.2.2.1]; exact Bool.false_ne_true)
  have hspaces (n : Nat) (l : CStr) : (spaces n ++ l).dropWhile isspace = l.dropWhile isspace := by
    apply dropWhile_append_of_pos
    intro c hc
    exact isspace_spaces hc
  unfold strim
  rw [append_assoc, hspaces, dropWhile_append, hkeep w hclean]
  split
  next hempty =>
    have hall : (spaces after).dropWhile isspace = [] := by
      rw [dropWhile_eq_nil_iff]
      intro c hc
      exact isspace_spaces hc
    rw [List.isEmpty_iff] at hempty
    rw [hall, hempty]
    rfl
  next =>
  have hrev : (spaces after).reverse = spaces after := reverse_replicate
  rw [reverse_append, hrev, hspaces, hkeep _ (fun c hc => hclean c (mem_reverse.mp hc)), reverse_reverse]

lemma parseEntry_text (he : e.WellFormed) : parseEntry e.text = report e := by
  have hno : ∀ c ∈ spaces e.before ++ e.name ++ spaces e.after, c ≠ envAttrSep := by
    intro c hc heq
    rw [mem_append, mem_append] at hc
    rcases hc with (hc | hc) | hc
    . rw [mem_spaces hc] at heq
      contradiction
    . exact (he.name c hc).2.1 heq
    . rw [mem_spaces hc] at heq
      contradiction
  have hstop : (attributesText e.attributes).takeWhile (fun c => decide (c ≠ envAttrSep)) = [] := by
    cases e.attributes with
    | none => rfl
    | some a => rfl
  have htake : e.text.takeWhile (fun c => decide (c ≠ envAttrSep)) = spaces e.before ++ e.name ++ spaces e.after := by
    unfold AttrEntry.text
    rw [takeWhile_append_of_pos (by simpa using hno), hstop, append_nil]
  have hdrop : e.text.dropWhile (fun c => decide (c ≠ envAttrSep)) = attributesText e.attributes := by
    have happend := @List.takeWhile_append_dropWhile _ (fun c => decide (c ≠ envAttrSep)) e.text
    rw [htake] at happend
    conv at happend => rhs; unfold AttrEntry.text
    exact append_cancel_left happend
  have hmem : envAttrSep ∈ e.text ↔ e.attributes.isSome := by
    unfold AttrEntry.text
    have hno : envAttrSep ∉ spaces e.before ++ e.name ++ spaces e.after := fun h => hno _ h rfl
    cases e.attributes with
    | none => simpa [attributesText] using hno
    | some a => simp [attributesText]
  unfold parseEntry report
  rw [htake, hdrop, strim_spaces he.name]
  by_cases h : e.name = []
  . rw [if_pos h, if_pos h]
  rw [if_neg h, if_neg h]
  cases hattr : e.attributes with
  | none =>
    rw [hattr] at hmem
    rw [if_neg (by rw [hmem]; exact Bool.false_ne_true)]
    rfl
  | some a =>
    rw [hattr] at hmem
    rw [if_pos (by rw [hmem]; rfl)]
    have hattributes : (attributesText (some a)).drop 1 = spaces a.1 ++ a.2.1 ++ spaces a.2.2 := rfl
    rw [hattributes, strim_spaces (he.attributes a hattr)]
    rfl

lemma attrEntries_listText (he : ∀ e ∈ entries, e.WellFormed)
    : attrEntries (listText entries) = entries.filterMap report := by
  unfold attrEntries
  cases entries with
  | nil => rfl
  | cons e entries =>
    have hsplit : (listText (e :: entries)).splitOn envAttrListDelim = (e :: entries).map AttrEntry.text := by
      apply splitOn_intercalate
      . intro l hl
        have ⟨e', he', htext⟩ := mem_map.mp hl
        rw [← htext]
        exact delim_notMem_text (he e' he')
      . exact cons_ne_nil _ _
    rw [hsplit, filterMap_map]
    apply filterMap_congr
    intro e' he'
    exact parseEntry_text (he e' he')

lemma walkEntries_report (l found : List (CStr × Option CStr))
    : walkEntries (fun name attributes found => some (0, found ++ [(name, attributes)])) l found
      = some (0, found ++ l) := by
  induction l generalizing found with
  | nil => rw [walkEntries, append_nil]
  | cons entry l ih =>
    rw [walkEntries]
    dsimp only
    rw [if_neg (by decide), ih, append_assoc]
    rfl

lemma reported_listText (he : ∀ e ∈ entries, e.WellFormed)
    : reported (listText entries) = some (0, entries.filterMap report) := by
  unfold reported envAttrWalk
  dsimp only
  rw [walkEntries_report, attrEntries_listText he, nil_append]

lemma lastNamed_cons (entry : CStr × Option CStr) (found : List (CStr × Option CStr))
    : lastNamed pat (entry :: found) = (lastNamed pat found).or (if entry.1 = pat then some entry.2 else none) := by
  unfold lastNamed
  rw [filter_cons]
  by_cases hname : entry.1 = pat
  . rw [if_pos (by simpa using hname), if_pos hname]
    cases filter (fun entry => decide (entry.1 = pat)) found with
    | nil => rfl
    | cons x l =>
      rfl
  . rw [if_neg (by simpa using hname), if_neg hname, or_none]

lemma lastNamed_report_cons (hpat : pat ≠ []) (e : AttrEntry) (entries : List AttrEntry)
    : lastNamed pat ((e :: entries).filterMap report)
      = (lastNamed pat (entries.filterMap report)).or
        (if e.name = pat then some (e.attributes.map fun a => a.2.1) else none) := by
  rw [filterMap_cons]
  by_cases hname : e.name = []
  . have hreport : report e = none := if_pos hname
    rw [hreport, if_neg (by rw [hname]; exact fun h => hpat h.symm), or_none]
  . have hreport : report e = some (e.name, e.attributes.map fun a => a.2.1) := if_neg hname
    rw [hreport]
    exact lastNamed_cons _ _

inductive LastExact (s pat : CStr) (attributes : Option (Option CStr)) : Prop
  | missing (hno : ∀ pos, ¬Exact s pat pos) (hattr : attributes = none)
  | found (pos : Nat) (hexact : Exact s pat pos) (hlast : ∀ pos', pos < pos' → ¬Exact s pat pos')
      (a : Option CStr) (hattr : attributes = some a) (hentry : entryAttributes (s.drop (pos + pat.length)) = a.getD [])

lemma lastExact_head {rest : CStr} (he : e.WellFormed) (hrest : Follows rest) (hclean : ∀ c ∈ pat, Clean c)
    (hpat : pat ≠ []) (hno : ∀ pos, e.text.length < pos → ¬Exact (e.text ++ rest) pat pos)
    : LastExact (e.text ++ rest) pat (if e.name = pat then some (e.attributes.map fun a => a.2.1) else none) := by
  by_cases hname : e.name = pat
  . rw [if_pos hname]
    have hbefore : e.before ≤ e.text.length := by simp [AttrEntry.text, spaces]
    apply LastExact.found e.before ((exact_head_iff he hrest hclean hpat hbefore).mpr ⟨rfl, hname⟩)
    . intro pos' hlt hexact
      by_cases hle : pos' ≤ e.text.length
      . have := ((exact_head_iff he hrest hclean hpat hle).mp hexact).1
        omega
      . exact hno pos' (by omega) hexact
    . rfl
    . rw [← drop_drop, drop_before, ← hname, drop_left]
      exact entryAttributes_behind he hrest
  rw [if_neg hname]
  apply LastExact.missing
  . intro pos hexact
    by_cases hle : pos ≤ e.text.length
    . exact hname ((exact_head_iff he hrest hclean hpat hle).mp hexact).2
    . exact hno pos (by omega) hexact
  . rfl

lemma lastExact_listText (he : ∀ e ∈ entries, e.WellFormed) (hclean : ∀ c ∈ pat, Clean c) (hpat : pat ≠ [])
    : LastExact (listText entries) pat (lastNamed pat (entries.filterMap report)) := by
  induction entries with
  | nil =>
    apply LastExact.missing
    . intro pos hexact
      have := hexact.lt hpat
      contradiction
    . rfl
  | cons e entries ih =>
    have hhead : e.WellFormed := he e mem_cons_self
    have ih := ih fun e' he' => he e' (mem_cons_of_mem _ he')
    rw [lastNamed_report_cons hpat]
    by_cases hne : entries = []
    . rw [hne, listText_singleton, ← append_nil e.text]
      apply lastExact_head hhead (.inl rfl) hclean hpat
      intro pos hlt hexact
      have := hexact.lt hpat
      rw [append_nil] at this
      omega
    rw [listText_cons e hne]
    -- positions behind the delimiter are positions of the tail
    have htail {pos : Nat} (hlt : e.text.length < pos)
        (hexact : Exact (e.text ++ envAttrListDelim :: listText entries) pat pos)
        : Exact (listText entries) pat (pos - (e.text.length + 1)) := by
      have hpos : pos = e.text.length + 1 + (pos - (e.text.length + 1)) := by omega
      rw [hpos, exact_tail_iff] at hexact
      exact hexact
    cases ih with
    | missing hno hattr =>
      rw [hattr, none_or]
      apply lastExact_head hhead (.inr ⟨_, rfl⟩) hclean hpat
      intro pos hlt hexact
      exact hno _ (htail hlt hexact)
    | found pos hexact hlast a hattr hentry =>
      rw [hattr, some_or]
      apply LastExact.found (e.text.length + 1 + pos) ((exact_tail_iff _ _).mpr hexact)
      . intro pos' hlt hexact'
        exact hlast _ (by omega) (htail (by omega) hexact')
      . rfl
      have hdrop : (e.text ++ envAttrListDelim :: listText entries).drop (e.text.length + 1 + pos + pat.length)
          = (listText entries).drop (pos + pat.length) := by
        have hlen : e.text.length + 1 + pos + pat.length = e.text.length + (pos + pat.length + 1) := by omega
        rw [hlen, ← drop_drop, drop_left, drop_succ_cons]
      rw [hdrop, hentry]

theorem env_attr_lookup_last (entries : List AttrEntry) (name : CStr) (he : ∀ e ∈ entries, e.WellFormed)
    (hclean : ∀ c ∈ name, Clean c) (hname : name ≠ [])
    : ∃ found, reported (listText entries) = some (0, found)
      ∧ envAttrLookup (some (listText entries)) name true
        = some (match lastNamed name found with
            | none => .error .enoent
            | some attributes => .ok (attributes.getD [])) := by
  refine ⟨entries.filterMap report, reported_listText he, ?_⟩
  unfold envAttrLookup reverseNameSearch
  dsimp only
  rw [if_neg (by decide), if_neg hname]
  have hspec := @reverseSearchLoop_spec _ (listText entries) hname ((listText entries).length + 1) 0 none
    (by omega) (by omega)
  cases lastExact_listText he hclean hname with
  | missing hno hattr =>
    rw [hattr]
    cases hspec with
    | inl hnone =>
      rw [hnone.1]
      rfl
    | inr hsome =>
      have ⟨pos, _, _, hexact, _⟩ := hsome
      exact absurd hexact (hno pos)
  | found pos hexact hlast a hattr hentry =>
    rw [hattr]
    cases hspec with
    | inl hnone => exact absurd hexact (hnone.2 pos (Nat.zero_le _))
    | inr hsome =>
      have ⟨pos', _, hres, hexact', hlast'⟩ := hsome
      have heq : pos' = pos := by
        by_contra hne
        rcases lt_or_gt_of_ne hne with h | h
        . exact hlast' pos h hexact
        . exact hlast pos' h hexact'
      rw [hres, heq]
      dsimp only [map_some, isSome_some, if_true]
      rw [if_pos rfl, hentry]

def twiceNamed : List AttrEntry :=
  [⟨0, [0x61], 0, some (0, [0x78], 0)⟩, ⟨0, [0x61, 0x62], 0, some (0, [0x61], 0)⟩,
    ⟨1, [0x61], 1, some (1, [0x79], 1)⟩, ⟨0, [], 0, none⟩, ⟨0, [0x62], 0, none⟩]

lemma twiceNamed_wellFormed : ∀ e ∈ twiceNamed, e.WellFormed := by
  have hchars : ∀ e ∈ twiceNamed, (∀ c ∈ e.name, Clean c) ∧ ∀ a ∈ e.attributes, ∀ c ∈ a.2.1, Clean c := by
    decide +kernel
  intro e he
  exact ⟨(hchars e he).1, (hchars e he).2⟩

theorem env_attr_lookup_last_twiceNamed
    : envAttrLookup (some (listText twiceNamed)) [0x61] true = some (.ok [0x79])
      ∧ ∃ found, reported (listText twiceNamed) = some (0, found)
        ∧ envAttrLookup (some (listText twiceNamed)) [0x61] true
          = some (match lastNamed [0x61] found with
              | none => .error .enoent
              | some attributes => .ok (attributes.getD [])) :=
  ⟨by decide +kernel, env_attr_lookup_last twiceNamed [0x61] twiceNamed_wellFormed (by decide +kernel) (by decide)⟩

end

end UBoot.EnvAttr
