import MarvellBoot.UBoot.FwEnv.Lemmas.Lookup

namespace UBoot.FwEnv

open Mem Hashtable List

def Terminated : List UInt8 → Prop
  | [] => False
  | [c] => c = 0
  | c :: d :: t => (c = 0 → d ≠ 0) ∧ Terminated (d :: t)

variable {l : CStr}

lemma terminated_string (hl : IsValue l) : Terminated (l ++ [0]) := by
  induction l with
  | nil => rfl
  | cons c l ih =>
    have hc := hl c mem_cons_self
    have ih := ih fun x hx => hl x (mem_cons_of_mem c hx)
    cases l with
    | nil | cons d l => exact ⟨fun h => absurd h hc, ih⟩

lemma terminated_cons {c : UInt8} {t : List UInt8} (hl : IsValue l) (hc : c ≠ 0)
    (ht : Terminated (c :: t)) : Terminated (l ++ 0 :: c :: t) := by
  induction l with
  | nil => exact ⟨fun _ => hc, ht⟩
  | cons d l ih =>
    have hd := hl d mem_cons_self
    have ih := ih fun x hx => hl x (mem_cons_of_mem d hx)
    cases l with
    | nil | cons e l => exact ⟨fun h => absurd h hd, ih⟩

variable {vars : List Var}

lemma strings_head (hne : vars ≠ []) (hnames : ∀ var ∈ vars, IsName var.1)
    : ∃ c t, strings vars = c :: t ∧ c ≠ 0 := by
  cases vars with
  | nil => contradiction
  | cons var vars =>
    rcases var with ⟨n, v⟩
    cases n with
    | nil => exact ⟨equalSign, _, rfl, by decide⟩
    | cons c n => exact ⟨c, _, rfl, (hnames (c :: n, v) mem_cons_self c mem_cons_self).1⟩

lemma terminated_strings (hne : vars ≠ []) (hnames : ∀ var ∈ vars, IsName var.1)
    (hvalues : ∀ var ∈ vars, IsValue var.2) : Terminated (strings vars) := by
  induction vars with
  | nil => contradiction
  | cons var vars ih =>
    have hvar := isValue_entry (hnames var mem_cons_self) (hvalues var mem_cons_self)
    have hnames' : ∀ w ∈ vars, IsName w.1 := fun w hw => hnames w (mem_cons_of_mem var hw)
    have hvalues' : ∀ w ∈ vars, IsValue w.2 := fun w hw => hvalues w (mem_cons_of_mem var hw)
    rw [strings_cons]
    by_cases hrest : vars = []
    . rw [hrest]
      have hnil : entryText var ++ strings [] = (var.1 ++ equalSign :: var.2) ++ [0] := append_nil _
      rw [hnil]
      exact terminated_string hvar
    have ⟨c, t, hstrings, hc⟩ := strings_head hrest hnames'
    have ih := ih hrest hnames' hvalues'
    rw [hstrings] at ih ⊢
    have happend : entryText var ++ c :: t = (var.1 ++ equalSign :: var.2) ++ 0 :: c :: t := by
      simp [entryText]
    rw [happend]
    exact terminated_cons hvar hc ih

section

variable {m : Int → UInt8} {a env nxt : Int} {envSize fuel : Nat} {t : List UInt8}

lemma listEnd_text (h : Text m a (t ++ [0])) (ht : Terminated t) (hfuel : t.length ≤ fuel)
    : listEnd m fuel a = some (a + t.length - 1) := by
  induction t generalizing a fuel with
  | nil => contradiction
  | cons c t ih =>
    rw [cons_append, text_cons] at h
    rw [length_cons] at hfuel ⊢
    cases fuel with
    | zero => omega
    | succ fuel =>
      rw [listEnd]
      cases t with
      | nil =>
        have hc : c = 0 := ht
        rw [h.1, (text_cons.mp h.2).1, hc, if_neg (by simp)]
        simp
      | cons d t =>
        have hd : m (a + 1) = d := (text_cons.mp h.2).1
        have hmore : m a ≠ 0 ∨ m (a + 1) ≠ 0 := by
          rw [h.1, hd]
          by_cases hc : c = 0
          . exact .inr (ht.1 hc)
          . exact .inl hc
        rw [if_pos hmore, ih h.2 ht.2 (by omega)]
        congr 1
        omega

lemma shiftDown_text (h : Text m nxt (t ++ [0])) (ht : Terminated t) (hlt : env < nxt) (hfuel : t.length ≤ fuel)
    : shiftDown fuel m env nxt = some (store m env t, env + t.length - 1) := by
  induction t generalizing m env nxt fuel with
  | nil => contradiction
  | cons c t ih =>
    rw [cons_append, text_cons] at h
    rw [length_cons] at hfuel ⊢
    have hrest : Text (store m env [c]) (nxt + 1) (t ++ [0]) := h.2.store (.inl (by rw [length_singleton]; omega))
    have hself : store m env [c] env = c := (text_cons.mp (text_store_self (l := [c]))).1
    cases fuel with
    | zero => omega
    | succ fuel =>
      rw [shiftDown, h.1, hself]
      cases t with
      | nil =>
        have hc : c = 0 := ht
        rw [(text_cons.mp hrest).1, hc, if_pos ⟨rfl, rfl⟩]
        simp
      | cons d t =>
        have hd : store m env [c] (nxt + 1) = d := (text_cons.mp hrest).1
        rw [hd, if_neg (fun hstop => ht.1 hstop.1 hstop.2), ih hrest ht.2 (by omega) (by omega)]
        have hstore : store (store m env [c]) (env + 1) (d :: t) = store m env (c :: d :: t) :=
          (store_append m env [c] (d :: t)).symm
        congr 2
        omega

variable {name value v : CStr} {vars pre post : List Var}

lemma remove_text (h : Text m (strings pre ++ entryText (name, v)).length (strings post ++ [0]))
    (hnames : ∀ var ∈ post, IsName var.1) (hvalues : ∀ var ∈ post, IsValue var.2)
    (hfuel : (strings post).length ≤ envSize)
    : remove m envSize (strings pre).length ((strings pre).length + name.length + v.length + 1)
      = some (store m (strings pre).length (if post = [] then [0, 0] else strings post ++ [0])) := by
  have hnxt : (strings pre).length + name.length + v.length + 1 + 1
      = ((strings pre ++ entryText (name, v)).length : Int) := by
    rw [length_append, length_entryText]
    dsimp only
    omega
  unfold remove
  dsimp only
  rw [hnxt]
  by_cases hpost : post = []
  . rw [hpost] at h
    rw [if_pos hpost, (text_cons.mp h).1, if_pos rfl]
    rw [show ([0, 0] : List UInt8) = [0] ++ [0] from rfl, store_append]
    rfl
  have ⟨c, t, hstrings, hc⟩ := strings_head hpost hnames
  have hfirst : m (strings pre ++ entryText (name, v)).length = c := by
    rw [hstrings] at h
    exact (text_cons.mp h).1
  rw [if_neg hpost, hfirst, if_neg hc, shiftDown_text h (terminated_strings hpost hnames hvalues)
    (by rw [length_append, length_entryText]; omega) (by omega)]
  dsimp only
  rw [store_append]
  congr 2
  omega

lemma Holds.remove (h : Holds m envSize (pre ++ (name, v) :: post))
    : ∃ m', FwEnv.remove m envSize (FwEnv.strings pre).length
        ((FwEnv.strings pre).length + name.length + v.length + 1) = some m'
      ∧ Holds m' envSize (pre ++ post) := by
  have hlt := h.strings_lt
  have htext := h.strings
  have hnodup := h.nodup
  have hmem : ∀ var ∈ pre ++ post, var ∈ pre ++ (name, v) :: post := by
    intro var hvar
    rcases mem_append.mp hvar with hvar | hvar
    . exact mem_append_left _ hvar
    . exact mem_append_right _ (mem_cons_of_mem _ hvar)
  rw [strings_append, strings_cons, ← append_assoc] at htext hlt
  rw [append_assoc, text_append] at htext
  rw [length_append, length_append, length_entryText] at hlt
  have hpre := (text_append.mp htext.1).1
  rw [zero_add] at htext
  refine ⟨_, remove_text htext.2 ?_ ?_ (by omega), ⟨?_, ?_, ?_, ?_, ?_⟩⟩
  . exact fun var hvar => h.name var (hmem var (mem_append_right pre hvar))
  . exact fun var hvar => h.value var (hmem var (mem_append_right pre hvar))
  . have hstored := @Text.append_store m 0 _ (if post = [] then [0, 0] else FwEnv.strings post ++ [0]) hpre
    rw [zero_add] at hstored
    unfold listText
    by_cases hpost : post = []
    . rw [if_pos hpost] at hstored ⊢
      rw [hpost, append_nil]
      split
      . next hnil =>
        rw [hnil] at hstored ⊢
        exact hstored
      . rw [show ([0, 0] : List UInt8) = [0] ++ [0] from rfl, ← append_assoc] at hstored
        exact (text_append.mp hstored).1
    . rw [if_neg hpost] at hstored ⊢
      rw [if_neg (by simp [hpost]), strings_append, append_assoc]
      exact hstored
  . unfold listText
    split
    . change 2 ≤ envSize
      omega
    . rw [strings_append, length_append, length_append, length_singleton]
      omega
  . rw [map_append] at hnodup ⊢
    exact hnodup.sublist (List.Sublist.append (List.Sublist.refl _) (sublist_cons_self _ _))
  . exact fun var hvar => h.name var (hmem var hvar)
  . exact fun var hvar => h.value var (hmem var hvar)

lemma Holds.listEnd_eq (h : Holds m envSize vars)
    : ∃ env, listEnd m (envSize + 1) 0 = some env
      ∧ (if 0 < env then env + 1 else env) = (FwEnv.strings vars).length := by
  by_cases hnil : vars = []
  . have htext := h.text
    rw [hnil] at htext ⊢
    have h0 : m 0 = 0 := (text_cons.mp htext).1
    have h1 : m (0 + 1) = 0 := (text_cons.mp (text_cons.mp htext).2).1
    refine ⟨0, ?_, rfl⟩
    rw [listEnd, h0, h1, if_neg (by simp)]
  have hlt := h.strings_lt
  have hlen : 2 ≤ (FwEnv.strings vars).length := by
    cases vars with
    | nil => contradiction
    | cons var vars =>
      rw [strings_cons, length_append, length_entryText]
      omega
  refine ⟨_, listEnd_text h.strings (terminated_strings hnil h.name h.value) (by omega), ?_⟩
  omega

lemma store_entry (m : Int → UInt8) (a : Int) (name value : CStr)
    : store (store (store (store m a (name ++ [0])) (a + name.length) [equalSign])
        (a + name.length + 1) (value ++ [0])) (a + name.length + 1 + value.length + 1) [0]
      = store m a (entryText (name, value) ++ [0]) := by
  have hname : store (store m a (name ++ [0])) (a + name.length) [equalSign] = store m a (name ++ [equalSign]) := by
    rw [store_append, store_append]
    exact store_store_of_length_eq rfl
  have hentry : entryText (name, value) ++ [0] = (name ++ [equalSign]) ++ ((value ++ [0]) ++ [0]) := by
    simp [entryText]
  have hnameLen : (name ++ [equalSign]).length = name.length + 1 := by simp
  have hvalueLen : (value ++ [0]).length = value.length + 1 := by simp
  rw [hname, hentry, store_append m a (name ++ [equalSign]), store_append _ _ (value ++ [0]), hnameLen, hvalueLen]
  congr 1
  . congr 1
    omega
  . omega

lemma Holds.append_eq (h : Holds m envSize vars)
    : append m envSize name value
      = if (FwEnv.strings vars).length + (entryText (name, value) ++ [0]).length ≤ envSize then
          some (.ok, store m (FwEnv.strings vars).length (entryText (name, value) ++ [0]))
        else
          some (.overflow, m) := by
  have ⟨env, hend, henv⟩ := h.listEnd_eq
  have hlen : (entryText (name, value) ++ [0]).length = name.length + value.length + 3 := by
    rw [length_append, length_entryText, length_singleton]
  unfold append
  rw [hend]
  dsimp only
  rw [henv, hlen]
  by_cases hfits : (FwEnv.strings vars).length + (name.length + value.length + 3) ≤ envSize
  . rw [if_neg (by omega), if_pos hfits, store_entry]
  . rw [if_pos (by omega), if_neg hfits]

lemma Holds.append_holds (h : Holds m envSize vars) (hname : IsName name) (hvalue : IsValue value)
    (hfresh : ∀ var ∈ vars, name ≠ var.1)
    (hfits : (FwEnv.strings vars).length + (entryText (name, value) ++ [0]).length ≤ envSize)
    : Holds (store m (FwEnv.strings vars).length (entryText (name, value) ++ [0])) envSize
      (vars ++ [(name, value)]) := by
  have hlist : listText (vars ++ [(name, value)]) = FwEnv.strings vars ++ (entryText (name, value) ++ [0]) := by
    unfold listText
    simp [FwEnv.strings]
  have hstored := @Text.append_store m 0 _ (entryText (name, value) ++ [0]) (text_append.mp h.strings).1
  rw [zero_add] at hstored
  refine ⟨?_, ?_, ?_, ?_, ?_⟩
  . rw [hlist]
    exact hstored
  . rw [hlist, length_append]
    exact hfits
  . rw [map_append, nodup_append]
    refine ⟨h.nodup, by simp, ?_⟩
    intro a ha b hb
    obtain ⟨var, hvar, hvara⟩ := mem_map.mp ha
    rw [← hvara, mem_singleton.mp hb]
    exact (hfresh var hvar).symm
  . intro var hvar
    rcases mem_append.mp hvar with hvar | hvar
    . exact h.name var hvar
    . rw [mem_singleton.mp hvar]
      exact hname
  intro var hvar
  rcases mem_append.mp hvar with hvar | hvar
  . exact h.value var hvar
  . rw [mem_singleton.mp hvar]
    exact hvalue

end

end UBoot.FwEnv
