import MarvellBoot.UBoot.Hashtable.Lemmas.Access
import MarvellBoot.UBoot.Hashtable.Lemmas.Parse
import MarvellBoot.UBoot.Hashtable.Records

namespace UBoot.Hashtable

open Mem Loop List

variable {len : Nat} {m' m : Int → UInt8} {dp : Int} {name : CStr}

section

variable {text rest tail : List UInt8}

def Ends (text : List UInt8) (len : Nat) : Option (List UInt8) → Prop
  | none => len = text.length
  | some rest => text.drop len = lineFeed :: rest

lemma Ends.length (h : Ends text len (some rest)) : text.length = len + 1 + rest.length := by
  have hlen := congrArg List.length h
  rw [List.length_drop, List.length_cons] at hlen
  omega

lemma Ends.le {rest : Option (List UInt8)} (h : Ends text len rest) : len ≤ text.length := by
  cases rest with
  | none => exact Nat.le_of_eq h
  | some rest =>
    have := h.length
    omega

lemma Ends.cons {rest : Option (List UInt8)} (h : Ends text len rest) (c : UInt8)
    : Ends (c :: text) (len + 1) rest := by
  cases rest with
  | none => exact congrArg Nat.succ h
  | some rest => exact h

lemma Ends.append {rest : Option (List UInt8)} (h : Ends text len rest) (pre : List UInt8)
    : Ends (pre ++ text) (pre.length + len) rest := by
  cases rest with
  | none =>
    change _ = (pre ++ text).length
    rw [length_append, h]
  | some rest =>
    change (pre ++ text).drop (pre.length + len) = _
    rw [← drop_drop, drop_left, h]

lemma Ends.text_after {a : Int} (h : Ends text len (some rest))
    (htext : Text m a (text ++ [0])) (hmem : ∀ b, a + len + 1 ≤ b → m' b = m b)
    : Text m' (a + len + 1) (rest ++ [0]) := by
  have hlen := h.length
  have hsplit : text ++ [0] = text.take len ++ (lineFeed :: (rest ++ [0])) := by
    rw [← cons_append, ← h, ← append_assoc, take_append_drop]
  rw [hsplit, text_append, text_cons, length_take, min_eq_left (by omega)] at htext
  apply htext.2.2.congr
  intro i _
  exact hmem _ (by omega)

lemma store_cons (m : Int → UInt8) (a : Int) (c : UInt8) (l : List UInt8)
    : store m a (c :: l) = store (store m a [c]) (a + 1) l :=
  store_append m a [c] l

lemma parseValue_read {sp dp : Int} {fuel : Nat} (htext : Text m dp (text ++ [0]))
    (hno : ∀ c ∈ text, c ≠ 0) (hsp : sp ≤ dp) (hfuel : text.length < fuel)
    : ∃ len, Ends text len (readValue text).2 ∧ (readValue text).1.length ≤ len
      ∧ parseValue lineFeed fuel m sp dp
        = some (store m sp (readValue text).1, sp + (readValue text).1.length, dp + len) := by
  fun_induction readValue text generalizing m sp dp fuel with
  | case1 =>
    cases fuel with
    | zero => omega
    | succ fuel =>
      have hdp : m dp = 0 := (text_cons.mp htext).1
      refine ⟨0, rfl, le_refl 0, ?_⟩
      rw [parseValue, if_neg (fun h => h.1 hdp), store_nil]
      simp
  | case2 | case4 d text =>
    cases fuel with
    | zero => omega
    | succ fuel =>
      have hdp : m dp = lineFeed := (text_cons.mp htext).1
      refine ⟨0, rfl, le_refl 0, ?_⟩
      rw [parseValue, if_neg (fun h => h.2 hdp), store_nil]
      simp
  | case3 c hc =>
    cases fuel with
    | zero => omega
    | succ fuel =>
      rw [singleton_append, text_cons, text_cons] at htext
      have hdp : m dp = c := htext.1
      have hend : m (dp + 1) = 0 := htext.2.1
      have hcne : c ≠ 0 := hno c mem_cons_self
      refine ⟨1, rfl, le_refl 1, ?_⟩
      rw [parseValue, if_pos ⟨by rw [hdp]; exact hcne, by rw [hdp]; exact hc⟩]
      dsimp only
      rw [if_neg (fun h => h.2 hend), hdp]
      cases fuel with
      | zero =>
        rw [length_singleton] at hfuel
        omega
      | succ fuel =>
        have hend' : store m sp [c] (dp + 1) = 0 := by
          rw [store_byte, if_neg (by omega)]
          exact hend
        rw [parseValue, if_neg (fun h => h.1 hend')]
        rfl
  | case5 d text hc ih =>
    cases fuel with
    | zero => omega
    | succ fuel =>
      rw [cons_append, cons_append, text_cons, text_cons] at htext
      have hdne : d ≠ 0 := hno d (by simp)
      have htext' : Text (store m sp [d]) (dp + 1 + 1) (text ++ [0]) :=
        htext.2.2.store (.inl (by rw [length_singleton]; omega))
      obtain ⟨len, hends, hle, hparse⟩ := @ih (store m sp [d]) (sp + 1) (dp + 1 + 1) fuel htext'
        (fun c hc => hno c (by simp [hc])) (by omega) (by rw [length_cons, length_cons] at hfuel; omega)
      refine ⟨len + 1 + 1, (hends.cons d).cons backslash, by rw [length_cons]; omega, ?_⟩
      rw [parseValue, if_pos ⟨by rw [htext.1]; decide, by rw [htext.1]; exact hc⟩]
      dsimp only
      rw [if_pos ⟨htext.1, by rw [htext.2.1]; exact hdne⟩, htext.2.1, hparse, ← store_cons]
      congr 2
      rw [length_cons]
      congr 1
      . omega
      . omega
  | case6 c d text hc hslash ih =>
    cases fuel with
    | zero => omega
    | succ fuel =>
      rw [cons_append, text_cons] at htext
      have hcne : c ≠ 0 := hno c mem_cons_self
      have htext' : Text (store m sp [c]) (dp + 1) (d :: text ++ [0]) :=
        htext.2.store (.inl (by rw [length_singleton]; omega))
      obtain ⟨len, hends, hle, hparse⟩ := @ih (store m sp [c]) (sp + 1) (dp + 1) fuel htext'
        (fun c hc => hno c (mem_cons_of_mem _ hc)) (by omega) (by rw [length_cons] at hfuel; omega)
      refine ⟨len + 1, hends.cons c, by rw [length_cons]; omega, ?_⟩
      rw [parseValue, if_pos ⟨by rw [htext.1]; exact hcne, by rw [htext.1]; exact hc⟩]
      dsimp only
      rw [if_neg (fun h => hslash (htext.1.symm.trans h.1)), htext.1, hparse, ← store_cons]
      congr 2
      rw [length_cons]
      congr 1
      . omega
      . omega

lemma mem_readValue {c : UInt8} (h : c ∈ (readValue text).1) : c ∈ text := by
  fun_induction readValue text with
  | case1 => contradiction
  | case2 => contradiction
  | case3 c' hc => exact h
  | case4 d text => contradiction
  | case5 d text hc ih =>
    rw [mem_cons] at h
    rcases h with h | h
    . simp [h]
    . simp [ih h]
  | case6 c' d text hc hslash ih =>
    rw [mem_cons] at h
    rcases h with h | h
    . simp [h]
    . exact mem_cons_of_mem _ (ih h)

variable {m : Int → UInt8} {a : Int} {fuel : Nat} {p q : UInt8 → Bool}

lemma scanWhile_takeWhile (htext : Text m a (text ++ [0])) (hp : p 0 = false) (hfuel : text.length < fuel)
    : scanWhile p m fuel a = some (a + (text.takeWhile p).length) := by
  have hlen := (takeWhile_sublist p (l := text)).length_le
  rw [← takeWhile_append_dropWhile (p := p) (l := text), append_assoc] at htext
  have hall : ∀ c ∈ text.takeWhile p, p c = true := fun c hc => mem_takeWhile_imp hc
  cases hdrop : text.dropWhile p with
  | nil =>
    rw [hdrop, nil_append] at htext
    exact scanWhile_text htext hall hp (by omega)
  | cons c rest =>
    have hc : p c = false := by
      have := head?_dropWhile_not p text
      rw [hdrop] at this
      simpa using this
    rw [hdrop, cons_append] at htext
    exact scanWhile_text htext hall hc (by omega)

lemma text_dropWhile (htext : Text m a (text ++ [0])) (p : UInt8 → Bool)
    : Text m (a + (text.takeWhile p).length) (text.dropWhile p ++ [0]) := by
  rw [← takeWhile_append_dropWhile (p := p) (l := text), append_assoc, text_append] at htext
  exact htext.2

lemma takeWhile_congr (h : ∀ c ∈ text, p c = q c) : text.takeWhile p = text.takeWhile q := by
  induction text with
  | nil => rfl
  | cons c text ih =>
    rw [takeWhile_cons, takeWhile_cons, h c mem_cons_self, ih fun c hc => h c (mem_cons_of_mem _ hc)]

lemma nextLine_ends (text : List UInt8) : Ends text (text.takeWhile (· ≠ lineFeed)).length (nextLine text) := by
  have happend := @List.takeWhile_append_dropWhile _ (fun c => decide (c ≠ lineFeed)) text
  unfold nextLine
  cases hdrop : text.dropWhile fun c => decide (c ≠ lineFeed) with
  | nil =>
    rw [hdrop, append_nil] at happend
    exact congrArg length happend
  | cons c rest =>
    have hc : c = lineFeed := by
      have := head?_dropWhile_not (fun c => decide (c ≠ lineFeed)) text
      rw [hdrop] at this
      simpa using this
    rw [hdrop, hc] at happend
    change text.drop _ = lineFeed :: rest
    generalize text.takeWhile (fun c => decide (c ≠ lineFeed)) = pre at happend
    rw [← happend, drop_left]

end

section

variable {σ : Type} {hooks : Hooks σ} {flag fuel size : Nat} {t : ImportState σ} {stop : Int}

def finishRecord (size : Nat) (m : Int → UInt8) (dp : Int) (res : Bool × List (Option CStr) × State σ)
    : Next (ImportState σ) (Bool × ImportState σ) :=
  if res.1 then importNext size ⟨m, dp, res.2.1, res.2.2⟩ else .done (false, ⟨m, dp, res.2.1, res.2.2⟩)

/-- What the record at `dp` gives. The bytes behind the record are as they were. -/
def Applies (hooks : Hooks σ) (flag size : Nat) (t : ImportState σ) (text : List UInt8) (dp : Int)
    (read : Record × Option (List UInt8)) (body : Option (Next (ImportState σ) (Bool × ImportState σ))) : Prop :=
  ∃ m len, Ends text len read.2 ∧ (∀ a, dp + len + 1 ≤ a → m a = t.m a)
    ∧ body = (applyRecord hooks flag t.localvars t.s read.1).map (finishRecord size m (dp + len + 1))

lemma Applies.append {text pre : List UInt8} {read : Record × Option (List UInt8)}
    {body : Option (Next (ImportState σ) (Bool × ImportState σ))}
    (h : Applies hooks flag size t text (dp + pre.length) read body)
    : Applies hooks flag size t (pre ++ text) dp read body := by
  obtain ⟨m, len, hends, hmem, hbody⟩ := h
  refine ⟨m, pre.length + len, hends.append pre, ?_, ?_⟩
  . intro a ha
    exact hmem a (by omega)
  . rw [hbody]
    congr 2
    omega

lemma importDelete_eq {name : Int} {key : CStr}
    (hmem : (if t.m t.dp = equalSign then (store t.m t.dp [0], t.dp + 1) else (t.m, t.dp)) = (m, dp))
    (hkey : strAt (store m dp [0]) fuel name = key)
    : importDelete hooks flag fuel size name t
      = (applyRecord hooks flag t.localvars t.s (.delete key)).map (finishRecord size (store m dp [0]) (dp + 1)) := by
  unfold importDelete applyRecord
  rw [hmem]
  dsimp only
  rw [hkey]
  split
  . rfl
  . cases hdeleteR hooks key flag t.s with
    | none => rfl
    | some res => rfl

lemma importEnter_eq {name sp : Int} {key value : CStr}
    (hparse : parseValue lineFeed fuel (store t.m t.dp [0]) (t.dp + 1) (t.dp + 1) = some (m, sp, dp))
    (hempty : store m sp [0] name = 0 ↔ key = [])
    (hkey : strAt (store m sp [0]) fuel name = key) (hvalue : strAt (store m sp [0]) fuel (t.dp + 1) = value)
    : importEnter hooks lineFeed flag fuel size name t
      = (applyRecord hooks flag t.localvars t.s (if key = [] then .fail else .enter key value)).map
        (finishRecord size (store m sp [0]) (dp + 1)) := by
  unfold importEnter
  dsimp only
  rw [hparse]
  dsimp only
  split
  next h =>
    rw [if_pos (hempty.mp h)]
    rfl
  next h =>
  rw [if_neg (fun heq => h (hempty.mpr heq)), hkey, hvalue]
  unfold applyRecord
  dsimp only
  split
  . rfl
  . cases hsearchR hooks key (.enter value) flag t.s with
    | none => rfl
    | some res => rfl

lemma strAt_name (htext : Text m dp name) (hno : ∀ c ∈ name, c ≠ 0)
    (hfuel : name.length < fuel) (hsame : ∀ i : Nat, i < name.length → m' (dp + i) = m (dp + i))
    (hend : m' (dp + name.length) = 0) : strAt m' fuel dp = name := by
  apply strAt_text _ hno hfuel
  rw [text_append, text_cons]
  exact ⟨htext.congr hsame, hend, rfl⟩

-- The `=` of an empty value is overwritten too.
lemma applies_delete {after : List UInt8} {next : Option (List UInt8)} (htext : Text t.m dp name)
    (hno : ∀ c ∈ name, c ≠ 0) (hfuel : name.length < fuel) (hstop : dp + name.length = stop)
    (hlen : (if t.m stop = equalSign then 1 else 0) = len) (hends : Ends after len next)
    : Applies hooks flag size t (name ++ after) dp (.delete name, next)
      (importDelete hooks flag fuel size dp { t with dp := stop }) := by
  apply Applies.append
  rw [hstop]
  split at hlen
  . next heq =>
    rw [← hlen] at hends
    refine ⟨store (store t.m stop [0]) (stop + 1) [0], 1, hends, ?_,
      importDelete_eq (if_pos heq) (strAt_name htext hno hfuel ?_ ?_)⟩
    . intro a ha
      rw [store_byte, if_neg (by omega), store_byte, if_neg (by omega)]
    . intro i hi
      rw [store_byte, if_neg (by omega), store_byte, if_neg (by omega)]
    . rw [store_byte, if_neg (by omega), store_byte, if_pos hstop]
  . next hne =>
    rw [← hlen] at hends
    refine ⟨store t.m stop [0], 0, hends, ?_, ?_⟩
    . intro a ha
      rw [store_byte, if_neg (by omega)]
    rw [Int.natCast_zero, Int.add_zero]
    apply importDelete_eq (if_neg hne) (strAt_name htext hno hfuel ?_ ?_)
    . intro i hi
      rw [store_byte, if_neg (by omega)]
    . rw [store_byte, if_pos hstop]

lemma importEnter_value {dp : Int} {name value : CStr} {text : List UInt8} (htext : Text t.m dp name)
    (hno : ∀ c ∈ name, c ≠ 0) (hfuel : name.length < fuel) (hstop : stop = dp + name.length)
    (hvalue : Text t.m (stop + 1) (text ++ [0])) (hno' : ∀ c ∈ text, c ≠ 0) (hfuel' : text.length < fuel)
    (hread : (readValue text).1 = value)
    : ∃ m len, Ends text len (readValue text).2 ∧ (∀ a, stop + 1 + len + 1 ≤ a → m a = t.m a)
      ∧ importEnter hooks lineFeed flag fuel size dp { t with dp := stop }
        = (applyRecord hooks flag t.localvars t.s (if name = [] then .fail else .enter name value)).map
          (finishRecord size m (stop + 1 + len + 1)) := by
  have hvalue' : Text (store t.m stop [0]) (stop + 1) (text ++ [0]) :=
    hvalue.store (.inl (by rw [length_singleton]; omega))
  have ⟨len, hends, hle, hparse⟩ := parseValue_read hvalue' hno' (le_refl _) hfuel'
  rw [hread] at hle hparse
  have hmem (a : Int) : store (store (store t.m stop [0]) (stop + 1) value) (stop + 1 + value.length) [0] a
      = if a = stop + 1 + value.length then 0
        else if stop + 1 ≤ a ∧ a < stop + 1 + value.length then value.getD (a - (stop + 1)).toNat 0
        else if a = stop then 0 else t.m a := by
    have hstore (m : Int → UInt8) : store m (stop + 1) value a
        = if stop + 1 ≤ a ∧ a < stop + 1 + value.length then value.getD (a - (stop + 1)).toNat 0 else m a := rfl
    rw [store_byte, hstore, store_byte]
  refine ⟨_, len, hends, ?_, importEnter_eq hparse ?_ ?_ ?_⟩
  . intro a ha
    rw [hmem, if_neg (by omega), if_neg (by omega), if_neg (by omega)]
  . cases name with
    | nil =>
      rw [length_nil] at hstop
      rw [hmem, if_neg (by omega), if_neg (by omega), if_pos (by omega)]
      simp
    | cons c name =>
      rw [length_cons] at hstop
      rw [hmem, if_neg (by omega), if_neg (by omega), if_neg (by omega), (text_cons.mp htext).1]
      simp [hno c mem_cons_self]
  . apply strAt_name htext hno hfuel
    . intro i hi
      rw [hmem, if_neg (by omega), if_neg (by omega), if_neg (by omega)]
    . rw [hmem, if_neg (by omega), if_neg (by omega), if_pos hstop.symm]
  have hvalue2 : Text (store (store t.m stop [0]) (stop + 1) value) (stop + 1) value := text_store_self
  have hvalue3 := @Text.append_store _ _ _ [0] hvalue2
  have hlen := hends.le
  apply strAt_text hvalue3 _ (by omega)
  intro c hc
  rw [← hread] at hc
  exact hno' c (mem_readValue hc)

lemma applies_assignment {after : List UInt8} (hname : Text t.m dp name) (hnoName : ∀ c ∈ name, c ≠ 0)
    (hstop : dp + name.length = stop) (hafter : Text t.m stop (after ++ [0])) (hnoAfter : ∀ c ∈ after, c ≠ 0)
    (hfirst : ∀ c rest, after = c :: rest → c ≠ lineFeed → c = equalSign) (hfuel : name.length + after.length < fuel)
    : Applies hooks flag size t (name ++ after) dp (readAssignment name after)
      (if t.m stop = 0 ∨ t.m (stop + 1) = 0 ∨ t.m stop = lineFeed ∨ t.m (stop + 1) = lineFeed then
        importDelete hooks flag fuel size dp { t with dp := stop }
      else
        importEnter hooks lineFeed flag fuel size dp { t with dp := stop }) := by
  cases after with
  | nil =>
    have hzero : t.m stop = 0 := (text_cons.mp hafter).1
    rw [if_pos (.inl hzero)]
    exact applies_delete hname hnoName (by omega) hstop (if_neg (by rw [hzero]; decide)) rfl
  | cons c rest =>
    rw [length_cons] at hfuel
    rw [cons_append, text_cons] at hafter
    by_cases hc : c = lineFeed
    . have hlf : t.m stop = lineFeed := hafter.1.trans hc
      rw [if_pos (.inr (.inr (.inl hlf)))]
      simp only [readAssignment, if_pos hc]
      exact applies_delete hname hnoName (by omega) hstop (if_neg (by rw [hlf]; decide)) (by rw [hc]; rfl)
    have heq : t.m stop = equalSign := hafter.1.trans (hfirst c rest rfl hc)
    cases rest with
    | nil =>
      rw [if_pos (.inr (.inl (text_cons.mp hafter.2).1))]
      simp only [readAssignment, if_neg hc]
      exact applies_delete hname hnoName (by omega) hstop (if_pos heq) rfl
    | cons d rest =>
      have htext := hafter.2
      rw [cons_append, text_cons] at htext
      by_cases hd : d = lineFeed
      . rw [if_pos (.inr (.inr (.inr (htext.1.trans hd))))]
        simp only [readAssignment, if_neg hc, if_pos hd]
        exact applies_delete hname hnoName (by omega) hstop (if_pos heq) (by rw [hd]; rfl)
      have hcond : ¬(t.m stop = 0 ∨ t.m (stop + 1) = 0 ∨ t.m stop = lineFeed ∨ t.m (stop + 1) = lineFeed) := by
        rw [hafter.1, htext.1]
        have hc0 := hnoAfter c (by simp)
        have hd0 := hnoAfter d (by simp)
        simp [hc, hd, hc0, hd0]
      rw [if_neg hcond]
      have ⟨m, len, hends, hmem, hbody⟩ := @importEnter_value σ hooks flag fuel size t _ dp _ _ _
        hname hnoName (by omega) hstop.symm hafter.2 (fun x hx => hnoAfter x (by simp [hx])) (by omega) rfl
      simp only [readAssignment, if_neg hc, if_neg hd]
      apply Applies.append
      rw [hstop]
      refine ⟨m, len + 1, hends.cons c, ?_, ?_⟩
      . intro a ha
        exact hmem a (by omega)
      . rw [hbody]
        congr 2
        omega

lemma importBody_record {text : List UInt8} (htext : Text t.m t.dp (text ++ [0])) (hno : ∀ c ∈ text, c ≠ 0)
    (hfuel : text.length < fuel)
    : Applies hooks flag size t text t.dp (readRecord text) (importBody hooks lineFeed flag fuel size t) := by
  have hblank := scanWhile_takeWhile (p := isblank) htext rfl hfuel
  have htext1 := text_dropWhile htext isblank
  -- the text without the blanks
  have hno1 : ∀ c ∈ text.dropWhile isblank, c ≠ 0 := fun c hc => hno c ((dropWhile_sublist _).mem hc)
  have hfuel1 : (text.dropWhile isblank).length < fuel := by
    have := (dropWhile_sublist isblank (l := text)).length_le
    omega
  unfold readRecord
  suffices h : Applies hooks flag size t (text.takeWhile isblank ++ text.dropWhile isblank) t.dp
      (readLine (text.dropWhile isblank)) (importBody hooks lineFeed flag fuel size t) by
    rwa [takeWhile_append_dropWhile] at h
  apply Applies.append
  unfold importBody
  rw [hblank]
  generalize text.dropWhile isblank = line at htext1 hno1 hfuel1
  generalize hdp : t.dp + ((text.takeWhile isblank).length : Int) = dp at htext1
  clear hblank htext hno hfuel
  dsimp only
  unfold readLine
  by_cases hcomment : line.head? = some numberSign
  . have hm : t.m dp = numberSign := by
      have ⟨l, hl⟩ := head?_eq_some_iff.mp hcomment
      rw [hl, cons_append, text_cons] at htext1
      exact htext1.1
    have hscan := scanWhile_takeWhile (p := fun c => c ≠ 0 ∧ c ≠ lineFeed) htext1 rfl hfuel1
    have hcongr : line.takeWhile (fun c => decide (c ≠ 0 ∧ c ≠ lineFeed)) = line.takeWhile (· ≠ lineFeed) := by
      apply takeWhile_congr
      intro c hc
      simp [hno1 c hc]
    rw [hcongr] at hscan
    rw [if_pos hm, if_pos hcomment, hscan]
    exact ⟨t.m, _, nextLine_ends line, fun _ _ => rfl, rfl⟩
  have hm : t.m dp ≠ numberSign := by
    cases line with
    | nil =>
      have hzero : t.m dp = 0 := (text_cons.mp htext1).1
      rw [hzero]
      decide
    | cons c l =>
      rw [cons_append, text_cons] at htext1
      rw [htext1.1]
      intro heq
      rw [heq] at hcomment
      exact hcomment rfl
  have hscan := scanWhile_takeWhile (p := fun c => c ≠ equalSign ∧ c ≠ 0 ∧ c ≠ lineFeed) htext1 rfl hfuel1
  have hcongr : line.takeWhile (fun c => decide (c ≠ equalSign ∧ c ≠ 0 ∧ c ≠ lineFeed)) = line.takeWhile isName := by
    apply takeWhile_congr
    intro c hc
    simp [isName, hno1 c hc]
  rw [hcongr] at hscan
  rw [if_neg hm, if_neg hcomment, hscan]
  dsimp only
  have hline := @List.takeWhile_append_dropWhile _ isName line
  have htext2 := text_dropWhile htext1 isName
  have hname : Text t.m dp (line.takeWhile isName) := by
    rw [← hline, append_assoc, text_append] at htext1
    exact htext1.1
  have hnoName : ∀ c ∈ line.takeWhile isName, c ≠ 0 := fun c hc => hno1 c ((takeWhile_sublist _).mem hc)
  have hnoAfter : ∀ c ∈ line.dropWhile isName, c ≠ 0 := fun c hc => hno1 c ((dropWhile_sublist _).mem hc)
  have hfirst : ∀ c rest, line.dropWhile isName = c :: rest → c ≠ lineFeed → c = equalSign := by
    intro c rest hdrop hc
    have := head?_dropWhile_not isName line
    rw [hdrop] at this
    simp only [head?_cons, isName] at this
    simpa [hc] using this
  have hlen := congrArg length hline
  rw [length_append] at hlen
  generalize line.takeWhile isName = name at hline htext2 hname hnoName hlen
  generalize line.dropWhile isName = after at hline htext2 hnoAfter hfirst hlen
  generalize hstop : dp + (name.length : Int) = stop at htext2
  rw [← hline]
  exact applies_assignment hname hnoName hstop htext2 hnoAfter hfirst (by omega)

end

end UBoot.Hashtable
