import MarvellBoot.UBoot.Hashtable.Lemmas.Records

namespace UBoot.Hashtable

open Mem Loop List Option HsearchData Nat Function

variable {α : Type} {c : UInt8} {p : UInt8 → Bool} {dp : Int} {m : Int → UInt8} {r : Record} {htab : HsearchData}
  {read : List UInt8 → α × Option (List UInt8)}

section

variable {text tail rest : List UInt8} {p : UInt8 → Bool}

/--
What is read up to a line feed does not depend on what follows it.
-/
def Framed {α : Type} (read : List UInt8 → α × Option (List UInt8)) : Prop :=
  ∀ {text rest}, (read text).2 = some rest → ∃ pre, text = pre ++ lineFeed :: rest
    ∧ ∀ rest', read (pre ++ lineFeed :: rest') = ((read text).1, some rest')

lemma Framed.append (hf : Framed read)
    (h : (read text).2 = some rest) (tail : List UInt8) : read (text ++ tail) = ((read text).1, some (rest ++ tail)) := by
  have ⟨pre, hpre, hread⟩ := hf h
  rw [hpre, append_assoc, cons_append, hread, ← hpre]

lemma Framed.cut (hf : Framed read)
    (h : (read text).2 = none) (h' : (read (text ++ tail)).2 = some rest) : ∃ pre, tail = pre ++ lineFeed :: rest := by
  have ⟨pre, hpre, hread⟩ := hf h'
  rcases append_eq_append_iff.mp hpre with ⟨l, hl, htail⟩ | ⟨l, hl, hrest⟩
  . exact ⟨l, htail⟩
  cases l with
  | nil => exact ⟨[], hrest.symm⟩
  | cons c l =>
    injection hrest with hc hrest
    rw [hl, ← hc, hread] at h
    contradiction

lemma readValue_lineFeed (tail : List UInt8) : readValue (lineFeed :: tail) = ([], some tail) := by
  cases tail with
  | nil => rfl
  | cons c tail => rfl

lemma readValue_cons (hc : c ≠ lineFeed) (hslash : c ≠ backslash) (hne : text ≠ [])
    : readValue (c :: text) = (c :: (readValue text).1, (readValue text).2) := by
  cases text with
  | nil => contradiction
  | cons d text => rw [readValue, if_neg hc, if_neg hslash]

lemma readValue_framed : Framed readValue := by
  intro text rest h
  fun_induction readValue text with
  | case1 => contradiction
  | case2 | case4 d text =>
    cases h
    exact ⟨[], rfl, readValue_lineFeed⟩
  | case3 c hc => contradiction
  | case5 d text hc ih =>
    obtain ⟨pre, hpre, hread⟩ := ih h
    refine ⟨backslash :: d :: pre, by rw [hpre]; rfl, ?_⟩
    intro rest'
    change readValue (backslash :: d :: (pre ++ lineFeed :: rest')) = _
    rw [readValue, if_neg hc, if_pos rfl, hread]
  | case6 c d text hc hslash ih =>
    obtain ⟨pre, hpre, hread⟩ := ih h
    refine ⟨c :: pre, by rw [hpre]; rfl, ?_⟩
    intro rest'
    rw [cons_append, readValue_cons hc hslash (by simp), hread]

lemma span_append {l : List UInt8} (htext : ∀ c ∈ text, p c = true) (hl : ∀ c ∈ l.head?, p c = false)
    : (text ++ l).takeWhile p = text ∧ (text ++ l).dropWhile p = l := by
  rw [takeWhile_append_of_pos htext, dropWhile_append_of_pos htext]
  cases l with
  | nil => simp
  | cons c l => simp [hl c rfl]

lemma head?_dropWhile : ∀ c ∈ (text.dropWhile p).head?, p c = false := by
  intro c hc
  have := head?_dropWhile_not p text
  rw [hc] at this
  simpa using this

-- The text goes on after a line feed, which comes behind the first character that is not in the span.
lemma span_framed {pre : List UInt8} (hp : p lineFeed = false)
    (hpre : text.dropWhile p = pre ++ lineFeed :: rest) (rest' : List UInt8)
    : (text.takeWhile p ++ (pre ++ lineFeed :: rest')).takeWhile p = text.takeWhile p
      ∧ (text.takeWhile p ++ (pre ++ lineFeed :: rest')).dropWhile p = pre ++ lineFeed :: rest' := by
  apply span_append (fun c hc => mem_takeWhile_imp hc)
  have hhead := @head?_dropWhile text p
  rw [hpre] at hhead
  cases pre with
  | nil => simp [hp]
  | cons c pre => simpa using hhead

lemma nextLine_framed (r : Record) : Framed fun text => (r, nextLine text) := by
  intro text rest h
  unfold nextLine at h
  dsimp only at h
  split at h
  next => contradiction
  next c after hdrop =>
  cases h
  have hc : c = lineFeed := by
    have := head?_dropWhile c (by rw [hdrop]; rfl)
    simpa using this
  rw [hc] at hdrop
  refine ⟨text.takeWhile (· ≠ lineFeed), by rw [← hdrop, takeWhile_append_dropWhile], ?_⟩
  intro rest'
  have hspan := @span_framed _ _ _ [] (by simp) hdrop rest'
  rw [nil_append] at hspan
  dsimp only
  rw [nextLine, hspan.2]

lemma readAssignment_framed (name : CStr) : Framed (readAssignment name) := by
  intro text rest h
  cases text with
  | nil => contradiction
  | cons c text =>
    simp only [readAssignment] at h ⊢
    by_cases hc : c = lineFeed
    . rw [if_pos hc] at h ⊢
      cases h
      exact ⟨[], by rw [hc]; rfl, fun rest' => by simp⟩
    rw [if_neg hc] at h ⊢
    cases text with
    | nil => contradiction
    | cons d text =>
      dsimp only at h ⊢
      by_cases hd : d = lineFeed
      . rw [if_pos hd] at h ⊢
        cases h
        exact ⟨[c], by rw [hd]; rfl, fun rest' => by simp [hc]⟩
      rw [if_neg hd] at h ⊢
      obtain ⟨pre, hpre, hread⟩ := readValue_framed h
      refine ⟨c :: pre, by rw [hpre]; rfl, ?_⟩
      intro rest'
      cases pre with
      | nil =>
        injection hpre
        contradiction
      | cons d' pre =>
        injection hpre with hd' hpre
        have hread := hread rest'
        rw [cons_append, ← hd'] at hread
        simp only [cons_append, if_neg hc, ← hd', if_neg hd, hread]

lemma readLine_framed : Framed readLine := by
  intro text rest h
  have hhead (pre : List UInt8) (rest' : List UInt8) (hpre : text = pre ++ lineFeed :: rest)
      : (pre ++ lineFeed :: rest').head? = text.head? := by
    rw [hpre, head?_append, head?_append]
    rfl
  unfold readLine at h
  split at h
  next hcomment =>
    have ⟨pre, hpre, hread⟩ := nextLine_framed .comment h
    refine ⟨pre, hpre, ?_⟩
    intro rest'
    rw [readLine, hhead pre rest' hpre, if_pos hcomment, readLine, if_pos hcomment]
    exact hread rest'
  next hcomment =>
  have ⟨pre, hpre, hread⟩ := readAssignment_framed _ h
  have htext : text = text.takeWhile isName ++ pre ++ lineFeed :: rest := by
    rw [append_assoc, ← hpre, takeWhile_append_dropWhile]
  refine ⟨_, htext, ?_⟩
  intro rest'
  have hspan := span_framed (by decide) hpre rest'
  rw [readLine, hhead _ rest' htext, if_neg hcomment, append_assoc, hspan.1, hspan.2, hread, readLine, if_neg hcomment]

lemma readRecord_framed : Framed readRecord := by
  intro text rest h
  have ⟨pre, hpre, hread⟩ := readLine_framed h
  refine ⟨text.takeWhile isblank ++ pre, ?_, ?_⟩
  . rw [append_assoc, ← hpre, takeWhile_append_dropWhile]
  . intro rest'
    rw [readRecord, append_assoc, (span_framed (by decide) hpre rest').2, hread, readRecord]

lemma dropWhile_append_of_ne_nil (h : text.dropWhile p ≠ []) (tail : List UInt8)
    : (text ++ tail).dropWhile p = text.dropWhile p ++ tail := by
  rw [dropWhile_append, if_neg (by simpa using h)]

lemma takeWhile_append_of_ne_nil (h : text.dropWhile p ≠ []) (tail : List UInt8)
    : (text ++ tail).takeWhile p = text.takeWhile p := by
  have hlen : (text.takeWhile p).length ≠ text.length := by
    intro heq
    have happend := congrArg length (@List.takeWhile_append_dropWhile _ p text)
    rw [length_append] at happend
    exact h (length_eq_zero_iff.mp (by omega))
  rw [takeWhile_append, if_neg hlen]

lemma readRecord_passive (hr : (readRecord text).1 = .comment ∨ (readRecord text).1 = .fail) (tail : List UInt8)
    : (readRecord (text ++ tail)).1 = (readRecord text).1 := by
  unfold readRecord at hr ⊢
  have hne : text.dropWhile isblank ≠ [] := by
    intro hnil
    rw [hnil] at hr
    rcases hr with hr | hr
    . contradiction
    . contradiction
  rw [dropWhile_append_of_ne_nil hne]
  generalize text.dropWhile isblank = line at hr hne
  have hhead : (line ++ tail).head? = line.head? := head?_append_of_ne_nil _ hne
  unfold readLine at hr ⊢
  rw [hhead]
  split
  next => rfl
  next hcomment =>
  rw [if_neg hcomment] at hr
  cases hdrop : line.dropWhile isName with
  | nil =>
    rw [hdrop] at hr
    simp [readAssignment] at hr
  | cons c after =>
    have hne : line.dropWhile isName ≠ [] := by
      rw [hdrop]
      exact cons_ne_nil _ _
    rw [dropWhile_append_of_ne_nil hne, takeWhile_append_of_ne_nil hne, hdrop]
    rw [hdrop] at hr
    rw [cons_append]
    simp only [readAssignment] at hr ⊢
    split at hr
    next hc =>
      simp at hr
    next hc =>
    cases after with
    | nil =>
      simp at hr
    | cons d after =>
      rw [cons_append]
      dsimp only at hr ⊢
      split at hr
      next hd =>
        simp at hr
      next hd =>
      split at hr
      next hname => simp only [if_neg hc, if_neg hd, if_pos hname]
      next hname => simp at hr

end

section

variable {text rest tail : List UInt8}

lemma crlfToLf_cons (h : ¬(c = carriageReturn ∧ text.head? = some lineFeed))
    : crlfToLf (c :: text) = c :: crlfToLf text := by
  cases text with
  | nil => rfl
  | cons d text =>
    rw [crlfToLf, if_neg]
    intro hcr
    exact h ⟨hcr.1, congrArg some hcr.2⟩

lemma crlfToLf_crlf (text : List UInt8)
    : crlfToLf (carriageReturn :: lineFeed :: text) = crlfToLf (lineFeed :: text) := by
  rw [crlfToLf, if_pos ⟨rfl, rfl⟩, crlfToLf_cons]
  intro h
  exact absurd h.1 (by decide)

lemma length_crlfToLf_le (text : List UInt8) : (crlfToLf text).length ≤ text.length := by
  fun_induction crlfToLf text with
  | case1 => exact le_rfl
  | case2 c => exact le_rfl
  | case3 c d text h ih =>
    simp only [length_cons]
    omega
  | case4 c d text h ih =>
    simp only [length_cons] at ih ⊢
    omega

lemma crlfToLf_ne_nil (hne : text ≠ []) : crlfToLf text ≠ [] := by
  cases text with
  | nil => contradiction
  | cons c text =>
    cases text with
    | nil => exact cons_ne_nil _ _
    | cons d text =>
      rw [crlfToLf]
      split
      . exact cons_ne_nil _ _
      . exact cons_ne_nil _ _

lemma mem_crlfToLf (h : c ∈ crlfToLf text) : c ∈ text := by
  fun_induction crlfToLf text with
  | case1 => exact h
  | case2 c' => exact h
  | case3 c' d text hcr ih =>
    rw [mem_cons] at h
    rcases h with h | h
    . simp [h, hcr.2]
    . simp [ih h]
  | case4 c' d text hcr ih =>
    rw [mem_cons] at h
    rcases h with h | h
    . simp [h]
    . exact mem_cons_of_mem _ (ih h)

lemma removeCrs_text {done out : List UInt8} {fuel : Nat} (htext : text = done ++ rest) (hno : ∀ c ∈ text, c ≠ 0)
    (hle : out.length ≤ done.length) (hfuel : rest.length < fuel)
    : removeCrs text.length fuel (store (store (fun _ => 0) 0 text) 0 out) done.length (done.length - out.length)
      = some (store (store (fun _ => 0) 0 text) 0 (out ++ crlfToLf rest),
        text.length - (out ++ crlfToLf rest).length) := by
  induction rest generalizing done out fuel with
  | nil =>
    have hdone : done.length = text.length := by rw [htext, append_nil]
    cases fuel with
    | zero => omega
    | succ fuel =>
      rw [removeCrs, if_neg (by omega), crlfToLf, append_nil, hdone]
  | cons c rest ih =>
    have hlen : text.length = done.length + 1 + rest.length := by
      rw [htext, length_append, length_cons]
      omega
    -- what has not been read yet is still there
    have hread (i : Nat) (hi : i < (c :: rest).length)
        : store (store (fun _ => 0) 0 text) 0 out (done.length + i : Nat) = (c :: rest).getD i 0 := by
      rw [store_of_ge _ (by omega)]
      unfold store
      rw [length_cons] at hi
      rw [if_pos (by omega), htext]
      have hidx : (((done.length + i : Nat) : Int) - 0).toNat = done.length + i := by omega
      rw [hidx, getD_append_right _ _ _ _ (by omega), Nat.add_sub_cancel_left]
    have hc : store (store (fun _ => 0) 0 text) 0 out done.length = c := hread 0 (by simp)
    have hcne : c ≠ 0 := hno c (by rw [htext]; simp)
    have htext' : text = done ++ [c] ++ rest := by
      rw [htext]
      simp
    cases fuel with
    | zero => omega
    | succ fuel =>
      rw [length_cons] at hfuel
      rw [removeCrs, if_pos ⟨by omega, by rw [hc]; exact hcne⟩]
      have hnext : (store (store (fun _ => 0) 0 text) 0 out done.length = carriageReturn ∧ done.length + 1 < text.length
          ∧ store (store (fun _ => 0) 0 text) 0 out (done.length + 1) = lineFeed)
          ↔ c = carriageReturn ∧ rest.head? = some lineFeed := by
        rw [hc]
        cases rest with
        | nil =>
          rw [length_nil] at hlen
          constructor
          . intro h
            omega
          . intro h
            exact absurd h.2 (by simp)
        | cons d rest =>
          have hd : store (store (fun _ => 0) 0 text) 0 out (done.length + 1 : Nat) = d := hread 1 (by simp)
          rw [cast_add, cast_one] at hd
          rw [hd, length_cons] at *
          simp only [head?_cons, some_inj]
          constructor
          . intro h
            exact ⟨h.1, h.2.2⟩
          . intro h
            exact ⟨h.1, by omega, h.2⟩
      by_cases hcr : c = carriageReturn ∧ rest.head? = some lineFeed
      . obtain ⟨rest', hrest'⟩ := head?_eq_some_iff.mp hcr.2
        have hih := @ih (done ++ [c]) out fuel htext' (by rw [length_append]; omega) (by omega)
        have hcrs : (done ++ [c]).length - out.length = done.length - out.length + 1 := by
          rw [length_append, length_singleton]
          omega
        rw [hcrs, length_append, length_singleton] at hih
        rw [if_pos (hnext.mpr hcr), hih, hcr.1, hrest', crlfToLf_crlf]
      have hih := @ih (done ++ [c]) (out ++ [c]) fuel htext' (by simp; omega) (by omega)
      have hcrs : (done ++ [c]).length - (out ++ [c]).length = done.length - out.length := by
        simp only [length_append, length_singleton]
        omega
      have haddr : ((done.length : Int) - ((done.length - out.length : Nat) : Int)) = 0 + out.length := by omega
      rw [hcrs, length_append, length_singleton] at hih
      rw [if_neg (fun h => hcr (hnext.mp h)), hc, haddr, ← store_append, hih, crlfToLf_cons hcr]
      simp only [append_assoc, singleton_append]

lemma text_removed (hno : ∀ c ∈ text, c ≠ 0)
    : ∃ m, removeCrs text.length (text.length + 1) (store (fun _ => 0) 0 text) 0 0
        = some (m, text.length - (crlfToLf text).length) ∧ Text m 0 (crlfToLf text ++ residue text ++ [0]) := by
  refine ⟨store (store (fun _ => 0) 0 text) 0 (crlfToLf text), ?_, ?_⟩
  . have hremove := @removeCrs_text _ _ [] [] _ rfl hno (le_refl 0) (lt_succ_self _)
    rw [store_nil] at hremove
    exact hremove
  have hlen := length_crlfToLf_le text
  have hall : Text (store (fun _ => 0) 0 text) 0 (text ++ [0]) := by
    rw [text_append, text_cons]
    refine ⟨text_store_self, ?_, rfl⟩
    exact store_of_ge _ (by omega)
  rw [append_assoc, text_append]
  refine ⟨text_store_self, ?_⟩
  have hsplit : text ++ [0] = text.take (crlfToLf text).length ++ (residue text ++ [0]) := by
    unfold residue
    rw [← append_assoc, take_append_drop]
  rw [hsplit, text_append, length_take, min_eq_left hlen] at hall
  exact hall.2.store (.inl (by omega))

end

section

variable {text rest line : List UInt8} {fuel : Nat}

lemma cutOff_nil (fuel : Nat) : cutOff fuel [] = none := by
  cases fuel with
  | zero => rfl
  | succ fuel => rfl

lemma cutOff_of_none (hne : text ≠ []) (h : (readRecord text).2 = none) : cutOff (fuel + 1) text = some text := by
  rw [cutOff, if_neg hne]
  cases hr : readRecord text with
  | mk r rest =>
    rw [hr] at h
    dsimp only at h
    rw [h]

lemma cutOff_of_fail (h : (readRecord text).2 = some rest) (hfail : (readRecord text).1 = .fail)
    : cutOff (fuel + 1) text = none := by
  rw [cutOff]
  split
  . rfl
  cases hr : readRecord text with
  | mk r rest' =>
    rw [hr] at h hfail
    dsimp only at h hfail
    rw [h, hfail]

lemma cutOff_of_some (hne : text ≠ []) (h : (readRecord text).2 = some rest) (hfail : (readRecord text).1 ≠ .fail)
    : cutOff (fuel + 1) text = cutOff fuel rest := by
  rw [cutOff, if_neg hne]
  cases hr : readRecord text with
  | mk r rest' =>
    rw [hr] at h hfail
    dsimp only at h hfail
    rw [h]
    cases r with
    | fail => contradiction
    | _ => rfl

lemma cutOff_spec (h : cutOff fuel text = some line) : line ≠ [] ∧ (readRecord line).2 = none := by
  induction fuel generalizing text with
  | zero => contradiction
  | succ fuel ih =>
    by_cases hne : text = []
    . rw [hne, cutOff_nil] at h
      contradiction
    cases hrest : (readRecord text).2 with
    | none =>
      rw [cutOff_of_none hne hrest] at h
      cases h
      exact ⟨hne, hrest⟩
    | some rest =>
      by_cases hfail : (readRecord text).1 = .fail
      . rw [cutOff_of_fail hrest hfail] at h
        contradiction
      . rw [cutOff_of_some hne hrest hfail] at h
        exact ih h

end

section

variable {σ : Type} {hooks : Hooks σ} {flag fuel fuel' size loops : Nat} {rest tail : List UInt8} {t t' : ImportState σ}

def outcome (res : Bool × ImportState σ) : Bool × List (Option CStr) × State σ := (res.1, res.2.localvars, res.2.s)

structure Alike (size : Nat) (rest tail : List UInt8) (t t' : ImportState σ) : Prop where
  text : Text t.m t.dp (rest ++ tail ++ [0])
  text' : Text t'.m t'.dp (rest ++ [0])
  dp_eq : t'.dp = t.dp
  localvars_eq : t'.localvars = t.localvars
  s_eq : t'.s = t.s
  size_eq : (size : Int) = t.dp + rest.length

lemma finishRecord_done (hdp : (size : Int) ≤ dp) (res : Bool × List (Option CStr) × State σ)
    : finishRecord size m dp res = .done (res.1, ⟨m, dp, res.2.1, res.2.2⟩) := by
  unfold finishRecord importNext
  split
  next h =>
    rw [if_neg (fun hlt => by have := hlt.1; dsimp only at this; omega), h]
  next h =>
  rw [Bool.not_eq_true] at h
  rw [h]

lemma finishRecord_again (hdp : dp < size) (hm : m dp ≠ 0) (localvars : List (Option CStr)) (s : State σ)
    : finishRecord size m dp (true, localvars, s) = .again ⟨m, dp, localvars, s⟩ := by
  unfold finishRecord importNext
  rw [if_pos rfl, if_pos ⟨hdp, hm⟩]

lemma runM_last (hdp : (size : Int) ≤ dp) (hbody : importBody hooks lineFeed flag fuel size t
      = (applyRecord hooks flag t.localvars t.s r).map (finishRecord size m dp))
    : (runM (importBody hooks lineFeed flag fuel size) (loops + 1) t).map outcome
      = applyRecord hooks flag t.localvars t.s r := by
  rw [runM, hbody]
  cases applyRecord hooks flag t.localvars t.s r with
  | none => rfl
  | some res =>
    rw [map_some, finishRecord_done hdp]
    rfl

lemma applyRecord_goes {localvars : List (Option CStr)} {s : State σ}
    {res : Bool × List (Option CStr) × State σ} (h : applyRecord hooks flag localvars s r = some res)
    : res.1 = false ↔ r = .fail := by
  cases r with
  | fail =>
    cases h
    simp
  | comment =>
    cases h
    simp
  | delete name | enter name value =>
    simp only [applyRecord] at h
    split at h
    . cases h
      simp
    . have ⟨_, _, hres⟩ := map_eq_some_iff.mp h
      rw [← hres]
      simp

lemma runM_alike (I : List (Option CStr) → State σ → Prop)
    (hI : ∀ localvars s r res, I localvars s → applyRecord hooks flag localvars s r = some res → I res.2.1 res.2.2)
    (h : Alike size rest tail t t') (hs : I t.localvars t.s) (hne : rest ≠ []) (hno : ∀ c ∈ rest, c ≠ 0)
    (hno' : ∀ c ∈ tail, c ≠ 0) (hfuel : (rest ++ tail).length < fuel) (hfuel' : rest.length < fuel')
    (hloops : rest.length ≤ loops)
    : (cutOff loops rest = none
        ∧ (runM (importBody hooks lineFeed flag fuel size) (loops + 1) t).map outcome
          = (runM (importBody hooks lineFeed flag fuel' size) (loops + 1) t').map outcome)
      ∨ ∃ line, cutOff loops rest = some line ∧ line ≠ [] ∧ (readRecord line).2 = none
        ∧ ((runM (importBody hooks lineFeed flag fuel size) (loops + 1) t).map outcome = none
            ∧ (runM (importBody hooks lineFeed flag fuel' size) (loops + 1) t').map outcome = none
          ∨ ∃ localvars s, I localvars s
            ∧ (runM (importBody hooks lineFeed flag fuel size) (loops + 1) t).map outcome
              = applyRecord hooks flag localvars s (readRecord (line ++ tail)).1
            ∧ (runM (importBody hooks lineFeed flag fuel' size) (loops + 1) t').map outcome
              = applyRecord hooks flag localvars s (readRecord line).1) := by
  induction loops generalizing rest t t' with
  | zero =>
    have := length_pos_iff.mpr hne
    omega
  | succ loops ih =>
    have hnoAll : ∀ c ∈ rest ++ tail, c ≠ 0 := by
      intro c hc
      exact (mem_append.mp hc).elim (hno c) (hno' c)
    obtain ⟨m, len, hends, hmem, hbody⟩ := @importBody_record σ hooks flag _ size t _ h.text hnoAll hfuel
    obtain ⟨m', len', hends', hmem', hbody'⟩ := @importBody_record σ hooks flag _ size t' _ h.text' hno hfuel'
    have hsize := h.size_eq
    rw [h.dp_eq] at hmem' hbody'
    rw [h.localvars_eq, h.s_eq] at hbody'
    cases hrest : (readRecord rest).2 with
    | none =>
      -- both imports end with this record
      right
      rw [hrest] at hends'
      have hlen' : len' = rest.length := hends'
      have hlen : rest.length ≤ len := by
        cases hrest' : (readRecord (rest ++ tail)).2 with
        | none =>
          rw [hrest'] at hends
          rw [hends, length_append]
          omega
        | some rest' =>
          obtain ⟨pre, hpre⟩ := readRecord_framed.cut hrest hrest'
          rw [hrest'] at hends
          have hlen := hends.length
          rw [hpre] at hlen
          simp only [length_append, length_cons] at hlen
          omega
      refine ⟨rest, cutOff_of_none hne hrest, hne, hrest, .inr ⟨t.localvars, t.s, hs, ?_, ?_⟩⟩
      . exact runM_last (by omega) hbody
      . rw [← h.localvars_eq, ← h.s_eq] at hbody' ⊢
        exact runM_last (by omega) hbody'
    | some rest' =>
      have hrecord := readRecord_framed.append hrest tail
      rw [hrecord] at hends hbody
      rw [hrest] at hends'
      have hlen := hends.length
      have hlen' := hends'.length
      simp only [length_append] at hlen
      have heq : len' = len := by omega
      rw [heq] at hends' hmem' hbody'
      rw [runM, runM, hbody, hbody']
      cases hres : applyRecord hooks flag t.localvars t.s (readRecord rest).1 with
      | none =>
        cases hcut : cutOff (loops + 1) rest with
        | none => exact .inl ⟨rfl, rfl⟩
        | some line =>
          have hline := cutOff_spec hcut
          exact .inr ⟨line, rfl, hline.1, hline.2, .inl ⟨rfl, rfl⟩⟩
      | some res =>
        have hs' := hI _ _ _ _ hs hres
        obtain ⟨goes, localvars, s⟩ := res
        dsimp only [map_some] at hs' ⊢
        cases goes with
        | false =>
          left
          have hfail : (readRecord rest).1 = .fail := (applyRecord_goes hres).mp rfl
          exact ⟨cutOff_of_fail hrest hfail, rfl⟩
        | true =>
          have hfail : (readRecord rest).1 ≠ .fail := fun h => absurd ((applyRecord_goes hres).mpr h) (by simp)
          rw [cutOff_of_some hne hrest hfail]
          by_cases hrest' : rest' = []
          . left
            rw [hrest', length_nil] at hlen'
            rw [hrest', finishRecord_done (by omega), finishRecord_done (by omega)]
            exact ⟨cutOff_nil loops, rfl⟩
          have hpos := length_pos_iff.mpr hrest'
          -- what is left of the text is not changed
          have halike : Alike size rest' tail ⟨m, t.dp + len + 1, localvars, s⟩ ⟨m', t.dp + len + 1, localvars, s⟩ := by
            refine ⟨hends.text_after h.text hmem, ?_, rfl, rfl, rfl, ?_⟩
            . have htext' := h.text'
              rw [h.dp_eq] at htext'
              exact hends'.text_after htext' hmem'
            . dsimp only
              omega
          have hfirst : ∀ (m : Int → UInt8) (l : List UInt8), Text m (t.dp + len + 1) (rest' ++ l) →
            m (t.dp + len + 1) ≠ 0 := by
            intro m l htext
            obtain ⟨pre, hpre, _⟩ := readRecord_framed hrest
            cases rest' with
            | nil => contradiction
            | cons c rest' =>
              rw [cons_append, text_cons] at htext
              rw [htext.1]
              exact hno c (by rw [hpre]; simp)
          have hm := hfirst m (tail ++ [0]) (by rw [← append_assoc]; exact halike.text)
          have hm' := hfirst m' [0] halike.text'
          rw [finishRecord_again (by omega) hm, finishRecord_again (by omega) hm']
          obtain ⟨pre, hpre, _⟩ := readRecord_framed hrest
          apply ih halike hs' hrest'
          . intro c hc
            exact hno c (by rw [hpre]; simp [hc])
          . rw [length_append] at hfuel ⊢
            omega
          . omega
          . omega

end

section

variable {σ : Type} {hooks : Hooks σ} {flag : Nat} {text : List UInt8} {table : Option HsearchData} {statics : σ}
  {vars : List (Option CStr)}

def concludes (hooks : Hooks σ) (flag : Nat) : Option (Bool × List (Option CStr) × State σ) → Option (Bool × State σ)
  | none => none
  | some (false, _, s) => some (false, s)
  | some (true, localvars, s) => (deleteVars hooks flag localvars s).map fun s => (true, s)

lemma concludes_outcome (res : Option (Bool × ImportState σ))
    : (match res with
      | none => none
      | some (false, t) => some (false, t.s)
      | some (true, t) =>
        match deleteVars hooks flag t.localvars t.s with
        | none => none
        | some s => some (true, s)) = concludes hooks flag (res.map outcome) := by
  cases res with
  | none => rfl
  | some res =>
    have ⟨b, t⟩ := res
    cases b with
    | false => rfl
    | true =>
      dsimp only [map_some, outcome, concludes]
      cases deleteVars hooks flag t.localvars t.s with
      | none => rfl
      | some s => rfl

def Into (flag : Nat) (table : Option HsearchData) (size : Nat) (htab : HsearchData) : Prop :=
  (hNoclear flag = true ∧ table = some htab)
    ∨ ((hNoclear flag = false ∨ table = none) ∧ hcreateR (nent size) = some htab)

lemma exists_into (flag : Nat) (table : Option HsearchData) (size : Nat) : ∃ htab, Into flag table size htab := by
  have ⟨htab, hcreate, _⟩ := hcreateR_nent size
  cases hflag : hNoclear flag with
  | false => exact ⟨htab, .inr ⟨.inl hflag, hcreate⟩⟩
  | true =>
    cases table with
    | none => exact ⟨htab, .inr ⟨.inr rfl, hcreate⟩⟩
    | some htab => exact ⟨htab, .inl ⟨hflag, rfl⟩⟩

lemma himportR_eq {crlfIsLf : Bool}
    {htab : HsearchData} {m : Int → UInt8} {crs : Nat} (hinto : Into flag table text.length htab) (hne : text ≠ [])
    (hremove : (if crlfIsLf then removeCrs text.length (text.length + 1) (store (fun _ => 0) 0 text) 0 0
      else some (store (fun _ => 0) 0 text, 0)) = some (m, crs))
    : himportR hooks lineFeed flag table statics text crlfIsLf vars
      = concludes hooks flag ((runM (importBody hooks lineFeed flag (text.length + 2) (text.length - crs))
        (text.length - crs + 1) ⟨m, 0, vars, ⟨htab, statics⟩⟩).map outcome) := by
  have hlen : text.length ≠ 0 := fun h => hne (length_eq_zero_iff.mp h)
  unfold himportR
  simp only [if_neg hlen, hremove]
  rcases hinto with ⟨hflag, htable⟩ | ⟨hnone, hcreate⟩
  . rw [hflag, htable]
    exact concludes_outcome _
  have hnone : (if hNoclear flag = false then none else table) = none := by
    rcases hnone with h | h
    . rw [if_pos h]
    . rw [h, ite_self]
  simp only [hnone, hcreate]
  exact concludes_outcome _

lemma himportR_alike {htab : HsearchData}
    (hno : ∀ c ∈ text, c ≠ 0) (hne : text ≠ []) (hinto : Into flag table text.length htab)
    (hinto' : Into flag table (crlfToLf text).length htab) (I : List (Option CStr) → State σ → Prop)
    (hI : ∀ localvars s r res, I localvars s → applyRecord hooks flag localvars s r = some res → I res.2.1 res.2.2)
    (hs : I vars ⟨htab, statics⟩)
    : ∃ out out', himportR hooks lineFeed flag table statics text true vars = concludes hooks flag out
      ∧ himportR hooks lineFeed flag table statics (crlfToLf text) false vars = concludes hooks flag out'
      ∧ ((cutOff (crlfToLf text).length (crlfToLf text) = none ∧ out = out')
        ∨ ∃ line, cutOff (crlfToLf text).length (crlfToLf text) = some line
          ∧ (out = none ∧ out' = none
            ∨ ∃ localvars s, I localvars s
              ∧ out = applyRecord hooks flag localvars s (readRecord (line ++ residue text)).1
              ∧ out' = applyRecord hooks flag localvars s (readRecord line).1)) := by
  have hne' : crlfToLf text ≠ [] := crlfToLf_ne_nil hne
  have hle := length_crlfToLf_le text
  have ⟨m, hremove, htext⟩ := text_removed hno
  have himport := @himportR_eq σ hooks _ _ _ statics vars true _ m _ hinto hne hremove
  have himport' := @himportR_eq σ hooks _ _ _ statics vars false _ _ _ hinto' hne' rfl
  have hsize : text.length - (text.length - (crlfToLf text).length) = (crlfToLf text).length := by omega
  rw [hsize] at himport
  refine ⟨_, _, himport, himport', ?_⟩
  have hlen : (crlfToLf text ++ residue text).length = text.length := by
    unfold residue
    rw [length_append, length_drop]
    omega
  have htext' : Text (store (fun _ => 0) 0 (crlfToLf text)) 0 (crlfToLf text ++ [0]) := by
    rw [text_append, text_cons]
    refine ⟨text_store_self, ?_, rfl⟩
    exact store_of_ge _ (by omega)
  have halike : Alike (crlfToLf text).length (crlfToLf text) (residue text)
      (⟨m, 0, vars, ⟨htab, statics⟩⟩ : ImportState σ)
      ⟨store (fun _ => 0) 0 (crlfToLf text), 0, vars, ⟨htab, statics⟩⟩ :=
    ⟨htext, htext', rfl, rfl, rfl, (zero_add _).symm⟩
  rcases @runM_alike σ _ _ (text.length + 2) ((crlfToLf text).length + 2) _
      (crlfToLf text).length (crlfToLf text) (residue text) _ _ I hI halike hs hne' (fun c hc => hno c (mem_crlfToLf hc))
      (fun c hc => hno c (mem_of_mem_drop hc)) (by omega) (by omega) le_rfl with
    h | ⟨line, hcut, _, _, h⟩
  . exact .inl h
  . exact .inr ⟨line, hcut, h⟩

end

section

variable {key : CStr} {size : Nat}

def fullTable (size : Nat) (key : CStr) : HsearchData where
  table _ := ⟨hval1 size key, ⟨key, [], 0⟩⟩
  size := size
  filled := 1

def refillHooks (key : CStr) : Hooks (List (CStr × Option CStr)) where
  envFlagsInit log _ entry := some (entry.flags, log)
  changeOk _ _ _ _ := true
  callback log htab name data _ _ := some (some (fullTable htab.size key, log ++ [(name, data)]))

lemma refillHooks_returning (key : CStr) : Returning (refillHooks key) where
  envFlagsInit log _ entry := ⟨(entry.flags, log), rfl⟩
  callback log htab name data _ _ := by
    refine ⟨_, rfl, ?_⟩
    intro after h
    cases h
    rfl

structure Refilled (key : CStr) (htab : HsearchData) : Prop where
  size_ge : 5 ≤ htab.size
  filled_le : htab.filled ≤ 1
  found : ∃ idx, htab.toNull.search key = some (.inl idx)

lemma compareEntry_of_used {htab : HsearchData} {idx : Nat} (hused : (htab.table idx).used = hval1 htab.size key)
    (hkey : (htab.table idx).entry.key = key) : htab.toNull.compareEntry key (hval1 htab.size key) idx = some true := by
  unfold NullTable.compareEntry
  have hused' : (htab.toNull.table idx).used = hval1 htab.size key := hused
  have hkey' : (htab.toNull.table idx).entry.key = some key := congrArg some hkey
  rw [if_pos hused', hkey', map_some, decide_eq_true rfl]

lemma search_of_first (hused : (htab.table (hval1 htab.size key)).used = hval1 htab.size key)
    (hkey : (htab.table (hval1 htab.size key)).entry.key = key)
    : htab.toNull.search key = some (.inl (hval1 htab.size key)) := by
  have hpos : 0 < hval1 htab.size key := hval1_pos key
  have hused' : (htab.toNull.table (hval1 htab.toNull.size key)).used ≠ 0 := by
    change (htab.table (hval1 htab.size key)).used ≠ 0
    omega
  have hfirst : htab.toNull.compareEntry key (hval1 htab.toNull.size key) (hval1 htab.toNull.size key) = some true :=
    compareEntry_of_used hused hkey
  unfold NullTable.search
  rw [if_pos hused', hfirst]
  rfl

lemma refilled_full (hsize : 5 ≤ size) : Refilled key (fullTable size key) :=
  ⟨hsize, le_refl 1, _, search_of_first rfl rfl⟩

lemma refilled_setData (hsize : 5 ≤ size) (idx : Nat) (data : CStr)
    : Refilled key ((fullTable size key).setData idx data) := by
  have hslot (i : Nat) : (((fullTable size key).setData idx data).table i).used = hval1 size key
      ∧ (((fullTable size key).setData idx data).table i).entry.key = key := by
    dsimp only [setData, setSlot]
    by_cases hi : i = idx
    . rw [hi, update_self]
      exact ⟨rfl, rfl⟩
    . rw [update_of_ne hi]
      exact ⟨rfl, rfl⟩
  exact ⟨hsize, le_refl 1, _, search_of_first (hslot _).1 (hslot _).2⟩

lemma refilled_deleteSlot (hsize : 5 ≤ size) (idx : Nat) : Refilled key (deleteSlot (fullTable size key) idx) := by
  have hslot {i : Nat} (hi : i ≠ idx) : (deleteSlot (fullTable size key) idx).table i = (fullTable size key).table i := by
    dsimp only [deleteSlot, setSlot]
    rw [update_of_ne hi]
  refine ⟨hsize, zero_le 1, ?_⟩
  by_cases hidx : hval1 size key = idx
  . -- the key is in the next slot
    have hself : ((deleteSlot (fullTable size key) idx).toNull.table (hval1 size key)).used = -1 := by
      dsimp only [deleteSlot, setSlot, toNull, Slot.toNull]
      rw [hidx, update_self]
    have hstep : 0 < hval2 size (hval1 size key) := hval2_pos _
    have hstep' := hval2_lt hsize (hval1 size key)
    have hnext : (if hval1 size key ≤ hval2 size (hval1 size key) then size + hval1 size key - hval2 size (hval1 size key)
        else hval1 size key - hval2 size (hval1 size key)) ≠ hval1 size key := by
      split
      . omega
      . omega
    have hloop : ∃ next, (deleteSlot (fullTable size key) idx).toNull.searchLoop key (hval1 size key)
        (hval2 size (hval1 size key)) size (hval1 size key) = some (.inl next) := by
      obtain ⟨fuel, hfuel⟩ : ∃ fuel, size = fuel + 1 := ⟨size - 1, by omega⟩
      have hsize' : (deleteSlot (fullTable size key) idx).toNull.size = size := rfl
      conv => enter [1, next, 1, 5]; rw [hfuel]
      rw [NullTable.searchLoop, hsize']
      generalize (if hval1 size key ≤ hval2 size (hval1 size key) then size + hval1 size key - hval2 size (hval1 size key)
        else hval1 size key - hval2 size (hval1 size key)) = next at hnext
      have hslot' := @hslot next (by rw [← hidx]; exact hnext)
      have hcompare := compareEntry_of_used (by rw [hslot']; rfl) (by rw [hslot']; rfl)
      have hcompare : (deleteSlot (fullTable size key) idx).toNull.compareEntry key (hval1 size key) next = some true :=
        hcompare
      rw [if_neg hnext, hcompare]
      exact ⟨next, rfl⟩
    obtain ⟨next, hloop⟩ := hloop
    have hcompare : (deleteSlot (fullTable size key) idx).toNull.compareEntry key (hval1 size key) (hval1 size key)
        = some false := by
      unfold NullTable.compareEntry
      rw [if_neg (by rw [hself]; omega)]
    have hsize' : (deleteSlot (fullTable size key) idx).toNull.size = size := rfl
    refine ⟨next, ?_⟩
    unfold NullTable.search
    rw [hsize', if_pos (by rw [hself]; decide), hcompare]
    rw [hloop]
    rfl
  have hfirst := hslot hidx
  refine ⟨_, search_of_first ?_ ?_⟩
  . change ((deleteSlot (fullTable size key) idx).table (hval1 size key)).used = hval1 size key
    rw [hfirst]
    rfl
  . change ((deleteSlot (fullTable size key) idx).table (hval1 size key)).entry.key = key
    rw [hfirst]
    rfl

def Logs (key : CStr) (log log' : List (CStr × Option CStr)) : Record → Prop
  | .enter name value => log' = log ++ [(name, some value)]
  | .delete name => log' = log ++ [(name, none)] ∨ (name ≠ key ∧ log' = log)
  | _ => log' = log

lemma applyRecord_refill {s : State (List (CStr × Option CStr))} (h : Refilled key s.htab) (flag : Nat) (r : Record)
    : ∃ b s', applyRecord (refillHooks key) flag [] s r = some (b, [], s') ∧ Refilled key s'.htab
      ∧ Logs key s.statics s'.statics r := by
  have hsize := h.size_ge
  cases r with
  | comment | fail => exact ⟨_, s, rfl, h, rfl⟩
  | delete name =>
    have hdrop : dropVarFromSet name [] = (true, []) := rfl
    simp only [applyRecord, hdrop, Bool.true_eq_false, if_false]
    have ⟨found, hsearch⟩ := search_isSome s.htab hsize name
    unfold hdeleteR
    rw [hsearchR_eq_search, hsearch]
    cases found with
    | inl idx =>
      refine ⟨true, ⟨deleteSlot (fullTable s.htab.size key) idx, s.statics ++ [(name, none)]⟩, rfl, ?_, .inl rfl⟩
      exact refilled_deleteSlot hsize idx
    | inr idx =>
      refine ⟨true, s, rfl, h, .inr ⟨?_, rfl⟩⟩
      intro heq
      have ⟨idx', hfound⟩ := h.found
      rw [heq, hfound] at hsearch
      cases hsearch
  | enter name value =>
    have hdrop : dropVarFromSet name [] = (true, []) := rfl
    simp only [applyRecord, hdrop, Bool.true_eq_false, if_false]
    have ⟨found, hsearch⟩ := search_isSome s.htab hsize name
    rw [hsearchR_eq_search, hsearch]
    cases found with
    | inl idx =>
      refine ⟨true, ⟨(fullTable s.htab.size key).setData idx value, s.statics ++ [(name, some value)]⟩, rfl, ?_, rfl⟩
      exact refilled_setData hsize idx value
    | inr idx =>
      have hfilled : s.htab.filled ≠ s.htab.size := by
        have := h.filled_le
        omega
      dsimp only
      rw [enterNew_enter hfilled]
      refine ⟨true, ⟨fullTable s.htab.size key, s.statics ++ [(name, some value)]⟩, rfl, ?_, rfl⟩
      exact refilled_full hsize

lemma logs_ne {log log' log'' : List (CStr × Option CStr)} {r' : Record} (h : Logs key log log' r)
    (h' : Logs key log log'' r') (hne : r ≠ r')
    (hr' : (∃ name value, r' = .enter name value) ∨ r' = .delete key) : log' ≠ log'' := by
  intro heq
  rcases hr' with ⟨name, value, hr'⟩ | hr'
  . rw [hr'] at h' hne
    rw [heq, h'] at h
    cases r with
    | comment => simp [Logs] at h
    | fail => simp [Logs] at h
    | delete name' => simp [Logs] at h
    | enter name' value' =>
      simp only [Logs, append_cancel_left_eq, cons.injEq, Prod.mk.injEq, some_inj, and_true] at h
      exact hne (by rw [h.1, h.2])
  rw [hr'] at h' hne
  have h' : log'' = log ++ [(key, none)] := by
    rcases h' with h' | h'
    . exact h'
    . exact absurd rfl h'.1
  rw [heq, h'] at h
  cases r with
  | comment => simp [Logs] at h
  | fail => simp [Logs] at h
  | enter name' value' => simp [Logs] at h
  | delete name' =>
    simp only [Logs, append_cancel_left_eq, cons.injEq, Prod.mk.injEq, and_true] at h
    rcases h with h | h
    . exact hne (by rw [h])
    . simp at h

end

section

variable {text : List UInt8}

def SameImport {σ : Type} (hooks : Hooks σ) (flag : Nat) (table : Option HsearchData) (statics : σ)
    (vars : List (Option CStr)) (text : List UInt8) : Prop :=
  (himportR hooks lineFeed flag table statics text true vars).map Prod.snd
    = (himportR hooks lineFeed flag table statics (crlfToLf text) false vars).map Prod.snd

def Transparent (text : List UInt8) : Prop :=
  ∀ (σ : Type) (hooks : Hooks σ) flag table statics vars, SameImport hooks flag table statics vars text

def TransparentInto (text : List UInt8) : Prop :=
  ∀ (σ : Type) (hooks : Hooks σ) flag htab statics vars, hNoclear flag = true →
    SameImport hooks flag (some htab) statics vars text

def LastSame (text : List UInt8) : Prop :=
  ∀ line, cutOff (crlfToLf text).length (crlfToLf text) = some line →
    (readRecord (line ++ residue text)).1 = (readRecord line).1

lemma sameImport_of_lastSame {σ : Type} {hooks : Hooks σ} {flag : Nat} {table : Option HsearchData} {statics : σ}
    {vars : List (Option CStr)} (hno : ∀ c ∈ text, c ≠ 0) (hlast : LastSame text)
    (hinto : Into flag table text.length htab) (hinto' : Into flag table (crlfToLf text).length htab)
    : SameImport hooks flag table statics vars text := by
  by_cases hne : text = []
  . rw [hne]
    rfl
  have ⟨out, out', himport, himport', h⟩ := @himportR_alike σ hooks _ _ _ statics vars _ hno hne hinto hinto'
    (fun _ _ => True) (fun _ _ _ _ _ _ => trivial) trivial
  unfold SameImport
  rw [himport, himport']
  rcases h with ⟨_, heq⟩ | ⟨line, hcut, ⟨hnone, hnone'⟩ | ⟨localvars, s, _, hout, hout'⟩⟩
  . rw [heq]
  . rw [hnone, hnone']
  . rw [hout, hout', hlast line hcut]

lemma not_sameImport {line : List UInt8} (hno : ∀ c ∈ text, c ≠ 0) {key : CStr}
    (hcut : cutOff (crlfToLf text).length (crlfToLf text) = some line)
    (hne : (readRecord (line ++ residue text)).1 ≠ (readRecord line).1)
    (hkey : (∃ name value, (readRecord line).1 = .enter name value) ∨ (readRecord line).1 = .delete key)
    : ¬SameImport (refillHooks key) 1 (some (fullTable 5 key)) [] [] text := by
  intro hsame
  have htext : text ≠ [] := by
    intro hnil
    rw [hnil] at hcut
    contradiction
  have hinto (size : Nat) : Into 1 (some (fullTable 5 key)) size (fullTable 5 key) := .inl ⟨rfl, rfl⟩
  have hI : ∀ localvars s r res, (localvars = [] ∧ Refilled key s.htab) →
      applyRecord (refillHooks key) 1 localvars s r = some res → res.2.1 = [] ∧ Refilled key res.2.2.htab := by
    intro localvars s r res ⟨hvars, hs⟩ hres
    have ⟨b, s', happly, hs', _⟩ := applyRecord_refill hs 1 r
    rw [hvars, happly] at hres
    cases hres
    exact ⟨rfl, hs'⟩
  have ⟨out, out', himport, himport', h⟩ := @himportR_alike _ _ 1 _ _ [] []
    (fullTable 5 key) hno htext (hinto _) (hinto _) (fun localvars s => localvars = [] ∧ Refilled key s.htab) hI
    ⟨rfl, refilled_full (le_refl 5)⟩
  unfold SameImport at hsame
  rw [himport, himport'] at hsame
  rcases h with ⟨hnone, _⟩ | ⟨line', hcut', h⟩
  . rw [hcut] at hnone
    contradiction
  rw [hcut] at hcut'
  cases hcut'
  rcases h with ⟨_, hnone'⟩ | ⟨localvars, s, ⟨hvars, hs⟩, hout, hout'⟩
  . have ⟨⟨res, hres⟩, _⟩ := himport_inside (refillHooks_returning key) (some (fullTable 5 key))
      (fun htab h => by cases h; exact le_refl 5) [] (crlfToLf text) lineFeed 1 false []
    rw [himport', hnone'] at hres
    contradiction
  have ⟨b, s1, happly, _, hlogs⟩ := applyRecord_refill hs 1 (readRecord (line ++ residue text)).1
  have ⟨b', s1', happly', _, hlogs'⟩ := applyRecord_refill hs 1 (readRecord line).1
  rw [hvars] at hout hout'
  rw [hout, hout', happly, happly'] at hsame
  have hstate (b : Bool) (s : State (List (CStr × Option CStr)))
      : (concludes (refillHooks key) 1 (some (b, [], s))).map Prod.snd = some s := by
    cases b with
    | false => rfl
    | true => rfl
  rw [hstate, hstate, some_inj] at hsame
  apply logs_ne hlogs hlogs' hne hkey
  rw [hsame]

lemma transparentInto_iff (hno : ∀ c ∈ text, c ≠ 0) : TransparentInto text ↔ LastSame text := by
  constructor
  . intro h line hcut
    by_contra hne
    have hpassive : ¬((readRecord line).1 = .comment ∨ (readRecord line).1 = .fail) :=
      fun hr => hne (readRecord_passive hr (residue text))
    rw [not_or] at hpassive
    cases hr : (readRecord line).1 with
    | comment => exact hpassive.1 hr
    | fail => exact hpassive.2 hr
    | enter name value => exact not_sameImport hno hcut hne (.inl ⟨name, value, hr⟩) (h _ (refillHooks []) 1 _ [] [] rfl)
    | delete name => exact not_sameImport hno hcut hne (.inr hr) (h _ (refillHooks name) 1 _ [] [] rfl)
  . intro hlast σ hooks flag htab statics vars hflag
    exact sameImport_of_lastSame hno hlast (.inl ⟨hflag, rfl⟩) (.inl ⟨hflag, rfl⟩)

lemma himportR_size {table : HsearchData} (hcreate : hcreateR (nent text.length) = some table) (hne : text ≠ [])
    (crlfIsLf : Bool)
    : ∃ b s, himportR plainHooks lineFeed 0 none () text crlfIsLf [] = some (b, s) ∧ s.htab.size = table.size := by
  have hslots : 5 ≤ table.size := by
    have ⟨htab, hhtab, hsize⟩ := hcreateR_nent text.length
    rw [hcreate] at hhtab
    cases hhtab
    exact hsize
  have hinto : Into 0 none text.length table := .inr ⟨.inr rfl, hcreate⟩
  have hremove : ∃ m crs, (if crlfIsLf then removeCrs text.length (text.length + 1) (store (fun _ => 0) 0 text) 0 0
      else some (store (fun _ => 0) 0 text, 0)) = some (m, crs) ∧ m text.length = 0 := by
    have hzero : store (fun _ => 0) 0 text text.length = 0 := store_of_ge _ (by omega)
    cases crlfIsLf with
    | false => exact ⟨_, 0, rfl, hzero⟩
    | true =>
      have ⟨m, crs, hremove, hzero', _⟩ := @removeCrs_spec _ (text.length + 1) 0 0 _ hzero (zero_le _)
        (le_refl 0) (by omega)
      exact ⟨m, crs, hremove, hzero'⟩
  have ⟨m, crs, hremove, hzero⟩ := hremove
  have ⟨⟨b, s, himport, hsize⟩, _⟩ := @importText_spec _ _ lineFeed 0 (text.length - crs) _
    plainHooks_returning table hslots () m hzero (sub_le _ _) []
  refine ⟨b, s, ?_, hsize⟩
  rw [himportR_eq hinto hne hremove, ← concludes_outcome]
  exact himport

lemma hcreateR_of_size {nel nel' : Nat} {htab' : HsearchData} (h : hcreateR nel = some htab)
    (h' : hcreateR nel' = some htab') (hsize : htab.size = htab'.size) : htab = htab' := by
  unfold hcreateR at h h'
  split at h
  . contradiction
  split at h'
  . contradiction
  cases h
  cases h'
  dsimp only at hsize
  rw [hsize]

theorem himport_crlf_iff (text : List UInt8) (hno : ∀ c ∈ text, c ≠ 0)
    : (TransparentInto text ↔ LastSame text)
      ∧ (Transparent text ↔ LastSame text ∧ hcreateR (nent text.length) = hcreateR (nent (crlfToLf text).length)) := by
  have hold := transparentInto_iff hno
  refine ⟨hold, ?_, ?_⟩
  . intro h
    refine ⟨hold.mp fun σ hooks flag htab statics vars _ => h σ hooks flag (some htab) statics vars, ?_⟩
    by_cases hne : text = []
    . rw [hne]
      rfl
    have hne' : crlfToLf text ≠ [] := crlfToLf_ne_nil hne
    have ⟨htab, hcreate, _⟩ := hcreateR_nent text.length
    have ⟨htab', hcreate', _⟩ := hcreateR_nent (crlfToLf text).length
    have ⟨b, s, himport, hsize⟩ := himportR_size hcreate hne true
    have ⟨b', s', himport', hsize'⟩ := himportR_size hcreate' hne' false
    have hsame := h Unit plainHooks 0 none () []
    unfold SameImport at hsame
    rw [himport, himport'] at hsame
    cases hsame
    rw [hcreate, hcreate', hcreateR_of_size hcreate hcreate' (hsize.symm.trans hsize')]
  intro ⟨hlast, hcreate⟩ σ hooks flag table statics vars
  have ⟨htab, hinto⟩ := exists_into flag table text.length
  apply sameImport_of_lastSame hno hlast hinto
  rcases hinto with h | ⟨hnone, h⟩
  . exact .inl h
  . exact .inr ⟨hnone, by rw [← hcreate]; exact h⟩

theorem himport_crlf_oneLine
    : (∀ c ∈ [0x61, 0x3d, 0x31, 0x0d, 0x0a], c ≠ (0 : UInt8))
      ∧ (TransparentInto [0x61, 0x3d, 0x31, 0x0d, 0x0a] ↔ LastSame [0x61, 0x3d, 0x31, 0x0d, 0x0a])
      ∧ (Transparent [0x61, 0x3d, 0x31, 0x0d, 0x0a] ↔ LastSame [0x61, 0x3d, 0x31, 0x0d, 0x0a]
        ∧ hcreateR (nent 5) = hcreateR (nent (crlfToLf [0x61, 0x3d, 0x31, 0x0d, 0x0a]).length)) :=
  ⟨by decide +kernel, himport_crlf_iff [0x61, 0x3d, 0x31, 0x0d, 0x0a] (by decide +kernel)⟩

def openLine : List UInt8 := [0x61, 0x3d, 0x31, 0x0d, 0x0a, 0x62, 0x3d, 0x32]

-- "b" is "22" after the import of the text, and "2" after the import of the text without the carriage return.
theorem not_transparent_openLine : (∀ c ∈ openLine, c ≠ 0) ∧ ¬Transparent openLine := by
  refine ⟨by decide +kernel, ?_⟩
  intro h
  have hsame := h Unit plainHooks 1 (some fiveSlots) () []
  have hfind := congrArg (Option.map fun s => s.htab.toNull.find [0x62]) hsame
  contradiction

end

end UBoot.Hashtable
