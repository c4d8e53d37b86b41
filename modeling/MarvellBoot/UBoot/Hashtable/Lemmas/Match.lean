import MarvellBoot.UBoot.Hashtable.Lemmas.RoundTrip
import MarvellBoot.UBoot.Hashtable.Match

namespace UBoot.Hashtable

open List Option

section

variable {slreCompile : CStr → Option (CStr → Bool)} {qsort : List Entry → List Entry} {htab : HsearchData}
  {sep : UInt8} {flag size : Nat} {argv : List CStr}

lemma hexportR_eq_filter
    : hexportR qsort htab sep size
      = match hexportFilterR slreCompile qsort htab sep 0 size [] with
        | .error e => .error e
        | .ok buf => .ok ((buf.written ++ replicate (buf.size - buf.written.length) 0).take buf.size) := by
  have hall : exportList slreCompile htab 0 [] = htab.entries := by
    apply filter_eq_self.mpr
    intro entry _
    simp [isExported, hHideDot]
  unfold hexportR hexportFilterR
  rw [hall]
  by_cases herror : size ≠ 0 ∧ size < (htab.entries.map (entryRoom sep)).sum + 1
  . rw [if_pos herror, if_pos herror]
  rw [if_neg herror, if_neg herror]
  dsimp only
  rw [length_append, length_singleton]
  generalize (if size ≠ 0 then size else (htab.entries.map (entryRoom sep)).sum + 1) = n
  generalize (qsort htab.entries).flatMap (exportEntry sep) = text
  by_cases hfits : text.length < n
  . have hzeros : n - text.length = n - (text.length + 1) + 1 := by
      omega
    rw [hzeros, replicate_succ, append_assoc, singleton_append]
  . -- the terminating NUL is behind the buffer
    rw [append_assoc, take_append_of_le_length (by omega), take_append_of_le_length (by omega)]

end

theorem hexport_inside_iff (slreCompile : CStr → Option (CStr → Bool)) (qsort : List Entry → List Entry)
    (hsort : ∀ l, (qsort l).Perm l) (htab : HsearchData) (sep : UInt8) (flag size : Nat) (argv : List CStr)
    : (∀ buf, hexportFilterR slreCompile qsort htab sep flag size argv = .ok buf → buf.written.length ≤ buf.size)
      ↔ sep ≠ 0
        ∨ (size ≠ 0 ∧ size < ((exportList slreCompile htab flag argv).map (entryRoom sep)).sum + 1)
        ∨ escapes sep (exportList slreCompile htab flag argv)
          ≤ 2 * (exportList slreCompile htab flag argv).length
            + (size - (((exportList slreCompile htab flag argv).map (entryRoom sep)).sum + 1)) := by
  unfold hexportFilterR
  generalize exportList slreCompile htab flag argv = list
  have hlen := length_text sep (hsort list)
  by_cases herror : size ≠ 0 ∧ size < (list.map (entryRoom sep)).sum + 1
  . simp [herror]
  rw [if_neg herror]
  simp only [Except.ok.injEq, forall_eq', length_append, length_singleton, hlen, herror, false_or]
  by_cases hsep : sep = 0
  . subst hsep
    have hsum := sum_entryLength_zero list
    simp only [ne_eq, not_true_eq_false, false_or]
    split
    . omega
    . omega
  have hroom := sum_entryLength_le list hsep
  simp only [ne_eq, hsep, not_false_eq_true, true_or, iff_true]
  split
  . omega
  . omega

theorem hexport_inside_twoBackslashes
    : (hexportFilterR (fun _ => none) id (oneVariable [92, 92]) 0 0 0 []).toOption
        = some ⟨8, [97, 61, 92, 92, 92, 92, 0, 0]⟩
      ∧ ∀ buf, hexportFilterR (fun _ => none) id (oneVariable [92, 92]) 0 0 0 [] = .ok buf →
        buf.written.length ≤ buf.size := by
  refine ⟨by decide, ?_⟩
  apply (hexport_inside_iff (fun _ => none) id (fun _ => .refl _) (oneVariable [92, 92]) 0 0 0 []).mpr
  decide

-- The export of `a` with three backslashes as its value needs one byte more than the buffer has.
theorem not_inside_backslashes
    : ¬∀ (slreCompile : CStr → Option (CStr → Bool)) (qsort : List Entry → List Entry), (∀ l, (qsort l).Perm l) →
      ∀ (htab : HsearchData) (sep : UInt8) (flag size : Nat) (argv : List CStr) (buf : ExportBuffer),
      hexportFilterR slreCompile qsort htab sep flag size argv = .ok buf → buf.written.length ≤ buf.size := by
  intro h
  have hlen := h (fun _ => none) id (fun _ => .refl _) (oneVariable [92, 92, 92]) 0 0 0 [] _ rfl
  revert hlen
  decide

section

variable {htab : HsearchData} {pat : CStr}

def Matches (htab : HsearchData) (pat : CStr) (idx : Nat) : Prop :=
  0 < (htab.table idx).used ∧ pat <+: (htab.table idx).entry.key

lemma matchLoop_spec (left : Nat) {idx : Nat} (hidx : 0 < idx)
    : matchLoop htab pat left idx = 0 ∧ (∀ i, idx ≤ i → i < idx + left → ¬Matches htab pat i)
      ∨ idx ≤ matchLoop htab pat left idx ∧ matchLoop htab pat left idx < idx + left
        ∧ Matches htab pat (matchLoop htab pat left idx)
        ∧ ∀ i, idx ≤ i → i < matchLoop htab pat left idx → ¬Matches htab pat i := by
  induction left generalizing idx with
  | zero =>
    left
    refine ⟨rfl, ?_⟩
    intro i hle hlt
    omega
  | succ left ih =>
    rw [matchLoop]
    split
    next hmatch =>
      right
      refine ⟨le_rfl, by omega, hmatch, ?_⟩
      intro i hle hlt
      omega
    next hmatch =>
    have hfirst (i : Nat) (hle : idx ≤ i) (h : idx + 1 ≤ i → ¬Matches htab pat i) : ¬Matches htab pat i := by
      by_cases heq : i = idx
      . rw [heq]
        exact hmatch
      . apply h
        omega
    cases @ih (idx + 1) (by omega) with
    | inl hnone =>
      left
      refine ⟨hnone.1, ?_⟩
      intro i hle hlt
      apply hfirst i hle
      intro hle'
      apply hnone.2 i hle'
      omega
    | inr hsome =>
      have ⟨hge, hlt, hmatch', hbefore⟩ := hsome
      right
      refine ⟨by omega, by omega, hmatch', ?_⟩
      intro i hle hlt'
      apply hfirst i hle
      intro hle'
      exact hbefore i hle' hlt'

lemma matchAll_spec (fuel idx : Nat) (hfuel : htab.size ≤ fuel + idx) (hpos : 0 < fuel)
    : ∃ seq, matchAll htab pat fuel idx = some seq ∧ seq.Pairwise (· < ·)
      ∧ ∀ i, i ∈ seq ↔ idx < i ∧ i < htab.size ∧ Matches htab pat i := by
  induction fuel generalizing idx with
  | zero => omega
  | succ fuel ih =>
    have hspec := @matchLoop_spec htab pat (htab.size - (idx + 1)) (idx + 1) (by omega)
    rw [matchAll]
    unfold hmatchR
    generalize matchLoop htab pat (htab.size - (idx + 1)) (idx + 1) = next at hspec
    cases hspec with
    | inl hnone =>
      rw [if_pos hnone.1]
      refine ⟨[], rfl, .nil, ?_⟩
      intro i
      constructor
      . intro hmem
        contradiction
      . intro ⟨hlt, hsize, hmatch⟩
        exact absurd hmatch (hnone.2 i hlt (by omega))
    | inr hsome =>
      have ⟨hge, hlt, hmatch, hbefore⟩ := hsome
      have ⟨seq, hseq, hsorted, hmem⟩ := ih next (by omega) (by omega)
      rw [if_neg (by omega), hseq]
      refine ⟨next :: seq, rfl, ?_, ?_⟩
      . apply List.Pairwise.cons _ hsorted
        intro i hi
        exact ((hmem i).mp hi).1
      intro i
      rw [mem_cons, hmem]
      constructor
      . rintro (heq | ⟨hlt', hsize, hmatch'⟩)
        . rw [heq]
          exact ⟨by omega, by omega, hmatch⟩
        . exact ⟨by omega, hsize, hmatch'⟩
      intro ⟨hlt', hsize, hmatch'⟩
      by_cases heq : i = next
      . exact .inl heq
      right
      refine ⟨?_, hsize, hmatch'⟩
      by_contra hle
      exact hbefore i hlt' (by omega) hmatch'

end

theorem hmatch_complete_iff (htab : HsearchData) (pat : CStr)
    : (∃ seq, matchAll htab pat (htab.size + 1) 0 = some seq ∧ seq.Nodup
        ∧ ∀ i, i ∈ seq ↔ (1 ≤ i ∧ i ≤ htab.size) ∧ Matches htab pat i)
      ↔ ¬(1 ≤ htab.size ∧ Matches htab pat htab.size) := by
  have ⟨seq, hseq, hsorted, hmem⟩ := @matchAll_spec htab pat (htab.size + 1) 0 (by omega) (by omega)
  constructor
  . intro ⟨seq', hseq', _, hmem'⟩ ⟨hpos, hlast⟩
    rw [hseq, some.injEq] at hseq'
    subst hseq'
    have := (hmem _).mp ((hmem' _).mpr ⟨⟨hpos, le_rfl⟩, hlast⟩)
    omega
  intro hlast
  refine ⟨seq, hseq, hsorted.imp ne_of_lt, ?_⟩
  intro i
  rw [hmem]
  constructor
  . intro ⟨hlt, hsize, hmatch⟩
    exact ⟨by omega, hmatch⟩
  intro ⟨⟨hge, hle⟩, hmatch⟩
  refine ⟨hge, ?_, hmatch⟩
  by_contra hge'
  have heq : i = htab.size := by omega
  rw [heq] at hge hmatch
  exact hlast ⟨hge, hmatch⟩

def collidingCalls : List Call :=
  [.enter [99, 102] [1] 0, .enter [102, 106] [2] 0, .enter [105, 110] [3] 0, .enter [108, 114] [4] 0]

-- The last one of the keys is in the last slot of a table of the size `himport_r` makes.
theorem not_complete_lastSlot
    : ¬∀ (nel : Nat) (htab : HsearchData), hcreateR nel = some htab → ∀ (calls : List Call) outcomes s,
      Call.execAll plainHooks ⟨htab, ()⟩ calls = some (outcomes, s) → ∀ pat : CStr,
      ∃ seq, matchAll s.htab pat (s.htab.size + 1) 0 = some seq ∧ seq.Nodup
        ∧ ∀ i, i ∈ seq ↔ (1 ≤ i ∧ i ≤ s.htab.size) ∧ Matches s.htab pat i := by
  intro h
  have hrun : ((hcreateR (nent 0)).bind fun htab =>
      (Call.execAll plainHooks ⟨htab, ()⟩ collidingCalls).map fun res =>
        (res.2.htab.size, decide (0 < (res.2.htab.table 67).used), (res.2.htab.table 67).entry.key,
          matchAll res.2.htab [108] 68 0)) = some (67, true, [108, 114], some []) := by
    decide +kernel
  rw [bind_eq_some_iff] at hrun
  have ⟨htab, hcreate, hrun⟩ := hrun
  rw [map_eq_some_iff] at hrun
  have ⟨⟨outcomes, s⟩, hexec, hres⟩ := hrun
  simp only [Prod.mk.injEq, decide_eq_true_eq] at hres
  have ⟨hsize, hused, hkey, hall⟩ := hres
  have ⟨seq, hseq, _, hmem⟩ := h _ htab hcreate collidingCalls outcomes s hexec [108]
  rw [hsize, hall, some.injEq] at hseq
  subst hseq
  have hlast : Matches s.htab [108] 67 := by
    refine ⟨hused, ?_⟩
    rw [hkey]
    decide
  have := (hmem 67).mpr ⟨⟨by decide, by omega⟩, hlast⟩
  contradiction

end UBoot.Hashtable
