import MarvellBoot.UBoot.Hashtable.Access
import MarvellBoot.UBoot.Hashtable.Lemmas.Alloc

namespace UBoot.Hashtable

open Mem Loop List

section

variable {m : Int → UInt8} {fuel : Nat} {dp sp n : Int} {sep : UInt8}

lemma store_byte (m : Int → UInt8) (a x : Int) (c : UInt8) : store m a [c] x = if x = a then c else m x := by
  unfold store
  rw [length_singleton]
  by_cases h : x = a
  . rw [if_pos (by omega), if_pos h, h, sub_self]
    rfl
  . rw [if_neg (by omega), if_neg h]

lemma scan_spec {p : UInt8 → Bool} (hp : p 0 = false) (hn : m n = 0) (hnonneg : 0 ≤ dp) (hle : dp ≤ n)
    (hfuel : n < dp + fuel)
    : ∃ stop, scanWhile p m fuel dp = some stop ∧ dp ≤ stop ∧ stop ≤ n
      ∧ ∀ a ∈ scanTouched p m fuel dp, 0 ≤ a ∧ a ≤ n := by
  induction fuel generalizing dp with
  | zero => omega
  | succ fuel ih =>
    rw [scanWhile, scanTouched]
    by_cases h : p (m dp) = true
    . have hlt : dp < n := by
        by_contra hge
        have heq : dp = n := by omega
        rw [heq, hn, hp] at h
        contradiction
      have ⟨stop, hscan, hge, hstop, htouched⟩ := @ih (dp + 1) (by omega) (by omega) (by omega)
      rw [if_pos h, if_pos h, forall_mem_cons]
      exact ⟨stop, hscan, by omega, hstop, by omega, htouched⟩
    rw [if_neg h, if_neg h, forall_mem_singleton]
    exact ⟨dp, rfl, by omega, hle, by omega⟩

lemma strTouched_le {name stop : Int} (hstop : m stop = 0) (hname : 0 ≤ name) (hle : name ≤ stop)
    (hfuel : stop < name + fuel) (hn : stop ≤ n) : ∀ a ∈ strTouched m fuel name, 0 ≤ a ∧ a ≤ n := by
  have ⟨_, _, _, _, htouched⟩ := @scan_spec m _ _ _ (fun c => c ≠ 0) rfl hstop hname hle hfuel
  intro a ha
  have := htouched a ha
  omega

lemma parseValue_spec (hn : m n = 0) (hnonneg : 0 ≤ sp) (hsp : sp ≤ dp) (hle : dp ≤ n) (hfuel : n < dp + fuel)
    : ∃ m' sp' dp', parseValue sep fuel m sp dp = some (m', sp', dp') ∧ sp ≤ sp' ∧ sp' ≤ dp' ∧ dp ≤ dp' ∧ dp' ≤ n
      ∧ m' n = 0 ∧ (∀ a, a < sp → m' a = m a) ∧ ∀ a ∈ valueTouched sep fuel m sp dp, 0 ≤ a ∧ a ≤ n := by
  induction fuel generalizing m sp dp with
  | zero => omega
  | succ fuel ih =>
    rw [parseValue, valueTouched]
    by_cases h : m dp ≠ 0 ∧ m dp ≠ sep
    . have hlt : dp < n := by
        by_contra hge
        have heq : dp = n := by omega
        rw [heq] at h
        exact h.1 hn
      rw [if_pos h, if_pos h]
      have hahead : ∀ a ∈ (if m dp = backslash then [dp + 1] else []), 0 ≤ a ∧ a ≤ n := by
        split
        . rw [forall_mem_singleton]
          omega
        . simp
      -- the character behind a backslash is not the NUL
      have hread : dp ≤ (if m dp = backslash ∧ m (dp + 1) ≠ 0 then dp + 1 else dp)
          ∧ (if m dp = backslash ∧ m (dp + 1) ≠ 0 then dp + 1 else dp) < n := by
        split
        next hslash =>
          have hne : dp + 1 ≠ n := by
            intro heq
            rw [heq] at hslash
            exact hslash.2 hn
          omega
        next => omega
      generalize (if m dp = backslash ∧ m (dp + 1) ≠ 0 then dp + 1 else dp) = read at hread
      have hn' : store m sp [m read] n = 0 := by
        rw [store_byte, if_neg (by omega)]
        exact hn
      have ⟨m', sp', dp', hparse, hsp', hle', hdp', hbound, hzero, hbefore, htouched⟩ :=
        @ih (store m sp [m read]) (read + 1) (sp + 1) hn' (by omega) (by omega) (by omega) (by omega)
      refine ⟨m', sp', dp', hparse, by omega, hle', by omega, hbound, hzero, ?_, ?_⟩
      . intro a ha
        rw [hbefore a (by omega), store_byte, if_neg (by omega)]
      simp only [forall_mem_cons, forall_mem_append]
      exact ⟨by omega, ⟨hahead, by omega, by omega, forall_mem_nil _⟩, htouched⟩
    rw [if_neg h, if_neg h, forall_mem_singleton]
    exact ⟨m, sp, dp, rfl, by omega, hsp, by omega, hle, hn, fun _ _ => rfl, by omega⟩

lemma removeCrs_spec {size fuel dp ignoredCrs : Nat} {m : Int → UInt8} (hzero : m size = 0) (hle : dp ≤ size)
    (hcrs : ignoredCrs ≤ dp) (hfuel : size < dp + fuel)
    : ∃ m' crs, removeCrs size fuel m dp ignoredCrs = some (m', crs) ∧ m' size = 0
      ∧ ∀ a ∈ crsTouched size fuel m dp ignoredCrs, 0 ≤ a ∧ a ≤ size := by
  induction fuel generalizing m dp ignoredCrs with
  | zero => omega
  | succ fuel ih =>
    rw [removeCrs, crsTouched]
    by_cases hlt : dp < size
    . rw [if_pos hlt]
      by_cases hne : m dp ≠ 0
      . rw [if_pos ⟨hlt, hne⟩, if_pos hne]
        have hahead : ∀ a ∈ (if m dp = carriageReturn ∧ dp + 1 < size then [(dp + 1 : Int)] else []),
            0 ≤ a ∧ a ≤ size := by
          split
          . rw [forall_mem_singleton]
            omega
          . simp
        split
        next hcr =>
          have ⟨m', crs, hremove, hzero', htouched⟩ := @ih (dp + 1) (ignoredCrs + 1) m hzero (by omega) (by omega)
            (by omega)
          rw [forall_mem_cons, forall_mem_append]
          exact ⟨m', crs, hremove, hzero', by omega, hahead, htouched⟩
        next hcr =>
        have hzero' : store m (dp - ignoredCrs) [m dp] size = 0 := by
          rw [store_byte, if_neg (by omega)]
          exact hzero
        have ⟨m', crs, hremove, hzero', htouched⟩ :=
          @ih (dp + 1) ignoredCrs (store m (dp - ignoredCrs) [m dp]) hzero' (by omega) (by omega) (by omega)
        rw [forall_mem_cons, forall_mem_append, forall_mem_cons]
        exact ⟨m', crs, hremove, hzero', by omega, hahead, by omega, htouched⟩
      rw [if_neg (fun h => hne h.2), if_neg hne, forall_mem_singleton]
      exact ⟨m, ignoredCrs, rfl, hzero, by omega⟩
    rw [if_neg (fun h => hlt h.1), if_neg hlt]
    exact ⟨m, ignoredCrs, rfl, hzero, by simp⟩

end

variable (htab : HsearchData) {dp : Int}

section

variable {σ : Type} {hooks : Hooks σ} {s : State σ}

structure Returning (hooks : Hooks σ) : Prop where
  envFlagsInit : ∀ statics htab entry, ∃ init, hooks.envFlagsInit statics htab entry = some init
  callback : ∀ statics htab key data op flag,
    ∃ res, hooks.callback statics htab key data op flag = some res
      ∧ ∀ after, res = some after → after.1.size = htab.size

lemma searchLoop_isSome (hsize : 5 ≤ htab.size) (key : CStr) {n fuel : Nat} (hn : n < htab.size)
    (hfuel : htab.size ≤ n + fuel)
    : ∃ res, htab.toNull.searchLoop key (hval1 htab.size key) (hval2 htab.size (hval1 htab.size key)) fuel
      (probe htab.size key n) = some res := by
  induction fuel generalizing n with
  | zero => omega
  | succ fuel ih =>
    rw [searchLoop_succ]
    split
    . exact ⟨_, rfl⟩
    next hne =>
    have hlt : n + 1 < htab.size := by
      by_contra hge
      have heq : n + 1 = htab.size := by omega
      rw [heq] at hne
      exact hne (probe_size key hsize)
    have ⟨b, hcmp⟩ := @compareEntry_isSome (probe htab.size key (n + 1)) key htab (hval1 htab.size key)
    rw [hcmp]
    cases b with
    | true => exact ⟨_, rfl⟩
    | false =>
      dsimp only
      split
      . exact ⟨_, rfl⟩
      . exact ih hlt (by omega)

lemma search_isSome (hsize : 5 ≤ htab.size) (key : CStr) : ∃ res, htab.toNull.search key = some res := by
  have hsize' : htab.toNull.size = htab.size := rfl
  have ⟨res, hloop⟩ := @searchLoop_isSome htab hsize key 0 htab.size (by omega) (by omega)
  have hprobe : probe htab.size key 0 = hval1 htab.size key := rfl
  rw [hprobe] at hloop
  have ⟨b, hcmp⟩ := @compareEntry_isSome (hval1 htab.size key) key htab (hval1 htab.size key)
  unfold NullTable.search
  dsimp only
  rw [hsize', hcmp]
  split
  . cases b with
    | true => exact ⟨_, rfl⟩
    | false =>
      rw [hloop]
      exact ⟨_, rfl⟩
  . exact ⟨_, rfl⟩

section

variable (hr : Returning hooks)

include hr

lemma hsearchR_returns (hsize : 5 ≤ s.htab.size) (key : CStr) (action : Action) (flag : Nat)
    : ∃ res s', hsearchR hooks key action flag s = some (res, s') ∧ s'.htab.size = s.htab.size := by
  have ⟨found, hsearch⟩ := search_isSome s.htab hsize key
  rw [hsearchR_eq_search, hsearch]
  cases found with
  | inl idx =>
    dsimp only [overwriteEntry]
    cases action with
    | find => exact ⟨_, s, rfl, rfl⟩
    | enter data =>
      dsimp only
      split
      . exact ⟨_, s, rfl, rfl⟩
      have ⟨res, hcallback, hkeep⟩ := hr.callback s.statics s.htab key (some data) .overwrite flag
      rw [hcallback]
      cases res with
      | none => exact ⟨_, s, rfl, rfl⟩
      | some after => exact ⟨_, _, rfl, hkeep after rfl⟩
  | inr idx =>
    dsimp only [enterNew]
    cases action with
    | find => exact ⟨_, s, rfl, rfl⟩
    | enter data =>
      dsimp only
      split
      . exact ⟨_, s, rfl, rfl⟩
      generalize (if idx.1 ≠ 0 then idx.1 else idx.2) = target
      have hsize1 : (insertSlot s.htab (hval1 s.htab.size key) target key data).size = s.htab.size := rfl
      generalize insertSlot s.htab (hval1 s.htab.size key) target key data = htab at hsize1
      have ⟨init, hinit⟩ := hr.envFlagsInit s.statics htab (htab.table target).entry
      have ⟨res, hcallback, hkeep⟩ := hr.callback init.2 (htab.setFlags target init.1) key (some data) .create flag
      unfold register
      rw [hinit]
      dsimp only
      split
      . exact ⟨_, _, rfl, hsize1⟩
      rw [hcallback]
      cases res with
      | none => exact ⟨_, _, rfl, hsize1⟩
      | some after => exact ⟨_, _, rfl, (hkeep after rfl).trans hsize1⟩

lemma hdeleteR_returns (hsize : 5 ≤ s.htab.size) (key : CStr) (flag : Nat)
    : ∃ res s', hdeleteR hooks key flag s = some (res, s') ∧ s'.htab.size = s.htab.size := by
  have ⟨res, s1, hsearch, hsize1⟩ := hsearchR_returns hr hsize key .find 0
  unfold hdeleteR
  rw [hsearch]
  cases res with
  | error e => exact ⟨_, s1, rfl, hsize1⟩
  | ok idx =>
    dsimp only
    split
    . exact ⟨_, s1, rfl, hsize1⟩
    have ⟨res, hcallback, hkeep⟩ := hr.callback s1.statics s1.htab key none .delete flag
    rw [hcallback]
    cases res with
    | none => exact ⟨_, s1, rfl, hsize1⟩
    | some after => exact ⟨_, _, rfl, (hkeep after rfl).trans hsize1⟩

lemma deleteVars_returns (flag : Nat) (vars : List (Option CStr)) (hsize : 5 ≤ s.htab.size)
    : ∃ s', deleteVars hooks flag vars s = some s' ∧ s'.htab.size = s.htab.size := by
  induction vars generalizing s with
  | nil => exact ⟨s, rfl, rfl⟩
  | cons var vars ih =>
    cases var with
    | none => exact ih hsize
    | some name =>
      have ⟨res, s1, hdelete, hsize1⟩ := hdeleteR_returns hr hsize name flag
      have ⟨s', hrest, hsize'⟩ := @ih s1 (by omega)
      rw [deleteVars, hdelete]
      exact ⟨s', hrest, hsize'.trans hsize1⟩

end

end

section

variable {σ : Type} {hooks : Hooks σ} {sep : UInt8} {flag fuel size n slots : Nat} {t t' : ImportState σ}

structure Head (n slots : Nat) (t : ImportState σ) : Prop where
  zero : t.m n = 0
  nonneg : 0 ≤ t.dp
  le : t.dp ≤ n
  size_ge : 5 ≤ slots
  size_eq : t.s.htab.size = slots

def Advances (size n slots : Nat) (dp : Int) (res : Option (Next (ImportState σ) (Bool × ImportState σ))) : Prop :=
  ∃ next, res = some next
    ∧ (∀ t', next = .again t' → Head n slots t' ∧ dp < t'.dp ∧ t'.dp < size)
    ∧ ∀ b t', next = .done (b, t') → t'.s.htab.size = slots

lemma importNext_advances (hsize : size ≤ n) (hzero : t.m n = 0) (hnonneg : 0 ≤ t.dp) (hlt : dp < t.dp)
    (hslots : 5 ≤ slots) (htab : t.s.htab.size = slots) : Advances size n slots dp (some (importNext size t)) := by
  refine ⟨_, rfl, ?_⟩
  unfold importNext
  split
  next h =>
    refine ⟨?_, fun b t' heq => by contradiction⟩
    intro t' heq
    cases heq
    exact ⟨⟨hzero, hnonneg, by omega, hslots, htab⟩, hlt, h.1⟩
  next =>
  refine ⟨fun t' heq => by contradiction, ?_⟩
  intro b t' heq
  cases heq
  exact htab

lemma nextTouched_le (hsize : size ≤ n) (hnonneg : 0 ≤ dp) : ∀ a ∈ nextTouched size dp, 0 ≤ a ∧ a ≤ n := by
  unfold nextTouched
  split
  . rw [forall_mem_singleton]
    omega
  . simp

section

variable (hr : Returning hooks)

include hr

section

variable (hsize : size ≤ n)

include hsize

section

variable (hfuel : n + 2 ≤ fuel)

include hfuel

section

variable (h : Head n slots t)

include h

lemma importDelete_spec {name : Int}
    (hname : 0 ≤ name) (hle : name ≤ t.dp)
    : (∀ dp < t.dp + 1, Advances size n slots dp (importDelete hooks flag fuel size name t))
      ∧ ∀ a ∈ deleteTouched fuel size name t, 0 ≤ a ∧ a ≤ n := by
  have hdp := h.le
  have hfive : 5 ≤ t.s.htab.size := by
    rw [h.size_eq]
    exact h.size_ge
  -- after the name and a possible equal sign
  have hmem : ∃ m dp, (if t.m t.dp = equalSign then (store t.m t.dp [0], t.dp + 1) else (t.m, t.dp)) = (m, dp)
      ∧ m n = 0 ∧ t.dp ≤ dp ∧ dp ≤ n := by
    split
    next heq =>
      have hne : t.dp ≠ n := by
        intro hn
        rw [hn, h.zero] at heq
        contradiction
      refine ⟨_, _, rfl, ?_, by omega, by omega⟩
      rw [store_byte, if_neg (by omega)]
      exact h.zero
    next => exact ⟨_, _, rfl, h.zero, by omega, hdp⟩
  have ⟨m, dp, hmem, hzero, hle', hdp'⟩ := hmem
  have hzero' : store m dp [0] n = 0 := by
    rw [store_byte]
    split
    . rfl
    . exact hzero
  have hstop : store m dp [0] dp = 0 := by rw [store_byte, if_pos rfl]
  unfold importDelete deleteTouched
  rw [hmem]
  dsimp only
  constructor
  . intro dp0 hlt
    split
    next => exact importNext_advances hsize hzero' (by dsimp only; omega) (by dsimp only; omega) h.size_ge h.size_eq
    next =>
    have ⟨res, s', hdelete, hsize'⟩ := hdeleteR_returns hr hfive (strAt (store m dp [0]) fuel name) flag
    rw [hdelete]
    have htab : s'.htab.size = slots := hsize'.trans h.size_eq
    exact importNext_advances hsize hzero' (by dsimp only; omega) (by dsimp only; omega) h.size_ge htab
  simp only [forall_mem_append, forall_mem_cons]
  exact ⟨⟨⟨by omega, by omega, forall_mem_nil _⟩, strTouched_le hstop hname (by omega) (by omega) hdp'⟩,
    nextTouched_le hsize (by omega)⟩

lemma importEnter_spec
    (hne : t.m t.dp ≠ 0) {name : Int} (hname : 0 ≤ name) (hle : name ≤ t.dp)
    : (∀ dp < t.dp + 1, Advances size n slots dp (importEnter hooks sep flag fuel size name t))
      ∧ ∀ a ∈ enterTouched sep fuel size name t, 0 ≤ a ∧ a ≤ n := by
  have hfive : 5 ≤ t.s.htab.size := by
    rw [h.size_eq]
    exact h.size_ge
  have hdp : t.dp < n := by
    have := h.le
    have hne : t.dp ≠ n := by
      intro hn
      rw [hn] at hne
      exact hne h.zero
    omega
  have hzero1 : store t.m t.dp [0] n = 0 := by
    rw [store_byte, if_neg (by omega)]
    exact h.zero
  have ⟨m, sp, dp, hparse, hsp, hle', hdp', hbound, hzero, hbefore, htouched⟩ :=
    @parseValue_spec _ fuel _ (t.dp + 1) n sep hzero1 (by omega) (le_refl _) (by omega) (by omega)
  have hzero' : store m sp [0] n = 0 := by
    rw [store_byte]
    split
    . rfl
    . exact hzero
  -- the NULs behind the name and behind the value
  have hstop : store m sp [0] t.dp = 0 := by
    rw [store_byte, if_neg (by omega), hbefore t.dp (by omega), store_byte, if_pos rfl]
  have hvalue : store m sp [0] sp = 0 := by rw [store_byte, if_pos rfl]
  unfold importEnter enterTouched
  dsimp only
  rw [hparse]
  dsimp only
  constructor
  . intro dp0 hlt
    split
    next =>
      refine ⟨_, rfl, fun t' heq => by contradiction, ?_⟩
      intro b t' heq
      cases heq
      exact h.size_eq
    next =>
    split
    next => exact importNext_advances hsize hzero' (by dsimp only; omega) (by dsimp only; omega) h.size_ge h.size_eq
    next =>
    have ⟨res, s', hsearch, hsize'⟩ := hsearchR_returns hr hfive (strAt (store m sp [0]) fuel name)
      (.enter (strAt (store m sp [0]) fuel (t.dp + 1))) flag
    rw [hsearch]
    have htab : s'.htab.size = slots := hsize'.trans h.size_eq
    exact importNext_advances hsize hzero' (by dsimp only; omega) (by dsimp only; omega) h.size_ge htab
  simp only [forall_mem_append, forall_mem_cons]
  exact ⟨⟨by omega, htouched⟩, ⟨⟨⟨by omega, by omega, forall_mem_nil _⟩, strTouched_le hstop hname hle (by omega) (by omega)⟩,
    strTouched_le hvalue (by omega) hsp (by omega) (by omega)⟩, nextTouched_le hsize (by omega)⟩

lemma importBody_spec
    : Advances size n slots t.dp (importBody hooks sep flag fuel size t)
      ∧ ∀ a ∈ bodyTouched sep fuel size t, 0 ≤ a ∧ a ≤ n := by
  have hnonneg := h.nonneg
  have hle := h.le
  have ⟨dp, hblank, hdp, hdpn, htouched⟩ := @scan_spec _ fuel _ n isblank rfl h.zero hnonneg hle (by omega)
  unfold importBody bodyTouched
  rw [hblank]
  dsimp only
  by_cases hcomment : t.m dp = numberSign
  . rw [if_pos hcomment, if_pos hcomment]
    have ⟨stop, hscan, hstop, hstopn, htouched'⟩ :=
      @scan_spec _ fuel dp n (fun c => c ≠ 0 ∧ c ≠ sep) (by simp) h.zero (by omega) hdpn (by omega)
    rw [hscan]
    constructor
    . exact importNext_advances hsize h.zero (by dsimp only; omega) (by dsimp only; omega) h.size_ge h.size_eq
    rw [forall_mem_append, forall_mem_cons, forall_mem_append]
    exact ⟨htouched, by omega, htouched', nextTouched_le hsize (by omega)⟩
  rw [if_neg hcomment, if_neg hcomment]
  have ⟨stop, hscan, hstop, hstopn, htouched'⟩ :=
    @scan_spec _ fuel dp n (fun c => c ≠ equalSign ∧ c ≠ 0 ∧ c ≠ sep) (by simp) h.zero (by omega) hdpn (by omega)
  rw [hscan]
  dsimp only
  have hhead : Head n slots { t with dp := stop } := ⟨h.zero, by dsimp only; omega, hstopn, h.size_ge, h.size_eq⟩
  have hahead : ∀ a ∈ (if t.m stop = 0 then [] else [stop + 1]), 0 ≤ a ∧ a ≤ n := by
    split
    . simp
    next hne =>
    have : stop ≠ n := by
      intro heq
      rw [heq] at hne
      exact hne h.zero
    rw [forall_mem_singleton]
    omega
  have hbody {P : List Int} (hP : ∀ a ∈ P, 0 ≤ a ∧ a ≤ n)
      : ∀ a ∈ scanTouched isblank t.m fuel t.dp ++ dp ::
        (scanTouched (fun c => c ≠ equalSign ∧ c ≠ 0 ∧ c ≠ sep) t.m fuel dp ++
          (stop :: (if t.m stop = 0 then [] else [stop + 1]) ++ P)), 0 ≤ a ∧ a ≤ n := by
    rw [forall_mem_append, forall_mem_cons, forall_mem_append, forall_mem_append, forall_mem_cons]
    exact ⟨htouched, by omega, htouched', ⟨by omega, hahead⟩, hP⟩
  by_cases hdelete : t.m stop = 0 ∨ t.m (stop + 1) = 0 ∨ t.m stop = sep ∨ t.m (stop + 1) = sep
  . rw [if_pos hdelete, if_pos hdelete]
    have ⟨hadv, hin⟩ := @importDelete_spec σ _ flag _ _ n _ _ hr hsize hfuel hhead dp (by omega) hstop
    exact ⟨hadv t.dp (by dsimp only; omega), hbody hin⟩
  rw [if_neg hdelete, if_neg hdelete]
  have ⟨hadv, hin⟩ := @importEnter_spec σ _ sep flag _ _ n _ _ hr hsize hfuel hhead
    (fun h => hdelete (.inl h)) dp (by omega) hstop
  exact ⟨hadv t.dp (by dsimp only; omega), hbody hin⟩

end

lemma importLoop_spec {loops : Nat} (h : Head n slots t)
    (hpos : 0 < loops) (hloops : (size : Int) < t.dp + loops)
    : (∃ b t', runM (importBody hooks sep flag fuel size) loops t = some (b, t') ∧ t'.s.htab.size = slots)
      ∧ ∀ a ∈ loopTouched hooks sep flag fuel size loops t, 0 ≤ a ∧ a ≤ n := by
  induction loops generalizing t with
  | zero => omega
  | succ loops ih =>
    obtain ⟨⟨next, hbody, hagain, hdone⟩, hin⟩ := @importBody_spec σ _ sep flag _ _ n _ t hr hsize hfuel h
    rw [runM, loopTouched, hbody]
    cases next with
    | again t' =>
      obtain ⟨hhead, hlt, hlt'⟩ := hagain t' rfl
      obtain ⟨hrun, hin'⟩ := @ih t' hhead (by omega) (by omega)
      refine ⟨hrun, ?_⟩
      intro a ha
      rw [mem_append] at ha
      exact ha.elim (hin a) (hin' a)
    | done res =>
      refine ⟨⟨res.1, res.2, rfl, hdone res.1 res.2 rfl⟩, ?_⟩
      rw [append_nil]
      exact hin

end

end

lemma importText_spec (htab : HsearchData) (hslots : 5 ≤ htab.size) (statics : σ) {m : Int → UInt8}
    (hzero : m n = 0) (hsize : size ≤ n) (vars : List (Option CStr))
    : (∃ b s', (match runM (importBody hooks sep flag (n + 2) size) (size + 1) ⟨m, 0, vars, ⟨htab, statics⟩⟩ with
        | none => none
        | some (false, t) => some (false, t.s)
        | some (true, t) =>
          match deleteVars hooks flag t.localvars t.s with
          | none => none
          | some s => some (true, s)) = some (b, s') ∧ s'.htab.size = htab.size)
      ∧ ∀ a ∈ loopTouched hooks sep flag (n + 2) size (size + 1) ⟨m, 0, vars, ⟨htab, statics⟩⟩, 0 ≤ a ∧ a ≤ n := by
  have hhead : Head n htab.size (⟨m, 0, vars, ⟨htab, statics⟩⟩ : ImportState σ) :=
    ⟨hzero, le_refl 0, by dsimp only; omega, hslots, rfl⟩
  have ⟨⟨b, t', hrun, hslots'⟩, hin⟩ := @importLoop_spec σ _ sep flag (n + 2) _ n _ _ hr hsize
    (by omega) (size + 1) hhead (by omega) (by dsimp only; omega)
  rw [hrun]
  refine ⟨?_, hin⟩
  cases b with
  | false => exact ⟨_, _, rfl, hslots'⟩
  | true =>
    rw [← hslots'] at hslots
    have ⟨s', hdelete, hsize'⟩ := deleteVars_returns hr flag t'.localvars hslots
    dsimp only
    rw [hdelete]
    exact ⟨_, _, rfl, hsize'.trans hslots'⟩

end

lemma hcreateR_nent (size : Nat) : ∃ htab, hcreateR (nent size) = some htab ∧ 5 ≤ htab.size := by
  have ⟨htab, hhtab⟩ := Option.isSome_iff_exists.mp (hcreateR_isSome (nent size))
  have hsize := (hcreateR_eq hhtab).1
  refine ⟨htab, hhtab, ?_⟩
  unfold nent configEnvMinEntries configEnvMaxEntries at hsize
  omega

theorem himport_inside (hr : Returning hooks) (table : Option HsearchData) (htable : ∀ htab ∈ table, 5 ≤ htab.size)
    (statics : σ) (env : List UInt8) (sep : UInt8) (flag : Nat) (crlfIsLf : Bool) (vars : List (Option CStr))
    : (∃ res, himportR hooks sep flag table statics env crlfIsLf vars = some res)
      ∧ ∀ a ∈ himportTouched hooks sep flag table statics env crlfIsLf vars, 0 ≤ a ∧ a ≤ env.length := by
  have hzero : store (fun _ => 0) 0 env env.length = 0 := store_of_ge _ (by omega)
  have hcrs : ∃ m crs, (if crlfIsLf then removeCrs env.length (env.length + 1) (store (fun _ => 0) 0 env) 0 0
      else some (store (fun _ => 0) 0 env, 0)) = some (m, crs) ∧ m env.length = 0
      ∧ ∀ a ∈ (if crlfIsLf then crsTouched env.length (env.length + 1) (store (fun _ => 0) 0 env) 0 0 else []),
        0 ≤ a ∧ a ≤ env.length := by
    cases crlfIsLf with
    | true => exact removeCrs_spec hzero (by omega) (by omega) (by omega)
    | false => exact ⟨_, 0, rfl, hzero, fun a ha => by contradiction⟩
  obtain ⟨m, crs, hremove, hzero', hin⟩ := hcrs
  unfold himportR himportTouched
  by_cases hempty : env.length = 0
  . simp only [if_pos hempty]
    cases htab : (if hNoclear flag = false then none else table) with
    | none =>
      obtain ⟨htab, hcreate, _⟩ := hcreateR_nent env.length
      rw [hcreate]
      exact ⟨⟨_, rfl⟩, fun a ha => by contradiction⟩
    | some htab => exact ⟨⟨_, rfl⟩, fun a ha => by contradiction⟩
  simp only [if_neg hempty, hremove]
  have htext (htab : HsearchData) (hslots : 5 ≤ htab.size) :=
    @importText_spec σ _ sep flag (env.length - crs) _ hr htab hslots statics m hzero' (Nat.sub_le _ _) vars
  cases hold : (if hNoclear flag = false then none else table) with
  | none =>
    obtain ⟨htab, hcreate, hslots⟩ := hcreateR_nent env.length
    obtain ⟨⟨b, s', himport, _⟩, hin'⟩ := htext htab hslots
    rw [hcreate]
    refine ⟨⟨(b, s'), himport⟩, ?_⟩
    intro a ha
    exact (mem_append.mp ha).elim (hin a) (hin' a)
  | some htab =>
    have hslots : 5 ≤ htab.size := by
      split at hold
      . contradiction
      . exact htable htab hold
    obtain ⟨⟨b, s', himport, _⟩, hin'⟩ := htext htab hslots
    refine ⟨⟨(b, s'), himport⟩, ?_⟩
    intro a ha
    exact (mem_append.mp ha).elim (hin a) (hin' a)

end

lemma plainHooks_returning : Returning plainHooks where
  envFlagsInit statics _ entry := ⟨(entry.flags, statics), rfl⟩
  callback statics htab _ _ _ _ := by
    refine ⟨some (htab, statics), rfl, ?_⟩
    intro after h
    cases h
    rfl

theorem himport_inside_unterminated
    : Returning plainHooks
      ∧ (∃ res, himportR plainHooks lineFeed 0 none () [0x61, 0x3d] true [] = some res)
      ∧ ∀ a ∈ himportTouched plainHooks lineFeed 0 none () [0x61, 0x3d] true [], 0 ≤ a ∧ a ≤ 2 :=
  ⟨plainHooks_returning, himport_inside plainHooks_returning none (fun _ h => by contradiction)
    () [0x61, 0x3d] lineFeed 0 true []⟩

end UBoot.Hashtable
