import MarvellBoot.UBoot.Hashtable.Lemmas.Create
import MarvellBoot.UBoot.Hashtable.Lemmas.Parse

namespace UBoot.Hashtable

open Mem Loop OpenAddressing Function List

structure Exportable (sep : UInt8) (entry : Entry) : Prop where
  key_ne : entry.key ≠ []
  key_chars : ∀ c ∈ entry.key, c ≠ equalSign ∧ c ≠ 0 ∧ c ≠ sep
  key_first : ∀ c l, entry.key = c :: l → isblank c = false ∧ c ≠ numberSign
  data_ne : entry.data ≠ []
  data_chars : ∀ c ∈ entry.data, c ≠ 0

variable {res : Result}

section

variable {σ : Type} {hooks : Hooks σ} {sep : UInt8} {flag fuel : Nat} {entry : Entry} {tail : List UInt8} {s' : State σ}
  (size : Nat) (t : ImportState σ)

lemma sep_ne (hsep : sep = 0 ∨ sep = lineFeed) : backslash ≠ sep ∧ equalSign ≠ sep := by
  cases hsep with
  | inl h =>
    rw [h]
    decide
  | inr h =>
    rw [h]
    decide

lemma Exportable.first (he : Exportable sep entry) : ∃ c l, exportEntry sep entry = c :: l ∧ c ≠ 0 := by
  have ⟨c, l, hcl⟩ := exists_cons_of_ne_nil he.key_ne
  refine ⟨c, l ++ [equalSign] ++ escape sep entry.data ++ [sep], ?_, ?_⟩
  . rw [exportEntry, hcl]
    rfl
  . exact (he.key_chars c (by rw [hcl]; exact mem_cons_self)).2.1

section

variable (hsep : sep = 0 ∨ sep = lineFeed)

include hsep

section

variable (he : Exportable sep entry)

include he

lemma escape_first : ∃ c l, escape sep entry.data = c :: l ∧ c ≠ 0 ∧ c ≠ sep := by
  cases hdata : entry.data with
  | nil => exact absurd hdata he.data_ne
  | cons c data =>
    have hc : c ≠ 0 := he.data_chars c (by rw [hdata]; exact mem_cons_self)
    rw [escape_cons]
    by_cases hneeds : needsEscape sep c = true
    . rw [if_pos hneeds]
      exact ⟨backslash, c :: escape sep data, rfl, by decide, (sep_ne hsep).1⟩
    . rw [if_neg hneeds]
      simp only [needsEscape, Bool.decide_or, Bool.or_eq_true, decide_eq_true_eq, not_or] at hneeds
      exact ⟨c, escape sep data, rfl, hc, hneeds.1⟩

lemma importEnter_entry
    {name : Int} (hname : Text t.m name entry.key) (hdp : t.dp = name + entry.key.length)
    (htext : Text t.m (t.dp + 1) (escape sep entry.data ++ [sep])) (hvars : t.localvars = [])
    (hkey : entry.key.length < fuel) (hdata : entry.data.length < fuel)
    (hsearch : hsearchR hooks entry.key (.enter entry.data) flag t.s = some (res, s'))
    : ∃ m', importEnter hooks sep flag fuel size name t
        = some (importNext size ⟨m', t.dp + 1 + (escape sep entry.data).length + 1, [], s'⟩)
      ∧ ∀ a, t.dp + 1 + (escape sep entry.data).length + 1 ≤ a → m' a = t.m a := by
  have hlen := length_escape sep entry.data
  have htext' : Text (store t.m t.dp [0]) (t.dp + 1) (escape sep entry.data ++ [sep]) :=
    htext.store (.inl (by rw [length_singleton]; omega))
  have hparse := parseValue_text (sep_ne hsep).1 htext' he.data_chars (le_refl _) hdata
  -- the memory when the name and the value are looked at
  generalize hm : store (store (store t.m t.dp [0]) (t.dp + 1) entry.data) (t.dp + 1 + entry.data.length) [0] = m'
  have hkeyText : Text m' name (entry.key ++ [0]) := by
    rw [text_append, ← hdp, ← hm]
    refine ⟨((hname.store ?_).store ?_).store ?_, (text_store_self.store ?_).store ?_⟩
    . exact .inr (by omega)
    . exact .inr (by omega)
    . exact .inr (by omega)
    . exact .inr (by rw [length_singleton]; omega)
    . exact .inr (by rw [length_singleton]; omega)
  have hdataText : Text m' (t.dp + 1) (entry.data ++ [0]) := by
    rw [text_append, ← hm]
    refine ⟨text_store_self.store ?_, text_store_self⟩
    exact .inr (by omega)
  have hfirst : m' name ≠ 0 := by
    cases hkey : entry.key with
    | nil => exact absurd hkey he.key_ne
    | cons c l =>
      rw [hkey, cons_append, text_cons] at hkeyText
      rw [hkeyText.1]
      exact (he.key_chars c (by rw [hkey]; exact mem_cons_self)).2.1
  refine ⟨m', ?_, ?_⟩
  . unfold importEnter
    dsimp only
    rw [hparse]
    dsimp only
    rw [hm, if_neg hfirst, strAt_text hkeyText (fun c hc => (he.key_chars c hc).2.1) hkey,
      strAt_text hdataText he.data_chars hdata, hvars]
    simp [dropVarFromSet, hsearch]
  . intro a ha
    rw [← hm, store_of_ge _ (by rw [length_singleton]; omega), store_of_ge _ (by omega),
      store_of_ge _ (by rw [length_singleton]; omega)]

lemma importBody_entry
    (htext : Text t.m t.dp (exportEntry sep entry ++ tail)) (hvars : t.localvars = [])
    (hkey : entry.key.length < fuel) (hdata : entry.data.length < fuel)
    (hsearch : hsearchR hooks entry.key (.enter entry.data) flag t.s = some (res, s'))
    : ∃ m', importBody hooks sep flag fuel size t
        = some (importNext size ⟨m', t.dp + (exportEntry sep entry).length, [], s'⟩)
      ∧ ∀ a, t.dp + (exportEntry sep entry).length ≤ a → m' a = t.m a := by
  have ⟨c, l, hcl⟩ := exists_cons_of_ne_nil he.key_ne
  have ⟨hblank, hnumber⟩ := he.key_first c l hcl
  have hall : Text t.m t.dp (entry.key ++ equalSign :: (escape sep entry.data ++ [sep] ++ tail)) := by
    simpa [exportEntry] using htext
  have hlen : (exportEntry sep entry).length = entry.key.length + 1 + (escape sep entry.data).length + 1 := by
    simp [exportEntry]
    omega
  have hname := (text_append.mp hall).1
  have hequal := text_cons.mp (text_append.mp hall).2
  have hvalue := (text_append.mp hequal.2).1
  have ⟨c', l', hfirst, hzero, hsep'⟩ := escape_first hsep he
  have hnext : t.m (t.dp + entry.key.length + 1) = c' := by
    have := hvalue
    rw [hfirst, cons_append, text_cons] at this
    exact this.1
  have hskip : scanWhile isblank t.m fuel t.dp = some t.dp := by
    have hstart : Text t.m t.dp ([] ++ c :: (l ++ equalSign :: (escape sep entry.data ++ [sep] ++ tail))) := by
      rw [hcl] at hall
      exact hall
    rw [scanWhile_text hstart (by simp) hblank (by rw [length_nil]; omega)]
    simp
  have hhash : t.m t.dp ≠ numberSign := by
    rw [hcl, cons_append, text_cons] at hall
    rw [hall.1]
    exact hnumber
  have hstop : scanWhile (fun c => c ≠ equalSign ∧ c ≠ 0 ∧ c ≠ sep) t.m fuel t.dp = some (t.dp + entry.key.length) := by
    apply scanWhile_text hall _ (by simp) hkey
    intro x hx
    simpa using he.key_chars x hx
  have ⟨m', henter, hrest⟩ := importEnter_entry size { t with dp := t.dp + entry.key.length } hsep
    he hname rfl hvalue hvars hkey hdata hsearch
  have hend : t.dp + (exportEntry sep entry).length
      = t.dp + entry.key.length + 1 + (escape sep entry.data).length + 1 := by
    omega
  refine ⟨m', ?_, ?_⟩
  . rw [importBody, hskip]
    dsimp only
    rw [if_neg hhash, hstop]
    dsimp only
    rw [if_neg, henter, hend]
    rw [hnext, hequal.1]
    rintro (h | h | h | h)
    . exact absurd h (by decide)
    . exact hzero h
    . exact (sep_ne hsep).2 h
    . exact hsep' h
  . rw [hend]
    exact hrest

end

end

end

structure Filling {σ : Type} (s : State σ) (map : CStr → Option CStr) (n : Nat) : Prop where
  stands : Stands s map
  no_deleted : ∀ i, cells s.htab i ≠ .deleted
  room : s.htab.filled + n ≤ s.htab.size

section

variable {σ : Type} {hooks : Hooks σ} {s : State σ} {map : CStr → Option CStr} {n : Nat}

lemma Filling.room_for (hf : Filling s map (n + 1)) (key : CStr) : Room s.htab key := by
  have hroom := hf.room
  rw [hf.stands.valid.filled_eq] at hroom
  have hlt : (Finset.filter (fun i => (cells s.htab i).isLive = true) (Finset.Icc 1 s.htab.size)).card
      < (Finset.Icc 1 s.htab.size).card := by
    rw [Nat.card_Icc]
    unfold liveCount at hroom
    omega
  have ⟨idx, hmem, hnot⟩ := Finset.exists_mem_notMem_of_card_lt_card hlt
  rw [Finset.mem_filter, not_and] at hnot
  have hdead := hnot hmem
  rw [Finset.mem_Icc] at hmem
  refine .inl ⟨idx, hmem.1, hmem.2, ?_⟩
  cases hc : cells s.htab idx with
  | free => rfl
  | deleted => exact absurd hc (hf.no_deleted idx)
  | live k v =>
    rw [hc] at hdead
    exact absurd rfl hdead

lemma Filling.enter (hf : Filling s map (n + 1)) (hacc : Accepting hooks) (key data : CStr) (flag : Nat)
    : ∃ res s', hsearchR hooks key (.enter data) flag s = some (res, s')
      ∧ Filling s' (update map key (some data)) n := by
  have ⟨ret, s', hsearch, hs', hsize, idx, hcells⟩ := hf.stands.enter hacc data flag (.inr (hf.room_for key))
  refine ⟨.ok ret, s', hsearch, hs', ?_, ?_⟩
  . intro i
    rw [hcells]
    by_cases hi : i = idx
    . rw [hi, update_self]
      intro h
      contradiction
    . rw [update_of_ne hi]
      exact hf.no_deleted i
  have hroom := hf.room
  have hcount := liveCount_update_le (Finset.Icc 1 s.htab.size) (cells s.htab) idx (.live key data)
  rw [hs'.valid.filled_eq, hsize, hcells]
  rw [hf.stands.valid.filled_eq] at hroom
  omega

end

def enterAll (map : CStr → Option CStr) (entries : List Entry) : CStr → Option CStr :=
  entries.foldl (fun map entry => Function.update map entry.key (some entry.data)) map

variable {entries : List Entry} {map : CStr → Option CStr}

lemma enterAll_eq_some_iff {k v : CStr}
    (hkeys : (entries.map Entry.key).Nodup) (hmap : ∀ entry ∈ entries, map entry.key = none)
    : enterAll map entries k = some v ↔ map k = some v ∨ ∃ entry ∈ entries, entry.key = k ∧ entry.data = v := by
  induction entries generalizing map with
  | nil => simp [enterAll]
  | cons entry entries ih =>
    rw [map_cons, nodup_cons] at hkeys
    have hother {e : Entry} (he : e ∈ entries) : e.key ≠ entry.key := by
      intro heq
      exact hkeys.1 (mem_map.mpr ⟨e, he, heq⟩)
    have hmap' : ∀ e ∈ entries, update map entry.key (some entry.data) e.key = none := by
      intro e he
      rw [update_of_ne (hother he)]
      exact hmap e (mem_cons_of_mem _ he)
    have hrest := ih hkeys.2 hmap'
    have hnone := hmap entry mem_cons_self
    change enterAll (update map entry.key (some entry.data)) entries k = some v ↔ _
    rw [hrest, exists_mem_cons_iff]
    by_cases hk : k = entry.key
    . rw [hk, update_self, hnone]
      simp
    . rw [update_of_ne hk]
      have : ¬(entry.key = k ∧ entry.data = v) := fun h => hk h.1.symm
      simp [this]

section

variable {σ : Type} {hooks : Hooks σ} {sep : UInt8} {flag fuel size : Nat} {map : CStr → Option CStr}

lemma runM_import (hacc : Accepting hooks) (hsep : sep = 0 ∨ sep = lineFeed)
    {t : ImportState σ} {loops : Nat} (hne : entries ≠ []) (he : ∀ entry ∈ entries, Exportable sep entry)
    (htext : Text t.m t.dp (entries.flatMap (exportEntry sep) ++ [0])) (hvars : t.localvars = [])
    (hsize : t.dp + (entries.flatMap (exportEntry sep)).length < size)
    (hfuel : (entries.flatMap (exportEntry sep)).length < fuel)
    (hf : Filling t.s map entries.length) (hloops : entries.length ≤ loops)
    : ∃ t', runM (importBody hooks sep flag fuel size) loops t = some (true, t')
      ∧ t'.localvars = [] ∧ Stands t'.s (enterAll map entries) := by
  induction entries generalizing t loops map with
  | nil => contradiction
  | cons entry entries ih =>
    have hentry := he entry mem_cons_self
    rw [flatMap_cons, length_append] at hsize hfuel
    rw [flatMap_cons, append_assoc] at htext
    have hlen : (exportEntry sep entry).length = entry.key.length + 1 + (escape sep entry.data).length + 1 := by
      simp [exportEntry]
      omega
    have hescape := length_escape sep entry.data
    obtain ⟨res, s', hsearch, hf'⟩ := hf.enter hacc entry.key entry.data flag
    have hkeyLen : entry.key.length < fuel := by omega
    have hdataLen : entry.data.length < fuel := by omega
    obtain ⟨m', hbody, hrest⟩ := importBody_entry size t hsep hentry htext hvars hkeyLen hdataLen hsearch
    have htext' : Text m' (t.dp + (exportEntry sep entry).length) (entries.flatMap (exportEntry sep) ++ [0]) :=
      (text_append.mp htext).2.congr fun i _ => hrest _ (by omega)
    cases loops with
    | zero =>
      rw [length_cons] at hloops
      omega
    | succ loops =>
      rw [runM, hbody]
      cases entries with
      | nil =>
        have hzero : m' (t.dp + (exportEntry sep entry).length) = 0 := (text_cons.mp htext').1
        refine ⟨⟨m', t.dp + (exportEntry sep entry).length, [], s'⟩, ?_, rfl, hf'.stands⟩
        rw [importNext, if_neg (fun h => h.2 hzero)]
      | cons next entries =>
        obtain ⟨c, l, hcl, hc⟩ := (he next (by simp)).first
        have hc : m' (t.dp + (exportEntry sep entry).length) ≠ 0 := by
          have hfirst := htext'
          rw [flatMap_cons, hcl, cons_append, cons_append, text_cons] at hfirst
          rw [hfirst.1]
          exact hc
        have hlt : t.dp + (exportEntry sep entry).length < size := by omega
        rw [importNext, if_pos ⟨hlt, hc⟩]
        apply ih
        . exact cons_ne_nil _ _
        . intro e hmem
          exact he e (mem_cons_of_mem _ hmem)
        . exact htext'
        . rfl
        . dsimp only
          omega
        . omega
        . exact hf'
        . simp only [length_cons] at hloops ⊢
          omega

end

section

variable {htab : HsearchData} {sep : UInt8} {k v : CStr}

lemma Valid.mem_entries (hv : Valid htab)
    : (∃ entry ∈ htab.entries, entry.key = k ∧ entry.data = v) ↔ ∃ i, cells htab i = .live k v := by
  constructor
  . intro ⟨entry, hmem, hkey, hdata⟩
    rw [HsearchData.entries, mem_filterMap] at hmem
    have ⟨i, _, hi⟩ := hmem
    split at hi
    . next hused =>
      cases hi
      refine ⟨i, cell_eq_live_iff.mpr ⟨by omega, by omega, hkey, hdata⟩⟩
    . contradiction
  intro ⟨i, hi⟩
  have hmem := hv.mem_Icc hi
  have hused := hv.used_eq hi
  have hlive := cell_eq_live_iff.mp hi
  rw [Finset.mem_Icc] at hmem
  refine ⟨(htab.table i).entry, ?_, hlive.2.2.1, hlive.2.2.2⟩
  rw [HsearchData.entries, mem_filterMap]
  refine ⟨i, mem_range'_1.mpr ⟨hmem.1, by omega⟩, ?_⟩
  rw [if_pos (by omega)]

def entryLength (sep : UInt8) (entry : Entry) : Nat :=
  entry.key.length + entry.data.length + entry.data.countP (needsEscape sep) + 2

lemma length_exportEntry (entry : Entry) : (exportEntry sep entry).length = entryLength sep entry := by
  have := length_escape sep entry.data
  simp only [exportEntry, entryLength, length_append, length_singleton]
  omega

lemma length_text (sep : UInt8) {entries' : List Entry} (hperm : entries'.Perm entries)
    : (entries'.flatMap (exportEntry sep)).length = (entries.map (entryLength sep)).sum := by
  have hlength : (fun entry => (exportEntry sep entry).length) = entryLength sep := by
    funext entry
    exact length_exportEntry entry
  rw [length_flatMap, hlength]
  exact (hperm.map _).sum_eq

lemma length_le_text (sep : UInt8) (entries : List Entry)
    : entries.length ≤ (entries.flatMap (exportEntry sep)).length := by
  induction entries with
  | nil => rfl
  | cons entry entries ih =>
    rw [flatMap_cons, length_append, length_exportEntry, length_cons, entryLength]
    omega

lemma sum_entryLength_le (entries : List Entry) (hsep : sep ≠ 0)
    : (entries.map (entryLength sep)).sum ≤ (entries.map (entryRoom sep)).sum := by
  apply sum_le_sum
  intro entry _
  rw [entryLength, entryRoom, if_neg hsep]
  omega

def escapes (sep : UInt8) (list : List Entry) : Nat := (list.map fun entry => entry.data.countP (needsEscape sep)).sum

lemma sum_entryLength_zero (list : List Entry)
    : (list.map (entryLength 0)).sum + 2 * list.length = (list.map (entryRoom 0)).sum + escapes 0 list := by
  induction list with
  | nil => rfl
  | cons entry list ih =>
    have hroom : entryRoom 0 entry = entry.key.length + 2 + entry.data.length + 2 := rfl
    simp only [escapes, map_cons, sum_cons, length_cons, entryLength, hroom] at ih ⊢
    omega

end

def exportSize (htab : HsearchData) (sep : UInt8) (size : Nat) : Nat :=
  if size ≠ 0 then size else (htab.entries.map (entryRoom sep)).sum + 1

/--
With NUL as the separator no escape is counted, the two bytes to spare of each variable are the room for them.
-/
def Fits (htab : HsearchData) (size : Nat) : Prop :=
  escapes 0 htab.entries ≤ 2 * htab.entries.length + (size - ((htab.entries.map (entryRoom 0)).sum + 1))

section

variable {σ : Type} {hooks : Hooks σ} {sep : UInt8} {qsort : List Entry → List Entry} {htab : HsearchData} {size : Nat}

lemma text_fits (hsize : size = 0 ∨ (htab.entries.map (entryRoom sep)).sum + 1 ≤ size)
    (h : sep = lineFeed ∨ Fits htab size)
    : (htab.entries.map (entryLength sep)).sum + 1 ≤ exportSize htab sep size := by
  have hbuf : (htab.entries.map (entryRoom sep)).sum + 1
      + (size - ((htab.entries.map (entryRoom sep)).sum + 1)) = exportSize htab sep size := by
    unfold exportSize
    split
    . omega
    . omega
  by_cases hzero : sep = 0
  . have hlen := sum_entryLength_zero htab.entries
    have hescapes : Fits htab size := by
      refine h.resolve_left ?_
      rw [hzero]
      decide
    rw [hzero] at hbuf ⊢
    unfold Fits at hescapes
    omega
  . have hlen := sum_entryLength_le htab.entries hzero
    omega

lemma hexportR_eq (hsort : ∀ l, (qsort l).Perm l)
    (hsize : size = 0 ∨ (htab.entries.map (entryRoom sep)).sum + 1 ≤ size)
    (hfits : (htab.entries.map (entryLength sep)).sum + 1 ≤ exportSize htab sep size)
    : hexportR qsort htab sep size = .ok ((qsort htab.entries).flatMap (exportEntry sep)
      ++ replicate (exportSize htab sep size - (htab.entries.map (entryLength sep)).sum) 0) := by
  have hlen := length_text sep (hsort htab.entries)
  have hbuf : (if size ≠ 0 then size else (htab.entries.map (entryRoom sep)).sum + 1) = exportSize htab sep size := rfl
  unfold hexportR
  dsimp only
  rw [if_neg (by omega), hbuf, hlen, take_of_length_le]
  rw [length_append, length_replicate, hlen]
  omega

lemma importBody_zero {t : ImportState σ} {flag fuel : Nat}
    (hs : Stands t.s map) (hacc : Accepting hooks) (hmap : map [] = none) (hzero : t.m t.dp = 0)
    (hvars : t.localvars = []) (hfuel : 0 < fuel)
    : importBody hooks sep flag fuel size t = some (importNext size ⟨store t.m t.dp [0], t.dp + 1, [], t.s⟩) := by
  have htext : Text t.m t.dp ([] ++ 0 :: []) := by
    simp [Text, load, hzero]
  have hskip : scanWhile isblank t.m fuel t.dp = some t.dp := by
    rw [scanWhile_text htext (by simp) (by decide) hfuel]
    simp
  have hstop : scanWhile (fun c => c ≠ equalSign ∧ c ≠ 0 ∧ c ≠ sep) t.m fuel t.dp = some t.dp := by
    rw [scanWhile_text htext (by simp) (by simp) hfuel]
    simp
  have hname : strAt (store t.m t.dp [0]) fuel t.dp = [] := strAt_text text_store_self (by simp) hfuel
  have hdelete : hdeleteR hooks [] flag t.s = some (.error .esrch, t.s) := by
    rcases hs.delete hacc [] flag with ⟨s', _, hsome, _⟩ | ⟨hdelete, _⟩
    . rw [hmap] at hsome
      contradiction
    . exact hdelete
  rw [importBody, hskip]
  dsimp only
  rw [if_neg (by rw [hzero]; decide), hstop]
  dsimp only
  have hne : t.m t.dp ≠ equalSign := by
    rw [hzero]
    decide
  rw [if_pos (.inl hzero), importDelete]
  rw [if_neg hne]
  dsimp only
  rw [hname, hvars]
  simp [dropVarFromSet, hdelete]

lemma himportR_text (hacc : Accepting hooks) (hsep : sep = 0 ∨ sep = lineFeed) (old : Option HsearchData)
    (statics : σ) {n : Nat} {new : HsearchData} (hn : 0 < n)
    (he : ∀ entry ∈ entries, Exportable sep entry)
    (hnew : hcreateR (nent ((entries.flatMap (exportEntry sep)).length + n)) = some new)
    (hlarge : entries.length ≤ new.size)
    : ∃ s, himportR hooks sep 0 old statics
        (entries.flatMap (exportEntry sep) ++ replicate n 0) false [] = some (true, s)
      ∧ Stands s (enterAll (fun _ => none) entries) := by
  generalize henv : entries.flatMap (exportEntry sep) ++ replicate n 0 = env
  have hlength : env.length = (entries.flatMap (exportEntry sep)).length + n := by
    rw [← henv, length_append, length_replicate]
  rw [← hlength] at hnew
  obtain ⟨hge, hfilled, hfree⟩ := hcreateR_eq hnew
  have hfive : 5 ≤ new.size := by
    unfold nent configEnvMinEntries configEnvMaxEntries at hge
    omega
  have hstands : Stands ⟨new, statics⟩ fun _ => none := hcreateR_stands hnew hfive
  have hfilling : Filling ⟨new, statics⟩ (fun _ => none) entries.length := by
    refine ⟨hstands, ?_, ?_⟩
    . intro i h
      rw [hfree i] at h
      contradiction
    . dsimp only
      omega
  have hrun : ∃ t, runM (importBody hooks sep 0 (env.length + 2) env.length) (env.length + 1)
        ⟨store (fun _ => 0) 0 env, 0, [], ⟨new, statics⟩⟩ = some (true, t)
      ∧ t.localvars = [] ∧ Stands t.s (enterAll (fun _ => none) entries) := by
    by_cases hnil : entries = []
    . rw [hnil] at henv ⊢
      have hzero (a : Int) : store (fun _ => 0) 0 env a = 0 := by
        rw [← henv]
        simp [store]
      refine ⟨⟨store (store (fun _ => 0) 0 env) 0 [0], 1, [], ⟨new, statics⟩⟩, ?_, rfl, hstands⟩
      rw [runM, importBody_zero hstands hacc rfl (hzero 0) rfl (by omega), importNext, if_neg]
      . rfl
      intro h
      apply h.2
      dsimp only
      rw [store_of_ge _ (by rw [length_singleton]; omega), hzero]
    have htext : Text (store (fun _ => 0) 0 env) 0 (entries.flatMap (exportEntry sep) ++ [0]) := by
      have hall : Text (store (fun _ => 0) 0 env) 0 env := text_store_self
      have hsplit : env = entries.flatMap (exportEntry sep) ++ [0] ++ replicate (n - 1) 0 := by
        rw [← henv, append_assoc, singleton_append, ← replicate_succ, Nat.sub_add_cancel hn]
      have hall' := hall
      nth_rewrite 2 [hsplit] at hall'
      exact (text_append.mp hall').1
    have hcount := length_le_text sep entries
    apply runM_import hacc hsep hnil he htext rfl
    . dsimp only
      omega
    . omega
    . exact hfilling
    . omega
  obtain ⟨t, hloop, hvars, hs⟩ := hrun
  refine ⟨t.s, ?_, hs⟩
  unfold himportR
  rw [if_pos (by decide)]
  dsimp only
  rw [hnew]
  dsimp only
  rw [if_neg (by omega), if_neg (by decide)]
  dsimp only
  rw [Nat.sub_zero, hloop]
  dsimp only
  rw [hvars]
  rfl

end

theorem himport_hexport {σ : Type} {hooks : Hooks σ} (hacc : Accepting hooks) (htab : HsearchData)
    (sep : UInt8) (hsep : sep = 0 ∨ sep = lineFeed) (he : ∀ entry ∈ htab.entries, Exportable sep entry)
    (hkeys : (htab.entries.map Entry.key).Nodup) (qsort : List Entry → List Entry)
    (hsort : ∀ l, (qsort l).Perm l) (size : Nat)
    (hsize : size = 0 ∨ (htab.entries.map (entryRoom sep)).sum + 1 ≤ size) (old : Option HsearchData)
    (statics : σ) (new : HsearchData) (hnew : hcreateR (nent (exportSize htab sep size)) = some new)
    (hlarge : htab.entries.length ≤ new.size) (hescapes : sep = lineFeed ∨ Fits htab size)
    : ∃ buf s, hexportR qsort htab sep size = .ok buf
      ∧ himportR hooks sep 0 old statics buf false [] = some (true, s)
      ∧ ∀ k v, (∃ entry ∈ s.htab.entries, entry.key = k ∧ entry.data = v)
        ↔ ∃ entry ∈ htab.entries, entry.key = k ∧ entry.data = v := by
  have hperm := hsort htab.entries
  have hlen := length_text sep hperm
  have hfits := text_fits hsize hescapes
  rw [hexportR_eq hsort hsize hfits]
  have hbuf : ((qsort htab.entries).flatMap (exportEntry sep)).length
      + (exportSize htab sep size - (htab.entries.map (entryLength sep)).sum) = exportSize htab sep size := by
    omega
  rw [← hbuf] at hnew
  rw [← hperm.length_eq] at hlarge
  have ⟨s, himport, hs⟩ := himportR_text hacc hsep old statics (by omega)
    (fun entry hmem => he entry (hperm.mem_iff.mp hmem)) hnew hlarge
  refine ⟨_, s, rfl, himport, ?_⟩
  intro k v
  have hmap : enterAll (fun _ => none) (qsort htab.entries) k = some v ↔ _ :=
    enterAll_eq_some_iff ((hperm.map Entry.key).nodup_iff.mpr hkeys) (fun _ _ => rfl)
  rw [hs.valid.mem_entries, ← hs.represents k v, hmap]
  simp [hperm.mem_iff]

def oneVariable (data : CStr) : HsearchData where
  table idx := if idx = 3 then ⟨3, ⟨[97], data, 0⟩⟩ else emptySlot
  size := 5
  filled := 1

lemma oneVariable_exportable {sep : UInt8} {data : CStr} (hsep : sep = 0 ∨ sep = lineFeed) (hne : data ≠ [])
    (hdata : ∀ c ∈ data, c ≠ 0) : ∀ entry ∈ (oneVariable data).entries, Exportable sep entry := by
  have hentries : (oneVariable data).entries = [⟨[97], data, 0⟩] := rfl
  intro entry hmem
  rw [hentries, mem_singleton] at hmem
  subst hmem
  refine ⟨by simp, ?_, ?_, hne, hdata⟩
  . rcases hsep with h | h
    . rw [h]
      simp [equalSign]
    . rw [h, lineFeed]
      simp [equalSign]
  . intro c l hcl
    cases hcl
    decide

lemma exists_new (n : Nat) : ∃ new, hcreateR (nent n) = some new ∧ 1 ≤ new.size := by
  have ⟨new, hnew⟩ := Option.isSome_iff_exists.mp (hcreateR_isSome (nent n))
  have ⟨hge, _⟩ := hcreateR_eq hnew
  refine ⟨new, hnew, ?_⟩
  unfold nent configEnvMinEntries configEnvMaxEntries at hge
  omega

theorem himport_hexport_lineFeed
    : ∃ buf s, hexportR id (oneVariable [10, 92, 92, 92]) lineFeed 0 = .ok buf
      ∧ himportR plainHooks lineFeed 0 none () buf false [] = some (true, s)
      ∧ ∀ k v, (∃ entry ∈ s.htab.entries, entry.key = k ∧ entry.data = v)
        ↔ ∃ entry ∈ (oneVariable [10, 92, 92, 92]).entries, entry.key = k ∧ entry.data = v := by
  have ⟨new, hnew, hlarge⟩ := exists_new (exportSize (oneVariable [10, 92, 92, 92]) lineFeed 0)
  have hexportable : ∀ entry ∈ (oneVariable [10, 92, 92, 92]).entries, Exportable lineFeed entry :=
    oneVariable_exportable (.inr rfl) (by simp) (by simp)
  exact himport_hexport plainHooks_accepting (oneVariable [10, 92, 92, 92]) lineFeed (.inr rfl)
    hexportable (by decide) id (fun _ => .refl _) 0 (.inl rfl) none () new hnew hlarge (.inl rfl)

def sixBackslashes : CStr := [92, 92, 92, 92, 92, 92]

lemma himportR_sixBackslashes {buf : List UInt8} (hexport : hexportR id (oneVariable sixBackslashes) 0 0 = .ok buf)
    : (himportR plainHooks 0 0 none () buf false []).map
        (fun res => res.2.htab.entries.map fun entry => (entry.key, entry.data))
      = some [([97], [92, 92, 92, 92, 92])] := by
  cases hexport
  decide +kernel

-- The text has 15 bytes and the buffer 12: one of the six backslashes is lost.
theorem not_roundTrip_backslashes
    : ¬∀ (hooks : Hooks Unit), Accepting hooks → ∀ (htab : HsearchData) (sep : UInt8),
      sep = 0 ∨ sep = lineFeed → (∀ entry ∈ htab.entries, Exportable sep entry) →
      (htab.entries.map Entry.key).Nodup → ∀ qsort : List Entry → List Entry, (∀ l, (qsort l).Perm l) →
      ∀ size : Nat, size = 0 ∨ (htab.entries.map (entryRoom sep)).sum + 1 ≤ size →
      ∀ (old : Option HsearchData) (new : HsearchData),
      hcreateR (nent (exportSize htab sep size)) = some new → htab.entries.length ≤ new.size →
      ∃ buf s, hexportR qsort htab sep size = .ok buf
        ∧ himportR hooks sep 0 old () buf false [] = some (true, s)
        ∧ ∀ k v, (∃ entry ∈ s.htab.entries, entry.key = k ∧ entry.data = v)
          ↔ ∃ entry ∈ htab.entries, entry.key = k ∧ entry.data = v := by
  intro h
  obtain ⟨new, hnew, hlarge⟩ := exists_new (exportSize (oneVariable sixBackslashes) 0 0)
  have hexportable : ∀ entry ∈ (oneVariable sixBackslashes).entries, Exportable 0 entry :=
    oneVariable_exportable (.inl rfl) (by simp [sixBackslashes]) (by simp [sixBackslashes])
  obtain ⟨buf, s, hexport, himport, hsame⟩ := h plainHooks plainHooks_accepting (oneVariable sixBackslashes) 0 (.inl rfl)
    hexportable (by decide) id (fun _ => .refl _) 0 (.inl rfl) none new hnew hlarge
  have hentries := himportR_sixBackslashes hexport
  rw [himport] at hentries
  have hpairs : s.htab.entries.map (fun entry => (entry.key, entry.data)) = [([97], [92, 92, 92, 92, 92])] :=
    Option.some_inj.mp hentries
  obtain ⟨entry, hmem, hkey, hdata⟩ := (hsame [97] sixBackslashes).mpr ⟨⟨[97], sixBackslashes, 0⟩, by decide, rfl, rfl⟩
  have hpair := mem_map_of_mem (f := fun entry : Entry => (entry.key, entry.data)) hmem
  rw [hpairs, hkey, hdata] at hpair
  revert hpair
  decide

end UBoot.Hashtable
