import MarvellBoot.UBoot.Hashtable.Alloc
import MarvellBoot.UBoot.Hashtable.Lemmas.Create

namespace UBoot.Hashtable

open OpenAddressing NullTable Function List

section

variable {σ : Type} {hooks : Hooks σ} {key : CStr} {action : Action} {flag : Nat} {s : State σ}

lemma hsearchAllocR_true (data : CStr)
    : hsearchAllocR hooks true true key data flag s
      = (hsearchR hooks key (.enter data) flag s).map (Prod.map id State.toNull) := by
  rw [hsearchR_eq_search]
  unfold hsearchAllocR
  cases s.htab.toNull.search key with
  | none => rfl
  | some res =>
    cases res with
    | inl idx =>
      dsimp only [overwriteAlloc, overwriteEntry, strdup]
      split
      . rfl
      cases hooks.callback s.statics s.htab key (some data) .overwrite flag with
      | none => rfl
      | some res =>
        cases res with
        | none => rfl
        | some res => rfl
    | inr res =>
      dsimp only [enterNewAlloc, enterNew, strdup]
      split
      . rfl
      . rfl

end

section

variable {htab htab' : HsearchData} {key k v : CStr} {idx : Nat}

section

variable (hv : Valid htab)

include hv

lemma find_toNull (key : CStr)
    : (∃ idx v, cells htab idx = .live key v ∧ htab.toNull.find key = some (some (some v)))
      ∨ (∀ i v, cells htab i ≠ .live key v) ∧ htab.toNull.find key = some none := by
  by_cases hlive : ∃ idx v, cells htab idx = .live key v
  . have ⟨idx, v, h⟩ := hlive
    refine .inl ⟨idx, v, h, ?_⟩
    have hdata := (cell_eq_live_iff.mp h).2.2.2
    unfold find
    rw [search_of_live hv h, ← hdata]
    rfl
  have habsent : ∀ i v, cells htab i ≠ .live key v := fun i v h => hlive ⟨i, v, h⟩
  refine .inr ⟨habsent, ?_⟩
  have ⟨firstDeleted, idx, hsearch, _⟩ := search_of_absent hv habsent
  unfold find
  rw [hsearch]
  rfl

lemma find_congr (hv' : Valid htab')
    (h : ∀ i k v, cells htab' i = .live k v ↔ cells htab i = .live k v) (key : CStr)
    : htab'.toNull.find key = htab.toNull.find key := by
  rcases find_toNull hv key with ⟨i, v, hlive, hfind⟩ | ⟨habsent, hfind⟩
  . have hlive' := (h i key v).mpr hlive
    rcases find_toNull hv' key with ⟨j, w, hj, hfind'⟩ | ⟨habsent', _⟩
    . have hij := hv'.wellFormed.unique hj hlive'
      rw [hij, hlive'] at hj
      cases hj
      rw [hfind, hfind']
    . exact absurd hlive' (habsent' i v)
  . rcases find_toNull hv' key with ⟨j, w, hj, _⟩ | ⟨_, hfind'⟩
    . exact absurd ((h j key w).mp hj) (habsent j w)
    . rw [hfind, hfind']

end

lemma mem_entries_iff (t : NullTable) (x : Option CStr × Option CStr)
    : x ∈ t.entries ↔ ∃ i, 1 ≤ i ∧ i ≤ t.size ∧ 0 < (t.table i).used
      ∧ ((t.table i).entry.key, (t.table i).entry.data) = x := by
  unfold entries
  rw [mem_filterMap]
  constructor
  . intro ⟨i, hi, hx⟩
    rw [mem_range'_1] at hi
    split at hx
    next hused =>
      exact ⟨i, hi.1, by omega, hused, Option.some_inj.mp hx⟩
    next => contradiction
  . intro ⟨i, hpos, hle, hused, hx⟩
    refine ⟨i, mem_range'_1.mpr ⟨hpos, by omega⟩, ?_⟩
    rw [if_pos hused, hx]

lemma used_pos_iff (hv : Valid htab) (i : Nat) : 0 < (htab.table i).used ↔ (cells htab i).isLive = true := by
  constructor
  . intro hused
    have hcell : cells htab i = .live (htab.table i).entry.key (htab.table i).entry.data :=
      cell_eq_live_iff.mpr ⟨by omega, by omega, rfl, rfl⟩
    rw [hcell]
    rfl
  intro hlive
  cases hcell : cells htab i with
  | free | deleted =>
    rw [hcell] at hlive
    contradiction
  | live k v =>
    have hpos : 0 < hval1 htab.size k := hval1_pos k
    rw [hv.used_eq hcell]
    omega

lemma Valid.filled_eq_length (hv : Valid htab) : htab.toNull.filled = htab.toNull.entries.length := by
  have hfilled := hv.filled_eq
  change htab.filled = _
  rw [hfilled]
  unfold liveCount entries
  have hlen (l : List Nat)
      : (l.filterMap fun i => if 0 < (htab.toNull.table i).used then
          some ((htab.toNull.table i).entry.key, (htab.toNull.table i).entry.data) else none).length
        = (l.filter fun i => (cells htab i).isLive).length := by
    induction l with
    | nil => rfl
    | cons i l ih =>
      have hused : 0 < (htab.toNull.table i).used ↔ (cells htab i).isLive = true := used_pos_iff hv i
      rw [filterMap_cons, filter_cons]
      by_cases hlive : (cells htab i).isLive = true
      . rw [if_pos (hused.mpr hlive), if_pos hlive, length_cons, length_cons, ih]
      . rw [if_neg (fun h => hlive (hused.mp h)), if_neg hlive, ih]
  have hrange : (range' 1 htab.size).toFinset = Finset.Icc 1 htab.size := by
    ext i
    rw [mem_toFinset, mem_range'_1, Finset.mem_Icc]
    omega
  have hnodup : ((range' 1 htab.size).filter fun i => (cells htab i).isLive).Nodup := List.Nodup.filter _ nodup_range'
  change _ = (filterMap _ (range' 1 htab.size)).length
  rw [hlen, ← toFinset_card_of_nodup hnodup, toFinset_filter, hrange]

structure Unchanged (before after : NullTable) : Prop where
  find : ∀ key, after.find key = before.find key
  entries : after.entries = before.entries
  filled : after.filled = after.entries.length

lemma Valid.unchanged (hv : Valid htab) : Unchanged htab.toNull htab.toNull :=
  ⟨fun _ => rfl, rfl, hv.filled_eq_length⟩

lemma unchanged_of_slots (hv : Valid htab) (hv' : Valid htab') (hsize : htab'.size = htab.size)
    (h : ∀ i k v, cells htab' i = .live k v ↔ cells htab i = .live k v) : Unchanged htab.toNull htab'.toNull := by
  refine ⟨find_congr hv hv' h, ?_, hv'.filled_eq_length⟩
  change (range' 1 htab'.size).filterMap _ = _
  rw [hsize]
  apply filterMap_congr
  intro i _
  change (if 0 < (htab'.table i).used then some (some (htab'.table i).entry.key, some (htab'.table i).entry.data)
    else none) = if 0 < (htab.table i).used then
      some (some (htab.table i).entry.key, some (htab.table i).entry.data) else none
  have hlive {t : HsearchData} (ht : Valid t) (hused : 0 < (t.table i).used)
      : cells t i = .live (t.table i).entry.key (t.table i).entry.data :=
    cell_eq_live_iff.mpr ⟨by omega, by omega, rfl, rfl⟩
  by_cases hused : 0 < (htab.table i).used
  . have hcell := (h i _ _).mpr (hlive hv hused)
    have hused' : 0 < (htab'.table i).used := by
      rw [used_pos_iff hv', hcell]
      rfl
    have hentry := cell_eq_live_iff.mp hcell
    rw [if_pos hused, if_pos hused', hentry.2.2.1, hentry.2.2.2]
  have hused' : ¬0 < (htab'.table i).used := by
    intro hused'
    have hcell := (h i _ _).mp (hlive hv' hused')
    apply hused
    rw [used_pos_iff hv, hcell]
    rfl
  rw [if_neg hused, if_neg hused']

end

variable {htab : HsearchData} {res : Result} {v : CStr}

section

variable {σ : Type} {hooks : Hooks σ} {s s' : State σ} {key data : CStr} {flag idx : Nat}

def Keeps (hooks : Hooks σ) : Prop :=
  ∀ statics htab key data op flag after,
    hooks.callback statics htab key data op flag = some (some after) → Same htab after.1

def Rejects (hooks : Hooks σ) (key data : CStr) (flag idx : Nat) (s : State σ) : Prop :=
  ∃ flags statics, hooks.envFlagsInit s.statics s.htab (s.htab.table idx).entry = some (flags, statics)
    ∧ (hooks.changeOk ((s.htab.setFlags idx flags).table idx).entry (some data) .create flag = false
      ∨ hooks.callback statics (s.htab.setFlags idx flags) key (some data) .create flag = some none)

lemma register_cases (hk : Keeps hooks) (h : register hooks key data flag idx s = some (res, s'))
    : (∃ e flags, res = .error e ∧ Rejects hooks key data flag idx s
        ∧ s'.htab = deleteSlot (s.htab.setFlags idx flags) idx)
      ∨ res = .ok (1, idx) ∧ ¬Rejects hooks key data flag idx s ∧ Same s.htab s'.htab := by
  unfold register at h
  cases hinit : hooks.envFlagsInit s.statics s.htab (s.htab.table idx).entry with
  | none =>
    rw [hinit] at h
    contradiction
  | some init =>
    have ⟨flags, statics⟩ := init
    rw [hinit] at h
    dsimp only at h
    split at h
    next hchange =>
      left
      cases h
      exact ⟨_, flags, rfl, ⟨flags, statics, hinit, .inl hchange⟩, rfl⟩
    next hchange =>
    cases hcallback : hooks.callback statics (s.htab.setFlags idx flags) key (some data) .create flag with
    | none =>
      rw [hcallback] at h
      contradiction
    | some res =>
      rw [hcallback] at h
      cases res with
      | none =>
        left
        cases h
        exact ⟨_, flags, rfl, ⟨flags, statics, hinit, .inr hcallback⟩, rfl⟩
      | some after =>
        right
        cases h
        refine ⟨rfl, ?_, same_setFlags.trans (hk _ _ _ _ _ _ _ hcallback)⟩
        intro ⟨flags', statics', hinit', hrejects⟩
        rw [hinit] at hinit'
        cases hinit'
        cases hrejects with
        | inl h => exact hchange h
        | inr h =>
          rw [hcallback] at h
          cases h

lemma register_of_rejects (h : Rejects hooks key data flag idx s)
    : ∃ e flags statics, register hooks key data flag idx s
      = some (.error e, ⟨deleteSlot (s.htab.setFlags idx flags) idx, statics⟩) := by
  have ⟨flags, statics, hinit, hrejects⟩ := h
  unfold register
  rw [hinit]
  dsimp only
  by_cases hchange : hooks.changeOk ((s.htab.setFlags idx flags).table idx).entry (some data) .create flag = false
  . rw [if_pos hchange]
    exact ⟨_, flags, statics, rfl⟩
  . rw [if_neg hchange, hrejects.resolve_left hchange]
    exact ⟨_, flags, statics, rfl⟩

lemma unchanged_register (hv : Valid s.htab) (hk : Keeps hooks) (hroom : Room s.htab key)
    (habsent : ∀ i v, cells s.htab i ≠ .live key v) (ht : Target s.htab key idx)
    (h : register hooks key data flag idx ⟨insertSlot s.htab (hval1 s.htab.size key) idx key data, s.statics⟩
      = some (res, s'))
    : Valid s'.htab ∧ ∀ e, res = .error e → Unchanged s.htab.toNull s'.htab.toNull := by
  have hv1 : Valid (insertSlot s.htab (hval1 s.htab.size key) idx key data) := hv.insertSlot hroom habsent ht
  have hcells := cells_insertSlot s.htab idx key data
  have hsize : (insertSlot s.htab (hval1 s.htab.size key) idx key data).size = s.htab.size := rfl
  generalize insertSlot s.htab (hval1 s.htab.size key) idx key data = htab at h hv1 hcells hsize
  rcases register_cases hk h with ⟨e, flags, hres, _, hhtab⟩ | ⟨hres, _, hsame⟩
  . have hsame : Same htab (htab.setFlags idx flags) := same_setFlags
    have hcells2 := hsame.cells_eq
    have hv2 := hv1.same hsame
    have hlive : cells (htab.setFlags idx flags) idx = .live key data := by
      rw [hcells2, hcells, update_self]
    have hv' : Valid s'.htab := by
      rw [hhtab]
      exact hv2.deleteSlot hlive
    refine ⟨hv', fun _ _ => unchanged_of_slots hv hv' ?_ ?_⟩
    . rw [hhtab]
      exact hsize
    intro i k v
    rw [hhtab, cells_deleteSlot, hcells2, hcells, update_idem]
    by_cases hi : i = idx
    . rw [hi, update_self]
      constructor
      . intro h
        contradiction
      . intro h
        exact absurd h (ht.not_live hroom k v)
    . rw [update_of_ne hi]
  refine ⟨hv1.same hsame, ?_⟩
  intro e he
  rw [hres] at he
  contradiction

variable {keyOk dataOk : Bool} {res : Result} {after : NullState σ}

def Overwrites (hooks : Hooks σ) (key data : CStr) (flag idx : Nat) (s : State σ) : Prop :=
  hooks.changeOk (s.htab.table idx).entry (some data) .overwrite flag ≠ false
    ∧ ∃ after, hooks.callback s.statics s.htab key (some data) .overwrite flag = some (some after)

lemma overwriteAlloc_cases (hk : Keeps hooks) (h : overwriteAlloc hooks dataOk key data flag idx s = some (res, after))
    : after = s.toNull
      ∨ Overwrites hooks key data flag idx s ∧ ∃ s1 : State σ, Same s.htab s1.htab
        ∧ ((dataOk = true ∧ res = .ok (idx, idx) ∧ after = ⟨(s1.htab.setData idx data).toNull, s1.statics⟩)
          ∨ (dataOk = false ∧ res = .error .enomem ∧ after = ⟨s1.htab.toNull.setData idx none, s1.statics⟩)) := by
  unfold overwriteAlloc at h
  split at h
  next hchange =>
    left
    cases h
    rfl
  next hchange =>
  cases hcallback : hooks.callback s.statics s.htab key (some data) .overwrite flag with
  | none =>
    rw [hcallback] at h
    contradiction
  | some r =>
    rw [hcallback] at h
    cases r with
    | none =>
      left
      cases h
      rfl
    | some acc =>
      right
      refine ⟨⟨hchange, acc, hcallback⟩, ⟨acc.1, acc.2⟩, hk _ _ _ _ _ _ _ hcallback, ?_⟩
      cases dataOk with
      | true =>
        left
        cases h
        exact ⟨rfl, rfl, rfl⟩
      | false =>
        right
        cases h
        exact ⟨rfl, rfl, rfl⟩

lemma hsearchAllocR_of_live (hv : Valid s.htab) (hlive : cells s.htab idx = .live key v)
    : hsearchAllocR hooks keyOk dataOk key data flag s = overwriteAlloc hooks dataOk key data flag idx s := by
  unfold hsearchAllocR
  rw [search_of_live hv hlive]

lemma hsearchAllocR_of_absent (hv : Valid s.htab) (habsent : ∀ i v, cells s.htab i ≠ .live key v)
    : ∃ idx, Target s.htab key idx
      ∧ (¬Room s.htab key → idx = hval1 s.htab.size key ∧ ∃ k v, cells s.htab (hval1 s.htab.size key) = .live k v)
      ∧ (s.htab.filled = s.htab.size →
        hsearchAllocR hooks keyOk dataOk key data flag s = some (.error .enomem, s.toNull))
      ∧ (s.htab.filled ≠ s.htab.size → keyOk = true ∧ dataOk = true →
        hsearchAllocR hooks keyOk dataOk key data flag s
          = (register hooks key data flag idx
            ⟨insertSlot s.htab (hval1 s.htab.size key) idx key data, s.statics⟩).map (Prod.map id State.toNull))
      ∧ (s.htab.filled ≠ s.htab.size → ¬(keyOk = true ∧ dataOk = true) →
        hsearchAllocR hooks keyOk dataOk key data flag s
          = some (.error .enomem, ⟨s.htab.toNull.setSlot idx ⟨hval1 s.htab.size key,
            ⟨strdup keyOk key, strdup dataOk data, (s.htab.table idx).entry.flags⟩⟩, s.statics⟩)) := by
  have ⟨firstDeleted, idx, hsearch, ht, hfull⟩ := search_of_absent hv habsent
  refine ⟨_, ht, hfull, ?_⟩
  unfold hsearchAllocR
  rw [hsearch]
  dsimp only [enterNewAlloc]
  refine ⟨?_, ?_, ?_⟩
  . intro hfilled
    rw [if_pos hfilled]
  . intro hfilled ⟨hkey, hdata⟩
    rw [if_neg hfilled, hkey, hdata]
    rfl
  intro hfilled hfails
  rw [if_neg hfilled]
  cases keyOk with
  | false =>
    cases dataOk with
    | false => rfl
    | true => rfl
  | true =>
    cases dataOk with
    | false => rfl
    | true => exact absurd ⟨rfl, rfl⟩ hfails

lemma not_unchanged_of_null {after : NullTable} {i : Nat} (hpos : 1 ≤ i) (hle : i ≤ after.size)
    (hused : 0 < (after.table i).used)
    (hnull : (after.table i).entry.key = none ∨ (after.table i).entry.data = none)
    : ¬Unchanged htab.toNull after := by
  intro h
  have hmem := (mem_entries_iff after _).mpr ⟨i, hpos, hle, hused, rfl⟩
  rw [h.entries, mem_entries_iff] at hmem
  have ⟨j, _, _, _, hj⟩ := hmem
  have ⟨hkey, hdata⟩ := Prod.mk.inj hj
  cases hnull with
  | inl h =>
    rw [h] at hkey
    exact absurd hkey (Option.some_ne_none _)
  | inr h =>
    rw [h] at hdata
    exact absurd hdata (Option.some_ne_none _)

lemma not_unchanged_of_lost (hv : Valid htab) {hval flags : Nat} {k : CStr}
    (hlive : cells htab idx = .live k v)
    : ¬Unchanged htab.toNull (deleteSlot ((insertSlot htab hval idx key data).setFlags idx flags) idx).toNull := by
  intro h
  have hmem := Finset.mem_Icc.mp (hv.mem_Icc hlive)
  have hentry := cell_eq_live_iff.mp hlive
  have hused : 0 < (htab.table idx).used := by
    rw [used_pos_iff hv, hlive]
    rfl
  have hbefore : (some k, some v) ∈ htab.toNull.entries := by
    rw [mem_entries_iff]
    refine ⟨idx, hmem.1, hmem.2, hused, ?_⟩
    rw [← hentry.2.2.1, ← hentry.2.2.2]
    rfl
  rw [← h.entries, mem_entries_iff] at hbefore
  have ⟨j, _, _, hj, hkey⟩ := hbefore
  have hne : j ≠ idx := by
    intro heq
    rw [heq] at hj
    dsimp only [deleteSlot, HsearchData.setSlot, HsearchData.toNull, Slot.toNull] at hj
    rw [update_self] at hj
    contradiction
  have hslot : (deleteSlot ((insertSlot htab hval idx key data).setFlags idx flags) idx).table j = htab.table j := by
    dsimp only [deleteSlot, HsearchData.setFlags, insertSlot, HsearchData.setSlot]
    rw [update_of_ne hne, update_of_ne hne, update_of_ne hne]
  dsimp only [HsearchData.toNull, Slot.toNull, Entry.toNull] at hj hkey
  rw [hslot] at hj hkey
  have ⟨hkey, hdata⟩ := Prod.mk.inj hkey
  have hlive' : cells htab j = .live k v :=
    cell_eq_live_iff.mpr ⟨by omega, by omega, Option.some_inj.mp hkey, Option.some_inj.mp hdata⟩
  exact hne (hv.wellFormed.unique hlive' hlive)

def Atomic (hooks : Hooks σ) (keyOk dataOk : Bool) (key data : CStr) (flag : Nat) (s : State σ) : Prop :=
  ∀ e after, hsearchAllocR hooks keyOk dataOk key data flag s = some (.error e, after) →
    Unchanged s.htab.toNull after.htab

structure Undoes (hooks : Hooks σ) (keyOk dataOk : Bool) (key data : CStr) (flag : Nat) (s : State σ) : Prop where
  overwrite : ∀ idx v, cells s.htab idx = .live key v → dataOk = true ∨ ¬Overwrites hooks key data flag idx s
  create : (∀ idx v, cells s.htab idx ≠ .live key v) → s.htab.filled = s.htab.size
    ∨ (keyOk = true ∧ dataOk = true
      ∧ (Room s.htab key ∨ ¬Rejects hooks key data flag (hval1 s.htab.size key)
        ⟨insertSlot s.htab (hval1 s.htab.size key) (hval1 s.htab.size key) key data, s.statics⟩))

lemma atomic_of_live (hv : Valid s.htab) (hk : Keeps hooks) (hlive : cells s.htab idx = .live key v)
    : Atomic hooks keyOk dataOk key data flag s ↔ dataOk = true ∨ ¬Overwrites hooks key data flag idx s := by
  unfold Atomic
  rw [hsearchAllocR_of_live hv hlive]
  constructor
  . intro h
    by_contra hno
    have hdata : dataOk = false := by
      cases dataOk with
      | false => rfl
      | true => exact absurd (.inl rfl) hno
    have hover : Overwrites hooks key data flag idx s := by
      by_contra hover
      exact hno (.inr hover)
    have ⟨hchange, after, hcallback⟩ := hover
    have hcall : overwriteAlloc hooks dataOk key data flag idx s
        = some (.error .enomem, ⟨after.1.toNull.setData idx none, after.2⟩) := by
      unfold overwriteAlloc
      rw [if_neg hchange, hcallback, hdata]
      rfl
    have hsame := hk _ _ _ _ _ _ _ hcallback
    have hmem := Finset.mem_Icc.mp (hv.mem_Icc hlive)
    apply not_unchanged_of_null hmem.1 _ _ _ (h _ _ hcall)
    . rw [← hsame.size_eq] at hmem
      exact hmem.2
    . have hused : 0 < (after.1.table idx).used := by
        rw [hsame.used_eq, used_pos_iff hv, hlive]
        rfl
      dsimp only [setData, setSlot]
      rw [update_self]
      exact hused
    . right
      dsimp only [setData, setSlot]
      rw [update_self]
  intro hcond e after h
  rcases overwriteAlloc_cases hk h with heq | ⟨hover, s1, _, ⟨_, hres, _⟩ | ⟨hdata, _, _⟩⟩
  . rw [heq]
    exact hv.unchanged
  . contradiction
  cases hcond with
  | inl htrue =>
    rw [hdata] at htrue
    contradiction
  | inr hno => exact absurd hover hno

lemma atomic_of_absent (hv : Valid s.htab) (hk : Keeps hooks) (habsent : ∀ i v, cells s.htab i ≠ .live key v)
    : Atomic hooks keyOk dataOk key data flag s ↔ s.htab.filled = s.htab.size
      ∨ (keyOk = true ∧ dataOk = true
        ∧ (Room s.htab key ∨ ¬Rejects hooks key data flag (hval1 s.htab.size key)
          ⟨insertSlot s.htab (hval1 s.htab.size key) (hval1 s.htab.size key) key data, s.statics⟩)) := by
  have ⟨idx, ht, hfull, henomem, hcopied, hfailed⟩ :=
    @hsearchAllocR_of_absent σ hooks s _ data flag keyOk dataOk hv habsent
  have hmem := Finset.mem_Icc.mp (ht.mem_Icc hv)
  have hpos : 0 < hval1 s.htab.size key := hval1_pos key
  unfold Atomic
  by_cases hfilled : s.htab.filled = s.htab.size
  . rw [henomem hfilled]
    refine ⟨fun _ => .inl hfilled, ?_⟩
    intro _ e after h
    cases h
    exact hv.unchanged
  by_cases hok : keyOk = true ∧ dataOk = true
  . rw [hcopied hfilled hok]
    constructor
    . intro h
      by_contra hno
      have hroom : ¬Room s.htab key := fun hroom => hno (.inr ⟨hok.1, hok.2, .inl hroom⟩)
      have ⟨hidx, k, v, hlive⟩ := hfull hroom
      have hrejects : Rejects hooks key data flag (hval1 s.htab.size key)
          ⟨insertSlot s.htab (hval1 s.htab.size key) (hval1 s.htab.size key) key data, s.statics⟩ := by
        by_contra hrejects
        exact hno (.inr ⟨hok.1, hok.2, .inr hrejects⟩)
      have ⟨e, flags, statics, hregister⟩ := register_of_rejects hrejects
      rw [hidx, hregister] at h
      exact not_unchanged_of_lost hv hlive (h _ _ rfl)
    rintro (h | ⟨_, _, hcond⟩) e after hcall
    . exact absurd h hfilled
    rw [Option.map_eq_some_iff] at hcall
    have ⟨r, hregister, hr⟩ := hcall
    have ⟨hres, hafter⟩ := Prod.mk.inj hr
    rw [← hafter]
    by_cases hroom : Room s.htab key
    . exact (unchanged_register hv hk hroom habsent ht hregister).2 e hres
    exfalso
    have hrejects := hcond.resolve_left hroom
    rw [(hfull hroom).1] at hregister
    rcases register_cases hk hregister with ⟨_, _, _, hrej, _⟩ | ⟨hres', _, _⟩
    . exact hrejects hrej
    . have hres : r.1 = .error e := hres
      rw [hres] at hres'
      contradiction
  rw [hfailed hfilled hok]
  constructor
  . intro h
    exfalso
    apply not_unchanged_of_null hmem.1 hmem.2 _ _ (h _ _ rfl)
    . dsimp only [setSlot]
      rw [update_self]
      exact Int.natCast_pos.mpr hpos
    dsimp only [setSlot]
    rw [update_self]
    cases keyOk with
    | false => exact .inl rfl
    | true =>
      cases dataOk with
      | false => exact .inr rfl
      | true => exact absurd ⟨rfl, rfl⟩ hok
  . rintro (h | ⟨hkey, hdata, _⟩)
    . exact absurd h hfilled
    . exact absurd ⟨hkey, hdata⟩ hok

structure Meets (hooks : Hooks σ) (keyOk dataOk : Bool) (key data : CStr) (flag : Nat) (s : State σ) : Prop where
  overwrite : ∀ idx v, cells s.htab idx = .live key v → dataOk = true ∨ ¬Overwrites hooks key data flag idx s
  create : (∀ idx v, cells s.htab idx ≠ .live key v) →
    s.htab.filled = s.htab.size ∨ (keyOk = true ∧ dataOk = true ∧ Room s.htab key)

-- The tables of the runs in which each ENTER, those before the last one too, meets the condition.
inductive Reached (hooks : Hooks σ) : State σ → Prop
  | create {nel : Nat} {htab : HsearchData} {statics : σ} (h : hcreateR nel = some htab) (hsize : 5 ≤ htab.size)
    : Reached hooks ⟨htab, statics⟩
  | enter {s s' : State σ} {keyOk dataOk : Bool} {key data : CStr} {flag : Nat} {res : Result} (hs : Reached hooks s)
      (hmeets : Meets hooks keyOk dataOk key data flag s)
      (h : hsearchAllocR hooks keyOk dataOk key data flag s = some (res, s'.toNull))
    : Reached hooks s'
  | delete {s s' : State σ} {key : CStr} {flag : Nat} {res : Except Errno Unit} (hs : Reached hooks s)
      (h : hdeleteR hooks key flag s = some (res, s'))
    : Reached hooks s'
  | walk {s s' : State σ} (hs : Reached hooks s) (h : Same s.htab s'.htab) : Reached hooks s'

lemma toNull_injective {htab' : HsearchData} (h : htab.toNull = htab'.toNull) : htab = htab' := by
  have ⟨htable, hsize, hfilled⟩ := mk.inj h
  have htable : htab.table = htab'.table := by
    funext i
    have ⟨hused, hentry⟩ := NullSlot.mk.inj (congrFun htable i)
    have ⟨hkey, hdata, hflags⟩ := NullEntry.mk.inj hentry
    have hslot (slot slot' : Slot) (h1 : slot.used = slot'.used) (h2 : slot.entry.key = slot'.entry.key)
        (h3 : slot.entry.data = slot'.entry.data) (h4 : slot.entry.flags = slot'.entry.flags) : slot = slot' := by
      cases slot with
      | mk used entry =>
        cases entry with
        | mk key data flags =>
          dsimp only at h1 h2 h3 h4
          rw [h1, h2, h3, h4]
    exact hslot _ _ hused (Option.some_inj.mp hkey) (Option.some_inj.mp hdata) hflags
  cases htab with
  | mk table size filled =>
    dsimp only [HsearchData.toNull] at htable hsize hfilled
    rw [htable, hsize, hfilled]

lemma Valid.hsearchAllocR (hv : Valid s.htab) (hk : Keeps hooks) (hmeets : Meets hooks keyOk dataOk key data flag s)
    (h : hsearchAllocR hooks keyOk dataOk key data flag s = some (res, s'.toNull)) : Valid s'.htab := by
  have hself (h : s'.toNull = s.toNull) : Valid s'.htab := by
    rw [toNull_injective (NullState.mk.inj h).1]
    exact hv
  by_cases hlive : ∃ idx v, cells s.htab idx = .live key v
  . have ⟨idx, v, hlive⟩ := hlive
    rw [hsearchAllocR_of_live hv hlive] at h
    rcases overwriteAlloc_cases hk h with heq | ⟨hover, s1, hsame, ⟨_, _, hafter⟩ | ⟨hdata, _, _⟩⟩
    . exact hself heq
    . rw [toNull_injective (NullState.mk.inj hafter).1]
      have hlive' : cells s1.htab idx = .live key v := by
        rw [hsame.cells_eq]
        exact hlive
      exact (hv.same hsame).setData hlive'
    cases hmeets.overwrite idx v hlive with
    | inl htrue =>
      rw [hdata] at htrue
      contradiction
    | inr hno => exact absurd hover hno
  have habsent : ∀ i v, cells s.htab i ≠ .live key v := fun i v h => hlive ⟨i, v, h⟩
  have ⟨idx, ht, _, henomem, hcopied, _⟩ := @hsearchAllocR_of_absent σ hooks s _ data flag keyOk dataOk hv habsent
  by_cases hfilled : s.htab.filled = s.htab.size
  . rw [henomem hfilled] at h
    exact hself (Prod.mk.inj (Option.some_inj.mp h)).2.symm
  have ⟨hkey, hdata, hroom⟩ := (hmeets.create habsent).resolve_left hfilled
  rw [hcopied hfilled ⟨hkey, hdata⟩, Option.map_eq_some_iff] at h
  have ⟨r, hregister, hr⟩ := h
  rw [← toNull_injective (NullState.mk.inj (Prod.mk.inj hr).2).1]
  exact (unchanged_register hv hk hroom habsent ht hregister).1

lemma Valid.hdeleteR (hv : Valid s.htab) (hk : Keeps hooks) {res : Except Errno Unit}
    (h : hdeleteR hooks key flag s = some (res, s')) : Valid s'.htab := by
  have ⟨map, hs⟩ := hv.exists_stands s.statics
  unfold Hashtable.hdeleteR at h
  rcases hs.find hooks key 0 with ⟨idx, hfind, v, hlive, _⟩ | ⟨hfind, _⟩
  . rw [hfind] at h
    dsimp only at h
    split at h
    next =>
      cases h
      exact hv
    next =>
    cases hcallback : hooks.callback s.statics s.htab key none .delete flag with
    | none =>
      rw [hcallback] at h
      contradiction
    | some r =>
      rw [hcallback] at h
      cases r with
      | none =>
        cases h
        exact hv
      | some after =>
        cases h
        have hsame := hk _ _ _ _ _ _ _ hcallback
        have hlive' : cells after.1 idx = .live key v := by
          rw [hsame.cells_eq]
          exact hlive
        exact (hv.same hsame).deleteSlot hlive'
  . rw [hfind] at h
    cases h
    exact hv

lemma Reached.valid (hk : Keeps hooks) (h : Reached hooks s) : Valid s.htab := by
  induction h with
  | @create _ _ _ h hsize => exact (hcreateR_stands h hsize).valid
  | enter _ hmeets h ih => exact ih.hsearchAllocR hk hmeets h
  | delete _ h ih => exact ih.hdeleteR hk h
  | walk _ h ih => exact ih.same h

theorem hsearch_atomic_iff (hk : Keeps hooks) (hs : Reached hooks s) (keyOk dataOk : Bool) (key data : CStr) (flag : Nat)
    : Atomic hooks keyOk dataOk key data flag s ↔ Undoes hooks keyOk dataOk key data flag s := by
  have hv := hs.valid hk
  by_cases hlive : ∃ idx v, cells s.htab idx = .live key v
  . have ⟨idx, v, hlive⟩ := hlive
    rw [atomic_of_live hv hk hlive]
    constructor
    . intro h
      refine ⟨?_, fun habsent => absurd hlive (habsent idx v)⟩
      intro idx' v' hlive'
      rw [hv.wellFormed.unique hlive' hlive]
      exact h
    . intro h
      exact h.overwrite idx v hlive
  . have habsent : ∀ i v, cells s.htab i ≠ .live key v := fun i v h => hlive ⟨i, v, h⟩
    rw [atomic_of_absent hv hk habsent]
    exact ⟨fun h => ⟨fun idx v hlive => absurd hlive (habsent idx v), fun _ => h⟩, fun h => h.create habsent⟩

end

def oneEntry : HsearchData := (insertSlot fiveSlots 3 3 [97] [49]).setFlags 3 0

section

variable {hooks : Hooks Unit} {s s' : State Unit} {key data : CStr} {flag : Nat}

lemma reached_fiveSlots : Reached hooks ⟨fiveSlots, ()⟩ := .create hcreateR_five (le_refl 5)

lemma Reached.enterRoom (hs : Reached hooks s) (hroom : Room s.htab key)
    (h : hsearchR hooks key (.enter data) flag s = some (res, s')) : Reached hooks s' := by
  have hmeets : Meets hooks true true key data flag s :=
    ⟨fun _ _ _ => .inl rfl, fun _ => .inr ⟨rfl, rfl, hroom⟩⟩
  have hcall : hsearchAllocR hooks true true key data flag s = some (res, s'.toNull) := by
    rw [hsearchAllocR_true, h]
    rfl
  exact .enter hs hmeets hcall

end

lemma reached_oneEntry : Reached plainHooks ⟨oneEntry, ()⟩ := by
  have hcall : hsearchR plainHooks [97] (.enter [49]) 0 ⟨fiveSlots, ()⟩ = some (.ok (1, 3), ⟨oneEntry, ()⟩) := rfl
  exact reached_fiveSlots.enterRoom (.inl ⟨1, by decide, by decide, rfl⟩) hcall

def strictHooks : Hooks Unit := { plainHooks with changeOk := fun _ data _ _ => data ≠ some [33] }

def reusedSlot : HsearchData :=
  let collided := (insertSlot oneEntry 3 2 [102] [50]).setFlags 2 0
  (insertSlot (deleteSlot collided 3) 3 3 [107] [51]).setFlags 3 0

lemma strictHooks_keeps : Keeps strictHooks := by
  intro statics htab key data op flag after h
  cases h
  exact .refl

lemma reached_reusedSlot : Reached strictHooks ⟨reusedSlot, ()⟩ := by
  have ha : hsearchR strictHooks [97] (.enter [49]) 0 ⟨fiveSlots, ()⟩ = some (.ok (1, 3), ⟨oneEntry, ()⟩) := rfl
  have hf : hsearchR strictHooks [102] (.enter [50]) 0 ⟨oneEntry, ()⟩
      = some (.ok (1, 2), ⟨(insertSlot oneEntry 3 2 [102] [50]).setFlags 2 0, ()⟩) := rfl
  have hdelete : hdeleteR strictHooks [97] 0 ⟨(insertSlot oneEntry 3 2 [102] [50]).setFlags 2 0, ()⟩
      = some (.ok (), ⟨deleteSlot ((insertSlot oneEntry 3 2 [102] [50]).setFlags 2 0) 3, ()⟩) := rfl
  have hk : hsearchR strictHooks [107] (.enter [51]) 0
      ⟨deleteSlot ((insertSlot oneEntry 3 2 [102] [50]).setFlags 2 0) 3, ()⟩
      = some (.ok (1, 3), ⟨reusedSlot, ()⟩) := rfl
  have hone : Reached strictHooks ⟨oneEntry, ()⟩ :=
    reached_fiveSlots.enterRoom (.inl ⟨1, by decide, by decide, rfl⟩) ha
  have hdeleted := Reached.delete (hone.enterRoom (.inl ⟨1, by decide, by decide, rfl⟩) hf) hdelete
  exact hdeleted.enterRoom (.inr rfl) hk

-- "k" is in the slot that "a" has left, "f" behind it. The new value "!" of "f" is refused.
theorem hsearch_atomic_fiveSlots
    : Keeps strictHooks ∧ Reached strictHooks ⟨reusedSlot, ()⟩
      ∧ hsearchAllocR strictHooks true true [102] [33] 0 ⟨reusedSlot, ()⟩
        = some (.error .eperm, State.toNull ⟨reusedSlot, ()⟩)
      ∧ Atomic strictHooks true true [102] [33] 0 ⟨reusedSlot, ()⟩ := by
  refine ⟨strictHooks_keeps, reached_reusedSlot, rfl, ?_⟩
  apply (hsearch_atomic_iff strictHooks_keeps reached_reusedSlot true true [102] [33] 0).mpr
  exact ⟨fun _ _ _ => .inl rfl, fun habsent => absurd rfl (habsent 2 [50])⟩

-- The new data of "a" cannot be copied, the old data are lost.
theorem not_atomic_freed
    : Reached plainHooks ⟨oneEntry, ()⟩ ∧ ¬Atomic plainHooks true false [97] [50] 0 ⟨oneEntry, ()⟩ := by
  refine ⟨reached_oneEntry, ?_⟩
  intro h
  have hcall : hsearchAllocR plainHooks true false [97] [50] 0 ⟨oneEntry, ()⟩
      = some (.error .enomem, ⟨oneEntry.toNull.setData 3 none, ()⟩) := rfl
  have hentries := (h _ _ hcall).entries
  contradiction

end UBoot.Hashtable
