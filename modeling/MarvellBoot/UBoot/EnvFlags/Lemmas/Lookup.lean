import MarvellBoot.UBoot.EnvFlags.Impl
import MarvellBoot.UBoot.Hashtable.Lemmas.Map

namespace UBoot.EnvFlags

open Hashtable OpenAddressing List

abbrev AttrEntry := CStr × Option CStr

def entriesOf : Option CStr → List AttrEntry
  | none => []
  | some attrList => attrEntries attrList

def lastAttr (entries : List AttrEntry) (found : Option CStr) : Option CStr :=
  entries.foldl (fun _ entry => entry.2) found

variable {entries : List AttrEntry} {found : Option CStr}

section

variable {slre : CStr → CStr → Option Bool} {name : CStr}

def describing (slre : CStr → CStr → Option Bool) (attrList : Option CStr) (name : CStr) : List AttrEntry :=
  (entriesOf attrList).filter fun entry => slre entry.1 name = some true

def Readable (slre : CStr → CStr → Option Bool) (attrList : Option CStr) (name : CStr) : Prop :=
  ∀ entry ∈ entriesOf attrList, (slre entry.1 name).isSome = true
    ∧ (slre entry.1 name = some true → ∃ a, entry.2 = some a ∧ a.length ≤ envFlagsAttrMaxLen)

def Plain (slre : CStr → CStr → Option Bool) (attrList : Option CStr) (name : CStr) : Prop :=
  Readable slre attrList name ∧ ∀ entry ∈ entriesOf attrList, slre entry.1 name = some true ↔ entry.1 = name

def Described (slre : CStr → CStr → Option Bool) (name : CStr) (entry : AttrEntry) : Prop :=
  (slre entry.1 name).isSome = true ∧ (slre entry.1 name = some true → entry.2.isSome = true)

lemma walkEntries_regexCallback_iff {res : Option CStr}
    : walkEntries (regexCallback slre name) entries found = some (0, res)
      ↔ (∀ entry ∈ entries, Described slre name entry)
        ∧ lastAttr (entries.filter fun entry => slre entry.1 name = some true) found = res := by
  induction entries generalizing found with
  | nil => simp [walkEntries, lastAttr]
  | cons entry entries ih =>
    rw [forall_mem_cons]
    simp only [walkEntries, regexCallback]
    cases hb : slre entry.1 name with
    | none => simp [Described, hb, einval]
    | some b =>
      cases b with
      | false =>
        rw [filter_cons_of_neg (by simp [hb])]
        simpa [Described, hb] using ih
      | true =>
        rw [filter_cons_of_pos (by simp [hb]), lastAttr, foldl_cons]
        cases ha : entry.2 with
        | none => simp [Described, hb, ha]
        | some a => simpa [Described, hb, ha, lastAttr] using ih

lemma lastAttr_length {a : CStr}
    (h : ∀ entry ∈ entries, ∃ a, entry.2 = some a ∧ a.length ≤ envFlagsAttrMaxLen)
    (hfound : ∀ a, found = some a → a.length ≤ envFlagsAttrMaxLen) (ha : lastAttr entries found = some a)
    : a.length ≤ envFlagsAttrMaxLen := by
  induction entries generalizing found with
  | nil => exact hfound a ha
  | cons entry entries ih =>
    apply ih (fun e he => h e (mem_cons_of_mem entry he)) _ ha
    intro a' ha'
    dsimp only at ha'
    have ⟨b, hb, hlen⟩ := h entry mem_cons_self
    rw [hb] at ha'
    cases ha'
    exact hlen

lemma lastAttr_eq_or
    (h : ∀ entry ∈ entries, ∃ a, entry.2 = some a ∧ a.length ≤ envFlagsAttrMaxLen)
    : lastAttr entries found = (lastAttr entries none).or found := by
  induction entries generalizing found with
  | nil => rfl
  | cons entry entries ih =>
    have ⟨a, ha, _⟩ := h entry mem_cons_self
    have hrest := fun e he => h e (mem_cons_of_mem entry he)
    change lastAttr entries entry.2 = (lastAttr entries entry.2).or found
    rw [ih hrest, ha]
    cases lastAttr entries none with
    | none => rfl
    | some b => rfl

lemma Readable.of_describing {attrList : Option CStr} (h : Readable slre attrList name)
    : ∀ entry ∈ describing slre attrList name, ∃ a, entry.2 = some a ∧ a.length ≤ envFlagsAttrMaxLen := by
  intro entry hmem
  have ⟨hin, hmatch⟩ := mem_filter.mp hmem
  exact (h entry hin).2 (by simpa using hmatch)

lemma Readable.described {attrList : Option CStr} (h : Readable slre attrList name)
    : ∀ entry ∈ entriesOf attrList, Described slre name entry := by
  intro entry hentry
  refine ⟨(h entry hentry).1, ?_⟩
  intro hmatch
  have ⟨a, ha, _⟩ := (h entry hentry).2 hmatch
  rw [ha]
  rfl

lemma envAttrLookup_eq {attrList : CStr} (h : Readable slre (some attrList) name)
    : envAttrLookup slre attrList name = some (lastAttr (describing slre (some attrList) name) none) := by
  have hwalk : walkEntries (regexCallback slre name) (attrEntries attrList) none
      = some (0, lastAttr (describing slre (some attrList) name) none) :=
    walkEntries_regexCallback_iff.mpr ⟨h.described, rfl⟩
  have hlength {a : CStr} (ha : lastAttr (describing slre (some attrList) name) none = some a)
      : a.length ≤ envFlagsAttrMaxLen :=
    lastAttr_length h.of_describing (by simp) ha
  unfold envAttrLookup envAttrWalk
  dsimp only
  rw [hwalk]
  cases hlast : lastAttr (describing slre (some attrList) name) none with
  | none => rfl
  | some a => simp [hlength hlast]

lemma envFlagsLookup_eq {listStatic : CStr} {flagsList : Option CStr} (h : Readable slre flagsList name)
    (hstatic : Readable slre (some listStatic) name)
    : envFlagsLookup slre listStatic flagsList name
      = some ((lastAttr (describing slre flagsList name) none).or
        (lastAttr (describing slre (some listStatic) name) none)) := by
  have hlist := envAttrLookup_eq hstatic
  cases flagsList with
  | none => exact hlist
  | some flagsList =>
    unfold envFlagsLookup
    dsimp only
    rw [envAttrLookup_eq h, hlist]
    cases lastAttr (describing slre (some flagsList) name) none with
    | none => rfl
    | some a => rfl

end

def lookupFlags (slre : CStr → CStr → Option Bool) (listStatic : CStr) (flagsList : Option CStr) (name : CStr)
    : Option Nat :=
  (envFlagsLookup slre listStatic flagsList name).map attrFlags

def foldFlags (entries : List AttrEntry) (flags : Nat) : Nat := entries.foldl (fun _ entry => attrFlags entry.2) flags

lemma foldFlags_eq {flags : Nat}
    (h : ∀ entry ∈ entries, ∃ a, entry.2 = some a ∧ a.length ≤ envFlagsAttrMaxLen)
    (hflags : flags = attrFlags found) : foldFlags entries flags = attrFlags (lastAttr entries found) := by
  induction entries generalizing flags found with
  | nil => exact hflags
  | cons entry entries ih =>
    exact ih (fun e he => h e (mem_cons_of_mem entry he)) rfl

section

variable {htab htab' : HsearchData} {entries : List AttrEntry}

structure Flagged (htab htab' : HsearchData) (new : CStr → Nat → Nat) : Prop where
  same : Same htab htab'
  live : ∀ {idx k v}, cells htab idx = .live k v → (htab'.table idx).entry.flags = new k (htab.table idx).entry.flags
  dead : ∀ {idx}, (∀ k v, cells htab idx ≠ .live k v) → (htab'.table idx).entry.flags = (htab.table idx).entry.flags

lemma Flagged.trans {htab'' : HsearchData} {new new' : CStr → Nat → Nat} (h : Flagged htab htab' new)
    (h' : Flagged htab' htab'' new') : Flagged htab htab'' fun k flags => new' k (new k flags) := by
  refine ⟨h.same.trans h'.same, ?_, ?_⟩
  . intro idx k v hlive
    rw [h'.live (by rw [h.same.cells_eq]; exact hlive), h.live hlive]
  . intro idx hdead
    rw [h'.dead (by rw [h.same.cells_eq]; exact hdead), h.dead hdead]

lemma flags_setFlags (htab : HsearchData) (idx idx' flags : Nat)
    : ((htab.setFlags idx flags).table idx').entry.flags
      = if idx' = idx then flags else (htab.table idx').entry.flags := by
  unfold HsearchData.setFlags HsearchData.setSlot
  dsimp only
  split
  . next h =>
    rw [h, Function.update_self]
  . next h =>
    rw [Function.update_of_ne h]

lemma setFlags_spec (hv : Valid htab) (name : CStr) (value : Option CStr)
    : ∃ htab', setFlags name value htab = some (0, htab')
      ∧ Flagged htab htab' fun k flags => if k = name then attrFlags value else flags := by
  have ⟨map, hs⟩ := hv.exists_stands ()
  unfold setFlags
  rcases hs.find plainHooks name 0 with ⟨idx, hfind, v, hlive, _⟩ | ⟨hfind, hnone⟩
  . rw [hfind]
    refine ⟨_, rfl, same_setFlags, ?_, ?_⟩
    . intro idx' k v' hlive'
      rw [flags_setFlags]
      by_cases hk : k = name
      . rw [hk] at hlive'
        rw [if_pos hk, if_pos (hv.wellFormed.unique hlive' hlive)]
      rw [if_neg hk, if_neg]
      intro hidx
      rw [hidx, hlive] at hlive'
      cases hlive'
      contradiction
    intro idx' hdead
    rw [flags_setFlags, if_neg]
    intro hidx
    rw [hidx] at hdead
    exact hdead _ _ hlive
  rw [hfind]
  refine ⟨htab, rfl, .refl, ?_, fun _ => rfl⟩
  intro idx k v hlive
  rw [if_neg]
  intro hk
  rw [hk] at hlive
  exact hs.represents.eq_none_iff.mp hnone idx v hlive

lemma walkEntries_setFlags (hv : Valid htab) (entries : List AttrEntry)
    : ∃ htab', walkEntries setFlags entries htab = some (0, htab')
      ∧ Flagged htab htab' fun k flags => foldFlags (entries.filter fun entry => entry.1 = k) flags := by
  induction entries generalizing htab with
  | nil => exact ⟨htab, rfl, .refl, fun _ => rfl, fun _ => rfl⟩
  | cons entry entries ih =>
    have ⟨htab1, hset, hf⟩ := setFlags_spec hv entry.1 entry.2
    have ⟨htab', hwalk, hf'⟩ := ih (hv.same hf.same)
    refine ⟨htab', ?_, ?_⟩
    . rw [walkEntries, hset]
      exact hwalk
    have htrans := hf.trans hf'
    refine ⟨htrans.same, ?_, htrans.dead⟩
    intro idx k v hlive
    rw [htrans.live hlive]
    by_cases hk : k = entry.1
    . rw [if_pos hk, filter_cons_of_pos (by simp [hk])]
      rfl
    . rw [if_neg hk, filter_cons_of_neg (by simpa using fun h => hk h.symm)]

lemma walkSlots_clearFlags (slots : List Nat) (htab : HsearchData)
    : ∃ htab', walkSlots clearFlags slots htab = (0, htab') ∧ Same htab htab'
      ∧ ∀ idx, (htab'.table idx).entry.flags
        = if idx ∈ slots ∧ 0 < (htab.table idx).used then 0 else (htab.table idx).entry.flags := by
  induction slots generalizing htab with
  | nil => exact ⟨htab, rfl, .refl, by simp⟩
  | cons i slots ih =>
    rw [walkSlots]
    by_cases hused : 0 < (htab.table i).used
    . have ⟨htab', hwalk, hsame, hflags⟩ := ih (htab.setFlags i 0)
      refine ⟨htab', ?_, same_setFlags.trans hsame, ?_⟩
      . rw [if_pos hused]
        exact hwalk
      intro idx
      rw [hflags idx, flags_setFlags, same_setFlags.used_eq]
      by_cases hi : idx = i
      . simp [hi, hused]
      . simp [hi]
    have ⟨htab', hwalk, hsame, hflags⟩ := ih htab
    refine ⟨htab', ?_, hsame, ?_⟩
    . rw [if_neg hused]
      exact hwalk
    intro idx
    rw [hflags idx]
    by_cases hi : idx = i
    . rw [hi]
      simp [hused]
    . simp [hi]

lemma hwalkR_clearFlags (hv : Valid htab)
    : ∃ htab', hwalkR htab clearFlags = (0, htab') ∧ Flagged htab htab' fun _ _ => 0 := by
  have ⟨htab', hwalk, hsame, hflags⟩ := walkSlots_clearFlags (range' 1 htab.size) htab
  refine ⟨htab', hwalk, hsame, ?_, ?_⟩
  . intro idx k v hlive
    have hmem := Finset.mem_Icc.mp (hv.mem_Icc hlive)
    have hused := hv.used_eq hlive
    have hpos : 0 < hval1 htab.size k := hval1_pos k
    rw [hflags idx, if_pos]
    exact ⟨mem_range'_1.mpr (by omega), by omega⟩
  intro idx hdead
  rw [hflags idx, if_neg]
  intro ⟨_, hused⟩
  exact hdead _ _ (cell_eq_live_iff.mpr ⟨by omega, by omega, rfl, rfl⟩)

def listFlags (listStatic : CStr) (value : Option CStr) (k : CStr) : Nat :=
  foldFlags ((entriesOf value).filter fun entry => entry.1 = k)
    (foldFlags ((entriesOf (some listStatic)).filter fun entry => entry.1 = k) 0)

lemma onFlags_spec (hv : Valid htab) (listStatic : CStr) (value : Option CStr)
    : ∃ htab', onFlags listStatic value htab = some htab'
      ∧ Flagged htab htab' fun k _ => listFlags listStatic value k := by
  have ⟨htab1, hclear, hf1⟩ := hwalkR_clearFlags hv
  have ⟨htab2, hstatic, hf2⟩ := walkEntries_setFlags (hv.same hf1.same) (attrEntries listStatic)
  have hf12 := hf1.trans hf2
  have ⟨htab3, hvalue, hf3⟩ := walkEntries_setFlags (hv.same hf12.same) (entriesOf value)
  have hf := hf12.trans hf3
  refine ⟨htab3, ?_, hf.same, hf.live, hf.dead⟩
  rw [onFlags, hclear]
  dsimp only [envAttrWalk]
  rw [hstatic]
  cases value with
  | none =>
    cases hvalue
    rfl
  | some value =>
    dsimp only [entriesOf] at hvalue ⊢
    rw [hvalue]

end

section

variable {slre : CStr → CStr → Option Bool} {listStatic name : CStr} {value : Option CStr}

lemma Plain.filter_eq (h : Plain slre value name)
    : (entriesOf value).filter (fun entry => entry.1 = name) = describing slre value name := by
  apply filter_congr
  intro entry hmem
  simp [h.2 entry hmem]

lemma lookupFlags_of_plain (hstatic : Plain slre (some listStatic) name) (hvalue : Plain slre value name)
    : lookupFlags slre listStatic value name = some (listFlags listStatic value name) := by
  have hfirst : foldFlags (describing slre (some listStatic) name) 0
      = attrFlags (lastAttr (describing slre (some listStatic) name) none) :=
    foldFlags_eq hstatic.1.of_describing rfl
  rw [lookupFlags, envFlagsLookup_eq hvalue.1 hstatic.1, listFlags, hstatic.filter_eq, hvalue.filter_eq,
    hfirst, foldFlags_eq hvalue.1.of_describing rfl, ← lastAttr_eq_or hvalue.1.of_describing]
  rfl

lemma envFlagsInit_eq {statics : Statics} {htab : HsearchData} {entry : Entry} (hfirst : statics.firstCall = false)
    (hread : statics.readList = some statics.flagsList) (hzero : entry.flags = 0)
    (h : Readable slre statics.flagsList entry.key)
    (hstatic : Readable slre (some listStatic) entry.key)
    : ∃ flags, envFlagsInit slre listStatic statics htab entry = some (flags, statics)
      ∧ lookupFlags slre listStatic statics.flagsList entry.key = some flags := by
  have hlookup := envFlagsLookup_eq h hstatic
  unfold envFlagsInit lookupFlags
  simp only [hfirst, hread, hlookup, Bool.false_eq_true, if_false]
  cases (lastAttr (describing slre statics.flagsList entry.key) none).or
      (lastAttr (describing slre (some listStatic) entry.key) none) with
  | none => exact ⟨entry.flags, rfl, by rw [hzero]; rfl⟩
  | some flags =>
    refine ⟨_, rfl, ?_⟩
    rw [hzero]
    simp [attrFlags]

end

end UBoot.EnvFlags
