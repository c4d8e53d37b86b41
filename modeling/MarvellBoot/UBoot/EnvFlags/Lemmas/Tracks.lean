import MarvellBoot.UBoot.EnvFlags.Lemmas.Lookup

namespace UBoot.EnvFlags

open Hashtable OpenAddressing Function

variable {map : CStr → Option CStr} {statics : Statics}

def Clean (htab : HsearchData) : Prop := ∀ idx, (∀ k v, cells htab idx ≠ .live k v) → (htab.table idx).entry.flags = 0

structure Tracks (slre : CStr → CStr → Option Bool) (listStatic : CStr) (htab : HsearchData)
    (cur : Option CStr) : Prop where
  live : ∀ {idx k v}, cells htab idx = .live k v → lookupFlags slre listStatic cur k = some (htab.table idx).entry.flags
  clean : Clean htab

/--
The condition on one call.
* A new variable has room in the table, its name can be looked up, and the list that is kept from the first call
  is still there and says the same of it as the value of `.flags`.
* For a change of `.flags` the names of all variables are written out in the lists.
-/
def Meets (slre : CStr → CStr → Option Bool) (listStatic : CStr) (s : State Statics) : Call → Prop
  | .enter key data _ =>
    ((∃ idx v, cells s.htab idx = .live key v)
      ∨ (Room s.htab key ∧ s.statics.readList = some s.statics.flagsList
        ∧ Readable slre s.statics.flagsList key ∧ Readable slre (some listStatic) key
        ∧ (key ≠ envFlagsVar → Readable slre (getenv s.htab envFlagsVar) key
          ∧ describing slre s.statics.flagsList key = describing slre (getenv s.htab envFlagsVar) key)))
    ∧ (key = envFlagsVar → ∀ k, (k = envFlagsVar ∨ ∃ idx v, cells s.htab idx = .live k v) →
      Plain slre (some listStatic) k ∧ Plain slre (some data) k)
  | .delete key _ =>
    key = envFlagsVar → ∀ idx k v, cells s.htab idx = .live k v → Plain slre (some listStatic) k
  | .find _ => True

section

variable {slre : CStr → CStr → Option Bool} {listStatic key data : CStr} {htab htab' : HsearchData}
  {cur : Option CStr} {idx : Nat}

lemma getenv_eq {σ : Type} {statics : σ} (hs : Stands ⟨htab, statics⟩ map)
    (name : CStr) : getenv htab name = map name := by
  have hs' : Stands ⟨htab, ()⟩ map := ⟨hs.valid, hs.represents⟩
  unfold getenv
  rcases hs'.find plainHooks name 0 with ⟨idx, hfind, v, hlive, hmap⟩ | ⟨hfind, hmap⟩
  . rw [hfind, hmap]
    dsimp only
    rw [(cell_eq_live_iff.mp hlive).2.2.2]
  . rw [hfind, hmap]

lemma flags_setSlot (htab : HsearchData) (idx idx' : Nat) (slot : Slot)
    : ((htab.setSlot idx slot).table idx').entry.flags
      = if idx' = idx then slot.entry.flags else (htab.table idx').entry.flags := by
  unfold HsearchData.setSlot
  dsimp only
  split
  . next h =>
    rw [h, update_self]
  . next h =>
    rw [update_of_ne h]

section

variable {cell : Cell CStr CStr} {flags : Nat}

lemma Clean.update (hc : Clean htab) (hcells : cells htab' = Function.update (cells htab) idx cell)
    (hflags : ∀ i, (htab'.table i).entry.flags = if i = idx then flags else (htab.table i).entry.flags)
    (hdead : (∀ k v, cell ≠ .live k v) → flags = 0) : Clean htab' := by
  intro i hnot
  rw [hcells] at hnot
  rw [hflags]
  by_cases hi : i = idx
  . rw [hi, update_self] at hnot
    rw [if_pos hi, hdead hnot]
  . rw [update_of_ne hi] at hnot
    rw [if_neg hi, hc i hnot]

lemma Tracks.update (ht : Tracks slre listStatic htab cur)
    (hcells : cells htab' = Function.update (cells htab) idx cell)
    (hflags : ∀ i, (htab'.table i).entry.flags = if i = idx then flags else (htab.table i).entry.flags)
    (hlive : ∀ k v, cell = .live k v → lookupFlags slre listStatic cur k = some flags)
    (hdead : (∀ k v, cell ≠ .live k v) → flags = 0) : Tracks slre listStatic htab' cur := by
  refine ⟨?_, ht.clean.update hcells hflags hdead⟩
  intro i k v h
  rw [hcells] at h
  rw [hflags]
  by_cases hi : i = idx
  . rw [hi, update_self] at h
    rw [if_pos hi, hlive k v h]
  . rw [update_of_ne hi] at h
    rw [if_neg hi, ht.live h]

lemma Tracks.setData {v : CStr} (ht : Tracks slre listStatic htab cur) (hlive : cells htab idx = .live key v)
    : Tracks slre listStatic (htab.setData idx data) cur := by
  refine ht.update (cells_setData data hlive) (fun i => flags_setSlot htab idx i _) ?_ ?_
  . rintro k v' ⟨⟩
    exact ht.live hlive
  . intro hnot
    exact absurd rfl (hnot key data)

lemma Tracks.deleteSlot (ht : Tracks slre listStatic htab cur)
    : Tracks slre listStatic (Hashtable.deleteSlot htab idx) cur :=
  ht.update cells_deleteSlot (fun i => flags_setSlot htab idx i _) nofun fun _ => rfl

def inserted (htab : HsearchData) (idx : Nat) (key data : CStr) (flags : Nat) : HsearchData :=
  (Hashtable.insertSlot htab (hval1 htab.size key) idx key data).setFlags idx flags

lemma cells_inserted : cells (inserted htab idx key data flags) = update (cells htab) idx (.live key data) := by
  rw [inserted, same_setFlags.cells_eq, cells_insertSlot]

lemma flags_inserted (idx' : Nat)
    : ((inserted htab idx key data flags).table idx').entry.flags
      = if idx' = idx then flags else (htab.table idx').entry.flags := by
  rw [inserted, flags_setFlags]
  split
  . rfl
  . next hi =>
    change ((htab.setSlot idx _).table idx').entry.flags = _
    rw [flags_setSlot, if_neg hi]

lemma Clean.inserted (hc : Clean htab) : Clean (EnvFlags.inserted htab idx key data flags) :=
  hc.update cells_inserted flags_inserted fun hnot => absurd rfl (hnot key data)

lemma Tracks.inserted (ht : Tracks slre listStatic htab cur)
    (hflags : lookupFlags slre listStatic cur key = some flags)
    : Tracks slre listStatic (EnvFlags.inserted htab idx key data flags) cur := by
  refine ht.update cells_inserted flags_inserted ?_ fun hnot => absurd rfl (hnot key data)
  rintro k v ⟨⟩
  exact hflags

lemma Tracks.rejected (ht : Tracks slre listStatic htab cur)
    : Tracks slre listStatic (Hashtable.deleteSlot (EnvFlags.inserted htab idx key data flags) idx) cur := by
  have hcells : cells (Hashtable.deleteSlot (EnvFlags.inserted htab idx key data flags) idx)
      = Function.update (cells htab) idx .deleted := by
    rw [cells_deleteSlot, cells_inserted, update_idem]
  refine ht.update hcells ?_ nofun fun _ => rfl
  intro idx'
  change (((EnvFlags.inserted htab idx key data flags).setSlot idx _).table idx').entry.flags = _
  rw [flags_setSlot, flags_inserted]
  split
  . rfl
  . rfl

end

lemma Tracks.flagged {value : Option CStr} (hc : Clean htab)
    (hf : Flagged htab htab' fun k _ => listFlags listStatic value k)
    (hplain : ∀ idx k v, cells htab idx = .live k v → Plain slre (some listStatic) k ∧ Plain slre value k)
    : Tracks slre listStatic htab' value := by
  constructor
  . intro idx k v hlive
    rw [hf.same.cells_eq] at hlive
    have ⟨hstatic, hvalue⟩ := hplain idx k v hlive
    rw [hf.live hlive, lookupFlags_of_plain hstatic hvalue]
  intro idx hnot
  rw [hf.same.cells_eq] at hnot
  rw [hf.dead hnot]
  exact hc idx hnot

end

structure Kept (slre : CStr → CStr → Option Bool) (listStatic : CStr) (s : State Statics) : Prop where
  valid : Valid s.htab
  firstCall : s.statics.firstCall = false
  tracks : Tracks slre listStatic s.htab (getenv s.htab envFlagsVar)

section

variable {slre : CStr → CStr → Option Bool} {listStatic key data : CStr}
  {changeOk : Entry → Option CStr → EnvOp → Nat → Bool} {rejects : CStr → Option CStr → EnvOp → Nat → Bool}
  {s : State Statics} {flag idx : Nat} {v : CStr} {htab : HsearchData}

lemma kept_of_stands (hs : Stands ⟨htab, statics⟩ map) (hfirst : statics.firstCall = false)
    (ht : Tracks slre listStatic htab (map envFlagsVar)) : Kept slre listStatic ⟨htab, statics⟩ := by
  refine ⟨hs.valid, hfirst, ?_⟩
  rw [getenv_eq hs]
  exact ht

lemma firstCall_release (statics : Statics) (op : EnvOp) : (statics.release op).firstCall = statics.firstCall := by
  unfold Statics.release
  split
  . rfl
  . rfl

lemma callback_spec {map : CStr → Option CStr} (hv : Valid htab) (hc : Clean htab) (statics : Statics)
    (value : Option CStr) (op : EnvOp) (hother : key ≠ envFlagsVar → Tracks slre listStatic htab (map envFlagsVar))
    (hplain : key = envFlagsVar → ∀ idx k v, cells htab idx = .live k v →
      Plain slre (some listStatic) k ∧ Plain slre value k)
    : (envHooks slre listStatic changeOk rejects).callback statics htab key value op flag = some none
      ∨ ∃ htab' statics', (envHooks slre listStatic changeOk rejects).callback statics htab key value op flag
          = some (some (htab', statics'))
        ∧ Same htab htab' ∧ statics'.firstCall = statics.firstCall
        ∧ Tracks slre listStatic htab' (update map key value envFlagsVar) := by
  dsimp only [envHooks]
  by_cases hkey : key = envFlagsVar
  . have ⟨htab', hon, hf⟩ := onFlags_spec hv listStatic value
    rw [if_pos hkey, hon, hkey, update_self]
    exact .inr ⟨_, _, rfl, hf.same, firstCall_release statics op, .flagged hc hf (hplain hkey)⟩
  rw [if_neg hkey, update_of_ne (Ne.symm hkey)]
  by_cases hreject : rejects key value op flag = true
  . rw [if_pos hreject]
    exact .inl rfl
  . rw [if_neg hreject]
    exact .inr ⟨_, _, rfl, .refl, rfl, hother hkey⟩

lemma Kept.overwriteEntry (hk : Kept slre listStatic s) (hlive : cells s.htab idx = .live key v)
    (hplain : key = envFlagsVar → ∀ k, (k = envFlagsVar ∨ ∃ idx v, cells s.htab idx = .live k v) →
      Plain slre (some listStatic) k ∧ Plain slre (some data) k)
    : ∃ res s', Hashtable.overwriteEntry (envHooks slre listStatic changeOk rejects) key (.enter data) flag idx s
        = some (res, s') ∧ Kept slre listStatic s' := by
  have ⟨map, hs⟩ := hk.valid.exists_stands s.statics
  have ht := hk.tracks
  rw [getenv_eq hs] at ht
  unfold Hashtable.overwriteEntry
  dsimp only
  by_cases hok : (envHooks slre listStatic changeOk rejects).changeOk (s.htab.table idx).entry
    (some data) .overwrite flag = false
  . rw [if_pos hok]
    exact ⟨_, _, rfl, hk⟩
  rw [if_neg hok]
  rcases @callback_spec slre listStatic key changeOk rejects flag s.htab map hk.valid ht.clean s.statics (some data)
      .overwrite (fun _ => ht) fun hkey idx k v h => hplain hkey k (.inr ⟨idx, v, h⟩) with
    hcall | ⟨htab', statics', hcall, hsame, hfirst, ht'⟩
  . rw [hcall]
    exact ⟨_, _, rfl, hk⟩
  rw [hcall]
  rw [← hsame.cells_eq] at hlive
  have hs' : Stands ⟨htab', statics'⟩ map := hs.same hsame
  exact ⟨_, _, rfl, kept_of_stands (hs'.setData hlive) (hfirst.trans hk.firstCall) (ht'.setData hlive)⟩

lemma register_inserted {flags : Nat}
    (hinit : envFlagsInit slre listStatic statics (Hashtable.insertSlot htab (hval1 htab.size key) idx key data)
      ((Hashtable.insertSlot htab (hval1 htab.size key) idx key data).table idx).entry = some (flags, statics))
    : register (envHooks slre listStatic changeOk rejects) key data flag idx
        ⟨Hashtable.insertSlot htab (hval1 htab.size key) idx key data, statics⟩
      = if (envHooks slre listStatic changeOk rejects).changeOk ((inserted htab idx key data flags).table idx).entry
          (some data) .create flag = false then
          some (.error .eperm, ⟨Hashtable.deleteSlot (inserted htab idx key data flags) idx, statics⟩)
        else
          match (envHooks slre listStatic changeOk rejects).callback statics (inserted htab idx key data flags) key
            (some data) .create flag with
          | none => none
          | some none => some (.error .einval, ⟨Hashtable.deleteSlot (inserted htab idx key data flags) idx, statics⟩)
          | some (some (htab, statics)) => some (.ok (1, idx), ⟨htab, statics⟩) := by
  have henvFlagsInit : (envHooks slre listStatic changeOk rejects).envFlagsInit = envFlagsInit slre listStatic := rfl
  unfold register
  rw [henvFlagsInit, hinit]
  unfold inserted
  dsimp only
  congr 1
  cases (envHooks slre listStatic changeOk rejects).callback statics
    ((Hashtable.insertSlot htab (hval1 htab.size key) idx key data).setFlags idx flags) key (some data) .create flag with
  | none => rfl
  | some res =>
    cases res with
    | none => rfl
    | some res => rfl

lemma Kept.enterNew {firstDeleted : Nat} (hk : Kept slre listStatic s)
    (habsent : ∀ i v, cells s.htab i ≠ .live key v)
    (ht : Target s.htab key (if firstDeleted ≠ 0 then firstDeleted else idx))
    (hmeets : Meets slre listStatic s (.enter key data flag))
    : ∃ res s', Hashtable.enterNew (envHooks slre listStatic changeOk rejects) key (.enter data) flag
        (hval1 s.htab.size key) firstDeleted idx s = some (res, s') ∧ Kept slre listStatic s' := by
  have ⟨map, hs⟩ := hk.valid.exists_stands s.statics
  have htracks := hk.tracks
  have hmap : map key = none := hs.represents.eq_none_iff.mpr habsent
  have ⟨hroom, hread, hcached, hstatic, hagree⟩ := hmeets.1.resolve_left fun ⟨i, v, h⟩ => habsent i v h
  rw [getenv_eq hs] at htracks hagree
  rw [enterNew_enter (Nat.ne_of_lt (hk.valid.filled_lt hroom))]
  generalize (if firstDeleted ≠ 0 then firstDeleted else idx) = target at ht ⊢
  have hs1 := @Stands.insertSlot _ _ _ _ data _ hs hroom habsent ht
  have hzero : ((Hashtable.insertSlot s.htab (hval1 s.htab.size key) target key data).table target).entry.flags
      = 0 := by
    change (update s.htab.table target _ target).entry.flags = 0
    rw [update_self]
    exact htracks.clean target (ht.not_live hroom)
  have hname : ((Hashtable.insertSlot s.htab (hval1 s.htab.size key) target key data).table target).entry.key
      = key := by
    change (update s.htab.table target _ target).entry.key = key
    rw [update_self]
  have ⟨flags, hinit, hflags⟩ := @envFlagsInit_eq slre listStatic _
    (Hashtable.insertSlot s.htab (hval1 s.htab.size key) target key data)
    ((Hashtable.insertSlot s.htab (hval1 s.htab.size key) target key data).table target).entry
    hk.firstCall hread hzero (by rw [hname]; exact hcached) (by rw [hname]; exact hstatic)
  rw [hname] at hflags
  have hs2 : Stands ⟨inserted s.htab target key data flags, s.statics⟩ _ := hs1.same same_setFlags
  have hlive2 : cells (inserted s.htab target key data flags) target = .live key data := by
    rw [cells_inserted, update_self]
  have hrejected : Kept slre listStatic
      ⟨Hashtable.deleteSlot (inserted s.htab target key data flags) target, s.statics⟩ := by
    refine kept_of_stands (hs2.deleteSlot hlive2) hk.firstCall ?_
    rw [update_idem, ← hmap, update_eq_self]
    exact htracks.rejected
  rw [register_inserted hinit]
  by_cases hok : (envHooks slre listStatic changeOk rejects).changeOk
      ((inserted s.htab target key data flags).table target).entry (some data) .create flag = false
  . rw [if_pos hok]
    exact ⟨_, _, rfl, hrejected⟩
  rw [if_neg hok]
  have hother (hkey : key ≠ envFlagsVar)
      : Tracks slre listStatic (inserted s.htab target key data flags) (map envFlagsVar) := by
    have ⟨hcur, hsame⟩ := hagree hkey
    apply htracks.inserted
    rw [← hflags, lookupFlags, lookupFlags, envFlagsLookup_eq hcur hstatic, envFlagsLookup_eq hcached hstatic, hsame]
  have hplain (hkey : key = envFlagsVar) (i : Nat) (k v : CStr)
      (h : cells (inserted s.htab target key data flags) i = .live k v)
      : Plain slre (some listStatic) k ∧ Plain slre (some data) k := by
    apply hmeets.2 hkey k
    rw [cells_inserted] at h
    by_cases hi : i = target
    . rw [hi, update_self] at h
      cases h
      exact .inl hkey
    . rw [update_of_ne hi] at h
      exact .inr ⟨i, v, h⟩
  rcases @callback_spec slre listStatic key changeOk rejects flag _ map hs2.valid htracks.clean.inserted s.statics
      (some data) .create hother hplain with hcall | ⟨htab', statics', hcall, hsame, hfirst, ht'⟩
  . rw [hcall]
    exact ⟨_, _, rfl, hrejected⟩
  . rw [hcall]
    exact ⟨_, _, rfl, kept_of_stands (hs2.same hsame) (hfirst.trans hk.firstCall) ht'⟩

lemma Kept.enter (hk : Kept slre listStatic s) (hmeets : Meets slre listStatic s (.enter key data flag))
    : ∃ res s', hsearchR (envHooks slre listStatic changeOk rejects) key (.enter data) flag s = some (res, s')
      ∧ Kept slre listStatic s' := by
  by_cases hlive : ∃ idx v, cells s.htab idx = .live key v
  . have ⟨idx, v, h⟩ := hlive
    rw [hsearchR_of_live hk.valid h]
    exact hk.overwriteEntry h hmeets.2
  have habsent := absent_of_not_live hlive
  have ⟨firstDeleted, idx, hsearch, ht⟩ := @hsearchR_of_absent _
    (envHooks slre listStatic changeOk rejects) key (.enter data) flag s hk.valid habsent
  rw [hsearch]
  exact hk.enterNew habsent ht hmeets

lemma Kept.delete (hk : Kept slre listStatic s) (hmeets : Meets slre listStatic s (.delete key flag))
    : ∃ res s', hdeleteR (envHooks slre listStatic changeOk rejects) key flag s = some (res, s')
      ∧ Kept slre listStatic s' := by
  have ⟨map, hs⟩ := hk.valid.exists_stands s.statics
  have ht := hk.tracks
  rw [getenv_eq hs] at ht
  unfold hdeleteR
  rcases hs.find (envHooks slre listStatic changeOk rejects) key 0 with ⟨idx, hfind, v, hlive, _⟩ | ⟨hfind, _⟩
  . rw [hfind]
    dsimp only
    by_cases hok : (envHooks slre listStatic changeOk rejects).changeOk (s.htab.table idx).entry none .delete flag = false
    . rw [if_pos hok]
      exact ⟨_, _, rfl, hk⟩
    rw [if_neg hok]
    rcases @callback_spec slre listStatic key changeOk rejects flag s.htab map hk.valid ht.clean s.statics none
        .delete (fun _ => ht) fun hkey idx k v h => ⟨hmeets hkey idx k v h, by simp [Plain, Readable, entriesOf]⟩ with
      hcall | ⟨htab', statics', hcall, hsame, hfirst, ht'⟩
    . rw [hcall]
      exact ⟨_, _, rfl, hk⟩
    rw [hcall]
    rw [← hsame.cells_eq] at hlive
    have hs' : Stands ⟨htab', statics'⟩ map := hs.same hsame
    exact ⟨_, _, rfl, kept_of_stands (hs'.deleteSlot hlive) (hfirst.trans hk.firstCall) ht'.deleteSlot⟩
  . rw [hfind]
    exact ⟨_, _, rfl, hk⟩

lemma Kept.exec {call : Call} (hk : Kept slre listStatic s) (hmeets : Meets slre listStatic s call)
    : ∃ outcome s', call.exec (envHooks slre listStatic changeOk rejects) s = some (outcome, s')
      ∧ Kept slre listStatic s' := by
  cases call with
  | enter key data flag =>
    obtain ⟨res, s', hsearch, hk'⟩ := @Kept.enter _ _ _ _ changeOk rejects s _ hk hmeets
    rw [Call.exec, hsearch]
    cases res with
    | ok ret | error e => exact ⟨_, _, rfl, hk'⟩
  | find key =>
    obtain ⟨map, hs⟩ := hk.valid.exists_stands s.statics
    rw [Call.exec]
    rcases hs.find (envHooks slre listStatic changeOk rejects) key 0 with ⟨idx, hfind, _⟩ | ⟨hfind, _⟩
    . rw [hfind]
      exact ⟨_, _, rfl, hk⟩
    . rw [hfind]
      exact ⟨_, _, rfl, hk⟩
  | delete key flag =>
    obtain ⟨res, s', hdelete, hk'⟩ := @Kept.delete _ _ _ changeOk rejects s _ hk hmeets
    rw [Call.exec, hdelete]
    cases res with
    | ok ret | error e => exact ⟨_, _, rfl, hk'⟩

end

end UBoot.EnvFlags
