import MarvellBoot.UBoot.Hashtable.Lemmas.Table
import MarvellBoot.UBoot.Hashtable.Map

namespace UBoot.Hashtable

open OpenAddressing Function Hashtable Call

variable {htab : HsearchData} {idx : Nat} {v : CStr}

variable {σ : Type} {hooks : Hooks σ}

structure Accepting (hooks : Hooks σ) : Prop where
  envFlagsInit : ∀ statics htab entry, ∃ init, hooks.envFlagsInit statics htab entry = some init
  changeOk : ∀ entry data op flag, hooks.changeOk entry data op flag = true
  callback : ∀ statics htab key data op flag,
    ∃ htab' statics', hooks.callback statics htab key data op flag = some (some (htab', statics')) ∧ Same htab htab'

structure Stands (s : State σ) (map : CStr → Option CStr) : Prop where
  valid : Valid s.htab
  represents : Represents (cells s.htab) map

def Call.Meets (htab : HsearchData) : Call → Prop
  | enter key _ _ => (∃ idx v, cells htab idx = .live key v) ∨ Room htab key
  | _ => True

def Call.AllMeet (hooks : Hooks σ) (s : State σ) : List Call → Prop
  | [] => True
  | call :: calls =>
    Meets s.htab call ∧ ∀ outcome s', exec hooks s call = some (outcome, s') → AllMeet hooks s' calls

section

variable {s : State σ} {map : CStr → Option CStr} {key data : CStr} {flag : Nat}

lemma Valid.exists_stands (hv : Valid htab) (statics : σ) : ∃ map, Stands ⟨htab, statics⟩ map := by
  classical
  refine ⟨fun k => if h : ∃ v i, cells htab i = .live k v then some h.choose else none, hv, ?_⟩
  intro k v
  dsimp only
  split
  . next h =>
    have ⟨i, hi⟩ := h.choose_spec
    rw [Option.some_inj]
    constructor
    . intro heq
      rw [← heq]
      exact ⟨i, hi⟩
    intro ⟨j, hj⟩
    rw [hv.wellFormed.unique hi hj, hj] at hi
    cases hi
    rfl
  next h =>
  constructor
  . intro hnone
    contradiction
  . intro ⟨i, hi⟩
    exact absurd ⟨v, i, hi⟩ h

lemma Stands.same {statics : σ} (hs : Stands s map) (hsame : Same s.htab htab) : Stands ⟨htab, statics⟩ map := by
  refine ⟨hs.valid.same hsame, ?_⟩
  rw [hsame.cells_eq]
  exact hs.represents

lemma Stands.setData (hs : Stands s map) (h : cells s.htab idx = .live key v)
    : Stands ⟨s.htab.setData idx data, s.statics⟩ (update map key (some data)) := by
  refine ⟨hs.valid.setData h, ?_⟩
  rw [cells_setData data h]
  apply hs.represents.write
  . intro k' v' hk
    rw [h] at hk
    cases hk
    rfl
  . intro j v' hj hlive
    exact hj (hs.valid.wellFormed.unique hlive h)

lemma Stands.insertSlot {idx : Nat} (hs : Stands s map) (hroom : Room s.htab key)
    (habsent : ∀ i v, cells s.htab i ≠ .live key v) (ht : Target s.htab key idx)
    : Stands ⟨insertSlot s.htab (hval1 s.htab.size key) idx key data, s.statics⟩ (update map key (some data)) := by
  refine ⟨hs.valid.insertSlot hroom habsent ht, ?_⟩
  rw [cells_insertSlot]
  apply hs.represents.write
  . intro k' v' hk
    exact absurd hk (ht.not_live hroom k' v')
  . intro j v' _
    exact habsent j v'

lemma Stands.deleteSlot (hs : Stands s map) (h : cells s.htab idx = .live key v)
    : Stands ⟨deleteSlot s.htab idx, s.statics⟩ (update map key none) := by
  refine ⟨hs.valid.deleteSlot h, ?_⟩
  rw [cells_deleteSlot]
  exact hs.represents.delete hs.valid.wellFormed h

lemma absent_of_not_live (h : ¬∃ idx v, cells s.htab idx = .live key v) : ∀ i v, cells s.htab i ≠ .live key v := by
  intro i v hlive
  exact h ⟨i, v, hlive⟩

lemma Stands.find (hs : Stands s map) (hooks : Hooks σ) (key : CStr) (flag : Nat)
    : (∃ idx, hsearchR hooks key .find flag s = some (.ok (idx, idx), s)
        ∧ ∃ v, cells s.htab idx = .live key v ∧ map key = some v)
      ∨ (hsearchR hooks key .find flag s = some (.error .esrch, s) ∧ map key = none) := by
  by_cases hlive : ∃ idx v, cells s.htab idx = .live key v
  . have ⟨idx, v, h⟩ := hlive
    refine .inl ⟨idx, ?_, v, h, (hs.represents key v).mpr ⟨idx, h⟩⟩
    rw [hsearchR_of_live hs.valid h]
    rfl
  have habsent := absent_of_not_live hlive
  have ⟨firstDeleted, idx, hsearch, _⟩ := @hsearchR_of_absent σ hooks _ .find flag s hs.valid habsent
  exact .inr ⟨hsearch, hs.represents.eq_none_iff.mpr habsent⟩

lemma enterNew_enter {hval firstDeleted : Nat} (hfilled : s.htab.filled ≠ s.htab.size)
    : enterNew hooks key (.enter data) flag hval firstDeleted idx s
      = register hooks key data flag (if firstDeleted ≠ 0 then firstDeleted else idx)
        ⟨insertSlot s.htab hval (if firstDeleted ≠ 0 then firstDeleted else idx) key data, s.statics⟩ := by
  rw [enterNew, if_neg hfilled]

lemma Stands.enter (hs : Stands s map) (hacc : Accepting hooks) (data : CStr) (flag : Nat)
    (hmeets : (∃ idx v, cells s.htab idx = .live key v) ∨ Room s.htab key)
    : ∃ ret s', hsearchR hooks key (.enter data) flag s = some (.ok ret, s')
      ∧ Stands s' (update map key (some data)) ∧ s'.htab.size = s.htab.size
      ∧ ∃ idx, cells s'.htab = update (cells s.htab) idx (.live key data) := by
  by_cases hlive : ∃ idx v, cells s.htab idx = .live key v
  . have ⟨idx, v, h⟩ := hlive
    have ⟨htab', statics', hcallback, hsame⟩ := hacc.callback s.statics s.htab key (some data) .overwrite flag
    have hs' : Stands ⟨htab', statics'⟩ map := hs.same hsame
    have h' : cells htab' idx = .live key v := by
      rw [hsame.cells_eq]
      exact h
    refine ⟨(idx, idx), ⟨htab'.setData idx data, statics'⟩, ?_, hs'.setData h', hsame.size_eq, idx, ?_⟩
    . rw [hsearchR_of_live hs.valid h]
      simp [overwriteEntry, hacc.changeOk, hcallback]
    . rw [← hsame.cells_eq]
      exact cells_setData data h'
  have habsent := absent_of_not_live hlive
  have hroom := hmeets.resolve_left hlive
  have ⟨firstDeleted, idx, hsearch, ht⟩ := @hsearchR_of_absent σ hooks _ (.enter data) flag s hs.valid habsent
  rw [hsearch, enterNew_enter (ne_of_lt (hs.valid.filled_lt hroom))]
  generalize (if firstDeleted ≠ 0 then firstDeleted else idx) = target at ht ⊢
  have hs1 : Stands _ (update map key (some data)) := hs.insertSlot hroom habsent ht
  have hsize : (Hashtable.insertSlot s.htab (hval1 s.htab.size key) target key data).size = s.htab.size := rfl
  have hcells := cells_insertSlot s.htab target key data
  generalize Hashtable.insertSlot s.htab (hval1 s.htab.size key) target key data = htab at hs1 hsize hcells ⊢
  have ⟨init, hinit⟩ := hacc.envFlagsInit s.statics htab (htab.table target).entry
  have ⟨htab', statics', hcallback, hsame⟩ :=
    hacc.callback init.2 (htab.setFlags target init.1) key (some data) .create flag
  have hsame := same_setFlags.trans hsame
  refine ⟨(1, target), ⟨htab', statics'⟩, ?_, hs1.same hsame, hsame.size_eq.trans hsize, target, ?_⟩
  . simp [register, hinit, hacc.changeOk, hcallback]
  . rw [← hcells]
    exact hsame.cells_eq

lemma Stands.delete (hs : Stands s map) (hacc : Accepting hooks) (key : CStr) (flag : Nat)
    : (∃ s', hdeleteR hooks key flag s = some (.ok (), s') ∧ (map key).isSome = true
        ∧ Stands s' (update map key none))
      ∨ (hdeleteR hooks key flag s = some (.error .esrch, s) ∧ map key = none) := by
  rcases hs.find hooks key 0 with ⟨idx, hfind, v, h, hmap⟩ | ⟨hfind, hmap⟩
  . have ⟨htab', statics', hcallback, hsame⟩ := hacc.callback s.statics s.htab key none .delete flag
    have hs' : Stands ⟨htab', statics'⟩ map := hs.same hsame
    have h' : cells htab' idx = .live key v := by
      rw [hsame.cells_eq]
      exact h
    refine .inl ⟨⟨Hashtable.deleteSlot htab' idx, statics'⟩, ?_, by rw [hmap]; rfl, hs'.deleteSlot h'⟩
    simp [hdeleteR, hfind, hacc.changeOk, hcallback]
  . refine .inr ⟨?_, hmap⟩
    simp [hdeleteR, hfind]

lemma Stands.exec {call : Call} (hs : Stands s map) (hacc : Accepting hooks) (hmeets : call.Meets s.htab)
    : ∃ s', call.exec hooks s = some ((call.spec map).1, s') ∧ Stands s' (call.spec map).2 := by
  cases call with
  | enter key data flag =>
    have ⟨ret, s', hsearch, hs', _⟩ := hs.enter hacc data flag hmeets
    refine ⟨s', ?_, hs'⟩
    rw [Call.exec, hsearch]
    rfl
  | find key =>
    refine ⟨s, ?_, hs⟩
    rw [Call.exec, Call.spec]
    rcases hs.find hooks key 0 with ⟨idx, hfind, v, h, hmap⟩ | ⟨hfind, hmap⟩
    . rw [hfind, hmap]
      dsimp only
      rw [(cell_eq_live_iff.mp h).2.2.2]
    . rw [hfind, hmap]
  | delete key flag =>
    rw [Call.exec, Call.spec]
    rcases hs.delete hacc key flag with ⟨s', hdelete, hmap, hs'⟩ | ⟨hdelete, hmap⟩
    . refine ⟨s', ?_, hs'⟩
      rw [hdelete, hmap]
    refine ⟨s, ?_, ?_⟩
    . rw [hdelete, hmap]
      rfl
    . rw [← hmap, update_eq_self]
      exact hs

lemma Stands.execAll {calls : List Call} (hs : Stands s map) (hacc : Accepting hooks)
    (hmeets : Call.AllMeet hooks s calls)
    : ∃ s', execAll hooks s calls = some ((specAll map calls).1, s') ∧ Stands s' (specAll map calls).2 := by
  induction calls generalizing s map with
  | nil => exact ⟨s, rfl, hs⟩
  | cons call calls ih =>
    have ⟨s1, hexec, hs1⟩ := hs.exec hacc hmeets.1
    have ⟨s', hrest, hs'⟩ := ih hs1 (hmeets.2 _ _ hexec)
    refine ⟨s', ?_, hs'⟩
    rw [execAll, hexec]
    dsimp only
    rw [hrest]
    rfl

end

end UBoot.Hashtable
