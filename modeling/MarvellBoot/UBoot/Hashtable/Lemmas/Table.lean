import MarvellBoot.UBoot.Hashtable.Lemmas.Search

namespace UBoot.Hashtable

open OpenAddressing Function Finset HsearchData

structure Same (htab htab' : HsearchData) : Prop where
  size_eq : htab'.size = htab.size
  filled_eq : htab'.filled = htab.filled
  used_eq : ∀ i, (htab'.table i).used = (htab.table i).used
  key_eq : ∀ i, (htab'.table i).entry.key = (htab.table i).entry.key
  data_eq : ∀ i, (htab'.table i).entry.data = (htab.table i).entry.data

section

variable {htab htab' htab'' : HsearchData} {idx flags : Nat} {k v data : CStr}

lemma Same.refl : Same htab htab := ⟨rfl, rfl, fun _ => rfl, fun _ => rfl, fun _ => rfl⟩

lemma Same.trans (h : Same htab htab') (h' : Same htab' htab'') : Same htab htab'' where
  size_eq := h'.size_eq.trans h.size_eq
  filled_eq := h'.filled_eq.trans h.filled_eq
  used_eq i := (h'.used_eq i).trans (h.used_eq i)
  key_eq i := (h'.key_eq i).trans (h.key_eq i)
  data_eq i := (h'.data_eq i).trans (h.data_eq i)

lemma Same.cells_eq (h : Same htab htab') : cells htab' = cells htab := by
  funext i
  unfold cells cell
  rw [h.used_eq, h.key_eq, h.data_eq]

lemma Valid.same (hv : Valid htab) (h : Same htab htab') : Valid htab' := by
  have hcells := h.cells_eq
  constructor
  . rw [h.size_eq]
    exact hv.prime
  . rw [h.size_eq]
    exact hv.size_ge
  . rw [h.size_eq, hcells]
    exact hv.wellFormed
  . intro i k v hlive
    rw [hcells] at hlive
    rw [h.size_eq, h.used_eq]
    exact hv.used_eq hlive
  . rw [h.size_eq, h.filled_eq, hcells]
    exact hv.filled_eq

lemma same_setFlags : Same htab (htab.setFlags idx flags) := by
  have hslot (i : Nat) : ((htab.setFlags idx flags).table i).used = (htab.table i).used
      ∧ ((htab.setFlags idx flags).table i).entry.key = (htab.table i).entry.key
      ∧ ((htab.setFlags idx flags).table i).entry.data = (htab.table i).entry.data := by
    unfold setFlags setSlot
    dsimp only
    by_cases hi : i = idx
    . rw [hi, update_self]
      exact ⟨rfl, rfl, rfl⟩
    . rw [update_of_ne hi]
      exact ⟨rfl, rfl, rfl⟩
  exact ⟨rfl, rfl, fun i => (hslot i).1, fun i => (hslot i).2.1, fun i => (hslot i).2.2⟩

lemma cells_setSlot (slot : Slot) : cells (htab.setSlot idx slot) = update (cells htab) idx (cell slot) := by
  funext i
  unfold cells setSlot
  dsimp only
  by_cases hi : i = idx
  . rw [hi, update_self, update_self]
  . rw [update_of_ne hi, update_of_ne hi]

lemma Valid.mem_Icc (hv : Valid htab) (h : cells htab idx = .live k v) : idx ∈ Finset.Icc 1 htab.size := by
  have ⟨n, hn, hprobe, _⟩ := hv.wellFormed.reach h
  rw [← hprobe, Finset.mem_Icc]
  exact probe_mem k hv.size_ge n

lemma Valid.setSlot {slot : Slot} {filled : Nat} (hv : Valid htab)
    (hw : WellFormed (probe htab.size) htab.size (update (cells htab) idx (cell slot)))
    (hused : ∀ {k v}, cell slot = .live k v → slot.used = hval1 htab.size k)
    (hfilled : filled = liveCount (Finset.Icc 1 htab.size) (update (cells htab) idx (cell slot)))
    : Valid { htab.setSlot idx slot with filled } := by
  have hcells : cells { htab.setSlot idx slot with filled } = update (cells htab) idx (cell slot) := cells_setSlot slot
  constructor
  . exact hv.prime
  . exact hv.size_ge
  . rw [hcells]
    exact hw
  . intro i k v hlive
    rw [hcells] at hlive
    change (update htab.table idx slot i).used = _
    by_cases hi : i = idx
    . rw [hi, update_self] at hlive ⊢
      exact hused hlive
    . rw [update_of_ne hi] at hlive ⊢
      exact hv.used_eq hlive
  . rw [hcells]
    exact hfilled

lemma cell_setData (data : CStr) (h : cells htab idx = .live k v)
    : cell ⟨(htab.table idx).used, { (htab.table idx).entry with data }⟩ = .live k data := by
  have := cell_eq_live_iff.mp h
  rw [cell_eq_live_iff]
  exact ⟨this.1, this.2.1, this.2.2.1, rfl⟩

lemma cells_setData (data : CStr) (h : cells htab idx = .live k v)
    : cells (htab.setData idx data) = update (cells htab) idx (.live k data) := by
  unfold setData
  rw [cells_setSlot, cell_setData data h]

lemma Valid.setData (hv : Valid htab) (h : cells htab idx = .live k v) : Valid (htab.setData idx data) := by
  have hcell := cell_setData data h
  apply hv.setSlot
  . rw [hcell]
    exact hv.wellFormed.overwrite h
  . intro k' v' hlive
    rw [hcell] at hlive
    cases hlive
    exact hv.used_eq h
  . rw [hcell, liveCount_update_same (by rw [h]; rfl)]
    exact hv.filled_eq

lemma cell_deleted (entry : Entry) : cell ⟨-1, entry⟩ = .deleted := rfl

lemma cells_deleteSlot : cells (deleteSlot htab idx) = update (cells htab) idx .deleted := cells_setSlot _

lemma Valid.deleteSlot (hv : Valid htab) (h : cells htab idx = .live k v)
    : Valid (Hashtable.deleteSlot htab idx) := by
  apply hv.setSlot
  . rw [cell_deleted]
    exact hv.wellFormed.delete
  . intro k' v' hlive
    contradiction
  have hlive : (cells htab idx).isLive = true := by
    rw [h]
    rfl
  have hcount := liveCount_delete (c := .deleted) (hv.mem_Icc h) hlive rfl
  have hfilled := hv.filled_eq
  rw [cell_deleted]
  omega

lemma cell_entry (size : Nat) (entry : Entry) : cell ⟨hval1 size entry.key, entry⟩ = .live entry.key entry.data := by
  have hpos : 0 < hval1 size entry.key := hval1_pos entry.key
  rw [cell_eq_live_iff]
  dsimp only
  exact ⟨by omega, by omega, rfl, rfl⟩

lemma cells_insertSlot (htab : HsearchData) (idx : Nat) (k data : CStr)
    : cells (insertSlot htab (hval1 htab.size k) idx k data) = update (cells htab) idx (.live k data) := by
  have hcell := cell_entry htab.size { (htab.table idx).entry with key := k, data }
  rw [← hcell]
  exact cells_setSlot _

lemma Target.mem_Icc (hv : Valid htab) (ht : Target htab k idx) : idx ∈ Finset.Icc 1 htab.size := by
  have ⟨n, hn, hprobe, _⟩ := ht.probe_eq
  rw [← hprobe, Finset.mem_Icc]
  exact probe_mem k hv.size_ge n

lemma Valid.insertSlot (hv : Valid htab) (hroom : Room htab k) (habsent : ∀ i v, cells htab i ≠ .live k v)
    (ht : Target htab k idx) : Valid (Hashtable.insertSlot htab (hval1 htab.size k) idx k data) := by
  have ⟨n, hn, hprobe, hbefore⟩ := ht.probe_eq
  have hcell := cell_entry htab.size { (htab.table idx).entry with key := k, data }
  apply hv.setSlot
  . rw [hcell]
    exact hv.wellFormed.insert habsent hn hprobe hbefore
  . intro k' v' hlive
    rw [hcell] at hlive
    cases hlive
    rfl
  have hdead : (cells htab idx).isLive = false := by
    have hnot := ht.not_live hroom
    cases hc : cells htab idx with
    | free => rfl
    | deleted => rfl
    | live k v => exact absurd hc (hnot k v)
  rw [hcell, liveCount_insert (ht.mem_Icc hv) hdead rfl, ← hv.filled_eq]

lemma Valid.filled_lt (hv : Valid htab) (hroom : Room htab k) : htab.filled < htab.size := by
  have hdead : ∃ idx, idx ∈ Finset.Icc 1 htab.size ∧ (cells htab idx).isLive = false := by
    rcases hroom with ⟨idx, hpos, hle, h⟩ | h
    . exact ⟨idx, Finset.mem_Icc.mpr ⟨hpos, hle⟩, by rw [h]; rfl⟩
    . refine ⟨_, Finset.mem_Icc.mpr ⟨hval1_pos k, Nat.le_of_lt (hval1_lt k hv.size_ge)⟩, ?_⟩
      rw [h]
      rfl
  have ⟨idx, hmem, hlive⟩ := hdead
  rw [hv.filled_eq]
  unfold liveCount
  have hlt : (filter (fun i => (cells htab i).isLive = true) (Finset.Icc 1 htab.size)).card
      < (Finset.Icc 1 htab.size).card := by
    apply card_lt_card
    rw [filter_ssubset]
    exact ⟨idx, hmem, by simp [hlive]⟩
  rw [Nat.card_Icc] at hlt
  omega

end

end UBoot.Hashtable
