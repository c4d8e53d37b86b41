import MarvellBoot.Lib.DoubleHash
import MarvellBoot.Lib.OpenAddressing
import MarvellBoot.UBoot.Hashtable.Alloc

namespace UBoot.Hashtable

open OpenAddressing Nat NullTable

variable {n idx fuel m : Nat}

def cell (slot : Slot) : Cell CStr CStr :=
  if slot.used = 0 then .free
  else if slot.used = -1 then .deleted
  else .live slot.entry.key slot.entry.data

def cells (htab : HsearchData) (idx : Nat) : Cell CStr CStr := cell (htab.table idx)

def probe (size : Nat) (key : CStr) (n : Nat) : Nat :=
  DoubleHash.probe size (hval2 size (hval1 size key)) (hval1 size key) n

structure Valid (htab : HsearchData) : Prop where
  prime : htab.size.Prime
  size_ge : 5 ≤ htab.size
  wellFormed : WellFormed (probe htab.size) htab.size (cells htab)
  used_eq : ∀ {i k v}, cells htab i = .live k v → (htab.table i).used = hval1 htab.size k
  filled_eq : htab.filled = liveCount (Finset.Icc 1 htab.size) (cells htab)

section

variable {slot : Slot} {k v : CStr}

lemma cell_eq_free_iff : cell slot = .free ↔ slot.used = 0 := by
  unfold cell
  split
  . simp [*]
  . split
    . simp [*]
    . simp [*]

lemma cell_eq_deleted_iff : cell slot = .deleted ↔ slot.used = -1 := by
  unfold cell
  split
  . next h => simp [h]
  . split
    . simp [*]
    . simp [*]

lemma cell_eq_live_iff
    : cell slot = .live k v ↔ slot.used ≠ 0 ∧ slot.used ≠ -1 ∧ slot.entry.key = k ∧ slot.entry.data = v := by
  unfold cell
  split
  . simp [*]
  . split
    . simp [*]
    . simp [*]

end

section

variable {size : Nat} (key : CStr)

lemma hval1_pos : 0 < hval1 size key := by
  unfold hval1
  split
  . omega
  . omega

lemma hval2_pos (hval : Nat) : 0 < hval2 size hval := by
  unfold hval2
  omega

variable (hsize : 5 ≤ size)

include hsize

lemma hval1_lt : hval1 size key < size := by
  have := mod_lt (hash key) (show 0 < size by omega)
  unfold hval1
  split
  . omega
  . omega

lemma hval2_lt (hval : Nat) : hval2 size hval < size := by
  have := mod_lt hval (show 0 < size - 2 by omega)
  unfold hval2
  omega

lemma probe_mem (n : Nat) : 0 < probe size key n ∧ probe size key n ≤ size :=
  DoubleHash.probe_mem (hval2_pos _) (hval2_lt hsize _) (hval1_pos key) (le_of_lt (hval1_lt key hsize)) n

lemma probe_size : probe size key size = hval1 size key :=
  DoubleHash.probe_size (hval2_pos _) (hval2_lt hsize _) (hval1_pos key) (le_of_lt (hval1_lt key hsize))

variable (hprime : size.Prime)

include hprime

lemma coprime_hval2 (hval : Nat) : Nat.Coprime (hval2 size hval) size :=
  (hprime.coprime_iff_not_dvd.mpr (not_dvd_of_pos_of_lt (hval2_pos _) (hval2_lt hsize _))).symm

lemma probe_ne_hval1 (hpos : 0 < n) (hn : n < size) : probe size key n ≠ hval1 size key :=
  DoubleHash.probe_ne_start (hval2_pos _) (hval2_lt hsize _) (hval1_pos key)
    (le_of_lt (hval1_lt key hsize)) (coprime_hval2 hsize hprime _) hpos hn

lemma exists_probe_eq (hpos : 0 < idx) (hle : idx ≤ size) : ∃ n, n < size ∧ probe size key n = idx :=
  DoubleHash.exists_probe_eq (hval2_pos _) (hval2_lt hsize _) (hval1_pos key)
    (le_of_lt (hval1_lt key hsize)) (coprime_hval2 hsize hprime _) hpos hle

end

section

variable {σ : Type} {hooks : Hooks σ} {key : CStr} {action : Action} {flag : Nat} {s : State σ}

lemma compareAndOverwriteEntry_eq (hval idx : Nat)
    : s.htab.toNull.compareEntry key hval idx = some false
        ∧ compareAndOverwriteEntry hooks key action flag hval idx s = none
      ∨ s.htab.toNull.compareEntry key hval idx = some true
        ∧ compareAndOverwriteEntry hooks key action flag hval idx s
          = some (overwriteEntry hooks key action flag idx s) := by
  have hused : (s.htab.toNull.table idx).used = (s.htab.table idx).used := rfl
  have hkey : (s.htab.toNull.table idx).entry.key = some (s.htab.table idx).entry.key := rfl
  unfold compareEntry compareAndOverwriteEntry
  rw [hused, hkey, Option.map_some]
  by_cases hu : (s.htab.table idx).used = hval
  . rw [if_pos hu]
    by_cases hk : key = (s.htab.table idx).entry.key
    . right
      rw [if_pos ⟨hu, hk⟩]
      exact ⟨congrArg some (decide_eq_true hk), rfl⟩
    . left
      rw [if_neg (fun h => hk h.2)]
      exact ⟨congrArg some (decide_eq_false hk), rfl⟩
  . left
    rw [if_neg hu, if_neg (fun h => hu h.1)]
    exact ⟨rfl, rfl⟩

lemma searchLoop_eq (hval step fuel idx : Nat)
    : searchLoop hooks key action flag hval step s fuel idx
      = (s.htab.toNull.searchLoop key hval step fuel idx).map
        (Sum.map (fun idx => overwriteEntry hooks key action flag idx s) id) := by
  induction fuel generalizing idx with
  | zero => rfl
  | succ fuel ih =>
    have hsize : s.htab.toNull.size = s.htab.size := rfl
    rw [searchLoop, NullTable.searchLoop, hsize]
    generalize (if idx ≤ step then s.htab.size + idx - step else idx - step) = next
    have hused : (s.htab.toNull.table next).used = (s.htab.table next).used := rfl
    split
    . rfl
    rcases compareAndOverwriteEntry_eq hval next with ⟨hcmp, heq⟩ | ⟨hcmp, heq⟩
    . rw [hcmp, heq]
      dsimp only
      rw [hused]
      split
      . exact ih next
      . rfl
    . rw [hcmp, heq]
      rfl

lemma hsearchR_eq_search
    : hsearchR hooks key action flag s
      = match s.htab.toNull.search key with
        | none => none
        | some (.inl idx) => overwriteEntry hooks key action flag idx s
        | some (.inr (firstDeleted, idx)) =>
          enterNew hooks key action flag (hval1 s.htab.size key) firstDeleted idx s := by
  have hsize : s.htab.toNull.size = s.htab.size := rfl
  have hused : (s.htab.toNull.table (hval1 s.htab.size key)).used = (s.htab.table (hval1 s.htab.size key)).used := rfl
  unfold hsearchR search
  dsimp only
  rw [hsize, hused]
  split
  . rcases compareAndOverwriteEntry_eq (hval1 s.htab.size key) (hval1 s.htab.size key) with
      ⟨hcmp, heq⟩ | ⟨hcmp, heq⟩
    . rw [hcmp, heq]
      rw [searchLoop_eq]
      cases s.htab.toNull.searchLoop key (hval1 s.htab.size key) (hval2 s.htab.size (hval1 s.htab.size key))
          s.htab.size (hval1 s.htab.size key) with
      | none => rfl
      | some res =>
        cases res with
        | inl idx => rfl
        | inr idx => rfl
    . rw [hcmp, heq]
  . rfl

end

structure Target (htab : HsearchData) (key : CStr) (target : Nat) : Prop where
  probe_eq : ∃ n, n < htab.size ∧ probe htab.size key n = target
    ∧ ∀ m, m < n → cells htab (probe htab.size key m) ≠ .free
  not_live : (∃ idx, 0 < idx ∧ idx ≤ htab.size ∧ cells htab idx = .free)
      ∨ cells htab (hval1 htab.size key) = .deleted →
    ∀ k v, cells htab target ≠ .live k v

def Room (htab : HsearchData) (key : CStr) : Prop :=
  (∃ idx, 0 < idx ∧ idx ≤ htab.size ∧ cells htab idx = .free) ∨ cells htab (hval1 htab.size key) = .deleted

section

variable {htab : HsearchData} {key v : CStr}

lemma compareEntry_isSome (htab : HsearchData) (hval : Nat) : ∃ b, htab.toNull.compareEntry key hval idx = some b := by
  unfold compareEntry
  split
  . exact ⟨_, rfl⟩
  . exact ⟨_, rfl⟩

lemma compareEntry_of_absent (h : ∀ v, cells htab idx ≠ .live key v)
    : htab.toNull.compareEntry key (hval1 htab.size key) idx = some false := by
  have hpos : 0 < hval1 htab.size key := hval1_pos key
  unfold compareEntry
  split
  . next hused =>
    change (htab.table idx).used = _ at hused
    have hkey : key ≠ (htab.table idx).entry.key := by
      intro hkey
      exact h _ (cell_eq_live_iff.mpr ⟨by omega, by omega, hkey.symm, rfl⟩)
    exact congrArg some (decide_eq_false hkey)
  . rfl

lemma searchLoop_succ (htab : HsearchData) (fuel n : Nat)
    : htab.toNull.searchLoop key (hval1 htab.size key) (hval2 htab.size (hval1 htab.size key)) (fuel + 1)
        (probe htab.size key n)
      = if probe htab.size key (n + 1) = hval1 htab.size key then
          some (.inr (probe htab.size key (n + 1)))
        else
          match htab.toNull.compareEntry key (hval1 htab.size key) (probe htab.size key (n + 1)) with
          | none => none
          | some true => some (.inl (probe htab.size key (n + 1)))
          | some false =>
            if cells htab (probe htab.size key (n + 1)) = .free then
              some (.inr (probe htab.size key (n + 1)))
            else
              htab.toNull.searchLoop key (hval1 htab.size key) (hval2 htab.size (hval1 htab.size key)) fuel
                (probe htab.size key (n + 1)) := by
  have hnext : (if probe htab.size key n ≤ hval2 htab.size (hval1 htab.size key)
      then htab.toNull.size + probe htab.size key n - hval2 htab.size (hval1 htab.size key)
      else probe htab.size key n - hval2 htab.size (hval1 htab.size key)) = probe htab.size key (n + 1) := rfl
  have hused : (htab.toNull.table (probe htab.size key (n + 1))).used = (htab.table (probe htab.size key (n + 1))).used :=
    rfl
  rw [NullTable.searchLoop, hnext]
  rcases htab.toNull.compareEntry key (hval1 htab.size key) (probe htab.size key (n + 1)) with _ | _ | _
  . rfl
  . simp only [hused, cells, cell_eq_free_iff, ne_eq, ite_not]
  . rfl

variable (hv : Valid htab)

include hv

lemma compareEntry_of_live (h : cells htab idx = .live key v)
    : htab.toNull.compareEntry key (hval1 htab.size key) idx = some true := by
  have hused : (htab.toNull.table idx).used = hval1 htab.size key := hv.used_eq h
  unfold compareEntry
  rw [if_pos hused]
  exact congrArg some (decide_eq_true (cell_eq_live_iff.mp h).2.2.1.symm)

lemma searchLoop_of_live (hn : n < m) (hm : m < htab.size) (hlive : cells htab (probe htab.size key m) = .live key v)
    (hbefore : ∀ j, j < m → cells htab (probe htab.size key j) ≠ .free) (hfuel : m - n ≤ fuel)
    : htab.toNull.searchLoop key (hval1 htab.size key) (hval2 htab.size (hval1 htab.size key)) fuel
        (probe htab.size key n) = some (.inl (probe htab.size key m)) := by
  induction fuel generalizing n with
  | zero => omega
  | succ fuel ih =>
    rw [searchLoop_succ, if_neg (probe_ne_hval1 key hv.size_ge hv.prime (succ_pos n) (by omega))]
    by_cases hlast : n + 1 = m
    . rw [hlast, compareEntry_of_live hv hlive]
    by_cases hhere : ∃ w, cells htab (probe htab.size key (n + 1)) = .live key w
    . have ⟨w, hw⟩ := hhere
      rw [compareEntry_of_live hv hw, hv.wellFormed.unique hw hlive]
    rw [compareEntry_of_absent (by simpa using hhere)]
    dsimp only
    rw [if_neg (hbefore _ (by omega))]
    exact ih (by omega) (by omega)

lemma search_of_live (hlive : cells htab idx = .live key v) : htab.toNull.search key = some (.inl idx) := by
  have ⟨n, hn, hprobe, hbefore⟩ := hv.wellFormed.reach hlive
  subst hprobe
  have hfirst : (htab.toNull.table (hval1 htab.size key)).used ≠ 0 := by
    by_cases hzero : n = 0
    . rw [hzero] at hlive
      exact (cell_eq_live_iff.mp hlive).1
    . intro h
      exact hbefore 0 (by omega) (cell_eq_free_iff.mpr h)
  unfold search
  have hsize : htab.toNull.size = htab.size := rfl
  rw [hsize, if_pos hfirst]
  by_cases hhere : ∃ w, cells htab (hval1 htab.size key) = .live key w
  . have ⟨w, hw⟩ := hhere
    rw [compareEntry_of_live hv hw, hv.wellFormed.unique hw hlive]
  have hpos : 0 < n := by
    apply Nat.pos_of_ne_zero
    intro hzero
    rw [hzero] at hlive
    exact hhere ⟨v, hlive⟩
  have hloop : htab.toNull.searchLoop key (hval1 htab.size key) (hval2 htab.size (hval1 htab.size key)) htab.size
      (hval1 htab.size key) = some (.inl (probe htab.size key n)) :=
    searchLoop_of_live hv (n := 0) hpos hn hlive hbefore (by omega)
  rw [compareEntry_of_absent (by simpa using hhere)]
  dsimp only
  rw [hloop]
  rfl

variable (habsent : ∀ i v, cells htab i ≠ .live key v)

include habsent

lemma searchLoop_of_absent (hn : n < htab.size)
    (hbefore : ∀ j, j < n + 1 → cells htab (probe htab.size key j) ≠ .free) (hfuel : htab.size ≤ n + fuel)
    : ∃ idx, htab.toNull.searchLoop key (hval1 htab.size key) (hval2 htab.size (hval1 htab.size key)) fuel
        (probe htab.size key n) = some (.inr idx)
      ∧ ((∃ m, m < htab.size ∧ probe htab.size key m = idx ∧ cells htab idx = .free
          ∧ ∀ j, j < m → cells htab (probe htab.size key j) ≠ .free)
        ∨ (idx = hval1 htab.size key ∧ ∀ j, j < htab.size → cells htab (probe htab.size key j) ≠ .free)) := by
  induction fuel generalizing n with
  | zero => omega
  | succ fuel ih =>
    rw [searchLoop_succ]
    by_cases hlast : n + 1 = htab.size
    . rw [hlast] at hbefore ⊢
      rw [if_pos (probe_size key hv.size_ge)]
      exact ⟨_, rfl, .inr ⟨probe_size key hv.size_ge, hbefore⟩⟩
    rw [if_neg (probe_ne_hval1 key hv.size_ge hv.prime (succ_pos n) (by omega)), compareEntry_of_absent (habsent _)]
    dsimp only
    by_cases hfree : cells htab (probe htab.size key (n + 1)) = .free
    . rw [if_pos hfree]
      exact ⟨_, rfl, .inl ⟨n + 1, by omega, rfl, hfree, hbefore⟩⟩
    rw [if_neg hfree]
    apply ih (by omega)
    . intro j hj
      rcases Nat.lt_succ_iff_lt_or_eq.mp hj with hj | hj
      . exact hbefore j hj
      . rw [hj]
        exact hfree
    . omega

lemma search_of_absent
    : ∃ firstDeleted idx, htab.toNull.search key = some (.inr (firstDeleted, idx))
      ∧ Target htab key (if firstDeleted ≠ 0 then firstDeleted else idx)
      ∧ (¬Room htab key → (if firstDeleted ≠ 0 then firstDeleted else idx) = hval1 htab.size key
        ∧ ∃ k v, cells htab (hval1 htab.size key) = .live k v) := by
  have hsize := hv.size_ge
  have hpos : 0 < hval1 htab.size key := hval1_pos key
  have hused : (htab.toNull.table (hval1 htab.size key)).used = (htab.table (hval1 htab.size key)).used := rfl
  have hsize' : htab.toNull.size = htab.size := rfl
  unfold search
  dsimp only
  rw [hsize', hused]
  split
  . next hne =>
    have hfirst : cells htab (hval1 htab.size key) ≠ .free := fun h => hne (cell_eq_free_iff.mp h)
    have ⟨idx, hloop, hidx⟩ := searchLoop_of_absent hv habsent (n := 0) (by omega)
      (fun j hj => by rw [Nat.lt_one_iff.mp hj]; exact hfirst) (Nat.le_add_left htab.size 0)
    change htab.toNull.searchLoop key _ _ _ (hval1 htab.size key) = _ at hloop
    rw [compareEntry_of_absent (habsent _)]
    dsimp only
    rw [hloop]
    refine ⟨_, _, rfl, ?_⟩
    by_cases hdeleted : (htab.table (hval1 htab.size key)).used = -1
    . rw [if_pos hdeleted, if_pos (by omega)]
      have hcell := cell_eq_deleted_iff.mpr hdeleted
      refine ⟨⟨⟨0, by omega, rfl, by omega⟩, ?_⟩, ?_⟩
      . intro _ k v h
        exact (cell_eq_live_iff.mp h).2.1 hdeleted
      . intro hroom
        exact absurd (.inr hcell) hroom
    rw [if_neg hdeleted, if_neg (by omega)]
    rcases hidx with ⟨m, hm, hprobe, hfree, hbefore⟩ | ⟨hidx, hfull⟩
    . have hmem := probe_mem key hsize m
      rw [hprobe] at hmem
      refine ⟨⟨⟨m, hm, hprobe, hbefore⟩, ?_⟩, ?_⟩
      . intro _ k v h
        rw [hfree] at h
        contradiction
      . intro hroom
        exact absurd (.inl ⟨idx, hmem.1, hmem.2, hfree⟩) hroom
    refine ⟨⟨⟨0, by omega, hidx.symm, by omega⟩, ?_⟩, ?_⟩
    . rintro (⟨j, hj, hle, hfree⟩ | h)
      . have ⟨n, hn, hprobe⟩ := exists_probe_eq key hsize hv.prime hj hle
        rw [← hprobe] at hfree
        exact absurd hfree (hfull n hn)
      . exact absurd (cell_eq_deleted_iff.mp h) hdeleted
    . intro _
      exact ⟨hidx, _, _, cell_eq_live_iff.mpr ⟨hne, hdeleted, rfl, rfl⟩⟩
  next hfree =>
  rw [ne_eq, not_not] at hfree
  refine ⟨0, hval1 htab.size key, rfl, ⟨⟨0, by omega, rfl, by omega⟩, ?_⟩, ?_⟩
  . intro _ k v h
    exact (cell_eq_live_iff.mp h).1 hfree
  . intro hroom
    have hlt := hval1_lt key hsize
    exact absurd (.inl ⟨_, hpos, by omega, cell_eq_free_iff.mpr hfree⟩) hroom

end

section

variable {σ : Type} {hooks : Hooks σ} {key : CStr} {action : Action} {flag : Nat} {s : State σ}

lemma hsearchR_of_absent (hv : Valid s.htab) (habsent : ∀ i v, cells s.htab i ≠ .live key v)
    : ∃ firstDeleted idx, hsearchR hooks key action flag s
        = enterNew hooks key action flag (hval1 s.htab.size key) firstDeleted idx s
      ∧ Target s.htab key (if firstDeleted ≠ 0 then firstDeleted else idx) := by
  have ⟨firstDeleted, idx, hsearch, ht, _⟩ := search_of_absent hv habsent
  refine ⟨firstDeleted, idx, ?_, ht⟩
  rw [hsearchR_eq_search, hsearch]

lemma hsearchR_of_live (hv : Valid s.htab) {idx : Nat} {v : CStr} (hlive : cells s.htab idx = .live key v)
    : hsearchR hooks key action flag s = overwriteEntry hooks key action flag idx s := by
  rw [hsearchR_eq_search, search_of_live hv hlive]

end

end UBoot.Hashtable
