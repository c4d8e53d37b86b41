import MarvellBoot.Lib.Walk
import MarvellBoot.UBoot.PartDos.Impl

open Relation Walk Option List

namespace UBoot.PartDos

variable {α β : Type} {n : Int} {pts : List DosPartition} {f : α → Option β} {l : List α}

lemma mapM_eq_some_iff {ys : List β} : l.mapM f = some ys ↔ l.map f = ys.map some := by
  induction l generalizing ys with
  | nil => cases ys <;> simp
  | cons x l ih =>
    cases ys with
    | nil => simp [bind_eq_some_iff]
    | cons y ys => simp [bind_eq_some_iff, ih]

lemma isSome_mapM_iff : (l.mapM f).isSome ↔ ∀ x ∈ l, (f x).isSome := by
  induction l with
  | nil => simp
  | cons x l ih =>
    rw [forall_mem_cons, ← ih, mapM_cons]
    cases f x <;> cases l.mapM f <;> simp

variable {dev : BlkDesc} {partNum : Int} {relative disksig sector fuel : Nat} {pos : Nat × Nat}

def FollowsEvery (dev : BlkDesc) (pos pos' : Nat × Nat) : Prop :=
  ∃ buffer, dev.read pos.1 = some buffer ∧ testBlockType buffer = .mbr
    ∧ ∃ pt ∈ partitionTable buffer, isExtended pt.sysInd = true ∧ pos' = follow pos.1 pos.2 pt

def FollowsFirst (dev : BlkDesc) (pos pos' : Nat × Nat) : Prop :=
  ∃ buffer, dev.read pos.1 = some buffer ∧ hasSignature buffer = true
    ∧ ∃ pt, (partitionTable buffer).find? (fun pt => isExtended pt.sysInd) = some pt ∧ pos' = follow pos.1 pos.2 pt

lemma follow_lt (sector relative : Nat) (hlt : relative < 2 ^ 64) (pt : DosPartition)
    : (follow sector relative pt).1 < 2 ^ 64 ∧ (follow sector relative pt).2 < 2 ^ 64 := by
  have hadd : lbaAdd pt.start4 relative < 2 ^ 64 := Nat.mod_lt _ (by decide)
  unfold follow
  dsimp only
  split <;> omega

section

variable {next : Nat × Nat → Nat × Nat → Prop}

lemma finite_reached (hnext : ∀ pos pos', next pos pos' → ∃ pt, pos' = follow pos.1 pos.2 pt)
    : {pos | ReflTransGen next (0, 0) pos}.Finite := by
  have hlt : ∀ pos, ReflTransGen next (0, 0) pos → pos.1 < 2 ^ 64 ∧ pos.2 < 2 ^ 64 := by
    intro pos hreach
    induction hreach with
    | refl => decide
    | tail _ hstep ih =>
      have ⟨pt, hpt⟩ := hnext _ _ hstep
      rw [hpt]
      apply follow_lt _ _ ih.2
  apply Set.Finite.subset ((Set.finite_lt_nat (2 ^ 64)).prod (Set.finite_lt_nat (2 ^ 64)))
  intro pos hreach
  exact hlt pos hreach

end

lemma finite_reached_every : {pos | ReflTransGen (FollowsEvery dev) (0, 0) pos}.Finite := by
  apply finite_reached
  intro pos pos' ⟨_, _, _, pt, _, _, hpos⟩
  exact ⟨pt, hpos⟩

lemma finite_reached_first : {pos | ReflTransGen (FollowsFirst dev) (0, 0) pos}.Finite := by
  apply finite_reached
  intro pos pos' ⟨_, _, _, pt, _, hpos⟩
  exact ⟨pt, hpos⟩

section Print

lemma printPartitionExtended_succ
    {buffer : Nat → UInt8} (hread : dev.read sector = some buffer) (htype : testBlockType buffer = .mbr)
    : printPartitionExtended dev (fuel + 1) sector relative partNum disksig
      = (((partitionTable buffer).filter fun pt => isExtended pt.sysInd).mapM fun pt =>
          printPartitionExtended dev fuel (follow sector relative pt).1 (follow sector relative pt).2
            (printPartitionExtended.table sector (diskSignature sector buffer disksig)
              (partitionTable buffer) partNum).2
            (diskSignature sector buffer disksig)).map
        fun rest =>
          (printPartitionExtended.table sector (diskSignature sector buffer disksig)
            (partitionTable buffer) partNum).1 ++ rest.flatten := by
  simp only [printPartitionExtended, hread, htype, ne_eq, not_true_eq_false, if_false]

lemma printPartitionExtended_stop
    (h : ∀ buffer, dev.read sector = some buffer → testBlockType buffer ≠ .mbr)
    : printPartitionExtended dev (fuel + 1) sector relative partNum disksig = some [] := by
  rw [printPartitionExtended]
  split
  . rfl
  . next buffer hread => rw [if_pos (h buffer hread)]

lemma isSome_printPartitionExtended_succ
    (h : (printPartitionExtended dev fuel sector relative partNum disksig).isSome)
    : (printPartitionExtended dev (fuel + 1) sector relative partNum disksig).isSome := by
  induction fuel generalizing sector relative partNum disksig with
  | zero => simp [printPartitionExtended] at h
  | succ fuel ih =>
    by_cases hmbr : ∃ buffer, dev.read sector = some buffer ∧ testBlockType buffer = .mbr
    . have ⟨buffer, hread, htype⟩ := hmbr
      rw [printPartitionExtended_succ hread htype, isSome_map, isSome_mapM_iff] at h ⊢
      intro pt hpt
      apply ih
      exact h pt hpt
    rw [printPartitionExtended_stop]
    . rfl
    . intro buffer hread htype
      exact hmbr ⟨buffer, hread, htype⟩

lemma isSome_printPartitionExtended_le {fuel' : Nat}
    (hle : fuel ≤ fuel') (h : (printPartitionExtended dev fuel sector relative partNum disksig).isSome)
    : (printPartitionExtended dev fuel' sector relative partNum disksig).isSome := by
  induction hle with
  | refl => exact h
  | step _ ih => exact isSome_printPartitionExtended_succ ih

lemma exists_fuel_forall (done : Nat → α → Prop)
    (hmono : ∀ fuel fuel' x, fuel ≤ fuel' → done fuel x → done fuel' x) (l : List α)
    (h : ∀ x ∈ l, ∃ fuel, done fuel x)
    : ∃ fuel, ∀ x ∈ l, done fuel x := by
  induction l with
  | nil => exact ⟨0, by simp⟩
  | cons x l ih =>
    rw [forall_mem_cons] at h
    have ⟨fuel, hx⟩ := h.1
    have ⟨fuel', hl⟩ := ih h.2
    refine ⟨max fuel fuel', ?_⟩
    rw [forall_mem_cons]
    constructor
    . exact hmono _ _ _ (le_max_left ..) hx
    . intro y hy
      exact hmono _ _ _ (le_max_right ..) (hl y hy)

lemma ends_of_isSome_print
    (h : (printPartitionExtended dev fuel sector relative partNum disksig).isSome)
    : Ends (FollowsEvery dev) (sector, relative) := by
  induction fuel generalizing sector relative partNum disksig with
  | zero => simp [printPartitionExtended] at h
  | succ fuel ih =>
    apply Acc.intro
    intro pos ⟨buffer, hread, htype, pt, hmem, hext, hpos⟩
    rw [printPartitionExtended_succ hread htype, isSome_map, isSome_mapM_iff] at h
    rw [hpos]
    apply ih
    apply h
    exact mem_filter.mpr ⟨hmem, hext⟩

lemma exists_fuel_print (h : Ends (FollowsEvery dev) pos) (partNum : Int) (disksig : Nat)
    : ∃ fuel, (printPartitionExtended dev fuel pos.1 pos.2 partNum disksig).isSome := by
  induction h generalizing partNum disksig with
  | intro pos _ ih =>
    by_cases hmbr : ∃ buffer, dev.read pos.1 = some buffer ∧ testBlockType buffer = .mbr
    . have ⟨buffer, hread, htype⟩ := hmbr
      have ⟨fuel, hfuel⟩ := exists_fuel_forall
        (fun fuel pt => (printPartitionExtended dev fuel (follow pos.1 pos.2 pt).1
          (follow pos.1 pos.2 pt).2
          (printPartitionExtended.table pos.1 (diskSignature pos.1 buffer disksig) (partitionTable buffer) partNum).2
          (diskSignature pos.1 buffer disksig)).isSome = true)
        (fun _ _ _ hle h => isSome_printPartitionExtended_le hle h)
        ((partitionTable buffer).filter fun pt => isExtended pt.sysInd) (by
          intro pt hpt
          have ⟨hmem, hext⟩ := mem_filter.mp hpt
          exact ih _ ⟨buffer, hread, htype, pt, hmem, hext, rfl⟩ _ _)
      refine ⟨fuel + 1, ?_⟩
      rw [printPartitionExtended_succ hread htype, isSome_map, isSome_mapM_iff]
      exact hfuel
    refine ⟨1, ?_⟩
    rw [printPartitionExtended_stop]
    . rfl
    . intro buffer hread htype
      exact hmbr ⟨buffer, hread, htype⟩

lemma partPrintDos_ends_iff : (∃ fuel, (partPrintDos dev fuel).isSome) ↔ ¬Revisits (FollowsEvery dev) (0, 0) := by
  rw [← ends_iff_not_revisits finite_reached_every]
  constructor
  . intro ⟨fuel, h⟩
    exact ends_of_isSome_print h
  . intro h
    exact exists_fuel_print h 1 0

end Print

section GetInfo

variable {which : Int} {fuel sector relative disksig : Nat} {partNum : Int} {buffer : Nat → UInt8}

def lastNum (sector : Nat) (pts : List DosPartition) (partNum : Int) : Int :=
  pts.foldl (fun n pt => nextNum sector pt n) partNum

lemma eq_lastNum_of_table (h : partGetInfoExtended.table dev sector which disksig pts partNum = .inr n)
    : n = lastNum sector pts partNum := by
  induction pts generalizing partNum with
  | nil =>
    rw [partGetInfoExtended.table, Sum.inr.injEq] at h
    exact h.symm
  | cons pt pts ih =>
    rw [partGetInfoExtended.table] at h
    split at h
    . exact absurd h Sum.inl_ne_inr
    . exact ih h

lemma partGetInfoExtended_stop (h : ∀ buffer, dev.read sector = some buffer → hasSignature buffer = false)
    : partGetInfoExtended dev which (fuel + 1) sector relative partNum disksig = some .error := by
  rw [partGetInfoExtended]
  split
  . rfl
  . next buffer hread => rw [if_pos (h buffer hread)]

lemma partGetInfoExtended_found {info : DiskPartition} (hread : dev.read sector = some buffer)
    (hsig : hasSignature buffer = true)
    (htable : partGetInfoExtended.table dev sector which (diskSignature sector buffer disksig)
      (partitionTable buffer) partNum = .inl info)
    : partGetInfoExtended dev which (fuel + 1) sector relative partNum disksig = some (.entry info) := by
  simp only [partGetInfoExtended, hread, hsig, htable, Bool.true_eq_false, if_false]

lemma partGetInfoExtended_follow {pt : DosPartition} (hread : dev.read sector = some buffer)
    (hsig : hasSignature buffer = true)
    (htable : partGetInfoExtended.table dev sector which (diskSignature sector buffer disksig)
      (partitionTable buffer) partNum = .inr n)
    (hext : (partitionTable buffer).find? (fun pt => isExtended pt.sysInd) = some pt)
    : partGetInfoExtended dev which (fuel + 1) sector relative partNum disksig
      = partGetInfoExtended dev which fuel (follow sector relative pt).1 (follow sector relative pt).2
        (lastNum sector (partitionTable buffer) partNum) (diskSignature sector buffer disksig) := by
  rw [← eq_lastNum_of_table htable]
  simp only [partGetInfoExtended, hread, hsig, htable, hext, Bool.true_eq_false, if_false]

lemma partGetInfoExtended_last (hread : dev.read sector = some buffer) (hsig : hasSignature buffer = true)
    (htable : partGetInfoExtended.table dev sector which (diskSignature sector buffer disksig)
      (partitionTable buffer) partNum = .inr n)
    (hext : (partitionTable buffer).find? (fun pt => isExtended pt.sysInd) = none)
    : partGetInfoExtended dev which (fuel + 1) sector relative partNum disksig
      = some (if testBlockType buffer = .pbr then .pbr dev.lba dosPartDefaultSector else .error) := by
  simp only [partGetInfoExtended, hread, hsig, htable, hext, Bool.true_eq_false, if_false]
  split <;> rfl

lemma partGetInfoExtended_cases (dev : BlkDesc) (which : Int) (pos : Nat × Nat) (partNum : Int) (disksig : Nat)
    : (∃ res, ∀ fuel, partGetInfoExtended dev which (fuel + 1) pos.1 pos.2 partNum disksig = some res)
      ∨ ∃ pos' n d, FollowsFirst dev pos pos'
        ∧ ∀ fuel, partGetInfoExtended dev which (fuel + 1) pos.1 pos.2 partNum disksig
          = partGetInfoExtended dev which fuel pos'.1 pos'.2 n d := by
  by_cases hsome : ∃ buffer, dev.read pos.1 = some buffer ∧ hasSignature buffer = true
  . have ⟨buffer, hread, hsig⟩ := hsome
    cases htable : partGetInfoExtended.table dev pos.1 which (diskSignature pos.1 buffer disksig)
      (partitionTable buffer) partNum with
    | inl info => exact .inl ⟨_, fun _ => partGetInfoExtended_found hread hsig htable⟩
    | inr n =>
      cases hext : (partitionTable buffer).find? (fun pt => isExtended pt.sysInd) with
      | none => exact .inl ⟨_, fun _ => partGetInfoExtended_last hread hsig htable hext⟩
      | some pt =>
        exact .inr ⟨_, _, _, ⟨buffer, hread, hsig, pt, hext, rfl⟩,
          fun _ => partGetInfoExtended_follow hread hsig htable hext⟩
  refine .inl ⟨_, fun _ => partGetInfoExtended_stop ?_⟩
  intro buffer hread
  rw [← Bool.not_eq_true]
  exact fun hsig => hsome ⟨buffer, hread, hsig⟩

lemma exists_fuel_getInfo (h : Ends (FollowsFirst dev) pos) (partNum : Int) (disksig : Nat)
    : ∃ fuel, (partGetInfoExtended dev which fuel pos.1 pos.2 partNum disksig).isSome := by
  induction h generalizing partNum disksig with
  | intro pos _ ih =>
    cases partGetInfoExtended_cases dev which pos partNum disksig with
    | inl hres =>
      have ⟨res, hres⟩ := hres
      refine ⟨1, ?_⟩
      rw [hres]
      rfl
    | inr hstep =>
      have ⟨pos', n, d, hnext, heq⟩ := hstep
      have ⟨fuel, hfuel⟩ := ih pos' hnext n d
      refine ⟨fuel + 1, ?_⟩
      rw [heq]
      exact hfuel

lemma le_nextNum (pt : DosPartition) : partNum ≤ nextNum sector pt partNum := by
  unfold nextNum
  split <;> omega

lemma le_lastNum (pts : List DosPartition) : partNum ≤ lastNum sector pts partNum := by
  induction pts generalizing partNum with
  | nil => exact le_refl _
  | cons pt pts ih => exact le_trans (le_nextNum pt) ih

lemma table_of_passed (hlt : which < partNum)
    : partGetInfoExtended.table dev sector which disksig pts partNum = .inr (lastNum sector pts partNum) := by
  induction pts generalizing partNum with
  | nil => rfl
  | cons pt pts ih =>
    have hle : partNum ≤ nextNum sector pt partNum := le_nextNum pt
    rw [partGetInfoExtended.table, if_neg]
    . apply ih
      omega
    . intro ⟨_, _, heq, _⟩
      omega

lemma ends_of_isSome_getInfo (hlt : which < partNum)
    (h : (partGetInfoExtended dev which fuel sector relative partNum disksig).isSome)
    : Ends (FollowsFirst dev) (sector, relative) := by
  induction fuel generalizing sector relative partNum disksig with
  | zero => simp [partGetInfoExtended] at h
  | succ fuel ih =>
    apply Acc.intro
    intro pos ⟨buffer, hread, hsig, pt, hext, hpos⟩
    have hle : partNum ≤ lastNum sector (partitionTable buffer) partNum := le_lastNum _
    rw [partGetInfoExtended_follow hread hsig (table_of_passed hlt) hext] at h
    rw [hpos]
    exact ih (lt_of_lt_of_le hlt hle) h

lemma partGetInfoDos_ends_iff
    : (∀ which, ∃ fuel, (partGetInfoDos dev fuel which).isSome) ↔ ¬Revisits (FollowsFirst dev) (0, 0) := by
  rw [← ends_iff_not_revisits finite_reached_first]
  constructor
  . intro h
    have ⟨fuel, hfuel⟩ := h 0
    exact ends_of_isSome_getInfo zero_lt_one hfuel
  . intro h which
    exact exists_fuel_getInfo h 1 0

end GetInfo

theorem traversal_ends_iff (dev : BlkDesc)
    : ((∀ which, ∃ fuel, (partGetInfoDos dev fuel which).isSome) ∧ ∃ fuel, (partPrintDos dev fuel).isSome)
      ↔ ¬Revisits (FollowsFirst dev) (0, 0) ∧ ¬Revisits (FollowsEvery dev) (0, 0) := by
  rw [partGetInfoDos_ends_iff, partPrintDos_ends_iff]

def selfNamedBlock (i : Nat) : UInt8 :=
  if i = 0x1c2 then 0x5 else if i = 0x1fe then 0x55 else if i = 0x1ff then 0xaa else 0

def selfNamed : BlkDesc where
  lba := 1
  genericName _ := ""
  read _ := some selfNamedBlock

theorem not_ends_selfNamed
    : ¬((∀ which, ∃ fuel, (partGetInfoDos selfNamed fuel which).isSome)
      ∧ ∃ fuel, (partPrintDos selfNamed fuel).isSome) := by
  rw [partPrintDos_ends_iff]
  intro h
  apply h.2
  refine ⟨(0, 0), .refl, .single ⟨selfNamedBlock, rfl, ?_, dosPartition selfNamedBlock 0, ?_, ?_, ?_⟩⟩
  all_goals decide +kernel

end UBoot.PartDos
