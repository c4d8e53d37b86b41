import MarvellBoot.UBoot.PartDos.Lemmas.Walk

open Relation Walk

namespace UBoot.PartDos

open List

variable {pt' : DosPartition} {buffer' : Nat → UInt8}

variable {dev : BlkDesc} {sector disksig : Nat} {n k : Int} {pt : DosPartition} {pts : List DosPartition}

def numbered (sector : Nat) : List DosPartition → Int → List (Int × DosPartition)
  | [], _ => []
  | pt :: pts, n => (n, pt) :: numbered sector pts (nextNum sector pt n)

structure Used (pt : DosPartition) : Prop where
  sysInd : pt.sysInd ≠ 0
  primary : isExtended pt.sysInd = false

def LegalBootInd (pt : DosPartition) : Prop := pt.bootInd = 0 ∨ pt.bootInd = 0x80

lemma legalBootInd_iff : LegalBootInd pt ↔ pt.bootInd &&& ~~~(0x80 : UInt8) = 0 := by
  have hall : ∀ b : Fin 256, UInt8.ofFin b = 0 ∨ UInt8.ofFin b = 0x80
      ↔ UInt8.ofFin b &&& ~~~(0x80 : UInt8) = 0 := by decide +kernel
  exact hall pt.bootInd.toFin

lemma nextNum_of_used (h : Used pt) : nextNum sector pt n = n + 1 := by
  unfold nextNum isNumbered
  simp [h.sysInd, h.primary]

section

variable (h : (k, pt) ∈ numbered sector pts n)

include h

lemma le_of_mem_numbered : n ≤ k := by
  induction pts generalizing n with
  | nil => simp [numbered] at h
  | cons pt' pts ih =>
    rw [numbered, mem_cons, Prod.mk.injEq] at h
    cases h with
    | inl h => omega
    | inr h => exact le_trans (le_nextNum pt') (ih h)

lemma lt_lastNum (hused : Used pt) : k < lastNum sector pts n := by
  induction pts generalizing n with
  | nil => simp [numbered] at h
  | cons pt' pts ih =>
    rw [numbered, mem_cons, Prod.mk.injEq] at h
    cases h with
    | inl h =>
      have hle : nextNum sector pt' n ≤ lastNum sector (pt' :: pts) n := le_lastNum pts
      rw [← h.2, nextNum_of_used hused, ← h.1] at hle
      rw [← h.2, ← h.1]
      omega
    | inr h => exact ih h

lemma eq_of_mem_numbered (hused : Used pt)
    (h' : (k, pt') ∈ numbered sector pts n) (hused' : Used pt')
    : pt = pt' := by
  induction pts generalizing n with
  | nil => simp [numbered] at h
  | cons p pts ih =>
    rw [numbered, mem_cons, Prod.mk.injEq] at h h'
    cases h with
    | inl h =>
      cases h' with
      | inl h' => rw [h.2, h'.2]
      | inr h' =>
        have hle := le_of_mem_numbered h'
        rw [← h.2, nextNum_of_used hused] at hle
        omega
    | inr h =>
      cases h' with
      | inl h' =>
        have hle := le_of_mem_numbered h
        rw [← h'.2, nextNum_of_used hused'] at hle
        omega
      | inr h' => exact ih h h'

end

section Tables

variable {which : Int}

lemma mem_of_table {info : DiskPartition} (h : partGetInfoExtended.table dev sector which disksig pts n = .inl info)
    : ∃ pt, (which, pt) ∈ numbered sector pts n ∧ Used pt ∧ LegalBootInd pt
      ∧ info = fillInfo dev pt sector which disksig := by
  induction pts generalizing n with
  | nil => simp [partGetInfoExtended.table] at h
  | cons pt pts ih =>
    rw [partGetInfoExtended.table] at h
    split at h
    . next hmatch =>
      obtain ⟨hboot, hsys, hnum, hext⟩ := hmatch
      rw [Sum.inl.injEq] at h
      refine ⟨pt, ?_, ⟨hsys, hext⟩, legalBootInd_iff.mpr hboot, ?_⟩
      . rw [hnum]
        apply mem_cons_self
      . rw [← h, hnum]
    . obtain ⟨pt', hmem, hrest⟩ := ih h
      exact ⟨pt', mem_cons_of_mem _ hmem, hrest⟩

lemma exists_table_of_mem (h : (which, pt) ∈ numbered sector pts n) (hused : Used pt) (hboot : LegalBootInd pt)
    : partGetInfoExtended.table dev sector which disksig pts n = .inl (fillInfo dev pt sector which disksig) := by
  induction pts generalizing n with
  | nil => simp [numbered] at h
  | cons pt' pts ih =>
    rw [partGetInfoExtended.table]
    split
    . next hmatch =>
      obtain ⟨_, hsys, hnum, hext⟩ := hmatch
      have hmem : (which, pt') ∈ numbered sector (pt' :: pts) n := by
        rw [hnum]
        apply mem_cons_self
      rw [eq_of_mem_numbered h hused hmem ⟨hsys, hext⟩, hnum]
    next hmatch =>
    rw [numbered, mem_cons, Prod.mk.injEq] at h
    cases h with
    | inl h =>
      rw [h.2, legalBootInd_iff] at hboot
      rw [h.2] at hused
      exact absurd ⟨hboot, hused.sysInd, h.1.symm, hused.primary⟩ hmatch
    | inr h => exact ih h

lemma table_of_lastNum_le (h : lastNum sector pts n ≤ which)
    : partGetInfoExtended.table dev sector which disksig pts n = .inr (lastNum sector pts n) := by
  cases htable : partGetInfoExtended.table dev sector which disksig pts n with
  | inl info =>
    have ⟨pt, hmem, hused, _⟩ := mem_of_table htable
    have hlt := lt_lastNum hmem hused
    omega
  | inr m => rw [eq_lastNum_of_table htable]

lemma printTable_snd : (printPartitionExtended.table sector disksig pts n).2 = lastNum sector pts n := by
  induction pts generalizing n with
  | nil => rfl
  | cons pt pts ih =>
    simp only [printPartitionExtended.table]
    split <;> exact ih

lemma mem_printTable_iff {l : Line}
    : l ∈ (printPartitionExtended.table sector disksig pts n).1
      ↔ ∃ k pt, (k, pt) ∈ numbered sector pts n ∧ pt.sysInd ≠ 0 ∧ (sector = 0 ∨ isExtended pt.sysInd = false)
        ∧ l = printOnePart pt sector k disksig := by
  induction pts generalizing n with
  | nil => simp [printPartitionExtended.table, numbered]
  | cons pt pts ih =>
    rw [printPartitionExtended.table]
    simp only [numbered, mem_cons, Prod.mk.injEq]
    split
    . next hshown =>
      rw [mem_cons, ih]
      constructor
      . rintro (hl | ⟨k, p, hmem, hrest⟩)
        . exact ⟨n, pt, .inl ⟨rfl, rfl⟩, hshown.1, by simpa using hshown.2, hl⟩
        . exact ⟨k, p, .inr hmem, hrest⟩
      . rintro ⟨k, p, ⟨rfl, rfl⟩ | hmem, hrest⟩
        . exact .inl hrest.2.2
        . exact .inr ⟨k, p, hmem, hrest⟩
    next hhidden =>
    rw [ih]
    constructor
    . rintro ⟨k, p, hmem, hrest⟩
      exact ⟨k, p, .inr hmem, hrest⟩
    . rintro ⟨k, p, ⟨rfl, rfl⟩ | hmem, hrest⟩
      . exact absurd ⟨hrest.1, by simpa using hrest.2.1⟩ hhidden
      . exact ⟨k, p, hmem, hrest⟩

end Tables

structure Visit where
  sector : Nat
  relative : Nat
  partNum : Int

def firstVisit : Visit := ⟨0, 0, 1⟩

structure ListRecord (dev : BlkDesc) (v : Visit) (buffer : Nat → UInt8) : Prop where
  read : dev.read v.sector = some buffer
  mbr : testBlockType buffer = .mbr

structure LookRecord (dev : BlkDesc) (v : Visit) (buffer : Nat → UInt8) : Prop where
  read : dev.read v.sector = some buffer
  signature : hasSignature buffer = true

def NextListed (dev : BlkDesc) (v v' : Visit) : Prop :=
  ∃ buffer, ListRecord dev v buffer ∧ v'.partNum = lastNum v.sector (partitionTable buffer) v.partNum
    ∧ ∃ pt ∈ partitionTable buffer, isExtended pt.sysInd = true
      ∧ (v'.sector, v'.relative) = follow v.sector v.relative pt

def NextSearched (dev : BlkDesc) (v v' : Visit) : Prop :=
  ∃ buffer, LookRecord dev v buffer ∧ v'.partNum = lastNum v.sector (partitionTable buffer) v.partNum
    ∧ ∃ pt, (partitionTable buffer).find? (fun pt => isExtended pt.sysInd) = some pt
      ∧ (v'.sector, v'.relative) = follow v.sector v.relative pt

def Listed (dev : BlkDesc) (v : Visit) (buffer : Nat → UInt8) : Prop :=
  ReflTransGen (NextListed dev) firstVisit v ∧ ListRecord dev v buffer

def Searched (dev : BlkDesc) (v : Visit) (buffer : Nat → UInt8) : Prop :=
  ReflTransGen (NextSearched dev) firstVisit v ∧ LookRecord dev v buffer

def HasSlot (v : Visit) (buffer : Nat → UInt8) (k : Int) (pt : DosPartition) : Prop :=
  (k, pt) ∈ numbered v.sector (partitionTable buffer) v.partNum ∧ Used pt

section Lookup

variable {which : Int} {fuel : Nat} {v v' : Visit} {buffer : Nat → UInt8}

lemma searched_of_getInfo {info : DiskPartition}
    (h : partGetInfoExtended dev which fuel v.sector v.relative v.partNum disksig = some (.entry info))
    : ∃ v' buffer pt, ReflTransGen (NextSearched dev) v v' ∧ LookRecord dev v' buffer
      ∧ HasSlot v' buffer which pt ∧ LegalBootInd pt
      ∧ info.start = lbaAdd v'.sector pt.start4 ∧ info.size = pt.size4 := by
  induction fuel generalizing v disksig with
  | zero => simp [partGetInfoExtended] at h
  | succ fuel ih =>
    by_cases hsome : ∃ buffer, dev.read v.sector = some buffer ∧ hasSignature buffer = true
    . obtain ⟨buffer, hread, hsig⟩ := hsome
      cases htable : partGetInfoExtended.table dev v.sector which (diskSignature v.sector buffer disksig)
        (partitionTable buffer) v.partNum with
      | inl found =>
        obtain ⟨pt, hmem, hused, hboot, hfound⟩ := mem_of_table htable
        rw [partGetInfoExtended_found hread hsig htable, Option.some.injEq, GetInfo.entry.injEq, hfound] at h
        rw [← h]
        exact ⟨v, buffer, pt, .refl, ⟨hread, hsig⟩, ⟨hmem, hused⟩, hboot, rfl, rfl⟩
      | inr m =>
        cases hext : (partitionTable buffer).find? (fun pt => isExtended pt.sysInd) with
        | none =>
          rw [partGetInfoExtended_last hread hsig htable hext, Option.some.injEq] at h
          split at h <;> cases h
        | some pt =>
          rw [partGetInfoExtended_follow hread hsig htable hext] at h
          obtain ⟨v', buffer', pt', hreach, hrest⟩ := @ih _ ⟨_, _, _⟩ h
          refine ⟨v', buffer', pt', .head ?_ hreach, hrest⟩
          exact ⟨buffer, ⟨hread, hsig⟩, rfl, pt, hext, rfl⟩
    rw [partGetInfoExtended_stop] at h
    . cases h
    . intro buffer hread
      rw [← Bool.not_eq_true]
      exact fun hsig => hsome ⟨buffer, hread, hsig⟩

lemma partNum_le (h : ReflTransGen (NextSearched dev) v v') : v.partNum ≤ v'.partNum := by
  induction h with
  | refl => exact le_refl _
  | tail _ hstep ih =>
    have ⟨buffer, _, hnum, _⟩ := hstep
    rw [hnum]
    exact le_trans ih (le_lastNum _)

lemma getInfo_of_searched (hreach : ReflTransGen (NextSearched dev) v v')
    (hrecord : LookRecord dev v' buffer) (hslot : HasSlot v' buffer which pt) (hboot : LegalBootInd pt)
    (disksig : Nat)
    : ∃ fuel info, partGetInfoExtended dev which fuel v.sector v.relative v.partNum disksig = some (.entry info)
      ∧ info.start = lbaAdd v'.sector pt.start4 ∧ info.size = pt.size4 := by
  induction hreach using ReflTransGen.head_induction_on generalizing disksig with
  | refl =>
    refine ⟨1, _, partGetInfoExtended_found hrecord.read hrecord.signature
      (exists_table_of_mem hslot.1 hslot.2 hboot), rfl, rfl⟩
  | @head v w hstep hreach ih =>
    have ⟨buffer', hrecord', hnum, pt', hext, hpos⟩ := hstep
    -- The number is in a later record, so it is not found in this one.
    have hpass : lastNum v.sector (partitionTable buffer') v.partNum ≤ which := by
      rw [← hnum]
      exact le_trans (partNum_le hreach) (le_of_mem_numbered hslot.1)
    have ⟨fuel, info, hinfo, hplace⟩ := ih (diskSignature v.sector buffer' disksig)
    refine ⟨fuel + 1, info, ?_, hplace⟩
    rw [partGetInfoExtended_follow hrecord'.read hrecord'.signature (table_of_lastNum_le hpass) hext, ← hnum, ← hpos]
    exact hinfo

end Lookup

section Listing

variable {fuel : Nat} {v v' : Visit} {buffer : Nat → UInt8} {lines : List Line}

lemma listed_of_print {l : Line}
    (h : printPartitionExtended dev fuel v.sector v.relative v.partNum disksig = some lines) (hl : l ∈ lines)
    (hprimary : isExtended l.sysInd = false)
    : ∃ v' buffer pt, ReflTransGen (NextListed dev) v v' ∧ ListRecord dev v' buffer
      ∧ HasSlot v' buffer l.partNum pt ∧ l.lbaStart = lbaAdd v'.sector pt.start4 ∧ l.lbaSize = pt.size4 := by
  induction fuel generalizing v disksig lines with
  | zero => simp [printPartitionExtended] at h
  | succ fuel ih =>
    by_cases hmbr : ∃ buffer, dev.read v.sector = some buffer ∧ testBlockType buffer = .mbr
    . obtain ⟨buffer, hread, htype⟩ := hmbr
      rw [printPartitionExtended_succ hread htype, Option.map_eq_some_iff] at h
      obtain ⟨rest, hrest, hlines⟩ := h
      rw [← hlines, mem_append, mem_printTable_iff] at hl
      rw [mapM_eq_some_iff] at hrest
      cases hl with
      | inl hl =>
        obtain ⟨k, pt, hmem, hsys, hext, hline⟩ := hl
        rw [hline] at hprimary ⊢
        exact ⟨v, buffer, pt, .refl, ⟨hread, htype⟩, ⟨hmem, ⟨hsys, hprimary⟩⟩, rfl, rfl⟩
      | inr hl =>
        obtain ⟨lines', hlines', hl'⟩ := mem_flatten.mp hl
        have hmem : some lines' ∈ rest.map some := mem_map_of_mem hlines'
        rw [← hrest] at hmem
        obtain ⟨pt, hpt, hprint⟩ := mem_map.mp hmem
        obtain ⟨hmem, hext⟩ := mem_filter.mp hpt
        obtain ⟨v', buffer', pt', hreach, hfound⟩ := @ih _ ⟨_, _, _⟩ _ hprint hl'
        refine ⟨v', buffer', pt', .head ?_ hreach, hfound⟩
        exact ⟨buffer, ⟨hread, htype⟩, printTable_snd, pt, hmem, hext, rfl⟩
    rw [printPartitionExtended_stop, Option.some.injEq] at h
    . rw [← h] at hl
      cases hl
    . intro buffer hread htype
      exact hmbr ⟨buffer, hread, htype⟩

lemma print_of_listed (hreach : ReflTransGen (NextListed dev) v v')
    (hrecord : ListRecord dev v' buffer) (hslot : HasSlot v' buffer k pt)
    (h : printPartitionExtended dev fuel v.sector v.relative v.partNum disksig = some lines)
    : ∃ l ∈ lines, isExtended l.sysInd = false ∧ l.partNum = k
      ∧ l.lbaStart = lbaAdd v'.sector pt.start4 ∧ l.lbaSize = pt.size4 := by
  induction hreach using ReflTransGen.head_induction_on generalizing fuel disksig lines with
  | refl =>
    cases fuel with
    | zero => simp [printPartitionExtended] at h
    | succ fuel =>
      rw [printPartitionExtended_succ hrecord.read hrecord.mbr, Option.map_eq_some_iff] at h
      obtain ⟨rest, _, hlines⟩ := h
      refine ⟨printOnePart pt v'.sector k (diskSignature v'.sector buffer disksig), ?_, hslot.2.primary, rfl, rfl, rfl⟩
      rw [← hlines, mem_append, mem_printTable_iff]
      exact .inl ⟨k, pt, hslot.1, hslot.2.sysInd, .inr hslot.2.primary, rfl⟩
  | @head v w hstep hreach ih =>
    obtain ⟨buffer', hrecord', hnum, pt', hmem, hext, hpos⟩ := hstep
    cases fuel with
    | zero => simp [printPartitionExtended] at h
    | succ fuel =>
      rw [printPartitionExtended_succ hrecord'.read hrecord'.mbr, Option.map_eq_some_iff] at h
      obtain ⟨rest, hrest, hlines⟩ := h
      rw [mapM_eq_some_iff, printTable_snd] at hrest
      have hin := mem_map_of_mem (f := fun pt =>
        printPartitionExtended dev fuel (follow v.sector v.relative pt).1 (follow v.sector v.relative pt).2
          (lastNum v.sector (partitionTable buffer') v.partNum) (diskSignature v.sector buffer' disksig))
        (mem_filter.mpr ⟨hmem, hext⟩ : pt' ∈ (partitionTable buffer').filter fun pt => isExtended pt.sysInd)
      rw [hrest, ← hnum, ← hpos] at hin
      obtain ⟨lines', hlines', hprint⟩ := mem_map.mp hin
      obtain ⟨l, hl, hplace⟩ := ih hprint.symm
      refine ⟨l, ?_, hplace⟩
      rw [← hlines, mem_append]
      exact .inr (mem_flatten.mpr ⟨lines', hlines', hl⟩)

end Listing

structure Agree (dev : BlkDesc) : Prop where
  found : ∀ fuel lines, partPrintDos dev fuel = some lines → ∀ l ∈ lines, isExtended l.sysInd = false →
    ∃ fuel' info, partGetInfoDos dev fuel' l.partNum = some (.entry info)
      ∧ info.start = l.lbaStart ∧ info.size = l.lbaSize
  listed : ∀ fuel which info, partGetInfoDos dev fuel which = some (.entry info) →
    ∃ fuel' lines, partPrintDos dev fuel' = some lines ∧ ∃ l ∈ lines, isExtended l.sysInd = false
      ∧ l.partNum = which ∧ l.lbaStart = info.start ∧ l.lbaSize = info.size

def OnList (dev : BlkDesc) (k : Int) (start size : Nat) : Prop :=
  ∃ v buffer pt, Listed dev v buffer ∧ HasSlot v buffer k pt ∧ start = lbaAdd v.sector pt.start4 ∧ size = pt.size4

def OnSearch (dev : BlkDesc) (k : Int) (start size : Nat) : Prop :=
  ∃ v buffer pt, Searched dev v buffer ∧ HasSlot v buffer k pt ∧ LegalBootInd pt
    ∧ start = lbaAdd v.sector pt.start4 ∧ size = pt.size4

/-- A table on which both walks go the same way. The boot indicator of the first slot decides about the record. -/
structure Regular (buffer : Nat → UInt8) : Prop where
  first : LegalBootInd (dosPartition buffer 0)
  used : ∀ pt ∈ partitionTable buffer, Used pt → LegalBootInd pt
  extended : ((partitionTable buffer).filter fun pt => isExtended pt.sysInd).length ≤ 1

def Follows (dev : BlkDesc) (pos pos' : Nat × Nat) : Prop :=
  ∃ buffer, dev.read pos.1 = some buffer ∧ hasSignature buffer = true
    ∧ ∃ pt ∈ partitionTable buffer, isExtended pt.sysInd = true ∧ pos' = follow pos.1 pos.2 pt

def RegularChain (dev : BlkDesc) : Prop :=
  ∀ pos buffer, ReflTransGen (Follows dev) (0, 0) pos → dev.read pos.1 = some buffer → hasSignature buffer = true →
    Regular buffer

section Agreement

variable {start size : Nat}

lemma getInfo_iff_onSearch
    : (∃ fuel info, partGetInfoDos dev fuel k = some (.entry info) ∧ info.start = start ∧ info.size = size)
      ↔ OnSearch dev k start size := by
  constructor
  . intro ⟨fuel, info, hinfo, hstart, hsize⟩
    have ⟨v, buffer, pt, hreach, hrecord, hslot, hboot, hstart', hsize'⟩ :=
      @searched_of_getInfo _ _ _ _ firstVisit _ hinfo
    rw [← hstart, ← hsize]
    exact ⟨v, buffer, pt, ⟨hreach, hrecord⟩, hslot, hboot, hstart', hsize'⟩
  . intro ⟨v, buffer, pt, ⟨hreach, hrecord⟩, hslot, hboot, hstart, hsize⟩
    have ⟨fuel, info, hinfo, hstart', hsize'⟩ := getInfo_of_searched hreach hrecord hslot hboot 0
    exact ⟨fuel, info, hinfo, hstart'.trans hstart.symm, hsize'.trans hsize.symm⟩

lemma print_iff_onList {fuel : Nat} {lines : List Line} (h : partPrintDos dev fuel = some lines)
    : (∃ l ∈ lines, isExtended l.sysInd = false ∧ l.partNum = k ∧ l.lbaStart = start ∧ l.lbaSize = size)
      ↔ OnList dev k start size := by
  constructor
  . intro ⟨l, hl, hprimary, hk, hstart, hsize⟩
    have ⟨v, buffer, pt, hreach, hrecord, hslot, hstart', hsize'⟩ := @listed_of_print _ _ _ firstVisit _ _ h hl hprimary
    rw [hk] at hslot
    rw [← hstart, ← hsize]
    exact ⟨v, buffer, pt, ⟨hreach, hrecord⟩, hslot, hstart', hsize'⟩
  . intro ⟨v, buffer, pt, ⟨hreach, hrecord⟩, hslot, hstart, hsize⟩
    have ⟨l, hl, hprimary, hk, hstart', hsize'⟩ := print_of_listed hreach hrecord hslot h
    exact ⟨l, hl, hprimary, hk, hstart'.trans hstart.symm, hsize'.trans hsize.symm⟩

lemma agree_of_same (hevery : ¬Revisits (FollowsEvery dev) (0, 0))
    (h : ∀ k start size, OnList dev k start size ↔ OnSearch dev k start size) : Agree dev := by
  obtain ⟨fuel, hsome⟩ := partPrintDos_ends_iff.mpr hevery
  obtain ⟨lines, hlines⟩ := Option.isSome_iff_exists.mp hsome
  constructor
  . intro fuel' lines' hlines' l hl hprimary
    rw [getInfo_iff_onSearch, ← h, ← print_iff_onList hlines']
    exact ⟨l, hl, hprimary, rfl, rfl, rfl⟩
  intro fuel' which info hinfo
  refine ⟨fuel, lines, hlines, ?_⟩
  rw [print_iff_onList hlines, h, ← getInfo_iff_onSearch]
  exact ⟨fuel', info, hinfo, rfl, rfl⟩

end Agreement

section Chain

variable {buffer : Nat → UInt8} {v v' : Visit}

lemma hasSignature_of_mbr (h : testBlockType buffer = .mbr) : hasSignature buffer = true := by
  unfold testBlockType at h
  split at h
  . assumption
  . contradiction

lemma Regular.mbr (h : Regular buffer) (hsig : hasSignature buffer = true) : testBlockType buffer = .mbr := by
  have hlegal : ¬((dosPartition buffer 0).bootInd ≠ 0 ∧ (dosPartition buffer 0).bootInd ≠ 0x80) := by
    intro hne
    exact h.first.elim hne.1 hne.2
  simp only [testBlockType, hsig, if_true, testBlockType.slots, if_neg hlegal]

lemma Regular.find? (h : Regular buffer) (hmem : pt ∈ partitionTable buffer) (hext : isExtended pt.sysInd = true)
    : (partitionTable buffer).find? (fun pt => isExtended pt.sysInd) = some pt := by
  have hin : pt ∈ (partitionTable buffer).filter fun pt => isExtended pt.sysInd := mem_filter.mpr ⟨hmem, hext⟩
  have hone := h.extended
  rw [← head?_filter]
  generalize (partitionTable buffer).filter (fun pt => isExtended pt.sysInd) = l at hin hone
  cases l with
  | nil => contradiction
  | cons pt' l =>
    rw [length_cons] at hone
    rw [length_eq_zero_iff.mp (by omega : l.length = 0), mem_singleton] at hin
    rw [hin]
    rfl

lemma NextListed.searched (hreg : ∀ buffer, dev.read v.sector = some buffer → hasSignature buffer = true → Regular buffer)
    (h : NextListed dev v v') : NextSearched dev v v' := by
  obtain ⟨buffer, hrecord, hnum, pt, hmem, hext, hpos⟩ := h
  have hsig := hasSignature_of_mbr hrecord.mbr
  exact ⟨buffer, ⟨hrecord.read, hsig⟩, hnum, pt, (hreg buffer hrecord.read hsig).find? hmem hext, hpos⟩

lemma NextSearched.listed (hreg : ∀ buffer, dev.read v.sector = some buffer → hasSignature buffer = true → Regular buffer)
    (h : NextSearched dev v v') : NextListed dev v v' := by
  obtain ⟨buffer, hrecord, hnum, pt, hfind, hpos⟩ := h
  have hmbr := (hreg buffer hrecord.read hrecord.signature).mbr hrecord.signature
  have hext := find?_some hfind
  exact ⟨buffer, ⟨hrecord.read, hmbr⟩, hnum, pt, mem_of_find?_eq_some hfind, hext, hpos⟩

lemma NextSearched.follows (h : NextSearched dev v v') : Follows dev (v.sector, v.relative) (v'.sector, v'.relative) := by
  obtain ⟨buffer, hrecord, _, pt, hfind, hpos⟩ := h
  have hext := find?_some hfind
  exact ⟨buffer, hrecord.read, hrecord.signature, pt, mem_of_find?_eq_some hfind, hext, hpos⟩

section

variable (h : RegularChain dev)

include h

lemma reach_searched (hreach : ReflTransGen (NextSearched dev) firstVisit v)
    : ReflTransGen (NextListed dev) firstVisit v ∧ ReflTransGen (Follows dev) (0, 0) (v.sector, v.relative) := by
  induction hreach with
  | refl => exact ⟨.refl, .refl⟩
  | tail _ hstep ih =>
    exact ⟨ih.1.tail (hstep.listed fun buffer => h _ buffer ih.2), ih.2.tail hstep.follows⟩

lemma reach_listed (hreach : ReflTransGen (NextListed dev) firstVisit v)
    : ReflTransGen (NextSearched dev) firstVisit v ∧ ReflTransGen (Follows dev) (0, 0) (v.sector, v.relative) := by
  induction hreach with
  | refl => exact ⟨.refl, .refl⟩
  | tail _ hstep ih =>
    have hstep := hstep.searched fun buffer => h _ buffer ih.2
    exact ⟨ih.1.tail hstep, ih.2.tail hstep.follows⟩

lemma legalBootInd_of_hasSlot {k : Int} (hreach : ReflTransGen (Follows dev) (0, 0) (v.sector, v.relative))
    (hread : dev.read v.sector = some buffer) (hsig : hasSignature buffer = true) (hslot : HasSlot v buffer k pt)
    : LegalBootInd pt := by
  have hmem {pts : List DosPartition} {n : Int} (hin : (k, pt) ∈ numbered v.sector pts n) : pt ∈ pts := by
    induction pts generalizing n with
    | nil => contradiction
    | cons p pts ih =>
      rw [numbered, mem_cons, Prod.mk.injEq] at hin
      rcases hin with hin | hin
      . rw [hin.2]
        exact mem_cons_self
      . exact mem_cons_of_mem _ (ih hin)
  exact (h _ buffer hreach hread hsig).used pt (hmem hslot.1) hslot.2

lemma onList_iff_onSearch (k : Int) (start size : Nat) : OnList dev k start size ↔ OnSearch dev k start size := by
  constructor
  . rintro ⟨v, buffer, pt, ⟨hreach, hrecord⟩, hslot, hplace⟩
    obtain ⟨hreach, hchain⟩ := reach_listed h hreach
    have hsig := hasSignature_of_mbr hrecord.mbr
    exact ⟨v, buffer, pt, ⟨hreach, hrecord.read, hsig⟩, hslot,
      legalBootInd_of_hasSlot h hchain hrecord.read hsig hslot, hplace⟩
  . rintro ⟨v, buffer, pt, ⟨hreach, hrecord⟩, hslot, _, hplace⟩
    obtain ⟨hreach, hchain⟩ := reach_searched h hreach
    have hmbr := (h _ buffer hchain hrecord.read hrecord.signature).mbr hrecord.signature
    exact ⟨v, buffer, pt, ⟨hreach, hrecord.read, hmbr⟩, hslot, hplace⟩

end

end Chain

section Logical

-- A slot of the type, at the block and of one block, and the signature.
def slotBlock (slots : List (UInt8 × UInt8)) (i : Nat) : UInt8 :=
  if i = 0x1fe then 0x55
  else if i = 0x1ff then 0xaa
  else if i < dosPartTblOffset then 0
  else
    match slots[(i - dosPartTblOffset) / 16]?, (i - dosPartTblOffset) % 16 with
    | some (sysInd, _), 4 => sysInd
    | some (_, start), 8 => start
    | some _, 12 => 1
    | _, _ => 0

/-- A primary partition, an extended one at block 10 and two logical ones in it, the second behind a link. -/
def twoLogical : BlkDesc where
  lba := 20
  genericName _ := ""
  read
    | 0 => some (slotBlock [(0x83, 1), (0x5, 10)])
    | 10 => some (slotBlock [(0x83, 1), (0x5, 5)])
    | 15 => some (slotBlock [(0x83, 1)])
    | _ => none

lemma follows_twoLogical {pos pos' : Nat × Nat} (hpos : pos ∈ [(0, 0), (10, 10), (15, 10)])
    (h : Follows twoLogical pos pos') : pos' ∈ [(0, 0), (10, 10), (15, 10)] ∧ pos.1 < pos'.1 := by
  obtain ⟨buffer, hread, _, pt, hmem, hext, rfl⟩ := h
  have hall : ∀ pos ∈ [(0, 0), (10, 10), (15, 10)], ∀ buffer ∈ twoLogical.read pos.1, ∀ pt ∈ partitionTable buffer,
      isExtended pt.sysInd = true →
      follow pos.1 pos.2 pt ∈ [(0, 0), (10, 10), (15, 10)] ∧ pos.1 < (follow pos.1 pos.2 pt).1 := by
    decide +kernel
  exact hall pos hpos buffer hread pt hmem hext

lemma reach_twoLogical {pos : Nat × Nat} (h : ReflTransGen (Follows twoLogical) (0, 0) pos)
    : pos ∈ [(0, 0), (10, 10), (15, 10)] := by
  induction h with
  | refl => decide
  | tail _ hstep ih => exact (follows_twoLogical ih hstep).1

lemma FollowsEvery.follows {pos pos' : Nat × Nat} (h : FollowsEvery dev pos pos') : Follows dev pos pos' := by
  obtain ⟨buffer, hread, hmbr, hpt⟩ := h
  exact ⟨buffer, hread, hasSignature_of_mbr hmbr, hpt⟩

lemma not_revisits_twoLogical : ¬Revisits (FollowsEvery twoLogical) (0, 0) := by
  rintro ⟨pos, hreach, hcycle⟩
  have hin := reach_twoLogical (ReflTransGen.mono (fun _ _ => FollowsEvery.follows) _ _ hreach)
  have hlt {pos' : Nat × Nat} (h : TransGen (FollowsEvery twoLogical) pos pos')
      : pos' ∈ [(0, 0), (10, 10), (15, 10)] ∧ pos.1 < pos'.1 := by
    induction h with
    | single hstep => exact follows_twoLogical hin hstep.follows
    | tail _ hstep ih =>
      have hnext := follows_twoLogical ih.1 hstep.follows
      exact ⟨hnext.1, ih.2.trans hnext.2⟩
  exact lt_irrefl _ (hlt hcycle).2

lemma regularChain_twoLogical : RegularChain twoLogical := by
  intro pos buffer hreach hread _
  have hall : ∀ pos ∈ [(0, 0), (10, 10), (15, 10)], ∀ buffer ∈ twoLogical.read pos.1,
      ((dosPartition buffer 0).bootInd = 0 ∧ ∀ pt ∈ partitionTable buffer, pt.bootInd = 0)
        ∧ ((partitionTable buffer).filter fun pt => isExtended pt.sysInd).length ≤ 1 := by
    decide +kernel
  obtain ⟨⟨hfirst, hused⟩, hone⟩ := hall pos (reach_twoLogical hreach) buffer hread
  exact ⟨.inl hfirst, fun pt hmem _ => .inl (hused pt hmem), hone⟩

end Logical

section TwoPrimaries

def twoPrimariesBlock (bootInd : UInt8) (i : Nat) : UInt8 :=
  if i = 0x1c2 ∨ i = 0x1d2 then 0x83
  else if i = 0x1c6 ∨ i = 0x1ca ∨ i = 0x1da then 1
  else if i = 0x1d6 then 2
  else if i = 0x1ce then bootInd
  else if i = 0x1fe then 0x55
  else if i = 0x1ff then 0xaa
  else 0

def twoPrimaries (bootInd : UInt8) : BlkDesc where
  lba := 3
  genericName _ := ""
  read _ := some (twoPrimariesBlock bootInd)

variable {bootInd : UInt8}

lemma not_isExtended_twoPrimaries
    : ∀ pt ∈ partitionTable (twoPrimariesBlock bootInd), isExtended pt.sysInd = false := by
  simp only [partitionTable, forall_mem_map, mem_range, dosPartition]
  intro slot hslot
  match slot, hslot with
  | 0, _ => rfl
  | 1, _ => rfl
  | 2, _ => rfl
  | 3, _ => rfl

lemma not_revisits_twoPrimaries : ¬Revisits (FollowsEvery (twoPrimaries bootInd)) (0, 0) := by
  intro ⟨pos, _, hcycle⟩
  have ⟨pos', ⟨buffer, hread, _, pt, hmem, hext, _⟩, _⟩ := TransGen.head'_iff.mp hcycle
  cases hread
  rw [not_isExtended_twoPrimaries pt hmem] at hext
  exact Bool.false_ne_true hext

end TwoPrimaries

end UBoot.PartDos
