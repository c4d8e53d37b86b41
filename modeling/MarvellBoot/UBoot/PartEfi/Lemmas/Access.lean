import MarvellBoot.UBoot.PartEfi.Access

namespace UBoot.PartEfi

open Mem List GptHeader Nat Option

variable {len off i part : Nat} {fits : GptHeader → List UInt8 → Prop}

def HeaderFits (dev : BlkDesc) (disk : Disk) (lba : Nat) : Prop :=
  ∀ block, blkDread dev disk lba 1 = some block → (GptHeader.ofBytes block).signature = gptHeaderSignature →
    (GptHeader.ofBytes block).headerSize.toNat ≤ dev.blksz

structure Accepted (crc32 : List UInt8 → UInt32) (memalign : Nat → Bool) (dev : BlkDesc) (disk : Disk) (lba : Nat)
    (h : GptHeader) (pte : List UInt8) : Prop where
  header : ∃ block, blkDread dev disk lba 1 = some block ∧ h = GptHeader.ofBytes block
    ∧ h.headerSize.toNat ≤ gptHeaderSize + (block.drop gptHeaderSize).length
    ∧ headerCrc crc32 h (block.drop gptHeaderSize) = h.headerCrc32
  signature : h.signature = gptHeaderSignature
  myLba : h.myLba.toNat = lba
  firstUsableLba : h.firstUsableLba.toNat ≤ dev.lba
  lastUsableLba : h.lastUsableLba.toNat ≤ dev.lba
  count : h.count ≠ 0
  memory : memalign (padToBlocksize dev h.count) = true
  entries : blkDread dev disk h.partitionEntryLba.toNat (blockCnt dev h.count) = some pte
  entriesCrc : crc32 (pte.take h.count) = h.partitionEntryArrayCrc32

def EntryFits (dev : BlkDesc) (h : GptHeader) (pte : List UInt8) (part : Nat) : Prop :=
  part ≤ h.numPartitionEntries.toNat →
    (part = 1 ∨ h.sizeofPartitionEntry.toNat = gptEntrySize)
      ∧ gptEntrySize * (part - 1) + (if isPteValid (gptPte pte (part - 1)) then gptEntrySize else 16)
        ≤ padToBlocksize dev h.count

structure ArrayFits (h : GptHeader) (pte : List UInt8) : Prop where
  place : 2 ≤ h.numPartitionEntries.toNat → isPteValid (gptPte pte 0) = true →
    h.sizeofPartitionEntry.toNat = gptEntrySize
  fewer : 4 ≤ h.numPartitionEntries.toNat → ∃ i < 4, isPteValid (gptPte pte i) = false

section

variable {crc32 : List UInt8 → UInt32} {memalign : Nat → Bool} {dev : BlkDesc} {disk : Disk} {lba : Nat}
  {h : GptHeader} {pte : List UInt8} {l l' : List Access} {a : Access}

@[simp]
lemma safe_nil : Safe dev [] := fun _ ha => absurd ha not_mem_nil

@[simp]
lemma safe_cons : Safe dev (a :: l) ↔ (a.InBounds dev ∧ a.InPlace) ∧ Safe dev l := forall_mem_cons

@[simp]
lemma safe_append : Safe dev (l ++ l') ↔ Safe dev l ∧ Safe dev l' := forall_mem_append

lemma header_safe (hle : off + len ≤ gptHeaderSize)
    : (Access.header off len).InBounds dev ∧ (Access.header off len).InPlace := by
  have hblksz := dev.le_blksz
  refine ⟨?_, trivial⟩
  unfold gptHeaderSize at hle
  simp only [Access.InBounds]
  omega

lemma header_iff : (Access.header off len).InBounds dev ∧ (Access.header off len).InPlace ↔ off + len ≤ dev.blksz :=
  and_iff_left trivial

lemma validateGptHeader_safe_iff {rest : List UInt8} {lastlba : Nat}
    : Safe dev (validateGptHeader.accesses crc32 h rest lba lastlba)
      ↔ (h.signature = gptHeaderSignature → h.headerSize.toNat ≤ dev.blksz) := by
  unfold validateGptHeader.accesses
  rw [safe_cons, and_iff_right (header_safe (by decide))]
  split
  . next hsig =>
    have hrest : Safe dev (if headerCrc crc32 h rest = h.headerCrc32 then
        .header 24 8 :: if h.myLba.toNat = lba then
          .header 40 8 :: if h.firstUsableLba.toNat ≤ lastlba then [.header 48 8] else []
        else
          []
      else
        []) := by
      split
      . rw [safe_cons, and_iff_right (header_safe (by decide))]
        split
        . rw [safe_cons, and_iff_right (header_safe (by decide))]
          split
          . rw [safe_cons]
            exact ⟨header_safe (by decide), safe_nil⟩
          . exact safe_nil
        . exact safe_nil
      . exact safe_nil
    rw [safe_append, and_iff_left hrest]
    simp only [safe_cons, safe_nil, and_true]
    rw [and_iff_right (header_safe (by decide)), and_iff_right (header_safe (by decide)),
      and_iff_left (header_safe (by decide)), header_iff, zero_add]
    exact ⟨fun h _ => h, fun h => h hsig⟩
  . next hsig => exact ⟨fun _ h => absurd h hsig, fun _ => safe_nil⟩

lemma count_le : h.count ≤ padToBlocksize dev h.count := by
  have hblksz := dev.le_blksz
  unfold padToBlocksize blockCnt
  have hdiv := div_add_mod (h.count - 1) dev.blksz
  have hmod := mod_lt (h.count - 1) (show 0 < dev.blksz by omega)
  have hmul : ((h.count - 1) / dev.blksz + 1) * dev.blksz = dev.blksz * ((h.count - 1) / dev.blksz) + dev.blksz := by
    ring
  omega

lemma blksz_le : dev.blksz ≤ padToBlocksize dev h.count := Nat.le_mul_of_pos_left _ (Nat.succ_pos _)

lemma allocReadGptEntries_safe : Safe dev (allocReadGptEntries.accesses memalign dev h) := by
  unfold allocReadGptEntries.accesses
  simp only [cons_append, nil_append, safe_cons]
  refine ⟨header_safe (by decide), header_safe (by decide), ?_⟩
  split
  . simp only [safe_cons]
    exact ⟨header_safe (by decide), ⟨le_rfl, trivial⟩, safe_nil⟩
  . exact safe_nil

lemma validateGptEntries_safe : Safe dev (validateGptEntries.accesses dev h) := by
  unfold validateGptEntries.accesses
  simp only [safe_cons]
  exact ⟨header_safe (by decide), header_safe (by decide), ⟨count_le, trivial⟩, header_safe (by decide), safe_nil⟩

lemma isGptValid_safe_iff : Safe dev (isGptValid.accesses crc32 memalign dev disk lba) ↔ HeaderFits dev disk lba := by
  unfold isGptValid.accesses HeaderFits
  rw [safe_cons, header_iff, and_iff_right (by omega)]
  cases hread : blkDread dev disk lba 1 with
  | none =>
    exact ⟨fun _ _ h => absurd h (by simp), fun _ => safe_nil⟩
  | some block =>
    rw [safe_append, validateGptHeader_safe_iff]
    constructor
    . rintro ⟨hsize, _⟩ block' heq
      rw [← some.inj heq]
      exact hsize
    intro hfits
    refine ⟨hfits block rfl, ?_⟩
    split
    . rw [safe_append]
      refine ⟨allocReadGptEntries_safe, ?_⟩
      split
      . exact safe_nil
      . split
        . exact validateGptEntries_safe
        . exact safe_nil
    . exact safe_nil

lemma acceptedTable_eq_some_iff
    : acceptedTable crc32 memalign dev disk lba = some (h, pte) ↔ Accepted crc32 memalign dev disk lba h pte := by
  unfold acceptedTable
  constructor
  . intro heq
    split at heq
    . next h' pte' hvalid =>
      split at heq
      . next hmem =>
        rw [some.injEq, Prod.mk.injEq] at heq
        rw [heq.1, heq.2] at hvalid
        rw [heq.1] at hmem
        unfold isGptValid at hvalid
        split at hvalid
        . cases hvalid
        next block hread =>
        dsimp only at hvalid
        split at hvalid
        . next hheader =>
          split at hvalid
          . cases hvalid
          next pte'' halloc =>
          split at hvalid
          . next hentries =>
            rw [some.injEq, Prod.mk.injEq] at hvalid
            rw [hvalid.1] at hheader hentries halloc
            rw [hvalid.2] at halloc hentries
            simp only [validateGptHeader, Bool.and_eq_true, beq_iff_eq, decide_eq_true_eq] at hheader
            have ⟨⟨⟨⟨⟨hsig, hlen⟩, hcrc⟩, hlba⟩, hfirst⟩, hlast⟩ := hheader
            unfold allocReadGptEntries at halloc
            split at halloc
            . cases halloc
            . next hcount =>
              simp only [validateGptEntries, beq_iff_eq] at hentries
              exact ⟨⟨block, hread, hvalid.1.symm, hlen, hcrc⟩, hsig, hlba, hfirst, hlast, hcount, hmem, halloc, hentries⟩
          . cases hvalid
        . cases hvalid
      . cases heq
    . cases heq
  intro hacc
  have ⟨block, hread, hblock, hlen, hcrc⟩ := hacc.header
  have hheader : validateGptHeader crc32 h (block.drop gptHeaderSize) lba dev.lba = true := by
    simp only [validateGptHeader, Bool.and_eq_true, beq_iff_eq, decide_eq_true_eq]
    exact ⟨⟨⟨⟨⟨hacc.signature, hlen⟩, hcrc⟩, hacc.myLba⟩, hacc.firstUsableLba⟩, hacc.lastUsableLba⟩
  have halloc : allocReadGptEntries dev disk h = some pte := by
    rw [allocReadGptEntries, if_neg hacc.count]
    exact hacc.entries
  have hentries : validateGptEntries crc32 h pte = true := beq_iff_eq.mpr hacc.entriesCrc
  have hvalid : isGptValid crc32 dev disk lba = some (h, pte) := by
    simp only [isGptValid, hread, ← hblock, hheader, halloc, hentries, if_true]
  rw [hvalid]
  exact if_pos hacc.memory

lemma acceptedTable_eq_none_iff
    : acceptedTable crc32 memalign dev disk lba = none ↔ ¬∃ h pte, Accepted crc32 memalign dev disk lba h pte := by
  simp only [← acceptedTable_eq_some_iff]
  cases acceptedTable crc32 memalign dev disk lba with
  | none => simp
  | some table =>
    have ⟨h, pte⟩ := table
    simp

lemma entry_iff
    : (entryAccess dev h i off len).InBounds dev ∧ (entryAccess dev h i off len).InPlace
      ↔ gptEntrySize * i + off + len ≤ padToBlocksize dev h.count
        ∧ (i = 0 ∨ h.sizeofPartitionEntry.toNat = gptEntrySize) := by
  unfold entryAccess Access.InBounds Access.InPlace
  dsimp only
  rw [Nat.add_sub_cancel, Nat.mul_comm gptEntrySize i, mul_eq_mul_left_iff, or_comm,
    @eq_comm _ h.sizeofPartitionEntry.toNat]

lemma tableInfo_safe_iff (hpos : 1 ≤ part)
    : Safe dev (tableInfo.accesses dev (h, pte) part) ↔ EntryFits dev h pte part := by
  have hi : ((part : Int) - 1).toNat = part - 1 := by omega
  unfold tableInfo.accesses EntryFits
  simp only [hi, cast_le, safe_cons, and_iff_right (header_safe (show 80 + 4 ≤ gptHeaderSize by decide))]
  split
  . next hle =>
    rw [safe_cons, entry_iff]
    cases hvalid : isPteValid (gptPte pte (part - 1)) with
    | true =>
      simp only [if_true, safe_cons, safe_nil, and_true, entry_iff, gptEntrySize]
      omega
    | false =>
      simp only [Bool.false_eq_true, if_false, safe_nil, and_true, gptEntrySize]
      omega
  . next hlt => exact ⟨fun _ h => absurd h hlt, fun _ => safe_nil⟩

lemma fillEfiPart_cons_safe_iff {entries : List Nat} (hlt : i < 4)
    : Safe dev (fillEfiPart.accesses dev (h, pte) (i :: entries))
      ↔ (i = 0 ∨ h.sizeofPartitionEntry.toNat = gptEntrySize)
        ∧ (isPteValid (gptPte pte i) = true → i < 3 ∧ Safe dev (fillEfiPart.accesses dev (h, pte) entries)) := by
  have hblksz := dev.le_blksz
  have hbuffer := @blksz_le dev h
  have hefi : (Access.efiPart i).InBounds dev ∧ (Access.efiPart i).InPlace ↔ i < 3 := and_iff_left trivial
  rw [fillEfiPart.accesses]
  simp only [safe_cons, and_iff_right (header_safe (show 80 + 4 ≤ gptHeaderSize by decide)), entry_iff]
  cases isPteValid (gptPte pte i) with
  | true =>
    simp only [if_true, safe_append, safe_cons, safe_nil, and_true, entry_iff, hefi, gptEntrySize, true_implies]
    have hinside : 128 * i + 56 + 72 ≤ padToBlocksize dev h.count := by omega
    constructor
    . intro ⟨⟨_, hplace⟩, ⟨_, _, _, hlt⟩, hrest⟩
      exact ⟨hplace, hlt, hrest⟩
    . intro ⟨hplace, hlt, hrest⟩
      exact ⟨⟨by omega, hplace⟩, ⟨⟨by omega, hplace⟩, ⟨by omega, hplace⟩, ⟨hinside, hplace⟩, hlt⟩, hrest⟩
  | false =>
    simp only [Bool.false_eq_true, if_false, safe_nil, and_true, gptEntrySize, false_implies]
    exact and_iff_right (by omega)

lemma fillEfiPart_nil_safe : Safe dev (fillEfiPart.accesses dev (h, pte) []) := by
  rw [fillEfiPart.accesses, safe_cons]
  exact ⟨header_safe (by decide), safe_nil⟩

lemma range_add_four (n : Nat) : ∃ entries, range (n + 4) = 0 :: 1 :: 2 :: 3 :: entries :=
  ⟨(range n).map (· + 4), by simp [range_succ_eq_map, Function.comp_def]⟩

lemma fillEfiPart_safe_iff
    : Safe dev (fillEfiPart.accesses dev (h, pte) (range h.numPartitionEntries.toNat)) ↔ ArrayFits h pte := by
  have harray : ArrayFits h pte
      ↔ (2 ≤ h.numPartitionEntries.toNat → isPteValid (gptPte pte 0) = true →
          h.sizeofPartitionEntry.toNat = gptEntrySize)
        ∧ (4 ≤ h.numPartitionEntries.toNat → ∃ i < 4, isPteValid (gptPte pte i) = false) :=
    ⟨fun ⟨h1, h2⟩ => ⟨h1, h2⟩, fun ⟨h1, h2⟩ => ⟨h1, h2⟩⟩
  have hfour : (∃ i < 4, isPteValid (gptPte pte i) = false)
      ↔ ¬(isPteValid (gptPte pte 0) = true ∧ isPteValid (gptPte pte 1) = true ∧ isPteValid (gptPte pte 2) = true
        ∧ isPteValid (gptPte pte 3) = true) := by
    constructor
    . intro ⟨i, hi, hvalid⟩ hall
      match i, hi with
      | 0, _ | 1, _ | 2, _ | 3, _ => simp [hvalid] at hall
    intro hnot
    by_contra hall
    simp only [not_exists, not_and, Bool.not_eq_false] at hall
    exact hnot ⟨hall 0 (by omega), hall 1 (by omega), hall 2 (by omega), hall 3 (by omega)⟩
  rw [harray, hfour]
  generalize hplace : (h.sizeofPartitionEntry.toNat = gptEntrySize) = place
  have hcons {i : Nat} {entries : List Nat} (hlt : i < 4)
      : Safe dev (fillEfiPart.accesses dev (h, pte) (i :: entries))
        ↔ (i = 0 ∨ place)
          ∧ (isPteValid (gptPte pte i) = true → i < 3 ∧ Safe dev (fillEfiPart.accesses dev (h, pte) entries)) := by
    rw [← hplace]
    exact fillEfiPart_cons_safe_iff hlt
  generalize h.numPartitionEntries.toNat = num
  match num with
  | 0 => simp [fillEfiPart_nil_safe]
  | 1 => simp [range_succ_eq_map, hcons, fillEfiPart_nil_safe]
  | 2 => simp [range_succ_eq_map, hcons, fillEfiPart_nil_safe]
  | 3 =>
    simp only [range_succ_eq_map, range_zero, map_cons, map_nil]
    rw [hcons (by decide), hcons (by decide), hcons (by decide)]
    generalize isPteValid (gptPte pte 0) = valid0
    generalize isPteValid (gptPte pte (succ 0)) = valid1
    cases valid0 <;> cases valid1 <;> simp [fillEfiPart_nil_safe]
  | n + 4 =>
    have ⟨entries, hentries⟩ := range_add_four n
    rw [hentries, hcons (by decide), hcons (by decide), hcons (by decide), hcons (by decide)]
    generalize isPteValid (gptPte pte 0) = valid0
    generalize isPteValid (gptPte pte 1) = valid1
    generalize isPteValid (gptPte pte 2) = valid2
    generalize isPteValid (gptPte pte 3) = valid3
    cases valid0 <;> cases valid1 <;> cases valid2 <;> cases valid3 <;> simp

lemma forall_accepted_iff {table : GptHeader × List UInt8}
    (htable : acceptedTable crc32 memalign dev disk lba = some table)
    : (∀ h pte, Accepted crc32 memalign dev disk lba h pte → fits h pte) ↔ fits table.1 table.2 := by
  have hacc := acceptedTable_eq_some_iff.mp htable
  constructor
  . intro hall
    exact hall _ _ hacc
  intro hfits h pte hacc'
  rw [← acceptedTable_eq_some_iff, htable] at hacc'
  rw [some.inj hacc'] at hfits
  exact hfits

lemma forall_accepted_of_none
    (htable : acceptedTable crc32 memalign dev disk lba = none)
    : ∀ h pte, Accepted crc32 memalign dev disk lba h pte → fits h pte := by
  intro h pte hacc
  exact absurd ⟨h, pte, hacc⟩ (acceptedTable_eq_none_iff.mp htable)

lemma partGetInfoEfi_safe_iff (hpos : 1 ≤ part)
    : Safe dev (partGetInfoEfi.accesses crc32 memalign dev disk part)
      ↔ HeaderFits dev disk gptPrimaryPartitionTableLba
        ∧ (∀ h pte, Accepted crc32 memalign dev disk gptPrimaryPartitionTableLba h pte → EntryFits dev h pte part)
        ∧ ((¬∃ h pte, Accepted crc32 memalign dev disk gptPrimaryPartitionTableLba h pte) →
          HeaderFits dev disk (dev.lba - 1)
            ∧ ∀ h pte, Accepted crc32 memalign dev disk (dev.lba - 1) h pte → EntryFits dev h pte part) := by
  unfold partGetInfoEfi.accesses
  rw [if_neg (by omega), safe_append, isGptValid_safe_iff]
  apply and_congr_right
  intro _
  cases hprimary : acceptedTable crc32 memalign dev disk gptPrimaryPartitionTableLba with
  | some table =>
    have hacc := acceptedTable_eq_some_iff.mp hprimary
    rw [forall_accepted_iff hprimary, tableInfo_safe_iff hpos]
    exact (and_iff_left fun hnone => absurd ⟨_, _, hacc⟩ hnone).symm
  | none =>
    have hnone := acceptedTable_eq_none_iff.mp hprimary
    rw [and_iff_right (forall_accepted_of_none hprimary), safe_append, isGptValid_safe_iff, imp_iff_right hnone]
    apply and_congr_right
    intro _
    cases hbackup : acceptedTable crc32 memalign dev disk (dev.lba - 1) with
    | some table =>
      rw [forall_accepted_iff hbackup, tableInfo_safe_iff hpos]
    | none => exact ⟨fun _ => forall_accepted_of_none hbackup, fun _ => safe_nil⟩

lemma partEfi_safe_iff
    : Safe dev (partEfi.accesses crc32 memalign dev disk)
      ↔ HeaderFits dev disk gptPrimaryPartitionTableLba
        ∧ ∀ h pte, Accepted crc32 memalign dev disk gptPrimaryPartitionTableLba h pte → ArrayFits h pte := by
  unfold partEfi.accesses
  rw [safe_append, isGptValid_safe_iff]
  apply and_congr_right
  intro _
  cases hprimary : acceptedTable crc32 memalign dev disk gptPrimaryPartitionTableLba with
  | some table =>
    rw [forall_accepted_iff hprimary, fillEfiPart_safe_iff]
  | none => exact ⟨fun _ => forall_accepted_of_none hprimary, fun _ => safe_nil⟩

end

theorem gpt_safe_iff (crc32 : List UInt8 → UInt32) (memalign : Nat → Bool) (dev : BlkDesc) (disk : Disk)
    : (∀ lba, Safe dev (isGptValid.accesses crc32 memalign dev disk lba) ↔ HeaderFits dev disk lba)
      ∧ (∀ part : Int, Safe dev (partGetInfoEfi.accesses crc32 memalign dev disk part)
        ↔ (1 ≤ part →
          HeaderFits dev disk gptPrimaryPartitionTableLba
            ∧ (∀ h pte, Accepted crc32 memalign dev disk gptPrimaryPartitionTableLba h pte →
              EntryFits dev h pte part.toNat)
            ∧ ((¬∃ h pte, Accepted crc32 memalign dev disk gptPrimaryPartitionTableLba h pte) →
              HeaderFits dev disk (dev.lba - 1)
                ∧ ∀ h pte, Accepted crc32 memalign dev disk (dev.lba - 1) h pte → EntryFits dev h pte part.toNat)))
      ∧ (Safe dev (partEfi.accesses crc32 memalign dev disk)
        ↔ HeaderFits dev disk gptPrimaryPartitionTableLba
          ∧ ∀ h pte, Accepted crc32 memalign dev disk gptPrimaryPartitionTableLba h pte → ArrayFits h pte) := by
  refine ⟨fun lba => isGptValid_safe_iff, ?_, partEfi_safe_iff⟩
  intro part
  by_cases hpos : 1 ≤ part
  . rw [imp_iff_right hpos, ← partGetInfoEfi_safe_iff (by omega), Int.toNat_of_nonneg (by omega)]
  . rw [partGetInfoEfi.accesses, if_pos (by omega)]
    exact ⟨fun _ h => absurd h hpos, fun _ => safe_nil⟩

def longHeaderDev : BlkDesc := ⟨64, 512, by decide, by decide⟩

def longHeader (a : Int) : UInt8 :=
  if 512 ≤ a ∧ a < 520 then [0x45, 0x46, 0x49, 0x20, 0x50, 0x41, 0x52, 0x54].getD (a - 512).toNat 0
  else if 524 ≤ a ∧ a < 528 then 0xff
  else 0

theorem not_safe_longHeader
    : ¬Safe longHeaderDev (isGptValid.accesses (fun _ => 0) (fun _ => true) longHeaderDev longHeader 1)
      ∧ ¬Safe longHeaderDev (partEfi.accesses (fun _ => 0) (fun _ => true) longHeaderDev longHeader)
      ∧ ¬Safe longHeaderDev (partGetInfoEfi.accesses (fun _ => 0) (fun _ => true) longHeaderDev longHeader 1) := by
  have hnot : ¬HeaderFits longHeaderDev longHeader 1 := by
    intro hfits
    have hsize := hfits _ rfl (by decide +kernel)
    revert hsize
    decide +kernel
  refine ⟨?_, ?_, ?_⟩
  . rw [isGptValid_safe_iff]
    exact hnot
  . rw [partEfi_safe_iff]
    exact fun h => hnot h.1
  . have hone : (1 : Int) = (1 : Nat) := rfl
    rw [hone, partGetInfoEfi_safe_iff (le_refl 1)]
    exact fun h => hnot h.1

end UBoot.PartEfi
