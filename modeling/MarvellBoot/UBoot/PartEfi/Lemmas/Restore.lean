import MarvellBoot.UBoot.PartEfi.Lemmas.Table

namespace UBoot.PartEfi

open Mem Request List UInt64 Nat GptHeader

section

variable {dev : BlkDesc} {disk : Disk} {r : Request}

lemma writeBlocks_append (blocks blocks' : List (Nat × List UInt8))
    : writeBlocks dev disk (blocks ++ blocks') = writeBlocks dev (writeBlocks dev disk blocks) blocks' := by
  unfold writeBlocks
  rw [foldl_append]

lemma Request.length_blocks (r : Request) : (r.blocks dev).length = r.cnt := by
  simp [blocks]

lemma writeBlocks_take_blocks (hlen : r.cnt * dev.blksz ≤ r.data.length) {j : Nat} (hj : j ≤ r.cnt)
    : writeBlocks dev disk ((r.blocks dev).take j)
      = store disk (r.start * dev.blksz : Nat) (r.data.take (j * dev.blksz)) := by
  induction j with
  | zero => simp [writeBlocks]
  | succ j ih =>
    have hlt : j < (r.blocks dev).length := by rwa [length_blocks]
    have hpart : j * dev.blksz ≤ r.data.length := le_trans (mul_le_mul_right _ (by omega)) hlen
    rw [take_succ_eq_append_getElem hlt, writeBlocks_append, ih (by omega)]
    rw [succ_mul, take_add, store_append, length_take_of_le hpart]
    simp only [writeBlocks, writeBlock, foldl_cons, foldl_nil, blocks, getElem_map, getElem_range]
    congr 1
    push_cast
    ring

lemma writeBlocks_blocks (hlen : r.cnt * dev.blksz = r.data.length)
    : writeBlocks dev disk (r.blocks dev) = store disk (r.start * dev.blksz : Nat) r.data := by
  have hall := @writeBlocks_take_blocks _ disk r hlen.le _ le_rfl
  rwa [take_of_length_le (le_of_eq (length_blocks r)), take_of_length_le (le_of_eq hlen.symm)] at hall

lemma writeBlocks_cut (hlen : r.cnt * dev.blksz ≤ r.data.length) (rest : List (Nat × List UInt8)) (k : Nat)
    : (∃ j ≤ r.cnt, writeBlocks dev disk ((r.blocks dev ++ rest).take k)
        = store disk (r.start * dev.blksz : Nat) (r.data.take (j * dev.blksz)))
      ∨ ∃ k', writeBlocks dev disk ((r.blocks dev ++ rest).take k)
        = writeBlocks dev (store disk (r.start * dev.blksz : Nat) (r.data.take (r.cnt * dev.blksz))) (rest.take k') := by
  by_cases hk : k ≤ r.cnt
  . left
    refine ⟨k, hk, ?_⟩
    rw [take_append_of_le_length (by rwa [length_blocks]), writeBlocks_take_blocks hlen hk]
  right
  refine ⟨k - r.cnt, ?_⟩
  rw [take_append, length_blocks, take_of_length_le (by rw [length_blocks]; omega)]
  rw [writeBlocks_append]
  congr 1
  rw [← writeBlocks_take_blocks hlen le_rfl, take_of_length_le (by rw [length_blocks])]

lemma blkDwrite_eq {rs : List Request} (h : ∀ r ∈ rs, r.start + r.cnt ≤ dev.lba)
    : blkDwrite dev rs = (rs.flatMap (blocks · dev), 0) := by
  induction rs with
  | nil => rfl
  | cons r rs ih =>
    rw [blkDwrite, if_pos (h r mem_cons_self), ih (fun r hr => h r (mem_cons_of_mem _ hr))]
    rfl

end

section

variable {crc32 : List UInt8 → UInt32} {dev : BlkDesc} {disk : Disk} {table : GptHeader × List UInt8} {h : GptHeader}
  {data pte : List UInt8} {a start cnt lba : Nat}

lemma blkDread_store_above (hle : a + data.length ≤ start * dev.blksz)
    : blkDread dev (store disk a data) start cnt = blkDread dev disk start cnt := by
  unfold blkDread
  rw [load_store_above]
  exact_mod_cast hle

lemma blkDread_store_below (hle : (start + cnt) * dev.blksz ≤ a)
    : blkDread dev (store disk a data) start cnt = blkDread dev disk start cnt := by
  unfold blkDread
  rw [load_store_below]
  rw [add_mul] at hle
  exact_mod_cast hle

lemma allocReadGptEntries_store_above (hle : a + data.length ≤ h.partitionEntryLba.toNat * dev.blksz)
    : allocReadGptEntries dev (store disk a data) h = allocReadGptEntries dev disk h := by
  unfold allocReadGptEntries
  rw [blkDread_store_above hle]

lemma isGptValid_store_above (hvalid : isGptValid crc32 dev disk lba = some table)
    (hheader : a + data.length ≤ lba * dev.blksz)
    (hpte : a + data.length ≤ table.1.partitionEntryLba.toNat * dev.blksz)
    : isGptValid crc32 dev (store disk a data) lba = some table :=
  isGptValid_of_eq hvalid (blkDread_store_above hheader) (allocReadGptEntries_store_above hpte)

lemma partGetInfoEfi_of_primary (hvalid : isGptValid crc32 dev disk gptPrimaryPartitionTableLba = some table)
    (part : Int)
    : partGetInfoEfi crc32 dev disk part = tableInfo dev table part := by
  unfold partGetInfoEfi
  rw [hvalid]
  split
  . next hpart =>
    unfold tableInfo
    rw [if_pos (.inl hpart)]
  . rfl

lemma partGetInfoEfi_of_backup (hprimary : isGptValid crc32 dev disk gptPrimaryPartitionTableLba = none)
    (hvalid : isGptValid crc32 dev disk (dev.lba - 1) = some table) (part : Int)
    : partGetInfoEfi crc32 dev disk part = tableInfo dev table part := by
  unfold partGetInfoEfi
  rw [hprimary, hvalid]
  split
  . next hpart =>
    unfold tableInfo
    rw [if_pos (.inl hpart)]
  . rfl

end

structure Copies (crc32 : List UInt8 → UInt32) (dev : BlkDesc) (disk : Disk) (old copy : GptHeader × List UInt8) : Prop where
  primary : isGptValid crc32 dev disk gptPrimaryPartitionTableLba = some old
  backup : isGptValid crc32 dev disk (dev.lba - 1) = some copy
  same : ∀ part, tableInfo dev copy part = tableInfo dev old part

structure Placed (dev : BlkDesc) (old copy : GptHeader × List UInt8) : Prop where
  mbr : 1 ≤ old.1.partitionEntryLba.toNat
  entries : 34 ≤ copy.1.partitionEntryLba.toNat
  header : 34 ≤ dev.lba - 1

def pteBlkCnt (dev : BlkDesc) : Nat := blockCnt dev (gptEntryNumbers * gptEntrySize)

def newTable (crc32 : List UInt8 → UInt32) (dev : BlkDesc) (diskGuid : Option Guid) (partitions : List DiskPartition)
    : Option (GptHeader × List UInt8) :=
  match diskGuid with
  | none => none
  | some diskGuid =>
    let h := gptFillHeader dev diskGuid
    match gptFillPte h.lastUsableLba h.firstUsableLba partitions with
    | none => none
    | some entries => some (primaryHeader crc32 h (pteBuffer dev entries), pteBuffer dev entries)

def ptes (dev : BlkDesc) (disk : Disk) : List UInt8 := load disk (2 * dev.blksz : Nat) (pteBlkCnt dev * dev.blksz)

def mixed (dev : BlkDesc) (disk : Disk) (pte : List UInt8) (j : Nat) : List UInt8 :=
  pte.take (j * dev.blksz) ++ (ptes dev disk).drop (j * dev.blksz)

def NoCollision (crc32 : List UInt8 → UInt32) (dev : BlkDesc) (disk : Disk) (pte : List UInt8) : Prop :=
  ∀ j ≤ pteBlkCnt dev, let n := gptEntryNumbers * gptEntrySize
    crc32 ((mixed dev disk pte j).take n) = crc32 (pte.take n) → (mixed dev disk pte j).take n = pte.take n

def Bounded (partitions : List DiskPartition) : Prop := ∀ p ∈ partitions, p.start.toNat < 2 ^ 55 ∧ p.size.toNat < 2 ^ 55

section

variable (dev : BlkDesc)

lemma pteBlkCnt_le : pteBlkCnt dev ≤ 32 := by
  have hblksz := dev.le_blksz
  have hdiv : (gptEntryNumbers * gptEntrySize - 1) / dev.blksz ≤ (gptEntryNumbers * gptEntrySize - 1) / 512 :=
    div_le_div_left hblksz (by decide)
  unfold pteBlkCnt blockCnt
  unfold gptEntryNumbers gptEntrySize at hdiv ⊢
  omega

lemma le_pteBlkCnt_mul : gptEntryNumbers * gptEntrySize ≤ pteBlkCnt dev * dev.blksz := by
  have hblksz := dev.le_blksz
  have hlt := lt_div_mul_add (a := gptEntryNumbers * gptEntrySize - 1) (show 0 < dev.blksz by omega)
  unfold pteBlkCnt blockCnt
  rw [succ_mul]
  omega

lemma lba_lt : dev.lba < 2 ^ 55 := by
  have hblksz := dev.le_blksz
  have hsize := dev.size_lt
  have hmul : dev.lba * 512 ≤ dev.lba * dev.blksz := mul_le_mul_left _ hblksz
  omega

lemma length_pteBuffer (entries : List GptEntry) : pteBlkCnt dev * dev.blksz ≤ (pteBuffer dev entries).length := by
  unfold pteBuffer pteBlkCnt
  rw [length_append, length_replicate]
  omega

lemma length_flatMap_gptFillPte {last offset : UInt64} {partitions : List DiskPartition} {entries : List GptEntry}
    (hfill : gptFillPte last offset partitions = some entries)
    : (entries.flatMap GptEntry.bytes).length = partitions.length * gptEntrySize := by
  induction partitions generalizing offset entries with
  | nil =>
    cases hfill
    rfl
  | cons p ps ih =>
    unfold gptFillPte at hfill
    generalize (if p.start ≠ 0 then p.start else offset) = start at hfill
    dsimp only at hfill
    split at hfill
    . contradiction
    split at hfill
    . contradiction
    cases huuid : p.uuid with
    | none =>
      rw [huuid] at hfill
      contradiction
    | some uuid =>
      rw [huuid] at hfill
      obtain ⟨es, hes, rfl⟩ := Option.map_eq_some_iff.mp hfill
      rw [flatMap_cons, length_append, ih hes, length_cons, succ_mul, Nat.add_comm]
      simp [GptEntry.bytes, partitionBasicDataGuid, le, Bytes.length_ofNat, gptEntrySize]

lemma length_pteBuffer_of_gptFillPte {last offset : UInt64} {partitions : List DiskPartition} {entries : List GptEntry}
    (hfill : gptFillPte last offset partitions = some entries) (hcount : partitions.length ≤ gptEntryNumbers)
    : pteBlkCnt dev * dev.blksz = (pteBuffer dev entries).length := by
  have hle := le_pteBlkCnt_mul dev
  have hbytes : partitions.length * gptEntrySize ≤ gptEntryNumbers * gptEntrySize := Nat.mul_le_mul_right _ hcount
  unfold pteBuffer
  dsimp only
  rw [length_append, length_replicate, length_flatMap_gptFillPte hfill]
  unfold pteBlkCnt at hle ⊢
  omega

lemma pteBuffer_nil : pteBuffer dev [] = replicate (pteBlkCnt dev * dev.blksz) 0 := by
  unfold pteBuffer pteBlkCnt
  simp

end

section

variable {crc32 : List UInt8 → UInt32} {dev : BlkDesc} {disk : Disk} {old copy : GptHeader × List UInt8}
  {diskGuid : Guid} {pte : List UInt8}

lemma count_gptFillHeader : (gptFillHeader dev diskGuid).count = gptEntryNumbers * gptEntrySize := by
  show (UInt32.ofNat gptEntryNumbers * UInt32.ofNat gptEntrySize).toNat = gptEntryNumbers * gptEntrySize
  decide

lemma count_primaryHeader
    : (primaryHeader crc32 (gptFillHeader dev diskGuid) pte).count = gptEntryNumbers * gptEntrySize :=
  @count_gptFillHeader dev diskGuid

lemma toNat_lba_sub {c : UInt64} (hc : c.toNat ≤ dev.lba) : (UInt64.ofNat dev.lba - c).toNat = dev.lba - c.toNat := by
  have hlt := lba_lt dev
  have hlba : (ofNat dev.lba).toNat = dev.lba := by
    rw [toNat_ofNat', mod_eq_of_lt (by omega)]
  rw [UInt64.toNat_sub_of_le _ _ (by rwa [UInt64.le_iff_toNat_le, hlba]), hlba]

section

variable (hlba : 34 ≤ dev.lba)

include hlba

lemma toNat_backupEntryLba : (UInt64.ofNat dev.lba - 34 + 1).toNat = dev.lba - 33 := by
  have hlt := lba_lt dev
  rw [UInt64.toNat_add, toNat_lba_sub (c := 34) hlba]
  show (dev.lba - 34 + 1) % 2 ^ 64 = dev.lba - 33
  omega

lemma lastUsableLba_le : (UInt64.ofNat dev.lba - 34).toNat ≤ dev.lba := by
  rw [toNat_lba_sub (c := 34) hlba]
  omega

lemma validateGptHeader_primaryHeader (rest : List UInt8)
    : validateGptHeader crc32 (primaryHeader crc32 (gptFillHeader dev diskGuid) pte) rest gptPrimaryPartitionTableLba dev.lba
      = true :=
  validateGptHeader_withCrc rfl rfl rfl hlba (lastUsableLba_le hlba)

lemma isGptValid_primaryHeader (hheader : blkDread dev disk gptPrimaryPartitionTableLba 1
      = some (headerBlock dev (primaryHeader crc32 (gptFillHeader dev diskGuid) pte)))
    : isGptValid crc32 dev disk gptPrimaryPartitionTableLba
      = if crc32 ((ptes dev disk).take (gptEntryNumbers * gptEntrySize))
          = crc32 (pte.take (gptEntryNumbers * gptEntrySize)) then
        some (primaryHeader crc32 (gptFillHeader dev diskGuid) pte, ptes dev disk)
      else
        none := by
  have hcnt := pteBlkCnt_le dev
  have hread : allocReadGptEntries dev disk (primaryHeader crc32 (gptFillHeader dev diskGuid) pte)
      = some (ptes dev disk) := by
    unfold allocReadGptEntries
    rw [count_primaryHeader, if_neg (by unfold gptEntryNumbers gptEntrySize; omega)]
    exact if_pos (by show 2 + pteBlkCnt dev ≤ dev.lba; omega)
  have hcrc : (primaryHeader crc32 (gptFillHeader dev diskGuid) pte).partitionEntryArrayCrc32
      = crc32 (pte.take (gptEntryNumbers * gptEntrySize)) := by
    rw [← count_gptFillHeader]
    rfl
  unfold isGptValid
  rw [hheader]
  dsimp only
  rw [ofBytes_headerBlock, validateGptHeader_primaryHeader hlba, hread]
  simp only [if_true, validateGptEntries, count_primaryHeader, hcrc, beq_iff_eq]

end

end

section

variable {crc32 : List UInt8 → UInt32} {dev : BlkDesc} {disk : Disk} {old copy : GptHeader × List UInt8}
  {diskGuid : Guid} {pte data : List UInt8} {a : Nat}

def Started (crc32 : List UInt8 → UInt32) (dev : BlkDesc) (diskGuid : Guid) (pte : List UInt8) (disk : Disk) : Prop :=
  blkDread dev disk gptPrimaryPartitionTableLba 1
    = some (headerBlock dev (primaryHeader crc32 (gptFillHeader dev diskGuid) pte))

lemma partGetInfoEfi_new (hlba : 34 ≤ dev.lba) (hstarted : Started crc32 dev diskGuid pte disk)
    (hptes : (ptes dev disk).take (gptEntryNumbers * gptEntrySize) = pte.take (gptEntryNumbers * gptEntrySize))
    (part : Int)
    : partGetInfoEfi crc32 dev disk part
      = tableInfo dev (primaryHeader crc32 (gptFillHeader dev diskGuid) pte, pte) part := by
  have hvalid := isGptValid_primaryHeader hlba hstarted
  rw [if_pos (congrArg crc32 hptes)] at hvalid
  rw [partGetInfoEfi_of_primary hvalid]
  apply tableInfo_congr _ hptes part
  show gptEntrySize * 128 ≤ gptEntryNumbers * gptEntrySize
  decide

lemma partGetInfoEfi_started (hlba : 34 ≤ dev.lba) (hstarted : Started crc32 dev diskGuid pte disk)
    (hcrc : crc32 ((ptes dev disk).take (gptEntryNumbers * gptEntrySize))
    = crc32 (pte.take (gptEntryNumbers * gptEntrySize))
      → (ptes dev disk).take (gptEntryNumbers * gptEntrySize) = pte.take (gptEntryNumbers * gptEntrySize))
    (hbackup : isGptValid crc32 dev disk (dev.lba - 1) = some copy)
    : (∀ part, partGetInfoEfi crc32 dev disk part = tableInfo dev copy part)
      ∨ ∀ part, partGetInfoEfi crc32 dev disk part
        = tableInfo dev (primaryHeader crc32 (gptFillHeader dev diskGuid) pte, pte) part := by
  by_cases heq : crc32 ((ptes dev disk).take (gptEntryNumbers * gptEntrySize))
    = crc32 (pte.take (gptEntryNumbers * gptEntrySize))
  . exact .inr (partGetInfoEfi_new hlba hstarted (hcrc heq))
  left
  have hvalid := isGptValid_primaryHeader hlba hstarted
  rw [if_neg heq] at hvalid
  exact partGetInfoEfi_of_backup hvalid hbackup

lemma blkDread_store_self {start cnt : Nat} (hlen : cnt * dev.blksz = data.length) (hle : start + cnt ≤ dev.lba)
    : blkDread dev (store disk (start * dev.blksz : Nat) data) start cnt = some data := by
  unfold blkDread
  rw [if_pos hle, hlen, load_store_self]

lemma started_store_header (hlba : 34 ≤ dev.lba)
    : Started crc32 dev diskGuid pte
      (store disk (1 * dev.blksz : Nat) (headerBlock dev (primaryHeader crc32 (gptFillHeader dev diskGuid) pte))) := by
  apply blkDread_store_self
  . rw [length_headerBlock, Nat.one_mul]
  . omega

lemma Started.store_above (hstarted : Started crc32 dev diskGuid pte disk) (ha : 2 * dev.blksz ≤ a)
    : Started crc32 dev diskGuid pte (store disk a data) :=
  (blkDread_store_below ha).trans hstarted

lemma ptes_store_below (ha : a + data.length ≤ 2 * dev.blksz) : ptes dev (store disk a data) = ptes dev disk := by
  unfold ptes
  rw [load_store_above]
  exact_mod_cast ha

lemma ptes_store_above (ha : 34 * dev.blksz ≤ a) : ptes dev (store disk a data) = ptes dev disk := by
  have hmul := mul_le_mul_right dev.blksz (pteBlkCnt_le dev)
  unfold ptes
  rw [load_store_below]
  exact_mod_cast (by omega : 2 * dev.blksz + pteBlkCnt dev * dev.blksz ≤ a)

lemma ptes_store_entries {j : Nat} (hlen : pteBlkCnt dev * dev.blksz ≤ pte.length) (hj : j ≤ pteBlkCnt dev)
    : ptes dev (store disk (2 * dev.blksz : Nat) (pte.take (j * dev.blksz))) = mixed dev disk pte j := by
  have hle := Nat.mul_le_mul_right dev.blksz hj
  have hlength : (pte.take (j * dev.blksz)).length = j * dev.blksz := length_take_of_le (by omega)
  have hself := load_store_self disk (2 * dev.blksz : Nat) (pte.take (j * dev.blksz))
  rw [hlength] at hself
  unfold mixed ptes
  rw [← Nat.add_sub_cancel' hle, load_add, hself, drop_load, load_store_above _ _ (by rw [hlength])]
  rw [Nat.add_sub_cancel' hle]

lemma ptes_store_zeros {k : Nat} (hzero : ptes dev disk = replicate (pteBlkCnt dev * dev.blksz) 0)
    : ptes dev (store disk a (replicate k 0)) = ptes dev disk := by
  have hget (k i : Nat) : (replicate k (0 : UInt8)).getD i 0 = 0 := by
    rw [getD, getElem?_replicate]
    split
    . rfl
    . rfl
  unfold ptes at hzero ⊢
  apply load_congr
  intro i hi
  have hbyte := load_getD disk (2 * dev.blksz : Nat) hi
  rw [hzero, hget] at hbyte
  unfold store
  rw [hget, ← hbyte, ite_self]

end

section

variable {crc32 : List UInt8 → UInt32} {dev : BlkDesc} {disk : Disk} {old copy : GptHeader × List UInt8}
  {diskGuid : Guid} {pte : List UInt8}

lemma le_lba_of_gptFillPte {partitions : List DiskPartition} {entries : List GptEntry} (hlba : 34 ≤ dev.lba)
    (hbounded : Bounded partitions) (hne : partitions ≠ [])
    (hfill : gptFillPte (ofNat dev.lba - 34) 34 partitions = some entries) : 67 ≤ dev.lba := by
  cases partitions with
  | nil => contradiction
  | cons p ps =>
    have ⟨hstart, hsize⟩ := hbounded p mem_cons_self
    unfold gptFillPte at hfill
    split at hfill
    . contradiction
    next hoverlap =>
    dsimp only at hfill
    split at hfill
    . next hset =>
      have hfirst : ¬p.start.toNat < 34 := fun hlt => hoverlap ⟨hset, lt_iff_toNat_lt.mpr hlt⟩
      split at hfill
      . contradiction
      . next hend =>
        rw [gt_iff_lt, UInt64.lt_iff_toNat_lt, toNat_backupEntryLba hlba, UInt64.toNat_add] at hend
        omega
    have hfirst : (34 : UInt64).toNat = 34 := rfl
    split at hfill
    . contradiction
    . next hend =>
      rw [gt_iff_lt, UInt64.lt_iff_toNat_lt, toNat_backupEntryLba hlba, UInt64.toNat_add, hfirst] at hend
      omega

lemma length_setBytes {b data : List UInt8} {off n : Nat} (hb : b.length = n) (h : off + data.length ≤ n)
    : (setBytes b off data).length = n := by
  unfold setBytes
  rw [length_append, length_append, length_take, length_drop]
  omega

lemma length_protectiveMbr {mbr : List UInt8} (h : mbr.length = dev.blksz)
    : (protectiveMbr dev mbr).length = dev.blksz := by
  have hblksz := dev.le_blksz
  apply length_setBytes
  . apply length_setBytes
    . apply length_setBytes
      . exact length_setBytes h hblksz
      . exact le_trans (by decide) hblksz
    . rw [length_le]
      omega
  . rw [length_le]
    omega

def requests (crc32 : List UInt8 → UInt32) (dev : BlkDesc) (disk : Disk) (diskGuid : Guid)
    (pte : List UInt8) : List Request :=
  let h := primaryHeader crc32 (gptFillHeader dev diskGuid) pte
  [
    ⟨0, 1, protectiveMbr dev (load disk 0 dev.blksz)⟩,
    ⟨1, 1, headerBlock dev h⟩,
    ⟨2, pteBlkCnt dev, pte⟩,
    ⟨dev.lba - 33, pteBlkCnt dev, pte⟩,
    ⟨dev.lba - 1, 1, headerBlock dev (prepareBackupGptHeader crc32 h)⟩
  ]

lemma writeGptTable_eq (hblksz : dev.blksz = 512) (hlba : 34 ≤ dev.lba)
    : writeGptTable crc32 dev disk (gptFillHeader dev diskGuid) pte
      = some (blkDwrite dev (requests crc32 dev disk diskGuid pte)) := by
  have hread : blkDread dev disk 0 1 = some (load disk 0 dev.blksz) := by
    unfold blkDread
    rw [if_pos (by omega), Nat.zero_mul, Nat.one_mul]
    rfl
  have hentries : (prepareBackupGptHeader crc32 (primaryHeader crc32 (gptFillHeader dev diskGuid) pte)).lastUsableLba + 1
      = ofNat dev.lba - 34 + 1 := rfl
  have hheader : (prepareBackupGptHeader crc32 (primaryHeader crc32 (gptFillHeader dev diskGuid) pte)).myLba
      = ofNat dev.lba - 1 := rfl
  have hfits : ¬sizeofMbr < (load disk 0 dev.blksz).length := by
    rw [length_load, hblksz]
    exact Nat.lt_irrefl _
  unfold writeGptTable
  rw [hread]
  dsimp only
  rw [if_neg hfits, hentries, hheader, toNat_backupEntryLba hlba, toNat_lba_sub (c := 1) (by show 1 ≤ dev.lba; omega)]
  rfl

lemma blkDwrite_requests (hlba : 34 < dev.lba)
    : blkDwrite dev (requests crc32 dev disk diskGuid pte)
      = ((requests crc32 dev disk diskGuid pte).flatMap (blocks · dev), 0) := by
  have hcnt := pteBlkCnt_le dev
  apply blkDwrite_eq
  intro r hr
  simp only [requests, mem_cons, not_mem_nil, or_false] at hr
  rcases hr with rfl | rfl | rfl | rfl | rfl
  . dsimp only
    omega
  . dsimp only
    omega
  . dsimp only
    omega
  . dsimp only
    omega
  . dsimp only
    omega

lemma mixed_all : mixed dev disk pte (pteBlkCnt dev) = pte.take (pteBlkCnt dev * dev.blksz) := by
  unfold mixed ptes
  rw [drop_of_length_le (by rw [length_load]), append_nil]

structure Ready (crc32 : List UInt8 → UInt32) (dev : BlkDesc) (disk : Disk) (copy : GptHeader × List UInt8) (disk' : Disk)
    : Prop where
  ptes : ptes dev disk' = ptes dev disk
  backup : isGptValid crc32 dev disk' (dev.lba - 1) = some copy

structure Written (crc32 : List UInt8 → UInt32) (dev : BlkDesc) (diskGuid : Guid) (pte : List UInt8) (disk' : Disk) : Prop where
  header : Started crc32 dev diskGuid pte disk'
  ptes : ptes dev disk' = pte.take (pteBlkCnt dev * dev.blksz)

section

variable {disk' : Disk} {data : List UInt8} {a j : Nat}

lemma isGptValid_store_reserved (hvalid : isGptValid crc32 dev disk' (dev.lba - 1) = some copy)
    (hplaced : Placed dev old copy)
    (ha : a + data.length ≤ 34 * dev.blksz) : isGptValid crc32 dev (store disk' a data) (dev.lba - 1) = some copy := by
  apply isGptValid_store_above hvalid
  . exact le_trans ha (mul_le_mul_right _ hplaced.header)
  . exact le_trans ha (mul_le_mul_right _ hplaced.entries)

lemma Ready.store (hready : Ready crc32 dev disk copy disk') (hplaced : Placed dev old copy)
    (ha : a + data.length ≤ 2 * dev.blksz) : Ready crc32 dev disk copy (Mem.store disk' a data) := by
  constructor
  . rw [ptes_store_below ha, hready.ptes]
  . exact isGptValid_store_reserved hready.backup hplaced (by omega)

lemma partGetInfoEfi_store_mbr (hcopies : Copies crc32 dev disk old copy) (hplaced : Placed dev old copy)
    (hdata : data.length ≤ dev.blksz) (part : Int)
    : partGetInfoEfi crc32 dev (store disk (0 * dev.blksz : Nat) data) part = tableInfo dev old part := by
  have hpte := mul_le_mul_right dev.blksz hplaced.mbr
  apply partGetInfoEfi_of_primary
  apply isGptValid_store_above hcopies.primary
  . unfold gptPrimaryPartitionTableLba
    omega
  . omega

lemma partGetInfoEfi_store_entries (hready : Ready crc32 dev disk copy disk')
    (hstarted : Started crc32 dev diskGuid pte disk') (hcopies : Copies crc32 dev disk old copy)
    (hplaced : Placed dev old copy) (hlen : pteBlkCnt dev * dev.blksz ≤ pte.length)
    (hcrc : NoCollision crc32 dev disk pte) (hj : j ≤ pteBlkCnt dev)
    : (∀ part, partGetInfoEfi crc32 dev (store disk' (2 * dev.blksz : Nat) (pte.take (j * dev.blksz))) part
        = tableInfo dev old part)
      ∨ ∀ part, partGetInfoEfi crc32 dev (store disk' (2 * dev.blksz : Nat) (pte.take (j * dev.blksz))) part
        = tableInfo dev (primaryHeader crc32 (gptFillHeader dev diskGuid) pte, pte) part := by
  have hheader := hplaced.header
  have hmul := mul_le_mul_right dev.blksz (pteBlkCnt_le dev)
  have hle := mul_le_mul_right dev.blksz hj
  have hmixed : ptes dev (store disk' (2 * dev.blksz : Nat) (pte.take (j * dev.blksz))) = mixed dev disk pte j := by
    rw [ptes_store_entries hlen hj]
    unfold mixed
    rw [hready.ptes]
  have hanswer := partGetInfoEfi_started (by omega) (@hstarted.store_above _ _ _ _ _ (pte.take (j * dev.blksz)) _ le_rfl)
    (by rw [hmixed]; exact hcrc j hj)
    (isGptValid_store_reserved hready.backup hplaced (by rw [length_take]; omega))
  exact hanswer.imp_left fun hcopy part => (hcopy part).trans (hcopies.same part)

section

variable (hwritten : Written crc32 dev diskGuid pte disk')

include hwritten

lemma Written.store_above (ha : 34 * dev.blksz ≤ a) : Written crc32 dev diskGuid pte (store disk' a data) := by
  constructor
  . exact hwritten.header.store_above (by omega)
  . rw [ptes_store_above ha, hwritten.ptes]

lemma Written.store_copy (hlba : 34 < dev.lba)
    (happart : 67 ≤ dev.lba ∨ pte = replicate (pteBlkCnt dev * dev.blksz) 0)
    : Written crc32 dev diskGuid pte (store disk' ((dev.lba - 33) * dev.blksz : Nat) (pte.take (j * dev.blksz))) := by
  rcases happart with happart | hzero
  . exact hwritten.store_above (mul_le_mul_right _ (by omega))
  constructor
  . exact hwritten.header.store_above (mul_le_mul_right _ (by omega))
  . have hptes := hwritten.ptes
    rw [hzero, take_replicate] at hptes ⊢
    rw [take_replicate, ptes_store_zeros (by rw [hptes, min_self]), hptes]

lemma Written.partGetInfoEfi_eq (hlba : 34 ≤ dev.lba) (part : Int)
    : partGetInfoEfi crc32 dev disk' part
      = tableInfo dev (primaryHeader crc32 (gptFillHeader dev diskGuid) pte, pte) part := by
  apply partGetInfoEfi_new hlba hwritten.header
  rw [hwritten.ptes, take_take, min_eq_left (le_pteBlkCnt_mul dev)]

end

end

lemma partGetInfoEfi_requests (hcopies : Copies crc32 dev disk old copy) (hplaced : Placed dev old copy)
    (hlen : pteBlkCnt dev * dev.blksz ≤ pte.length) (hcrc : NoCollision crc32 dev disk pte)
    (happart : 67 ≤ dev.lba ∨ pte = replicate (pteBlkCnt dev * dev.blksz) 0) (k : Nat)
    : let disk' := writeBlocks dev disk (((requests crc32 dev disk diskGuid pte).flatMap (blocks · dev)).take k)
      (∀ part, partGetInfoEfi crc32 dev disk' part = tableInfo dev old part)
      ∨ ∀ part, partGetInfoEfi crc32 dev disk' part
        = tableInfo dev (primaryHeader crc32 (gptFillHeader dev diskGuid) pte, pte) part := by
  have hheader := hplaced.header
  have hlba : 34 ≤ dev.lba := by omega
  let mbr := protectiveMbr dev (load disk 0 dev.blksz)
  let h := primaryHeader crc32 (gptFillHeader dev diskGuid) pte
  have hmbr : mbr.length = dev.blksz := length_protectiveMbr (length_load _ _ _)
  have hblock (h : GptHeader) : 1 * dev.blksz ≤ (headerBlock dev h).length := by
    rw [length_headerBlock, Nat.one_mul]
  let disk1 := store disk (0 * dev.blksz : Nat) (mbr.take (1 * dev.blksz))
  let disk2 := store disk1 (1 * dev.blksz : Nat) ((headerBlock dev h).take (1 * dev.blksz))
  have hready2 : Ready crc32 dev disk copy disk2 := by
    have hready : Ready crc32 dev disk copy disk := ⟨rfl, hcopies.backup⟩
    have hready1 : Ready crc32 dev disk copy disk1 := hready.store hplaced (by rw [length_take]; omega)
    exact hready1.store hplaced (by rw [length_take]; omega)
  have hstarted2 : Started crc32 dev diskGuid pte disk2 := by
    unfold disk2
    rw [take_of_length_le (by rw [length_headerBlock, Nat.one_mul])]
    exact started_store_header hlba
  let disk3 := store disk2 (2 * dev.blksz : Nat) (pte.take (pteBlkCnt dev * dev.blksz))
  have hwritten3 : Written crc32 dev diskGuid pte disk3 := by
    constructor
    . exact hstarted2.store_above le_rfl
    . unfold disk3
      rw [ptes_store_entries hlen le_rfl, mixed_all]
  have hcopy (j : Nat) := @hwritten3.store_copy _ _ _ _ _ j (by omega) happart
  unfold requests
  simp only [flatMap_cons, flatMap_nil]
  -- the block that the write is cut after is in one of the requests
  rcases @writeBlocks_cut dev _ ⟨0, 1, mbr⟩ (by dsimp only; omega) _ k with ⟨j, hj, heq⟩ | ⟨k, heq⟩
  . rw [heq]
    exact .inl (partGetInfoEfi_store_mbr hcopies hplaced (by rw [length_take]; dsimp only; omega))
  rw [heq]
  rcases @writeBlocks_cut _ disk1 ⟨1, 1, headerBlock dev h⟩ (hblock h) _ k with ⟨j, hj, heq⟩ | ⟨k, heq⟩
  . rw [heq]
    cases j with
    | zero =>
      rw [Nat.zero_mul, take_zero, store_nil]
      exact .inl (partGetInfoEfi_store_mbr hcopies hplaced (by rw [length_take]; omega))
    | succ j =>
      have hone : j = 0 := by
        dsimp only at hj
        omega
      have hanswer := partGetInfoEfi_store_entries hready2 hstarted2 hcopies hplaced hlen hcrc (zero_le _)
      rw [Nat.zero_mul, take_zero, store_nil] at hanswer
      rw [hone]
      exact hanswer
  rw [heq]
  rcases @writeBlocks_cut _ _ ⟨2, pteBlkCnt dev, pte⟩ hlen _ k with ⟨j, hj, heq⟩ | ⟨k, heq⟩
  . rw [heq]
    exact partGetInfoEfi_store_entries hready2 hstarted2 hcopies hplaced hlen hcrc hj
  rw [heq]
  right
  rcases @writeBlocks_cut _ _ ⟨dev.lba - 33, pteBlkCnt dev, pte⟩ hlen _ k with ⟨j, hj, heq⟩ | ⟨k, heq⟩
  . rw [heq]
    exact (hcopy j).partGetInfoEfi_eq hlba
  rw [heq]
  rcases @writeBlocks_cut _ _ ⟨dev.lba - 1, 1, headerBlock dev (prepareBackupGptHeader crc32 h)⟩ (hblock _) [] k
    with ⟨j, hj, heq⟩ | ⟨k, heq⟩
  . rw [heq]
    exact ((hcopy _).store_above (mul_le_mul_right _ hheader)).partGetInfoEfi_eq hlba
  . rw [heq, take_nil]
    exact ((hcopy _).store_above (mul_le_mul_right _ hheader)).partGetInfoEfi_eq hlba

end

section

variable {crc32 : List UInt8 → UInt32} {dev : BlkDesc} {disk : Disk} {diskGuid : Guid} {pte : List UInt8}

lemma isGptValid_of_headerBlock {lba : Nat} {h : GptHeader}
    (hheader : blkDread dev disk lba 1 = some (headerBlock dev h))
    (hvalid : ∀ rest, validateGptHeader crc32 h rest lba dev.lba = true)
    (hread : allocReadGptEntries dev disk h = some pte)
    (hcrc : crc32 (pte.take h.count) = h.partitionEntryArrayCrc32)
    : isGptValid crc32 dev disk lba = some (h, pte) := by
  rw [isGptValid_eq_some_iff]
  refine ⟨_, hheader, ofBytes_headerBlock dev h, hvalid _, hread, ?_⟩
  unfold validateGptEntries
  rw [hcrc, beq_self_eq_true]

lemma validateGptHeader_backup (hlba : 34 ≤ dev.lba) (rest : List UInt8)
    : validateGptHeader crc32 (prepareBackupGptHeader crc32 (primaryHeader crc32 (gptFillHeader dev diskGuid) pte)) rest
      (dev.lba - 1) dev.lba = true :=
  validateGptHeader_withCrc rfl rfl (toNat_lba_sub (c := 1) (by show 1 ≤ dev.lba; omega)) hlba (lastUsableLba_le hlba)

lemma written_store_entries (hlba : 34 ≤ dev.lba) (hlen : pteBlkCnt dev * dev.blksz = pte.length)
    : Written crc32 dev diskGuid pte
      (store (store disk (1 * dev.blksz : Nat) (headerBlock dev (primaryHeader crc32 (gptFillHeader dev diskGuid) pte)))
        (2 * dev.blksz : Nat) pte) := by
  constructor
  . exact (started_store_header hlba).store_above le_rfl
  . have hptes := @ptes_store_entries _ (store disk (1 * dev.blksz : Nat)
      (headerBlock dev (primaryHeader crc32 (gptFillHeader dev diskGuid) pte))) _ _ hlen.le le_rfl
    rwa [mixed_all, take_of_length_le (le_of_eq hlen.symm)] at *

lemma isGptValid_store_copy (hlba : 67 ≤ dev.lba) (hlen : pteBlkCnt dev * dev.blksz = pte.length)
    : let copy := prepareBackupGptHeader crc32 (primaryHeader crc32 (gptFillHeader dev diskGuid) pte)
      isGptValid crc32 dev (store (store disk ((dev.lba - 33) * dev.blksz : Nat) pte) ((dev.lba - 1) * dev.blksz : Nat)
        (headerBlock dev copy)) (dev.lba - 1) = some (copy, pte) := by
  have hcnt := pteBlkCnt_le dev
  intro copy
  have hcount : copy.count = gptEntryNumbers * gptEntrySize := @count_gptFillHeader dev diskGuid
  have hstart : copy.partitionEntryLba.toNat = dev.lba - 33 := toNat_backupEntryLba (by omega)
  apply isGptValid_of_headerBlock
  . apply blkDread_store_self
    . rw [length_headerBlock, Nat.one_mul]
    . omega
  . exact validateGptHeader_backup (by omega)
  . unfold allocReadGptEntries
    rw [hcount, if_neg (by unfold gptEntryNumbers gptEntrySize; omega), hstart]
    rw [blkDread_store_below (mul_le_mul_right _ (by show dev.lba - 33 + pteBlkCnt dev ≤ dev.lba - 1; omega))]
    exact blkDread_store_self hlen (by show dev.lba - 33 + pteBlkCnt dev ≤ dev.lba; omega)
  . rw [hcount, ← count_gptFillHeader]
    rfl

def storeTable (crc32 : List UInt8 → UInt32) (dev : BlkDesc) (diskGuid : Guid) (pte : List UInt8) (disk : Disk) : Disk :=
  let h := primaryHeader crc32 (gptFillHeader dev diskGuid) pte
  let disk := store disk (1 * dev.blksz : Nat) (headerBlock dev h)
  let disk := store disk (2 * dev.blksz : Nat) pte
  let disk := store disk ((dev.lba - 33) * dev.blksz : Nat) pte
  store disk ((dev.lba - 1) * dev.blksz : Nat) (headerBlock dev (prepareBackupGptHeader crc32 h))

lemma writeBlocks_requests (hlen : pteBlkCnt dev * dev.blksz = pte.length)
    : writeBlocks dev disk ((requests crc32 dev disk diskGuid pte).flatMap (blocks · dev))
      = storeTable crc32 dev diskGuid pte
        (store disk (0 * dev.blksz : Nat) (protectiveMbr dev (load disk 0 dev.blksz))) := by
  have hblock (start : Nat) (h : GptHeader) (disk : Disk)
      : writeBlocks dev disk (blocks ⟨start, 1, headerBlock dev h⟩ dev)
        = store disk (start * dev.blksz : Nat) (headerBlock dev h) :=
    writeBlocks_blocks (by rw [length_headerBlock, Nat.one_mul])
  have hentries (start : Nat) (disk : Disk)
      : writeBlocks dev disk (blocks ⟨start, pteBlkCnt dev, pte⟩ dev) = store disk (start * dev.blksz : Nat) pte :=
    writeBlocks_blocks hlen
  have hmbr : writeBlocks dev disk (blocks ⟨0, 1, protectiveMbr dev (load disk 0 dev.blksz)⟩ dev)
      = store disk (0 * dev.blksz : Nat) (protectiveMbr dev (load disk 0 dev.blksz)) :=
    writeBlocks_blocks (by rw [length_protectiveMbr (length_load _ _ _), Nat.one_mul])
  unfold requests storeTable
  simp only [flatMap_cons, flatMap_nil, append_nil, writeBlocks_append]
  rw [hmbr, hblock, hentries, hentries, hblock]

section

variable (hlba : 67 ≤ dev.lba)

include hlba

section

variable (hlen : pteBlkCnt dev * dev.blksz = pte.length)

include hlen

lemma written_storeTable : Written crc32 dev diskGuid pte (storeTable crc32 dev diskGuid pte disk) := by
  apply Written.store_above
  . apply Written.store_above
    . exact written_store_entries (by omega) hlen
    . exact mul_le_mul_right _ (by omega)
  . exact mul_le_mul_right _ (by omega)

lemma copies_storeTable
    : Copies crc32 dev (storeTable crc32 dev diskGuid pte disk)
      (primaryHeader crc32 (gptFillHeader dev diskGuid) pte, pte)
      (prepareBackupGptHeader crc32 (primaryHeader crc32 (gptFillHeader dev diskGuid) pte), pte) := by
  have hwritten := @written_storeTable crc32 _ disk diskGuid _ hlba hlen
  have hptes := hwritten.ptes
  rw [take_of_length_le (le_of_eq hlen.symm)] at hptes
  refine ⟨?_, ?_, tableInfo_of_num rfl⟩
  . have hvalid := isGptValid_primaryHeader (by omega) hwritten.header
    rwa [hptes, if_pos rfl] at hvalid
  . exact isGptValid_store_copy hlba hlen

end

lemma placed_storeTable
    : Placed dev (primaryHeader crc32 (gptFillHeader dev diskGuid) pte, pte)
      (prepareBackupGptHeader crc32 (primaryHeader crc32 (gptFillHeader dev diskGuid) pte), pte) := by
  constructor
  . exact le_succ 1
  . show 34 ≤ (ofNat dev.lba - 34 + 1).toNat
    rw [toNat_backupEntryLba (by omega)]
    omega
  . omega

theorem gptRestore_copies {partitions : List DiskPartition} {new : GptHeader × List UInt8} (hblksz : dev.blksz = 512)
    (hcount : partitions.length ≤ gptEntryNumbers) (hnew : newTable crc32 dev (some diskGuid) partitions = some new)
    : ∃ writes, gptRestore crc32 dev disk (some diskGuid) partitions = some (writes, 0)
      ∧ Copies crc32 dev (writeBlocks dev disk writes) new (prepareBackupGptHeader crc32 new.1, new.2) := by
  dsimp only [newTable, gptRestore] at hnew ⊢
  rw [if_neg (Nat.not_lt.mpr hcount)]
  cases hfill : gptFillPte (gptFillHeader dev diskGuid).lastUsableLba
    (gptFillHeader dev diskGuid).firstUsableLba partitions with
  | none =>
    rw [hfill] at hnew
    contradiction
  | some entries =>
    rw [hfill] at hnew
    cases hnew
    have hlen := length_pteBuffer_of_gptFillPte dev hfill hcount
    refine ⟨(requests crc32 dev disk diskGuid (pteBuffer dev entries)).flatMap (blocks · dev), ?_, ?_⟩
    . dsimp only
      rw [writeGptTable_eq hblksz (by omega), blkDwrite_requests (by omega)]
    . rw [writeBlocks_requests hlen]
      exact copies_storeTable hlba hlen

end

end

theorem gptRestore_crashSafe (crc32 : List UInt8 → UInt32) (dev : BlkDesc) (hblksz : dev.blksz = 512) (disk : Disk)
    (old copy : GptHeader × List UInt8) (hcopies : Copies crc32 dev disk old copy) (hplaced : Placed dev old copy)
    (diskGuid : Option Guid) (partitions : List DiskPartition) (hcount : partitions.length ≤ gptEntryNumbers)
    (hbounded : Bounded partitions)
    (hcrc : ∀ new, newTable crc32 dev diskGuid partitions = some new → NoCollision crc32 dev disk new.2) (k : Nat)
    : ∃ writes ret, gptRestore crc32 dev disk diskGuid partitions = some (writes, ret)
      ∧ let disk' := writeBlocks dev disk (writes.take k)
        (∀ part, partGetInfoEfi crc32 dev disk' part = tableInfo dev old part)
        ∨ ∃ new, newTable crc32 dev diskGuid partitions = some new
          ∧ ∀ part, partGetInfoEfi crc32 dev disk' part = tableInfo dev new part := by
  have hheader := hplaced.header
  have hlba : 34 ≤ dev.lba := by omega
  have hold := partGetInfoEfi_of_primary hcopies.primary
  unfold gptRestore newTable at *
  cases diskGuid with
  | none =>
    refine ⟨[], -1, rfl, .inl ?_⟩
    rw [take_nil]
    exact hold
  | some diskGuid =>
    dsimp only at hcrc ⊢
    rw [if_neg (Nat.not_lt.mpr hcount)]
    cases hfill : gptFillPte (gptFillHeader dev diskGuid).lastUsableLba
      (gptFillHeader dev diskGuid).firstUsableLba partitions with
    | none =>
      refine ⟨[], -1, rfl, .inl ?_⟩
      rw [take_nil]
      exact hold
    | some entries =>
      rw [hfill] at hcrc
      dsimp only at hcrc ⊢
      have happart : 67 ≤ dev.lba ∨ pteBuffer dev entries = replicate (pteBlkCnt dev * dev.blksz) 0 := by
        cases partitions with
        | nil =>
          right
          cases hfill
          exact pteBuffer_nil dev
        | cons p ps => exact .inl (le_lba_of_gptFillPte hlba hbounded (cons_ne_nil _ _) hfill)
      rw [writeGptTable_eq hblksz hlba, blkDwrite_requests (by omega)]
      have hanswer := @partGetInfoEfi_requests _ _ _ _ _ diskGuid _ hcopies hplaced (length_pteBuffer dev entries)
        (hcrc _ rfl) happart k
      exact ⟨_, _, rfl, hanswer.imp_right fun hnew => ⟨_, rfl, hnew⟩⟩

namespace Sample

lemma le_blksz : 512 ≤ 512 := Nat.le.refl

def dev : BlkDesc where
  lba := 100
  blksz := 512
  le_blksz
  size_lt := by decide

def sum (bs : List UInt8) : UInt32 := .ofNat (bs.map UInt8.toNat).sum

def guid : Guid := Vector.replicate 16 1

def entry (start : UInt64) : GptEntry where
  partitionTypeGuid := partitionBasicDataGuid
  uniquePartitionGuid := guid.toList
  startingLba := start
  endingLba := start
  attributes := 0
  partitionName := List.replicate 72 0

def block (start : UInt64) : List UInt8 := (entry start).bytes ++ List.replicate (512 - 128) 0

-- The blocks of an old table after the first one.
def rest : List UInt8 := block 40 ++ List.replicate (30 * 512) 0

def header : GptHeader := primaryHeader sum (gptFillHeader dev guid) (block 40 ++ rest)

def disk : Disk := storeTable sum dev guid (block 40 ++ rest) (fun _ => 0)

def copy : GptHeader :=
  let h := { header with myLba := 99, alternateLba := 1 }
  { h with headerCrc32 := headerCrc sum h [] }

def shared : Disk := store disk (99 * dev.blksz : Nat) (headerBlock dev copy)

def partitions : List DiskPartition := [{
  start := 50
  size := 1
  name := Vector.replicate 32 0
  bootable := false
  uuid := some guid
}]

def pte : List UInt8 := block 50 ++ List.replicate (31 * 512) 0

variable (start : UInt64)

lemma length_block : (block start).length = dev.blksz := by
  have hlength : (entry start).bytes.length = 128 := by
    simp [GptEntry.bytes, entry, partitionBasicDataGuid]
  rw [block, length_append, hlength, length_replicate]
  rfl

lemma length_rest : rest.length = 31 * dev.blksz := by
  rw [rest, length_append, length_block, length_replicate]
  rfl

lemma length_blocks : pteBlkCnt dev * dev.blksz = (block start ++ rest).length := by
  rw [length_append, length_block, length_rest]
  rfl

lemma length_pte : pteBlkCnt dev * dev.blksz ≤ pte.length := by
  unfold pte
  rw [length_append, length_block, length_replicate]
  decide

lemma sum_append (bs bs' : List UInt8) : sum (bs ++ bs') = sum bs + sum bs' := by
  simp [sum]

lemma sum_replicate (n : Nat) : sum (replicate n 0) = 0 := by
  simp [sum]

lemma sum_block : sum (block start) = sum (entry start).bytes := by
  rw [block, sum_append, sum_replicate]
  simp

lemma gptFillPte_eq
    : gptFillPte (gptFillHeader dev guid).lastUsableLba (gptFillHeader dev guid).firstUsableLba partitions
      = some [entry 50] := rfl

lemma pteBuffer_eq : pteBuffer dev [entry 50] = pte := by
  have hlength : (entry 50).bytes.length = 128 := rfl
  have hzeros : replicate (pteBlkCnt dev * dev.blksz - 128) (0 : UInt8)
      = replicate (512 - 128) 0 ++ replicate (31 * 512) 0 := by
    rw [replicate_append_replicate]
    rfl
  unfold pteBuffer pte block
  dsimp only
  rw [flatMap_singleton, hlength, append_assoc, ← hzeros]
  rfl

lemma newTable_eq
    : newTable sum dev (some guid) partitions = some (primaryHeader sum (gptFillHeader dev guid) pte, pte) := by
  unfold newTable
  dsimp only
  rw [gptFillPte_eq]
  dsimp only
  rw [pteBuffer_eq]

lemma gptRestore_eq (disk : Disk)
    : gptRestore sum dev disk (some guid) partitions
      = some ((requests sum dev disk guid pte).flatMap (blocks · dev), 0) := by
  unfold gptRestore
  dsimp only
  rw [gptFillPte_eq]
  dsimp only
  rw [if_neg (by decide), pteBuffer_eq, writeGptTable_eq rfl (by decide), blkDwrite_requests (by decide)]

lemma ptes_disk : ptes dev disk = block 40 ++ rest := by
  have hwritten := @written_storeTable sum _ (fun _ => 0) guid _ (by decide) (length_blocks 40)
  have hptes := hwritten.ptes
  rwa [take_of_length_le (le_of_eq (length_blocks 40).symm)] at hptes

lemma ptes_shared : ptes dev shared = block 40 ++ rest := by
  unfold shared
  rw [ptes_store_above (by decide), ptes_disk]

lemma mixed_one (disk : Disk) (hptes : ptes dev disk = block 40 ++ rest)
    : mixed dev disk pte 1 = block 50 ++ rest := by
  unfold mixed pte
  rw [hptes, Nat.one_mul, take_left' (length_block 50), drop_left' (length_block 40)]

lemma mixed_of_two_le (disk : Disk) (hptes : ptes dev disk = block 40 ++ rest) {j : Nat} (hj : 2 ≤ j) (hle : j ≤ 32)
    : mixed dev disk pte j = pte := by
  have hdrop : (block 40 ++ rest).drop (j * dev.blksz) = replicate ((32 - j) * 512) 0 := by
    have hsub : j * dev.blksz = (block 40).length + ((block 40).length + (j - 2) * 512) := by
      rw [length_block]
      change j * 512 = 512 + (512 + (j - 2) * 512)
      omega
    have hzeros : 30 * 512 - (j - 2) * 512 = (32 - j) * 512 := by omega
    rw [hsub, drop_length_add_append, rest, drop_length_add_append, drop_replicate, hzeros]
  have htake : pte.take (j * dev.blksz) = block 50 ++ replicate ((j - 1) * 512) 0 := by
    have hsub : j * dev.blksz = (block 50).length + (j - 1) * 512 := by
      rw [length_block]
      change j * 512 = 512 + _
      omega
    have hzeros : min ((j - 1) * 512) (31 * 512) = (j - 1) * 512 := by omega
    rw [pte, hsub, take_length_add_append, take_replicate, hzeros]
  have hsum : (j - 1) * 512 + (32 - j) * 512 = 31 * 512 := by omega
  unfold mixed
  rw [hptes, hdrop, htake, append_assoc, replicate_append_replicate, hsum, pte]

lemma take_block_append {bs : List UInt8} (hbs : bs.length = 31 * dev.blksz)
    : (block start ++ bs).take (gptEntryNumbers * gptEntrySize) = block start ++ bs := by
  apply take_of_length_le
  rw [length_append, length_block, hbs]
  decide

lemma sum_pte : sum (pte.take (gptEntryNumbers * gptEntrySize)) = sum (entry 50).bytes := by
  unfold pte
  rw [@take_block_append 50 (replicate (31 * 512) 0) length_replicate, sum_append, sum_replicate, sum_block,
    UInt32.add_zero]

lemma sum_rest
    : sum ((block start ++ rest).take (gptEntryNumbers * gptEntrySize))
      = sum (entry start).bytes + sum (entry 40).bytes := by
  rw [take_block_append start length_rest, sum_append, sum_block, rest, sum_append, sum_block, sum_replicate,
    UInt32.add_zero]

lemma noCollision (disk : Disk) (hptes : ptes dev disk = block 40 ++ rest) : NoCollision sum dev disk pte := by
  have hzero : mixed dev disk pte 0 = block 40 ++ rest := by
    unfold mixed
    rw [Nat.zero_mul, take_zero, drop_zero, nil_append, hptes]
  have hcnt : pteBlkCnt dev = 32 := rfl
  intro j hj
  have hj : j = 0 ∨ j = 1 ∨ 2 ≤ j := by omega
  dsimp only
  rcases hj with rfl | rfl | htwo
  . rw [hzero, sum_rest, sum_pte]
    intro heq
    exact absurd heq (by decide +kernel)
  . rw [mixed_one disk hptes, sum_rest, sum_pte]
    intro heq
    exact absurd heq (by decide +kernel)
  . intro _
    rw [mixed_of_two_le disk hptes htwo (by omega)]

lemma count_copy : copy.count = gptEntryNumbers * gptEntrySize := by
  decide

lemma crc_copy : copy.partitionEntryArrayCrc32 = sum ((block 40 ++ rest).take (gptEntryNumbers * gptEntrySize)) := by
  rfl

lemma allocReadGptEntries_copy (disk : Disk) : allocReadGptEntries dev disk copy = some (ptes dev disk) := by
  rfl

lemma copies_shared : Copies sum dev shared (header, block 40 ++ rest) (copy, block 40 ++ rest) := by
  have hwritten := @written_storeTable sum _ (fun _ => 0) guid _ (by decide) (length_blocks 40)
  have hstarted : Started sum dev guid (block 40 ++ rest) shared := hwritten.header.store_above (by decide)
  refine ⟨?_, ?_, tableInfo_of_num rfl⟩
  . have hvalid := isGptValid_primaryHeader (by decide) hstarted
    rwa [ptes_shared, if_pos rfl] at hvalid
  apply isGptValid_of_headerBlock
  . exact blkDread_store_self (by rw [length_headerBlock, Nat.one_mul]) (by decide)
  . intro rest
    apply validateGptHeader_withCrc
    . rfl
    . rfl
    . rfl
    . decide
    . decide
  . rw [allocReadGptEntries_copy, ptes_shared]
  . rw [count_copy, crc_copy]

def cut : Disk := writeBlocks dev shared (((requests sum dev shared guid pte).flatMap (blocks · dev)).take 3)

lemma cut_eq
    : cut = store (store (store shared (0 * dev.blksz : Nat) (protectiveMbr dev (load shared 0 dev.blksz)))
      (1 * dev.blksz : Nat) (headerBlock dev (primaryHeader sum (gptFillHeader dev guid) pte)))
      (2 * dev.blksz : Nat) (pte.take (1 * dev.blksz)) := by
  have hblocks : ((requests sum dev shared guid pte).flatMap (blocks · dev)).take 3
      = blocks ⟨0, 1, protectiveMbr dev (load shared 0 dev.blksz)⟩ dev
        ++ blocks ⟨1, 1, headerBlock dev (primaryHeader sum (gptFillHeader dev guid) pte)⟩ dev
        ++ (blocks ⟨2, pteBlkCnt dev, pte⟩ dev).take 1 := rfl
  unfold cut
  rw [hblocks, writeBlocks_append, writeBlocks_append]
  rw [@writeBlocks_blocks _ _ ⟨0, 1, _⟩ (by rw [length_protectiveMbr (length_load _ _ _), Nat.one_mul])]
  rw [writeBlocks_blocks (by rw [length_headerBlock, Nat.one_mul])]
  rw [writeBlocks_take_blocks length_pte (by decide)]

lemma ptes_cut : ptes dev cut = block 50 ++ rest := by
  have hmbr := length_protectiveMbr (length_load shared 0 dev.blksz)
  rw [cut_eq, ptes_store_entries length_pte (by decide), mixed_one]
  rw [ptes_store_below (by rw [length_headerBlock]; decide), ptes_store_below (by rw [hmbr]; decide), ptes_shared]

lemma started_cut : Started sum dev guid pte cut := by
  rw [cut_eq]
  exact (started_store_header (by decide)).store_above le_rfl

lemma isGptValid_cut_primary : isGptValid sum dev cut gptPrimaryPartitionTableLba = none := by
  have hvalid := isGptValid_primaryHeader (by decide) started_cut
  rw [if_neg] at hvalid
  . exact hvalid
  . rw [ptes_cut, sum_rest, sum_pte]
    decide +kernel

lemma isGptValid_cut_copy : isGptValid sum dev cut (dev.lba - 1) = none := by
  have hmbr := length_protectiveMbr (length_load shared 0 dev.blksz)
  have hread : blkDread dev cut (dev.lba - 1) 1 = some (headerBlock dev copy) := by
    have hentries : 2 * dev.blksz + (pte.take (1 * dev.blksz)).length ≤ (dev.lba - 1) * dev.blksz := by
      rw [length_take]
      exact Nat.le_trans (Nat.add_le_add_left (Nat.min_le_left _ _) _) (by decide)
    rw [cut_eq, blkDread_store_above hentries, blkDread_store_above (by rw [length_headerBlock]; decide),
      blkDread_store_above (by rw [hmbr]; decide)]
    exact blkDread_store_self (by rw [length_headerBlock, Nat.one_mul]) (by decide)
  cases hvalid : isGptValid sum dev cut (dev.lba - 1) with
  | none => rfl
  | some table =>
    rw [isGptValid_eq_some_iff] at hvalid
    have ⟨header, hheader, hh, _, hentries, hcrc⟩ := hvalid
    rw [hread, Option.some.injEq] at hheader
    rw [← hheader, ofBytes_headerBlock] at hh
    rw [← hh, allocReadGptEntries_copy, Option.some.injEq] at hentries
    rw [← hh, ← hentries, ptes_cut] at hcrc
    exact absurd hcrc (by decide +kernel)

end Sample

open Sample

theorem gptRestore_crashSafe_partly
    : ∃ old copy, Copies sum dev disk old copy ∧ Placed dev old copy
      ∧ Bounded partitions
      ∧ (∀ new, newTable sum dev (some guid) partitions = some new
        → NoCollision sum dev disk new.2)
      ∧ ∃ writes ret, gptRestore sum dev disk (some guid) partitions
        = some (writes, ret)
        ∧ let disk := writeBlocks dev disk (writes.take 3)
          (∀ part, partGetInfoEfi sum dev disk part = tableInfo dev old part)
          ∨ ∃ new, newTable sum dev (some guid) partitions = some new
            ∧ ∀ part, partGetInfoEfi sum dev disk part = tableInfo dev new part := by
  have hcopies : Copies sum dev disk _ _ := copies_storeTable (by decide) (length_blocks 40)
  have hplaced := @placed_storeTable sum dev guid (block 40 ++ rest) (by decide)
  have hbounded : Bounded partitions := by
    intro p hp
    rw [mem_singleton.mp hp]
    decide
  have hcrc : ∀ new, newTable sum dev (some guid) partitions = some new → NoCollision sum dev disk new.2 := by
    intro new hnew
    rw [newTable_eq, Option.some.injEq] at hnew
    rw [← hnew]
    exact noCollision _ ptes_disk
  exact ⟨_, _, hcopies, hplaced, hbounded, hcrc,
    gptRestore_crashSafe _ _ rfl _ _ _ hcopies hplaced (some guid) partitions (by decide) hbounded hcrc 3⟩

-- The copy is for the same entries, which are written in part.
theorem not_crashSafe_shared
    : Copies sum dev shared (header, block 40 ++ rest)
        (copy, block 40 ++ rest)
      ∧ Bounded partitions
      ∧ tableInfo dev (header, block 40 ++ rest) 1 ≠ none
      ∧ (∃ new, newTable sum dev (some guid) partitions = some new
        ∧ NoCollision sum dev shared new.2 ∧ tableInfo dev new 1 ≠ none)
      ∧ ∃ writes, gptRestore sum dev shared (some guid) partitions = some (writes, 0)
        ∧ partGetInfoEfi sum dev (writeBlocks dev shared (writes.take 3)) 1 = none := by
  refine ⟨copies_shared, ?_, ?_, ⟨_, newTable_eq, noCollision _ ptes_shared, ?_⟩, _, gptRestore_eq _, ?_⟩
  . intro p hp
    rw [mem_singleton.mp hp]
    decide
  . decide +kernel
  . decide +kernel
  change partGetInfoEfi sum dev cut 1 = none
  unfold partGetInfoEfi
  rw [isGptValid_cut_primary, isGptValid_cut_copy]
  decide

theorem gptRestore_one
    : ∃ writes, gptRestore sum dev 0 (some guid) partitions = some (writes, 0)
      ∧ Copies sum dev (writeBlocks dev 0 writes) (primaryHeader sum (gptFillHeader dev guid) pte, pte)
        (prepareBackupGptHeader sum (primaryHeader sum (gptFillHeader dev guid) pte), pte) :=
  gptRestore_copies (by decide) rfl (by decide) newTable_eq

end UBoot.PartEfi
