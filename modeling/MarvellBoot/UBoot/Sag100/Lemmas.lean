import MarvellBoot.UBoot.PartEfi.Lemmas.Restore
import MarvellBoot.UBoot.Sag100.Impl

namespace UBoot.Sag100

open PartEfi List PartEfi.Sample

section

variable {pte : List UInt8} {efiPart : EfiPart} {k n : Nat} (i : Fin 3)

lemma startLpa_fillEfiPart
    : ((fillEfiPart pte (range' k n) efiPart).get i).startLpa
      = if k ≤ i ∧ i < k + n ∧ ∀ j, k ≤ j → j ≤ i → isPteValid (gptPte pte j) = true then
        (gptPte pte i).startingLba
      else
        (efiPart.get i).startLpa := by
  induction n generalizing k efiPart with
  | zero =>
    rw [if_neg (by omega)]
    rfl
  | succ n ih =>
    rw [range'_succ, fillEfiPart]
    split
    . next hvalid =>
      have hget (x : PartEntry) : (efiPart.setIfInBounds k x).get i = if k = i.val then x else efiPart.get i :=
        Vector.getElem_setIfInBounds i.isLt
      rw [ih, hget]
      by_cases hk : k = i
      . rw [if_neg (by omega), if_pos hk, if_pos, hk]
        refine ⟨by omega, by omega, fun j hj hle => ?_⟩
        rwa [show j = k by omega]
      have hiff : (k + 1 ≤ i.val ∧ i.val < k + 1 + n ∧ ∀ j, k + 1 ≤ j → j ≤ i.val → isPteValid (gptPte pte j) = true)
          ↔ k ≤ i.val ∧ i.val < k + (n + 1) ∧ ∀ j, k ≤ j → j ≤ i.val → isPteValid (gptPte pte j) = true := by
        constructor
        . rintro ⟨hle, hlt, hall⟩
          refine ⟨by omega, by omega, fun j hj hji => ?_⟩
          by_cases hjk : j = k
          . rwa [hjk]
          . exact hall j (by omega) hji
        . rintro ⟨hle, hlt, hall⟩
          exact ⟨by omega, by omega, fun j hj hji => hall j (by omega) hji⟩
      rw [if_neg hk, if_congr hiff rfl rfl]
    next hvalid =>
    have hnot : ¬(k ≤ i.val ∧ i.val < k + (n + 1) ∧ ∀ j, k ≤ j → j ≤ i.val → isPteValid (gptPte pte j) = true) := by
      rintro ⟨hk, _, hall⟩
      exact hvalid (hall k le_rfl hk)
    rw [if_neg hnot]

end

def InUse (table : GptHeader × List UInt8) (i : Nat) : Prop :=
  i < table.1.numPartitionEntries.toNat ∧ isPteValid (gptPte table.2 i) = true

def Inside (table : GptHeader × List UInt8) (i : Nat) (c : Command) : Prop :=
  ∀ b ∈ c.blocks, InUse table i ∧ (gptPte table.2 i).startingLba.toNat ≤ b ∧ b ≤ (gptPte table.2 i).endingLba.toNat

/--
The partition and all partitions before it are there, and it has room for `len` blocks. Or `part_efi` stops before
the partition, and what is left of earlier tables happens to be in it.
-/
inductive Fits (efiPart : EfiPart) (table : GptHeader × List UInt8) (i : Fin 3) (len : Nat) : Prop where
  | found (hall : ∀ j ≤ i.val, InUse table j) (hstart : (gptPte table.2 i).startingLba.toNat < 2 ^ 32)
      (hroom : (gptPte table.2 i).startingLba.toNat + len ≤ (gptPte table.2 i).endingLba.toNat + 1)
  | left (hall : ¬∀ j ≤ i.val, InUse table j) (huse : InUse table i)
      (hstart : (gptPte table.2 i).startingLba.toNat ≤ (efiPart.get i).startLpa.toNat % 2 ^ 32)
      (hroom : (efiPart.get i).startLpa.toNat % 2 ^ 32 + len ≤ (gptPte table.2 i).endingLba.toNat + 1)

section

variable {crc32 : List UInt8 → UInt32} {dev : BlkDesc} {disk : Disk} {table : GptHeader × List UInt8} {env : Env}
  {efiPart : EfiPart} {op : Operation} {i : Fin 3} {len : UInt32}

instance (table : GptHeader × List UInt8) (i : Nat) : Decidable (InUse table i) := inferInstanceAs (Decidable (_ ∧ _))

section

variable (hvalid : isGptValid crc32 dev disk gptPrimaryPartitionTableLba = some table)

include hvalid

lemma startLpa_getPartInfo (i : Fin 3)
    : ((getPartInfo crc32 (some (dev, disk)) efiPart).1.get i).startLpa
      = if ∀ j ≤ i.val, InUse table j then (gptPte table.2 i).startingLba else (efiPart.get i).startLpa := by
  have ⟨h, pte⟩ := table
  have hiff : (0 ≤ i.val ∧ i.val < 0 + h.numPartitionEntries.toNat ∧ ∀ j, 0 ≤ j → j ≤ i.val →
    isPteValid (gptPte pte j) = true)
      ↔ ∀ j ≤ i.val, InUse (h, pte) j := by
    constructor
    . rintro ⟨_, hlt, hall⟩ j hj
      exact ⟨by show j < h.numPartitionEntries.toNat; omega, hall j (Nat.zero_le _) hj⟩
    . intro hall
      have hlt : i.val < h.numPartitionEntries.toNat := (hall i le_rfl).1
      exact ⟨Nat.zero_le _, by omega, fun j _ hj => (hall j hj).2⟩
  unfold getPartInfo partEfi
  dsimp only
  rw [hvalid]
  dsimp only
  rw [range_eq_range', startLpa_fillEfiPart, if_congr hiff rfl rfl]

lemma ret_getPartInfo : (getPartInfo crc32 (some (dev, disk)) efiPart).2 = 0 := by
  unfold getPartInfo partEfi
  dsimp only
  rw [hvalid]

end

lemma inside_mmcWrite_iff {i : Nat} {addr cnt : UInt32} {start : UInt64} (hcnt : 0 < cnt.toNat)
    : Inside table i (.mmcWrite addr start cnt)
      ↔ InUse table i ∧ (gptPte table.2 i).startingLba.toNat ≤ start.toNat % 2 ^ 32
        ∧ start.toNat % 2 ^ 32 + cnt.toNat ≤ (gptPte table.2 i).endingLba.toNat + 1 := by
  unfold Inside Command.blocks
  dsimp only
  rw [UInt64.toNat_toUInt32]
  constructor
  . intro h
    have hmem (x : Nat) (hx : x < cnt.toNat) := h _ (mem_map_of_mem (mem_range.mpr hx))
    have hfirst := hmem 0 hcnt
    have hlast := hmem (cnt.toNat - 1) (by omega)
    exact ⟨hfirst.1, by omega, by omega⟩
  rintro ⟨huse, hstart, hroom⟩ b hb
  have ⟨x, hx, hb⟩ := mem_map.mp hb
  have hx := mem_range.mp hx
  exact ⟨huse, by omega, by omega⟩

lemma fits_iff {len : Nat}
    : Fits efiPart table i len
      ↔ let start := if ∀ j ≤ i.val, InUse table j then (gptPte table.2 i).startingLba else (efiPart.get i).startLpa
        InUse table i ∧ (gptPte table.2 i).startingLba.toNat ≤ start.toNat % 2 ^ 32
          ∧ start.toNat % 2 ^ 32 + len ≤ (gptPte table.2 i).endingLba.toNat + 1 := by
  dsimp only
  constructor
  . intro h
    cases h with
    | found hall hstart hroom =>
      rw [if_pos hall, Nat.mod_eq_of_lt hstart]
      exact ⟨hall i le_rfl, le_rfl, hroom⟩
    | left hall huse hstart hroom =>
      rw [if_neg hall]
      exact ⟨huse, hstart, hroom⟩
  rintro ⟨huse, hstart, hroom⟩
  by_cases hall : ∀ j ≤ i.val, InUse table j
  . rw [if_pos hall] at hstart hroom
    have hlt : (gptPte table.2 i).startingLba.toNat < 2 ^ 32 := by
      omega
    rw [Nat.mod_eq_of_lt hlt] at hroom
    exact .found hall hlt hroom
  . rw [if_neg hall] at hstart hroom
    exact .left hall huse hstart hroom

lemma inside_of_blocks_nil {i : Nat} {c : Command} (hc : c.blocks = []) : Inside table i c := by
  intro b hb
  rw [hc] at hb
  contradiction

section

variable (hvalid : isGptValid crc32 dev disk gptPrimaryPartitionTableLba = some table)

include hvalid

lemma inside_update_iff
    (hmmc : env.mmc = some (dev, disk))
    (hfile : ∃ name, env.fileName = .ok name ∧ env.run (.tftpboot loadAddr name) = 0)
    : (∀ c ∈ (update crc32 env i len efiPart).commands, Inside table i c)
      ↔ Inside table i (.mmcWrite loadAddr ((getPartInfo crc32 (some (dev, disk)) efiPart).1.get i).startLpa len) := by
  have ⟨name, hname, htftp⟩ := hfile
  unfold update
  rw [hmmc, if_neg (not_not_intro (ret_getPartInfo hvalid)), hname]
  dsimp only
  rw [if_neg (not_not_intro htftp)]
  simp only [forall_mem_cons, not_mem_nil, false_implies, implies_true, and_true]
  constructor
  . intro h
    exact h.2.2
  . intro h
    exact ⟨inside_of_blocks_nil rfl, inside_of_blocks_nil rfl, h⟩

lemma inside_reset_iff
    (hmmc : env.mmc = some (dev, disk))
    : (∀ c ∈ (resetSysRecovry crc32 env efiPart).commands, Inside table 0 c)
      ↔ Inside table 0 (.mmcWrite loadAddr ((getPartInfo crc32 (some (dev, disk)) efiPart).1.get 0).startLpa sysLen) := by
  unfold resetSysRecovry
  rw [hmmc, if_neg (not_not_intro (ret_getPartInfo hvalid))]
  simp only [forall_mem_cons, not_mem_nil, false_implies, implies_true, and_true]
  constructor
  . intro h
    exact h.2.2.1
  . intro h
    exact ⟨inside_of_blocks_nil rfl, inside_of_blocks_nil rfl, h, inside_of_blocks_nil rfl⟩

end

lemma inside_write_iff (hlen : 0 < len.toNat)
    (hvalid : isGptValid crc32 dev disk gptPrimaryPartitionTableLba = some table)
    : Inside table i (.mmcWrite loadAddr ((getPartInfo crc32 (some (dev, disk)) efiPart).1.get i).startLpa len)
      ↔ Fits efiPart table i len.toNat := by
  rw [inside_mmcWrite_iff hlen, startLpa_getPartInfo hvalid, fits_iff]

end

theorem write_inside_iff (crc32 : List UInt8 → UInt32) (history : List (Option (BlkDesc × Disk))) (dev : BlkDesc)
    (disk : Disk) (table : GptHeader × List UInt8)
    (hvalid : isGptValid crc32 dev disk gptPrimaryPartitionTableLba = some table) (env : Env)
    (hmmc : env.mmc = some (dev, disk)) (op : Operation)
    (hfile : op ≠ .reset → ∃ name, env.fileName = .ok name ∧ env.run (.tftpboot loadAddr name) = 0)
    : (∀ c ∈ (op.call crc32 env (leftOver crc32 history)).commands, Inside table op.entry c)
      ↔ Fits (leftOver crc32 history) table op.entry 0x40000 := by
  cases op with
  | sysup | data
  | recovry => exact (inside_update_iff hvalid hmmc (hfile (by decide))).trans (inside_write_iff (by decide) hvalid)
  | reset => exact (inside_reset_iff hvalid hmmc).trans (inside_write_iff (by decide) hvalid)

namespace Sample

def dev : BlkDesc where
  lba := 0x200000
  blksz := 512
  le_blksz := PartEfi.Sample.le_blksz
  size_lt := by decide

def entry (start : UInt64) : GptEntry := { PartEfi.Sample.entry start with endingLba := start + 0x3ffff }

def pte : List UInt8 :=
  (entry 0x100).bytes ++ (entry 0x50000).bytes ++ (entry 0xa0000).bytes ++ List.replicate (0x4000 - 3 * 128) 0

def disk : Disk := storeTable PartEfi.Sample.sum dev PartEfi.Sample.guid pte (fun _ => 0)

def table : GptHeader × List UInt8 :=
  (primaryHeader PartEfi.Sample.sum (gptFillHeader dev PartEfi.Sample.guid) pte, pte)

def env (dev : BlkDesc) (disk : Disk) : Env where
  fileName := .ok []
  run _ := 0
  mmc := some (dev, disk)

lemma isGptValid_disk : isGptValid PartEfi.Sample.sum dev disk gptPrimaryPartitionTableLba = some table := by
  have hlength (start : UInt64) : (entry start).bytes.length = 128 := by
    simp [GptEntry.bytes, entry, PartEfi.Sample.entry, partitionBasicDataGuid]
  have hpte : pteBlkCnt dev * dev.blksz = pte.length := by
    unfold pte
    rw [length_append, length_append, length_append, hlength, hlength, hlength, length_replicate]
    decide
  exact (copies_storeTable (by decide) hpte).primary

end Sample

theorem write_inside_iff_large
    : isGptValid PartEfi.Sample.sum Sample.dev Sample.disk gptPrimaryPartitionTableLba = some Sample.table
      ∧ ∀ c ∈ (Operation.data.call PartEfi.Sample.sum (Sample.env Sample.dev Sample.disk)
          (leftOver PartEfi.Sample.sum [some (PartEfi.Sample.dev, PartEfi.Sample.disk)])).commands,
        Inside Sample.table 1 c := by
  refine ⟨Sample.isGptValid_disk, ?_⟩
  apply (write_inside_iff _ _ _ _ _ Sample.isGptValid_disk (Sample.env Sample.dev Sample.disk) rfl .data
    (fun _ => ⟨[], rfl, rfl⟩)).mpr
  apply Fits.found
  . decide +kernel
  . decide +kernel
  . decide +kernel

-- The first partition is block 40 only.
theorem not_inside_small
    : isGptValid PartEfi.Sample.sum PartEfi.Sample.dev PartEfi.Sample.disk gptPrimaryPartitionTableLba
        = some (PartEfi.Sample.header, PartEfi.Sample.block 40 ++ PartEfi.Sample.rest)
      ∧ ¬∀ c ∈ (Operation.sysup.call PartEfi.Sample.sum (Sample.env PartEfi.Sample.dev PartEfi.Sample.disk)
          (leftOver PartEfi.Sample.sum [])).commands,
        Inside (PartEfi.Sample.header, PartEfi.Sample.block 40 ++ PartEfi.Sample.rest) 0 c := by
  have hvalid : isGptValid sum dev disk gptPrimaryPartitionTableLba = some (header, block 40 ++ rest) :=
    (copies_storeTable (by decide) (length_blocks 40)).primary
  refine ⟨hvalid, ?_⟩
  intro h
  have hiff := @inside_update_iff _ _ _ _ (Sample.env dev disk) (leftOver sum []) 0 sysLen hvalid rfl ⟨[], rfl, rfl⟩
  have hfits := (hiff.trans (inside_write_iff (by decide) hvalid)).mp h
  have hroom : ¬(gptPte (block 40 ++ rest) 0).startingLba.toNat + sysLen.toNat
      ≤ (gptPte (block 40 ++ rest) 0).endingLba.toNat + 1 := by
    decide +kernel
  have huse : ∀ j ≤ 0, InUse (header, block 40 ++ rest) j := by
    decide +kernel
  cases hfits with
  | found _ _ h => exact hroom h
  | left h _ _ _ => exact h huse

end UBoot.Sag100
