import MarvellBoot.UBoot.PartEfi.Impl

namespace UBoot.PartEfi

open Mem GptHeader List

section

variable {b pre post x : List UInt8} {off len n : Nat}

@[simp]
lemma length_le (len x : Nat) : (le len x).length = len := by
  unfold le
  rw [length_reverse, Bytes.length_ofNat]

lemma bytesAt_append_left (hx : x.length = len) : bytesAt (x ++ post) 0 len = x := by
  apply ext_getElem
  . simp [bytesAt, hx]
  . intro i h1 h2
    simp only [bytesAt, Bytes.load, getElem_map, getElem_range, getD, zero_add]
    rw [getElem?_append_left h2, getElem?_eq_getElem h2, Option.getD_some]

lemma bytesAt_append_right (h : pre.length ≤ off)
    : bytesAt (pre ++ post) off len = bytesAt post (off - pre.length) len := by
  apply map_congr_left
  intro i _
  simp only [getD]
  rw [getElem?_append_right (by omega), Nat.sub_add_comm h]

lemma leAt_le_append {v : Nat} (hv : v < 256 ^ len) : leAt (le len v ++ post) 0 len = v := by
  unfold leAt
  rw [bytesAt_append_left (length_le len v)]
  unfold le
  rw [reverse_reverse, Bytes.val_ofNat hv]

lemma leAt_append_right (h : pre.length ≤ off) : leAt (pre ++ post) off len = leAt post (off - pre.length) len := by
  unfold leAt
  rw [bytesAt_append_right h]

lemma bytesAt_take (h : off + len ≤ n) : bytesAt (b.take n) off len = bytesAt b off len := by
  apply map_congr_left
  intro i hi
  have hi := mem_range.mp hi
  simp only [getD]
  rw [getElem?_take_of_lt (by omega)]

lemma leAt_take (h : off + len ≤ n) : leAt (b.take n) off len = leAt b off len := by
  unfold leAt
  rw [bytesAt_take h]

end

@[simp]
lemma GptHeader.length_bytes (h : GptHeader) : h.bytes.length = gptHeaderSize := by
  simp [bytes, gptHeaderSize]

lemma GptHeader.ofBytes_append (h : GptHeader) (rest : List UInt8) : ofBytes (h.bytes ++ rest) = h := by
  have hskip (k v off len : Nat) (post : List UInt8) (hle : k ≤ off)
      : leAt (le k v ++ post) off len = leAt post (off - k) len := by
    rw [leAt_append_right (by rwa [length_le]), length_le]
  have hguid (g : Guid) (off len : Nat) (post : List UInt8) (hle : 16 ≤ off)
      : leAt (g.toList ++ post) off len = leAt post (off - 16) len := by
    rw [leAt_append_right (by simpa using hle), Vector.length_toList]
  have h64 (x : UInt64) (post : List UInt8) : UInt64.ofNat (leAt (le 8 x.toNat ++ post) 0 8) = x := by
    rw [leAt_le_append x.toNat_lt, UInt64.ofNat_toNat]
  have h32 (x : UInt32) (post : List UInt8) : UInt32.ofNat (leAt (le 4 x.toNat ++ post) 0 4) = x := by
    rw [leAt_le_append x.toNat_lt, UInt32.ofNat_toNat]
  have hbytes (i : Fin 16) : (h.bytes ++ rest).getD (56 + i) 0 = h.diskGuid[i] := by
    simp only [bytes, append_assoc, getD]
    simp (disch := simp; omega) only [getElem?_append_right, length_le]
    rw [getElem?_append_left (by simp; omega)]
    simp [show 56 + (i : Nat) - 8 - 4 - 4 - 4 - 4 - 8 - 8 - 8 - 8 = i by omega]
  unfold ofBytes
  simp only [hbytes]
  simp (disch := decide) only [bytes, append_assoc, hskip, hguid, h64, h32, Nat.reduceSub]
  cases h with | mk
  simp

lemma GptHeader.ofBytes_headerBlock (dev : BlkDesc) (h : GptHeader)
    : ofBytes (headerBlock dev h) = h := ofBytes_append h _

lemma length_headerBlock (dev : BlkDesc) (h : GptHeader) : (headerBlock dev h).length = dev.blksz := by
  have hblksz := dev.le_blksz
  unfold headerBlock
  rw [length_append, length_bytes, length_replicate]
  unfold gptHeaderSize
  omega

variable {pte : List UInt8} {dev : BlkDesc}

lemma gptPte_take {i n : Nat} (h : gptEntrySize * i + gptEntrySize ≤ n) : gptPte (pte.take n) i = gptPte pte i := by
  unfold gptEntrySize at h
  unfold gptPte gptEntrySize
  simp only [bytesAt_take (show 128 * i + 16 ≤ n by omega), bytesAt_take (show 128 * i + 16 + 16 ≤ n by omega),
    leAt_take (show 128 * i + 32 + 8 ≤ n by omega), leAt_take (show 128 * i + 40 + 8 ≤ n by omega),
    leAt_take (show 128 * i + 48 + 8 ≤ n by omega), bytesAt_take (show 128 * i + 56 + 72 ≤ n by omega)]

lemma tableInfo_of_num {h h' : GptHeader}
    (hnum : h.numPartitionEntries = h'.numPartitionEntries) (part : Int)
    : tableInfo dev (h, pte) part = tableInfo dev (h', pte) part := by
  unfold tableInfo
  rw [hnum]

lemma tableInfo_congr {h : GptHeader} {pte' : List UInt8} {n : Nat}
    (hn : gptEntrySize * h.numPartitionEntries.toNat ≤ n) (heq : pte.take n = pte'.take n) (part : Int)
    : tableInfo dev (h, pte) part = tableInfo dev (h, pte') part := by
  by_cases hpart : part < 1 ∨ h.numPartitionEntries.toNat < part
  . have hout (pte : List UInt8) : tableInfo dev (h, pte) part = none := by
      unfold tableInfo
      rw [if_pos]
      rcases hpart with hpart | hpart
      . exact .inl hpart
      . exact .inr (.inl hpart)
    rw [hout, hout]
  have hle : gptEntrySize * (part - 1).toNat + gptEntrySize ≤ n := by
    unfold gptEntrySize at hn ⊢
    omega
  unfold tableInfo
  rw [← gptPte_take hle, heq, gptPte_take hle]

section

variable {crc32 : List UInt8 → UInt32} {dev : BlkDesc} {disk disk' : Disk} {lba lastlba : Nat} {h : GptHeader}
  {rest pte : List UInt8}

lemma headerCrc_eq (hsize : h.headerSize.toNat = gptHeaderSize)
    : headerCrc crc32 h rest = crc32 { h with headerCrc32 := 0 }.bytes := by
  unfold headerCrc
  rw [hsize, take_left' (length_bytes _)]

lemma validateGptHeader_withCrc (hsignature : h.signature = gptHeaderSignature)
    (hsize : h.headerSize.toNat = gptHeaderSize) (hlba : h.myLba.toNat = lba) (hfirst : h.firstUsableLba.toNat ≤ lastlba)
    (hlast : h.lastUsableLba.toNat ≤ lastlba)
    : validateGptHeader crc32 { h with headerCrc32 := headerCrc crc32 h [] } rest lba lastlba = true := by
  have hcrc (crc : UInt32) : headerCrc crc32 { h with headerCrc32 := crc } rest = headerCrc crc32 h [] := by
    rw [headerCrc_eq (by exact hsize), headerCrc_eq hsize]
  unfold validateGptHeader
  rw [hcrc]
  simp [hsignature, hsize, hlba, hfirst, hlast]

lemma isGptValid_eq_some_iff
    : isGptValid crc32 dev disk lba = some (h, pte)
      ↔ ∃ block, blkDread dev disk lba 1 = some block ∧ ofBytes block = h
        ∧ validateGptHeader crc32 h (block.drop gptHeaderSize) lba dev.lba = true
        ∧ allocReadGptEntries dev disk h = some pte ∧ validateGptEntries crc32 h pte = true := by
  unfold isGptValid
  cases blkDread dev disk lba 1 with
  | none => simp
  | some block =>
    dsimp only
    constructor
    . intro hvalid
      split at hvalid
      . next hheader =>
        split at hvalid
        . cases hvalid
        next pte' hpte =>
        split at hvalid
        . next hentries =>
          rw [Option.some.injEq, Prod.mk.injEq] at hvalid
          have ⟨hh, heq⟩ := hvalid
          rw [hh] at hheader hpte hentries
          rw [heq] at hpte hentries
          exact ⟨block, rfl, hh, hheader, hpte, hentries⟩
        . cases hvalid
      . cases hvalid
    rintro ⟨_, hblock, hh, hheader, hpte, hentries⟩
    rw [Option.some.injEq] at hblock
    rw [← hblock] at hh hheader
    rw [hh, if_pos hheader, hpte]
    dsimp only
    rw [if_pos hentries]

lemma isGptValid_of_eq (hvalid : isGptValid crc32 dev disk lba = some (h, pte))
    (hblock : blkDread dev disk' lba 1 = blkDread dev disk lba 1)
    (hpte : allocReadGptEntries dev disk' h = allocReadGptEntries dev disk h)
    : isGptValid crc32 dev disk' lba = some (h, pte) := by
  rw [isGptValid_eq_some_iff] at hvalid ⊢
  rwa [hblock, hpte]

end

end UBoot.PartEfi
