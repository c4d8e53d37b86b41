import MarvellBoot.UBoot.PartEfi.Impl

/-!
The accesses of the GPT functions of `disk/part_efi.c` to the header block, to the buffer of the entries and to
`efi_part`.
-/

namespace UBoot.PartEfi

def padToBlocksize (dev : BlkDesc) (size : Nat) : Nat := blockCnt dev size * dev.blksz

/--
An access to `len` bytes of the header block or of the buffer of the entries, which has `alloc` bytes. The ones to the
entry of partition `part` are relative to `base`, where the code takes this entry from.
-/
inductive Access where
  | header (off len : Nat)
  | buffer (alloc len : Nat)
  | entry (h : GptHeader) (alloc part base off len : Nat)
  | efiPart (i : Nat)

def Access.InBounds (dev : BlkDesc) : Access → Prop
  | .header off len => off + len ≤ dev.blksz
  | .buffer alloc len => len ≤ alloc
  | .entry _ alloc _ base off len => base + off + len ≤ alloc
  | .efiPart i => i < 3

def Access.InPlace : Access → Prop
  | .entry h _ part base _ _ => base = (part - 1) * h.sizeofPartitionEntry.toNat
  | _ => True

def Safe (dev : BlkDesc) (accesses : List Access) : Prop := ∀ a ∈ accesses, a.InBounds dev ∧ a.InPlace

section

variable (crc32 : List UInt8 → UInt32) (memalign : Nat → Bool) (dev : BlkDesc) (disk : Disk)

def validateGptHeader.accesses (h : GptHeader) (rest : List UInt8) (lba lastlba : Nat) : List Access :=
  .header 0 8 :: if h.signature = gptHeaderSignature then
    -- The CRC is saved, cleared and restored.
    [.header 16 4, .header 12 4, .header 0 h.headerSize.toNat, .header 16 4] ++
      if headerCrc crc32 h rest = h.headerCrc32 then
        .header 24 8 :: if h.myLba.toNat = lba then
          .header 40 8 :: if h.firstUsableLba.toNat ≤ lastlba then [.header 48 8] else []
        else
          []
      else
        []
  else
    []

def allocReadGptEntries.accesses (h : GptHeader) : List Access :=
  [.header 80 4, .header 84 4] ++
    if h.count ≠ 0 ∧ memalign (padToBlocksize dev h.count) then
      [.header 72 8, .buffer (padToBlocksize dev h.count) (blockCnt dev h.count * dev.blksz)]
    else
      []

def validateGptEntries.accesses (h : GptHeader) : List Access :=
  [.header 80 4, .header 84 4, .buffer (padToBlocksize dev h.count) h.count, .header 88 4]

def isGptValid.accesses (lba : Nat) : List Access :=
  .header 0 dev.blksz :: match blkDread dev disk lba 1 with
  | none => []
  | some block =>
    let h := GptHeader.ofBytes block
    validateGptHeader.accesses crc32 h (block.drop gptHeaderSize) lba dev.lba ++
      if validateGptHeader crc32 h (block.drop gptHeaderSize) lba dev.lba then
        allocReadGptEntries.accesses memalign dev h ++
          match allocReadGptEntries dev disk h with
          | none => []
          | some _ => if memalign (padToBlocksize dev h.count) then validateGptEntries.accesses dev h else []
      else
        []

-- The table that `is_gpt_valid` accepts when there may be no memory for it.
def acceptedTable (lba : Nat) : Option (GptHeader × List UInt8) :=
  match isGptValid crc32 dev disk lba with
  | some (h, pte) => if memalign (padToBlocksize dev h.count) then some (h, pte) else none
  | none => none

def entryAccess (h : GptHeader) (i off len : Nat) : Access :=
  .entry h (padToBlocksize dev h.count) (i + 1) (gptEntrySize * i) off len

def tableInfo.accesses (table : GptHeader × List UInt8) (part : Int) : List Access :=
  let i := (part - 1).toNat
  let entry := entryAccess dev table.1 i
  .header 80 4 :: if part ≤ table.1.numPartitionEntries.toNat then
    entry 0 16 :: if isPteValid (gptPte table.2 i) then
      [entry 32 8, entry 40 8, entry 56 72, entry 48 8, entry 0 16, entry 16 16]
    else
      []
  else
    []

def partGetInfoEfi.accesses (part : Int) : List Access :=
  if part < 1 then
    []
  else
    isGptValid.accesses crc32 memalign dev disk gptPrimaryPartitionTableLba ++
      match acceptedTable crc32 memalign dev disk gptPrimaryPartitionTableLba with
      | some table => tableInfo.accesses dev table part
      | none =>
        isGptValid.accesses crc32 memalign dev disk (dev.lba - 1) ++
          match acceptedTable crc32 memalign dev disk (dev.lba - 1) with
          | some table => tableInfo.accesses dev table part
          | none => []

def fillEfiPart.accesses (table : GptHeader × List UInt8) : (entries : List Nat) → List Access
  | [] => [.header 80 4]
  | i :: entries =>
    let entry := entryAccess dev table.1 i
    .header 80 4 :: entry 0 16 :: if isPteValid (gptPte table.2 i) then
      [entry 32 8, entry 40 8, entry 56 72, .efiPart i] ++ accesses table entries
    else
      []

def partEfi.accesses : List Access :=
  isGptValid.accesses crc32 memalign dev disk gptPrimaryPartitionTableLba ++
    match acceptedTable crc32 memalign dev disk gptPrimaryPartitionTableLba with
    | none => []
    | some table => fillEfiPart.accesses dev table (List.range table.1.numPartitionEntries.toNat)

end

end UBoot.PartEfi
