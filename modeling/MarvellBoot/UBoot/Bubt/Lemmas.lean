import MarvellBoot.UBoot.Bubt.Impl

namespace UBoot.Bubt

open Mem Size Option List

variable {hdr x : Int} {m m₁ m₂ : Memory} {h : Hashes} {size : UInt64} {imageSize : Nat}

lemma Armada8k.checkImageHeader_mem (h : (checkImageHeader hdr m).1 = 0) : (checkImageHeader hdr m).2 = m := by
  unfold checkImageHeader at h ⊢
  dsimp only at h ⊢
  split
  . next hmagic => rw [if_pos hmagic] at h
  next hmagic =>
  rw [if_neg hmagic] at h
  split
  . next hsum =>
    rw [if_pos hsum] at h
    simp [ENOEXEC] at h
  . apply Bytes.storeLe_storeLe_loadLe

namespace Armada3700

def firstHash (hdr : Int) : Int := hdr + 84

lemma mvebuImageInfo_hash_zero (m : Memory) (hdr : Int) : (mvebuImageInfo m hdr 0).hash = firstHash hdr := by
  simp [mvebuImageInfo, firstHash, sizeofTim, add_assoc]

def cleared (hdr : Int) (m : Memory) : Memory := store m (firstHash hdr) (List.replicate hashLen 0)

lemma cleared_of_lt (m : Memory) (h : x < firstHash hdr) : cleared hdr m x = m x := store_of_lt m _ h

lemma cleared_of_ge (m : Memory) (h : firstHash hdr + 64 ≤ x) : cleared hdr m x = m x := by
  apply store_of_ge
  exact h

lemma cleared_of_mem (m : Memory) (h : firstHash hdr ≤ x) (h' : x < firstHash hdr + 64) : cleared hdr m x = 0 := by
  unfold cleared store
  rw [length_replicate, if_pos ⟨h, h'⟩, getD_eq_getElem?_getD, getElem?_replicate]
  split
  . rfl
  . rfl

lemma checkImage_succ_mem (h : Hashes) (hdr : Int) (imageNum : Nat) (m : Memory)
    : (checkImage h hdr (imageNum + 1) m).2 = m := by
  unfold checkImage
  simp only [Nat.add_one_ne_zero, if_false]
  split
  . rfl
  split
  . rfl
  . split
    . rfl
    . rfl

lemma checkImages_succ_mem (h : Hashes) (hdr : Int) (imageNum left : Nat) (m : Memory)
    : (checkImages h hdr (imageNum + 1) left m).2 = m := by
  induction left generalizing imageNum with
  | zero => rfl
  | succ left ih =>
    unfold checkImages
    dsimp only
    split
    . apply checkImage_succ_mem
    . rw [checkImage_succ_mem, ih]

lemma checkImage_zero_mem (hret : (checkImage h hdr 0 m).1 = 0)
    : (checkImage h hdr 0 m).2 = if (mvebuImageInfo m hdr 0).imageSizeToHash = 0 then cleared hdr m else m := by
  have hback : store (store m (firstHash hdr) (replicate hashLen 0)) (firstHash hdr)
      (load m (firstHash hdr) hashLen) = m := by
    rw [store_store_of_length_eq (by simp), store_load_self]
  unfold checkImage at hret ⊢
  simp only [if_true, mvebuImageInfo_hash_zero] at hret ⊢
  split
  . rfl
  next hsize =>
  rw [if_neg hsize] at hret
  split
  . next hnone =>
    rw [hnone] at hret
    contradiction
  . split
    . exact hback
    . exact hback

def HashZero (hdr : Int) (size : Nat) (m : Memory) : Prop := ∀ i < hashLen, 84 + i < size → m (firstHash hdr + i) = 0

def HashKept (hdr : Int) (m : Memory) : Prop :=
  (commonTimData m hdr).trusted = 1 ∨ (commonTimData m hdr).numImages = 0 ∨ (mvebuImageInfo m hdr 0).imageSizeToHash ≠ 0

lemma checkImageHeader_mem (hret : (checkImageHeader h hdr m).1 = 0)
    : (HashKept hdr m ∧ (checkImageHeader h hdr m).2 = m)
      ∨ (¬HashKept hdr m ∧ (checkImageHeader h hdr m).2 = cleared hdr m) := by
  unfold checkImageHeader at hret ⊢
  unfold HashKept
  dsimp only at hret ⊢
  split
  . next htrusted => exact .inl ⟨.inl htrusted, rfl⟩
  next htrusted =>
  rw [if_neg htrusted] at hret
  split
  . next hversion =>
    rw [if_pos hversion] at hret
    contradiction
  next hversion =>
  rw [if_neg hversion] at hret
  cases hnum : (commonTimData m hdr).numImages with
  | zero => exact .inl ⟨.inr (.inl rfl), rfl⟩
  | succ left =>
    rw [hnum] at hret
    unfold checkImages at hret ⊢
    dsimp only at hret ⊢
    split
    . next hfail =>
      rw [if_pos hfail] at hret
      contradiction
    next hfail =>
    rw [checkImages_succ_mem, checkImage_zero_mem (by omega)]
    split
    . next hsize => exact .inr ⟨by simp [htrusted, hsize], rfl⟩
    . next hsize => exact .inl ⟨.inr (.inr hsize), rfl⟩

lemma cleared_eq_of_zero (h : ∀ i < hashLen, m (firstHash hdr + i) = 0) (x : Int) : cleared hdr m x = m x := by
  by_cases hlt : x < firstHash hdr
  . exact cleared_of_lt m hlt
  by_cases hge : firstHash hdr + 64 ≤ x
  . exact cleared_of_ge m hge
  have hbyte := h (x - firstHash hdr).toNat (by unfold hashLen; omega)
  rw [cleared_of_mem m (by omega) (by omega), ← hbyte]
  congr 1
  omega

lemma load_cleared_iff (hdr : Int) (m : Memory) (size : Nat)
    : load (cleared hdr m) hdr size = load m hdr size ↔ HashZero hdr size m := by
  constructor
  . intro heq i hi hsize
    have hbyte := congrArg (fun bytes => bytes.getD (84 + i) 0) heq
    simp only [load_getD _ _ hsize] at hbyte
    unfold hashLen at hi
    have haddr : hdr + ((84 + i : Nat) : Int) = firstHash hdr + i := by
      unfold firstHash
      omega
    rw [haddr, cleared_of_mem m (by omega) (by omega)] at hbyte
    exact hbyte.symm
  intro hzero
  apply load_congr
  intro i hi
  unfold HashZero hashLen at hzero
  by_cases hlt : hdr + (i : Int) < firstHash hdr
  . exact cleared_of_lt m hlt
  by_cases hge : firstHash hdr + 64 ≤ hdr + (i : Int)
  . exact cleared_of_ge m hge
  unfold firstHash at hlt hge
  have hbyte := hzero (i - 84) (by omega) (by omega)
  rw [cleared_of_mem m (by unfold firstHash; omega) (by unfold firstHash; omega), ← hbyte]
  congr 1
  unfold firstHash
  omega

end Armada3700

open Armada3700

lemma checkImageHeader_mem {board : Board} (h : (checkImageHeader board m).1 = 0)
    : ((board.soc = .armada3700 → Armada3700.HashKept board.loadAddr m)
        ∧ (checkImageHeader board m).2 = m)
      ∨ (board.soc = .armada3700 ∧ ¬Armada3700.HashKept board.loadAddr m
        ∧ (checkImageHeader board m).2 = Armada3700.cleared board.loadAddr m) := by
  unfold checkImageHeader at h ⊢
  cases hsoc : board.soc with
  | other =>
    rw [hsoc] at h
    contradiction
  | armada8k =>
    rw [hsoc] at h
    refine .inl ⟨?_, Armada8k.checkImageHeader_mem h⟩
    intro hne
    contradiction
  | armada3700 =>
    rw [hsoc] at h
    cases Armada3700.checkImageHeader_mem h with
    | inl hkept => exact .inl ⟨fun _ => hkept.1, hkept.2⟩
    | inr hcleared => exact .inr ⟨rfl, hcleared⟩

def SizeKept (size : UInt64) : Prop := size.toNat < 2 ^ 31 ∨ 2 ^ 64 - 2 ^ 31 ≤ size.toNat

lemma ofInt_toInt_iff (size : UInt64) : ofInt (toInt size.toNat) = size.toNat ↔ SizeKept size := by
  have hlt := size.toNat_lt
  unfold ofInt toInt SizeKept
  rw [Int.bmod_def]
  constructor
  . intro h
    split at h <;> omega
  . intro h
    split <;> omega

lemma bubtReadFile_fetched {src : BubtDev} {fileName : List Char}
    (h : (bubtReadFile src fileName m).2 = some (size, m₁))
    : (bubtReadFile src fileName m).1 = toInt size.toNat := by
  unfold bubtReadFile at h ⊢
  split
  . next hnone =>
    rw [hnone] at h
    contradiction
  next read hread =>
  rw [hread] at h
  have hres : read fileName m = (size, m₁) := by
    dsimp only at h
    split at h
    . exact some.inj h
    . exact some.inj h
  dsimp only
  rw [hres]
  split
  . next hzero =>
    dsimp only at hzero
    rw [hzero, UInt64.toNat_zero, toInt_eq (by omega)]
    simp
  . simp only

lemma bubtWriteFile_burned {dst : BubtDev} {n : Nat}
    (h : (bubtWriteFile dst n m).2 = some (imageSize, m₂)) : imageSize = n ∧ m₂ = m := by
  unfold bubtWriteFile at h
  split at h
  . contradiction
  . cases h
    exact ⟨rfl, rfl⟩

lemma doBubtCmd_burned {board : Board} {argv : List (List Char)}
    (hfetched : (doBubtCmd board argv m).fetched = some (size, m₁))
    (hburned : (doBubtCmd board argv m).burned = some (imageSize, m₂))
    : imageSize = ofInt (toInt size.toNat) ∧ (checkImageHeader board m₁).1 = 0
      ∧ m₂ = (checkImageHeader board m₁).2 := by
  unfold doBubtCmd at hfetched hburned
  dsimp only at hfetched hburned
  split at hburned
  . contradiction
  next dst hdst =>
  rw [hdst] at hfetched
  dsimp only at hfetched
  split at hburned
  . contradiction
  next hactive =>
  rw [if_neg hactive] at hfetched
  split at hburned
  . contradiction
  next src hsrc =>
  rw [hsrc] at hfetched
  dsimp only at hfetched
  split at hburned
  . contradiction
  next hactive' =>
  rw [if_neg hactive'] at hfetched
  split at hburned
  . contradiction
  next hsize =>
  rw [if_neg hsize] at hfetched
  split at hburned
  . contradiction
  next herr =>
  rw [if_neg herr] at hfetched
  dsimp only at hfetched
  have hread := bubtReadFile_fetched hfetched
  have hwrite := bubtWriteFile_burned hburned
  simp only [hfetched, map_some, getD_some] at herr hwrite
  rw [hread] at hwrite
  exact ⟨hwrite.1, by omega, hwrite.2⟩

theorem bubt_burns_loaded_iff (board : Board)
    : (∀ m, (checkImageHeader board m).1 = 0 →
        ((∀ x, board.loadAddr ≤ x → (checkImageHeader board m).2 x = m x)
          ↔ (board.soc = .armada3700 → Armada3700.HashKept board.loadAddr m
            ∨ ∀ i < Armada3700.hashLen, m (Armada3700.firstHash board.loadAddr + i) = 0)))
      ∧ ∀ argv m size m₁ imageSize m₂,
        (doBubtCmd board argv m).fetched = some (size, m₁) →
        (doBubtCmd board argv m).burned = some (imageSize, m₂) →
        (load m₂ board.loadAddr imageSize = load m₁ board.loadAddr size.toNat
          ↔ SizeKept size ∧ (board.soc = .armada3700 → Armada3700.HashKept board.loadAddr m₁
            ∨ Armada3700.HashZero board.loadAddr size.toNat m₁)) := by
  constructor
  . intro m hret
    cases checkImageHeader_mem hret with
    | inl hkept =>
      rw [hkept.2]
      constructor
      . intro _ hsoc
        exact .inl (hkept.1 hsoc)
      . intro _ x _
        rfl
    | inr hcleared =>
      rw [hcleared.2.2]
      constructor
      . intro hsame _
        right
        intro i hi
        unfold hashLen at hi
        rw [← hsame _ (by unfold firstHash; omega)]
        apply cleared_of_mem
        . omega
        . omega
      intro hzero x _
      cases hzero hcleared.1 with
      | inl hkept => exact absurd hkept hcleared.2.1
      | inr hzero => exact cleared_eq_of_zero hzero x
  intro argv m size m₁ imageSize m₂ hfetched hburned
  have ⟨hsize, hret, hm2⟩ := doBubtCmd_burned hfetched hburned
  rw [hm2, ← ofInt_toInt_iff, ← hsize]
  constructor
  . intro hload
    have hlen := congrArg length hload
    rw [length_load, length_load] at hlen
    refine ⟨hlen, ?_⟩
    intro hsoc
    cases checkImageHeader_mem hret with
    | inl hkept => exact .inl (hkept.1 hsoc)
    | inr hcleared =>
      rw [hcleared.2.2, hlen, load_cleared_iff] at hload
      exact .inr hload
  intro h
  rw [h.1]
  cases checkImageHeader_mem hret with
  | inl hkept => rw [hkept.2]
  | inr hcleared =>
    rw [hcleared.2.2, load_cleared_iff]
    cases h.2 hcleared.1 with
    | inl hkept => exact absurd hkept hcleared.2.1
    | inr hzero => exact hzero

namespace Sample

def image (imageSizeToHash : UInt8) : Memory := fun x =>
  if x = 1 then 5
  else if x = 2 then 3
  else if x = 44 then 1
  else if x = 76 then imageSizeToHash
  else if x = 80 then 20
  else if 84 ≤ x ∧ x < 104 then 7
  else 0

def drivers (imageSizeToHash : UInt8) : Drivers where
  tftpReadFile _ _ := (200, image imageSizeToHash)
  usbReadFile _ m := (0, m)
  mmcReadFile _ m := (0, m)
  mmcBurnImage _ _ := 0
  spiBurnImage _ _ := 0
  nandBurnImage _ _ := 0
  isTftpActive := true
  isUsbActive := false
  isMmcActive := false
  isSpiActive := true
  isNandActive := false

def board (imageSizeToHash : UInt8) : Board where
  soc := .armada3700
  loadAddr := 0
  hashes := { sha1 := fun _ => Vector.replicate 20 7, sha256 := fun _ => Vector.replicate 32 0 }
  drivers := drivers imageSizeToHash
  dfltName := "flash-image.bin".toList
  defaultBubtDst := "spi".toList

end Sample

open Sample

theorem bubt_burns_loaded_hashed
    : (checkImageHeader (Sample.board 16) (Sample.image 16)).1 = 0
      ∧ (∀ x, 0 ≤ x → (checkImageHeader (Sample.board 16) (Sample.image 16)).2 x = Sample.image 16 x)
      ∧ ∃ imageSize m₂, (doBubtCmd (Sample.board 16) [] fun _ => 0).burned = some (imageSize, m₂)
        ∧ load m₂ 0 imageSize = load (Sample.image 16) 0 200 := by
  have hret : (checkImageHeader (board 16) (image 16)).1 = 0 := by
    decide +kernel
  have hkept : Armada3700.HashKept 0 (image 16) := by
    unfold Armada3700.HashKept
    decide +kernel
  have ⟨burned, hburned⟩ : ∃ b, (doBubtCmd (board 16) [] fun _ => 0).burned = some b := by
    rw [← isSome_iff_exists]
    decide +kernel
  refine ⟨hret, ?_, burned.1, burned.2, hburned, ?_⟩
  . apply ((bubt_burns_loaded_iff (board 16)).1 _ hret).mpr
    intro _
    exact .inl hkept
  . have hsize : SizeKept 200 := .inl (by decide)
    exact ((bubt_burns_loaded_iff (board 16)).2 [] (fun _ => 0) 200 (image 16) _ _
      rfl hburned).mpr ⟨hsize, fun _ => .inl hkept⟩

-- The hash of image zero is not checked, so it is cleared and not put back.
theorem not_bubt_burns_loaded_unhashed
    : (checkImageHeader (Sample.board 0) (Sample.image 0)).1 = 0
      ∧ (checkImageHeader (Sample.board 0) (Sample.image 0)).2 84 ≠ Sample.image 0 84
      ∧ (doBubtCmd (Sample.board 0) [] fun _ => 0).ret = 0
      ∧ ((doBubtCmd (Sample.board 0) [] fun _ => 0).burned.map fun b => load b.2 0 b.1)
        ≠ (doBubtCmd (Sample.board 0) [] fun _ => 0).fetched.map fun f => load f.2 0 f.1.toNat := by
  decide +kernel

end UBoot.Bubt
