import MarvellBoot.UBoot.Bubt.Lemmas

/-!
The ranges that the check of an image reads and writes, relative to the load address.
-/

namespace UBoot.Bubt

open List Int

variable (h : Hashes) (imageSize : Nat) (hdr : Int) (imageNum left : Nat) (m : Memory)

def Inside (r : Nat × Nat) : Prop := r.1 + r.2 ≤ imageSize

lemma forall_mem_ite {α : Type} {P : α → Prop} (p : Prop) [Decidable p] (l : List α)
    : (∀ r ∈ if p then l else [], P r) ↔ (p → ∀ r ∈ l, P r) := by
  split <;> simp [*]

namespace Armada8k

-- The number of iterations of `do_checksum32`.
def checksumWords (len : Int) : Nat :=
  let left := Int.bmod (len - 4) (2 ^ 32)
  if 0 < left then checksumWords left + 1 else 1
  termination_by if 0 < len then len.toNat else 2 ^ 32
  decreasing_by exact left_lt ‹_›

def prologSize : Nat := Bytes.loadLe m (hdr + 4) 4

def HasMagic : Prop := Bytes.loadLe m hdr 4 = mainHdrMagic deriving Decidable

-- The checksum is read, cleared and written back.
def touched : List (Nat × Nat) :=
  [(4, 4), (8, 4), (0, 4)]
    ++ if HasMagic hdr m then [(8, 4), (0, 4 * checksumWords (Size.toInt (prologSize hdr m)))] else []

def Summed : Prop :=
  HasMagic hdr m → 0 < prologSize hdr m → prologSize hdr m ≤ imageSize →
    checksumWords (Size.toInt (prologSize hdr m)) = (prologSize hdr m + 3) / 4

def Fits : Prop :=
  12 ≤ imageSize ∧ (HasMagic hdr m →
    if prologSize hdr m < 2 ^ 31 + 4 then 4 * ((prologSize hdr m + 3) / 4) ≤ imageSize else imageSize < prologSize hdr m)

def word (startp : Int) (i : Nat) : UInt32 := UInt32.ofNat (Bytes.loadLe m (startp + 4 * i) 4)

lemma doChecksum32_eq_sum (startp len : Int) (sum : UInt32)
    : doChecksum32 m startp len sum = sum + ((List.range (checksumWords len)).map (word m startp)).sum := by
  fun_induction doChecksum32 m startp len sum with
  | case1 startp len sum sum' left hpos ih =>
    have hword : word m (startp + 4) = word m startp ∘ Nat.succ := by
      funext i
      unfold word
      congr 2
      push_cast
      ring
    have hwords : checksumWords len = checksumWords left + 1 := by rw [checksumWords, if_pos hpos]
    rw [ih, hwords, range_succ_eq_map, map_cons, map_map, sum_cons, hword, ← UInt32.add_assoc]
    simp [sum', word]
  | case2 startp len sum sum' left hpos =>
    rw [checksumWords, if_neg hpos]
    simp [sum', word]

lemma checksumWords_of_lt {n : Nat} (h : n < 2 ^ 31) : checksumWords n = max 1 ((n + 3) / 4) := by
  induction n using Nat.strongRecOn with
  | ind n ih =>
    have hleft : bmod (n - 4) (2 ^ 32) = n - 4 := by
      rw [bmod_eq_of_le]
      . omega
      . omega
    rw [checksumWords, hleft]
    split
    . have hsub : ((n : Int) - 4) = (n - 4 : Nat) := by omega
      rw [hsub, ih (n - 4) (by omega) (by omega)]
      omega
    . omega

lemma checksumWords_toInt {x : Nat} (h : x < 2 ^ 32)
    : checksumWords (Size.toInt x) = if x < 2 ^ 31 + 4 then max 1 ((x + 3) / 4) else 1 := by
  by_cases hlt : x < 2 ^ 31
  . rw [Size.toInt_eq hlt, checksumWords_of_lt hlt, if_pos (by omega)]
  have hint : Size.toInt x = x - 2 ^ 32 := by
    unfold Size.toInt
    rw [bmod_def, if_neg (by omega)]
    omega
  rw [hint, checksumWords]
  by_cases hwrap : x < 2 ^ 31 + 4
  . have hleft : bmod (x - 2 ^ 32 - 4) (2 ^ 32) = (x - 4 : Nat) := by
      rw [bmod_def, if_pos (by omega)]
      omega
    rw [hleft, if_pos (by omega), checksumWords_of_lt (by omega), if_pos hwrap]
    omega
  rw [if_neg hwrap, bmod_def, if_neg]
  split
  . omega
  . omega

theorem doChecksum32_words (m : Memory) (startp : Int) (len : UInt32)
    : doChecksum32 m startp (Size.toInt len.toNat) 0
      = ((List.range (if len.toNat < 2 ^ 31 + 4 then max 1 ((len.toNat + 3) / 4) else 1)).map (word m startp)).sum := by
  rw [doChecksum32_eq_sum, checksumWords_toInt len.toNat_lt, UInt32.zero_add]

lemma inside_summed_iff
    : (∀ r ∈ touched hdr m, Inside imageSize r) ∧ Summed imageSize hdr m ↔ Fits imageSize hdr m := by
  have hlt : prologSize hdr m < 2 ^ 32 := by
    simpa [prologSize, Bytes.loadLe] using Bytes.val_lt (Mem.load m (hdr + 4) 4).reverse
  have hwords := checksumWords_toInt hlt
  unfold touched Summed Fits Inside
  rw [hwords]
  rw [forall_mem_append, forall_mem_ite]
  simp only [forall_mem_cons, not_mem_nil, false_implies, implies_true, and_true]
  by_cases hmagic : HasMagic hdr m
  . simp only [hmagic, true_implies]
    split
    . omega
    . omega
  . simp only [hmagic, false_implies, and_true]
    omega

end Armada8k

namespace Armada3700

-- The number of bytes that `memcmp` of `lib/string.c` reads: it stops after the first difference.
def memcmpCount : List UInt8 → List UInt8 → Nat
  | c :: cs, d :: ds => if c = d then memcmpCount cs ds + 1 else 1
  | _, _ => 0

def infoBase : Nat := 56 + imageNum * 108

def infoFields : List (Nat × Nat) := [(infoBase imageNum + 24, 4), (infoBase imageNum + 20, 4),
    (infoBase imageNum + 8, 4)]

def savedHash : List (Nat × Nat) := if imageNum = 0 then [(infoBase imageNum + 28, hashLen)] else []

-- `checkImage` with the ranges that are read and written, in their order.
def checkImageTraced : (Int × Memory) × List (Nat × Nat) :=
  let info := mvebuImageInfo m hdr imageNum
  let internalHash := Mem.load m info.hash hashLen
  let m := if imageNum = 0 then Mem.store m info.hash (replicate hashLen 0) else m
  let ranges := infoFields imageNum ++ savedHash imageNum
  if info.imageSizeToHash = 0 then
    ((0, m), ranges)
  else
    let buff := Mem.load m (hdr + info.flashEntryAddr) info.imageSizeToHash
    match hashOutput h info.hashAlgorithmId buff with
    | none => ((-ENOEXEC, m), ranges)
    | some output =>
      let m := if imageNum = 0 then Mem.store m info.hash internalHash else m
      let hash := Mem.load m info.hash info.hashAlgorithmId
      let ranges := ranges ++ (info.flashEntryAddr, info.imageSizeToHash) :: savedHash imageNum
      (if hash ≠ output then (-ENOEXEC, m) else (0, m), ranges ++ [(infoBase imageNum + 28, memcmpCount hash output)])

def checkImagesTraced (h : Hashes) (hdr : Int) (imageNum : Nat) : (left : Nat) → Memory →
    (Int × Memory) × List (Nat × Nat)
  | 0, m => ((0, m), [])
  | left + 1, m =>
    let (res, ranges) := checkImageTraced h hdr imageNum m
    if res.1 ≠ 0 then
      (res, ranges)
    else
      let (res, more) := checkImagesTraced h hdr (imageNum + 1) left res.2
      (res, ranges ++ more)

def IsChecked : Prop :=
  (commonTimData m hdr).trusted ≠ 1
    ∧ ((commonTimData m hdr).version = imageVersion350 ∨ (commonTimData m hdr).version = imageVersion360)
  deriving Decidable

def touched : List (Nat × Nat) :=
  [(44, 4), (0, 4), (8, 4)]
    ++ if IsChecked hdr m then (checkImagesTraced h hdr 0 (commonTimData m hdr).numImages m).2 else []

lemma checkImageTraced_fst : (checkImageTraced h hdr imageNum m).1 = checkImage h hdr imageNum m := by
  unfold checkImageTraced checkImage
  dsimp only
  generalize hashOutput h _ _ = output
  split
  . rfl
  . cases output with
    | none => rfl
    | some output => rfl

lemma checkImagesTraced_fst : (checkImagesTraced h hdr imageNum left m).1 = checkImages h hdr imageNum left m := by
  induction left generalizing imageNum m with
  | zero => rfl
  | succ left ih =>
    unfold checkImagesTraced checkImages
    rw [← checkImageTraced_fst]
    dsimp only
    split
    . rfl
    . exact ih _ _

-- The memory that an image is hashed in: its own hash is cleared in the first image, and stays so when that is not hashed.
def hashedMemory : Memory :=
  if imageNum = 0 ∨ (mvebuImageInfo m hdr 0).imageSizeToHash = 0 then cleared hdr m else m

def output : Option (List UInt8) :=
  let info := mvebuImageInfo m hdr imageNum
  hashOutput h info.hashAlgorithmId (Mem.load (hashedMemory hdr imageNum m)
    (hdr + info.flashEntryAddr) info.imageSizeToHash)

/-- The image has no hash or the right one. -/
def Right : Prop :=
  let info := mvebuImageInfo m hdr imageNum
  info.imageSizeToHash ≠ 0 → output h hdr imageNum m = some (Mem.load m info.hash info.hashAlgorithmId)

/--
The entry of the table, the image when it is to be hashed, and of its hash the bytes up to the first wrong one are in
the image that was loaded.
-/
def ImageFits : Prop :=
  let info := mvebuImageInfo m hdr imageNum
  infoBase imageNum + 28 ≤ imageSize ∧ (imageNum = 0 → infoBase imageNum + 28 + hashLen ≤ imageSize)
    ∧ (info.imageSizeToHash ≠ 0 → ∀ digest, output h hdr imageNum m = some digest →
      info.flashEntryAddr + info.imageSizeToHash ≤ imageSize
        ∧ ∀ k < info.hashAlgorithmId, Mem.load m info.hash k = digest.take k → infoBase imageNum + 28 + k < imageSize)

-- An image is only looked at when the ones before it are right.
def Fits : Prop :=
  48 ≤ imageSize ∧ (IsChecked hdr m → ∀ i < (commonTimData m hdr).numImages, (∀ j < i, Right h hdr j m) →
    ImageFits h imageSize hdr i m)

variable {h imageSize hdr imageNum left m}

lemma memcmpCount_le_iff {xs ys : List UInt8} {base : Nat} (hlen : xs.length = ys.length) (hbase : base ≤ imageSize)
    : base + memcmpCount xs ys ≤ imageSize ↔ ∀ k < xs.length, xs.take k = ys.take k → base + k < imageSize := by
  induction xs generalizing ys base with
  | nil => simpa [memcmpCount] using hbase
  | cons x xs ih =>
    obtain ⟨y, ys, rfl⟩ := exists_cons_of_length_eq_add_one hlen.symm
    rw [memcmpCount]
    by_cases hxy : x = y
    . rw [if_pos hxy, Nat.add_comm (memcmpCount xs ys), ← Nat.add_assoc]
      by_cases hlt : base < imageSize
      . rw [ih (by simpa using hlen) hlt]
        constructor
        . intro hall k hk heq
          cases k with
          | zero => exact hlt
          | succ k =>
            have := hall k (by simpa using hk) (by simpa [hxy] using heq)
            omega
        . intro hall k hk heq
          have := hall (k + 1) (by simpa using hk) (by simpa [hxy] using heq)
          omega
      . constructor
        . omega
        . intro hall
          exact absurd (hall 0 (by simp) rfl) hlt
    . rw [if_neg hxy]
      constructor
      . intro hle k hk heq
        cases k with
        | zero => exact hle
        | succ k => exact absurd (by simpa using heq) (fun heq : x = y ∧ _ => hxy heq.1)
      . intro hall
        exact hall 0 (by simp) rfl

-- The memory before an image is looked at.
def current (hdr : Int) (imageNum : Nat) (m : Memory) : Memory :=
  if imageNum ≠ 0 ∧ (mvebuImageInfo m hdr 0).imageSizeToHash = 0 then cleared hdr m else m

lemma load_cleared {a : Int} {n : Nat} (ha : firstHash hdr + 64 ≤ a) : Mem.load (cleared hdr m) a n = Mem.load m a n := by
  apply Mem.load_congr
  intro i _
  exact cleared_of_ge m (by omega)

lemma mvebuImageInfo_cleared
    : mvebuImageInfo (cleared hdr m) hdr (imageNum + 1) = mvebuImageInfo m hdr (imageNum + 1) := by
  unfold mvebuImageInfo Bytes.loadLe
  have ha {k : Int} (hk : 0 ≤ k) : firstHash hdr + 64 ≤ hdr + sizeofTim + (imageNum + 1 : Nat) * sizeofInfo + k := by
    unfold firstHash sizeofTim sizeofInfo
    omega
  dsimp only
  rw [load_cleared (ha (by decide)), load_cleared (ha (by decide)), load_cleared (ha (by decide))]

lemma checkImageTraced_current
    : checkImageTraced h hdr imageNum (current hdr imageNum m)
      = let info := mvebuImageInfo m hdr imageNum
        let ranges := infoFields imageNum ++ savedHash imageNum
        let hash := Mem.load m info.hash info.hashAlgorithmId
        if info.imageSizeToHash = 0 then
          ((0, hashedMemory hdr imageNum m), ranges)
        else
          (output h hdr imageNum m).elim ((-ENOEXEC, hashedMemory hdr imageNum m), ranges) fun digest =>
            (if hash ≠ digest then (-ENOEXEC, current hdr imageNum m) else (0, current hdr imageNum m),
              ranges ++ (info.flashEntryAddr, info.imageSizeToHash) :: savedHash imageNum
                ++ [(infoBase imageNum + 28, memcmpCount hash digest)]) := by
  cases imageNum with
  | zero =>
    have hcurrent : current hdr 0 m = m := if_neg (by simp)
    have hmemory : hashedMemory hdr 0 m = cleared hdr m := if_pos (.inl rfl)
    have hback : Mem.store (cleared hdr m) (firstHash hdr) (Mem.load m (firstHash hdr) hashLen) = m := by
      unfold cleared
      rw [Mem.store_store_of_length_eq (by simp), Mem.store_load_self]
    have hcleared : Mem.store m (firstHash hdr) (replicate hashLen 0) = cleared hdr m := rfl
    unfold checkImageTraced output
    simp only [hcurrent, hmemory, if_true, mvebuImageInfo_hash_zero, hcleared, hback]
    generalize hashOutput h _ _ = output
    cases output with
    | none => rfl
    | some output => rfl
  | succ n =>
    have hinfo : mvebuImageInfo (current hdr (n + 1) m) hdr (n + 1) = mvebuImageInfo m hdr (n + 1) := by
      unfold current
      split
      . exact mvebuImageInfo_cleared
      . rfl
    have hmemory : hashedMemory hdr (n + 1) m = current hdr (n + 1) m := by simp [hashedMemory, current]
    have hhash : Mem.load (current hdr (n + 1) m) (mvebuImageInfo m hdr (n + 1)).hash
      (mvebuImageInfo m hdr (n + 1)).hashAlgorithmId
        = Mem.load m (mvebuImageInfo m hdr (n + 1)).hash (mvebuImageInfo m hdr (n + 1)).hashAlgorithmId := by
      unfold current
      split
      . apply load_cleared
        unfold mvebuImageInfo firstHash sizeofTim sizeofInfo
        dsimp only
        omega
      . rfl
    unfold checkImageTraced output
    simp only [hinfo, hmemory, Nat.add_one_ne_zero, if_false, hhash]
    generalize hashOutput h _ _ = output
    cases output with
    | none => rfl
    | some output => rfl

lemma length_of_hashOutput {id : Nat} {data digest : List UInt8} (hsome : hashOutput h id data = some digest)
    : digest.length = id := by
  unfold hashOutput at hsome
  split at hsome
  . cases hsome
    simp
  . cases hsome
    simp
  . contradiction

structure Checked (h : Hashes) (imageSize : Nat) (hdr : Int) (imageNum : Nat) (m : Memory)
    (res : (Int × Memory) × List (Nat × Nat)) : Prop where
  right : res.1.1 = 0 ↔ Right h hdr imageNum m
  next : res.1.1 = 0 → res.1.2 = current hdr (imageNum + 1) m
  inside : (∀ r ∈ res.2, Inside imageSize r) ↔ ImageFits h imageSize hdr imageNum m

lemma inside_fields_iff
    : (∀ r ∈ infoFields imageNum ++ savedHash imageNum, Inside imageSize r)
      ↔ infoBase imageNum + 28 ≤ imageSize ∧ (imageNum = 0 → infoBase imageNum + 28 + hashLen ≤ imageSize) := by
  unfold infoFields savedHash
  rw [forall_mem_append, forall_mem_ite]
  simp only [Inside, forall_mem_cons, not_mem_nil, false_implies, implies_true, and_true]
  apply and_congr_left'
  omega

lemma checked : Checked h imageSize hdr imageNum m (checkImageTraced h hdr imageNum (current hdr imageNum m)) := by
  rw [checkImageTraced_current]
  dsimp only
  by_cases hsize : (mvebuImageInfo m hdr imageNum).imageSizeToHash = 0
  . rw [if_pos hsize]
    refine ⟨by simp [Right, hsize], ?_, inside_fields_iff.trans (by simp [ImageFits, hsize])⟩
    intro _
    unfold hashedMemory current
    cases imageNum with
    | zero => simp [hsize]
    | succ n => simp
  rw [if_neg hsize]
  cases houtput : output h hdr imageNum m with
  | none =>
    exact ⟨by simp [Right, hsize, houtput, ENOEXEC], by simp [ENOEXEC],
      inside_fields_iff.trans (by simp [ImageFits, houtput])⟩
  | some digest =>
    have hlen : (Mem.load m (mvebuImageInfo m hdr imageNum).hash (mvebuImageInfo m hdr imageNum).hashAlgorithmId).length
        = digest.length := by rw [Mem.length_load, length_of_hashOutput houtput]
    rw [Option.elim_some]
    refine ⟨?_, ?_, ?_⟩
    . simp only [Right, houtput, Option.some_inj]
      split
      . next hne => simp [ENOEXEC, hsize, Ne.symm hne]
      . next heq => simp [not_not.mp heq]
    . intro _
      have hcurrent : current hdr imageNum m = current hdr (imageNum + 1) m := by
        unfold current
        cases imageNum with
        | zero => simp [hsize]
        | succ n => simp
      split <;> exact hcurrent
    . have hsaved : (∀ r ∈ savedHash imageNum, Inside imageSize r)
          ↔ (imageNum = 0 → infoBase imageNum + 28 + hashLen ≤ imageSize) := by
        unfold savedHash
        rw [forall_mem_ite, forall_mem_singleton]
        rfl
      rw [forall_mem_append, forall_mem_append, inside_fields_iff, forall_mem_cons, forall_mem_singleton, hsaved]
      simp only [ImageFits, houtput, Option.some_inj, forall_eq', Inside, hsize, not_false_eq_true, true_implies, ne_eq]
      constructor
      . rintro ⟨⟨⟨hbase, hfirst⟩, himage, _⟩, hcmp⟩
        refine ⟨hbase, hfirst, himage, ?_⟩
        intro k hk heq
        rw [memcmpCount_le_iff hlen hbase, Mem.length_load] at hcmp
        exact hcmp k hk (by rw [Mem.take_load _ _ hk.le, heq])
      . rintro ⟨hbase, hfirst, himage, hcmp⟩
        refine ⟨⟨⟨hbase, hfirst⟩, himage, hfirst⟩, ?_⟩
        rw [memcmpCount_le_iff hlen hbase, Mem.length_load]
        intro k hk heq
        rw [Mem.take_load _ _ hk.le] at heq
        exact hcmp k hk heq

lemma inside_images_iff
    : (∀ r ∈ (checkImagesTraced h hdr imageNum left (current hdr imageNum m)).2, Inside imageSize r)
      ↔ ∀ i < left, (∀ j < i, Right h hdr (imageNum + j) m) → ImageFits h imageSize hdr (imageNum + i) m := by
  induction left generalizing imageNum with
  | zero => simp [checkImagesTraced]
  | succ left ih =>
    have hchecked := @checked h imageSize hdr imageNum m
    rw [checkImagesTraced]
    dsimp only
    rw [Nat.forall_lt_succ_left]
    by_cases hret : (checkImageTraced h hdr imageNum (current hdr imageNum m)).1.1 = 0
    . have hright := hchecked.right.mp hret
      rw [if_neg (not_not.mpr hret), forall_mem_append, hchecked.inside, hchecked.next hret, ih]
      simp only [Nat.forall_lt_succ_left, Nat.add_zero, not_lt_zero, false_implies, implies_true, true_implies, hright,
        true_and, Nat.add_assoc, Nat.add_comm 1]
    . have hright : Right h hdr imageNum m ↔ False := iff_false_intro fun hr => hret (hchecked.right.mpr hr)
      rw [if_pos hret, hchecked.inside]
      simp only [Nat.forall_lt_succ_left, Nat.add_zero, not_lt_zero, false_implies, implies_true, true_implies, hright,
        false_and, and_true]

lemma inside_iff : (∀ r ∈ touched h hdr m, Inside imageSize r) ↔ Fits h imageSize hdr m := by
  have hcurrent : current hdr 0 m = m := if_neg (by simp)
  have himages := @inside_images_iff h imageSize hdr 0 (commonTimData m hdr).numImages m
  rw [hcurrent] at himages
  unfold touched Fits
  rw [forall_mem_append, forall_mem_ite, himages]
  simp only [Inside, forall_mem_cons, not_mem_nil, false_implies, implies_true, and_true, Nat.zero_add]
  apply and_congr_left'
  omega

end Armada3700

def touched (board : Board) (m : Memory) : List (Nat × Nat) :=
  match board.soc with
  | .armada8k => Armada8k.touched board.loadAddr m
  | .armada3700 => Armada3700.touched board.hashes board.loadAddr m
  | .other => []

def Fits (board : Board) (imageSize : Nat) (m : Memory) : Prop :=
  match board.soc with
  | .armada8k => Armada8k.Fits imageSize board.loadAddr m
  | .armada3700 => Armada3700.Fits board.hashes imageSize board.loadAddr m
  | .other => True

def StaysInside (board : Board) (imageSize : Nat) (m : Memory) : Prop :=
  (∀ r ∈ touched board m, Inside imageSize r) ∧ (board.soc = .armada8k → Armada8k.Summed imageSize board.loadAddr m)

theorem checkImageHeader_stays_inside_iff (board : Board) (imageSize : Nat) (m : Memory)
    : StaysInside board imageSize m ↔ Fits board imageSize m := by
  unfold StaysInside touched Fits
  cases board.soc with
  | armada8k => simp only [true_implies, Armada8k.inside_summed_iff]
  | armada3700 => simp only [reduceCtorEq, false_implies, and_true, Armada3700.inside_iff]
  | other => simp

def longProlog : Memory := fun x => [0x02, 0xB0, 0x05, 0xB1, 64].getD x.toNat 0

theorem not_stays_inside_longProlog : ¬StaysInside { Sample.board 16 with soc := .armada8k } 32 longProlog := by
  intro h
  have hfits := (Armada8k.inside_summed_iff 32 0 longProlog).mp ⟨h.1, h.2 rfl⟩
  exact absurd (hfits.2 (by decide)) (by decide)

end UBoot.Bubt
