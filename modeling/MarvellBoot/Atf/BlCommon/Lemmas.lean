import MarvellBoot.Atf.BlCommon.Impl

namespace Atf.BlCommon

open Size List

def Meminfo.Mem (mem : Meminfo) (a : Nat) : Prop := mem.freeBase ≤ a ∧ a < mem.freeBase + mem.freeSize

def ImageInfo.Mem (image : ImageInfo) (a : Nat) : Prop := image.imageBase ≤ a ∧ a < image.imageBase + image.imageSize

structure Meminfo.WF (mem : Meminfo) : Prop where
  base_lt : mem.freeBase < 2 ^ 64
  size_lt : mem.freeSize < 2 ^ 64
  end_le : mem.freeBase + mem.freeSize ≤ 2 ^ 64

section

variable {mem : Meminfo} {addr size : Nat}

lemma checkUptrOverflow_eq_false_iff {ptr inc : Nat} (hinc : inc < 2 ^ 64)
    : checkUptrOverflow ptr inc = false ↔ ptr + inc < 2 ^ 64 := by
  unfold checkUptrOverflow uintptrMax
  rw [decide_eq_false_iff_not]
  omega

lemma isMemFree_iff (hwf : mem.WF) (hpos : 0 < size) (hlt : size < 2 ^ 64)
    : isMemFree mem.freeBase mem.freeSize addr size = true
      ↔ mem.freeBase ≤ addr ∧ addr + size ≤ mem.freeBase + mem.freeSize := by
  have ⟨hbase, hsize, hend⟩ := hwf
  have hoverflow := @checkUptrOverflow_eq_false_iff addr (size - 1) (by omega)
  unfold isMemFree
  rw [if_neg (by omega)]
  by_cases hfree : mem.freeSize = 0
  . rw [if_pos hfree]
    simp only [Bool.false_eq_true, false_iff]
    omega
  have hno : checkUptrOverflow mem.freeBase (mem.freeSize - 1) = false := by
    rw [checkUptrOverflow_eq_false_iff (by omega)]
    omega
  rw [if_neg hfree, hno, if_neg Bool.false_ne_true, add_eq (by omega)]
  cases hreq : checkUptrOverflow addr (size - 1) with
  | true =>
    have : ¬addr + (size - 1) < 2 ^ 64 := fun h => by simp [hoverflow.mpr h] at hreq
    simp only [if_true, Bool.false_eq_true, false_iff]
    omega
  | false =>
    have := hoverflow.mp hreq
    rw [if_neg Bool.false_ne_true, add_eq this, decide_eq_true_iff]
    omega

def discarded (mem : Meminfo) (addr size : Nat) : Nat :=
  min (mem.freeBase + mem.freeSize - (addr + size)) (addr - mem.freeBase)

lemma reserveMem_eq (hwf : mem.WF) (hpos : 0 < size) (hlt : size < 2 ^ 64)
    (hfree : isMemFree mem.freeBase mem.freeSize addr size = true)
    : ∃ mem', reserveMem mem addr size = some mem'
      ∧ mem'.freeSize + (size + discarded mem addr size) = mem.freeSize
      ∧ (mem'.freeBase = mem.freeBase ∧ mem.freeBase + mem'.freeSize ≤ addr
        ∨ mem'.freeBase = (addr + size) % 2 ^ 64 ∧ addr + size + mem'.freeSize = mem.freeBase + mem.freeSize) := by
  have ⟨hbase, hsize, hend⟩ := hwf
  have ⟨hle, hle'⟩ := (isMemFree_iff hwf hpos hlt).mp hfree
  have hfreeEnd : add mem.freeBase (mem.freeSize - 1) = mem.freeBase + (mem.freeSize - 1) := add_eq (by omega)
  have hreqEnd : add addr (size - 1) = addr + (size - 1) := add_eq (by omega)
  have htop : sub (mem.freeBase + (mem.freeSize - 1)) (addr + (size - 1))
      = mem.freeBase + mem.freeSize - (addr + size) := by
    rw [sub_eq (by omega) (by omega)]
    omega
  have hbottom : sub addr mem.freeBase = addr - mem.freeBase := sub_eq hle (by omega)
  unfold reserveMem chooseMemPos
  rw [if_pos hfree, if_neg (by omega), hfreeEnd, hreqEnd, if_pos (by omega), htop, hbottom]
  by_cases hchunk : mem.freeBase + mem.freeSize - (addr + size) < addr - mem.freeBase
  . have hmin : discarded mem addr size = mem.freeBase + mem.freeSize - (addr + size) := min_eq_left hchunk.le
    rw [if_pos hchunk, hmin]
    dsimp only
    rw [add_eq (by omega), sub_eq (by omega) hsize]
    refine ⟨_, rfl, ?_, .inl ⟨rfl, ?_⟩⟩
    . dsimp only
      omega
    . dsimp only
      omega
  have hmin : discarded mem addr size = addr - mem.freeBase := min_eq_right (by omega)
  rw [if_neg hchunk, hmin]
  dsimp only
  rw [@Size.add_eq size _ (by omega), sub_eq (by omega) hsize]
  refine ⟨_, rfl, ?_, .inr ⟨rfl, ?_⟩⟩
  . dsimp only
    omega
  . dsimp only
    omega

structure Reserves (mem mem' : Meminfo) (addr size : Nat) : Prop where
  wf : mem'.WF
  mem : ∀ {a}, mem'.Mem a → mem.Mem a
  apart : ∀ {a}, mem'.Mem a → ¬(addr ≤ a ∧ a < addr + size)

lemma reserveMem_reserves (hwf : mem.WF) (hlt : size < 2 ^ 64)
    (hfree : isMemFree mem.freeBase mem.freeSize addr size = true)
    : ∃ mem', reserveMem mem addr size = some mem' ∧ Reserves mem mem' addr size
      ∧ (0 < size → mem'.freeSize + (size + discarded mem addr size) = mem.freeSize) := by
  by_cases hpos : 0 < size
  . have ⟨hle, hle'⟩ := (isMemFree_iff hwf hpos hlt).mp hfree
    have ⟨mem', hreserve, hsize, hpos'⟩ := reserveMem_eq hwf hpos hlt hfree
    have hend := hwf.end_le
    refine ⟨mem', hreserve, ⟨⟨?_, ?_, ?_⟩, ?_, ?_⟩, fun _ => hsize⟩
    . omega
    . have := hwf.size_lt
      omega
    . omega
    . intro a ha
      unfold Meminfo.Mem at *
      omega
    . intro a ha
      unfold Meminfo.Mem at *
      omega
  . have hzero : size = 0 := by omega
    refine ⟨mem, ?_, ⟨hwf, id, fun _ => by omega⟩, fun h => absurd h hpos⟩
    rw [reserveMem, if_pos hfree, if_pos hzero]

end

section

variable {mem : Meminfo} {load : Load} {loads : List Load}

lemma loadImage_loads (hwf : mem.WF) (hlt : load.io.size < 2 ^ 64)
    (hread : load.io.readRc = 0 → load.io.size ≤ load.io.bytesRead)
    : ∃ rc mem' info pc, loadImage load.io load.imageBase mem load.info (some load.pc) = some (rc, mem', info, pc)
      ∧ mem'.WF
      ∧ (∀ a, mem'.Mem a → mem.Mem a)
      ∧ (rc = 0 → load.io.size ≠ 0 → ∀ a, ImageInfo.Mem ⟨load.imageBase, load.io.size⟩ a →
        mem.Mem a ∧ ¬mem'.Mem a) := by
  unfold loadImage
  by_cases hsource : load.io.source ≠ 0
  . rw [if_pos hsource]
    exact ⟨_, _, _, _, rfl, hwf, fun _ => id, fun h => absurd h hsource⟩
  rw [if_neg hsource]
  by_cases hopen : load.io.openRc ≠ 0
  . rw [if_pos hopen]
    exact ⟨_, _, _, _, rfl, hwf, fun _ => id, fun h => absurd h hopen⟩
  rw [if_neg hopen]
  by_cases hsize : load.io.sizeRc ≠ 0 ∨ load.io.size = 0
  . rw [if_pos hsize]
    refine ⟨_, _, _, _, rfl, hwf, fun _ => id, ?_⟩
    intro hrc hne
    exact absurd hsize (not_or.mpr ⟨not_not.mpr hrc, hne⟩)
  rw [if_neg hsize]
  have hpos : 0 < load.io.size := by omega
  by_cases hfree : isMemFree mem.freeBase mem.freeSize load.imageBase load.io.size = false
  . rw [if_pos hfree]
    exact ⟨_, _, _, _, rfl, hwf, fun _ => id, fun h => absurd h (by decide)⟩
  rw [if_neg hfree]
  by_cases hshort : load.io.readRc ≠ 0 ∨ load.io.bytesRead < load.io.size
  . rw [if_pos hshort]
    refine ⟨_, _, _, _, rfl, hwf, fun _ => id, ?_⟩
    intro hrc
    omega
  rw [if_neg hshort]
  have hfree : isMemFree mem.freeBase mem.freeSize load.imageBase load.io.size = true := by
    simpa using hfree
  have ⟨mem', hreserve, hreserves, _⟩ := reserveMem_reserves hwf hlt hfree
  have hinside := (isMemFree_iff hwf hpos hlt).mp hfree
  rw [hreserve]
  refine ⟨_, _, _, _, rfl, hreserves.wf, fun _ => hreserves.mem, ?_⟩
  intro _ _ a ha
  refine ⟨?_, fun ha' => hreserves.apart ha' ha⟩
  unfold ImageInfo.Mem Meminfo.Mem at *
  dsimp only at ha
  omega

lemma loadAll_loads (hwf : mem.WF) (hlt : ∀ load ∈ loads, load.io.size < 2 ^ 64)
    (hread : ∀ load ∈ loads, load.io.readRc = 0 → load.io.size ≤ load.io.bytesRead)
    : ∃ mem' images, loadAll mem loads = some (mem', images)
      ∧ images.Pairwise (fun i j => ∀ a, ¬(i.Mem a ∧ j.Mem a))
      ∧ ∀ image ∈ images, ∀ a, image.Mem a → mem.Mem a := by
  induction loads generalizing mem with
  | nil => exact ⟨mem, [], rfl, .nil, fun _ h => absurd h not_mem_nil⟩
  | cons load loads ih =>
    have ⟨rc, mem1, info, pc, hload, hwf1, hsub, hnew⟩ := loadImage_loads hwf (hlt load mem_cons_self)
      (hread load mem_cons_self)
    have ⟨mem', images, hloads, hpairwise, hinside⟩ := ih hwf1
      (fun l hl => hlt l (mem_cons_of_mem load hl)) (fun l hl => hread l (mem_cons_of_mem load hl))
    have hinside' : ∀ image ∈ images, ∀ a, image.Mem a → mem.Mem a :=
      fun image himage a ha => hsub a (hinside image himage a ha)
    rw [loadAll, hload]
    dsimp only
    rw [hloads]
    refine ⟨mem', _, rfl, ?_⟩
    split
    . next hok =>
      have hnew := hnew hok.1 hok.2
      constructor
      . apply pairwise_cons.mpr
        refine ⟨?_, hpairwise⟩
        intro image himage a ⟨hi, hj⟩
        exact (hnew a hi).2 (hinside image himage a hj)
      intro image himage a ha
      cases himage with
      | head => exact (hnew a ha).1
      | tail _ himage => exact hinside' image himage a ha
    . exact ⟨hpairwise, hinside'⟩

end

theorem loadImages_apart {mem : Meminfo} (hwf : mem.WF) (loads : List Load)
    (hlt : ∀ load ∈ loads, load.io.size < 2 ^ 64)
    (hread : ∀ load ∈ loads, load.io.readRc = 0 → load.io.size ≤ load.io.bytesRead)
    : (∃ mem' images, loadAll mem loads = some (mem', images)
        ∧ images.Pairwise (fun i j => ∀ a, ¬(i.Mem a ∧ j.Mem a))
        ∧ ∀ image ∈ images, ∀ a, image.Mem a → mem.Mem a)
      ∧ ∀ (mem : Meminfo) (addr size : Nat), mem.WF → size < 2 ^ 64 →
        isMemFree mem.freeBase mem.freeSize addr size = true →
        ∃ mem', reserveMem mem addr size = some mem' ∧ Reserves mem mem' addr size
          ∧ (0 < size → mem'.freeSize + (size + discarded mem addr size) = mem.freeSize) :=
  ⟨loadAll_loads hwf hlt hread, fun _ _ _ hwf hlt hfree => reserveMem_reserves hwf hlt hfree⟩

def topRegion : Meminfo := ⟨2 ^ 64 - 0x1000, 0x1000⟩

def wholeLoad (imageBase size bytesRead : Nat) : Load := ⟨⟨0, 0, 0, size, 0, bytesRead⟩, imageBase, ⟨0, 0⟩, 0⟩

theorem loadImages_apart_topRegion
    : (∃ mem' images, loadAll topRegion
          [wholeLoad (2 ^ 64 - 0x800) 0x800 0x800, wholeLoad (2 ^ 64 - 0x1000) 0x800 0x800] = some (mem', images)
        ∧ images.Pairwise (fun i j => ∀ a, ¬(i.Mem a ∧ j.Mem a))
        ∧ ∀ image ∈ images, ∀ a, image.Mem a → topRegion.Mem a)
      ∧ ∀ (mem : Meminfo) (addr size : Nat), mem.WF → size < 2 ^ 64 →
        isMemFree mem.freeBase mem.freeSize addr size = true →
        ∃ mem', reserveMem mem addr size = some mem' ∧ Reserves mem mem' addr size
          ∧ (0 < size → mem'.freeSize + (size + discarded mem addr size) = mem.freeSize) :=
  loadImages_apart ⟨by decide, by decide, by decide⟩ _ (by decide) (by decide)

-- The first read is short, its load returns 0 and reserves nothing.
theorem not_apart_shortRead
    : ¬∀ (mem : Meminfo), mem.WF → ∀ loads : List Load, (∀ load ∈ loads, load.io.size < 2 ^ 64) →
        ∀ (mem' : Meminfo) (images : List ImageInfo), loadAll mem loads = some (mem', images) →
        images.Pairwise (fun i j => ∀ a, ¬(i.Mem a ∧ j.Mem a)) := by
  intro h
  have hpairwise := h topRegion ⟨by decide, by decide, by decide⟩
    [wholeLoad (2 ^ 64 - 0x1000) 0x10 8, wholeLoad (2 ^ 64 - 0x1000) 0x10 0x10] (by decide) _ _ rfl
  have hapart := (pairwise_cons.mp hpairwise).1 ⟨2 ^ 64 - 0x1000, 0x10⟩ (by decide)
  exact hapart (2 ^ 64 - 0x1000) ⟨⟨by decide, by decide⟩, ⟨by decide, by decide⟩⟩

end Atf.BlCommon
