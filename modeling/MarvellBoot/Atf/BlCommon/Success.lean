import MarvellBoot.Atf.Auth.Impl.LoadImage
import MarvellBoot.Atf.BlCommon.Lemmas

/-!
What a result of 0 says about a load. Both versions of `load_image` leave through the exit of an empty
image and of a short read with the result of the IO call, which is 0 there. An image of `2 ^ 32` bytes
or more is only described modulo `2 ^ 32`; with `LOAD_IMAGE_V2` the limit `image_max_size` has 32 bits.
-/

namespace Atf.BlCommon

def Reports (io : ImageIo) (imageBase : Nat) (mem : Meminfo) (info : ImageInfo) (pc : Option Nat) : Prop :=
  ∃ rc mem' info' pc', loadImage io imageBase mem info pc = some (rc, mem', info', pc')
    ∧ (rc = 0 → io.size ≠ 0 ∧ io.size ≤ io.bytesRead ∧ info' = ⟨imageBase, io.size⟩
      ∧ (pc ≠ none → pc' = some imageBase ∧ Reserves mem mem' imageBase io.size))
    ∧ (rc ≠ 0 → mem' = mem ∧ pc' = pc)

def ReportsV2 (io : Auth.IoImage) (imageId : Nat) (info : Auth.ImageInfo) (w : Auth.World) : Prop :=
  (Auth.loadImage io imageId info w).1 = 0 →
    io.size ≠ 0 ∧ io.size ≤ io.data.length
      ∧ Mem.load (Auth.loadImage io imageId info w).2.2.mem info.imageBase io.size = io.data.take io.size
      ∧ (Auth.loadImage io imageId info w).2.1 = { info with imageSize := io.size }

structure Fits (mem : Meminfo) (imageBase size : Nat) : Prop where
  base_le : mem.freeBase ≤ imageBase
  end_le : imageBase + size ≤ mem.freeBase + mem.freeSize
  no_wrap : mem.freeBase + mem.freeSize ≤ 2 ^ 64

section

variable {io : ImageIo} {imageBase : Nat} {mem : Meminfo} {info : ImageInfo} {pc : Option Nat}

lemma isMemFree_iff_fits (hbase : mem.freeBase < 2 ^ 64) (hsize : mem.freeSize < 2 ^ 64) {size : Nat}
    (hpos : 0 < size) (hlt : size < 2 ^ 64)
    : isMemFree mem.freeBase mem.freeSize imageBase size = true ↔ Fits mem imageBase size := by
  by_cases hwrap : mem.freeBase + mem.freeSize ≤ 2 ^ 64
  . rw [isMemFree_iff ⟨hbase, hsize, hwrap⟩ hpos hlt]
    exact ⟨fun h => ⟨h.1, h.2, hwrap⟩, fun h => ⟨h.base_le, h.end_le⟩⟩
  have hoverflow : checkUptrOverflow mem.freeBase (mem.freeSize - 1) = true := by
    rw [← Bool.not_eq_false, checkUptrOverflow_eq_false_iff (by omega)]
    omega
  constructor
  . intro h
    rw [isMemFree, if_neg (by omega), if_neg (by omega), if_pos hoverflow] at h
    cases h
  . intro h
    exact absurd h.no_wrap hwrap

lemma reports_exit_iff {rc : Int} (h : loadImage io imageBase mem info pc = some (rc, mem, info, pc))
    (hbad : io.size = 0 ∨ io.bytesRead < io.size ∨ rc ≠ 0)
    : Reports io imageBase mem info pc ↔ rc ≠ 0 := by
  constructor
  . intro ⟨rc', _, _, _, heq, hok, _⟩ hrc
    rw [h] at heq
    cases heq
    omega
  . intro hrc
    exact ⟨rc, mem, info, pc, h, fun hzero => absurd hzero hrc, fun _ => ⟨rfl, rfl⟩⟩

lemma reports_read_iff {mem' : Meminfo} {info' : ImageInfo} {pc' : Option Nat}
    (h : loadImage io imageBase mem info pc = some (0, mem', info', pc')) (hne : io.size ≠ 0)
    (hread : io.size ≤ io.bytesRead) (hpc : pc ≠ none → pc' = some imageBase ∧ Reserves mem mem' imageBase io.size)
    : Reports io imageBase mem info pc ↔ info' = ⟨imageBase, io.size⟩ := by
  constructor
  . rintro ⟨_, _, _, _, heq, hok, _⟩
    rw [h] at heq
    cases heq
    exact (hok rfl).2.2.1
  . intro hinfo
    exact ⟨0, mem', info', pc', h, fun _ => ⟨hne, hread, hinfo, hpc⟩, fun hrc => absurd rfl hrc⟩

lemma reports_of_read (hwf : mem.WF) (hlt : io.size < 2 ^ 64) (hsource : io.source = 0) (hopen : io.openRc = 0)
    (hsizeRc : io.sizeRc = 0) (hne : io.size ≠ 0)
    (hfree : isMemFree mem.freeBase mem.freeSize imageBase io.size = true)
    (hreadRc : io.readRc = 0) (hread : io.size ≤ io.bytesRead)
    : Reports io imageBase mem info pc ↔ io.size < 2 ^ 32 := by
  have hread' : ¬io.bytesRead < io.size := not_lt.mpr hread
  have hdescribes : (⟨imageBase, io.size % 2 ^ 32⟩ : ImageInfo) = ⟨imageBase, io.size⟩ ↔ io.size < 2 ^ 32 := by
    rw [ImageInfo.mk.injEq, and_iff_right rfl]
    omega
  cases pc with
  | none =>
    have hload : loadImage io imageBase mem info none = some (0, mem, ⟨imageBase, io.size % 2 ^ 32⟩, none) := by
      simp [loadImage, hsource, hopen, hsizeRc, hne, hfree, hreadRc, hread']
    rw [reports_read_iff hload hne hread fun hnone => absurd rfl hnone, hdescribes]
  | some pc =>
    have ⟨mem', hreserve, hreserves, _⟩ := reserveMem_reserves hwf hlt hfree
    have hload : loadImage io imageBase mem info (some pc)
        = some (0, mem', ⟨imageBase, io.size % 2 ^ 32⟩, some imageBase) := by
      simp [loadImage, hsource, hopen, hsizeRc, hne, hfree, hreadRc, hread', hreserve]
    rw [reports_read_iff hload hne hread fun _ => ⟨rfl, hreserves⟩, hdescribes]

lemma reports_iff (hbase : mem.freeBase < 2 ^ 64) (hsize : mem.freeSize < 2 ^ 64) (hlt : io.size < 2 ^ 64)
    : Reports io imageBase mem info pc
      ↔ (io.source = 0 → io.openRc = 0 → io.sizeRc = 0 →
        io.size ≠ 0
          ∧ (Fits mem imageBase io.size → io.readRc = 0 → io.size ≤ io.bytesRead ∧ io.size < 2 ^ 32)) := by
  by_cases hsource : io.source ≠ 0
  . rw [reports_exit_iff (by rw [loadImage, if_pos hsource]) (.inr (.inr hsource))]
    exact ⟨fun _ h => absurd h hsource, fun _ => hsource⟩
  by_cases hopen : io.openRc ≠ 0
  . rw [reports_exit_iff (by rw [loadImage, if_neg hsource, if_pos hopen]) (.inr (.inr hopen))]
    exact ⟨fun _ _ h => absurd h hopen, fun _ => hopen⟩
  rw [not_ne_iff] at hsource hopen
  simp only [hsource, hopen, true_implies]
  by_cases hempty : io.sizeRc ≠ 0 ∨ io.size = 0
  . have hexit : loadImage io imageBase mem info pc = some (io.sizeRc, mem, info, pc) := by
      simp [loadImage, hsource, hopen, hempty]
    rw [reports_exit_iff hexit (by tauto)]
    tauto
  rw [not_or, not_ne_iff] at hempty
  have ⟨hsizeRc, hne⟩ := hempty
  rw [← isMemFree_iff_fits hbase hsize (by omega) hlt]
  simp only [hsizeRc, hne, ne_eq, not_false_eq_true, true_and, true_implies]
  cases hfree : isMemFree mem.freeBase mem.freeSize imageBase io.size with
  | false =>
    have hexit : loadImage io imageBase mem info pc = some (-enomem, mem, info, pc) := by
      simp [loadImage, hsource, hopen, hsizeRc, hne, hfree]
    rw [reports_exit_iff hexit (.inr (.inr (by decide)))]
    simp [enomem]
  | true =>
    simp only [true_implies]
    by_cases hshort : io.readRc ≠ 0 ∨ io.bytesRead < io.size
    . have hexit : loadImage io imageBase mem info pc = some (io.readRc, mem, info, pc) := by
        simp [loadImage, hsource, hopen, hsizeRc, hne, hfree, hshort]
      rw [reports_exit_iff hexit (by tauto)]
      constructor
      . intro hrc h
        exact absurd h hrc
      . intro h hrc
        omega
    rw [not_or, not_ne_iff, not_lt] at hshort
    have hfits := (isMemFree_iff_fits hbase hsize (by omega) hlt).mp hfree
    rw [reports_of_read ⟨hbase, hsize, hfits.no_wrap⟩ hlt hsource hopen hsizeRc hne hfree hshort.1 hshort.2]
    exact ⟨fun hle _ => ⟨hshort.2, hle⟩, fun h => (h hshort.1).2⟩

end

lemma reportsV2_iff {io : Auth.IoImage} {imageId : Nat} {info : Auth.ImageInfo} {w : Auth.World}
    : ReportsV2 io imageId info w
      ↔ (io.source = 0 → io.openRc = 0 → io.sizeRc = 0 →
        io.size ≠ 0 ∧ (io.size ≤ info.imageMaxSize → io.readRc = 0 → io.size ≤ io.data.length)) := by
  unfold ReportsV2 Auth.loadImage
  by_cases hsource : io.source ≠ 0
  . rw [if_pos hsource]
    exact ⟨fun _ h => absurd h hsource, fun _ h => absurd h hsource⟩
  rw [if_neg hsource]
  by_cases hopen : io.openRc ≠ 0
  . rw [if_pos hopen]
    exact ⟨fun _ _ h => absurd h hopen, fun _ h => absurd h hopen⟩
  rw [if_neg hopen]
  rw [not_ne_iff] at hsource hopen
  simp only [hsource, hopen, true_implies]
  by_cases hempty : io.sizeRc ≠ 0 ∨ io.size = 0
  . rw [if_pos hempty]
    constructor
    . intro h hrc
      have ⟨hne, _⟩ := h hrc
      exact absurd hempty (not_or.mpr ⟨not_not.mpr hrc, hne⟩)
    . intro h hrc
      exact absurd hempty (not_or.mpr ⟨not_not.mpr hrc, (h hrc).1⟩)
  rw [if_neg hempty]
  rw [not_or, not_ne_iff] at hempty
  simp only [hempty, true_implies, ne_eq, not_false_eq_true, true_and]
  by_cases hmax : info.imageMaxSize < io.size
  . rw [if_pos hmax]
    simp only [Auth.efbig]
    omega
  rw [if_neg hmax]
  constructor
  . intro h _ hrc
    exact (h hrc).1
  intro h hrc
  have hle := h (not_lt.mp hmax) hrc
  have hload := Mem.load_store_self w.mem info.imageBase (io.data.take io.size)
  rw [List.length_take, min_eq_left hle] at hload
  exact ⟨hle, hload, rfl⟩

theorem load_reports_iff (io : ImageIo) (imageBase : Nat) (mem : Meminfo) (info : ImageInfo) (pc : Option Nat)
    (hbase : mem.freeBase < 2 ^ 64) (hsize : mem.freeSize < 2 ^ 64) (hlt : io.size < 2 ^ 64)
    (ioV2 : Auth.IoImage) (imageId : Nat) (infoV2 : Auth.ImageInfo) (w : Auth.World)
    : (Reports io imageBase mem info pc
        ↔ (io.source = 0 → io.openRc = 0 → io.sizeRc = 0 →
          io.size ≠ 0
            ∧ (Fits mem imageBase io.size → io.readRc = 0 → io.size ≤ io.bytesRead ∧ io.size < 2 ^ 32)))
      ∧ (ReportsV2 ioV2 imageId infoV2 w
        ↔ (ioV2.source = 0 → ioV2.openRc = 0 → ioV2.sizeRc = 0 →
          ioV2.size ≠ 0 ∧ (ioV2.size ≤ infoV2.imageMaxSize → ioV2.readRc = 0 → ioV2.size ≤ ioV2.data.length))) :=
  ⟨reports_iff hbase hsize hlt, reportsV2_iff⟩

def emptyWorld : Auth.World :=
  ⟨⟨fun _ => 0, fun _ => false, fun _ => 0, 0, fun _ => none, fun _ _ => none⟩, fun _ => 0, [], []⟩

theorem load_reports_wholeRead
    : Reports ⟨0, 0, 0, 0x10, 0, 0x10⟩ (2 ^ 64 - 0x1000) topRegion ⟨0, 0⟩ (some 0)
      ∧ ReportsV2 ⟨0, 0, 0, 2, 0, [1, 2]⟩ 0 ⟨0, 0, 2⟩ emptyWorld := by
  have h := load_reports_iff ⟨0, 0, 0, 0x10, 0, 0x10⟩ (2 ^ 64 - 0x1000) topRegion ⟨0, 0⟩ (some 0)
    (by decide) (by decide) (by decide) ⟨0, 0, 0, 2, 0, [1, 2]⟩ 0 ⟨0, 0, 2⟩ emptyWorld
  rw [h.1, h.2]
  constructor
  . intro _ _ _
    exact ⟨by decide, fun _ _ => by decide⟩
  . intro _ _ _
    exact ⟨by decide, fun _ _ => by decide⟩

-- An empty image, an image of which the device gives half, and one of 4 GiB and 16 bytes.
theorem not_reports_emptyImage
    : ¬Reports ⟨0, 0, 0, 0, 0, 0⟩ (2 ^ 64 - 0x1000) topRegion ⟨0, 0⟩ (some 0)
      ∧ ¬Reports ⟨0, 0, 0, 0x10, 0, 8⟩ (2 ^ 64 - 0x1000) topRegion ⟨0, 0⟩ (some 0)
      ∧ ¬Reports ⟨0, 0, 0, 2 ^ 32 + 0x10, 0, 2 ^ 32 + 0x10⟩ 0 ⟨0, 2 ^ 33⟩ ⟨0, 0⟩ none := by
  refine ⟨?_, ?_, ?_⟩
  . intro ⟨rc, mem, info, pc, heq, hok, _⟩
    cases heq
    exact (hok rfl).1 rfl
  . intro ⟨rc, mem, info, pc, heq, hok, _⟩
    cases heq
    exact absurd (hok rfl).2.1 (by decide)
  . intro ⟨rc, mem, info, pc, heq, hok, _⟩
    cases heq
    exact absurd (hok rfl).2.2.1 (by decide)

end Atf.BlCommon
