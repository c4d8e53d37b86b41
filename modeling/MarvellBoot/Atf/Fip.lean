import MarvellBoot.Atf.IoBlock.Impl

/-!
Reading an image of a package as in `drivers/io/io_fip.c`, from the memory mapped device of `drivers/io/io_memmap.c`.
-/

namespace Atf.Fip

open IoBlock (IoBlockSpec)
open Mem List

namespace Memmap

structure FileState where
  inUse : Bool
  base : Nat
  filePos : Nat
  size : Nat

def closed : FileState := ⟨false, 0, 0, 0⟩

def memmapBlockOpen (f : FileState) (spec : IoBlockSpec) : Option FileState :=
  if f.inUse then none else some ⟨true, spec.offset, 0, spec.length⟩

def memmapBlockSeek (f : FileState) (offset : Nat) : FileState := { f with filePos := offset }

def memmapBlockRead (m : Int → UInt8) (f : FileState) (length : Nat) : FileState × List UInt8 × Nat :=
  ({ f with filePos := (f.filePos + length) % 2 ^ 64 }, load m (f.base + f.filePos) length, length)

def memmapBlockClose (_ : FileState) : FileState := closed

end Memmap

open Memmap

structure FipTocEntry where
  offsetAddress : Nat
  size : Nat

structure FileState where
  filePos : Nat
  entry : FipTocEntry

section

variable (m : Int → UInt8) (spec : IoBlockSpec)

def fipFileRead (dev : Memmap.FileState) (fp : FileState) (length : Nat)
    : Memmap.FileState × FileState × Option (List UInt8 × Nat) :=
  match memmapBlockOpen dev spec with
  | none => (dev, fp, none)
  | some dev =>
    let fileOffset := (fp.entry.offsetAddress + fp.filePos) % 2 ^ 64
    let (dev, buffer, bytesRead) := memmapBlockRead m (memmapBlockSeek dev fileOffset) length
    -- `file_pos` is an unsigned int
    (memmapBlockClose dev, { fp with filePos := (fp.filePos + bytesRead) % 2 ^ 32 }, some (buffer, bytesRead))

/-- The bytes that the calls report, one call after the other. -/
def fipFileReads : Memmap.FileState → FileState → List Nat → Option (List UInt8)
  | _, _, [] => some []
  | dev, fp, length :: lengths =>
    match fipFileRead m spec dev fp length with
    | (dev, fp, some (buffer, bytesRead)) => (fipFileReads dev fp lengths).map (buffer.take bytesRead ++ ·)
    | (_, _, none) => none

def Faithful (entry : FipTocEntry) (lengths : List Nat) : Prop :=
  ∃ bytes, fipFileReads m spec closed ⟨0, entry⟩ lengths = some bytes
    ∧ bytes <+: load m (spec.offset + entry.offsetAddress) entry.size

def image (entry : FipTocEntry) : Nat → List Nat → List UInt8
  | _, [] => []
  | filePos, length :: lengths =>
    load m (spec.offset + ((entry.offsetAddress + filePos) % 2 ^ 64 : Nat)) length
      ++ image entry ((filePos + length) % 2 ^ 32) lengths

end

variable {m : Int → UInt8} {spec : IoBlockSpec} {entry : FipTocEntry} {lengths : List Nat} (position filePos : Nat)

lemma fipFileReads_eq
    : fipFileReads m spec closed ⟨filePos, entry⟩ lengths = some (image m spec entry filePos lengths) := by
  induction lengths generalizing filePos with
  | nil => rfl
  | cons length lengths ih =>
    have hread : fipFileRead m spec closed ⟨filePos, entry⟩ length = (closed, ⟨(filePos + length) % 2 ^ 32, entry⟩,
        some (load m (spec.offset + ((entry.offsetAddress + filePos) % 2 ^ 64 : Nat)) length, length)) := rfl
    rw [fipFileReads, hread]
    dsimp only
    rw [ih, take_of_length_le (by simp), Option.map_some, image]

lemma faithful_iff
    : Faithful m spec entry lengths
      ↔ image m spec entry 0 lengths <+: load m (spec.offset + entry.offsetAddress) entry.size := by
  rw [Faithful, fipFileReads_eq]
  simp only [Option.some.injEq, exists_eq_left']

lemma length_image : (image m spec entry filePos lengths).length = lengths.sum := by
  induction lengths generalizing filePos with
  | nil => rfl
  | cons length lengths ih => rw [image, length_append, length_load, ih, sum_cons]

def Representable (lengths : List Nat) : Prop :=
  ∀ before length after, lengths = before ++ length :: after → length ≠ 0 → before.sum < 2 ^ 32

lemma image_of_representable (hfits : entry.offsetAddress + position + lengths.sum < 2 ^ 64)
    (h : ∀ before length after, lengths = before ++ length :: after → length ≠ 0 → position + before.sum < 2 ^ 32)
    : image m spec entry (position % 2 ^ 32) lengths
      = load m (spec.offset + entry.offsetAddress + position) lengths.sum := by
  induction lengths generalizing position with
  | nil => rfl
  | cons length lengths ih =>
    rw [sum_cons] at *
    rw [image, load_add, Nat.mod_add_mod, ih (position + length) (by omega)]
    . congr 1
      . by_cases hzero : length = 0
        . rw [hzero]
          rfl
        have := h [] length lengths rfl hzero
        rw [sum_nil] at this
        congr 1
        omega
      . congr 1
        omega
    . intro before next after heq hne
      have := h (length :: before) next after (congrArg _ heq) hne
      rw [sum_cons] at this
      omega

lemma image_getElem? (before : List Nat) {length : Nat} (after : List Nat) (h : length ≠ 0)
    : (image m spec entry (position % 2 ^ 32) (before ++ length :: after))[before.sum]?
      = some (m (spec.offset + ((entry.offsetAddress + (position + before.sum) % 2 ^ 32) % 2 ^ 64 : Nat))) := by
  induction before generalizing position with
  | nil =>
    rw [nil_append, image, sum_nil, getElem?_append_left (by simp; omega)]
    simp [load, Nat.pos_of_ne_zero h]
  | cons first before ih =>
    rw [cons_append, image, sum_cons, getElem?_append_right (by simp), length_load]
    rw [Nat.add_sub_cancel_left, Nat.mod_add_mod, ih, Nat.add_assoc]

/-- The reads of an image with any payload, in any package. -/
theorem fip_reads_faithful_iff (m : Int → UInt8) (hlength : spec.length < 2 ^ 64)
    (hentry : entry.offsetAddress + entry.size ≤ spec.length)
    : (∀ payload, payload.length = entry.size →
        Faithful (store m (spec.offset + entry.offsetAddress) payload) spec entry lengths)
      ↔ lengths.sum ≤ entry.size ∧ Representable lengths := by
  simp only [faithful_iff]
  constructor
  . intro h
    have hsum : lengths.sum ≤ entry.size := by
      have := (h (replicate entry.size 0) length_replicate).length_le
      rwa [length_load, length_image] at this
    refine ⟨hsum, ?_⟩
    rintro before length after rfl hne
    rw [sum_append, sum_cons] at hsum
    -- the byte at which the read starts differs from all others
    have hlen : ((replicate entry.size 0).set before.sum 1 : List UInt8).length = entry.size := by
      rw [length_set, length_replicate]
    have hself := load_store_self m (spec.offset + entry.offsetAddress) ((replicate entry.size 0).set before.sum 1)
    obtain ⟨rest, heq⟩ := h _ hlen
    rw [hlen] at hself
    rw [hself] at heq
    have hbyte := congrArg (·[before.sum]?) heq
    rw [← Nat.zero_mod (2 ^ 32)] at hbyte
    rw [getElem?_append_left (by rw [length_image, sum_append, sum_cons]; omega), image_getElem? _ _ _ hne] at hbyte
    by_contra hge
    rw [store, if_pos (by omega), getD_eq_getElem?_getD, getElem?_set_ne (by omega),
      getElem?_set_self (by rw [length_replicate]; omega), getElem?_replicate] at hbyte
    split at hbyte
    . cases hbyte
    . cases hbyte
  . rintro ⟨hsum, h⟩ payload _
    rw [← Nat.zero_mod (2 ^ 32), image_of_representable 0 (by omega) (by simpa [Representable] using h)]
    rw [← take_load _ _ hsum, Int.natCast_zero, Int.add_zero]
    exact take_prefix _ _

theorem fip_reads_faithful_whole
    : Faithful (store (fun _ => 0) 96 [1, 2, 3, 4, 5, 6]) ⟨0, 102⟩ ⟨96, 6⟩ [1, 0, 3, 2] := by
  apply (@fip_reads_faithful_iff ⟨0, 102⟩ ⟨96, 6⟩ [1, 0, 3, 2] (fun _ => 0) (by decide) (by decide)).mpr
  . refine ⟨by decide, ?_⟩
    intro before length after heq _
    have hsum := congrArg List.sum heq
    rw [sum_append] at hsum
    exact Nat.lt_of_le_of_lt (Nat.le.intro hsum.symm) (by decide)
  . rfl

theorem not_faithful_overread : ¬Faithful (fun _ => 0) ⟨0, 97⟩ ⟨96, 1⟩ [2] := by
  intro h
  have := (faithful_iff.mp h).length_le
  rw [length_image, length_load] at this
  exact absurd this (by decide)

end Atf.Fip
