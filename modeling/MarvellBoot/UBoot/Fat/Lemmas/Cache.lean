import MarvellBoot.UBoot.Fat.Impl

namespace UBoot.Fat

open Packed Fsdata List

def Call.run (table : Nat → Nat) : Call → Int × (Nat → Nat)
  | .get entry => (table entry, table)
  | .set entry value => (0, Function.update table entry value)

def Call.runs (table : Nat → Nat) : List Call → List Int × (Nat → Nat)
  | [] => ([], table)
  | c :: cs => (((c.run table).1 :: (runs (c.run table).2 cs).1), (runs (c.run table).2 cs).2)

namespace Fsdata

variable (fs : Fsdata)

def Has (entry : Nat) : Prop := fs.fatsize.bits * (entry + 1) ≤ 8 * (fs.fatlength * fs.sectSize)

instance (entry : Nat) : Decidable (fs.Has entry) :=
  inferInstanceAs (Decidable (_ ≤ _))

def Valid : Call → Prop
  | .get entry => fs.Has entry ∧ checkClust entry fs.fatsize = false
  | .set entry value => fs.Has entry ∧ checkClust entry fs.fatsize = false ∧ value < 2 ^ fs.fatsize.bits

structure TwoCopies : Prop where
  sectSize : 4 ∣ fs.sectSize
  numOfFats : fs.numOfFats = 2
  totalSector : fs.fatSect + 2 * fs.fatlength ≤ fs.totalSector
  lba : fs.totalSector ≤ fs.lba
  lt : fs.totalSector < 2 ^ 31

def copyByte (disk : Nat → UInt8) (copy i : Nat) : UInt8 := disk ((fs.fatSect + copy * fs.fatlength) * fs.sectSize + i)

def table (disk : Nat → UInt8) (copy entry : Nat) : Nat :=
  field (fs.copyByte disk copy) (fs.fatsize.bits * entry) fs.fatsize.bits

def Mirrored (disk : Nat → UInt8) : Prop :=
  ∀ i < fs.fatlength * fs.sectSize, fs.copyByte disk 1 i = fs.copyByte disk 0 i

def view (st : State) (i : Nat) : UInt8 :=
  match st.fatbufnum with
  | none => fs.copyByte st.disk 0 i
  | some b =>
    if b * fs.fatbufsize ≤ i ∧ i < (b + 1) * fs.fatbufsize then
      st.fatbuf (i - b * fs.fatbufsize)
    else
      fs.copyByte st.disk 0 i

structure Inv (st : State) : Prop where
  mirrored : fs.Mirrored st.disk
  lt : ∀ b, st.fatbufnum = some b → b * fatbufblocks < fs.fatlength
  clean : st.fatDirty = false → ∀ i < fs.fatlength * fs.sectSize, fs.view st i = fs.copyByte st.disk 0 i

structure Sim (st : State) (table : Nat → Nat) : Prop where
  inv : fs.Inv st
  table : ∀ entry, fs.Has entry → field (fs.view st) (fs.fatsize.bits * entry) fs.fatsize.bits = table entry

end Fsdata

variable {fs : Fsdata} {st : State} (fatbuf : Nat → UInt8)

section Entry

lemma getEntry_eq (offset : Nat)
    : fs.getEntry fatbuf offset = field fatbuf (fs.fatsize.bits * offset) fs.fatsize.bits := by
  unfold getEntry FatSize.bits
  cases fs.fatsize with
  | fat12 =>
    dsimp only
    apply eq_field
    . exact Nat.lt_of_le_of_lt Nat.and_le_right (by decide)
    intro i hi
    have hmask : (0xfff : Nat).testBit i = true := by
      rw [show 0xfff = 2 ^ 12 - 1 by rfl, Nat.testBit_two_pow_sub_one, decide_eq_true hi]
    rw [Nat.testBit_and, hmask, Bool.and_true]
    split
    . have hpos : 8 * (offset * 3 / 2) + (4 + i) = 12 * offset + i := by omega
      have hlt : 4 + i < 8 * 2 := by omega
      rw [Nat.testBit_shiftRight, testBit_load, hpos, decide_eq_true hlt, Bool.true_and]
    . have hpos : 8 * (offset * 3 / 2) + i = 12 * offset + i := by omega
      have hlt : i < 8 * 2 := by omega
      rw [testBit_load, hpos, decide_eq_true hlt, Bool.true_and]
  | fat16 | fat32 =>
    dsimp only
    apply eq_field_load
    omega

lemma patched_setBits {fatbuf : Nat → UInt8} {i mask value pos : Nat} (lo len : Nat)
    (hmask : ∀ j < 16, mask.testBit j = !decide (lo ≤ j ∧ j < lo + len)) (hlo : lo + len ≤ 16)
    (hpos : pos = 16 * i + lo)
    : Patched fatbuf (setBits fatbuf i mask (value &&& 2 ^ len - 1) lo) pos len value := by
  rw [hpos]
  apply Patched.congr
  . apply patched_word _ hmask hlo
    apply Nat.and_lt_two_pow
    have := Nat.two_pow_pos len
    omega
  . intro j hj
    rw [Nat.testBit_and, Nat.testBit_two_pow_sub_one, decide_eq_true hj, Bool.and_true]

lemma patched_setEntry (offset value : Nat)
    : Patched fatbuf (fs.setEntry fatbuf offset value) (fs.fatsize.bits * offset) fs.fatsize.bits value := by
  unfold setEntry FatSize.bits
  cases fs.fatsize with
  | fat32 =>
    rw [show 32 * offset = 8 * (4 * offset) by omega]
    apply patched_store
  | fat16 =>
    rw [show 16 * offset = 8 * (2 * offset) by omega]
    apply patched_store
  | fat12 =>
    have hcases : offset % 4 = 0 ∨ offset % 4 = 1 ∨ offset % 4 = 2 ∨ offset % 4 = 3 := by omega
    rcases hcases with h | h | h | h
    . simp only [h]
      apply patched_setBits 0 12
      . decide
      . omega
      . omega
    . simp only [h]
      apply @Patched.trans _ (setBits fatbuf (offset * 3 / 4) 0x0fff (value &&& 0xf) 12) _ _ 4 _ 8
      . apply patched_setBits 12 4
        . decide
        . omega
        . omega
      apply patched_setBits 0 8
      . decide
      . omega
      . omega
    . simp only [h]
      apply @Patched.trans _ (setBits fatbuf (offset * 3 / 4) 0x00ff (value &&& 0xff) 8) _ _ 8 _ 4
      . apply patched_setBits 8 8
        . decide
        . omega
        . omega
      apply patched_setBits 0 4
      . decide
      . omega
      . omega
    simp only [h]
    apply patched_setBits 4 12
    . decide
    . omega
    . omega

end Entry

section Window

variable {b : Nat}

lemma bits_mul_entries (h : fs.TwoCopies) : fs.fatsize.bits * fs.entries = 8 * fs.fatbufsize := by
  have ⟨words, hsect⟩ := h.sectSize
  unfold entries FatSize.bits fatbufsize fatbufblocks
  cases fs.fatsize with
  | fat12 => dsimp only; omega
  | fat16 => dsimp only; omega
  | fat32 => dsimp only; omega

lemma fatbufsize_mul (b : Nat) : b * fs.fatbufsize = b * fatbufblocks * fs.sectSize := by
  unfold fatbufsize
  ring

section

variable (h : fs.TwoCopies)

include h

lemma getsize_cases (hb : b * fatbufblocks < fs.fatlength)
    : fs.getsize (b * fatbufblocks) = fatbufblocks ∧ b * fatbufblocks + fatbufblocks ≤ fs.fatlength ∨
      b * fatbufblocks + fs.getsize (b * fatbufblocks) = fs.fatlength ∧
        fs.fatlength < b * fatbufblocks + fatbufblocks := by
  have htotal := h.totalSector
  have hlt := h.lt
  unfold getsize
  split
  next hcap =>
    right
    omega
  next hcap =>
  left
  exact ⟨rfl, by omega⟩

lemma diskWrite_window (hb : b * fatbufblocks < fs.fatlength) (disk buf : Nat → UInt8)
    {copy : Nat} (hcopy : copy < 2)
    : ∃ disk', fs.diskWrite disk (b * fatbufblocks + fs.fatSect + copy * fs.fatlength) (fs.getsize (b * fatbufblocks)) buf
        = some disk' ∧
      ∀ copy' < 2, ∀ i < fs.fatlength * fs.sectSize, fs.copyByte disk' copy' i =
        if copy' = copy ∧ b * fs.fatbufsize ≤ i ∧ i < (b + 1) * fs.fatbufsize then buf (i - b * fs.fatbufsize)
        else fs.copyByte disk copy' i := by
  have htotal := h.totalSector
  have hlba := h.lba
  have hsize := getsize_cases h hb
  have hmul : copy * fs.fatlength ≤ fs.fatlength := by
    rw [← one_mul fs.fatlength, ← mul_assoc]
    apply Nat.mul_le_mul_right
    omega
  have hwindow : (b * fatbufblocks + fs.getsize (b * fatbufblocks)) * fs.sectSize ≤ fs.fatlength * fs.sectSize := by
    apply Nat.mul_le_mul_right
    omega
  have hend : ∀ i < fs.fatlength * fs.sectSize, i < (b + 1) * fs.fatbufsize ↔
      i < (b * fatbufblocks + fs.getsize (b * fatbufblocks)) * fs.sectSize := by
    intro i hi
    rw [fatbufsize_mul, add_mul b, one_mul]
    cases hsize with
    | inl hsize => rw [hsize.1]
    | inr hsize =>
      rw [hsize.1]
      apply iff_of_true _ hi
      exact Nat.lt_of_lt_of_le hi (Nat.mul_le_mul_right _ (by omega))
  unfold diskWrite
  rw [if_neg (by omega), if_neg (by omega)]
  refine ⟨_, rfl, ?_⟩
  intro copy' hcopy' i hi
  have hin : (b * fatbufblocks + fs.fatSect + copy * fs.fatlength) * fs.sectSize ≤
        (fs.fatSect + copy' * fs.fatlength) * fs.sectSize + i ∧
      (fs.fatSect + copy' * fs.fatlength) * fs.sectSize + i <
        (b * fatbufblocks + fs.fatSect + copy * fs.fatlength + fs.getsize (b * fatbufblocks)) * fs.sectSize ↔
      copy' = copy ∧ b * fs.fatbufsize ≤ i ∧ i < (b + 1) * fs.fatbufsize := by
    rw [hend i hi, fatbufsize_mul]
    simp only [add_mul] at hwindow ⊢
    interval_cases copy <;> interval_cases copy' <;>
      simp only [zero_mul, one_mul, true_and] <;> omega
  unfold copyByte
  simp only [hin]
  split
  next h =>
    rw [h.1, fatbufsize_mul]
    simp only [add_mul]
    congr 1
    omega
  next => rfl

lemma flush_spec (hinv : fs.Inv st)
    : ∃ st', fs.flushDirtyFatBuffer st = (true, st') ∧ st'.fatbufnum = st.fatbufnum ∧ st'.fatbuf = st.fatbuf ∧
      ∀ copy < 2, ∀ i < fs.fatlength * fs.sectSize, fs.copyByte st'.disk copy i = fs.view st i := by
  unfold flushDirtyFatBuffer
  split
  next b hdirty hnum =>
    have hb := hinv.lt b hnum
    have ⟨disk, hwrite, hdisk⟩ := diskWrite_window h hb st.disk st.fatbuf (show 0 < 2 by omega)
    have ⟨disk', hwrite', hdisk'⟩ := diskWrite_window h hb disk st.fatbuf (show 1 < 2 by omega)
    rw [zero_mul, add_zero] at hwrite
    rw [one_mul] at hwrite'
    simp only [hwrite, hwrite', h.numOfFats]
    refine ⟨_, rfl, rfl, rfl, ?_⟩
    intro copy hcopy i hi
    have hmirrored := hinv.mirrored i hi
    rw [hdisk' copy hcopy i hi, hdisk copy hcopy i hi, view, hnum]
    interval_cases copy
    . simp
    . simp [hmirrored]
  next hnone =>
  refine ⟨st, rfl, rfl, rfl, ?_⟩
  have hview : ∀ i < fs.fatlength * fs.sectSize, fs.view st i = fs.copyByte st.disk 0 i := by
    intro i hi
    cases hdirty : st.fatDirty with
    | false => exact hinv.clean hdirty i hi
    | true =>
      cases hnum : st.fatbufnum with
      | none => rw [view, hnum]
      | some b => exact absurd hnum (hnone b hdirty)
  intro copy hcopy i hi
  rw [hview i hi]
  interval_cases copy
  . rfl
  . exact hinv.mirrored i hi

lemma fetch_spec (hinv : fs.Inv st) (hb : b * fatbufblocks < fs.fatlength)
    : ∃ st', fs.fetch st b = (.ok, st') ∧ fs.Inv st' ∧ st'.fatbufnum = some b ∧
      ∀ i < fs.fatlength * fs.sectSize, fs.view st' i = fs.view st i := by
  unfold fetch
  split
  next hnum => exact ⟨st, rfl, hinv, hnum, fun _ _ => rfl⟩
  next =>
  have ⟨st1, hflush, _, _, hdisk⟩ := flush_spec h hinv
  have hsize := getsize_cases h hb
  have htotal := h.totalSector
  have hlba := h.lba
  have hview : ∀ i < fs.fatlength * fs.sectSize,
      (if b * fs.fatbufsize ≤ i ∧ i < (b + 1) * fs.fatbufsize then
        if i - b * fs.fatbufsize < fs.getsize (b * fatbufblocks) * fs.sectSize then
          st1.disk ((b * fatbufblocks + fs.fatSect) * fs.sectSize + (i - b * fs.fatbufsize))
        else st1.fatbuf (i - b * fs.fatbufsize)
      else fs.copyByte st1.disk 0 i) = fs.copyByte st1.disk 0 i := by
    intro i hi
    split
    next hin =>
      have hlt : i - b * fs.fatbufsize < fs.getsize (b * fatbufblocks) * fs.sectSize := by
        rw [fatbufsize_mul] at hin ⊢
        rw [fatbufsize_mul, add_mul b, one_mul, add_mul] at hin
        cases hsize with
        | inl hsize =>
          rw [hsize.1]
          omega
        | inr hsize =>
          rw [← hsize.1, add_mul] at hi
          omega
      rw [if_pos hlt, copyByte, fatbufsize_mul]
      rw [fatbufsize_mul] at hin
      simp only [add_mul, zero_mul]
      congr 1
      omega
    next => rfl
  simp only [hflush]
  unfold diskRead
  rw [if_neg (by omega)]
  refine ⟨_, rfl, ⟨?_, ?_, ?_⟩, rfl, ?_⟩
  . intro i hi
    rw [hdisk 1 (by omega) i hi, hdisk 0 (by omega) i hi]
  . intro b' hb'
    rw [← Option.some.inj hb']
    exact hb
  . intro _
    exact hview
  . intro i hi
    rw [← hdisk 0 (by omega) i hi]
    exact hview i hi

end

lemma bit_view (hnum : st.fatbufnum = some b) (n : Nat)
    : bit (fs.view st) n =
      if 8 * (b * fs.fatbufsize) ≤ n ∧ n < 8 * ((b + 1) * fs.fatbufsize) then
        bit st.fatbuf (n - 8 * (b * fs.fatbufsize))
      else bit (fs.copyByte st.disk 0) n := by
  have hin : (b * fs.fatbufsize ≤ n / 8 ∧ n / 8 < (b + 1) * fs.fatbufsize) ↔
      (8 * (b * fs.fatbufsize) ≤ n ∧ n < 8 * ((b + 1) * fs.fatbufsize)) := by omega
  have hdiv : (n - 8 * (b * fs.fatbufsize)) / 8 = n / 8 - b * fs.fatbufsize := by omega
  unfold bit view
  simp only [hnum, hin, hdiv]
  split
  next h =>
    congr 1
    omega
  next => rfl

lemma entry_bits (h : fs.TwoCopies) (entry : Nat)
    : fs.fatsize.bits * entry = 8 * (entry / fs.entries * fs.fatbufsize) +
        fs.fatsize.bits * (entry - entry / fs.entries * fs.entries) ∧
      fs.fatsize.bits * (entry - entry / fs.entries * fs.entries) + fs.fatsize.bits ≤ 8 * fs.fatbufsize := by
  have hentries := bits_mul_entries h
  have hpos : 0 < fs.entries := by
    apply Nat.pos_of_ne_zero
    intro hzero
    have hsect := fs.sectSize_pos
    rw [hzero, fatbufsize, fatbufblocks] at hentries
    omega
  have hdiv := Nat.div_mul_le_self entry fs.entries
  have hmod : entry - entry / fs.entries * fs.entries < fs.entries := by
    rw [← Nat.mod_eq_sub_div_mul]
    exact Nat.mod_lt _ hpos
  constructor
  . rw [Nat.mul_left_comm, ← hentries, Nat.mul_left_comm, ← Nat.mul_add]
    congr 1
    omega
  . rw [← hentries, ← Nat.mul_succ]
    exact Nat.mul_le_mul_left _ hmod

lemma window_of_has (h : fs.TwoCopies) {entry : Nat} (hhas : fs.Has entry)
    : entry / fs.entries * fatbufblocks < fs.fatlength := by
  have ⟨hpos, _⟩ := entry_bits h entry
  have hbits : 0 < fs.fatsize.bits := by
    cases fs.fatsize with
    | fat12 => decide
    | fat16 => decide
    | fat32 => decide
  unfold Has at hhas
  rw [mul_add, hpos, fatbufsize_mul] at hhas
  apply @Nat.lt_of_mul_lt_mul_right fs.sectSize
  omega

end Window

section Calls

variable {table : Nat → Nat} {entry value : Nat}

lemma Fsdata.Sim.fetch {b : Nat} (h : fs.TwoCopies) (hsim : fs.Sim st table) (hb : b * fatbufblocks < fs.fatlength)
    : ∃ st', fs.fetch st b = (.ok, st') ∧ st'.fatbufnum = some b ∧ fs.Sim st' table := by
  have ⟨st', hfetch, hinv, hnum, hview⟩ := fetch_spec h hsim.inv hb
  refine ⟨st', hfetch, hnum, hinv, ?_⟩
  intro entry hhas
  rw [← hsim.table entry hhas]
  apply field_congr
  intro i hi
  unfold Has at hhas
  rw [mul_add, mul_one] at hhas
  unfold bit
  rw [hview]
  omega

section

variable (h : fs.TwoCopies)

include h

section

variable (hsim : fs.Sim st table)

include hsim

lemma Fsdata.Sim.get (hhas : fs.Has entry)
    (hnum : st.fatbufnum = some (entry / fs.entries))
    : fs.getEntry st.fatbuf (entry - entry / fs.entries * fs.entries) = table entry := by
  have ⟨hpos, hle⟩ := entry_bits h entry
  rw [← hsim.table entry hhas, getEntry_eq]
  apply field_congr
  intro i hi
  rw [bit_view hnum, add_mul, one_mul, if_pos (by omega)]
  congr 1
  omega

lemma Fsdata.Sim.set (hvalue : value < 2 ^ fs.fatsize.bits)
    (hnum : st.fatbufnum = some (entry / fs.entries))
    : fs.Sim
        { st with
          fatDirty := true
          fatbuf := fs.setEntry st.fatbuf (entry - entry / fs.entries * fs.entries) value }
        (Function.update table entry value) := by
  have ⟨hpos, hle⟩ := entry_bits h entry
  generalize hoffset : entry - entry / fs.entries * fs.entries = offset at hpos hle ⊢
  have hview := @bit_view fs { st with fatDirty := true, fatbuf := fs.setEntry st.fatbuf offset value } _ hnum
  refine ⟨⟨hsim.inv.mirrored, hsim.inv.lt, fun hc => nomatch hc⟩, ?_⟩
  intro entry' hhas
  rw [@Patched.field _ _ _ _ entry _ hvalue, Function.update_apply]
  . split
    . rfl
    . apply hsim.table entry' hhas
  intro n
  rw [hview n, bit_view hnum, add_mul, one_mul, patched_setEntry]
  split
  next hin =>
    by_cases hn : fs.fatsize.bits * entry ≤ n ∧ n < fs.fatsize.bits * entry + fs.fatsize.bits
    . rw [if_pos (by omega), if_pos hn]
      congr 1
      omega
    . rw [if_neg (by omega), if_neg hn]
  next hin => rw [if_neg (by omega)]

lemma Fsdata.Sim.call {c : Call} (hvalid : fs.Valid c)
    : (fs.call st c).1 = (c.run table).1 ∧ fs.Sim (fs.call st c).2 (c.run table).2 := by
  cases c with
  | get entry =>
    obtain ⟨hhas, hcheck⟩ := hvalid
    obtain ⟨st', hfetch, hnum, hsim'⟩ := hsim.fetch h (window_of_has h hhas)
    simp only [Fsdata.call, getFatent, hcheck, hfetch, Call.run]
    exact ⟨congrArg Int.ofNat (hsim'.get h hhas hnum), hsim'⟩
  | set entry value =>
    obtain ⟨hhas, hcheck, hvalue⟩ := hvalid
    obtain ⟨st', hfetch, hnum, hsim'⟩ := hsim.fetch h (window_of_has h hhas)
    simp only [Fsdata.call, setFatentValue, hfetch, Call.run]
    exact ⟨trivial, hsim'.set h hvalue hnum⟩

lemma Fsdata.Sim.calls {cs : List Call} (hvalid : ∀ c ∈ cs, fs.Valid c)
    : (fs.calls st cs).1 = (Call.runs table cs).1 ∧ fs.Sim (fs.calls st cs).2 (Call.runs table cs).2 := by
  induction cs generalizing st table with
  | nil => exact ⟨rfl, hsim⟩
  | cons c cs ih =>
    rw [forall_mem_cons] at hvalid
    have ⟨hret, hsim'⟩ := hsim.call h hvalid.1
    have ⟨hrets, hsim''⟩ := ih hsim' hvalid.2
    exact ⟨congrArg₂ cons hret hrets, hsim''⟩

end

end

theorem fat_window_transparent (h : fs.TwoCopies) (disk fatbuf : Nat → UInt8) (hmirrored : fs.Mirrored disk)
    (cs : List Call) (hvalid : ∀ c ∈ cs, fs.Valid c)
    : (fs.calls { disk, fatbuf } cs).1 = (Call.runs (fs.table disk 0) cs).1 ∧
      ∃ st, fs.flushDirtyFatBuffer (fs.calls { disk, fatbuf } cs).2 = (true, st) ∧
        ∀ copy < 2, ∀ entry, fs.Has entry → fs.table st.disk copy entry = (Call.runs (fs.table disk 0) cs).2 entry := by
  have hsim : fs.Sim { disk, fatbuf } (fs.table disk 0) := ⟨⟨hmirrored, by simp, fun _ _ _ => rfl⟩, fun _ _ => rfl⟩
  have ⟨hrets, hsim'⟩ := hsim.calls h hvalid
  have ⟨st, hflush, _, _, hdisk⟩ := flush_spec h hsim'.inv
  refine ⟨hrets, st, hflush, ?_⟩
  intro copy hcopy entry hhas
  rw [← hsim'.table entry hhas]
  apply field_congr
  intro i hi
  unfold Has at hhas
  rw [mul_add, mul_one] at hhas
  unfold bit
  rw [hdisk copy hcopy]
  omega

def smallFat12 : Fsdata := ⟨.fat12, 1, 1, 3, 512, 1, 2, 2, 64, 64, by decide, by decide⟩

theorem fat_window_transparent_fat12
    : smallFat12.TwoCopies ∧ smallFat12.Mirrored (fun _ => 0) ∧
      (smallFat12.calls ⟨fun _ => 0, fun _ => 0, none, false⟩ [.set 3 0xfff, .set 2 3, .get 3]).1 = [0, 0, 0xfff] := by
  have htwo : smallFat12.TwoCopies := ⟨by decide, rfl, by decide, by decide, by decide⟩
  have hmirrored : smallFat12.Mirrored (fun _ => 0) := fun _ _ => rfl
  refine ⟨htwo, hmirrored, ?_⟩
  rw [(fat_window_transparent htwo _ _ hmirrored _ ?_).1]
  . rfl
  . rw [forall_mem_cons, forall_mem_cons, forall_mem_singleton]
    exact ⟨⟨by decide, rfl, by decide⟩, ⟨by decide, rfl, by decide⟩, by decide, rfl⟩

-- The copies differ in entry 2 and nothing is written.
def staleDisk : Nat → UInt8 := fun i => if i = 1027 then 1 else 0

theorem not_transparent_staleCopy
    : smallFat12.TwoCopies ∧ smallFat12.Valid (.get 2) ∧
      ∃ st, smallFat12.flushDirtyFatBuffer (smallFat12.calls { disk := staleDisk, fatbuf := fun _ => 0 } [.get 2]).2
          = (true, st)
        ∧ smallFat12.table st.disk 1 2 ≠ (Call.runs (smallFat12.table staleDisk 0) [.get 2]).2 2 := by
  refine ⟨⟨by decide, rfl, by decide, by decide, by decide⟩, ⟨by decide, rfl⟩, _, rfl, ?_⟩
  decide +kernel

end Calls

end UBoot.Fat
