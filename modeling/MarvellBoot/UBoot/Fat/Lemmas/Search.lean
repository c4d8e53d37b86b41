import MarvellBoot.Lib.Walk
import MarvellBoot.UBoot.Fat.Dir
import MarvellBoot.UBoot.Fat.Lemmas.Cache

namespace UBoot.Fat

open Relation Walk Loop Fsdata

namespace Fsdata

variable (fs : Fsdata) (bufs : Buffers)

/-- The next cluster of a chain, as `get_fatent` finds it in the table. -/
def Linked (s t : Nat × State) : Prop := fs.getFatent s.2 s.1 = t ∧ checkClust t.1 fs.fatsize = false

def AfterGet (st : State) (clust : Nat) (st' : State) : Prop := st' = st ∨ st' = (fs.getFatent st clust).2

end Fsdata

structure Clean (disk : Nat → UInt8) (st : State) : Prop where
  disk : st.disk = disk
  fatDirty : st.fatDirty = false

variable {fs : Fsdata} {bufs : Buffers} {st st' : State} {disk : Nat → UInt8} {clust : Nat}

section Table

variable (h : Clean disk st)

include h

lemma getFatent_cases (clust : Nat)
    : (fs.getFatent st clust).2 = st
      ∨ ∃ fatbuf, (fs.getFatent st clust) = (fs.getEntry fatbuf (clust - clust / fs.entries * fs.entries),
          { st with fatbuf, fatbufnum := some (clust / fs.entries) }) ∧ checkClust clust fs.fatsize = false := by
  have hflush : fs.flushDirtyFatBuffer st = (true, st) := by
    simp [flushDirtyFatBuffer, h.fatDirty]
  unfold getFatent fetch
  rw [hflush]
  dsimp only
  by_cases hcheck : checkClust clust fs.fatsize = true
  . rw [if_pos hcheck]
    exact .inl rfl
  rw [if_neg hcheck]
  by_cases hnum : st.fatbufnum = some (clust / fs.entries)
  . rw [if_pos hnum]
    exact .inl rfl
  rw [if_neg hnum]
  cases fs.diskRead st.disk (clust / fs.entries * fatbufblocks + fs.fatSect)
      (fs.getsize (clust / fs.entries * fatbufblocks)) st.fatbuf with
  | none => exact .inl rfl
  | some fatbuf => exact .inr ⟨fatbuf, rfl, Bool.eq_false_of_not_eq_true hcheck⟩

lemma Clean.getFatent (clust : Nat) : Clean disk (fs.getFatent st clust).2 := by
  rcases @getFatent_cases fs st disk h clust with hsame | ⟨fatbuf, hfatent, _⟩
  . rw [hsame]
    exact h
  . rw [hfatent]
    exact ⟨h.disk, h.fatDirty⟩

lemma getFatent_again (clust : Nat) : fs.getFatent (fs.getFatent st clust).2 clust = fs.getFatent st clust := by
  rcases @getFatent_cases fs st disk h clust with hsame | ⟨fatbuf, hfatent, hcheck⟩
  . rw [hsame]
  rw [hfatent]
  unfold getFatent fetch
  rw [hcheck]
  dsimp only
  rw [if_pos rfl]
  rfl

lemma Fsdata.AfterGet.clean (hst : fs.AfterGet st clust st') : Clean disk st' := by
  rcases hst with rfl | rfl
  . exact h
  . exact h.getFatent clust

lemma Fsdata.AfterGet.getFatent (hst : fs.AfterGet st clust st') : fs.getFatent st' clust = fs.getFatent st clust := by
  rcases hst with rfl | rfl
  . rfl
  . exact getFatent_again h clust

end Table

section Names

def Lfn.Moves (fs : Fsdata) (bufs : Buffers) (disk : Nat → UInt8) (s : Nat × State) (st' : State) : Lfn → Prop
  | .fail (some clust) => fs.Linked s (clust, st')
  | .next _ clust block _ => fs.Linked s (clust, st') ∧ fs.getCluster disk clust bufs.vfatname = some block
  | _ => True

lemma longName_moves (bufs : Buffers) (h : Clean disk st) (hst : fs.AfterGet st clust st') (curclust : Nat)
    (block : Mem) (pos : Nat)
    : fs.AfterGet st clust (fs.longName bufs st' curclust clust block pos).2
      ∧ (fs.longName bufs st' curclust clust block pos).1.Moves fs bufs disk (clust, st)
        (fs.longName bufs st' curclust clust block pos).2 := by
  have hfat := hst.getFatent h
  have hdisk := (@Clean.getFatent fs st disk h clust).disk
  have hlinked (hcheck : ¬checkClust (fs.getFatent st clust).1 fs.fatsize = true)
      : fs.Linked (clust, st) (fs.getFatent st clust) := ⟨rfl, Bool.eq_false_of_not_eq_true hcheck⟩
  have hfetched : fs.AfterGet st clust (fs.getFatent st clust).2 := .inr rfl
  unfold longName
  rw [hfat]
  generalize fs.getFatent st clust = res at hlinked hfetched hdisk
  dsimp only
  generalize fs.sectSize * (if curclust = 0 then 2 else fs.clustSize) = limit
  split
  next => exact ⟨hst, trivial⟩
  split
  next => exact ⟨hst, trivial⟩
  split
  next => split <;> exact ⟨hst, trivial⟩
  split
  next => exact ⟨hst, trivial⟩
  split
  next => exact ⟨hfetched, trivial⟩
  next hcheck =>
  rw [hdisk]
  split
  next => exact ⟨hfetched, hlinked hcheck⟩
  next hblock =>
  split
  next => split
          next => exact ⟨hfetched, trivial⟩
          next => exact ⟨hfetched, hlinked hcheck, hblock⟩
  next => exact ⟨hfetched, hlinked hcheck⟩

lemma length_slot2str_le (slot : Nat → UInt8) : (slot2str slot).1.length ≤ 13 :=
  (List.takeWhile_prefix _).length_le

lemma collect_isSome {m : Mem} {k fuel pos : Nat} {lName : List UInt8} (hlast : m (32 * pos) &&& lastLongEntryMask ≠ 0)
    (hk : 0 < k) (hfuel : k ≤ fuel) (hlen : lName.length + 13 * k ≤ 255)
    : (collect m fuel (pos + k : Nat) lName).isSome := by
  induction k generalizing fuel lName with
  | zero => omega
  | succ k ih =>
    cases fuel with
    | zero => omega
    | succ fuel =>
      have hchars := length_slot2str_le (entryAt m ((pos + (k + 1) : Nat) - 1))
      have hprev : ((pos + (k + 1) : Nat) : Int) - 1 = (pos + k : Nat) := by omega
      rw [collect]
      rw [hprev] at hchars ⊢
      dsimp only
      rw [List.length_append, if_neg (by omega)]
      split
      next => rfl
      next hon =>
      cases k with
      | zero => exact absurd (.inr hlast) hon
      | succ k =>
        apply ih (by omega) (by omega)
        rw [List.length_append]
        omega

lemma walkSlots_spec {m : Mem} {limit counter counter' e e' : Nat} (h : walkSlots m limit counter e = some (counter', e'))
    : counter' ≤ counter ∧ e' = e + (counter - counter') ∧ (32 * e' < limit → counter' = 0)
      ∧ (32 * e < limit → 0 < counter → e < e') := by
  induction counter generalizing e with
  | zero =>
    cases h
    exact ⟨le_rfl, rfl, fun _ => rfl, fun _ h => absurd h (lt_irrefl 0)⟩
  | succ counter ih =>
    rw [walkSlots] at h
    split at h
    next hlimit =>
      cases h
      exact ⟨le_rfl, by omega, fun hlt => by omega, fun hlt _ => by omega⟩
    next hlimit =>
    split at h
    next => contradiction
    next =>
    obtain ⟨hle, he, hzero, _⟩ := ih h
    exact ⟨by omega, by omega, hzero, fun _ _ => by omega⟩

-- A slot with the number 0 has no slot of its name in front of the short entry.
def bareSlot : UInt8 := 0x40

lemma slotId_ne_zero {m : Mem} {pos : Nat} (hlast : m (32 * pos) &&& lastLongEntryMask ≠ 0)
    (hbare : m (32 * pos) ≠ bareSlot)
    : slotId m pos ≠ 0 := by
  have hall : ∀ b : Fin 256, UInt8.ofFin b &&& lastLongEntryMask ≠ 0 → UInt8.ofFin b ≠ bareSlot →
      (UInt8.ofFin b &&& ~~~lastLongEntryMask).toNat ≠ 0 := by
    decide +kernel
  exact hall (m (32 * pos)).toFin hlast hbare

lemma longName_ne_overrun {block : Mem} {pos curclust : Nat} (hlast : block (32 * pos) &&& lastLongEntryMask ≠ 0)
    (hbare : block (32 * pos) ≠ bareSlot) (hpos : curclust ≠ 0 → 32 * pos < fs.sectSize * fs.clustSize) (fatClust : Nat)
    : (fs.longName bufs st curclust fatClust block pos).1 ≠ .overrun := by
  have hid := slotId_ne_zero hlast hbare
  have hlow : curclust ≠ 0 → 32 * pos < fs.sectSize * (if curclust = 0 then 2 else fs.clustSize) := by
    intro hclust
    rw [if_neg hclust]
    exact hpos hclust
  unfold longName
  dsimp only
  generalize fs.sectSize * (if curclust = 0 then 2 else fs.clustSize) = limit at hlow
  split
  next => exact Lfn.noConfusion
  next hnine =>
  split
  next => exact Lfn.noConfusion
  next counter e hwalk =>
  obtain ⟨hle, he, hzero, hmoved⟩ := walkSlots_spec hwalk
  split
  next hhere =>
    have hcollect := @collect_isSome block (e - pos) 20 pos [] hlast (by have := hzero hhere; omega) (by omega)
      (by rw [List.length_nil]; omega)
    rw [Nat.add_sub_cancel' (by omega)] at hcollect
    split
    next hnone =>
      rw [hnone] at hcollect
      contradiction
    next => exact Lfn.noConfusion
  split
  next => exact Lfn.noConfusion
  next hclust =>
  split
  next => exact Lfn.noConfusion
  split
  next => exact Lfn.noConfusion
  next block2 _ =>
  split
  next =>
    have hfirst : ((List.range counter).reverse.flatMap fun (k : Nat) => (slot2str (entryAt block2 k)).1).length
        ≤ 13 * counter := by
      have hsum := List.sum_le_card_nsmul ((List.range counter).reverse.map fun (k : Nat) =>
        (slot2str (entryAt block2 k)).1.length) 13 (by simp [length_slot2str_le])
      rw [List.length_map, List.length_reverse, List.length_range, smul_eq_mul] at hsum
      rw [List.length_flatMap]
      omega
    have hlt := hmoved (hlow hclust) (by omega)
    generalize ((List.range counter).reverse.flatMap fun (k : Nat) => (slot2str (entryAt block2 k)).1) = first at hfirst
    have hcollect := @collect_isSome block (e - pos) 20 pos first hlast (by omega) (by omega) (by omega)
    rw [Nat.add_sub_cancel' (by omega)] at hcollect
    split
    next hnone =>
      rw [hnone] at hcollect
      contradiction
    next => exact Lfn.noConfusion
  next => exact Lfn.noConfusion

end Names

/-- No entry from `i` on is a long name slot with the number 0, behind which `l_name` would be overrun. -/
def Tidy (block : Mem) (entries i : Nat) : Prop :=
  ∀ j : Nat, i ≤ j → j < entries → block (32 * j) = bareSlot → block (32 * j + 11) &&& attrVolume = 0

section Scan

variable {block : Mem} {entries n i : Nat} {q : Query}

lemma Tidy.mono {i' : Nat} (h : Tidy block entries i) (hle : i ≤ i') : Tidy block entries i' :=
  fun j hj => h j (hle.trans hj)

lemma Tidy.copyEntry (h : Tidy block entries i) (dent : Nat → UInt8)
    : Tidy (Fat.copyEntry block i dent) entries (i + 1) := by
  intro j hj hlt hbare
  unfold Fat.copyEntry at hbare ⊢
  rw [if_neg (by omega)] at hbare ⊢
  exact h j (by omega) hlt hbare

lemma Tidy.ne_overrun (h : Tidy block entries i) (bufs : Buffers) (st : State) (curclust fatClust : Nat)
    (hi : i < entries) (hpos : curclust ≠ 0 → 32 * entries ≤ fs.sectSize * fs.clustSize)
    (hvolume : entryAt block i 11 &&& attrVolume ≠ 0) (hlast : entryAt block i 0 &&& lastLongEntryMask ≠ 0)
    : (fs.longName bufs st curclust fatClust block i).1 ≠ .overrun := by
  unfold entryAt at hvolume hlast
  apply longName_ne_overrun
  . simpa using hlast
  . intro hbare
    exact hvolume (h i le_rfl hi hbare)
  . intro hclust
    have := hpos hclust
    omega

lemma getVfatname_spec (h : Clean disk st) (hst : fs.AfterGet st clust st') (htidy : Tidy block entries i)
    (hnot : (fs.longName bufs st' clust clust block i).1 ≠ .overrun)
    : ∃ lName block' st1, fs.getVfatname bufs st' clust block i = (some (lName, block'), st1)
      ∧ fs.AfterGet st clust st1 ∧ Tidy block' entries (i + 1) := by
  have hstate := (longName_moves bufs h hst clust block i).1
  unfold getVfatname
  generalize fs.longName bufs st' clust clust block i = res at hnot hstate
  obtain ⟨lfn, st1⟩ := res
  cases lfn with
  | overrun => exact absurd rfl hnot
  | fail moved => exact ⟨_, _, _, rfl, hstate, htidy.mono (by omega)⟩
  | here lName real => exact ⟨_, _, _, rfl, hstate, htidy.copyEntry _⟩
  | next lName clust block2 real => exact ⟨_, _, _, rfl, hstate, htidy.copyEntry _⟩

lemma scan_spec (bufs : Buffers) (q : Query) (h : Clean disk st) (hst : fs.AfterGet st clust st')
    (hpos : clust ≠ 0 → 32 * entries ≤ fs.sectSize * fs.clustSize) (htidy : Tidy block entries i) (hn : i + n ≤ entries)
    : fs.AfterGet st clust (fs.scan bufs q clust n i block st').2
      ∧ (fs.scan bufs q clust n i block st').1 ≠ .overrun := by
  induction n generalizing i block st' with
  | zero => exact ⟨hst, Scan.noConfusion⟩
  | succ n ih =>
    have hskip := ih hst (htidy.mono (Nat.le_succ i)) (by omega)
    unfold scan
    dsimp only
    split
    next => exact hskip
    split
    next hvolume =>
      split
      next hlfn =>
        obtain ⟨lName, block', st1, hget, hst1, htidy'⟩ := getVfatname_spec h hst htidy
          (htidy.ne_overrun bufs st' clust clust (by omega) hpos hvolume hlfn.2)
        have hnext := ih hst1 htidy' (by omega)
        rw [hget]
        dsimp only
        repeat' split
        all_goals first | exact hnext | exact ⟨hst1, Scan.noConfusion⟩
      next => exact hskip
    repeat' split
    all_goals first | exact hskip | exact ⟨hst, Scan.noConfusion⟩

end Scan

def Moved (fs : Fsdata) (disk : Nat → UInt8) (s : Nat × State) (d : Nat) (st' : State) : Prop :=
  ∃ st, ReflTransGen fs.Linked s (d, st) ∧ Clean disk st ∧ fs.AfterGet st d st'

def Fsdata.TidySectors (fs : Fsdata) (disk : Nat → UInt8) (sect n entries : Nat) : Prop :=
  ∀ around block, fs.readSectors disk sect n around = some block → Tidy block entries 0

def Fsdata.TidyCluster (fs : Fsdata) (disk : Nat → UInt8) (clust : Nat) : Prop :=
  fs.TidySectors disk (fs.startsect clust) fs.clustSize fs.direntsperclust

section FindScan

variable {block : Mem} {n d dirCurclust : Nat} {filename : List UInt8} {s : Nat × State}

def Find.Good (fs : Fsdata) (disk : Nat → UInt8) (s : Nat × State) (res : Find × State) : Prop :=
  res.1 ≠ .overrun ∧ ∀ d, res.1 = .on d → Moved fs disk s d res.2

lemma Find.good_on (h : Moved fs disk s d st') : Find.Good fs disk s (.on d, st') := by
  refine ⟨Find.noConfusion, ?_⟩
  intro d' heq
  cases heq
  exact h

lemma Moved.clean (h : Moved fs disk s d st') : Clean disk st' := by
  obtain ⟨st, _, hclean, hst⟩ := h
  exact hst.clean hclean

lemma Tidy.replace {block2 : Mem} {entries : Nat} (h : Tidy block2 entries 0)
    : Tidy (fun a => if 0 ≤ a ∧ a < (32 * entries : Nat) then block2 a else block a) entries 0 := by
  intro j hj hlt
  dsimp only
  rw [if_pos (by omega), if_pos (by omega)]
  exact h j hj hlt

lemma findScan_good (hsect : 32 ∣ fs.sectSize)
    (htidies : ∀ c st, ReflTransGen fs.Linked s (c, st) → fs.TidyCluster disk c)
    (hst : Moved fs disk s dirCurclust st') (htidy : Tidy block fs.direntsperclust 0) (hd : d < fs.direntsperclust)
    : Find.Good fs disk s (fs.findScan bufs filename clust n d dirCurclust block st') := by
  have hsize : 32 * fs.direntsperclust = fs.clustSize * fs.sectSize := Nat.mul_div_cancel' (hsect.mul_left _)
  induction n generalizing d dirCurclust block st' with
  | zero => exact Find.good_on hst
  | succ n ih =>
    have hnext {e dc : Nat} {b : Mem} {st1 : State} (hst1 : Moved fs disk s dc st1)
        (hb : Tidy b fs.direntsperclust 0)
        : Find.Good fs disk s (if fs.clustSize * fs.sectSize ≤ 32 * (e + 1) then (.on dc, st1)
          else fs.findScan bufs filename clust n (e + 1) dc b st1) := by
      split
      . exact Find.good_on hst1
      . exact ih hst1 hb (by omega)
    have hdone {st1 : State} {res : Find} (hover : res ≠ .overrun) (hon : ∀ d, res ≠ .on d)
        : Find.Good fs disk s (res, st1) :=
      ⟨hover, fun d heq => absurd heq (hon d)⟩
    unfold findScan
    dsimp only
    split
    next => exact hnext hst htidy
    split
    next hvolume =>
      split
      next hlfn =>
        obtain ⟨st0, hreach, hclean, hafter⟩ := hst
        have hmoves := longName_moves bufs hclean hafter clust block d
        have hnot := (htidy.mono (Nat.zero_le d)).ne_overrun bufs st' clust dirCurclust hd
          (fun _ => by rw [hsize, Nat.mul_comm]) hvolume hlfn.2
        generalize fs.longName bufs st' clust dirCurclust block d = res at hmoves hnot
        obtain ⟨lfn, st1⟩ := res
        obtain ⟨hst1, hmoves⟩ := hmoves
        have hclean1 : Clean disk st1 := hst1.clean hclean
        have hstay : Moved fs disk s dirCurclust st1 := ⟨st0, hreach, hclean, hst1⟩
        have hmove {c : Nat} (hlinked : fs.Linked (dirCurclust, st0) (c, st1)) : Moved fs disk s c st1 :=
          ⟨st1, hreach.tail hlinked, hclean1, .inl rfl⟩
        cases lfn with
        | overrun => exact absurd rfl hnot
        | fail moved =>
          have hmoved : Moved fs disk s (moved.getD dirCurclust) st1 := by
            cases moved with
            | none => exact hstay
            | some c => exact hmove hmoves
          dsimp only
          repeat' split
          all_goals first | exact Find.good_on hmoved | exact ih hmoved htidy (by omega) | exact hdone nofun nofun
        | here lName real =>
          dsimp only
          repeat' split
          all_goals first | exact Find.good_on hstay | exact ih hstay htidy (by omega) | exact hdone nofun nofun
        | next lName c block2 real =>
          have hmoved := hmove hmoves.1
          have htidy2 : Tidy block2 fs.direntsperclust 0 := htidies c st1 (hreach.tail hmoves.1) _ _ hmoves.2
          have htidy3 := @Tidy.replace block block2 _ htidy2
          rw [hsize] at htidy3
          dsimp only
          repeat' split
          all_goals first | exact Find.good_on hmoved | exact ih hmoved htidy3 (by omega) | exact hdone nofun nofun
      next => exact hnext hst htidy
    repeat' split
    all_goals first | exact Find.good_on hst | exact ih hst htidy (by omega) | exact hdone nofun nofun

end FindScan

structure Fsdata.GoodChain (fs : Fsdata) (disk fatbuf : Nat → UInt8) (start : Nat) : Prop where
  ends : Ends fs.Linked (start, { disk, fatbuf })
  tidy : ∀ c st, ReflTransGen fs.Linked (start, { disk, fatbuf }) (c, st) → fs.TidyCluster disk c

section Loops

variable {entries : Nat} {q : Query} {filename : List UInt8}

lemma dirStep_spec (bufs : Buffers) (q : Query) {sect : Nat} {s : Nat × State} (h : Clean disk s.2)
    (htidy : fs.TidySectors disk sect fs.clustSize entries)
    (hpos : 32 * entries ≤ fs.sectSize * fs.clustSize)
    : (∃ res, fs.dirStep bufs q entries (sect, s) = .done res ∧ res ≠ .overrun)
      ∨ ∃ t, fs.dirStep bufs q entries (sect, s) = .again (fs.startsect t.1, t) ∧ fs.Linked s t := by
  obtain ⟨clust, st⟩ := s
  unfold dirStep
  dsimp only
  rw [h.disk]
  cases hread : fs.readSectors disk sect fs.clustSize bufs.block with
  | none => exact .inl ⟨_, rfl, Scan.noConfusion⟩
  | some block =>
    obtain ⟨hst, hnot⟩ := @scan_spec fs st st disk clust block entries entries 0 bufs q h (.inl rfl) (fun _ => hpos)
      (htidy _ _ hread) (by omega)
    have hfat := hst.getFatent h
    dsimp only
    generalize fs.scan bufs q clust entries 0 block st = res at hst hnot hfat
    obtain ⟨res, st'⟩ := res
    dsimp only at hst hnot hfat
    cases res with
    | overrun => exact absurd rfl hnot
    | found dent => exact .inl ⟨_, rfl, Scan.noConfusion⟩
    | stop => exact .inl ⟨_, rfl, Scan.noConfusion⟩
    | on block' =>
      dsimp only
      rw [hfat]
      split
      next => exact .inl ⟨_, rfl, Scan.noConfusion⟩
      next hcheck => exact .inr ⟨_, rfl, rfl, Bool.eq_false_of_not_eq_true hcheck⟩

lemma dirLoop_returns {sect : Nat} {s : Nat × State} (hends : Ends fs.Linked s) (h : Clean disk s.2)
    (hpos : 32 * entries ≤ fs.sectSize * fs.clustSize) (hfirst : fs.TidySectors disk sect fs.clustSize entries)
    (htidy : ∀ c st, ReflTransGen fs.Linked s (c, st) → fs.TidySectors disk (fs.startsect c) fs.clustSize entries)
    : ∃ fuel res, run (fs.dirStep bufs q entries) fuel (sect, s) = some res ∧ res ≠ .overrun := by
  induction hends generalizing sect with
  | intro s _ ih =>
    rcases dirStep_spec bufs q h hfirst hpos with ⟨res, hstep, hne⟩ | ⟨t, hstep, hlinked⟩
    . exact ⟨1, res, by simp [run, hstep], hne⟩
    have hclean : Clean disk t.2 := by
      rw [← hlinked.1]
      exact h.getFatent s.1
    obtain ⟨fuel, res, hrun, hne⟩ := ih t hlinked hclean (htidy t.1 t.2 (.single hlinked))
      fun c st hreach => htidy c st (.head hlinked hreach)
    refine ⟨fuel + 1, res, ?_, hne⟩
    rw [run, hstep]
    exact hrun

lemma rootStep_spec (bufs : Buffers) (q : Query) (rootdirSize : Nat)
    (htidy : ∀ cnt, fs.TidySectors disk (fs.rootdirSect + cnt) 2 fs.direntsperblock) (cnt : Nat) (block : Mem)
    (h : Clean disk st)
    : (∃ res, fs.rootStep bufs q rootdirSize (cnt, block, st) = .done res ∧ res ≠ .overrun)
      ∨ ∃ block' st', fs.rootStep bufs q rootdirSize (cnt, block, st) = .again (cnt + 1, block', st')
        ∧ cnt + 1 < rootdirSize ∧ Clean disk st' := by
  unfold rootStep
  dsimp only
  rw [h.disk]
  split
  next => exact .inl ⟨_, rfl, Scan.noConfusion⟩
  next dir hread =>
  obtain ⟨hst, hnot⟩ := @scan_spec fs st st disk 0 dir fs.direntsperblock fs.direntsperblock 0 bufs q h (.inl rfl)
    (fun hne => absurd rfl hne) (htidy cnt _ _ hread) (by omega)
  have hclean := hst.clean h
  generalize fs.scan bufs q 0 fs.direntsperblock 0 dir st = res at hnot hclean
  obtain ⟨res, st'⟩ := res
  cases res with
  | overrun => exact absurd rfl hnot
  | found dent => exact .inl ⟨_, rfl, Scan.noConfusion⟩
  | stop => exact .inl ⟨_, rfl, Scan.noConfusion⟩
  | on block' =>
    dsimp only
    split
    next => exact .inl ⟨_, rfl, Scan.noConfusion⟩
    next hlt => exact .inr ⟨_, _, rfl, Nat.lt_of_not_le hlt, hclean⟩

lemma rootLoop_returns {rootdirSize : Nat} (htidy : ∀ cnt,
    fs.TidySectors disk (fs.rootdirSect + cnt) 2 fs.direntsperblock)
    {cnt : Nat} {block : Mem} (h : Clean disk st)
    : ∃ fuel res, run (fs.rootStep bufs q rootdirSize) fuel (cnt, block, st) = some res ∧ res ≠ .overrun := by
  induction hn : rootdirSize - cnt using Nat.strongRecOn generalizing cnt block st with
  | ind n ih =>
    rcases rootStep_spec bufs q rootdirSize htidy cnt block h with ⟨res, hstep, hne⟩ | ⟨block', st', hstep, hlt, hclean⟩
    . exact ⟨1, res, by simp [run, hstep], hne⟩
    obtain ⟨fuel, res, hrun, hne⟩ := @ih (rootdirSize - (cnt + 1)) (by omega) st' (cnt + 1) block' hclean rfl
    refine ⟨fuel + 1, res, ?_, hne⟩
    rw [run, hstep]
    exact hrun

-- The root directory of FAT12 and FAT16 is counted through with numbers up to 1, as an `int`.
def Fsdata.Counted (fs : Fsdata) (clust : Nat) : Prop := fs.fatsize ≠ .fat32 ∧ Int.bmod clust (2 ^ 32) ≤ 1

lemma bmod_natCast (h : clust < 2 ^ 32)
    : Int.bmod clust (2 ^ 32) = if clust < 2 ^ 31 then (clust : Int) else clust - 2 ^ 32 := by
  have hmod : (clust : Int) % (2 ^ 32 : Nat) = clust := Int.emod_eq_of_lt (by omega) (by omega)
  rw [Int.bmod_def, hmod]
  split <;> split <;> omega

lemma checkClust_of_counted (hlt : clust < 2 ^ 32) (h : fs.Counted clust) : checkClust clust fs.fatsize = true := by
  have hreserved : fs.fatsize.reserved ≤ 2 ^ 31 := by cases fs.fatsize <;> decide
  have hbmod := h.2
  unfold checkClust
  rw [Bool.or_eq_true, decide_eq_true_eq, decide_eq_true_eq]
  rw [Int.bmod_def] at hbmod
  split at hbmod <;> omega

lemma not_counted_of_checkClust (h : checkClust clust fs.fatsize = false) : ¬fs.Counted clust := by
  rintro ⟨_, hbmod⟩
  have hreserved : fs.fatsize.reserved ≤ 2 ^ 31 := by cases fs.fatsize <;> decide
  unfold checkClust at h
  rw [Bool.or_eq_false_iff, decide_eq_false_iff_not, decide_eq_false_iff_not] at h
  rw [Int.bmod_def] at hbmod
  split at hbmod <;> omega

lemma direntsperclust_pos (hsect : 32 ∣ fs.sectSize) : 0 < fs.direntsperclust := by
  have hle := Nat.le_of_dvd fs.sectSize_pos hsect
  have hmul := Nat.mul_le_mul fs.clustSize_pos hle
  unfold direntsperclust
  omega

lemma findStep_spec (bufs : Buffers) (filename : List UInt8) (hsect : 32 ∣ fs.sectSize) {s : Nat × State}
    (h : Clean disk s.2) (htidies : ∀ c st, ReflTransGen fs.Linked s (c, st) → fs.TidyCluster disk c)
    : (∃ res, fs.findStep bufs filename s = .done res ∧ res ≠ .overrun)
      ∨ (∃ t, fs.findStep bufs filename s = .again t ∧ Clean disk t.2
        ∧ (¬fs.Counted s.1 ∧ TransGen fs.Linked s t
          ∨ fs.Counted s.1 ∧ t.1 = (s.1 + 1) % 2 ^ 32 ∧ fs.Counted t.1)) := by
  obtain ⟨clust, st⟩ := s
  have htidy := htidies clust st .refl
  unfold findStep
  dsimp only at h ⊢
  rw [h.disk]
  cases hread : fs.getCluster disk clust bufs.block with
  | none => exact .inl ⟨_, rfl, Find.noConfusion⟩
  | some block =>
    have hgood := @findScan_good fs bufs st disk clust block fs.direntsperclust 0 clust filename (clust, st) hsect htidies
      ⟨st, .refl, h, .inl rfl⟩ (htidy _ _ hread) (direntsperclust_pos hsect)
    dsimp only
    generalize fs.findScan bufs filename clust fs.direntsperclust 0 clust block st = res at hgood
    obtain ⟨res, st'⟩ := res
    cases res with
    | overrun => exact absurd rfl hgood.1
    | found dent => exact .inl ⟨_, rfl, Find.noConfusion⟩
    | stop => exact .inl ⟨_, rfl, Find.noConfusion⟩
    | on d =>
      have hmoved := hgood.2 d rfl
      have hclean := hmoved.clean
      obtain ⟨st1, hreach, hclean1, hst'⟩ := hmoved
      have hfat := hst'.getFatent hclean1
      dsimp only
      split
      next hcounted =>
        split
        next hnext => exact .inr ⟨_, rfl, hclean, .inr ⟨hcounted, rfl, hcounted.1, hnext⟩⟩
        next => exact .inl ⟨_, rfl, Find.noConfusion⟩
      next hcounted =>
      rw [hfat]
      split
      next => exact .inl ⟨_, rfl, Find.noConfusion⟩
      next hcheck =>
      rw [Bool.or_eq_true, not_or] at hcheck
      have hlinked : fs.Linked (d, st1) (fs.getFatent st1 d) := ⟨rfl, Bool.eq_false_of_not_eq_true hcheck.2⟩
      exact .inr ⟨_, rfl, hclean1.getFatent d, .inl ⟨hcounted, .tail' hreach hlinked⟩⟩

lemma findLoop_returns (hsect : 32 ∣ fs.sectSize) {s : Nat × State} (hends : Ends fs.Linked s) (h : Clean disk s.2)
    (hcounted : ¬fs.Counted s.1) (htidies : ∀ c st, ReflTransGen fs.Linked s (c, st) → fs.TidyCluster disk c)
    : ∃ fuel res, run (fs.findStep bufs filename) fuel s = some res ∧ res ≠ .overrun := by
  have hacc := hends.transGen
  clear hends
  induction hacc with
  | intro s _ ih =>
    rcases findStep_spec bufs filename hsect h htidies with ⟨res, hstep, hne⟩ | ⟨t, hstep, hclean, hcases⟩
    . exact ⟨1, res, by simp [run, hstep], hne⟩
    have hlinked := (hcases.resolve_right fun hc => hcounted hc.1).2
    have hvalid : ¬fs.Counted t.1 := by
      obtain ⟨_, _, hlast⟩ := TransGen.tail'_iff.mp hlinked
      exact not_counted_of_checkClust hlast.2
    obtain ⟨fuel, res, hrun, hne⟩ := ih t (transGen_swap.mpr hlinked) hclean hvalid
      fun c st hreach => htidies c st (hlinked.to_reflTransGen.trans hreach)
    refine ⟨fuel + 1, res, ?_, hne⟩
    rw [run, hstep]
    exact hrun

lemma not_linked_of_counted (hlt : clust < 2 ^ 32) (h : fs.Counted clust) (t : Nat × State)
    : ¬fs.Linked (clust, st) t := by
  rintro ⟨heq, hcheck⟩
  have hzero : fs.getFatent st clust = (0, st) := by
    unfold getFatent
    rw [if_pos (checkClust_of_counted hlt h)]
  dsimp only at heq
  rw [← heq, hzero] at hcheck
  contradiction

lemma findLoop_returns_counted (hsect : 32 ∣ fs.sectSize) (hlt : clust < 2 ^ 32) (h : Clean disk st)
    (hcounted : fs.Counted clust)
    (htidy : ∀ k : Nat, Int.bmod clust (2 ^ 32) + k ≤ 1 → fs.TidyCluster disk ((clust + k) % 2 ^ 32))
    : ∃ fuel res, run (fs.findStep bufs filename) fuel (clust, st) = some res ∧ res ≠ .overrun := by
  induction hn : (1 - Int.bmod clust (2 ^ 32)).toNat using Nat.strongRecOn generalizing clust st with
  | ind n ih =>
    have htidies : ∀ c st1, ReflTransGen fs.Linked (clust, st) (c, st1) → fs.TidyCluster disk c := by
      intro c st1 hreach
      cases ReflTransGen.cases_head hreach with
      | inl heq =>
        cases heq
        have hself := htidy 0 (by have := hcounted.2; omega)
        rw [Nat.add_zero, Nat.mod_eq_of_lt hlt] at hself
        exact hself
      | inr hhead =>
        obtain ⟨t, hlinked, _⟩ := hhead
        exact absurd hlinked (not_linked_of_counted hlt hcounted t)
    rcases findStep_spec bufs filename hsect h htidies with ⟨res, hstep, hne⟩ | ⟨t, hstep, hclean, hcases⟩
    . exact ⟨1, res, by simp [run, hstep], hne⟩
    obtain ⟨_, ht, hcounted'⟩ := hcases.resolve_left fun hc => hc.1 hcounted
    obtain ⟨clust', st'⟩ := t
    dsimp only at ht hcounted' hclean
    have hlt' : clust' < 2 ^ 32 := by omega
    have hle := hcounted.2
    have hnext : Int.bmod clust' (2 ^ 32) = Int.bmod clust (2 ^ 32) + 1 := by
      rw [bmod_natCast hlt] at hle ⊢
      rw [bmod_natCast hlt', ht]
      split_ifs at hle ⊢ <;> omega
    have hless : (1 - Int.bmod clust' (2 ^ 32)).toNat < n := by
      have := hcounted'.2
      omega
    have htidy' : ∀ k : Nat, Int.bmod clust' (2 ^ 32) + k ≤ 1 → fs.TidyCluster disk ((clust' + k) % 2 ^ 32) := by
      intro k hk
      have hmore := htidy (k + 1) (by omega)
      have heq : (clust + (k + 1)) % 2 ^ 32 = (clust' + k) % 2 ^ 32 := by omega
      rw [heq] at hmore
      exact hmore
    obtain ⟨fuel, res, hrun, hne⟩ := ih _ hless hlt' hclean hcounted' htidy' rfl
    refine ⟨fuel + 1, res, ?_, hne⟩
    rw [run, hstep]
    exact hrun

end Loops

lemma tidySectors_deleted {sect n entries : Nat} (hdisk : ∀ i, sect * 512 ≤ i → disk i = deletedFlag)
    (hentries : entries ≤ 16 * n) : smallFat12.TidySectors disk sect n entries := by
  intro around block hread j _ hlt hbare
  obtain ⟨buf, hbuf, rfl⟩ := Option.map_eq_some_iff.mp hread
  unfold diskRead at hbuf
  split at hbuf
  next => contradiction
  cases hbuf
  have hsize : smallFat12.sectSize = 512 := rfl
  dsimp only at hbare
  rw [if_pos (by omega), hsize, if_pos (by omega), hdisk _ (by omega)] at hbare
  contradiction

-- The cluster 2 is followed by the cluster 3, the last one.
def twoClusters (i : Nat) : UInt8 :=
  if i = 515 then 3 else if i = 516 then 0xf0 else if i = 517 then 0xff else deletedFlag

lemma tidyCluster_twoClusters (h : clust = 2 ∨ clust = 3) : smallFat12.TidyCluster twoClusters clust := by
  apply tidySectors_deleted
  . intro i hi
    have hsect : 4 ≤ smallFat12.startsect clust := by
      rcases h with rfl | rfl
      . decide
      . decide
    unfold twoClusters
    rw [if_neg (by omega), if_neg (by omega), if_neg (by omega)]
  . decide

lemma linked_twoClusters {t : Nat × State} (h : smallFat12.Linked (2, ⟨twoClusters, fun _ => 0, none, false⟩) t)
    : t.1 = 3 ∧ ∀ u, ¬smallFat12.Linked t u := by
  obtain ⟨rfl, _⟩ := h
  refine ⟨by decide +kernel, ?_⟩
  rintro u ⟨rfl, hcheck⟩
  revert hcheck
  decide +kernel

lemma goodChain_twoClusters : smallFat12.GoodChain twoClusters (fun _ => 0) 2 := by
  constructor
  . apply Acc.intro
    intro t ht
    apply Acc.intro
    intro u hu
    exact absurd hu ((linked_twoClusters ht).2 u)
  intro c st hreach
  apply tidyCluster_twoClusters
  rcases ReflTransGen.cases_head hreach with heq | ⟨t, ht, hreach⟩
  . cases heq
    exact .inl rfl
  obtain ⟨hthree, hlast⟩ := linked_twoClusters ht
  rcases ReflTransGen.cases_head hreach with rfl | ⟨u, hu, _⟩
  . exact .inr hthree
  . exact absurd hu (hlast u)

lemma scan_deleted {block : Mem} (h : ∀ i : Nat, block (32 * i) = deletedFlag) (q : Query) (curclust n i : Nat)
    : fs.scan bufs q curclust n i block st = (.on block, st) := by
  induction n generalizing i with
  | zero => rfl
  | succ n ih =>
    have hdent : entryAt block i 0 = deletedFlag := by simpa [entryAt] using h i
    unfold Fsdata.scan
    simp only [hdent, if_true]
    apply ih

def selfLinked (i : Nat) : UInt8 := if i = 515 then 2 else if i = 516 then 0 else deletedFlag

lemma dirStep_selfLinked {q : Query} {entries : Nat} (hdisk : st.disk = selfLinked)
    (hfat : (smallFat12.getFatent st 2).1 = 2)
    : smallFat12.dirStep ⟨fun _ => deletedFlag, fun _ => 0⟩ q entries (4, 2, st)
      = .again (4, 2, (smallFat12.getFatent st 2).2) := by
  have hread : smallFat12.readSectors selfLinked 4 1 (fun _ => deletedFlag) = some fun _ => deletedFlag := by
    have hdeleted : ∀ i, selfLinked (4 * 512 + i) = deletedFlag := by
      intro i
      rw [selfLinked, if_neg (by omega), if_neg (by omega)]
    simp [readSectors, diskRead, smallFat12, hdeleted]
  have hscan := @scan_deleted smallFat12 ⟨fun _ => deletedFlag, fun _ => 0⟩ st (fun _ => deletedFlag)
    (fun _ => rfl) q 2 entries 0
  unfold dirStep
  simp only [hdisk, smallFat12] at hread hscan hfat ⊢
  simp only [hread, hscan, hfat]
  rfl

end UBoot.Fat
