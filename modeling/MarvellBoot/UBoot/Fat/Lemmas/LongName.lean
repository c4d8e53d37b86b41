import MarvellBoot.UBoot.Fat.Dir
import MarvellBoot.UBoot.Fat.Lemmas.Cache

namespace UBoot.Fat

open Fsdata List

def Printable (c : UInt8) : Prop := 0x20 ≤ c ∧ c ≤ 0x7e

instance (c : UInt8) : Decidable (Printable c) :=
  inferInstanceAs (Decidable (_ ∧ _))

def numSlots (name : List UInt8) : Nat := (name.length + 12) / 13

def Lfn.Decodes (name : List UInt8) : Lfn → Prop
  | .here lName _ => lName = name.map tolower
  | .next lName _ _ _ => lName = name.map tolower
  | _ => False

/--
The clusters behind the first one are the next ones of the chain. The root directory has none if it is not in clusters, then
the two sectors that are looked at hold the short entry.
-/
def Fsdata.Follows (fs : Fsdata) (bufs : Buffers) (st : State) (curclust fatClust real : Nat) : List Mem → Prop
  | [] => curclust = 0 → 32 * real < 2 * fs.sectSize
  | second :: _ => curclust ≠ 0 ∧ checkClust (fs.getFatent st fatClust).1 fs.fatsize = false ∧
    ∃ block, fs.getCluster (fs.getFatent st fatClust).2.disk (fs.getFatent st fatClust).1 bufs.vfatname = some block ∧
      ∀ a : Int, 0 ≤ a → a < (fs.clustSize * fs.sectSize : Nat) → block a = second a

section Slot

variable {name : List UInt8} (checksum : UInt8)

lemma takeWhile_unit (h : ∀ c ∈ name, c ≠ 0) (n : Nat)
    : ((range n).map (unit name)).takeWhile (· ≠ 0) = name.take n := by
  induction name generalizing n with
  | nil =>
    cases n with
    | zero => rfl
    | succ n => simp [range_succ_eq_map, unit]
  | cons c name ih =>
    rw [forall_mem_cons] at h
    cases n with
    | zero => rfl
    | succ n =>
      have hunit : unit (c :: name) ∘ Nat.succ = unit name := by
        funext k
        simp [unit]
      have hhead : unit (c :: name) 0 = c := rfl
      rw [range_succ_eq_map, map_cons, map_map, hunit, hhead, takeWhile_cons, take_succ_cons, ih h.2]
      simp [h.1]

lemma contains_unit (h : ∀ c ∈ name, c ≠ 0) (n : Nat)
    : ((range n).map (unit name)).contains 0 = decide (name.length < n) := by
  rw [Bool.eq_iff_iff, contains_iff_mem, decide_eq_true_iff, mem_map]
  constructor
  . intro ⟨k, hk, hunit⟩
    rw [mem_range] at hk
    by_contra hlen
    have hlt : k < name.length := by omega
    rw [unit, getD_eq_getElem _ _ hlt] at hunit
    exact h _ (getElem_mem hlt) hunit
  . intro hlen
    refine ⟨name.length, mem_range.mpr hlen, ?_⟩
    rw [unit, getD_eq_default _ _ le_rfl, if_pos rfl]

lemma slot2str_congr {slot slot' : Nat → UInt8} (h : ∀ j < 32, slot j = slot' j) : slot2str slot = slot2str slot' := by
  have hmap : slotChars.map slot = slotChars.map slot' := by
    apply map_congr_left
    intro j hj
    have hlt : ∀ j ∈ slotChars, j < 32 := by decide
    exact h j (hlt j hj)
  rw [slot2str, hmap, slot2str]

lemma slot2str_dirSlot (h : ∀ c ∈ name, c ≠ 0) (id checksum : UInt8)
    : slot2str (dirSlot id checksum name) = (name.take 13, decide (name.length < 13)) := by
  have hmap : slotChars.map (dirSlot id checksum name) = (range 13).map (unit name) := rfl
  rw [slot2str, hmap, takeWhile_unit h, contains_unit h]

-- The slot with the number `i + 1`.
def slotOf (checksum : UInt8) (name : List UInt8) (i : Nat) : Nat → UInt8 :=
  dirSlot (UInt8.ofNat (i + 1) ||| if name.length ≤ 13 * (i + 1) then lastLongEntryMask else 0) checksum
    (name.drop (13 * i))

lemma slots_eq {room counter : Nat} (hpos : 13 * counter < name.length)
    (hlen : name.length ≤ 13 * (counter + room))
    : slots checksum room counter (name.drop (13 * counter)) =
      some ((range' counter (numSlots name - counter)).map (slotOf checksum name)) := by
  induction room generalizing counter with
  | zero => omega
  | succ room ih =>
    have hdrop : (name.drop (13 * counter)).drop 13 = name.drop (13 * (counter + 1)) := by
      rw [drop_drop]
      rfl
    have hnum : numSlots name - counter = numSlots name - (counter + 1) + 1 := by
      unfold numSlots
      omega
    rw [slots, length_drop, hdrop, hnum, range'_succ, map_cons, slotOf]
    split
    next hlast =>
      have hzero : numSlots name - (counter + 1) = 0 := by
        unfold numSlots
        omega
      rw [if_pos (by omega), hzero]
      rfl
    next hlast =>
    rw [ih (by omega) (by omega), if_neg (by omega)]
    simp

lemma slotId_slotOf {i : Nat} (hi : i < 20)
    : (slotOf checksum name i 0 &&& ~~~lastLongEntryMask).toNat = i + 1 ∧
      (slotOf checksum name i 0 &&& lastLongEntryMask ≠ 0 ↔ name.length ≤ 13 * (i + 1)) := by
  rw [slotOf, dirSlot, if_pos rfl]
  split
  next h =>
    simp only [h, iff_true]
    interval_cases i <;> decide
  next h =>
  simp only [h, iff_false]
  interval_cases i <;> decide

end Slot

section Write

variable {fs : Fsdata} {d pos : Nat} {block : Mem} {ss : List (Nat → UInt8)}

def place (m : Mem) (pos : Nat) (ss : List (Nat → UInt8)) : Mem :=
  fun a => if 32 * pos ≤ a then (ss[(a / 32).toNat - pos]?).elim (m a) fun slot => slot (a % 32).toNat else m a

lemma place_nil (m : Mem) (pos : Nat) : place m pos [] = m := by
  funext a
  simp [place]

lemma place_copyEntry (m : Mem) (pos : Nat) (slot : Nat → UInt8) (ss : List (Nat → UInt8))
    : place (copyEntry m pos slot) (pos + 1) ss = place m pos (slot :: ss) := by
  funext a
  unfold place copyEntry
  by_cases hlt : a < 32 * pos
  . rw [if_neg (by omega), if_neg (by omega), if_neg (by omega)]
  by_cases hin : a < 32 * pos + 32
  . have hidx : (a / 32).toNat - pos = 0 := by omega
    have hmod : (a - 32 * pos).toNat = (a % 32).toNat := by omega
    rw [if_neg (by omega), if_pos (by omega), if_pos (by omega), hidx, hmod]
    rfl
  . have hidx : (a / 32).toNat - pos = (a / 32).toNat - (pos + 1) + 1 := by omega
    rw [if_pos (by omega), if_neg (by omega), if_pos (by omega), hidx, getElem?_cons_succ]

lemma entryAt_place {i : Nat} (m : Mem) {slot : Nat → UInt8} (h : ss[i]? = some slot) {j : Nat} (hj : j < 32)
    : entryAt (place m pos ss) (pos + i : Nat) j = slot j := by
  have hidx : ((32 * ((pos + i : Nat) : Int) + j) / 32).toNat - pos = i := by omega
  have hmod : ((32 * ((pos + i : Nat) : Int) + j) % 32).toNat = j := by omega
  unfold entryAt place
  rw [if_pos (by omega), hidx, hmod, h]
  rfl

section

variable (hd : fs.clustSize * fs.sectSize = 32 * d)

include hd

lemma writeSlots_eq (hlt : pos + ss.length < d) : fs.writeSlots block pos ss = [place block pos ss] := by
  induction ss generalizing block pos with
  | nil =>
    rw [writeSlots, if_neg (by omega), place_nil]
  | cons slot ss ih =>
    rw [length_cons] at hlt
    rw [writeSlots, if_neg (by omega), ih (by omega), place_copyEntry]

lemma writeSlots_cross (hpos : pos ≤ d) (hle : d ≤ pos + ss.length)
    (hlen : ss.length < d)
    : ∃ m, fs.writeSlots block pos ss = [place block pos (ss.take (d - pos)), place m 0 (ss.drop (d - pos))] := by
  induction ss generalizing block pos with
  | nil =>
    rw [length_nil] at hle
    exact ⟨writeSlots.cleared fs block, by rw [writeSlots, if_pos (by omega)]; simp [place_nil]⟩
  | cons slot ss ih =>
    rw [length_cons] at hle hlen
    by_cases hfull : pos = d
    . refine ⟨writeSlots.cleared fs block, ?_⟩
      rw [writeSlots, if_pos (by omega), writeSlots_eq hd (by omega), place_copyEntry, hfull, Nat.sub_self,
        take_zero, place_nil]
      rfl
    . have ⟨m, hm⟩ := @ih (pos + 1) (copyEntry block pos slot) (by omega) (by omega) (by omega)
      have hsub : d - pos = d - (pos + 1) + 1 := by omega
      exact ⟨m, by rw [writeSlots, if_neg (by omega), hm, hsub, place_copyEntry]; rfl⟩

end

lemma writeSlots_below {a : Int} (ha : a < 32 * pos)
    : ∃ first more, fs.writeSlots block pos ss = first :: more ∧ first a = block a := by
  induction ss generalizing block pos with
  | nil =>
    unfold writeSlots
    split
    . exact ⟨_, _, rfl, rfl⟩
    . exact ⟨_, _, rfl, rfl⟩
  | cons slot ss ih =>
    unfold writeSlots
    split
    . exact ⟨_, _, rfl, rfl⟩
    . have ⟨first, more, heq, hfirst⟩ := @ih (pos + 1) (copyEntry block pos slot) (by omega)
      refine ⟨first, more, heq, ?_⟩
      rw [hfirst, copyEntry, if_neg (by omega)]

end Write

section Read

variable {fs : Fsdata} {bufs : Buffers} {st : State} {m : Mem} {checksum : UInt8} {name : List UInt8}

-- The slot with the number `i + 1` is entry `e`.
def HoldsSlot (m : Mem) (checksum : UInt8) (name : List UInt8) (e i : Nat) : Prop :=
  ∀ j < 32, entryAt m e j = slotOf checksum name i j

lemma HoldsSlot.id {e i : Nat} (h : HoldsSlot m checksum name e i) (hi : i < 20)
    : slotId m e = i + 1 ∧ (m (32 * e) &&& lastLongEntryMask ≠ 0 ↔ name.length ≤ 13 * (i + 1)) := by
  have hid := h 0 (by omega)
  rw [entryAt, Int.natCast_zero, Int.add_zero] at hid
  rw [slotId, hid]
  exact slotId_slotOf checksum hi

lemma HoldsSlot.slot2str {e i : Nat} (h : HoldsSlot m checksum name e i) (hname : ∀ c ∈ name, c ≠ 0)
    : slot2str (entryAt m e) = ((name.drop (13 * i)).take 13, decide (name.length - 13 * i < 13)) := by
  rw [slot2str_congr h, slotOf, slot2str_dirSlot, length_drop]
  intro c hc
  exact hname c (mem_of_mem_drop hc)

lemma walkSlots_eq {limit n c e : Nat} (hid : ∀ i < n, slotId m (e + i) = c - i) (hn : n ≤ c)
    (hlimit : n = 0 ∨ 32 * (e + n) ≤ limit) (hend : n = c ∨ limit ≤ 32 * (e + n))
    : walkSlots m limit c e = some (c - n, e + n) := by
  induction n generalizing c e with
  | zero =>
    cases c with
    | zero => rfl
    | succ c => rw [walkSlots, if_pos (by omega)]; rfl
  | succ n ih =>
    obtain ⟨c, rfl⟩ : ∃ c', c = c' + 1 := ⟨c - 1, by omega⟩
    have hfirst := hid 0 (by omega)
    rw [Nat.add_zero, Nat.sub_zero] at hfirst
    rw [walkSlots, if_neg (by omega), if_neg (by simp [hfirst]), ih]
    . congr 2 <;> omega
    . intro i hi
      have hnext := hid (i + 1) (by omega)
      rw [add_assoc, add_comm 1 i, hnext]
      omega
    . omega
    . omega
    . omega

lemma collect_eq (hname : ∀ c ∈ name, c ≠ 0) (hlen : name.length ≤ 255) {n fuel pos : Nat} (hpos : 0 < n)
    (hn : n ≤ numSlots name) (hfuel : n ≤ fuel)
    (hholds : ∀ i < n, HoldsSlot m checksum name (pos + i) (numSlots name - 1 - i))
    : collect m fuel (pos + n : Nat) (name.take (13 * (numSlots name - n))) = some name := by
  induction n generalizing fuel with
  | zero => omega
  | succ n ih =>
    obtain ⟨fuel, rfl⟩ : ∃ fuel', fuel = fuel' + 1 := ⟨fuel - 1, by omega⟩
    have hslot := hholds n (by omega)
    have hnum : numSlots name - 1 - n < 20 ∧ numSlots name - 1 - n + 1 = numSlots name - n := by
      unfold numSlots at hn ⊢
      omega
    have ⟨_, hlast⟩ := hslot.id hnum.1
    have hacc : name.take (13 * (numSlots name - (n + 1))) ++ (name.drop (13 * (numSlots name - 1 - n))).take 13
        = name.take (13 * (numSlots name - n)) := by
      rw [show numSlots name - (n + 1) = numSlots name - 1 - n by omega, ← hnum.2, mul_add, take_add]
    have hshort : ¬255 < (name.take (13 * (numSlots name - n))).length := by
      rw [length_take]
      omega
    unfold collect
    rw [show ((pos + (n + 1) : Nat) : Int) - 1 = (pos + n : Nat) by omega, hslot.slot2str hname]
    dsimp only
    rw [hacc, if_neg hshort]
    split
    next hstop =>
      rw [decide_eq_true_iff, hlast] at hstop
      rw [take_of_length_le (by omega)]
    next hgo =>
    rw [decide_eq_true_iff, hlast] at hgo
    have hmore : 0 < n := by
      unfold numSlots at hgo
      omega
    exact ih hmore (by omega) (by omega) fun i hi => hholds i (by omega)

lemma Printable.ne_zero {c : UInt8} (h : Printable c) : c ≠ 0 := fun hzero => absurd h (by rw [hzero]; decide)

lemma flatMap_chunks (name : List UInt8) (c : Nat)
    : (range c).flatMap (fun i => (name.drop (13 * i)).take 13) = name.take (13 * c) := by
  induction c with
  | zero => rfl
  | succ c ih => simp [range_succ, ih, mul_add, take_add]

lemma finishName_eq (h : ∀ c ∈ name, Printable c) : finishName name = name.map tolower := by
  cases name with
  | nil => rfl
  | cons c name =>
    have hc := h c mem_cons_self
    have hdeleted : c ≠ deletedFlag := fun heq => absurd hc (by rw [heq]; decide)
    have hring : c ≠ aRing := fun heq => absurd hc (by rw [heq]; decide)
    rw [finishName, if_neg hdeleted, if_neg hring]

lemma reverse_slots (checksum : UInt8) (name : List UInt8) {i : Nat} (hi : i < numSlots name)
    : ((range' 0 (numSlots name - 0)).map (slotOf checksum name)).reverse[i]? =
      some (slotOf checksum name (numSlots name - 1 - i)) := by
  rw [getElem?_reverse (by simpa using hi), length_map, length_range', getElem?_map, getElem?_range' (by omega)]
  simp

lemma longName_here {curclust fatClust pos : Nat} (hname : ∀ c ∈ name, Printable c) (hpos : 0 < name.length)
    (hlen : name.length ≤ 117) (hholds : ∀ i < numSlots name, HoldsSlot m checksum name (pos + i) (numSlots name - 1 - i))
    (hlimit : 32 * (pos + numSlots name) < fs.sectSize * (if curclust = 0 then 2 else fs.clustSize))
    : (fs.longName bufs st curclust fatClust m pos).1.Decodes name := by
  have hnum : 0 < numSlots name ∧ numSlots name ≤ 9 := by
    unfold numSlots
    omega
  have hid : ∀ i < numSlots name, slotId m (pos + i) = numSlots name - i := by
    intro i hi
    rw [((hholds i hi).id (by omega)).1]
    omega
  have hwalk := walkSlots_eq hid le_rfl (.inr hlimit.le) (.inl rfl)
  have hcollect := @collect_eq m _ _ (fun c hc => (hname c hc).ne_zero) (by omega) _ 20 _ hnum.1
    le_rfl (by omega) hholds
  rw [Nat.sub_self, Nat.mul_zero, take_zero] at hcollect
  have hcounter := hid 0 hnum.1
  rw [Nat.add_zero, Nat.sub_zero] at hcounter
  unfold longName
  simp only [hcounter, hwalk, hlimit, hcollect, if_true, if_neg (not_lt.mpr hnum.2)]
  exact finishName_eq hname

lemma longName_next {curclust fatClust pos d : Nat} {second : Mem} (hname : ∀ c ∈ name, Printable c)
    (hlen : name.length ≤ 117) (hd : fs.clustSize * fs.sectSize = 32 * d) (hpos : pos < d)
    (hcross : d ≤ pos + numSlots name)
    (hfirst : ∀ i < d - pos, HoldsSlot m checksum name (pos + i) (numSlots name - 1 - i))
    (hsecond : ∀ i < pos + numSlots name - d, HoldsSlot second checksum name i (pos + numSlots name - d - 1 - i))
    (hnext : fs.Follows bufs st curclust fatClust (pos + numSlots name) [second]) (hsmall : 9 < d)
    : (fs.longName bufs st curclust fatClust m pos).1.Decodes name := by
  have ⟨hclust, hcheck, block, hread, hblock⟩ := hnext
  have hnum : numSlots name ≤ 9 := by
    unfold numSlots
    omega
  have hzero : ∀ c ∈ name, c ≠ 0 := fun c hc => (hname c hc).ne_zero
  have hid : ∀ i < d - pos, slotId m (pos + i) = numSlots name - i := by
    intro i hi
    rw [((hfirst i hi).id (by omega)).1]
    omega
  have hwalk : walkSlots m (32 * d) (numSlots name) pos = some (numSlots name - (d - pos), pos + (d - pos)) :=
    walkSlots_eq hid (by omega) (.inr (by omega)) (.inr (by omega))
  rw [show numSlots name - (d - pos) = pos + numSlots name - d by omega, Nat.add_sub_cancel' (by omega)] at hwalk
  have hholds : ∀ i < pos + numSlots name - d, HoldsSlot block checksum name i (pos + numSlots name - d - 1 - i) := by
    intro i hi j hj
    rw [← hsecond i hi j hj]
    exact hblock _ (by omega) (by omega)
  have hall : ((range (pos + numSlots name - d)).all fun k => slotId block k = pos + numSlots name - d - k) = true := by
    rw [all_eq_true]
    intro k hk
    rw [mem_range] at hk
    rw [((hholds k hk).id (by omega)).1, decide_eq_true_iff]
    omega
  have hchars : ((range (pos + numSlots name - d)).reverse.flatMap fun (k : Nat) => (slot2str (entryAt block k)).1)
      = name.take (13 * (pos + numSlots name - d)) := by
    rw [← flatMap_chunks, range_eq_range', reverse_range', ← range_eq_range', flatMap_map, flatMap_def, flatMap_def]
    congr 1
    apply map_congr_left
    intro i hi
    rw [mem_range] at hi
    rw [(hholds _ (by omega)).slot2str hzero,
      show pos + numSlots name - d - 1 - (0 + (pos + numSlots name - d) - 1 - i) = i by omega]
  have hcollect := @collect_eq m _ _ hzero (by omega) _ 20 _ (by omega) (by omega) (by omega) hfirst
  rw [show numSlots name - (d - pos) = pos + numSlots name - d by omega, Nat.add_sub_cancel' (by omega)] at hcollect
  have hcounter := hid 0 (by omega)
  rw [Nat.add_zero, Nat.sub_zero] at hcounter
  unfold longName
  rw [if_neg hclust, Nat.mul_comm fs.sectSize, hd]
  simp only [hcounter, hwalk, hcheck, hread, hall, hchars, hcollect, if_true, if_false, hclust, Nat.lt_irrefl,
    if_neg (Nat.not_lt.mpr hnum), Bool.false_eq_true]
  exact finishName_eq hname

end Read

section RoundTrip

variable {fs : Fsdata} {bufs : Buffers} {st : State} {name : List UInt8}

lemma decodes_iff_getVfatname (hpos : 0 < name.length) (curclust pos : Nat) (m : Mem)
    : (fs.longName bufs st curclust curclust m pos).1.Decodes name ↔
      ((fs.getVfatname bufs st curclust m pos).1.map Prod.fst) = some (name.map tolower) := by
  have hne : name.map tolower ≠ [] := by simpa using ne_nil_of_length_pos hpos
  unfold getVfatname
  split
  next heq => simp [heq, Lfn.Decodes]
  next heq => simp [heq, Lfn.Decodes, hne.symm]
  next heq => simp [heq, Lfn.Decodes]
  next heq => simp [heq, Lfn.Decodes]

end RoundTrip

namespace Straddle

-- Two slots, the first of them in the last entry of a cluster.
def name : List UInt8 := List.replicate 14 65

def second : Mem := (((smallFat12.fillDirSlot (fun _ => 0) 15 name).getD []).getD 1 fun _ => 0)

-- Cluster 2 is followed by cluster 3, which is the sector 5.
def disk (i : Nat) : UInt8 := if i = 515 then 3 else if 2560 ≤ i then second ((i : Int) - 2560) else 0

def st : State := { disk, fatbuf := fun _ => 0 }

def bufs : Buffers := ⟨fun _ => 0, fun _ => 0⟩

lemma follows (real : Nat) : smallFat12.Follows bufs st 2 2 real [second] := by
  have hfat : (smallFat12.getFatent st 2).1 = 3 := by decide +kernel
  have hdisk : (smallFat12.getFatent st 2).2.disk = disk := rfl
  unfold Fsdata.Follows
  rw [hfat, hdisk]
  refine ⟨by decide, by decide, _, rfl, ?_⟩
  intro a hlow hhigh
  have hsize : smallFat12.clustSize * smallFat12.sectSize = 512 := rfl
  rw [hsize] at hhigh
  have hbyte : disk (5 * 512 + a.toNat) = second a := by
    unfold disk
    rw [if_neg (by omega), if_pos (by omega)]
    congr 1
    omega
  dsimp only
  rw [if_pos hlow]
  change (if a.toNat < 1 * 512 then disk (5 * 512 + a.toNat) else 0) = second a
  rw [if_pos (by omega), hbyte]

end Straddle

end UBoot.Fat
