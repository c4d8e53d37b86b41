import MarvellBoot.Lib.Loop
import MarvellBoot.UBoot.Fat.Impl

/-!
The searches in directories of `fs/fat/fat.c` and `fs/fat/fat_write.c`, and the slots of a new long name. What a listing
prints is left out, and with it the checksums that only the listing looks at.
-/

namespace UBoot.Fat

open Loop

-- The memory around a buffer, which begins at 0.
abbrev Mem := Int → UInt8

def tolower (c : UInt8) : UInt8 := if 65 ≤ c ∧ c ≤ 90 ∨ 192 ≤ c ∧ c ≤ 222 ∧ c ≠ 215 then c + 32 else c

def deletedFlag : UInt8 := 0xe5

def aRing : UInt8 := 0x05

def finishName : List UInt8 → List UInt8
  | [] => []
  | c :: cs => if c = deletedFlag then [] else ((if c = aRing then deletedFlag else c) :: cs).map tolower

def entryAt (m : Mem) (e : Int) (i : Nat) : UInt8 := m (32 * e + i)

def copyEntry (m : Mem) (e : Nat) (dent : Nat → UInt8) : Mem :=
  fun a => if 32 * e ≤ a ∧ a < 32 * e + 32 then dent (a - 32 * e).toNat else m a

def getName (dirent : Nat → UInt8) : List UInt8 :=
  let part lo n := ((List.range n).map fun i => dirent (lo + i)).takeWhile fun c => c ≠ 0 ∧ c ≠ 0x20
  finishName (part 0 8 ++ if dirent 8 ≠ 0 ∧ dirent 8 ≠ 0x20 then 0x2e :: part 8 3 else [])

def attrVolume : UInt8 := 8

def attrVfat : UInt8 := 15

def attrDir : UInt8 := 16

def lastLongEntryMask : UInt8 := 0x40

def slotChars : List Nat := [1, 3, 5, 7, 9, 14, 16, 18, 20, 22, 24, 28, 30]

def slot2str (slot : Nat → UInt8) : List UInt8 × Bool :=
  ((slotChars.map slot).takeWhile (· ≠ 0), (slotChars.map slot).contains 0)

def slotId (m : Mem) (e : Nat) : Nat := (m (32 * e) &&& ~~~lastLongEntryMask).toNat

-- The slots in front of `e` up to the last one of the name. There is no result when `l_name` is overrun.
def collect (m : Mem) : Nat → Int → List UInt8 → Option (List UInt8)
  | 0, _, _ => none
  | fuel + 1, e, lName =>
    let (chars, ended) := slot2str (entryAt m (e - 1))
    let lName := lName ++ chars
    if 255 < lName.length then
      none
    else if ended ∨ m (32 * (e - 1)) &&& lastLongEntryMask ≠ 0 then
      some lName
    else
      collect m fuel (e - 1) lName

def walkSlots (m : Mem) (buflimit : Nat) : (counter e : Nat) → Option (Nat × Nat)
  | 0, e => some (0, e)
  | counter + 1, e =>
    if buflimit ≤ 32 * e then
      some (counter + 1, e)
    else if slotId m e ≠ counter + 1 then
      none
    else
      walkSlots m buflimit counter (e + 1)

/--
How a long name ends: `fail` is -1, with the cluster that `dir_curclust` may already be set to. The short entry is in the
cluster of the slots or in the next one.
-/
inductive Lfn where
  | fail (moved : Option Nat)
  | overrun
  | here (name : List UInt8) (real : Nat)
  | next (name : List UInt8) (clust : Nat) (block : Mem) (real : Nat)

inductive Scan where
  | found (dent : Nat → UInt8)
  | stop
  | overrun
  | on (block : Mem)

inductive Find where
  | found (dent : Nat → UInt8)
  | stop
  | overrun
  | on (dirCurclust : Nat)

structure Query where
  filename : List UInt8
  dols : Bool
  root : Bool
  isdir : Bool

structure Buffers where
  block : Mem
  vfatname : Mem

namespace Fsdata

variable (fs : Fsdata) (bufs : Buffers)

def startsect (clustnum : Nat) : Nat :=
  if 0 < clustnum then ((fs.dataBegin + clustnum * fs.clustSize) % 2 ^ 32).toNat else fs.rootdirSect

def readSectors (disk : Nat → UInt8) (sect n : Nat) (around : Mem) : Option Mem :=
  (fs.diskRead disk sect n fun i => around i).map fun buf a => if 0 ≤ a then buf a.toNat else around a

def getCluster (disk : Nat → UInt8) (clustnum : Nat) (around : Mem) : Option Mem :=
  fs.readSectors disk (fs.startsect clustnum) fs.clustSize around

def longName (st : State) (curclust fatClust : Nat) (block : Mem) (pos : Nat) : Lfn × State :=
  let buflimit := fs.sectSize * (if curclust = 0 then 2 else fs.clustSize)
  let counter := slotId block pos
  if 9 < counter then
    (.fail none, st)
  else
    match walkSlots block buflimit counter pos with
    | none => (.fail none, st)
    | some (counter, e) =>
      if 32 * e < buflimit then
        match collect block 20 e [] with
        | none => (.overrun, st)
        | some lName => (.here (finishName lName) e, st)
      else if curclust = 0 then
        (.fail none, st)
      else
        let (clust, st) := fs.getFatent st fatClust
        if checkClust clust fs.fatsize then
          (.fail none, st)
        else
          match fs.getCluster st.disk clust bufs.vfatname with
          | none => (.fail (some clust), st)
          | some block2 =>
            if (List.range counter).all fun k => slotId block2 k = counter - k then
              let first := (List.range counter).reverse.flatMap fun (k : Nat) => (slot2str (entryAt block2 k)).1
              match collect block 20 e first with
              | none => (.overrun, st)
              | some lName => (.next (finishName lName) clust block2 counter, st)
            else
              (.fail (some clust), st)

-- The name is empty after a failure, and the real entry is copied over the slot otherwise.
def getVfatname (st : State) (curclust : Nat) (block : Mem) (pos : Nat) : Option (List UInt8 × Mem) × State :=
  match fs.longName bufs st curclust curclust block pos with
  | (.overrun, st) => (none, st)
  | (.fail _, st) => (some ([], block), st)
  | (.here lName real, st) => (some (lName, copyEntry block pos (entryAt block real)), st)
  | (.next lName _ block2 real, st) => (some (lName, copyEntry block pos (entryAt block2 real)), st)

def scan (q : Query) (curclust : Nat) : (n i : Nat) → Mem → State → Scan × State
  | 0, _, block, st => (.on block, st)
  | n + 1, i, block, st =>
    let dent := entryAt block i
    let compare (lName : List UInt8) (block : Mem) (st : State) :=
      let dent := entryAt block i
      if q.dols ∨ q.filename ≠ getName dent ∧ q.filename ≠ lName then
        scan q curclust n (i + 1) block st
      else if q.root ∧ q.isdir ∧ dent 11 &&& attrDir = 0 then
        (.stop, st)
      else
        (.found dent, st)
    if dent 0 = deletedFlag then
      scan q curclust n (i + 1) block st
    else if dent 11 &&& attrVolume ≠ 0 then
      if dent 11 &&& attrVfat = attrVfat ∧ dent 0 &&& lastLongEntryMask ≠ 0 then
        match fs.getVfatname bufs st curclust block i with
        | (none, st) => (.overrun, st)
        | (some (lName, block), st) =>
          if q.dols then
            scan q curclust n (i + 1) block st
          else if !q.root ∧ block (32 * i) = 0 then
            (.stop, st)
          else
            compare lName block st
      else
        scan q curclust n (i + 1) block st
    else if dent 0 = 0 then
      (.stop, st)
    else
      compare [] block st

def direntsperblock : Nat := fs.sectSize / 32

def direntsperclust : Nat := fs.clustSize * fs.sectSize / 32

def dirStep (q : Query) (entries : Nat) : Nat × Nat × State → Next (Nat × Nat × State) Scan
  | (sect, curclust, st) =>
    match fs.readSectors st.disk sect fs.clustSize bufs.block with
    | none => .done .stop
    | some block =>
      match fs.scan bufs q curclust entries 0 block st with
      | (.on _, st) =>
        let (next, st) := fs.getFatent st curclust
        if checkClust next fs.fatsize then .done .stop else .again (fs.startsect next, next, st)
      | (res, _) => .done res

def getDentfromdir (fuel : Nat) (filename : List UInt8) (dols : Bool) (start : Nat) (st : State) : Option Scan :=
  run (fs.dirStep bufs ⟨filename, dols, false, false⟩ fs.direntsperclust) fuel (fs.startsect start, start, st)

-- The sectors of the root directory without clusters. Two of them are read at once, behind the one that was looked at last.
def rootStep (q : Query) (rootdirSize : Nat) : Nat × Mem × State → Next (Nat × Mem × State) Scan
  | (cnt, block, st) =>
    let dirPtr := if cnt = 0 then 0 else fs.sectSize
    let block : Mem := if cnt = 0 then block else fun a =>
      if 0 ≤ a ∧ a < fs.sectSize then block (a + fs.sectSize) else block a
    match fs.readSectors st.disk (fs.rootdirSect + cnt) 2 fun a => block (a + dirPtr) with
    | none => .done .stop
    | some dir =>
      match fs.scan bufs q 0 fs.direntsperblock 0 dir st with
      | (.on dir, st) =>
        if rootdirSize ≤ cnt + 1 then .done .stop else .again (cnt + 1, fun a => dir (a - dirPtr), st)
      | (res, _) => .done res

def rootdirLoop (fuel : Nat) (q : Query) (rootCluster rootdirSize : Nat) (st : State) : Option Scan :=
  match fs.fatsize with
  | .fat32 =>
    run (fs.dirStep bufs q (fs.clustSize * fs.direntsperblock)) fuel (fs.rootdirSect, rootCluster, st)
  | _ => run (fs.rootStep bufs q rootdirSize) fuel (0, bufs.block, st)

def findScan (filename : List UInt8) (curclust : Nat) : (n d dirCurclust : Nat) → Mem → State → Find × State
  | 0, _, dirCurclust, _, st => (.on dirCurclust, st)
  | n + 1, d, dirCurclust, block, st =>
    let dent := entryAt block d
    let next (d dirCurclust : Nat) (block : Mem) (st : State) :=
      if fs.clustSize * fs.sectSize ≤ 32 * (d + 1) then
        (.on dirCurclust, st)
      else
        findScan filename curclust n (d + 1) dirCurclust block st
    let compare (lName : List UInt8) (d dirCurclust : Nat) (block : Mem) (st : State) :=
      let dent := entryAt block d
      if dent 0 = 0 then
        (.stop, st)
      else if filename ≠ getName dent ∧ filename ≠ lName then
        next d dirCurclust block st
      else
        (.found dent, st)
    if dent 0 = deletedFlag then
      next d dirCurclust block st
    else if dent 11 &&& attrVolume ≠ 0 then
      if dent 11 &&& attrVfat ≠ 0 ∧ dent 0 &&& lastLongEntryMask ≠ 0 then
        match fs.longName bufs st curclust dirCurclust block d with
        | (.overrun, st) => (.overrun, st)
        | (.fail moved, st) => compare [] d (moved.getD dirCurclust) block st
        | (.here lName real, st) => compare lName real dirCurclust block st
        | (.next lName clust block2 real, st) =>
          let size : Nat := fs.clustSize * fs.sectSize
          compare lName real clust (fun a => if 0 ≤ a ∧ a < size then block2 a else block a) st
      else
        next d dirCurclust block st
    else
      compare [] d dirCurclust block st

def isLastClust (x : Nat) : Bool := fs.fatsize.reserved + 8 ≤ x

def findStep (filename : List UInt8) : Nat × State → Next (Nat × State) Find
  | (curclust, st) =>
    match fs.getCluster st.disk curclust bufs.block with
    | none => .done .stop
    | some block =>
      match fs.findScan bufs filename curclust fs.direntsperclust 0 curclust block st with
      | (.on dirCurclust, st) =>
        if fs.fatsize ≠ .fat32 ∧ Int.bmod curclust (2 ^ 32) ≤ 1 then
          let curclust : Nat := (curclust + 1) % 2 ^ 32
          if Int.bmod curclust (2 ^ 32) ≤ 1 then .again (curclust, st) else .done .stop
        else
          let (next, st) := fs.getFatent st dirCurclust
          if fs.isLastClust next || checkClust next fs.fatsize then .done .stop else .again (next, st)
      | (res, _) => .done res

def firstClust (startsect : Int) : Nat := (((startsect - fs.dataBegin).tdiv fs.clustSize) % 2 ^ 32).toNat

def findDirectoryEntry (fuel : Nat) (filename : List UInt8) (startsect : Int) (st : State) : Option Find :=
  run (fs.findStep bufs filename) fuel (fs.firstClust startsect, st)

end Fsdata

-- The unit `k` of a slot for `name`, which is ended and filled up when it is shorter.
def unit (name : List UInt8) (k : Nat) : UInt8 := name.getD k (if k = name.length then 0 else 0xff)

-- All other bytes are cleared, the ones of a character that are not in `slotChars` too.
def str2slot (name : List UInt8) (i : Nat) : UInt8 :=
  match slotChars.findIdx? (· = i), slotChars.findIdx? (· + 1 = i) with
  | some k, _ => unit name k
  | none, some k => if name.length < k then 0xff else 0
  | none, none => 0

def dirSlot (id : UInt8) (checksum : UInt8) (name : List UInt8) (i : Nat) : UInt8 :=
  if i = 0 then id else if i = 11 then attrVfat else if i = 13 then checksum else str2slot name i

def mkcksum (dent : Nat → UInt8) : UInt8 :=
  (List.range 11).foldl (fun ret i => ((ret &&& 1) <<< 7 ||| (ret &&& 0xfe) >>> 1) + dent i) 0

-- The slots in `temp_dir_slot_buffer`, which has room for some more. There is no result when it is overrun.
def slots (checksum : UInt8) : (room counter : Nat) → List UInt8 → Option (List (Nat → UInt8))
  | 0, _, _ => none
  | room + 1, counter, name =>
    let id := UInt8.ofNat (counter + 1)
    if name.length ≤ 13 then
      some [dirSlot (id ||| lastLongEntryMask) checksum name]
    else
      (slots checksum room (counter + 1) (name.drop 13)).map (dirSlot id checksum name :: ·)

namespace Fsdata

variable (fs : Fsdata)

/-- The clusters of the directory from the one at hand on, `flush_dir_table` appends an empty one when it is full. -/
def writeSlots (block : Mem) (pos : Nat) : List (Nat → UInt8) → List Mem
  | [] => if fs.clustSize * fs.sectSize ≤ 32 * pos then [block, cleared block] else [block]
  | slot :: rest =>
    if fs.clustSize * fs.sectSize ≤ 32 * pos then
      block :: writeSlots (copyEntry (cleared block) 0 slot) 1 rest
    else
      writeSlots (copyEntry block pos slot) (pos + 1) rest
where
  cleared (block : Mem) : Mem := fun a => if 0 ≤ a ∧ a < (fs.clustSize * fs.sectSize : Nat) then 0 else block a

def fillDirSlot (block : Mem) (pos : Nat) (lName : List UInt8) : Option (List Mem) :=
  (slots (mkcksum (entryAt block pos)) 20 0 lName).map fun slots => fs.writeSlots block pos slots.reverse

end Fsdata

end UBoot.Fat
