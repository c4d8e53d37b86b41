import Mathlib

/-!
The block cache of `drivers/block/blkcache.c` and the calls of `drivers/block/blk-uclass.c` that go through it. The types
`lbaint_t` and `ulong` have 64 bits.
-/

namespace UBoot.BlkCache

abbrev Bytes := List UInt8

def memcpy (dst src : Bytes) (n : Nat) : Bytes := src.take n ++ dst.drop n

structure Key where
  iftype : Int
  devnum : Int
  deriving Repr, DecidableEq

structure BlockCacheNode where
  key : Key
  start : BitVec 64
  blkcnt : BitVec 64
  blksz : BitVec 64
  cache : Bytes
  deriving Repr, DecidableEq

structure BlockCacheStats where
  hits : BitVec 32 := 0
  misses : BitVec 32 := 0
  entries : BitVec 32 := 0
  maxBlocksPerEntry : BitVec 32 := 2
  maxEntries : BitVec 32 := 32
  deriving Repr, DecidableEq

structure BlockCache where
  nodes : List BlockCacheNode := []
  stats : BlockCacheStats := {}
  deriving Repr, DecidableEq

def BlockCacheNode.matches (node : BlockCacheNode) (key : Key) (start blkcnt blksz : BitVec 64) : Bool :=
  node.key = key ∧ node.blksz = blksz ∧ node.start ≤ start ∧ start + blkcnt ≤ node.start + node.blkcnt

def cacheFind (key : Key) (start blkcnt blksz : BitVec 64)
    : List BlockCacheNode → Option (BlockCacheNode × List BlockCacheNode)
  | [] => none
  | node :: nodes =>
    if node.matches key start blkcnt blksz then
      some (node, nodes)
    else
      match cacheFind key start blkcnt blksz nodes with
      | some (found, rest) => some (found, node :: rest)
      | none => none

def blkcacheRead (c : BlockCache) (key : Key) (start blkcnt blksz : BitVec 64) (buffer : Bytes)
    : Option Bytes × BlockCache :=
  match cacheFind key start blkcnt blksz c.nodes with
  | some (node, rest) =>
    let src := node.cache.drop ((start - node.start) * blksz).toNat
    let buffer := memcpy buffer src (blksz * blkcnt).toNat
    (some buffer, { nodes := node :: rest, stats := { c.stats with hits := c.stats.hits + 1 } })
  | none => (none, { c with stats := { c.stats with misses := c.stats.misses + 1 } })

structure Malloc where
  node : Bool := true
  cache : Bool := true
  deriving Repr, DecidableEq

def blkcacheFill.insert (c : BlockCache) (key : Key) (start blkcnt blksz : BitVec 64) (buffer : Bytes)
    (old : Option Bytes)
    (malloc : Malloc) : BlockCache :=
  let bytes := (blksz * blkcnt).toNat
  match old, malloc.cache with
  | none, false => c
  | old, _ =>
    let node := { key, start, blkcnt, blksz, cache := memcpy (old.getD []) buffer bytes }
    { nodes := node :: c.nodes, stats := { c.stats with entries := c.stats.entries + 1 } }

def blkcacheFill (c : BlockCache) (key : Key) (start blkcnt blksz : BitVec 64) (buffer : Bytes) (malloc : Malloc)
    : BlockCache :=
  if c.stats.maxBlocksPerEntry.setWidth 64 < blkcnt then
    c
  else if c.stats.maxEntries = 0 then
    c
  else if c.stats.maxEntries ≤ c.stats.entries then
    match c.nodes.getLast? with
    -- Not reached: the list is not empty when `entries` is at least 1.
    | none => c
    | some node =>
      let c := { nodes := c.nodes.dropLast, stats := { c.stats with entries := c.stats.entries - 1 } }
      let old := if node.blkcnt * node.blksz < blksz * blkcnt then none else some node.cache
      blkcacheFill.insert c key start blkcnt blksz buffer old malloc
  else if malloc.node then
    blkcacheFill.insert c key start blkcnt blksz buffer none malloc
  else
    c

def blkcacheInvalidate (c : BlockCache) (key : Key) : BlockCache := go c.nodes c.stats
where
  go : List BlockCacheNode → BlockCacheStats → BlockCache
    | [], stats => { nodes := [], stats }
    | node :: nodes, stats =>
      if node.key = key then
        go nodes { stats with entries := stats.entries - 1 }
      else
        let c := go nodes stats
        { c with nodes := node :: c.nodes }

def blkcacheConfigure (c : BlockCache) (blocks entries : BitVec 32) : BlockCache :=
  let c : BlockCache :=
    if blocks ≠ c.stats.maxBlocksPerEntry ∨ entries ≠ c.stats.maxEntries then
      { nodes := [], stats := { c.stats with entries := 0 } }
    else
      c
  { c with stats := { c.stats with maxBlocksPerEntry := blocks, maxEntries := entries, hits := 0, misses := 0 } }

structure BlkDesc where
  blksz : BitVec 64
  read : Bool
  write : Bool
  erase : Bool
  selectHwpart : Bool
  hwpart : Int
  media : Int → Nat → UInt8

def BlkDesc.contents (desc : BlkDesc) (start blkcnt : Nat) : Bytes :=
  (List.range' (start * desc.blksz.toNat) (blkcnt * desc.blksz.toNat)).map (desc.media desc.hwpart)

structure State where
  desc : Key → BlkDesc
  cache : BlockCache

def State.setDesc (s : State) (key : Key) (desc : BlkDesc) : State := { s with desc := Function.update s.desc key desc }

def enosys : BitVec 64 := 38

/--
What `ops->read` does: it reports `count`, and unless this is the full count the buffer holds anything.
-/
structure ReadOutcome where
  count : BitVec 64
  junk : Bytes

def BlkDesc.opsRead (desc : BlkDesc) (start blkcnt : BitVec 64) (buffer : Bytes) (outcome : ReadOutcome)
    : BitVec 64 × Bytes :=
  if outcome.count = blkcnt then
    let data := desc.contents start.toNat blkcnt.toNat
    (blkcnt, memcpy buffer data data.length)
  else
    (outcome.count, outcome.junk)

structure ReadCall where
  key : Key
  start : BitVec 64
  blkcnt : BitVec 64
  buffer : Bytes
  outcome : ReadOutcome
  malloc : Malloc

def blkDread (s : State) (call : ReadCall) : (BitVec 64 × Bytes) × State :=
  let desc := s.desc call.key
  if !desc.read then
    ((-enosys, call.buffer), s)
  else
    match blkcacheRead s.cache call.key call.start call.blkcnt desc.blksz call.buffer with
    | (some buffer, cache) => ((call.blkcnt, buffer), { s with cache })
    | (none, cache) =>
      let (blksRead, buffer) := desc.opsRead call.start call.blkcnt call.buffer call.outcome
      if blksRead = call.blkcnt then
        let cache := blkcacheFill cache call.key call.start call.blkcnt desc.blksz buffer call.malloc
        ((blksRead, buffer), { s with cache })
      else
        ((blksRead, buffer), { s with cache })

def blkDwrite (s : State) (key : Key) (media : Int → Nat → UInt8) : State :=
  let desc := s.desc key
  if !desc.write then
    s
  else
    { s with cache := blkcacheInvalidate s.cache key }.setDesc key { desc with media }

def blkDerase (s : State) (key : Key) (media : Int → Nat → UInt8) : State :=
  let desc := s.desc key
  if !desc.erase then
    s
  else
    { s with cache := blkcacheInvalidate s.cache key }.setDesc key { desc with media }

def blkDselectHwpart (s : State) (key : Key) (hwpart : Int) : State :=
  let desc := s.desc key
  if !desc.selectHwpart then
    s
  else
    s.setDesc key { desc with hwpart }

inductive Call where
  | dread (call : ReadCall)
  | dwrite (key : Key) (media : Int → Nat → UInt8)
  | derase (key : Key) (media : Int → Nat → UInt8)
  | dselectHwpart (key : Key) (hwpart : Int)
  | configure (blocks entries : BitVec 32)

def State.step (s : State) : Call → State
  | .dread call => (blkDread s call).2
  | .dwrite key media => blkDwrite s key media
  | .derase key media => blkDerase s key media
  | .dselectHwpart key hwpart => blkDselectHwpart s key hwpart
  | .configure blocks entries => { s with cache := blkcacheConfigure s.cache blocks entries }

inductive Reaches (P : State → Call → Prop) (desc : Key → BlkDesc) : State → Prop where
  | init : Reaches P desc { desc, cache := {} }
  | step {s : State} {call : Call} (h : Reaches P desc s) (hcall : P s call) : Reaches P desc (s.step call)

end UBoot.BlkCache
