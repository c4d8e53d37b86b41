import MarvellBoot.UBoot.BlkCache.Impl

namespace UBoot.BlkCache

open List BitVec Nat

variable {blkcnt blksz start : BitVec 64} {c : BlockCache} {buffer : Bytes} {malloc : Malloc} {s : State}
  {node : BlockCacheNode}

lemma memcpy_take (dst src : Bytes) (n : Nat) (h : n ≤ src.length) : (memcpy dst src n).take n = src.take n := by
  unfold memcpy
  have hlen : (src.take n).length = n := by
    rw [length_take]
    omega
  rw [take_append_of_le_length (by omega), take_of_length_le (by omega)]

@[simp]
lemma length_contents (desc : BlkDesc) (start blkcnt : Nat)
    : (desc.contents start blkcnt).length = blkcnt * desc.blksz.toNat := by
  simp [BlkDesc.contents]

lemma contents_slice (desc : BlkDesc) {first total start blkcnt : Nat} (hle : first ≤ start)
    (hend : start + blkcnt ≤ first + total)
    : ((desc.contents first total).drop ((start - first) * desc.blksz.toNat)).take (blkcnt * desc.blksz.toNat)
        = desc.contents start blkcnt := by
  unfold BlkDesc.contents
  generalize desc.blksz.toNat = blksz
  obtain ⟨skip, rfl⟩ := Nat.exists_eq_add_of_le hle
  obtain ⟨behind, hbehind⟩ := Nat.exists_eq_add_of_le hend
  have htotal : total * blksz = skip * blksz + (blkcnt * blksz + behind * blksz) := by
    rw [← Nat.add_mul, ← Nat.add_mul]
    congr 1
    omega
  rw [htotal, ← range'_append_1, ← range'_append_1, Nat.add_sub_cancel_left, ← Nat.add_mul, map_append,
    map_append, drop_left' (by simp), take_left' (by simp)]

structure BlockCache.Counted (c : BlockCache) : Prop where
  entries : c.stats.entries.toNat = c.nodes.length
  le_max : c.nodes.length ≤ c.stats.maxEntries.toNat

lemma cacheFind_spec {key : Key} {nodes rest : List BlockCacheNode}
    {found : BlockCacheNode} (h : cacheFind key start blkcnt blksz nodes = some (found, rest))
    : (found :: rest).Perm nodes ∧ found.matches key start blkcnt blksz := by
  induction nodes generalizing found rest with
  | nil => cases h
  | cons node nodes ih =>
    unfold cacheFind at h
    split at h
    next hmatch =>
      cases h
      exact ⟨List.Perm.refl _, hmatch⟩
    next =>
    split at h
    next hfind =>
      cases h
      obtain ⟨hperm, hmatch⟩ := ih hfind
      exact ⟨(List.Perm.swap ..).trans (hperm.cons _), hmatch⟩
    next => cases h

lemma blkcacheRead_nodes (c : BlockCache) (key : Key) (start blkcnt blksz : BitVec 64) (buffer : Bytes)
    : (blkcacheRead c key start blkcnt blksz buffer).2.nodes.Perm c.nodes := by
  unfold blkcacheRead
  split
  next hfind => exact (cacheFind_spec hfind).1
  next => exact List.Perm.refl _

lemma blkcacheRead_counted (h : c.Counted) (key : Key) (start blkcnt blksz : BitVec 64) (buffer : Bytes)
    : (blkcacheRead c key start blkcnt blksz buffer).2.Counted := by
  have hlen := (blkcacheRead_nodes c key start blkcnt blksz buffer).length_eq
  have hstats : (blkcacheRead c key start blkcnt blksz buffer).2.stats.entries = c.stats.entries
      ∧ (blkcacheRead c key start blkcnt blksz buffer).2.stats.maxEntries = c.stats.maxEntries := by
    unfold blkcacheRead
    split
    . exact ⟨rfl, rfl⟩
    . exact ⟨rfl, rfl⟩
  constructor
  . rw [hlen, hstats.1, h.entries]
  . rw [hlen, hstats.2]
    exact h.le_max

lemma blkcacheFill.insert_mem {key : Key} {old : Option Bytes}
    (h : node ∈ (insert c key start blkcnt blksz buffer old malloc).nodes)
    : node ∈ c.nodes
      ∨ ∃ old, node = { key, start, blkcnt, blksz, cache := memcpy old buffer (blksz * blkcnt).toNat } := by
  unfold insert at h
  split at h
  next => exact .inl h
  next =>
  cases h with
  | head => exact .inr ⟨_, rfl⟩
  | tail _ h => exact .inl h

lemma blkcacheFill.insert_counted (h : c.Counted) (hlt : c.nodes.length < c.stats.maxEntries.toNat) (key : Key)
    (start blkcnt blksz : BitVec 64) (buffer : Bytes) (old : Option Bytes) (malloc : Malloc)
    : (insert c key start blkcnt blksz buffer old malloc).Counted := by
  unfold insert
  split
  next => exact h
  next =>
  constructor
  . dsimp only
    rw [toNat_add, length_cons, h.entries]
    apply mod_eq_of_lt
    show c.nodes.length + 1 < 2 ^ 32
    omega
  . exact hlt

lemma blkcacheFill_mem {key : Key}
    (h : node ∈ (blkcacheFill c key start blkcnt blksz buffer malloc).nodes)
    : node ∈ c.nodes
      ∨ ∃ old, node = { key, start, blkcnt, blksz, cache := memcpy old buffer (blksz * blkcnt).toNat } := by
  unfold blkcacheFill at h
  split at h
  next => exact .inl h
  next =>
  split at h
  next => exact .inl h
  next =>
  split at h
  next =>
    split at h
    next => exact .inl h
    next =>
    cases blkcacheFill.insert_mem h with
    | inl h => exact .inl (dropLast_subset _ h)
    | inr h => exact .inr h
  next =>
  split at h
  next => exact blkcacheFill.insert_mem h
  next => exact .inl h

lemma dropLast_counted (h : c.Counted) (hne : c.nodes ≠ [])
    : BlockCache.Counted { nodes := c.nodes.dropLast, stats := { c.stats with entries := c.stats.entries - 1 } } := by
  have hpos := length_pos_iff.mpr hne
  constructor
  . dsimp only
    have hentries := h.entries
    rw [toNat_sub_of_le, length_dropLast, h.entries]
    . rfl
    . rw [le_def]
      show 1 ≤ c.stats.entries.toNat
      omega
  dsimp only
  rw [length_dropLast]
  have := h.le_max
  omega

lemma blkcacheFill_counted (h : c.Counted) (key : Key) (start blkcnt blksz : BitVec 64) (buffer : Bytes)
    (malloc : Malloc) : (blkcacheFill c key start blkcnt blksz buffer malloc).Counted := by
  unfold blkcacheFill
  split
  next => exact h
  next =>
  split
  next => exact h
  next =>
  split
  next =>
    split
    next => exact h
    next hlast =>
    have hne : c.nodes ≠ [] := by
      intro hnil
      rw [hnil] at hlast
      cases hlast
    apply blkcacheFill.insert_counted (dropLast_counted h hne)
    dsimp only
    have hpos := length_pos_iff.mpr hne
    have := h.le_max
    rw [length_dropLast]
    omega
  next hfull =>
  split
  next =>
    apply blkcacheFill.insert_counted h
    rw [BitVec.not_le, BitVec.lt_def, h.entries] at hfull
    exact hfull
  next => exact h

namespace blkcacheInvalidate

variable (key : Key) (nodes : List BlockCacheNode) (stats : BlockCacheStats)

lemma go_nodes : (go key nodes stats).nodes = nodes.filter (fun node => node.key ≠ key) := by
  induction nodes generalizing stats with
  | nil => rfl
  | cons node nodes ih =>
    unfold go
    split
    next h => simp [h, ih]
    next h => simp [h, ih]

lemma go_maxEntries : (go key nodes stats).stats.maxEntries = stats.maxEntries := by
  induction nodes generalizing stats with
  | nil => rfl
  | cons node nodes ih =>
    unfold go
    split
    next => rw [ih]
    next => exact ih stats

lemma go_entries (kept : Nat)
    (h : stats.entries.toNat = kept + nodes.length)
    : (go key nodes stats).stats.entries.toNat = kept + (go key nodes stats).nodes.length := by
  induction nodes generalizing stats kept with
  | nil => exact h
  | cons node nodes ih =>
    unfold go
    rw [length_cons] at h
    split
    next =>
      apply ih
      rw [toNat_sub_of_le]
      . show stats.entries.toNat - 1 = _
        omega
      . rw [le_def]
        show 1 ≤ stats.entries.toNat
        omega
    next =>
    rw [length_cons, ih stats (kept + 1) (by omega)]
    omega

end blkcacheInvalidate

lemma mem_blkcacheInvalidate {key : Key}
    : node ∈ (blkcacheInvalidate c key).nodes ↔ node ∈ c.nodes ∧ node.key ≠ key := by
  unfold blkcacheInvalidate
  rw [blkcacheInvalidate.go_nodes, mem_filter, decide_eq_true_iff]

lemma blkcacheInvalidate_counted (h : c.Counted) (key : Key) : (blkcacheInvalidate c key).Counted := by
  constructor
  . have := blkcacheInvalidate.go_entries key c.nodes c.stats 0 (by rw [h.entries, Nat.zero_add])
    rw [Nat.zero_add] at this
    exact this
  . unfold blkcacheInvalidate
    rw [blkcacheInvalidate.go_nodes, blkcacheInvalidate.go_maxEntries]
    exact Nat.le_trans (length_filter_le ..) h.le_max

lemma blkcacheConfigure_counted (h : c.Counted) (blocks entries : BitVec 32)
    : (blkcacheConfigure c blocks entries).Counted := by
  unfold blkcacheConfigure
  split
  next => exact ⟨rfl, zero_le _⟩
  next hsame =>
  constructor
  . exact h.entries
  have : entries = c.stats.maxEntries := by
    tauto
  rw [this]
  exact h.le_max

def ReadCall.filled (call : ReadCall) (s : State) : Bytes :=
  let data := (s.desc call.key).contents call.start.toNat call.blkcnt.toNat
  memcpy call.buffer data data.length

lemma step_cases (s : State) (call : Call)
    : s.step call = s
      ∨ (∃ read, call = .dread read ∧ s.step call = (blkDread s read).2)
      ∨ (∃ key media, s.step call
          = { s with cache := blkcacheInvalidate s.cache key }.setDesc key { s.desc key with media })
      ∨ (∃ key hwpart, call = .dselectHwpart key hwpart ∧ (s.desc key).selectHwpart
          ∧ s.step call = s.setDesc key { s.desc key with hwpart })
      ∨ ∃ blocks entries, s.step call = { s with cache := blkcacheConfigure s.cache blocks entries } := by
  cases call with
  | dread read => exact .inr (.inl ⟨read, rfl, rfl⟩)
  | dwrite key media =>
    unfold State.step blkDwrite
    dsimp only
    split
    next => exact .inl rfl
    next => exact .inr (.inr (.inl ⟨key, media, rfl⟩))
  | derase key media =>
    unfold State.step blkDerase
    dsimp only
    split
    next => exact .inl rfl
    next => exact .inr (.inr (.inl ⟨key, media, rfl⟩))
  | dselectHwpart key hwpart =>
    unfold State.step blkDselectHwpart
    dsimp only
    split
    next => exact .inl rfl
    next h =>
    rw [Bool.not_eq_true', Bool.not_eq_false] at h
    exact .inr (.inr (.inr (.inl ⟨key, hwpart, rfl, h, rfl⟩)))
  | configure blocks entries => exact .inr (.inr (.inr (.inr ⟨blocks, entries, rfl⟩)))

lemma blkDread_cases (s : State) (call : ReadCall)
    : (¬(s.desc call.key).read ∧ blkDread s call = ((-enosys, call.buffer), s))
      ∨ (∃ buffer cache,
          blkcacheRead s.cache call.key call.start call.blkcnt (s.desc call.key).blksz call.buffer = (some buffer, cache)
          ∧ blkDread s call = ((call.blkcnt, buffer), { s with cache }))
      ∨ ∃ cache,
          blkcacheRead s.cache call.key call.start call.blkcnt (s.desc call.key).blksz call.buffer = (none, cache)
          ∧ (blkDread s call
              = ((call.blkcnt, call.filled s),
                  { s with
                    cache :=
                      blkcacheFill cache call.key call.start call.blkcnt (s.desc call.key).blksz
                        (call.filled s) call.malloc })
            ∨ call.outcome.count ≠ call.blkcnt
              ∧ blkDread s call = ((call.outcome.count, call.outcome.junk), { s with cache })) := by
  unfold blkDread
  dsimp only
  split
  next h =>
    rw [Bool.not_eq_true', ← Bool.not_eq_true] at h
    exact .inl ⟨h, rfl⟩
  next =>
  right
  split
  next buffer cache hread => exact .inl ⟨buffer, cache, hread, rfl⟩
  next cache hread =>
  refine .inr ⟨cache, hread, ?_⟩
  unfold BlkDesc.opsRead
  by_cases hfull : call.outcome.count = call.blkcnt
  . left
    rw [if_pos hfull, if_pos rfl]
    rfl
  . right
    rw [if_neg hfull, if_neg hfull]
    exact ⟨hfull, rfl⟩

lemma blkDread_counted (h : s.cache.Counted) (call : ReadCall) : (blkDread s call).2.cache.Counted := by
  have hread := blkcacheRead_counted h call.key call.start call.blkcnt (s.desc call.key).blksz call.buffer
  obtain ⟨-, heq⟩ | ⟨buffer, cache, hit, heq⟩ | ⟨cache, miss, heq | ⟨-, heq⟩⟩ := blkDread_cases s call
  . rw [heq]
    exact h
  . rw [hit] at hread
    rw [heq]
    exact hread
  . rw [miss] at hread
    rw [heq]
    exact blkcacheFill_counted hread ..
  . rw [miss] at hread
    rw [heq]
    exact hread

lemma step_counted (h : s.cache.Counted) (call : Call) : (s.step call).cache.Counted := by
  obtain heq | ⟨read, -, heq⟩ | ⟨key, media, heq⟩ | ⟨key, hwpart, -, -, heq⟩ | ⟨blocks, entries, heq⟩ := step_cases s call
  . rw [heq]
    exact h
  . rw [heq]
    exact blkDread_counted h read
  . rw [heq]
    exact blkcacheInvalidate_counted h key
  . rw [heq]
    exact h
  . rw [heq]
    exact blkcacheConfigure_counted h blocks entries

lemma Reaches.counted {P : State → Call → Prop} {desc : Key → BlkDesc} (h : Reaches P desc s) : s.cache.Counted := by
  induction h with
  | init => exact ⟨rfl, zero_le _⟩
  | step _ _ ih => exact step_counted ih _

structure Holds (desc : Key → BlkDesc) (node : BlockCacheNode) : Prop where
  blksz : node.blksz = (desc node.key).blksz
  stop : node.start.toNat + node.blkcnt.toNat < 2 ^ 64
  bytes : node.blkcnt.toNat * node.blksz.toNat < 2 ^ 64
  data : node.cache.take (node.blkcnt.toNat * node.blksz.toNat)
    = (desc node.key).contents node.start.toNat node.blkcnt.toNat

def Coherent (s : State) : Prop := ∀ node ∈ s.cache.nodes, Holds s.desc node

structure ReadCond (s : State) (call : ReadCall) : Prop where
  stop : call.start.toNat + call.blkcnt.toNat < 2 ^ 64
  bytes : call.blkcnt.toNat * (s.desc call.key).blksz.toNat < 2 ^ 64
  read : (s.desc call.key).read ∨ call.blkcnt ≠ -enosys

/--
The blocks of a read are below `2 ^ 64` and so is their size, and a device changes its hardware partition only when none of
its blocks are in the cache.
-/
def CallCond (s : State) : Call → Prop
  | .dread call => ReadCond s call
  | .dselectHwpart key hwpart =>
    (s.desc key).selectHwpart → hwpart = (s.desc key).hwpart ∨ ∀ node ∈ s.cache.nodes, node.key ≠ key
  | _ => True

lemma Holds.of_desc {desc desc' : Key → BlkDesc} (h : Holds desc node)
    (heq : desc' node.key = desc node.key) : Holds desc' node := by
  constructor
  . rw [heq]
    exact h.blksz
  . exact h.stop
  . exact h.bytes
  . rw [heq]
    exact h.data

lemma toNat_mul_of_lt {a b : BitVec 64} (h : b.toNat * a.toNat < 2 ^ 64) : (a * b).toNat = b.toNat * a.toNat := by
  rw [toNat_mul, Nat.mul_comm, Nat.mod_eq_of_lt h]

lemma Holds.slice {desc : Key → BlkDesc} (h : Holds desc node) {key : Key}
    (hmatch : node.matches key start blkcnt (desc key).blksz)
    (hstop : start.toNat + blkcnt.toNat < 2 ^ 64) (hbytes : blkcnt.toNat * (desc key).blksz.toNat < 2 ^ 64)
    (buffer : Bytes)
    : (memcpy buffer (node.cache.drop ((start - node.start) * (desc key).blksz).toNat)
          ((desc key).blksz * blkcnt).toNat).take (blkcnt.toNat * (desc key).blksz.toNat)
        = (desc key).contents start.toNat blkcnt.toNat := by
  unfold BlockCacheNode.matches at hmatch
  rw [decide_eq_true_iff] at hmatch
  obtain ⟨rfl, hblksz, hstart, hend⟩ := hmatch
  have hdata := h.data
  have hnode := h.bytes
  have hend : start.toNat + blkcnt.toNat ≤ node.start.toNat + node.blkcnt.toNat := by
    rw [BitVec.le_def, BitVec.toNat_add, BitVec.toNat_add, mod_eq_of_lt hstop, mod_eq_of_lt h.stop] at hend
    exact hend
  rw [BitVec.le_def] at hstart
  rw [hblksz] at hdata hnode
  have hskip : (start - node.start).toNat = start.toNat - node.start.toNat := BitVec.toNat_sub_of_le hstart
  have hle : (start.toNat - node.start.toNat) * (desc node.key).blksz.toNat + blkcnt.toNat * (desc node.key).blksz.toNat
      ≤ node.blkcnt.toNat * (desc node.key).blksz.toNat := by
    rw [← Nat.add_mul]
    apply Nat.mul_le_mul_right
    omega
  rw [toNat_mul_of_lt hbytes, BitVec.mul_comm, toNat_mul_of_lt (by rw [hskip]; omega), hskip]
  have hlen : node.blkcnt.toNat * (desc node.key).blksz.toNat ≤ node.cache.length := by
    have := congrArg length hdata
    rw [length_take, length_contents] at this
    omega
  rw [memcpy_take]
  . rw [← contents_slice _ hstart hend, ← hdata, drop_take, take_take, Nat.min_eq_left]
    omega
  . rw [length_drop]
    omega

lemma blkcacheRead_hit (h : Coherent s) {call : ReadCall} (hcall : ReadCond s call)
    (hread : blkcacheRead s.cache call.key call.start call.blkcnt (s.desc call.key).blksz call.buffer = (some buffer, c))
    : buffer.take (call.blkcnt.toNat * (s.desc call.key).blksz.toNat)
        = (s.desc call.key).contents call.start.toNat call.blkcnt.toNat := by
  unfold blkcacheRead at hread
  split at hread
  next hfind =>
    cases hread
    obtain ⟨hperm, hmatch⟩ := cacheFind_spec hfind
    apply Holds.slice _ hmatch hcall.stop hcall.bytes
    apply h
    exact hperm.subset (mem_cons_self ..)
  next => cases hread

lemma filled_take (s : State) (call : ReadCall)
    : (call.filled s).take (call.blkcnt.toNat * (s.desc call.key).blksz.toNat)
        = (s.desc call.key).contents call.start.toNat call.blkcnt.toNat := by
  unfold ReadCall.filled
  dsimp only
  have hlen := length_contents (s.desc call.key) call.start.toNat call.blkcnt.toNat
  rw [hlen, memcpy_take _ _ _ (by omega), take_of_length_le (by omega)]

lemma holds_filled {call : ReadCall} (hcall : ReadCond s call) (old : Bytes)
    : Holds s.desc
        { key := call.key, start := call.start, blkcnt := call.blkcnt, blksz := (s.desc call.key).blksz
          cache := memcpy old (call.filled s) ((s.desc call.key).blksz * call.blkcnt).toNat } := by
  constructor
  . rfl
  . exact hcall.stop
  . exact hcall.bytes
  dsimp only
  rw [toNat_mul_of_lt hcall.bytes, memcpy_take, filled_take]
  have := congrArg length (filled_take s call)
  rw [length_take, length_contents] at this
  omega

lemma blkDread_coherent (h : Coherent s) {call : ReadCall} (hcall : ReadCond s call)
    : Coherent (blkDread s call).2 := by
  have hread := (blkcacheRead_nodes s.cache call.key call.start call.blkcnt (s.desc call.key).blksz call.buffer).subset
  obtain ⟨-, heq⟩ | ⟨buffer, cache, hit, heq⟩ | ⟨cache, miss, heq | ⟨-, heq⟩⟩ := blkDread_cases s call
  . rw [heq]
    exact h
  . rw [hit] at hread
    rw [heq]
    intro node hmem
    exact h node (hread hmem)
  . rw [miss] at hread
    rw [heq]
    intro node hmem
    cases blkcacheFill_mem hmem with
    | inl hold => exact h node (hread hold)
    | inr hnew =>
      obtain ⟨old, rfl⟩ := hnew
      exact holds_filled hcall old
  rw [miss] at hread
  rw [heq]
  intro node hmem
  exact h node (hread hmem)

lemma setDesc_coherent {key : Key} {desc : BlkDesc}
    (h : ∀ node ∈ s.cache.nodes, Holds s.desc node ∧ (node.key = key → desc = s.desc key))
    : Coherent (s.setDesc key desc) := by
  intro node hmem
  obtain ⟨hholds, hsame⟩ := h node hmem
  apply hholds.of_desc
  unfold State.setDesc
  dsimp only
  by_cases hkey : node.key = key
  . rw [hsame hkey, Function.update_eq_self]
  . rw [Function.update_of_ne hkey]

lemma step_coherent (h : Coherent s) {call : Call} (hcall : CallCond s call) : Coherent (s.step call) := by
  obtain heq | ⟨read, rfl, heq⟩ | ⟨key, media, heq⟩ | ⟨key, hwpart, rfl, hselect, heq⟩ | ⟨blocks, entries, heq⟩ :=
    step_cases s call
  . rw [heq]
    exact h
  . rw [heq]
    exact blkDread_coherent h hcall
  . rw [heq]
    apply setDesc_coherent
    intro node hmem
    obtain ⟨hmem, hkey⟩ := mem_blkcacheInvalidate.mp hmem
    exact ⟨h node hmem, fun heq => absurd heq hkey⟩
  . rw [heq]
    apply setDesc_coherent
    intro node hmem
    refine ⟨h node hmem, ?_⟩
    intro hkey
    cases hcall hselect with
    | inl hsame => rw [hsame]
    | inr hnone => exact absurd hkey (hnone node hmem)
  rw [heq]
  intro node hmem
  unfold blkcacheConfigure at hmem
  split at hmem
  next => cases hmem
  next => exact h node hmem

lemma Reaches.coherent {desc : Key → BlkDesc} (h : Reaches CallCond desc s) : Coherent s := by
  induction h with
  | init =>
    intro node hmem
    cases hmem
  | step _ hcall ih => exact step_coherent ih hcall

theorem blkDread_transparent (desc : Key → BlkDesc)
    : (∀ s, Reaches (fun _ _ => True) desc s →
        s.cache.stats.entries.toNat = s.cache.nodes.length ∧ s.cache.nodes.length ≤ s.cache.stats.maxEntries.toNat)
      ∧ ∀ s call, Reaches CallCond desc s → CallCond s (.dread call) → (blkDread s call).1.1 = call.blkcnt →
        (blkDread s call).1.2.take (call.blkcnt.toNat * (s.desc call.key).blksz.toNat)
          = (s.desc call.key).contents call.start.toNat call.blkcnt.toNat := by
  constructor
  . intro s hreach
    exact ⟨hreach.counted.entries, hreach.counted.le_max⟩
  intro s call hreach hcall hfull
  obtain ⟨hread, heq⟩ | ⟨buffer, cache, hit, heq⟩ | ⟨cache, miss, heq | ⟨hcount, heq⟩⟩ := blkDread_cases s call
  . rw [heq] at hfull
    exact absurd hfull.symm (hcall.read.resolve_left hread)
  . rw [heq]
    exact blkcacheRead_hit hreach.coherent hcall hit
  . rw [heq]
    exact filled_take s call
  . rw [heq] at hfull
    exact absurd hfull hcount

namespace Sample

def desc : BlkDesc :=
  { blksz := 1, read := true, write := true, erase := true, selectHwpart := true, hwpart := 0
    media := fun hwpart _ => if hwpart = 0 then 0 else 1 }

def key : Key := ⟨6, 0⟩

def call : ReadCall := { key := key, start := 0, blkcnt := 1, buffer := [7], outcome := ⟨1, []⟩, malloc := {} }

def filled : State := (blkDread ⟨fun _ => desc, {}⟩ call).2

lemma call_cond : CallCond ⟨fun _ => desc, {}⟩ (.dread call) := by
  constructor
  . decide
  . decide
  . exact .inl rfl

lemma filled_cond : CallCond filled (.dread call) := by
  constructor
  . decide
  . decide
  . exact .inl rfl

end Sample

open Sample

theorem blkDread_transparent_hit
    : (blkDread Sample.filled Sample.call).2.cache.stats.hits = 1
      ∧ (blkDread Sample.filled Sample.call).1.2.take 1 = Sample.desc.contents 0 1 := by
  refine ⟨by decide, ?_⟩
  apply (blkDread_transparent fun _ => desc).2 filled call
  . exact Reaches.init.step call_cond
  . exact filled_cond
  . rfl

theorem not_transparent_hwpart
    : ∃ s, Reaches (fun _ _ => True) (fun _ => Sample.desc) s ∧ (s.desc Sample.key).hwpart = 1
        ∧ (blkDread s Sample.call).1 = (1, [0]) ∧ (s.desc Sample.key).contents 0 1 = [1] := by
  refine ⟨blkDselectHwpart filled key 1, ?_, ?_, ?_, ?_⟩
  . have hfilled := @Reaches.step (fun _ _ => True) (fun _ => desc) _ (.dread call) (.init) trivial
    exact @Reaches.step _ _ _ (.dselectHwpart key 1) hfilled trivial
  . decide
  . decide
  . decide

end UBoot.BlkCache
