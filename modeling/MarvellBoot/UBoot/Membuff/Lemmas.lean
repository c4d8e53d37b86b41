import MarvellBoot.UBoot.Membuff.Impl

namespace UBoot.Membuff

open Mem Loop CString List

variable {n fuel left : Nat} {len s minch : Int} {m' : Int → UInt8} {ok : Bool} {q str : List UInt8}

structure Buff.WF (mb : Buff) : Prop where
  start_ne : mb.start ≠ 0
  start_le_head : mb.start ≤ mb.head
  head_lt : mb.head < mb.stop
  start_le_tail : mb.start ≤ mb.tail
  tail_lt : mb.tail < mb.stop
  size_lt : mb.stop - mb.start < 2 ^ 31

def Buff.queue (m : Int → UInt8) (mb : Buff) : List UInt8 :=
  if mb.tail ≤ mb.head then
    load m mb.tail (mb.head - mb.tail).toNat
  else
    load m mb.tail (mb.stop - mb.tail).toNat ++ load m mb.start (mb.head - mb.start).toNat

variable {m : Int → UInt8} {mb mb' : Buff} {maxlen stop ret data : Int} {bytes : List UInt8}

lemma Buff.WF.withTail (h : mb.WF) {tail : Int} (h1 : mb.start ≤ tail) (h2 : tail < mb.stop) : { mb with tail }.WF :=
  { h with start_le_tail := h1, tail_lt := h2 }

lemma Buff.WF.withHead (h : mb.WF) {head : Int} (h1 : mb.start ≤ head) (h2 : head < mb.stop) : { mb with head }.WF :=
  { h with start_le_head := h1, head_lt := h2 }

lemma queue_of_le (h : mb.tail ≤ mb.head) : mb.queue m = load m mb.tail (mb.head - mb.tail).toNat := if_pos h

lemma queue_of_lt (h : mb.head < mb.tail)
    : mb.queue m = load m mb.tail (mb.stop - mb.tail).toNat ++ load m mb.start (mb.head - mb.start).toNat :=
  if_neg (by omega)

lemma queue_length_lt (h : mb.WF) : ((mb.queue m).length : Int) < mb.stop - mb.start := by
  have ⟨_, _, _, _, _, _⟩ := h
  by_cases hle : mb.tail ≤ mb.head
  . rw [queue_of_le hle, length_load]
    omega
  . rw [queue_of_lt (by omega), length_append, length_load, length_load]
    omega

lemma clamp_of_nonneg (h : 0 ≤ maxlen) (len : Int) : clamp maxlen len = min maxlen len := by
  unfold clamp
  omega

lemma load_of_split (a : Int) {k : Nat} (h : k ≤ n) : load m a n = load m a k ++ load m (a + k) (n - k) := by
  rw [← load_add, Nat.add_sub_cancel' h]

lemma membuffGetraw_spec (h : mb.WF) (hmax : 0 ≤ maxlen)
    (hget : membuffGetraw mb maxlen true = (len, data, mb'))
    : 0 ≤ len ∧ len ≤ maxlen ∧ mb'.WF ∧ mb'.start = mb.start ∧ mb'.stop = mb.stop
      ∧ mb.queue m = load m data len.toNat ++ mb'.queue m
      ∧ (len < maxlen → mb'.tail ≤ mb'.head) ∧ (mb.tail ≤ mb.head → len < maxlen → mb'.queue m = [])
      ∧ (len = 0 → 0 < maxlen → mb.tail ≤ mb.head) := by
  have ⟨_, _, _, _, _, _⟩ := h
  unfold membuffGetraw at hget
  simp only [clamp_of_nonneg hmax, if_true] at hget
  split at hget
  . next hlt =>
    cases hget
    refine ⟨by omega, by omega, ?_, rfl, rfl, ?_, ?_, ?_, by omega⟩
    . apply h.withTail <;> omega
    . rw [queue_of_le (by omega), queue_of_le (by dsimp only; omega)]
      dsimp only
      rw [load_of_split mb.tail (k := (min maxlen (mb.head - mb.tail)).toNat) (by omega)]
      congr 2 <;> omega
    . intro _
      dsimp only
      omega
    intro _ _
    rw [queue_of_le (by dsimp only; omega), ← length_eq_zero_iff, length_load]
    dsimp only
    omega
  next hge =>
  split at hget
  . next hlt =>
    cases hget
    refine ⟨by omega, by omega, ?_, rfl, rfl, ?_, ?_, ?_, by omega⟩
    . apply h.withTail <;> split <;> omega
    . rw [queue_of_lt hlt]
      split
      . next hall =>
        rw [queue_of_le (by dsimp only; omega)]
        congr 2
        omega
      next hall =>
      rw [queue_of_lt (by dsimp only; omega)]
      dsimp only
      rw [load_of_split mb.tail (k := (min maxlen (mb.stop - mb.tail)).toNat) (by omega), append_assoc]
      congr 3 <;> omega
    . intro _
      rw [if_pos (by omega)]
      omega
    . intro _
      omega
  next hge' =>
  cases hget
  refine ⟨by omega, hmax, h, rfl, rfl, by simp [load], ?_, ?_, by omega⟩
  . intro _
    omega
  . intro _ _
    rw [queue_of_le (by omega), ← length_eq_zero_iff, length_load]
    omega

lemma membuffGet_spec (h : mb.WF) (hmax : 0 ≤ maxlen)
    (hget : membuffGet m mb maxlen = (bytes, mb'))
    : mb'.WF ∧ mb'.start = mb.start ∧ mb'.stop = mb.stop ∧ mb.queue m = bytes ++ mb'.queue m
      ∧ (bytes.length : Int) = min maxlen (mb.queue m).length := by
  unfold membuffGet membuffGetLoop at hget
  rcases hraw : membuffGetraw mb maxlen true with ⟨len, data, mb1⟩
  have ⟨hlen, hle, hwf, hstart, hstop, hqueue, hpiece, hempty, hzero⟩ := membuffGetraw_spec (m := m) h hmax hraw
  have hlength := congrArg length hqueue
  rw [length_append, length_load] at hlength
  rw [hraw] at hget
  dsimp only at hget
  split at hget
  . next hlen0 =>
    cases hget
    rw [append_nil]
    refine ⟨hwf, hstart, hstop, hqueue, ?_⟩
    rw [length_load]
    by_cases hmax0 : maxlen = 0
    . omega
    . have hnil := hempty (hzero hlen0 (by omega)) (by omega)
      rw [hnil, length_nil] at hlength
      omega
  next hlen0 =>
  unfold membuffGetLoop membuffGetLoop at hget
  rcases hraw2 : membuffGetraw mb1 (maxlen - len) true with ⟨len2, data2, mb2⟩
  have ⟨hlen2, hle2, hwf2, hstart2, hstop2, hqueue2, _, hempty2, _⟩ := membuffGetraw_spec (m := m) hwf (by omega) hraw2
  have hlength2 := congrArg length hqueue2
  rw [length_append, length_load] at hlength2
  rw [hraw2] at hget
  simp only [ite_self, append_nil] at hget
  cases hget
  refine ⟨hwf2, hstart2.trans hstart, hstop2.trans hstop, ?_, ?_⟩
  . rw [hqueue, hqueue2, append_assoc]
  rw [length_append, length_load, length_load]
  by_cases hlt : len + len2 < maxlen
  . have hnil := hempty2 (hpiece (by omega)) (by omega)
    rw [hnil, length_nil] at hlength2
    omega
  . omega

lemma membuffGetraw_all (h : mb.WF) : membuffGetraw mb (-1) true = membuffGetraw mb (mb.stop - mb.start) true := by
  have ⟨_, _, _, _, _, _⟩ := h
  have hall {len : Int} (hlen : len ≤ mb.stop - mb.start) : clamp (-1) len = clamp (mb.stop - mb.start) len := by
    unfold clamp
    rw [if_neg (by omega), if_neg (by omega)]
  unfold membuffGetraw
  rw [hall (by omega), hall (by omega)]

lemma membuffAvail_eq (m : Int → UInt8) (h : mb.WF) : membuffAvail mb = (mb.queue m).length := by
  unfold membuffAvail
  rw [membuffGetraw_all h]
  have hlt := queue_length_lt (m := m) h
  rcases hraw : membuffGetraw mb (mb.stop - mb.start) true with ⟨len, data, mb1⟩
  have ⟨hlen, _, hwf, hstart, hstop, hqueue, hpiece, _, _⟩ := membuffGetraw_spec (m := m) h (by omega) hraw
  have hlength := congrArg length hqueue
  rw [length_append, length_load] at hlength
  dsimp only
  rw [membuffGetraw_all hwf]
  rcases hraw2 : membuffGetraw mb1 (mb1.stop - mb1.start) true with ⟨len2, data2, mb2⟩
  have ⟨hlen2, _, _, _, _, hqueue2, _, hempty2, _⟩ := membuffGetraw_spec (m := m) hwf (by omega) hraw2
  have hlength2 := congrArg length hqueue2
  rw [length_append, length_load] at hlength2
  have hnil := hempty2 (hpiece (by omega)) (by omega)
  rw [hnil, length_nil] at hlength2
  omega

lemma membuffFree_eq (m : Int → UInt8) (h : mb.WF)
    : membuffFree mb = mb.stop - mb.start - 1 - (mb.queue m).length := by
  have := h.start_le_head
  have := h.head_lt
  unfold membuffFree
  rw [if_neg (by omega), membuffAvail_eq m h]

lemma load_store_extend (m : Int → UInt8) {a b : Int} {i : Nat}
    (hb : b = a + i) (hn : n = i + bytes.length)
    : load (store m b bytes) a n = load m a i ++ bytes := by
  rw [hn, load_add, hb, load_store_self, load_store_below _ _ (by omega)]

lemma membuffPutraw_spec (m : Int → UInt8) (h : mb.WF) (hmax : 0 ≤ maxlen)
    (hput : membuffPutraw mb maxlen true = (len, data, mb'))
    : 0 ≤ len ∧ len ≤ maxlen ∧ mb'.WF ∧ mb'.start = mb.start ∧ mb'.stop = mb.stop
      ∧ (∀ bytes : List UInt8, bytes.length = len → mb'.queue (store m data bytes) = mb.queue m ++ bytes)
      ∧ (len < maxlen → mb'.head < mb'.tail ∨ membuffFree mb' = 0)
      ∧ (mb.head < mb.tail → len < maxlen → membuffFree mb' = 0)
      ∧ (len = 0 → 0 < maxlen → membuffFree mb = 0) := by
  have ⟨hne, _, _, _, _, _⟩ := h
  have hfree := membuffFree_eq m h
  unfold membuffPutraw membuffPutrawflex at hput
  simp only [clamp_of_nonneg hmax, if_true, if_neg hne] at hput
  split at hput
  . next hge =>
    split at hput
    . next hwrap =>
      cases hput
      have hwf : { mb with head := mb.start }.WF := by
        apply h.withHead <;> omega
      refine ⟨by omega, by omega, hwf, rfl, rfl, ?_, ?_, by omega, by omega⟩
      . intro bytes hlen
        rw [queue_of_lt (by dsimp only; omega), queue_of_le hge]
        dsimp only
        rw [load_store_extend m (i := (mb.head - mb.tail).toNat) (by omega) (by omega)]
        simp [load]
      intro _
      left
      dsimp only
      omega
    next hwrap =>
    cases hput
    have hwf : { mb with head := mb.head + min maxlen (mb.stop - mb.head - 1) }.WF := by
      apply h.withHead <;> omega
    refine ⟨by omega, by omega, hwf, rfl, rfl, ?_, ?_, by omega, ?_⟩
    . intro bytes hlen
      rw [queue_of_le (by dsimp only; omega), queue_of_le hge]
      dsimp only
      rw [load_store_extend m (i := (mb.head - mb.tail).toNat) (by omega) (by omega)]
    . intro _
      right
      rw [membuffFree_eq m hwf, queue_of_le (by dsimp only; omega), length_load]
      dsimp only
      omega
    . intro _ _
      rw [queue_of_le hge, length_load] at hfree
      omega
  next hlt =>
  cases hput
  have hwf : { mb with head := mb.head + min maxlen (mb.tail - mb.head - 1) }.WF := by
    apply h.withHead <;> omega
  have hfull : min maxlen (mb.tail - mb.head - 1) < maxlen →
      membuffFree { mb with head := mb.head + min maxlen (mb.tail - mb.head - 1) } = 0 := by
    intro _
    rw [membuffFree_eq m hwf, queue_of_lt (by dsimp only; omega), length_append, length_load, length_load]
    dsimp only
    omega
  refine ⟨by omega, by omega, hwf, rfl, rfl, ?_, ?_, ?_, ?_⟩
  . intro bytes hlen
    rw [queue_of_lt (by dsimp only; omega), queue_of_lt (by omega)]
    dsimp only
    rw [load_store_above _ _ (by omega), append_assoc]
    rw [load_store_extend m (i := (mb.head - mb.start).toNat) (by omega) (by omega)]
  . intro hlen
    exact .inr (hfull hlen)
  . intro _ hlen
    exact hfull hlen
  . intro _ _
    rw [queue_of_lt (by omega), length_append, length_load, length_load] at hfree
    omega

lemma membuffPut_spec (h : mb.WF) {buff : List UInt8} {written : Int}
    (hput : membuffPut m mb buff = (written, m', mb'))
    : mb'.WF ∧ mb'.start = mb.start ∧ mb'.stop = mb.stop
      ∧ written = min (buff.length : Int) (membuffFree mb)
      ∧ mb'.queue m' = mb.queue m ++ buff.take written.toNat := by
  unfold membuffPut membuffPutLoop at hput
  rcases hraw : membuffPutraw mb buff.length true with ⟨len, data, mb1⟩
  have ⟨hlen, hle, hwf, hstart, hstop, hqueue, hpiece, _, _⟩ := membuffPutraw_spec m h (by omega) hraw
  have htake : ((buff.take len.toNat).length : Int) = len := by
    rw [length_take]
    omega
  have hqueue := hqueue (buff.take len.toNat) htake
  have hlength := congrArg length hqueue
  rw [length_append] at hlength
  have hdrop : ((buff.drop len.toNat).length : Int) = buff.length - len := by
    rw [length_drop]
    omega
  rw [hraw] at hput
  dsimp only at hput
  generalize store m data (buff.take len.toNat) = m1 at hput hqueue hlength
  unfold membuffPutLoop membuffPutLoop at hput
  rcases hraw2 : membuffPutraw mb1 (buff.drop len.toNat).length true with ⟨len2, data2, mb2⟩
  have ⟨hlen2, hle2, hwf2, hstart2, hstop2, hqueue2, hpiece2, hfull2, _⟩ := membuffPutraw_spec m1 hwf (by omega) hraw2
  have htake2 : (((buff.drop len.toNat).take len2.toNat).length : Int) = len2 := by
    rw [length_take]
    omega
  have hqueue2 := hqueue2 ((buff.drop len.toNat).take len2.toNat) htake2
  have hlength2 := congrArg length hqueue2
  rw [length_append] at hlength2
  rw [hraw2] at hput
  dsimp only at hput
  generalize store m1 data2 ((buff.drop len.toNat).take len2.toNat) = m2 at hput hqueue2 hlength2
  cases hput
  refine ⟨hwf2, hstart2.trans hstart, hstop2.trans hstop, ?_, ?_⟩
  . rw [add_zero]
    have hfree := membuffFree_eq m h
    have hfree1 := membuffFree_eq m1 hwf
    have hfree2 := membuffFree_eq m' hwf2
    have hlt2 := queue_length_lt (m := m') hwf2
    by_cases hrest : len + len2 < buff.length
    . have hfull : membuffFree mb' = 0 := by
        cases hpiece (by omega) with
        | inl hlt => exact hfull2 hlt (by omega)
        | inr hzero => omega
      omega
    . omega
  . rw [hqueue2, hqueue, append_assoc, ← take_add]
    congr 2
    omega

lemma membuffPutbyte_spec (h : mb.WF) {ch : Int} (hput : membuffPutbyte m mb ch = (ok, m', mb'))
    : mb'.WF ∧ mb'.start = mb.start ∧ mb'.stop = mb.stop ∧ (ok = true ↔ 0 < membuffFree mb)
      ∧ mb'.queue m' = if ok then mb.queue m ++ [toChar ch] else mb.queue m := by
  unfold membuffPutbyte at hput
  rcases hraw : membuffPutraw mb 1 true with ⟨len, data, mb1⟩
  have ⟨hlen, hle, hwf, hstart, hstop, hqueue, _, _, hfull⟩ := membuffPutraw_spec m h (by omega) hraw
  have hfree := membuffFree_eq m h
  rw [hraw] at hput
  dsimp only at hput
  split at hput
  . next hne =>
    cases hput
    have hnil := hqueue [] (by simp; omega)
    rw [append_nil, store_nil] at hnil
    refine ⟨hwf, hstart, hstop, ?_, hnil⟩
    simp only [Bool.false_eq_true, false_iff]
    omega
  next heq =>
  cases hput
  have hone := hqueue [toChar ch] (by simp; omega)
  have hlength := congrArg length hone
  rw [length_append, length_singleton] at hlength
  have hlt := queue_length_lt (m := store m data [toChar ch]) hwf
  refine ⟨hwf, hstart, hstop, ?_, hone⟩
  simp only [true_iff]
  omega

lemma membuffGetbyte_spec (h : mb.WF) (hget : membuffGetbyte m mb = (ret, mb'))
    : mb'.WF ∧ mb'.start = mb.start ∧ mb'.stop = mb.stop
      ∧ ((mb.queue m = [] ∧ mb'.queue m = [] ∧ ret = -1)
        ∨ ∃ c : UInt8, mb.queue m = c :: mb'.queue m ∧ ret = c.toNat) := by
  unfold membuffGetbyte at hget
  rcases hraw : membuffGetraw mb 1 true with ⟨len, data, mb1⟩
  have ⟨hlen, hle, hwf, hstart, hstop, hqueue, _, hempty, hzero⟩ := membuffGetraw_spec (m := m) h (by omega) hraw
  rw [hraw] at hget
  cases hget
  refine ⟨hwf, hstart, hstop, ?_⟩
  by_cases hlen1 : len = 1
  . right
    refine ⟨m data, ?_, ?_⟩
    . rw [hqueue, hlen1]
      simp [load]
    . rw [if_neg (by omega)]
  left
  have hlen0 : len = 0 := by omega
  have hnil := hempty (hzero hlen0 (by omega)) (by omega)
  refine ⟨?_, hnil, if_pos hlen1⟩
  rw [hqueue, hnil, hlen0]
  rfl

lemma membuffPeekbyte_eq (m : Int → UInt8) (mb : Buff) : membuffPeekbyte m mb = (membuffGetbyte m mb).1 := by
  unfold membuffPeekbyte membuffGetbyte membuffGetraw
  by_cases h1 : mb.tail < mb.head
  . simp only [if_pos h1]
  . by_cases h2 : mb.head < mb.tail
    . simp only [if_neg h1, if_pos h2]
    . simp only [if_neg h1, if_neg h2]

lemma membuffMakecontig_spec (h : mb.WF) (hcontig : membuffMakecontig m mb = (ok, m', mb'))
    : mb'.WF ∧ mb'.start = mb.start ∧ mb'.stop = mb.stop ∧ mb'.queue m' = mb.queue m := by
  have ⟨_, _, _, _, _, _⟩ := h
  unfold membuffMakecontig at hcontig
  dsimp only at hcontig
  split at hcontig
  . next hlt =>
    split at hcontig
    . cases hcontig
      exact ⟨h, rfl, rfl, rfl⟩
    next hroom =>
    rw [memcpy_eq _ _ (by omega), memmove_eq] at hcontig
    cases hcontig
    have htop : ((load m mb.tail (mb.stop - mb.tail).toNat).length : Int) = mb.stop - mb.tail := by
      rw [length_load]
      omega
    have hbot : ((load m mb.start (mb.head - mb.start).toNat).length : Int) = mb.head - mb.start := by
      rw [length_load]
      omega
    refine ⟨?_, rfl, rfl, ?_⟩
    . constructor <;> dsimp only <;> omega
    rw [queue_of_le (by dsimp only; omega), queue_of_lt hlt]
    dsimp only
    have hsame : load (store m (mb.start + (mb.stop - mb.tail)) (load m mb.start (mb.head - mb.start).toNat))
        mb.tail (mb.stop - mb.tail).toNat = load m mb.tail (mb.stop - mb.tail).toNat := by
      apply load_store_above
      omega
    rw [hsame]
    generalize load m mb.tail (mb.stop - mb.tail).toNat = top at htop ⊢
    generalize load m mb.start (mb.head - mb.start).toNat = bot at hbot ⊢
    have hlen : (mb.start + (mb.stop - mb.tail) + (mb.head - mb.start) - mb.start).toNat
        = top.length + bot.length := by omega
    rw [hlen, load_add, load_store_self, load_store_above _ _ (by omega)]
    rw [← htop, load_store_self]
  next hge =>
  rw [memcpy_eq _ _ (by omega)] at hcontig
  cases hcontig
  refine ⟨?_, rfl, rfl, ?_⟩
  . constructor <;> dsimp only <;> omega
  rw [queue_of_le (by dsimp only; omega), queue_of_le (by omega)]
  have hlen : (load m mb.tail (mb.head - mb.tail).toNat).length = (mb.head - mb.tail).toNat := length_load ..
  generalize load m mb.tail (mb.head - mb.tail).toNat = bytes at hlen ⊢
  have hlen' : (mb.start + (mb.head - mb.tail) - mb.start).toNat = bytes.length := by omega
  rw [hlen', load_store_self]

lemma doubleBody_returns {goal orig size : Int} (h1 : 1 ≤ orig) (h2 : orig < 2 ^ 31)
    (h : Loop.run (doubleBody goal) fuel orig = some size) : 1 ≤ size ∧ size < 2 ^ 31 := by
  constructor
  . by_cases hgoal : orig < goal
    . apply Returns.of_inv ⟨fuel, h⟩ (I := fun _ => True) (Q := fun size => 1 ≤ size) trivial
      . intros
        trivial
      . intro s r _ hbody
        unfold doubleBody at hbody
        split at hbody
        . contradiction
        . cases hbody
          omega
    . have hdone : doubleBody goal orig = .done orig := if_neg hgoal
      have heq := (returns_iff_of_done hdone).mp ⟨fuel, h⟩
      omega
  apply Returns.of_inv ⟨fuel, h⟩ (I := fun size => size < 2 ^ 31) (Q := fun size => size < 2 ^ 31) h2
  . intro s s' _ hbody
    unfold doubleBody at hbody
    split at hbody
    . cases hbody
      unfold toI32
      have := @Int.bmod_lt (s * 2) (2 ^ 32) (by omega)
      omega
    . contradiction
  intro s r hs hbody
  unfold doubleBody at hbody
  split at hbody
  . contradiction
  . cases hbody
    exact hs

lemma membuffExtendBy_spec (h : mb.WF) {r : Realloc} {by' max : Int} (hmax : max = -1 ∨ 0 ≤ max)
    (hext : membuffExtendBy r fuel m mb by' max = some (ret, m', mb'))
    : mb'.WF ∧ mb'.queue m' = mb.queue m ∧ (ret = 0 → mb.stop - mb.start < mb'.stop - mb'.start)
      ∧ (ret ≠ 0 → m' = m ∧ mb' = mb) := by
  have ⟨hne, _, _, _, _, _⟩ := h
  unfold membuffExtendBy at hext
  dsimp only at hext
  split at hext
  . contradiction
  next size hrun =>
  have ⟨hsize1, hsize2⟩ := doubleBody_returns (by omega) (by omega) hrun
  have hbound : 0 ≤ (if max ≠ -1 then min size max else size) ∧ (if max ≠ -1 then min size max else size) < 2 ^ 31 := by
    split <;> omega
  generalize (if max ≠ -1 then min size max else size) = size at hext hbound
  have hby : toI32 (size - (mb.stop - mb.start)) = size - (mb.stop - mb.start) := by
    unfold toI32
    rw [Int.bmod_eq_of_le] <;> omega
  rw [hby] at hext
  split at hext
  . cases hext
    exact ⟨h, rfl, fun hret => by contradiction, fun _ => ⟨rfl, rfl⟩⟩
  next hpos =>
  split at hext
  . cases hext
    exact ⟨h, rfl, fun hret => by contradiction, fun _ => ⟨rfl, rfl⟩⟩
  next ptr m1 hre =>
  have hptr := r.ne_null _ _ _ _ _ _ hre
  have hkeep {a : Int} {n : Nat} (ha : mb.start ≤ a) (hn : a + n ≤ mb.stop)
      : load m1 (ptr + (a - mb.start)) n = load m a n := by
    apply load_congr
    intro i hi
    have hkeeps := r.keeps _ _ _ _ _ _ hre (a - mb.start + i).toNat (by omega) (by unfold Size.ofInt; omega)
    have ha1 : ptr + (a - mb.start) + i = ptr + ((a - mb.start + i).toNat : Int) := by omega
    have ha2 : a + i = mb.start + ((a - mb.start + i).toNat : Int) := by omega
    rw [ha1, ha2, hkeeps]
  split at hext
  . next hlt =>
    rw [memmove_eq] at hext
    cases hext
    refine ⟨?_, ?_, ?_, by simp⟩
    . constructor <;> dsimp only <;> omega
    . rw [queue_of_lt (by dsimp only; omega), queue_of_lt (by omega)]
      have hlen : (mb.stop - mb.start - (mb.tail - mb.start)).toNat = (mb.stop - mb.tail).toNat := by
        omega
      rw [hlen, hkeep (by omega) (by omega)]
      have hbot : load (store m1 (ptr + (mb.tail - mb.start) + (size - (mb.stop - mb.start)))
          (load m mb.tail (mb.stop - mb.tail).toNat)) ptr (mb.head - mb.start).toNat
          = load m mb.start (mb.head - mb.start).toNat := by
        have hold := hkeep (a := mb.start) (n := (mb.head - mb.start).toNat) (by omega) (by omega)
        rw [sub_self, add_zero] at hold
        rw [load_store_below _ _ (by omega), hold]
      have hlen₁ : (ptr + (mb.head - mb.start) - ptr).toNat = (mb.head - mb.start).toNat := by omega
      have hlen2 : (ptr + size - (ptr + (mb.tail - mb.start) + (size - (mb.stop - mb.start)))).toNat
          = (load m mb.tail (mb.stop - mb.tail).toNat).length := by
        rw [length_load]
        omega
      rw [hlen₁, hbot, hlen2, load_store_self]
    . intro _
      dsimp only
      omega
  next hge =>
  cases hext
  refine ⟨?_, ?_, ?_, by simp⟩
  . constructor <;> dsimp only <;> omega
  . rw [queue_of_le (by dsimp only; omega), queue_of_le (by omega)]
    have hlen : (ptr + (mb.head - mb.start) - (ptr + (mb.tail - mb.start))).toNat
        = (mb.head - mb.tail).toNat := by omega
    rw [hlen, hkeep (by omega) (by omega)]
  . intro _
    dsimp only
    omega

inductive Unread (m : Int → UInt8) (mb : Buff) : (s stop : Int) → List UInt8 → Prop where
  | whole {s : Int} : mb.tail ≤ mb.head → mb.tail ≤ s → s ≤ mb.head →
    Unread m mb s mb.head (load m s (mb.head - s).toNat)
  | top {s : Int} : mb.head < mb.tail → mb.tail ≤ s → s < mb.stop →
    Unread m mb s mb.stop (load m s (mb.stop - s).toNat ++ load m mb.start (mb.head - mb.start).toNat)
  | bottom {s : Int} : mb.head < mb.tail → mb.start ≤ s → s ≤ mb.head →
    Unread m mb s mb.head (load m s (mb.head - s).toNat)

lemma load_eq_cons (m : Int → UInt8) (h : 0 < n) : load m s n = m s :: load m (s + 1) (n - 1) := by
  rw [load_of_split s (k := 1) (by omega)]
  simp [load]

lemma load_eq_nil (m : Int → UInt8) (h : n = 0) : load m s n = [] := by
  rw [h]
  rfl

lemma unread_queue (h : mb.WF)
    : Unread m mb mb.tail (if mb.tail ≤ mb.head then mb.head else mb.stop) (mb.queue m) := by
  have ⟨_, _, _, _, _, _⟩ := h
  split
  . next hle =>
    rw [queue_of_le hle]
    exact .whole hle (by omega) hle
  . next hlt =>
    rw [queue_of_lt (by omega)]
    exact .top (by omega) (by omega) (by omega)

lemma Unread.not_lt_of_nil (h : Unread m mb s stop []) : ¬s < stop := by
  generalize hq : [] = q at h
  have hlen := congrArg length hq
  cases h with
  | whole | bottom =>
    rw [length_load, length_nil] at hlen
    omega
  | top =>
    rw [length_append, length_load, length_nil] at hlen
    omega

lemma Unread.cons (hwf : mb.WF) {c : UInt8} (h : Unread m mb s stop (c :: q))
    : s < stop ∧ m s = c
      ∧ { mb with tail := if s + 1 = mb.stop then mb.start else s + 1 }.WF
      ∧ { mb with tail := if s + 1 = mb.stop then mb.start else s + 1 }.queue m = q
      ∧ (¬(s + 1 = stop ∧ mb.head < mb.tail) → Unread m mb (s + 1) stop q)
      ∧ (s + 1 = stop → mb.head < mb.tail → q = [] ∨ Unread m mb mb.start mb.head q) := by
  have ⟨_, _, _, _, _, _⟩ := hwf
  generalize hq : c :: q = q' at h
  have hlen := congrArg length hq
  rw [length_cons] at hlen
  cases h with
  | whole hle h1 h2 =>
    rw [length_load] at hlen
    rw [load_eq_cons m (by omega)] at hq
    injection hq with hc hq
    rw [if_neg (by omega)]
    refine ⟨by omega, hc.symm, ?_, ?_, ?_, by omega⟩
    . apply hwf.withTail <;> omega
    . rw [queue_of_le (by dsimp only; omega), hq]
      congr 1
      dsimp only
      omega
    intro _
    rw [hq]
    convert Unread.whole hle (s := s + 1) (by omega) (by omega) using 2
    omega
  | top hlt h1 h2 =>
    rw [load_eq_cons m (by omega), cons_append] at hq
    injection hq with hc hq
    refine ⟨h2, hc.symm, ?_, ?_, ?_, ?_⟩
    . apply hwf.withTail <;> split <;> omega
    . split
      . next hend =>
        have htop : load m (s + 1) ((mb.stop - s).toNat - 1) = [] := load_eq_nil m (by omega)
        rw [queue_of_le (by dsimp only; omega), hq, htop, nil_append]
      . next hend =>
        rw [queue_of_lt (by dsimp only; omega), hq]
        congr 2
        dsimp only
        omega
    . intro hmore
      rw [hq]
      convert Unread.top hlt (s := s + 1) (by omega) (by omega) using 3
      omega
    intro hend _
    right
    have htop : load m (s + 1) ((mb.stop - s).toNat - 1) = [] := load_eq_nil m (by omega)
    rw [hq, htop, nil_append]
    exact .bottom hlt (by omega) (by omega)
  | bottom hlt h1 h2 =>
    rw [length_load] at hlen
    rw [load_eq_cons m (by omega)] at hq
    injection hq with hc hq
    rw [if_neg (by omega)]
    refine ⟨by omega, hc.symm, ?_, ?_, ?_, ?_⟩
    . apply hwf.withTail <;> omega
    . rw [queue_of_le (by dsimp only; omega), hq]
      congr 1
      dsimp only
      omega
    . intro _
      rw [hq]
      convert Unread.bottom hlt (s := s + 1) (by omega) (by omega) using 2
      omega
    . intro hend _
      left
      rw [hq, load_eq_nil m (by omega)]

lemma membuffReadlineLoop_found (hwf : mb.WF) {t : UInt8}
    {pre post : List UInt8} (str : List UInt8) (h : Unread m mb s stop (pre ++ t :: post))
    (hpre : ∀ c ∈ pre, isTerminator minch c = false) (ht : isTerminator minch t = true)
    (hleft : pre.length < left)
    : ∃ s', membuffReadlineLoop m mb minch left s stop str = (true, str ++ pre ++ [0], s')
      ∧ { mb with tail := if s' = mb.stop then mb.start else s' }.WF
      ∧ { mb with tail := if s' = mb.stop then mb.start else s' }.queue m = post := by
  induction left generalizing s stop pre str with
  | zero => omega
  | succ left ih =>
    cases pre with
    | nil =>
      have ⟨hlt, hc, hwf', hqueue, _, _⟩ := Unread.cons hwf h
      refine ⟨s + 1, ?_, hwf', hqueue⟩
      rw [membuffReadlineLoop, if_pos hlt]
      rw [hc, if_pos ht, append_nil]
    | cons c pre =>
      have ⟨hlt, hc, _, _, hnext, hwrap⟩ := Unread.cons hwf h
      have hc' := hpre c mem_cons_self
      have hpre' : ∀ c ∈ pre, isTerminator minch c = false := by
        intro c hc
        exact hpre c (mem_cons_of_mem _ hc)
      rw [length_cons] at hleft
      rw [membuffReadlineLoop, if_pos hlt]
      rw [hc, if_neg (by simp [hc'])]
      have hstr : str ++ c :: pre = str ++ [c] ++ pre := by simp
      rw [hstr]
      split
      . next hend =>
        cases hwrap hend.1 hend.2 with
        | inl hnil => simp at hnil
        | inr hbottom => exact ih _ hbottom hpre' (by omega)
      . next hmore => exact ih _ (hnext hmore) hpre' (by omega)

lemma membuffReadlineLoop_missed (hwf : mb.WF)
    (h : Unread m mb s stop q) (hq : ∀ c ∈ q.take left, isTerminator minch c = false)
    -- The bottom part is read again and again when the whole queue has been read.
    (hbottom : mb.head < mb.tail → q.length < left →
      ∀ c ∈ load m mb.start (mb.head - mb.start).toNat, isTerminator minch c = false)
    : (membuffReadlineLoop m mb minch left s stop str).1 = false := by
  induction left generalizing s stop q str with
  | zero => rfl
  | succ left ih =>
    cases q with
    | nil => rw [membuffReadlineLoop, if_neg h.not_lt_of_nil]
    | cons c q =>
      have ⟨hlt, hc, _, _, hnext, hwrap⟩ := Unread.cons hwf h
      have hc' := hq c mem_cons_self
      have hq' : ∀ c ∈ q.take left, isTerminator minch c = false := by
        intro c hc
        exact hq c (mem_cons_of_mem _ hc)
      rw [membuffReadlineLoop, if_pos hlt]
      rw [hc, if_neg (by simp [hc'])]
      split
      . next hend =>
        cases hwrap hend.1 hend.2 with
        | inl hnil =>
          by_cases hleft : left = 0
          . rw [hleft]
            rfl
          have hnone := hbottom hend.2 (by rw [hnil, length_singleton]; omega)
          have hstart : Unread m mb mb.start mb.head (load m mb.start (mb.head - mb.start).toNat) :=
            .bottom hend.2 (by omega) hwf.start_le_head
          apply ih hstart
          . intro c hc
            exact hnone c (mem_of_mem_take hc)
          . intro _ _
            exact hnone
        | inr hstart =>
          apply ih hstart hq'
          intro hsplit hlen
          exact hbottom hsplit (by rw [length_cons]; omega)
      next hmore =>
      apply ih (hnext hmore) hq'
      intro hsplit hlen
      exact hbottom hsplit (by rw [length_cons]; omega)

lemma membuffReadline_spec (h : mb.WF) (hread : membuffReadline m mb maxlen minch = (ret, str, mb'))
    : (∃ line t, mb.queue m = line ++ t :: mb'.queue m ∧ isTerminator minch t = true
        ∧ (∀ c ∈ line, isTerminator minch c = false) ∧ line.length < (maxlen - 1).toNat
        ∧ ret = line.length + 1 ∧ str = line ++ [0]
        ∧ mb'.WF ∧ mb'.start = mb.start ∧ mb'.stop = mb.stop)
      ∨ ((∀ c ∈ (mb.queue m).take (maxlen - 1).toNat, isTerminator minch c = false) ∧ ret = 0 ∧ mb' = mb) := by
  unfold membuffReadline at hread
  dsimp only at hread
  have hunread := unread_queue (m := m) h
  generalize (if mb.tail ≤ mb.head then mb.head else mb.stop) = stop at hread hunread
  generalize (maxlen - 1).toNat = left at hread ⊢
  have hmissed (hnone : ∀ c ∈ (mb.queue m).take left, isTerminator minch c = false) : ret = 0 ∧ mb' = mb := by
    have hloop : (membuffReadlineLoop m mb minch left mb.tail stop []).1 = false := by
      apply membuffReadlineLoop_missed h hunread hnone
      intro hlt hlen c hc
      apply hnone
      rw [take_of_length_le (by omega), queue_of_lt hlt]
      exact mem_append_right _ hc
    rw [if_pos hloop] at hread
    cases hread
    exact ⟨rfl, rfl⟩
  cases hfind : (mb.queue m).find? (isTerminator minch) with
  | none =>
    right
    rw [find?_eq_none] at hfind
    have hnone : ∀ c ∈ (mb.queue m).take left, isTerminator minch c = false := by
      intro c hc
      simpa using hfind c (mem_of_mem_take hc)
    exact ⟨hnone, hmissed hnone⟩
  | some t =>
    rw [find?_eq_some_iff_append] at hfind
    have ⟨ht, line, post, hqueue, hline⟩ := hfind
    have hline : ∀ c ∈ line, isTerminator minch c = false := by
      intro c hc
      simpa using hline c hc
    by_cases hlen : line.length < left
    . left
      rw [hqueue] at hunread
      have ⟨s', hloop, hwf, hpost⟩ := membuffReadlineLoop_found h [] hunread hline ht hlen
      rw [hloop] at hread
      cases hread
      refine ⟨line, t, ?_, ht, hline, hlen, ?_, rfl, hwf, rfl, rfl⟩
      . rw [hpost, hqueue]
      . simp
    right
    have hnone : ∀ c ∈ (mb.queue m).take left, isTerminator minch c = false := by
      intro c hc
      rw [hqueue, take_append_of_le_length (by omega)] at hc
      exact hline c (mem_of_mem_take hc)
    exact ⟨hnone, hmissed hnone⟩

end UBoot.Membuff
