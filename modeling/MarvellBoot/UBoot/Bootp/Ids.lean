import MarvellBoot.UBoot.Bootp.Impl

/-!
The cache of the ids for any `CONFIG_BOOTP_ID_CACHE_SIZE` and an `unsigned long` of 4 or 8 bytes.
-/

namespace UBoot.Bootp

open List

structure Ids where
  bootpIds : List (BitVec 32)
  bootpNumIds : Nat
  deriving Repr, DecidableEq

namespace Ids

-- `n` elements of the array are moved down by one.
def memmove (l : List (BitVec 32)) (n : Nat) : List (BitVec 32) := (l.drop 1).take n ++ l.drop n

-- `sizeof(id)` is `ulong`. There is no result when the size is less than zero, or about 2^64 when it has wrapped around.
def bootpAddId (ulong : Nat) (c : Ids) (id : BitVec 32) : Option Ids :=
  if c.bootpIds.length ≤ c.bootpNumIds then
    if 4 * c.bootpIds.length < ulong then
      none
    else
      some { c with
        bootpIds := (memmove c.bootpIds ((4 * c.bootpIds.length - ulong) / 4)).set (c.bootpNumIds - 1) id }
  else
    some { bootpIds := c.bootpIds.set c.bootpNumIds id, bootpNumIds := c.bootpNumIds + 1 }

def bootpMatchId (c : Ids) (id : BitVec 32) : Bool := (c.bootpIds.take c.bootpNumIds).any (· = id)

def bootpReset (c : Ids) : Ids := { c with bootpNumIds := 0 }

def addAll (ulong : Nat) (c : Ids) (ids : List (BitVec 32)) : Option Ids := ids.foldlM (bootpAddId ulong) c

def ofCache (c : IdCache) : Ids := ⟨List.ofFn c.ids, c.num⟩

lemma bootpAddId_ofCache (c : IdCache) (id : BitVec 32)
    : bootpAddId 8 (ofCache c) id = some (ofCache (Bootp.bootpAddId c id)) := by
  obtain ⟨ids, num, hnum⟩ := c
  obtain hn | hn | hn | hn | hn : num = 0 ∨ num = 1 ∨ num = 2 ∨ num = 3 ∨ num = 4 := by omega
  . subst hn
    rfl
  . subst hn
    rfl
  . subst hn
    rfl
  . subst hn
    rfl
  . subst hn
    simp [ofCache, Bootp.bootpAddId, bootpAddId, memmove, ofFn_succ]

lemma bootpMatchId_ofCache (c : IdCache) (id : BitVec 32)
    : bootpMatchId (ofCache c) id = Bootp.bootpMatchId c id := by
  obtain ⟨ids, num, hnum⟩ := c
  obtain hn | hn | hn | hn | hn : num = 0 ∨ num = 1 ∨ num = 2 ∨ num = 3 ∨ num = 4 := by omega
  all_goals
    subst hn
    simp [ofCache, Bootp.bootpMatchId, bootpMatchId, ofFn_succ, finRange_succ]

variable {ulong : Nat} {c : Ids} {ids : List (BitVec 32)} {id : BitVec 32}

lemma addAll_append (ids' : List (BitVec 32))
    : addAll ulong c (ids ++ ids') = (addAll ulong c ids).bind (addAll ulong · ids') := by
  simp [addAll, foldlM_append]

lemma addAll_concat : addAll ulong c (ids ++ [id]) = (addAll ulong c ids).bind (bootpAddId ulong · id) := by
  simp [addAll]

lemma addAll_of_le (h : ids.length ≤ c.bootpIds.length)
    : addAll ulong c.bootpReset ids = some ⟨ids ++ c.bootpIds.drop ids.length, ids.length⟩ := by
  induction ids using reverseRecOn with
  | nil => rfl
  | append_singleton ids id ih =>
    rw [length_append, length_singleton] at h
    rw [addAll_concat, ih (by omega), Option.bind_some, bootpAddId, if_neg (by simp; omega)]
    congr 2
    . dsimp only
      rw [set_append_right _ _ (Nat.le_refl _), Nat.sub_self, drop_eq_getElem_cons (i := ids.length) (by omega),
        set_cons_zero, append_assoc, singleton_append, length_append, length_singleton]
    . simp

lemma bootpAddId_four {l : List (BitVec 32)} (h : l ≠ [])
    : bootpAddId 4 ⟨l, l.length⟩ id = some ⟨l.drop 1 ++ [id], l.length⟩ := by
  obtain ⟨p, y, rfl⟩ : ∃ p y, l = p ++ [y] := ⟨_, _, (dropLast_append_getLast h).symm⟩
  have hlen : (p ++ [y]).length = p.length + 1 := by simp
  have hdrop : ((p ++ [y]).drop 1).length = p.length := by simp
  have hsize : (4 * (p.length + 1) - 4) / 4 = p.length := by omega
  unfold bootpAddId
  dsimp only
  rw [hlen, if_pos le_rfl, if_neg (by omega), hsize, memmove, take_of_length_le (by omega),
    drop_left, Nat.add_sub_cancel, set_append_right _ _ (by omega), hdrop, Nat.sub_self, set_cons_zero]

lemma addAll_four (hne : c.bootpIds ≠ []) (h : c.bootpIds.length ≤ ids.length)
    : addAll 4 c.bootpReset ids = some ⟨ids.drop (ids.length - c.bootpIds.length), c.bootpIds.length⟩ := by
  induction ids using reverseRecOn with
  | nil =>
    rw [length_nil, Nat.le_zero, length_eq_zero_iff] at h
    contradiction
  | append_singleton ids id ih =>
    have hpos := length_pos_iff.mpr hne
    by_cases heq : (ids ++ [id]).length = c.bootpIds.length
    . rw [addAll_of_le (by omega), heq, Nat.sub_self, drop_length, append_nil, drop_zero]
    rw [length_append, length_singleton] at h heq
    have hfull : (ids.drop (ids.length - c.bootpIds.length)).length = c.bootpIds.length := by
      rw [length_drop]
      omega
    have hadd := @bootpAddId_four id _ (ne_nil_of_length_pos (hfull ▸ hpos))
    rw [hfull] at hadd
    rw [addAll_concat, ih (by omega), Option.bind_some, hadd, drop_drop, length_append, length_singleton,
      drop_append_of_le_length (by omega)]
    congr 4
    omega

-- The id before the newest one is overwritten.
lemma bootpAddId_zeros {k num : Nat} (hnum : num = k + 1 ∨ num = k + 2) (w : BitVec 32)
    : bootpAddId 8 ⟨replicate (k + 1) 0 ++ [w], num⟩ id = some ⟨replicate (k + 1) 0 ++ [id], k + 2⟩ := by
  have hlen : (replicate (k + 1) 0 ++ [w]).length = k + 2 := by simp
  unfold bootpAddId
  dsimp only
  rw [hlen]
  obtain rfl | rfl := hnum
  . rw [if_neg (by omega), set_append_right _ _ (by simp)]
    simp
  have hsize : (4 * (k + 2) - 8) / 4 = k := by omega
  have htake : ((replicate (k + 1) 0 ++ [w]).drop 1).take k = replicate k 0 := by
    simp
  have hdrop : (replicate (k + 1) 0 ++ [w]).drop k = [0, w] := by
    rw [replicate_succ', append_assoc, drop_left' (by simp)]
    rfl
  rw [if_pos le_rfl, if_neg (by omega), hsize, memmove, htake, hdrop, set_append_right _ _ (by simp), replicate_succ']
  simp

lemma addAll_zeros {k num : Nat} (hnum : num = k + 1 ∨ num = k + 2) (w : BitVec 32) (more : List (BitVec 32))
    : addAll 8 ⟨replicate (k + 1) 0 ++ [w], num⟩ (more ++ [id]) = some ⟨replicate (k + 1) 0 ++ [id], k + 2⟩ := by
  induction more generalizing w num with
  | nil =>
    have := @bootpAddId_zeros id k _ hnum w
    simpa [addAll] using this
  | cons x more ih =>
    have := ih (.inr rfl) x
    unfold addAll at this ⊢
    rw [cons_append, foldlM_cons, bootpAddId_zeros hnum]
    exact this

lemma addAll_eight_single (h : c.bootpIds.length = 1) (hlt : 1 < ids.length) : addAll 8 c.bootpReset ids = none := by
  match ids with
  | x :: y :: ids =>
    have hlen : (c.bootpIds.set 0 x).length = 1 := by rw [length_set, h]
    have hx : bootpAddId 8 c.bootpReset x = some ⟨c.bootpIds.set 0 x, 1⟩ := by
      unfold bootpAddId bootpReset
      simp [h]
    have hy : bootpAddId 8 ⟨c.bootpIds.set 0 x, 1⟩ y = none := by
      unfold bootpAddId
      dsimp only
      rw [hlen, if_pos (by omega), if_pos (by omega)]
    simp [addAll, hx, hy]

theorem bootpMatchId_iff (hulong : ulong = 4 ∨ ulong = 8) (hne : c.bootpIds ≠ []) (n : Nat)
    : (∀ ids : List (BitVec 32), ids.length = n → ∃ c', addAll ulong c.bootpReset ids = some c'
        ∧ ∀ x, bootpMatchId c' x = true ↔ x ∈ ids.drop (ids.length - c.bootpIds.length))
      ↔ ulong = 4 ∨ n ≤ c.bootpIds.length := by
  have hpos := length_pos_iff.mpr hne
  constructor
  . intro h
    by_contra hcond
    rw [not_or] at hcond
    obtain rfl := hulong.resolve_left hcond.1
    by_cases hone : c.bootpIds.length = 1
    . have ⟨c', hadd, _⟩ := h (replicate n 0) length_replicate
      rw [addAll_eight_single hone (by simp; omega)] at hadd
      contradiction
    obtain ⟨k, hk⟩ : ∃ k, c.bootpIds.length = k + 2 := ⟨c.bootpIds.length - 2, by omega⟩
    obtain ⟨e, rfl⟩ : ∃ e, n = k + 2 + (e + 1) := ⟨n - (k + 3), by omega⟩
    have ⟨w, hw⟩ : ∃ w, c.bootpIds.drop (k + 1) = [w] := length_eq_one_iff.mp (by simp [hk])
    -- the id 1 comes before the newest one
    have ⟨c', hadd, hmatch⟩ := h (replicate (k + 1) 0 ++ (replicate e 0 ++ [1] ++ [0])) (by simp; omega)
    have hfirst : addAll 8 c.bootpReset (replicate (k + 1) 0) = some ⟨replicate (k + 1) 0 ++ [w], k + 1⟩ := by
      rw [addAll_of_le (by simp [hk]), length_replicate, hw]
    rw [addAll_append, hfirst, Option.bind_some, addAll_zeros (.inl rfl)] at hadd
    cases hadd
    have hmem := (hmatch 1).mpr (by
      rw [← append_assoc, ← append_assoc, ← replicate_add, hk, append_assoc, drop_append_of_le_length (by simp)]
      simp)
    simp [bootpMatchId, ← replicate_succ'] at hmem
  intro hcond ids hlen
  by_cases hle : ids.length ≤ c.bootpIds.length
  . refine ⟨_, addAll_of_le hle, ?_⟩
    intro x
    rw [Nat.sub_eq_zero_of_le hle]
    simp [bootpMatchId]
  obtain rfl : ulong = 4 := hcond.resolve_right (by omega)
  refine ⟨_, addAll_four hne (by omega), ?_⟩
  intro x
  unfold bootpMatchId
  dsimp only
  rw [take_of_length_le (by rw [length_drop]; omega)]
  simp

def emptyIds : Ids := ⟨[0, 0, 0, 0], 0⟩

theorem bootpMatchId_three
    : ∃ c', addAll 8 emptyIds.bootpReset [1, 2, 3] = some c' ∧ ∀ x, bootpMatchId c' x = true ↔ x ∈ [1, 2, 3] :=
  (bootpMatchId_iff (.inr rfl) (by decide) 3).mpr (.inr (by decide)) [1, 2, 3] rfl

-- The fourth of five ids is lost.
theorem not_matches_five
    : ¬∃ c', addAll 8 emptyIds.bootpReset [1, 2, 3, 4, 5] = some c'
      ∧ ∀ x, bootpMatchId c' x = true ↔ x ∈ [1, 2, 3, 4, 5].drop (5 - 4) := by
  rintro ⟨c', heq, h⟩
  cases heq
  exact absurd ((h 4).mpr (by decide)) (by decide)

end Ids

end UBoot.Bootp
