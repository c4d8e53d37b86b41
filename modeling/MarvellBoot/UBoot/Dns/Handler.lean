import MarvellBoot.UBoot.Defrag.Impl

/-!
The reply handler of `net/dns.c`. `pkt` is the memory from the payload on and `e` the length of the payload.
-/

namespace UBoot.Dns

open List

def dnsARecord : Nat := 0x01
def dnsCnameRecord : Nat := 0x05

section

variable (pkt : Nat → UInt8) (e p : Nat)

def getUnalignedBe16 (p : Nat) : Nat := (pkt p).toNat * 256 + (pkt (p + 1)).toNat

-- The end and the bytes that are looked at.
def skipHost (p : Nat) : Nat × List (Nat × Nat) :=
  if p < e then
    if pkt p ≠ 0 then
      let (q, reads) := skipHost (p + 1)
      (q, (p, 1) :: reads)
    else
      (p, [(p, 1)])
  else
    (p, [])
  termination_by e - p

def skipName (p : Nat) : Nat × List (Nat × Nat) :=
  if pkt p ≠ 0 ∧ p + 12 < e then
    let (q, reads) := skipName (p + 1)
    (q, (p, 1) :: reads)
  else
    (p, [(p, 1)])
  termination_by e - p

-- Skip possible name in CNAME answer
def skipOwner (p : Nat) : Nat × List (Nat × Nat) :=
  if pkt p ≠ 0xc0 then ((skipName pkt e p).1 - 1, (p, 1) :: (skipName pkt e p).2) else (p, [(p, 1)])

lemma le_skipName : p ≤ (skipName pkt e p).1 := by
  fun_induction skipName with
  | case1 p h q reads heq ih =>
    rw [heq] at ih
    exact Nat.le_of_succ_le ih
  | case2 p h => exact le_refl p

lemma lt_skipOwner : p < (skipOwner pkt e p).1 + 12 := by
  have hle := le_skipName pkt e p
  unfold skipOwner
  split <;> omega

-- Whether an A record is found, where, and what is read on the way.
def answers (p : Nat) : Bool × Nat × List (Nat × Nat) :=
  if p + 12 < e then
    let q := (skipOwner pkt e p).1
    let reads := (skipOwner pkt e p).2 ++ [(q + 2, 2)]
    let type := getUnalignedBe16 pkt (q + 2)
    if type = dnsCnameRecord then
      let (found, p, rest) := answers (q + 12 + getUnalignedBe16 pkt (q + 10))
      (found, p, reads ++ (q + 10, 2) :: rest)
    else
      (type = dnsARecord, q, reads)
  else
    (false, p, [])
  termination_by e - p
  decreasing_by
    have hlt := lt_skipOwner pkt e p
    omega

def dnsHandler (dest dnsOurPort : Nat) : List (Nat × Nat) :=
  if dest ≠ dnsOurPort then [] else
  (4, 2) :: if getUnalignedBe16 pkt 4 ≠ 1 then [] else
  (6, 2) :: if getUnalignedBe16 pkt 6 = 0 then [] else
  let p := (skipHost pkt e 12).1
  (skipHost pkt e 12).2 ++ if e < p + 5 then [] else
  (p + 1, 2) :: if getUnalignedBe16 pkt (p + 1) ≠ dnsARecord then [] else
  let (found, p, reads) := answers pkt e (p + 5)
  reads ++ if found ∧ p + 12 < e then [(p + 10, 2), (p + 12, 4)] else []

-- The loop that prints the packet has a counter of 16 bits.
def dump : (fuel i : Nat) → Option Unit
  | 0, _ => none
  | fuel + 1, i => if i < e then dump fuel ((i + 4) % 2 ^ 16) else some ()

def Inside (r : Nat × Nat) : Prop := r.1 + r.2 ≤ e deriving Decidable

end

variable {pkt : Nat → UInt8} {e : Nat} (p : Nat)

lemma forall_mem_ite {α : Type} {P : α → Prop} (p : Prop) [Decidable p] (l l' : List α)
    : (∀ r ∈ if p then l else l', P r) ↔ (p → ∀ r ∈ l, P r) ∧ (¬p → ∀ r ∈ l', P r) := by
  split <;> simp [*]

lemma inside_skipHost : ∀ r ∈ (skipHost pkt e p).2, Inside e r := by
  fun_induction skipHost with
  | case1 p hlt hne q reads heq ih =>
    rw [heq] at ih
    exact forall_mem_cons.mpr ⟨hlt, ih⟩
  | case2 p hlt => exact forall_mem_singleton.mpr hlt
  | case3 => simp

lemma skipName_spec (h : p + 12 ≤ e) : (skipName pkt e p).1 + 12 ≤ e ∧ ∀ r ∈ (skipName pkt e p).2, Inside e r := by
  have hp : Inside e (p, 1) := by
    unfold Inside
    omega
  fun_induction skipName with
  | case1 p hne q reads heq ih =>
    have ⟨hle, hin⟩ := ih (by omega) (by unfold Inside; omega)
    rw [heq] at hle hin
    exact ⟨hle, forall_mem_cons.mpr ⟨hp, hin⟩⟩
  | case2 p => exact ⟨h, forall_mem_singleton.mpr hp⟩

lemma skipOwner_spec (h : p + 12 < e) : (skipOwner pkt e p).1 + 12 ≤ e ∧ ∀ r ∈ (skipOwner pkt e p).2, Inside e r := by
  have ⟨hle, hin⟩ := @skipName_spec pkt e p h.le
  have hp : Inside e (p, 1) := by
    unfold Inside
    omega
  unfold skipOwner
  split
  . refine ⟨?_, forall_mem_cons.mpr ⟨hp, hin⟩⟩
    omega
  . exact ⟨h.le, forall_mem_singleton.mpr hp⟩

lemma inside_answers : ∀ r ∈ (answers pkt e p).2.2, Inside e r := by
  fun_induction answers with
  | case1 p hlt q reads type htype found p' rest heq ih =>
    have ⟨hle, hin⟩ := @skipOwner_spec pkt e p hlt
    rw [heq] at ih
    refine forall_mem_append.mpr ⟨forall_mem_append.mpr ⟨hin, ?_⟩, forall_mem_cons.mpr ⟨?_, ih⟩⟩
    . simp only [forall_mem_singleton, Inside]
      omega
    . simp only [Inside]
      omega
  | case2 p hlt q reads type htype =>
    have ⟨hle, hin⟩ := @skipOwner_spec pkt e p hlt
    refine forall_mem_append.mpr ⟨hin, ?_⟩
    simp only [forall_mem_singleton, Inside]
    omega
  | case3 => simp

lemma dump_ends (h : e < 2 ^ 16 - 4) : ∃ fuel, dump e fuel 0 = some () := by
  have hends : ∀ fuel i, i < e + 4 → e + 4 ≤ i + fuel → dump e fuel i = some () := by
    intro fuel
    induction fuel with
    | zero =>
      intro i hi hfuel
      omega
    | succ fuel ih =>
      intro i hi hfuel
      unfold dump
      split
      . rw [Nat.mod_eq_of_lt (by omega)]
        exact ih _ (by omega) (by omega)
      . rfl
  exact ⟨e + 4, hends _ _ (by omega) (by omega)⟩

-- The walk stops at an A record with some of its address missing.
def Truncated (pkt : Nat → UInt8) (e : Nat) : Prop :=
  let p := (skipHost pkt e 12).1
  let res := answers pkt e (p + 5)
  getUnalignedBe16 pkt 6 ≠ 0 ∧ p + 5 ≤ e ∧ getUnalignedBe16 pkt (p + 1) = dnsARecord
    ∧ res.1 = true ∧ res.2.1 + 12 < e ∧ e < res.2.1 + 16

theorem dnsHandler_safe_iff {dest dnsOurPort : Nat} (h : e ≤ Defrag.ipMaxudp)
    : (∀ r ∈ dnsHandler pkt e dest dnsOurPort, Inside e r) ∧ (∃ fuel, dump e fuel 0 = some ())
      ↔ (dest = dnsOurPort → 6 ≤ e ∧ (getUnalignedBe16 pkt 4 = 1 → 8 ≤ e ∧ ¬Truncated pkt e)) := by
  have hends := dump_ends (e := e) (by unfold Defrag.ipMaxudp Defrag.ipPktsize Defrag.ipHdrSize at h; omega)
  have hhost := iff_true_intro (@inside_skipHost pkt e 12)
  have hanswers := iff_true_intro (@inside_answers pkt e ((skipHost pkt e 12).1 + 5))
  unfold dnsHandler Truncated
  simp only [forall_mem_ite, forall_mem_cons, forall_mem_append, not_mem_nil, false_implies, implies_true,
    and_true, true_and, hhost, hanswers]
  unfold Inside
  grind

-- The answer leads to its name with a CNAME record.
def cnameReply (p : Nat) : UInt8 :=
  [0, 0, 0, 0, 0, 1, 0, 2, 0, 0, 0, 0, 0, 0, 1, 0, 1, 0xc0, 12, 0, 5, 0, 1, 0, 0, 0, 0, 0, 2, 0xc0, 12,
    0xc0, 12, 0, 1, 0, 1, 0, 0, 0, 0, 0, 4, 10, 0, 0, 9].getD p 0

theorem dnsHandler_safe_cname
    : (∀ r ∈ dnsHandler cnameReply 47 53 53, Inside 47 r) ∧ (∃ fuel, dump 47 fuel 0 = some ()) := by
  have hhost : (skipHost cnameReply 47 12).1 = 12 := by
    rw [skipHost]
    decide
  have hlast : answers cnameReply 47 31 = (true, 31, [(31, 1), (33, 2)]) := by
    rw [answers]
    decide
  have hanswers : (answers cnameReply 47 17).2.1 = 31 := by
    rw [answers]
    simp [cnameReply, skipOwner, getUnalignedBe16, dnsCnameRecord, hlast]
  refine (dnsHandler_safe_iff (by decide)).mpr fun _ => ⟨by decide, fun _ => ⟨by decide, ?_⟩⟩
  intro ⟨_, _, _, _, _, hlt⟩
  rw [hhost, hanswers] at hlt
  omega

-- One byte of the address is left.
def shortReply (p : Nat) : UInt8 :=
  [0, 0, 0, 0, 0, 1, 0, 1, 0, 0, 0, 0, 0, 0, 1, 0, 1, 0xc0, 12, 0, 1, 0, 1, 0, 0, 0, 0, 0, 4, 10].getD p 0

theorem not_safe_shortReply : ¬∀ r ∈ dnsHandler shortReply 30 53 53, Inside 30 r := by
  intro h
  have hhost : skipHost shortReply 30 12 = (12, [(12, 1)]) := by
    rw [skipHost]
    decide
  have hanswers : answers shortReply 30 17 = (true, 17, [(17, 1), (19, 2)]) := by
    rw [answers]
    decide
  have hread : (29, 4) ∈ dnsHandler shortReply 30 53 53 := by
    unfold dnsHandler
    rw [hhost]
    dsimp only
    rw [hanswers]
    decide
  exact absurd (h _ hread) (by decide)

end UBoot.Dns
