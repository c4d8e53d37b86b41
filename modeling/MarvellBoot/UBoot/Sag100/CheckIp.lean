import MarvellBoot.UBoot.Tftp.Impl

namespace UBoot.Sag100

open Tftp List

def digitsEnd (base : Nat) (cp : List UInt8) : List UInt8 := cp.dropWhile fun c => (xdigit c).any (· < base)

-- What `simple_strtoul` leaves `endp` at. Its result is `simpleStrtoul`.
def endp : List UInt8 → List UInt8
  | 0x30 :: 0x78 :: c :: cp => if (xdigit c).isSome then digitsEnd 16 (c :: cp) else digitsEnd 10 (0x78 :: c :: cp)
  | 0x30 :: cp => digitsEnd 10 cp
  | cp => digitsEnd 10 cp

def dot : UInt8 := 0x2e

-- The second result is not part of the code. It lists the offsets in `addrBuf` that are written to.
def checkIpLoop : (count pos : Nat) → (pBuf : List UInt8) → Int × List Nat
  | 0, _, pBuf => (if endp pBuf ≠ [] ∨ 256 < simpleStrtoul pBuf then -1 else 0, [])
  | count + 1, pos, pBuf =>
    match pBuf.dropWhile (· ≠ dot) with
    | [] => (-1, [])
    | _ :: rest =>
      let part := pBuf.takeWhile (· ≠ dot)
      let colon := pos + part.length
      if endp part ≠ [] ∨ 256 < simpleStrtoul part then
        (-1, [colon])
      else
        let (ret, writes) := checkIpLoop count (colon + 1) rest
        (ret, colon :: writes)

def mbootFuncCheckIp (strAddr : List UInt8) : Int × List Nat :=
  if 20 < strAddr.length then
    (-1, [])
  else
    let (ret, writes) := checkIpLoop 3 0 strAddr
    (ret, range (strAddr.length + 1) ++ writes)

def decimal (part : List UInt8) : Nat := part.foldl (fun n c => n * 10 + (c.toNat - 0x30)) 0

def IsDigits (part : List UInt8) : Prop := ∀ c ∈ part, 0x30 ≤ c ∧ c ≤ 0x39

def IsOctet (part : List UInt8) : Prop := part ≠ [] ∧ IsDigits part ∧ decimal part ≤ 255

def IsAddr (str : List UInt8) : Prop := (str.splitOn dot).length = 4 ∧ ∀ part ∈ str.splitOn dot, IsOctet part

def Exact (str : List UInt8) : Prop :=
  ((mbootFuncCheckIp str).1 = 0 ↔ IsAddr str) ∧ ∀ i ∈ (mbootFuncCheckIp str).2, i < 20

def hexadecimal (part : List UInt8) : Nat := part.foldl (fun n c => n * 16 + (xdigit c).getD 0) 0

/-- No octet, but `simple_strtoul` reads it to its end and gives at most 256. -/
inductive Stray : List UInt8 → Prop
  | empty : Stray []
  | large {part : List UInt8} : IsDigits part → decimal part = 256 → Stray part
  | hex {part : List UInt8} : part ≠ [] → (∀ c ∈ part, (xdigit c).isSome) → hexadecimal part ≤ 256 →
    Stray (0x30 :: 0x78 :: part)

def Misread (str : List UInt8) : Prop :=
  (str.splitOn dot).length = 4 ∧ (∀ part ∈ str.splitOn dot, IsOctet part ∨ Stray part)
    ∧ ∃ part ∈ str.splitOn dot, Stray part

variable {part str pBuf : List UInt8}

lemma xdigit_any_lt_ten (c : UInt8) : (xdigit c).any (· < 10) = true ↔ 0x30 ≤ c ∧ c ≤ 0x39 := by
  unfold xdigit
  split
  . next h =>
    have hle : c.toNat ≤ 0x39 := h.2
    simp only [Option.any_some, decide_eq_true_eq, h, and_self, iff_true]
    omega
  . next h =>
    rw [iff_false_intro h]
    split
    . simp
    split
    . simp
    . simp

lemma xdigit_any_lt_sixteen (c : UInt8) : (xdigit c).any (· < 16) = true ↔ (xdigit c).isSome := by
  unfold xdigit
  split
  . next h =>
    have hle : c.toNat ≤ 0x39 := h.2
    simp only [Option.any_some, Option.isSome_some, decide_eq_true_eq, iff_true]
    omega
  split
  . next h =>
    have hle : c.toNat ≤ 0x66 := h.2
    simp only [Option.any_some, Option.isSome_some, decide_eq_true_eq, iff_true]
    omega
  split
  . next h =>
    have hle : c.toNat ≤ 0x46 := h.2
    simp only [Option.any_some, Option.isSome_some, decide_eq_true_eq, iff_true]
    omega
  . simp

lemma digits_eq {base result : Nat} {value : UInt8 → Nat} (h : ∀ c ∈ part, xdigit c = some (value c) ∧ value c < base)
    (hlt : (result + 1) * base ^ part.length ≤ 2 ^ 64)
    : digits base result part = part.foldl (fun n c => n * base + value c) result := by
  induction part generalizing result with
  | nil => rfl
  | cons c part ih =>
    have ⟨hc, hvalue⟩ := h c mem_cons_self
    rw [length_cons, Nat.pow_succ', ← Nat.mul_assoc] at hlt
    have hstep : result * base + value c + 1 ≤ (result + 1) * base := by
      rw [Nat.succ_mul]
      omega
    have hnext := Nat.le_trans (Nat.mul_le_mul_right _ hstep) hlt
    have hsmall := Nat.le_trans (Nat.le_mul_of_pos_right _ (Nat.pow_pos (Nat.zero_lt_of_lt hvalue))) hnext
    rw [digits, hc]
    dsimp only
    rw [if_pos hvalue, Nat.mod_eq_of_lt hsmall, ih (fun c hc => h c (mem_cons_of_mem _ hc)) hnext, foldl_cons]

lemma digits_decimal (h : IsDigits part) (hlen : part.length ≤ 18) : digits 10 0 part = decimal part := by
  apply digits_eq
  . intro c hc
    have hle : c.toNat ≤ 0x39 := (h c hc).2
    exact ⟨by rw [xdigit, if_pos (h c hc)], by omega⟩
  . have hpow : 10 ^ part.length ≤ 10 ^ 18 := Nat.pow_le_pow_right (by decide) hlen
    omega

lemma digits_hexadecimal (h : ∀ c ∈ part, (xdigit c).isSome) (hlen : part.length ≤ 16)
    : digits 16 0 part = hexadecimal part := by
  apply digits_eq
  . intro c hc
    obtain ⟨d, hd⟩ := Option.isSome_iff_exists.mp (h c hc)
    have hlt := (xdigit_any_lt_sixteen c).mpr (h c hc)
    rw [hd] at hlt
    rw [hd]
    exact ⟨rfl, of_decide_eq_true hlt⟩
  . have hpow : 16 ^ part.length ≤ 16 ^ 16 := Nat.pow_le_pow_right (by decide) hlen
    omega

lemma digitsEnd_ten_eq_nil_iff : digitsEnd 10 part = [] ↔ IsDigits part := by
  simp only [digitsEnd, dropWhile_eq_nil_iff, xdigit_any_lt_ten, IsDigits]

lemma digitsEnd_sixteen_eq_nil_iff : digitsEnd 16 part = [] ↔ ∀ c ∈ part, (xdigit c).isSome := by
  simp only [digitsEnd, dropWhile_eq_nil_iff, xdigit_any_lt_sixteen]

-- The prefix `0x` counts only if a hexadecimal digit follows.
def IsHex (part : List UInt8) : Prop := ∃ c cp, part = 0x30 :: 0x78 :: c :: cp ∧ (xdigit c).isSome

lemma endp_of_not_isHex (h : ¬IsHex part) : endp part = digitsEnd 10 part := by
  unfold endp
  split
  . next c cp =>
    rw [if_neg fun hc => h ⟨c, cp, rfl, hc⟩]
    rfl
  . rfl
  . rfl

lemma simpleStrtoul_of_not_isHex (h : ¬IsHex part) : simpleStrtoul part = digits 10 0 part := by
  unfold simpleStrtoul
  split
  . next c cp =>
    rw [if_neg fun hc => h ⟨c, cp, rfl, hc⟩]
    rfl
  . rfl
  . rfl

lemma Stray.not_isOctet (h : Stray part) : ¬IsOctet part := by
  rintro ⟨hne, hdigits, hle⟩
  cases h with
  | empty => contradiction
  | large _ h => omega
  | hex => exact absurd (hdigits 0x78 (by simp)) (by decide)

lemma dot_not_mem (h : IsOctet part ∨ Stray part) : dot ∉ part := by
  intro hmem
  rcases h with h | h
  . exact absurd (h.2.1 dot hmem) (by decide)
  cases h with
  | empty => contradiction
  | large hdigits => exact absurd (hdigits dot hmem) (by decide)
  | hex _ hall =>
    have hmem := (mem_cons.mp ((mem_cons.mp hmem).resolve_left (by decide))).resolve_left (by decide)
    exact absurd (hall dot hmem) (by decide)

lemma accepted_iff (hlen : part.length ≤ 18)
    : ¬(endp part ≠ [] ∨ 256 < simpleStrtoul part) ↔ IsOctet part ∨ Stray part := by
  rw [not_or, not_not, not_lt]
  by_cases hhex : IsHex part
  . obtain ⟨c, cp, rfl, hc⟩ := hhex
    have hnot : ¬IsDigits (0x30 :: 0x78 :: c :: cp) := fun h => absurd (h 0x78 (by simp)) (by decide)
    have hlen : (c :: cp).length ≤ 16 := by
      simp only [length_cons] at hlen ⊢
      omega
    rw [endp, if_pos hc, simpleStrtoul, if_pos hc, digitsEnd_sixteen_eq_nil_iff]
    constructor
    . rintro ⟨hall, hle⟩
      rw [digits_hexadecimal hall hlen] at hle
      exact .inr (.hex (cons_ne_nil _ _) hall hle)
    . rintro (h | h)
      . exact absurd h.2.1 hnot
      cases h with
      | large h => contradiction
      | hex _ hall hle => exact ⟨hall, by rwa [digits_hexadecimal hall hlen]⟩
  . rw [endp_of_not_isHex hhex, simpleStrtoul_of_not_isHex hhex, digitsEnd_ten_eq_nil_iff]
    constructor
    . rintro ⟨hdigits, hle⟩
      rw [digits_decimal hdigits hlen] at hle
      by_cases hnil : part = []
      . exact .inr (hnil ▸ .empty)
      by_cases heq : decimal part = 256
      . exact .inr (.large hdigits heq)
      . exact .inl ⟨hnil, hdigits, by omega⟩
    . rintro (h | h)
      . rw [digits_decimal h.2.1 hlen]
        exact ⟨h.2.1, Nat.le_succ_of_le h.2.2⟩
      cases h with
      | empty => exact ⟨fun c hc => absurd hc not_mem_nil, by decide⟩
      | large hdigits heq => exact ⟨hdigits, by rw [digits_decimal hdigits hlen, heq]⟩
      | hex hne hall =>
        obtain ⟨c, cp, rfl⟩ := exists_cons_of_ne_nil hne
        exact absurd ⟨c, cp, rfl, hall c mem_cons_self⟩ hhex

lemma splitOn_eq (pBuf : List UInt8)
    : pBuf.dropWhile (· ≠ dot) = [] ∧ pBuf.splitOn dot = [pBuf]
      ∨ ∃ part rest, pBuf.dropWhile (· ≠ dot) = dot :: rest ∧ pBuf.takeWhile (· ≠ dot) = part
        ∧ pBuf = part ++ dot :: rest ∧ pBuf.splitOn dot = part :: rest.splitOn dot := by
  have happend := @takeWhile_append_dropWhile _ (· ≠ dot) pBuf
  cases hdrop : pBuf.dropWhile (· ≠ dot) with
  | nil =>
    refine .inl ⟨rfl, splitOn_eq_singleton ?_⟩
    intro hmem
    simpa using dropWhile_eq_nil_iff.mp hdrop dot hmem
  | cons c rest =>
    have hc := head?_dropWhile_not (· ≠ dot) pBuf
    rw [hdrop] at hc happend
    have hc : c = dot := by simpa using hc
    have hnot : dot ∉ pBuf.takeWhile (· ≠ dot) := fun hmem => by simpa using mem_takeWhile_imp hmem
    rw [hc] at happend ⊢
    refine .inr ⟨_, rest, rfl, rfl, happend.symm, ?_⟩
    rw [← splitOn_append_cons_self_of_not_mem hnot, happend]

-- With the dots that are still to come a part has at most 18 characters, too few for its value to wrap.
lemma loop_eq_zero_iff {count pos : Nat} (hcount : count ≤ 3) (hlen : pBuf.length ≤ 16 + count)
    : (checkIpLoop count pos pBuf).1 = 0
      ↔ (pBuf.splitOn dot).length = count + 1 ∧ ∀ part ∈ pBuf.splitOn dot, IsOctet part ∨ Stray part := by
  induction count generalizing pos pBuf with
  | zero =>
    have haccepted := @accepted_iff pBuf (by omega)
    have hret : (checkIpLoop 0 pos pBuf).1 = 0 ↔ IsOctet pBuf ∨ Stray pBuf := by
      rw [← haccepted, checkIpLoop]
      dsimp only
      split
      . simp_all
      . simp_all
    rw [hret]
    rcases splitOn_eq pBuf with ⟨_, hsplit⟩ | ⟨part, rest, _, _, hpBuf, hsplit⟩
    . simp [hsplit]
    have hmem : dot ∈ pBuf := by simp [hpBuf]
    rw [iff_false_intro fun h => dot_not_mem h hmem]
    simp [hsplit, splitOn_ne_nil]
  | succ count ih =>
    unfold checkIpLoop
    rcases splitOn_eq pBuf with ⟨hdrop, hsplit⟩ | ⟨part, rest, hdrop, htake, hpBuf, hsplit⟩
    . rw [hdrop, hsplit]
      simp
    rw [hpBuf, length_append, length_cons] at hlen
    rw [hdrop, htake, hsplit, forall_mem_cons, length_cons, ← @accepted_iff part (by omega)]
    have hrest := @ih rest (pos + part.length + 1) (by omega) (by omega)
    dsimp only
    split
    . next hbad => simp [hbad]
    . next hok => simp [hrest, hok]

lemma loop_writes {count pos : Nat} : ∀ i ∈ (checkIpLoop count pos pBuf).2, i < pos + pBuf.length := by
  induction count generalizing pos pBuf with
  | zero => simp [checkIpLoop]
  | succ count ih =>
    unfold checkIpLoop
    rcases splitOn_eq pBuf with ⟨hdrop, _⟩ | ⟨part, rest, hdrop, htake, hpBuf, _⟩
    . rw [hdrop]
      simp
    rw [hdrop, htake, hpBuf, length_append, length_cons]
    dsimp only
    split
    . simp
    intro i hi
    rcases mem_cons.mp hi with hi | hi
    . omega
    . have := ih i hi
      omega

lemma inside_iff : (∀ i ∈ (mbootFuncCheckIp str).2, i < 20) ↔ str.length ≠ 20 := by
  unfold mbootFuncCheckIp
  split
  . simp
    omega
  . next hle =>
    constructor
    . intro h heq
      exact absurd (h 20 (mem_append_left _ (mem_range.mpr (by omega)))) (by decide)
    . intro hne i hi
      rcases mem_append.mp hi with hi | hi
      . have := mem_range.mp hi
        omega
      . have := loop_writes i hi
        omega

theorem checkIp_exact_iff (str : List UInt8)
    : Exact str ↔ str.length ≠ 20 ∧ (20 < str.length → ¬IsAddr str) ∧ (str.length < 20 → ¬Misread str) := by
  rw [Exact, inside_iff, and_comm]
  apply and_congr_right
  intro hne
  by_cases hlong : 20 < str.length
  . have hshort : ¬str.length < 20 := by omega
    simp [mbootFuncCheckIp, hlong, hshort]
  have hshort : str.length < 20 := by omega
  have hret : (mbootFuncCheckIp str).1 = (checkIpLoop 3 0 str).1 := by rw [mbootFuncCheckIp, if_neg hlong]
  rw [hret, loop_eq_zero_iff le_rfl (by omega), iff_false_intro hlong]
  simp only [hshort, false_implies, true_implies, true_and]
  constructor
  . rintro h ⟨hcount, hall, part, hpart, hstray⟩
    exact hstray.not_isOctet ((h.mp ⟨hcount, hall⟩).2 part hpart)
  . intro hnot
    refine ⟨?_, fun h => ⟨h.1, fun part hpart => .inl (h.2 part hpart)⟩⟩
    rintro ⟨hcount, hall⟩
    refine ⟨hcount, fun part hpart => (hall part hpart).resolve_right ?_⟩
    intro hstray
    exact hnot ⟨hcount, hall, part, hpart, hstray⟩

theorem not_exact_dots : ¬Exact (replicate 3 dot) ∧ ¬Exact (replicate 20 dot) := by
  unfold Exact IsAddr IsOctet IsDigits
  decide

end UBoot.Sag100
