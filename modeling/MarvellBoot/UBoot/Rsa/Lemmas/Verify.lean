import MarvellBoot.UBoot.Rsa.Impl.Verify
import MarvellBoot.UBoot.Rsa.Lemmas.PowMod

namespace UBoot.Rsa

open List Option

variable {cs ct msg l rest : List UInt8} {padLen : Int} {algo : ChecksumAlgo} {k count : Nat}

lemma memcmp_spec (hcs : count ≤ cs.length) (hct : count ≤ ct.length)
    : ∃ res, memcmp cs ct count = some res
        ∧ -256 < res ∧ res < 256
        ∧ (res = 0 ↔ cs.take count = ct.take count) := by
  induction count generalizing cs ct with
  | zero => exact ⟨0, by simp [memcmp]⟩
  | succ count ih =>
    match cs, ct with
    | [], _ => simp at hcs
    | _ :: _, [] => simp at hct
    | c :: cs, t :: ct =>
      rw [length_cons] at hcs hct
      have hc := c.toNat_lt
      have ht := t.toNat_lt
      unfold memcmp
      dsimp only
      split
      . next hne =>
        refine ⟨_, rfl, by omega, by omega, ?_⟩
        rw [take_succ_cons, take_succ_cons, cons.injEq, ← UInt8.toNat_inj]
        omega
      next heq =>
      have hcs : count ≤ cs.length := by omega
      have hct : count ≤ ct.length := by omega
      have ⟨res, hres, hge, hle, hiff⟩ := ih hcs hct
      refine ⟨res, hres, hge, hle, ?_⟩
      have hhead : c = t := by
        rw [← UInt8.toNat_inj]
        omega
      rw [hiff, take_succ_cons, take_succ_cons, hhead, cons.injEq, eq_self, true_and]

lemma memcmp_eq_none (hpre : cs <+: ct ∨ ct <+: cs)
    (hcount : cs.length < count ∨ ct.length < count) : memcmp cs ct count = none := by
  induction count generalizing cs ct with
  | zero => omega
  | succ count ih =>
    match cs, ct with
    | [], _ => simp [memcmp]
    | _ :: _, [] => simp [memcmp]
    | c :: cs, t :: ct =>
      rw [cons_prefix_cons, cons_prefix_cons] at hpre
      rw [length_cons, length_cons] at hcount
      have hhead : c = t := by
        cases hpre with
        | inl hpre => exact hpre.1
        | inr hpre => exact hpre.1.symm
      unfold memcmp
      rw [hhead, sub_self, if_neg (not_not.mpr rfl)]
      apply ih
      . cases hpre with
        | inl hpre => exact .inl hpre.2
        | inr hpre => exact .inr hpre.2
      . omega

lemma ofInt_eq_zero_iff {x : Int} (hge : -256 < x) (hlt : x < 256) : BitVec.ofInt 32 x = 0 ↔ x = 0 := by
  rw [← BitVec.toInt_inj, BitVec.toInt_ofInt]
  simp [Int.bmod]
  omega

lemma ofNat_byte_eq_iff (b c : UInt8) : BitVec.ofNat 32 b.toNat = BitVec.ofNat 32 c.toNat ↔ b = c := by
  have hb := b.toNat_lt
  have hc := c.toNat_lt
  rw [← BitVec.toNat_inj, BitVec.toNat_ofNat, BitVec.toNat_ofNat, ← UInt8.toNat_inj]
  omega

lemma byteAt_natCast {i : Nat} (h : i < msg.length) : byteAt msg i = some (BitVec.ofNat 32 msg[i].toNat) := by
  unfold byteAt
  rw [if_neg (by omega), Int.toNat_natCast, getElem?_eq_getElem h, map_some]

lemma byteAt_eq_none {i : Int} (h : msg.length ≤ i) : byteAt msg i = none := by
  unfold byteAt
  rw [if_neg (by omega), getElem?_eq_none (by omega), map_none]

lemma take_eq_replicate_iff (x : UInt8) (h : k < l.length)
    : l.take (k + 1) = replicate (k + 1) x ↔ l[0] = x ∧ l.take k = (l.drop 1).take k := by
  induction k generalizing l with
  | zero =>
    match l with
    | a :: l => simp
  | succ k ih =>
    match l with
    | [_] => simp at h
    | a :: b :: l =>
      rw [length_cons, add_lt_add_iff_right] at h
      rw [take_succ_cons, replicate_succ, cons.injEq, ih h]
      simp only [getElem_cons_zero, drop_succ_cons, drop_zero, take_succ_cons, cons.injEq]
      constructor
      . intro ⟨ha, hb, htake⟩
        exact ⟨ha, ha.trans hb.symm, htake⟩
      . intro ⟨ha, hab, htake⟩
        exact ⟨ha, hab.symm.trans ha, htake⟩

lemma take_eq_append_iff {a b : List UInt8} (h : a.length ≤ l.length)
    : l.take (a.length + b.length) = a ++ b ↔ l.take a.length = a ∧ (l.drop a.length).take b.length = b := by
  have hlen : (l.take a.length).length = a.length := by
    rw [length_take]
    omega
  rw [take_add]
  constructor
  . intro heq
    exact append_inj heq hlen
  . intro ⟨ha, hb⟩
    rw [ha, hb]

def padding (algo : ChecksumAlgo) (ffLen : Nat) : List UInt8 :=
  [0x00, 0x01] ++ (List.replicate ffLen 0xff ++ (0x00 :: algo.derPrefix))

section

variable (hder : algo.derPrefix.length = algo.derLen)

include hder

lemma length_padding (ffLen : Nat) : (padding algo ffLen).length = ffLen + algo.derLen + 3 := by
  simp [padding, hder]
  omega

lemma take_eq_padding_iff
    (hlen : k + 1 + algo.derLen + 3 ≤ msg.length)
    : msg.take (k + 1 + algo.derLen + 3) = padding algo (k + 1)
      ↔ msg[0] = 0x00
        ∧ msg[1] = 0x01
        ∧ (msg[2] = 0xff ∧ (msg.drop 2).take k = (msg.drop 3).take k)
        ∧ msg[k + 3] = 0x00
        ∧ (msg.drop (k + 4)).take algo.derLen = algo.derPrefix := by
  match msg, hlen with
  | b0 :: b1 :: l, hlen =>
    have hlen : k + 1 + algo.derLen + 1 ≤ l.length := by
      simp only [length_cons] at hlen
      omega
    have hrun := take_eq_replicate_iff (l := l) 0xff (k := k) (by omega)
    have happ := take_eq_append_iff (l := l) (a := replicate (k + 1) 0xff)
      (b := 0x00 :: algo.derPrefix) (by rw [length_replicate]; omega)
    rw [length_replicate, length_cons, hder] at happ
    have hget : l.drop (k + 1) = l[k + 1] :: l.drop (k + 2) := drop_eq_getElem_cons (by omega)
    have hsum : k + 1 + algo.derLen + 3 = k + 1 + (algo.derLen + 1) + 2 := by omega
    rw [hget, take_succ_cons, cons.injEq, hrun] at happ
    unfold padding
    rw [hsum, take_succ_cons, take_succ_cons, cons_append, cons_append, nil_append, cons.injEq, cons.injEq, happ]
    rfl

lemma rsaVerifyPadding_spec
    (hk : k < 2 ^ 64)
    (hlen : k + 1 + algo.derLen + 3 ≤ msg.length)
    : ∃ ret, rsaVerifyPadding msg (k + 1 + algo.derLen + 3 : Nat) algo = some ret
        ∧ (ret = 0 ↔ msg.take (k + 1 + algo.derLen + 3) = padding algo (k + 1)) := by
  have hff : ((k + 1 + algo.derLen + 3 : Nat) : Int) - algo.derLen - 3 = (k + 1 : Nat) := by omega
  have hcount : ((((k + 1 : Nat) : Int) - 1) % 2 ^ 64).toNat = k := by omega
  have hdrop : (3 + ((k + 1 : Nat) : Int)).toNat = k + 4 := by omega
  have hlast : 2 + ((k + 1 : Nat) : Int) = (k + 3 : Nat) := by omega
  have h0 : byteAt msg 0 = _ := byteAt_natCast (i := 0) (by omega)
  have h1 : byteAt msg 1 = _ := byteAt_natCast (i := 1) (by omega)
  have h2 : byteAt msg 2 = _ := byteAt_natCast (i := 2) (by omega)
  have h3 : byteAt msg (k + 3 : Nat) = _ := byteAt_natCast (by omega)
  have hlen2 : k ≤ (msg.drop 2).length := by
    rw [length_drop]
    omega
  have hlen3 : k ≤ (msg.drop 3).length := by
    rw [length_drop]
    omega
  have hlen4 : algo.derLen ≤ (msg.drop (k + 4)).length := by
    rw [length_drop]
    omega
  have ⟨run, hrun, hge, hlt, hzero⟩ := memcmp_spec hlen2 hlen3
  have ⟨der, hderRes, hge', hlt', hzero'⟩ := memcmp_spec hlen4 (le_of_eq hder.symm)
  rw [← hder, take_length, hder] at hzero'
  unfold rsaVerifyPadding
  simp only [hff, hcount, hdrop, hlast, h0, h1, h2, h3, hrun, hderRes, bind_eq_bind, bind_some, Option.pure_def]
  refine ⟨_, rfl, ?_⟩
  rw [take_eq_padding_iff hder hlen, ← hzero', ← hzero, ← ofInt_eq_zero_iff hge hlt,
    ← ofInt_eq_zero_iff hge' hlt', ← ofNat_byte_eq_iff _ 0x00, ← ofNat_byte_eq_iff _ 0x01,
    ← ofNat_byte_eq_iff _ 0xff, ← ofNat_byte_eq_iff _ 0x00]
  simp only [BitVec.ofNat_eq_ofNat, BitVec.or_eq_zero_iff, BitVec.xor_eq_zero_iff, and_assoc]
  rfl

end

lemma rsaVerifyPadding_eq_none
    (h : memcmp (msg.drop 2) (msg.drop 3) ((padLen - algo.derLen - 3 - 1) % 2 ^ 64).toNat = none
      ∨ byteAt msg (2 + (padLen - algo.derLen - 3)) = none
      ∨ memcmp (msg.drop (3 + (padLen - algo.derLen - 3)).toNat) algo.derPrefix algo.derLen = none)
    : rsaVerifyPadding msg padLen algo = none := by
  unfold rsaVerifyPadding
  rcases h with h | h | h
  all_goals simp only [h, bind_eq_bind, bind_none, bind_fun_none]

variable {padLen : Nat}

namespace rsaVerifyKey

def check (buf hash : List UInt8) (padLen : Nat) (algo : ChecksumAlgo) : Option Int := do
  let ret ← rsaVerifyPadding buf padLen algo
  if ret ≠ 0 then
    return einval
  let ret ← memcmp (buf.drop padLen) hash (((buf.length : Int) - padLen) % 2 ^ 32).toNat
  if ret ≠ 0 then
    return eacces
  return 0

variable {algo : ChecksumAlgo} {buf hash : List UInt8} {k : Nat}

lemma check_eq_none (h : rsaVerifyPadding buf padLen algo = none) : check buf hash padLen algo = none := by
  unfold check
  rw [h]
  rfl

lemma check_of_le (hash : List UInt8) (hder : algo.derPrefix.length = algo.derLen)
    (hlen : k + 1 + algo.derLen + 3 ≤ buf.length) (hlt : buf.length < 2 ^ 32)
    : ∃ ret : BitVec 32, (ret = 0 ↔ buf.take (k + 1 + algo.derLen + 3) = padding algo (k + 1))
        ∧ check buf hash (k + 1 + algo.derLen + 3) algo
          = if ret ≠ 0 then
              some einval
            else
              (memcmp (buf.drop (k + 1 + algo.derLen + 3)) hash
                (buf.length - (k + 1 + algo.derLen + 3))).map fun ret =>
                  if ret ≠ 0 then eacces else 0 := by
  have ⟨ret, hret, hiff⟩ := rsaVerifyPadding_spec hder (by omega) hlen
  have hcount : (((buf.length : Int) - (k + 1 + algo.derLen + 3 : Nat)) % 2 ^ 32).toNat
      = buf.length - (k + 1 + algo.derLen + 3) := by omega
  refine ⟨ret, hiff, ?_⟩
  unfold check
  rw [hret, hcount]
  simp only [bind_eq_bind, bind_some, Option.pure_def]
  split
  . rfl
  cases memcmp (buf.drop (k + 1 + algo.derLen + 3)) hash (buf.length - (k + 1 + algo.derLen + 3)) with
  | none => rfl
  | some res =>
    simp only [bind_some, map_some]
    split <;> rfl

lemma check_spec (hder : algo.derPrefix.length = algo.derLen)
    (hlen : buf.length = k + 1 + algo.derLen + 3 + hash.length) (hlt : buf.length < 2 ^ 32)
    : ∃ ret, check buf hash (k + 1 + algo.derLen + 3) algo = some ret
        ∧ (ret = 0 ↔ buf = padding algo (k + 1) ++ hash) := by
  have ⟨ret, hiff, hcheck⟩ := check_of_le hash hder (k := k) (by omega) hlt
  have hdrop : (buf.drop (k + 1 + algo.derLen + 3)).length = hash.length := by
    rw [length_drop]
    omega
  have hsplit : buf = padding algo (k + 1) ++ hash
      ↔ buf.take (k + 1 + algo.derLen + 3) = padding algo (k + 1) ∧ buf.drop (k + 1 + algo.derLen + 3) = hash := by
    have happ := take_eq_append_iff (l := buf) (a := padding algo (k + 1)) (b := hash)
      (by rw [length_padding hder]; omega)
    rw [length_padding hder, ← hlen, take_length] at happ
    rw [happ, take_of_length_le hdrop.le]
  rw [hcheck, hsplit, ← hiff]
  split
  . next hne =>
    refine ⟨einval, rfl, ?_⟩
    constructor
    . intro h
      simp [einval] at h
    . intro ⟨h, _⟩
      exact absurd h hne
  next heq =>
  have hcount : buf.length - (k + 1 + algo.derLen + 3) = hash.length := by omega
  have ⟨res, hres, _, _, hzero⟩ := memcmp_spec (le_of_eq hdrop.symm) le_rfl
  rw [take_of_length_le hdrop.le, take_length] at hzero
  rw [hcount, hres, ← hzero]
  refine ⟨_, rfl, ?_⟩
  rw [not_not.mp heq]
  simp [eacces]

lemma length_lt_of_ne_nil {l1 l2 : List UInt8} (h : l2 ≠ []) : l1.length < (l1 ++ l2).length := by
  rw [length_append]
  have := length_pos_iff.mpr h
  omega

section

variable (hder : algo.derPrefix.length = algo.derLen)

include hder

lemma check_padding
    (hbuf : buf = padding algo (k + 1) ++ rest) (hlt : buf.length < 2 ^ 32)
    : check buf hash (k + 1 + algo.derLen + 3) algo
      = (memcmp rest hash rest.length).map fun ret => if ret ≠ 0 then eacces else 0 := by
  have hpad := length_padding hder (k + 1)
  have hle : k + 1 + algo.derLen + 3 ≤ buf.length := by
    rw [hbuf, length_append, hpad]
    omega
  have ⟨ret, hiff, hcheck⟩ := check_of_le hash hder hle hlt
  have htake : buf.take (k + 1 + algo.derLen + 3) = padding algo (k + 1) := by
    rw [hbuf, ← hpad, take_left]
  have hdrop : buf.drop (k + 1 + algo.derLen + 3) = rest := by
    rw [hbuf, ← hpad, drop_left]
  have hcount : buf.length - (k + 1 + algo.derLen + 3) = rest.length := by
    rw [← hdrop, length_drop]
  rw [hcheck, if_neg (not_not.mpr (hiff.mpr htake)), hdrop, hcount]

lemma check_eq_none_of_lt
    (hrest : rest ≠ []) (hbuf : buf = padding algo (k + 1) ++ (hash ++ rest))
    (hlt : buf.length < 2 ^ 32)
    : check buf hash (k + 1 + algo.derLen + 3) algo = none := by
  rw [check_padding hder hbuf hlt, memcmp_eq_none (.inr (prefix_append hash rest)) (.inr (length_lt_of_ne_nil hrest))]
  rfl

lemma check_eq_zero_of_lt
    (hrest : rest <+: hash) (hbuf : buf = padding algo (k + 1) ++ rest) (hlt : buf.length < 2 ^ 32)
    : check buf hash (k + 1 + algo.derLen + 3) algo = some 0 := by
  have ⟨res, hres, _, _, hzero⟩ := memcmp_spec (le_refl rest.length) hrest.length_le
  have hres0 : res = 0 := by
    rw [hzero, take_length]
    exact prefix_iff_eq_take.mp hrest
  rw [check_padding hder hbuf hlt, hres, hres0]
  rfl

end

lemma check_eq_none_of_short (hlen : buf.length < k + 1 + algo.derLen + 3) (hbuf : buf <+: padding algo (k + 1))
    : check buf hash (k + 1 + algo.derLen + 3) algo = none := by
  apply check_eq_none
  have hff : ((k + 1 + algo.derLen + 3 : Nat) : Int) - algo.derLen - 3 = (k + 1 : Nat) := by omega
  cases lt_or_ge (k + 3) buf.length with
  | inl hlast =>
    refine rsaVerifyPadding_eq_none (.inr (.inr ?_))
    have hdrop : (3 + ((k + 1 : Nat) : Int)).toNat = k + 4 := by omega
    rw [hff, hdrop]
    have hpre : buf.drop (k + 4) <+: algo.derPrefix := by
      have hpadding : (padding algo (k + 1)).drop (k + 4) = algo.derPrefix := by
        simp [padding, drop_append]
      have ⟨rest, hrest⟩ := hbuf
      rw [← hpadding, ← hrest, drop_append_of_le_length hlast]
      apply prefix_append
    apply memcmp_eq_none (.inl hpre)
    rw [length_drop]
    omega
  | inr hlast =>
    refine rsaVerifyPadding_eq_none (.inr (.inl ?_))
    apply byteAt_eq_none
    omega

lemma check_eq_none_of_run {b0 b1 : UInt8} (m : Nat)
    (hlen : padLen < algo.derLen + 4) (hder : algo.derLen < 2 ^ 32) (hm : m < 2 ^ 32)
    (hbuf : buf = b0 :: b1 :: replicate (m + 1) 0xff)
    : check buf hash padLen algo = none := by
  apply check_eq_none
  refine rsaVerifyPadding_eq_none (.inl ?_)
  have hdrop2 : buf.drop 2 = replicate m 0xff ++ [0xff] := by
    rw [hbuf, ← replicate_succ']
    rfl
  have hdrop3 : buf.drop 3 = replicate m 0xff := by
    rw [hbuf]
    rfl
  rw [hdrop2, hdrop3]
  apply memcmp_eq_none (.inr (prefix_append _ _))
  right
  rw [length_replicate]
  omega

end rsaVerifyKey

end UBoot.Rsa
