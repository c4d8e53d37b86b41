import MarvellBoot.Atf.Auth.Impl.TbbrCot
import MarvellBoot.Atf.Auth.Lemmas.Verify

namespace Atf.Auth

open authModVerifyImg Tbbr Bytes List Nat Function

variable {certNvCtr platNvCtr : AuthParamTypeDesc} {value : UInt32} {m : AuthMethodDesc} {c n v : Nat}
  {ms : List AuthMethodDesc} {p : Nat → UInt8}

variable {env : Env} {cot : Cot} {desc : AuthImgDesc} {img : Buf} {s s' : State} {rc : Int}

lemma nvCtr_le_setNvCtr {cookie : Nat} (h : s.nvCtr cookie < value) (c : Nat)
    : s.nvCtr c ≤ (s.setNvCtr cookie value).nvCtr c := by
  simp only [State.setNvCtr]
  split
  . next heq =>
    rw [heq]
    exact UInt32.le_of_lt h
  . exact UInt32.le_refl _

namespace authModVerifyImg

section

variable (h : method env cot desc img s m = some (rc, s'))

include h

lemma method_mono (c : Nat) : s.nvCtr c ≤ s'.nvCtr c := by
  cases method_eq h with
  | inl heq =>
    rw [heq]
    exact UInt32.le_refl _
  | inr hctr =>
    have ⟨_, _, _, hctr⟩ := hctr
    cases authNvctr_outcome hctr with
    | failed _ heq | equal _ heq =>
      rw [heq]
      exact UInt32.le_refl _
    | raised _ hlt _ heq =>
      rw [heq]
      exact nvCtr_le_setNvCtr hlt c

lemma method_failed (hrc : rc ≠ 0) : s'.nvCtr = s.nvCtr := by
  cases method_eq h with
  | inl heq => rw [heq]
  | inr hctr =>
    have ⟨_, _, _, hctr⟩ := hctr
    cases authNvctr_outcome hctr with
    | failed _ heq => exact heq
    | equal _ _ => contradiction
    | raised _ _ _ _ => contradiction

end

def SetBy (env : Env) (desc : AuthImgDesc) (img : Buf) (ms : List AuthMethodDesc) (c : Nat) (value : UInt32) : Prop :=
  desc.parent = none ∧ ∃ certNvCtr platNvCtr, .nvCtr certNvCtr platNvCtr ∈ ms
    ∧ platNvCtr.cookie = c ∧ CertNvCtr env desc img certNvCtr value

lemma method_changed (h : method env cot desc img s m = some (rc, s'))
    (hc : s'.nvCtr c ≠ s.nvCtr c) : SetBy env desc img [m] c (s'.nvCtr c) := by
  cases method_eq h with
  | inl heq =>
    rw [heq] at hc
    contradiction
  | inr hctr =>
    have ⟨certNvCtr, platNvCtr, hm, hctr⟩ := hctr
    cases authNvctr_outcome hctr with
    | failed _ heq | equal _ heq =>
      rw [heq] at hc
      contradiction
    | raised hcert _ hroot heq =>
      rw [heq] at hc ⊢
      simp only [State.setNvCtr] at hc ⊢
      split at hc
      . next hcookie =>
        rw [if_pos hcookie]
        exact ⟨hroot, certNvCtr, platNvCtr, mem_singleton.mpr hm.symm, hcookie.symm, hcert⟩
      . contradiction

lemma methods_mono (h : methods env cot desc img ms s = some (rc, s')) (c : Nat) : s.nvCtr c ≤ s'.nvCtr c := by
  induction ms generalizing s with
  | nil =>
    rw [(methods_nil h).2]
    exact UInt32.le_refl _
  | cons m ms ih =>
    rcases methods_cons h with ⟨_, hm⟩ | ⟨s1, hm, h⟩
    . exact method_mono hm c
    . exact UInt32.le_trans (method_mono hm c) (ih h)

lemma SetBy.mono {ms' : List AuthMethodDesc}
    (h : SetBy env desc img ms c value) (hsub : ms ⊆ ms') : SetBy env desc img ms' c value := by
  have ⟨hroot, certNvCtr, platNvCtr, hmem, hset⟩ := h
  exact ⟨hroot, certNvCtr, platNvCtr, hsub hmem, hset⟩

lemma methods_changed (h : methods env cot desc img ms s = some (rc, s')) (hc : s'.nvCtr c ≠ s.nvCtr c)
    : SetBy env desc img ms c (s'.nvCtr c) := by
  induction ms generalizing s with
  | nil =>
    rw [(methods_nil h).2] at hc
    contradiction
  | cons m ms ih =>
    have hsingle : [m] ⊆ m :: ms := by simp
    rcases methods_cons h with ⟨_, hm⟩ | ⟨s1, hm, h⟩
    . exact (method_changed hm hc).mono hsingle
    cases UInt32.decEq (s'.nvCtr c) (s1.nvCtr c) with
    | isTrue heq =>
      rw [heq] at hc ⊢
      exact (method_changed hm hc).mono hsingle
    | isFalse hne => exact (ih h hne).mono (subset_cons_self m ms)

lemma methods_notLower (h : methods env cot desc img ms s = some (0, s')) (hmem : .nvCtr certNvCtr platNvCtr ∈ ms)
    : ∃ value, CertNvCtr env desc img certNvCtr value ∧ s.nvCtr platNvCtr.cookie ≤ value := by
  induction ms generalizing s with
  | nil => contradiction
  | cons m ms ih =>
    rcases methods_cons h with ⟨hne, _⟩ | ⟨s1, hm, h⟩
    . contradiction
    rw [mem_cons] at hmem
    cases hmem with
    | inl heq =>
      rw [← heq] at hm
      injection hm with hm
      exact authNvctr_eq_zero hm
    | inr hmem =>
      have ⟨value, hcert, hle⟩ := ih h hmem
      exact ⟨value, hcert, UInt32.le_trans (method_mono hm _) hle⟩

def Commits (env : Env) (cot : Cot) (desc : AuthImgDesc) (img : Buf)
    : List AuthMethodDesc → State → Prop
  | [], _ => True
  | m :: ms, s =>
    ∀ s', method env cot desc img s m = some (0, s') →
      (s'.nvCtr ≠ s.nvCtr →
        (∃ s'', methods env cot desc img ms s' = some (0, s'')) ∧ Fits env desc img desc.authenticatedData)
        ∧ Commits env cot desc img ms s'

lemma nvCtr_antisymm {s1 s2 s3 : State} (h1 : ∀ c, s1.nvCtr c ≤ s2.nvCtr c)
    (h₂ : ∀ c, s2.nvCtr c ≤ s3.nvCtr c) (h : s3.nvCtr = s1.nvCtr)
    : s2.nvCtr = s1.nvCtr ∧ s3.nvCtr = s2.nvCtr := by
  have heq : s2.nvCtr = s1.nvCtr := by
    funext c
    apply UInt32.le_antisymm
    . rw [← h]
      exact h₂ c
    . exact h1 c
  exact ⟨heq, h.trans heq.symm⟩

lemma commits_iff (h : methods env cot desc img ms s = some (rc, s'))
    : Commits env cot desc img ms s ↔ (s'.nvCtr ≠ s.nvCtr → rc = 0 ∧ Fits env desc img desc.authenticatedData) := by
  induction ms generalizing s with
  | nil =>
    rw [(methods_nil h).2]
    simp [Commits]
  | cons m ms ih =>
    rcases methods_cons h with ⟨hne, hm⟩ | ⟨s1, hm, h⟩
    . constructor
      . intro _ hchanged
        exact absurd (method_failed hm hne) hchanged
      intro _ s2 hm'
      rw [hm] at hm'
      injection hm' with hm'
      injection hm' with hrc _
      contradiction
    have hmono := method_mono hm
    have hmono' := methods_mono h
    constructor
    . intro hcommits hchanged
      have ⟨hraise, hrest⟩ := hcommits s1 hm
      cases Classical.em (s1.nvCtr = s.nvCtr) with
      | inl heq =>
        rw [← heq] at hchanged
        exact (ih h).mp hrest hchanged
      | inr hne =>
        have ⟨⟨s2, hs2⟩, hfits⟩ := hraise hne
        rw [h] at hs2
        injection hs2 with hs2
        injection hs2 with hrc _
        exact ⟨hrc, hfits⟩
    intro hall s2 hm'
    rw [hm] at hm'
    injection hm' with hm'
    injection hm' with _ hs2
    rw [← hs2]
    constructor
    . intro hne
      have ⟨hrc, hfits⟩ := hall fun heq => hne (nvCtr_antisymm hmono hmono' heq).1
      rw [hrc] at h
      exact ⟨⟨s', h⟩, hfits⟩
    . apply (ih h).mpr
      intro hne
      exact hall fun heq => hne (nvCtr_antisymm hmono hmono' heq).2

end authModVerifyImg

structure Call where
  imgId : Nat
  img : Buf
  before : State
  rc : Int
  after : State

inductive Calls (env : Env) (cot : Cot) (start : State) : List Call → State → Prop where
  | nil : Calls env cot start [] start
  | concat {calls : List Call} {s s' : State} {imgId : Nat} {img : Buf} {rc : Int} :
      Calls env cot start calls s →
      authModVerifyImg env cot imgId img s = some (rc, s') →
      Calls env cot start (calls ++ [{ imgId, img, before := s, rc, after := s' }]) s'

def Call.Mono (call : Call) : Prop := ∀ c, call.before.nvCtr c ≤ call.after.nvCtr c

def Call.NotLower (env : Env) (cot : Cot) (call : Call) : Prop :=
  call.rc = 0 → ∀ certNvCtr platNvCtr,
    .nvCtr certNvCtr platNvCtr ∈ (cot.desc call.imgId).imgAuthMethods →
    ∃ value, CertNvCtr env (cot.desc call.imgId) call.img certNvCtr value ∧ call.before.nvCtr platNvCtr.cookie ≤ value

def Call.SetByAccepted (env : Env) (cot : Cot) (call : Call) : Prop :=
  ∀ c, call.after.nvCtr c ≠ call.before.nvCtr c → call.rc = 0
    ∧ SetBy env (cot.desc call.imgId) call.img (cot.desc call.imgId).imgAuthMethods c (call.after.nvCtr c)

def Call.Commits (env : Env) (cot : Cot) (call : Call) : Prop :=
  imgParserCheckIntegrity env (cot.desc call.imgId).imgType call.img = 0 →
    authModVerifyImg.Commits env cot (cot.desc call.imgId) call.img (cot.desc call.imgId).imgAuthMethods call.before

lemma setAuthenticated_nvCtr {p : Prop} [Decidable p] {id : Nat}
    : (if p then s.setAuthenticated id else s).nvCtr = s.nvCtr := by
  split
  . rfl
  . rfl

structure CallSpec (env : Env) (cot : Cot) (call : Call) : Prop where
  mono : call.Mono
  notLower : call.NotLower env cot
  setByAccepted : call.SetByAccepted env cot ↔ call.Commits env cot

lemma authModVerifyImg_spec {imgId : Nat} (h : authModVerifyImg env cot imgId img s = some (rc, s'))
    : CallSpec env cot { imgId, img, before := s, rc, after := s' } := by
  cases authModVerifyImg_outcome h with
  | integrity hne hintegrity =>
    refine ⟨fun _ => UInt32.le_refl _, fun hrc => absurd hrc hne, ?_⟩
    constructor
    . intro _ hzero
      rw [hintegrity] at hzero
      exact absurd hzero hne
    . intro _ c hc
      contradiction
  | rejected hne hintegrity hmethods =>
    refine ⟨methods_mono hmethods, fun hrc => absurd hrc hne, ?_⟩
    constructor
    . intro hset _
      apply (commits_iff hmethods).mpr
      intro hchanged
      have ⟨c, hc⟩ := ne_iff.mp hchanged
      exact absurd (hset c hc).1 hne
    . intro hcommits c hc
      have hchanged := ne_iff.mpr ⟨c, hc⟩
      exact absurd ((commits_iff hmethods).mp (hcommits hintegrity) hchanged).1 hne
  | extracted hintegrity hmethods hextract =>
    have hframe := (extract_frame hextract).nvCtr
    have hfits : rc = 0 ↔ Fits env (cot.desc imgId) img (cot.desc imgId).authenticatedData := by
      constructor
      . intro hrc
        have ⟨done, _, hfits, _, hdone⟩ := extract_spec hextract
        rw [hdone hrc] at hfits
        exact hfits
      . exact extract_of_fits hextract
    refine ⟨?_, ?_, ?_⟩
    . intro c
      simp only [setAuthenticated_nvCtr, hframe]
      exact methods_mono hmethods c
    . intro _ certNvCtr platNvCtr hmem
      exact methods_notLower hmethods hmem
    constructor
    . intro hset _
      apply (commits_iff hmethods).mpr
      intro hchanged
      have ⟨c, hc⟩ := ne_iff.mp hchanged
      refine ⟨rfl, hfits.mp (hset c ?_).1⟩
      simp only [setAuthenticated_nvCtr, hframe]
      exact hc
    intro hcommits c hc
    simp only [setAuthenticated_nvCtr, hframe] at hc ⊢
    have hchanged := ne_iff.mpr ⟨c, hc⟩
    have hcommitted := (commits_iff hmethods).mp (hcommits hintegrity) hchanged
    exact ⟨hfits.mpr hcommitted.2, methods_changed hmethods hc⟩

variable {calls : List Call}

lemma Calls.spec {start s : State} (h : Calls env cot start calls s) : ∀ call ∈ calls, CallSpec env cot call := by
  induction h with
  | nil => simp
  | concat _ hcall ih =>
    intro call hmem
    rw [mem_append, mem_singleton] at hmem
    cases hmem with
    | inl hold => exact ih call hold
    | inr hnew =>
      rw [hnew]
      exact authModVerifyImg_spec hcall

lemma Calls.mono {start s : State} (h : Calls env cot start calls s) (c : Nat) : start.nvCtr c ≤ s.nvCtr c := by
  induction h with
  | nil => exact UInt32.le_refl _
  | concat _ hcall ih => exact UInt32.le_trans ih ((authModVerifyImg_spec hcall).mono c)

namespace authNvctr

/--
The pointer is to the DER encoding of `v`, which has `n` content bytes: the shortest two's complement
representation.
-/
structure DerInteger (p : Nat → UInt8) (n v : Nat) : Prop where
  tag : p 0 = 0x02
  pos : 0 < n
  short : n < 128
  len : p 1 = UInt8.ofNat n
  nonneg : p 2 &&& 0x80 = 0
  minimal : 1 < n → p 2 = 0 → p 3 &&& 0x80 ≠ 0
  value : val (load (fun i => p (i + 2)) n) = v

lemma load_succ (p : Nat → UInt8) (n : Nat) : load p (n + 1) = load p n ++ [p n] := by
  unfold load
  rw [range_succ, map_append, map_singleton]

lemma load_succ' (p : Nat → UInt8) (n : Nat) : load p (n + 1) = p 0 :: load (fun i => p (i + 1)) n := by
  unfold load
  rw [range_succ_eq_map, map_cons, map_map]
  rfl

lemma toNat_shiftLeft_or (x : UInt32) (b : UInt8)
    : (x <<< 8 ||| b.toUInt32).toNat = (x.toNat * 256 + b.toNat) % 2 ^ 32 := by
  have hb := b.toNat_lt
  rw [UInt32.toNat_or, UInt32.toNat_shiftLeft, UInt8.toNat_toUInt32]
  have hshift : x.toNat <<< ((8 : UInt32).toNat % 32) % 2 ^ 32 = 2 ^ 8 * (x.toNat % 2 ^ 24) := by
    have h8 : (8 : UInt32).toNat % 32 = 8 := rfl
    rw [h8, shiftLeft_eq]
    omega
  rw [hshift, ← two_pow_add_eq_or_of_lt hb]
  omega

lemma convert_toNat (p : Nat → UInt8) (n : Nat) : (convert p n).toNat = val (load p n) % 2 ^ 32 := by
  induction n with
  | zero => rfl
  | succ n ih =>
    rw [convert, toNat_shiftLeft_or, ih, load_succ, val_concat]
    omega

lemma top_bit_clear_iff (b : UInt8) : b &&& 0x80 = 0 ↔ b.toNat < 128 := by
  have hall : ∀ n : Fin 256, n.val &&& 128 = 0 ↔ n.val < 128 := by decide +kernel
  have h128 : (0x80 : UInt8).toNat = 128 := rfl
  rw [← UInt8.toNat_inj, UInt8.toNat_and, h128]
  exact hall ⟨b.toNat, b.toNat_lt⟩

lemma DerInteger.le_four (h : DerInteger p n v) (hv : v < 2 ^ 31) : n ≤ 4 := by
  have hvalue := h.value
  apply Decidable.byContradiction
  intro hn
  have ⟨k, hk⟩ : ∃ k, n = k + 2 := ⟨n - 2, by omega⟩
  have hpow : (256 ^ 3 : Nat) ≤ 256 ^ k := Nat.pow_le_pow_right (by omega) (by omega)
  rw [hk, load_succ', load_succ', val_cons, val_cons, length_cons, length_load, pow_succ] at hvalue
  simp only [zero_add, reduceAdd] at hvalue
  -- The first nine bits are not all zero.
  have hone : 1 ≤ (p 2).toNat ∨ 128 ≤ (p 3).toNat := by
    cases UInt8.decEq (p 2) 0 with
    | isTrue heq =>
      have hset := h.minimal (by omega) heq
      rw [Ne, top_bit_clear_iff] at hset
      omega
    | isFalse hne =>
      rw [← UInt8.toNat_inj] at hne
      have hzero : (0 : UInt8).toNat = 0 := rfl
      omega
  cases hone with
  | inl h2 =>
    have hmul := mul_le_mul h2 (mul_le_mul_right 256 hpow)
    omega
  | inr h3 =>
    have hmul := mul_le_mul h3 hpow
    omega

lemma DerInteger.lt_of_le_four (h : DerInteger p n v) (hn : n ≤ 4) : v < 2 ^ 31 := by
  have hvalue := h.value
  have htop := (top_bit_clear_iff _).mp h.nonneg
  have ⟨k, hk⟩ : ∃ k, n = k + 1 := ⟨n - 1, by have := h.pos; omega⟩
  have hpow : (256 ^ k : Nat) ≤ 256 ^ 3 := Nat.pow_le_pow_right (by omega) (by omega)
  rw [hk, load_succ', val_cons, length_load] at hvalue
  simp only [zero_add] at hvalue
  have hrest := val_lt (load (fun i => p (i + 1 + 2)) k)
  rw [length_load] at hrest
  have hmul : (p 2).toNat * 256 ^ k ≤ 127 * 256 ^ k := mul_le_mul_right _ (by omega)
  omega

lemma len_byte (h : n < 128) : UInt8.ofNat n &&& 0x80 = 0 ∧ (UInt8.ofNat n &&& 0x7f).toNat = n := by
  have hall : ∀ n : Fin 128, UInt8.ofNat n.val &&& 0x80 = 0 ∧ (UInt8.ofNat n.val &&& 0x7f).toNat = n.val := by decide
  exact hall ⟨n, h⟩

lemma parse_eq (h : DerInteger p n v) : parse p = if n ≤ 4 then some (convert (fun i => p (i + 2)) n) else none := by
  have ⟨hshort, hlen⟩ := len_byte h.short
  unfold parse
  rw [h.tag, h.len, h.nonneg, hshort, hlen, if_neg (not_not.mpr rfl)]
  dsimp only
  split
  . next hlong =>
    rw [if_neg]
    cases hlong with
    | inl hne => contradiction
    | inr hlt => omega
  . next hlong =>
    rw [if_neg (not_not.mpr rfl), if_pos]
    omega

lemma parse_eq_some_iff (h : DerInteger p n v) (hv : v < 2 ^ 32)
    : (parse p).map UInt32.toNat = some v ↔ v < 2 ^ 31 := by
  rw [parse_eq h]
  constructor
  . intro hparse
    split at hparse
    . next hn => exact h.lt_of_le_four hn
    . contradiction
  . intro hlt
    rw [if_pos (h.le_four hlt), Option.map_some, convert_toNat, h.value, mod_eq_of_lt hv]

end authNvctr

theorem authModVerifyImg_antiRollback {start s : State} {calls : List Call} (h : Calls env cot start calls s)
    : (∀ c, start.nvCtr c ≤ s.nvCtr c)
      ∧ (∀ call ∈ calls, call.Mono ∧ call.NotLower env cot)
      ∧ ((∀ call ∈ calls, call.SetByAccepted env cot) ↔ ∀ call ∈ calls, call.Commits env cot)
      ∧ ∀ p n v, authNvctr.DerInteger p n v → v < 2 ^ 32 →
          ((authNvctr.parse p).map UInt32.toNat = some v ↔ v < 2 ^ 31) := by
  refine ⟨h.mono, ?_, ?_, ?_⟩
  . intro call hcall
    exact ⟨(h.spec call hcall).mono, (h.spec call hcall).notLower⟩
  . constructor
    . intro hset call hcall
      exact (h.spec call hcall).setByAccepted.mp (hset call hcall)
    . intro hcommits call hcall
      exact (h.spec call hcall).setByAccepted.mpr (hcommits call hcall)
  . intro p n v hder hv
    exact authNvctr.parse_eq_some_iff hder hv

namespace bootCert

def certEnv (hashRc : Int) : Env where
  checkIntegrity := fun _ _ => 0
  getAuthParam := fun _ typeDesc _ =>
    match typeDesc.type with
    | .nvCtr => (0, { ptr := fun i => [2, 1, 5].getD i 0, len := 3 })
    | .hash => (hashRc, { ptr := fun _ => 0, len := 51 })
    | _ => (0, { ptr := fun _ => 0, len := 1 })
  verifySignature := fun _ _ _ _ => 0
  verifyHash := fun _ _ => 0
  platGetRotpkInfo := fun _ => { rc := 0, pk := [1], isHash := false, notDeployed := false }
  platGetNvCtr := fun _ _ => 0
  platSetNvCtr := fun _ _ => 0

def certImg : Buf := { ptr := fun _ => 0, len := 1 }

def start : State where
  params := fun _ => 0
  authenticated := fun _ => false
  nvCtr := fun _ => 0
  time := 0
  owner := fun _ => none
  extracted := fun _ _ => none

lemma fits : Fits (certEnv 0) (cotDesc trustedBootFwCertId) certImg
    (cotDesc trustedBootFwCertId).authenticatedData := by
  intro entry hmem typeDesc htype
  have hentries : ∀ e ∈ (cotDesc trustedBootFwCertId).authenticatedData,
      e.typeDesc = none ∨ e = { typeDesc := some tbFwHash, data := tbFwHashBuf } := by
    decide
  cases hentries entry hmem with
  | inl hnone =>
    rw [hnone] at htype
    contradiction
  | inr hhash =>
    rw [hhash] at htype ⊢
    injection htype with htype
    rw [← htype]
    decide

def derMax (i : Nat) : UInt8 := [2, 4, 0x7f, 0xff, 0xff, 0xff].getD i 0

def derNext (i : Nat) : UInt8 := [2, 5, 0, 0x80, 0, 0, 0].getD i 0

end bootCert

theorem authModVerifyImg_antiRollback_bootCert
    : ∃ s, authModVerifyImg (bootCert.certEnv 0) Tbbr.tbbrCot Tbbr.trustedBootFwCertId bootCert.certImg
          bootCert.start = some (0, s)
        ∧ s.nvCtr Tbbr.trustedNvCtr.cookie = 5
        ∧ Call.SetByAccepted (bootCert.certEnv 0) Tbbr.tbbrCot
            ⟨Tbbr.trustedBootFwCertId, bootCert.certImg, bootCert.start, 0, s⟩
        ∧ (authNvctr.parse bootCert.derMax).map UInt32.toNat = some (2 ^ 31 - 1) := by
  have ⟨s, hcall, hctr⟩ : ∃ s, authModVerifyImg (bootCert.certEnv 0) tbbrCot
        trustedBootFwCertId bootCert.certImg bootCert.start = some (0, s)
      ∧ s.nvCtr trustedNvCtr.cookie = 5 := ⟨_, rfl, rfl⟩
  have hcommits : Call.Commits (bootCert.certEnv 0) tbbrCot
      ⟨trustedBootFwCertId, bootCert.certImg, bootCert.start, 0, s⟩ := by
    intro _
    have ⟨s1, hmethods⟩ : ∃ s1, methods (bootCert.certEnv 0) tbbrCot
        (cotDesc trustedBootFwCertId) bootCert.certImg
        (cotDesc trustedBootFwCertId).imgAuthMethods bootCert.start = some (0, s1) :=
      ⟨_, rfl⟩
    exact (commits_iff hmethods).mpr fun _ => ⟨rfl, bootCert.fits⟩
  have hder : authNvctr.DerInteger bootCert.derMax 4 (2 ^ 31 - 1) :=
    ⟨rfl, by decide, by decide, rfl, rfl, by decide, by decide⟩
  have ⟨_, _, hset, hparse⟩ := authModVerifyImg_antiRollback (.concat .nil hcall)
  refine ⟨s, hcall, hctr, ?_, (hparse _ _ _ hder (by decide)).mpr (by decide)⟩
  apply hset.mpr
  . intro call hmem
    rw [nil_append, mem_singleton] at hmem
    rw [hmem]
    exact hcommits
  . simp

-- The counter is raised by a certificate that is then rejected, and 2^31 is not decoded.
theorem not_setByAccepted_bootCert
    : (∃ rc s, authModVerifyImg (bootCert.certEnv 1) Tbbr.tbbrCot Tbbr.trustedBootFwCertId bootCert.certImg
          bootCert.start = some (rc, s)
        ∧ rc ≠ 0
        ∧ s.nvCtr Tbbr.trustedNvCtr.cookie ≠ bootCert.start.nvCtr Tbbr.trustedNvCtr.cookie
        ∧ ¬Call.SetByAccepted (bootCert.certEnv 1) Tbbr.tbbrCot
            ⟨Tbbr.trustedBootFwCertId, bootCert.certImg, bootCert.start, rc, s⟩)
      ∧ authNvctr.DerInteger bootCert.derNext 5 (2 ^ 31)
      ∧ authNvctr.parse bootCert.derNext = none := by
  have ⟨s, hcall, hctr⟩ : ∃ s, authModVerifyImg (bootCert.certEnv 1) tbbrCot
        trustedBootFwCertId bootCert.certImg bootCert.start = some (1, s)
      ∧ s.nvCtr trustedNvCtr.cookie ≠ bootCert.start.nvCtr trustedNvCtr.cookie :=
    ⟨_, rfl, by decide⟩
  refine ⟨⟨1, s, hcall, by decide, hctr, ?_⟩, ?_, by decide⟩
  . intro hset
    have hrc : (1 : Int) = 0 := (hset _ hctr).1
    contradiction
  . exact ⟨rfl, by decide, by decide, rfl, rfl, by decide, by decide⟩

end Atf.Auth
