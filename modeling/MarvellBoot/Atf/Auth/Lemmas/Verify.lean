import MarvellBoot.Atf.Auth.Impl.AuthMod

namespace Atf.Auth

open List Option

variable {pk : AuthParamTypeDesc} {m : AuthMethodDesc} {ms : List AuthMethodDesc}

/--
A signature that verifies under the key in `info`, or under the key in the image when `info` is a
hash of it or there is nothing to compare it with.
-/
def SignaturePasses (env : Env) (desc : AuthImgDesc) (img : Buf) (pk sig alg data : AuthParamTypeDesc)
    (info : RotpkInfo) : Prop :=
  ∃ dataBuf sigBuf algBuf,
    imgParserGetAuthParam env desc.imgType data img = (0, dataBuf)
      ∧ imgParserGetAuthParam env desc.imgType sig img = (0, sigBuf)
      ∧ imgParserGetAuthParam env desc.imgType alg img = (0, algBuf)
      ∧ info.rc = 0
      ∧ authSignature.verify env desc img pk info dataBuf.bytes sigBuf.bytes algBuf.bytes = 0

def ParentParam (cot : Cot) (desc : AuthImgDesc) (params : Int → UInt8) (typeDesc : AuthParamTypeDesc)
    (value : List UInt8) : Prop :=
  ∃ parent data, desc.parent = some parent
    ∧ authGetParam typeDesc (cot.desc parent).authenticatedData = some (some data)
    ∧ value = Mem.load params data.ptr data.len

def MethodPasses (env : Env) (cot : Cot) (desc : AuthImgDesc) (img : Buf) (params : Int → UInt8)
    : AuthMethodDesc → Prop
  | .none => True
  | .hash data hash =>
    ∃ dataBuf digest, imgParserGetAuthParam env desc.imgType data img = (0, dataBuf)
      ∧ ParentParam cot desc params hash digest
      ∧ env.verifyHash dataBuf.bytes digest = 0
  | .sig pk sig alg data =>
    (desc.parent = none ∧ SignaturePasses env desc img pk sig alg data (env.platGetRotpkInfo pk.cookie))
      ∨ ∃ key, ParentParam cot desc params pk key
        ∧ SignaturePasses env desc img pk sig alg data { rc := 0, pk := key, isHash := false, notDeployed := false }
  | .nvCtr certNvCtr _ =>
    ∃ buf value, imgParserGetAuthParam env desc.imgType certNvCtr img = (0, buf) ∧ authNvctr.parse buf.ptr = some value
  | .unknown => False

structure State.Frame (s s' : State) : Prop where
  params : s'.params = s.params
  authenticated : s'.authenticated = s.authenticated
  owner : s'.owner = s.owner
  extracted : s'.extracted = s.extracted

lemma State.Frame.refl (s : State) : s.Frame s := ⟨rfl, rfl, rfl, rfl⟩

lemma State.Frame.trans {s₁ s₂ s3 : State} (h1 : s₁.Frame s₂) (h2 : s₂.Frame s3) : s₁.Frame s3 where
  params := h2.params.trans h1.params
  authenticated := h2.authenticated.trans h1.authenticated
  owner := h2.owner.trans h1.owner
  extracted := h2.extracted.trans h1.extracted

variable {env : Env} {cot : Cot} {desc : AuthImgDesc} {img : Buf} {s s' : State} {rc : Int}
  {entries : List AuthParamDesc}

lemma authHash_eq_zero {data hash : AuthParamTypeDesc} (h : authHash env cot desc img data hash s = some 0)
    : MethodPasses env cot desc img s.params (.hash data hash) := by
  unfold authHash at h
  split at h
  . contradiction
  next parent hparent =>
  split at h
  . contradiction
  . simp at h
  next hashDer hget =>
  generalize hres : imgParserGetAuthParam env desc.imgType data img = res at h
  cases res with
  | mk rc dataBuf =>
    dsimp only at h
    split at h
    . next hne =>
      injection h with h
      contradiction
    next heq =>
    injection h with h
    rw [not_not.mp heq] at hres
    exact ⟨dataBuf, _, hres, ⟨parent, hashDer, hparent, hget, rfl⟩, h⟩

lemma authSignature.getPk_eq_some {info : RotpkInfo}
    (h : authSignature.getPk env cot desc pk s = some info) (hrc : info.rc = 0)
    : (desc.parent = none ∧ info = env.platGetRotpkInfo pk.cookie)
      ∨ ∃ key, ParentParam cot desc s.params pk key
        ∧ info = { rc := 0, pk := key, isHash := false, notDeployed := false } := by
  unfold getPk at h
  split at h
  . next hparent =>
    injection h with h
    exact .inl ⟨hparent, h.symm⟩
  next parent hparent =>
  split at h
  . contradiction
  . injection h with h
    rw [← h] at hrc
    contradiction
  . next data hget =>
    injection h with h
    exact .inr ⟨_, ⟨parent, data, hparent, hget, rfl⟩, h.symm⟩

lemma authSignature_eq_zero {sig alg data : AuthParamTypeDesc}
    (h : authSignature env cot desc img pk sig alg data s = some 0)
    : MethodPasses env cot desc img s.params (.sig pk sig alg data) := by
  unfold authSignature at h
  cases hdata : imgParserGetAuthParam env desc.imgType data img with
  | mk rcData dataBuf =>
    cases hsig : imgParserGetAuthParam env desc.imgType sig img with
    | mk rcSig sigBuf =>
      cases halg : imgParserGetAuthParam env desc.imgType alg img with
      | mk rcAlg algBuf =>
        simp only [hdata, hsig, halg] at h
        split at h
        . next hne => simp_all
        next hdata0 =>
        split at h
        . next hne => simp_all
        next hsig0 =>
        split at h
        . next hne => simp_all
        next halg0 =>
        split at h
        . contradiction
        next info hpk =>
        split at h
        . next hne => simp_all
        next hrc =>
        injection h with h
        rw [not_not.mp hdata0] at hdata
        rw [not_not.mp hsig0] at hsig
        rw [not_not.mp halg0] at halg
        have hrc := not_not.mp hrc
        have hpasses : SignaturePasses env desc img pk sig alg data info :=
          ⟨dataBuf, sigBuf, algBuf, hdata, hsig, halg, hrc, h⟩
        cases authSignature.getPk_eq_some hpk hrc with
        | inl hroot =>
          rw [hroot.2] at hpasses
          exact .inl ⟨hroot.1, hpasses⟩
        | inr hchild =>
          have ⟨key, hkey, hinfo⟩ := hchild
          rw [hinfo] at hpasses
          exact .inr ⟨key, hkey, hpasses⟩

lemma authNvctr_frame (env : Env) (desc : AuthImgDesc) (img : Buf)
    (certNvCtr platNvCtr : AuthParamTypeDesc) (s : State)
    : s.Frame (authNvctr env desc img certNvCtr platNvCtr s).2 := by
  unfold authNvctr
  dsimp only
  repeat' split
  all_goals exact ⟨rfl, rfl, rfl, rfl⟩

def CertNvCtr (env : Env) (desc : AuthImgDesc) (img : Buf) (certNvCtr : AuthParamTypeDesc) (value : UInt32) : Prop :=
  ∃ buf, imgParserGetAuthParam env desc.imgType certNvCtr img = (0, buf) ∧ authNvctr.parse buf.ptr = some value

section

variable {certNvCtr platNvCtr : AuthParamTypeDesc}

inductive NvctrOutcome (env : Env) (desc : AuthImgDesc) (img : Buf)
    (certNvCtr platNvCtr : AuthParamTypeDesc) (s : State) : Int → State → Prop where
  | failed {rc : Int} {s' : State} : rc ≠ 0 → s'.nvCtr = s.nvCtr → NvctrOutcome env desc img certNvCtr platNvCtr s rc s'
  | equal {s' : State} : CertNvCtr env desc img certNvCtr (s.nvCtr platNvCtr.cookie) →
      s'.nvCtr = s.nvCtr → NvctrOutcome env desc img certNvCtr platNvCtr s 0 s'
  | raised {value : UInt32} {s' : State} : CertNvCtr env desc img certNvCtr value →
      s.nvCtr platNvCtr.cookie < value → desc.parent = none →
      s'.nvCtr = (s.setNvCtr platNvCtr.cookie value).nvCtr →
      NvctrOutcome env desc img certNvCtr platNvCtr s 0 s'

lemma authNvctr_outcome (h : authNvctr env desc img certNvCtr platNvCtr s = (rc, s'))
    : NvctrOutcome env desc img certNvCtr platNvCtr s rc s' := by
  have hfail : ∀ {rc' : Int} {s1 : State}, (rc', s1) = (rc, s') → rc' ≠ 0 → s1.nvCtr = s.nvCtr
      → NvctrOutcome env desc img certNvCtr platNvCtr s rc s' := by
    intro rc' s1 heq hne hs
    injection heq with hrc hs'
    rw [← hrc, ← hs']
    exact .failed hne hs
  unfold authNvctr at h
  cases hdata : imgParserGetAuthParam env desc.imgType certNvCtr img with
  | mk rcData buf =>
    simp only [hdata] at h
    split at h
    . next hne => exact hfail h hne rfl
    next hrcData =>
    rw [not_not.mp hrcData] at hdata
    split at h
    . exact hfail h (by decide) rfl
    next value hparse =>
    have hcert : CertNvCtr env desc img certNvCtr value := ⟨buf, hdata, hparse⟩
    split at h
    . next hne => exact hfail h hne rfl
    split at h
    . exact hfail h (by decide) rfl
    next hge =>
    split at h
    . next hlt =>
      split at h
      . next hroot =>
        split at h
        . next hne => exact hfail h hne rfl
        . injection h with hrc hs
          rw [← hrc, ← hs]
          exact .raised hcert hlt hroot rfl
      . exact hfail h (by decide) rfl
    next hle =>
    injection h with hrc hs
    have heq : value = s.nvCtr platNvCtr.cookie := UInt32.le_antisymm (UInt32.not_lt.mp hle) (UInt32.not_lt.mp hge)
    rw [← hrc, ← hs]
    rw [heq] at hcert
    exact .equal hcert rfl

lemma authNvctr_eq_zero (h : authNvctr env desc img certNvCtr platNvCtr s = (0, s'))
    : ∃ value, CertNvCtr env desc img certNvCtr value ∧ s.nvCtr platNvCtr.cookie ≤ value := by
  generalize hrc : (0 : Int) = rc at h
  cases authNvctr_outcome h with
  | failed hne _ => exact absurd hrc.symm hne
  | equal hcert _ => exact ⟨_, hcert, UInt32.le_refl _⟩
  | raised hcert hlt _ _ => exact ⟨_, hcert, UInt32.le_of_lt hlt⟩

end

namespace authModVerifyImg

lemma method_eq (h : method env cot desc img s m = some (rc, s'))
    : s' = s ∨ ∃ certNvCtr platNvCtr, m = .nvCtr certNvCtr platNvCtr
        ∧ authNvctr env desc img certNvCtr platNvCtr s = (rc, s') := by
  cases m with
  | none | unknown =>
    injection h with h
    injection h with _ h
    exact .inl h.symm
  | hash data hash | sig pk sig alg data =>
    have ⟨_, _, heq⟩ := map_eq_some_iff.mp h
    injection heq with _ heq
    exact .inl heq.symm
  | nvCtr certNvCtr platNvCtr =>
    injection h with h
    exact .inr ⟨certNvCtr, platNvCtr, rfl, h⟩

lemma method_frame (h : method env cot desc img s m = some (rc, s')) : s.Frame s' := by
  rcases method_eq h with heq | ⟨certNvCtr, platNvCtr, _, hctr⟩
  . rw [heq]
    exact .refl s
  . have hframe := authNvctr_frame env desc img certNvCtr platNvCtr s
    rw [hctr] at hframe
    exact hframe

lemma method_passes (h : method env cot desc img s m = some (0, s')) : MethodPasses env cot desc img s.params m := by
  cases m with
  | none => trivial
  | hash data hash =>
    have ⟨_, hrc, heq⟩ := map_eq_some_iff.mp h
    injection heq with heq _
    rw [heq] at hrc
    exact authHash_eq_zero hrc
  | sig pk sig alg data =>
    have ⟨_, hrc, heq⟩ := map_eq_some_iff.mp h
    injection heq with heq _
    rw [heq] at hrc
    exact authSignature_eq_zero hrc
  | nvCtr certNvCtr platNvCtr =>
    injection h with h
    have ⟨value, ⟨buf, hbuf, hparse⟩, _⟩ := authNvctr_eq_zero h
    exact ⟨buf, value, hbuf, hparse⟩
  | unknown => simp [method] at h

lemma methods_nil (h : methods env cot desc img [] s = some (rc, s')) : rc = 0 ∧ s' = s := by
  injection h with h
  injection h with hrc hs
  exact ⟨hrc.symm, hs.symm⟩

lemma methods_cons (h : methods env cot desc img (m :: ms) s = some (rc, s'))
    : rc ≠ 0 ∧ method env cot desc img s m = some (rc, s')
      ∨ ∃ s₁, method env cot desc img s m = some (0, s₁) ∧ methods env cot desc img ms s₁ = some (rc, s') := by
  unfold methods at h
  split at h
  . contradiction
  next rc1 s₁ hm =>
  split at h
  . next hne =>
    cases h
    exact .inl ⟨hne, hm⟩
  . next hrc =>
    rw [not_not.mp hrc] at hm
    exact .inr ⟨s₁, hm, h⟩

lemma methods_frame (h : methods env cot desc img ms s = some (rc, s')) : s.Frame s' := by
  induction ms generalizing s with
  | nil =>
    rw [(methods_nil h).2]
    exact .refl s
  | cons m ms ih =>
    rcases methods_cons h with ⟨_, hm⟩ | ⟨s₁, hm, h⟩
    . exact method_frame hm
    . exact (method_frame hm).trans (ih h)

lemma methods_pass (h : methods env cot desc img ms s = some (0, s'))
    : ∀ m ∈ ms, MethodPasses env cot desc img s.params m := by
  induction ms generalizing s with
  | nil => simp
  | cons m ms ih =>
    rcases methods_cons h with ⟨hne, _⟩ | ⟨s₁, hm, h⟩
    . contradiction
    rw [forall_mem_cons, ← (method_frame hm).params]
    refine ⟨?_, ih h⟩
    rw [(method_frame hm).params]
    exact method_passes hm

end authModVerifyImg

def AuthParamDataDesc.Covers (data : AuthParamDataDesc) (a : Int) : Prop := data.ptr ≤ a ∧ a < data.ptr + data.len

def AuthImgDesc.Covers (desc : AuthImgDesc) (a : Int) : Prop :=
  ∃ entry ∈ desc.authenticatedData, entry.typeDesc ≠ none ∧ entry.data.Covers a

lemma authGetParam_mem {typeDesc : AuthParamTypeDesc}
    {data : AuthParamDataDesc} (h : authGetParam typeDesc entries = some (some data))
    : ∃ entry ∈ entries, entry.typeDesc = some typeDesc ∧ entry.data = data := by
  induction entries with
  | nil => simp [authGetParam] at h
  | cons entry entries ih =>
    unfold authGetParam at h
    split at h
    . contradiction
    next entryType htype =>
    split at h
    . next heq =>
      injection h with h
      injection h with h
      refine ⟨entry, mem_cons_self, ?_, h⟩
      rw [htype, heq]
    . have ⟨entry', hmem, heq⟩ := ih h
      exact ⟨entry', mem_cons_of_mem _ hmem, heq⟩

namespace authModVerifyImg

def copies (env : Env) (desc : AuthImgDesc) (img : Buf)
    : List AuthParamDesc → (Int → UInt8) → Int → UInt8
  | [], m => m
  | entry :: entries, m =>
    match entry.typeDesc with
    | none => copies env desc img entries m
    | some typeDesc =>
      let param := (imgParserGetAuthParam env desc.imgType typeDesc img).2
      copies env desc img entries (Mem.store m entry.data.ptr param.bytes)

def Fits (env : Env) (desc : AuthImgDesc) (img : Buf) (entries : List AuthParamDesc) : Prop :=
  ∀ entry ∈ entries, ∀ typeDesc, entry.typeDesc = some typeDesc →
    (imgParserGetAuthParam env desc.imgType typeDesc img).1 = 0
      ∧ (imgParserGetAuthParam env desc.imgType typeDesc img).2.len ≤ entry.data.len

structure ExtractFrame (s s' : State) : Prop where
  authenticated : s'.authenticated = s.authenticated
  nvCtr : s'.nvCtr = s.nvCtr

lemma extract_cons {entry : AuthParamDesc} (h : extract env desc img (entry :: entries) s = (rc, s'))
    : rc ≠ 0 ∧ s' = s
      ∨ entry.typeDesc = none ∧ extract env desc img entries s = (rc, s')
      ∨ ∃ typeDesc param, entry.typeDesc = some typeDesc ∧ imgParserGetAuthParam env desc.imgType typeDesc img
        = (0, param)
        ∧ param.len ≤ entry.data.len ∧ extract env desc img entries (copy desc entry.data typeDesc param s)
          = (rc, s') := by
  unfold extract at h
  dsimp only at h
  split at h
  . next hnone => exact .inr (.inl ⟨hnone, h⟩)
  next typeDesc htype =>
  split at h
  . next hne =>
    cases h
    exact .inl ⟨hne, rfl⟩
  next hrc =>
  split at h
  . cases h
    exact .inl ⟨by decide, rfl⟩
  . next hlen => exact .inr (.inr ⟨typeDesc, _, htype, Prod.ext (not_not.mp hrc) rfl, Nat.le_of_not_lt hlen, h⟩)

section

variable (h : extract env desc img entries s = (rc, s'))

include h

lemma extract_invariant {P : State → Prop} (hs : P s)
    (hcopy : ∀ entry ∈ entries, ∀ typeDesc param s, entry.typeDesc = some typeDesc → param.len ≤ entry.data.len →
      P s → P (copy desc entry.data typeDesc param s)) : P s' := by
  induction entries generalizing s with
  | nil =>
    injection h with _ h
    rw [← h]
    exact hs
  | cons entry entries ih =>
    rw [forall_mem_cons] at hcopy
    rcases extract_cons h with ⟨_, heq⟩ | ⟨_, h⟩ | ⟨typeDesc, param, htype, _, hlen, h⟩
    . rw [heq]
      exact hs
    . exact ih h hs hcopy.2
    . exact ih h (hcopy.1 typeDesc param s htype hlen hs) hcopy.2

lemma extract_frame : ExtractFrame s s' :=
  extract_invariant h ⟨rfl, rfl⟩ fun _ _ _ _ _ _ _ hframe => ⟨hframe.authenticated, hframe.nvCtr⟩

lemma extract_of_fits (hfits : Fits env desc img entries) : rc = 0 := by
  induction entries generalizing s with
  | nil =>
    injection h with h _
    exact h.symm
  | cons entry entries ih =>
    have hfits' : Fits env desc img entries := fun e he => hfits e (mem_cons_of_mem _ he)
    unfold extract at h
    dsimp only at h
    split at h
    . exact ih h hfits'
    next typeDesc htype =>
    have ⟨hrc, hlen⟩ := hfits entry mem_cons_self typeDesc htype
    rw [if_neg (not_not.mpr hrc), if_neg (Nat.not_lt_of_le hlen)] at h
    exact ih h hfits'

lemma extract_spec
    : ∃ done, done <+: entries
        ∧ Fits env desc img done
        ∧ s'.params = copies env desc img done s.params
        ∧ (rc = 0 → done = entries) := by
  induction entries generalizing s with
  | nil =>
    injection h with _ h
    rw [← h]
    exact ⟨[], prefix_refl _, by simp [Fits], rfl, fun _ => rfl⟩
  | cons entry entries ih =>
    rcases extract_cons h with ⟨hne, heq⟩ | ⟨hnone, h⟩ | ⟨typeDesc, param, htype, hget, hlen, h⟩
    . rw [heq]
      exact ⟨[], nil_prefix, by simp [Fits], rfl, fun h => absurd h hne⟩
    . have ⟨done, hpre, hfits, hparams, hdone⟩ := ih h
      refine ⟨entry :: done, cons_prefix_cons.mpr ⟨rfl, hpre⟩, forall_mem_cons.mpr ⟨?_, hfits⟩, ?_, ?_⟩
      . simp [hnone]
      . rw [hparams, copies, hnone]
      . intro hrc
        rw [hdone hrc]
    have ⟨done, hpre, hfits, hparams, hdone⟩ := ih h
    refine ⟨entry :: done, cons_prefix_cons.mpr ⟨rfl, hpre⟩, forall_mem_cons.mpr ⟨?_, hfits⟩, ?_, ?_⟩
    . simp [htype, hget, hlen]
    . rw [hparams, copies, htype]
      dsimp only
      rw [hget]
      rfl
    . intro hrc
      rw [hdone hrc]

end

lemma length_bytes (buf : Buf) : buf.bytes.length = buf.len := Bytes.length_load _ _

lemma copies_of_not_covers (hfits : Fits env desc img entries) {a : Int}
    (ha : ∀ entry ∈ entries, entry.typeDesc ≠ none → ¬entry.data.Covers a) (m : Int → UInt8)
    : copies env desc img entries m a = m a := by
  induction entries generalizing m with
  | nil => rfl
  | cons entry entries ih =>
    have hfits' : Fits env desc img entries := fun e he => hfits e (mem_cons_of_mem _ he)
    have ha' : ∀ entry ∈ entries, entry.typeDesc ≠ none → ¬entry.data.Covers a :=
      fun e he => ha e (mem_cons_of_mem _ he)
    cases htype : entry.typeDesc with
    | none =>
      simp only [copies, htype]
      exact ih hfits' ha' m
    | some typeDesc =>
      have hlen := (hfits entry mem_cons_self typeDesc htype).2
      have hnot := ha entry mem_cons_self (by rw [htype]; simp)
      unfold AuthParamDataDesc.Covers at hnot
      simp only [copies, htype]
      rw [ih hfits' ha']
      cases Int.lt_or_le a entry.data.ptr with
      | inl hlt => exact Mem.store_of_lt _ _ hlt
      | inr hge =>
        apply Mem.store_of_ge
        rw [length_bytes]
        omega

end authModVerifyImg

inductive VerifyOutcome (env : Env) (cot : Cot) (imgId : Nat) (img : Buf) (s : State)
    : Int → State → Prop where
  | integrity {rc : Int} : rc ≠ 0 →
      imgParserCheckIntegrity env (cot.desc imgId).imgType img = rc →
      VerifyOutcome env cot imgId img s rc s
  | rejected {rc : Int} {s' : State} : rc ≠ 0 →
      imgParserCheckIntegrity env (cot.desc imgId).imgType img = 0 →
      authModVerifyImg.methods env cot (cot.desc imgId) img (cot.desc imgId).imgAuthMethods s = some (rc, s') →
      VerifyOutcome env cot imgId img s rc s'
  | extracted {rc : Int} {s₁ s₂ : State} :
      imgParserCheckIntegrity env (cot.desc imgId).imgType img = 0 →
      authModVerifyImg.methods env cot (cot.desc imgId) img (cot.desc imgId).imgAuthMethods s = some (0, s₁) →
      authModVerifyImg.extract env (cot.desc imgId) img (cot.desc imgId).authenticatedData s₁ = (rc, s₂) →
      VerifyOutcome env cot imgId img s rc (if rc = 0 then s₂.setAuthenticated (cot.desc imgId).imgId else s₂)

lemma authModVerifyImg_outcome {imgId : Nat} (h : authModVerifyImg env cot imgId img s = some (rc, s'))
    : VerifyOutcome env cot imgId img s rc s' := by
  unfold authModVerifyImg at h
  dsimp only at h
  split at h
  . next hne =>
    injection h with h
    injection h with hrc hs
    rw [← hs]
    rw [hrc] at hne
    exact .integrity hne hrc
  next hintegrity =>
  split at h
  . contradiction
  next rc1 s₁ hmethods =>
  split at h
  . next hne =>
    injection h with h
    injection h with hrc hs
    rw [← hrc, ← hs]
    exact .rejected hne (not_not.mp hintegrity) hmethods
  next hrc1 =>
  rw [not_not.mp hrc1] at hmethods
  cases hextract : authModVerifyImg.extract env (cot.desc imgId) img (cot.desc imgId).authenticatedData s₁ with
  | mk rc2 s₂ =>
    have hout := VerifyOutcome.extracted (not_not.mp hintegrity) hmethods hextract
    rw [hextract] at h
    dsimp only at h
    split at h
    . next hne =>
      injection h with h
      injection h with hrc hs
      rw [if_neg hne] at hout
      rw [← hrc, ← hs]
      exact hout
    next hzero =>
    injection h with h
    injection h with hrc hs
    have hzero := not_not.mp hzero
    rw [if_pos hzero, hzero] at hout
    rw [← hrc, ← hs]
    exact hout

end Atf.Auth
