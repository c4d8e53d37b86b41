import MarvellBoot.Atf.Auth.Impl.TbbrCot
import MarvellBoot.Atf.Auth.Lemmas.ChainOfTrust

namespace Atf.Auth

open authModVerifyImg Mem

variable {s s' : State} {p : Nat} {img : Buf} {rc : Int} {info info' : ImageInfo} {w w' : World} {r : LoadResult}

def parentParam : AuthMethodDesc → Option AuthParamTypeDesc
  | .hash _ hash => some hash
  | .sig pk _ _ _ => some pk
  | .none => none
  | .nvCtr _ _ => none
  | .unknown => none

/--
The methods of an accepted image succeed with buffers that begin with the parameters that were last
extracted from its own parent.
-/
def OwnParams (env : Env) (cot : Cot) (accept : Accept) : Prop :=
  let desc := cot.desc accept.imageId
  ∃ params, ∀ m ∈ desc.imgAuthMethods, MethodPasses env cot desc accept.image params m
    ∧ ∀ p t, desc.parent = some p → parentParam m = some t →
      ∃ data value, authGetParam t (cot.desc p).authenticatedData = some (some data)
        ∧ accept.auth.extracted p t = some value
        ∧ value <+: load params data.ptr data.len

def OwnBuffers (cot : Cot) (s : State) (id : Nat) : Prop :=
  ∀ p m t data, (cot.desc id).parent = some p → m ∈ (cot.desc id).imgAuthMethods →
    parentParam m = some t → authGetParam t (cot.desc p).authenticatedData = some (some data) →
    s.owner data.ptr = some p

/--
No other image has written to the buffers of the first parent that is authenticated already. The
parents below it are loaded again.
-/
inductive Fresh (cot : Cot) (s : State) : Nat → Prop where
  | direct {id : Nat} : authModGetParentId cot id s = none → OwnBuffers cot s id → Fresh cot s id
  | parent {id p : Nat} : authModGetParentId cot id s = some p → Fresh cot s p → Fresh cot s id

inductive FreshRun (env : Env) (cot : Cot) (storage : Nat → IoImage) (start : World) : World → Prop where
  | start : FreshRun env cot storage start start
  | call {w w' : World} {id : Nat} {info info' : ImageInfo} {r : LoadResult} :
      FreshRun env cot storage start w →
      Fresh cot w.auth id →
      loadAuthImage env cot storage id info w = some (r, info', w') →
      FreshRun env cot storage start w'

def Cot.Entry (cot : Cot) (p : Nat) (entry : AuthParamDesc) : Prop :=
  entry ∈ (cot.desc p).authenticatedData ∧ entry.typeDesc ≠ none

structure Cot.Shared (cot : Cot) : Prop where
  imgId : ∀ {p e}, cot.Entry p e → (cot.desc p).imgId = p
  apart : ∀ {p q e e'}, cot.Entry p e → cot.Entry q e' → e.data.ptr ≠ e'.data.ptr →
    e.data.ptr + e.data.len ≤ e'.data.ptr ∨ e'.data.ptr + e'.data.len ≤ e.data.ptr
  once : ∀ {p e e'}, cot.Entry p e → cot.Entry p e' → e.data.ptr = e'.data.ptr ∨ e.typeDesc = e'.typeDesc → e = e'

variable {env : Env} {cot : Cot} {storage : Nat → IoImage} {desc : AuthImgDesc} {id : Nat}

def OwnerInv (cot : Cot) (s : State) : Prop :=
  ∀ p e t, cot.Entry p e → e.typeDesc = some t → s.owner e.data.ptr = some p →
    ∃ value, s.extracted p t = some value ∧ value <+: s.param e.data

lemma OwnerInv.of_frame (h : OwnerInv cot s) (hframe : s.Frame s') : OwnerInv cot s' := by
  intro p e t he ht howner
  rw [hframe.owner] at howner
  have ⟨value, hextracted, hpre⟩ := h p e t he ht howner
  refine ⟨value, ?_, ?_⟩
  . rw [hframe.extracted]
    exact hextracted
  . unfold State.param
    rw [hframe.params]
    exact hpre

lemma prefix_load_store (m : Int → UInt8) (a : Int) {data : List UInt8} {n : Nat}
    (h : data.length ≤ n) : data <+: load (store m a data) a n := by
  have hload : load (store m a data) (a + (0 : Nat)) data.length = (data.drop 0).take data.length := by
    apply load_store_of_le
    omega
  simp only [Int.natCast_zero, Int.add_zero, List.drop_zero, List.take_length] at hload
  rw [List.prefix_iff_eq_take, take_load _ _ h, hload]

lemma OwnerInv.copy {entry : AuthParamDesc} {typeDesc : AuthParamTypeDesc}
    {param : Buf} (h : OwnerInv cot s) (hshared : cot.Shared) (hentry : cot.Entry p entry)
    (htype : entry.typeDesc = some typeDesc) (hlen : param.len ≤ entry.data.len)
    : OwnerInv cot (copy (cot.desc p) entry.data typeDesc param s) := by
  have hid := hshared.imgId hentry
  intro q e t he ht howner
  simp only [authModVerifyImg.copy, hid] at howner ⊢
  split at howner
  . next heq =>
    injection howner with hq
    subst hq
    have hsame := hshared.once he hentry (.inl heq)
    rw [hsame, htype] at ht
    injection ht with ht
    refine ⟨param.bytes, if_pos ⟨rfl, ht.symm⟩, ?_⟩
    rw [hsame]
    apply prefix_load_store
    rw [length_bytes]
    exact hlen
  next hne =>
  have ⟨value, hextracted, hpre⟩ := h q e t he ht howner
  refine ⟨value, ?_, ?_⟩
  . rw [if_neg]
    . exact hextracted
    . intro heq
      apply hne
      rw [heq.1] at he
      rw [hshared.once he hentry (.inr (by rw [ht, htype, heq.2]))]
  unfold State.param
  rw [load_congr]
  . exact hpre
  intro i hi
  have happart := hshared.apart he hentry hne
  have hparam := length_bytes param
  cases happart with
  | inl hlt =>
    apply store_of_lt
    omega
  | inr hge =>
    apply store_of_ge
    omega

lemma OwnerInv.extract (h : OwnerInv cot s) (hshared : cot.Shared)
    (hextract : extract env (cot.desc p) img (cot.desc p).authenticatedData s = (rc, s')) : OwnerInv cot s' :=
  extract_invariant hextract h fun _ he _ _ _ htype hlen h => h.copy hshared ⟨he, by rw [htype]; simp⟩ htype hlen

lemma extract_owner {entries : List AuthParamDesc} (hextract : extract env desc img entries s = (0, s'))
    : ∀ entry ∈ entries, entry.typeDesc ≠ none → s'.owner entry.data.ptr = some desc.imgId := by
  induction entries generalizing s with
  | nil => simp
  | cons entry entries ih =>
    rw [List.forall_mem_cons]
    rcases extract_cons hextract with ⟨hne, _⟩ | ⟨hnone, hextract⟩ | ⟨typeDesc, param, _, _, _, hextract⟩
    . contradiction
    . exact ⟨fun h => absurd hnone h, ih hextract⟩
    refine ⟨fun _ => ?_, ih hextract⟩
    apply extract_invariant hextract
    . simp [copy]
    intro e _ t param s _ _ howner
    simp only [copy]
    split
    . rfl
    . exact howner

structure Owned (env : Env) (cot : Cot) (id : Nat) (w : World) (r : LoadResult) (w' : World) : Prop where
  inv : OwnerInv cot w'.auth
  accepts : ∀ a ∈ w'.accepts, a ∈ w.accepts ∨ OwnParams env cot a
  owner : r = .ok → ∀ e, cot.Entry id e → w'.auth.owner e.data.ptr = some id

lemma MethodPasses.declared {params : Int → UInt8}
    {m : AuthMethodDesc} {t : AuthParamTypeDesc} (h : MethodPasses env cot desc img params m)
    (hp : desc.parent = some p) (ht : parentParam m = some t)
    : ∃ data, authGetParam t (cot.desc p).authenticatedData = some (some data) := by
  cases m with
  | none => contradiction
  | nvCtr certNvCtr platNvCtr => contradiction
  | unknown => contradiction
  | hash data hash =>
    injection ht with ht
    have ⟨_, _, _, ⟨p', data', hp', hget, _⟩, _⟩ := h
    rw [hp] at hp'
    injection hp' with hp'
    rw [← ht, hp']
    exact ⟨data', hget⟩
  | sig pk sig alg data =>
    injection ht with ht
    cases h with
    | inl hroot =>
      rw [hp] at hroot
      simp at hroot
    | inr hchild =>
      have ⟨_, ⟨p', data', hp', hget, _⟩, _⟩ := hchild
      rw [hp] at hp'
      injection hp' with hp'
      rw [← ht, hp']
      exact ⟨data', hget⟩

lemma OwnBuffers.ownParams {accept : Accept} (hown : OwnBuffers cot accept.auth accept.imageId)
    (hinv : OwnerInv cot accept.auth)
    (hpass : ∀ m ∈ (cot.desc accept.imageId).imgAuthMethods,
      MethodPasses env cot (cot.desc accept.imageId) accept.image accept.auth.params m)
    : OwnParams env cot accept := by
  refine ⟨accept.auth.params, ?_⟩
  intro m hm
  refine ⟨hpass m hm, ?_⟩
  intro p t hp ht
  have ⟨data, hget⟩ := (hpass m hm).declared hp ht
  have ⟨entry, hmem, htype, hdata⟩ := authGetParam_mem hget
  have hentry : cot.Entry p entry := ⟨hmem, by rw [htype]; simp⟩
  have howner := hown p m t data hp hm ht hget
  rw [← hdata] at howner
  have ⟨value, hextracted, hpre⟩ := hinv p entry t hentry htype howner
  rw [hdata] at hpre
  exact ⟨data, value, hget, hextracted, hpre⟩

lemma OwnerInv.verify (h : OwnerInv cot s)
    (hshared : cot.Shared) (hverify : authModVerifyImg env cot id img s = some (rc, s'))
    : OwnerInv cot s' := by
  cases authModVerifyImg_outcome hverify with
  | integrity _ _ => exact h
  | rejected _ _ hmethods => exact h.of_frame (methods_frame hmethods)
  | extracted _ hmethods hextract =>
    have h1 := h.of_frame (methods_frame hmethods)
    have h2 := h1.extract hshared hextract
    split
    . exact h2
    . exact h2

lemma authModVerifyImg_accepted (hshared : cot.Shared)
    (hverify : authModVerifyImg env cot id img s = some (0, s'))
    : (∀ m ∈ (cot.desc id).imgAuthMethods, MethodPasses env cot (cot.desc id) img s.params m)
      ∧ ∀ e, cot.Entry id e → s'.owner e.data.ptr = some id := by
  generalize hrc : (0 : Int) = rc at hverify
  cases authModVerifyImg_outcome hverify with
  | integrity hne _ => exact absurd hrc.symm hne
  | rejected hne _ _ => exact absurd hrc.symm hne
  | extracted _ hmethods hextract =>
    subst hrc
    refine ⟨methods_pass hmethods, ?_⟩
    intro e he
    have howner := extract_owner hextract e he.1 he.2
    rw [hshared.imgId he] at howner
    exact howner

namespace loadAuthImage

lemma load_owned (hinv : OwnerInv cot w.auth) (hshared : cot.Shared) (hown : OwnBuffers cot w.auth id)
    (h : load env cot storage id info w = some (r, info', w')) : Owned env cot id w r w' := by
  unfold load at h
  cases hload : loadImage (storage w.loads.length) id info w with
  | mk rc rest =>
    cases rest with
    | mk info1 w1 =>
      have ⟨hauth, _, _, haccepts⟩ := loadImage_frame hload
      rw [← hauth] at hinv hown
      rw [hload] at h
      dsimp only at h
      split at h
      . injection h with h
        injection h with hr h
        injection h with _ hw
        rw [← hr, ← hw]
        refine ⟨hinv, ?_, fun hok => by contradiction⟩
        intro a ha
        rw [haccepts] at ha
        exact .inl ha
      split at h
      . contradiction
      next rc2 auth hverify =>
      have hinv' := hinv.verify hshared hverify
      split at h
      . injection h with h
        injection h with hr h
        injection h with _ hw
        rw [← hr, ← hw]
        refine ⟨hinv', ?_, fun hok => by contradiction⟩
        intro a ha
        rw [← haccepts]
        exact .inl ha
      next hrc =>
      injection h with h
      injection h with hr h
      injection h with _ hw
      rw [not_not.mp hrc] at hverify
      have ⟨hpass, howner⟩ := authModVerifyImg_accepted hshared hverify
      rw [← hr, ← hw]
      refine ⟨hinv', ?_, fun _ => howner⟩
      intro a ha
      rw [List.mem_append, List.mem_singleton, haccepts] at ha
      cases ha with
      | inl hold => exact .inl hold
      | inr hnew =>
        right
        rw [hnew]
        exact hown.ownParams hinv hpass

lemma go_owned {fuel : Nat} (hinv : OwnerInv cot w.auth) (hshared : cot.Shared) (hfresh : Fresh cot w.auth id)
    (h : go env cot storage fuel id info w = some (r, info', w')) : Owned env cot id w r w' := by
  induction fuel generalizing id info' w' r with
  | zero =>
    unfold go at h
    cases hfresh with
    | direct hnone hown =>
      rw [hnone] at h
      exact load_owned hinv hshared hown h
    | parent hsome _ =>
      rw [hsome] at h
      contradiction
  | succ fuel ih =>
    unfold go at h
    cases hfresh with
    | direct hnone hown =>
      rw [hnone] at h
      exact load_owned hinv hshared hown h
    | @parent _ p hsome hfresh =>
      have hp := authModGetParentId_eq_some hsome
      rw [hsome] at h
      dsimp only at h
      split at h
      . next info1 w1 hparent =>
        have hparent := ih hfresh hparent
        have hown : OwnBuffers cot w1.auth id := by
          intro p' m t data hp' _ _ hget
          rw [hp] at hp'
          injection hp' with hp'
          rw [← hp'] at hget ⊢
          have ⟨entry, hmem, htype, hdata⟩ := authGetParam_mem hget
          rw [← hdata]
          exact hparent.owner rfl entry ⟨hmem, by rw [htype]; simp⟩
        have hchild := load_owned hparent.inv hshared hown h
        refine ⟨hchild.inv, ?_, hchild.owner⟩
        intro a ha
        cases hchild.accepts a ha with
        | inl hold => exact hparent.accepts a hold
        | inr hnew => exact .inr hnew
      next hnot =>
      have hparent := ih hfresh h
      refine ⟨hparent.inv, hparent.accepts, ?_⟩
      intro hr
      rw [hr] at h
      exact absurd h (hnot _ _)

end loadAuthImage

lemma FreshRun.owned {start : World} (h : FreshRun env cot storage start w) (hshared : cot.Shared)
    (howner : ∀ a, start.auth.owner a = none) (haccepts : start.accepts = [])
    : OwnerInv cot w.auth ∧ ∀ a ∈ w.accepts, OwnParams env cot a := by
  induction h with
  | start =>
    constructor
    . intro p e t _ _ hp
      rw [howner] at hp
      contradiction
    . rw [haccepts]
      simp
  | call _ hfresh hcall ih =>
    have howned := loadAuthImage.go_owned ih.1 hshared hfresh hcall
    refine ⟨howned.inv, ?_⟩
    intro a ha
    cases howned.accepts a ha with
    | inl hold => exact ih.2 a hold
    | inr hnew => exact hnew

namespace Tbbr

def entries : List (Nat × AuthParamDesc) :=
  (List.range 21).flatMap fun id =>
    ((cotDesc id).authenticatedData.filter fun e => e.typeDesc ≠ none).map fun e => (id, e)

lemma mem_entries {e : AuthParamDesc} (h : tbbrCot.Entry p e) : (p, e) ∈ entries := by
  have hlt : p < 21 := by
    apply Decidable.byContradiction
    intro hge
    have hmem := h.1
    have htype := h.2
    unfold tbbrCot cotDesc at hmem
    dsimp only at hmem
    split at hmem
    all_goals try omega
    have hnone : ∀ e' ∈ authenticatedData [], e'.typeDesc = none := by decide
    exact htype (hnone e hmem)
  unfold entries
  rw [List.mem_flatMap]
  refine ⟨p, List.mem_range.mpr hlt, ?_⟩
  rw [List.mem_map]
  exact ⟨e, List.mem_filter.mpr ⟨h.1, decide_eq_true h.2⟩, rfl⟩

lemma tbbrCot_shared : tbbrCot.Shared where
  imgId := by
    intro p e h
    have hall : ∀ x ∈ entries, (cotDesc x.1).imgId = x.1 := by decide
    exact hall (p, e) (mem_entries h)
  apart := by
    intro p q e e' h h'
    have hall : ∀ x ∈ entries, ∀ y ∈ entries, x.2.data.ptr ≠ y.2.data.ptr →
        x.2.data.ptr + x.2.data.len ≤ y.2.data.ptr ∨ y.2.data.ptr + y.2.data.len ≤ x.2.data.ptr := by
      decide
    exact hall (p, e) (mem_entries h) (q, e') (mem_entries h')
  once := by
    intro p e e' h h' hsame
    have hall : ∀ x ∈ entries, ∀ y ∈ entries, x.1 = y.1 →
        x.2.data.ptr = y.2.data.ptr ∨ x.2.typeDesc = y.2.typeDesc → x.2 = y.2 := by
      decide
    exact hall (p, e) (mem_entries h) (p, e') (mem_entries h') rfl hsame

theorem freshRun_ownParams {start w : World} (howner : ∀ a, start.auth.owner a = none)
    (haccepts : start.accepts = []) (h : FreshRun env tbbrCot storage start w)
    : ∀ a ∈ w.accepts, OwnParams env tbbrCot a :=
  (h.owned tbbrCot_shared howner haccepts).2

def twoByteEnv : Env where
  checkIntegrity := fun _ _ => 0
  getAuthParam := fun _ typeDesc img =>
    match typeDesc.type with
    | .sig => (0, { ptr := fun _ => img.getD 1 0, len := 1 })
    | .nvCtr => (0, { ptr := fun i => [2, 1, 0].getD i 0, len := 3 })
    | _ => (0, { ptr := fun _ => img.getD 0 0, len := 1 })
  verifySignature := fun _ sig _ pk => if sig.head? = pk.head? then 0 else 1
  verifyHash := fun data digestInfo => if data.head? = digestInfo.head? then 0 else 1
  platGetRotpkInfo := fun _ => { rc := 0, pk := [1], isHash := false, notDeployed := false }
  platGetNvCtr := fun _ _ => 0
  platSetNvCtr := fun _ _ => 0

def stored (certs : List (List UInt8)) (i : Nat) : IoImage :=
  { source := 0, openRc := 0, sizeRc := 0, size := 2, readRc := 0, data := certs.getD i [] }

-- The parent of the content certificate is authenticated already when it is loaded.
theorem freshRun_ownParams_scp
    : ∃ info₁ w₁ info' w', loadAuthImage twoByteEnv tbbrCot (stored [[10, 1], [20, 10], [40, 20]])
          scpFwKeyCertId ⟨0, 0, 8⟩ resetWorld = some (.ok, info₁, w₁)
        ∧ loadAuthImage twoByteEnv tbbrCot (stored [[10, 1], [20, 10], [40, 20]])
          scpFwContentCertId ⟨0, 0, 8⟩ w₁ = some (.ok, info', w')
        ∧ w'.accepts.map (·.imageId) = [trustedKeyCertId, scpFwKeyCertId, scpFwContentCertId]
        ∧ ∀ a ∈ w'.accepts, OwnParams twoByteEnv tbbrCot a := by
  have ⟨info₁, w₁, hkey, howner, hparent, info', w', hcontent, hids⟩ : ∃ info₁ w₁,
      loadAuthImage twoByteEnv tbbrCot (stored [[10, 1], [20, 10], [40, 20]])
          scpFwKeyCertId ⟨0, 0, 8⟩ resetWorld = some (.ok, info₁, w₁)
        ∧ w₁.auth.owner contentPkBuf.ptr = some scpFwKeyCertId
        ∧ authModGetParentId tbbrCot scpFwContentCertId w₁.auth = none
        ∧ ∃ info' w', loadAuthImage twoByteEnv tbbrCot (stored [[10, 1], [20, 10], [40, 20]])
          scpFwContentCertId ⟨0, 0, 8⟩ w₁ = some (.ok, info', w')
        ∧ w'.accepts.map (·.imageId) = [trustedKeyCertId, scpFwKeyCertId, scpFwContentCertId] :=
    ⟨_, _, rfl, rfl, rfl, _, _, rfl, rfl⟩
  have hroot : Fresh tbbrCot resetWorld.auth trustedKeyCertId := by
    apply Fresh.direct rfl
    intro p m t data hp
    contradiction
  have hbuffers : OwnBuffers tbbrCot w₁.auth scpFwContentCertId := by
    intro p m t data hp hm ht hget
    cases hp
    fin_cases hm
    . cases ht
      cases hget
      exact howner
    all_goals cases ht
  refine ⟨info₁, w₁, info', w', hkey, hcontent, hids, ?_⟩
  exact freshRun_ownParams (fun _ => rfl) rfl
    (.call (.call .start (.parent (p := trustedKeyCertId) rfl hroot) hkey) (.direct hparent hbuffers) hcontent)

def crossSigned : Nat → IoImage := stored [[10, 1], [20, 10], [30, 10], [40, 30]]

def loadAll (ids : List Nat) (w : World) : Option World :=
  ids.foldlM (fun w id => (loadAuthImage twoByteEnv tbbrCot crossSigned id ⟨0, 0, 8⟩ w).map (·.2.2)) w

lemma loadAll_reachable {ids : List Nat} (h : loadAll ids w = some w')
    (hw : Reachable twoByteEnv tbbrCot crossSigned resetWorld w)
    : Reachable twoByteEnv tbbrCot crossSigned resetWorld w' := by
  induction ids generalizing w with
  | nil =>
    injection h with h
    rw [← h]
    exact hw
  | cons id ids ih =>
    have ⟨w1, hw1, hrest⟩ := Option.bind_eq_some_iff.mp h
    have ⟨res, hcall, heq⟩ := Option.map_eq_some_iff.mp hw1
    rw [← heq] at hrest
    exact ih hrest (.call hw hcall)

theorem not_ownParams_crossSigned
    : ∃ w, Reachable twoByteEnv tbbrCot crossSigned resetWorld w
        ∧ ∃ a ∈ w.accepts, a.imageId = scpFwContentCertId ∧ ¬OwnParams twoByteEnv tbbrCot a := by
  have ⟨w, hw, hlast⟩ : ∃ w,
      loadAll [scpFwKeyCertId, socFwKeyCertId, scpFwContentCertId] resetWorld = some w
        ∧ w.accepts.getLast?.map (fun a => (a.imageId, a.auth.extracted scpFwKeyCertId scpFwContentPk,
              a.image.bytes))
          = some (scpFwContentCertId, some [20], [40, 30]) :=
    ⟨_, rfl, rfl⟩
  have ⟨a, ha, heq⟩ := Option.map_eq_some_iff.mp hlast
  injection heq with hid heq
  injection heq with hextracted himage
  refine ⟨w, loadAll_reachable hw .start, a, List.mem_of_getLast? ha, hid, ?_⟩
  intro hown
  unfold OwnParams at hown
  rw [hid] at hown
  have ⟨params, hown⟩ := hown
  have ⟨hpasses, hparams⟩ := hown (.sig scpFwContentPk sig sigAlg rawData) (by decide)
  have ⟨data, value, hget, hvalue, rest, hrest⟩ := hparams scpFwKeyCertId scpFwContentPk rfl rfl
  rw [hextracted] at hvalue
  injection hvalue with hvalue
  cases hpasses with
  | inl hroot => exact absurd hroot.1 (by decide)
  | inr hchild =>
    have ⟨key, ⟨p, data', hp, hget', hkey⟩, dataBuf, sigBuf, algBuf, _, hsig, _, _, hverify⟩ := hchild
    -- Both are the only key of the key certificate, so the key begins with the byte 20.
    injection hp with hp
    rw [← hp, hget] at hget'
    injection hget' with hget'
    injection hget' with hget'
    rw [← hget', ← hrest, ← hvalue] at hkey
    have hbytes : sigBuf.bytes = [30] := by
      have hparse : (0, { ptr := fun _ => a.image.bytes.getD 1 0, len := 1 }) = ((0 : Int), sigBuf) := hsig
      injection hparse with _ hparse
      rw [← hparse, himage]
      rfl
    rw [hbytes, hkey] at hverify
    simp [authSignature.verify, twoByteEnv] at hverify

end Tbbr

end Atf.Auth
