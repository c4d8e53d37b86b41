import MarvellBoot.Atf.Auth.Impl.LoadImage
import MarvellBoot.Atf.Auth.Lemmas.Verify

namespace Atf.Auth

open authModVerifyImg List

variable {p fuel : Nat} {s s' : State} {img : Buf} {rc : Int} {info info' : ImageInfo} {w w' : World} {r : LoadResult}

mutual

/--
All methods of the image have succeeded, with buffers that were provided by its parent. A root has
only the key of the platform.
-/
inductive Authentic (env : Env) (cot : Cot) (init : Int → UInt8) : Nat → Buf → Prop where
  | intro {id : Nat} {img : Buf} {s s' : State} :
      (∀ p, (cot.desc id).parent = some p → Provided env cot init p s.params true) →
      imgParserCheckIntegrity env (cot.desc id).imgType img = 0 →
      methods env cot (cot.desc id) img (cot.desc id).imgAuthMethods s = some (0, s') →
      (∀ m ∈ (cot.desc id).imgAuthMethods, MethodPasses env cot (cot.desc id) img s.params m) →
      Authentic env cot init id img

inductive Provided (env : Env) (cot : Cot) (init : Int → UInt8) : Nat → (Int → UInt8) → Bool → Prop where
  | init {p : Nat} {m : Int → UInt8} :
      (∀ a, (cot.desc p).Covers a → m a = init a) →
      Provided env cot init p m false
  | extracted {p : Nat} {img : Buf} {m m' : Int → UInt8} {full : Bool} {done : List AuthParamDesc} :
      Provided env cot init p m full →
      Authentic env cot init p img →
      done <+: (cot.desc p).authenticatedData →
      Fits env (cot.desc p) img done →
      (∀ a, (cot.desc p).Covers a → m' a = copies env (cot.desc p) img done m a) →
      Provided env cot init p m' (full || decide (done = (cot.desc p).authenticatedData))

end

def Cot.Disjoint (cot : Cot) : Prop := ∀ p q a, (cot.desc p).Covers a → (cot.desc q).Covers a → p = q

def Cot.Indexed (cot : Cot) : Prop := ∀ id, (cot.desc id).imgId = id

variable {env : Env} {cot : Cot} {init : Int → UInt8} {storage : Nat → IoImage}

lemma Provided.congr {m m' : Int → UInt8} {full : Bool} (h : Provided env cot init p m full)
    (hm : ∀ a, (cot.desc p).Covers a → m' a = m a) : Provided env cot init p m' full := by
  cases h with
  | init hinit =>
    apply Provided.init
    intro a ha
    rw [hm a ha, hinit a ha]
  | extracted hprovided hauth hdone hfits hcopies =>
    apply Provided.extracted hprovided hauth hdone hfits
    intro a ha
    rw [hm a ha, hcopies a ha]

def Inv (env : Env) (cot : Cot) (init : Int → UInt8) (s : State) : Prop :=
  ∀ p, ∃ full, Provided env cot init p s.params full ∧ (s.authenticated p = true → full = true)

lemma Inv.of_frame (h : Inv env cot init s) (hframe : s.Frame s') : Inv env cot init s' := by
  intro p
  rw [hframe.params, hframe.authenticated]
  exact h p

lemma Inv.authentic {id : Nat} (h : Inv env cot init s)
    (hparent : ∀ p, (cot.desc id).parent = some p → s.authenticated p = true)
    (hintegrity : imgParserCheckIntegrity env (cot.desc id).imgType img = 0)
    (hmethods : methods env cot (cot.desc id) img (cot.desc id).imgAuthMethods s = some (0, s'))
    : Authentic env cot init id img := by
  apply Authentic.intro _ hintegrity hmethods (methods_pass hmethods)
  intro p hp
  have ⟨full, hprovided, hfull⟩ := h p
  rw [hfull (hparent p hp)] at hprovided
  exact hprovided

lemma Inv.extract {id : Nat} (h : Inv env cot init s)
    (hdisjoint : cot.Disjoint) (hauth : Authentic env cot init id img)
    (hextract : extract env (cot.desc id) img (cot.desc id).authenticatedData s = (rc, s'))
    : Inv env cot init (if rc = 0 then s'.setAuthenticated id else s') := by
  have ⟨done, hpre, hfits, hparams, hdone⟩ := extract_spec hextract
  have hframe := extract_frame hextract
  have hparams' : (if rc = 0 then s'.setAuthenticated id else s').params = s'.params := by
    split <;> rfl
  intro p
  have ⟨full, hprovided, hfull⟩ := h p
  rw [hparams', hparams]
  cases Nat.decEq p id with
  | isTrue heq =>
    subst heq
    refine ⟨_, .extracted hprovided hauth hpre hfits fun a _ => rfl, ?_⟩
    intro hp
    split at hp
    . next hrc =>
      rw [decide_eq_true (hdone hrc), Bool.or_true]
    . rw [hframe.authenticated] at hp
      rw [hfull hp, Bool.true_or]
  | isFalse hne =>
    refine ⟨full, hprovided.congr ?_, ?_⟩
    . intro a ha
      apply copies_of_not_covers hfits
      intro entry hentry htype hcovers
      apply hne
      exact hdisjoint p id a ha ⟨entry, hpre.mem hentry, htype, hcovers⟩
    intro hp
    apply hfull
    rw [← hframe.authenticated]
    split at hp
    . simpa [State.setAuthenticated, hne] using hp
    . exact hp

structure Verified (env : Env) (cot : Cot) (init : Int → UInt8) (id : Nat) (img : Buf) (s : State)
    (rc : Int) (s' : State) : Prop where
  inv : Inv env cot init s'
  accepted : rc = 0 → Authentic env cot init id img ∧ s'.authenticated id = true
  others : ∀ q, q ≠ id → s'.authenticated q = s.authenticated q

lemma Inv.verified {id : Nat} (h : Inv env cot init s) (hdisjoint : cot.Disjoint) (hindexed : cot.Indexed)
    (hparent : ∀ p, (cot.desc id).parent = some p → s.authenticated p = true)
    (hverify : authModVerifyImg env cot id img s = some (rc, s'))
    : Verified env cot init id img s rc s' := by
  cases authModVerifyImg_outcome hverify with
  | integrity hne _ => exact ⟨h, fun hrc => absurd hrc hne, fun _ _ => rfl⟩
  | rejected hne _ hmethods =>
    have hframe := methods_frame hmethods
    refine ⟨h.of_frame hframe, fun hrc => absurd hrc hne, ?_⟩
    intro q _
    rw [hframe.authenticated]
  | extracted hintegrity hmethods hextract =>
    have hframe := methods_frame hmethods
    have hauth := h.authentic hparent hintegrity hmethods
    rw [hindexed id]
    refine ⟨(h.of_frame hframe).extract hdisjoint hauth hextract, ?_, ?_⟩
    . intro hrc
      rw [if_pos hrc]
      exact ⟨hauth, if_pos rfl⟩
    intro q hq
    rw [← hframe.authenticated, ← (extract_frame hextract).authenticated]
    split
    . exact if_neg hq
    . rfl

lemma loadImage_frame {io : IoImage} {id : Nat} (h : loadImage io id info w = (rc, info', w'))
    : w'.auth = w.auth ∧ w'.loads = w.loads ++ [id] ∧ info'.imageBase = info.imageBase ∧ w'.accepts = w.accepts := by
  unfold loadImage at h
  repeat' split at h
  all_goals
    injection h with _ h
    injection h with hinfo hw
    rw [← hinfo, ← hw]
    exact ⟨rfl, rfl, rfl, rfl⟩

structure Loaded (env : Env) (cot : Cot) (init : Int → UInt8) (id : Nat) (info : ImageInfo) (w : World)
    (r : LoadResult) (info' : ImageInfo) (w' : World) : Prop where
  inv : Inv env cot init w'.auth
  base : info'.imageBase = info.imageBase
  code : r.code = 0 → r = .ok
  ok : r = .ok → Authentic env cot init id (w'.image info') ∧ w'.auth.authenticated id = true
  zeros : r = .authError → ∀ i < info'.imageSize, w'.mem (info'.imageBase + i) = 0
  flags : ∃ loads, w'.loads = w.loads ++ loads ∧ ∀ q, q ∉ loads → w'.auth.authenticated q = w.auth.authenticated q

lemma store_zeros (m : Int → UInt8) (a : Int) {n i : Nat} (h : i < n)
    : Mem.store m a (replicate n 0) (a + i) = 0 := by
  unfold Mem.store
  rw [if_pos, getD_eq_getElem?_getD, getElem?_replicate]
  . split <;> rfl
  . rw [length_replicate]
    omega

namespace loadAuthImage

variable {id : Nat}

lemma load_loaded (hinv : Inv env cot init w.auth) (hdisjoint : cot.Disjoint) (hindexed : cot.Indexed)
    (hparent : ∀ p, (cot.desc id).parent = some p → w.auth.authenticated p = true)
    (h : load env cot storage id info w = some (r, info', w'))
    : Loaded env cot init id info w r info' w' := by
  unfold load at h
  cases hload : loadImage (storage w.loads.length) id info w with
  | mk rc rest =>
    cases rest with
    | mk info1 w1 =>
      have ⟨hauth, hloads, hbase, _⟩ := loadImage_frame hload
      rw [hload] at h
      dsimp only at h
      split at h
      . next hne =>
        injection h with h
        injection h with hr h
        injection h with hinfo hw
        rw [← hr, ← hinfo, ← hw]
        refine ⟨?_, hbase, fun hcode => absurd hcode hne, ?_, ?_, [id], hloads, ?_⟩
        . rw [hauth]
          exact hinv
        . intro hok
          contradiction
        . intro hfail
          contradiction
        . intro q _
          rw [hauth]
      split at h
      . contradiction
      next rc2 auth hverify =>
      rw [hauth] at hverify
      have hverified := hinv.verified hdisjoint hindexed hparent hverify
      have hothers : ∀ q, q ∉ [id] → auth.authenticated q = w.auth.authenticated q := by
        intro q hq
        rw [mem_singleton] at hq
        exact hverified.others q hq
      split at h
      . injection h with h
        injection h with hr h
        injection h with hinfo hw
        rw [← hr, ← hinfo, ← hw]
        refine ⟨hverified.inv, hbase, ?_, ?_, ?_, [id], hloads, hothers⟩
        . intro hcode
          contradiction
        . intro hok
          contradiction
        . intro _ i hi
          exact store_zeros _ _ hi
      next hrc =>
      injection h with h
      injection h with hr h
      injection h with hinfo hw
      rw [← hr, ← hinfo, ← hw]
      refine ⟨hverified.inv, hbase, fun _ => rfl, ?_, ?_, [id], hloads, hothers⟩
      . intro _
        exact hverified.accepted (not_not.mp hrc)
      . intro hfail
        contradiction

lemma authModGetParentId_eq_none (h : authModGetParentId cot id s = none)
    : ∀ p, (cot.desc id).parent = some p → s.authenticated p = true := by
  intro p hp
  unfold authModGetParentId at h
  rw [hp] at h
  dsimp only at h
  split at h
  . next hauth =>
    rw [cot.parent_imgId hp] at hauth
    exact hauth
  . contradiction

lemma authModGetParentId_eq_some (h : authModGetParentId cot id s = some p) : (cot.desc id).parent = some p := by
  unfold authModGetParentId at h
  split at h
  . contradiction
  next p' hp' =>
  split at h
  . contradiction
  . injection h with h
    rw [← h, cot.parent_imgId hp', hp']

lemma go_loaded (hinv : Inv env cot init w.auth) (hdisjoint : cot.Disjoint) (hindexed : cot.Indexed)
    (h : go env cot storage fuel id info w = some (r, info', w'))
    : Loaded env cot init id info w r info' w' := by
  induction fuel generalizing id info' w' r with
  | zero =>
    unfold go at h
    split at h
    . next hnone => exact load_loaded hinv hdisjoint hindexed (authModGetParentId_eq_none hnone) h
    . contradiction
  | succ fuel ih =>
    unfold go at h
    split at h
    . next hnone => exact load_loaded hinv hdisjoint hindexed (authModGetParentId_eq_none hnone) h
    next p hsome =>
    have hp := authModGetParentId_eq_some hsome
    dsimp only at h
    split at h
    . next info1 w1 hparent =>
      have hparent := ih hparent
      have ⟨hpauth, hpflag⟩ := hparent.ok rfl
      have hchild := load_loaded hparent.inv hdisjoint hindexed
        (by
          intro p' hp'
          rw [hp] at hp'
          injection hp' with hp'
          rw [← hp']
          exact hpflag) h
      have ⟨loads1, hloads1, hflags1⟩ := hparent.flags
      have ⟨loads2, hloads2, hflags2⟩ := hchild.flags
      refine ⟨hchild.inv, hchild.base.trans hparent.base, hchild.code, hchild.ok,
        hchild.zeros, loads1 ++ loads2, ?_, ?_⟩
      . rw [hloads2, hloads1, append_assoc]
      . intro q hq
        rw [mem_append, not_or] at hq
        rw [hflags2 q hq.2, hflags1 q hq.1]
    next hnot =>
    have hparent := ih h
    refine ⟨hparent.inv, hparent.base, hparent.code, ?_, hparent.zeros, hparent.flags⟩
    intro hr
    rw [hr] at h
    exact absurd h (hnot _ _)

lemma go_eq_of_le {fuel' : Nat} (hfuel : cot.depth id ≤ fuel) (hfuel' : cot.depth id ≤ fuel')
    (info : ImageInfo) (w : World)
    : go env cot storage fuel id info w = go env cot storage fuel' id info w := by
  induction fuel generalizing id fuel' with
  | zero =>
    unfold go
    split
    . rfl
    . next p hsome =>
      have := cot.depth_lt (authModGetParentId_eq_some hsome)
      omega
  | succ fuel ih =>
    unfold go
    split
    . rfl
    next p hsome =>
    have hlt := cot.depth_lt (authModGetParentId_eq_some hsome)
    cases fuel' with
    | zero => omega
    | succ fuel' =>
      have heq : go env cot storage fuel p info w = go env cot storage fuel' p info w := by
        apply ih
        . omega
        . omega
      dsimp only
      rw [heq]

end loadAuthImage

lemma loadAuthImage_eq (id : Nat) (info : ImageInfo) (w : World)
    : loadAuthImage env cot storage id info w
      = match authModGetParentId cot id w.auth with
        | none => loadAuthImage.load env cot storage id info w
        | some p =>
          match loadAuthImage env cot storage p info w with
          | some (.ok, info, w) => loadAuthImage.load env cot storage id info w
          | res => res := by
  unfold loadAuthImage
  rw [loadAuthImage.go]
  cases hparent : authModGetParentId cot id w.auth with
  | none => rfl
  | some p =>
    have hlt := cot.depth_lt (loadAuthImage.authModGetParentId_eq_some hparent)
    cases hdepth : cot.depth id with
    | zero => omega
    | succ fuel =>
      have hgo : loadAuthImage.go env cot storage fuel p info w
          = loadAuthImage.go env cot storage (cot.depth p) p info w :=
        loadAuthImage.go_eq_of_le (by omega) (le_refl (cot.depth p)) info w
      match hres : loadAuthImage.go env cot storage (cot.depth p) p info w with
      | none => simp only [hgo, hres]
      | some (.ok, _, _) => simp only [hgo, hres]
      | some (.loadError _, _, _) => simp only [hgo, hres]
      | some (.authError, _, _) => simp only [hgo, hres]

inductive Reachable (env : Env) (cot : Cot) (storage : Nat → IoImage) (start : World) : World → Prop where
  | start : Reachable env cot storage start start
  | call {w w' : World} {id : Nat} {info info' : ImageInfo} {r : LoadResult} :
      Reachable env cot storage start w →
      loadAuthImage env cot storage id info w = some (r, info', w') →
      Reachable env cot storage start w'

lemma Reachable.inv {start : World} (h : Reachable env cot storage start w)
    (hdisjoint : cot.Disjoint) (hindexed : cot.Indexed)
    (hstart : ∀ id, start.auth.authenticated id = false) : Inv env cot start.auth.params w.auth := by
  induction h with
  | start =>
    intro p
    refine ⟨false, .init fun _ _ => rfl, ?_⟩
    intro hp
    rw [hstart p] at hp
    contradiction
  | call _ hcall ih => exact (loadAuthImage.go_loaded ih hdisjoint hindexed hcall).inv

theorem loadAuthImage_chainOfTrust {start w w' : World} {id : Nat} {info info' : ImageInfo}
    {r : LoadResult} (hdisjoint : cot.Disjoint) (hindexed : cot.Indexed)
    (hstart : ∀ id, start.auth.authenticated id = false) (hw : Reachable env cot storage start w)
    (hcall : loadAuthImage env cot storage id info w = some (r, info', w'))
    : (r.code = 0 → Authentic env cot start.auth.params id (w'.image info'))
      ∧ (r = .authError → ∀ i < info'.imageSize, w'.mem (info'.imageBase + i) = 0)
      ∧ ∃ loads, w'.loads = w.loads ++ loads ∧ ∀ q, q ∉ loads → w'.auth.authenticated q = w.auth.authenticated q := by
  have hloaded := loadAuthImage.go_loaded (hw.inv hdisjoint hindexed hstart) hdisjoint hindexed hcall
  refine ⟨?_, hloaded.zeros, hloaded.flags⟩
  intro hcode
  exact (hloaded.ok (hloaded.code hcode)).1

namespace twoImages

def param (type : AuthParamType) : AuthParamTypeDesc := { type, cookie := 0 }

def desc (id : Nat) : AuthImgDesc :=
  match id with
  | 0 => {
      imgId := 0
      imgType := .cert
      parent := none
      imgAuthMethods := [.sig (param .pubKey) (param .sig) (param .sigAlg) (param .rawData)]
      authenticatedData := [{ typeDesc := some (param .hash), data := { ptr := 0, len := 1 } }]
    }
  | 1 => {
      imgId := 1
      imgType := .raw
      parent := some 0
      imgAuthMethods := [.hash (param .rawData) (param .hash)]
      authenticatedData := []
    }
  | id => { imgId := id, imgType := .raw, parent := none, imgAuthMethods := [], authenticatedData := [] }

lemma parent_eq {id : Nat} (h : (desc id).parent = some p) : id = 1 ∧ p = 0 := by
  match id with
  | 0 => contradiction
  | 1 =>
    injection h with h
    exact ⟨rfl, h.symm⟩
  | _ + 2 => contradiction

end twoImages

def twoImages : Cot where
  desc := twoImages.desc
  depth := id
  depth_lt := by
    intro id p h
    have ⟨hid, hp⟩ := twoImages.parent_eq h
    rw [hid, hp]
    decide
  parent_imgId := by
    intro id p h
    have ⟨_, hp⟩ := twoImages.parent_eq h
    rw [hp]
    rfl

lemma twoImages.covers_eq {id : Nat} {a : Int} (h : (twoImages.desc id).Covers a) : id = 0 := by
  have ⟨entry, hmem, _⟩ := h
  match id with
  | 0 => rfl
  | 1 => contradiction
  | _ + 2 => contradiction

def firstByteEnv : Env where
  checkIntegrity := fun _ _ => 0
  getAuthParam := fun _ _ img => (0, { ptr := fun _ => img.headD 0, len := 1 })
  verifySignature := fun _ sig _ pk => if sig = pk then 0 else 1
  verifyHash := fun data digestInfo => if data = digestInfo then 0 else 1
  platGetRotpkInfo := fun _ => { rc := 0, pk := [7], isHash := false, notDeployed := false }
  platGetNvCtr := fun _ _ => 0
  platSetNvCtr := fun _ _ => 0

def sevens (_ : Nat) : IoImage := { source := 0, openRc := 0, sizeRc := 0, size := 1, readRc := 0, data := [7] }

def resetWorld : World where
  auth := {
    params := fun _ => 0
    authenticated := fun _ => false
    nvCtr := fun _ => 0
    time := 0
    owner := fun _ => none
    extracted := fun _ _ => none
  }
  mem := fun _ => 0
  loads := []
  accepts := []

theorem loadAuthImage_chainOfTrust_twoImages
    : ∃ info' w', loadAuthImage firstByteEnv twoImages sevens 1 ⟨0, 0, 8⟩ resetWorld
          = some (.ok, info', w')
        ∧ Authentic firstByteEnv twoImages resetWorld.auth.params 1 (w'.image info') := by
  have hdisjoint : twoImages.Disjoint := by
    intro p q a hp hq
    rw [twoImages.covers_eq hp, twoImages.covers_eq hq]
  have hindexed : twoImages.Indexed := by
    intro id
    match id with
    | 0 => rfl
    | 1 => rfl
    | _ + 2 => rfl
  have ⟨info', w', hcall⟩ : ∃ info' w', loadAuthImage firstByteEnv twoImages sevens 1 ⟨0, 0, 8⟩
      resetWorld = some (.ok, info', w') := ⟨_, _, rfl⟩
  have htrust := loadAuthImage_chainOfTrust hdisjoint hindexed (fun _ => rfl) .start hcall
  exact ⟨info', w', hcall, htrust.1 rfl⟩

end Atf.Auth
