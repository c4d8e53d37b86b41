import MarvellBoot.UBoot.EnvFlags.Lemmas.Tracks
import MarvellBoot.UBoot.Hashtable.Lemmas.Create

namespace UBoot.EnvFlags

open Hashtable OpenAddressing

def AllMeet (slre : CStr → CStr → Option Bool) (listStatic : CStr) (hooks : Hooks Statics) (s : State Statics)
    : List Call → Prop
  | [] => True
  | call :: calls =>
    Meets slre listStatic s call
      ∧ ∀ outcome s', call.exec hooks s = some (outcome, s') → AllMeet slre listStatic hooks s' calls

section

variable {slre : CStr → CStr → Option Bool} {listStatic : CStr}
  {changeOk : Entry → Option CStr → EnvOp → Nat → Bool} {rejects : CStr → Option CStr → EnvOp → Nat → Bool}
  {s : State Statics}

lemma Kept.execAll {calls : List Call} (hk : Kept slre listStatic s)
    (hmeets : AllMeet slre listStatic (envHooks slre listStatic changeOk rejects) s calls)
    : ∃ outcomes s', Call.execAll (envHooks slre listStatic changeOk rejects) s calls = some (outcomes, s')
      ∧ Kept slre listStatic s' := by
  induction calls generalizing s with
  | nil => exact ⟨_, _, rfl, hk⟩
  | cons call calls ih =>
    have ⟨outcome, s1, hexec, hk1⟩ := @Kept.exec _ _ changeOk rejects s _ hk hmeets.1
    have ⟨outcomes, s', hrest, hk'⟩ := ih hk1 (hmeets.2 _ _ hexec)
    refine ⟨outcome :: outcomes, s', ?_, hk'⟩
    rw [Call.execAll, hexec]
    dsimp only
    rw [hrest]

theorem flags_follow_flagsVar (hk : Kept slre listStatic s) (calls : List Call)
    (hmeets : AllMeet slre listStatic (envHooks slre listStatic changeOk rejects) s calls)
    : ∃ outcomes s', Call.execAll (envHooks slre listStatic changeOk rejects) s calls = some (outcomes, s')
      ∧ ∀ idx k v, cells s'.htab idx = .live k v →
        lookupFlags slre listStatic (getenv s'.htab envFlagsVar) k = some (s'.htab.table idx).entry.flags := by
  have ⟨outcomes, s', hexec, hk'⟩ := hk.execAll hmeets
  exact ⟨outcomes, s', hexec, fun idx k v hlive => hk'.tracks.live hlive⟩

end

lemma hcreateR_kept {slre : CStr → CStr → Option Bool} {listStatic : CStr} {nel : Nat} {htab : HsearchData}
    {statics : Statics} (h : hcreateR nel = some htab) (hsize : 5 ≤ htab.size)
    (hfirst : statics.firstCall = false) : Kept slre listStatic ⟨htab, statics⟩ := by
  have hs : Stands ⟨htab, statics⟩ fun _ => none := hcreateR_stands h hsize
  have ⟨_, _, hfree⟩ := hcreateR_eq h
  refine kept_of_stands hs hfirst ⟨?_, ?_⟩
  . intro idx k v hlive
    rw [hfree] at hlive
    contradiction
  intro idx _
  unfold hcreateR at h
  split at h
  . contradiction
  . cases h
    rfl

def vlanFlags : CStr := [0x76, 0x6c, 0x61, 0x6e, 0x3a, 0x64, 0x2c]

def aWriteOnce : CStr := [0x61, 0x3a, 0x73, 0x6f]

def slreLiteral (name searchedFor : CStr) : Option Bool := some (name = searchedFor)

def vlanHooks : Hooks Statics := envHooks slreLiteral vlanFlags (envFlagsValidate fun _ => none) fun _ _ _ _ => false

lemma plain_slreLiteral {attrList : Option CStr}
    (h : ∀ entry ∈ entriesOf attrList, ∃ a, entry.2 = some a ∧ a.length ≤ envFlagsAttrMaxLen) (name : CStr)
    : Plain slreLiteral attrList name := by
  refine ⟨fun entry hentry => ⟨rfl, fun _ => h entry hentry⟩, fun entry _ => ?_⟩
  simp [slreLiteral]

variable (name : CStr)

lemma plain_vlanFlags : Plain slreLiteral (some vlanFlags) name := by
  apply plain_slreLiteral
  have hentries : entriesOf (some vlanFlags) = [([0x76, 0x6c, 0x61, 0x6e], some [0x64])] := by decide
  simp [hentries, envFlagsAttrMaxLen]

lemma plain_aWriteOnce : Plain slreLiteral (some aWriteOnce) name := by
  apply plain_slreLiteral
  have hentries : entriesOf (some aWriteOnce) = [([0x61], some [0x73, 0x6f])] := by decide
  simp [hentries, envFlagsAttrMaxLen]

lemma plain_none : Plain slreLiteral none name := by
  apply plain_slreLiteral
  intro entry hentry
  contradiction

theorem flags_follow_flagsVar_writeOnce
    : ∃ outcomes s', Call.execAll vlanHooks ⟨fiveSlots, ⟨false, none, false⟩⟩
        [.enter [0x61] [0x31] 0, .enter envFlagsVar aWriteOnce 0] = some (outcomes, s')
      ∧ ∀ idx k v, cells s'.htab idx = .live k v →
        lookupFlags slreLiteral vlanFlags (getenv s'.htab envFlagsVar) k = some (s'.htab.table idx).entry.flags := by
  apply flags_follow_flagsVar (hcreateR_kept hcreateR_five (le_refl 5) rfl)
  refine ⟨⟨.inr ⟨.inl ⟨1, by decide, by decide, rfl⟩, rfl, (plain_none _).1, (plain_vlanFlags _).1, ?_⟩, ?_⟩, ?_⟩
  . intro _
    exact ⟨(plain_none _).1, rfl⟩
  . intro h
    contradiction
  intro outcome s hexec
  have hempty : cells s.htab 1 = .free ∧ s.htab.size = 5 ∧ s.statics = ⟨false, none, false⟩ := by
    cases hexec
    decide +kernel
  refine ⟨⟨.inr ⟨.inl ⟨1, by decide, by omega, hempty.1⟩, ?_⟩, ?_⟩, fun _ _ _ => trivial⟩
  . rw [hempty.2.2]
    exact ⟨rfl, (plain_none _).1, (plain_vlanFlags _).1, fun h => absurd rfl h⟩
  . intro _ k _
    exact ⟨plain_vlanFlags k, plain_aWriteOnce k⟩

-- The variable is created after `.flags` and gets no flags.
theorem not_follow_createdAfter
    : ¬∀ (s : State Statics), Kept slreLiteral vlanFlags s → ∀ (calls : List Call) (outcomes : List Outcome)
        (s' : State Statics), Call.execAll vlanHooks s calls = some (outcomes, s') → ∀ idx k v,
        cells s'.htab idx = .live k v →
        lookupFlags slreLiteral vlanFlags (getenv s'.htab envFlagsVar) k = some (s'.htab.table idx).entry.flags := by
  intro h
  have heval : ∃ outcomes s', Call.execAll vlanHooks ⟨fiveSlots, ⟨false, none, false⟩⟩
      [.enter envFlagsVar aWriteOnce 0, .enter [0x61] [0x31] 0] = some (outcomes, s')
      ∧ cells s'.htab 3 = .live [0x61] [0x31] ∧ (s'.htab.table 3).entry.flags = 0
      ∧ lookupFlags slreLiteral vlanFlags (getenv s'.htab envFlagsVar) [0x61]
        = some (preventDelete ||| preventOverwr) :=
    ⟨_, _, rfl, by decide +kernel, by decide +kernel, by decide +kernel⟩
  have ⟨outcomes, s', hexec, hlive, hflags, hlookup⟩ := heval
  have hfollow := h _ (hcreateR_kept hcreateR_five (le_refl 5) rfl) _ outcomes s' hexec 3 _ _ hlive
  rw [hlookup, hflags] at hfollow
  contradiction

end UBoot.EnvFlags
