import MarvellBoot.UBoot.FwEnv.Lemmas.Write

namespace UBoot.FwEnv

open Mem Hashtable List Option

def others (vars : List Var) (name : CStr) : List Var := vars.filter fun var => var.1 ≠ name

def isSet (value : Option CStr) : Bool := value.getD [] ≠ []

section

variable {name other v : CStr} {vars pre post : List Var}

lemma ne_of_mem_others {var : Var} (h : var ∈ others vars name) : name ≠ var.1 := by
  exact (of_decide_eq_true (mem_filter.mp h).2).symm

lemma others_of_missing (h : vars.lookup name = none) : others vars name = vars := by
  apply filter_eq_self.mpr
  intro var hvar
  have hne : name ≠ var.1 := by simpa using lookup_eq_none_iff.mp h var hvar
  exact decide_eq_true hne.symm

lemma others_of_found (hnodup : ((pre ++ (name, v) :: post).map Prod.fst).Nodup)
    : others (pre ++ (name, v) :: post) name = pre ++ post := by
  rw [map_append, map_cons, nodup_append] at hnodup
  have ⟨_, hpost, hpre⟩ := hnodup
  have hpre : ∀ var ∈ pre, decide (var.1 ≠ name) = true := by
    intro var hvar
    exact decide_eq_true (hpre var.1 (mem_map_of_mem hvar) name mem_cons_self)
  have hpost : ∀ var ∈ post, decide (var.1 ≠ name) = true := by
    intro var hvar
    have hne := (nodup_cons.mp hpost).1
    apply decide_eq_true
    intro heq
    exact hne (mem_map.mpr ⟨var, hvar, heq⟩)
  unfold others
  rw [filter_append, filter_cons, filter_eq_self.mpr hpre, filter_eq_self.mpr hpost]
  simp

lemma lookup_others_self (vars : List Var) (name : CStr) : (others vars name).lookup name = none := by
  apply lookup_eq_none_iff.mpr
  intro var hvar
  simpa using ne_of_mem_others hvar

lemma lookup_others (hne : other ≠ name) : (others vars name).lookup other = vars.lookup other := by
  induction vars with
  | nil => rfl
  | cons var vars ih =>
    unfold others at *
    rw [filter_cons]
    by_cases hvar : var.1 = name
    . have hother : (other == var.1) = false := by
        rw [hvar]
        simpa using hne
      rw [if_neg (by simpa using hvar), ih, lookup_cons, hother]
    . rw [if_pos (by simpa using hvar), lookup_cons, lookup_cons, ih]

end

section

variable {hooks : Hooks} {m : Int → UInt8} {envSize : Nat} {name : CStr} {value : Option CStr} {vars : List Var}

lemma Holds.fwEnvWrite_eq (h : Holds m envSize vars) (hname : IsName name)
    : ∃ m1, Holds m1 envSize (others vars name) ∧ (vars.lookup name = none → m1 = m)
      ∧ fwEnvWrite hooks envSize m name value
        = if permitted hooks m name (vars.lookup name) (isSet value) = false then
            some (.erofs, m)
          else if isSet value then
            append m1 envSize name (value.getD [])
          else
            some (.ok, m1) := by
  unfold fwEnvWrite
  cases hlookup : vars.lookup name with
  | none =>
    have hmissing := lookup_eq_none_iff.mp hlookup
    refine ⟨m, ?_, fun _ => rfl, ?_⟩
    . rw [others_of_missing hlookup]
      exact h
    . rw [h.search_eq_missing hname fun var hvar => by simpa using hmissing var hvar]
      rfl
  | some v =>
    have ⟨pre, post, hvars, hpre⟩ := lookup_eq_some_iff.mp hlookup
    subst hvars
    have ⟨m1, hremove, hm1⟩ := h.remove
    refine ⟨m1, ?_, fun hnone => absurd hnone (by simp), ?_⟩
    . rw [others_of_found h.nodup]
      exact hm1
    rw [h.search_eq_found fun var hvar => by simpa using hpre var hvar]
    dsimp only
    rw [h.value_eq, hremove]
    rfl

def Fits (envSize : Nat) (vars : List Var) (name value : CStr) : Prop :=
  (strings (others vars name)).length + (entryText (name, value) ++ [0]).length ≤ envSize

def UpdatesMap (hooks : Hooks) (envSize : Nat) (m : Int → UInt8) (name : CStr) (value : Option CStr) : Prop :=
  ∃ res m', fwEnvWrite hooks envSize m name value = some (res, m')
    ∧ (res.ret = 0 → (∃ vars, Holds m' envSize vars)
      ∧ fwGetenv m' envSize name = some (if isSet value then value else none)
      ∧ ∀ other, IsName other → other ≠ name → fwGetenv m' envSize other = fwGetenv m envSize other)
    ∧ (res.ret ≠ 0 → m' = m)

def ClosesAssigned (hooks : Hooks) (envSize : Nat) (m : Int → UInt8) (name : CStr) (value : Option CStr) : Prop :=
  ∀ validateParams close valv, joinValues valv = value →
    ∀ ret res m', fwSetenv hooks envSize validateParams close (some m) (name :: valv) = some (ret, some (res, m')) →
      res.ret = 0

lemma Holds.ok_updates {m1 : Int → UInt8} {vars1 : List Var} (h : Holds m envSize vars) (hname : IsName name)
    (h1 : Holds m1 envSize vars1) (hself : vars1.lookup name = if isSet value then value else none)
    (hother : ∀ other, other ≠ name → vars1.lookup other = vars.lookup other)
    : (∃ vars, Holds m1 envSize vars)
      ∧ fwGetenv m1 envSize name = some (if isSet value then value else none)
      ∧ ∀ other, IsName other → other ≠ name → fwGetenv m1 envSize other = fwGetenv m envSize other := by
  refine ⟨⟨vars1, h1⟩, ?_, ?_⟩
  . rw [h1.fwGetenv_eq hname, hself]
  . intro other hname' hne
    rw [h1.fwGetenv_eq hname', h.fwGetenv_eq hname', hother other hne]

lemma value_of_isSet (hset : isSet value = true) : some (value.getD []) = value := by
  cases value with
  | none => simp [isSet] at hset
  | some v => rfl

lemma Holds.updatesMap_iff (h : Holds m envSize vars) (hname : IsName name) (hvalue : IsValue (value.getD []))
    : UpdatesMap hooks envSize m name value
      ↔ (isSet value = true → (vars.lookup name).isSome = true →
        permitted hooks m name (vars.lookup name) true = true → Fits envSize vars name (value.getD [])) := by
  have ⟨m1, hm1, hunchanged, hwrite⟩ := @Holds.fwEnvWrite_eq hooks m _ _ value _ h hname
  have hself := lookup_others_self vars name
  have hother : ∀ other, other ≠ name → (others vars name).lookup other = vars.lookup other :=
    fun other hne => lookup_others hne
  unfold UpdatesMap
  rw [hwrite]
  by_cases hpermitted : permitted hooks m name (vars.lookup name) (isSet value) = false
  . rw [if_pos hpermitted]
    constructor
    . intro _ hset _ htrue
      rw [hset, htrue] at hpermitted
      contradiction
    . intro _
      exact ⟨_, _, rfl, fun hret => absurd hret (by decide), fun _ => rfl⟩
  rw [if_neg hpermitted]
  cases hset : isSet value with
  | false =>
    refine ⟨fun _ h => absurd h Bool.false_ne_true, fun _ => ⟨_, _, rfl, fun _ => ?_, fun hret => absurd rfl hret⟩⟩
    have hupdates := @Holds.ok_updates m _ _ value _ m1 _ h hname hm1
    rw [hset] at hupdates
    exact hupdates hself hother
  | true =>
    rw [if_pos rfl, hm1.append_eq]
    by_cases hfits : (FwEnv.strings (others vars name)).length
        + (entryText (name, value.getD []) ++ [0]).length ≤ envSize
    . rw [if_pos hfits]
      refine ⟨fun _ _ _ _ => hfits, fun _ => ⟨_, _, rfl, fun _ => ?_, fun hret => absurd rfl hret⟩⟩
      have happend := hm1.append_holds hname hvalue (fun var hvar => ne_of_mem_others hvar) hfits
      have hupdates := @Holds.ok_updates m _ _ value _ _ _ h hname happend
      rw [hset] at hupdates
      apply hupdates
      . rw [lookup_append, hself, if_pos rfl, ← value_of_isSet hset]
        simp [lookup]
      intro other hne
      have hlast : [(name, value.getD [])].lookup other = none := by
        rw [lookup_cons, beq_false_of_ne hne]
        rfl
      rw [lookup_append, hother other hne, hlast, or_none]
    rw [if_neg hfits]
    rw [hset, Bool.not_eq_false] at hpermitted
    constructor
    . intro ⟨res, m', hres, _, hsame⟩ _ hfound _
      cases hres
      have hsame : m1 = m := hsame (by decide)
      have hlookup := hm1.fwGetenv_eq hname
      rw [hsame, h.fwGetenv_eq hname, hself, some_inj] at hlookup
      rw [hlookup] at hfound
      contradiction
    intro hcond
    cases hlookup : vars.lookup name with
    | some v => exact absurd (hcond rfl (by rw [hlookup]; rfl) hpermitted) hfits
    | none =>
      exact ⟨_, _, rfl, fun hret => absurd hret (by decide), fun _ => hunchanged hlookup⟩

lemma joinValues_toList (value : Option CStr) : joinValues value.toList = value := by
  cases value with
  | none => rfl
  | some v => simp [joinValues]

lemma Holds.closesAssigned_iff (h : Holds m envSize vars) (hname : IsName name)
    : ClosesAssigned hooks envSize m name value
      ↔ permitted hooks m name (vars.lookup name) (isSet value) = true
        ∧ (isSet value = true → Fits envSize vars name (value.getD [])) := by
  have ⟨m1, hm1, _, hwrite⟩ := @Holds.fwEnvWrite_eq hooks m _ _ value _ h hname
  rw [hm1.append_eq] at hwrite
  constructor
  . intro hcloses
    have hcloses := hcloses (fun _ _ _ => true) (fun _ => 0) value.toList (joinValues_toList value)
    unfold fwSetenv at hcloses
    dsimp only at hcloses
    rw [if_neg (by decide), joinValues_toList, hwrite] at hcloses
    constructor
    . by_contra hpermitted
      rw [if_pos (by simpa using hpermitted)] at hcloses
      exact absurd (hcloses _ _ _ rfl) (by decide)
    intro hset
    by_contra hfits
    by_cases hpermitted : permitted hooks m name (vars.lookup name) (isSet value) = false
    . rw [if_pos hpermitted] at hcloses
      exact absurd (hcloses _ _ _ rfl) (by decide)
    . unfold Fits at hfits
      rw [if_neg hpermitted, if_pos hset, if_neg hfits] at hcloses
      exact absurd (hcloses _ _ _ rfl) (by decide)
  intro ⟨hpermitted, hfits⟩ validateParams close valv hjoin ret res m' hsetenv
  unfold fwSetenv at hsetenv
  dsimp only at hsetenv
  split at hsetenv
  . simp at hsetenv
  rw [hjoin, hwrite, if_neg (by rw [hpermitted]; decide)] at hsetenv
  by_cases hset : isSet value = true
  . have hfits := hfits hset
    unfold Fits at hfits
    rw [if_pos hset, if_pos hfits] at hsetenv
    simp only [some.injEq, Prod.mk.injEq] at hsetenv
    rw [← hsetenv.2.1]
    rfl
  rw [if_neg hset] at hsetenv
  simp only [some.injEq, Prod.mk.injEq] at hsetenv
  rw [← hsetenv.2.1]
  rfl

end

theorem fwEnvWrite_updates_iff (hooks : Hooks) {m : Int → UInt8} {envSize : Nat} {vars : List Var}
    (h : Holds m envSize vars) {name : CStr} (hname : IsName name) {value : Option CStr}
    (hvalue : IsValue (value.getD []))
    : (UpdatesMap hooks envSize m name value
        ↔ (isSet value = true → (vars.lookup name).isSome = true →
          permitted hooks m name (vars.lookup name) true = true → Fits envSize vars name (value.getD [])))
      ∧ (ClosesAssigned hooks envSize m name value
        ↔ permitted hooks m name (vars.lookup name) (isSet value) = true
          ∧ (isSet value = true → Fits envSize vars name (value.getD []))) :=
  ⟨h.updatesMap_iff hname hvalue, h.closesAssigned_iff hname⟩

def openHooks : Hooks := ⟨fun _ _ _ => false, fun _ => none⟩

def smallImage : Int → UInt8 := store (fun _ => 0) 0 [0x61, 0x3d, 0x31, 0, 0]

lemma smallImage_holds : Holds smallImage 8 [([0x61], [0x31])] where
  text := rfl
  fits := by decide
  nodup := by decide
  name := by
    intro var hvar
    rw [mem_singleton.mp hvar]
    simp [IsName, equalSign]
  value := by
    intro var hvar
    rw [mem_singleton.mp hvar]
    simp [IsValue]

theorem fwEnvWrite_updates_iff_smallImage
    : UpdatesMap openHooks 8 smallImage [0x61] (some [0x32])
      ∧ ClosesAssigned openHooks 8 smallImage [0x61] (some [0x32]) := by
  have hname : IsName [0x61] := by simp [IsName, equalSign]
  have hvalue : IsValue ((some [0x32] : Option CStr).getD []) := by simp [IsValue]
  have hiff := fwEnvWrite_updates_iff openHooks smallImage_holds hname hvalue
  have hfits : Fits 8 [([0x61], [0x31])] [0x61] [0x32] := by
    unfold Fits
    decide
  exact ⟨hiff.1.mpr fun _ _ _ => hfits, hiff.2.mpr ⟨rfl, fun _ => hfits⟩⟩

-- The value is too long, the variable is lost and the image without it is written.
theorem not_updates_tooLong
    : Holds smallImage 8 [([0x61], [0x31])]
      ∧ (∃ m', fwEnvWrite openHooks 8 smallImage [0x61] (some [0x31, 0x32, 0x33, 0x34, 0x35]) = some (.overflow, m')
        ∧ fwGetenv smallImage 8 [0x61] = some (some [0x31])
        ∧ fwGetenv m' 8 [0x61] = some none)
      ∧ ¬UpdatesMap openHooks 8 smallImage [0x61] (some [0x31, 0x32, 0x33, 0x34, 0x35])
      ∧ ¬ClosesAssigned openHooks 8 smallImage [0x61] (some [0x31, 0x32, 0x33, 0x34, 0x35]) := by
  have hwrite : ∃ m', fwEnvWrite openHooks 8 smallImage [0x61] (some [0x31, 0x32, 0x33, 0x34, 0x35])
        = some (.overflow, m')
      ∧ fwGetenv smallImage 8 [0x61] = some (some [0x31])
      ∧ fwGetenv m' 8 [0x61] = some none :=
    ⟨_, rfl, by decide +kernel, by decide +kernel⟩
  refine ⟨smallImage_holds, hwrite, ?_, ?_⟩
  . intro ⟨res, m', hres, _, hsame⟩
    have ⟨m1, hwrite, hold, hnew⟩ := hwrite
    have heq := hwrite.symm.trans hres
    simp only [some.injEq, Prod.mk.injEq] at heq
    rw [heq.2, hsame (by rw [← heq.1]; decide), hold] at hnew
    contradiction
  intro hcloses
  have ⟨m1, hwrite, _⟩ := hwrite
  have hret := hcloses (fun _ _ _ => true) (fun _ => 0) [[0x31, 0x32, 0x33, 0x34, 0x35]] rfl 0 .overflow m1
  unfold fwSetenv at hret
  dsimp only at hret
  rw [if_neg (by decide), show joinValues [[0x31, 0x32, 0x33, 0x34, 0x35]]
    = some [0x31, 0x32, 0x33, 0x34, 0x35] from rfl, hwrite] at hret
  exact absurd (hret rfl) (by decide)

end UBoot.FwEnv
