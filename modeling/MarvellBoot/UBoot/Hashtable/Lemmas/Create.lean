import MarvellBoot.UBoot.Hashtable.Lemmas.Map

namespace UBoot.Hashtable

open OpenAddressing Nat

variable {number fuel nel size div : Nat} {htab : HsearchData}

lemma prime_of_isprimeFrom (hnumber : 5 ≤ number) (hodd : number % 2 = 1)
    (hdiv : div % 2 = 1) (hthree : 3 ≤ div)
    (hbelow : ∀ d, 3 ≤ d → d < div → d % 2 = 1 → number % d ≠ 0) (h : isprimeFrom number div = true)
    : number.Prime := by
  fun_induction isprimeFrom number div with
  | case1 div hloop ih =>
    apply ih (by omega) (by omega) _ h
    intro d hd hlt hodd
    by_cases hsame : d = div
    . rw [hsame]
      exact hloop.2
    . exact hbelow d hd (by omega) hodd
  | case2 div hstop =>
    have hrest : number % div ≠ 0 := by simpa using h
    by_contra hnot
    have hmin := minFac_sq_le_self (by omega) hnot
    have hfac := minFac_prime (n := number) (by omega)
    have hdvd := minFac_dvd number
    generalize number.minFac = d at hmin hfac hdvd
    have htwo := hfac.two_le
    have hoddFac : d % 2 = 1 := by
      by_contra heven
      have h2 : 2 ∣ d := by omega
      have := h2.trans hdvd
      omega
    have hle : d ≤ div := by
      by_contra hgt
      have : div * div < d ^ 2 := by
        rw [pow_two]
        exact mul_self_lt_mul_self (by omega)
      omega
    have hzero := mod_eq_zero_of_dvd hdvd
    by_cases hsame : d = div
    . rw [hsame] at hzero
      contradiction
    . exact hbelow d (by omega) (by omega) hoddFac hzero

lemma prime_of_isprime (hnumber : 5 ≤ number) (hodd : number % 2 = 1) (h : isprime number = true) : number.Prime :=
  prime_of_isprimeFrom hnumber hodd rfl (le_refl 3) (by omega) h

lemma isprimeFrom_of_prime (hp : number.Prime) (hdiv : 3 ≤ div) (hlt : div < number)
    : isprimeFrom number div = true := by
  fun_induction isprimeFrom number div with
  | case1 div hloop ih =>
    have : 3 * div ≤ div * div := mul_le_mul_right div hdiv
    exact ih (by omega) (by omega)
  | case2 div hstop =>
    have hrest : number % div ≠ 0 := by
      intro hzero
      have := (dvd_prime_two_le hp (by omega)).mp (dvd_of_mod_eq_zero hzero)
      omega
    simpa using hrest

lemma firstPrime_odd (hodd : nel % 2 = 1) (h : firstPrime fuel nel = some size)
    : size % 2 = 1 ∧ isprime size = true := by
  induction fuel generalizing nel with
  | zero => contradiction
  | succ fuel ih =>
    rw [firstPrime] at h
    split at h
    . next hprime =>
      cases h
      exact ⟨hodd, hprime⟩
    . exact ih (by omega) h

lemma firstPrime_isSome (hle : nel ≤ number) (hparity : number % 2 = nel % 2)
    (hprime : isprime number = true) (hfuel : number < nel + 2 * fuel) : (firstPrime fuel nel).isSome = true := by
  induction fuel generalizing nel with
  | zero => omega
  | succ fuel ih =>
    rw [firstPrime]
    split
    . rfl
    next hnot =>
    have hne : nel ≠ number := by
      intro heq
      rw [heq] at hnot
      contradiction
    exact ih (by omega) (by omega) (by omega)

lemma firstPrime_ge (h : firstPrime fuel nel = some size) : nel ≤ size := by
  induction fuel generalizing nel with
  | zero => contradiction
  | succ fuel ih =>
    rw [firstPrime] at h
    split at h
    . cases h
      exact le_rfl
    . have := ih h
      omega

lemma or_one (nel : Nat) : nel ||| 1 = 2 * (nel / 2) + 1 := by
  have hodd : (nel ||| 1) % 2 = 1 := or_mod_two_eq_one.mpr (.inr rfl)
  have hhalf : (nel ||| 1) / 2 = nel / 2 := by
    rw [or_div_two]
    exact or_zero _
  omega

lemma hcreateR_isSome (nel : Nat) : (hcreateR nel).isSome = true := by
  have hnel := or_one nel
  have hfirst : (firstPrime (nel + 3) (nel ||| 1)).isSome = true := by
    by_cases hone : nel ||| 1 = 1
    . have hprime : isprime 1 = true := by
        rw [isprime, isprimeFrom]
        rfl
      exact firstPrime_isSome (by omega) (by omega) hprime (by omega)
    . have ⟨p, hp, hlt, hle⟩ := exists_prime_lt_and_le_two_mul (nel ||| 1) (by omega)
      have hodd := hp.eq_two_or_odd.resolve_left (by omega)
      exact firstPrime_isSome (by omega) (by omega) (isprimeFrom_of_prime hp (by omega) (by omega)) (by omega)
  unfold hcreateR
  split
  . next hnone =>
    rw [hnone] at hfirst
    contradiction
  . rfl

lemma hcreateR_eq (h : hcreateR nel = some htab) : nel ≤ htab.size ∧ htab.filled = 0 ∧ ∀ i, cells htab i = .free := by
  have hnel := or_one nel
  unfold hcreateR at h
  split at h
  . contradiction
  next size hfirst =>
  cases h
  have := firstPrime_ge hfirst
  refine ⟨?_, rfl, fun _ => rfl⟩
  dsimp only
  omega

lemma hcreateR_stands {σ : Type} {nel : Nat} {statics : σ}
    (h : hcreateR nel = some htab) (hsize : 5 ≤ htab.size) : Stands ⟨htab, statics⟩ fun _ => none := by
  have hnel := or_one nel
  unfold hcreateR at h
  split at h
  . contradiction
  next size hfirst =>
  cases h
  have ⟨hodd, hprime⟩ := firstPrime_odd (by omega) hfirst
  refine ⟨⟨prime_of_isprime hsize hodd hprime, hsize, ⟨?_, ?_⟩, ?_, ?_⟩, ?_⟩
  . intro i k v hlive
    contradiction
  . intro i j k v w hlive
    contradiction
  . intro i k v hlive
    contradiction
  . have hdead (i : Nat) : (cells ⟨fun _ => emptySlot, size, 0⟩ i).isLive = false := rfl
    simp [liveCount, hdead]
  intro k v
  constructor
  . intro hnone
    contradiction
  . intro ⟨i, hlive⟩
    contradiction

theorem hsearch_refines_map {σ : Type} {hooks : Hooks σ} (hacc : Accepting hooks) {nel : Nat}
    {htab : HsearchData} (hcreate : hcreateR nel = some htab) (hsize : 5 ≤ htab.size) (statics : σ)
    (calls : List Call) (hmeets : Call.AllMeet hooks ⟨htab, statics⟩ calls)
    : ∃ s, Call.execAll hooks ⟨htab, statics⟩ calls = some ((Call.specAll (fun _ => none) calls).1, s)
      ∧ Represents (cells s.htab) (Call.specAll (fun _ => none) calls).2
      ∧ (∀ i j k v w, cells s.htab i = .live k v → cells s.htab j = .live k w → i = j)
      ∧ s.htab.filled = liveCount (Finset.Icc 1 s.htab.size) (cells s.htab) := by
  have hstands : Stands ⟨htab, statics⟩ fun _ => none := hcreateR_stands hcreate hsize
  have ⟨s, hexec, hs⟩ := hstands.execAll hacc hmeets
  refine ⟨s, hexec, hs.represents, ?_, hs.valid.filled_eq⟩
  intro i j k v w
  exact hs.valid.wellFormed.unique

lemma plainHooks_accepting : Accepting plainHooks :=
  ⟨fun statics _ entry => ⟨(entry.flags, statics), rfl⟩, fun _ _ _ _ => rfl,
    fun statics htab _ _ _ _ => ⟨htab, statics, rfl, .refl⟩⟩

def fiveSlots : HsearchData where
  table _ := emptySlot
  size := 5
  filled := 0

lemma hcreateR_five : hcreateR 5 = some fiveSlots := by
  have hprime : isprime 5 = true := by
    rw [isprime, isprimeFrom]
    rfl
  have hfirst : firstPrime (5 + 3) (5 ||| 1) = some 5 := by
    change firstPrime 8 5 = some 5
    rw [firstPrime, if_pos hprime]
  rw [hcreateR, hfirst]
  rfl

-- "a", "f" and "k" have the same first slot: "f" goes to the next one, "k" to the one that "a" has left.
theorem hsearch_refines_map_fiveSlots
    : ∃ s, Call.execAll plainHooks ⟨fiveSlots, ()⟩
        [.enter [97] [1] 0, .enter [102] [2] 0, .delete [97] 0, .enter [107] [3] 0, .enter [102] [4] 0, .find [97],
          .find [102]]
          = some ([.entered true, .entered true, .deleted true, .entered true, .entered true, .found none,
            .found (some [4])], s)
      ∧ s.htab.filled = liveCount (Finset.Icc 1 s.htab.size) (cells s.htab) := by
  have hroom {s : State Unit} {key : CStr} (hsize : s.htab.size = 5) (hfree : cells s.htab 1 = .free)
      : Room s.htab key :=
    .inl ⟨1, le_refl 1, by omega, hfree⟩
  have hmeets : Call.AllMeet plainHooks ⟨fiveSlots, ()⟩
      [.enter [97] [1] 0, .enter [102] [2] 0, .delete [97] 0, .enter [107] [3] 0, .enter [102] [4] 0, .find [97],
        .find [102]] := by
    refine ⟨.inr (hroom rfl rfl), fun _ s1 h1 => ?_⟩
    cases h1
    refine ⟨.inr (hroom rfl rfl), fun _ s2 h2 => ?_⟩
    cases h2
    refine ⟨trivial, fun _ s3 h3 => ?_⟩
    cases h3
    refine ⟨.inr (hroom rfl rfl), fun _ s4 h4 => ?_⟩
    cases h4
    refine ⟨.inr (hroom rfl rfl), fun _ s5 h5 => ?_⟩
    exact ⟨trivial, fun _ _ _ => ⟨trivial, fun _ _ _ => trivial⟩⟩
  have ⟨s, hexec, _, _, hfilled⟩ := hsearch_refines_map plainHooks_accepting hcreateR_five (le_refl 5) () _ hmeets
  exact ⟨s, hexec, hfilled⟩

def lostCalls : List Call :=
  [.enter [100] [1] 0, .enter [101] [2] 0, .enter [97] [3] 0, .enter [98] [4] 0, .enter [105] [5] 0,
    .delete [105] 0, .enter [106] [6] 0, .find [101]]

theorem not_refines_map_lost
    : ¬∀ (hooks : Hooks Unit), Accepting hooks → ∀ (nel : Nat) (htab : HsearchData),
      hcreateR nel = some htab → 5 ≤ htab.size → ∀ calls : List Call,
      (∀ pre ∈ calls.inits, (Call.liveKeys [] pre).length ≤ htab.size) →
      ∃ s, Call.execAll hooks ⟨htab, ()⟩ calls = some ((Call.specAll (fun _ => none) calls).1, s) := by
  intro h
  have ⟨s, hexec⟩ := h plainHooks plainHooks_accepting 5 fiveSlots hcreateR_five (le_refl 5) lostCalls (by decide)
  have heval : (Call.execAll plainHooks ⟨fiveSlots, ()⟩ lostCalls).map Prod.fst
      ≠ some (Call.specAll (fun _ => none) lostCalls).1 := by
    decide +kernel
  rw [hexec] at heval
  exact heval rfl

end UBoot.Hashtable
