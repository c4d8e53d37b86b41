import MarvellBoot.Atf.Psci.PwrDomains

namespace Atf.Psci
namespace PwrDomains

open State Nat List

variable {c l lvl x bootIdx : Nat} {stateInfo : Nat → Nat} {isPowerDownState isr validEntryPoint : Bool}

variable {p : Platform} {s s' : State} {cpuIdx endPwrlvl : Nat}

lemma eq_of_ancestor_eq (hc : c < p.coreCount) (hl : 1 ≤ l) (hle : l ≤ p.maxPwrLvl)
    (hcpu : cpuIdx < p.coreCount) (hlvl : 1 ≤ lvl) (hmax : lvl ≤ p.maxPwrLvl) (h : p.ancestor c l = p.ancestor cpuIdx lvl)
    : l = lvl := by
  rw [← p.level_ancestor hc hl hle, h]
  exact p.level_ancestor hcpu hlvl hmax

structure Updated (p : Platform) (s s' : State) (cpuIdx endPwrlvl : Nat) (requests states : Nat → Nat) : Prop where
  localState : ∀ c < p.coreCount, ∀ l, 1 ≤ l → l ≤ p.maxPwrLvl →
    s'.localState (p.ancestor c l)
      = if l ≤ endPwrlvl ∧ p.ancestor c l = p.ancestor cpuIdx l then states l else s.localState (p.ancestor c l)
  request : ∀ l c,
    s'.reqLocalPwrStates l c = if c = cpuIdx ∧ 1 ≤ l ∧ l ≤ endPwrlvl then requests l else s.reqLocalPwrStates l c
  affInfoState : ∀ c, c ≠ cpuIdx → s'.affInfoState c = s.affInfoState c
  targetPwrlvl : s'.targetPwrlvl = s.targetPwrlvl
  phase : s'.phase = s.phase

lemma psciSetTargetLocalPwrStates.loop_frame (pdState : Nat → Nat) (n lvl parentIdx : Nat)
    : ∃ localState, loop p pdState n lvl parentIdx s = { s with localState := localState } := by
  induction n generalizing lvl parentIdx s with
  | zero => exact ⟨s.localState, rfl⟩
  | succ n ih => exact ih (lvl + 1) (p.parent parentIdx)

lemma psciSetTargetLocalPwrStates.localState_loop {pdState : Nat → Nat} {n : Nat} (hcpu : cpuIdx < p.coreCount)
    (hlvl : 1 ≤ lvl)
    (hn : lvl + n ≤ p.maxPwrLvl + 1) (hc : c < p.coreCount) (hl : 1 ≤ l) (hmax : l ≤ p.maxPwrLvl)
    : (loop p pdState n lvl (p.ancestor cpuIdx lvl) s).localState (p.ancestor c l)
      = if lvl ≤ l ∧ l < lvl + n ∧ p.ancestor c l = p.ancestor cpuIdx l then
        pdState l
      else
        s.localState (p.ancestor c l) := by
  induction n generalizing lvl s with
  | zero =>
    rw [if_neg (by omega)]
    rfl
  | succ n ih =>
    unfold loop
    rw [← Tree.ancestor_succ hlvl, ih (by omega) (by omega)]
    unfold setLocalState
    dsimp only
    by_cases hsame : p.ancestor c l = p.ancestor cpuIdx lvl
    . have heq := eq_of_ancestor_eq hc hl hmax hcpu hlvl (by omega) hsame
      rw [if_neg (by omega), hsame, Function.update_self, heq, if_pos ⟨by omega, by omega, rfl⟩]
    rw [Function.update_of_ne hsame]
    by_cases heq : l = lvl
    . rw [if_neg (by omega), if_neg]
      rintro ⟨_, _, h⟩
      rw [heq] at h hsame
      exact hsame h
    congr 1
    simp only [eq_iff_iff]
    constructor
    . rintro ⟨h1, h2, h3⟩
      exact ⟨by omega, by omega, h3⟩
    . rintro ⟨h1, h2, h3⟩
      exact ⟨by omega, by omega, h3⟩

lemma psciSetReqLocalPwrState_request (s : State) (lvl cpuIdx state l c : Nat)
    : (s.psciSetReqLocalPwrState lvl cpuIdx state).reqLocalPwrStates l c
      = if c = cpuIdx ∧ l = lvl then state else s.reqLocalPwrStates l c := by
  unfold psciSetReqLocalPwrState
  dsimp only
  by_cases hl : l = lvl
  . rw [hl, Function.update_self, Function.update_apply]
    simp only [and_true]
  . rw [Function.update_of_ne hl, if_neg (by omega)]

-- a loop that makes the request of one level and then those of the levels above it
lemma psciSetReqLocalPwrState_levels {requests' : Nat → Nat} (requests : Nat → Nat) (s : State) (n l c : Nat)
    (h : ∀ k, k ≠ lvl → requests' k = requests k)
    : (if c = cpuIdx ∧ lvl + 1 ≤ l ∧ l < lvl + 1 + n then
        requests' l
      else
        (s.psciSetReqLocalPwrState lvl cpuIdx (requests lvl)).reqLocalPwrStates l c)
      = if c = cpuIdx ∧ lvl ≤ l ∧ l < lvl + (n + 1) then requests l else s.reqLocalPwrStates l c := by
  rw [psciSetReqLocalPwrState_request]
  by_cases hin : c = cpuIdx ∧ lvl ≤ l ∧ l < lvl + (n + 1)
  . rw [if_pos hin]
    by_cases heq : l = lvl
    . rw [if_neg (by omega), if_pos ⟨hin.1, heq⟩, heq]
    . rw [if_pos (by omega), h l heq]
  . rw [if_neg hin, if_neg (by omega), if_neg (by omega)]

namespace psciSetPwrDomainsToRun

lemma loop_frame (n lvl parentIdx : Nat)
    : ∃ localState reqs,
      loop p cpuIdx n lvl parentIdx s = { s with localState := localState, reqLocalPwrStates := reqs } := by
  induction n generalizing lvl parentIdx s with
  | zero => exact ⟨s.localState, s.reqLocalPwrStates, rfl⟩
  | succ n ih => exact ih (lvl + 1) (p.parent parentIdx)

lemma localState_loop {s2 : State} (n lvl parentIdx : Nat) (h : s.localState = s2.localState)
    : (loop p cpuIdx n lvl parentIdx s).localState
      = (psciSetTargetLocalPwrStates.loop p (fun _ => psciLocalStateRun) n lvl parentIdx s2).localState := by
  induction n generalizing lvl parentIdx s s2 with
  | zero => exact h
  | succ n ih =>
    apply ih
    unfold psciSetReqLocalPwrState setLocalState
    rw [h]

lemma request_loop (n lvl parentIdx l c : Nat)
    : (loop p cpuIdx n lvl parentIdx s).reqLocalPwrStates l c
      = if c = cpuIdx ∧ lvl ≤ l ∧ l < lvl + n then psciLocalStateRun else s.reqLocalPwrStates l c := by
  induction n generalizing lvl parentIdx s with
  | zero =>
    rw [if_neg (by omega)]
    rfl
  | succ n ih =>
    unfold loop
    rw [ih]
    exact psciSetReqLocalPwrState_levels (fun _ => psciLocalStateRun) _ n l c fun _ _ => rfl

end psciSetPwrDomainsToRun

lemma psciSetPwrDomainsToRun_updated (hcpu : cpuIdx < p.coreCount) (hend : endPwrlvl ≤ p.maxPwrLvl)
    : Updated p s (psciSetPwrDomainsToRun p s cpuIdx endPwrlvl) cpuIdx endPwrlvl (fun _ => psciLocalStateRun)
        (fun _ => psciLocalStateRun) := by
  obtain ⟨localState, reqs, hframe⟩ := psciSetPwrDomainsToRun.loop_frame endPwrlvl 1 (p.cpuParent cpuIdx)
  unfold psciSetPwrDomainsToRun psciSetAffInfoState psciSetCpuLocalState
  constructor
  . intro c hc l hl hmax
    rw [psciSetPwrDomainsToRun.localState_loop endPwrlvl 1 (p.cpuParent cpuIdx) rfl, ← Tree.ancestor_one,
      psciSetTargetLocalPwrStates.localState_loop hcpu (by omega) (by omega) hc hl hmax]
    congr 1
    simp only [eq_iff_iff]
    constructor
    . rintro ⟨_, h, hsame⟩
      exact ⟨by omega, hsame⟩
    . rintro ⟨h, hsame⟩
      exact ⟨by omega, by omega, hsame⟩
  . intro l c
    rw [psciSetPwrDomainsToRun.request_loop]
    congr 1
    simp only [eq_iff_iff]
    omega
  . intro c hne
    dsimp only
    rw [Function.update_of_ne hne, hframe]
  . dsimp only
    rw [hframe]
  . dsimp only
    rw [hframe]

lemma affInfoState_psciSetPwrDomainsToRun
    : (psciSetPwrDomainsToRun p s cpuIdx endPwrlvl).affInfoState cpuIdx = .on := by
  unfold psciSetPwrDomainsToRun psciSetAffInfoState psciSetCpuLocalState
  dsimp only
  rw [Function.update_self]

def Allowed (p : Platform) (s : State) (cpuIdx l x : Nat) : Prop :=
  x ≤ p.platMaxOffState ∧ ∀ c < p.coreCount, p.ancestor c l = p.ancestor cpuIdx l → x ≤ s.reqLocalPwrStates l c

/-- The greatest state that the requests allow, or RUN like all levels above it. -/
def Target (p : Platform) (s : State) (cpuIdx last : Nat) (states : Nat → Nat) (l : Nat) : Prop :=
  Allowed p s cpuIdx l (states l)
  ∧ ((∀ x, Allowed p s cpuIdx l x → x ≤ states l) ∨ ∀ k, l ≤ k → k < last → states k = psciLocalStateRun)

lemma le_platGetTargetPwrState_iff {off : Nat} {states : List Nat}
    : x ≤ platGetTargetPwrState off states ↔ x ≤ off ∧ ∀ state ∈ states, x ≤ state := by
  unfold platGetTargetPwrState
  induction states generalizing off with
  | nil => simp
  | cons state states ih =>
    rw [foldl_cons, ih, forall_mem_cons, ← and_assoc]
    apply and_congr_left
    intro _
    split
    . omega
    . omega

lemma le_targetState_iff (hcpu : cpuIdx < p.coreCount) (hlvl : 1 ≤ lvl) (hmax : lvl ≤ p.maxPwrLvl)
    : x ≤ platGetTargetPwrState p.platMaxOffState
          (psciGetReqLocalPwrStates s lvl
            ((psciUpdatePwrlvlLimits p.toTopology).cpuStartIdx (p.ancestor cpuIdx lvl))
            ((psciUpdatePwrlvlLimits p.toTopology).ncpus (p.ancestor cpuIdx lvl)))
      ↔ Allowed p s cpuIdx lvl x := by
  have hmem := mem_limits_iff hcpu hlvl hmax
  dsimp only at hmem
  rw [le_platGetTargetPwrState_iff, Allowed]
  apply and_congr_right
  intro _
  unfold psciGetReqLocalPwrStates
  rw [forall_mem_map]
  generalize (psciUpdatePwrlvlLimits p.toTopology).cpuStartIdx (p.ancestor cpuIdx lvl) = start at *
  constructor
  . intro h c hc hsame
    have hin := (hmem c).mpr ⟨hc, hsame⟩
    have := h (c - start) (mem_range.mpr (by omega))
    rwa [Nat.add_sub_cancel' hin.1] at this
  intro h i hi
  have hi := mem_range.mp hi
  have hin := (hmem (start + i)).mp ⟨by omega, by omega⟩
  exact h _ hin.1 hin.2

namespace psciDoStateCoordination

lemma requests_frame (n lvl : Nat) (stateInfo : Nat → Nat)
    : ∃ reqs, (requests cpuIdx n lvl s stateInfo).1 = { s with reqLocalPwrStates := reqs } := by
  induction n generalizing lvl s stateInfo with
  | zero => exact ⟨s.reqLocalPwrStates, rfl⟩
  | succ n ih => exact ih (lvl + 1) _

lemma request_requests (n lvl : Nat) (stateInfo : Nat → Nat) (l c : Nat)
    : (requests cpuIdx n lvl s stateInfo).1.reqLocalPwrStates l c
      = if c = cpuIdx ∧ lvl ≤ l ∧ l < lvl + n then stateInfo l else s.reqLocalPwrStates l c := by
  induction n generalizing lvl s stateInfo with
  | zero =>
    rw [if_neg (by omega)]
    rfl
  | succ n ih =>
    unfold requests
    rw [ih]
    exact psciSetReqLocalPwrState_levels stateInfo s n l c fun _ hk => Function.update_of_ne hk _ _

lemma stateInfo_requests (n lvl : Nat) (stateInfo : Nat → Nat) (l : Nat)
    : (requests cpuIdx n lvl s stateInfo).2 l = if lvl ≤ l ∧ l < lvl + n then psciLocalStateRun else stateInfo l := by
  induction n generalizing lvl s stateInfo with
  | zero =>
    rw [if_neg (by omega)]
    rfl
  | succ n ih =>
    unfold requests
    rw [ih]
    by_cases heq : l = lvl
    . rw [if_neg (by omega), heq, Function.update_self, if_pos (by omega)]
    rw [Function.update_of_ne heq]
    congr 1
    simp only [eq_iff_iff]
    omega

lemma targets_frame (n lvl parentIdx : Nat) (stateInfo : Nat → Nat)
    : ∃ reqs, (targets p cpuIdx n lvl parentIdx s stateInfo).1 = { s with reqLocalPwrStates := reqs } := by
  induction n generalizing lvl parentIdx s stateInfo with
  | zero => exact ⟨s.reqLocalPwrStates, rfl⟩
  | succ n ih =>
    unfold targets
    dsimp only
    split
    . exact requests_frame n (lvl + 1) _
    . exact ih (lvl + 1) _ _

lemma request_targets (n lvl parentIdx : Nat) (stateInfo : Nat → Nat) (l c : Nat)
    : (targets p cpuIdx n lvl parentIdx s stateInfo).1.reqLocalPwrStates l c
      = if c = cpuIdx ∧ lvl ≤ l ∧ l < lvl + n then stateInfo l else s.reqLocalPwrStates l c := by
  induction n generalizing lvl parentIdx s stateInfo with
  | zero =>
    rw [if_neg (by omega)]
    rfl
  | succ n ih =>
    unfold targets
    dsimp only
    split
    . rw [request_requests]
      exact psciSetReqLocalPwrState_levels stateInfo s n l c fun _ hk => Function.update_of_ne hk _ _
    . rw [ih]
      exact psciSetReqLocalPwrState_levels stateInfo s n l c fun _ hk => Function.update_of_ne hk _ _

lemma stateInfo_targets {n lvl l : Nat} {stateInfo : Nat → Nat} (hcpu : cpuIdx < p.coreCount) (hlvl : 1 ≤ lvl)
    (hn : lvl + n ≤ p.maxPwrLvl + 1)
    : let (s', states) := targets p cpuIdx n lvl (p.ancestor cpuIdx lvl) s stateInfo
      (l < lvl ∨ lvl + n ≤ l → states l = stateInfo l)
      ∧ (lvl ≤ l → l < lvl + n → Target p s' cpuIdx (lvl + n) states l) := by
  induction n generalizing lvl s stateInfo with
  | zero => exact ⟨fun _ => rfl, fun _ _ => absurd ‹_› (by omega)⟩
  | succ n ih =>
    unfold targets
    dsimp only
    generalize s.psciSetReqLocalPwrState lvl cpuIdx (stateInfo lvl) = s1
    split
    . next hrun =>
      rw [hrun]
      have hstates := @stateInfo_requests s1 cpuIdx n (lvl + 1) (Function.update stateInfo lvl psciLocalStateRun)
      constructor
      . intro h
        rw [hstates, if_neg (by omega), Function.update_of_ne (by omega)]
      intro h hlt
      have hrun (k : Nat) (hk : lvl ≤ k) (hlt : k < lvl + (n + 1))
          : (requests cpuIdx n (lvl + 1) s1 (Function.update stateInfo lvl psciLocalStateRun)).2 k
            = psciLocalStateRun := by
        rw [hstates]
        by_cases heq : k = lvl
        . rw [if_neg (by omega), heq, Function.update_self]
        . rw [if_pos (by omega)]
      refine ⟨?_, Or.inr fun k hk hlt => hrun k (by omega) hlt⟩
      rw [hrun l h hlt]
      exact ⟨Nat.zero_le _, fun _ _ _ => Nat.zero_le _⟩
    have htarget (x : Nat) := le_targetState_iff (x := x) (s := s1) hcpu hlvl (by omega)
    revert htarget
    generalize platGetTargetPwrState p.platMaxOffState _ = target
    intro htarget
    rw [← Tree.ancestor_succ hlvl]
    have ih := @ih s1 (lvl + 1) (Function.update stateInfo lvl target) (by omega) (by omega)
    constructor
    . intro h
      rw [ih.1 (by omega), Function.update_of_ne (by omega)]
    intro h hlt
    by_cases heq : l = lvl
    . unfold Target Allowed
      rw [ih.1 (by omega), heq, Function.update_self]
      simp only [request_targets, show ¬ (lvl + 1 ≤ lvl) by omega, false_and, and_false, if_false]
      exact ⟨(htarget target).mp (Nat.le_refl _), Or.inl fun x => (htarget x).mpr⟩
    . simpa only [show lvl + 1 + n = lvl + (n + 1) by omega] using ih.2 (by omega) (by omega)

end psciDoStateCoordination

lemma psciDoStateCoordination_updated (stateInfo : Nat → Nat) (hcpu : cpuIdx < p.coreCount)
    (hend : endPwrlvl ≤ p.maxPwrLvl)
    : let s' := psciDoStateCoordination p s cpuIdx endPwrlvl stateInfo
      let states := psciDoStateCoordination.stateInfo p s cpuIdx endPwrlvl stateInfo
      s'.affInfoState = s.affInfoState ∧ Updated p s s' cpuIdx endPwrlvl stateInfo states
      ∧ (∀ l, l < 1 ∨ 1 + endPwrlvl ≤ l → states l = stateInfo l)
      ∧ ∀ l, 1 ≤ l → l ≤ endPwrlvl → Target p s' cpuIdx (1 + endPwrlvl) states l := by
  have hstates (l : Nat) :=
    @psciDoStateCoordination.stateInfo_targets p s _ endPwrlvl 1 l stateInfo hcpu (by omega) (by omega)
  have hrequest := @psciDoStateCoordination.request_targets p s cpuIdx endPwrlvl 1 (p.cpuParent cpuIdx) stateInfo
  obtain ⟨reqs, hframe⟩ := @psciDoStateCoordination.targets_frame p s cpuIdx endPwrlvl 1 (p.cpuParent cpuIdx) stateInfo
  unfold psciDoStateCoordination psciDoStateCoordination.stateInfo
  rw [Tree.ancestor_one] at hstates
  revert hstates hrequest hframe
  generalize psciDoStateCoordination.targets p cpuIdx endPwrlvl 1 (p.cpuParent cpuIdx) s stateInfo = result
  obtain ⟨s1, states⟩ := result
  dsimp only
  intro hstates hrequest hframe
  unfold psciSetTargetLocalPwrStates
  obtain ⟨localState, hloop⟩ := psciSetTargetLocalPwrStates.loop_frame states endPwrlvl 1 (p.cpuParent cpuIdx)
  have hreqs : (psciSetTargetLocalPwrStates.loop p states endPwrlvl 1 (p.cpuParent cpuIdx)
      (s1.psciSetCpuLocalState cpuIdx (states 0))).reqLocalPwrStates = s1.reqLocalPwrStates := by
    rw [hloop]
    rfl
  have haff : (psciSetTargetLocalPwrStates.loop p states endPwrlvl 1 (p.cpuParent cpuIdx)
      (s1.psciSetCpuLocalState cpuIdx (states 0))).affInfoState = s.affInfoState := by
    rw [hloop, hframe]
    rfl
  refine ⟨haff, ⟨?_, ?_, ?_, ?_, ?_⟩, fun l => (hstates l).1, ?_⟩
  . intro c hc l hl hmax
    rw [← Tree.ancestor_one, psciSetTargetLocalPwrStates.localState_loop hcpu (by omega) (by omega) hc hl hmax, hframe]
    congr 1
    simp only [eq_iff_iff]
    constructor
    . rintro ⟨_, h, hsame⟩
      exact ⟨by omega, hsame⟩
    . rintro ⟨h, hsame⟩
      exact ⟨by omega, by omega, hsame⟩
  . intro l c
    rw [hreqs, hrequest]
    congr 1
    simp only [eq_iff_iff]
    omega
  . intro c _
    rw [haff]
  . rw [hloop, hframe]
    rfl
  . rw [hloop, hframe]
    rfl
  . intro l hl hle
    simp only [Target, Allowed, hreqs]
    exact (hstates l).2 hl (by omega)

def Phase.Awake (phase : Phase) : Prop := phase = .running ∨ phase = .cpuStandby

instance (phase : Phase) : Decidable phase.Awake := inferInstanceAs (Decidable (_ ∨ _))

def Phase.depth (p : Platform) (targetPwrlvl : Nat) : Phase → Nat
  | .running => 0
  | .cpuStandby => 0
  | .standby endPwrlvl => endPwrlvl
  | .suspended => targetPwrlvl
  | .offStart => p.maxPwrLvl
  | .off => p.maxPwrLvl
  | .panic => p.maxPwrLvl

def State.depth (p : Platform) (s : State) (cpuIdx : Nat) : Nat := (s.phase cpuIdx).depth p (s.targetPwrlvl cpuIdx)

structure CpuInv (p : Platform) (s : State) (cpuIdx : Nat) : Prop where
  depth_le : s.depth p cpuIdx ≤ p.maxPwrLvl
  request : ∀ l, s.depth p cpuIdx < l → l ≤ p.maxPwrLvl → s.reqLocalPwrStates l cpuIdx = psciLocalStateRun
  invalid : s.phase cpuIdx ≠ .suspended → s.targetPwrlvl cpuIdx = psciInvalidPwrLvl p
  on : (s.phase cpuIdx).Awake ∨ s.phase cpuIdx = .suspended → s.affInfoState cpuIdx = .on

structure Inv (p : Platform) (s : State) : Prop where
  le_off : ∀ c < p.coreCount, ∀ l, 1 ≤ l → l ≤ p.maxPwrLvl → s.localState (p.ancestor c l) ≤ p.platMaxOffState
  le_request : ∀ c < p.coreCount, ∀ l, 1 ≤ l → l ≤ p.maxPwrLvl → s.localState (p.ancestor c l) ≤ s.reqLocalPwrStates l c
  cpus : ∀ c < p.coreCount, CpuInv p s c

lemma CpuInv.congr (h : CpuInv p s c) (hphase : s'.phase c = s.phase c)
    (htarget : s'.targetPwrlvl c = s.targetPwrlvl c) (haff : s'.affInfoState c = s.affInfoState c)
    (hreq : ∀ l, 1 ≤ l → l ≤ p.maxPwrLvl → s'.reqLocalPwrStates l c = s.reqLocalPwrStates l c)
    : CpuInv p s' c := by
  have hdepth : s'.depth p c = s.depth p c := by
    unfold depth
    rw [hphase, htarget]
  constructor
  . rw [hdepth]
    exact h.depth_le
  . intro l hl hmax
    rw [hdepth] at hl
    rw [hreq l (by omega) hmax]
    exact h.request l hl hmax
  . rw [hphase, htarget]
    exact h.invalid
  . rw [hphase, haff]
    exact h.on

lemma Inv.of_cpu (h : Inv p s) (hlocal : s'.localState = s.localState)
    (hreq : s'.reqLocalPwrStates = s.reqLocalPwrStates)
    (hframe : ∀ c, c ≠ cpuIdx → s'.phase c = s.phase c ∧ s'.targetPwrlvl c = s.targetPwrlvl c
      ∧ s'.affInfoState c = s.affInfoState c)
    (hcpu : cpuIdx < p.coreCount → CpuInv p s' cpuIdx)
    : Inv p s' := by
  constructor
  . rw [hlocal]
    exact h.le_off
  . rw [hlocal, hreq]
    exact h.le_request
  intro c hc
  by_cases hne : c = cpuIdx
  . subst hne
    exact hcpu hc
  . obtain ⟨hphase, htarget, haff⟩ := hframe c hne
    exact (h.cpus c hc).congr hphase htarget haff fun l _ _ => by rw [hreq]

structure Follows (s s' : State) (cpuIdx : Nat) : Prop where
  localState : s'.localState = s.localState
  request : s'.reqLocalPwrStates = s.reqLocalPwrStates
  affInfoState : s'.affInfoState = s.affInfoState
  others : ∀ c, c ≠ cpuIdx → s'.phase c = s.phase c ∧ s'.targetPwrlvl c = s.targetPwrlvl c

lemma Inv.of_updated {s1 : State} {requests states : Nat → Nat} (h : Inv p s) (hcpuIdx : cpuIdx < p.coreCount)
    (hupd : Updated p s s1 cpuIdx endPwrlvl requests states)
    (hle : ∀ l, 1 ≤ l → l ≤ endPwrlvl → Allowed p s1 cpuIdx l (states l))
    (hs : Follows s1 s' cpuIdx) (hcpu : CpuInv p s' cpuIdx) : Inv p s' := by
  constructor
  . intro c hc l hl hmax
    rw [hs.localState, hupd.localState c hc l hl hmax]
    split
    . next hin => exact (hle l hl hin.1).1
    . exact h.le_off c hc l hl hmax
  . intro c hc l hl hmax
    rw [hs.localState, hs.request, hupd.localState c hc l hl hmax]
    split
    . next hin => exact (hle l hl hin.1).2 c hc hin.2
    next hout =>
    rw [hupd.request, if_neg]
    . exact h.le_request c hc l hl hmax
    . rintro ⟨heq, _, hlend⟩
      exact hout ⟨hlend, by rw [heq]⟩
  intro c hc
  by_cases hne : c = cpuIdx
  . subst hne
    exact hcpu
  obtain ⟨hphase, htarget⟩ := hs.others c hne
  apply (h.cpus c hc).congr
  . rw [hphase, hupd.phase]
  . rw [htarget, hupd.targetPwrlvl]
  . rw [hs.affInfoState, hupd.affInfoState c hne]
  . intro l _ _
    rw [hs.request, hupd.request, if_neg (fun hin => hne hin.1)]

lemma Inv.of_coordination (h : Inv p s) (hcpu : cpuIdx < p.coreCount)
    (hrun : s.phase cpuIdx = .running) (hend : endPwrlvl ≤ p.maxPwrLvl)
    (hs : Follows (psciDoStateCoordination p s cpuIdx endPwrlvl stateInfo) s' cpuIdx)
    (hdepth : s'.depth p cpuIdx = endPwrlvl)
    (hinvalid : s'.phase cpuIdx ≠ .suspended →
      s'.targetPwrlvl cpuIdx = (psciDoStateCoordination p s cpuIdx endPwrlvl stateInfo).targetPwrlvl cpuIdx)
    : Inv p s' := by
  obtain ⟨haff1, hupd, _, hle⟩ := psciDoStateCoordination_updated stateInfo hcpu hend
  have hcpuInv := h.cpus cpuIdx hcpu
  refine h.of_updated hcpu hupd (fun l hl hlend => (hle l hl hlend).1) hs ?_
  constructor
  . rw [hdepth]
    exact hend
  . intro l hl hmax
    rw [hs.request, hupd.request, if_neg (by omega)]
    apply hcpuInv.request l _ hmax
    unfold depth
    rw [hrun]
    exact Nat.lt_of_le_of_lt (Nat.zero_le _) hl
  . intro hphase
    rw [hinvalid hphase, hupd.targetPwrlvl]
    apply hcpuInv.invalid
    rw [hrun]
    intro
    contradiction
  . intro _
    rw [hs.affInfoState, haff1]
    exact hcpuInv.on (.inl (.inl hrun))

lemma Inv.of_setPwrDomainsToRun (h : Inv p s) (hcpu : cpuIdx < p.coreCount) (hend : endPwrlvl ≤ p.maxPwrLvl)
    (hdepth : s.depth p cpuIdx ≤ endPwrlvl)
    (hs : Follows (psciSetPwrDomainsToRun p s cpuIdx endPwrlvl) s' cpuIdx)
    (hrun : s'.phase cpuIdx = .running) (hinvalid : s'.targetPwrlvl cpuIdx = psciInvalidPwrLvl p)
    : Inv p s' := by
  have hupd := @psciSetPwrDomainsToRun_updated p s _ _ hcpu hend
  have hcpuInv := h.cpus cpuIdx hcpu
  refine h.of_updated hcpu hupd ?_ hs ?_
  . intro l _ _
    exact ⟨zero_le _, fun _ _ _ => zero_le _⟩
  constructor
  . unfold depth
    rw [hrun]
    exact zero_le _
  . intro l hl hmax
    rw [hs.request, hupd.request]
    split
    . rfl
    . exact hcpuInv.request l (by omega) hmax
  . intro _
    exact hinvalid
  . intro _
    rw [hs.affInfoState, affInfoState_psciSetPwrDomainsToRun]

lemma psciSetPwrDomainsToRun_psciSetSuspendPwrlvl (targetLvl : Nat)
    : psciSetPwrDomainsToRun p (s.psciSetSuspendPwrlvl cpuIdx targetLvl) cpuIdx endPwrlvl
      = (psciSetPwrDomainsToRun p s cpuIdx endPwrlvl).psciSetSuspendPwrlvl cpuIdx targetLvl := by
  have hloop (n lvl parentIdx : Nat) (s : State)
      : psciSetPwrDomainsToRun.loop p cpuIdx n lvl parentIdx (s.psciSetSuspendPwrlvl cpuIdx targetLvl)
        = (psciSetPwrDomainsToRun.loop p cpuIdx n lvl parentIdx s).psciSetSuspendPwrlvl cpuIdx targetLvl := by
    induction n generalizing lvl parentIdx s with
    | zero => rfl
    | succ n ih =>
      exact ih (lvl + 1) (p.parent parentIdx)
        ((s.setLocalState parentIdx psciLocalStateRun).psciSetReqLocalPwrState lvl cpuIdx psciLocalStateRun)
  unfold psciSetPwrDomainsToRun
  rw [hloop]
  rfl

lemma psciFindTargetSuspendLvl_le (h : psciFindTargetSuspendLvl p stateInfo ≠ psciInvalidPwrLvl p)
    : psciFindTargetSuspendLvl p stateInfo ≤ p.maxPwrLvl := by
  have hloop (invalid i : Nat) (hne : psciFindTargetSuspendLvl.loop stateInfo invalid i ≠ invalid)
      : psciFindTargetSuspendLvl.loop stateInfo invalid i ≤ i := by
    induction i with
    | zero =>
      unfold psciFindTargetSuspendLvl.loop at hne ⊢
      split
      . exact Nat.le_refl _
      . next h =>
        rw [if_neg h] at hne
        contradiction
    | succ i ih =>
      unfold psciFindTargetSuspendLvl.loop at hne ⊢
      split
      . exact Nat.le_refl _
      . next h =>
        rw [if_neg h] at hne
        exact le_succ_of_le (ih hne)
  exact hloop _ _ h

lemma phase_setPhase (s : State) (phase : Phase) : (s.setPhase cpuIdx phase).phase cpuIdx = phase := by
  unfold setPhase
  dsimp only
  rw [Function.update_self]

lemma phase_setPhase_of_ne (s : State) (phase : Phase) (hne : c ≠ cpuIdx)
    : (s.setPhase cpuIdx phase).phase c = s.phase c := by
  unfold setPhase
  dsimp only
  rw [Function.update_of_ne hne]

lemma psciDoCpuOff_inv {denied : Bool} (h : Inv p s) (hcpu : cpuIdx < p.coreCount) (hrun : s.phase cpuIdx = .running)
    : Inv p (psciDoCpuOff p s cpuIdx p.maxPwrLvl denied) := by
  unfold psciDoCpuOff
  split
  . exact h
  refine h.of_coordination hcpu hrun (Nat.le_refl _) ⟨rfl, rfl, rfl, ?_⟩ ?_ ?_
  . intro c hne
    exact ⟨phase_setPhase_of_ne _ _ hne, rfl⟩
  . unfold depth
    rw [phase_setPhase]
    rfl
  . intro _
    rfl

lemma psciCpuSuspendStart_inv (h : Inv p s)
    (hcpu : cpuIdx < p.coreCount) (hrun : s.phase cpuIdx = .running) (hend : endPwrlvl ≤ p.maxPwrLvl)
    : Inv p (psciCpuSuspendStart p s cpuIdx endPwrlvl stateInfo isPowerDownState isr) := by
  unfold psciCpuSuspendStart
  split
  . exact h
  split
  . refine h.of_coordination hcpu hrun hend ⟨rfl, rfl, rfl, ?_⟩ ?_ ?_
    . intro c hne
      exact ⟨phase_setPhase_of_ne _ _ hne, Function.update_of_ne hne _ _⟩
    . unfold depth
      rw [phase_setPhase]
      exact Function.update_self _ _ _
    . rw [phase_setPhase]
      intro
      contradiction
  refine h.of_coordination hcpu hrun hend ⟨rfl, rfl, rfl, ?_⟩ ?_ ?_
  . intro c hne
    exact ⟨phase_setPhase_of_ne _ _ hne, rfl⟩
  . unfold depth
    rw [phase_setPhase]
    rfl
  . intro _
    rfl

lemma Inv.of_phase {phase : Phase} {cpuLocalState : Nat → Nat} (h : Inv p s) (hold : s.phase cpuIdx ≠ .suspended)
    (hdepth : s.depth p cpuIdx ≤ phase.depth p (s.targetPwrlvl cpuIdx)
      ∧ phase.depth p (s.targetPwrlvl cpuIdx) ≤ p.maxPwrLvl)
    (hon : phase.Awake ∨ phase = .suspended → s.affInfoState cpuIdx = .on)
    : Inv p { s.setPhase cpuIdx phase with cpuLocalState := cpuLocalState } := by
  have hself := @phase_setPhase cpuIdx s phase
  refine @Inv.of_cpu p s _ cpuIdx h rfl rfl ?_ ?_
  . intro c hne
    exact ⟨phase_setPhase_of_ne _ _ hne, rfl, rfl⟩
  intro hcpu
  have hcpuInv := h.cpus cpuIdx hcpu
  constructor
  . unfold depth
    dsimp only
    rw [hself]
    exact hdepth.2
  . intro l hl hmax
    unfold depth at hl
    dsimp only at hl
    rw [hself] at hl
    exact hcpuInv.request l (Nat.lt_of_le_of_lt hdepth.1 hl) hmax
  . intro _
    exact hcpuInv.invalid hold
  . dsimp only
    rw [hself]
    exact hon

lemma psciCpuSuspend_inv (h : Inv p s) (hcpu : cpuIdx < p.coreCount) (hrun : s.phase cpuIdx = .running)
    : Inv p (psciCpuSuspend p s cpuIdx stateInfo isPowerDownState validEntryPoint isr) := by
  have hold : s.phase cpuIdx ≠ .suspended := by
    rw [hrun]
    intro
    contradiction
  have hdepth : s.depth p cpuIdx = 0 := by
    unfold depth
    rw [hrun]
    rfl
  unfold psciCpuSuspend
  dsimp only
  split
  . refine h.of_phase hold ?_ ?_
    . rw [hdepth]
      exact ⟨Nat.zero_le _, Nat.le_refl _⟩
    . rintro ((_ | _) | _) <;> contradiction
  next hvalid =>
  split
  . split
    . refine h.of_phase hold ?_ ?_
      . rw [hdepth]
        exact ⟨zero_le _, zero_le _⟩
      . intro _
        exact (h.cpus cpuIdx hcpu).on (.inl (.inl hrun))
    . exact h
  . split
    . exact h
    . exact psciCpuSuspendStart_inv h hcpu hrun (psciFindTargetSuspendLvl_le hvalid)

lemma psciSystemSuspend_inv (h : Inv p s) (hcpu : cpuIdx < p.coreCount) (hrun : s.phase cpuIdx = .running)
    : Inv p (psciSystemSuspend p s cpuIdx stateInfo validEntryPoint isr) := by
  unfold psciSystemSuspend
  split
  . exact h
  . exact psciCpuSuspendStart_inv h hcpu hrun (Nat.le_refl _)

lemma psciSuspendToStandbyFinisher_inv (h : Inv p s) (hcpu : cpuIdx < p.coreCount)
    (hstandby : s.phase cpuIdx = .standby endPwrlvl)
    : Inv p (psciSuspendToStandbyFinisher p s cpuIdx endPwrlvl) := by
  have hcpuInv := h.cpus cpuIdx hcpu
  have hdepth : s.depth p cpuIdx = endPwrlvl := by
    unfold depth
    rw [hstandby]
    rfl
  have hend : endPwrlvl ≤ p.maxPwrLvl := by
    rw [← hdepth]
    exact hcpuInv.depth_le
  have hupd := @psciSetPwrDomainsToRun_updated p s _ _ hcpu hend
  refine h.of_setPwrDomainsToRun hcpu hend (Nat.le_of_eq hdepth) ⟨rfl, rfl, rfl, ?_⟩ ?_ ?_
  . intro c hne
    exact ⟨phase_setPhase_of_ne _ _ hne, rfl⟩
  . exact phase_setPhase _ _
  . have hinvalid := hcpuInv.invalid (by rw [hstandby]; intro; contradiction)
    rw [← hupd.targetPwrlvl] at hinvalid
    exact hinvalid

lemma CpuInv.getPowerOnTargetPwrlvl (h : CpuInv p s cpuIdx)
    (hphase : s.phase cpuIdx = .off ∨ s.phase cpuIdx = .suspended)
    : getPowerOnTargetPwrlvl p s cpuIdx ≤ p.maxPwrLvl ∧ s.depth p cpuIdx ≤ getPowerOnTargetPwrlvl p s cpuIdx := by
  have hle := h.depth_le
  unfold depth at hle ⊢
  unfold PwrDomains.getPowerOnTargetPwrlvl
  rcases hphase with hphase | hphase
  . rw [h.invalid (by rw [hphase]; intro; contradiction), if_pos rfl, hphase]
    exact ⟨Nat.le_refl _, Nat.le_refl _⟩
  rw [hphase] at hle ⊢
  dsimp only [Phase.depth] at hle ⊢
  have hne : s.targetPwrlvl cpuIdx ≠ psciInvalidPwrLvl p := by
    unfold psciInvalidPwrLvl
    omega
  rw [if_neg hne]
  exact ⟨hle, Nat.le_refl _⟩

lemma psciWarmbootEntrypoint_inv (h : Inv p s) (hcpu : cpuIdx < p.coreCount)
    (hphase : s.phase cpuIdx = .off ∨ s.phase cpuIdx = .suspended)
    : Inv p (psciWarmbootEntrypoint p s cpuIdx) := by
  have hcpuInv := h.cpus cpuIdx hcpu
  have hoff (hne : s.affInfoState cpuIdx ≠ .on) : s.phase cpuIdx = .off := by
    rcases hphase with hphase | hphase
    . exact hphase
    . exact absurd (hcpuInv.on (.inr hphase)) hne
  unfold psciWarmbootEntrypoint
  dsimp only
  split
  . next haff =>
    have hphase := hoff (by rw [haff]; intro; contradiction)
    refine h.of_phase (by rw [hphase]; intro; contradiction) ?_ ?_
    . unfold depth
      rw [hphase]
      exact ⟨Nat.le_refl _, Nat.le_refl _⟩
    . rintro ((_ | _) | _) <;> contradiction
  obtain ⟨hend, hdepth⟩ := hcpuInv.getPowerOnTargetPwrlvl hphase
  have hupd := @psciSetPwrDomainsToRun_updated p s _ _ hcpu hend
  split
  . next haff =>
    have hphase := hoff (by rw [haff]; intro; contradiction)
    refine h.of_setPwrDomainsToRun hcpu hend hdepth ⟨rfl, rfl, rfl, ?_⟩ (phase_setPhase _ _) ?_
    . intro c hne
      exact ⟨phase_setPhase_of_ne _ _ hne, rfl⟩
    . have hinvalid := hcpuInv.invalid (by rw [hphase]; intro; contradiction)
      rw [← hupd.targetPwrlvl] at hinvalid
      exact hinvalid
  rw [psciSetPwrDomainsToRun_psciSetSuspendPwrlvl]
  refine h.of_setPwrDomainsToRun hcpu hend hdepth ⟨rfl, rfl, rfl, ?_⟩ (phase_setPhase _ _) ?_
  . intro c hne
    exact ⟨phase_setPhase_of_ne _ _ hne, Function.update_of_ne hne _ _⟩
  . exact Function.update_self _ _ _

lemma cpuOnValidateState_success {state : AffInfoState} (h : cpuOnValidateState state = .success) : state = .off := by
  cases state with
  | on => contradiction
  | off => rfl
  | onPending => contradiction

lemma psciCpuOnStart_inv {targetIdx : Nat} {ok : Bool} (h : Inv p s) : Inv p (psciCpuOnStart s targetIdx ok) := by
  unfold psciCpuOnStart
  split
  . exact h
  next hvalid =>
  have hoff := cpuOnValidateState_success (not_not.mp hvalid)
  -- neither a running nor a suspended CPU is off
  have hcpuInv (hlt : targetIdx < p.coreCount) (state : AffInfoState)
      : CpuInv p (s.psciSetAffInfoState targetIdx state) targetIdx := by
    have hold := h.cpus targetIdx hlt
    refine ⟨hold.depth_le, hold.request, hold.invalid, ?_⟩
    intro hphase
    have := hold.on hphase
    rw [hoff] at this
    contradiction
  split
  . refine @Inv.of_cpu p s _ targetIdx h rfl rfl ?_ ?_
    . intro c hne
      exact ⟨rfl, rfl, Function.update_of_ne hne _ _⟩
    . intro hlt
      exact hcpuInv hlt .onPending
  refine @Inv.of_cpu p s _ targetIdx h rfl rfl ?_ ?_
  . intro c hne
    refine ⟨rfl, rfl, ?_⟩
    unfold psciSetAffInfoState
    dsimp only
    rw [Function.update_of_ne hne, Function.update_of_ne hne]
  intro hlt
  have := hcpuInv hlt .off
  unfold psciSetAffInfoState at this ⊢
  rwa [Function.update_idem]

lemma next_inv {action : Action} (h : Inv p s) (hcpu : cpuIdx < p.coreCount) (hstep : next p s cpuIdx action = some s')
    : Inv p s' := by
  unfold next at hstep
  split at hstep
  . next hrun =>
    cases hstep
    exact psciDoCpuOff_inv h hcpu hrun
  . next hphase =>
    cases hstep
    have hold := h.cpus cpuIdx hcpu
    refine @Inv.of_cpu p s _ cpuIdx h rfl rfl ?_ ?_
    . intro c hne
      exact ⟨phase_setPhase_of_ne _ _ hne, rfl, Function.update_of_ne hne _ _⟩
    intro _
    constructor
    . unfold depth
      rw [phase_setPhase]
      exact Nat.le_refl _
    . intro l hl hmax
      unfold depth at hl
      rw [phase_setPhase] at hl
      exact absurd hmax (Nat.not_le_of_lt hl)
    . intro _
      exact hold.invalid (by rw [hphase]; intro; contradiction)
    . rw [phase_setPhase]
      rintro ((_ | _) | _) <;> contradiction
  . next hrun =>
    cases hstep
    exact psciCpuSuspend_inv h hcpu hrun
  . next hrun =>
    cases hstep
    exact psciSystemSuspend_inv h hcpu hrun
  . next hphase =>
    cases hstep
    refine h.of_phase (by rw [hphase]; intro; contradiction) ?_ ?_
    . unfold depth
      rw [hphase]
      exact ⟨Nat.le_refl _, Nat.zero_le _⟩
    . intro _
      exact (h.cpus cpuIdx hcpu).on (.inl (.inr hphase))
  . next hphase =>
    cases hstep
    exact psciSuspendToStandbyFinisher_inv h hcpu hphase
  . next hphase =>
    cases hstep
    exact psciWarmbootEntrypoint_inv h hcpu (.inl hphase)
  . next hphase =>
    cases hstep
    exact psciWarmbootEntrypoint_inv h hcpu (.inr hphase)
  . cases hstep
    exact psciCpuOnStart_inv h
  . contradiction

lemma psciSetup_inv (hboot : bootIdx < p.coreCount) : Inv p (psciSetup p bootIdx) := by
  unfold psciSetup
  generalize hs : mk (fun _ => p.platMaxOffState) (fun _ _ => p.platMaxOffState) (fun _ => .off)
    (fun _ => psciInvalidPwrLvl p) (fun _ => p.platMaxOffState) (fun _ => .off) = s
  have hinv : Inv p s := by
    subst hs
    constructor
    . intro _ _ _ _ _
      exact Nat.le_refl _
    . intro _ _ _ _ _
      exact Nat.le_refl _
    intro c _
    constructor
    . exact Nat.le_refl _
    . intro l hl hmax
      exact absurd hmax (Nat.not_le_of_lt hl)
    . intro _
      rfl
    . rintro ((_ | _) | _) <;> contradiction
  have hdepth : s.depth p bootIdx ≤ p.maxPwrLvl := (hinv.cpus bootIdx hboot).depth_le
  have hupd := @psciSetPwrDomainsToRun_updated p s _ _ hboot (Nat.le_refl _)
  refine hinv.of_setPwrDomainsToRun hboot (Nat.le_refl _) hdepth ⟨rfl, rfl, rfl, ?_⟩ (phase_setPhase _ _) ?_
  . intro c hne
    exact ⟨phase_setPhase_of_ne _ _ hne, rfl⟩
  . have hinvalid := (hinv.cpus bootIdx hboot).invalid (by rw [← hs]; intro; contradiction)
    rw [← hupd.targetPwrlvl] at hinvalid
    exact hinvalid

lemma Reachable.inv (h : Reachable p bootIdx s) (hboot : bootIdx < p.coreCount) : Inv p s := by
  induction h with
  | boot => exact psciSetup_inv hboot
  | step _ hcpu hstep ih => exact next_inv ih hcpu hstep

lemma Inv.localState_of_awake (h : Inv p s) (hcpu : cpuIdx < p.coreCount) (hlvl : 1 ≤ lvl)
    (hmax : lvl ≤ p.maxPwrLvl) (hawake : (s.phase cpuIdx).Awake)
    : s.localState (p.ancestor cpuIdx lvl) = psciLocalStateRun := by
  have hdepth : s.depth p cpuIdx = 0 := by
    unfold depth
    rcases hawake with hphase | hphase
    . rw [hphase]
      rfl
    . rw [hphase]
      rfl
  have hle := h.le_request cpuIdx hcpu lvl hlvl hmax
  rw [(h.cpus cpuIdx hcpu).request lvl (by omega) hmax] at hle
  exact le_zero.mp hle

theorem pwrDomains_awake {bootIdx lvl : Nat} (hboot : bootIdx < p.coreCount) (h : Reachable p bootIdx s)
    (hcpu : cpuIdx < p.coreCount) (hlvl : 1 ≤ lvl) (hmax : lvl ≤ p.maxPwrLvl)
    : ((s.phase cpuIdx).Awake → s.localState (p.ancestor cpuIdx lvl) = psciLocalStateRun)
      ∧ ∀ c < p.coreCount, p.ancestor c lvl = p.ancestor cpuIdx lvl →
        s.localState (p.ancestor cpuIdx lvl) ≤ s.reqLocalPwrStates lvl c := by
  have hinv := h.inv hboot
  constructor
  . exact hinv.localState_of_awake hcpu hlvl hmax
  . intro c hc hsame
    rw [← hsame]
    exact hinv.le_request c hc lvl hlvl hmax

namespace Sample

def platform : Platform where
  coreCount := 4
  maxPwrLvl := 2
  cpuParent := fun cpu => 1 + cpu / 2
  parent := fun _ => 0
  level := fun node => if node = 0 then 2 else 1
  level_cpuParent := by
    intro cpu _
    rw [if_neg (by omega)]
  level_parent := by
    intro node h
    split at h
    . omega
    . next hne => rw [if_pos rfl, if_neg hne]
  adjacent := by
    intro lvl i j k hlvl hle hij hjk _ h
    have : lvl = 1 ∨ lvl = 2 := by omega
    rcases this with rfl | rfl
    . have h : 1 + i / 2 = 1 + k / 2 := h
      have : 1 + j / 2 = 1 + i / 2 := by omega
      exact this
    . rfl
  platMaxOffState := 2
  cpuStandby := true

def actions : List (Nat × Action) :=
  [(0, .cpuOn 1 true), (1, .warmboot), (1, .cpuSuspend (fun _ => 2) true true false), (0, .cpuOn 2 true), (2, .warmboot),
    (0, .cpuOff false)]

def steps (s : State) (actions : List (Nat × Action)) : Option State :=
  actions.foldlM (fun s step => next platform s step.1 step.2) s

lemma steps_reachable {actions : List (Nat × Action)} (h : Reachable platform 0 s)
    (hlt : ∀ step ∈ actions, step.1 < platform.coreCount) (hsteps : steps s actions = some s')
    : Reachable platform 0 s' := by
  induction actions generalizing s with
  | nil =>
    cases hsteps
    exact h
  | cons step actions ih =>
    obtain ⟨s1, hnext, hrest⟩ := Option.bind_eq_some_iff.mp hsteps
    exact ih (h.step (hlt step mem_cons_self) hnext) (fun step hmem => hlt step (mem_cons_of_mem _ hmem)) hrest

lemma steps_isSome : (steps (psciSetup platform 0) actions).isSome := by
  decide

def final : State := (steps (psciSetup platform 0) actions).get steps_isSome

lemma final_reachable : Reachable platform 0 final := steps_reachable .boot (by decide) (Option.some_get _).symm

end Sample

open Sample

theorem pwrDomains_awake_third
    : (Sample.final.phase 2).Awake ∧ Sample.final.phase 1 = .suspended ∧ Sample.final.phase 0 = .offStart
      ∧ Sample.final.localState 1 = 2 ∧ Sample.final.localState 2 = psciLocalStateRun
      ∧ Sample.final.localState 0 = psciLocalStateRun := by
  have h1 := @pwrDomains_awake _ _ 2 0 1 (by decide) final_reachable (by decide) (by decide) (by decide)
  have h2 := @pwrDomains_awake _ _ 2 0 2 (by decide) final_reachable (by decide) (by decide) (by decide)
  exact ⟨by decide, by decide, by decide, by decide, h1.1 (by decide), h2.1 (by decide)⟩

end PwrDomains
end Atf.Psci
