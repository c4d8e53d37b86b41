import MarvellBoot.Atf.Psci.Impl
import MarvellBoot.Atf.Psci.Topology

/-!
The states of the power domains as in `lib/psci`. A step is what one CPU does while it holds the locks of its power
domains, or the lock of the target of `CPU_ON`.
-/

namespace Atf.Psci
namespace PwrDomains

structure Platform extends Tree where
  platMaxOffState : Nat
  cpuStandby : Bool

inductive Phase where
  | running
  | cpuStandby
  -- `psci_do_cpu_off` after the locks are released, and after the affinity info state is written.
  | offStart
  | off
  -- `psci_cpu_suspend_start` after the locks are released.
  | suspended
  | standby (endPwrlvl : Nat)
  | panic
  deriving Repr, DecidableEq

structure State where
  localState : Nat → Nat
  reqLocalPwrStates : Nat → Nat → Nat
  affInfoState : Nat → AffInfoState
  targetPwrlvl : Nat → Nat
  cpuLocalState : Nat → Nat
  phase : Nat → Phase

def psciLocalStateRun : Nat := 0

def psciInvalidPwrLvl (p : Platform) : Nat := p.maxPwrLvl + 1

namespace State

def psciSetReqLocalPwrState (s : State) (pwrlvl cpuIdx reqPwrState : Nat) : State :=
  { s with
    reqLocalPwrStates :=
      Function.update s.reqLocalPwrStates pwrlvl (Function.update (s.reqLocalPwrStates pwrlvl) cpuIdx reqPwrState) }

def setLocalState (s : State) (node state : Nat) : State :=
  { s with localState := Function.update s.localState node state }

def psciSetAffInfoState (s : State) (cpuIdx : Nat) (state : AffInfoState) : State :=
  { s with affInfoState := Function.update s.affInfoState cpuIdx state }

def psciSetSuspendPwrlvl (s : State) (cpuIdx targetLvl : Nat) : State :=
  { s with targetPwrlvl := Function.update s.targetPwrlvl cpuIdx targetLvl }

def psciSetCpuLocalState (s : State) (cpuIdx state : Nat) : State :=
  { s with cpuLocalState := Function.update s.cpuLocalState cpuIdx state }

def setPhase (s : State) (cpuIdx : Nat) (phase : Phase) : State :=
  { s with phase := Function.update s.phase cpuIdx phase }

end State

def psciGetReqLocalPwrStates (s : State) (pwrlvl cpuIdx ncpus : Nat) : List Nat :=
  (List.range ncpus).map fun i => s.reqLocalPwrStates pwrlvl (cpuIdx + i)

def platGetTargetPwrState (platMaxOffState : Nat) (states : List Nat) : Nat :=
  states.foldl (fun target temp => if temp < target then temp else target) platMaxOffState

section

variable (p : Platform)

def psciSetTargetLocalPwrStates.loop (pdState : Nat → Nat) : (n lvl parentIdx : Nat) → State → State
  | 0, _, _, s => s
  | n + 1, lvl, parentIdx, s => loop pdState n (lvl + 1) (p.parent parentIdx) (s.setLocalState parentIdx (pdState lvl))

def psciSetTargetLocalPwrStates (s : State) (cpuIdx endPwrlvl : Nat) (targetState : Nat → Nat) : State :=
  let s := s.psciSetCpuLocalState cpuIdx (targetState 0)
  psciSetTargetLocalPwrStates.loop p targetState endPwrlvl 1 (p.cpuParent cpuIdx) s

def psciSetPwrDomainsToRun.loop (cpuIdx : Nat) : (n lvl parentIdx : Nat) → State → State
  | 0, _, _, s => s
  | n + 1, lvl, parentIdx, s =>
    loop cpuIdx n (lvl + 1) (p.parent parentIdx)
      ((s.setLocalState parentIdx psciLocalStateRun).psciSetReqLocalPwrState lvl cpuIdx psciLocalStateRun)

def psciSetPwrDomainsToRun (s : State) (cpuIdx endPwrlvl : Nat) : State :=
  let s := psciSetPwrDomainsToRun.loop p cpuIdx endPwrlvl 1 (p.cpuParent cpuIdx) s
  (s.psciSetAffInfoState cpuIdx .on).psciSetCpuLocalState cpuIdx psciLocalStateRun

def psciDoStateCoordination.requests (cpuIdx : Nat) : (n lvl : Nat) → State → (Nat → Nat) → State × (Nat → Nat)
  | 0, _, s, stateInfo => (s, stateInfo)
  | n + 1, lvl, s, stateInfo =>
    requests cpuIdx n (lvl + 1) (s.psciSetReqLocalPwrState lvl cpuIdx (stateInfo lvl))
      (Function.update stateInfo lvl psciLocalStateRun)

def psciDoStateCoordination.targets (cpuIdx : Nat) : (n lvl parentIdx : Nat) → State → (Nat → Nat) → State × (Nat → Nat)
  | 0, _, _, s, stateInfo => (s, stateInfo)
  | n + 1, lvl, parentIdx, s, stateInfo =>
    let s := s.psciSetReqLocalPwrState lvl cpuIdx (stateInfo lvl)
    let limits := psciUpdatePwrlvlLimits p.toTopology
    let reqStates := psciGetReqLocalPwrStates s lvl (limits.cpuStartIdx parentIdx) (limits.ncpus parentIdx)
    let targetState := platGetTargetPwrState p.platMaxOffState reqStates
    let stateInfo := Function.update stateInfo lvl targetState
    if targetState = psciLocalStateRun then
      requests cpuIdx n (lvl + 1) s stateInfo
    else
      targets cpuIdx n (lvl + 1) (p.parent parentIdx) s stateInfo

def psciDoStateCoordination (s : State) (cpuIdx endPwrlvl : Nat) (stateInfo : Nat → Nat) : State :=
  let (s, stateInfo) := psciDoStateCoordination.targets p cpuIdx endPwrlvl 1 (p.cpuParent cpuIdx) s stateInfo
  psciSetTargetLocalPwrStates p s cpuIdx endPwrlvl stateInfo

/-- What `psci_do_state_coordination` leaves in `state_info`. -/
def psciDoStateCoordination.stateInfo (s : State) (cpuIdx endPwrlvl : Nat) (stateInfo : Nat → Nat) : Nat → Nat :=
  (targets p cpuIdx endPwrlvl 1 (p.cpuParent cpuIdx) s stateInfo).2

def psciFindTargetSuspendLvl.loop (stateInfo : Nat → Nat) (invalid : Nat) : (i : Nat) → Nat
  | 0 => if stateInfo 0 ≠ psciLocalStateRun then 0 else invalid
  | i + 1 => if stateInfo (i + 1) ≠ psciLocalStateRun then i + 1 else loop stateInfo invalid i

def psciFindTargetSuspendLvl (stateInfo : Nat → Nat) : Nat :=
  psciFindTargetSuspendLvl.loop stateInfo (psciInvalidPwrLvl p) p.maxPwrLvl

def psciDoCpuOff (s : State) (cpuIdx endPwrlvl : Nat) (denied : Bool) : State :=
  if denied then
    s
  else
    (psciDoStateCoordination p s cpuIdx endPwrlvl (fun _ => p.platMaxOffState)).setPhase cpuIdx .offStart

def psciCpuSuspendStart (s : State) (cpuIdx endPwrlvl : Nat) (stateInfo : Nat → Nat)
    (isPowerDownState isr : Bool) : State :=
  if isr then
    s
  else
    let s := psciDoStateCoordination p s cpuIdx endPwrlvl stateInfo
    if isPowerDownState then
      (s.psciSetSuspendPwrlvl cpuIdx endPwrlvl).setPhase cpuIdx .suspended
    else
      s.setPhase cpuIdx (.standby endPwrlvl)

def psciCpuSuspend (s : State) (cpuIdx : Nat) (stateInfo : Nat → Nat)
    (isPowerDownState validEntryPoint isr : Bool) : State :=
  let targetPwrlvl := psciFindTargetSuspendLvl p stateInfo
  if targetPwrlvl = psciInvalidPwrLvl p then
    s.setPhase cpuIdx .panic
  else if !isPowerDownState && targetPwrlvl = 0 then
    if p.cpuStandby then
      (s.psciSetCpuLocalState cpuIdx (stateInfo 0)).setPhase cpuIdx .cpuStandby
    else
      s
  else if isPowerDownState && !validEntryPoint then
    s
  else
    psciCpuSuspendStart p s cpuIdx targetPwrlvl stateInfo isPowerDownState isr

def psciIsLastOnCpu (s : State) (cpuIdx : Nat) : Bool :=
  (List.range p.coreCount).all fun other => other = cpuIdx || s.affInfoState other = .off

def psciSystemSuspend (s : State) (cpuIdx : Nat) (stateInfo : Nat → Nat) (validEntryPoint isr : Bool) : State :=
  if !psciIsLastOnCpu p s cpuIdx || !validEntryPoint then
    s
  else
    psciCpuSuspendStart p s cpuIdx p.maxPwrLvl stateInfo true isr

def psciSuspendToStandbyFinisher (s : State) (cpuIdx endPwrlvl : Nat) : State :=
  (psciSetPwrDomainsToRun p s cpuIdx endPwrlvl).setPhase cpuIdx .running

def getPowerOnTargetPwrlvl (s : State) (cpuIdx : Nat) : Nat :=
  let pwrlvl := s.targetPwrlvl cpuIdx
  if pwrlvl = psciInvalidPwrLvl p then p.maxPwrLvl else pwrlvl

def psciWarmbootEntrypoint (s : State) (cpuIdx : Nat) : State :=
  if s.affInfoState cpuIdx = .off then
    s.setPhase cpuIdx .panic
  else
    let endPwrlvl := getPowerOnTargetPwrlvl p s cpuIdx
    -- `psci_cpu_suspend_finish` invalidates the suspend level, `psci_cpu_on_finish` does not.
    let s := if s.affInfoState cpuIdx = .onPending then s else s.psciSetSuspendPwrlvl cpuIdx (psciInvalidPwrLvl p)
    (psciSetPwrDomainsToRun p s cpuIdx endPwrlvl).setPhase cpuIdx .running

def psciCpuOnStart (s : State) (targetIdx : Nat) (ok : Bool) : State :=
  if cpuOnValidateState (s.affInfoState targetIdx) ≠ .success then
    s
  else if ok then
    s.psciSetAffInfoState targetIdx .onPending
  else
    (s.psciSetAffInfoState targetIdx .onPending).psciSetAffInfoState targetIdx .off

inductive Action where
  | cpuOff (denied : Bool)
  | setAffInfoState
  | cpuSuspend (stateInfo : Nat → Nat) (isPowerDownState validEntryPoint isr : Bool)
  | systemSuspend (stateInfo : Nat → Nat) (validEntryPoint isr : Bool)
  | cpuStandbyExit
  | standbyFinish
  | warmboot
  | cpuOn (targetIdx : Nat) (ok : Bool)

def next (s : State) (cpuIdx : Nat) (action : Action) : Option State :=
  match s.phase cpuIdx, action with
  | .running, .cpuOff denied => some (psciDoCpuOff p s cpuIdx p.maxPwrLvl denied)
  | .offStart, .setAffInfoState => some ((s.psciSetAffInfoState cpuIdx .off).setPhase cpuIdx .off)
  | .running, .cpuSuspend stateInfo isPowerDownState validEntryPoint isr =>
    some (psciCpuSuspend p s cpuIdx stateInfo isPowerDownState validEntryPoint isr)
  | .running, .systemSuspend stateInfo validEntryPoint isr =>
    some (psciSystemSuspend p s cpuIdx stateInfo validEntryPoint isr)
  | .cpuStandby, .cpuStandbyExit => some ((s.psciSetCpuLocalState cpuIdx psciLocalStateRun).setPhase cpuIdx .running)
  | .standby endPwrlvl, .standbyFinish => some (psciSuspendToStandbyFinisher p s cpuIdx endPwrlvl)
  | .off, .warmboot => some (psciWarmbootEntrypoint p s cpuIdx)
  | .suspended, .warmboot => some (psciWarmbootEntrypoint p s cpuIdx)
  | .running, .cpuOn targetIdx ok => some (psciCpuOnStart s targetIdx ok)
  | _, _ => none

def psciSetup (bootIdx : Nat) : State :=
  let s : State := {
    localState := fun _ => p.platMaxOffState
    reqLocalPwrStates := fun _ _ => p.platMaxOffState
    affInfoState := fun _ => .off
    targetPwrlvl := fun _ => psciInvalidPwrLvl p
    cpuLocalState := fun _ => p.platMaxOffState
    phase := fun _ => .off
  }
  (psciSetPwrDomainsToRun p s bootIdx p.maxPwrLvl).setPhase bootIdx .running

inductive Reachable (bootIdx : Nat) : State → Prop where
  | boot : Reachable bootIdx (psciSetup p bootIdx)
  | step {s s' : State} {cpuIdx : Nat} {action : Action} : Reachable bootIdx s → cpuIdx < p.coreCount →
      next p s cpuIdx action = some s' → Reachable bootIdx s'

end

end PwrDomains
end Atf.Psci
