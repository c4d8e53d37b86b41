import Mathlib

/-!
`CPU_ON`, the warm boot of its target and `CPU_OFF` as in `lib/psci`. A step is what one CPU does
between two points at which another CPU can see or change what it depends on. In
`psci_cpu_on_start` the platform hook and the initialisation of the context are steps of their own:
the target can run as soon as the hook has powered it on.
-/

namespace Atf.Psci

inductive AffInfoState where
  | on
  | off
  | onPending
  deriving Repr, DecidableEq

inductive PsciError where
  | success
  | alreadyOn
  | onPending
  | internFail
  deriving Repr, DecidableEq

inductive Phase (Cpu Ep : Type) where
  | normalWorld
  -- `psci_cpu_on_start`: before the lock, at the hook, and after the hook by its result.
  | cpuOnStart (target : Cpu) (ep : Ep)
  | pwrDomainOn (target : Cpu) (ep : Ep)
  | initContext (target : Cpu) (ep : Ep)
  | restoreState (target : Cpu) (ep : Ep)
  -- `psci_do_cpu_off` before the state is written, and after that.
  | doCpuOff
  | off
  -- `psci_warmboot_entrypoint`.
  | warmboot
  | domainsLocked
  | cpuOnFinish
  | contextReady
  | el3ExitPrepared (ep : Ep)
  | domainsRunning (ep : Ep)
  | cpuSuspendFinish
  | panic
  deriving Repr, DecidableEq

-- What can be observed: the return of a call, and the steps of the target.
inductive Event (Cpu Ep : Type) where
  | ret (caller target : Cpu) (ep : Ep) (rc : PsciError)
  | on (target : Cpu)
  | enter (target : Cpu) (ep : Ep)
  | off (target : Cpu)
  deriving Repr, DecidableEq

/--
`cpuLock` has the CPU that holds the lock. The log is not part of the code.
-/
structure System (Cpu Ep : Type) where
  affInfoState : Cpu → AffInfoState
  cpuLock : Cpu → Option Cpu
  context : Cpu → Ep
  phase : Cpu → Phase Cpu Ep
  log : List (Event Cpu Ep)

section

variable {Cpu Ep : Type} [DecidableEq Cpu]

namespace System

def setAffInfoState (s : System Cpu Ep) (cpu : Cpu) (state : AffInfoState) : System Cpu Ep :=
  { s with affInfoState := Function.update s.affInfoState cpu state }

def setPhase (s : System Cpu Ep) (cpu : Cpu) (phase : Phase Cpu Ep) : System Cpu Ep :=
  { s with phase := Function.update s.phase cpu phase }

def setCpuLock (s : System Cpu Ep) (cpu : Cpu) (holder : Option Cpu) : System Cpu Ep :=
  { s with cpuLock := Function.update s.cpuLock cpu holder }

def cmInitContext (s : System Cpu Ep) (cpu : Cpu) (ep : Ep) : System Cpu Ep :=
  { s with context := Function.update s.context cpu ep }

def emit (s : System Cpu Ep) (event : Event Cpu Ep) : System Cpu Ep := { s with log := s.log ++ [event] }

end System

def cpuOnValidateState : AffInfoState → PsciError
  | .on => .alreadyOn
  | .onPending => .onPending
  | .off => .success

namespace psciCpuOnStart

-- The first update can be lost when the target invalidates the cache line, it is then done again.
def setOnPending (s : System Cpu Ep) (target : Cpu) (lost : Bool) : System Cpu Ep :=
  let s := if lost then s else s.setAffInfoState target .onPending
  if s.affInfoState target ≠ .onPending then s.setAffInfoState target .onPending else s

def lock (s : System Cpu Ep) (cpu : Cpu) (lost : Bool) : Option (System Cpu Ep) :=
  match s.phase cpu with
  | .cpuOnStart target ep =>
    if s.cpuLock target ≠ none then
      none
    else
      let rc := cpuOnValidateState (s.affInfoState target)
      if rc ≠ .success then
        -- The lock is released again.
        some ((s.setPhase cpu .normalWorld).emit (.ret cpu target ep rc))
      else
        let s := s.setCpuLock target (some cpu)
        some ((setOnPending s target lost).setPhase cpu (.pwrDomainOn target ep))
  | _ => none

def pwrDomainOn (s : System Cpu Ep) (cpu : Cpu) (ok : Bool) : Option (System Cpu Ep) :=
  match s.phase cpu with
  | .pwrDomainOn target ep =>
    if ok then
      let s := s.setPhase cpu (.initContext target ep)
      match s.phase target with
      | .off => some (s.setPhase target .warmboot)
      | _ => some s
    else
      some (s.setPhase cpu (.restoreState target ep))
  | _ => none

def unlock (s : System Cpu Ep) (cpu : Cpu) : Option (System Cpu Ep) :=
  match s.phase cpu with
  | .initContext target ep =>
    let s := (s.cmInitContext target ep).setCpuLock target none
    some ((s.setPhase cpu .normalWorld).emit (.ret cpu target ep .success))
  | .restoreState target ep =>
    let s := (s.setAffInfoState target .off).setCpuLock target none
    some ((s.setPhase cpu .normalWorld).emit (.ret cpu target ep .internFail))
  | _ => none

end psciCpuOnStart

def psciWarmbootEntrypoint.verify (s : System Cpu Ep) (cpu : Cpu) : Option (System Cpu Ep) :=
  match s.phase cpu with
  | .warmboot =>
    if s.affInfoState cpu = .off then
      some (s.setPhase cpu .panic)
    else
      some (s.setPhase cpu .domainsLocked)
  | _ => none

def psciWarmbootEntrypoint.finish (s : System Cpu Ep) (cpu : Cpu) : Option (System Cpu Ep) :=
  match s.phase cpu with
  | .domainsLocked =>
    if s.affInfoState cpu = .onPending then
      some (s.setPhase cpu .cpuOnFinish)
    else
      some (s.setPhase cpu .cpuSuspendFinish)
  | _ => none

def psciCpuOnFinish.sync (s : System Cpu Ep) (cpu : Cpu) : Option (System Cpu Ep) :=
  match s.phase cpu with
  | .cpuOnFinish => if s.cpuLock cpu ≠ none then none else some (s.setPhase cpu .contextReady)
  | _ => none

def psciCpuOnFinish.prepareEl3Exit (s : System Cpu Ep) (cpu : Cpu) : Option (System Cpu Ep) :=
  match s.phase cpu with
  | .contextReady =>
    if s.affInfoState cpu ≠ .onPending then
      some (s.setPhase cpu .panic)
    else
      some (s.setPhase cpu (.el3ExitPrepared (s.context cpu)))
  | _ => none

def psciSetPwrDomainsToRun (s : System Cpu Ep) (cpu : Cpu) : Option (System Cpu Ep) :=
  match s.phase cpu with
  | .el3ExitPrepared ep =>
    some (((s.setAffInfoState cpu .on).setPhase cpu (.domainsRunning ep)).emit (.on cpu))
  | _ => none

def el3Exit (s : System Cpu Ep) (cpu : Cpu) : Option (System Cpu Ep) :=
  match s.phase cpu with
  | .domainsRunning ep => some ((s.setPhase cpu .normalWorld).emit (.enter cpu ep))
  | _ => none

-- The dispatcher can deny it, otherwise the state is written without a lock.
def psciDoCpuOff (s : System Cpu Ep) (cpu : Cpu) (denied : Bool) : Option (System Cpu Ep) :=
  match s.phase cpu with
  | .doCpuOff =>
    if denied then
      some (s.setPhase cpu .normalWorld)
    else
      some (((s.setAffInfoState cpu .off).setPhase cpu .off).emit (.off cpu))
  | _ => none

inductive Action (Cpu Ep : Type) where
  | cpuOn (target : Cpu) (ep : Ep)
  | lock (lost : Bool)
  | pwrDomainOn (ok : Bool)
  | unlock
  | warmbootVerify
  | warmbootFinish
  | cpuOnFinishSync
  | prepareEl3Exit
  | setPwrDomainsToRun
  | el3Exit
  | cpuOff
  | doCpuOff (denied : Bool)
  deriving Repr, DecidableEq

def smc (s : System Cpu Ep) (cpu : Cpu) (phase : Phase Cpu Ep) : Option (System Cpu Ep) :=
  match s.phase cpu with
  | .normalWorld => some (s.setPhase cpu phase)
  | _ => none

def next (s : System Cpu Ep) (cpu : Cpu) : Action Cpu Ep → Option (System Cpu Ep)
  | .cpuOn target ep => smc s cpu (.cpuOnStart target ep)
  | .lock lost => psciCpuOnStart.lock s cpu lost
  | .pwrDomainOn ok => psciCpuOnStart.pwrDomainOn s cpu ok
  | .unlock => psciCpuOnStart.unlock s cpu
  | .warmbootVerify => psciWarmbootEntrypoint.verify s cpu
  | .warmbootFinish => psciWarmbootEntrypoint.finish s cpu
  | .cpuOnFinishSync => psciCpuOnFinish.sync s cpu
  | .prepareEl3Exit => psciCpuOnFinish.prepareEl3Exit s cpu
  | .setPwrDomainsToRun => psciSetPwrDomainsToRun s cpu
  | .el3Exit => el3Exit s cpu
  | .cpuOff => smc s cpu .doCpuOff
  | .doCpuOff denied => psciDoCpuOff s cpu denied

end

end Atf.Psci
