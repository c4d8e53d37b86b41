import MarvellBoot.UBoot.Hashtable.Impl

/-!
The calls of the table and what they mean for a map from keys to data.
-/

namespace UBoot.Hashtable

inductive Call where
  | enter (key data : CStr) (flag : Nat)
  | find (key : CStr)
  | delete (key : CStr) (flag : Nat)
  deriving Repr, DecidableEq

inductive Outcome where
  | entered (ok : Bool)
  | found (data : Option CStr)
  | deleted (ok : Bool)
  deriving Repr, DecidableEq

namespace Call

variable {σ : Type} (hooks : Hooks σ)

def exec (s : State σ) : Call → Option (Outcome × State σ)
  | enter key data flag =>
    match hsearchR hooks key (.enter data) flag s with
    | none => none
    | some (.ok _, s) => some (.entered true, s)
    | some (.error _, s) => some (.entered false, s)
  | find key =>
    match hsearchR hooks key .find 0 s with
    | none => none
    | some (.ok (_, idx), s) => some (.found (some (s.htab.table idx).entry.data), s)
    | some (.error _, s) => some (.found none, s)
  | delete key flag =>
    match hdeleteR hooks key flag s with
    | none => none
    | some (.ok _, s) => some (.deleted true, s)
    | some (.error _, s) => some (.deleted false, s)

def execAll (s : State σ) : List Call → Option (List Outcome × State σ)
  | [] => some ([], s)
  | call :: calls =>
    match exec hooks s call with
    | none => none
    | some (outcome, s) =>
      match execAll s calls with
      | none => none
      | some (outcomes, s) => some (outcome :: outcomes, s)

def spec (map : CStr → Option CStr) : Call → Outcome × (CStr → Option CStr)
  | enter key data _ => (.entered true, Function.update map key (some data))
  | find key => (.found (map key), map)
  | delete key _ => (.deleted (map key).isSome, Function.update map key none)

def specAll (map : CStr → Option CStr) : List Call → List Outcome × (CStr → Option CStr)
  | [] => ([], map)
  | call :: calls =>
    let (outcome, map) := spec map call
    let (outcomes, map) := specAll map calls
    (outcome :: outcomes, map)

def liveKeys (keys : List CStr) : List Call → List CStr
  | [] => keys
  | enter key _ _ :: calls => liveKeys (if key ∈ keys then keys else key :: keys) calls
  | find _ :: calls => liveKeys keys calls
  | delete key _ :: calls => liveKeys (keys.erase key) calls

end Call

end UBoot.Hashtable
