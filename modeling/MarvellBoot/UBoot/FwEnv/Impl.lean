import MarvellBoot.UBoot.EnvFlags.Impl
import MarvellBoot.UBoot.Hashtable.Linear

/-!
The environment image of `tools/env/fw_env.c`. The data of the image starts at address 0 and has `envSize`
bytes.
-/

namespace UBoot.FwEnv

open Mem Hashtable EnvFlags

-- There is no result when the end of the name is reached together with the end of the string, the comparison
-- goes on behind both.
def envmatch (s1 : CStr) (m : Int → UInt8) (s2 : Int) : Option (Option Int) :=
  match s1 with
  | [] =>
    if m s2 = 0 then
      none
    else if m s2 = equalSign then
      some (some (s2 + 1))
    else
      some none
  | c :: s1 =>
    if c = m s2 then
      if c = equalSign then
        some (some (s2 + 1))
      else
        envmatch s1 m (s2 + 1)
    else
      some none

def entryEnd (m : Int → UInt8) (envSize : Nat) : (fuel : Nat) → (nxt : Int) → Option Int
  | 0, _ => none
  | fuel + 1, nxt =>
    if m nxt = 0 then
      some nxt
    else if envSize ≤ nxt then
      none
    else
      entryEnd m envSize fuel (nxt + 1)

inductive Search where
  | unterminated
  | missing
  | found (env nxt val : Int)
  deriving Repr, DecidableEq

def search (name : CStr) (m : Int → UInt8) (envSize : Nat) : (fuel : Nat) → (env : Int) → Option Search
  | 0, _ => none
  | fuel + 1, env =>
    if m env = 0 then
      some .missing
    else
      match entryEnd m envSize (envSize + 1) env with
      | none => some .unterminated
      | some nxt =>
        match envmatch name m env with
        | none => none
        | some (some val) => some (.found env nxt val)
        | some none => search name m envSize fuel (nxt + 1)

def fwGetenv (m : Int → UInt8) (envSize : Nat) (name : CStr) : Option (Option CStr) :=
  match search name m envSize (envSize + 1) 0 with
  | none => none
  | some (.found _ _ val) => some (some (strAt m (envSize + 1) val))
  | some _ => some none

structure Hooks where
  validateVaraccess : (Int → UInt8) → CStr → Nat → Bool
  getdefenv : CStr → Option CStr

inductive WriteResult where
  | ok
  | einval
  | erofs
  | overflow
  deriving Repr, DecidableEq

def WriteResult.ret : WriteResult → Int
  | ok => 0
  | _ => -1

def permitted (hooks : Hooks) (m : Int → UInt8) (name : CStr) (oldval : Option CStr) (set : Bool) : Bool :=
  match oldval, set with
  | some _, false => hooks.validateVaraccess m name preventDelete = false
  | some oldval, true =>
    if hooks.validateVaraccess m name preventOverwr then
      false
    else if hooks.validateVaraccess m name preventNondefOverwr then
      oldval = (hooks.getdefenv name).getD []
    else
      true
  | none, true => hooks.validateVaraccess m name preventCreate = false
  | none, false => true

def shiftDown : (fuel : Nat) → (Int → UInt8) → (env nxt : Int) → Option ((Int → UInt8) × Int)
  | 0, _, _, _ => none
  | fuel + 1, m, env, nxt =>
    let m := store m env [m nxt]
    let nxt := nxt + 1
    if m env = 0 ∧ m nxt = 0 then
      some (m, env)
    else
      shiftDown fuel m (env + 1) nxt

def remove (m : Int → UInt8) (envSize : Nat) (env nxt : Int) : Option (Int → UInt8) :=
  let nxt := nxt + 1
  let shifted := if m nxt = 0 then some (store m env [0], env) else shiftDown (envSize + 1) m env nxt
  match shifted with
  | none => none
  | some (m, env) => some (store m (env + 1) [0])

def listEnd (m : Int → UInt8) : (fuel : Nat) → (env : Int) → Option Int
  | 0, _ => none
  | fuel + 1, env => if m env ≠ 0 ∨ m (env + 1) ≠ 0 then listEnd m fuel (env + 1) else some env

def append (m : Int → UInt8) (envSize : Nat) (name value : CStr) : Option (WriteResult × (Int → UInt8)) :=
  match listEnd m (envSize + 1) 0 with
  | none => none
  | some env =>
    let env := if 0 < env then env + 1 else env
    let len : Int := name.length + 2 + (value.length + 1)
    if envSize - env < len then
      some (.overflow, m)
    else
      let m := store m env (name ++ [0])
      let env := env + name.length
      let m := store m env [equalSign]
      let m := store m (env + 1) (value ++ [0])
      let env := env + 1 + value.length
      some (.ok, store m (env + 1) [0])

def fwEnvWrite (hooks : Hooks) (envSize : Nat) (m : Int → UInt8) (name : CStr) (value : Option CStr)
    : Option (WriteResult × (Int → UInt8)) :=
  let set : Bool := value.getD [] ≠ []
  match search name m envSize (envSize + 1) 0 with
  | none => none
  | some .unterminated => some (.einval, m)
  | some .missing =>
    if permitted hooks m name none set = false then
      some (.erofs, m)
    else if set then
      append m envSize name (value.getD [])
    else
      some (.ok, m)
  | some (.found env nxt val) =>
    if permitted hooks m name (some (strAt m (envSize + 1) val)) set = false then
      some (.erofs, m)
    else
      match remove m envSize env nxt with
      | none => none
      | some m => if set then append m envSize name (value.getD []) else some (.ok, m)

def joinValues (valv : List CStr) : Option CStr := if valv = [] then none else some (List.intercalate [0x20] valv)

def fwSetenv (hooks : Hooks) (envSize : Nat) (validateParams : (Int → UInt8) → CStr → List CStr → Bool)
    (close : (Int → UInt8) → Int) (image : Option (Int → UInt8)) (argv : List CStr)
    : Option (Int × Option (WriteResult × (Int → UInt8))) :=
  match argv, image with
  | [], _ => some (-1, none)
  | _ :: _, none => some (-1, none)
  | name :: valv, some m =>
    if validateParams m name valv = false then
      some (-1, none)
    else
      match fwEnvWrite hooks envSize m name (joinValues valv) with
      | none => none
      | some (res, m) => some (close m, some (res, m))

end UBoot.FwEnv
