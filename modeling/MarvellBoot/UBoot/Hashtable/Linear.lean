import MarvellBoot.Lib.Loop
import MarvellBoot.Lib.Mem
import MarvellBoot.UBoot.Hashtable.Impl

/-!
The table in linearized form, `hexport_r` and `himport_r`.
-/

namespace UBoot.Hashtable

open Mem Loop

def backslash : UInt8 := 0x5c
def equalSign : UInt8 := 0x3d
def numberSign : UInt8 := 0x23
def carriageReturn : UInt8 := 0x0d
def lineFeed : UInt8 := 0x0a

def isblank (c : UInt8) : Bool := c = 0x20 ∨ c = 0x09

def HsearchData.entries (htab : HsearchData) : List Entry :=
  (List.range' 1 htab.size).filterMap fun i =>
    if 0 < (htab.table i).used then some (htab.table i).entry else none

def needsEscape (sep c : UInt8) : Bool := c = sep ∨ c = backslash

def entryRoom (sep : UInt8) (entry : Entry) : Nat :=
  let data := if sep = 0 then entry.data.length
    else entry.data.length + entry.data.countP (needsEscape sep)
  entry.key.length + 2 + data + 2

def escape (sep : UInt8) (data : CStr) : List UInt8 :=
  data.flatMap fun c => if needsEscape sep c then [backslash, c] else [c]

def exportEntry (sep : UInt8) (entry : Entry) : List UInt8 := entry.key ++ [equalSign] ++ escape sep entry.data ++ [sep]

def hexportR (qsort : List Entry → List Entry) (htab : HsearchData) (sep : UInt8) (size : Nat)
    : Except Errno (List UInt8) :=
  let list := htab.entries
  let totlen := (list.map (entryRoom sep)).sum
  if size ≠ 0 ∧ size < totlen + 1 then
    .error .enomem
  else
    let size := if size ≠ 0 then size else totlen + 1
    let text := (qsort list).flatMap (exportEntry sep)
    -- nothing stops the text at the end of the cleared buffer, whose `size` bytes are the result
    .ok ((text ++ List.replicate (size - text.length) 0).take size)

def dropVarFromSet (name : CStr) (vars : List (Option CStr)) : Bool × List (Option CStr) :=
  if vars = [] then
    (true, vars)
  else
    (some name ∈ vars, vars.map fun var => if var = some name then none else var)

def strAt (m : Int → UInt8) : (fuel : Nat) → (a : Int) → CStr
  | 0, _ => []
  | fuel + 1, a => if m a = 0 then [] else m a :: strAt m fuel (a + 1)

def scanWhile (p : UInt8 → Bool) (m : Int → UInt8) : (fuel : Nat) → (dp : Int) → Option Int
  | 0, _ => none
  | fuel + 1, dp => if p (m dp) then scanWhile p m fuel (dp + 1) else some dp

def parseValue (sep : UInt8) : (fuel : Nat) → (m : Int → UInt8) → (sp dp : Int)
    → Option ((Int → UInt8) × Int × Int)
  | 0, _, _, _ => none
  | fuel + 1, m, sp, dp =>
    if m dp ≠ 0 ∧ m dp ≠ sep then
      let dp := if m dp = backslash ∧ m (dp + 1) ≠ 0 then dp + 1 else dp
      parseValue sep fuel (store m sp [m dp]) (sp + 1) (dp + 1)
    else
      some (m, sp, dp)

def removeCrs (size : Nat) : (fuel : Nat) → (m : Int → UInt8) → (dp ignoredCrs : Nat)
    → Option ((Int → UInt8) × Nat)
  | 0, _, _, _ => none
  | fuel + 1, m, dp, ignoredCrs =>
    if dp < size ∧ m dp ≠ 0 then
      if m dp = carriageReturn ∧ dp + 1 < size ∧ m (dp + 1) = lineFeed then
        removeCrs size fuel m (dp + 1) (ignoredCrs + 1)
      else
        removeCrs size fuel (store m (dp - ignoredCrs) [m dp]) (dp + 1) ignoredCrs
    else
      some (m, ignoredCrs)

structure ImportState (σ : Type) where
  m : Int → UInt8
  dp : Int
  localvars : List (Option CStr)
  s : State σ

section

variable {σ : Type} (hooks : Hooks σ) (sep : UInt8) (flag fuel size : Nat)

def importNext (t : ImportState σ) : Next (ImportState σ) (Bool × ImportState σ) :=
  if t.dp < size ∧ t.m t.dp ≠ 0 then .again t else .done (true, t)

def importDelete (name : Int) (t : ImportState σ) : Option (Next (ImportState σ) (Bool × ImportState σ)) :=
  let (m, dp) := if t.m t.dp = equalSign then (store t.m t.dp [0], t.dp + 1) else (t.m, t.dp)
  let m := store m dp [0]
  let key := strAt m fuel name
  let (drop, localvars) := dropVarFromSet key t.localvars
  if drop = false then
    some (importNext size ⟨m, dp + 1, localvars, t.s⟩)
  else
    match hdeleteR hooks key flag t.s with
    | none => none
    | some (_, s) => some (importNext size ⟨m, dp + 1, localvars, s⟩)

def importEnter (name : Int) (t : ImportState σ) : Option (Next (ImportState σ) (Bool × ImportState σ)) :=
  let m := store t.m t.dp [0]
  let value := t.dp + 1
  match parseValue sep fuel m value value with
  | none => none
  | some (m, sp, dp) =>
    let m := store m sp [0]
    let t := { t with m, dp := dp + 1 }
    if m name = 0 then
      some (.done (false, t))
    else
      let key := strAt m fuel name
      let (drop, localvars) := dropVarFromSet key t.localvars
      if drop = false then
        some (importNext size { t with localvars })
      else
        match hsearchR hooks key (.enter (strAt m fuel value)) flag t.s with
        | none => none
        | some (_, s) => some (importNext size { t with localvars, s })

def importBody (t : ImportState σ) : Option (Next (ImportState σ) (Bool × ImportState σ)) :=
  match scanWhile isblank t.m fuel t.dp with
  | none => none
  | some dp =>
    if t.m dp = numberSign then
      match scanWhile (fun c => c ≠ 0 ∧ c ≠ sep) t.m fuel dp with
      | none => none
      | some dp => some (importNext size { t with dp := dp + 1 })
    else
      match scanWhile (fun c => c ≠ equalSign ∧ c ≠ 0 ∧ c ≠ sep) t.m fuel dp with
      | none => none
      | some stop =>
        if t.m stop = 0 ∨ t.m (stop + 1) = 0 ∨ t.m stop = sep ∨ t.m (stop + 1) = sep then
          importDelete hooks flag fuel size dp { t with dp := stop }
        else
          importEnter hooks sep flag fuel size dp { t with dp := stop }

def deleteVars : (vars : List (Option CStr)) → State σ → Option (State σ)
  | [], s => some s
  | none :: vars, s => deleteVars vars s
  | some name :: vars, s =>
    match hdeleteR hooks name flag s with
    | none => none
    | some (_, s) => deleteVars vars s

def configEnvMinEntries : Nat := 64
def configEnvMaxEntries : Nat := 512

def nent : Nat := min (configEnvMinEntries + size / 8) configEnvMaxEntries

def hNoclear : Bool := flag.testBit 0

def himportR (table : Option HsearchData) (statics : σ) (env : List UInt8) (crlfIsLf : Bool)
    (vars : List (Option CStr)) : Option (Bool × State σ) :=
  let size := env.length
  let m := store (fun _ => 0) 0 env
  let table := if hNoclear flag = false then none else table
  match (match table with
    | some htab => some htab
    | none => hcreateR (nent size)) with
  | none => none
  | some htab =>
    if size = 0 then
      some (true, ⟨htab, statics⟩)
    else
      match (if crlfIsLf then removeCrs size (size + 1) m 0 0 else some (m, 0)) with
      | none => none
      | some (m, ignoredCrs) =>
        let size := size - ignoredCrs
        match runM (importBody hooks sep flag (env.length + 2) size) (size + 1) ⟨m, 0, vars, ⟨htab, statics⟩⟩ with
        | none => none
        | some (false, t) => some (false, t.s)
        | some (true, t) =>
          match deleteVars hooks flag t.localvars t.s with
          | none => none
          | some s => some (true, s)

end

end UBoot.Hashtable
