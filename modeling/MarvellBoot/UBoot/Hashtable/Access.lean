import MarvellBoot.UBoot.Hashtable.Linear

/-!
The indices of the copy that `himport_r` reads and writes.
-/

namespace UBoot.Hashtable

open Mem Loop

def scanTouched (p : UInt8 → Bool) (m : Int → UInt8) : (fuel : Nat) → (dp : Int) → List Int
  | 0, _ => []
  | fuel + 1, dp => dp :: if p (m dp) then scanTouched p m fuel (dp + 1) else []

def strTouched (m : Int → UInt8) (fuel : Nat) (a : Int) : List Int := scanTouched (fun c => c ≠ 0) m fuel a

def valueTouched (sep : UInt8) : (fuel : Nat) → (m : Int → UInt8) → (sp dp : Int) → List Int
  | 0, _, _, _ => []
  | fuel + 1, m, sp, dp =>
    dp :: if m dp ≠ 0 ∧ m dp ≠ sep then
      let ahead := if m dp = backslash then [dp + 1] else []
      let dp := if m dp = backslash ∧ m (dp + 1) ≠ 0 then dp + 1 else dp
      ahead ++ [dp, sp] ++ valueTouched sep fuel (store m sp [m dp]) (sp + 1) (dp + 1)
    else
      []

def crsTouched (size : Nat) : (fuel : Nat) → (m : Int → UInt8) → (dp ignoredCrs : Nat) → List Int
  | 0, _, _, _ => []
  | fuel + 1, m, dp, ignoredCrs =>
    if dp < size then
      (dp : Int) :: if m dp ≠ 0 then
        let ahead : List Int := if m dp = carriageReturn ∧ dp + 1 < size then [dp + 1] else []
        ahead ++ if m dp = carriageReturn ∧ dp + 1 < size ∧ m (dp + 1) = lineFeed then
          crsTouched size fuel m (dp + 1) (ignoredCrs + 1)
        else
          (dp - ignoredCrs : Int) :: crsTouched size fuel (store m (dp - ignoredCrs) [m dp]) (dp + 1) ignoredCrs
      else
        []
    else
      []

section

variable {σ : Type} (hooks : Hooks σ) (sep : UInt8) (flag fuel size : Nat)

def nextTouched (dp : Int) : List Int := if dp < size then [dp] else []

def deleteTouched (name : Int) (t : ImportState σ) : List Int :=
  let (m, dp) := if t.m t.dp = equalSign then (store t.m t.dp [0], t.dp + 1) else (t.m, t.dp)
  [t.dp, dp] ++ strTouched (store m dp [0]) fuel name ++ nextTouched size (dp + 1)

def enterTouched (name : Int) (t : ImportState σ) : List Int :=
  let m := store t.m t.dp [0]
  let value := t.dp + 1
  t.dp :: valueTouched sep fuel m value value ++
    match parseValue sep fuel m value value with
    | none => []
    | some (m, sp, dp) =>
      let m := store m sp [0]
      [sp, name] ++ strTouched m fuel name ++ strTouched m fuel value ++ nextTouched size (dp + 1)

def bodyTouched (t : ImportState σ) : List Int :=
  scanTouched isblank t.m fuel t.dp ++
    match scanWhile isblank t.m fuel t.dp with
    | none => []
    | some dp =>
      dp :: if t.m dp = numberSign then
        scanTouched (fun c => c ≠ 0 ∧ c ≠ sep) t.m fuel dp ++
          match scanWhile (fun c => c ≠ 0 ∧ c ≠ sep) t.m fuel dp with
          | none => []
          | some dp => nextTouched size (dp + 1)
      else
        scanTouched (fun c => c ≠ equalSign ∧ c ≠ 0 ∧ c ≠ sep) t.m fuel dp ++
          match scanWhile (fun c => c ≠ equalSign ∧ c ≠ 0 ∧ c ≠ sep) t.m fuel dp with
          | none => []
          | some stop =>
            -- the next character is looked at only before the end
            stop :: (if t.m stop = 0 then [] else [stop + 1]) ++
              if t.m stop = 0 ∨ t.m (stop + 1) = 0 ∨ t.m stop = sep ∨ t.m (stop + 1) = sep then
                deleteTouched fuel size dp { t with dp := stop }
              else
                enterTouched sep fuel size dp { t with dp := stop }

def loopTouched : (loops : Nat) → ImportState σ → List Int
  | 0, _ => []
  | loops + 1, t =>
    bodyTouched sep fuel size t ++
      match importBody hooks sep flag fuel size t with
      | some (.again t) => loopTouched loops t
      | _ => []

def himportTouched (table : Option HsearchData) (statics : σ) (env : List UInt8) (crlfIsLf : Bool)
    (vars : List (Option CStr)) : List Int :=
  let size := env.length
  let m := store (fun _ => 0) 0 env
  let table := if hNoclear flag = false then none else table
  match (match table with
    | some htab => some htab
    | none => hcreateR (nent size)) with
  | none => []
  | some htab =>
    if size = 0 then
      []
    else
      (if crlfIsLf then crsTouched size (size + 1) m 0 0 else []) ++
        match (if crlfIsLf then removeCrs size (size + 1) m 0 0 else some (m, 0)) with
        | none => []
        | some (m, ignoredCrs) =>
          let size := size - ignoredCrs
          loopTouched hooks sep flag (env.length + 2) size (size + 1) ⟨m, 0, vars, ⟨htab, statics⟩⟩

end

end UBoot.Hashtable
