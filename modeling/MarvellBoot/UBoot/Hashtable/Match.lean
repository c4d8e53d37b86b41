import MarvellBoot.UBoot.Hashtable.Linear

/-!
The entries a pattern selects: the filter of `hexport_r` and the enumeration with `hmatch_r`.
-/

namespace UBoot.Hashtable

def fullStop : UInt8 := 0x2e

def hHideDot (flag : Nat) : Bool := flag.testBit 3
def hMatchKey (flag : Nat) : Bool := flag.testBit 4
def hMatchData (flag : Nat) : Bool := flag.testBit 5

inductive MatchMethod where
  | ident
  | substr
  | regex
  deriving Repr, DecidableEq

def matchMethod (flag : Nat) : Option MatchMethod :=
  match flag.testBit 6, flag.testBit 7, flag.testBit 8 with
  | true, false, false => some .ident
  | false, true, false => some .substr
  | false, false, true => some .regex
  | _, _, _ => none

def matchString (flag : Nat) (str pat : CStr) (slreMatch : CStr → Bool) : Bool :=
  match matchMethod flag with
  | some .ident => str = pat
  | some .substr => pat <:+: str
  | some .regex => slreMatch str
  | none => false

section

-- What a pattern compiles to, there is nothing when it is not a regular expression.
variable (slreCompile : CStr → Option (CStr → Bool))

def matchEntry (entry : Entry) (flag : Nat) : (argv : List CStr) → Bool
  | [] => false
  | arg :: argv =>
    match slreCompile arg with
    | none => false
    | some slreMatch =>
      if hMatchKey flag && matchString flag entry.key arg slreMatch then
        true
      else if hMatchData flag && matchString flag entry.data arg slreMatch then
        true
      else
        matchEntry entry flag argv

def isExported (flag : Nat) (argv : List CStr) (entry : Entry) : Bool :=
  (argv.isEmpty || matchEntry slreCompile entry flag argv) && !(hHideDot flag && entry.key.head? == some fullStop)

def exportList (htab : HsearchData) (flag : Nat) (argv : List CStr) : List Entry :=
  htab.entries.filter (isExported slreCompile flag argv)

structure ExportBuffer where
  size : Nat
  written : List UInt8
  deriving DecidableEq

def hexportFilterR (qsort : List Entry → List Entry) (htab : HsearchData) (sep : UInt8) (flag size : Nat)
    (argv : List CStr) : Except Errno ExportBuffer :=
  let list := exportList slreCompile htab flag argv
  let totlen := (list.map (entryRoom sep)).sum
  if size ≠ 0 ∧ size < totlen + 1 then
    .error .enomem
  else
    .ok {
      size := if size ≠ 0 then size else totlen + 1
      written := (qsort list).flatMap (exportEntry sep) ++ [0]
    }

end

def matchLoop (htab : HsearchData) (pat : CStr) : (left idx : Nat) → Nat
  | 0, _ => 0
  | left + 1, idx =>
    if 0 < (htab.table idx).used ∧ pat <+: (htab.table idx).entry.key then
      idx
    else
      matchLoop htab pat left (idx + 1)

def hmatchR (pat : CStr) (lastIdx : Nat) (htab : HsearchData) : Nat :=
  matchLoop htab pat (htab.size - (lastIdx + 1)) (lastIdx + 1)

def matchAll (htab : HsearchData) (pat : CStr) : (fuel idx : Nat) → Option (List Nat)
  | 0, _ => none
  | fuel + 1, idx =>
    if hmatchR pat idx htab = 0 then
      some []
    else
      (matchAll htab pat fuel (hmatchR pat idx htab)).map (hmatchR pat idx htab :: ·)

end UBoot.Hashtable
