import MarvellBoot.UBoot.EnvFlags.Impl

/-!
The lookup in an attribute list without regular expressions, `common/env_attr.c` without `CONFIG_REGEX`. The walk over
the list is the one of `EnvFlags`.
-/

namespace UBoot.EnvAttr

open Hashtable EnvFlags

def space : UInt8 := 0x20

def strstrLoop (pat : CStr) : (s : CStr) → (pos : Nat) → Option Nat
  | [], pos => if pat = [] then some pos else none
  | c :: s, pos => if pat <+: c :: s then some pos else strstrLoop pat s (pos + 1)

def strstr (s pat : CStr) (cur : Nat) : Option Nat := strstrLoop pat (s.drop cur) cur

-- The character before a position and the spaces before it. There is none when the loop stops in front of the list, the
-- character that it reads there does not count.
def prevch (searched : CStr) (pos : Nat) : Option UInt8 := ((searched.take pos).reverse.dropWhile (· = space)).head?

def nextch (searched : CStr) (pos : Nat) : UInt8 := ((searched.drop pos).dropWhile (· = space)).headD 0

def isExactMatch (searched searchFor : CStr) (pos : Nat) : Bool :=
  (pos = 0 ∨ prevch searched pos = some envAttrListDelim ∨ prevch searched pos = none)
    ∧ (nextch searched (pos + searchFor.length) = envAttrSep
      ∨ nextch searched (pos + searchFor.length) = envAttrListDelim ∨ nextch searched (pos + searchFor.length) = 0)

def reverseSearchLoop (searched searchFor : CStr) : (fuel cur : Nat) → (result : Option Nat) → Option (Option Nat)
  | 0, _, _ => none
  | fuel + 1, cur, result =>
    match strstr searched searchFor cur with
    | none => some result
    | some pos =>
      reverseSearchLoop searched searchFor fuel (pos + 1)
        (if isExactMatch searched searchFor pos then some pos else result)

def reverseNameSearch (searched searchFor : CStr) : Option (Option Nat × Nat) :=
  if searchFor = [] then
    some (some 0, searched.length)
  else
    (reverseSearchLoop searched searchFor (searched.length + 1) 0 none).map fun result =>
      (result, if result.isSome then searchFor.length else 0)

def entryAttributes (entry : CStr) : CStr :=
  match entry.dropWhile (· = space) with
  | [] => []
  | c :: entry =>
    if c ≠ envAttrSep then
      []
    else
      (entry.dropWhile (· = space)).takeWhile fun c => c ≠ envAttrListDelim ∧ c ≠ space

inductive Errno where
  | einval
  | enoent
  deriving Repr, DecidableEq

def envAttrLookup (attrList : Option CStr) (name : CStr) (attributes : Bool) : Option (Except Errno CStr) :=
  if attributes = false then
    some (.error .einval)
  else
    match attrList with
    | none => some (.error .einval)
    | some attrList =>
      match reverseNameSearch attrList name with
      | none => none
      | some (none, _) => some (.error .enoent)
      | some (some entry, entryLen) => some (.ok (entryAttributes (attrList.drop (entry + entryLen))))

end UBoot.EnvAttr
