import Mathlib

/-!
The hash table of the environment, `lib/hashtable.c`. Strings are lists of bytes without the
terminating NUL.
-/

namespace UBoot.Hashtable

abbrev CStr := List UInt8

structure Entry where
  key : CStr
  data : CStr
  flags : Nat
  deriving Repr, DecidableEq

structure Slot where
  used : Int
  entry : Entry
  deriving Repr, DecidableEq

-- The table has `size + 1` slots, the one at index `0` is not used.
structure HsearchData where
  table : Nat → Slot
  size : Nat
  filled : Nat

inductive Action where
  | find
  | enter (data : CStr)

inductive EnvOp where
  | create
  | delete
  | overwrite
  deriving Repr, DecidableEq

inductive Errno where
  | einval
  | eperm
  | enomem
  | esrch
  deriving Repr, DecidableEq

/--
What the table calls: `env_flags_init`, `change_ok` (`true` for approval) and the callback of an entry, which
leaves no table when it rejects the change. `σ` are the static variables of these functions.
-/
structure Hooks (σ : Type) where
  envFlagsInit : σ → HsearchData → Entry → Option (Nat × σ)
  changeOk : Entry → Option CStr → EnvOp → Nat → Bool
  callback : σ → HsearchData → CStr → Option CStr → EnvOp → Nat → Option (Option (HsearchData × σ))

def plainHooks : Hooks Unit where
  envFlagsInit statics _ entry := some (entry.flags, statics)
  changeOk _ _ _ _ := true
  callback statics htab _ _ _ _ := some (some (htab, statics))

structure State (σ : Type) where
  htab : HsearchData
  statics : σ

def isprimeFrom (number div : Nat) : Bool :=
  if div * div < number ∧ number % div ≠ 0 then
    isprimeFrom number (div + 2)
  else
    number % div ≠ 0
termination_by number - div
decreasing_by
  have := Nat.le_mul_self div
  omega

def isprime (number : Nat) : Bool := isprimeFrom number 3

def firstPrime : (fuel nel : Nat) → Option Nat
  | 0, _ => none
  | fuel + 1, nel => if isprime nel then some nel else firstPrime fuel (nel + 2)

def emptySlot : Slot := ⟨0, ⟨[], [], 0⟩⟩

def hcreateR (nel : Nat) : Option HsearchData :=
  match firstPrime (nel + 3) (nel ||| 1) with
  | none => none
  | some size => some { table := fun _ => emptySlot, size, filled := 0 }

def hash (key : CStr) : Nat := key.foldr (fun c hval => (hval * 16 + c.toNat) % 2 ^ 32) (key.length % 2 ^ 32)

def hval1 (size : Nat) (key : CStr) : Nat := if hash key % size = 0 then 1 else hash key % size

def hval2 (size hval : Nat) : Nat := 1 + hval % (size - 2)

def HsearchData.setSlot (htab : HsearchData) (idx : Nat) (slot : Slot) : HsearchData :=
  { htab with table := Function.update htab.table idx slot }

def HsearchData.setData (htab : HsearchData) (idx : Nat) (data : CStr) : HsearchData :=
  htab.setSlot idx ⟨(htab.table idx).used, { (htab.table idx).entry with data }⟩

def HsearchData.setFlags (htab : HsearchData) (idx : Nat) (flags : Nat) : HsearchData :=
  htab.setSlot idx ⟨(htab.table idx).used, { (htab.table idx).entry with flags }⟩

def insertSlot (htab : HsearchData) (hval idx : Nat) (key data : CStr) : HsearchData :=
  { htab.setSlot idx ⟨hval, { (htab.table idx).entry with key, data }⟩ with filled := htab.filled + 1 }

def deleteSlot (htab : HsearchData) (idx : Nat) : HsearchData :=
  { htab.setSlot idx ⟨-1, { (htab.table idx).entry with flags := 0 }⟩ with filled := htab.filled - 1 }

abbrev Result := Except Errno (Nat × Nat)

section

variable {σ : Type} (hooks : Hooks σ) (key : CStr) (action : Action) (flag : Nat)

def overwriteEntry (idx : Nat) (s : State σ) : Option (Result × State σ) :=
  match action with
  | .find => some (.ok (idx, idx), s)
  | .enter data =>
    if hooks.changeOk (s.htab.table idx).entry (some data) .overwrite flag = false then
      some (.error .eperm, s)
    else
      match hooks.callback s.statics s.htab key (some data) .overwrite flag with
      | none => none
      | some none => some (.error .einval, s)
      | some (some (htab, statics)) => some (.ok (idx, idx), ⟨htab.setData idx data, statics⟩)

def compareAndOverwriteEntry (hval idx : Nat) (s : State σ) : Option (Option (Result × State σ)) :=
  if (s.htab.table idx).used = hval ∧ key = (s.htab.table idx).entry.key then
    some (overwriteEntry hooks key action flag idx s)
  else
    none

def searchLoop (hval step : Nat) (s : State σ) : (fuel idx : Nat) → Option (Option (Result × State σ) ⊕ Nat)
  | 0, _ => none
  | fuel + 1, idx =>
    let idx := if idx ≤ step then s.htab.size + idx - step else idx - step
    if idx = hval then
      some (.inr idx)
    else
      match compareAndOverwriteEntry hooks key action flag hval idx s with
      | some res => some (.inl res)
      | none =>
        if (s.htab.table idx).used ≠ 0 then
          searchLoop hval step s fuel idx
        else
          some (.inr idx)

def register (hooks : Hooks σ) (key data : CStr) (flag idx : Nat) (s : State σ) : Option (Result × State σ) :=
  match hooks.envFlagsInit s.statics s.htab (s.htab.table idx).entry with
  | none => none
  | some (flags, statics) =>
    let htab := s.htab.setFlags idx flags
    if hooks.changeOk (htab.table idx).entry (some data) .create flag = false then
      some (.error .eperm, ⟨deleteSlot htab idx, statics⟩)
    else
      match hooks.callback statics htab key (some data) .create flag with
      | none => none
      | some none => some (.error .einval, ⟨deleteSlot htab idx, statics⟩)
      | some (some (htab, statics)) => some (.ok (1, idx), ⟨htab, statics⟩)

def enterNew (hval firstDeleted idx : Nat) (s : State σ) : Option (Result × State σ) :=
  match action with
  | .find => some (.error .esrch, s)
  | .enter data =>
    if s.htab.filled = s.htab.size then
      some (.error .enomem, s)
    else
      let idx := if firstDeleted ≠ 0 then firstDeleted else idx
      register hooks key data flag idx ⟨insertSlot s.htab hval idx key data, s.statics⟩

def hsearchR (s : State σ) : Option (Result × State σ) :=
  let size := s.htab.size
  let hval := hval1 size key
  let used := (s.htab.table hval).used
  if used ≠ 0 then
    let firstDeleted := if used = -1 then hval else 0
    match compareAndOverwriteEntry hooks key action flag hval hval s with
    | some res => res
    | none =>
      match searchLoop hooks key action flag hval (hval2 size hval) s size hval with
      | none => none
      | some (.inl res) => res
      | some (.inr idx) => enterNew hooks key action flag hval firstDeleted idx s
  else
    enterNew hooks key action flag hval 0 hval s

def hdeleteR (s : State σ) : Option (Except Errno Unit × State σ) :=
  match hsearchR hooks key .find 0 s with
  | none => none
  | some (.error _, s) => some (.error .esrch, s)
  | some (.ok (idx, _), s) =>
    if hooks.changeOk (s.htab.table idx).entry none .delete flag = false then
      some (.error .eperm, s)
    else
      match hooks.callback s.statics s.htab key none .delete flag with
      | none => none
      | some none => some (.error .einval, s)
      | some (some (htab, statics)) => some (.ok (), ⟨deleteSlot htab idx, statics⟩)

end

def walkSlots (callback : Entry → Int × Entry) : (slots : List Nat) → HsearchData → Int × HsearchData
  | [], htab => (0, htab)
  | i :: slots, htab =>
    if 0 < (htab.table i).used then
      let (retval, entry) := callback (htab.table i).entry
      let htab := htab.setSlot i ⟨(htab.table i).used, entry⟩
      if retval ≠ 0 then (retval, htab) else walkSlots callback slots htab
    else
      walkSlots callback slots htab

def hwalkR (htab : HsearchData) (callback : Entry → Int × Entry) : Int × HsearchData :=
  walkSlots callback (List.range' 1 htab.size) htab

end UBoot.Hashtable
