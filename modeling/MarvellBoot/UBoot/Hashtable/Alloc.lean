import MarvellBoot.UBoot.Hashtable.Impl

/-!
`hsearch_r` with `ENTER` when the copies of the key and of the data can fail. The strings of an entry may then be
`NULL`.
-/

namespace UBoot.Hashtable

structure NullEntry where
  key : Option CStr
  data : Option CStr
  flags : Nat
  deriving Repr, DecidableEq

structure NullSlot where
  used : Int
  entry : NullEntry
  deriving Repr, DecidableEq

structure NullTable where
  table : Nat → NullSlot
  size : Nat
  filled : Nat

structure NullState (σ : Type) where
  htab : NullTable
  statics : σ

def Entry.toNull (entry : Entry) : NullEntry := ⟨some entry.key, some entry.data, entry.flags⟩

def Slot.toNull (slot : Slot) : NullSlot := ⟨slot.used, slot.entry.toNull⟩

def HsearchData.toNull (htab : HsearchData) : NullTable :=
  { table := fun idx => (htab.table idx).toNull, size := htab.size, filled := htab.filled }

def State.toNull {σ : Type} (s : State σ) : NullState σ := ⟨s.htab.toNull, s.statics⟩

namespace NullTable

def setSlot (htab : NullTable) (idx : Nat) (slot : NullSlot) : NullTable :=
  { htab with table := Function.update htab.table idx slot }

def setData (htab : NullTable) (idx : Nat) (data : Option CStr) : NullTable :=
  htab.setSlot idx ⟨(htab.table idx).used, { (htab.table idx).entry with data }⟩

-- Whether the slot is the one of the key, `strcmp` has no result for `NULL`.
def compareEntry (htab : NullTable) (key : CStr) (hval idx : Nat) : Option Bool :=
  if (htab.table idx).used = hval then
    (htab.table idx).entry.key.map fun k => decide (key = k)
  else
    some false

def searchLoop (htab : NullTable) (key : CStr) (hval step : Nat) : (fuel idx : Nat) → Option (Nat ⊕ Nat)
  | 0, _ => none
  | fuel + 1, idx =>
    let idx := if idx ≤ step then htab.size + idx - step else idx - step
    if idx = hval then
      some (.inr idx)
    else
      match htab.compareEntry key hval idx with
      | none => none
      | some true => some (.inl idx)
      | some false =>
        if (htab.table idx).used ≠ 0 then
          searchLoop htab key hval step fuel idx
        else
          some (.inr idx)

def search (htab : NullTable) (key : CStr) : Option (Nat ⊕ Nat × Nat) :=
  let hval := hval1 htab.size key
  let used := (htab.table hval).used
  if used ≠ 0 then
    match htab.compareEntry key hval hval with
    | none => none
    | some true => some (.inl hval)
    | some false =>
      (htab.searchLoop key hval (hval2 htab.size hval) htab.size hval).map
        (Sum.map id fun idx => (if used = -1 then hval else 0, idx))
  else
    some (.inr (0, hval))

def find (htab : NullTable) (key : CStr) : Option (Option (Option CStr)) :=
  (htab.search key).map fun
    | .inl idx => some (htab.table idx).entry.data
    | .inr _ => none

def entries (htab : NullTable) : List (Option CStr × Option CStr) :=
  (List.range' 1 htab.size).filterMap fun i =>
    if 0 < (htab.table i).used then some ((htab.table i).entry.key, (htab.table i).entry.data) else none

end NullTable

def strdup (ok : Bool) (s : CStr) : Option CStr := if ok then some s else none

section

variable {σ : Type} (hooks : Hooks σ) (keyOk dataOk : Bool) (key data : CStr) (flag : Nat)

def overwriteAlloc (idx : Nat) (s : State σ) : Option (Result × NullState σ) :=
  if hooks.changeOk (s.htab.table idx).entry (some data) .overwrite flag = false then
    some (.error .eperm, s.toNull)
  else
    match hooks.callback s.statics s.htab key (some data) .overwrite flag with
    | none => none
    | some none => some (.error .einval, s.toNull)
    | some (some (htab, statics)) =>
      match strdup dataOk data with
      | none => some (.error .enomem, ⟨htab.toNull.setData idx none, statics⟩)
      | some data => some (.ok (idx, idx), ⟨(htab.setData idx data).toNull, statics⟩)

def enterNewAlloc (hval firstDeleted idx : Nat) (s : State σ) : Option (Result × NullState σ) :=
  if s.htab.filled = s.htab.size then
    some (.error .enomem, s.toNull)
  else
    let idx := if firstDeleted ≠ 0 then firstDeleted else idx
    match strdup keyOk key, strdup dataOk data with
    | some key, some data =>
      (register hooks key data flag idx ⟨insertSlot s.htab hval idx key data, s.statics⟩).map (Prod.map id State.toNull)
    | key, data =>
      some (.error .enomem, ⟨s.htab.toNull.setSlot idx ⟨hval, ⟨key, data, (s.htab.table idx).entry.flags⟩⟩, s.statics⟩)

def hsearchAllocR (s : State σ) : Option (Result × NullState σ) :=
  match s.htab.toNull.search key with
  | none => none
  | some (.inl idx) => overwriteAlloc hooks dataOk key data flag idx s
  | some (.inr (firstDeleted, idx)) =>
    enterNewAlloc hooks keyOk dataOk key data flag (hval1 s.htab.size key) firstDeleted idx s

end

end UBoot.Hashtable
