import MarvellBoot.UBoot.Hashtable.Impl

/-!
The flags of the variables, `common/env_flags.c` and `common/env_attr.c` with `CONFIG_REGEX` and
`CONFIG_CMD_NET`.
-/

namespace UBoot.EnvFlags

open Hashtable

def envAttrListDelim : UInt8 := 0x2c
def envAttrSep : UInt8 := 0x3a

-- ".flags"
def envFlagsVar : CStr := [0x2e, 0x66, 0x6c, 0x61, 0x67, 0x73]

def envFlagsAttrMaxLen : Nat := 2

def isspace (c : UInt8) : Bool := c = 0x20 ∨ (0x09 ≤ c ∧ c ≤ 0x0d) ∨ c = 0xa0

def strim (s : CStr) : CStr := ((s.dropWhile isspace).reverse.dropWhile isspace).reverse

def parseEntry (entry : CStr) : Option (CStr × Option CStr) :=
  let name := strim (entry.takeWhile (· ≠ envAttrSep))
  let attributes := if envAttrSep ∈ entry then some (strim ((entry.dropWhile (· ≠ envAttrSep)).drop 1)) else none
  if name = [] then none else some (name, attributes)

def attrEntries (attrList : CStr) : List (CStr × Option CStr) :=
  (attrList.splitOn envAttrListDelim).filterMap parseEntry

section

variable {τ : Type} (callback : CStr → Option CStr → τ → Option (Int × τ))

def walkEntries : List (CStr × Option CStr) → τ → Option (Int × τ)
  | [], priv => some (0, priv)
  | (name, attributes) :: entries, priv =>
    match callback name attributes priv with
    | none => none
    | some (retval, priv) => if retval ≠ 0 then some (retval, priv) else walkEntries entries priv

def envAttrWalk (attrList : Option CStr) (priv : τ) : Option (Int × τ) :=
  match attrList with
  | none => some (1, priv)
  | some attrList => walkEntries callback (attrEntries attrList) priv

end

section

-- Whether the expression describes the whole name, no result when it does not compile.
variable (slre : CStr → CStr → Option Bool)

def einval : Int := 22

-- There is no result when the attributes are `NULL`.
def regexCallback (searchedFor name : CStr) (attributes : Option CStr) (found : Option CStr)
    : Option (Int × Option CStr) :=
  match slre name searchedFor with
  | none => some (einval, found)
  | some false => some (0, found)
  | some true =>
    match attributes with
    | none => none
    | some attributes => some (0, some attributes)

-- The attributes if the name is found, no result when they do not fit into the caller's array.
def envAttrLookup (attrList name : CStr) : Option (Option CStr) :=
  match envAttrWalk (regexCallback slre name) (some attrList) none with
  | none => none
  | some (retval, found) =>
    if retval ≠ 0 then
      some none
    else
      match found with
      | none => some none
      | some attributes =>
        if attributes.length ≤ envFlagsAttrMaxLen then some (some attributes) else none

def envFlagsLookup (listStatic : CStr) (flagsList : Option CStr) (name : CStr) : Option (Option CStr) :=
  match (match flagsList with
    | none => some none
    | some flagsList => envAttrLookup slre flagsList name) with
  | none => none
  | some (some flags) => some (some flags)
  | some none => envAttrLookup slre listStatic name

end

-- "sdxbim"
def envFlagsVartypeRep : List UInt8 := [0x73, 0x64, 0x78, 0x62, 0x69, 0x6d]
-- "aroc"
def envFlagsVaraccessRep : List UInt8 := [0x61, 0x72, 0x6f, 0x63]

def preventDelete : Nat := 0x08
def preventCreate : Nat := 0x10
def preventOverwr : Nat := 0x20
def preventNondefOverwr : Nat := 0x40

def envFlagsVaraccessMask : List Nat :=
  [0, preventDelete ||| preventCreate ||| preventOverwr, preventDelete ||| preventOverwr,
    preventDelete ||| preventNondefOverwr]

def parseFlag (rep : List UInt8) (flags : CStr) (loc : Nat) : Nat :=
  match flags[loc]? with
  | none => 0
  | some c => if c ∈ rep then rep.idxOf c else 0

def envFlagsParseVartype (flags : CStr) : Nat := parseFlag envFlagsVartypeRep flags 0
def envFlagsParseVaraccess (flags : CStr) : Nat := parseFlag envFlagsVaraccessRep flags 1

def envParseFlagsToBin (flags : CStr) : Nat :=
  (envFlagsParseVartype flags &&& 7) ||| envFlagsVaraccessMask.getD (envFlagsParseVaraccess flags) 0

def getenv (htab : HsearchData) (name : CStr) : Option CStr :=
  match hsearchR plainHooks name .find 0 ⟨htab, ()⟩ with
  | some (.ok (_, idx), _) => some (htab.table idx).entry.data
  | _ => none

-- `flagsList` is the text that `flags_list` points to, `freed` when that text is gone.
structure Statics where
  firstCall : Bool
  flagsList : Option CStr
  freed : Bool
  deriving Repr, DecidableEq

def Statics.readList (statics : Statics) : Option (Option CStr) :=
  if statics.freed ∧ statics.flagsList.isSome then none else some statics.flagsList

def Statics.release (statics : Statics) (op : EnvOp) : Statics :=
  if op = .create then statics else { statics with freed := true }

def envFlagsInit (slre : CStr → CStr → Option Bool) (listStatic : CStr) (statics : Statics)
    (htab : HsearchData) (entry : Entry) : Option (Nat × Statics) :=
  let statics := if statics.firstCall then ⟨false, getenv htab envFlagsVar, false⟩ else statics
  match statics.readList with
  | none => none
  | some flagsList =>
    match envFlagsLookup slre listStatic flagsList entry.key with
    | none => none
    | some (some flags) =>
      some (if flags.length ≠ 0 then envParseFlagsToBin flags else entry.flags, statics)
    | some none => some (entry.flags, statics)

def clearFlags (entry : Entry) : Int × Entry := (0, { entry with flags := 0 })

def attrFlags (value : Option CStr) : Nat :=
  match value with
  | none => 0
  | some value => if value.length = 0 then 0 else envParseFlagsToBin value

def setFlags (name : CStr) (value : Option CStr) (htab : HsearchData) : Option (Int × HsearchData) :=
  match hsearchR plainHooks name .find 0 ⟨htab, ()⟩ with
  | none => none
  | some (.ok (_, idx), _) => some (0, htab.setFlags idx (attrFlags value))
  | some (.error _, _) => some (0, htab)

def onFlags (listStatic : CStr) (value : Option CStr) (htab : HsearchData) : Option HsearchData :=
  let (_, htab) := hwalkR htab clearFlags
  match envAttrWalk setFlags (some listStatic) htab with
  | none => none
  | some (_, htab) =>
    match envAttrWalk setFlags value htab with
    | none => none
    | some (_, htab) => some htab

def isdigit (c : UInt8) : Bool := 0x30 ≤ c ∧ c ≤ 0x39
def isxdigit (c : UInt8) : Bool := isdigit c ∨ (0x41 ≤ c ∧ c ≤ 0x46) ∨ (0x61 ≤ c ∧ c ≤ 0x66)

def isHexPrefix : CStr → Bool
  | c :: d :: _ => c = 0x30 ∧ (d = 0x78 ∨ d = 0x58)
  | _ => false

def skipNum (hex : Bool) (value : CStr) (maxDigits : Option Nat) : CStr :=
  let value := if hex ∧ isHexPrefix value then value.drop 2 else value
  let digits := (value.takeWhile (if hex then isxdigit else isdigit)).length
  value.drop (match maxDigits with
    | none => digits
    | some maxDigits => min maxDigits digits)

def validateParts (hex : Bool) (maxDigits : Nat) (sep : UInt8) : Nat → CStr → Bool
  | 0, _ => true
  | parts + 1, cur =>
    let rest := skipNum hex cur (some maxDigits)
    if rest.length = cur.length then
      false
    else if hex ∧ rest.length + 2 = cur.length ∧ isHexPrefix cur then
      false
    else if parts ≠ 0 ∧ rest.head? ≠ some sep then
      false
    else if parts = 0 ∧ rest ≠ [] then
      false
    else
      validateParts hex maxDigits sep parts (rest.drop 1)

def ethValidateEthaddrStr (addr : CStr) : Bool := validateParts true 2 0x3a 6 addr
def validateIpaddr (value : CStr) : Bool := validateParts false 3 0x2e 4 value

-- "1ytYT0nfNF"
def boolRep : List UInt8 := [0x31, 0x79, 0x74, 0x59, 0x54, 0x30, 0x6e, 0x66, 0x4e, 0x46]

def envFlagsValidateType (value : CStr) (type : Nat) : Bool :=
  match type with
  | 0 => true
  | 1 => skipNum false value none = []
  | 2 =>
    let rest := skipNum true value none
    rest = [] ∧ ¬(rest.length + 2 = value.length ∧ isHexPrefix value)
  | 3 =>
    match value with
    | [c] => c ∈ boolRep
    | _ => false
  | 4 => validateIpaddr value
  | 5 => ethValidateEthaddrStr value
  | 6 => false
  | _ => true

def hForce : Nat := 2

-- Whether the change is accepted, `getenvDefault` looks a name up in the default environment.
def envFlagsValidate (getenvDefault : CStr → Option CStr) (item : Entry) (newval : Option CStr) (op : EnvOp)
    (flag : Nat) : Bool :=
  let newval := newval.getD []
  if op ≠ .delete ∧ envFlagsValidateType newval (item.flags &&& 7) = false then
    false
  else if flag &&& hForce ≠ 0 then
    true
  else
    match op with
    | .delete => item.flags &&& preventDelete = 0
    | .overwrite =>
      if item.flags &&& preventOverwr ≠ 0 then
        false
      else if item.flags &&& preventNondefOverwr ≠ 0 then
        item.data = (getenvDefault item.key).getD []
      else
        true
    | .create => item.flags &&& preventCreate = 0

/--
The table of the environment. `changeOk` is `env_flags_validate` for `env_htab`, `rejects` stands for the
callbacks of the other variables.
-/
def envHooks (slre : CStr → CStr → Option Bool) (listStatic : CStr)
    (changeOk : Entry → Option CStr → EnvOp → Nat → Bool) (rejects : CStr → Option CStr → EnvOp → Nat → Bool)
    : Hooks Statics where
  envFlagsInit := envFlagsInit slre listStatic
  changeOk := changeOk
  callback statics htab key value op flag :=
    if key = envFlagsVar then
      match onFlags listStatic value htab with
      | none => none
      | some htab => some (some (htab, statics.release op))
    else if rejects key value op flag then
      some none
    else
      some (some (htab, statics))

end UBoot.EnvFlags
