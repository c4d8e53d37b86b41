import MarvellBoot.UBoot.Hashtable.Linear

/-!
The records of a text without NUL whose lines end with line feeds, as `himport_r` reads them.
-/

namespace UBoot.Hashtable

inductive Record where
  | comment
  | delete (name : CStr)
  | enter (name value : CStr)
  | fail
  deriving Repr, DecidableEq

-- A value without its escapes and what follows its line feed, nothing when the text ends first.
def readValue : List UInt8 → CStr × Option (List UInt8)
  | [] => ([], none)
  | [c] => if c = lineFeed then ([], some []) else ([c], none)
  | c :: d :: text =>
    if c = lineFeed then
      ([], some (d :: text))
    else if c = backslash then
      (d :: (readValue text).1, (readValue text).2)
    else
      (c :: (readValue (d :: text)).1, (readValue (d :: text)).2)

def nextLine (text : List UInt8) : Option (List UInt8) :=
  match text.dropWhile (· ≠ lineFeed) with
  | [] => none
  | _ :: rest => some rest

def isName (c : UInt8) : Bool := c ≠ equalSign ∧ c ≠ lineFeed

def readAssignment (name : CStr) : List UInt8 → Record × Option (List UInt8)
  | [] => (.delete name, none)
  | c :: rest =>
    if c = lineFeed then
      (.delete name, some rest)
    else
      match rest with
      | [] => (.delete name, none)
      | d :: rest =>
        if d = lineFeed then
          (.delete name, some rest)
        else
          (if name = [] then .fail else .enter name (readValue (d :: rest)).1, (readValue (d :: rest)).2)

def readLine (text : List UInt8) : Record × Option (List UInt8) :=
  if text.head? = some numberSign then
    (.comment, nextLine text)
  else
    readAssignment (text.takeWhile isName) (text.dropWhile isName)

def readRecord (text : List UInt8) : Record × Option (List UInt8) := readLine (text.dropWhile isblank)

/--
The record that the end of the text cuts off. There is none behind a value without a name, which ends the import.
-/
def cutOff : (fuel : Nat) → List UInt8 → Option (List UInt8)
  | 0, _ => none
  | fuel + 1, text =>
    if text = [] then
      none
    else
      match readRecord text with
      | (_, none) => some text
      | (.fail, some _) => none
      | (_, some rest) => cutOff fuel rest

def crlfToLf : List UInt8 → List UInt8
  | [] => []
  | [c] => [c]
  | c :: d :: text =>
    if c = carriageReturn ∧ d = lineFeed then lineFeed :: crlfToLf text else c :: crlfToLf (d :: text)

def residue (text : List UInt8) : List UInt8 := text.drop (crlfToLf text).length

section

variable {σ : Type} (hooks : Hooks σ) (flag : Nat)

def applyRecord (localvars : List (Option CStr)) (s : State σ)
    : Record → Option (Bool × List (Option CStr) × State σ)
  | .comment => some (true, localvars, s)
  | .delete name =>
    if (dropVarFromSet name localvars).1 = false then
      some (true, (dropVarFromSet name localvars).2, s)
    else
      (hdeleteR hooks name flag s).map fun res => (true, (dropVarFromSet name localvars).2, res.2)
  | .enter name value =>
    if (dropVarFromSet name localvars).1 = false then
      some (true, (dropVarFromSet name localvars).2, s)
    else
      (hsearchR hooks name (.enter value) flag s).map fun res => (true, (dropVarFromSet name localvars).2, res.2)
  | .fail => some (false, localvars, s)

end

end UBoot.Hashtable
