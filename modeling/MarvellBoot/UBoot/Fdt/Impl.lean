import MarvellBoot.Lib.Loop
import MarvellBoot.Lib.Mem

/-!
The read only part of `lib/libfdt`. A blob is the memory around it, an address is relative to its
beginning. A property whose length makes the next offset its own keeps a loop from terminating, the
result of a function with such a loop is then `none`.
-/

namespace UBoot.Fdt

open Loop

abbrev Blob := Int → UInt8

def toI32 (x : Int) : Int := Int.bmod x (2 ^ 32)

def toU32 (x : Int) : Nat := (x % 2 ^ 32).toNat

def toU64 (x : Int) : Nat := (x % 2 ^ 64).toNat

-- The offsets are 32 bit, in more steps than this a loop comes back to one of them.
def maxSteps : Nat := 2 ^ 32

def ascii (cs : List Char) : List UInt8 := cs.map fun c => UInt8.ofNat c.toNat

def fdt32ToCpu (fdt : Blob) (p : Int) : Nat :=
  (((fdt p).toNat * 256 + (fdt (p + 1)).toNat) * 256 + (fdt (p + 2)).toNat) * 256 + (fdt (p + 3)).toNat

def strnlen (fdt : Blob) (s : Int) : (count : Nat) → Nat
  | 0 => 0
  | count + 1 => if fdt s = 0 then 0 else strnlen fdt (s + 1) count + 1

-- `str` has no zero byte, and `strcmp` stops at the first difference.
def strcmpEq (fdt : Blob) (s : Int) (str : List UInt8) : Bool := Mem.load fdt s (str.length + 1) = str ++ [0]

def fdtMagic : Nat := 0xd00dfeed

def fdtSwMagic : Nat := 2 ^ 32 - 1 - fdtMagic

def fdtFirstSupportedVersion : Nat := 0x10

def fdtLastSupportedVersion : Nat := 0x11

def fdtErrNotfound : Int := 1

def fdtErrNospace : Int := 3

def fdtErrBadoffset : Int := 4

def fdtErrBadstate : Int := 7

def fdtErrTruncated : Int := 8

def fdtErrBadmagic : Int := 9

def fdtErrBadversion : Int := 10

def fdtErrBadstructure : Int := 11

def fdtErrBadlayout : Int := 12

def fdtErrInternal : Int := 13

def fdtTagsize : Nat := 4

inductive Tag where
  | beginNode
  | endNode
  | prop
  | nop
  | end
  deriving Repr, DecidableEq

def Tag.ofCode (tag : Nat) : Option Tag :=
  match tag with
  | 1 => some .beginNode
  | 2 => some .endNode
  | 3 => some .prop
  | 4 => some .nop
  | 9 => some .end
  | _ => none

section

variable (fdt : Blob)

def fdtTotalsize : Nat := fdt32ToCpu fdt 4

def fdtOffDtStruct : Nat := fdt32ToCpu fdt 8

def fdtOffDtStrings : Nat := fdt32ToCpu fdt 12

def fdtVersion : Nat := fdt32ToCpu fdt 20

def fdtLastCompVersion : Nat := fdt32ToCpu fdt 24

def fdtSizeDtStruct : Nat := fdt32ToCpu fdt 36

def fdtCheckHeader : Int :=
  if fdt32ToCpu fdt 0 = fdtMagic then
    if fdtVersion fdt < fdtFirstSupportedVersion then
      -fdtErrBadversion
    else if fdtLastSupportedVersion < fdtLastCompVersion fdt then
      -fdtErrBadversion
    else
      0
  else if fdt32ToCpu fdt 0 = fdtSwMagic then
    if fdtSizeDtStruct fdt = 0 then -fdtErrBadstate else 0
  else
    -fdtErrBadmagic

-- The sums and the comparisons are unsigned.
def fdtOffsetPtr (offset : Int) (len : Nat) : Option Int :=
  let absoffset := toU32 (offset + fdtOffDtStruct fdt)
  if absoffset < toU32 offset
      ∨ toU32 (absoffset + len) < absoffset
      ∨ fdtTotalsize fdt < toU32 (absoffset + len) then
    none
  else if 0x11 ≤ fdtVersion fdt
      ∧ (toU32 (offset + len) < toU32 offset ∨ fdtSizeDtStruct fdt < toU32 (offset + len)) then
    none
  else
    some (fdtOffDtStruct fdt + offset)

def fdtTagalign (offset : Int) : Int := toI32 ((offset + 3) / 4 * 4)

-- Every offset that is passed is inside of the blob, so that the fuel is enough.
def fdtNextTag.skipName : (fuel : Nat) → (offset : Int) → Option Int
  | 0, _ => none
  | fuel + 1, offset =>
    match fdtOffsetPtr fdt offset 1 with
    | none => none
    | some p => if fdt p = 0 then some (offset + 1) else skipName fuel (offset + 1)

def fdtNextTag.skip (tag : Tag) (offset : Int) : Option Int :=
  match tag with
  | .beginNode => skipName fdt (fdtTotalsize fdt + 1) offset
  | .prop =>
    match fdtOffsetPtr fdt offset 4 with
    | none => none
    | some lenp => some (toI32 (offset + 8 + fdt32ToCpu fdt lenp))
  | _ => some offset

def fdtNextTag (startoffset : Int) : Tag × Int :=
  match fdtOffsetPtr fdt startoffset fdtTagsize with
  | none => (.end, -fdtErrTruncated)
  | some tagp =>
    match Tag.ofCode (fdt32ToCpu fdt tagp) with
    | none => (.end, -fdtErrBadstructure)
    | some tag =>
      match fdtNextTag.skip fdt tag (toI32 (startoffset + fdtTagsize)) with
      | none => (.end, -fdtErrBadstructure)
      | some offset =>
        match fdtOffsetPtr fdt startoffset (toU32 (offset - startoffset)) with
        | none => (.end, -fdtErrBadstructure)
        | some _ => (tag, fdtTagalign offset)

def fdtCheckNodeOffset (offset : Int) : Int :=
  if offset < 0 ∨ offset % fdtTagsize ≠ 0 ∨ (fdtNextTag fdt offset).1 ≠ .beginNode then
    -fdtErrBadoffset
  else
    (fdtNextTag fdt offset).2

def fdtCheckPropOffset (offset : Int) : Int :=
  if offset < 0 ∨ offset % fdtTagsize ≠ 0 ∨ (fdtNextTag fdt offset).1 ≠ .prop then
    -fdtErrBadoffset
  else
    (fdtNextTag fdt offset).2

def fdtNextNode.body (s : Int × Int) : Next (Int × Int) (Int × Int) :=
  let (offset, depth) := s
  let (tag, nextoffset) := fdtNextTag fdt offset
  match tag with
  | .prop => .again (nextoffset, depth)
  | .nop => .again (nextoffset, depth)
  | .beginNode => .done (offset, depth + 1)
  | .endNode =>
    if depth - 1 < 0 then .done (nextoffset, depth - 1) else .again (nextoffset, depth - 1)
  | .end => .done (if 0 ≤ nextoffset then -fdtErrNotfound else nextoffset, depth)

def fdtNextNode (offset depth : Int) : Option (Int × Int) :=
  if 0 ≤ offset then
    let nextoffset := fdtCheckNodeOffset fdt offset
    if nextoffset < 0 then
      some (nextoffset, depth)
    else
      run (fdtNextNode.body fdt) maxSteps (nextoffset, depth)
  else
    run (fdtNextNode.body fdt) maxSteps (0, depth)

def fdtFirstSubnode (offset : Int) : Option Int := do
  let (offset, depth) ← fdtNextNode fdt offset 0
  return if offset < 0 ∨ depth ≠ 1 then -fdtErrNotfound else offset

def fdtNextSubnode.body (s : Int × Int) : Option (Next (Int × Int) Int) := do
  let (offset, depth) ← fdtNextNode fdt s.1 s.2
  return if offset < 0 ∨ depth < 1 then
    .done (-fdtErrNotfound)
  else if depth > 1 then
    .again (offset, depth)
  else
    .done offset

def fdtNextSubnode (offset : Int) : Option Int := runM (fdtNextSubnode.body fdt) maxSteps (offset, 1)

def fdtNodenameEq (offset : Int) (s : List UInt8) : Bool :=
  match fdtOffsetPtr fdt (toI32 (offset + fdtTagsize)) (s.length + 1) with
  | none => false
  | some p =>
    if Mem.load fdt p s.length ≠ s then
      false
    else
      fdt (p + s.length) = 0 ∨ (¬s.contains '@'.toNat.toUInt8 ∧ fdt (p + s.length) = '@'.toNat.toUInt8)

def fdtString (stroffset : Int) : Int := fdtOffDtStrings fdt + stroffset

def fdtStringEq (stroffset : Int) (s : List UInt8) : Bool :=
  strnlen fdt (fdtString fdt stroffset) (s.length + 1) = s.length ∧ Mem.load fdt (fdtString fdt stroffset) s.length = s

def nextprop.body (offset : Int) : Next Int Int :=
  let (tag, nextoffset) := fdtNextTag fdt offset
  match tag with
  | .end => .done (if 0 ≤ nextoffset then -fdtErrBadstructure else nextoffset)
  | .prop => .done offset
  | .nop => .again nextoffset
  | _ => .done (-fdtErrNotfound)

def nextprop (offset : Int) : Option Int := run (nextprop.body fdt) maxSteps offset

def fdtSubnodeOffset.body (name : List UInt8) (s : Int × Int) : Option (Next (Int × Int) Int) :=
  let (offset, depth) := s
  if 0 ≤ offset ∧ 0 ≤ depth then
    if depth = 1 ∧ fdtNodenameEq fdt offset name then
      some (.done offset)
    else
      (fdtNextNode fdt offset depth).map .again
  else
    some (.done (if depth < 0 then -fdtErrNotfound else offset))

def fdtSubnodeOffset (offset : Int) (name : List UInt8) : Option Int :=
  if fdtCheckHeader fdt ≠ 0 then
    some (fdtCheckHeader fdt)
  else
    runM (fdtSubnodeOffset.body fdt name) maxSteps (offset, 0)

def fdtGetName (nodeoffset : Int) : Option Int :=
  if fdtCheckHeader fdt ≠ 0 ∨ fdtCheckNodeOffset fdt nodeoffset < 0 then
    none
  else
    some (fdtOffDtStruct fdt + nodeoffset + fdtTagsize)

def fdtFirstPropertyOffset (nodeoffset : Int) : Option Int :=
  let offset := fdtCheckNodeOffset fdt nodeoffset
  if offset < 0 then some offset else nextprop fdt offset

def fdtNextPropertyOffset (offset : Int) : Option Int :=
  let offset := fdtCheckPropOffset fdt offset
  if offset < 0 then some offset else nextprop fdt offset

def fdtGetPropertyByOffset (offset : Int) : Option Int × Int :=
  let err := fdtCheckPropOffset fdt offset
  if err < 0 then
    (none, err)
  else
    let prop := fdtOffDtStruct fdt + offset
    (some prop, toI32 (fdt32ToCpu fdt (prop + 4)))

def fdtGetProperty.body (name : List UInt8) (offset : Int) : Option (Next Int (Option Int × Int)) :=
  if 0 ≤ offset then
    match fdtGetPropertyByOffset fdt offset with
    | (none, _) => some (.done (none, -fdtErrInternal))
    | (some prop, len) =>
      if fdtStringEq fdt (toI32 (fdt32ToCpu fdt (prop + 8))) name then
        some (.done (some prop, len))
      else
        (fdtNextPropertyOffset fdt offset).map .again
  else
    some (.done (none, offset))

def fdtGetProperty (nodeoffset : Int) (name : List UInt8) : Option (Option Int × Int) := do
  let offset ← fdtFirstPropertyOffset fdt nodeoffset
  runM (fdtGetProperty.body fdt name) maxSteps offset

def fdtGetprop (nodeoffset : Int) (name : List UInt8) : Option (Option Int × Int) := do
  let (prop, len) ← fdtGetProperty fdt nodeoffset name
  return (prop.map (· + 12), len)

-- The length is converted to an unsigned type when it is compared.
def fdtdecGetInt (node : Int) (propName : List UInt8) (defaultVal : Int) : Option Int := do
  let (cell, len) ← fdtGetprop fdt node propName
  match cell with
  | some cell => return if 4 ≤ toU64 len then toI32 (fdt32ToCpu fdt cell) else defaultVal
  | none => return defaultVal

end

end UBoot.Fdt
