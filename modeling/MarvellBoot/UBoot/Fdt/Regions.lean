import MarvellBoot.UBoot.Fdt.Impl

/-!
The regions of a blob that belong to some of its nodes, as in `lib/libfdt/fdt_wip.c`.
-/

namespace UBoot.Fdt

open Loop

def fdtMaxDepth : Nat := 32

structure FdtRegion where
  offset : Int
  size : Int
  deriving Repr, DecidableEq

namespace fdtFindRegions

-- `stack` has the elements below `depth`, `region` those below `count` that were stored.
structure State where
  nextoffset : Int
  count : Nat
  start : Int
  want : Nat
  stack : List Nat
  path : List UInt8
  region : List FdtRegion
  deriving Repr, DecidableEq

structure Params where
  fdt : Blob
  inc : List (List UInt8)
  excProp : List (List UInt8)
  maxRegions : Nat
  pathLen : Nat

structure Step where
  incl : Bool
  stopAt : Int
  state : State

def strInList (fdt : Blob) (str : Int) (list : List (List UInt8)) : Bool := list.any fun s => strcmpEq fdt str s

def prop (p : Params) (s : State) (nextoffset : Int) : Option Step :=
  match (fdtGetPropertyByOffset p.fdt s.nextoffset).1 with
  | none => none
  | some prop =>
    let str := fdtString p.fdt (toI32 (fdt32ToCpu p.fdt (prop + 8)))
    some {
      incl := 2 ≤ s.want ∧ ¬strInList p.fdt str p.excProp
      stopAt := s.nextoffset
      state := { s with nextoffset }
    }

def nop (s : State) (nextoffset : Int) : Step :=
  { incl := 2 ≤ s.want, stopAt := s.nextoffset, state := { s with nextoffset } }

def nodeName (fdt : Blob) (name : Int) : List UInt8 := Mem.load fdt name (strnlen fdt name (2 ^ 32))

def addName (path name : List UInt8) : List UInt8 :=
  (if path.length ≠ 1 then path ++ ['/'.toNat.toUInt8] else path) ++ name

def beginNode (p : Params) (s : State) (nextoffset : Int) : Option (Except Int Step) :=
  if s.stack.length = fdtMaxDepth then
    some (.error (-fdtErrBadstructure))
  else
    match fdtGetName p.fdt s.nextoffset with
    | none => none
    | some name =>
      let name := nodeName p.fdt name
      if p.pathLen ≤ s.path.length + 2 + name.length then
        some (.error (-fdtErrNospace))
      else
        let path := addName s.path name
        let listed := p.inc.contains path
        let want := if listed then 2 else s.want - 1
        let stopAt := if s.want = 1 ∨ (¬listed ∧ s.want = 0) then s.nextoffset else nextoffset
        some (.ok {
          incl := want ≠ 0
          stopAt
          state := { s with nextoffset, want, stack := s.want :: s.stack, path }
        })

def dropName (path : List UInt8) : List UInt8 := (path.reverse.dropWhile (· ≠ '/'.toNat.toUInt8)).tail.reverse

def endNode (s : State) (nextoffset : Int) : Option Step :=
  match s.stack with
  | [] => none
  | want :: stack =>
    some {
      incl := s.want ≠ 0
      stopAt := nextoffset
      state := { s with nextoffset, want, stack, path := dropName s.path }
    }

def fdtEnd (s : State) (nextoffset : Int) : Step :=
  { incl := true, stopAt := nextoffset, state := { s with nextoffset } }

def openRegion (p : Params) (base offset : Int) (s : State) : State :=
  match s.region.getLast? with
  | some last =>
    if s.count ≤ p.maxRegions ∧ offset = last.offset + last.size - base then
      { s with start := last.offset - base, count := s.count - 1, region := s.region.dropLast }
    else
      { s with start := offset }
  | none => { s with start := offset }

def closeRegion (p : Params) (base stopAt : Int) (s : State) : State :=
  let region :=
    if s.count < p.maxRegions then
      s.region ++ [{ offset := base + s.start, size := stopAt - s.start }]
    else
      s.region
  { s with region, count := s.count + 1, start := -1 }

def update (p : Params) (offset : Int) (step : Step) : State :=
  let base := toI32 (fdtOffDtStruct p.fdt)
  let s := step.state
  if step.incl then
    if s.start = -1 then openRegion p base offset s else s
  else
    if s.start ≠ -1 then closeRegion p base step.stopAt s else s

def body (p : Params) (s : State) : Option (Next State (Except Int State)) :=
  let offset := s.nextoffset
  let (tag, nextoffset) := fdtNextTag p.fdt offset
  match tag with
  | .prop => (prop p s nextoffset).map fun step => .again (update p offset step)
  | .nop => some (.again (update p offset (nop s nextoffset)))
  | .beginNode =>
    (beginNode p s nextoffset).map fun
      | .error err => .done (.error err)
      | .ok step => .again (update p offset step)
  | .endNode => (endNode s nextoffset).map fun step => .again (update p offset step)
  | .end => some (.done (.ok (update p offset (fdtEnd s nextoffset))))

def init : State := { nextoffset := 0, count := 0, start := -1, want := 0, stack := [], path := [], region := [] }

end fdtFindRegions

def fdtFindRegions (p : fdtFindRegions.Params) : Option (Int × List FdtRegion) := do
  match ← runM (fdtFindRegions.body p) maxSteps fdtFindRegions.init with
  | .error err => return (err, [])
  | .ok s =>
    -- The offset is converted to an unsigned type.
    if toU32 s.nextoffset ≠ fdtSizeDtStruct p.fdt then
      return (-fdtErrBadlayout, s.region)
    else
      let s := fdtFindRegions.closeRegion p (toI32 (fdtOffDtStruct p.fdt)) s.nextoffset s
      return (s.count, s.region)

end UBoot.Fdt
