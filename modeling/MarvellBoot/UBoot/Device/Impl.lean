import Mathlib

/-!
`device_probe` and `device_remove` as in `drivers/core/device.c` and `drivers/core/device-remove.c`. A device is its index
in the order in which the devices were bound, and the state has the devices with `DM_FLAG_ACTIVATED`.
-/

namespace UBoot.Device

structure DeviceTree where
  count : Nat
  parent : Nat → Option Nat
  driverFlags : Nat → BitVec 32
  parent_lt : ∀ dev p, parent dev = some p → p < dev

def DeviceTree.children (t : DeviceTree) (dev : Nat) : List Nat :=
  (List.range t.count).filter fun c => t.parent c = some dev

inductive Callback where
  -- The allocations of private data.
  | priv
  | uclassPriv
  | parentPriv
  | resolveSeq
  -- `pre_probe` of the uclass, and `child_pre_probe` of the uclass and of the driver of the parent.
  | preProbe
  | uclassChildPreProbe
  | childPreProbe
  | ofdataToPlatdata
  | probe
  | postProbe
  | preRemove
  | remove
  | childPostRemove
  deriving Repr, DecidableEq

abbrev Results := Callback → Nat → Int

abbrev State := Nat → Bool

def dmRemoveNormal : BitVec 32 := 1#32 <<< 0
def dmFlagActiveDma : BitVec 32 := 1#32 <<< 9

def enomem : Int := 12

def removes (t : DeviceTree) (flags : BitVec 32) (dev : Nat) : Bool :=
  flags &&& dmRemoveNormal ≠ 0 || flags &&& t.driverFlags dev ≠ 0

def deviceChldRemove (deviceRemove : Nat → State → Int × State) : List Nat → State → Int × State
  | [], s => (0, s)
  | pos :: rest, s =>
    let (ret, s) := deviceRemove pos s
    if ret ≠ 0 then (ret, s) else deviceChldRemove deviceRemove rest s

-- The recursion ends: a child has a larger index than its parent.
def deviceRemove.go (t : DeviceTree) (r : Results) (flags : BitVec 32) : (depth dev : Nat) → State → Int × State
  | 0, _, s => (0, s)
  | depth + 1, dev, s =>
    if !s dev then
      (0, s)
    else if r .preRemove dev ≠ 0 then
      (r .preRemove dev, s)
    else
      let (ret, s) := deviceChldRemove (go t r flags depth) (t.children dev) s
      if ret ≠ 0 then
        -- `err`: the result is the one of `post_probe`.
        (r .postProbe dev, s)
      else if removes t flags dev && r .remove dev ≠ 0 then
        (r .postProbe dev, s)
      else
        let ret := if (t.parent dev).isSome then r .childPostRemove dev else 0
        if removes t flags dev then
          (ret, Function.update s dev false)
        else
          (ret, s)

def deviceRemove (t : DeviceTree) (r : Results) (flags : BitVec 32) (dev : Nat) (s : State) : Int × State :=
  deviceRemove.go t r flags (t.count - dev) dev s

def deviceProbe.self (t : DeviceTree) (r : Results) (dev : Nat) (s : State) : Int × State :=
  let fail (ret : Int) (s : State) : Int × State := (ret, Function.update s dev false)
  let hasParent := (t.parent dev).isSome
  if r .resolveSeq dev < 0 then
    fail (r .resolveSeq dev) s
  else
    let s := Function.update s dev true
    if r .preProbe dev ≠ 0 then
      fail (r .preProbe dev) s
    else if hasParent && r .uclassChildPreProbe dev ≠ 0 then
      fail (r .uclassChildPreProbe dev) s
    else if hasParent && r .childPreProbe dev ≠ 0 then
      fail (r .childPreProbe dev) s
    else if r .ofdataToPlatdata dev ≠ 0 then
      fail (r .ofdataToPlatdata dev) s
    else if r .probe dev ≠ 0 then
      fail (r .probe dev) (Function.update s dev false)
    else if r .postProbe dev ≠ 0 then
      -- `fail_uclass`
      fail (r .postProbe dev) (deviceRemove t r dmRemoveNormal dev s).2
    else
      (0, s)

-- The recursion ends: a parent has a smaller index than its child.
def deviceProbe.go (t : DeviceTree) (r : Results) : (height dev : Nat) → State → Int × State
  | 0, _, s => (0, s)
  | height + 1, dev, s =>
    let fail (ret : Int) (s : State) : Int × State := (ret, Function.update s dev false)
    if s dev then
      (0, s)
    else if r .priv dev ≠ 0 || r .uclassPriv dev ≠ 0 then
      fail (-enomem) s
    else
      match t.parent dev with
      | none => deviceProbe.self t r dev s
      | some p =>
        if r .parentPriv dev ≠ 0 then
          fail (-enomem) s
        else
          let (ret, s) := go t r height p s
          if ret ≠ 0 then
            fail ret s
          else if s dev then
            (0, s)
          else
            deviceProbe.self t r dev s

def deviceProbe (t : DeviceTree) (r : Results) (dev : Nat) (s : State) : Int × State :=
  deviceProbe.go t r (dev + 1) dev s

inductive Call where
  | probe (dev : Nat)
  | remove (dev : Nat) (flags : BitVec 32)

def Call.dev : Call → Nat
  | .probe dev => dev
  | .remove dev _ => dev

def Call.run (t : DeviceTree) (r : Results) (s : State) : Call → Int × State
  | .probe dev => deviceProbe t r dev s
  | .remove dev flags => deviceRemove t r flags dev s

end UBoot.Device
