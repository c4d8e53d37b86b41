import MarvellBoot.UBoot.Fdt.Impl

/-!
Blobs of given trees. The items are in the order of the structure block, the names of the properties
are those of the strings block.
-/

namespace UBoot.Fdt

inductive Item where
  | beginNode (name : List Char)
  | prop (name : List Char) (value : List UInt8)
  | endNode
  deriving Repr, DecidableEq

def cpuToFdt32 (x : Nat) : List UInt8 :=
  [UInt8.ofNat (x / 2 ^ 24), UInt8.ofNat (x / 2 ^ 16), UInt8.ofNat (x / 2 ^ 8), UInt8.ofNat x]

def cstring (cs : List Char) : List UInt8 := ascii cs ++ [0]

def aligned (data : List UInt8) : List UInt8 := data ++ List.replicate ((4 - data.length % 4) % 4) 0

def nameoff (names : List (List Char)) (name : List Char) : Nat :=
  ((names.takeWhile (· ≠ name)).map fun n => n.length + 1).sum

def Item.bytes (names : List (List Char)) : Item → List UInt8
  | .beginNode name => cpuToFdt32 1 ++ aligned (cstring name)
  | .endNode => cpuToFdt32 2
  | .prop name value =>
    cpuToFdt32 3 ++ cpuToFdt32 value.length ++ cpuToFdt32 (nameoff names name) ++ aligned value

-- A number instead of a list, so that no byte is far from the first one.
def packed (bytes : List UInt8) : Nat := bytes.foldr (fun b n => b.toNat + 256 * n) 0

def flatten (names : List (List Char)) (items : List Item) : Blob :=
  let struct := items.flatMap (Item.bytes names) ++ cpuToFdt32 9
  let strings := names.flatMap cstring
  let offDtStruct := 40
  let offDtStrings := offDtStruct + struct.length
  let header := [fdtMagic, offDtStrings + strings.length, offDtStruct, offDtStrings, 0,
    fdtLastSupportedVersion, fdtFirstSupportedVersion, 0, strings.length, struct.length]
  let bytes := header.flatMap cpuToFdt32 ++ struct ++ strings
  fun a => UInt8.ofNat (packed bytes >>> (8 * a.toNat))

end UBoot.Fdt
