import MarvellBoot.Atf.Auth.Impl.AuthMod

/-!
Loading with authentication as in `common/bl_common.c`, with `LOAD_IMAGE_V2` and
`TRUSTED_BOARD_BOOT`.
-/

namespace Atf.Auth

structure ImageInfo where
  imageBase : Int
  imageSize : Nat
  imageMaxSize : Nat
  deriving Repr, DecidableEq

structure IoImage where
  source : Int
  openRc : Int
  sizeRc : Int
  size : Nat
  readRc : Int
  data : List UInt8
  deriving Repr, DecidableEq

-- A successful verification, with the state that it began in.
structure Accept where
  imageId : Nat
  image : Buf
  auth : State

/--
`loads` and `accepts` are not part of the code. They list the images that `load_image` was called
for, and the verifications that succeeded.
-/
structure World where
  auth : State
  mem : Int → UInt8
  loads : List Nat
  accepts : List Accept

def efbig : Int := -27

def eauth : Int := -80

def World.image (w : World) (info : ImageInfo) : Buf :=
  { ptr := fun i => w.mem (info.imageBase + i), len := info.imageSize }

-- An empty image and a short read go to the exit with the result of `io_size` or `io_read`, which
-- may be 0.
def loadImage (io : IoImage) (imageId : Nat) (info : ImageInfo) (w : World) : Int × ImageInfo × World :=
  let w := { w with loads := w.loads ++ [imageId] }
  if io.source ≠ 0 then
    (io.source, info, w)
  else if io.openRc ≠ 0 then
    (io.openRc, info, w)
  else if io.sizeRc ≠ 0 ∨ io.size = 0 then
    (io.sizeRc, info, w)
  else if info.imageMaxSize < io.size then
    (efbig, info, w)
  else
    let info := { info with imageSize := io.size }
    let w := { w with mem := Mem.store w.mem info.imageBase (io.data.take io.size) }
    (io.readRc, info, w)

inductive LoadResult where
  | ok
  | loadError (rc : Int)
  | authError
  deriving Repr, DecidableEq

def LoadResult.code : LoadResult → Int
  | ok => 0
  | loadError rc => rc
  | authError => eauth

section

variable (env : Env) (cot : Cot) (storage : Nat → IoImage)

def loadAuthImage.load (imageId : Nat) (info : ImageInfo) (w : World) : Option (LoadResult × ImageInfo × World) :=
  let (rc, info, w) := loadImage (storage w.loads.length) imageId info w
  if rc ≠ 0 then
    some (.loadError rc, info, w)
  else
    match authModVerifyImg env cot imageId (w.image info) w.auth with
    | none => none
    | some (rc, auth) =>
      if rc ≠ 0 then
        let zeros := List.replicate info.imageSize 0
        some (.authError, info, { w with auth, mem := Mem.store w.mem info.imageBase zeros })
      else
        let accept := { imageId, image := w.image info, auth := w.auth }
        some (.ok, info, { w with auth, accepts := w.accepts ++ [accept] })

def loadAuthImage.go : (fuel imageId : Nat) → ImageInfo → World → Option (LoadResult × ImageInfo × World)
  | fuel, imageId, info, w =>
    match authModGetParentId cot imageId w.auth with
    | none => load env cot storage imageId info w
    | some parentId =>
      match fuel with
      | 0 => none
      | fuel + 1 =>
        match go fuel parentId info w with
        | some (.ok, info, w) => load env cot storage imageId info w
        | res => res

-- The result is `none` only where a NULL pointer is followed, see `loadAuthImage_eq`.
def loadAuthImage (imageId : Nat) (info : ImageInfo) (w : World) : Option (LoadResult × ImageInfo × World) :=
  loadAuthImage.go env cot storage (cot.depth imageId) imageId info w

end

end Atf.Auth
