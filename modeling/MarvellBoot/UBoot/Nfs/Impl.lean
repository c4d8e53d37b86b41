import MarvellBoot.Lib.Bytes
import MarvellBoot.UBoot.Hashtable.Linear

/-!
The NFS client of `net/nfs.c`. The buffer `nfs_path_buff` begins at address 0, and `nfs_path` always points to it.
-/

namespace UBoot.Nfs

open Mem Size Hashtable

inductive NfsState where
  | prclookupProgMountReq
  | prclookupProgNfsReq
  | mountReq
  | umountReq
  | lookupReq
  | readReq
  | readlinkReq
  deriving Repr, DecidableEq, Inhabited

inductive Prog where
  | mount
  | nfs
  deriving Repr, DecidableEq

inductive Request where
  | getport (prog : Prog) (ver : Nat)
  | mount (path : CStr)
  | umountall
  | lookup (fname : CStr)
  | read (offset readlen : Int)
  | readlink
  deriving Repr, DecidableEq

-- `writes` is not part of the code, it records where the buffer for the path has been written.
structure Path where
  m : Int → UInt8
  nfsFilename : Int
  writes : List (Int × Nat)
  deriving Inhabited

-- `sent` and `loaded` record the requests and the calls of `store_block`. `outcome` is what `net_set_state` is called with.
structure Client where
  fsMounted : Bool
  rpcId : Nat
  nfsOffset : Int
  nfsLen : Int
  dirfh : List UInt8
  filefh : List UInt8
  filefh3Length : Int
  nfsDownloadState : Bool
  nfsServerMountPort : Int
  nfsServerPort : Int
  nfsOurPort : Nat
  nfsState : NfsState
  nfsv2 : Bool
  nfsv3 : Bool
  path : Path
  sent : List Request
  loaded : List (Nat × List UInt8)
  netBootFileSize : Nat
  outcome : Option Bool
  deriving Inhabited

def slash : UInt8 := 0x2f
def colon : UInt8 := 0x3a
def nfsPathBuffSize : Nat := 2048
def nfsFhsize : Nat := 32
def nfs3Fhsize : Nat := 64
def nfsReadSize : Nat := 1024

-- `sizeof(struct rpc_t)`
def rpcSize : Nat := 24 + 4 * nfsReadSize

def cstr (m : Int → UInt8) (a : Int) : CStr := strAt m (2 * nfsPathBuffSize) a

namespace Path

def store (p : Path) (a : Int) (data : List UInt8) : Path :=
  { p with m := Mem.store p.m a data, writes := p.writes ++ [(a, data.length)] }

-- From the end of the string, one before the string when there is no slash.
def basenameLoop (m : Int → UInt8) : Nat → Int
  | 0 => -1
  | n + 1 => if m n = slash then n + 1 else basenameLoop m n

def basename (m : Int → UInt8) : Int := basenameLoop m (cstr m 0).length

def dirname (p : Path) : Path := p.store (basename p.m - 1) [0]

-- `nfs_filename = basename(nfs_path)` and `nfs_path = dirname(nfs_path)`
def split (p : Path) : Path := { p.dirname with nfsFilename := basename p.m }

def start (p : Path) (name : CStr) : Path := (p.store 0 (name ++ [0])).split

-- The target of a symbolic link in a reply of `len` bytes, `rlen` is an `int` and then a `size_t`.
structure Link where
  len : Nat
  data : Nat → UInt8
  rlen : Nat

def Link.target (l : Link) : List UInt8 := Bytes.load l.data (ofInt (toInt l.rlen))

def copyTarget (p : Path) (pathlen : Nat) (l : Link) : Path :=
  (p.store pathlen l.target).store (pathlen + toInt l.rlen) [0]

def link (p : Path) (l : Link) : Path :=
  if l.data 0 ≠ slash then
    let p := p.store (cstr p.m 0).length [slash, 0]
    p.copyTarget (cstr p.m 0).length l
  else
    p.copyTarget 0 l

-- There is no result when the reply is copied beyond `rpc_pkt`.
def follow (p : Path) (l : Link) : Option Path := if rpcSize < l.len then none else some (p.link l).split

end Path

-- `"%02X"`
def hex (b : UInt8) : List UInt8 :=
  let digit (x : UInt8) := if x < 10 then 0x30 + x else 0x37 + x
  [digit (b >>> 4), digit (b &&& 0xf)]

def requestedName (netBootFileName : CStr) (netIp : List UInt8) : CStr :=
  if netBootFileName = [] then
    -- "/nfsroot/" and ".img"
    [0x2f, 0x6e, 0x66, 0x73, 0x72, 0x6f, 0x6f, 0x74, 0x2f] ++ netIp.flatMap hex ++ [0x2e, 0x69, 0x6d, 0x67]
  else
    match netBootFileName.dropWhile (· ≠ colon) with
    | [] => netBootFileName
    | _ :: p => p

-- `ntohl` of a word of the reply.
def word (pkt : Nat → UInt8) (i : Nat) : Nat := Bytes.val (Bytes.load (fun k => pkt (4 * i + k)) 4)

def data (pkt : Nat → UInt8) (i : Nat) : Nat := word pkt (6 + i)

def dataPtr (pkt : Nat → UInt8) (i : Nat) : Nat → UInt8 := fun k => pkt (4 * (6 + i) + k)

-- `rstatus`, `verifier` and `astatus`
def refused (pkt : Nat → UInt8) : Bool := word pkt 2 ≠ 0 ∨ word pkt 3 ≠ 0 ∨ word pkt 5 ≠ 0

namespace Client

def rpcReq (s : Client) (req : Request) : Client := { s with rpcId := (s.rpcId + 1) % 2 ^ 64, sent := s.sent ++ [req] }

def ver (s : Client) : Nat := if s.nfsv2 then 2 else 3

def nfsSend (s : Client) : Client :=
  match s.nfsState with
  | .prclookupProgMountReq => s.rpcReq (.getport .mount (if s.nfsv2 then 1 else 3))
  | .prclookupProgNfsReq => s.rpcReq (.getport .nfs s.ver)
  | .mountReq => s.rpcReq (.mount (cstr s.path.m 0))
  | .umountReq => if s.nfsServerMountPort = -1 ∨ s.fsMounted = false then s else s.rpcReq .umountall
  | .lookupReq => s.rpcReq (.lookup (cstr s.path.m s.path.nfsFilename))
  | .readReq => s.rpcReq (.read s.nfsOffset s.nfsLen)
  | .readlinkReq => s.rpcReq .readlink

/--
What every reply begins with: `len` bytes are copied to `rpc_pkt`, the result is an error for an id that is too large
and -124 to drop the reply. There is no result when memory outside `rpc_pkt` is written. `pkt` is what it then holds.
-/
def replyTo (s : Client) (pkt : Nat → UInt8) (len : Nat) (handle : Int × Client) : Option (Int × Client) :=
  if rpcSize < len then
    none
  else if s.rpcId < word pkt 0 then
    some (-1, s)
  else if word pkt 0 < s.rpcId then
    some (-124, s)
  else
    some handle

def rpcLookupReply (prog : Prog) (s : Client) (pkt : Nat → UInt8) (len : Nat) : Option (Int × Client) :=
  s.replyTo pkt len <|
    if refused pkt then
      (-1, s)
    else
      match prog with
      | .mount => (0, { s with nfsServerMountPort := toInt (data pkt 0) })
      | .nfs => (0, { s with nfsServerPort := toInt (data pkt 0) })

def nfsMountReply (s : Client) (pkt : Nat → UInt8) (len : Nat) : Option (Int × Client) :=
  s.replyTo pkt len <|
    if refused pkt ∨ data pkt 0 ≠ 0 then
      (-1, s)
    else
      (0, { s with fsMounted := true, dirfh := Bytes.load (dataPtr pkt 1) nfsFhsize })

def nfsUmountallReply (s : Client) (pkt : Nat → UInt8) (len : Nat) : Option (Int × Client) :=
  s.replyTo pkt len <|
    if refused pkt then (-1, s) else (0, { s with fsMounted := false, dirfh := List.replicate nfsFhsize 0 })

def nfsLookupReply (s : Client) (pkt : Nat → UInt8) (len : Nat) : Option (Int × Client) :=
  s.replyTo pkt len <|
    if refused pkt ∨ data pkt 0 ≠ 0 then
      -- the server has version 3 only
      if word pkt 5 = 2 ∧ data pkt 0 = 3 then (-2, { s with nfsv2 := false }) else (-1, s)
    else if s.nfsv2 then
      (0, { s with filefh := Bytes.load (dataPtr pkt 1) nfsFhsize ++ s.filefh.drop nfsFhsize })
    else
      let length := min (toInt (data pkt 1)) nfs3Fhsize
      (0, { s with
        filefh3Length := length
        filefh := Bytes.load (dataPtr pkt 2) (ofInt length) ++ s.filefh.drop (ofInt length) })

def nfs3GetAttributesOffset (pkt : Nat → UInt8) : Nat := if data pkt 1 ≠ 0 then 22 else 1

def nfsReadlinkReply (s : Client) (pkt : Nat → UInt8) (len : Nat) : Option (Int × Client) :=
  s.replyTo pkt len <|
    if refused pkt ∨ data pkt 0 ≠ 0 then
      (-1, s)
    else
      let off := if s.nfsv2 then 0 else nfs3GetAttributesOffset pkt
      (0, { s with path := s.path.link ⟨len, dataPtr pkt (2 + off), data pkt (1 + off)⟩ })

def storeBlock (s : Client) (src : List UInt8) (offset : Nat) : Client :=
  { s with
    loaded := s.loaded ++ [(offset, src)]
    netBootFileSize := max s.netBootFileSize ((offset + src.length) % 2 ^ 32) }

-- Here `sizeof(rpc_pkt.u.reply)` bytes are copied.
def nfsReadReply (s : Client) (pkt : Nat → UInt8) : Option (Int × Client) :=
  s.replyTo pkt rpcSize <|
    if word pkt 2 ≠ 0 ∨ word pkt 5 ≠ 0 then
      (-9999, s)
    else if word pkt 3 ≠ 0 ∨ data pkt 0 ≠ 0 then
      (Int.bmod (-(data pkt 0)) (2 ^ 32), s)
    else
      let off := nfs3GetAttributesOffset pkt
      let (rlen, ptr) := if s.nfsv2 then (data pkt 18, dataPtr pkt 19) else (data pkt (1 + off), dataPtr pkt (4 + off))
      (toInt rlen, s.storeBlock (Bytes.load ptr rlen) (s.nfsOffset % 2 ^ 32).toNat)

def goOn (s : Client) (state : NfsState) : Client := nfsSend { s with nfsState := state }

def nfsHandler (s : Client) (pkt : Nat → UInt8) (dest len : Nat) : Option Client := do
  if dest ≠ s.nfsOurPort then
    return s
  match s.nfsState with
  | .prclookupProgMountReq =>
    let (reply, s) ← s.rpcLookupReply .mount pkt len
    return if reply = -124 then s else s.goOn .prclookupProgNfsReq
  | .prclookupProgNfsReq =>
    let (reply, s) ← s.rpcLookupReply .nfs pkt len
    return if reply = -124 then s else s.goOn .mountReq
  | .mountReq =>
    let (reply, s) ← s.nfsMountReply pkt len
    return if reply = -124 then s else if reply = -1 then s.goOn .umountReq else s.goOn .lookupReq
  | .umountReq =>
    let (reply, s) ← s.nfsUmountallReply pkt len
    return if reply = -124 then
      s
    else if reply = -1 then
      { s with outcome := some false }
    else
      { s with outcome := some s.nfsDownloadState }
  | .lookupReq =>
    let (reply, s) ← s.nfsLookupReply pkt len
    return if reply = -124 then
      s
    else if reply = -1 then
      s.goOn .umountReq
    else if reply = -2 ∧ (s.nfsv2 ∨ s.nfsv3) then
      (s.goOn .umountReq).goOn .prclookupProgMountReq
    else
      { s with nfsOffset := 0, nfsLen := nfsReadSize }.goOn .readReq
  | .readlinkReq =>
    let (reply, s) ← s.nfsReadlinkReply pkt len
    return if reply = -124 then
      s
    else if reply = -1 then
      s.goOn .umountReq
    else
      { s with path := s.path.split }.goOn .mountReq
  | .readReq =>
    let (rlen, s) ← s.nfsReadReply pkt
    return if 0 < rlen then
      { s with nfsOffset := s.nfsOffset + rlen }.nfsSend
    else if rlen = -21 ∨ rlen = -22 then
      s.goOn .readlinkReq
    else
      { s with nfsDownloadState := if rlen = 0 then true else s.nfsDownloadState }.goOn .umountReq

end Client

end UBoot.Nfs
