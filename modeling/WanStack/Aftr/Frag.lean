import WanStack.Aftr.Bytes
import WanStack.Lib.Reassembly

set_option autoImplicit false

/-!
# Fragment queues

`defrag` (IPv4, from a tunnel or from the Internet), `defrag6` (IPv6, from a
tunnel) and the removal of fragment heads. A head is known by its address
`ptr`; the IPv4 hash table holds addresses. The per tunnel counters live here
as functions of the tunnel's address.
-/
namespace WanStack.Aftr
open Reassembly

def MAXFRAGHASH : ℕ := 256
def MINFRAGHASH : ℕ := 64

/-- A fragment head with its chain of fragments. -/
structure Frag where
  ptr : ℕ
  tunnel : Option ℕ
  buf : Buf
  off : ℕ
  more : Bool
  expire : ℕ
  hash : ℕ
  fraglist : List (Piece UInt8)
deriving DecidableEq

/-- `frag_maxcnt`, `fragtn_maxcnt` and `frag_lifetime`. -/
structure FragConf where
  maxcnt6 : ℕ := 1024
  maxcntIn : ℕ := 1024
  maxcntOut : ℕ := 1024
  tnmaxcnt6 : ℕ := 16
  tnmaxcnt4 : ℕ := 64
  lifetime : ℕ := 30

structure Frags where
  frags6 : List Frag := []
  fragsin : List Frag := []
  fragsout : List Frag := []
  frags6cnt : ℕ := 0
  fragsincnt : ℕ := 0
  fragsoutcnt : ℕ := 0
  frg6cnt : ℕ → ℕ := fun _ => 0
  frg4cnt : ℕ → ℕ := fun _ => 0
  fraghash : ℕ → Option ℕ := fun _ => none
  fraghashsz : ℕ := MINFRAGHASH
  fraghashrnd : UInt32 := 0
  next : ℕ := 0

/-- What a call reads from its surroundings: the clock and, for the k-th
    allocation of the call, whether `malloc` succeeds. -/
structure Env where
  seconds : ℕ
  mem : ℕ → Bool

/-- All IPv4 heads, whichever queue they are on. -/
def Frags.frags4 (st : Frags) : List Frag := st.fragsin ++ st.fragsout

def jhashFrag (rnd : UInt32) (buf4 : Buf) : ℕ :=
  let a := word32 buf4 IPSRC + jhashGoldenRatio
  let b := word32 buf4 IPDST + jhashGoldenRatio
  let id := bytesAt buf4 IPID 2
  let c := word32 (id ++ id) 0 + rnd
  jhashShort (jhashMix a b c).2.2

/-- The test on a head, in the hash slot and along the queue alike. -/
def sameDatagram (t : Option ℕ) (buf4 : Buf) (f : Frag) : Bool :=
  f.tunnel = t && byteAt f.buf IPPROTO = byteAt buf4 IPPROTO &&
    bytesAt f.buf IPID 2 = bytesAt buf4 IPID 2 && bytesAt f.buf IPSRC 8 = bytesAt buf4 IPSRC 8

def tooMany4 (cfg : FragConf) (st : Frags) : Option ℕ → Bool
  | none => st.fragsoutcnt ≥ cfg.maxcntOut
  | some t => st.fragsincnt ≥ cfg.maxcntIn || st.frg4cnt t ≥ cfg.tnmaxcnt4

/-- Offset, more flag and data of the packet in `buf4`. -/
def piece4 (buf4 : Buf) : Piece UInt8 :=
  ⟨((byteAt buf4 IPOFFH &&& IPOFFMSK).toNat * 256 + (byteAt buf4 IPOFFL).toNat) * 8,
    byteAt buf4 IPOFFH &&& IPMF != 0, buf4.drop IPHDRLEN⟩

def Frags.setFrag (st : Frags) (f : Frag) : Frags :=
  let put (g : Frag) : Frag := if g.ptr = f.ptr then f else g
  { st with fragsin := st.fragsin.map put, fragsout := st.fragsout.map put }

/-- Store the head in the hash table and remember where. -/
def Frags.rehash (st : Frags) (f : Frag) (hash : ℕ) : Frags × Frag :=
  let f := { f with hash := hash }
  ({ st.setFrag f with fraghash := Function.update st.fraghash hash (some f.ptr) }, f)

def delFrag4 (f : Frag) (st : Frags) : Frags :=
  let st := { st with
    fragsin := st.fragsin.filter (·.ptr ≠ f.ptr)
    fragsout := st.fragsout.filter (·.ptr ≠ f.ptr)
    fraghash := if f.hash < st.fraghashsz ∧ st.fraghash f.hash = some f.ptr
      then Function.update st.fraghash f.hash none else st.fraghash }
  match f.tunnel with
  | some t => { st with
      fragsincnt := st.fragsincnt - 1
      frg4cnt := Function.update st.frg4cnt t (st.frg4cnt t - 1) }
  | none => { st with fragsoutcnt := st.fragsoutcnt - 1 }

def delFrag6 (f : Frag) (st : Frags) : Frags :=
  { st with
    frags6 := st.frags6.filter (·.ptr ≠ f.ptr)
    frags6cnt := st.frags6cnt - 1
    frg6cnt := match f.tunnel with
      | some t => Function.update st.frg6cnt t (st.frg6cnt t - 1)
      | none => st.frg6cnt }

def newFrag4 (cfg : FragConf) (env : Env) (t : Option ℕ) (buf4 : Buf) (x : Piece UInt8)
    (st : Frags) : Frags × Frag :=
  let f : Frag :=
    { ptr := st.next, tunnel := t, buf := buf4.take IPHDRLEN, off := x.off, more := x.more,
      expire := env.seconds + cfg.lifetime, hash := 0, fraglist := [] }
  match t with
  | some t => ({ st with
      next := st.next + 1
      fragsin := f :: st.fragsin
      fragsincnt := st.fragsincnt + 1
      frg4cnt := Function.update st.frg4cnt t (st.frg4cnt t + 1) }, f)
  | none => ({ st with
      next := st.next + 1
      fragsout := f :: st.fragsout
      fragsoutcnt := st.fragsoutcnt + 1 }, f)

/-- The head of the datagram: from its hash slot, else from the queue, else
    a new one; `none` when a new one cannot be allocated. -/
def fragHead4 (cfg : FragConf) (env : Env) (t : Option ℕ) (buf4 : Buf) (x : Piece UInt8)
    (st : Frags) : Option (Frags × Frag) :=
  let hash := jhashFrag st.fraghashrnd buf4 &&& (st.fraghashsz - 1)
  let cached := (st.fraghash hash).bind fun p => st.frags4.find? (·.ptr = p)
  match cached.filter (sameDatagram t buf4) with
  | some f => some (st, f)
  | none =>
    match (if t.isNone then st.fragsout else st.fragsin).find? (sameDatagram t buf4) with
    | some f => some (st.rehash f hash)
    | none =>
      if env.mem 0 && env.mem 1 then
        let (st, f) := newFrag4 cfg env t buf4 x st
        some (st.rehash f hash)
      else none

/-- The packet rebuilt in `buf4` from a complete head. -/
def rebuild4 (hdr : Buf) (fraglist : List (Piece UInt8)) (off : ℕ) : Buf :=
  let len := off + IPHDRLEN
  let h := hdr.set IPOFFH (byteAt hdr IPOFFH &&& ~~~(IPDF ||| IPMF))
  let h := (h.set IPLENH (hi len)).set IPLENL (lo len)
  let h := (h.set IPCKSUMH 0).set IPCKSUML 0
  let cksum := inCksum h
  -- the data is copied to its offset; a joined list leaves no hole
  (h.set IPCKSUMH (hi cksum)).set IPCKSUML (lo cksum) ++ fraglist.flatMap Piece.data

/-- A head after a fragment joined its chain. The header of the first
    fragment replaces the saved one when it comes late. -/
def Frag.add (f : Frag) (hdr : Buf) (x : Piece UInt8) (fraglist : List (Piece UInt8)) : Frag :=
  if x.off = 0 ∧ f.off ≠ 0 then
    { f with buf := hdr, off := x.off, more := x.more, fraglist := fraglist }
  else { f with fraglist := fraglist }

/-- The end of `defrag`: the packet when the chain of `f` is complete. -/
def whole4 (st : Frags) (f : Frag) : Frags × Option Buf :=
  if f.off ≠ 0 then (st, none) else
  match joined 0 true f.fraglist with
  | none => (st, none)
  | some off =>
    if off + IPHDRLEN > IPMAXLEN then (delFrag4 f st, none)
    else (delFrag4 f st, some (rebuild4 f.buf f.fraglist off))

def addFrag4 (env : Env) (buf4 : Buf) (x : Piece UInt8) (st : Frags) (f : Frag) :
    Frags × Option Buf :=
  match place x none f.fraglist with
  | none => (st, none)
  | some fraglist =>
    if !(env.mem 2 && env.mem 3) then (st, none) else
    let f := f.add (buf4.take IPHDRLEN) x fraglist
    whole4 (st.setFrag f) f

/-- Defrag IPv4. The second result is the packet when it is complete. -/
def defrag (cfg : FragConf) (env : Env) (t : Option ℕ) (buf4 : Buf) (st : Frags) :
    Frags × Option Buf :=
  if tooMany4 cfg st t then (st, none) else
  let x := piece4 buf4
  if x.more && x.data.length % 8 != 0 then (st, none) else
  match fragHead4 cfg env t buf4 x st with
  | none => (st, none)
  | some (st, f) => addFrag4 env buf4 x st f

def sameDatagram6 (t : ℕ) (buf6 : Buf) (f : Frag) : Bool :=
  f.tunnel = some t && byteAt f.buf IP6FPROTO = byteAt buf6 IP6FPROTO &&
    bytesAt f.buf IP6FID 4 = bytesAt buf6 IP6FID 4

def tooMany6 (cfg : FragConf) (st : Frags) (t : ℕ) : Bool :=
  st.frags6cnt ≥ cfg.maxcnt6 || st.frg6cnt t ≥ cfg.tnmaxcnt6

def piece6 (buf6 : Buf) : Piece UInt8 :=
  ⟨(byteAt buf6 IP6FOFFH).toNat * 256 + (byteAt buf6 IP6FOFFL &&& IP6FMSK).toNat,
    byteAt buf6 IP6FOFFL &&& IP6FMF != 0, buf6.drop IP6FLEN⟩

def Frags.setFrag6 (st : Frags) (f : Frag) : Frags :=
  { st with frags6 := st.frags6.map fun g => if g.ptr = f.ptr then f else g }

def newFrag6 (cfg : FragConf) (env : Env) (t : ℕ) (buf6 : Buf) (x : Piece UInt8)
    (st : Frags) : Frags × Frag :=
  let f : Frag :=
    { ptr := st.next, tunnel := some t, buf := buf6.take IP6FLEN, off := x.off, more := x.more,
      expire := env.seconds + cfg.lifetime, hash := 0, fraglist := [] }
  ({ st with
    next := st.next + 1
    frags6 := f :: st.frags6
    frags6cnt := st.frags6cnt + 1
    frg6cnt := Function.update st.frg6cnt t (st.frg6cnt t + 1) }, f)

def fragHead6 (cfg : FragConf) (env : Env) (t : ℕ) (buf6 : Buf) (x : Piece UInt8)
    (st : Frags) : Option (Frags × Frag) :=
  match st.frags6.find? (sameDatagram6 t buf6) with
  | some f => some (st, f)
  | none => if env.mem 0 && env.mem 1 then some (newFrag6 cfg env t buf6 x st) else none

def rebuild6 (hdr : Buf) (fraglist : List (Piece UInt8)) (off : ℕ) : Buf :=
  let h := hdr.take IP6HDRLEN
  let h := (h.set IP6LENH (hi off)).set IP6LENL (lo off)
  h.set IP6PROTO (byteAt hdr IP6FPROTO) ++ fraglist.flatMap Piece.data

def whole6 (st : Frags) (f : Frag) : Frags × Option Buf :=
  if f.off ≠ 0 then (st, none) else
  match joined 0 true f.fraglist with
  | none => (st, none)
  | some off =>
    if off > IPMAXLEN then (delFrag6 f st, none)
    else (delFrag6 f st, some (rebuild6 f.buf f.fraglist off))

def addFrag6 (env : Env) (buf6 : Buf) (x : Piece UInt8) (st : Frags) (f : Frag) :
    Frags × Option Buf :=
  match place x none f.fraglist with
  | none => (st, none)
  | some fraglist =>
    if !(env.mem 2 && env.mem 3) then (st, none) else
    let f := f.add (buf6.take IP6FLEN) x fraglist
    whole6 (st.setFrag6 f) f

/-- Defrag IPv6, from a tunnel. -/
def defrag6 (cfg : FragConf) (env : Env) (t : ℕ) (buf6 : Buf) (st : Frags) :
    Frags × Option Buf :=
  if tooMany6 cfg st t then (st, none) else
  let x := piece6 buf6
  if x.more && x.data.length % 8 != 0 then (st, none) else
  match fragHead6 cfg env t buf6 x st with
  | none => (st, none)
  | some (st, f) => addFrag6 env buf6 x st f

/-- Delete from the tail of a queue the heads whose time is over. -/
def expireTail (del : Frag → Frags → Frags) (queue : Frags → List Frag) (seconds : ℕ) :
    ℕ → Frags → Frags
  | 0, st => st
  | k + 1, st =>
    match (queue st).getLast? with
    | none => st
    | some f =>
      if f.expire ≥ seconds then st else expireTail del queue seconds k (del f st)

/-- The fragment part of the every second block of `loop`. -/
def expireFrags (seconds : ℕ) (st : Frags) : Frags :=
  let st := expireTail delFrag6 Frags.frags6 seconds st.frags6.length st
  let st := expireTail delFrag4 Frags.fragsin seconds st.fragsin.length st
  expireTail delFrag4 Frags.fragsout seconds st.fragsout.length st

/-- The fragment part of the every 256 seconds block of `loop`. -/
def resizeFragHash (up : Bool) (rnd : UInt32) (st : Frags) : Frags :=
  let newhashsz := if up then st.fraghashsz * 2 else st.fraghashsz / 2
  if newhashsz > MAXFRAGHASH ∨ newhashsz < MINFRAGHASH then st
  else { st with fraghash := fun _ => none, fraghashsz := newhashsz, fraghashrnd := rnd }

/-- What reaches the queues: a fragment, the clock, a resize of the hash. -/
inductive FragEvent where
  | defrag (env : Env) (t : Option ℕ) (buf4 : Buf)
  | defrag6 (env : Env) (t : ℕ) (buf6 : Buf)
  | expire (seconds : ℕ)
  | resize (up : Bool) (rnd : UInt32)

def fragStep (cfg : FragConf) (st : Frags) : FragEvent → Frags
  | .defrag env t buf4 => (defrag cfg env t buf4 st).1
  | .defrag6 env t buf6 => (defrag6 cfg env t buf6 st).1
  | .expire seconds => expireFrags seconds st
  | .resize up rnd => resizeFragHash up rnd st

def fragRun (cfg : FragConf) (st : Frags) (es : List FragEvent) : Frags :=
  es.foldl (fragStep cfg) st

end WanStack.Aftr
