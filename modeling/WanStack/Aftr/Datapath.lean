import WanStack.Aftr.Encap
import WanStack.Aftr.FtpCommands
import WanStack.Aftr.FtpSeq

set_option autoImplicit false

/-!
# One packet

`loop1` and the routines it calls between the filters and the device, on the bytes of
the packet and the tables of the AFTR.
-/
namespace WanStack.Aftr.Datapath
open Filter Ftp Tried Scanf

def ICMPMAXLEN : ℕ := 200
def IP4V : UInt8 := 0x40

/-! ### Header fields as they are in the tables -/

def addrAt (b : Buf) (i : ℕ) : ℕ := shortAt b i * 0x10000 + shortAt b (i + 2)

def addrOf (a : ℕ) : Addr4 :=
  #v[UInt8.ofNat (a / 0x1000000), UInt8.ofNat (a / 0x10000), UInt8.ofNat (a / 0x100), UInt8.ofNat a]

def portOf (p : ℕ) : PortNo := #v[hi p, lo p]

/-- An entry of the tables as the packet routines see it. -/
def binding (n : NatEntry) : Binding where
  proto := n.proto
  src := addrOf n.src
  nsrc := addrOf n.nsrc
  dst := addrOf n.dst
  sport := portOf n.sport
  nport := portOf n.nport
  dport := portOf n.dport
  allDst := n.flags.allDst
  prrNull := n.flags.prrNull
  ftpData := n.flags.ftpData

/-- The protocol of a packet the filters let through. -/
def protoAt (b : Buf) : Pr :=
  if byteAt b IPPROTO = IPTCP then .tcp else if byteAt b IPPROTO = IPUDP then .udp else .icmp

/-- The fields of a packet from a tunnel, and of one from the Internet. -/
def inPkt (b : Buf) : Pkt where
  proto := protoAt b
  src := addrAt b IPSRC
  dst := addrAt b IPDST
  sport := if protoAt b = .icmp then shortAt b ICMPID else shortAt b IPSPORT
  dport := shortAt b IPDPORT
  len := b.length
  df := byteAt b IPOFFH &&& IPDF != 0

def outPkt (b : Buf) : Pkt where
  proto := protoAt b
  src := addrAt b IPSRC
  dst := addrAt b IPDST
  sport := shortAt b IPSPORT
  dport := if protoAt b = .icmp then shortAt b ICMPID else shortAt b IPDPORT
  len := b.length
  df := byteAt b IPOFFH &&& IPDF != 0

/-! ### The state -/

/-- What the configuration fixes. -/
structure Device where
  local6 : Vector UInt8 16
  icmpsrc : Addr4
  acls : Acls
  conf : ℕ → TunnelConf
  eqfrag : Bool
  autotunnel : Bool

/-- The tables, with the records of the FTP gateway for each entry. -/
structure Tables where
  st : State
  ftpseq : ℕ → List FtpSeq

def Tables.setSeq (a : Tables) (ptr : ℕ) (l : List FtpSeq) : Tables :=
  { a with ftpseq := fun p => if p = ptr then l else a.ftpseq p }

/-- What a packet draws and finds: the memory for `decap`, for the filters and for the rest,
    the identifications of `arc4_getshort` and `arc4_getword`, the bytes `p` of `patch_ftpin`
    and the bytes behind the packet in the buffer. -/
structure Drawn where
  outer : NatEnv
  filter : Env
  env : NatEnv
  id : PortNo
  fragid : Vector UInt8 4
  junk : UInt8 × UInt8
  stale : Buf
  room : IP2 + TCPCKSUMH + 2 ≤ stale.length

/-- What is written to the device. -/
inductive Written where
  | v4 (b : Buf)
  | v6 (b : Buf)
deriving DecidableEq

/-! ### From a tunnel -/

/-- The entry `natin` finds or makes. -/
def natinEntry (cfg : Conf) (env : NatEnv) (t : ℕ) (p : Pkt) (s : State) :
    State × Option (NatEntry × NatEnv) :=
  let (nats, n?) := s.nats.natSplayFind p.proto (inKey t p) 0 s.ctl.lastgen false false
  let s := { s with nats := nats }
  match n? with
  | some n => (s, some (n, env))
  | none =>
    if s.nats.tnatcnt (t, p.proto) ≥ cfg.maxtnatcnt p.proto then (s, none) else
    let (tuns, ok) := natRate cfg env.seconds t p.proto s.tuns
    if !ok || !env.mem 0 then ({ s with tuns := tuns }, none) else
    let n := inEntry t (s.ports.pool (s.tuns.srcidx t)).addr s.nats.next p
    match newNat cfg (env.after 1) n { s with nats := s.nats.alloc, tuns := tuns } with
    | (s, none) => (s, none)
    | (s, some n) => (s, some (n, env.after 3))

def textBytes (t : Text) : Buf := t.map fun c => UInt8.ofNat c.toNat

/-- The packet, and the tables with the entry and the record of a command. -/
def patchFtpin (cfg : Conf) (env : NatEnv) (server : Bool) (junk : UInt8 × UInt8) (b : Buf)
    (n0 : NatEntry) (a : Tables) : Tables × Option Buf :=
  let n? := if server && n0.flags.allDst then
      (a.st.nats.xlist n0.ptr).find? fun f => addrAt b IPDST = f.dst && shortAt b IPDPORT = f.dport
    else some n0
  match n? with
  | none => (a, none)
  | some n =>
    let b := fixFtpsacksum b TCPSEQ false (a.ftpseq n.ptr)
    match patchFtpline cfg env server junk n (payload b) a.st with
    | (s, none) => ({ a with st := s }, none)
    | (s, some none) => ({ a with st := s }, some b)
    | (s, some (some (_, _, line))) =>
      let (b, l) := patchFtpcmd (env.mem 4) b (textBytes line) (a.ftpseq n.ptr)
      ({ a with st := s }.setSeq n.ptr l, b)

/-- A TCP packet that is too short for its header reaches behind its end. -/
def natin (cfg : Conf) (dv : Device) (dr : Drawn) (t : ℕ) (b : Buf) (a : Tables) :
    Result (Tables × Option Buf) :=
  match natinEntry cfg dr.env t (inPkt b) a.st with
  | (s, none) => pure ({ a with st := s }, none)
  | (s, some (n, env)) =>
    let a := { a with st := s }
    let b := natinRewrite (binding n) b
    if n.proto ≠ .tcp then pure (a, some b)
    else if b.length < IPHDRLEN + TCPHDRLEN then .outside
    else do
      let b ← patchTcpmss (dv.conf t) b
      pure (if shortAt b IPDPORT = PORTFTP then patchFtpin cfg env false dr.junk b n a
        else if n.sport = PORTFTP then patchFtpin cfg env true dr.junk b n a
        else (a, some b))

def prrin (dv : Device) (t : ℕ) (b : Buf) (a : Tables) : Result (Tables × Option Buf) :=
  match WanStack.Aftr.prrin t (inPkt b) a.st with
  | (s, none) => pure ({ a with st := s }, none)
  | (s, some _) => do
    let b ← if protoAt b = .tcp then patchTcpmss (dv.conf t) b else pure b
    pure ({ a with st := s }, some b)

/-- `f` on the packet and what lies behind it in the buffer. -/
def behind (stale : Buf) (f : Buf → Buf) (b : Buf) : Buf := (f (b ++ stale)).take b.length

/-- The quoted packet of an ICMP error, cut to what is sent on. -/
def filtericmpin (type4 : UInt8) (b : Buf) : Option Buf :=
  let q := b.take ICMPMAXLEN
  if b.length < IPMINLEN then none
  else if type4 ≠ 3 ∧ type4 ≠ 11 ∧ type4 ≠ 12 then none
  else if byteAt q 0 ≠ IP4VNOOP then none
  else if localnet q || multicast q then none
  else if byteAt q IPOFFH &&& IPOFFMSK ≠ 0 ∨ byteAt q IPOFFL ≠ 0 then none
  else if byteAt q IPPROTO ≠ IPTCP ∧ byteAt q IPPROTO ≠ IPUDP then none
  else if shortAt q IPLENH < IPMINLEN then none
  else if inCksum (q.take IPHDRLEN) ≠ 0 then none
  else some q

/-- The headers of an ICMP error of the AFTR with so many bytes, without checksums. -/
def icmpHeaders (icmpsrc : Addr4) (id : PortNo) (dst : Buf) (len : ℕ) (type4 code4 : UInt8)
    (rest : Buf) : Buf :=
  [IP4VNOOP, 0] ++ twoBytes len ++ id.toList ++ [0, 0, 64, IPICMP, 0, 0] ++ icmpsrc.toList ++ dst ++
    [type4, code4, 0, 0] ++ rest

def fillHeader (b : Buf) : Buf := copyAt b IPCKSUMH (twoBytes (inCksum (b.take IPHDRLEN)))

def fillIcmp (b : Buf) : Buf := copyAt b ICMPCKSUMH (twoBytes (inCksum (b.drop IPHDRLEN)))

/-- The quoted destination and its checksums, for an error from the tunnel. -/
def requote (n : Binding) (b : Buf) : Buf :=
  let b := copyAt b (IP2 + IPDST) n.nsrc.toList
  let b := fixCksumAt b (IP2 + IPCKSUMH) (some (n.src, n.nsrc)) none
  let b := copyAt b (IP2 + IPDPORT) n.nport.toList
  if n.proto = .tcp then
    fixCksumAt b (IP2 + TCPCKSUMH) (some (n.src, n.nsrc)) (some (n.sport, n.nport))
  else if shortAt b (IP2 + UDPCKSUMH) ≠ 0 then
    fixCksumAt b (IP2 + UDPCKSUMH) (some (n.src, n.nsrc)) (some (n.sport, n.nport))
  else b

/-- The error for the entry `n`, from the headers that came and the quoted packet. -/
def icmpinError (icmpsrc : Addr4) (id : PortNo) (stale heads q : Buf) (n : Binding) : Buf :=
  let type4 := byteAt heads ICMPTYPE
  let code4 := byteAt heads ICMPCODE
  let b :=
    if bytesAt heads IPSRC 4 = n.src.toList then
      -- end-to-end
      fixCksumAt (copyAt (heads ++ q) IPSRC n.nsrc.toList) IPCKSUMH (some (n.src, n.nsrc)) none
    else
      -- transit: build headers
      fillHeader (icmpHeaders icmpsrc id (bytesAt q IPSRC 4) (q.length + IP2) type4 code4
        (if type4 = 3 ∧ code4 = 4 then [0, 0] ++ bytesAt heads (ICMPID + 2) 2 else [0, 0, 0, 0]) ++ q)
  fillIcmp (behind stale (requote n) b)

/-- ICMPv4 from a tunnel. -/
def naticmpin (dv : Device) (dr : Drawn) (t : ℕ) (b : Buf) (a : Tables) : Tables × Option Buf :=
  if b.length < IP2 + IPMINLEN ∨ bytesAt b IPDST 4 ≠ bytesAt b (IP2 + IPSRC) 4 then (a, none)
  else match filtericmpin (byteAt b ICMPTYPE) (b.drop IP2) with
    | none => (a, none)
    | some q =>
      let pr := if byteAt q IPPROTO = IPTCP then Pr.tcp else Pr.udp
      match WanStack.Aftr.naticmpin t pr (addrAt q IPDST) (shortAt q IPDPORT) a.st with
      | (s, none) => ({ a with st := s }, none)
      | (s, some n) =>
        ({ a with st := s },
          some (icmpinError dv.icmpsrc dr.id dr.stale (b.take IP2) q (binding n)))

/-! ### From the Internet -/

/-- The error for a packet that may not be fragmented: it quotes the first bytes. -/
def toobigout (icmpsrc : Addr4) (id : PortNo) (mtu : ℕ) (b : Buf) : Buf :=
  let q := b.take ICMPMAXLEN
  fillIcmp (fillHeader (icmpHeaders icmpsrc id (bytesAt q IPSRC 4) (q.length + IP2) 3 4
    ([0, 0] ++ twoBytes (mtu - IP6HDRLEN)) ++ q))

def isTooBig (mtu : ℕ) (b : Buf) : Bool :=
  byteAt b IPOFFH &&& IPDF != 0 && protoAt b ≠ .icmp && byteAt b IPOFFH &&& IPOFFMSK == 0 &&
    byteAt b IPOFFL == 0 && b.length + IP6HDRLEN > mtu

/-- The errors written, and the packet `natout` goes on with. The saved copy has the bytes
    of the packet, but `len` stays that of the error; `buf` has 1500 bytes. -/
def tooBig (c : TunnelConf) (icmpsrc : Addr4) (id : PortNo) (b : Buf) :
    Result (List Buf × Option Buf) :=
  if !isTooBig c.mtu b then pure ([], some b)
  else
    let error := toobigout icmpsrc id c.mtu b
    if c.tbicmp && !c.tbdrop then
      if b.length > 1500 then .outside
      else pure ([error], some (b.take error.length))
    else pure (if c.tbicmp then [error] else [], if c.tbdrop then none else some b)

/-- The rest of `natout` for a packet of an entry that is no A+P entry. -/
def natoutRest (cfg : Conf) (env : NatEnv) (c : TunnelConf) (b : Buf) (n : NatEntry) (a : Tables) :
    Result (Tables × Option (ℕ × Buf)) :=
  let p := outPkt b
  let b := natoutRewrite (binding n) b
  if n.proto ≠ .tcp then
    pure ({ a with st.nats := a.st.nats.natSplaySplay p.proto n }, some (n.tunnel, b))
  else do
    let b ← patchTcpmss c b
    let ftp := p.sport = PORTFTP ∨ n.sport = PORTFTP
    let (s, m?) := if ftp then patchFtpout cfg env (p.sport ≠ PORTFTP) p n a.st else (a.st, some n)
    match m? with
    | none => pure ({ a with st := s }, none)
    | some m =>
      pure ({ a with st := { s with nats := s.nats.natSplaySplay p.proto m } },
        some (m.tunnel, if ftp then fromInternet b (a.ftpseq m.ptr) else b))

def natoutFound (cfg : Conf) (dv : Device) (dr : Drawn) (b : Buf) (n : NatEntry) (a : Tables) :
    Result (Tables × List Buf × Option (ℕ × Buf)) :=
  if n.flags.ftpData && n.dst ≠ addrAt b IPSRC then pure (a, [], none)
  else do
    let (errors, b?) ← tooBig (dv.conf n.tunnel) dv.icmpsrc dr.id b
    match b? with
    | none => pure (a, errors, none)
    | some b =>
      if n.flags.prrNull then do
        let b ← if protoAt b = .tcp then patchTcpmss (dv.conf n.tunnel) b else pure b
        pure ({ a with st.nats := a.st.nats.natSplaySplay (protoAt b) n }, errors, some (n.tunnel, b))
      else do
        let (a, out) ← natoutRest cfg dr.env (dv.conf n.tunnel) b n a
        pure (a, errors, out)

def natout (cfg : Conf) (dv : Device) (dr : Drawn) (b : Buf) (a : Tables) :
    Result (Tables × List Buf × Option (ℕ × Buf)) :=
  match a.st.nats.natLookup (protoAt b) (outKey (outPkt b)) a.st.ctl.lastgen with
  | (nats, none) => pure ({ a with st.nats := nats }, [], none)
  | (nats, some n) => natoutFound cfg dv dr b n { a with st.nats := nats }

/-- The packet an ICMP error from the Internet quotes. -/
def quotedPkt (b : Buf) : Pkt where
  proto := if byteAt b (IP2 + IPPROTO) = IPTCP then .tcp else .udp
  src := addrAt b IPDST
  dst := addrAt b (IP2 + IPDST)
  sport := shortAt b (IP2 + IPSPORT)
  dport := shortAt b (IP2 + IPDPORT)
  len := b.length
  df := byteAt b IPOFFH &&& IPDF != 0

/-- An error from the Internet for the inside: its destination and the quoted source. -/
def icmpoutError (n : Binding) (b : Buf) : Buf :=
  let b := copyAt b IPDST n.src.toList
  let b := fixCksumAt b IPCKSUMH (some (n.nsrc, n.src)) none
  let b := copyAt b (IP2 + IPSRC) n.src.toList
  let b := copyAt b (IP2 + IPSPORT) n.sport.toList
  let b := fixCksumAt b (IP2 + IPCKSUMH) (some (n.nsrc, n.src)) none
  fillIcmp (copyAt b ICMPCKSUMH (twoBytes 0))

def naticmpout (dv : Device) (b : Buf) (a : Tables) : Tables × Option (ℕ × Buf) :=
  let p := quotedPkt b
  match a.st.nats.natLookup p.proto (icmpOutKey p) a.st.ctl.lastgen with
  | (nats, none) => ({ a with st.nats := nats }, none)
  | (nats, some n) =>
    ({ a with st.nats := nats },
      if p.df && p.len + IP6HDRLEN > (dv.conf n.tunnel).mtu then none
      else some (n.tunnel, if n.flags.prrNull then b else icmpoutError (binding n) b))

/-! ### The device -/

/-- The address bytes of a tunnel. -/
def remoteBytes (a : Addr6) : Vector UInt8 16 :=
  Vector.ofFn fun i => UInt8.ofNat (a.toNat >>> (8 * (15 - i.val)))

def remoteOf (s : State) (t : ℕ) : Option Addr6 :=
  (s.tuns.live.find? fun u => u.ptr = t).map Tunnel.remote

/-- `encap` for the tunnel `t`. -/
def encapTo (dv : Device) (dr : Drawn) (s : State) (t : ℕ) (b : Buf) : List Written :=
  match remoteOf s t with
  | none => []
  | some remote =>
    (encap ⟨dv.local6, remoteBytes remote, dr.fragid⟩ dv.eqfrag (dv.conf t).mtu b).map .v6

/-- A packet of a tunnel behind its filter. -/
def fromTunnel (cfg : Conf) (dv : Device) (dr : Drawn) (t : Tunnel) (f : Filtered) (a : Tables) :
    Result (Tables × Option Buf) :=
  if f.icmp then pure (naticmpin dv dr t.ptr f.buf4 a)
  else if f.ret = 1 then natin cfg dv dr t.ptr f.buf4 a
  else if f.ret = 2 then prrin dv t.ptr f.buf4 a
  else if f.ret = 3 then do
    let b ← nonatin (dv.conf t.ptr) a.st.tuns t f.buf4
    pure (a, b)
  else pure (a, none)

/-- A packet of the Internet behind its filter: errors, and a packet for a tunnel. -/
def fromInternet (cfg : Conf) (dv : Device) (dr : Drawn) (f : Filtered) (a : Tables) :
    Result (Tables × List Buf × Option (ℕ × Buf)) :=
  if f.ret = 1 then natout cfg dv dr f.buf4 a
  else if f.ret = 2 then
    let (a, out) := naticmpout dv f.buf4 a
    pure (a, [], out)
  else if f.ret = 3 then do
    let out ← nonatout (fun t => dv.conf t.ptr) a.st.tuns f.buf4
    pure (a, [], out.map fun (t, b) => (t.ptr, b))
  else pure (a, [], none)

def liftFrags (frags : Frags) (a : Tables) : Tables := { a with st.frags := frags }

def finished {α : Type} : Option α → Result α
  | none => .unfinished
  | some a => .through a

/-- One packet that was read: the tables after it and what is written. -/
def loop1 (cfg : Conf) (dv : Device) (dr : Drawn) (buf : Buf) (a : Tables) :
    Result (Tables × List Written) :=
  if byteAt buf 0 &&& IPVERMSK = IP6V then
    if buf.length < IP6HDRLEN + 8 + 8 then pure (a, [])
    else do
      let (st, r) ← finished (Filter.decap cfg dv.acls dv.autotunnel 2 ⟨dr.outer, a.st, none, buf⟩)
      let a := { a with st := st }
      match r with
      | none => pure (a, [])
      | some (t, buf4) => do
        let nonat := (st.tuns.nonat t.ptr).isSome
        let f ← finished (Filter.filterin cfg.frag dv.acls t.ptr nonat (st.frags.frags4.length + 1)
          ⟨dr.filter, st.frags, buf4⟩)
        let (a, out) ← fromTunnel cfg dv dr t f (liftFrags f.frags a)
        pure (a, out.toList.map .v4)
  else if byteAt buf 0 &&& IPVERMSK = IP4V then
    if buf.length < IPMINLEN then pure (a, [])
    else do
      let f ← finished (Filter.filterout cfg.frag a.st (a.st.frags.frags4.length + 1)
        { env := dr.filter, frags := a.st.frags, buf4 := buf })
      let (a, errors, out) ← fromInternet cfg dv dr f (liftFrags f.frags a)
      pure (a, errors.map .v4 ++
        match out with
        | none => []
        | some (t, b) => encapTo dv dr a.st t b)
  else pure (a, [])

end WanStack.Aftr.Datapath
