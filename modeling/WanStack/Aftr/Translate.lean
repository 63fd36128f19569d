import WanStack.Aftr.State

set_option autoImplicit false

/-!
# Translation of packets

`natin` and `natout` with the FTP gateway, and their variants for A+P and
ICMP errors, on the header fields of a packet.
-/
namespace WanStack.Aftr

/-- The fields of an unfragmented packet. The identifier of an ICMP echo is
    `sport` from a tunnel and `dport` from the Internet. `scan` is the port an
    FTP command in the payload announces and `cmdOk` says that
    `patch_ftpcmd` can rewrite it. -/
structure Pkt where
  proto : Pr
  src : ℕ
  dst : ℕ
  sport : ℕ
  dport : ℕ
  len : ℕ := 40
  df : Bool := false
  scan : Option ℕ := none
  cmdOk : Bool := true
deriving DecidableEq, Repr

def portFlags : Pr → Flags
  | .icmp => { matchIcmp := true }
  | _ => { matchPort := true }

/-- The remote port of a packet, which an ICMP echo has not. -/
def peerPort (pr : Pr) (port : ℕ) : ℕ := if pr = .icmp then 0 else port

/-- The key of `natin`. -/
def inKey (t : ℕ) (p : Pkt) : NatEntry :=
  { tunnel := t, proto := p.proto, flags := portFlags p.proto, src := p.src, dst := p.dst,
    sport := p.sport, dport := peerPort p.proto p.dport }

/-- The key of `natout`. -/
def outKey (p : Pkt) : NatEntry :=
  { proto := p.proto, flags := portFlags p.proto, nsrc := p.dst, dst := p.src,
    nport := p.dport, dport := peerPort p.proto p.sport }

/-- The entry `get_ftptempdata` creates. -/
def ftpDataEntry (n0 : NatEntry) (ptr np : ℕ) : NatEntry :=
  { ptr := ptr, tunnel := n0.tunnel, proto := n0.proto,
    flags := { allDst := true, matchPort := true, ftpData := true },
    src := n0.src, nsrc := n0.nsrc, dst := n0.dst, sport := np }

/-- Get the NAT entry for FTP DATA. -/
def getFtptempdata (cfg : Conf) (env : NatEnv) (n0 : NatEntry) (np : ℕ) (s : State) :
    State × Option NatEntry :=
  match (s.nats.xlist n0.ptr).find? (·.sport = np) with
  | some n => (s, some n)
  | none =>
    if s.nats.tnatcnt (n0.tunnel, .tcp) ≥ cfg.maxtnatcnt .tcp then (s, none) else
    let (tuns, ok) := natRate cfg env.seconds n0.tunnel .tcp s.tuns
    if !ok || !env.mem 0 then ({ s with tuns := tuns }, none) else
    let n := ftpDataEntry n0 s.nats.next np
    match newNat cfg (env.after 1) n { s with nats := s.nats.alloc, tuns := tuns } with
    | (s, none) => (s, none)
    | (s, some n) => ({ s with nats := s.nats.xchain n0 n }, some n)

/-- Patch FTP packet from tunnel to Internet: a client (`server = false`) or a
    server behind the NAT. -/
def patchFtpin (cfg : Conf) (env : NatEnv) (server : Bool) (p : Pkt) (n0 : NatEntry)
    (s : State) : State × Option NatEntry :=
  let n? := if server && n0.flags.allDst then
      (s.nats.xlist n0.ptr).find? fun f => p.dst = f.dst && p.dport = f.dport
    else some n0
  match n? with
  | none => (s, none)
  | some n =>
    match p.scan with
    | none => (s, some n)
    | some np =>
      match getFtptempdata cfg env n np s with
      | (s, none) => (s, none)
      | (s, some _) => (s, if p.cmdOk then some n else none)

/-- `natin` from the label `got` on. -/
def natinGot (cfg : Conf) (env : NatEnv) (p : Pkt) (n : NatEntry) (s : State) :
    State × Option Pkt :=
  let p' := { p with src := n.nsrc, sport := if n.flags.matchAny then n.nport else p.sport }
  let (s, n?) :=
    if n.proto = .tcp then
      if p.dport = PORTFTP then patchFtpin cfg env false p n s
      else if n.sport = PORTFTP then patchFtpin cfg env true p n s
      else (s, some n)
    else (s, some n)
  (s, n?.map fun _ => p')

/-- The entry `natin` creates. -/
def inEntry (t nsrc ptr : ℕ) (p : Pkt) : NatEntry := { inKey t p with ptr := ptr, nsrc := nsrc }

/-- From tunnel to Internet (source NAT case): the translated packet. -/
def natin (cfg : Conf) (env : NatEnv) (t : ℕ) (p : Pkt) (s : State) : State × Option Pkt :=
  let (nats, n?) := s.nats.natSplayFind p.proto (inKey t p) 0 s.ctl.lastgen false false
  let s := { s with nats := nats }
  match n? with
  | some n => natinGot cfg env p n s
  | none =>
    if s.nats.tnatcnt (t, p.proto) ≥ cfg.maxtnatcnt p.proto then (s, none) else
    let (tuns, ok) := natRate cfg env.seconds t p.proto s.tuns
    if !ok || !env.mem 0 then ({ s with tuns := tuns }, none) else
    let n := inEntry t (s.ports.pool (s.tuns.srcidx t)).addr s.nats.next p
    match newNat cfg (env.after 1) n { s with nats := s.nats.alloc, tuns := tuns } with
    | (s, none) => (s, none)
    | (s, some n) => natinGot cfg (env.after 3) p n s

def prrinKey (t : ℕ) (p : Pkt) : NatEntry :=
  { tunnel := t, proto := p.proto, flags := { allDst := true, prrNull := true }, src := p.src,
    sport := p.sport }

/-- From tunnel to Internet (PRR/A+P case). -/
def prrin (t : ℕ) (p : Pkt) (s : State) : State × Option Pkt :=
  let (nats, n?) := s.nats.natSplayFind p.proto (prrinKey t p) 0 s.ctl.lastgen true false
  ({ s with nats := nats }, n?.map fun _ => p)

/-- ICMPv4 from tunnel to Internet: the entry of the packet the error quotes. -/
def naticmpin (t : ℕ) (proto : Pr) (src sport : ℕ) (s : State) : State × Option NatEntry :=
  let key : NatEntry := { tunnel := t, proto := proto, flags := {}, src := src, sport := sport }
  let (nats, n?) := s.nats.natSplayFind proto key 0 s.ctl.lastgen false false
  ({ s with nats := nats }, n?)

/-- The entry `get_ftptempsrv` creates. -/
def ftpSrvEntry (n0 : NatEntry) (ptr : ℕ) (p : Pkt) : NatEntry :=
  { ptr := ptr, tunnel := n0.tunnel, proto := n0.proto, flags := { matchPort := true },
    src := n0.src, nsrc := n0.nsrc, sport := n0.sport, nport := n0.nport, dst := p.src,
    dport := p.sport }

/-- Clone a FTP server static binding at the first match. -/
def getFtptempsrv (cfg : Conf) (env : NatEnv) (p : Pkt) (n0 : NatEntry) (s : State) :
    State × Option NatEntry :=
  if s.nats.tnatcnt (n0.tunnel, .tcp) ≥ cfg.maxtnatcnt .tcp then (s, none) else
  let (tuns, ok) := natRate cfg env.seconds n0.tunnel .tcp s.tuns
  let s := { s with tuns := tuns }
  if !ok || !env.mem 0 then (s, none) else
  let n := ftpSrvEntry n0 s.nats.next p
  let s := { s with nats := s.nats.alloc }
  if !env.mem 1 then (s, none) else
  match s.nats.link .tcp n with
  | (nats, false) => ({ s with nats := nats }, none)
  | (nats, true) =>
    ({ s with nats := (nats.heapInsert n |>.xchain n0 n).count n0.tunnel .tcp }, some n)

/-- Patch FTP packet from Internet to tunnel. -/
def patchFtpout (cfg : Conf) (env : NatEnv) (server : Bool) (p : Pkt) (n0 : NatEntry)
    (s : State) : State × Option NatEntry :=
  if server && n0.flags.allDst then
    match (s.nats.xlist n0.ptr).find? fun f => p.src = f.dst && p.sport = f.dport with
    | some n => (s, some n)
    | none => getFtptempsrv cfg env p n0 s
  else (s, some n0)

/-- `natout` for an entry that was found: an unexpected peer or a packet too
    big for the tunnel is refused, an A+P packet goes as it is. -/
def natoutFound (cfg : Conf) (env : NatEnv) (p : Pkt) (n : NatEntry) (s : State) :
    State × Option (ℕ × Pkt) :=
  if n.flags.ftpData && n.dst ≠ p.src then (s, none)
  else if p.df && p.proto ≠ .icmp && p.len + IP6HDRLEN > s.tuns.mtu n.tunnel &&
      s.tuns.tbdrop n.tunnel then (s, none)
  else if n.flags.prrNull then
    ({ s with nats := s.nats.natSplaySplay p.proto n }, some (n.tunnel, p))
  else
    let p' := { p with dst := n.src, dport := if n.flags.matchAny then n.sport else p.dport }
    let (s, nn) :=
      if n.proto = .tcp then
        if p.sport = PORTFTP then patchFtpout cfg env false p n s
        else if n.sport = PORTFTP then patchFtpout cfg env true p n s
        else (s, some n)
      else (s, some n)
    match nn with
    | none => (s, none)
    | some n => ({ s with nats := s.nats.natSplaySplay p.proto n }, some (n.tunnel, p'))

/-- From Internet to tunnel: the tunnel and the translated packet. -/
def natout (cfg : Conf) (env : NatEnv) (p : Pkt) (s : State) : State × Option (ℕ × Pkt) :=
  match s.nats.natLookup p.proto (outKey p) s.ctl.lastgen with
  | (nats, none) => ({ s with nats := nats }, none)
  | (nats, some n) => natoutFound cfg env p n { s with nats := nats }

/-- The key of `naticmpout`: the quoted packet goes the other way. -/
def icmpOutKey (p : Pkt) : NatEntry :=
  { proto := p.proto, flags := { matchPort := true }, nsrc := p.src, dst := p.dst,
    nport := p.sport, dport := p.dport }

/-- ICMP from Internet to tunnel: `p` is the packet the error quotes, as it
    came from the NAT, and `p.len` and `p.df` are those of the error. -/
def naticmpout (p : Pkt) (s : State) : State × Option ℕ :=
  match s.nats.natLookup p.proto (icmpOutKey p) s.ctl.lastgen with
  | (nats, none) => ({ s with nats := nats }, none)
  | (nats, some n) =>
    ({ s with nats := nats },
      if p.df && p.len + IP6HDRLEN > s.tuns.mtu n.tunnel then none else some n.tunnel)

end WanStack.Aftr
