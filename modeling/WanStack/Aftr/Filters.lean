import WanStack.Aftr.System
import WanStack.Aftr.TcpMss
import WanStack.Lib.Again

set_option autoImplicit false

/-!
# The input filters

`decap`, `filterin` and `filterout` on the bytes of a packet, with the access
lists and the no-NAT prefixes they look at. Each is a pass behind its label
`again`; `len` is the number of bytes of the buffer.
-/
namespace WanStack.Aftr.Filter
open Again

def IPICMP : UInt8 := 1
def IPTCP : UInt8 := 6
def IPUDP : UInt8 := 17
def ICMPECHREP : UInt8 := 0
def ICMPECHREQ : UInt8 := 8
def IP2 : ℕ := 28
def IPVERMSK : UInt8 := 0xf0
def IP6DSTOP : UInt8 := 50
def IP6ICMP : UInt8 := 58

/-! ### Prefixes -/

def mask4 : List ℕ :=
  [0x00000000, 0x80000000, 0xc0000000, 0xe0000000, 0xf0000000, 0xf8000000, 0xfc000000,
    0xfe000000, 0xff000000, 0xff800000, 0xffc00000, 0xffe00000, 0xfff00000, 0xfff80000,
    0xfffc0000, 0xfffe0000, 0xffff0000, 0xffff8000, 0xffffc000, 0xffffe000, 0xfffff000,
    0xfffff800, 0xfffffc00, 0xfffffe00, 0xffffff00, 0xffffff80, 0xffffffc0, 0xffffffe0,
    0xfffffff0, 0xfffffff8, 0xfffffffc, 0xfffffffe, 0xffffffff]

/-- Four bytes in network order. -/
def addr4Bytes (a : ℕ) : Buf :=
  [UInt8.ofNat (a / 2 ^ 24), UInt8.ofNat (a / 2 ^ 16), UInt8.ofNat (a / 2 ^ 8), UInt8.ofNat a]

def mask4Bytes (plen : ℕ) : Buf := addr4Bytes (mask4.getD plen 0)

/-- Byte `i` of the row `plen` of the table `mask6`. -/
def mask6Byte (plen i : ℕ) : UInt8 := UInt8.ofNat (0xff00 >>> min 8 (plen - 8 * i))

def mask6Bytes (plen : ℕ) : Buf := (List.range 16).map (mask6Byte plen)

/-- An entry of an access list. -/
structure Acl where
  addr : Buf
  mask : Buf
deriving DecidableEq

/-- The test of every matcher: the first `n` bytes behind the mask. -/
def masked (n : ℕ) (src mask addr : Buf) : Bool :=
  (List.range n).all fun i => byteAt src i &&& byteAt mask i == byteAt addr i

structure Acls where
  acl6s : List Acl := []
  acl4s : List Acl :=
    [⟨[10, 0, 0, 0], mask4Bytes 8⟩, ⟨[172, 16, 0, 0], mask4Bytes 12⟩,
      ⟨[192, 168, 0, 0], mask4Bytes 16⟩, ⟨[192, 0, 0, 0], mask4Bytes 29⟩]

def acl6 (a : Acls) (src : Buf) : Bool := a.acl6s.any fun e => masked 16 src e.mask e.addr

def acl4 (a : Acls) (src : Buf) : Bool := a.acl4s.any fun e => masked 4 src e.mask e.addr

/-- `nnaddr` and `nnplen`; the data of a tunnel on the list is there. -/
def nndata (s : Tunnels) (t : Tunnel) : ℕ × ℕ := (s.nonat t.ptr).getD (0, 0)

def inNonat (s : Tunnels) (src : Buf) (t : Tunnel) : Bool :=
  masked 4 src (mask4Bytes (nndata s t).2) (addr4Bytes (nndata s t).1)

/-! ### From the tunnel -/

/-- A packet at the label. -/
structure Packet where
  env : Env
  frags : Frags
  buf4 : Buf

/-- Where a filter left a packet, and its return value; `icmp` when the packet
    went to `naticmpin`. -/
structure Filtered where
  frags : Frags
  buf4 : Buf
  ret : ℕ
  icmp : Bool := false

def localnet (buf4 : Buf) : Bool := byteAt buf4 IPSRC = 127 || byteAt buf4 IPDST = 127

def multicast (buf4 : Buf) : Bool := byteAt buf4 IPSRC ≥ 224 || byteAt buf4 IPDST ≥ 224

def knownProto (buf4 : Buf) : Bool :=
  byteAt buf4 IPPROTO = IPTCP || byteAt buf4 IPPROTO = IPUDP || byteAt buf4 IPPROTO = IPICMP

def isFragment (buf4 : Buf) : Bool :=
  byteAt buf4 IPOFFH &&& (IPMF ||| IPOFFMSK) != 0 || byteAt buf4 IPOFFL != 0

/-- Reassemble, and go back with the packet. -/
def reassemble {σ : Type} (cfg : FragConf) (t : Option ℕ) (s : Packet) (buf4 : Buf)
    (again : Packet → σ) : Pass σ Filtered :=
  match defrag cfg s.env t buf4 s.frags with
  | (frags, some buf4) =>
    .again (again ⟨{ s.env with mem := fun i => s.env.mem (i + 4) }, frags, buf4⟩)
  | (frags, none) => .done ⟨frags, buf4, 0, false⟩

/-- The return value for a whole packet, and whether it goes to `naticmpin`. -/
def inKind (a : Acls) (nonat : Bool) (buf4 : Buf) : ℕ × Bool :=
  if byteAt buf4 IPPROTO = IPICMP ∧ inCksum (buf4.drop IPHDRLEN) ≠ 0 then (0, false)
  else if nonat then (3, false)
  else if byteAt buf4 IPPROTO = IPICMP ∧ byteAt buf4 ICMPTYPE ≠ ICMPECHREQ then (0, true)
  else if acl4 a (buf4.drop IPSRC) then (1, false)
  -- a global IPv4 address: A+P
  else (2, false)

def filterinPass (cfg : FragConf) (a : Acls) (t : ℕ) (nonat : Bool) (s : Packet) :
    Pass Packet Filtered :=
  if s.buf4.length < IPMINLEN then .done ⟨s.frags, s.buf4, 0, false⟩
  else if byteAt s.buf4 0 ≠ IP4VNOOP then .done ⟨s.frags, s.buf4, 0, false⟩
  else if localnet s.buf4 then .done ⟨s.frags, s.buf4, 0, false⟩
  else if multicast s.buf4 then .done ⟨s.frags, s.buf4, 0, false⟩
  else if !knownProto s.buf4 then .done ⟨s.frags, s.buf4, 0, false⟩
  else
    let l := shortAt s.buf4 IPLENH
    if l < IPMINLEN ∨ l > s.buf4.length then .done ⟨s.frags, s.buf4, 0, false⟩
    else
      let buf4 := s.buf4.take l
      if inCksum (buf4.take IPHDRLEN) ≠ 0 then .done ⟨s.frags, buf4, 0, false⟩
      else if isFragment buf4 then reassemble cfg (some t) s buf4 id
      else .done ⟨s.frags, buf4, (inKind a nonat buf4).1, (inKind a nonat buf4).2⟩

def filterin (cfg : FragConf) (a : Acls) (t : ℕ) (nonat : Bool) : ℕ → Packet → Option Filtered :=
  loop (filterinPass cfg a t nonat)

/-- The packet as it is, `none` when its source is outside the prefix. -/
def nonatin (tc : TunnelConf) (s : Tunnels) (t : Tunnel) (buf4 : Buf) :
    Tried.Result (Option Buf) :=
  if !inNonat s (buf4.drop IPSRC) t then pure none
  else if byteAt buf4 IPPROTO = IPTCP then do
    let buf4 ← patchTcpmss tc buf4
    pure (some buf4)
  else pure (some buf4)

/-! ### From the Internet -/

def inPools (p : Ports) (dst : Buf) : Bool := p.pools.any fun ns => dst == addr4Bytes ns.addr

def filtericmpout (p : Ports) (buf4 : Buf) : Bool :=
  if buf4.length < IP2 + IPMINLEN then false
  else if byteAt buf4 ICMPTYPE ≠ 3 ∧ byteAt buf4 ICMPTYPE ≠ 11 ∧ byteAt buf4 ICMPTYPE ≠ 12 then
    false
  else if byteAt buf4 IP2 ≠ IP4VNOOP then false
  else if localnet (buf4.drop IP2) then false
  else if multicast (buf4.drop IP2) then false
  else if byteAt buf4 (IP2 + IPPROTO) ≠ IPTCP ∧ byteAt buf4 (IP2 + IPPROTO) ≠ IPUDP then false
  else if bytesAt buf4 IPDST 4 ≠ bytesAt buf4 (IP2 + IPSRC) 4 then false
  else if shortAt buf4 (IP2 + IPLENH) < IPMINLEN then false
  else if inCksum (bytesAt buf4 IP2 IPHDRLEN) ≠ 0 then false
  else if byteAt buf4 (IP2 + IPOFFH) &&& IPOFFMSK ≠ 0 ∨ byteAt buf4 (IP2 + IPOFFL) ≠ 0 then false
  else if inCksum (buf4.drop IPHDRLEN) ≠ 0 then false
  else inPools p (bytesAt buf4 IPDST 4)

/-- `ret` at the label, from its first value on: `none` is the -1. -/
structure OutPacket extends Packet where
  ret : Option ℕ := none

/-- The destination control, done once for a datagram. -/
def destination (s : State) (ret : Option ℕ) (buf4 : Buf) : Option ℕ :=
  match ret with
  | some ret => some ret
  | none =>
    if s.tuns.nonats.any (inNonat s.tuns (buf4.drop IPDST)) then some 3
    else if inPools s.ports (bytesAt buf4 IPDST 4) then some 0
    else none

/-- The return value for a whole packet. -/
def outKind (p : Ports) (ret : ℕ) (buf4 : Buf) : ℕ :=
  if byteAt buf4 IPPROTO = IPTCP then
    if buf4.length < IPHDRLEN + 20 then 0
    else if ret ≠ 3 then 1 else ret
  else if byteAt buf4 IPPROTO = IPUDP then if ret ≠ 3 then 1 else ret
  else if ret = 3 then ret
  else if byteAt buf4 ICMPTYPE = ICMPECHREP then 1
  else if filtericmpout p buf4 then 2
  else ret

/-- `st` stands for the tables, which the filter only reads. -/
def filteroutPass (cfg : FragConf) (st : State) (s : OutPacket) : Pass OutPacket Filtered :=
  if s.buf4.length < IPMINLEN then .done ⟨s.frags, s.buf4, 0, false⟩
  else if byteAt s.buf4 0 ≠ IP4VNOOP then .done ⟨s.frags, s.buf4, 0, false⟩
  else if localnet s.buf4 then .done ⟨s.frags, s.buf4, 0, false⟩
  else if multicast s.buf4 then .done ⟨s.frags, s.buf4, 0, false⟩
  else
    let l := shortAt s.buf4 IPLENH
    if l < IPMINLEN ∨ l > s.buf4.length then .done ⟨s.frags, s.buf4, 0, false⟩
    else
      let buf4 := s.buf4.take l
      if inCksum (buf4.take IPHDRLEN) ≠ 0 then .done ⟨s.frags, buf4, 0, false⟩
      else match destination st s.ret buf4 with
        | none => .done ⟨s.frags, buf4, 0, false⟩
        | some ret =>
          if !knownProto buf4 then .done ⟨s.frags, buf4, 0, false⟩
          else if isFragment buf4 then
            reassemble cfg none s.toPacket buf4 fun p => { p with ret := some ret }
          else .done ⟨s.frags, buf4, outKind st.ports ret buf4, false⟩

def filterout (cfg : FragConf) (st : State) : ℕ → OutPacket → Option Filtered :=
  loop (filteroutPass cfg st)

/-- The first tunnel of the list that is a no-NAT tunnel and has the destination. -/
def refindNonat (s : Tunnels) (dst : Buf) : Option Tunnel :=
  s.nonats.find? fun t => (s.nonat t.ptr).isSome && inNonat s dst t

def nonatout (tc : Tunnel → TunnelConf) (s : Tunnels) (buf4 : Buf) :
    Tried.Result (Option (Tunnel × Buf)) :=
  match refindNonat s (buf4.drop IPDST) with
  | none => pure none
  | some t =>
    if byteAt buf4 IPOFFH &&& IPDF ≠ 0 ∧ byteAt buf4 IPPROTO ≠ IPICMP ∧
        byteAt buf4 IPOFFH &&& IPOFFMSK = 0 ∧ byteAt buf4 IPOFFL = 0 ∧
        buf4.length + IP6HDRLEN > (tc t).mtu ∧ (tc t).tbdrop = true then pure none
    else if byteAt buf4 IPPROTO = IPTCP then do
      let buf4 ← patchTcpmss (tc t) buf4
      pure (some (t, buf4))
    else pure (some (t, buf4))

/-! ### Encapsulated packets -/

/-- An IPv6 packet at the label, with the tunnel found before. -/
structure Packet6 where
  env : NatEnv
  st : State
  t : Option Tunnel
  buf6 : Buf

def addr6At (buf6 : Buf) (i : ℕ) : Addr6 :=
  BitVec.ofNat 128 ((bytesAt buf6 i 16).foldl (fun n b => n * 256 + b.toNat) 0)

/-- The destination option header is taken out of the packet. -/
def stripDstop (buf6 : Buf) : Buf :=
  let l := buf6.length - IP6HDRLEN - 8
  let h := ((buf6.take IP6HDRLEN).set IP6LENH (hi l)).set IP6LENL (lo l)
  h.set IP6PROTO (byteAt buf6 IP6FPROTO) ++ buf6.drop (IP6HDRLEN + 8)

/-- The packet behind the headers for its tunnel, which may be a new one. -/
def decapPass (cfg : Conf) (a : Acls) (autotunnel : Bool) (s : Packet6) :
    Pass Packet6 (State × Option (Tunnel × Buf)) :=
  if byteAt s.buf6 0 &&& IPVERMSK ≠ IP6V then .done (s.st, none)
  else if s.buf6.length < IP6HDRLEN + 8 + 8 then .done (s.st, none)
  else if byteAt s.buf6 IP6PROTO = IP6ICMP then .done (s.st, none)
  else
    match (match s.t with
      | some t => (s.st, some t)
      | none => decap cfg s.env (addr6At s.buf6 IP6SRC)
          (autotunnel && acl6 a (s.buf6.drop IP6SRC)) s.st) with
    | (st, none) => .done (st, none)
    | (st, some t) =>
      let env := s.env.after 3
      let l := shortAt s.buf6 IP6LENH
      if l > s.buf6.length - IP6HDRLEN then .done (st, none)
      else if l < s.buf6.length - IP6HDRLEN ∧ l < 8 + 8 then .done (st, none)
      else
        let buf6 := s.buf6.take (IP6HDRLEN + l)
        if byteAt buf6 IP6PROTO ≠ IP6IP4 then
          if byteAt buf6 IP6PROTO = IP6FRAG ∧ byteAt buf6 IP6FPROTO = IP6IP4 then
            match defrag6 cfg.frag env.toEnv t.ptr buf6 st.frags with
            | (frags, some buf6) => .again ⟨env.after 4, { st with frags := frags }, some t, buf6⟩
            | (frags, none) => .done ({ st with frags := frags }, none)
          else if byteAt buf6 IP6PROTO = IP6DSTOP ∧ byteAt buf6 IP6FPROTO = IP6IP4 ∧
              byteAt buf6 (IP6FPROTO + 1) = 0 then
            .again ⟨env, st, some t, stripDstop buf6⟩
          else .done (st, none)
        else .done (st, some (t, buf6.drop IP6HDRLEN))

def decap (cfg : Conf) (a : Acls) (autotunnel : Bool) :
    ℕ → Packet6 → Option (State × Option (Tunnel × Buf)) :=
  loop (decapPass cfg a autotunnel)

end WanStack.Aftr.Filter
