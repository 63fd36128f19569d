import WanStack.Radvd.ProcessRa

set_option autoImplicit false

/-!
# radvdump

`print_ff` of `radvdump.c`, which writes a received router advertisement as a
configuration. The lines it prints carry the values that stand in them; the
comments at the beginning, which need the sender and the interface, are left
out. Bytes behind the message read as zero, and the read is noted.
-/
namespace WanStack.Radvd
open Aftr (Buf byteAt bytesAt shortAt)
open Lib.Walk

def DFLT_MaxRtrAdvInterval : ℕ := 600
def DFLT_AdvManagedFlag : Bool := false
def DFLT_AdvOtherConfigFlag : Bool := false
def DFLT_AdvLinkMTU : ℕ := 0
def DFLT_AdvReachableTime : ℕ := 0
def DFLT_AdvRetransTimer : ℕ := 0
def DFLT_AdvCurHopLimit : UInt8 := 64
def DFLT_AdvDefaultPreference : UInt8 := 0
def DFLT_AdvSourceLLAddress : Bool := true
def DFLT_AdvValidLifetime : ℕ := 86400
def DFLT_AdvOnLinkFlag : Bool := true
def DFLT_AdvPreferredLifetime : ℕ := 14400
def DFLT_AdvAutonomousFlag : Bool := true
def DFLT_AdvRoutePreference : UInt8 := 0
def DFLT_AdvRouterAddr : Bool := false
def DFLT_AdvHomeAgentFlag : Bool := false
def DFLT_AdvIntervalOpt : Bool := false
def DFLT_AdvMobRtrSupportFlag : ℕ := 0
def DFLT_HomeAgentPreference : ℕ := 0

/-- The printed lines, and what is logged on the way. A lifetime of all ones is
    printed as infinity. -/
inductive Line where
  | AdvManagedFlag (on : Bool)
  | AdvOtherConfigFlag (on : Bool)
  | AdvReachableTime (n : ℕ)
  | AdvRetransTimer (n : ℕ)
  | AdvCurHopLimit (n : UInt8)
  | AdvDefaultLifetime (n : ℕ)
  | AdvHomeAgentFlag (on : Bool)
  | AdvDefaultPreference (p : UInt8)
  | AdvLinkMTU (n : ℕ)
  | AdvSourceLLAddress
  | AdvIntervalOpt
  | AdvHomeAgentInfo
  | AdvMobRtrSupportFlag (on : Bool)
  | HomeAgentPreference (n : ℕ)
  | HomeAgentLifetime (n : ℕ)
  | beginPrefix (addr : In6Addr) (len : UInt8)
  | AdvValidLifetime (n : ℕ)
  | AdvPreferredLifetime (n : ℕ)
  | AdvOnLink (on : Bool)
  | AdvAutonomous (on : Bool)
  | AdvRouterAddr (on : Bool)
  | beginRoute (addr : In6Addr) (len : UInt8)
  | AdvRoutePreference (p : UInt8)
  | AdvRouteLifetime (n : ℕ)
  | beginRDNSS
  | address (addr : In6Addr)
  | AdvRDNSSLifetime (n : ℕ)
  | beginDNSSL
  | suffix (s : Buf)
  | AdvDNSSLLifetime (n : ℕ)
  | closed
  | invalidOption (type : UInt8)
  | unknownOption (type : UInt8)
  | oversizedSuffix
  | trailingGarbage
  | zeroLength
  | tooLong (type : UInt8) (optlen len : ℕ)
deriving DecidableEq

def infinity : ℕ := 0xffffffff

/-- A line that is printed when defaults are, or when the value is no default. -/
def lineIf (edefs : Bool) (differs : Bool) (l : Line) : List (Act Line) :=
  if !edefs || differs then [.emit l] else []

/-- The two bits of a preference. -/
def prefBits (flags : UInt8) : UInt8 := (flags &&& 0x18) >>> 3

def hasFlag (flags bit : UInt8) : Bool := flags &&& bit ≠ 0

def dumpHeader (edefs : Bool) (msg : Buf) : List (Act Line) :=
  let flags := byteAt msg 5
  lineIf edefs (DFLT_AdvManagedFlag ≠ hasFlag flags ND_RA_FLAG_MANAGED)
      (.AdvManagedFlag (hasFlag flags ND_RA_FLAG_MANAGED)) ++
    lineIf edefs (DFLT_AdvOtherConfigFlag ≠ hasFlag flags ND_RA_FLAG_OTHER)
      (.AdvOtherConfigFlag (hasFlag flags ND_RA_FLAG_OTHER)) ++
    lineIf edefs (DFLT_AdvReachableTime ≠ longAt msg 8) (.AdvReachableTime (longAt msg 8)) ++
    lineIf edefs (DFLT_AdvRetransTimer ≠ longAt msg 12) (.AdvRetransTimer (longAt msg 12)) ++
    lineIf edefs (DFLT_AdvCurHopLimit ≠ byteAt msg 4) (.AdvCurHopLimit (byteAt msg 4)) ++
    lineIf edefs (3 * DFLT_MaxRtrAdvInterval ≠ shortAt msg 6) (.AdvDefaultLifetime (shortAt msg 6)) ++
    lineIf edefs (DFLT_AdvHomeAgentFlag ≠ hasFlag flags ND_RA_FLAG_HOME_AGENT)
      (.AdvHomeAgentFlag (hasFlag flags ND_RA_FLAG_HOME_AGENT)) ++
    lineIf edefs (prefBits flags ≠ DFLT_AdvDefaultPreference) (.AdvDefaultPreference (prefBits flags))

def dumpMtu (edefs : Bool) (opt : Buf) : List (Act Line) :=
  .read 4 4 opt.length ::
    lineIf edefs (DFLT_AdvLinkMTU ≠ longAt opt 4) (.AdvLinkMTU (longAt opt 4))

/-- `flags_reserved` is not brought into the order of the host. -/
def dumpHomeAgentInfo (edefs : Bool) (opt : Buf) : List (Act Line) :=
  let mobRtr := hasFlag (byteAt opt 2) 0x80
  .emit .AdvHomeAgentInfo :: .read 2 6 opt.length ::
    (lineIf edefs (DFLT_AdvMobRtrSupportFlag ≠ if mobRtr then ND_OPT_HAI_FLAG_SUPPORT_MR else 0)
        (.AdvMobRtrSupportFlag mobRtr) ++
      lineIf edefs (DFLT_HomeAgentPreference ≠ shortAt opt 4) (.HomeAgentPreference (shortAt opt 4)) ++
      lineIf edefs (3 * DFLT_MaxRtrAdvInterval ≠ shortAt opt 6) (.HomeAgentLifetime (shortAt opt 6)))

/-- The switch of the first loop. -/
def dumpSingle (edefs : Bool) (opt : Buf) : List (Act Line) :=
  let type := byteAt opt 0
  if type = ND_OPT_MTU then dumpMtu edefs opt
  else if type = ND_OPT_SOURCE_LINKADDR then
    lineIf edefs (!DFLT_AdvSourceLLAddress) .AdvSourceLLAddress
  else if type = ND_OPT_RTR_ADV_INTERVAL then lineIf edefs (!DFLT_AdvIntervalOpt) .AdvIntervalOpt
  else if type = ND_OPT_HOME_AGENT_INFO then dumpHomeAgentInfo edefs opt
  else if type = ND_OPT_TARGET_LINKADDR ∨ type = ND_OPT_REDIRECTED_HEADER then
    [.emit (.invalidOption type)]
  else if type = ND_OPT_PREFIX_INFORMATION ∨ type = ND_OPT_ROUTE_INFORMATION ∨
      type = ND_OPT_RDNSS_INFORMATION ∨ type = ND_OPT_DNSSL_INFORMATION then []
  else [.emit (.unknownOption type)]

/-- A lifetime of a prefix, which may be infinite. -/
def dumpLifetime (edefs : Bool) (dflt n : ℕ) (line : ℕ → Line) : List (Act Line) :=
  if n = infinity then lineIf edefs (dflt ≠ infinity) (line infinity)
  else lineIf edefs (dflt ≠ n) (line n)

def dumpPrefix (edefs : Bool) (opt : Buf) : List (Act Line) :=
  let flags := byteAt opt 3
  .read 16 16 opt.length :: .read 2 10 opt.length ::
    .emit (.beginPrefix (addrAt opt 16) (byteAt opt 2)) ::
    (dumpLifetime edefs DFLT_AdvValidLifetime (longAt opt 4) .AdvValidLifetime ++
      dumpLifetime edefs DFLT_AdvPreferredLifetime (longAt opt 8) .AdvPreferredLifetime ++
      lineIf edefs (DFLT_AdvOnLinkFlag ≠ hasFlag flags ND_OPT_PI_FLAG_ONLINK)
        (.AdvOnLink (hasFlag flags ND_OPT_PI_FLAG_ONLINK)) ++
      lineIf edefs (DFLT_AdvAutonomousFlag ≠ hasFlag flags ND_OPT_PI_FLAG_AUTO)
        (.AdvAutonomous (hasFlag flags ND_OPT_PI_FLAG_AUTO)) ++
      lineIf edefs (DFLT_AdvRouterAddr ≠ hasFlag flags ND_OPT_PI_FLAG_RADDR)
        (.AdvRouterAddr (hasFlag flags ND_OPT_PI_FLAG_RADDR)) ++ [.emit .closed])

/-- The first `n` bytes of a zeroed address are copied over. -/
def copiedAddr (opt : Buf) (off n : ℕ) : In6Addr :=
  Vector.ofFn fun j => if j.val < n then byteAt opt (off + j) else 0

/-- Whether the preference is printed hangs on that of the header. -/
def dumpRoute (edefs : Bool) (msg opt : Buf) : List (Act Line) :=
  let len := (byteAt opt 1).toNat
  let n := (len - 1) * 8
  (if optlenOf opt = 8 then [.emit (.beginRoute in6addrAny 0)]
    else
      .read 1 1 opt.length ::
        (if 1 < len then [.read 8 n opt.length, .copy n] else []) ++
        [.read 2 1 opt.length, .emit (.beginRoute (copiedAddr opt 8 n) (byteAt opt 2))]) ++
    .read 3 5 opt.length ::
    (lineIf edefs (prefBits (byteAt msg 5) ≠ DFLT_AdvRoutePreference)
        (.AdvRoutePreference (prefBits (byteAt opt 3))) ++
      [.emit (.AdvRouteLifetime (longAt opt 4)), .emit .closed])

def dumpAddress (opt : Buf) (off : ℕ) : List (Act Line) :=
  [.read off 16 opt.length, .emit (.address (addrAt opt off))]

def dumpRdnss (opt : Buf) : List (Act Line) :=
  let len := (byteAt opt 1).toNat
  .emit .beginRDNSS :: dumpAddress opt 8 ++ [.read 1 1 opt.length] ++
    (if 5 ≤ len then dumpAddress opt 24 else []) ++
    (if 7 ≤ len then dumpAddress opt 40 else []) ++
    [.read 4 4 opt.length, .emit (.AdvRDNSSLifetime (longAt opt 4)), .emit .closed]

/-- The loop over the suffixes up to `limit`, with fuel. -/
def dumpDnsslLoop (opt : Buf) (limit : ℕ) : ℕ → ℕ → Buf → List (Act Line)
  | fuel, offset, suffix =>
    if limit ≤ offset then [] else
    match fuel with
    | 0 => [.stuck]
    | k + 1 =>
      let labelLen := (byteAt opt (8 + offset)).toNat
      let readLen : Act Line := .read (8 + offset) 1 opt.length
      let offset := offset + 1
      if labelLen = 0 then
        if suffix = [] then readLen :: dumpDnsslLoop opt limit k offset suffix
        else readLen :: .emit (.suffix suffix) :: dumpDnsslLoop opt limit k offset []
      else if 256 - suffix.length < labelLen + 2 then [readLen, .emit .oversizedSuffix]
      else
        let suffix := if suffix ≠ [] then suffix ++ [46] else suffix
        let src := opt.drop (8 + offset)
        readLen :: .label (8 + offset) (strncatReads src labelLen) (8 + limit) opt.length ::
          dumpDnsslLoop opt limit k (offset + labelLen) (suffix ++ strncatText src labelLen)

def dumpDnssl (opt : Buf) : List (Act Line) :=
  .emit .beginDNSSL :: .read 1 1 opt.length ::
    (dumpDnsslLoop opt (dnsslLimit opt) (dnsslLimit opt) 0 [] ++
      [.read 4 4 opt.length, .emit (.AdvDNSSLLifetime (longAt opt 4)), .emit .closed])

/-- The switch of the second loop. -/
def dumpBlock (edefs : Bool) (msg opt : Buf) : List (Act Line) :=
  let type := byteAt opt 0
  if type = ND_OPT_PREFIX_INFORMATION then dumpPrefix edefs opt
  else if type = ND_OPT_ROUTE_INFORMATION then dumpRoute edefs msg opt
  else if type = ND_OPT_RDNSS_INFORMATION then dumpRdnss opt
  else if type = ND_OPT_DNSSL_INFORMATION then dumpDnssl opt
  else []

/-- A round of one of the loops over the options, with its switch. -/
def dumpRound (switch : Buf → List (Act Line)) (opt : Buf) : List (Act Line) × Option ℕ :=
  if opt.length < 2 then ([.emit .trailingGarbage], none) else
  let optlen := optlenOf opt
  let readLen : Act Line := .read 1 1 opt.length
  if optlen = 0 then ([readLen, .emit .zeroLength], none)
  else if opt.length < optlen then
    ([readLen, .read 0 1 opt.length, .emit (.tooLong (byteAt opt 0) optlen opt.length)], none)
  else (readLen :: .read 0 1 opt.length :: switch opt, some optlen)

def dumpLoop (switch : Buf → List (Act Line)) (opts : Buf) : Option (List (Act Line)) :=
  (walk (fun opt => (dumpRound switch opt).2) opts).map fun rs =>
    rs.flatMap fun opt => (dumpRound switch opt).1

/-- `print_ff`. No result would be a loop without end. -/
def printFf (edefs : Bool) (msg : Buf) : Option (List (Act Line)) :=
  let opts := msg.drop raHeaderLen
  if msg.length = raHeaderLen then some (dumpHeader edefs msg) else do
  let singles ← dumpLoop (dumpSingle edefs) opts
  let blocks ← dumpLoop (dumpBlock edefs msg) opts
  pure (dumpHeader edefs msg ++ singles ++ blocks ++ [.emit .closed])

end WanStack.Radvd
