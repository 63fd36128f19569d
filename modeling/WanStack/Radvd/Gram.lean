import WanStack.Radvd.Config

set_option autoImplicit false

/-!
# The grammar of the configuration file

The parser of `gram.y`, one token at a step. No block holds another of its kind, so
the places between two tokens are finitely many and an action runs when its last
token is read. Memory suffices.
-/
namespace WanStack.Radvd.Gram
open Aftr (Buf)

/-- What `yylex` returns, with the values of `yylval`. -/
inductive Token where
  | T_INTERFACE | T_PREFIX | T_ROUTE | T_RDNSS | T_DNSSL | T_CLIENTS | T_LOWPANCO | T_ABRO | T_RASRCADDRESS
  | STRING (str : Buf)
  | NUMBER (num : UInt32)
  | SIGNEDNUMBER (snum : ℤ)
  | DECIMAL (dec : ℚ)
  | SWITCH (num : Bool)
  | IPV6ADDR (addr : In6Addr)
  | INFINITY
  | T_IgnoreIfMissing | T_AdvSendAdvert | T_MaxRtrAdvInterval | T_MinRtrAdvInterval | T_MinDelayBetweenRAs
  | T_AdvManagedFlag | T_AdvOtherConfigFlag | T_AdvLinkMTU | T_AdvRAMTU | T_AdvReachableTime
  | T_AdvRetransTimer | T_AdvCurHopLimit | T_AdvDefaultLifetime | T_AdvDefaultPreference
  | T_AdvSourceLLAddress | T_AdvOnLink | T_AdvAutonomous | T_AdvValidLifetime | T_AdvPreferredLifetime
  | T_DeprecatePrefix | T_DecrementLifetimes | T_AdvRouterAddr | T_AdvHomeAgentFlag | T_AdvIntervalOpt
  | T_AdvHomeAgentInfo | T_Base6Interface | T_Base6to4Interface | T_UnicastOnly | T_AdvRASolicitedUnicast
  | T_HomeAgentPreference | T_HomeAgentLifetime | T_AdvRoutePreference | T_AdvRouteLifetime | T_RemoveRoute
  | T_AdvRDNSSPreference | T_AdvRDNSSOpenFlag | T_AdvRDNSSLifetime | T_FlushRDNSS | T_AdvDNSSLLifetime
  | T_FlushDNSSL | T_AdvMobRtrSupportFlag | T_AdvContextLength | T_AdvContextCompressionFlag
  | T_AdvContextID | T_AdvLifeTime | T_AdvContextPrefix | T_AdvVersionLow | T_AdvVersionHigh
  | T_AdvValidLifeTime | T_Adv6LBRaddress
  | LBRACE | RBRACE | SEMICOLON | SLASH
  | T_BAD_TOKEN
deriving DecidableEq

/-! ### Settings -/

inductive IfaceVal where
  | MinRtrAdvInterval (v : ℚ)
  | MaxRtrAdvInterval (v : ℚ)
  | MinDelayBetweenRAs (v : ℚ)
  | IgnoreIfMissing (on : Bool)
  | AdvSendAdvert (on : Bool)
  | AdvManagedFlag (on : Bool)
  | AdvOtherConfigFlag (on : Bool)
  | AdvLinkMTU (n : UInt32)
  | AdvRAMTU (n : UInt32)
  | AdvReachableTime (n : UInt32)
  | AdvRetransTimer (n : UInt32)
  | AdvDefaultLifetime (n : UInt32)
  | AdvDefaultPreference (z : ℤ)
  | AdvCurHopLimit (n : UInt32)
  | AdvSourceLLAddress (on : Bool)
  | AdvIntervalOpt (on : Bool)
  | AdvHomeAgentInfo (on : Bool)
  | AdvHomeAgentFlag (on : Bool)
  | HomeAgentPreference (n : UInt32)
  | HomeAgentLifetime (n : UInt32)
  | UnicastOnly (on : Bool)
  | AdvRASolicitedUnicast (on : Bool)
  | AdvMobRtrSupportFlag (on : Bool)
deriving DecidableEq

inductive PrefixParm where
  | AdvOnLink (on : Bool)
  | AdvAutonomous (on : Bool)
  | AdvRouterAddr (on : Bool)
  | AdvValidLifetime (n : UInt32)
  | AdvPreferredLifetime (n : UInt32)
  | DeprecatePrefix (on : Bool)
  | DecrementLifetimes (on : Bool)
  | Base6Interface (name : Buf)
  | Base6to4Interface (name : Buf)
deriving DecidableEq

inductive RouteParm where
  | AdvRoutePreference (z : ℤ)
  | AdvRouteLifetime (n : UInt32)
  | RemoveRoute (on : Bool)
deriving DecidableEq

inductive RdnssParm where
  | AdvRDNSSPreference (n : UInt32)
  | AdvRDNSSOpenFlag (on : Bool)
  | AdvRDNSSLifetime (n : UInt32)
  | FlushRDNSS (on : Bool)
deriving DecidableEq

inductive DnsslParm where
  | AdvDNSSLLifetime (n : UInt32)
  | FlushDNSSL (on : Bool)
deriving DecidableEq

inductive LowpancoParm where
  | AdvContextLength (n : UInt32)
  | AdvContextCompressionFlag (on : Bool)
  | AdvContextID (n : UInt32)
  | AdvLifeTime (n : UInt32)
deriving DecidableEq

inductive AbroParm where
  | AdvVersionLow (n : UInt32)
  | AdvVersionHigh (n : UInt32)
  | AdvValidLifeTime (n : UInt32)
deriving DecidableEq

/-- An `unsigned int` stored in an `int32_t`. -/
def toI32 (n : UInt32) : ℤ := if n.toNat < 2147483648 then n.toNat else n.toNat - 4294967296

def ifaceval (v : IfaceVal) (iface : IfaceConf) : IfaceConf :=
  match v with
  | .MinRtrAdvInterval v => { iface with MinRtrAdvInterval := v }
  | .MaxRtrAdvInterval v => { iface with MaxRtrAdvInterval := v }
  | .MinDelayBetweenRAs v => { iface with MinDelayBetweenRAs := v }
  | .IgnoreIfMissing on => { iface with IgnoreIfMissing := on }
  | .AdvSendAdvert on => { iface with AdvSendAdvert := on }
  | .AdvManagedFlag on =>
    { iface with ra_header_info := { iface.ra_header_info with AdvManagedFlag := on } }
  | .AdvOtherConfigFlag on =>
    { iface with ra_header_info := { iface.ra_header_info with AdvOtherConfigFlag := on } }
  | .AdvLinkMTU n => { iface with AdvLinkMTU := n }
  | .AdvRAMTU n => { iface with AdvRAMTU := min MAX_AdvLinkMTU (max MIN_AdvLinkMTU n) }
  | .AdvReachableTime n =>
    { iface with ra_header_info := { iface.ra_header_info with AdvReachableTime := n } }
  | .AdvRetransTimer n =>
    { iface with ra_header_info := { iface.ra_header_info with AdvRetransTimer := n } }
  | .AdvDefaultLifetime n =>
    { iface with ra_header_info := { iface.ra_header_info with AdvDefaultLifetime := toI32 n } }
  | .AdvDefaultPreference z =>
    { iface with ra_header_info := { iface.ra_header_info with AdvDefaultPreference := z } }
  | .AdvCurHopLimit n =>
    { iface with ra_header_info := { iface.ra_header_info with AdvCurHopLimit := n.toUInt8 } }
  | .AdvSourceLLAddress on => { iface with AdvSourceLLAddress := on }
  | .AdvIntervalOpt on => { iface with mipv6 := { iface.mipv6 with AdvIntervalOpt := on } }
  | .AdvHomeAgentInfo on => { iface with mipv6 := { iface.mipv6 with AdvHomeAgentInfo := on } }
  | .AdvHomeAgentFlag on =>
    { iface with ra_header_info := { iface.ra_header_info with AdvHomeAgentFlag := on } }
  | .HomeAgentPreference n =>
    { iface with mipv6 := { iface.mipv6 with HomeAgentPreference := n.toUInt16 } }
  | .HomeAgentLifetime n => { iface with mipv6 := { iface.mipv6 with HomeAgentLifetime := toI32 n } }
  | .UnicastOnly on => { iface with UnicastOnly := on }
  | .AdvRASolicitedUnicast on => { iface with AdvRASolicitedUnicast := on }
  | .AdvMobRtrSupportFlag on => { iface with mipv6 := { iface.mipv6 with AdvMobRtrSupportFlag := on } }

/-- `strncpy` into a name of `IFNAMSIZ` bytes. -/
def ifname (name : Buf) : Buf := name.take 15

def prefixparms (v : PrefixParm) (p : AdvPrefix) : AdvPrefix :=
  match v with
  | .AdvOnLink on => { p with AdvOnLinkFlag := on }
  | .AdvAutonomous on => { p with AdvAutonomousFlag := on }
  | .AdvRouterAddr on => { p with AdvRouterAddr := on }
  | .AdvValidLifetime n => { p with AdvValidLifetime := n, curr_validlft := n }
  | .AdvPreferredLifetime n => { p with AdvPreferredLifetime := n, curr_preferredlft := n }
  | .DeprecatePrefix on => { p with DeprecatePrefixFlag := on }
  | .DecrementLifetimes on => { p with DecrementLifetimesFlag := on }
  | .Base6Interface name => { p with if6 := ifname name }
  | .Base6to4Interface name => { p with if6to4 := ifname name }

def routeparms (v : RouteParm) (r : AdvRoute) : AdvRoute :=
  match v with
  | .AdvRoutePreference z => { r with AdvRoutePreference := z }
  | .AdvRouteLifetime n => { r with AdvRouteLifetime := n }
  | .RemoveRoute on => { r with RemoveRouteFlag := on }

/-- A lifetime below the interval that is not 0 is raised to it. -/
def raised (MaxRtrAdvInterval : ℚ) (n : UInt32) : UInt32 :=
  if (n.toNat : ℚ) < MaxRtrAdvInterval ∧ n ≠ 0 then toU32 MaxRtrAdvInterval else n

/-- What the lifetime is raised to is overwritten at the end of the action. -/
def rdnssparms (MaxRtrAdvInterval : ℚ) (v : RdnssParm) (r : AdvRDNSS) : AdvRDNSS :=
  match v with
  | .AdvRDNSSPreference _ => r
  | .AdvRDNSSOpenFlag _ => r
  | .AdvRDNSSLifetime n =>
    let r := { r with AdvRDNSSLifetime := raised MaxRtrAdvInterval n }
    { r with AdvRDNSSLifetime := n }
  | .FlushRDNSS on => { r with FlushRDNSSFlag := on }

def dnsslparms (MaxRtrAdvInterval : ℚ) (v : DnsslParm) (d : AdvDNSSL) : AdvDNSSL :=
  match v with
  | .AdvDNSSLLifetime n => { d with AdvDNSSLLifetime := raised MaxRtrAdvInterval n }
  | .FlushDNSSL on => { d with FlushDNSSLFlag := on }

def lowpancoparms (v : LowpancoParm) (l : AdvLowpanCo) : AdvLowpanCo :=
  match v with
  | .AdvContextLength n => { l with ContextLength := n.toUInt8 }
  | .AdvContextCompressionFlag on => { l with ContextCompressionFlag := if on then 1 else 0 }
  | .AdvContextID n => { l with AdvContextID := n.toUInt8 }
  | .AdvLifeTime n => { l with AdvLifeTime := n.toUInt16 }

def abroparms (v : AbroParm) (a : AdvAbro) : AdvAbro :=
  match v with
  | .AdvVersionLow n => { a with Version := (a.Version.1, n.toUInt16) }
  | .AdvVersionHigh n => { a with Version := (n.toUInt16, a.Version.2) }
  | .AdvValidLifeTime n => { a with ValidLifeTime := n.toUInt16 }

/-! ### The statements of the blocks -/

inductive Block where
  | iface
  | pfx
  | route
  | rdnss
  | dnssl
  | lowpanco
  | abro
deriving DecidableEq

inductive Parm where
  | iface (v : IfaceVal)
  | pfx (v : PrefixParm)
  | route (v : RouteParm)
  | rdnss (v : RdnssParm)
  | dnssl (v : DnsslParm)
  | lowpanco (v : LowpancoParm)
  | abro (v : AbroParm)
deriving DecidableEq

def number : Token → Option UInt32
  | .NUMBER n => some n
  | _ => none

def interval : Token → Option ℚ
  | .NUMBER n => some n.toNat
  | .DECIMAL q => some q
  | _ => none

def switch : Token → Option Bool
  | .SWITCH on => some on
  | _ => none

def signednumber : Token → Option ℤ
  | .SIGNEDNUMBER z => some z
  | _ => none

def string : Token → Option Buf
  | .STRING name => some name
  | _ => none

/-- `number_or_infinity`. -/
def numberOrInfinity : Token → Option UInt32
  | .NUMBER n => some n
  | .INFINITY => some 0xffffffff
  | _ => none

/-- The statement that a keyword and a value make; `none` where the block does not know
    the keyword or the value is of another kind. -/
def ifacevalOf (k v : Token) : Option IfaceVal :=
  match k with
  | .T_MinRtrAdvInterval => (interval v).map .MinRtrAdvInterval
  | .T_MaxRtrAdvInterval => (interval v).map .MaxRtrAdvInterval
  | .T_MinDelayBetweenRAs => (interval v).map .MinDelayBetweenRAs
  | .T_IgnoreIfMissing => (switch v).map .IgnoreIfMissing
  | .T_AdvSendAdvert => (switch v).map .AdvSendAdvert
  | .T_AdvManagedFlag => (switch v).map .AdvManagedFlag
  | .T_AdvOtherConfigFlag => (switch v).map .AdvOtherConfigFlag
  | .T_AdvLinkMTU => (number v).map .AdvLinkMTU
  | .T_AdvRAMTU => (number v).map .AdvRAMTU
  | .T_AdvReachableTime => (number v).map .AdvReachableTime
  | .T_AdvRetransTimer => (number v).map .AdvRetransTimer
  | .T_AdvDefaultLifetime => (number v).map .AdvDefaultLifetime
  | .T_AdvDefaultPreference => (signednumber v).map .AdvDefaultPreference
  | .T_AdvCurHopLimit => (number v).map .AdvCurHopLimit
  | .T_AdvSourceLLAddress => (switch v).map .AdvSourceLLAddress
  | .T_AdvIntervalOpt => (switch v).map .AdvIntervalOpt
  | .T_AdvHomeAgentInfo => (switch v).map .AdvHomeAgentInfo
  | .T_AdvHomeAgentFlag => (switch v).map .AdvHomeAgentFlag
  | .T_HomeAgentPreference => (number v).map .HomeAgentPreference
  | .T_HomeAgentLifetime => (number v).map .HomeAgentLifetime
  | .T_UnicastOnly => (switch v).map .UnicastOnly
  | .T_AdvRASolicitedUnicast => (switch v).map .AdvRASolicitedUnicast
  | .T_AdvMobRtrSupportFlag => (switch v).map .AdvMobRtrSupportFlag
  | _ => none

def prefixparmOf (k v : Token) : Option PrefixParm :=
  match k with
  | .T_AdvOnLink => (switch v).map .AdvOnLink
  | .T_AdvAutonomous => (switch v).map .AdvAutonomous
  | .T_AdvRouterAddr => (switch v).map .AdvRouterAddr
  | .T_AdvValidLifetime => (numberOrInfinity v).map .AdvValidLifetime
  | .T_AdvPreferredLifetime => (numberOrInfinity v).map .AdvPreferredLifetime
  | .T_DeprecatePrefix => (switch v).map .DeprecatePrefix
  | .T_DecrementLifetimes => (switch v).map .DecrementLifetimes
  | .T_Base6Interface => (string v).map .Base6Interface
  | .T_Base6to4Interface => (string v).map .Base6to4Interface
  | _ => none

def routeparmOf (k v : Token) : Option RouteParm :=
  match k with
  | .T_AdvRoutePreference => (signednumber v).map .AdvRoutePreference
  | .T_AdvRouteLifetime => (numberOrInfinity v).map .AdvRouteLifetime
  | .T_RemoveRoute => (switch v).map .RemoveRoute
  | _ => none

def rdnssparmOf (k v : Token) : Option RdnssParm :=
  match k with
  | .T_AdvRDNSSPreference => (number v).map .AdvRDNSSPreference
  | .T_AdvRDNSSOpenFlag => (switch v).map .AdvRDNSSOpenFlag
  | .T_AdvRDNSSLifetime => (numberOrInfinity v).map .AdvRDNSSLifetime
  | .T_FlushRDNSS => (switch v).map .FlushRDNSS
  | _ => none

def dnsslparmOf (k v : Token) : Option DnsslParm :=
  match k with
  | .T_AdvDNSSLLifetime => (numberOrInfinity v).map .AdvDNSSLLifetime
  | .T_FlushDNSSL => (switch v).map .FlushDNSSL
  | _ => none

def lowpancoparmOf (k v : Token) : Option LowpancoParm :=
  match k with
  | .T_AdvContextLength => (number v).map .AdvContextLength
  | .T_AdvContextCompressionFlag => (switch v).map .AdvContextCompressionFlag
  | .T_AdvContextID => (number v).map .AdvContextID
  | .T_AdvLifeTime => (number v).map .AdvLifeTime
  | _ => none

def abroparmOf (k v : Token) : Option AbroParm :=
  match k with
  | .T_AdvVersionLow => (number v).map .AdvVersionLow
  | .T_AdvVersionHigh => (number v).map .AdvVersionHigh
  | .T_AdvValidLifeTime => (number v).map .AdvValidLifeTime
  | _ => none

def parmOf (b : Block) (k v : Token) : Option Parm :=
  match b with
  | .iface => (ifacevalOf k v).map .iface
  | .pfx => (prefixparmOf k v).map .pfx
  | .route => (routeparmOf k v).map .route
  | .rdnss => (rdnssparmOf k v).map .rdnss
  | .dnssl => (dnsslparmOf k v).map .dnssl
  | .lowpanco => (lowpancoparmOf k v).map .lowpanco
  | .abro => (abroparmOf k v).map .abro

/-! ### The parser -/

/-- An interface of the list, and whether its memory is still its own. -/
structure Cell where
  conf : IfaceConf
  live : Bool

/-- The static variables of the parser. `prefix` is `pfx` here. -/
structure Globals where
  IfaceList : List Cell
  iface : Option IfaceConf
  pfx : Option AdvPrefix
  route : Option AdvRoute
  rdnss : Option AdvRDNSS
  dnssl : Option AdvDNSSL
  lowpanco : Option AdvLowpanCo
  abro : Option AdvAbro

/-- The two lists that hold addresses only. -/
inductive AddrList where
  | clients
  | rasrcaddress
deriving DecidableEq

/-- Where the parser stands between two tokens. -/
inductive Place where
  | grammar
  | ifacename
  | ifaceopen
  | ifaceclose
  | params (b : Block)
  | keyword (b : Block) (k : Token)
  | value (b : Block) (v : Parm)
  | defopen (b : Block)
  | defclose (b : Block)
  | prefixaddr
  | prefixslash (a : In6Addr)
  | prefixlen (a : In6Addr)
  | prefixopt
  | routeaddr
  | routeslash (a : In6Addr)
  | routelen (a : In6Addr)
  | rdnssaddrs (found : Bool)
  | dnsslsuffixes (found : Bool)
  | abroaddr
  | abroopt (a : In6Addr)
  | abrolen (a : In6Addr)
  | addrsopen (l : AddrList)
  | addrs (l : AddrList) (as : List In6Addr)
  | addrsemi (l : AddrList) (as : List In6Addr)
  | addrsclose (l : AddrList) (as : List In6Addr)
  | failed
deriving DecidableEq

structure Parser extends Globals where
  place : Place

def Parser.goto (p : Parser) (place : Place) : Parser := { p with place := place }

/-- A syntax error: `yyerror` and nothing else. -/
def Parser.error (p : Parser) : Parser := p.goto .failed

/-- `ABORT`, with `cleanup`. The interface that is being read is in no list. -/
def Parser.abort (p : Parser) : Parser :=
  { IfaceList := p.IfaceList
    iface := none
    pfx := none
    route := none
    rdnss := none
    dnssl := none
    lowpanco := none
    abro := none
    place := .failed }

/-- The search for an interface of that name. `cleanup` frees what is found, and what
    is behind it in the list. -/
def freeFrom (name : Buf) : List Cell → Option (List Cell)
  | [] => none
  | c :: cs =>
    if c.conf.name = name then some ((c :: cs).map fun c => { c with live := false })
    else (freeFrom name cs).map (c :: ·)

def ifacehead (name : Buf) (p : Parser) : Parser :=
  match freeFrom name p.IfaceList with
  | some freed => { p.abort with IfaceList := freed }
  | none =>
    { p with
      iface := some { ifaceInitDefaults with name := ifname name }
      place := .ifaceopen }

def ifacedef (p : Parser) : Parser :=
  match p.iface with
  | none => p.error
  | some iface =>
    { p with
      IfaceList := { conf := iface, live := true } :: p.IfaceList
      iface := none
      place := .grammar }

def prefixhead (a : In6Addr) (n : UInt32) (p : Parser) : Parser :=
  if MAX_PrefixLen < n.toNat then p.abort
  else
    { p with
      pfx := some { prefixInitDefaults with Prefix := a, PrefixLen := n.toUInt8 }
      place := .prefixopt }

/-- The checks of a prefix, and `ADD_TO_LL`. -/
def prefixdef (p : Parser) : Parser :=
  match p.pfx, p.iface with
  | some pfx, some iface =>
    if pfx.AdvValidLifetime < pfx.AdvPreferredLifetime then p.abort
    else if pfx.if6 ≠ [] ∧ pfx.PrefixLen ≠ 64 then p.abort
    else
      { p with
        pfx := none
        iface := some { iface with AdvPrefixList := iface.AdvPrefixList ++ [pfx] }
        place := .params .iface }
  | _, _ => p.error

def routehead (a : In6Addr) (n : UInt32) (p : Parser) : Parser :=
  match p.iface with
  | none => p.error
  | some iface =>
    if MAX_PrefixLen < n.toNat then p.abort
    else
      { p with
        route := some { routeInitDefaults iface.MaxRtrAdvInterval with Prefix := a, PrefixLen := n.toUInt8 }
        place := .defopen .route }

/-- The address put into the first free of three places. -/
def addAddr (a : In6Addr) (r : AdvRDNSS) : Option AdvRDNSS :=
  if r.AdvRDNSSNumber = 0 then
    some { r with AdvRDNSSAddr1 := a, AdvRDNSSNumber := 1, number_le := by decide }
  else if r.AdvRDNSSNumber = 1 then
    some { r with AdvRDNSSAddr2 := a, AdvRDNSSNumber := 2, number_le := by decide }
  else if r.AdvRDNSSNumber = 2 then
    some { r with AdvRDNSSAddr3 := a, AdvRDNSSNumber := 3, number_le := by decide }
  else none

def rdnssaddr (a : In6Addr) (p : Parser) : Parser :=
  match p.iface with
  | none => p.error
  | some iface =>
    match addAddr a (p.rdnss.getD (rdnssInitDefaults iface.MaxRtrAdvInterval)) with
    | none => p.abort
    | some r =>
      { p with
        rdnss := some r
        place := .rdnssaddrs true }

def suffixChar (c : UInt8) : Bool :=
  65 ≤ c && c ≤ 90 || 97 ≤ c && c ≤ 122 || 48 ≤ c && c ≤ 57 || c = 45 || c = 46

def dnsslsuffix (s : Buf) (p : Parser) : Parser :=
  match p.iface with
  | none => p.error
  | some iface =>
    if s.all suffixChar then
      let d := p.dnssl.getD (dnsslInitDefaults iface.MaxRtrAdvInterval)
      { p with
        dnssl := some { d with AdvDNSSLSuffixes := d.AdvDNSSLSuffixes ++ [s] }
        place := .dnsslsuffixes true }
    else p.abort

def lowpancohead (p : Parser) : Parser :=
  { p with
    lowpanco := some { ContextLength := 0, ContextCompressionFlag := 0, AdvContextID := 0, AdvLifeTime := 0, AdvContextPrefix := zeroAddr }
    place := .defopen .lowpanco }

def abrohead (a : In6Addr) (p : Parser) : Parser :=
  { p with
    abro := some { Version := (0, 0), ValidLifeTime := 0, LBRaddress := a } }

/-- The action of a statement of a block. -/
def parm (v : Parm) (p : Parser) : Parser :=
  match v with
  | .iface v => { p with iface := p.iface.map (ifaceval v) }
  | .pfx v => { p with pfx := p.pfx.map (prefixparms v) }
  | .route v => { p with route := p.route.map (routeparms v) }
  | .rdnss v =>
    { p with rdnss := p.iface.bind fun iface => p.rdnss.map (rdnssparms iface.MaxRtrAdvInterval v) }
  | .dnssl v =>
    { p with dnssl := p.iface.bind fun iface => p.dnssl.map (dnsslparms iface.MaxRtrAdvInterval v) }
  | .lowpanco v => { p with lowpanco := p.lowpanco.map (lowpancoparms v) }
  | .abro v => { p with abro := p.abro.map (abroparms v) }

/-- A definition is read: it is put at the end of its list. -/
def definition (b : Block) (p : Parser) : Parser :=
  match b with
  | .iface => p.error
  | .pfx => prefixdef p
  | .route =>
    { p with
      route := none
      iface := p.iface.map fun iface => { iface with AdvRouteList := iface.AdvRouteList ++ p.route.toList }
      place := .params .iface }
  | .rdnss =>
    { p with
      rdnss := none
      iface := p.iface.map fun iface => { iface with AdvRDNSSList := iface.AdvRDNSSList ++ p.rdnss.toList }
      place := .params .iface }
  | .dnssl =>
    { p with
      dnssl := none
      iface := p.iface.map fun iface => { iface with AdvDNSSLList := iface.AdvDNSSLList ++ p.dnssl.toList }
      place := .params .iface }
  | .lowpanco =>
    { p with
      lowpanco := none
      iface := p.iface.map fun iface =>
        { iface with AdvLowpanCoList := iface.AdvLowpanCoList ++ p.lowpanco.toList }
      place := .params .iface }
  | .abro =>
    { p with
      abro := none
      iface := p.iface.map fun iface => { iface with AdvAbroList := iface.AdvAbroList ++ p.abro.toList }
      place := .params .iface }

/-- `clientslist` and `rasrcaddresslist`; the last address read is the first of its list. -/
def addrsdef (l : AddrList) (as : List In6Addr) (p : Parser) : Parser :=
  match l with
  | .clients =>
    { p with
      iface := p.iface.map fun iface => { iface with ClientList := iface.ClientList ++ as }
      place := .params .iface }
  | .rasrcaddress =>
    { p with
      iface := p.iface.map fun iface =>
        { iface with AdvRASrcAddressList := iface.AdvRASrcAddressList ++ as }
      place := .params .iface }

/-- The keywords that start a statement of a block. -/
def keywords : Block → List Token
  | .iface =>
    [.T_MinRtrAdvInterval, .T_MaxRtrAdvInterval, .T_MinDelayBetweenRAs, .T_IgnoreIfMissing,
      .T_AdvSendAdvert, .T_AdvManagedFlag, .T_AdvOtherConfigFlag, .T_AdvLinkMTU, .T_AdvRAMTU,
      .T_AdvReachableTime, .T_AdvRetransTimer, .T_AdvDefaultLifetime, .T_AdvDefaultPreference,
      .T_AdvCurHopLimit, .T_AdvSourceLLAddress, .T_AdvIntervalOpt, .T_AdvHomeAgentInfo,
      .T_AdvHomeAgentFlag, .T_HomeAgentPreference, .T_HomeAgentLifetime, .T_UnicastOnly,
      .T_AdvRASolicitedUnicast, .T_AdvMobRtrSupportFlag]
  | .pfx =>
    [.T_AdvOnLink, .T_AdvAutonomous, .T_AdvRouterAddr, .T_AdvValidLifetime, .T_AdvPreferredLifetime,
      .T_DeprecatePrefix, .T_DecrementLifetimes, .T_Base6Interface, .T_Base6to4Interface]
  | .route => [.T_AdvRoutePreference, .T_AdvRouteLifetime, .T_RemoveRoute]
  | .rdnss => [.T_AdvRDNSSPreference, .T_AdvRDNSSOpenFlag, .T_AdvRDNSSLifetime, .T_FlushRDNSS]
  | .dnssl => [.T_AdvDNSSLLifetime, .T_FlushDNSSL]
  | .lowpanco => [.T_AdvContextLength, .T_AdvContextCompressionFlag, .T_AdvContextID, .T_AdvLifeTime]
  | .abro => [.T_AdvVersionLow, .T_AdvVersionHigh, .T_AdvValidLifeTime]

/-- Behind `{` of an interface or one of its statements. -/
def ifaceparam (p : Parser) (t : Token) : Parser :=
  match t with
  | .RBRACE => p.goto .ifaceclose
  | .T_PREFIX => p.goto .prefixaddr
  | .T_CLIENTS => p.goto (.addrsopen .clients)
  | .T_RASRCADDRESS => p.goto (.addrsopen .rasrcaddress)
  | .T_ROUTE => p.goto .routeaddr
  | .T_RDNSS => p.goto (.rdnssaddrs false)
  | .T_DNSSL => p.goto (.dnsslsuffixes false)
  | .T_LOWPANCO => lowpancohead p
  | .T_ABRO => p.goto .abroaddr
  | k => if k ∈ keywords .iface then p.goto (.keyword .iface k) else p.error

/-- Behind `{` of a definition or one of its statements. -/
def defparam (b : Block) (p : Parser) (t : Token) : Parser :=
  match t with
  | .RBRACE => p.goto (.defclose b)
  | k => if k ∈ keywords b then p.goto (.keyword b k) else p.error

def step (p : Parser) (t : Token) : Parser :=
  match p.place with
  | .grammar => if t = .T_INTERFACE then p.goto .ifacename else p.error
  | .ifacename =>
    match t with
    | .STRING name => ifacehead name p
    | _ => p.error
  | .ifaceopen => if t = .LBRACE then p.goto (.params .iface) else p.error
  | .ifaceclose => if t = .SEMICOLON then ifacedef p else p.error
  | .params .iface => ifaceparam p t
  | .params b => defparam b p t
  | .keyword b k =>
    match parmOf b k t with
    | some v => p.goto (.value b v)
    | none => p.error
  | .value b v => if t = .SEMICOLON then (parm v p).goto (.params b) else p.error
  | .defopen b => if t = .LBRACE then p.goto (.params b) else p.error
  | .defclose b => if t = .SEMICOLON then definition b p else p.error
  | .prefixaddr =>
    match t with
    | .IPV6ADDR a => p.goto (.prefixslash a)
    | _ => p.error
  | .prefixslash a => if t = .SLASH then p.goto (.prefixlen a) else p.error
  | .prefixlen a =>
    match t with
    | .NUMBER n => prefixhead a n p
    | _ => p.error
  | .prefixopt =>
    match t with
    | .LBRACE => p.goto (.params .pfx)
    | .SEMICOLON => prefixdef p
    | _ => p.error
  | .routeaddr =>
    match t with
    | .IPV6ADDR a => p.goto (.routeslash a)
    | _ => p.error
  | .routeslash a => if t = .SLASH then p.goto (.routelen a) else p.error
  | .routelen a =>
    match t with
    | .NUMBER n => routehead a n p
    | _ => p.error
  | .rdnssaddrs found =>
    match t with
    | .IPV6ADDR a => rdnssaddr a p
    | .LBRACE => if found then p.goto (.params .rdnss) else p.error
    | _ => p.error
  | .dnsslsuffixes found =>
    match t with
    | .STRING s => dnsslsuffix s p
    | .LBRACE => if found then p.goto (.params .dnssl) else p.error
    | _ => p.error
  | .abroaddr =>
    match t with
    | .IPV6ADDR a => p.goto (.abroopt a)
    | _ => p.error
  | .abroopt a =>
    match t with
    | .SLASH => p.goto (.abrolen a)
    | .LBRACE => (abrohead a p).goto (.params .abro)
    | _ => p.error
  | .abrolen a =>
    match t with
    | .NUMBER _ => (abrohead a p).goto (.defopen .abro)
    | _ => p.error
  | .addrsopen l => if t = .LBRACE then p.goto (.addrs l []) else p.error
  | .addrs l as =>
    match t with
    | .IPV6ADDR a => p.goto (.addrsemi l (a :: as))
    | .RBRACE => if as = [] then p.error else p.goto (.addrsclose l as)
    | _ => p.error
  | .addrsemi l as => if t = .SEMICOLON then p.goto (.addrs l as) else p.error
  | .addrsclose l as => if t = .SEMICOLON then addrsdef l as p else p.error
  | .failed => p

def parse (p : Parser) (toks : List Token) : Parser := toks.foldl step p

theorem parse_cons (p : Parser) (t : Token) (toks : List Token) :
    parse p (t :: toks) = parse (step p t) toks := rfl

/-- `yyparse` returns 0: all tokens are read, and one definition at least. -/
def accepted (p : Parser) : Bool := p.place = .grammar && !p.IfaceList.isEmpty

/-- The parser as `readin_config` starts it, with what the last parse left. -/
def fresh (g : Globals) : Parser :=
  { g with
    IfaceList := []
    iface := none
    place := .grammar }

/-- `readin_config`; no tokens when the file cannot be opened. -/
def readinConfig (g : Globals) (file : Option (List Token)) : List Cell :=
  match file with
  | none => g.IfaceList
  | some toks => (parse (fresh g) toks).IfaceList

end WanStack.Radvd.Gram
