import WanStack.Radvd.Dnssl

set_option autoImplicit false

/-!
# What the options of an advertisement say

Each option is read by its wire format, and what the encoders of `send.c` write is
read back.
-/
namespace WanStack.Radvd
open Aftr (Buf byteAt bytesAt shortAt hi lo)

/-! ### The wire formats -/

/-- What an option says. A source link-layer address has the zeros behind it, and
    the suffixes of a search list have no dot at their end. -/
inductive OptionValue where
  | prefixInfo (len : ℕ) (onLink autonomous router : Bool) (valid preferred : ℕ) (addr : In6Addr)
  | routeInfo (len : ℕ) (preference : ℤ) (lifetime : ℕ) (addr : In6Addr)
  | rdnss (lifetime : ℕ) (addrs : List In6Addr)
  | dnssl (lifetime : ℕ) (suffixes : List Buf)
  | mtu (mtu : ℕ)
  | sourceLinkaddr (addr : Buf)
  | rtrAdvInterval (ival : ℕ)
  | homeAgentInfo (mobRtr : Bool) (preference : ℕ) (lifetime : ℤ)
  | lowpanco (len : ℕ) (compression : Bool) (cid lifetime : ℕ) (addr : In6Addr)
  | abro (low high lifetime : ℕ) (addr : In6Addr)

def OptionValue.type : OptionValue → UInt8
  | .prefixInfo .. => ND_OPT_PREFIX_INFORMATION
  | .routeInfo .. => ND_OPT_ROUTE_INFORMATION
  | .rdnss .. => ND_OPT_RDNSS_INFORMATION
  | .dnssl .. => ND_OPT_DNSSL_INFORMATION
  | .mtu .. => ND_OPT_MTU
  | .sourceLinkaddr .. => ND_OPT_SOURCE_LINKADDR
  | .rtrAdvInterval .. => ND_OPT_RTR_ADV_INTERVAL
  | .homeAgentInfo .. => ND_OPT_HOME_AGENT_INFO
  | .lowpanco .. => ND_OPT_6CO
  | .abro .. => ND_OPT_ABRO

/-- Two bits: low is 11, high is 01, and 10 is reserved. -/
def decodePreference (flags : UInt8) : Option ℤ :=
  match (prefBits flags).toNat with
  | 0 => some 0
  | 1 => some 1
  | 3 => some (-1)
  | _ => none

/-- A label that a configuration can name. -/
def labelOk (l : Buf) : Bool := 1 ≤ l.length && l.length ≤ 63 && !l.contains 46 && !l.contains 0

/-- Names and zeros behind them; the labels of the name that is being read come with it. -/
def decodeNames : ℕ → Buf → List Buf → Option (List (List Buf))
  | 0, _, _ => none
  | _ + 1, [], labels => if labels = [] then some [] else none
  | k + 1, n :: rest, labels =>
    if n = 0 then
      if labels = [] then if rest.all (· = 0) then some [] else none
      else (decodeNames k rest []).map (labels :: ·)
    else if n.toNat ≤ rest.length ∧ labelOk (rest.take n.toNat) then
      decodeNames k (rest.drop n.toNat) (labels ++ [rest.take n.toNat])
    else none

/-- The value of an option of `len` times eight bytes. -/
def decodeBody (o : Buf) (len : ℕ) : Option OptionValue :=
  if byteAt o 0 = ND_OPT_PREFIX_INFORMATION then
    if len = 4 then
      some (.prefixInfo (byteAt o 2).toNat (hasFlag (byteAt o 3) 0x80) (hasFlag (byteAt o 3) 0x40)
        (hasFlag (byteAt o 3) 0x20) (longAt o 4) (longAt o 8) (addrAt o 16))
    else none
  else if byteAt o 0 = ND_OPT_ROUTE_INFORMATION then
    if len = 3 then
      (decodePreference (byteAt o 3)).map fun pref =>
        .routeInfo (byteAt o 2).toNat pref (longAt o 4) (addrAt o 8)
    else none
  else if byteAt o 0 = ND_OPT_RDNSS_INFORMATION then
    if len % 2 = 1 then
      some (.rdnss (longAt o 4) ((List.range (len / 2)).map fun i => addrAt o (8 + 16 * i)))
    else none
  else if byteAt o 0 = ND_OPT_DNSSL_INFORMATION then
    (decodeNames o.length (o.drop 8) []).map fun names => .dnssl (longAt o 4) (names.map joinDots)
  else if byteAt o 0 = ND_OPT_MTU then
    if len = 1 then some (.mtu (longAt o 4)) else none
  else if byteAt o 0 = ND_OPT_SOURCE_LINKADDR then some (.sourceLinkaddr (o.drop 2))
  else if byteAt o 0 = ND_OPT_RTR_ADV_INTERVAL then
    if len = 1 then some (.rtrAdvInterval (longAt o 4)) else none
  else if byteAt o 0 = ND_OPT_HOME_AGENT_INFO then
    if len = 1 then some (.homeAgentInfo (hasFlag (byteAt o 2) 0x80) (shortAt o 4) (shortAt o 6)) else none
  else if byteAt o 0 = ND_OPT_6CO then
    if len = 3 then
      some (.lowpanco (byteAt o 2).toNat (hasFlag (byteAt o 3) 0x10) ((byteAt o 3).toNat % 16)
        (shortAt o 6) (addrAt o 8))
    else none
  else if byteAt o 0 = ND_OPT_ABRO then
    if len = 3 then some (.abro (shortAt o 2) (shortAt o 4) (shortAt o 6) (addrAt o 8)) else none
  else none

def decodeOption (o : Buf) : Option OptionValue :=
  if (byteAt o 1).toNat * 8 = o.length then decodeBody o (byteAt o 1).toNat else none

/-! ### What is configured -/

def prefixValue (cease_adv : Bool) (p : AdvPrefix) : OptionValue :=
  .prefixInfo p.PrefixLen.toNat p.AdvOnLinkFlag p.AdvAutonomousFlag p.AdvRouterAddr
    (sentLifetimes p cease_adv).1.toNat (sentLifetimes p cease_adv).2.toNat p.Prefix

def routeValue (cease_adv : Bool) (route : AdvRoute) : OptionValue :=
  .routeInfo route.PrefixLen.toNat route.AdvRoutePreference
    (lifetimeOr0 (cease_adv && route.RemoveRouteFlag) route.AdvRouteLifetime) route.Prefix

def rdnssValue (cease_adv : Bool) (rdnss : AdvRDNSS) : OptionValue :=
  .rdnss (lifetimeOr0 (cease_adv && rdnss.FlushRDNSSFlag) rdnss.AdvRDNSSLifetime)
    ([rdnss.AdvRDNSSAddr1, rdnss.AdvRDNSSAddr2, rdnss.AdvRDNSSAddr3].take rdnss.AdvRDNSSNumber)

/-- A dot at the end of a name is part of the notation. -/
def trimDot (s : Buf) : Buf := if s.getLast? = some 46 then s.dropLast else s

def suffixesOf (dnssl : AdvDNSSL) : List Buf := dnssl.AdvDNSSLSuffixes.map trimDot

def dnsslValue (cease_adv : Bool) (dnssl : AdvDNSSL) : OptionValue :=
  .dnssl (lifetimeOr0 (cease_adv && dnssl.FlushDNSSLFlag) dnssl.AdvDNSSLLifetime) (suffixesOf dnssl)

/-- The hardware address, filled up to whole units of eight bytes with type and length. -/
def sllaoValue (sllao : Sllao) : OptionValue :=
  .sourceLinkaddr (sllao.if_hwaddr.toList.take (sllao.if_hwaddr_len / 8).toNat ++
    List.replicate (((sllao.if_hwaddr_len / 8).toNat + 2 + 7) / 8 * 8 - ((sllao.if_hwaddr_len / 8).toNat + 2)) 0)

/-- The interval in milliseconds; a short one is given some leeway. -/
def advInterval (maxInterval : ℚ) : ℕ :=
  if maxInterval < Cautious_MaxRtrAdvInterval then ⌊1000 * (maxInterval + Cautious_MaxRtrAdvInterval_Leeway)⌋₊
  else ⌊1000 * maxInterval⌋₊

def homeAgentValue (mipv6 : Mipv6) : OptionValue :=
  .homeAgentInfo mipv6.AdvMobRtrSupportFlag mipv6.HomeAgentPreference.toNat mipv6.HomeAgentLifetime

def lowpancoValue (co : AdvLowpanCo) : OptionValue :=
  .lowpanco co.ContextLength.toNat (co.ContextCompressionFlag ≠ 0) co.AdvContextID.toNat co.AdvLifeTime.toNat
    co.AdvContextPrefix

def abroValue (abro : AdvAbro) : OptionValue :=
  .abro abro.Version.2.toNat abro.Version.1.toNat abro.ValidLifeTime.toNat abro.LBRaddress

/-! ### Fields -/

theorem longAt_low (n : ℕ) (rest : Buf) : longAt (htonl n ++ rest) 0 = n % 4294967296 := by
  change ((UInt8.ofNat (n / 65536 / 256)).toNat * 256 + (lo (n / 65536)).toNat) * 65536 +
    ((UInt8.ofNat (n / 256)).toNat * 256 + (lo n).toNat) = _
  rw [Aftr.lo_toNat, Aftr.lo_toNat, UInt8.toNat_ofNat', UInt8.toNat_ofNat']
  omega

theorem longAt_htonl {n : ℕ} (h : n < 4294967296) (rest : Buf) : longAt (htonl n ++ rest) 0 = n := by
  rw [longAt_low, Nat.mod_eq_of_lt h]

theorem shortAt_htons {n : ℕ} (h : n < 65536) (rest : Buf) : shortAt (htons n ++ rest) 0 = n :=
  Aftr.hi_lo h

/-- In the order of the host a number comes out with its bytes exchanged. -/
theorem shortAt_host16 {n : ℕ} (h : n < 65536) (rest : Buf) : shortAt (host16 n ++ rest) 0 = n % 256 * 256 + n / 256 := by
  change (lo n).toNat * 256 + (hi n).toNat = _
  rw [Aftr.lo_toNat, Aftr.hi_toNat h]

/-- The bit in front of a context identifier. -/
theorem hasFlag_bit4 (b : UInt8) : hasFlag b 0x10 = decide (b.toNat / 16 % 2 = 1) := by
  have hall : ∀ n < 256, hasFlag (UInt8.ofNat n) 0x10 = decide (n / 16 % 2 = 1) := by decide +kernel
  have hb := hall b.toNat b.toNat_lt
  rw [UInt8.ofNat_toNat] at hb
  exact hb

theorem addrAt_toList (a : In6Addr) (rest : Buf) : addrAt (a.toList ++ rest) 0 = a := by
  apply Vector.ext
  intro i hi
  have hlen : i < a.toList.length := by simpa using hi
  simp [addrAt, byteAt, List.getElem?_append_left hlen, hi]

theorem addrAt_behind (front rest : Buf) (i : ℕ) : addrAt (front ++ rest) (front.length + i) = addrAt rest i := by
  apply Vector.ext
  intro j hj
  have hright : front.length ≤ front.length + i + j := by omega
  simp only [addrAt, Vector.getElem_ofFn, Aftr.byteAt_append_right hright]
  rw [Nat.add_assoc, Nat.add_sub_cancel_left]

theorem addrAt_drop {o rest : Buf} {i : ℕ} {a : In6Addr} (h : o.drop i = a.toList ++ rest) : addrAt o i = a := by
  rw [← addrAt_toList a rest, ← h]
  apply Vector.ext
  intro j hj
  simp [addrAt, byteAt]

/-- An address at the end of an option. -/
theorem addrAt_end (front : Buf) (a : In6Addr) : addrAt (front ++ a.toList) front.length = a := by
  have hread := addrAt_behind front (a.toList ++ []) 0
  rw [addrAt_toList, List.append_nil] at hread
  exact hread

theorem lifetimeOr0_lt (zero : Bool) (lifetime : UInt32) : lifetimeOr0 zero lifetime < 4294967296 := by
  have hlt := lifetime.toNat_lt
  cases zero
  · exact hlt
  · exact Nat.zero_lt_of_lt hlt

/-! ### Options read back -/

theorem prefixFlags (a b c : Bool) :
    hasFlag (flagBit a 0x80 ||| flagBit b 0x40 ||| flagBit c 0x20) 0x80 = a ∧
      hasFlag (flagBit a 0x80 ||| flagBit b 0x40 ||| flagBit c 0x20) 0x40 = b ∧
      hasFlag (flagBit a 0x80 ||| flagBit b 0x40 ||| flagBit c 0x20) 0x20 = c := by
  cases a <;> cases b <;> cases c <;> decide

section Written
variable (cease_adv : Bool)

theorem decode_prefix (p : AdvPrefix) : decodeOption (addRaOptionPrefix p cease_adv) = some (prefixValue cease_adv p) := by
  have hlen := length_addRaOptionPrefix p cease_adv
  have hflags := prefixFlags p.AdvOnLinkFlag p.AdvAutonomousFlag p.AdvRouterAddr
  change hasFlag (byteAt (addRaOptionPrefix p cease_adv) 3) _ = _ ∧ hasFlag (byteAt (addRaOptionPrefix p cease_adv) 3) _ = _ ∧
    hasFlag (byteAt (addRaOptionPrefix p cease_adv) 3) _ = _ at hflags
  have haddr : addrAt (addRaOptionPrefix p cease_adv) 16 = p.Prefix := addrAt_end _ p.Prefix
  have hvalid : longAt (addRaOptionPrefix p cease_adv) 4 = (sentLifetimes p cease_adv).1.toNat :=
    longAt_htonl (UInt32.toNat_lt _) []
  have hpreferred : longAt (addRaOptionPrefix p cease_adv) 8 = (sentLifetimes p cease_adv).2.toNat :=
    longAt_htonl (UInt32.toNat_lt _) []
  rw [decodeOption, if_pos (by rw [hlen]; rfl)]
  change some (OptionValue.prefixInfo p.PrefixLen.toNat (hasFlag (byteAt (addRaOptionPrefix p cease_adv) 3) _)
    (hasFlag (byteAt (addRaOptionPrefix p cease_adv) 3) _) (hasFlag (byteAt (addRaOptionPrefix p cease_adv) 3) _)
    (longAt (addRaOptionPrefix p cease_adv) 4) (longAt (addRaOptionPrefix p cease_adv) 8)
    (addrAt (addRaOptionPrefix p cease_adv) 16)) = _
  rw [hflags.1, hflags.2.1, hflags.2.2, hvalid, hpreferred, haddr]
  rfl

theorem decode_route (route : AdvRoute) :
    decodeOption (routeOption route cease_adv) =
      (decodePreference (prfBits route.AdvRoutePreference)).map fun pref =>
        .routeInfo route.PrefixLen.toNat pref
          (lifetimeOr0 (cease_adv && route.RemoveRouteFlag) route.AdvRouteLifetime) route.Prefix := by
  have hlen := length_routeOption route cease_adv
  have haddr : addrAt (routeOption route cease_adv) 8 = route.Prefix := addrAt_end _ route.Prefix
  have hlife : longAt (routeOption route cease_adv) 4 =
      lifetimeOr0 (cease_adv && route.RemoveRouteFlag) route.AdvRouteLifetime :=
    longAt_htonl (lifetimeOr0_lt _ _) []
  rw [decodeOption, if_pos (by rw [hlen]; rfl), ← hlife, ← haddr]
  rfl

theorem take_addrs (addrs : List In6Addr) (n : ℕ) :
    (addrs.flatMap Vector.toList).take (16 * n) = (addrs.take n).flatMap Vector.toList := by
  induction addrs generalizing n with
  | nil => simp
  | cons a addrs ih =>
    cases n with
    | zero => simp
    | succ n =>
      have hlen : 16 * (n + 1) = a.toList.length + 16 * n := by
        rw [Vector.length_toList]
        omega
      rw [List.flatMap_cons, hlen, List.take_length_add_append, ih, List.take_succ_cons, List.flatMap_cons]

/-- The struct is cut behind the last address. -/
theorem rdnssOption_eq (rdnss : AdvRDNSS) : rdnssOption rdnss cease_adv =
    ([ND_OPT_RDNSS_INFORMATION, UInt8.ofNat (1 + 2 * rdnss.AdvRDNSSNumber), 0, 0] ++
      htonl (lifetimeOr0 (cease_adv && rdnss.FlushRDNSSFlag) rdnss.AdvRDNSSLifetime)) ++
      ([rdnss.AdvRDNSSAddr1, rdnss.AdvRDNSSAddr2, rdnss.AdvRDNSSAddr3].take rdnss.AdvRDNSSNumber).flatMap
        Vector.toList := by
  have hle := rdnss.number_le
  have hcut : 56 - (3 - rdnss.AdvRDNSSNumber) * 16 =
      ([ND_OPT_RDNSS_INFORMATION, UInt8.ofNat (1 + 2 * rdnss.AdvRDNSSNumber), 0, 0] ++
        htonl (lifetimeOr0 (cease_adv && rdnss.FlushRDNSSFlag) rdnss.AdvRDNSSLifetime)).length +
        16 * rdnss.AdvRDNSSNumber := by
    simp
    omega
  rw [rdnssOption, hcut, List.append_assoc, List.append_assoc, List.take_length_add_append, ← take_addrs]
  simp

/-- Addresses one behind the other. -/
theorem readAddrs (front : Buf) (addrs : List In6Addr) :
    ((List.range addrs.length).map fun i => addrAt (front ++ addrs.flatMap Vector.toList) (front.length + 16 * i)) =
      addrs := by
  induction addrs generalizing front with
  | nil => rfl
  | cons a addrs ih =>
    have hfirst := addrAt_behind front (a.toList ++ addrs.flatMap Vector.toList) 0
    rw [addrAt_toList] at hfirst
    have hrest := ih (front ++ a.toList)
    rw [List.append_assoc] at hrest
    rw [List.length_cons, List.range_succ_eq_map, List.map_cons, List.map_map, List.flatMap_cons]
    apply congrArg₂ List.cons hfirst
    refine Eq.trans (List.map_congr_left fun i _ => ?_) hrest
    have hplace : (front ++ a.toList).length + 16 * i = front.length + 16 * (i + 1) := by
      rw [List.length_append, Vector.length_toList]
      omega
    rw [hplace]
    rfl

theorem decode_rdnss (rdnss : AdvRDNSS) : decodeOption (rdnssOption rdnss cease_adv) = some (rdnssValue cease_adv rdnss) := by
  have hlen := length_rdnssOption rdnss cease_adv
  have hle := rdnss.number_le
  have heq := rdnssOption_eq cease_adv rdnss
  have haddrs := readAddrs ([ND_OPT_RDNSS_INFORMATION, UInt8.ofNat (1 + 2 * rdnss.AdvRDNSSNumber), 0, 0] ++
      htonl (lifetimeOr0 (cease_adv && rdnss.FlushRDNSSFlag) rdnss.AdvRDNSSLifetime))
    ([rdnss.AdvRDNSSAddr1, rdnss.AdvRDNSSAddr2, rdnss.AdvRDNSSAddr3].take rdnss.AdvRDNSSNumber)
  rw [← heq] at haddrs
  have hlife : longAt (rdnssOption rdnss cease_adv) 4 =
      lifetimeOr0 (cease_adv && rdnss.FlushRDNSSFlag) rdnss.AdvRDNSSLifetime := by
    rw [heq]
    exact longAt_htonl (lifetimeOr0_lt _ _) []
  have hbyte : (byteAt (rdnssOption rdnss cease_adv) 1).toNat = 1 + 2 * rdnss.AdvRDNSSNumber := by
    rw [heq]
    change (UInt8.ofNat _).toNat = _
    rw [UInt8.toNat_ofNat']
    omega
  have htype : byteAt (rdnssOption rdnss cease_adv) 0 = ND_OPT_RDNSS_INFORMATION := by
    rw [heq]
    rfl
  have hhalf : (1 + 2 * rdnss.AdvRDNSSNumber) / 2 =
      ([rdnss.AdvRDNSSAddr1, rdnss.AdvRDNSSAddr2, rdnss.AdvRDNSSAddr3].take rdnss.AdvRDNSSNumber).length := by
    simp
    omega
  rw [decodeOption, if_pos (by rw [hlen, hbyte]; omega), hbyte, decodeBody, htype]
  change (if (1 + 2 * rdnss.AdvRDNSSNumber) % 2 = 1 then _ else none) = _
  rw [if_pos (by omega), hlife, hhalf]
  exact congrArg (fun addrs => some (OptionValue.rdnss _ addrs)) haddrs

theorem decode_mtu (mtu : UInt32) : decodeOption (addRaOptionMtu mtu) = some (.mtu mtu.toNat) := by
  have hmtu : longAt (addRaOptionMtu mtu) 4 = mtu.toNat := longAt_htonl (UInt32.toNat_lt _) []
  rw [← hmtu]
  rfl

theorem decode_sllao (sllao : Sllao) : decodeOption (addRaOptionSllao sllao) = some (sllaoValue sllao) := by
  have hle := sllao.len_le
  generalize hhw : (sllao.if_hwaddr_len / 8).toNat = hwlen
  have h16 : hwlen ≤ 16 := by omega
  have hlen : (addRaOptionSllao sllao).length = (hwlen + 2 + 7) / 8 * 8 := by
    simp only [addRaOptionSllao, hhw, List.length_append, List.length_cons, List.length_nil, List.length_take,
      Vector.length_toList, List.length_replicate]
    omega
  have hbyte : (byteAt (addRaOptionSllao sllao) 1).toNat = (hwlen + 2 + 7) / 8 := by
    change (UInt8.ofNat (((sllao.if_hwaddr_len / 8).toNat + 2 + 7) / 8)).toNat = _
    rw [hhw, UInt8.toNat_ofNat']
    omega
  rw [decodeOption, if_pos (by rw [hlen, hbyte])]
  rfl

/-- A time of at least 2^32 milliseconds does not fit its field. -/
theorem decode_interval (maxInterval : ℚ) : decodeOption (addRaOptionMipv6RtrAdvInterval maxInterval) =
    some (.rtrAdvInterval (advInterval maxInterval % 4294967296)) := by
  have hival : longAt (addRaOptionMipv6RtrAdvInterval maxInterval) 4 = advInterval maxInterval % 4294967296 :=
    longAt_low (advInterval maxInterval) []
  rw [← hival]
  rfl

theorem decode_homeAgent (mipv6 : Mipv6) : decodeOption (addRaOptionMipv6HomeAgentInfo mipv6) =
    some (.homeAgentInfo mipv6.AdvMobRtrSupportFlag mipv6.HomeAgentPreference.toNat
      (mipv6.HomeAgentLifetime % 65536)) := by
  have hpref : shortAt (addRaOptionMipv6HomeAgentInfo mipv6) 4 = mipv6.HomeAgentPreference.toNat :=
    shortAt_htons (UInt16.toNat_lt _) []
  have hlife : shortAt (addRaOptionMipv6HomeAgentInfo mipv6) 6 = (mipv6.HomeAgentLifetime % 65536).toNat :=
    shortAt_htons (by omega) []
  have hcast : ((mipv6.HomeAgentLifetime % 65536).toNat : ℤ) = mipv6.HomeAgentLifetime % 65536 := by omega
  have hbit : ∀ on : Bool, hasFlag (lo (if on then ND_OPT_HAI_FLAG_SUPPORT_MR else 0)) 0x80 = on := by decide
  have hmob : hasFlag (byteAt (addRaOptionMipv6HomeAgentInfo mipv6) 2) 0x80 = mipv6.AdvMobRtrSupportFlag :=
    hbit mipv6.AdvMobRtrSupportFlag
  change some (OptionValue.homeAgentInfo (hasFlag (byteAt (addRaOptionMipv6HomeAgentInfo mipv6) 2) _)
    (shortAt (addRaOptionMipv6HomeAgentInfo mipv6) 4) (shortAt (addRaOptionMipv6HomeAgentInfo mipv6) 6)) = _
  rw [hmob, hpref, hlife, hcast]

theorem decode_lowpanco (co : AdvLowpanCo) : decodeOption (addRaOptionLowpanco co) =
    some (.lowpanco co.ContextLength.toNat (co.AdvContextID.toNat % 2 = 1) (co.ContextCompressionFlag.toNat % 2 * 8)
      (co.AdvLifeTime.toNat % 256 * 256 + co.AdvLifeTime.toNat / 256) co.AdvContextPrefix) := by
  have haddr : addrAt (addRaOptionLowpanco co) 8 = co.AdvContextPrefix := addrAt_end _ co.AdvContextPrefix
  have hlife : shortAt (addRaOptionLowpanco co) 6 = co.AdvLifeTime.toNat % 256 * 256 + co.AdvLifeTime.toNat / 256 :=
    shortAt_host16 (UInt16.toNat_lt _) []
  have hbyte : (byteAt (addRaOptionLowpanco co) 3).toNat =
      co.ContextCompressionFlag.toNat % 2 * 8 + co.AdvContextID.toNat % 16 * 16 := by
    change (UInt8.ofNat _).toNat = _
    rw [UInt8.toNat_ofNat']
    omega
  have hc : hasFlag (byteAt (addRaOptionLowpanco co) 3) 0x10 = decide (co.AdvContextID.toNat % 2 = 1) := by
    rw [hasFlag_bit4, hbyte]
    apply decide_eq_decide.mpr
    omega
  have hcid : (byteAt (addRaOptionLowpanco co) 3).toNat % 16 = co.ContextCompressionFlag.toNat % 2 * 8 := by
    rw [hbyte]
    omega
  rw [← hc, ← hcid, ← hlife, ← haddr, decodeOption, if_pos (by simp [addRaOptionLowpanco, byteAt])]
  rfl

theorem decode_abro (abro : AdvAbro) : decodeOption (addRaOptionAbro abro) =
    some (.abro (abro.Version.2.toNat % 256 * 256 + abro.Version.2.toNat / 256)
      (abro.Version.1.toNat % 256 * 256 + abro.Version.1.toNat / 256)
      (abro.ValidLifeTime.toNat % 256 * 256 + abro.ValidLifeTime.toNat / 256) abro.LBRaddress) := by
  have haddr : addrAt (addRaOptionAbro abro) 8 = abro.LBRaddress := addrAt_end _ abro.LBRaddress
  have hlow : shortAt (addRaOptionAbro abro) 2 = abro.Version.2.toNat % 256 * 256 + abro.Version.2.toNat / 256 :=
    shortAt_host16 (UInt16.toNat_lt _) []
  have hhigh : shortAt (addRaOptionAbro abro) 4 = abro.Version.1.toNat % 256 * 256 + abro.Version.1.toNat / 256 :=
    shortAt_host16 (UInt16.toNat_lt _) []
  have hlife : shortAt (addRaOptionAbro abro) 6 = abro.ValidLifeTime.toNat % 256 * 256 + abro.ValidLifeTime.toNat / 256 :=
    shortAt_host16 (UInt16.toNat_lt _) []
  rw [← hlow, ← hhigh, ← hlife, ← haddr, decodeOption, if_pos (by simp [addRaOptionAbro, byteAt])]
  rfl

end Written

/-! ### Search lists -/

section Names

theorem labelOk_iff (l : Buf) : labelOk l = true ↔ ValidLabel l := by
  constructor
  · intro h
    simp only [labelOk, Bool.and_eq_true, decide_eq_true_eq, Bool.not_eq_true', List.contains_eq_mem,
      decide_eq_false_iff_not] at h
    exact ⟨h.1.1.1, h.1.1.2, h.1.2, h.2⟩
  · intro h
    simp [labelOk, h.pos, h.short, h.noDot, h.noNul]

/-- Whatever is read is a list of names. -/
theorem decodeNames_valid (k : ℕ) (b : Buf) (labels : List Buf) (hlabels : ∀ l ∈ labels, ValidLabel l)
    {names : List (List Buf)} (h : decodeNames k b labels = some names) :
    ∀ name ∈ names, name ≠ [] ∧ ∀ l ∈ name, ValidLabel l := by
  induction k generalizing b labels names with
  | zero => cases h
  | succ k ih =>
    cases b with
    | nil =>
      rw [decodeNames] at h
      split at h
      · obtain rfl := Option.some.inj h
        simp
      · cases h
    | cons n rest =>
      rw [decodeNames] at h
      by_cases hn : n = 0
      · rw [if_pos hn] at h
        by_cases hnone : labels = []
        · rw [if_pos hnone] at h
          split at h
          · obtain rfl := Option.some.inj h
            simp
          · cases h
        · rw [if_neg hnone] at h
          obtain ⟨more, hmore, rfl⟩ := Option.map_eq_some_iff.mp h
          intro name hname
          obtain rfl | hname := List.mem_cons.mp hname
          · exact ⟨hnone, hlabels⟩
          · exact ih rest [] (by simp) hmore name hname
      · rw [if_neg hn] at h
        by_cases hlabel : n.toNat ≤ rest.length ∧ labelOk (rest.take n.toNat)
        · rw [if_pos hlabel] at h
          apply ih _ _ _ h
          intro l hl
          obtain hl | hl := List.mem_append.mp hl
          · exact hlabels l hl
          · rw [List.mem_singleton.mp hl]
            exact (labelOk_iff _).mp hlabel.2
        · rw [if_neg hlabel] at h
          cases h

/-- The labels of a name, in front of the rest. -/
theorem decodeNames_labels (name : List Buf) (hname : ∀ l ∈ name, ValidLabel l) (k : ℕ) (rest : Buf)
    (labels : List Buf) :
    decodeNames (k + name.length) (name.flatMap encodeLabel ++ rest) labels = decodeNames k rest (labels ++ name) := by
  induction name generalizing labels with
  | nil => simp
  | cons l name ih =>
    have hl := hname l List.mem_cons_self
    have hn : UInt8.ofNat l.length ≠ 0 := by
      intro h0
      have hzero := congrArg UInt8.toNat h0
      rw [hl.toNat] at hzero
      exact hl.ne_nil (List.length_eq_zero_iff.mp hzero)
    have hround : decodeNames (k + name.length + 1) (encodeLabel l ++ (name.flatMap encodeLabel ++ rest)) labels =
        decodeNames (k + name.length) (name.flatMap encodeLabel ++ rest) (labels ++ [l]) := by
      change decodeNames (k + name.length + 1) (UInt8.ofNat l.length :: (l ++ _)) labels = _
      rw [decodeNames, if_neg hn, hl.toNat, List.take_left, List.drop_left]
      apply if_pos
      refine ⟨?_, (labelOk_iff l).mpr hl⟩
      rw [List.length_append]
      omega
    rw [List.flatMap_cons, List.append_assoc, List.length_cons, ← Nat.add_assoc, hround,
      ih (fun m hm => hname m (List.mem_cons_of_mem _ hm)), List.append_assoc]
    rfl

theorem length_le_labels (name : List Buf) : name.length ≤ (name.flatMap encodeLabel).length := by
  induction name with
  | nil => exact Nat.le_refl _
  | cons l name ih =>
    rw [List.flatMap_cons, List.length_append, encodeLabel, List.length_cons, List.length_cons]
    omega

/-- Names and padding. -/
theorem decodeNames_names (names : List (List Buf)) (hnames : ∀ name ∈ names, name ≠ [] ∧ ∀ l ∈ name, ValidLabel l)
    (m k : ℕ) (hk : (names.map encodeName).flatten.length < k) :
    decodeNames k ((names.map encodeName).flatten ++ List.replicate m 0) [] = some names := by
  induction names generalizing k with
  | nil =>
    obtain ⟨k, rfl⟩ : ∃ j, k = j + 1 := ⟨k - 1, by omega⟩
    cases m with
    | zero => rfl
    | succ m => simp [List.replicate_succ, decodeNames]
  | cons name names ih =>
    obtain ⟨hne, hvalid⟩ := hnames name List.mem_cons_self
    have hcount := length_le_labels name
    rw [List.map_cons, List.flatten_cons, List.length_append] at hk
    rw [encodeName, List.length_append, List.length_singleton] at hk
    obtain ⟨j, rfl⟩ : ∃ j, k = (j + 1) + name.length := ⟨k - 1 - name.length, by omega⟩
    rw [List.map_cons, List.flatten_cons, encodeName, List.append_assoc, List.append_assoc,
      decodeNames_labels name hvalid, List.nil_append]
    change decodeNames (j + 1) (0 :: ((names.map encodeName).flatten ++ List.replicate m 0)) name = _
    rw [decodeNames, if_pos rfl, if_neg hne, ih (fun name hname => hnames name (List.mem_cons_of_mem _ hname)) j (by omega)]
    rfl

/-- The same list without dots at the ends of its names. -/
def trimmed (dnssl : AdvDNSSL) : AdvDNSSL := { dnssl with AdvDNSSLSuffixes := suffixesOf dnssl }

theorem trimDot_append (s : Buf) : ∃ dot : Buf, (dot = [] ∨ dot = [46]) ∧ s = trimDot s ++ dot := by
  unfold trimDot
  by_cases hdot : s.getLast? = some 46
  · rw [if_pos hdot]
    exact ⟨[46], Or.inr rfl, (List.dropLast_append_getLast? 46 hdot).symm⟩
  · rw [if_neg hdot]
    exact ⟨[], Or.inl rfl, (List.append_nil s).symm⟩

theorem serializeDomainNames_trimmed {dnssl : AdvDNSSL} {names : List (List Buf)} (h : Named (trimmed dnssl) names) :
    serializeDomainNames dnssl = some (names.map encodeName).flatten := by
  have hall : dnssl.AdvDNSSLSuffixes.mapM (fun s => serializeLabels s.length s) = some (names.map encodeName) := by
    change List.Forall₂ IsName (dnssl.AdvDNSSLSuffixes.map trimDot) names at h
    generalize dnssl.AdvDNSSLSuffixes = suffixes at h
    induction suffixes generalizing names with
    | nil =>
      cases h
      rfl
    | cons s suffixes ih =>
      cases h with
      | @cons _ name _ names hname hrest =>
        obtain ⟨hne, hvalid, htrim⟩ := hname
        obtain ⟨dot, hdot, htext⟩ := trimDot_append s
        rw [htrim] at htext
        have hfirst : serializeLabels s.length s = some (encodeName name) := by
          rw [htext]
          exact serializeLabels_text _ hvalid hne hdot _ (Nat.le_refl _)
        rw [List.mapM_cons, hfirst, ih hrest]
        rfl
  rw [serializeDomainNames, hall]
  rfl

theorem dnsslOption_trimmed {dnssl : AdvDNSSL} {names : List (List Buf)} (h : Named (trimmed dnssl) names)
    (cease_adv : Bool) : dnsslOption dnssl cease_adv = dnsslOption (trimmed dnssl) cease_adv := by
  rw [dnsslOption, dnsslOption, serializeDomainNames_trimmed h, serializeDomainNames_named h]
  rfl

theorem dnsslOption_head {dnssl : AdvDNSSL} {cease_adv : Bool} {o : Buf} (h : dnsslOption dnssl cease_adv = some o) :
    byteAt o 0 = ND_OPT_DNSSL_INFORMATION ∧
      longAt o 4 = lifetimeOr0 (cease_adv && dnssl.FlushDNSSLFlag) dnssl.AdvDNSSLLifetime := by
  unfold dnsslOption at h
  obtain ⟨domains, -, h⟩ := Option.bind_eq_some_iff.mp h
  dsimp only at h
  split_ifs at h
  rw [← Option.some.inj h]
  exact ⟨rfl, longAt_htonl (lifetimeOr0_lt _ _) []⟩

/-- Names that can be written, in an option that is short enough. -/
def Sendable (dnssl : AdvDNSSL) : Prop :=
  (∃ names, List.Forall₂ IsName (suffixesOf dnssl) names) ∧ optionBytes (suffixesOf dnssl) ≤ 2040

theorem decodeBody_dnssl {o : Buf} (h : byteAt o 0 = ND_OPT_DNSSL_INFORMATION) (len : ℕ) :
    decodeBody o len =
      (decodeNames o.length (o.drop 8) []).map fun names => .dnssl (longAt o 4) (names.map joinDots) := by
  rw [decodeBody, h]
  rfl

theorem decode_dnssl {dnssl : AdvDNSSL} (h : Sendable dnssl) (cease_adv : Bool) :
    ∃ o, dnsslOption dnssl cease_adv = some o ∧ decodeOption o = some (dnsslValue cease_adv dnssl) := by
  obtain ⟨⟨names, hnames⟩, hsize⟩ := h
  obtain ⟨o, ho, hbyte, -, m, hdrop⟩ := (@dnsslOption_named (trimmed dnssl) names hnames cease_adv).1 hsize
  rw [← @dnsslOption_trimmed dnssl names hnames] at ho
  obtain ⟨htype, hlife⟩ := dnsslOption_head ho
  obtain ⟨hmap, hvalid⟩ := joinDots_named hnames
  have hfuel : (names.map encodeName).flatten.length < o.length := by
    have hlen := congrArg List.length hdrop
    have hpos := (length_dnsslOption ho).1
    rw [List.length_drop, List.length_append] at hlen
    omega
  refine ⟨o, ho, ?_⟩
  rw [decodeOption, if_pos hbyte, decodeBody_dnssl htype, hdrop, decodeNames_names names hvalid m _ hfuel, Option.map_some,
    hmap, hlife]
  rfl

theorem forall₂_joinDots {names : List (List Buf)} (h : ∀ name ∈ names, name ≠ [] ∧ ∀ l ∈ name, ValidLabel l) :
    List.Forall₂ IsName (names.map joinDots) names := by
  induction names with
  | nil => exact .nil
  | cons name names ih =>
    obtain ⟨hne, hvalid⟩ := h name List.mem_cons_self
    exact .cons ⟨hne, hvalid, rfl⟩ (ih fun name hname => h name (List.mem_cons_of_mem _ hname))

end Names

/-! ### What can be read -/

/-- What the fields of an option can hold. -/
def OptionValue.Readable : OptionValue → Prop
  | .routeInfo _ preference _ _ => preference = 0 ∨ preference = 1 ∨ preference = -1
  | .dnssl _ suffixes => ∃ names, List.Forall₂ IsName suffixes names
  | .rtrAdvInterval ival => ival < 4294967296
  | .homeAgentInfo _ _ lifetime => 0 ≤ lifetime ∧ lifetime < 65536
  | _ => True

theorem shortAt_lt (b : Buf) (i : ℕ) : shortAt b i < 65536 := by
  have hfirst := (byteAt b i).toNat_lt
  have hsecond := (byteAt b (i + 1)).toNat_lt
  unfold shortAt
  omega

theorem longAt_lt (b : Buf) (i : ℕ) : longAt b i < 4294967296 := by
  have hfirst := shortAt_lt b i
  have hsecond := shortAt_lt b (i + 2)
  unfold longAt
  omega

theorem preference_readable {flags : UInt8} {pref : ℤ} (h : decodePreference flags = some pref) :
    pref = 0 ∨ pref = 1 ∨ pref = -1 := by
  unfold decodePreference at h
  split at h
  · exact Or.inl (Option.some.inj h).symm
  · exact Or.inr (Or.inl (Option.some.inj h).symm)
  · exact Or.inr (Or.inr (Option.some.inj h).symm)
  · cases h

theorem ite_some {α : Type} {c : Prop} [Decidable c] {x y : Option α} {v : α} (h : (if c then x else y) = some v) :
    c ∧ x = some v ∨ ¬ c ∧ y = some v := by
  by_cases hc : c
  · rw [if_pos hc] at h
    exact Or.inl ⟨hc, h⟩
  · rw [if_neg hc] at h
    exact Or.inr ⟨hc, h⟩

theorem ite_none {α : Type} {c : Prop} [Decidable c] {x v : α} (h : (if c then some x else none) = some v) : x = v := by
  obtain ⟨-, h⟩ | ⟨-, h⟩ := ite_some h
  · exact Option.some.inj h
  · cases h

theorem body_readable {o : Buf} {len : ℕ} {v : OptionValue} (h : decodeBody o len = some v) :
    v.Readable ∧ v.type = byteAt o 0 := by
  unfold decodeBody at h
  obtain ⟨htype, h⟩ | ⟨-, h⟩ := ite_some h
  · rw [← ite_none h]
    exact ⟨trivial, htype.symm⟩
  obtain ⟨htype, h⟩ | ⟨-, h⟩ := ite_some h
  · obtain ⟨-, h⟩ | ⟨-, h⟩ := ite_some h
    · obtain ⟨pref, hpref, rfl⟩ := Option.map_eq_some_iff.mp h
      exact ⟨preference_readable hpref, htype.symm⟩
    · cases h
  obtain ⟨htype, h⟩ | ⟨-, h⟩ := ite_some h
  · rw [← ite_none h]
    exact ⟨trivial, htype.symm⟩
  obtain ⟨htype, h⟩ | ⟨-, h⟩ := ite_some h
  · obtain ⟨names, hnames, rfl⟩ := Option.map_eq_some_iff.mp h
    exact ⟨⟨names, forall₂_joinDots (decodeNames_valid _ _ _ (by simp) hnames)⟩, htype.symm⟩
  obtain ⟨htype, h⟩ | ⟨-, h⟩ := ite_some h
  · rw [← ite_none h]
    exact ⟨trivial, htype.symm⟩
  obtain ⟨htype, h⟩ | ⟨-, h⟩ := ite_some h
  · rw [← Option.some.inj h]
    exact ⟨trivial, htype.symm⟩
  obtain ⟨htype, h⟩ | ⟨-, h⟩ := ite_some h
  · rw [← ite_none h]
    exact ⟨longAt_lt o 4, htype.symm⟩
  obtain ⟨htype, h⟩ | ⟨-, h⟩ := ite_some h
  · rw [← ite_none h]
    have hlt := shortAt_lt o 6
    exact ⟨⟨Int.natCast_nonneg _, by omega⟩, htype.symm⟩
  obtain ⟨htype, h⟩ | ⟨-, h⟩ := ite_some h
  · rw [← ite_none h]
    exact ⟨trivial, htype.symm⟩
  obtain ⟨htype, h⟩ | ⟨-, h⟩ := ite_some h
  · rw [← ite_none h]
    exact ⟨trivial, htype.symm⟩
  · cases h

theorem decode_readable {o : Buf} {v : OptionValue} (h : decodeOption o = some v) :
    v.Readable ∧ v.type = byteAt o 0 := by
  unfold decodeOption at h
  split at h
  · exact body_readable h
  · cases h

end WanStack.Radvd
