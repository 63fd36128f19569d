import Mathlib.Algebra.Order.Floor.Semiring
import Mathlib.Data.Rat.Floor
import WanStack.Aftr.Bytes

set_option autoImplicit false

/-!
# The options of a router advertisement

The configuration of an interface and the encoders of `send.c`, up to
`build_ra_options`. The host is little endian.
-/
namespace WanStack.Radvd
open Aftr (Buf byteAt hi lo)

/-- An address, `struct in6_addr`. -/
abbrev In6Addr := Vector UInt8 16

def htons (n : ℕ) : Buf := [hi n, lo n]
def htonl (n : ℕ) : Buf := htons (n / 65536) ++ htons n

/-- A 16 bit field written in the byte order of the host. -/
def host16 (n : ℕ) : Buf := [lo n, hi n]

def ND_ROUTER_ADVERT : UInt8 := 134
def ND_OPT_SOURCE_LINKADDR : UInt8 := 1
def ND_OPT_PREFIX_INFORMATION : UInt8 := 3
def ND_OPT_MTU : UInt8 := 5
def ND_OPT_RTR_ADV_INTERVAL : UInt8 := 7
def ND_OPT_HOME_AGENT_INFO : UInt8 := 8
def ND_OPT_ROUTE_INFORMATION : UInt8 := 24
def ND_OPT_RDNSS_INFORMATION : UInt8 := 25
def ND_OPT_DNSSL_INFORMATION : UInt8 := 31
def ND_OPT_6CO : UInt8 := 34
def ND_OPT_ABRO : UInt8 := 35

def ND_RA_FLAG_MANAGED : UInt8 := 0x80
def ND_RA_FLAG_OTHER : UInt8 := 0x40
def ND_RA_FLAG_HOME_AGENT : UInt8 := 0x20
def ND_OPT_PI_FLAG_ONLINK : UInt8 := 0x80
def ND_OPT_PI_FLAG_AUTO : UInt8 := 0x40
def ND_OPT_PI_FLAG_RADDR : UInt8 := 0x20
def ND_OPT_RI_PRF_SHIFT : ℕ := 3
def ND_OPT_RI_PRF_MASK : UInt8 := 0x18
def ND_OPT_HAI_FLAG_SUPPORT_MR : ℕ := 0x0080
def MIN_AdvValidLifetime : UInt32 := 7200
def Cautious_MaxRtrAdvInterval : ℚ := 2 / 10
def Cautious_MaxRtrAdvInterval_Leeway : ℚ := 2 / 100

structure RaHeaderInfo where
  AdvManagedFlag : Bool
  AdvOtherConfigFlag : Bool
  AdvCurHopLimit : UInt8
  AdvHomeAgentFlag : Bool
  AdvDefaultLifetime : ℤ
  AdvDefaultPreference : ℤ
  AdvReachableTime : UInt32
  AdvRetransTimer : UInt32

structure AdvPrefix where
  Prefix : In6Addr
  PrefixLen : UInt8
  AdvOnLinkFlag : Bool
  AdvAutonomousFlag : Bool
  AdvValidLifetime : UInt32
  AdvPreferredLifetime : UInt32
  DeprecatePrefixFlag : Bool
  DecrementLifetimesFlag : Bool
  curr_validlft : UInt32
  curr_preferredlft : UInt32
  AdvRouterAddr : Bool
  if6to4 : Buf
  if6 : Buf

structure AdvRoute where
  Prefix : In6Addr
  PrefixLen : UInt8
  AdvRoutePreference : ℤ
  AdvRouteLifetime : UInt32
  RemoveRouteFlag : Bool

/-- The number of addresses is 1, 2 or 3. -/
structure AdvRDNSS where
  AdvRDNSSNumber : ℕ
  AdvRDNSSLifetime : UInt32
  FlushRDNSSFlag : Bool
  AdvRDNSSAddr1 : In6Addr
  AdvRDNSSAddr2 : In6Addr
  AdvRDNSSAddr3 : In6Addr
  number_le : AdvRDNSSNumber ≤ 3

structure AdvDNSSL where
  AdvDNSSLLifetime : UInt32
  FlushDNSSLFlag : Bool
  AdvDNSSLSuffixes : List Buf

structure AdvLowpanCo where
  ContextLength : UInt8
  ContextCompressionFlag : UInt8
  AdvContextID : UInt8
  AdvLifeTime : UInt16
  AdvContextPrefix : In6Addr

structure AdvAbro where
  Version : UInt16 × UInt16
  ValidLifeTime : UInt16
  LBRaddress : In6Addr

structure Mipv6 where
  AdvIntervalOpt : Bool
  AdvHomeAgentInfo : Bool
  HomeAgentPreference : UInt16
  HomeAgentLifetime : ℤ
  AdvMobRtrSupportFlag : Bool

/-- Longer addresses than the array are refused by `update_device_info`. -/
structure Sllao where
  if_hwaddr : Vector UInt8 16
  if_hwaddr_len : ℤ
  len_le : if_hwaddr_len ≤ 16 * 8

structure Interface where
  name : Buf
  AdvSendAdvert : Bool
  MaxRtrAdvInterval : ℚ
  AdvSourceLLAddress : Bool
  cease_adv : Bool
  max_ra_option_size : UInt32
  ra_header_info : RaHeaderInfo
  AdvPrefixList : List AdvPrefix
  AdvRouteList : List AdvRoute
  AdvRDNSSList : List AdvRDNSS
  AdvDNSSLList : List AdvDNSSL
  AdvLinkMTU : UInt32
  sllao : Sllao
  mipv6 : Mipv6
  AdvLowpanCoList : List AdvLowpanCo
  AdvAbroList : List AdvAbro

/-- An interface that advertises its header and no option. -/
def bareInterface (limit : UInt32) : Interface :=
  { name := [], AdvSendAdvert := true, MaxRtrAdvInterval := 600, AdvSourceLLAddress := false
    cease_adv := false, max_ra_option_size := limit
    ra_header_info := ⟨false, false, 64, false, 1800, 0, 0, 0⟩
    AdvPrefixList := [], AdvRouteList := [], AdvRDNSSList := [], AdvDNSSLList := []
    AdvLinkMTU := 0, sllao := ⟨Vector.replicate 16 0, -1, by decide⟩
    mipv6 := ⟨false, false, 0, 1800, false⟩, AdvLowpanCoList := [], AdvAbroList := [] }

/-- What the system tells: whether forwarding is off, the IPv4 address of an
    interface, and the prefixes of its addresses that are not link local. -/
structure Sys where
  check_ip6_forwarding : Bool
  get_v4addr : Buf → Option (Vector UInt8 4)
  get_prefixes : Buf → List (In6Addr × UInt8)

def flagBit (on : Bool) (bit : UInt8) : UInt8 := if on then bit else 0

/-- `(pref << ND_OPT_RI_PRF_SHIFT) & ND_OPT_RI_PRF_MASK` -/
def prfBits (pref : ℤ) : UInt8 :=
  UInt8.ofNat (pref * 2 ^ ND_OPT_RI_PRF_SHIFT % 256).toNat &&& ND_OPT_RI_PRF_MASK

def addRaHeader (sys : Sys) (info : RaHeaderInfo) (cease_adv : Bool) : Buf :=
  let lifetime : ℕ :=
    if cease_adv then 0
    else if !sys.check_ip6_forwarding then (info.AdvDefaultLifetime % 65536).toNat else 0
  [ND_ROUTER_ADVERT, 0, 0, 0, info.AdvCurHopLimit,
    flagBit info.AdvManagedFlag ND_RA_FLAG_MANAGED |||
      flagBit info.AdvOtherConfigFlag ND_RA_FLAG_OTHER |||
      flagBit info.AdvHomeAgentFlag ND_RA_FLAG_HOME_AGENT ||| prfBits info.AdvDefaultPreference] ++
    htons lifetime ++ htonl info.AdvReachableTime.toNat ++ htonl info.AdvRetransTimer.toNat

/-- The valid and the preferred lifetime sent in a prefix option. -/
def sentLifetimes (p : AdvPrefix) (cease_adv : Bool) : UInt32 × UInt32 :=
  if cease_adv && p.DeprecatePrefixFlag then
    (if p.curr_validlft < MIN_AdvValidLifetime then p.curr_validlft else MIN_AdvValidLifetime, 0)
  else (p.curr_validlft, p.curr_preferredlft)

def addRaOptionPrefix (p : AdvPrefix) (cease_adv : Bool) : Buf :=
  let (valid, preferred) := sentLifetimes p cease_adv
  [ND_OPT_PREFIX_INFORMATION, 4, p.PrefixLen,
    flagBit p.AdvOnLinkFlag ND_OPT_PI_FLAG_ONLINK |||
      flagBit p.AdvAutonomousFlag ND_OPT_PI_FLAG_AUTO |||
      flagBit p.AdvRouterAddr ND_OPT_PI_FLAG_RADDR] ++
    htonl valid.toNat ++ htonl preferred.toNat ++ [0, 0, 0, 0] ++ p.Prefix.toList

/-- The lists of buffers: the tail is used when empty, else a new one is made. -/
def safeBufferListAppend (sbl : List Buf) : List Buf :=
  if (sbl.getLastD []).length > 0 then sbl ++ [[]] else sbl

def appendToTail (sbl : List Buf) (data : Buf) : List Buf :=
  sbl.dropLast ++ [sbl.getLastD [] ++ data]

/-- `safe_buffer_list_append` and the encoding put into the new tail. -/
def appendOption (sbl : List Buf) (option : Buf) : List Buf :=
  appendToTail (safeBufferListAppend sbl) option

/-- `schedule_helper` says yes whatever the destination and the lifetime. -/
def scheduleOption : Bool := true

/-- The prefixes that stand for an automatic one: `2002:<v4>::/64` of `if6to4`. -/
def autoPrefix6to4 (sys : Sys) (p : AdvPrefix) : List AdvPrefix :=
  ((sys.get_v4addr p.if6to4).map fun dst =>
    { p with
      Prefix := Vector.ofFn fun i =>
        if i.val = 0 then 0x20 else if i.val = 1 then 0x02
        else if h : 2 ≤ i.val ∧ i.val < 6 then dst.get ⟨i.val - 2, by omega⟩ else p.Prefix[i]
      PrefixLen := 64 }).toList

def autoPrefixes (sys : Sys) (ifname : Buf) (p : AdvPrefix) : List AdvPrefix :=
  (sys.get_prefixes ifname).map fun x => { p with Prefix := x.1, PrefixLen := x.2 }

def in6addrAny : In6Addr := Vector.replicate 16 0

/-- The prefixes an entry of the list is advertised as. -/
def advertised (sys : Sys) (iface : Interface) (p : AdvPrefix) : List AdvPrefix :=
  if !p.DecrementLifetimesFlag || 0 < p.curr_preferredlft then
    if p.if6to4 ≠ [] ∨ p.if6 ≠ [] ∨ p.Prefix = in6addrAny then
      (if p.if6to4 ≠ [] then autoPrefix6to4 sys p else []) ++
        (if p.if6 ≠ [] then autoPrefixes sys p.if6 p else []) ++
        (if p.Prefix = in6addrAny then autoPrefixes sys iface.name p else [])
    else [p]
  else []

def addRaOptionsPrefix (sys : Sys) (iface : Interface) (sbl : List Buf) : List Buf :=
  (iface.AdvPrefixList.flatMap (advertised sys iface)).foldl (fun sbl p =>
    if iface.cease_adv || scheduleOption then
      appendOption sbl (addRaOptionPrefix p iface.cease_adv)
    else sbl) sbl

/-- The lifetime sent, zero when it is to be taken back. -/
def lifetimeOr0 (zero : Bool) (lifetime : UInt32) : ℕ := if zero then 0 else lifetime.toNat

def routeOption (route : AdvRoute) (cease_adv : Bool) : Buf :=
  let lifetime := lifetimeOr0 (cease_adv && route.RemoveRouteFlag) route.AdvRouteLifetime
  [ND_OPT_ROUTE_INFORMATION, 3, route.PrefixLen, prfBits route.AdvRoutePreference] ++
    htonl lifetime ++ route.Prefix.toList

def addRaOptionsRoute (iface : Interface) (sbl : List Buf) : List Buf :=
  iface.AdvRouteList.foldl (fun sbl route =>
    if !iface.cease_adv && !scheduleOption then sbl
    else appendOption sbl (routeOption route iface.cease_adv)) sbl

/-- The addresses past the number are cut off the struct. -/
def rdnssOption (rdnss : AdvRDNSS) (cease_adv : Bool) : Buf :=
  let lifetime := lifetimeOr0 (cease_adv && rdnss.FlushRDNSSFlag) rdnss.AdvRDNSSLifetime
  let info := [ND_OPT_RDNSS_INFORMATION, UInt8.ofNat (1 + 2 * rdnss.AdvRDNSSNumber), 0, 0] ++
    htonl lifetime ++ rdnss.AdvRDNSSAddr1.toList ++ rdnss.AdvRDNSSAddr2.toList ++
    rdnss.AdvRDNSSAddr3.toList
  info.take (56 - (3 - rdnss.AdvRDNSSNumber) * 16)

def addRaOptionsRdnss (iface : Interface) (sbl : List Buf) : List Buf :=
  iface.AdvRDNSSList.foldl (fun sbl rdnss =>
    if !iface.cease_adv && !scheduleOption then sbl
    else appendOption sbl (rdnssOption rdnss iface.cease_adv)) sbl

/-- The labels of one suffix, with a bound on the rounds: a label length that
    is zero modulo 256 keeps the loop where it is. -/
def serializeLabels : ℕ → Buf → Option Buf
  | _, [] => some []
  | 0, _ => none
  | k + 1, label =>
    let found := label.takeWhile (· ≠ 46)
    let labelLen := UInt8.ofNat found.length
    let rest := label.drop labelLen.toNat
    let next := if rest.head? = some 46 then rest.tail else rest
    let zero : Buf := if next = [] then [0] else []
    (serializeLabels k next).map fun more =>
      [labelLen] ++ label.take labelLen.toNat ++ zero ++ more

def serializeDomainNames (dnssl : AdvDNSSL) : Option Buf :=
  (dnssl.AdvDNSSLSuffixes.mapM fun s => serializeLabels s.length s).map List.flatten

/-- More than 2048 bytes end the program; past 2040 the length byte is zero and
    the padding runs out of the buffer. -/
def dnsslOption (dnssl : AdvDNSSL) (cease_adv : Bool) : Option Buf := do
  let domains ← serializeDomainNames dnssl
  let bytes := 8 + domains.length
  if 256 * 8 < bytes then none
  else
    let len := UInt8.ofNat ((bytes + 7) / 8)
    let lifetime := lifetimeOr0 (cease_adv && dnssl.FlushDNSSLFlag) dnssl.AdvDNSSLLifetime
    if len.toNat * 8 < bytes then none
    else some ([ND_OPT_DNSSL_INFORMATION, len, 0, 0] ++ htonl lifetime ++ domains ++
      List.replicate (len.toNat * 8 - bytes) 0)

def addRaOptionsDnssl (iface : Interface) (sbl : List Buf) : Option (List Buf) :=
  iface.AdvDNSSLList.foldlM (fun sbl dnssl =>
    if !iface.cease_adv && !scheduleOption then some sbl
    else (dnsslOption dnssl iface.cease_adv).map (appendOption sbl)) sbl

def addRaOptionMtu (mtu : UInt32) : Buf := [ND_OPT_MTU, 1, 0, 0] ++ htonl mtu.toNat

def addRaOptionSllao (sllao : Sllao) : Buf :=
  let hwlen := (sllao.if_hwaddr_len / 8).toNat
  let bytes := hwlen + 2
  let len := (bytes + 7) / 8
  [ND_OPT_SOURCE_LINKADDR, UInt8.ofNat len] ++ sllao.if_hwaddr.toList.take hwlen ++
    List.replicate (len * 8 - bytes) 0

def addRaOptionMipv6RtrAdvInterval (maxInterval : ℚ) : Buf :=
  let ival :=
    if maxInterval < Cautious_MaxRtrAdvInterval then
      ⌊1000 * (maxInterval + Cautious_MaxRtrAdvInterval_Leeway)⌋₊
    else ⌊1000 * maxInterval⌋₊
  [ND_OPT_RTR_ADV_INTERVAL, 1, 0, 0] ++ htonl ival

def addRaOptionMipv6HomeAgentInfo (mipv6 : Mipv6) : Buf :=
  [ND_OPT_HOME_AGENT_INFO, 1] ++
    host16 (if mipv6.AdvMobRtrSupportFlag then ND_OPT_HAI_FLAG_SUPPORT_MR else 0) ++
    htons mipv6.HomeAgentPreference.toNat ++ htons (mipv6.HomeAgentLifetime % 65536).toNat

/-- The lifetime is not put into network order. -/
def addRaOptionLowpanco (co : AdvLowpanCo) : Buf :=
  [ND_OPT_6CO, 3, co.ContextLength,
    UInt8.ofNat (co.ContextCompressionFlag.toNat % 2 * 8 + co.AdvContextID.toNat % 16 * 16), 0, 0] ++
    host16 co.AdvLifeTime.toNat ++ co.AdvContextPrefix.toList

def addRaOptionAbro (abro : AdvAbro) : Buf :=
  [ND_OPT_ABRO, 3] ++ host16 abro.Version.2.toNat ++ host16 abro.Version.1.toNat ++
    host16 abro.ValidLifeTime.toNat ++ abro.LBRaddress.toList

/-- The options that follow the lists, each in a buffer of its own. -/
def singleOptions (iface : Interface) : List Buf :=
  (if iface.AdvLinkMTU ≠ 0 && scheduleOption then [addRaOptionMtu iface.AdvLinkMTU] else []) ++
  (if iface.AdvSourceLLAddress && 0 < iface.sllao.if_hwaddr_len && scheduleOption then
    [addRaOptionSllao iface.sllao] else []) ++
  (if iface.mipv6.AdvIntervalOpt && scheduleOption then
    [addRaOptionMipv6RtrAdvInterval iface.MaxRtrAdvInterval] else []) ++
  (if iface.mipv6.AdvHomeAgentInfo && scheduleOption &&
      (iface.mipv6.AdvMobRtrSupportFlag || iface.mipv6.HomeAgentPreference != 0 ||
        iface.mipv6.HomeAgentLifetime != iface.ra_header_info.AdvDefaultLifetime) then
    [addRaOptionMipv6HomeAgentInfo iface.mipv6] else []) ++
  (if scheduleOption then (iface.AdvLowpanCoList.head?.map addRaOptionLowpanco).toList else []) ++
  (if scheduleOption then (iface.AdvAbroList.head?.map addRaOptionAbro).toList else [])

/-- The list starts with an empty buffer. -/
def buildRaOptions (sys : Sys) (iface : Interface) : Option (List Buf) :=
  let sbl : List Buf := [[]]
  let sbl := addRaOptionsPrefix sys iface sbl
  let sbl := addRaOptionsRoute iface sbl
  let sbl := addRaOptionsRdnss iface sbl
  (addRaOptionsDnssl iface sbl).map (· ++ singleOptions iface)

/-! ### Sizes -/

@[simp] theorem length_htons (n : ℕ) : (htons n).length = 2 := rfl
@[simp] theorem length_htonl (n : ℕ) : (htonl n).length = 4 := rfl
@[simp] theorem length_host16 (n : ℕ) : (host16 n).length = 2 := rfl

/-- The size of a router advertisement without options. -/
def raHeaderLen : ℕ := 16

theorem length_addRaHeader (sys : Sys) (info : RaHeaderInfo) (cease_adv : Bool) :
    (addRaHeader sys info cease_adv).length = raHeaderLen := rfl

theorem length_addRaOptionPrefix (p : AdvPrefix) (cease_adv : Bool) :
    (addRaOptionPrefix p cease_adv).length = 32 := by
  simp [addRaOptionPrefix]

theorem length_routeOption (route : AdvRoute) (cease_adv : Bool) :
    (routeOption route cease_adv).length = 24 := by
  simp [routeOption]

theorem length_rdnssOption (rdnss : AdvRDNSS) (cease_adv : Bool) :
    (rdnssOption rdnss cease_adv).length = 8 + 16 * rdnss.AdvRDNSSNumber := by
  have hle := rdnss.number_le
  simp only [rdnssOption, List.length_take, List.length_append, List.length_cons,
    List.length_nil, length_htonl, Vector.length_toList]
  omega

theorem length_dnsslOption {dnssl : AdvDNSSL} {cease_adv : Bool} {o : Buf}
    (h : dnsslOption dnssl cease_adv = some o) : 8 ≤ o.length ∧ o.length ≤ 2040 := by
  unfold dnsslOption at h
  obtain ⟨domains, -, h⟩ := Option.bind_eq_some_iff.1 h
  dsimp only at h
  split_ifs at h with hlong hshort
  rw [← Option.some.inj h]
  have hlen := (UInt8.ofNat ((8 + domains.length + 7) / 8)).toNat_lt
  simp only [List.length_append, List.length_cons, List.length_nil, length_htonl,
    List.length_replicate]
  omega

/-- A list of buffers as the encoders build it: the empty root, or options. -/
def Listed (sbl : List Buf) : Prop :=
  sbl = [[]] ∨ sbl ≠ [] ∧ ∀ o ∈ sbl, 0 < o.length ∧ o.length ≤ 2040

theorem Listed.appendOption {sbl : List Buf} (h : Listed sbl) {o : Buf} (hpos : 0 < o.length)
    (hle : o.length ≤ 2040) : Listed (appendOption sbl o) := by
  right
  unfold Radvd.appendOption appendToTail safeBufferListAppend
  rcases h with rfl | ⟨hne, hall⟩
  · simp only [List.getLastD]
    simp [hpos, hle]
  · have hlast : 0 < (sbl.getLastD []).length := by
      rw [List.getLastD_eq_getLast?, List.getLast?_eq_getLast_of_ne_nil hne]
      exact (hall _ (List.getLast_mem hne)).1
    rw [if_pos hlast]
    simp only [List.dropLast_concat, List.getLastD_concat, List.nil_append]
    refine ⟨by simp, ?_⟩
    intro b hb
    rcases List.mem_append.1 hb with hb | hb
    · exact hall b hb
    · rw [List.mem_singleton.1 hb]
      exact ⟨hpos, hle⟩

theorem Listed.foldl {α : Type} {f : List Buf → α → List Buf}
    (hf : ∀ sbl x, Listed sbl → Listed (f sbl x)) (xs : List α) {sbl : List Buf}
    (h : Listed sbl) : Listed (xs.foldl f sbl) := by
  induction xs generalizing sbl with
  | nil => exact h
  | cons x xs ih => exact ih (hf sbl x h)

theorem Listed.prefixes {sbl : List Buf} (h : Listed sbl) (sys : Sys) (iface : Interface) :
    Listed (addRaOptionsPrefix sys iface sbl) := by
  apply Listed.foldl _ _ h
  intro sbl p hsbl
  split_ifs
  · apply hsbl.appendOption
    · rw [length_addRaOptionPrefix]
      decide
    · rw [length_addRaOptionPrefix]
      decide
  · exact hsbl

theorem Listed.routes {sbl : List Buf} (h : Listed sbl) (iface : Interface) :
    Listed (addRaOptionsRoute iface sbl) := by
  apply Listed.foldl _ _ h
  intro sbl route hsbl
  split_ifs
  · exact hsbl
  · apply hsbl.appendOption
    · rw [length_routeOption]
      decide
    · rw [length_routeOption]
      decide

theorem Listed.rdnss {sbl : List Buf} (h : Listed sbl) (iface : Interface) :
    Listed (addRaOptionsRdnss iface sbl) := by
  apply Listed.foldl _ _ h
  intro sbl rdnss hsbl
  have hnum := rdnss.number_le
  split_ifs
  · exact hsbl
  · apply hsbl.appendOption
    · rw [length_rdnssOption]
      omega
    · rw [length_rdnssOption]
      omega

theorem Listed.dnssl {sbl sbl' : List Buf} (h : Listed sbl) (iface : Interface)
    (hd : addRaOptionsDnssl iface sbl = some sbl') : Listed sbl' := by
  unfold addRaOptionsDnssl at hd
  generalize iface.AdvDNSSLList = dnssls at hd
  induction dnssls generalizing sbl with
  | nil =>
    rw [← Option.some.inj hd]
    exact h
  | cons dnssl dnssls ih =>
    rw [List.foldlM_cons] at hd
    obtain ⟨next, hnext, hd⟩ := Option.bind_eq_some_iff.1 hd
    apply ih _ hd
    split_ifs at hnext
    · rw [← Option.some.inj hnext]
      exact h
    · obtain ⟨o, ho, rfl⟩ := Option.map_eq_some_iff.1 hnext
      have hlen := length_dnsslOption ho
      exact h.appendOption (by omega) hlen.2

theorem length_addRaOptionSllao (sllao : Sllao) :
    0 < (addRaOptionSllao sllao).length ∧ (addRaOptionSllao sllao).length ≤ 24 := by
  have hle := sllao.len_le
  have h16 : (sllao.if_hwaddr_len / 8).toNat ≤ 16 := by omega
  simp only [addRaOptionSllao, List.length_append, List.length_cons, List.length_nil,
    List.length_take, Vector.length_toList, List.length_replicate]
  omega

theorem singleOptions_length (iface : Interface) (o : Buf) (ho : o ∈ singleOptions iface) :
    0 < o.length ∧ o.length ≤ 24 := by
  have hone : ∀ (c : Prop) [Decidable c] (x : Buf), o ∈ (if c then [x] else []) → o = x := by
    intro c _ x hx
    split_ifs at hx
    · exact List.mem_singleton.1 hx
    · exact absurd hx List.not_mem_nil
  unfold singleOptions at ho
  simp only [List.mem_append] at ho
  rcases ho with ((((h | h) | h) | h) | h) | h
  · rw [hone _ _ h]
    simp [addRaOptionMtu]
  · rw [hone _ _ h]
    exact length_addRaOptionSllao _
  · rw [hone _ _ h]
    simp [addRaOptionMipv6RtrAdvInterval]
  · rw [hone _ _ h]
    simp [addRaOptionMipv6HomeAgentInfo]
  · rw [if_pos (show scheduleOption = true from rfl), Option.mem_toList,
      Option.map_eq_some_iff] at h
    obtain ⟨co, -, rfl⟩ := h
    simp [addRaOptionLowpanco]
  · rw [if_pos (show scheduleOption = true from rfl), Option.mem_toList,
      Option.map_eq_some_iff] at h
    obtain ⟨abro, -, rfl⟩ := h
    simp [addRaOptionAbro]

/-- What `build_ra_options` builds: options, after an empty root when no list
    gave one. -/
theorem buildRaOptions_built {sys : Sys} {iface : Interface} {opts : List Buf}
    (h : buildRaOptions sys iface = some opts) :
    opts = [] :: singleOptions iface ∨
      opts ≠ [] ∧ ∀ o ∈ opts, 0 < o.length ∧ o.length ≤ 2040 := by
  obtain ⟨sbl, hsbl, rfl⟩ := Option.map_eq_some_iff.1 h
  have hroot : Listed [[]] := Or.inl rfl
  have hlisted := (((hroot.prefixes sys iface).routes iface).rdnss iface).dnssl iface hsbl
  rcases hlisted with rfl | ⟨hne, hall⟩
  · exact Or.inl rfl
  · right
    refine ⟨by simp [hne], ?_⟩
    intro o ho
    rcases List.mem_append.1 ho with ho | ho
    · exact hall o ho
    · have hlen := singleOptions_length iface o ho
      omega

end WanStack.Radvd
