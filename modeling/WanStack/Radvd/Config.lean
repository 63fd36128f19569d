import WanStack.Radvd.Options
import WanStack.Radvd.Timer

set_option autoImplicit false

/-!
# Interfaces as they are configured

The settings of an interface that the configuration file gives, and the defaults of
`interface.c`. A double becomes an integer as the 64 bit conversion does it.
-/
namespace WanStack.Radvd
open Aftr (Buf)

/-- The rest of `struct Interface` that the file sets, and `sllao.if_maxmtu`. -/
structure IfaceConf extends Interface where
  IgnoreIfMissing : Bool
  MinRtrAdvInterval : ℚ
  MinDelayBetweenRAs : ℚ
  UnicastOnly : Bool
  AdvRASolicitedUnicast : Bool
  ClientList : List In6Addr
  AdvRASrcAddressList : List In6Addr
  AdvRAMTU : UInt32
  if_maxmtu : ℤ

def IfaceConf.DFLT_MaxRtrAdvInterval : ℚ := 600
def MIN_DELAY_BETWEEN_RAS : ℚ := 3
def MIN_DELAY_BETWEEN_RAS_MIPv6 : ℚ := 30 / 1000
def MIN_MaxRtrAdvInterval : ℚ := 4
def MIN_MaxRtrAdvInterval_MIPv6 : ℚ := 7 / 100
def MAX_MaxRtrAdvInterval : ℚ := 1800
def MIN_MinRtrAdvInterval : ℚ := 3
def MIN_MinRtrAdvInterval_MIPv6 : ℚ := 3 / 100
def MIN_AdvLinkMTU : UInt32 := 1280
def MAX_AdvLinkMTU : UInt32 := 131072
def MAX_AdvReachableTime : UInt32 := 3600000
def MAX_AdvDefaultLifetime : ℤ := 9000
def MIN_HomeAgentLifetime : ℤ := 1
def MAX_HomeAgentLifetime : ℤ := 65520
def MAX_PrefixLen : ℕ := 128

def zeroAddr : In6Addr := Vector.replicate 16 0

/-- A double stored in a `uint32_t`. -/
def toU32 (q : ℚ) : UInt32 := UInt32.ofNat (truncate q % 4294967296).toNat

/-- `iface_init_defaults`. -/
def ifaceInitDefaults : IfaceConf where
  name := []
  AdvSendAdvert := false
  MaxRtrAdvInterval := IfaceConf.DFLT_MaxRtrAdvInterval
  AdvSourceLLAddress := true
  cease_adv := false
  max_ra_option_size := 0
  ra_header_info :=
    { AdvManagedFlag := false
      AdvOtherConfigFlag := false
      AdvCurHopLimit := 64
      AdvHomeAgentFlag := false
      AdvDefaultLifetime := -1
      AdvDefaultPreference := 0
      AdvReachableTime := 0
      AdvRetransTimer := 0 }
  AdvPrefixList := []
  AdvRouteList := []
  AdvRDNSSList := []
  AdvDNSSLList := []
  AdvLinkMTU := 0
  sllao :=
    { if_hwaddr := Vector.replicate 16 0
      if_hwaddr_len := 0
      len_le := by decide }
  mipv6 :=
    { AdvIntervalOpt := false
      AdvHomeAgentInfo := false
      HomeAgentPreference := 0
      HomeAgentLifetime := -1
      AdvMobRtrSupportFlag := false }
  AdvLowpanCoList := []
  AdvAbroList := []
  IgnoreIfMissing := true
  MinRtrAdvInterval := -1
  MinDelayBetweenRAs := MIN_DELAY_BETWEEN_RAS
  UnicastOnly := false
  AdvRASolicitedUnicast := true
  ClientList := []
  AdvRASrcAddressList := []
  AdvRAMTU := MIN_AdvLinkMTU
  if_maxmtu := 0

/-- `prefix_init_defaults`. -/
def prefixInitDefaults : AdvPrefix where
  Prefix := zeroAddr
  PrefixLen := 0
  AdvOnLinkFlag := true
  AdvAutonomousFlag := true
  AdvValidLifetime := 86400
  AdvPreferredLifetime := 14400
  DeprecatePrefixFlag := false
  DecrementLifetimesFlag := false
  curr_validlft := 86400
  curr_preferredlft := 14400
  AdvRouterAddr := false
  if6to4 := []
  if6 := []

/-- `route_init_defaults`, with the interval seen so far. -/
def routeInitDefaults (MaxRtrAdvInterval : ℚ) : AdvRoute where
  Prefix := zeroAddr
  PrefixLen := 0
  AdvRoutePreference := 0
  AdvRouteLifetime := toU32 (3 * MaxRtrAdvInterval)
  RemoveRouteFlag := true

/-- `rdnss_init_defaults`. -/
def rdnssInitDefaults (MaxRtrAdvInterval : ℚ) : AdvRDNSS where
  AdvRDNSSNumber := 0
  AdvRDNSSLifetime := toU32 MaxRtrAdvInterval
  FlushRDNSSFlag := true
  AdvRDNSSAddr1 := zeroAddr
  AdvRDNSSAddr2 := zeroAddr
  AdvRDNSSAddr3 := zeroAddr
  number_le := by decide

/-- `dnssl_init_defaults`. -/
def dnsslInitDefaults (MaxRtrAdvInterval : ℚ) : AdvDNSSL where
  AdvDNSSLLifetime := toU32 MaxRtrAdvInterval
  FlushDNSSLFlag := true
  AdvDNSSLSuffixes := []

end WanStack.Radvd
