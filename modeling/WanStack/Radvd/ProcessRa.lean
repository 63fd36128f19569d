import WanStack.Lib.Walk
import WanStack.Radvd.Options

set_option autoImplicit false

/-!
# Received router advertisements

`process_ra` of `process.c`, which compares an advertisement of another router
with the configuration. An option is seen as what is left of the message from
its first byte on. Beside its reports the model notes what is read of it.
-/
namespace WanStack.Radvd
open Aftr (Buf byteAt bytesAt shortAt)
open Lib.Walk

def ND_OPT_TARGET_LINKADDR : UInt8 := 2
def ND_OPT_REDIRECTED_HEADER : UInt8 := 4

/-- What a parser does with an option: it reads bytes of it, or a label of a
    suffix list that ends at `stop`, it copies bytes to an address, it says
    something, or it goes on for ever. `left` bytes are left of the message. -/
inductive Act (ρ : Type) where
  | read (off n left : ℕ)
  | label (off n stop left : ℕ)
  | copy (n : ℕ)
  | emit (r : ρ)
  | stuck
deriving DecidableEq, Repr

/-- What is said among what is done. -/
def Act.said {ρ : Type} : Act ρ → Option ρ
  | .emit r => some r
  | _ => none

/-- The messages of `process_ra`, without the names of the interface and of the
    sender: first those about our configuration. -/
inductive Report where
  | curHopLimit
  | managedFlag
  | otherConfigFlag
  | reachableTime
  | retransTimer
  | linkMTU
  | validLifetime (addr : In6Addr)
  | preferredLifetime (addr : In6Addr)
  | rdnss (addr : In6Addr)
  | dnssl (suffix : Buf)
  | invalidOption (type : UInt8)
  | rdnssLen (count : ℕ)
  | oversizedSuffix
  | trailingGarbage
  | zeroLength
  | tooLong (optlen len : ℕ)
  | unknownOption (type : UInt8)
deriving DecidableEq

/-- A report that something is not as we have it. -/
def Report.Mismatch : Report → Prop
  | .curHopLimit | .managedFlag | .otherConfigFlag | .reachableTime | .retransTimer | .linkMTU
  | .validLifetime _ | .preferredLifetime _ | .rdnss _ | .dnssl _ => True
  | .invalidOption _ | .rdnssLen _ | .oversizedSuffix | .trailingGarbage | .zeroLength
  | .tooLong _ _ | .unknownOption _ => False

instance : DecidablePred Report.Mismatch := fun r => by
  cases r <;> unfold Report.Mismatch <;> infer_instance

/-- `ntohl` of a field. -/
def longAt (b : Buf) (i : ℕ) : ℕ := shortAt b i * 65536 + shortAt b (i + 2)

def addrAt (b : Buf) (i : ℕ) : In6Addr := Vector.ofFn fun j => byteAt b (i + j)

/-- The `k`th word of an address. -/
def wordOf (a : In6Addr) (k : ℕ) : ℕ := longAt a.toList (4 * k)

def addrMatch (a1 a2 : In6Addr) (prefixlen : ℕ) : Bool :=
  let pdw := prefixlen / 32
  let pbi := prefixlen % 32
  if a1.toList.take (4 * pdw) ≠ a2.toList.take (4 * pdw) then false else
  if pbi ≠ 0 then
    let mask := (0xffffffff <<< (32 - pbi)) % 2 ^ 32
    (wordOf a1 pdw ^^^ wordOf a2 pdw) &&& mask = 0
  else true

def checkRdnssPresence (rdnss : List AdvRDNSS) (addr : In6Addr) : Bool :=
  rdnss.any fun r => r.AdvRDNSSAddr1 = addr || r.AdvRDNSSAddr2 = addr || r.AdvRDNSSAddr3 = addr

def checkDnsslPresence (dnssl : List AdvDNSSL) (suffix : Buf) : Bool :=
  dnssl.any fun d => d.AdvDNSSLSuffixes.any fun s => s = suffix

/-- The text that `strncat` appends, and how many bytes it looks at. -/
def strncatText (src : Buf) (n : ℕ) : Buf := (src.take n).takeWhile (· ≠ 0)
def strncatReads (src : Buf) (n : ℕ) : ℕ :=
  if 0 ∈ src.take n then (strncatText src n).length + 1 else n

def reportIf (c : Bool) (r : Report) : List (Act Report) := if c then [.emit r] else []

/-- The fields of the header, which are compared where both sides have one. -/
def raHeaderActs (iface : Interface) (msg : Buf) : List (Act Report) :=
  let info := iface.ra_header_info
  let curhoplimit := byteAt msg 4
  let flags := byteAt msg 5
  let reachable := longAt msg 8
  let retransmit := longAt msg 12
  reportIf (curhoplimit ≠ 0 && info.AdvCurHopLimit ≠ 0 && curhoplimit ≠ info.AdvCurHopLimit)
      .curHopLimit ++
    reportIf (flags &&& ND_RA_FLAG_MANAGED ≠ 0 && !info.AdvManagedFlag) .managedFlag ++
    reportIf (flags &&& ND_RA_FLAG_OTHER ≠ 0 && !info.AdvOtherConfigFlag) .otherConfigFlag ++
    reportIf (reachable ≠ 0 && info.AdvReachableTime ≠ 0 &&
      reachable ≠ info.AdvReachableTime.toNat) .reachableTime ++
    reportIf (retransmit ≠ 0 && info.AdvRetransTimer ≠ 0 &&
      retransmit ≠ info.AdvRetransTimer.toNat) .retransTimer

/-- An option's acts, and whether the function goes on or returns. -/
abbrev Outcome : Type := List (Act Report) × Bool

def raMtu (iface : Interface) (opt : Buf) : Outcome :=
  if opt.length < 8 then ([], false) else
  ([.read 4 4 opt.length] ++
    reportIf (iface.AdvLinkMTU ≠ 0 && longAt opt 4 ≠ iface.AdvLinkMTU.toNat) .linkMTU, true)

/-- The loop over our prefixes; their lengths are at most 128. -/
def raPrefixActs (opt : Buf) (p : AdvPrefix) : List (Act Report) :=
  [.read 2 1 opt.length] ++
    if p.PrefixLen = byteAt opt 2 then
      [.read 16 16 opt.length] ++
        if addrMatch p.Prefix (addrAt opt 16) p.PrefixLen.toNat then
          reportIf (!p.DecrementLifetimesFlag && longAt opt 4 ≠ p.AdvValidLifetime.toNat)
              (.validLifetime p.Prefix) ++
            reportIf (!p.DecrementLifetimesFlag && longAt opt 8 ≠ p.AdvPreferredLifetime.toNat)
              (.preferredLifetime p.Prefix)
        else []
    else []

def raPrefix (iface : Interface) (opt : Buf) : Outcome :=
  if opt.length < 32 then ([], false) else
  ([.read 8 4 opt.length, .read 4 4 opt.length] ++
    iface.AdvPrefixList.flatMap (raPrefixActs opt), true)

def raRdnssAddr (iface : Interface) (opt : Buf) (off : ℕ) : List (Act Report) :=
  [.read off 16 opt.length] ++
    reportIf (!checkRdnssPresence iface.AdvRDNSSList (addrAt opt off)) (.rdnss (addrAt opt off))

/-- A longer count falls through to the shorter ones. -/
def raRdnss (iface : Interface) (opt : Buf) : Outcome :=
  if opt.length < 56 then ([], false) else
  let count := (byteAt opt 1).toNat
  (.read 1 1 opt.length ::
    if count = 7 then
      raRdnssAddr iface opt 40 ++ raRdnssAddr iface opt 24 ++ raRdnssAddr iface opt 8
    else if count = 5 then raRdnssAddr iface opt 24 ++ raRdnssAddr iface opt 8
    else if count = 3 then raRdnssAddr iface opt 8
    else [.emit (.rdnssLen count)], true)

def Outcome.after (acts : List (Act Report)) (o : Outcome) : Outcome := (acts ++ o.1, o.2)

/-- The loop over the suffixes up to `limit`, with fuel. Each round begins with
    an empty suffix, as the buffer is declared in the loop. -/
def raDnsslLoop (iface : Interface) (opt : Buf) (limit : ℕ) : ℕ → ℕ → Outcome
  | fuel, offset =>
    if limit ≤ offset then ([], true) else
    match fuel with
    | 0 => ([.stuck], true)
    | k + 1 =>
      let suffix : Buf := []
      if opt.length ≤ 8 + offset then ([], false) else
      let labelLen := (byteAt opt (8 + offset)).toNat
      let readLen : Act Report := .read (8 + offset) 1 opt.length
      let offset := offset + 1
      if labelLen = 0 then
        if suffix = [] then (raDnsslLoop iface opt limit k offset).after [readLen]
        else
          (raDnsslLoop iface opt limit k offset).after (readLen ::
            reportIf (!checkDnsslPresence iface.AdvDNSSLList suffix) (.dnssl suffix))
      else if 256 - suffix.length < labelLen + 2 ∨ opt.length ≤ 8 + offset + labelLen then
        ([readLen, .emit .oversizedSuffix], true)
      else
        (raDnsslLoop iface opt limit k (offset + labelLen)).after [readLen,
          .label (8 + offset) (strncatReads (opt.drop (8 + offset)) labelLen) (8 + limit) opt.length]

/-- The bytes of the suffixes: what the length announces behind the first eight. -/
def dnsslLimit (opt : Buf) : ℕ := ((byteAt opt 1).toNat - 1) * 8

def raDnssl (iface : Interface) (opt : Buf) : Outcome :=
  if opt.length < 8 then ([], false) else
  (raDnsslLoop iface opt (dnsslLimit opt) (dnsslLimit opt) 0).after [.read 1 1 opt.length]

/-- The switch over the type of an option. -/
def raOption (iface : Interface) (opt : Buf) : Outcome :=
  let type := byteAt opt 0
  if type = ND_OPT_MTU then raMtu iface opt
  else if type = ND_OPT_PREFIX_INFORMATION then raPrefix iface opt
  else if type = ND_OPT_ROUTE_INFORMATION then ([], true)
  else if type = ND_OPT_SOURCE_LINKADDR then ([], true)
  else if type = ND_OPT_TARGET_LINKADDR ∨ type = ND_OPT_REDIRECTED_HEADER then
    ([.emit (.invalidOption type)], true)
  else if type = ND_OPT_RTR_ADV_INTERVAL ∨ type = ND_OPT_HOME_AGENT_INFO then ([], true)
  else if type = ND_OPT_RDNSS_INFORMATION then raRdnss iface opt
  else if type = ND_OPT_DNSSL_INFORMATION then raDnssl iface opt
  else ([.emit (.unknownOption type)], true)

def optlenOf (opt : Buf) : ℕ := (byteAt opt 1).toNat * 8

/-- A round of the loop over the options: its acts, and how far it goes on. -/
def raRound (iface : Interface) (opt : Buf) : List (Act Report) × Option ℕ :=
  if opt.length < 2 then ([.emit .trailingGarbage], none) else
  let optlen := optlenOf opt
  let readLen : Act Report := .read 1 1 opt.length
  if optlen = 0 then ([readLen, .emit .zeroLength], none)
  else if opt.length < optlen then ([readLen, .emit (.tooLong optlen opt.length)], none)
  else
    let o := raOption iface opt
    (readLen :: .read 0 1 opt.length :: o.1, if o.2 then some optlen else none)

/-- The rounds of the loop, each with what is left of the message. -/
def raRounds (iface : Interface) (opts : Buf) : Option (List Buf) :=
  walk (fun opt => (raRound iface opt).2) opts

/-- `process_ra` for a message that `process` lets through, which has a header.
    No result would be a loop without end. -/
def processRa (iface : Interface) (msg : Buf) : Option (List (Act Report)) :=
  (raRounds iface (msg.drop raHeaderLen)).map fun rs =>
    raHeaderActs iface msg ++ rs.flatMap fun opt => (raRound iface opt).1

end WanStack.Radvd
