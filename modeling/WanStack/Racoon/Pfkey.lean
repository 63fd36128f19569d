import WanStack.Lib.Reused
import WanStack.Racoon.Handles
import WanStack.Racoon.SaPayload

set_option autoImplicit false

/-!
# Installing the associations of a bundle

`pk_sendupdate` and `pk_sendadd` of `pfkey.c`, which hand the kernel the inbound
and the outbound association of every protocol of the approval. Both fill one
record of arguments again for each protocol. The answer of the kernel to each
call is a parameter; the build is the one for Linux, where RC5 has no algorithm
of PF_KEY.
-/
namespace WanStack.Racoon.Pfkey
open Proposal (Saproto Satrns IPSECDOI_PROTO_IPSEC_AH IPSECDOI_PROTO_IPSEC_ESP
  IPSECDOI_PROTO_IPCOMP IPSECDOI_ATTR_ENC_MODE_TUNNEL IPSECDOI_ATTR_ENC_MODE_TRNS
  IPSECDOI_ATTR_ENC_MODE_UDPTUNNEL_RFC IPSECDOI_ATTR_ENC_MODE_UDPTRNS_RFC
  IPSECDOI_ATTR_ENC_MODE_UDPTUNNEL_DRAFT IPSECDOI_ATTR_ENC_MODE_UDPTRNS_DRAFT
  IPSECDOI_ESP_DES IPSECDOI_ESP_3DES IPSECDOI_ESP_CAST IPSECDOI_ESP_BLOWFISH IPSECDOI_ESP_NULL
  IPSECDOI_ESP_AES IPSECDOI_ESP_CAMELLIA IPSECDOI_ESP_TWOFISH IPSECDOI_IPCOMP_OUI
  IPSECDOI_IPCOMP_DEFLATE IPSECDOI_IPCOMP_LZS IPSECDOI_ATTR_AUTH_HMAC_MD5
  IPSECDOI_ATTR_AUTH_HMAC_SHA1 IPSECDOI_ATTR_AUTH_HMAC_SHA2_256
  IPSECDOI_ATTR_AUTH_HMAC_SHA2_384 IPSECDOI_ATTR_AUTH_HMAC_SHA2_512 IPSECDOI_ATTR_AUTH_NONE)
open Handles (Satype)
open Lib.Reused

def IPSECDOI_ESP_DES_IV64 : ℕ := 1
def IPSECDOI_ESP_DES_IV32 : ℕ := 9
def IPSECDOI_ATTR_AUTH_DES_MAC : ℕ := 3
def IPSECDOI_ATTR_AUTH_KPDK : ℕ := 4

def SADB_X_EXT_OLD : ℕ := 0x0001
def SADB_X_EXT_RAWCPI : ℕ := 0x0080

inductive Mode where
  | TRANSPORT
  | TUNNEL
deriving DecidableEq, Repr

/-- `SADB_EALG_*` and `SADB_X_CALG_*`, which share the field `e_type`. -/
inductive EType where
  | NONE
  | DESCBC
  | TRIPLEDESCBC
  | CAST128CBC
  | BLOWFISHCBC
  | NULL
  | AESCBC
  | TWOFISHCBC
  | CAMELLIACBC
  | CALG_OUI
  | CALG_DEFLATE
  | CALG_LZS
deriving DecidableEq, Repr

/-- `SADB_AALG_*`. -/
inductive AType where
  | NONE
  | MD5HMAC
  | SHA1HMAC
  | SHA2_256HMAC
  | SHA2_384HMAC
  | SHA2_512HMAC
  | X_MD5
deriving DecidableEq, Repr

/-- `UDP_ENCAP_*`, as `natt_fill_options` sets them. -/
inductive Encap where
  | ESPINUDP_NON_IKE
  | ESPINUDP
deriving DecidableEq, Repr

/-- The fields `l_natt_*`, which are set together or left at zero. -/
structure Natt where
  type : Encap
  sport : ℕ
  dport : ℕ
  oa : Option Sockaddr
  frag : ℕ
deriving DecidableEq, Repr

structure SecCtx where
  doi : ℕ
  alg : ℕ
  str : List UInt8
deriving DecidableEq, Repr

/-- What `pfkey_convertfromipsecdoi` sets. -/
structure Alg where
  eType : EType
  eKeylen : ℕ
  aType : AType
  aKeylen : ℕ
  flags : ℕ
deriving DecidableEq, Repr

/-- `struct pfkey_send_sa_args`, without the socket. -/
structure SaArgs where
  lAddtime : ℤ
  seq : ℕ
  src : Sockaddr
  dst : Sockaddr
  wsize : ℕ
  satype : Satype
  mode : Mode
  alg : Alg
  lBytes : ℤ
  ctx : Option SecCtx
  natt : Option Natt
  spi : List UInt8
  reqid : ℤ
  keymat : List UInt8
deriving DecidableEq, Repr

/-- A protocol of an approval, which names a transform, with its keys. -/
structure Keyed extends Saproto where
  keymat : List UInt8
  keymatP : List UInt8
  trns : head ≠ []
deriving DecidableEq

structure Approval where
  lifetime : ℤ
  lifebyte : ℤ
  sctx : Option SecCtx
  head : List Keyed
deriving DecidableEq

/-- A phase 2 handle and what the two functions read of its phase 1 handle. -/
structure Ph2handle where
  lifetimeSecs : ℤ
  seq : ℕ
  src : Sockaddr
  dst : Sockaddr
  saSrc : Option Sockaddr
  saDst : Option Sockaddr
  natoaSrc : Option Sockaddr
  natoaDst : Option Sockaddr
  localAddr : Sockaddr
  remote : Sockaddr
  encapsType : Encap
  espFrag : ℕ
  approval : Option Approval
deriving DecidableEq

def extractPort : Sockaddr → ℕ
  | .inet _ port => port
  | .inet6 _ _ port => port
  | .unspec => 0
  | .other => 0

def ipsecdoi2pfkeyAalg (hashtype : ℤ) : Option AType :=
  if hashtype = IPSECDOI_ATTR_AUTH_HMAC_MD5 then some .MD5HMAC else
  if hashtype = IPSECDOI_ATTR_AUTH_HMAC_SHA1 then some .SHA1HMAC else
  if hashtype = IPSECDOI_ATTR_AUTH_HMAC_SHA2_256 then some .SHA2_256HMAC else
  if hashtype = IPSECDOI_ATTR_AUTH_HMAC_SHA2_384 then some .SHA2_384HMAC else
  if hashtype = IPSECDOI_ATTR_AUTH_HMAC_SHA2_512 then some .SHA2_512HMAC else
  if hashtype = IPSECDOI_ATTR_AUTH_DES_MAC then none else
  some .NONE

def ipsecdoi2pfkeyEalg (tId : ℤ) : Option EType :=
  if tId = IPSECDOI_ESP_DES_IV64 then some .DESCBC else
  if tId = IPSECDOI_ESP_DES then some .DESCBC else
  if tId = IPSECDOI_ESP_3DES then some .TRIPLEDESCBC else
  if tId = IPSECDOI_ESP_CAST then some .CAST128CBC else
  if tId = IPSECDOI_ESP_BLOWFISH then some .BLOWFISHCBC else
  if tId = IPSECDOI_ESP_DES_IV32 then some .DESCBC else
  if tId = IPSECDOI_ESP_NULL then some .NULL else
  if tId = IPSECDOI_ESP_AES then some .AESCBC else
  if tId = IPSECDOI_ESP_TWOFISH then some .TWOFISHCBC else
  if tId = IPSECDOI_ESP_CAMELLIA then some .CAMELLIACBC else
  none

def ipsecdoi2pfkeyCalg (tId : ℤ) : Option EType :=
  if tId = IPSECDOI_IPCOMP_OUI then some .CALG_OUI else
  if tId = IPSECDOI_IPCOMP_DEFLATE then some .CALG_DEFLATE else
  if tId = IPSECDOI_IPCOMP_LZS then some .CALG_LZS else
  none

def ipsecdoi2pfkeyProto (proto : ℤ) : Option Satype :=
  if proto = IPSECDOI_PROTO_IPSEC_AH then some .AH else
  if proto = IPSECDOI_PROTO_IPSEC_ESP then some .ESP else
  if proto = IPSECDOI_PROTO_IPCOMP then some .IPCOMP else
  none

def ipsecdoi2pfkeyMode (mode : ℤ) : Option Mode :=
  if mode = IPSECDOI_ATTR_ENC_MODE_TUNNEL ∨ mode = IPSECDOI_ATTR_ENC_MODE_UDPTUNNEL_RFC ∨
      mode = IPSECDOI_ATTR_ENC_MODE_UDPTUNNEL_DRAFT then some .TUNNEL else
  if mode = IPSECDOI_ATTR_ENC_MODE_TRNS ∨ mode = IPSECDOI_ATTR_ENC_MODE_UDPTRNS_RFC ∨
      mode = IPSECDOI_ATTR_ENC_MODE_UDPTRNS_DRAFT then some .TRANSPORT else
  none

/-- A cipher with one key length. -/
def evpKeylen (keyLength : ℕ) (len : ℤ) : Option ℕ :=
  if len ≠ 0 ∧ len ≠ keyLength then none else some keyLength

/-- A cipher with key lengths between two bounds. -/
def rangeKeylen (dflt least most : ℕ) (len : ℤ) : Option ℕ :=
  if len = 0 then some dflt else
  if len < least ∨ most < len then none else some len.toNat

def eayDesKeylen : ℤ → Option ℕ := evpKeylen 64
def eay3desKeylen : ℤ → Option ℕ := evpKeylen 192
def eayCastKeylen : ℤ → Option ℕ := rangeKeylen 128 40 128
def eayBfKeylen : ℤ → Option ℕ := rangeKeylen 448 40 448
def eayTwofishKeylen : ℤ → Option ℕ := rangeKeylen 0 0 256
def eayNullKeylen (_len : ℤ) : Option ℕ := some 0

/-- `eay_aes_keylen`, which `eay_camellia_keylen` repeats. -/
def eayAesKeylen (len : ℤ) : Option ℕ :=
  if len = 0 then some 128 else
  if len ≠ 128 ∧ len ≠ 192 ∧ len ≠ 256 then none else some len.toNat

/-- `alg_ipsec_encdef_keylen`: ciphers of `ipsec_encdef` without a length
    function are as if they were not there. -/
def keylenEalg (enctype : ℤ) (encklen : ℤ) : Option ℕ :=
  if enctype = IPSECDOI_ESP_DES_IV64 ∨ enctype = IPSECDOI_ESP_DES ∨
      enctype = IPSECDOI_ESP_DES_IV32 then eayDesKeylen encklen else
  if enctype = IPSECDOI_ESP_3DES then eay3desKeylen encklen else
  if enctype = IPSECDOI_ESP_CAST then eayCastKeylen encklen else
  if enctype = IPSECDOI_ESP_BLOWFISH then eayBfKeylen encklen else
  if enctype = IPSECDOI_ESP_NULL then eayNullKeylen encklen else
  if enctype = IPSECDOI_ESP_AES ∨ enctype = IPSECDOI_ESP_CAMELLIA then eayAesKeylen encklen else
  if enctype = IPSECDOI_ESP_TWOFISH then eayTwofishKeylen encklen else
  none

def keylenAalg (hashtype : ℤ) : Option ℕ :=
  if hashtype = 0 then some 0 else
  if hashtype = IPSECDOI_ATTR_AUTH_HMAC_MD5 then some 128 else
  if hashtype = IPSECDOI_ATTR_AUTH_HMAC_SHA1 then some 160 else
  if hashtype = IPSECDOI_ATTR_AUTH_KPDK ∨ hashtype = IPSECDOI_ATTR_AUTH_NONE then some 0 else
  if hashtype = IPSECDOI_ATTR_AUTH_HMAC_SHA2_256 then some 256 else
  if hashtype = IPSECDOI_ATTR_AUTH_HMAC_SHA2_384 then some 384 else
  if hashtype = IPSECDOI_ATTR_AUTH_HMAC_SHA2_512 then some 512 else
  none

def pfkeyConvertfromipsecdoi (protoId tId hashtype encklen : ℤ) : Option Alg :=
  if protoId = IPSECDOI_PROTO_IPSEC_ESP then do
    let eType ← ipsecdoi2pfkeyEalg tId
    let eKeylen ← keylenEalg tId encklen
    let aType ← ipsecdoi2pfkeyAalg hashtype
    let aKeylen ← keylenAalg hashtype
    if eType = .NONE then none else
    pure
      { eType
        eKeylen := eKeylen >>> 3
        aType
        aKeylen := aKeylen >>> 3
        flags := 0 }
  else if protoId = IPSECDOI_PROTO_IPSEC_AH then do
    let aType ← ipsecdoi2pfkeyAalg hashtype
    let aKeylen ← keylenAalg hashtype
    -- AH_MD5 with KPDK is the keyed MD5 of RFC 1826
    let keyed := tId = IPSECDOI_ATTR_AUTH_HMAC_MD5 ∧ hashtype = IPSECDOI_ATTR_AUTH_KPDK
    let aType := if keyed then .X_MD5 else aType
    if aType = .NONE then none else
    pure
      { eType := .NONE
        eKeylen := 0
        aType
        aKeylen := aKeylen >>> 3
        flags := if keyed then SADB_X_EXT_OLD else 0 }
  else if protoId = IPSECDOI_PROTO_IPCOMP then do
    let eType ← ipsecdoi2pfkeyCalg tId
    pure
      { eType
        eKeylen := 0
        aType := .NONE
        aKeylen := 0
        flags := SADB_X_EXT_RAWCPI }
  else none

def Keyed.trnsHead (pr : Keyed) : Satrns := pr.head.head pr.trns

/-- What a protocol is converted to before it reaches the kernel. -/
def converted (pr : Keyed) : Option (Satype × Mode × Alg) := do
  let satype ← ipsecdoi2pfkeyProto pr.protoId
  let mode ← ipsecdoi2pfkeyMode pr.encmode
  let tr := pr.trnsHead
  let alg ← pfkeyConvertfromipsecdoi pr.protoId tr.trnsId tr.authtype tr.encklen
  pure (satype, mode, alg)

/-- What tells the two directions apart. -/
structure Direction where
  src : Sockaddr
  dst : Sockaddr
  natt : Natt
  spi : Keyed → List UInt8
  reqid : Keyed → ℤ
  keymat : Keyed → List UInt8

/-- The addresses of the associations: with MIPv6 not those of IKE. -/
def Ph2handle.saAddrs (h : Ph2handle) : Sockaddr × Sockaddr :=
  match h.saSrc, h.saDst with
  | some src, some dst => (src, dst)
  | _, _ => (h.src, h.dst)

def Ph2handle.inbound (h : Ph2handle) : Direction where
  dst := h.saAddrs.1
  src := h.saAddrs.2
  natt :=
    { type := h.encapsType
      sport := extractPort h.remote
      dport := extractPort h.localAddr
      oa := h.natoaSrc
      frag := h.espFrag }
  spi pr := pr.spi
  reqid pr := pr.reqidIn
  keymat pr := pr.keymat

def Ph2handle.outbound (h : Ph2handle) : Direction where
  src := h.saAddrs.1
  dst := h.saAddrs.2
  natt :=
    { type := .ESPINUDP
      sport := extractPort h.localAddr
      dport := extractPort h.remote
      oa := h.natoaDst
      frag := h.espFrag }
  spi pr := pr.spiP
  reqid pr := pr.reqidOut
  keymat pr := pr.keymatP

/-- The record before the loop. -/
def firstArgs (h : Ph2handle) (a : Approval) (dir : Direction) : SaArgs where
  lAddtime := if h.lifetimeSecs ≠ 0 then h.lifetimeSecs else a.lifetime
  seq := h.seq
  src := dir.src
  dst := dir.dst
  wsize := 4
  satype := .other 0
  mode := .TRANSPORT
  alg :=
    { eType := .NONE
      eKeylen := 0
      aType := .NONE
      aKeylen := 0
      flags := 0 }
  lBytes := 0
  ctx := none
  natt := none
  spi := []
  reqid := 0
  keymat := []

/-- The part of a round in front of the call. -/
def fillArgs (a : Approval) (dir : Direction) (args : SaArgs) (pr : Keyed) : Option SaArgs :=
  (converted pr).map fun c =>
    { args with
      satype := c.1
      wsize := if c.1 = .IPCOMP then 0 else args.wsize
      mode := c.2.1
      alg := c.2.2
      lBytes := 0
      ctx := a.sctx
      natt := if pr.udpEncap then some dir.natt else args.natt
      spi := dir.spi pr
      reqid := dir.reqid pr
      keymat := dir.keymat pr }

/-- The loop: the records handed to the kernel, and whether every call went
    well. `answers` says which calls do, and `back` what is changed afterwards. -/
def sendLoop (a : Approval) (dir : Direction) (back : SaArgs → SaArgs) (answers : ℕ → Bool) :
    ℕ → SaArgs → List Keyed → List SaArgs × Bool
  | _, _, [] => ([], true)
  | k, args, pr :: rest =>
    match fillArgs a dir args pr with
    | none => ([], false)
    | some args =>
      if answers k then
        let r := sendLoop a dir back answers (k + 1) (back args) rest
        (args :: r.1, r.2)
      else ([args], false)

/-- The record after an update, with a file for backups or without. -/
def backedUp (backupsa : Bool) (a : Approval) (args : SaArgs) : SaArgs :=
  if backupsa then
    { args with
      wsize := 4
      lBytes := a.lifebyte * 1024 }
  else args

def pkSendupdate (backupsa : Bool) (answers : ℕ → Bool) (h : Ph2handle) : List SaArgs × Bool :=
  match h.approval with
  | none => ([], false)
  | some a =>
    sendLoop a h.inbound (backedUp backupsa a) answers 0 (firstArgs h a h.inbound) a.head

/-- `pk_sendadd`, which writes the backup and changes nothing for it. -/
def pkSendadd (answers : ℕ → Bool) (h : Ph2handle) : List SaArgs × Bool :=
  match h.approval with
  | none => ([], false)
  | some a => sendLoop a h.outbound id answers 0 (firstArgs h a h.outbound) a.head

end WanStack.Racoon.Pfkey
