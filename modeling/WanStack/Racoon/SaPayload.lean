import WanStack.Aftr.Bytes
import WanStack.Racoon.Proposal

set_option autoImplicit false

/-!
# The SA payload

The walkers of `isakmp.c` and `ipsec_doi.c` over proposals, transforms and data
attributes. A pointer is the memory from where it points to; past the payload it
goes on with whatever follows there, so that reads beyond the end are modelled.
-/
namespace WanStack.Racoon.Proposal
open Aftr (Buf byteAt shortAt)

def ISAKMP_NPTYPE_NONE : ℕ := 0
def ISAKMP_NPTYPE_P : ℕ := 2
def ISAKMP_NPTYPE_T : ℕ := 3

/-- The sizes of `struct isakmp_gen`, `isakmp_pl_p`, `isakmp_pl_t`,
    `isakmp_data` and `ipsecdoi_sa_b`. -/
def GEN_LEN : ℕ := 4
def PL_P_LEN : ℕ := 8
def PL_T_LEN : ℕ := 8
def DATA_LEN : ℕ := 4
def SA_B_LEN : ℕ := 8

def IPSEC_DOI : ℕ := 1
def IPSECDOI_SIT_IDENTITY_ONLY : ℕ := 1
def MAXPROPPAIRLEN : ℕ := 256

def IPSECDOI_PROTO_ISAKMP : ℤ := 1
def IPSECDOI_KEY_IKE : ℕ := 1

def IPSECDOI_AH_MD5 : ℕ := 2
def IPSECDOI_AH_SHA : ℕ := 3
def IPSECDOI_AH_SHA256 : ℕ := 5
def IPSECDOI_AH_SHA384 : ℕ := 6
def IPSECDOI_AH_SHA512 : ℕ := 7

def IPSECDOI_ESP_DES : ℕ := 2
def IPSECDOI_ESP_3DES : ℕ := 3
def IPSECDOI_ESP_RC5 : ℕ := 4
def IPSECDOI_ESP_CAST : ℕ := 6
def IPSECDOI_ESP_BLOWFISH : ℕ := 7
def IPSECDOI_ESP_NULL : ℕ := 11
def IPSECDOI_ESP_AES : ℕ := 12
def IPSECDOI_ESP_CAMELLIA : ℕ := 22
def IPSECDOI_ESP_TWOFISH : ℕ := 253

def IPSECDOI_IPCOMP_OUI : ℕ := 1
def IPSECDOI_IPCOMP_DEFLATE : ℕ := 2
def IPSECDOI_IPCOMP_LZS : ℕ := 3

def IPSECDOI_ATTR_SA_LD_TYPE : ℕ := 1
def IPSECDOI_ATTR_SA_LD_TYPE_DEFAULT : ℕ := 1
def IPSECDOI_ATTR_SA_LD_TYPE_KB : ℕ := 2
def IPSECDOI_ATTR_SA_LD : ℕ := 2
def IPSECDOI_ATTR_SA_LD_SEC_DEFAULT : ℤ := 28800
def IPSECDOI_ATTR_GRP_DESC : ℕ := 3
def IPSECDOI_ATTR_ENC_MODE : ℕ := 4
def IPSECDOI_ATTR_AUTH : ℕ := 5
def IPSECDOI_ATTR_KEY_LENGTH : ℕ := 6

def IPSECDOI_ATTR_AUTH_HMAC_MD5 : ℕ := 1
def IPSECDOI_ATTR_AUTH_HMAC_SHA1 : ℕ := 2
def IPSECDOI_ATTR_AUTH_HMAC_SHA2_256 : ℕ := 5
def IPSECDOI_ATTR_AUTH_HMAC_SHA2_384 : ℕ := 6
def IPSECDOI_ATTR_AUTH_HMAC_SHA2_512 : ℕ := 7
def IPSECDOI_ATTR_AUTH_NONE : ℤ := 254

def OAKLEY_ATTR_ENC_ALG : ℕ := 1
def OAKLEY_ATTR_HASH_ALG : ℕ := 2
def OAKLEY_ATTR_AUTH_METHOD : ℕ := 3
def OAKLEY_ATTR_AUTH_METHOD_PSKEY : ℕ := 1
def OAKLEY_ATTR_AUTH_METHOD_RSASIG : ℕ := 3
def OAKLEY_ATTR_AUTH_METHOD_HYBRID_RSA_I : ℕ := 64221
def OAKLEY_ATTR_AUTH_METHOD_XAUTH_PSKEY_I : ℕ := 65001
def OAKLEY_ATTR_AUTH_METHOD_XAUTH_RSASIG_I : ℕ := 65005
def OAKLEY_ATTR_GRP_DESC : ℕ := 4
def OAKLEY_ATTR_GRP_TYPE : ℕ := 5
def OAKLEY_ATTR_GRP_TYPE_MODP : ℕ := 1
def OAKLEY_ATTR_GRP_PI : ℕ := 6
def OAKLEY_ATTR_GRP_GEN_ONE : ℕ := 7
def OAKLEY_ATTR_SA_LD_TYPE : ℕ := 11
def OAKLEY_ATTR_SA_LD_TYPE_SEC : ℕ := 1
def OAKLEY_ATTR_SA_LD_TYPE_KB : ℕ := 2
def OAKLEY_ATTR_SA_LD : ℕ := 12
def OAKLEY_ATTR_PRF : ℕ := 13
def OAKLEY_ATTR_KEY_LEN : ℕ := 14
def OAKLEY_ATTR_GRP_ORDER : ℕ := 16
def OAKLEY_ATTR_GSS_ID : ℕ := 16384

/-! ### Reading memory -/

def longAt (b : Buf) (i : ℕ) : ℕ := shortAt b i * 65536 + shortAt b (i + 2)

/-- `n` bytes copied from a pointer. -/
def memcpy (b : Buf) (n : ℕ) : Buf := (List.range n).map (byteAt b)

/-- One `isakmp_parse_t`. -/
structure IsakmpParse where
  type : ℕ
  ptr : Buf
  len : ℕ
deriving DecidableEq

/-- The loop of `isakmp_parsewoh`, with a bound on its rounds. -/
def parseLoop : ℕ → ℕ → Buf → ℤ → Option (List IsakmpParse)
  | 0, _, _, _ => some []
  | k + 1, np, gen, tlen =>
    if ¬0 < tlen ∨ np = ISAKMP_NPTYPE_NONE then some [] else
    if tlen ≤ GEN_LEN then none else
    let plen := shortAt gen 2
    if plen < GEN_LEN ∨ tlen < plen then none else
    (parseLoop k (byteAt gen 0).toNat (gen.drop plen) (tlen - plen)).map
      ({ type := np, ptr := gen, len := plen } :: ·)

/-- Every round takes four bytes at least. -/
def isakmpParsewoh (np0 : ℕ) (gen : Buf) (len : ℤ) : Option (List IsakmpParse) :=
  parseLoop len.toNat np0 gen len

/-- A data attribute; a TLV one with its value. -/
structure Attr where
  type : ℕ
  tv : Bool
  lorv : ℕ
  value : Buf
deriving DecidableEq

/-- The walk over data attributes that every reader of them makes. -/
def attrLoop : ℕ → Buf → ℤ → List Attr
  | 0, _, _ => []
  | k + 1, d, tlen =>
    if ¬0 < tlen then [] else
    let type := shortAt d 0 % 32768
    let lorv := shortAt d 2
    if 32768 ≤ shortAt d 0 then
      { type := type, tv := true, lorv := lorv, value := [] } ::
        attrLoop k (d.drop DATA_LEN) (tlen - DATA_LEN)
    else
      { type := type, tv := false, lorv := lorv, value := memcpy (d.drop DATA_LEN) lorv } ::
        attrLoop k (d.drop (DATA_LEN + lorv)) (tlen - (DATA_LEN + lorv : ℕ))

/-- The attributes of a transform. -/
def attributes (trns : Buf) : List Attr :=
  let tlen : ℤ := shortAt trns 2 - PL_T_LEN
  attrLoop tlen.toNat (trns.drop PL_T_LEN) tlen

/-! ### Checks -/

def algOakleyDhdefOk (doi : ℕ) : Bool := doi ∈ [1, 2, 5, 14, 15, 16, 17, 18]

inductive Mode where
  | PH1
  | PH2
deriving DecidableEq, Repr

def checkProtocol (mode : Mode) (protoId : ℤ) : Bool :=
  match mode with
  | .PH1 => protoId = IPSECDOI_PROTO_ISAKMP
  | .PH2 =>
    protoId = IPSECDOI_PROTO_IPSEC_AH || protoId = IPSECDOI_PROTO_IPSEC_ESP ||
      protoId = IPSECDOI_PROTO_IPCOMP

def checkSpiSize (protoId : ℤ) (size : ℕ) : Bool :=
  if protoId = IPSECDOI_PROTO_ISAKMP then true
  else if protoId = IPSECDOI_PROTO_IPSEC_AH ∨ protoId = IPSECDOI_PROTO_IPSEC_ESP then size = 4
  else if protoId = IPSECDOI_PROTO_IPCOMP then size = 2 || size = 4
  else false

def checkTrnsIsakmp (tId : ℕ) : Bool := tId = IPSECDOI_KEY_IKE

def checkTrnsAh (tId : ℕ) : Bool :=
  tId ∈ [IPSECDOI_AH_MD5, IPSECDOI_AH_SHA, IPSECDOI_AH_SHA256, IPSECDOI_AH_SHA384,
    IPSECDOI_AH_SHA512]

def checkTrnsEsp (tId : ℕ) : Bool :=
  tId ∈ [IPSECDOI_ESP_DES, IPSECDOI_ESP_3DES, IPSECDOI_ESP_NULL, IPSECDOI_ESP_RC5,
    IPSECDOI_ESP_CAST, IPSECDOI_ESP_BLOWFISH, IPSECDOI_ESP_AES, IPSECDOI_ESP_TWOFISH,
    IPSECDOI_ESP_CAMELLIA]

def checkTrnsIpcomp (tId : ℕ) : Bool :=
  tId ∈ [IPSECDOI_IPCOMP_OUI, IPSECDOI_IPCOMP_DEFLATE, IPSECDOI_IPCOMP_LZS]

def encModeOk (a : Attr) : Bool :=
  a.tv && ((a.lorv : ℤ) = IPSECDOI_ATTR_ENC_MODE_TUNNEL ||
    (a.lorv : ℤ) = IPSECDOI_ATTR_ENC_MODE_TRNS || nattUdpEncap a.lorv)

def ldTypeOk (a : Attr) : Bool :=
  a.tv && (a.lorv = IPSECDOI_ATTR_SA_LD_TYPE_SEC || a.lorv = IPSECDOI_ATTR_SA_LD_TYPE_KB)

def ldOk (a : Attr) : Bool := a.tv || a.lorv ≠ 0

def grpDescOk (a : Attr) : Bool := a.tv && algOakleyDhdefOk a.lorv

/-- The transform of AH that goes with an authentication algorithm. -/
def ahOfAuth (lorv : ℕ) : Option ℕ :=
  if lorv = IPSECDOI_ATTR_AUTH_HMAC_MD5 then some IPSECDOI_AH_MD5
  else if lorv = IPSECDOI_ATTR_AUTH_HMAC_SHA1 then some IPSECDOI_AH_SHA
  else if lorv = IPSECDOI_ATTR_AUTH_HMAC_SHA2_256 then some IPSECDOI_AH_SHA256
  else if lorv = IPSECDOI_ATTR_AUTH_HMAC_SHA2_384 then some IPSECDOI_AH_SHA384
  else if lorv = IPSECDOI_ATTR_AUTH_HMAC_SHA2_512 then some IPSECDOI_AH_SHA512
  else none

def authOk (protoId : ℤ) (tId : ℕ) (a : Attr) : Bool :=
  a.tv && match ahOfAuth a.lorv with
    | some ah => protoId ≠ IPSECDOI_PROTO_IPSEC_AH || tId = ah
    | none => false

/-- One round of the loop of `check_attr_ipsec`. -/
def ipsecAttrOk (protoId : ℤ) (tId : ℕ) (a : Attr) : Bool :=
  if a.type = IPSECDOI_ATTR_ENC_MODE then encModeOk a
  else if a.type = IPSECDOI_ATTR_AUTH then authOk protoId tId a
  else if a.type = IPSECDOI_ATTR_SA_LD_TYPE then ldTypeOk a
  else if a.type = IPSECDOI_ATTR_SA_LD then ldOk a
  else if a.type = IPSECDOI_ATTR_GRP_DESC then grpDescOk a
  else if a.type = IPSECDOI_ATTR_KEY_LENGTH then a.tv
  else false

def checkAttrIpsec (protoId : ℤ) (trns : Buf) : Bool :=
  let tId := (byteAt trns 5).toNat
  let authSeen := (attributes trns).any fun a => a.type = IPSECDOI_ATTR_AUTH
  if !(attributes trns).all (ipsecAttrOk protoId tId) then false
  else if protoId = IPSECDOI_PROTO_IPSEC_AH ∧ !authSeen then false
  else if protoId = IPSECDOI_PROTO_IPSEC_ESP ∧ tId = IPSECDOI_ESP_NULL ∧ !authSeen then false
  else true

def checkAttrAh (trns : Buf) : Bool := checkAttrIpsec IPSECDOI_PROTO_IPSEC_AH trns
def checkAttrEsp (trns : Buf) : Bool := checkAttrIpsec IPSECDOI_PROTO_IPSEC_ESP trns

/-- One round of the loop of `check_attr_ipcomp`. -/
def ipcompAttrOk (a : Attr) : Bool :=
  if a.type = IPSECDOI_ATTR_ENC_MODE then encModeOk a
  else if a.type = IPSECDOI_ATTR_SA_LD_TYPE then ldTypeOk a
  else if a.type = IPSECDOI_ATTR_SA_LD then ldOk a
  else if a.type = IPSECDOI_ATTR_GRP_DESC then grpDescOk a
  else false

def checkAttrIpcomp (trns : Buf) : Bool := (attributes trns).all ipcompAttrOk

/-- The ciphers and hashes of `algorithm.c`, with all of OpenSSL's built in. -/
def algOakleyEncdefOk (doi : ℕ) : Bool := doi ∈ [1, 2, 3, 4, 5, 6, 7, 8]
def algOakleyHashdefOk (doi : ℕ) : Bool := doi ∈ [1, 2, 4, 5, 6]

/-- One round of the loop of `check_attr_isakmp`, with hybrid authentication. -/
def isakmpAttrOk (a : Attr) : Bool :=
  let mustTv := a.type ∈ [OAKLEY_ATTR_ENC_ALG, OAKLEY_ATTR_HASH_ALG, OAKLEY_ATTR_AUTH_METHOD,
    OAKLEY_ATTR_GRP_DESC, OAKLEY_ATTR_GRP_TYPE, OAKLEY_ATTR_SA_LD_TYPE, OAKLEY_ATTR_PRF,
    OAKLEY_ATTR_KEY_LEN]
  if mustTv ∧ !a.tv then false
  else if !a.tv ∧ a.lorv = 0 then false
  else if a.type = OAKLEY_ATTR_ENC_ALG then algOakleyEncdefOk a.lorv
  else if a.type = OAKLEY_ATTR_HASH_ALG then algOakleyHashdefOk a.lorv
  else if a.type = OAKLEY_ATTR_AUTH_METHOD then
    a.lorv ∈ [OAKLEY_ATTR_AUTH_METHOD_PSKEY, OAKLEY_ATTR_AUTH_METHOD_RSASIG,
      OAKLEY_ATTR_AUTH_METHOD_HYBRID_RSA_I, OAKLEY_ATTR_AUTH_METHOD_XAUTH_RSASIG_I,
      OAKLEY_ATTR_AUTH_METHOD_XAUTH_PSKEY_I]
  else if a.type = OAKLEY_ATTR_GRP_DESC then algOakleyDhdefOk a.lorv
  else if a.type = OAKLEY_ATTR_GRP_TYPE then a.lorv = OAKLEY_ATTR_GRP_TYPE_MODP
  else if a.type = OAKLEY_ATTR_SA_LD_TYPE then
    a.lorv = OAKLEY_ATTR_SA_LD_TYPE_SEC || a.lorv = OAKLEY_ATTR_SA_LD_TYPE_KB
  else a.type ∈ [OAKLEY_ATTR_GRP_PI, OAKLEY_ATTR_GRP_GEN_ONE, OAKLEY_ATTR_SA_LD, OAKLEY_ATTR_PRF,
    OAKLEY_ATTR_KEY_LEN, OAKLEY_ATTR_GRP_ORDER, OAKLEY_ATTR_GSS_ID]

def checkAttrIsakmp (trns : Buf) : Bool := (attributes trns).all isakmpAttrOk

/-- The tables `check_transform` and `check_attributes` by protocol. -/
def checkTransform (protoId : ℤ) (trns : Buf) : Bool :=
  let tId := (byteAt trns 5).toNat
  if protoId = IPSECDOI_PROTO_ISAKMP then checkTrnsIsakmp tId && checkAttrIsakmp trns
  else if protoId = IPSECDOI_PROTO_IPSEC_AH then checkTrnsAh tId && checkAttrAh trns
  else if protoId = IPSECDOI_PROTO_IPSEC_ESP then checkTrnsEsp tId && checkAttrEsp trns
  else if protoId = IPSECDOI_PROTO_IPCOMP then checkTrnsIpcomp tId && checkAttrIpcomp trns
  else false

/-! ### Proposals and transforms -/

/-- A proposal payload with its transforms: the `prop_pair`s linked by `tnext`,
    which share the pointer to the proposal. -/
structure PropPair where
  prop : Buf
  trns : List Buf
deriving DecidableEq

def pNo (prop : Buf) : ℕ := (byteAt prop 4).toNat
def protoId (prop : Buf) : ℤ := (byteAt prop 5).toNat
def spiSize (prop : Buf) : ℕ := (byteAt prop 6).toNat
def tNo (trns : Buf) : ℕ := (byteAt trns 4).toNat
def tId (trns : Buf) : ℕ := (byteAt trns 5).toNat

/-- The transforms `get_transform` links, or nothing where it returns -1. -/
def getTransform (prop : Buf) : Option (List Buf) :=
  let tlen : ℤ := shortAt prop 2 - (PL_P_LEN + spiSize prop : ℕ)
  (isakmpParsewoh ISAKMP_NPTYPE_T (prop.drop (PL_P_LEN + spiSize prop)) tlen).map fun pbuf =>
    ((pbuf.takeWhile fun pa => pa.type = ISAKMP_NPTYPE_T).filter fun pa =>
      checkTransform (protoId prop) pa.ptr).map IsakmpParse.ptr

/-- `pair[]`: the proposal payloads of each number, linked by `next`. -/
abbrev Pairs : Type := ℕ → List PropPair

/-- The loop over the proposal payloads; those without transforms leave no pair. -/
def pairLoop (mode : Mode) : List IsakmpParse → Pairs → Option Pairs
  | [], pair => some pair
  | pa :: pbuf, pair =>
    if pa.type ≠ ISAKMP_NPTYPE_P then none else
    let prop := pa.ptr
    if !checkProtocol mode (protoId prop) || !checkSpiSize (protoId prop) (spiSize prop) then
      pairLoop mode pbuf pair
    else
      match getTransform prop with
      | none => none
      | some [] => pairLoop mode pbuf pair
      | some trns =>
        pairLoop mode pbuf
          (Function.update pair (pNo prop) (pair (pNo prop) ++ [{ prop := prop, trns := trns }]))

/-- `get_proppair_and_doi_sit` on the `l` bytes at `sa`, with the DOI and the
    situation it reads. -/
def getProppairAndDoiSit (sa : Buf) (l : ℕ) (mode : Mode) : Option (Pairs × ℕ × ℕ) :=
  if l < SA_B_LEN then none else
  let doi := longAt sa 0
  if doi ≠ IPSEC_DOI then none else
  let sit := longAt sa 4
  if sit ≠ IPSECDOI_SIT_IDENTITY_ONLY then none else
  match isakmpParsewoh ISAKMP_NPTYPE_P (sa.drop SA_B_LEN) (l - SA_B_LEN : ℕ) with
  | none => none
  | some pbuf =>
    match pairLoop mode pbuf fun _ => [] with
    | none => none
    | some pair =>
      -- num_p counts the numbers that have a pair
      if (List.range MAXPROPPAIRLEN).all fun i => (pair i).isEmpty then none
      else some (pair, doi, sit)

def getProppair (sa : Buf) (l : ℕ) (mode : Mode) : Option Pairs :=
  (getProppairAndDoiSit sa l mode).map Prod.fst

/-! ### Decoding a transform -/

/-- `ipsecdoi_set_ld` for the value of a life duration; 0 is an error. -/
def ipsecdoiSetLd (a : Attr) : ℕ :=
  if a.tv then a.lorv
  else if a.value.length = 2 then shortAt a.value 0
  else if a.value.length = 4 then longAt a.value 0
  else 0

/-- What the loop of `ipsecdoi_t2satrns` carries along. -/
structure T2 where
  lifeT : ℕ
  prev : Option ℕ
  pp : Saprop
  pr : Saproto
  tr : Satrns

/-- A 32 bit number stored in an `int`. -/
def toInt (n : ℕ) : ℤ := (n : ℤ).bmod (2 ^ 32)

/-- One round, for one attribute; nothing where the function fails. -/
def t2satrnsStep (s : T2) (a : Attr) : Option T2 :=
  let next (s : T2) : Option T2 := some { s with prev := some a.type }
  if a.type = IPSECDOI_ATTR_SA_LD_TYPE then
    next { s with lifeT :=
      if a.lorv = IPSECDOI_ATTR_SA_LD_TYPE_SEC ∨ a.lorv = IPSECDOI_ATTR_SA_LD_TYPE_KB then a.lorv
      else IPSECDOI_ATTR_SA_LD_TYPE_DEFAULT }
  else if a.type = IPSECDOI_ATTR_SA_LD then
    if s.prev ≠ some IPSECDOI_ATTR_SA_LD_TYPE then next s else
    let t := ipsecdoiSetLd a
    if t = 0 then none
    else if s.lifeT = IPSECDOI_ATTR_SA_LD_TYPE_SEC then
      if s.pp.lifetime = IPSECDOI_ATTR_SA_LD_SEC_DEFAULT then
        next { s with pp := { s.pp with lifetime := t } }
      else if s.pp.lifetime ≠ t then none
      else next s
    else
      if s.pp.lifebyte = 0 then next { s with pp := { s.pp with lifebyte := toInt t } }
      else if s.pp.lifebyte ≠ toInt t then none
      else next s
  else if a.type = IPSECDOI_ATTR_GRP_DESC then
    if s.pp.pfsGroup = 0 then next { s with pp := { s.pp with pfsGroup := a.lorv } }
    else if s.pp.pfsGroup ≠ a.lorv then none
    else next s
  else if a.type = IPSECDOI_ATTR_ENC_MODE then
    if s.pr.encmode ≠ 0 ∧ s.pr.encmode ≠ a.lorv then none
    else next { s with pr := { s.pr with encmode := a.lorv } }
  else if a.type = IPSECDOI_ATTR_AUTH then
    if s.tr.authtype ≠ IPSECDOI_ATTR_AUTH_NONE then none
    else next { s with tr := { s.tr with authtype := a.lorv } }
  else if a.type = IPSECDOI_ATTR_KEY_LENGTH then
    if s.pr.protoId ≠ IPSECDOI_PROTO_IPSEC_ESP then none
    else next { s with tr := { s.tr with encklen := a.lorv } }
  else next s

def ipsecdoiT2satrns (t : Buf) (pp : Saprop) (pr : Saproto) : Option (Saprop × Saproto × Satrns) :=
  let start : T2 :=
    { lifeT := IPSECDOI_ATTR_SA_LD_TYPE_DEFAULT
      prev := none
      pp := { pp with lifetime := IPSECDOI_ATTR_SA_LD_SEC_DEFAULT, lifebyte := 0 }
      pr := pr
      tr :=
        { trnsNo := tNo t
          trnsId := tId t
          encklen := 0
          authtype := IPSECDOI_ATTR_AUTH_NONE } }
  ((attributes t).foldlM t2satrnsStep start).map fun s => (s.pp, s.pr, s.tr)

/-- The loop over the transforms of one proposal payload. -/
def trnsLoop : List Buf → Saprop → Saproto → Option (Saprop × Saproto)
  | [], pp, pr => some (pp, pr)
  | t :: ts, pp, pr =>
    match ipsecdoiT2satrns t pp pr with
    | none => none
    | some (pp, pr, tr) => trnsLoop ts pp { pr with head := pr.head ++ [tr] }

/-- The loop over the proposal payloads of one number. -/
def protoLoop : List PropPair → Saprop → Option Saprop
  | [], pp => some pp
  | p :: ps, pp =>
    if 4 < spiSize p.prop then none else
    let newpr : Saproto :=
      { protoId := protoId p.prop
        spisize := spiSize p.prop
        encmode := 0
        udpEncap := false
        spi := List.replicate (4 - spiSize p.prop) 0 ++
          memcpy (p.prop.drop PL_P_LEN) (spiSize p.prop)
        spiP := List.replicate 4 0
        reqidOut := 0
        reqidIn := 0
        head := [] }
    match trnsLoop p.trns pp newpr with
    | none => none
    | some (pp, pr) =>
      let pr := if pr.encmode = 0 then { pr with encmode := IPSECDOI_ATTR_ENC_MODE_TRNS } else pr
      protoLoop ps { pp with head := pp.head ++ [pr] }

def aproppair2saprop (p0 : List PropPair) : Option Saprop :=
  match p0 with
  | [] => none
  | p :: _ =>
    protoLoop p0
      { propNo := pNo p.prop
        lifetime := 0
        lifebyte := 0
        pfsGroup := 0
        claim := 0
        head := [] }

end WanStack.Racoon.Proposal
