import WanStack.Racoon.RecvdPkt
import WanStack.Racoon.SaPayload

set_option autoImplicit false

/-!
# Remote sections

The `remote` sections of the configuration and their proposals, from
`remoteconf.c`: how a section is matched against a selector and against the
approved proposal of a phase 1. A section is named by its place in `rmtree`.
-/
namespace WanStack.Racoon.Phase1
open Aftr (Buf byteAt shortAt)
open Proposal (PropCheck longAt memcpy algOakleyDhdefOk)

def OAKLEY_ATTR_AUTH_METHOD_HYBRID_RSA_I : ℕ := 64221
def OAKLEY_ATTR_AUTH_METHOD_HYBRID_RSA_R : ℕ := 64222
def OAKLEY_ATTR_AUTH_METHOD_HYBRID_DSS_I : ℕ := 64223
def OAKLEY_ATTR_AUTH_METHOD_HYBRID_DSS_R : ℕ := 64224
def OAKLEY_ATTR_AUTH_METHOD_XAUTH_PSKEY_I : ℕ := 65001
def OAKLEY_ATTR_AUTH_METHOD_XAUTH_PSKEY_R : ℕ := 65002
def OAKLEY_ATTR_AUTH_METHOD_XAUTH_DSSSIG_I : ℕ := 65003
def OAKLEY_ATTR_AUTH_METHOD_XAUTH_DSSSIG_R : ℕ := 65004
def OAKLEY_ATTR_AUTH_METHOD_XAUTH_RSASIG_I : ℕ := 65005
def OAKLEY_ATTR_AUTH_METHOD_XAUTH_RSASIG_R : ℕ := 65006
def OAKLEY_ATTR_AUTH_METHOD_XAUTH_RSAENC_I : ℕ := 65007
def OAKLEY_ATTR_AUTH_METHOD_XAUTH_RSAENC_R : ℕ := 65008
def OAKLEY_ATTR_AUTH_METHOD_XAUTH_RSAREV_I : ℕ := 65009
def OAKLEY_ATTR_AUTH_METHOD_XAUTH_RSAREV_R : ℕ := 65010

def ISAKMP_ETYPE_NONE : ℕ := 0
def ISAKMP_ETYPE_AGG : ℕ := 4

def ISAKMP_CERT_NONE : ℕ := 0

def ISAKMP_NTYPE_NO_PROPOSAL_CHOSEN : ℕ := 14
def ISAKMP_NTYPE_INVALID_ID_INFORMATION : ℕ := 18

def IPSECDOI_ID_IPV4_ADDR : ℕ := 1
def IPSECDOI_ID_FQDN : ℕ := 2
def IPSECDOI_ID_USER_FQDN : ℕ := 3
def IPSECDOI_ID_IPV4_ADDR_SUBNET : ℕ := 4
def IPSECDOI_ID_IPV6_ADDR : ℕ := 5
def IPSECDOI_ID_IPV6_ADDR_SUBNET : ℕ := 6
def IPSECDOI_ID_IPV4_ADDR_RANGE : ℕ := 7
def IPSECDOI_ID_IPV6_ADDR_RANGE : ℕ := 8
def IPSECDOI_ID_DER_ASN1_DN : ℕ := 9
def IPSECDOI_ID_DER_ASN1_GN : ℕ := 10
def IPSECDOI_ID_KEY_ID : ℕ := 11

def IDTYPE_FQDN : ℕ := 1
def IDTYPE_USERFQDN : ℕ := 2
def IDTYPE_KEYID : ℕ := 3
def IDTYPE_ADDRESS : ℕ := 4
def IDTYPE_ASN1DN : ℕ := 5

/-- The size of `struct ipsecdoi_id_b`. -/
def ID_B_LEN : ℕ := 4

/-! ### Proposals -/

/-- `struct isakmpsa`. The parameters of a group are named by its number in the
    table of `algorithm.c`. -/
structure Isakmpsa where
  lifetime : ℤ
  lifebyte : ℕ
  enctype : ℕ
  encklen : ℕ
  authmethod : ℕ
  hashtype : ℕ
  dhGroup : ℕ
  dhgrp : Option ℕ
deriving DecidableEq, Repr

/-- `oakley_setdhgroup`; every group of the table has a type, a prime and a
    generator. -/
def oakleySetdhgroup (group : ℕ) : Option ℕ := if algOakleyDhdefOk group then some group else none

def dupisakmpsa (sa : Isakmpsa) : Isakmpsa :=
  { sa with dhgrp := sa.dhgrp.bind fun _ => oakleySetdhgroup sa.dhGroup }

def isakmpsaSwitchAuthmethod (authmethod : ℕ) : ℕ :=
  if authmethod = OAKLEY_ATTR_AUTH_METHOD_HYBRID_RSA_R then OAKLEY_ATTR_AUTH_METHOD_HYBRID_RSA_I
  else if authmethod = OAKLEY_ATTR_AUTH_METHOD_HYBRID_DSS_R then
    OAKLEY_ATTR_AUTH_METHOD_HYBRID_DSS_I
  else if authmethod = OAKLEY_ATTR_AUTH_METHOD_XAUTH_PSKEY_R then
    OAKLEY_ATTR_AUTH_METHOD_XAUTH_PSKEY_I
  else if authmethod = OAKLEY_ATTR_AUTH_METHOD_XAUTH_RSASIG_R then
    OAKLEY_ATTR_AUTH_METHOD_XAUTH_RSASIG_I
  else if authmethod = OAKLEY_ATTR_AUTH_METHOD_XAUTH_DSSSIG_R then
    OAKLEY_ATTR_AUTH_METHOD_XAUTH_DSSSIG_I
  else if authmethod = OAKLEY_ATTR_AUTH_METHOD_XAUTH_RSAENC_R then
    OAKLEY_ATTR_AUTH_METHOD_XAUTH_RSAENC_I
  else if authmethod = OAKLEY_ATTR_AUTH_METHOD_XAUTH_RSAREV_R then
    OAKLEY_ATTR_AUTH_METHOD_XAUTH_RSAREV_I
  else authmethod

/-- What `checkisakmpsa` compares at every level. -/
def sameAlgorithms (proposal p : Isakmpsa) : Bool :=
  isakmpsaSwitchAuthmethod proposal.authmethod = isakmpsaSwitchAuthmethod p.authmethod &&
    proposal.enctype = p.enctype && proposal.dhGroup = p.dhGroup && proposal.hashtype = p.hashtype

/-- What it compares by the level; byte lifetimes are not compared. -/
def levelAccepts (pcheckLevel : PropCheck) (proposal p : Isakmpsa) : Bool :=
  match pcheckLevel with
  | .OBEY => true
  | .CLAIM | .STRICT => !(proposal.encklen < p.encklen || proposal.lifetime > p.lifetime)
  | .EXACT => !(proposal.encklen ≠ p.encklen || proposal.lifetime ≠ p.lifetime)

def checkisakmpsa (pcheckLevel : PropCheck) (proposal : Isakmpsa) (acceptable : List Isakmpsa) :
    Option Isakmpsa :=
  acceptable.find? fun p => sameAlgorithms proposal p && levelAccepts pcheckLevel proposal p

/-! ### Sections -/

/-- One of the peer's identifiers of a section. -/
inductive Idspec where
  | undefined
  | asn1dn (id : Buf)
  | address (saddr : Sockaddr)
  | other (idtype : ℕ) (id : Buf)
deriving DecidableEq, Repr

def Idspec.idtype : Idspec → ℕ
  | .undefined => 0
  | .asn1dn _ => IDTYPE_ASN1DN
  | .address _ => IDTYPE_ADDRESS
  | .other idtype _ => idtype

/-- `remote` has no family in an anonymous section. -/
structure Remoteconf where
  remote : Sockaddr
  etypes : List ℕ
  idvlP : List Idspec
  mycert : Option Buf
  matchEmptyCr : Bool
  verifyIdentifier : Bool
  passive : Bool
  pcheckLevel : PropCheck
  dhGroup : ℕ
  proposal : List Isakmpsa
deriving DecidableEq, Repr

structure Rmconfselector where
  noAnonymous : Bool
  noPassive : Bool
  remote : Option Sockaddr
  etype : ℕ
  approval : Option Isakmpsa
  identity : Option Buf
  certificateRequest : Option Buf

/-- The functions of OpenSSL, and the memory an identity lies in front of. -/
structure Env where
  heap : Buf
  eayCmpAsn1dn : Buf → Buf → Bool
  eayGetX509asn1issuername : Option Buf → Buf

def doi2idtype (doi : ℕ) : ℕ :=
  if doi = IPSECDOI_ID_FQDN then IDTYPE_FQDN
  else if doi = IPSECDOI_ID_USER_FQDN then IDTYPE_USERFQDN
  else if doi = IPSECDOI_ID_KEY_ID then IDTYPE_KEYID
  else if doi = IPSECDOI_ID_DER_ASN1_DN then IDTYPE_ASN1DN
  else IDTYPE_ADDRESS

def inet6At (b : Buf) : ℕ :=
  ((longAt b 0 * 4294967296 + longAt b 4) * 4294967296 + longAt b 8) * 4294967296 + longAt b 12

section
variable (env : Env)

/-- One round of the loop of `rmconf_match_identity`. -/
def idspecMatches (idP : Buf) (id : Idspec) : Bool :=
  let ident := idP.drop ID_B_LEN
  if id = .undefined then true else
  if id.idtype ≠ doi2idtype (byteAt idP 0).toNat then false else
  match id with
  | .undefined => true
  | .asn1dn dn => env.eayCmpAsn1dn dn ident
  | .address (.inet addr _) => ident.length = 4 && addr = longAt ident 0
  | .address (.inet6 addr _ _) => ident.length = 16 && addr = inet6At ident
  | .address _ => false
  | .other _ value => memcpy (ident ++ env.heap) value.length = value

def rmconfMatchIdentity (rmconf : Remoteconf) (idP : Buf) : ℕ :=
  if rmconf.idvlP = [] then 0 else
  if rmconf.idvlP.any (idspecMatches env idP) then 0 else
  if rmconf.verifyIdentifier then ISAKMP_NTYPE_INVALID_ID_INFORMATION else 0

def rmconfMatchEtypeAndApproval (rmconf : Remoteconf) (etype : ℕ) (approval : Option Isakmpsa) : ℕ :=
  if etype % 256 ∉ rmconf.etypes then ISAKMP_NTYPE_NO_PROPOSAL_CHOSEN else
  match approval with
  | none => 0
  | some approval =>
    if etype = ISAKMP_ETYPE_AGG ∧ approval.dhGroup ≠ rmconf.dhGroup then
      ISAKMP_NTYPE_NO_PROPOSAL_CHOSEN
    else
      match checkisakmpsa rmconf.pcheckLevel approval rmconf.proposal with
      | none => ISAKMP_NTYPE_NO_PROPOSAL_CHOSEN
      | some _ => 0

def MATCH_NONE : ℕ := 0
def MATCH_BASIC : ℕ := 1
def MATCH_ADDRESS : ℕ := 2
def MATCH_SA : ℕ := 4
def MATCH_IDENTITY : ℕ := 8
def MATCH_AUTH_IDENTITY : ℕ := 16

def oakleyGetCerttype : Option Buf → ℕ
  | none => ISAKMP_CERT_NONE
  | some cert => (byteAt cert 0).toNat

/-- The checks of `rmconf_match_type` one by one: the bits set by it, or nothing
    where the section does not match. -/
def matchAddress (rmsel : Rmconfselector) (rmconf : Remoteconf) : Option ℕ :=
  match rmsel.remote with
  | none => some 0
  | some remote =>
    if rmconf.remote = .unspec then some 0
    else if cmpsaddr remote rmconf.remote = .MISMATCH then none
    else some MATCH_ADDRESS

def matchSa (rmsel : Rmconfselector) (rmconf : Remoteconf) : Option ℕ :=
  if rmsel.etype = ISAKMP_ETYPE_NONE then some 0
  else if rmconfMatchEtypeAndApproval rmconf rmsel.etype rmsel.approval ≠ 0 then none
  else some MATCH_SA

def matchIdentity (rmsel : Rmconfselector) (rmconf : Remoteconf) : Option ℕ :=
  match rmsel.identity with
  | none => some 0
  | some identity =>
    if !rmconf.verifyIdentifier then some 0
    else if rmconfMatchIdentity env rmconf identity ≠ 0 then none
    else some MATCH_IDENTITY

def matchCertificateRequest (rmsel : Rmconfselector) (rmconf : Remoteconf) : Option ℕ :=
  match rmsel.certificateRequest with
  | none => some 0
  | some cr =>
    if oakleyGetCerttype cr ≠ oakleyGetCerttype rmconf.mycert then none
    else if 1 < cr.length then
      if cr.drop 1 ≠ env.eayGetX509asn1issuername rmconf.mycert then none
      else some MATCH_AUTH_IDENTITY
    else if !rmconf.matchEmptyCr then none
    else some MATCH_AUTH_IDENTITY

def rmconfMatchType (rmsel : Rmconfselector) (rmconf : Remoteconf) : ℕ :=
  if rmsel.noAnonymous ∧ rmconf.remote = .unspec then MATCH_NONE else
  if rmsel.noPassive ∧ rmconf.passive then MATCH_NONE else
  match matchAddress rmsel rmconf, matchSa rmsel rmconf, matchIdentity env rmsel rmconf,
      matchCertificateRequest env rmsel rmconf with
  | some address, some sa, some identity, some cr =>
    MATCH_BASIC ||| address ||| sa ||| identity ||| cr
  | _, _, _, _ => MATCH_NONE

/-- The loop of `enumrmconf`; `enum_func` also gets the place of the section. -/
def enumLoop {σ : Type} (rmsel : Rmconfselector) (enumFunc : ℕ → Remoteconf → σ → Bool × σ) :
    List (Remoteconf × ℕ) → σ → Bool × σ
  | [], enumArg => (false, enumArg)
  | (p, place) :: rest, enumArg =>
    if rmconfMatchType env rmsel p = MATCH_NONE then enumLoop rmsel enumFunc rest enumArg else
    match enumFunc place p enumArg with
    | (true, enumArg) => (true, enumArg)
    | (false, enumArg) => enumLoop rmsel enumFunc rest enumArg

/-- The sections are gone through from the end. -/
def enumrmconf {σ : Type} (rmtree : List Remoteconf) (rmsel : Rmconfselector)
    (enumFunc : ℕ → Remoteconf → σ → Bool × σ) (enumArg : σ) : Bool × σ :=
  enumLoop env rmsel enumFunc rmtree.zipIdx.reverse enumArg

end

end WanStack.Racoon.Phase1
