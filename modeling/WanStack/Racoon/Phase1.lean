import WanStack.Racoon.Remoteconf
import WanStack.Racoon.SaByPair

set_option autoImplicit false

/-!
# Choosing the phase 1 proposal

`ipsecdoi_checkph1proposal` and what it calls: the decoder of a transform, the
search for a transform that one of our proposals goes with, and the SA payload
made of it.
-/
namespace WanStack.Racoon.Phase1
open Aftr (Buf byteAt shortAt)
open Proposal (PropCheck Attr attributes ipsecdoiSetLd PropPair Pairs getProppairAndDoiSit
  getSabyproppair MAXPROPPAIRLEN
  OAKLEY_ATTR_ENC_ALG OAKLEY_ATTR_HASH_ALG OAKLEY_ATTR_AUTH_METHOD OAKLEY_ATTR_GRP_DESC
  OAKLEY_ATTR_GRP_TYPE OAKLEY_ATTR_GRP_TYPE_MODP OAKLEY_ATTR_GRP_GEN_ONE OAKLEY_ATTR_SA_LD_TYPE
  OAKLEY_ATTR_SA_LD_TYPE_SEC OAKLEY_ATTR_SA_LD_TYPE_KB OAKLEY_ATTR_SA_LD OAKLEY_ATTR_KEY_LEN)

def OAKLEY_ATTR_GRP_GEN_TWO : ℕ := 8
def OAKLEY_ATTR_SA_LD_TYPE_DEFAULT : ℕ := 1
def OAKLEY_ATTR_SA_LD_SEC_DEFAULT : ℤ := 28800
def OAKLEY_ATTR_ENC_ALG_DES : ℕ := 1
def OAKLEY_ATTR_ENC_ALG_IDEA : ℕ := 2
def OAKLEY_ATTR_ENC_ALG_3DES : ℕ := 5

/-! ### Decoding a transform -/

/-- What the loop of `t2isakmpsa` carries along. The parameters of a group that
    the peer sends are read by nobody. -/
structure Decoding where
  lifeT : ℕ
  prev : Option ℕ
  keylen : Bool
  sa : Isakmpsa

/-- One round, for one attribute; nothing where the function fails. -/
def t2isakmpsaStep (s : Decoding) (a : Attr) : Option Decoding :=
  let next (s : Decoding) : Option Decoding := some { s with prev := some a.type }
  if a.type = OAKLEY_ATTR_ENC_ALG then next { s with sa := { s.sa with enctype := a.lorv } }
  else if a.type = OAKLEY_ATTR_HASH_ALG then next { s with sa := { s.sa with hashtype := a.lorv } }
  else if a.type = OAKLEY_ATTR_AUTH_METHOD then
    next { s with sa := { s.sa with authmethod := a.lorv } }
  else if a.type = OAKLEY_ATTR_GRP_DESC then next { s with sa := { s.sa with dhGroup := a.lorv } }
  else if a.type = OAKLEY_ATTR_GRP_TYPE then
    if a.lorv = OAKLEY_ATTR_GRP_TYPE_MODP then next s else none
  else if a.type = OAKLEY_ATTR_GRP_GEN_ONE ∨ a.type = OAKLEY_ATTR_GRP_GEN_TWO then
    -- the value is taken for a length where the flag says it is none
    if a.tv ∧ 4 < a.lorv then none else next s
  else if a.type = OAKLEY_ATTR_SA_LD_TYPE then
    next { s with lifeT :=
      if a.lorv = OAKLEY_ATTR_SA_LD_TYPE_SEC ∨ a.lorv = OAKLEY_ATTR_SA_LD_TYPE_KB then a.lorv
      else OAKLEY_ATTR_SA_LD_TYPE_DEFAULT }
  else if a.type = OAKLEY_ATTR_SA_LD then
    if s.prev ≠ some OAKLEY_ATTR_SA_LD_TYPE then next s
    else if ipsecdoiSetLd a = 0 then none
    else if s.lifeT = OAKLEY_ATTR_SA_LD_TYPE_SEC then
      next { s with sa := { s.sa with lifetime := ipsecdoiSetLd a } }
    else next { s with sa := { s.sa with lifebyte := ipsecdoiSetLd a } }
  else if a.type = OAKLEY_ATTR_KEY_LEN then
    if a.lorv % 8 ≠ 0 then none
    else next { s with sa := { s.sa with encklen := a.lorv }, keylen := true }
  else next s

/-- The ciphers that have no key length. -/
def fixedKey (enctype : ℕ) : Bool :=
  enctype = OAKLEY_ATTR_ENC_ALG_DES || enctype = OAKLEY_ATTR_ENC_ALG_IDEA ||
    enctype = OAKLEY_ATTR_ENC_ALG_3DES

def t2isakmpsa (trns : Buf) : Option Isakmpsa :=
  let start : Decoding :=
    { lifeT := OAKLEY_ATTR_SA_LD_TYPE_DEFAULT
      prev := none
      keylen := false
      sa :=
        { lifetime := OAKLEY_ATTR_SA_LD_SEC_DEFAULT
          lifebyte := 0
          enctype := 0
          encklen := 0
          authmethod := 0
          hashtype := 0
          dhGroup := 0
          dhgrp := none } }
  ((attributes trns).foldlM t2isakmpsaStep start).bind fun s =>
    if s.keylen ∧ fixedKey s.sa.enctype then none else some s.sa

/-! ### The search -/

/-- Our proposal made to fit the one of the peer. -/
def mergeSa (pcheckLevel : PropCheck) (peer own : Isakmpsa) : Isakmpsa :=
  let sa := dupisakmpsa own
  match pcheckLevel with
  | .OBEY =>
    { sa with
      lifetime := peer.lifetime
      lifebyte := peer.lifebyte
      encklen := peer.encklen }
  | .CLAIM | .STRICT =>
    { sa with
      lifetime := if peer.lifetime < sa.lifetime then peer.lifetime else sa.lifetime
      lifebyte := if peer.lifebyte < sa.lifebyte then peer.lifebyte else sa.lifebyte
      encklen := if sa.encklen < peer.encklen then peer.encklen else sa.encklen }
  | .EXACT => sa

def getPh1approvalx (rmconf : Remoteconf) (peer : Isakmpsa) : Option Isakmpsa :=
  (checkisakmpsa rmconf.pcheckLevel peer rmconf.proposal).map (mergeSa rmconf.pcheckLevel peer)

/-- `get_ph1approvalx` as `enumrmconf` calls it. -/
def approvalxFunc (_ : ℕ) (rmconf : Remoteconf) (sa : Isakmpsa) : Bool × Isakmpsa :=
  match getPh1approvalx rmconf sa with
  | none => (false, sa)
  | some sa => (true, sa)

/-- The part of a phase 1 handle read here; `rmconf` is the section when it is
    known already. -/
structure Ph1handle where
  remote : Sockaddr
  rmconf : Option Remoteconf

/-- The pairs of one number as the two inner loops go through them, each with
    those linked behind it by `next`: of a proposal payload only the pair of the
    first transform is linked on. -/
def starts : List PropPair → List (List PropPair)
  | [] => []
  | s :: next =>
    (s :: next) :: (s.trns.tail.map fun t => [{ s with trns := [t] }]) ++ starts next

section
variable (env : Env) (rmtree : List Remoteconf)

def remoteOnly (remote : Sockaddr) : Rmconfselector :=
  { noAnonymous := false
    noPassive := false
    remote := some remote
    etype := ISAKMP_ETYPE_NONE
    approval := none
    identity := none
    certificateRequest := none }

/-- The approval that a decoded transform leads to. -/
def approve (iph1 : Ph1handle) (sa : Isakmpsa) : Option Isakmpsa :=
  match iph1.rmconf with
  | some rmconf => getPh1approvalx rmconf sa
  | none =>
    match enumrmconf env rmtree (remoteOnly iph1.remote) approvalxFunc sa with
    | (true, sa) => some sa
    | (false, _) => none

/-- The body of the loops. -/
def tryPair (iph1 : Ph1handle) (p : List PropPair) : Option (Isakmpsa × List PropPair) :=
  (t2isakmpsa ((p.headD { prop := [], trns := [] }).trns.headD [])).bind fun sa =>
    (approve env rmtree iph1 sa).map fun approval => (approval, p)

/-- The check of the group after the loops. -/
def checkDhgrp (sa : Isakmpsa) : Option Isakmpsa :=
  match sa.dhgrp with
  | some _ => some sa
  | none => (oakleySetdhgroup sa.dhGroup).map fun group => { sa with dhgrp := some group }

/-- The approval and the payload made. -/
def getPh1approval (iph1 : Ph1handle) (doitype sittype : ℕ) (pair : Pairs) : Option (Isakmpsa × Buf) :=
  (((List.range MAXPROPPAIRLEN).flatMap fun i => starts (pair i)).findSome?
    (tryPair env rmtree iph1)).bind fun (sa, p) =>
      (checkDhgrp sa).map fun sa => (sa, getSabyproppair doitype sittype p)

/-- `iph1->approval` and `iph1->sa_ret` where the function succeeds, for the `l`
    bytes at `sa`. -/
def ipsecdoiCheckph1proposal (sa : Buf) (l : ℕ) (iph1 : Ph1handle) : Option (Isakmpsa × Buf) :=
  (getProppairAndDoiSit sa l .PH1).bind fun (pair, doitype, sittype) =>
    getPh1approval env rmtree iph1 doitype sittype pair

end

end WanStack.Racoon.Phase1
