import Mathlib.Data.Int.Notation
import Mathlib.Data.List.Basic
import Mathlib.Data.List.Forall2

set_option autoImplicit false

/-!
# Phase 2 proposals

The lists of `proposal.h`, and `cmpsaprop_alloc`, which takes one proposal of
the peer and one of ours and builds the proposal both agree on. Lists are Lean
lists; allocations succeed.
-/
namespace WanStack.Racoon.Proposal

structure Satrns where
  trnsNo : ℤ
  trnsId : ℤ
  encklen : ℤ
  authtype : ℤ
deriving DecidableEq, Repr

/-- The SPIs are four bytes in network order, filled from the right. -/
structure Saproto where
  protoId : ℤ
  spisize : ℕ
  encmode : ℤ
  udpEncap : Bool
  spi : List UInt8
  spiP : List UInt8
  reqidOut : ℤ
  reqidIn : ℤ
  head : List Satrns
deriving DecidableEq, Repr

structure Saprop where
  propNo : ℤ
  lifetime : ℤ
  lifebyte : ℤ
  pfsGroup : ℤ
  claim : ℕ
  head : List Saproto
deriving DecidableEq, Repr

def IPSECDOI_PROTO_IPSEC_AH : ℤ := 2
def IPSECDOI_PROTO_IPSEC_ESP : ℤ := 3
def IPSECDOI_PROTO_IPCOMP : ℤ := 4

def IPSECDOI_ATTR_SA_LD_TYPE_SEC : ℕ := 1

def IPSECDOI_ATTR_ENC_MODE_TUNNEL : ℤ := 1
def IPSECDOI_ATTR_ENC_MODE_TRNS : ℤ := 2
def IPSECDOI_ATTR_ENC_MODE_UDPTUNNEL_RFC : ℤ := 3
def IPSECDOI_ATTR_ENC_MODE_UDPTRNS_RFC : ℤ := 4
def IPSECDOI_ATTR_ENC_MODE_UDPTUNNEL_DRAFT : ℤ := 61443
def IPSECDOI_ATTR_ENC_MODE_UDPTRNS_DRAFT : ℤ := 61444

/-- `PROP_CHECK_*`, as the configuration sets them. -/
inductive PropCheck where
  | OBEY
  | STRICT
  | CLAIM
  | EXACT
deriving DecidableEq, Repr

inductive Side where
  | INITIATOR
  | RESPONDER
deriving DecidableEq, Repr

/-- The two sets of encapsulation modes of `natt_fill_options`. -/
inductive NattVersion where
  | draft
  | rfc
deriving DecidableEq, Repr

def NattVersion.modeUdpTunnel : NattVersion → ℤ
  | .draft => IPSECDOI_ATTR_ENC_MODE_UDPTUNNEL_DRAFT
  | .rfc => IPSECDOI_ATTR_ENC_MODE_UDPTUNNEL_RFC

def NattVersion.modeUdpDiff (version : NattVersion) : ℤ :=
  version.modeUdpTunnel - IPSECDOI_ATTR_ENC_MODE_TUNNEL

/-- What a phase 1 handle says about its phase 2 negotiations. -/
structure Ph1 where
  pcheckLevel : PropCheck
  natDetected : Bool
  natt : NattVersion
deriving DecidableEq, Repr

def nattUdpEncap (encmode : ℤ) : Bool :=
  encmode = IPSECDOI_ATTR_ENC_MODE_UDPTUNNEL_RFC ||
    encmode = IPSECDOI_ATTR_ENC_MODE_UDPTRNS_RFC ||
    encmode = IPSECDOI_ATTR_ENC_MODE_UDPTUNNEL_DRAFT ||
    encmode = IPSECDOI_ATTR_ENC_MODE_UDPTRNS_DRAFT

/-- `cmpsatrns`, without the protocol, which it only prints. -/
def cmpsatrns (tr1 tr2 : Satrns) (checkLevel : PropCheck) : ℤ :=
  if tr1.trnsId ≠ tr2.trnsId then 1 else
  if tr1.authtype ≠ tr2.authtype then 1 else
  match checkLevel with
  | .OBEY => 0
  | .STRICT | .CLAIM => if tr1.encklen < tr2.encklen then 1 else 0
  | .EXACT => if tr1.encklen ≠ tr2.encklen then 1 else 0

def spisizematch (pr1 pr2 : Saproto) : Bool :=
  pr1.spisize = pr2.spisize ||
    pr1.protoId = IPSECDOI_PROTO_IPCOMP &&
      (pr1.spisize = 2 && pr2.spisize = 4 || pr2.spisize = 2 && pr1.spisize = 4)

/-- A protocol with its mode changed from an UDP encapsulated one. -/
def adjustEncmode (ph1 : Ph1) (pr : Saproto) : Saproto :=
  if ph1.natDetected && nattUdpEncap pr.encmode then
    { pr with encmode := pr.encmode - ph1.natt.modeUdpDiff, udpEncap := true }
  else pr

/-- The transform of the peer that the two loops stop at. -/
def findTrns (level : PropCheck) (head1 head2 : List Satrns) : Option Satrns :=
  head1.find? fun tr1 => head2.any fun tr2 => cmpsatrns tr1 tr2 level = 0

/-- The protocol built at `found`. -/
def newProto (pr1 pr2 : Saproto) (tr1 : Satrns) : Saproto :=
  { protoId := pr1.protoId
    spisize := pr1.spisize
    encmode := pr1.encmode
    udpEncap := pr1.udpEncap || pr2.udpEncap
    spi := pr2.spi
    spiP := pr1.spi
    reqidOut := pr2.reqidOut
    reqidIn := pr2.reqidIn
    head := [tr1] }

/-- One round of the loop for a protocol `pr1` of the peer and `pr2` of ours:
    the new protocol, and the two with their modes adjusted. -/
def matchProto (ph1 : Ph1) (pr1 pr2 : Saproto) : Option Saproto × Saproto × Saproto :=
  if !spisizematch pr1 pr2 then (none, pr1, pr2) else
  let pr2 := adjustEncmode ph1 pr2
  let pr1 := adjustEncmode ph1 pr1
  if pr1.encmode ≠ pr2.encmode then (none, pr1, pr2) else
  ((findTrns ph1.pcheckLevel pr1.head pr2.head).map (newProto pr1 pr2), pr1, pr2)

/-- `matchProto` for a protocol of the list the loop goes through, ours for the
    responder and the peer's for the initiator, and one of the other list. -/
def matchSide (ph1 : Ph1) (side : Side) (pr x : Saproto) : Option Saproto × Saproto × Saproto :=
  match side with
  | .RESPONDER => let (new, x, pr) := matchProto ph1 x pr; (new, pr, x)
  | .INITIATOR => matchProto ph1 pr x

/-- What the loop leaves: the new protocols when it went to the end, the two
    lists, and for each protocol matched its place in each list. -/
structure Matched where
  new : Option (List Saproto)
  driving : List Saproto
  searched : List Saproto
  places : List (ℕ × ℕ)

/-- The loop over the protocols; the first of the same protocol is taken in the
    other list. `k` is the place of the protocol the loop is at. -/
def matchProtos (ph1 : Ph1) (side : Side) : ℕ → List Saproto → List Saproto → Matched
  | _, [], searched => { new := some [], driving := [], searched := searched, places := [] }
  | k, pr :: rest, searched =>
    let before := searched.takeWhile fun x => x.protoId ≠ pr.protoId
    match searched.dropWhile fun x => x.protoId ≠ pr.protoId with
    | [] => { new := none, driving := pr :: rest, searched := searched, places := [] }
    | x :: after =>
      match matchSide ph1 side pr x with
      | (none, pr, x) =>
        { new := none, driving := pr :: rest, searched := before ++ x :: after, places := [] }
      | (some new, pr, x) =>
        let m := matchProtos ph1 side (k + 1) rest (before ++ x :: after)
        { new := m.new.map (new :: ·)
          driving := pr :: m.driving
          searched := m.searched
          places := (k, before.length) :: m.places }

/-- The lifetimes, group and claim flag, or nothing where the level refuses. -/
def checkLevel (level : PropCheck) (pp1 pp2 : Saprop) : Option (ℤ × ℤ × ℤ × ℕ) :=
  match level with
  | .OBEY => some (pp1.lifetime, pp1.lifebyte, pp1.pfsGroup, 0)
  | .STRICT =>
    if pp1.lifetime > pp2.lifetime then none else
    if pp1.lifebyte > pp2.lifebyte then none else
    if pp2.pfsGroup ≠ 0 ∧ pp1.pfsGroup ≠ pp2.pfsGroup then none
    else some (pp1.lifetime, pp1.lifebyte, pp1.pfsGroup, 0)
  | .CLAIM =>
    let lifetime := if pp1.lifetime ≤ pp2.lifetime then pp1.lifetime else pp2.lifetime
    let claim := if pp1.lifetime ≤ pp2.lifetime then 0 else IPSECDOI_ATTR_SA_LD_TYPE_SEC
    let claim := if pp1.lifebyte > pp2.lifebyte then claim ||| IPSECDOI_ATTR_SA_LD_TYPE_SEC else claim
    -- the byte lifetime set by the comparison is overwritten
    let lifebyte := pp1.lifebyte
    if pp2.pfsGroup ≠ 0 ∧ pp1.pfsGroup ≠ pp2.pfsGroup then none
    else some (lifetime, lifebyte, pp1.pfsGroup, claim)
  | .EXACT =>
    if pp1.lifetime ≠ pp2.lifetime then none else
    if pp1.lifebyte ≠ pp2.lifebyte then none else
    if pp1.pfsGroup ≠ pp2.pfsGroup then none
    else some (pp1.lifetime, pp1.lifebyte, pp1.pfsGroup, 0)

/-- The proposal returned, the two given with the modes adjusted in them, and
    the places (in the peer's list, in ours) of the protocols matched. -/
structure Compared where
  new : Option Saprop
  peer : Saprop
  own : Saprop
  places : List (ℕ × ℕ)

def cmpsapropAlloc (ph1 : Ph1) (pp1 pp2 : Saprop) (side : Side) : Compared :=
  match checkLevel ph1.pcheckLevel pp1 pp2 with
  | none => { new := none, peer := pp1, own := pp2, places := [] }
  | some (lifetime, lifebyte, pfsGroup, claim) =>
    if pp1.head.length ≠ pp2.head.length then
      { new := none, peer := pp1, own := pp2, places := [] }
    else
      let newpp (head : List Saproto) : Saprop :=
        { propNo := pp1.propNo
          lifetime := lifetime
          lifebyte := lifebyte
          pfsGroup := pfsGroup
          claim := claim
          head := head }
      match side with
      | .RESPONDER =>
        let m := matchProtos ph1 side 0 pp2.head pp1.head
        { new := m.new.map newpp
          peer := { pp1 with head := m.searched }
          own := { pp2 with head := m.driving }
          places := m.places.map Prod.swap }
      | .INITIATOR =>
        let m := matchProtos ph1 side 0 pp1.head pp2.head
        { new := m.new.map newpp
          peer := { pp1 with head := m.driving }
          own := { pp2 with head := m.searched }
          places := m.places }

end WanStack.Racoon.Proposal
