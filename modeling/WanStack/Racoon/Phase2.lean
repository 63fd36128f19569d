import WanStack.Racoon.SaByPair

set_option autoImplicit false

/-!
# Choosing the phase 2 proposal

`ipsecdoi_selectph2proposal` of the responder, `ipsecdoi_checkph2proposal` of the
initiator, and `ipsecdoi_updatespi`. The proposals of the handle go along: the
comparison changes their modes.
-/
namespace WanStack.Racoon.Phase2
open Aftr (Buf byteAt shortAt)
open Proposal

/-! ### The comparison with our proposals -/

/-- The loop over our proposals; a proposal payload is one proposal of the peer. -/
def approvalLoop (ph1 : Ph1) (side : Side) : Saprop → List Saprop → Option Saprop × List Saprop
  | _, [] => (none, [])
  | q1, q2 :: rest =>
    let c := cmpsapropAlloc ph1 q1 q2 side
    match c.new with
    | some pr => (some pr, c.own :: rest)
    | none =>
      let (pr, rest) := approvalLoop ph1 side c.peer rest
      (pr, c.own :: rest)

/-- The round for a proposal payload that goes back from the approval to a transform. -/
def answerPair (approval : Saprop) (p : PropPair) : Option PropPair :=
  match approval.head.find? fun sp => sp.protoId = protoId p.prop with
  | none => none
  | some sp =>
    match sp.head with
    | [tr] =>
      (p.trns.find? fun t => tr.trnsNo = tNo t).map fun t => { prop := p.prop, trns := [t] }
    | _ => none

/-- The approval with the pairs to answer with, and our proposals as they are left. -/
def getPh2approvalx (ph1 : Ph1) (side : Side) (proposal : List Saprop) (pp : List PropPair) :
    Option (Saprop × List PropPair) × List Saprop :=
  match aproppair2saprop pp with
  | none => (none, proposal)
  | some pr0 =>
    match approvalLoop ph1 side pr0 proposal with
    | (none, proposal) => (none, proposal)
    | (some pr, proposal) => ((pp.mapM (answerPair pr)).map fun ret => (pr, ret), proposal)

/-- The loop over the numbers. -/
def approvalNumbers (ph1 : Ph1) (side : Side) (pair : Pairs) :
    List ℕ → List Saprop → Option (Saprop × List PropPair)
  | [], _ => none
  | i :: is, proposal =>
    if pair i = [] then approvalNumbers ph1 side pair is proposal else
    match getPh2approvalx ph1 side proposal (pair i) with
    | (some found, _) => some found
    | (none, proposal) => approvalNumbers ph1 side pair is proposal

def getPh2approval (ph1 : Ph1) (side : Side) (proposal : List Saprop) (pair : Pairs) :
    Option (Saprop × List PropPair) :=
  approvalNumbers ph1 side pair (List.range MAXPROPPAIRLEN) proposal

/-! ### The responder -/

/-- `iph2->approval` and `iph2->sa_ret`, for the `l` bytes at `sa`. -/
def ipsecdoiSelectph2proposal (ph1 : Ph1) (proposal : List Saprop) (sa : Buf) (l : ℕ) :
    Option (Saprop × Buf) :=
  (getProppairAndDoiSit sa l .PH2).bind fun (pair, doitype, sittype) =>
    (getPh2approval ph1 .RESPONDER proposal pair).map fun (approval, ret) =>
      (approval, getSabyproppair doitype sittype ret)

/-- The protocol of the approval that a pair of the answer is for. -/
def protoFor (pp : Saprop) (p : PropPair) : Option Saproto :=
  pp.head.find? fun pr => protoId p.prop = pr.protoId &&
    (pr.head.head?.any fun tr => (tId (firstTrns p) : ℤ) = tr.trnsId)

/-- The SPI of a protocol written into the proposal at `p->prop`. -/
def writeSpi (sa : Buf) (p : PropPair) (pr : Saproto) : Buf :=
  patch sa (sa.length - p.prop.length + PL_P_LEN) (pr.spi.drop (4 - pr.spisize))

/-- The loop over the pairs of the answer. What was written stays when a later
    pair finds no protocol. -/
def spiLoop (pp : Saprop) : List PropPair → Buf → Bool × Buf
  | [], sa => (true, sa)
  | p :: ps, sa =>
    match protoFor pp p with
    | none => (false, sa)
    | some pr => spiLoop pp ps (writeSpi sa p pr)

/-- `ipsecdoi_updatespi`: whether it succeeds, and `sa_ret`. -/
def ipsecdoiUpdatespi (approval : Saprop) (saRet : Buf) : Bool × Buf :=
  match getProppair saRet saRet.length .PH2 with
  | none => (false, saRet)
  | some pair =>
    match (List.range MAXPROPPAIRLEN).find? fun i => pair i ≠ [] with
    | none => (false, saRet)
    | some i =>
      match pair i with
      | [] => (false, saRet)
      | p :: ps => if 1 < p.trns.length then (false, saRet) else spiLoop approval (p :: ps) saRet

/-! ### The initiator -/

/-- `cmp_aproppair_i`, as far as it refuses: other transforms and attributes than
    those sent only leave a warning. -/
def cmpAproppairI : List PropPair → List PropPair → Bool
  | p :: a, q :: b =>
    if !q.trns.any fun r => tNo (firstTrns p) = tNo r then false
    else if protoId p.prop ≠ protoId q.prop then false
    else if spiSize p.prop ≠ spiSize q.prop then false
    else cmpAproppairI a b
  | [], [] => true
  | _, _ => false

/-- `ipsecdoi_checkph2proposal` for the payload sent and the `l` bytes at `saRet`;
    the payload it makes of the pairs is the new `sa_ret`. -/
def ipsecdoiCheckph2proposal (ph1 : Ph1) (proposal : List Saprop) (sa saRet : Buf) (l : ℕ) :
    Option (Saprop × Buf) :=
  (getProppairAndDoiSit sa sa.length .PH2).bind fun (spair, doitype, sittype) =>
    (getProppair saRet l .PH2).bind fun rpair =>
      match (List.range MAXPROPPAIRLEN).filter fun i => rpair i ≠ [] with
      | [n] =>
        if (rpair n).head?.any fun p => 1 < p.trns.length then none
        else if !cmpAproppairI (rpair n) (spair n) then none
        else
          (getPh2approval ph1 .INITIATOR proposal rpair).map fun (approval, ret) =>
            (approval, getSabyproppair doitype sittype ret)
      | _ => none

/-- A protocol as `ipsecdoi_setph2proposal` leaves it. -/
def sentProto (ph1 : Ph1) (pr : Saproto) : Saproto :=
  if ph1.natDetected then { pr with encmode := pr.encmode + ph1.natt.modeUdpDiff, udpEncap := true }
  else pr

def sentSaprop (ph1 : Ph1) (pp : Saprop) : Saprop := { pp with head := pp.head.map (sentProto ph1) }

/-- Quick mode seen from the initiator: the payload is sent and a reply to it checked. -/
def initiate (ph1 : Ph1) (pfsGroup : ℕ) (proposal : List Saprop) (saRet : Buf) (l : ℕ) :
    Option (Saprop × Buf) :=
  (ipsecdoiSetph2proposal ph1 pfsGroup proposal).bind fun sa =>
    ipsecdoiCheckph2proposal ph1 (proposal.map (sentSaprop ph1)) sa saRet l

end WanStack.Racoon.Phase2
