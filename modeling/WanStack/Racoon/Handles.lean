import Mathlib.Tactic.SplitIfs
import WanStack.Racoon.Proposal
import WanStack.Racoon.RecvdPkt

set_option autoImplicit false

/-!
# Phase 1 and phase 2 handles

`ph1tree` and `ph2tree` of `handler.c`, the security associations of the kernel,
and the functions of `isakmp.c` and `isakmp_inf.c` that remove handles and
associations. A handle is named by the address it lies at; the policies that
`delete_spd` removes with a handle are left out.
-/
namespace WanStack.Racoon.Handles
open Aftr (Buf)
open Proposal (Saprop Saproto Side IPSECDOI_PROTO_IPSEC_AH IPSECDOI_PROTO_IPSEC_ESP
  IPSECDOI_PROTO_IPCOMP)

def PHASE1ST_MSG2SENT : ℕ := 5
def PHASE1ST_MSG3SENT : ℕ := 7
def PHASE1ST_ESTABLISHED : ℕ := 9
def PHASE1ST_DYING : ℕ := 10
def PHASE1ST_EXPIRED : ℕ := 11

def PHASE2ST_ESTABLISHED : ℕ := 9
def PHASE2ST_EXPIRED : ℕ := 10

/-- The types of associations of PF_KEY; racoon manages the first three. -/
inductive Satype where
  | AH
  | ESP
  | IPCOMP
  | other (satype : ℕ)
deriving DecidableEq, Repr

inductive SaState where
  | LARVAL
  | MATURE
  | DYING
  | DEAD
deriving DecidableEq, Repr

/-- An association as a dump shows it, after `pk_fixup_sa_addresses`; the SPI is
    in network order. -/
structure SadbSa where
  satype : Satype
  src : Sockaddr
  dst : Sockaddr
  spi : Buf
  state : SaState
deriving DecidableEq, Repr

/-- What names an association. -/
def SadbSa.key (sa : SadbSa) : Satype × Sockaddr × Sockaddr × Buf :=
  (sa.satype, sa.src, sa.dst, sa.spi)

/-- The associations of the kernel; no two have the same name. -/
structure Sadb where
  entries : List SadbSa
  distinct : (entries.map SadbSa.key).Nodup

/-- `pfkey_send_delete`. -/
def Sadb.delete (db : Sadb) (sa : SadbSa) : Sadb where
  entries := db.entries.filter fun e => e.key ≠ sa.key
  distinct := db.distinct.sublist (List.filter_sublist.map _)

inductive Rekey where
  | OFF
  | ON
  | FORCE
deriving DecidableEq, Repr

structure RmConf where
  rekey : Rekey
  dpdInterval : ℕ
  weakPhase1Check : Bool
deriving DecidableEq, Repr

/-- `index` holds the two cookies. An identity that is not there is empty. -/
structure Ph1handle where
  addr : ℕ
  index : Buf
  status : ℕ
  side : Side
  etype : ℕ
  localAddr : Sockaddr
  remote : Sockaddr
  id : Buf
  idP : Buf
  ivm : Bool
  rmconf : Option RmConf
  unity : Bool
  dpdSupport : Bool
  dpdFails : ℕ
  dpdLastAck : ℕ
  dpdSeq : ℕ
deriving DecidableEq, Repr

structure Ph2handle where
  addr : ℕ
  ph1 : Option ℕ
  status : ℕ
  src : Sockaddr
  dst : Sockaddr
  proposal : Option Saprop
  approval : Option Saprop
deriving DecidableEq, Repr

/-- The messages sent: the delete for a phase 2 handle, the answer to an
    R-U-THERE, and a notification for a phase 2 handle. -/
inductive Sent where
  | d2 (iph2 : ℕ)
  | rUThereAck (iph1 : ℕ) (iCk rCk data : Buf)
  | n2 (iph2 : ℕ) (type : ℕ)
deriving DecidableEq, Repr

/-- No two handles of a tree lie at one address. -/
structure State where
  ph1tree : List Ph1handle
  ph2tree : List Ph2handle
  sadb : Sadb
  sent : List Sent
  ph1Distinct : (ph1tree.map Ph1handle.addr).Nodup
  ph2Distinct : (ph2tree.map Ph2handle.addr).Nodup

def State.ph1 (s : State) (addr : ℕ) : Option Ph1handle := s.ph1tree.find? fun p => p.addr = addr

theorem map_ite_addr (l : List Ph1handle) (addr : ℕ) (f : Ph1handle → Ph1handle)
    (hf : ∀ p, (f p).addr = p.addr) :
    (l.map fun p => if p.addr = addr then f p else p).map Ph1handle.addr =
      l.map Ph1handle.addr := by
  rw [List.map_map]
  apply List.map_congr_left
  intro p _
  rw [Function.comp_apply]
  split_ifs
  · exact hf p
  · rfl

def State.setPh1 (s : State) (addr : ℕ) (f : Ph1handle → Ph1handle)
    (hf : ∀ p, (f p).addr = p.addr) : State :=
  { s with
    ph1tree := s.ph1tree.map fun p => if p.addr = addr then f p else p
    ph1Distinct := by
      rw [map_ite_addr _ _ _ hf]
      exact s.ph1Distinct }

/-! ### Searching -/

def getph1byindex (s : State) (index : Buf) : Option Ph1handle :=
  s.ph1tree.find? fun p => ¬PHASE1ST_EXPIRED ≤ p.status ∧ p.index = index

/-- Whether two identities that are both there differ. -/
def idDiffers (id1 id2 : Buf) : Bool := id1 ≠ [] && id2 ≠ [] && id1 ≠ id2

/-- `getph1` with `GETPH1_F_ESTABLISHED`, as its callers here use it. -/
def getph1 (s : State) (hint : Ph1handle) (localAddr remote : Sockaddr) : Option Ph1handle :=
  s.ph1tree.find? fun p =>
    ¬PHASE1ST_DYING ≤ p.status ∧ p.status = PHASE1ST_ESTABLISHED ∧
      cmpsaddr localAddr p.localAddr ≠ .MISMATCH ∧ cmpsaddr remote p.remote ≠ .MISMATCH ∧
      !idDiffers hint.id p.id ∧ !idDiffers hint.idP p.idP

/-- The test of `getph2bysaidx`, which stops at a protocol that is another one. -/
def carries (protoId : ℤ) (spi : Buf) (iph2 : Ph2handle) : Bool :=
  match iph2.approval, iph2.proposal with
  | some approval, _ =>
    (approval.head.takeWhile fun pr => protoId = pr.protoId).any fun pr =>
      spi = pr.spi || spi = pr.spiP
  | none, some proposal =>
    (proposal.head.takeWhile fun pr => protoId = pr.protoId).any fun pr => spi = pr.spi
  | none, none => false

/-- `getph2bysaidx`, which does not look at the addresses it is given. -/
def getph2bysaidx (s : State) (protoId : ℤ) (spi : Buf) : Option Ph2handle :=
  s.ph2tree.find? (carries protoId spi)

def ipsecdoi2pfkeyProto (protoId : ℤ) : Option Satype :=
  if protoId = IPSECDOI_PROTO_IPSEC_AH then some .AH
  else if protoId = IPSECDOI_PROTO_IPSEC_ESP then some .ESP
  else if protoId = IPSECDOI_PROTO_IPCOMP then some .IPCOMP
  else none

/-- `pfkey2ipsecdoi_proto`; a type it does not know gives ~0. -/
def pfkey2ipsecdoiProto : Satype → ℤ
  | .AH => IPSECDOI_PROTO_IPSEC_AH
  | .ESP => IPSECDOI_PROTO_IPSEC_ESP
  | .IPCOMP => IPSECDOI_PROTO_IPCOMP
  | .other _ => 4294967295

/-! ### Removing -/

/-- `remph2` and `delph2`. -/
def remph2 (iph2 : Ph2handle) (s : State) : State :=
  { s with
    ph2tree := s.ph2tree.filter fun p => p.addr ≠ iph2.addr
    ph2Distinct := s.ph2Distinct.sublist (List.filter_sublist.map _) }

/-- `remph1` and `delph1`. -/
def remph1 (iph1 : Ph1handle) (s : State) : State :=
  { s with
    ph1tree := s.ph1tree.filter fun p => p.addr ≠ iph1.addr
    ph1Distinct := s.ph1Distinct.sublist (List.filter_sublist.map _) }

/-- A phase 2 handle moved from one phase 1 handle to another. -/
def migrated (oldIph1 newIph1 : Ph1handle) (p : Ph2handle) : Ph2handle :=
  if p.ph1 = some oldIph1.addr ∧ p.status = PHASE2ST_ESTABLISHED then
    { p with ph1 := some newIph1.addr }
  else p

theorem migrated_addr (oldIph1 newIph1 : Ph1handle) (p : Ph2handle) :
    (migrated oldIph1 newIph1 p).addr = p.addr := by
  unfold migrated
  split_ifs <;> rfl

def migratePh12 (oldIph1 newIph1 : Ph1handle) (s : State) : State :=
  { s with
    ph2tree := s.ph2tree.map (migrated oldIph1 newIph1)
    ph2Distinct := by
      rw [List.map_map, show Ph2handle.addr ∘ migrated oldIph1 newIph1 = Ph2handle.addr from
        funext (migrated_addr oldIph1 newIph1)]
      exact s.ph2Distinct }

/-- The phase 2 handles a phase 1 handle is left with go with it. -/
def discardPh2s (iph1 : Ph1handle) (s : State) : State :=
  let discarded := s.ph2tree.filter fun p => p.ph1 = some iph1.addr
  { s with
    ph2tree := s.ph2tree.filter fun p => p.ph1 ≠ some iph1.addr
    ph2Distinct := s.ph2Distinct.sublist (List.filter_sublist.map _)
    sent := s.sent ++
      ((discarded.filter fun p => p.status = PHASE2ST_ESTABLISHED).map fun p => .d2 p.addr) }

def isakmpPh1delete (iph1 : Ph1handle) (s : State) : State :=
  let s :=
    match getph1 s iph1 iph1.localAddr iph1.remote with
    | some newIph1 => migratePh12 iph1 newIph1 s
    | none => s
  remph1 iph1 (discardPh2s iph1 s)

def expired (p : Ph1handle) : Ph1handle := { p with status := PHASE1ST_EXPIRED }

def isakmpPh1expire (iph1 : Ph1handle) (s : State) : State :=
  isakmpPh1delete iph1
    (if iph1.status < PHASE1ST_EXPIRED then s.setPh1 iph1.addr expired (fun _ => rfl) else s)

def ph1RekeyEnabled (iph1 : Ph1handle) : Bool :=
  match iph1.rmconf with
  | none => false
  | some rmconf =>
    rmconf.rekey = .FORCE || rmconf.rekey = .ON && iph1.dpdSupport && rmconf.dpdInterval ≠ 0

/-- An association is deleted, and the handle found for it with it. -/
def deleteSa (sa : SadbSa) (iph2 : Option Ph2handle) (s : State) : State :=
  let s := { s with sadb := s.sadb.delete sa }
  match iph2 with
  | some iph2 => remph2 iph2 s
  | none => s

/-- Whether an association goes from the one end to the other, either way. -/
def connects (iph1 : Ph1handle) (sa : SadbSa) : Bool :=
  cmpsaddr iph1.localAddr sa.src = .MATCH && cmpsaddr iph1.remote sa.dst = .MATCH ||
    cmpsaddr iph1.localAddr sa.dst = .MATCH && cmpsaddr iph1.remote sa.src = .MATCH

/-- One round of the loop of `purge_remote`. -/
def purgeRemoteSa (iph1 : Ph1handle) (newIph1 : Option Ph1handle) (s : State) (sa : SadbSa) :
    State :=
  if sa.state = .DEAD then s
  else if !connects iph1 sa then s
  else
    let iph2 := getph2bysaidx s (pfkey2ipsecdoiProto sa.satype) sa.spi
    let keep := newIph1.isSome && iph2.any fun iph2 =>
      iph2.ph1 ≠ none && iph2.ph1 ≠ some iph1.addr ||
        iph2.status = PHASE2ST_ESTABLISHED || iph2.status = PHASE2ST_EXPIRED
    if keep then s else deleteSa sa iph2 s

/-- `purge_remote`; `dump` says whether PF_KEY gives a dump. -/
def purgeRemote (dump : Bool) (iph1 : Ph1handle) (s : State) : State :=
  let s := s.setPh1 iph1.addr expired fun _ => rfl
  let newIph1 := getph1 s iph1 iph1.localAddr iph1.remote
  if !dump then s
  else isakmpPh1delete iph1 (s.sadb.entries.foldl (purgeRemoteSa iph1 newIph1) s)

/-- Whether `purge_ipsec_spi` looks for the SPI of an association. -/
def purgeable (dst0 : Sockaddr) (satype : Satype) (sa : SadbSa) : Bool :=
  sa.satype = satype && (sa.state = .MATURE || sa.state = .DYING) &&
    cmpsaddr dst0 sa.dst = .MATCH

/-- One round of the loop of `purge_ipsec_spi` over the associations. -/
def purgeSpiSa (dst0 : Sockaddr) (protoId : ℤ) (satype : Satype) (spi : List Buf) (s : State)
    (sa : SadbSa) : State :=
  if !purgeable dst0 satype sa then s
  else spi.foldl (fun s spi =>
    if spi ≠ sa.spi then s else deleteSa sa (getph2bysaidx s protoId spi) s) s

/-- `purge_ipsec_spi` with the SPIs it reads. -/
def purgeIpsecSpi (dump : Bool) (dst0 : Sockaddr) (protoId : ℤ) (spi : List Buf) (s : State) :
    State :=
  match ipsecdoi2pfkeyProto protoId with
  | none => s
  | some satype =>
    if !dump then s else s.sadb.entries.foldl (purgeSpiSa dst0 protoId satype spi) s

/-- One round of the loop of `isakmp_info_recv_initialcontact`. -/
def initialcontactSa (iph1 : Ph1handle) (protectedph2 : Option ℕ) (s : State) (sa : SadbSa) :
    State :=
  if ¬(sa.state = .MATURE ∨ sa.state = .DYING) then s
  else if !connects iph1 sa then s
  else
    match sa.satype with
    | .other _ => s
    | satype =>
      deleteSa sa ((getph2bysaidx s (pfkey2ipsecdoiProto satype) sa.spi).filter fun iph2 =>
        some iph2.addr ≠ protectedph2) s

/-- `isakmp_info_recv_initialcontact`, not in local test mode. -/
def isakmpInfoRecvInitialcontact (dump : Bool) (iph1 : Ph1handle) (protectedph2 : Option ℕ)
    (s : State) : State :=
  if !dump then s else s.sadb.entries.foldl (initialcontactSa iph1 protectedph2) s

end WanStack.Racoon.Handles
