import WanStack.Racoon.Pfkey

set_option autoImplicit false

/-!
# The SPIs of a bundle

`pk_sendgetspi` and `pk_recvgetspi` of `pfkey.c`, and `isakmp_post_getspi` of
`isakmp.c`. One request leaves for every protocol of the bundle, and the
negotiation is resumed once every protocol has an SPI.
-/
namespace WanStack.Racoon.GetSpi
open Aftr (Buf)
open Proposal (Saproto Saprop Side IPSECDOI_PROTO_IPSEC_AH IPSECDOI_PROTO_IPSEC_ESP
  IPSECDOI_PROTO_IPCOMP)
open Handles (Satype pfkey2ipsecdoiProto PHASE1ST_EXPIRED)
open Pfkey (Mode Encap ipsecdoi2pfkeyProto ipsecdoi2pfkeyMode extractPort)

def PHASE2ST_GETSPISENT : ℕ := 3
def PHASE2ST_GETSPIDONE : ℕ := 4

/-- The value of `pr->spi` before the kernel has answered. -/
def UNSET : Buf := [0, 0, 0, 0]

structure Ph1handle where
  status : ℕ
  encapsType : Encap
deriving DecidableEq, Repr

def chosen (side : Side) (proposal approval : Option Saprop) : Option Saprop :=
  match side with
  | .INITIATOR => proposal
  | .RESPONDER => approval

/-- A handle whose SPIs are asked for has the proposal they are for. -/
@[ext]
structure Ph2handle where
  side : Side
  status : ℕ
  seq : ℕ
  src : Sockaddr
  dst : Sockaddr
  saSrc : Option Sockaddr
  saDst : Option Sockaddr
  proposal : Option Saprop
  approval : Option Saprop
  ph1 : Ph1handle
  agreed : (chosen side proposal approval).isSome

def Ph2handle.pp (iph2 : Ph2handle) : Saprop :=
  (chosen iph2.side iph2.proposal iph2.approval).get iph2.agreed

def Ph2handle.setHead (iph2 : Ph2handle) (head : List Saproto) : Ph2handle :=
  { iph2 with
    proposal := if iph2.side = .INITIATOR then some { iph2.pp with head := head } else iph2.proposal
    approval := if iph2.side = .INITIATOR then iph2.approval else some { iph2.pp with head := head }
    agreed := by cases h : iph2.side <;> simp [chosen] }

/-! ### The requests -/

/-- The arguments of `pfkey_send_getspi_nat`, without the socket. -/
structure Request where
  satype : Satype
  mode : Mode
  src : Sockaddr
  dst : Sockaddr
  nattType : Option Encap
  sport : ℕ
  dport : ℕ
  minspi : ℕ
  maxspi : ℕ
  reqid : ℤ
  seq : ℕ
deriving DecidableEq, Repr

/-- The addresses of the associations: with MIPv6 not those of IKE. -/
def saAddrs (iph2 : Ph2handle) : Sockaddr × Sockaddr :=
  match iph2.saSrc, iph2.saDst with
  | some src, some dst => (src, dst)
  | _, _ => (iph2.src, iph2.dst)

/-- `natt_type`, `sport` and `dport`, which no round sets back. -/
structure Ports where
  nattType : Option Encap
  sport : ℕ
  dport : ℕ
deriving DecidableEq, Repr

/-- Linux takes four bytes for the SPI of IPComp, which has two of them. -/
def spiRange (satype : Satype) : ℕ × ℕ := if satype = .IPCOMP then (0x100, 0xffff) else (0, 0)

/-- The loop of `pk_sendgetspi`. `answers` says which of its calls go well. -/
def sendLoop (iph2 : Ph2handle) (answers : ℕ → Bool) :
    ℕ → Ports → List Saproto → List Request × Bool
  | _, _, [] => ([], true)
  | k, ports, pr :: rest =>
    match ipsecdoi2pfkeyProto pr.protoId, ipsecdoi2pfkeyMode pr.encmode with
    | some satype, some mode =>
      let src := (saAddrs iph2).1
      let dst := (saAddrs iph2).2
      let ports : Ports :=
        if pr.udpEncap then
          { nattType := some iph2.ph1.encapsType
            sport := extractPort src
            dport := extractPort dst }
        else ports
      let request : Request :=
        { satype := satype
          mode := mode
          src := dst
          dst := src
          nattType := ports.nattType
          sport := ports.dport
          dport := ports.sport
          minspi := (spiRange satype).1
          maxspi := (spiRange satype).2
          reqid := pr.reqidIn
          seq := iph2.seq }
      if answers k then
        let r := sendLoop iph2 answers (k + 1) ports rest
        (request :: r.1, r.2)
      else ([request], false)
    | _, _ => ([], false)

def pkSendgetspi (answers : ℕ → Bool) (iph2 : Ph2handle) : List Request × Bool :=
  sendLoop iph2 answers 0 { nattType := none, sport := 0, dport := 0 } iph2.pp.head

/-! ### The replies -/

/-- A message of type `SADB_GETSPI` with the extensions `pfkey_align` located. -/
structure Getspi where
  pid : ℕ
  seq : ℕ
  satype : Satype
  sa : Option Buf
  src : Option Sockaddr
  dst : Option Sockaddr
deriving DecidableEq, Repr

/-- `posted` lists the handles `isakmp_post_getspi` was called for, as they were. -/
structure State where
  ph2tree : List Ph2handle
  posted : List Ph2handle

def getph2byseq (ph2tree : List Ph2handle) (seq : ℕ) : Option Ph2handle :=
  ph2tree.find? fun p => p.seq = seq

/-- The handle `getph2byseq` finds is written through its pointer. -/
def State.write (s : State) (seq : ℕ) (iph2 : Ph2handle) : State :=
  { s with ph2tree := s.ph2tree.replaceF fun p => if p.seq = seq then some iph2 else none }

/-- `remph2` and `delph2` for the handle `getph2byseq` finds. -/
def State.delph2 (s : State) (seq : ℕ) : State :=
  { s with ph2tree := s.ph2tree.eraseP fun p => p.seq = seq }

structure Given where
  head : List Saproto
  allspiok : Bool
  notfound : Bool

/-- The loop of `pk_recvgetspi`. -/
def recvLoop (protoId : ℤ) (spi : Buf) : List Saproto → Given
  | [] => { head := [], allspiok := true, notfound := true }
  | pr :: rest =>
    let found := pr.protoId = protoId ∧ pr.spi = UNSET
    let pr := if found then { pr with spi := spi } else pr
    let r := recvLoop protoId spi rest
    { head := pr :: r.head
      allspiok := r.allspiok && pr.spi ≠ UNSET
      notfound := r.notfound && ¬found }

/-- `exchange` is the function of the exchange for the side and status of a handle. -/
def isakmpPostGetspi (exchange : Ph2handle → Option Ph2handle) (iph2 : Ph2handle) :
    Option Ph2handle :=
  if iph2.ph1.status ≥ PHASE1ST_EXPIRED then none else exchange iph2

def pkRecvgetspi (pid : ℕ) (exchange : Ph2handle → Option Ph2handle) (s : State) (msg : Getspi) :
    State × Bool :=
  match msg.sa, msg.dst, msg.src with
  | some spi, some _, some _ =>
    if msg.pid ≠ pid then (s, false) else
    match getph2byseq s.ph2tree msg.seq with
    | none => (s, false)
    | some iph2 =>
      if iph2.status ≠ PHASE2ST_GETSPISENT then (s, false) else
      let r := recvLoop (pfkey2ipsecdoiProto msg.satype) spi iph2.pp.head
      let iph2 := iph2.setHead r.head
      let s := s.write msg.seq iph2
      if r.notfound then (s, false)
      else if r.allspiok then
        let iph2 := { iph2 with status := PHASE2ST_GETSPIDONE }
        let s := { s.write msg.seq iph2 with posted := s.posted ++ [iph2] }
        match isakmpPostGetspi exchange iph2 with
        | none => (s.delph2 msg.seq, false)
        | some iph2 => (s.write msg.seq iph2, true)
      else (s, true)
  | _, _, _ => (s, false)

def recvAll (pid : ℕ) (exchange : Ph2handle → Option Ph2handle) (s : State)
    (msgs : List Getspi) : State :=
  msgs.foldl (fun s msg => (pkRecvgetspi pid exchange s msg).1) s

/-! ### One reply for a request -/

def answer (pid : ℕ) (request : Request) (spi : Buf) : Getspi where
  pid := pid
  seq := request.seq
  satype := request.satype
  sa := some spi
  src := some request.src
  dst := some request.dst

/-- The SPIs of a handle were asked for, and `replies` answer the requests in some order. -/
structure Answered (pid : ℕ) (answers : ℕ → Bool) (s : State) (iph2 : Ph2handle)
    (replies : List Getspi) : Prop where
  found : getph2byseq s.ph2tree iph2.seq = some iph2
  sent : iph2.status = PHASE2ST_GETSPISENT
  unset : ∀ pr ∈ iph2.pp.head, pr.spi = UNSET
  asked : (pkSendgetspi answers iph2).2
  spis : ∃ spis : List Buf, spis.length = (pkSendgetspi answers iph2).1.length ∧ spis.Nodup ∧
    UNSET ∉ spis ∧
    replies.Perm (List.zipWith (answer pid) (pkSendgetspi answers iph2).1 spis)

/-- The protocols of a bundle, whatever their SPIs. -/
def cleared (head : List Saproto) : List Saproto := head.map fun pr => { pr with spi := UNSET }

/-- Only the last of the replies resumes the negotiation, and then every protocol holds an SPI
    of its own. -/
def Allotted (pid : ℕ) (exchange : Ph2handle → Option Ph2handle) (s : State) (iph2 : Ph2handle)
    (replies : List Getspi) : Prop :=
  ∃ done : Ph2handle,
    (recvAll pid exchange s replies).posted = s.posted ++ [done] ∧
    (recvAll pid exchange s replies.dropLast).posted = s.posted ∧
    done.seq = iph2.seq ∧
    cleared done.pp.head = iph2.pp.head ∧
    (∀ pr ∈ done.pp.head, ∃! msg, msg ∈ replies ∧
      pfkey2ipsecdoiProto msg.satype = pr.protoId ∧ msg.sa = some pr.spi) ∧
    (done.pp.head.map Saproto.spi).Nodup

/-! ### The fields of a handle -/

@[simp]
theorem setHead_pp (iph2 : Ph2handle) (head : List Saproto) :
    (iph2.setHead head).pp = { iph2.pp with head := head } := by
  cases h : iph2.side <;> simp [Ph2handle.setHead, Ph2handle.pp, chosen, h]

@[simp]
theorem setHead_seq (iph2 : Ph2handle) (head : List Saproto) :
    (iph2.setHead head).seq = iph2.seq := rfl

@[simp]
theorem setHead_status (iph2 : Ph2handle) (head : List Saproto) :
    (iph2.setHead head).status = iph2.status := rfl

theorem setHead_proposal (iph2 : Ph2handle) (head : List Saproto) :
    (iph2.setHead head).proposal =
      if iph2.side = .INITIATOR then some { iph2.pp with head := head } else iph2.proposal := rfl

theorem setHead_approval (iph2 : Ph2handle) (head : List Saproto) :
    (iph2.setHead head).approval =
      if iph2.side = .INITIATOR then iph2.approval else some { iph2.pp with head := head } := rfl

@[simp]
theorem setHead_setHead (iph2 : Ph2handle) (head head' : List Saproto) :
    (iph2.setHead head).setHead head' = iph2.setHead head' := by
  have hside : (iph2.setHead head).side = iph2.side := rfl
  ext1
  case proposal =>
    rw [setHead_proposal, setHead_pp, hside, setHead_proposal, setHead_proposal]
    split_ifs <;> rfl
  case approval =>
    rw [setHead_approval, setHead_pp, hside, setHead_approval, setHead_approval]
    split_ifs <;> rfl
  all_goals rfl

theorem getph2byseq_write {ph2tree : List Ph2handle} {seq : ℕ} {iph2 p : Ph2handle}
    (hfound : getph2byseq ph2tree seq = some p) (hseq : iph2.seq = seq) :
    getph2byseq (ph2tree.replaceF fun p => if p.seq = seq then some iph2 else none) seq =
      some iph2 := by
  induction ph2tree with
  | nil => cases hfound
  | cons q rest ih =>
    by_cases hq : q.seq = seq
    · simp [List.replaceF, hq, getph2byseq, hseq]
    · have hrest : getph2byseq rest seq = some p := by
        simpa [getph2byseq, hq] using hfound
      have := ih hrest
      simpa [List.replaceF, hq, getph2byseq] using this

/-! ### One reply -/

/-- What a reply does to one protocol. -/
def give (protoId : ℤ) (spi : Buf) (pr : Saproto) : Saproto :=
  if pr.protoId = protoId ∧ pr.spi = UNSET then { pr with spi := spi } else pr

theorem recvLoop_head (protoId : ℤ) (spi : Buf) (head : List Saproto) :
    (recvLoop protoId spi head).head = head.map (give protoId spi) := by
  induction head with
  | nil => rfl
  | cons pr rest ih => simp [recvLoop, ih, give]

theorem recvLoop_allspiok (protoId : ℤ) (spi : Buf) (head : List Saproto) :
    (recvLoop protoId spi head).allspiok = true ↔
      ∀ pr ∈ head.map (give protoId spi), pr.spi ≠ UNSET := by
  induction head with
  | nil => simp [recvLoop]
  | cons pr rest ih =>
    rw [recvLoop, Bool.and_eq_true, ih, List.map_cons, List.forall_mem_cons, and_comm]
    simp [give]

theorem recvLoop_notfound (protoId : ℤ) (spi : Buf) (head : List Saproto) :
    (recvLoop protoId spi head).notfound = true ↔
      ∀ pr ∈ head, ¬(pr.protoId = protoId ∧ pr.spi = UNSET) := by
  induction head with
  | nil => simp [recvLoop]
  | cons pr rest ih =>
    rw [recvLoop, Bool.and_eq_true, ih, List.forall_mem_cons, and_comm]
    simp [imp_iff_not_or]

@[simp]
theorem give_protoId (protoId : ℤ) (spi : Buf) (pr : Saproto) :
    (give protoId spi pr).protoId = pr.protoId := by
  unfold give
  split <;> rfl

theorem give_set {pr : Saproto} (protoId : ℤ) (spi : Buf) (h : pr.spi ≠ UNSET) :
    give protoId spi pr = pr := by
  simp [give, h]

theorem give_other {pr : Saproto} {protoId : ℤ} (spi : Buf) (h : pr.protoId ≠ protoId) :
    give protoId spi pr = pr := by
  simp [give, h]

/-- A message that a handle in wait for its SPIs takes. -/
structure Taken (pid : ℕ) (seq : ℕ) (msg : Getspi) (spi : Buf) : Prop where
  pid : msg.pid = pid
  seq : msg.seq = seq
  sa : msg.sa = some spi
  src : msg.src.isSome
  dst : msg.dst.isSome

theorem pkRecvgetspi_taken {pid : ℕ} {msg : Getspi} {spi : Buf} {s : State} {iph2 : Ph2handle}
    (exchange : Ph2handle → Option Ph2handle)
    (htaken : Taken pid iph2.seq msg spi)
    (hfound : getph2byseq s.ph2tree iph2.seq = some iph2)
    (hsent : iph2.status = PHASE2ST_GETSPISENT)
    (hsome : ∃ pr ∈ iph2.pp.head, pr.protoId = pfkey2ipsecdoiProto msg.satype ∧ pr.spi = UNSET) :
    let head := iph2.pp.head.map (give (pfkey2ipsecdoiProto msg.satype) spi)
    let s' := (pkRecvgetspi pid exchange s msg).1
    ((∃ pr ∈ head, pr.spi = UNSET) → s'.posted = s.posted ∧
      getph2byseq s'.ph2tree iph2.seq = some (iph2.setHead head)) ∧
    ((∀ pr ∈ head, pr.spi ≠ UNSET) → s'.posted = s.posted ++
      [{ iph2.setHead head with status := PHASE2ST_GETSPIDONE }]) := by
  obtain ⟨src, hsrc⟩ := Option.isSome_iff_exists.mp htaken.src
  obtain ⟨dst, hdst⟩ := Option.isSome_iff_exists.mp htaken.dst
  have hnot : ¬(recvLoop (pfkey2ipsecdoiProto msg.satype) spi iph2.pp.head).notfound = true := by
    rw [recvLoop_notfound]
    push Not
    exact hsome
  simp only [pkRecvgetspi, htaken.sa, hsrc, hdst, htaken.pid, htaken.seq, hfound, hsent, ne_eq,
    not_true_eq_false, if_false, if_neg hnot, recvLoop_head]
  constructor
  · intro hopen
    have hall : ¬(recvLoop (pfkey2ipsecdoiProto msg.satype) spi iph2.pp.head).allspiok = true := by
      rw [recvLoop_allspiok]
      push Not
      exact hopen
    rw [if_neg hall]
    exact ⟨rfl, getph2byseq_write hfound rfl⟩
  · intro hdone
    rw [if_pos ((recvLoop_allspiok _ _ _).mpr hdone)]
    split <;> rfl

/-! ### All replies -/

/-- What a list of messages does to one protocol. -/
def giveAll (msgs : List Getspi) (pr : Saproto) : Saproto :=
  msgs.foldl (fun pr msg => give (pfkey2ipsecdoiProto msg.satype) (msg.sa.getD UNSET) pr) pr

@[simp]
theorem giveAll_protoId (msgs : List Getspi) (pr : Saproto) :
    (giveAll msgs pr).protoId = pr.protoId := by
  induction msgs generalizing pr with
  | nil => rfl
  | cons msg rest ih =>
    change (giveAll rest (give _ _ pr)).protoId = _
    rw [ih, give_protoId]

theorem giveAll_clear (msgs : List Getspi) (pr : Saproto) :
    { giveAll msgs pr with spi := UNSET } = { pr with spi := UNSET } := by
  induction msgs generalizing pr with
  | nil => rfl
  | cons msg rest ih =>
    change { giveAll rest (give _ _ pr) with spi := UNSET } = _
    rw [ih, give]
    split <;> rfl

theorem giveAll_set {pr : Saproto} (msgs : List Getspi) (h : pr.spi ≠ UNSET) :
    giveAll msgs pr = pr := by
  induction msgs with
  | nil => rfl
  | cons msg rest ih =>
    change giveAll rest (give _ _ pr) = pr
    rw [give_set _ _ h, ih]

/-- An unset protocol gets the SPI of a message of its own protocol. -/
theorem giveAll_unset {pr : Saproto} {msgs : List Getspi} (hunset : pr.spi = UNSET)
    (hspis : ∀ msg ∈ msgs, ∃ spi, msg.sa = some spi ∧ spi ≠ UNSET)
    (hsome : ∃ msg ∈ msgs, pfkey2ipsecdoiProto msg.satype = pr.protoId) :
    ∃ msg ∈ msgs, pfkey2ipsecdoiProto msg.satype = pr.protoId ∧
      msg.sa = some (giveAll msgs pr).spi := by
  induction msgs with
  | nil =>
    obtain ⟨msg, hmsg, -⟩ := hsome
    cases hmsg
  | cons first rest ih =>
    change ∃ msg ∈ first :: rest, pfkey2ipsecdoiProto msg.satype = pr.protoId ∧
      msg.sa = some (giveAll rest (give _ _ pr)).spi
    by_cases hfirst : pfkey2ipsecdoiProto first.satype = pr.protoId
    · obtain ⟨spi, hspi, hne⟩ := hspis first List.mem_cons_self
      have hgive : give (pfkey2ipsecdoiProto first.satype) (first.sa.getD UNSET) pr =
          { pr with spi := spi } := by
        simp [give, hfirst, hunset, hspi]
      rw [hgive, giveAll_set rest hne]
      exact ⟨first, List.mem_cons_self, hfirst, hspi⟩
    · rw [give_other _ (fun h => hfirst h.symm)]
      obtain ⟨msg, hmsg, hproto⟩ := hsome
      have hrest : msg ∈ rest := by
        rcases List.mem_cons.mp hmsg with rfl | hmsg
        · exact absurd hproto hfirst
        · exact hmsg
      obtain ⟨taken, htaken, hown⟩ :=
        ih (fun m hm => hspis m (List.mem_cons_of_mem _ hm)) ⟨msg, hrest, hproto⟩
      exact ⟨taken, List.mem_cons_of_mem _ htaken, hown⟩

/-- The replies still to come are the ones of the protocols that are unset, and none is
    for nothing. -/
structure Waiting (pid : ℕ) (iph2 : Ph2handle) (msgs : List Getspi) : Prop where
  sent : iph2.status = PHASE2ST_GETSPISENT
  taken : ∀ msg ∈ msgs, ∃ spi, spi ≠ UNSET ∧ Taken pid iph2.seq msg spi
  protos : (msgs.map fun msg => pfkey2ipsecdoiProto msg.satype).Nodup
  unset : ∀ pr ∈ iph2.pp.head, pr.spi = UNSET ↔
    ∃ msg ∈ msgs, pfkey2ipsecdoiProto msg.satype = pr.protoId
  wanted : ∀ msg ∈ msgs, ∃ pr ∈ iph2.pp.head, pr.protoId = pfkey2ipsecdoiProto msg.satype

theorem waiting_rest {pid : ℕ} {iph2 : Ph2handle} {msg : Getspi} {rest : List Getspi} {spi : Buf}
    (h : Waiting pid iph2 (msg :: rest)) (hspi : spi ≠ UNSET) :
    Waiting pid (iph2.setHead (iph2.pp.head.map (give (pfkey2ipsecdoiProto msg.satype) spi)))
      rest := by
  have hfresh : ∀ m ∈ rest, pfkey2ipsecdoiProto m.satype ≠ pfkey2ipsecdoiProto msg.satype := by
    intro m hm heq
    exact (List.nodup_cons.mp h.protos).1 (List.mem_map.mpr ⟨m, hm, heq⟩)
  refine ⟨h.sent, ?_, (List.nodup_cons.mp h.protos).2, ?_, ?_⟩
  · intro m hm
    exact h.taken m (List.mem_cons_of_mem _ hm)
  · intro pr hpr
    rw [setHead_pp] at hpr
    obtain ⟨old, hold, rfl⟩ := List.mem_map.mp hpr
    have hunset := h.unset old hold
    rw [give_protoId]
    by_cases hown : old.protoId = pfkey2ipsecdoiProto msg.satype
    · have hold : old.spi = UNSET := hunset.mpr ⟨msg, List.mem_cons_self, hown.symm⟩
      have hset : (give (pfkey2ipsecdoiProto msg.satype) spi old).spi = spi := by
        simp [give, hown, hold]
      rw [hset]
      constructor
      · intro hzero
        exact absurd hzero hspi
      · rintro ⟨m, hm, hproto⟩
        exact absurd (hproto.trans hown) (hfresh m hm)
    · rw [give_other spi hown, hunset]
      constructor
      · rintro ⟨m, hm, hproto⟩
        rcases List.mem_cons.mp hm with rfl | hm
        · exact absurd hproto.symm hown
        · exact ⟨m, hm, hproto⟩
      · rintro ⟨m, hm, hproto⟩
        exact ⟨m, List.mem_cons_of_mem _ hm, hproto⟩
  · intro m hm
    obtain ⟨pr, hpr, hproto⟩ := h.wanted m (List.mem_cons_of_mem _ hm)
    rw [setHead_pp]
    exact ⟨_, List.mem_map_of_mem hpr, by rw [give_protoId, hproto]⟩

/-- The replies up to the last one only fill in SPIs; the last one posts the handle. -/
theorem recvAll_waiting {pid : ℕ} {msgs : List Getspi} {s : State} {iph2 : Ph2handle}
    (exchange : Ph2handle → Option Ph2handle) (hne : msgs ≠ [])
    (hfound : getph2byseq s.ph2tree iph2.seq = some iph2) (h : Waiting pid iph2 msgs) :
    (recvAll pid exchange s msgs).posted = s.posted ++
        [{ iph2.setHead (iph2.pp.head.map (giveAll msgs)) with status := PHASE2ST_GETSPIDONE }] ∧
      (recvAll pid exchange s msgs.dropLast).posted = s.posted := by
  induction msgs generalizing s iph2 with
  | nil => exact absurd rfl hne
  | cons msg rest ih =>
    obtain ⟨spi, hspi, htaken⟩ := h.taken msg List.mem_cons_self
    obtain ⟨pr, hpr, hproto⟩ := h.wanted msg List.mem_cons_self
    have hunset : pr.spi = UNSET := (h.unset pr hpr).mpr ⟨msg, List.mem_cons_self, hproto.symm⟩
    obtain ⟨hopen, hlast⟩ :=
      pkRecvgetspi_taken exchange htaken hfound h.sent ⟨pr, hpr, hproto, hunset⟩
    have hrest := waiting_rest h hspi
    have hfill : ∀ head : List Saproto, head.map (giveAll (msg :: rest)) =
        (head.map (give (pfkey2ipsecdoiProto msg.satype) spi)).map (giveAll rest) := by
      intro head
      rw [List.map_map]
      apply List.map_congr_left
      intro pr _
      simp [giveAll, htaken.sa]
    rw [hfill]
    cases rest with
    | nil =>
      have hdone : ∀ pr ∈ iph2.pp.head.map (give (pfkey2ipsecdoiProto msg.satype) spi),
          pr.spi ≠ UNSET := by
        intro pr hpr hzero
        have := (hrest.unset pr (by rw [setHead_pp]; exact hpr)).mp hzero
        obtain ⟨m, hm, -⟩ := this
        cases hm
      refine ⟨?_, rfl⟩
      have hid : giveAll [] = id := rfl
      rw [hid, List.map_id]
      exact hlast hdone
    | cons next rest =>
      obtain ⟨pr', hpr', hproto'⟩ := hrest.wanted next List.mem_cons_self
      have hwait := (hrest.unset pr' hpr').mpr ⟨next, List.mem_cons_self, hproto'.symm⟩
      rw [setHead_pp] at hpr'
      obtain ⟨hposted, hfound'⟩ := hopen ⟨pr', hpr', hwait⟩
      obtain ⟨hall, hbefore⟩ := ih (List.cons_ne_nil _ _) hfound' hrest
      rw [hposted] at hall hbefore
      rw [setHead_pp, setHead_setHead] at hall
      exact ⟨hall, hbefore⟩

/-! ### The requests and their replies -/

theorem pfkey2ipsecdoiProto_of {protoId : ℤ} {satype : Satype}
    (h : ipsecdoi2pfkeyProto protoId = some satype) : pfkey2ipsecdoiProto satype = protoId := by
  unfold ipsecdoi2pfkeyProto at h
  split_ifs at h with hah hesp hipcomp
  all_goals
    cases h
    simp [pfkey2ipsecdoiProto, *]

theorem sendLoop_requests {iph2 : Ph2handle} {answers : ℕ → Bool} {k : ℕ} {ports : Ports}
    {head : List Saproto} (h : (sendLoop iph2 answers k ports head).2 = true) :
    ((sendLoop iph2 answers k ports head).1.map fun r => pfkey2ipsecdoiProto r.satype) =
        head.map Saproto.protoId ∧
      ∀ r ∈ (sendLoop iph2 answers k ports head).1, r.seq = iph2.seq := by
  induction head generalizing k ports with
  | nil => exact ⟨rfl, by simp [sendLoop]⟩
  | cons pr rest ih =>
    unfold sendLoop at h ⊢
    cases hproto : ipsecdoi2pfkeyProto pr.protoId with
    | none => simp [hproto] at h
    | some satype =>
      cases hmode : ipsecdoi2pfkeyMode pr.encmode with
      | none => simp [hproto, hmode] at h
      | some mode =>
        simp only [hproto, hmode] at h ⊢
        by_cases hanswer : answers k = true
        · rw [if_pos hanswer] at h ⊢
          obtain ⟨hprotos, hseqs⟩ := ih h
          constructor
          · rw [List.map_cons, List.map_cons, hprotos, pfkey2ipsecdoiProto_of hproto]
          · rw [List.forall_mem_cons]
            exact ⟨rfl, hseqs⟩
        · rw [if_neg hanswer] at h
          cases h

theorem answers_protos (pid : ℕ) {requests : List Request} {spis : List Buf}
    (h : spis.length = requests.length) :
    ((List.zipWith (answer pid) requests spis).map fun msg => pfkey2ipsecdoiProto msg.satype) =
      requests.map fun r => pfkey2ipsecdoiProto r.satype := by
  induction requests generalizing spis with
  | nil => rfl
  | cons r rest ih =>
    cases spis with
    | nil => cases h
    | cons spi spis =>
      have hlen : spis.length = rest.length := Nat.succ.inj h
      rw [List.zipWith_cons_cons, List.map_cons, List.map_cons, ih hlen]
      rfl

theorem answers_spis (pid : ℕ) {requests : List Request} {spis : List Buf}
    (h : spis.length = requests.length) :
    (List.zipWith (answer pid) requests spis).map Getspi.sa = spis.map some := by
  induction requests generalizing spis with
  | nil =>
    rw [List.length_eq_zero_iff.mp h]
    rfl
  | cons r rest ih =>
    cases spis with
    | nil => rfl
    | cons spi spis =>
      have hlen : spis.length = rest.length := Nat.succ.inj h
      rw [List.zipWith_cons_cons, List.map_cons, List.map_cons, ih hlen]
      rfl

section Replies

variable {pid : ℕ} {answers : ℕ → Bool} {s : State} {iph2 : Ph2handle} {replies : List Getspi}

theorem replies_protos (h : Answered pid answers s iph2 replies) :
    (replies.map fun msg => pfkey2ipsecdoiProto msg.satype).Perm
      (iph2.pp.head.map Saproto.protoId) := by
  obtain ⟨spis, hlen, -, -, hperm⟩ := h.spis
  have := hperm.map fun msg => pfkey2ipsecdoiProto msg.satype
  rw [answers_protos pid hlen] at this
  exact this.trans (List.Perm.of_eq (sendLoop_requests h.asked).1)

theorem replies_sas (h : Answered pid answers s iph2 replies) :
    (replies.map Getspi.sa).Nodup := by
  obtain ⟨spis, hlen, hnodup, -, hperm⟩ := h.spis
  have := hperm.map Getspi.sa
  rw [answers_spis pid hlen] at this
  rw [this.nodup_iff]
  exact hnodup.map (Option.some_injective _)

theorem replies_taken (h : Answered pid answers s iph2 replies) :
    ∀ msg ∈ replies, ∃ spi, spi ≠ UNSET ∧ Taken pid iph2.seq msg spi := by
  obtain ⟨spis, hlen, -, hset, hperm⟩ := h.spis
  intro msg hmsg
  have hzip := hperm.mem_iff.mp hmsg
  rw [← List.map_uncurry_zip_eq_zipWith] at hzip
  obtain ⟨⟨r, spi⟩, hmem, rfl⟩ := List.mem_map.mp hzip
  have hr := (List.of_mem_zip hmem).1
  have hspi := (List.of_mem_zip hmem).2
  have hseq := (sendLoop_requests h.asked).2 r hr
  exact ⟨spi, fun hzero => hset (hzero ▸ hspi), rfl, hseq, rfl, rfl, rfl⟩

theorem waiting_replies (h : Answered pid answers s iph2 replies)
    (hnodup : (iph2.pp.head.map Saproto.protoId).Nodup) : Waiting pid iph2 replies := by
  have hprotos := replies_protos h
  refine ⟨h.sent, replies_taken h, hprotos.nodup_iff.mpr hnodup, ?_, ?_⟩
  · intro pr hpr
    have hasked := hprotos.mem_iff.mpr (List.mem_map_of_mem hpr)
    rw [List.mem_map] at hasked
    exact iff_of_true (h.unset pr hpr) hasked
  · intro msg hmsg
    have hwanted := hprotos.mem_iff.mp (List.mem_map_of_mem hmsg)
    rwa [List.mem_map] at hwanted

/-- With one protocol of a kind each, the replies fill the bundle. -/
theorem allotted_of_nodup (exchange : Ph2handle → Option Ph2handle)
    (h : Answered pid answers s iph2 replies) (hne : iph2.pp.head ≠ [])
    (hnodup : (iph2.pp.head.map Saproto.protoId).Nodup) :
    Allotted pid exchange s iph2 replies := by
  have hwait := waiting_replies h hnodup
  have hsome : replies ≠ [] := by
    rintro rfl
    have := (replies_protos h).length_eq
    simp only [List.map_nil, List.length_nil, List.length_map] at this
    exact hne (List.length_eq_zero_iff.mp this.symm)
  obtain ⟨hposted, hbefore⟩ := recvAll_waiting exchange hsome h.found hwait
  have hown : ∀ pr ∈ iph2.pp.head, ∃ msg ∈ replies,
      pfkey2ipsecdoiProto msg.satype = pr.protoId ∧ msg.sa = some (giveAll replies pr).spi := by
    intro pr hpr
    apply giveAll_unset (h.unset pr hpr)
    · intro msg hmsg
      obtain ⟨spi, hspi, htaken⟩ := hwait.taken msg hmsg
      exact ⟨spi, htaken.sa, hspi⟩
    · exact (hwait.unset pr hpr).mp (h.unset pr hpr)
  have hsas := replies_sas h
  refine ⟨_, hposted, hbefore, rfl, ?_, ?_, ?_⟩
  · change cleared (iph2.setHead _).pp.head = _
    rw [setHead_pp]
    change cleared (iph2.pp.head.map (giveAll replies)) = _
    unfold cleared
    rw [List.map_map]
    calc
      _ = iph2.pp.head.map id := by
        apply List.map_congr_left
        intro pr hpr
        rw [Function.comp_apply, giveAll_clear, ← h.unset pr hpr]
        rfl
      _ = iph2.pp.head := List.map_id _
  · change ∀ pr ∈ (iph2.setHead _).pp.head, _
    rw [setHead_pp]
    intro pr hpr
    obtain ⟨old, hold, rfl⟩ := List.mem_map.mp hpr
    obtain ⟨msg, hmsg, hproto, hsa⟩ := hown old hold
    refine ⟨msg, ⟨hmsg, by rw [hproto, giveAll_protoId], hsa⟩, ?_⟩
    rintro other ⟨hother, -, hsame⟩
    exact List.inj_on_of_nodup_map hsas hother hmsg (hsame.trans hsa.symm)
  · change ((iph2.setHead _).pp.head.map Saproto.spi).Nodup
    rw [setHead_pp, List.map_map]
    apply hnodup.of_map.map_on
    intro pr hpr pr' hpr' hspi
    obtain ⟨msg, hmsg, hproto, hsa⟩ := hown pr hpr
    obtain ⟨msg', hmsg', hproto', hsa'⟩ := hown pr' hpr'
    have hspi : (giveAll replies pr).spi = (giveAll replies pr').spi := hspi
    have hmsgs : msg = msg' :=
      List.inj_on_of_nodup_map hsas hmsg hmsg' (by rw [hsa, hsa', hspi])
    have hprotos : pr.protoId = pr'.protoId := by rw [← hproto, ← hproto', hmsgs]
    exact List.inj_on_of_nodup_map hnodup hpr hpr' hprotos

end Replies

/-! ### One SPI for a protocol -/

/-- Two protocols of a kind have the same SPI, set or not. -/
def Shared (head : List Saproto) : Prop :=
  ∀ pr ∈ head, ∀ pr' ∈ head, pr.protoId = pr'.protoId → pr.spi = pr'.spi

theorem shared_give {head : List Saproto} (h : Shared head) (protoId : ℤ) (spi : Buf) :
    Shared (head.map (give protoId spi)) := by
  intro pr hpr pr' hpr' hproto
  obtain ⟨old, hold, rfl⟩ := List.mem_map.mp hpr
  obtain ⟨old', hold', rfl⟩ := List.mem_map.mp hpr'
  rw [give_protoId, give_protoId] at hproto
  have hsame := h old hold old' hold' hproto
  unfold give
  rw [← hproto, ← hsame]
  split
  · rfl
  · exact hsame

/-- In every state the handle in wait, or else the first one posted, shares its SPIs. -/
def Sharing (posted : List Ph2handle) (seq : ℕ) (s : State) : Prop :=
  (s.posted = posted ∧ ∃ iph2, getph2byseq s.ph2tree seq = some iph2 ∧ Shared iph2.pp.head) ∨
    ∃ done more, s.posted = posted ++ done :: more ∧ Shared done.pp.head

theorem pkRecvgetspi_cases (pid : ℕ) (exchange : Ph2handle → Option Ph2handle) (s : State)
    (msg : Getspi) :
    (pkRecvgetspi pid exchange s msg).1 = s ∨
      ∃ iph2 spi, getph2byseq s.ph2tree msg.seq = some iph2 ∧
        let next := iph2.setHead (iph2.pp.head.map (give (pfkey2ipsecdoiProto msg.satype) spi))
        (pkRecvgetspi pid exchange s msg).1 = s.write msg.seq next ∨
          (pkRecvgetspi pid exchange s msg).1.posted =
            s.posted ++ [{ next with status := PHASE2ST_GETSPIDONE }] := by
  unfold pkRecvgetspi
  split
  · rename_i spi dst src hsa hdst hsrc
    split
    · exact .inl rfl
    · cases hfound : getph2byseq s.ph2tree msg.seq with
      | none => exact .inl rfl
      | some iph2 =>
        simp only [recvLoop_head]
        split
        · exact .inl rfl
        · refine .inr ⟨iph2, spi, rfl, ?_⟩
          split
          · exact .inl rfl
          · split
            · right
              split <;> rfl
            · exact .inl rfl
  · exact .inl rfl

theorem sharing_step {pid : ℕ} {exchange : Ph2handle → Option Ph2handle} {s : State}
    {posted : List Ph2handle} {msg : Getspi} (h : Sharing posted msg.seq s) :
    Sharing posted msg.seq (pkRecvgetspi pid exchange s msg).1 := by
  rcases pkRecvgetspi_cases pid exchange s msg with hsame | ⟨iph2, spi, hfound, hnext⟩
  · rw [hsame]
    exact h
  · rcases h with ⟨hposted, p, hp, hshared⟩ | ⟨done, more, hposted, hshared⟩
    · rw [hfound] at hp
      cases hp
      have hgiven := shared_give hshared (pfkey2ipsecdoiProto msg.satype) spi
      rcases hnext with hwrite | hpost
      · left
        rw [hwrite]
        refine ⟨hposted, _, getph2byseq_write hfound ?_, ?_⟩
        · have := List.find?_some hfound
          simpa using this
        · rw [setHead_pp]
          exact hgiven
      · right
        refine ⟨_, [], by rw [hpost, hposted], ?_⟩
        change Shared (iph2.setHead _).pp.head
        rw [setHead_pp]
        exact hgiven
    · right
      rcases hnext with hwrite | hpost
      · exact ⟨done, more, by rw [hwrite]; exact hposted, hshared⟩
      · rw [hpost, hposted, List.append_assoc, List.cons_append]
        exact ⟨done, _, rfl, hshared⟩

theorem recvAll_sharing {pid seq : ℕ} {exchange : Ph2handle → Option Ph2handle} {s : State}
    {posted : List Ph2handle} {msgs : List Getspi} (h : Sharing posted seq s)
    (hseq : ∀ msg ∈ msgs, msg.seq = seq) :
    Sharing posted seq (recvAll pid exchange s msgs) := by
  induction msgs generalizing s with
  | nil => exact h
  | cons msg rest ih =>
    have hfirst := hseq msg List.mem_cons_self
    subst hfirst
    exact ih (sharing_step h) fun m hm => hseq m (List.mem_cons_of_mem _ hm)

theorem nodup_of_allotted {pid : ℕ} {answers : ℕ → Bool} {s : State} {iph2 : Ph2handle}
    {replies : List Getspi} {exchange : Ph2handle → Option Ph2handle}
    (h : Answered pid answers s iph2 replies) (hall : Allotted pid exchange s iph2 replies) :
    iph2.pp.head ≠ [] ∧ (iph2.pp.head.map Saproto.protoId).Nodup := by
  obtain ⟨done, hposted, -, -, hcleared, -, hspis⟩ := hall
  constructor
  · intro hnil
    have hlen := (replies_protos h).length_eq
    rw [hnil] at hlen
    have hreplies : replies = [] := by simpa using hlen
    rw [hreplies] at hposted
    have := congrArg List.length hposted
    simp [recvAll] at this
  · have hstart : Sharing s.posted iph2.seq s := by
      refine .inl ⟨rfl, iph2, h.found, ?_⟩
      intro pr hpr pr' hpr' _
      rw [h.unset pr hpr, h.unset pr' hpr']
    have hseq : ∀ msg ∈ replies, msg.seq = iph2.seq := by
      intro msg hmsg
      obtain ⟨spi, -, htaken⟩ := replies_taken h msg hmsg
      exact htaken.seq
    have hshared : Shared done.pp.head := by
      rcases recvAll_sharing hstart hseq with ⟨hnone, -⟩ | ⟨first, more, hmore, hshared⟩
      · have := congrArg List.length (hnone.symm.trans hposted)
        simp at this
      · have hfirst := List.append_cancel_left (hposted.symm.trans hmore)
        cases hfirst
        exact hshared
    have hprotos : iph2.pp.head.map Saproto.protoId = done.pp.head.map Saproto.protoId := by
      rw [← hcleared, cleared, List.map_map]
      rfl
    rw [hprotos]
    apply hspis.of_map.map_on
    intro pr hpr pr' hpr' hproto
    exact List.inj_on_of_nodup_map hspis hpr hpr' (hshared pr hpr pr' hpr' hproto)

/-- Every protocol gets an SPI of its own just where no two protocols are of a kind. -/
theorem spis_allotted_iff {pid : ℕ} {answers : ℕ → Bool} {s : State} {iph2 : Ph2handle}
    {replies : List Getspi} (exchange : Ph2handle → Option Ph2handle)
    (h : Answered pid answers s iph2 replies) :
    Allotted pid exchange s iph2 replies ↔
      iph2.pp.head ≠ [] ∧ (iph2.pp.head.map Saproto.protoId).Nodup := by
  constructor
  · exact nodup_of_allotted h
  · rintro ⟨hne, hnodup⟩
    exact allotted_of_nodup exchange h hne hnodup

def asking (protoIds : List ℤ) : Ph2handle where
  side := .INITIATOR
  status := PHASE2ST_GETSPISENT
  seq := 17
  src := .inet 1 500
  dst := .inet 2 500
  saSrc := none
  saDst := none
  proposal := some
    { propNo := 1
      lifetime := 3600
      lifebyte := 0
      pfsGroup := 0
      claim := 0
      head := protoIds.map fun protoId =>
        { protoId := protoId
          spisize := 4
          encmode := 1
          udpEncap := false
          spi := UNSET
          spiP := UNSET
          reqidOut := 0
          reqidIn := 0
          head := [] } }
  approval := none
  ph1 :=
    { status := 9
      encapsType := .ESPINUDP }
  agreed := rfl

/-- The messages of the kernel for `asking`. -/
def getspiOf (satype : Satype) (spi : Buf) : Getspi where
  pid := 40
  seq := 17
  satype := satype
  sa := some spi
  src := some (.inet 2 500)
  dst := some (.inet 1 500)

theorem spis_allotted_ah_esp :
    Allotted 40 some ⟨[asking [2, 3]], []⟩ (asking [2, 3])
        [getspiOf .ESP [0, 0, 1, 2], getspiOf .AH [0, 0, 1, 1]] ↔
      (asking [2, 3]).pp.head ≠ [] ∧ ((asking [2, 3]).pp.head.map Saproto.protoId).Nodup := by
  have hperm : [getspiOf .ESP [0, 0, 1, 2], getspiOf .AH [0, 0, 1, 1]].Perm
      [getspiOf .AH [0, 0, 1, 1], getspiOf .ESP [0, 0, 1, 2]] := List.Perm.swap _ _ _
  have hanswered : Answered 40 (fun _ => true) ⟨[asking [2, 3]], []⟩ (asking [2, 3])
      [getspiOf .ESP [0, 0, 1, 2], getspiOf .AH [0, 0, 1, 1]] :=
    { found := rfl
      sent := rfl
      unset := by decide +kernel
      asked := rfl
      spis := ⟨[[0, 0, 1, 1], [0, 0, 1, 2]], rfl, by decide +kernel, by decide +kernel, hperm⟩ }
  exact spis_allotted_iff some hanswered

/-- Two protocols of a kind take the SPI of the first reply both, and the second reply is
    refused. -/
theorem spis_not_allotted_esp_twice :
    ¬∀ (pid : ℕ) (answers : ℕ → Bool) (s : State) (iph2 : Ph2handle) (replies : List Getspi)
      (exchange : Ph2handle → Option Ph2handle), Answered pid answers s iph2 replies →
        iph2.pp.head ≠ [] → Allotted pid exchange s iph2 replies := by
  intro hall
  have hanswered : Answered 40 (fun _ => true) ⟨[asking [3, 3]], []⟩ (asking [3, 3])
      [getspiOf .ESP [0, 0, 1, 1], getspiOf .ESP [0, 0, 1, 2]] :=
    { found := rfl
      sent := rfl
      unset := by decide +kernel
      asked := rfl
      spis := ⟨[[0, 0, 1, 1], [0, 0, 1, 2]], rfl, by decide +kernel, by decide +kernel,
        List.Perm.refl _⟩ }
  have hallotted := hall 40 (fun _ => true) ⟨[asking [3, 3]], []⟩ (asking [3, 3])
    [getspiOf .ESP [0, 0, 1, 1], getspiOf .ESP [0, 0, 1, 2]] some hanswered (List.cons_ne_nil _ _)
  have hnodup := (nodup_of_allotted hanswered hallotted).2
  revert hnodup
  decide +kernel

end WanStack.Racoon.GetSpi
