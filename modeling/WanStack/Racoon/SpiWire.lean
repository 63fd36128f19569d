import WanStack.Racoon.Deletion
import WanStack.Racoon.Phase2Reply
import WanStack.Racoon.PropCheck
import WanStack.Racoon.ResponderLifetime
import WanStack.Racoon.SaDecoded

set_option autoImplicit false

/-!
# SPIs on the wire

The payloads made of an approval that carry an SPI: the notifications of
`isakmp_add_pl_n`, `isakmp_info_send_n2` and `quick_r3send`, the deletes of
`isakmp_info_send_d2`, and the proposals after `ipsecdoi_updatespi`. A CPI of two
bytes is the low half of the field `spi`.
-/
namespace WanStack.Racoon.SpiWire
open Aftr (Buf byteAt shortAt)
open Proposal
open Handles (ISAKMP_NPTYPE_NONCE PL_D_LEN delProtoId delSpiSize delNumSpi isakmpInfoRecvD
  purgeIpsecSpi wide listed)
open Quick (ISAKMP_NTYPE_CONNECTED PL_N_LEN)
open Lifetime (notifyBody)
open Phase2 (protoFor answerWith ipsecdoiUpdatespi wireProposals ReadAs)

/-- What `size_t` is, the type of `spisize`. -/
inductive DataModel where
  | ILP32
  | LP64
deriving DecidableEq, Repr

def DataModel.sizeofSizeT : DataModel → ℕ
  | .ILP32 => 4
  | .LP64 => 8

/-- A protocol as it is approved. The kernel draws the CPI of IPComp from two bytes. -/
structure Approved (pr : Saproto) : Prop where
  protocol : pr.protoId = IPSECDOI_PROTO_IPSEC_AH ∨ pr.protoId = IPSECDOI_PROTO_IPSEC_ESP ∨
    pr.protoId = IPSECDOI_PROTO_IPCOMP
  size : pr.spisize = 4 ∨ pr.protoId = IPSECDOI_PROTO_IPCOMP ∧ pr.spisize = 2
  length : pr.spi.length = 4
  cpi : pr.spisize = 2 → pr.spi.take 2 = [0, 0]

/-! ### Notifications -/

/-- A notification in its buffer, what is written behind the buffer, and the bytes
    stored as the SPI. -/
structure Notification where
  v : Buf
  beyond : Buf
  spi : Buf

/-- The buffer has room for `spisize` bytes and the data; the SPI is stored first. -/
def storeNotify (protoId : ℤ) (size spisize type : ℕ) (spi data : Buf) : Notification :=
  let room := spisize + data.length
  let area := patch (patch (List.replicate room 0) 0 spi) spisize data
  { v := payload ISAKMP_NPTYPE_NONE
      (long IPSEC_DOI ++ [u8 protoId, UInt8.ofNat size] ++ short type ++ area.take room)
    beyond := area.drop room
    spi := spi }

/-- The payload that `isakmp_add_pl_n` appends. -/
def isakmpAddPlN (type : ℕ) (pr : Saproto) (data : Buf) : Notification :=
  storeNotify pr.protoId pr.spisize pr.spisize type pr.spi data

/-- The payload of `isakmp_info_send_n2`, for the first protocol. -/
def isakmpInfoSendN2 (approval : Saprop) (type : ℕ) (data : Buf) : Option Notification :=
  approval.head.head?.map fun pr =>
    storeNotify pr.protoId pr.spisize pr.spisize type pr.spi data

/-- The payload of `quick_r3send`, whose size is the one of the field `spisize`. -/
def quickR3send (model : DataModel) (approval : Saprop) : Option Notification :=
  approval.head.head?.map fun pr =>
    storeNotify pr.protoId model.sizeofSizeT pr.spisize ISAKMP_NTYPE_CONNECTED
      (memcpy pr.spi pr.spisize) []

/-! ### Deletes -/

def sendD2 (pr : Saproto) : Buf :=
  payload ISAKMP_NPTYPE_NONE (long IPSEC_DOI ++ [u8 pr.protoId, UInt8.ofNat pr.spisize] ++ short 1 ++
    pr.spi.drop (4 - pr.spisize))

/-- The payloads of `isakmp_info_send_d2`, one in each message. -/
def isakmpInfoSendD2 (approval : Saprop) : List Buf := approval.head.map sendD2

/-! ### What is asked of a payload -/

def notifySpiSize (n : Buf) : ℕ := (byteAt n 9).toNat

/-- The SPI of a notification, in the low half of a field where it has two bytes. -/
def notifySpi (n : Buf) : Buf := wide (memcpy (n.drop PL_N_LEN) (notifySpiSize n))

structure NotifyCarries (pr : Saproto) (n : Notification) : Prop where
  announced : shortAt n.v 2 = n.v.length
  inside : n.beyond = []
  states : notifySpiSize n.v = n.spi.length
  decoded : notifySpi n.v = pr.spi

/-- `rest` is the memory behind the payload. -/
structure DeleteCarries (pr : Saproto) (d : Buf) : Prop where
  announced : shortAt d 2 = d.length
  states : delSpiSize d = (d.drop PL_D_LEN).length
  decoded : ∀ env iph1 s rest, isakmpInfoRecvD env iph1 (d ++ rest) true s =
    purgeIpsecSpi env.dump iph1.remote pr.protoId [pr.spi] s

/-- The SPI of a proposal as `aproppair2saprop` takes it. -/
def propSpi (p : PropPair) : Buf := wide (memcpy (p.prop.drop PL_P_LEN) (spiSize p.prop))

/-- A pair that is answered with, and the protocol it was approved as. -/
structure AnsweredBy (n : ℕ) (r : PropPair) (pr : Saproto) : Prop where
  answerable : Answerable .PH2 r
  number : pNo r.prop = n
  protocol : protoId r.prop = pr.protoId
  size : spiSize r.prop = pr.spisize
  trns : ∃ tr, pr.head = [tr] ∧ (tId (firstTrns r) : ℤ) = tr.trnsId

/-- The pairs of `sa_ret` with the protocols of the approval, in any order. -/
structure ApprovalOf (approval : Saprop) (xs : List (PropPair × Saproto)) (n : ℕ) : Prop where
  ne : xs ≠ []
  bound : n < MAXPROPPAIRLEN
  protocols : approval.head.Perm (xs.map Prod.snd)
  approved : ∀ x ∈ xs, Approved x.2
  answered : ∀ x ∈ xs, AnsweredBy n x.1 x.2

def saRet (xs : List (PropPair × Saproto)) : Buf :=
  getSabyproppair IPSEC_DOI IPSECDOI_SIT_IDENTITY_ONLY (xs.map Prod.fst)

/-- As many bytes are written into each proposal as its size says, and the payload reads
    as the SPIs of the protocols. -/
structure ProposalsCarry (approval : Saprop) (xs : List (PropPair × Saproto)) : Prop where
  states : ∀ x ∈ xs, ∀ pr, protoFor approval x.1 = some pr → pr.spisize = spiSize x.1.prop
  decoded : ∃ sa ps, ipsecdoiUpdatespi approval (saRet xs) = (true, sa) ∧
    wireProposals sa = some ps ∧ (ps.map propSpi = xs.map fun x => x.2.spi) ∧
    ∀ q, aproppair2saprop ps = some q → (q.head.map Saproto.spi = xs.map fun x => x.2.spi)

/-- Every payload with an SPI that is made of the approval. -/
structure Survives (model : DataModel) (approval : Saprop) (xs : List (PropPair × Saproto)) (type : ℕ)
    (data : Buf) : Prop where
  proposals : ProposalsCarry approval xs
  added : ∀ pr ∈ approval.head, NotifyCarries pr (isakmpAddPlN type pr data)
  sent : ∀ pr n, approval.head.head? = some pr → isakmpInfoSendN2 approval type data = some n →
    NotifyCarries pr n
  connected : ∀ pr n, approval.head.head? = some pr → quickR3send model approval = some n →
    NotifyCarries pr n
  deleted : List.Forall₂ DeleteCarries approval.head (isakmpInfoSendD2 approval)

variable {pr : Saproto} {type : ℕ} {data : Buf}

theorem Approved.size_le (h : Approved pr) : pr.spisize = 2 ∨ pr.spisize = 4 :=
  h.size.elim Or.inr fun hipcomp => Or.inl hipcomp.2

theorem Approved.u8_protoId (h : Approved pr) : ((u8 pr.protoId).toNat : ℤ) = pr.protoId := by
  cases h.protocol with
  | inl hah => rw [hah]; rfl
  | inr hrest =>
    cases hrest with
    | inl hesp => rw [hesp]; rfl
    | inr hipcomp => rw [hipcomp]; rfl

/-- The low half of a field that starts with zeros is the field. -/
theorem Approved.wide_spi (h : Approved pr) : wide (pr.spi.drop (4 - pr.spisize)) = pr.spi := by
  have hlen := h.length
  unfold wide
  rw [List.length_drop, hlen]
  cases h.size_le with
  | inl htwo =>
    rw [htwo]
    change [0, 0] ++ pr.spi.drop 2 = pr.spi
    rw [← h.cpi htwo, List.take_append_drop]
  | inr hfour =>
    rw [hfour]
    rfl

/-- What lies behind the header of a notification, and what is written behind the buffer. -/
theorem store_area {spi : Buf} {spisize : ℕ} (hspi : spisize ≤ spi.length) :
    patch (patch (List.replicate (spisize + data.length) 0) 0 spi) spisize data =
      spi.take spisize ++ data ++ spi.drop (spisize + data.length) := by
  have hinner : patch (List.replicate (spisize + data.length) 0) 0 spi =
      spi ++ List.replicate (spisize + data.length - spi.length) 0 := by
    unfold patch
    rw [List.take_zero, List.nil_append, Nat.zero_add, List.drop_replicate]
  rw [hinner]
  unfold patch
  rw [List.take_append_of_le_length hspi, List.drop_append]
  simp

theorem storeNotify_v {protoId : ℤ} {size spisize : ℕ} {spi : Buf} (hspi : spisize ≤ spi.length) :
    (storeNotify protoId size spisize type spi data).v = payload ISAKMP_NPTYPE_NONE
      (long IPSEC_DOI ++ [u8 protoId, UInt8.ofNat size] ++ short type ++ (spi.take spisize ++ data)) := by
  unfold storeNotify
  dsimp only
  rw [store_area hspi, List.take_left']
  simp [hspi]

theorem storeNotify_beyond {protoId : ℤ} {size spisize : ℕ} {spi : Buf} (hspi : spisize ≤ spi.length) :
    (storeNotify protoId size spisize type spi data).beyond = spi.drop (spisize + data.length) := by
  unfold storeNotify
  dsimp only
  rw [store_area hspi, List.drop_left']
  simp [hspi]

theorem storeNotify_length {protoId : ℤ} {size spisize : ℕ} {spi : Buf} (hspi : spisize ≤ spi.length) :
    (storeNotify protoId size spisize type spi data).v.length = PL_N_LEN + (spisize + data.length) := by
  rw [storeNotify_v hspi]
  simp [long, short, GEN_LEN, PL_N_LEN, hspi]
  omega

theorem storeNotify_size {protoId : ℤ} {size spisize : ℕ} {spi : Buf} (hspi : spisize ≤ spi.length) :
    notifySpiSize (storeNotify protoId size spisize type spi data).v = size % 256 := by
  rw [storeNotify_v hspi]
  rfl

theorem storeNotify_drop {protoId : ℤ} {size spisize : ℕ} {spi : Buf} (hspi : spisize ≤ spi.length) :
    (storeNotify protoId size spisize type spi data).v.drop PL_N_LEN = spi.take spisize ++ data := by
  rw [storeNotify_v hspi]
  rfl

theorem payload_announced (body : Buf) :
    shortAt (payload ISAKMP_NPTYPE_NONE body) 2 = (payload ISAKMP_NPTYPE_NONE body).length ↔
      (payload ISAKMP_NPTYPE_NONE body).length < 65536 := by
  constructor
  · intro h
    rw [← h]
    exact shortAt_lt _ _
  · intro h
    rw [payload_length] at h ⊢
    have hheader := (payload_header ISAKMP_NPTYPE_NONE body [] (by decide) h).2
    rwa [List.append_nil] at hheader

theorem storeNotify_announced {protoId : ℤ} {size spisize : ℕ} {spi : Buf} (hspi : spisize ≤ spi.length) :
    shortAt (storeNotify protoId size spisize type spi data).v 2 =
        (storeNotify protoId size spisize type spi data).v.length ↔
      PL_N_LEN + (spisize + data.length) < 65536 := by
  rw [← storeNotify_length hspi, storeNotify_v hspi]
  exact payload_announced _

/-- As `isakmp_add_pl_n` is modelled for the body of `quick_r2send`. -/
theorem isakmpAddPlN_v (h : Approved pr) : (isakmpAddPlN type pr data).v =
    payload ISAKMP_NPTYPE_NONE (notifyBody type pr data) := by
  have hlen := h.length
  have hle : pr.spisize ≤ pr.spi.length := by
    have hsize := h.size_le
    omega
  have hbyte : u8 (pr.spisize : ℤ) = UInt8.ofNat pr.spisize := by
    cases h.size_le with
    | inl htwo => rw [htwo]; rfl
    | inr hfour => rw [hfour]; rfl
  unfold isakmpAddPlN notifyBody
  rw [storeNotify_v hle, hbyte, List.take_append_of_le_length hle]
  simp

/-- Four bytes are stored for any size. -/
theorem isakmpAddPlN_carries_iff (h : Approved pr) : NotifyCarries pr (isakmpAddPlN type pr data) ↔
    pr.spisize = 4 ∧ PL_N_LEN + (4 + data.length) < 65536 := by
  have hlen := h.length
  have hle : pr.spisize ≤ pr.spi.length := by
    have hsize := h.size_le
    omega
  have hstated : notifySpiSize (isakmpAddPlN type pr data).v = pr.spisize := by
    have hsize := h.size_le
    unfold isakmpAddPlN
    rw [storeNotify_size hle]
    omega
  constructor
  · intro hcarries
    have hfour : pr.spisize = pr.spi.length := hstated ▸ hcarries.states
    rw [hlen] at hfour
    have hroom := (storeNotify_announced hle).mp hcarries.announced
    rw [hfour] at hroom
    exact ⟨hfour, hroom⟩
  · rintro ⟨hfour, hroom⟩
    constructor
    · apply (storeNotify_announced hle).mpr
      rw [hfour]
      exact hroom
    · change (storeNotify _ _ _ _ _ _).beyond = []
      rw [storeNotify_beyond hle]
      apply List.drop_of_length_le
      omega
    · rw [hstated, hfour]
      exact hlen.symm
    · unfold notifySpi
      rw [hstated, hfour]
      change wide (memcpy ((storeNotify _ _ _ _ _ _).v.drop PL_N_LEN) 4) = pr.spi
      rw [storeNotify_drop hle, hfour, ← hlen, List.take_length, memcpy_append]
      unfold wide
      rw [hlen]
      rfl

theorem isakmpInfoSendN2_carries_iff {approval : Saprop} {n : Notification} (h : Approved pr)
    (hhead : approval.head.head? = some pr) (hn : isakmpInfoSendN2 approval type data = some n) :
    NotifyCarries pr n ↔ pr.spisize = 4 ∧ PL_N_LEN + (4 + data.length) < 65536 := by
  unfold isakmpInfoSendN2 at hn
  rw [hhead] at hn
  rw [← Option.some.inj hn]
  exact isakmpAddPlN_carries_iff h

/-- The size stated is the one of a `size_t`, and the first bytes of the field are stored. -/
theorem quickR3send_carries_iff {model : DataModel} {approval : Saprop} {n : Notification}
    (h : Approved pr) (hhead : approval.head.head? = some pr)
    (hn : quickR3send model approval = some n) :
    NotifyCarries pr n ↔ pr.spisize = 4 ∧ model = .ILP32 := by
  unfold quickR3send at hn
  rw [hhead] at hn
  rw [← Option.some.inj hn]
  dsimp only
  have hle : pr.spisize ≤ (memcpy pr.spi pr.spisize).length := (memcpy_length _ _).ge
  have hstated : notifySpiSize (storeNotify pr.protoId model.sizeofSizeT pr.spisize ISAKMP_NTYPE_CONNECTED
      (memcpy pr.spi pr.spisize) []).v = model.sizeofSizeT := by
    rw [storeNotify_size hle]
    cases model <;> rfl
  constructor
  · intro hcarries
    have hsizes : model.sizeofSizeT = pr.spisize :=
      hstated ▸ hcarries.states.trans (memcpy_length _ _)
    have hsize := h.size_le
    cases model with
    | ILP32 => exact ⟨hsizes.symm, rfl⟩
    | LP64 =>
      have height : 8 = pr.spisize := hsizes
      omega
  · rintro ⟨hfour, rfl⟩
    have hspi : memcpy pr.spi 4 = pr.spi := by
      have hall := memcpy_append pr.spi []
      rwa [List.append_nil, h.length] at hall
    constructor
    · apply (storeNotify_announced hle).mpr
      rw [hfour]
      decide
    · rw [storeNotify_beyond hle]
      apply List.drop_of_length_le
      rw [memcpy_length]
      exact Nat.le_add_right _ _
    · rw [hstated, hfour]
      exact (memcpy_length _ _).symm
    · unfold notifySpi
      rw [hstated, storeNotify_drop hle, hfour, hspi]
      change wide (memcpy (pr.spi.take 4 ++ []) 4) = pr.spi
      rw [← h.length, List.take_length, memcpy_append]
      unfold wide
      rw [h.length]
      rfl

/-! ### The deletes arrive -/

theorem sendD2_length (h : Approved pr) : (sendD2 pr).length = PL_D_LEN + pr.spisize := by
  have hlen := h.length
  have hsize := h.size_le
  unfold sendD2
  rw [payload_length]
  simp [long, short, GEN_LEN, PL_D_LEN]
  omega

theorem sendD2_spiSize (h : Approved pr) : delSpiSize (sendD2 pr) = pr.spisize := by
  have hsize := h.size_le
  change pr.spisize % 256 = pr.spisize
  omega

theorem sendD2_drop : (sendD2 pr).drop PL_D_LEN = pr.spi.drop (4 - pr.spisize) := rfl

theorem sendD2_announced (h : Approved pr) : shortAt (sendD2 pr) 2 = (sendD2 pr).length := by
  have hsize := h.size_le
  apply (payload_announced _).mpr
  have hlen := sendD2_length h
  have htwelve : PL_D_LEN = 12 := rfl
  unfold sendD2 at hlen
  omega

theorem sendD2_numSpi : delNumSpi (sendD2 pr) = 1 := by
  change 0 * 256 + 1 = 1
  rfl

theorem sendD2_wellFormed (h : Approved pr) : Handles.WellFormed (sendD2 pr) where
  doi := by
    change (0 * 256 + 0) * 65536 + (0 * 256 + 1) = IPSEC_DOI
    rfl
  len := by rw [sendD2_announced h, sendD2_length h, sendD2_spiSize h, sendD2_numSpi, Nat.one_mul]
  whole := (sendD2_announced h).symm
  size := by
    have hproto : delProtoId (sendD2 pr) = pr.protoId := h.u8_protoId
    have hne : pr.protoId ≠ IPSECDOI_PROTO_ISAKMP := by
      rcases h.protocol with hp | hp | hp <;> rw [hp] <;> decide
    unfold Handles.SpiSizeOk
    rw [hproto, sendD2_spiSize h, if_neg hne]
    split_ifs with hipcomp
    · exact h.size_le
    · exact h.size.elim id fun htwo => absurd htwo.1 hipcomp

theorem sendD2_listed (h : Approved pr) : listed (sendD2 pr) = [pr.spi.drop (4 - pr.spisize)] := by
  have hlen : (pr.spi.drop (4 - pr.spisize)).length = pr.spisize := by
    have hfour := h.length
    have hsize := h.size_le
    rw [List.length_drop]
    omega
  have hall := memcpy_append (pr.spi.drop (4 - pr.spisize)) []
  rw [List.append_nil, hlen] at hall
  unfold listed
  rw [sendD2_spiSize h, sendD2_numSpi]
  change [memcpy ((sendD2 pr).drop PL_D_LEN) pr.spisize] = _
  rw [sendD2_drop, hall]

theorem sendD2_carries (h : Approved pr) : DeleteCarries pr (sendD2 pr) where
  announced := sendD2_announced h
  states := by
    rw [sendD2_spiSize h, List.length_drop, sendD2_length h, Nat.add_sub_cancel_left]
  decoded env iph1 s rest := by
    have hproto : delProtoId (sendD2 pr) = pr.protoId := h.u8_protoId
    have hne : pr.protoId ≠ IPSECDOI_PROTO_ISAKMP := by
      rcases h.protocol with hp | hp | hp <;> rw [hp] <;> decide
    have hread : Handles.ReadWhole (sendD2 pr) := ⟨fun _ => sendD2_numSpi, fun _ => sendD2_numSpi.le⟩
    rw [Handles.isakmpInfoRecvD_eq (sendD2_wellFormed h) rest hread (Or.inr rfl), hproto, if_neg hne,
      sendD2_listed h]
    change purgeIpsecSpi _ _ _ [wide (pr.spi.drop (4 - pr.spisize))] _ = _
    rw [h.wide_spi]

/-! ### The proposals -/

theorem protoOf_spi (p : PropPair) : (protoOf p).spi = propSpi p := by
  unfold propSpi wide
  rw [memcpy_length]
  rfl

theorem aproppair2saprop_spis {ps : List PropPair} {q : Saprop} (h : aproppair2saprop ps = some q) :
    q.head.map Saproto.spi = ps.map propSpi := by
  rw [aproppair2saprop_eq ps q h]
  change (ps.map protoOf).map Saproto.spi = ps.map propSpi
  rw [List.map_map]
  apply List.map_congr_left
  intro p _
  exact protoOf_spi p

variable {approval : Saprop} {xs : List (PropPair × Saproto)} {n : ℕ}

theorem protoFor_copied {q r : PropPair} (h : Copied q r) : protoFor approval q = protoFor approval r := by
  obtain ⟨t, ht, hsame⟩ := h.trns
  have hid : tId (firstTrns q) = tId (firstTrns r) := by
    unfold firstTrns
    rw [ht]
    exact hsame.id
  unfold protoFor
  rw [h.protocol, hid]

theorem ApprovalOf.protoFor_isSome (h : ApprovalOf approval xs n) {x : PropPair × Saproto}
    (hx : x ∈ xs) : ∃ pr, protoFor approval x.1 = some pr ∧ Approved pr := by
  have hanswered := h.answered x hx
  obtain ⟨tr, hhead, htr⟩ := hanswered.trns
  have hmem : x.2 ∈ approval.head := h.protocols.mem_iff.mpr (List.mem_map_of_mem hx)
  have hsome : (protoFor approval x.1).isSome := by
    unfold protoFor
    rw [List.find?_isSome]
    exact ⟨x.2, hmem, by simp [hanswered.protocol, hhead, htr]⟩
  obtain ⟨pr, hpr⟩ := Option.isSome_iff_exists.mp hsome
  have hin := h.protocols.mem_iff.mp (List.mem_of_find?_eq_some hpr)
  obtain ⟨y, hy, rfl⟩ := List.mem_map.mp hin
  exact ⟨y.2, hpr, h.approved y hy⟩

/-- The bytes written into the proposal of a pair. -/
def spiFor (approval : Saprop) (r : PropPair) : Buf :=
  (protoFor approval r).elim [] fun pr => pr.spi.drop (4 - pr.spisize)

theorem ApprovalOf.updated (h : ApprovalOf approval xs n)
    (hsizes : ∀ x ∈ xs, ∀ pr, protoFor approval x.1 = some pr → pr.spisize = spiSize x.1.prop) :
    ∃ sa ps, ipsecdoiUpdatespi approval (saRet xs) = (true, sa) ∧ wireProposals sa = some ps ∧
      ps.map propSpi = xs.map fun x => wide (spiFor approval x.1) := by
  have hlen : ∀ r ∈ xs.map Prod.fst, (spiFor approval r).length = spiSize r.prop := by
    intro r hr
    obtain ⟨x, hx, rfl⟩ := List.mem_map.mp hr
    obtain ⟨pr, hpr, happroved⟩ := h.protoFor_isSome hx
    have hfour := happroved.length
    have hsize := happroved.size_le
    have hstated := hsizes x hx pr hpr
    unfold spiFor
    rw [hpr]
    change (pr.spi.drop (4 - pr.spisize)).length = _
    rw [List.length_drop]
    omega
  have hupdate := Phase2.ipsecdoiUpdatespi_answerWith approval (xs.map Prod.fst) (by simpa using h.ne)
    (by
      intro r hr
      obtain ⟨x, hx, rfl⟩ := List.mem_map.mp hr
      exact (h.answered x hx).answerable)
    n h.bound
    (by
      intro r hr
      obtain ⟨x, hx, rfl⟩ := List.mem_map.mp hr
      exact (h.answered x hx).number)
    (spiFor approval) hlen
    (by
      intro r hr q hq
      obtain ⟨x, hx, rfl⟩ := List.mem_map.mp hr
      obtain ⟨pr, hpr, -⟩ := h.protoFor_isSome hx
      refine ⟨pr, (protoFor_copied hq).trans hpr, ?_⟩
      unfold spiFor
      rw [hpr]
      rfl)
  have hpairs : ∀ y ∈ (xs.map Prod.fst).map fun r => (spiFor approval r, r),
      y.1 = spiFor approval y.2 ∧ Phase2.Fits y ∧ Answerable .PH2 y.2 := by
    intro y hy
    obtain ⟨r, hr, rfl⟩ := List.mem_map.mp hy
    obtain ⟨x, hx, rfl⟩ := List.mem_map.mp hr
    have hanswerable := (h.answered x hx).answerable
    exact ⟨rfl, ⟨hlen _ hr, hanswerable.gen, hanswerable.room⟩, hanswerable⟩
  have hwire := Phase2.wireProposals_answerWith _ fun y hy => (hpairs y hy).2.1
  obtain ⟨ps, hps⟩ := Option.ne_none_iff_exists'.mp (hwire.2 (by
    intro y hy
    rw [trnsCopy_fit _ (hpairs y hy).2.2.fit]
    exact List.cons_ne_nil _ _))
  have hread := (hwire.1 ps hps).1
  have hspis : ps.map propSpi =
      ((xs.map Prod.fst).map fun r => (spiFor approval r, r)).map fun y => wide y.1 := by
    apply map_eq_of_forall₂ _ hread
    intro p y hp
    unfold propSpi
    rw [hp.spi]
  rw [List.map_map, List.map_map] at hspis
  exact ⟨_, ps, hupdate, hps, hspis⟩

/-- Each pair is written the SPI of the protocol that is found for it. -/
theorem ApprovalOf.proposalsCarry_iff (h : ApprovalOf approval xs n) : ProposalsCarry approval xs ↔
    ∀ x ∈ xs, ∀ pr, protoFor approval x.1 = some pr → pr.spisize = x.2.spisize ∧ pr.spi = x.2.spi := by
  have hwritten : ∀ x ∈ xs, ∀ pr, protoFor approval x.1 = some pr → wide (spiFor approval x.1) = pr.spi := by
    intro x hx pr hpr
    obtain ⟨pr', hpr', happroved⟩ := h.protoFor_isSome hx
    obtain rfl : pr = pr' := Option.some.inj (hpr.symm.trans hpr')
    unfold spiFor
    rw [hpr]
    exact happroved.wide_spi
  constructor
  · intro hcarry x hx pr hpr
    constructor
    · rw [← (h.answered x hx).size]
      exact hcarry.states x hx pr hpr
    · obtain ⟨sa, ps, hupdate, hps, hspis, -⟩ := hcarry.decoded
      obtain ⟨sa', ps', hupdate', hps', hspis'⟩ := h.updated hcarry.states
      obtain rfl : sa = sa' := (Prod.mk.inj (hupdate.symm.trans hupdate')).2
      obtain rfl : ps = ps' := Option.some.inj (hps.symm.trans hps')
      rw [← hwritten x hx pr hpr]
      exact (List.map_inj_left.mp (hspis'.symm.trans hspis)) x hx
  · intro hfound
    have hstates : ∀ x ∈ xs, ∀ pr, protoFor approval x.1 = some pr → pr.spisize = spiSize x.1.prop := by
      intro x hx pr hpr
      rw [(h.answered x hx).size]
      exact (hfound x hx pr hpr).1
    obtain ⟨sa, ps, hupdate, hps, hspis⟩ := h.updated hstates
    have hall : ps.map propSpi = xs.map fun x => x.2.spi := by
      rw [hspis]
      apply List.map_congr_left
      intro x hx
      obtain ⟨pr, hpr, -⟩ := h.protoFor_isSome hx
      rw [hwritten x hx pr hpr]
      exact (hfound x hx pr hpr).2
    exact ⟨hstates, sa, ps, hupdate, hps, hall, fun q hq => (aproppair2saprop_spis hq).trans hall⟩

theorem ApprovalOf.approved_head (h : ApprovalOf approval xs n) {pr : Saproto} (hpr : pr ∈ approval.head) :
    Approved pr := by
  obtain ⟨x, hx, rfl⟩ := List.mem_map.mp (h.protocols.mem_iff.mp hpr)
  exact h.approved x hx

theorem ApprovalOf.head_ne (h : ApprovalOf approval xs n) : approval.head ≠ [] := by
  intro hnil
  have hperm := h.protocols
  rw [hnil] at hperm
  exact h.ne (List.map_eq_nil_iff.mp hperm.symm.eq_nil)

/-- A size other than four is lost in each notification, and the one of a `size_t` that is
    not an SPI in the last message. -/
theorem spis_survive_iff (model : DataModel) (approval : Saprop) (xs : List (PropPair × Saproto)) (n : ℕ)
    (type : ℕ) (data : Buf) (h : ApprovalOf approval xs n) :
    Survives model approval xs type data ↔
      (∀ pr ∈ approval.head, pr.spisize = 4) ∧ model = .ILP32 ∧
      PL_N_LEN + (4 + data.length) < 65536 ∧
      ∀ x ∈ xs, ∀ pr, protoFor approval x.1 = some pr → pr.spi = x.2.spi := by
  obtain ⟨pr₀, prs, hcons⟩ := List.exists_cons_of_ne_nil h.head_ne
  have hmem : pr₀ ∈ approval.head := by
    rw [hcons]
    exact List.mem_cons_self
  have hfirst : approval.head.head? = some pr₀ := by
    rw [hcons]
    rfl
  have happroved := h.approved_head hmem
  have hfound := h.proposalsCarry_iff
  constructor
  · intro hsurvives
    have hadded : ∀ pr ∈ approval.head, pr.spisize = 4 ∧ PL_N_LEN + (4 + data.length) < 65536 :=
      fun pr hpr => (isakmpAddPlN_carries_iff (h.approved_head hpr)).mp (hsurvives.added pr hpr)
    have hn : quickR3send model approval = some (storeNotify pr₀.protoId model.sizeofSizeT pr₀.spisize
        ISAKMP_NTYPE_CONNECTED (memcpy pr₀.spi pr₀.spisize) []) := by
      unfold quickR3send
      rw [hfirst]
      rfl
    have hmodel := (quickR3send_carries_iff happroved hfirst hn).mp
      (hsurvives.connected pr₀ _ hfirst hn)
    refine ⟨fun pr hpr => (hadded pr hpr).1, hmodel.2, (hadded pr₀ hmem).2, ?_⟩
    intro x hx pr hpr
    exact (hfound.mp hsurvives.proposals x hx pr hpr).2
  · rintro ⟨hsizes, hmodel, hroom, hspis⟩
    constructor
    · apply hfound.mpr
      intro x hx pr hpr
      have hin : x.2 ∈ approval.head := h.protocols.mem_iff.mpr (List.mem_map_of_mem hx)
      constructor
      · rw [hsizes x.2 hin, hsizes pr (List.mem_of_find?_eq_some hpr)]
      · exact hspis x hx pr hpr
    · intro pr hpr
      exact (isakmpAddPlN_carries_iff (h.approved_head hpr)).mpr ⟨hsizes pr hpr, hroom⟩
    · intro pr n hpr hn
      have hhead := List.mem_of_mem_head? hpr
      exact (isakmpInfoSendN2_carries_iff (h.approved_head hhead) hpr hn).mpr ⟨hsizes pr hhead, hroom⟩
    · intro pr n hpr hn
      have hhead := List.mem_of_mem_head? hpr
      exact (quickR3send_carries_iff (h.approved_head hhead) hpr hn).mpr ⟨hsizes pr hhead, hmodel⟩
    · unfold isakmpInfoSendD2
      apply List.forall₂_map_right_iff.mpr
      apply List.forall₂_same.mpr
      intro pr hpr
      exact sendD2_carries (h.approved_head hpr)

/-- AES with keys of 128 bits, and deflation with a CPI of two bytes. -/
def espPair : PropPair :=
  { prop := [0, 0, 0, 40, 1, 3, 4, 1, 0, 0, 0, 0]
    trns := [[0, 0, 0, 28, 1, 12, 0, 0,
      128, 1, 0, 1, 128, 2, 14, 16, 128, 4, 0, 1, 128, 6, 0, 128, 128, 5, 0, 2]] }

def ipcompPair : PropPair :=
  { prop := [0, 0, 0, 30, 1, 4, 2, 1, 0, 0]
    trns := [[0, 0, 0, 20, 1, 2, 0, 0, 128, 1, 0, 1, 128, 2, 14, 16, 128, 4, 0, 1]] }

def approvedAs (p : PropPair) (spi : Buf) : Saproto := { protoOf p with spi := spi }

def approvalOf (pr : Saproto) : Saprop :=
  { propNo := 1, lifetime := 3600, lifebyte := 0, pfsGroup := 0, claim := 0, head := [pr] }

theorem espPair_approval : ApprovalOf (approvalOf (approvedAs espPair [1, 2, 3, 4]))
    [(espPair, approvedAs espPair [1, 2, 3, 4])] 1 where
  ne := List.cons_ne_nil _ _
  bound := by decide
  protocols := List.Perm.refl _
  approved x hx := by
    rw [List.mem_singleton.mp hx]
    exact ⟨Or.inr (Or.inl rfl), Or.inl rfl, rfl, fun h => absurd h (by decide)⟩
  answered x hx := by
    rw [List.mem_singleton.mp hx]
    exact ⟨⟨by decide, by decide, by decide, by decide +kernel, by decide +kernel⟩, rfl, rfl, rfl,
      _, rfl, rfl⟩

theorem ipcompPair_approval : ApprovalOf (approvalOf (approvedAs ipcompPair [0, 0, 18, 52]))
    [(ipcompPair, approvedAs ipcompPair [0, 0, 18, 52])] 1 where
  ne := List.cons_ne_nil _ _
  bound := by decide
  protocols := List.Perm.refl _
  approved x hx := by
    rw [List.mem_singleton.mp hx]
    exact ⟨Or.inr (Or.inr rfl), Or.inr ⟨rfl, rfl⟩, rfl, fun _ => rfl⟩
  answered x hx := by
    rw [List.mem_singleton.mp hx]
    exact ⟨⟨by decide, by decide, by decide, by decide +kernel, by decide +kernel⟩, rfl, rfl, rfl,
      _, rfl, rfl⟩

theorem esp_spi_survives : Survives .ILP32 (approvalOf (approvedAs espPair [1, 2, 3, 4]))
    [(espPair, approvedAs espPair [1, 2, 3, 4])] ISAKMP_NTYPE_CONNECTED [] := by
  apply (spis_survive_iff .ILP32 _ _ 1 ISAKMP_NTYPE_CONNECTED [] espPair_approval).mpr
  refine ⟨?_, rfl, by decide, ?_⟩
  · intro pr hpr
    rw [List.mem_singleton.mp hpr]
    rfl
  · intro x hx pr hpr
    rw [List.mem_singleton.mp hx, List.mem_singleton.mp (List.mem_of_find?_eq_some hpr)]

/-- A CPI of two bytes is lost with any `size_t`, and an SPI of ESP with one of eight bytes. -/
theorem spi_lost :
    (∃ approval xs n type data, ApprovalOf approval xs n ∧ ¬Survives .ILP32 approval xs type data) ∧
      ∃ approval xs n type data, ApprovalOf approval xs n ∧ (∀ pr ∈ approval.head, pr.spisize = 4) ∧
        ¬Survives .LP64 approval xs type data := by
  constructor
  · refine ⟨_, _, 1, ISAKMP_NTYPE_CONNECTED, [], ipcompPair_approval, ?_⟩
    intro hsurvives
    have happroved := ipcompPair_approval.approved_head List.mem_cons_self
    have hsize := ((isakmpAddPlN_carries_iff happroved).mp (hsurvives.added _ List.mem_cons_self)).1
    exact absurd hsize (by decide)
  · refine ⟨_, _, 1, ISAKMP_NTYPE_CONNECTED, [], espPair_approval, ?_, ?_⟩
    · intro pr hpr
      rw [List.mem_singleton.mp hpr]
      rfl
    · intro hsurvives
      have happroved := espPair_approval.approved_head List.mem_cons_self
      have hcarries := hsurvives.connected _ _ rfl rfl
      have hmodel := ((@quickR3send_carries_iff _ .LP64 (approvalOf (approvedAs espPair [1, 2, 3, 4])) _
        happroved rfl rfl).mp hcarries).2
      exact absurd hmodel (by decide)

end WanStack.Racoon.SpiWire
