import WanStack.Racoon.Phase2Approval
import WanStack.Racoon.SaDecoded

set_option autoImplicit false

/-!
# What the initiator accepts

Of a transform in a reply everything but the key length is as it was offered. The
key length is left to the check level, which asks for the same one at exact only.
-/
namespace WanStack.Racoon.Phase2
open Aftr (Buf byteAt shortAt)
open Proposal

/-! ### Tuples -/

/-- What is negotiated for a protocol, the mode without what NAT adds to it. -/
structure Tuple where
  protoId : ℤ
  trnsId : ℤ
  authtype : ℤ
  encklen : ℤ
  encmode : ℤ
deriving DecidableEq, Repr

def tupleOf (ph1 : Ph1) (pr : Saproto) (tr : Satrns) : Tuple :=
  { protoId := pr.protoId
    trnsId := tr.trnsId
    authtype := tr.authtype
    encklen := tr.encklen
    encmode := (adjustEncmode ph1 pr).encmode }

/-- The tuples of the payload sent; `setph2proposal0` leaves some transforms out. -/
def offered (ph1 : Ph1) (proposal : List Saprop) : List Tuple :=
  (proposal.flatMap Saprop.head).flatMap fun pr =>
    (pr.head.filter fun tr => !skipped pr tr).map (tupleOf ph1 (sentProto ph1 pr))

def approved (ph1 : Ph1) (approval : Saprop) : List Tuple :=
  approval.head.flatMap fun pr => pr.head.map (tupleOf ph1 pr)

/-- The key lengths offered with the rest of a tuple. -/
def keyLengths (ph1 : Ph1) (proposal : List Saprop) (x : Tuple) : List ℤ :=
  ((offered ph1 proposal).filter fun y => { y with encklen := x.encklen } = x).map Tuple.encklen

theorem mem_keyLengths (ph1 : Ph1) (proposal : List Saprop) (x : Tuple) :
    x.encklen ∈ keyLengths ph1 proposal x ↔ x ∈ offered ph1 proposal := by
  simp only [keyLengths, List.mem_map, List.mem_filter, decide_eq_true_eq]
  constructor
  · rintro ⟨y, ⟨hy, hsame⟩, hlen⟩
    have hyx : y = x := by rw [← hsame, ← hlen]
    exact hyx ▸ hy
  · intro hx
    exact ⟨x, ⟨hx, rfl⟩, rfl⟩

/-! ### The reply -/

/-- The proposal payloads of a reply, which are all of one number. -/
def replied (saRet : Buf) (l : ℕ) : Option (List PropPair) :=
  (getProppair saRet l .PH2).bind fun rpair =>
    ((List.range MAXPROPPAIRLEN).find? fun i => rpair i ≠ []).map rpair

/-- The first of our proposals, as sent, that the reply goes with. -/
def goesWith (ph1 : Ph1) (proposal : List Saprop) (ps : List PropPair) : Option Saprop :=
  (proposal.map (sentSaprop ph1)).find? fun q2 => FirstMatches ph1 .INITIATOR (decoded ps) q2

/-- The transform taken from a payload of the reply: the first that goes with one of the
    protocol of ours. -/
def taken (ph1 : Ph1) (own : Saprop) (p : PropPair) : Option Satrns :=
  (firstLike (protoOf p) own.head).bind fun pr2 =>
    findTrns ph1.pcheckLevel (p.trns.map trnsOf) pr2.head

/-- The key length of each transform taken from the reply was offered with the algorithms. -/
def LengthsOffered (ph1 : Ph1) (proposal : List Saprop) (saRet : Buf) (l : ℕ) : Prop :=
  ∀ ps ∈ replied saRet l, ∀ own ∈ goesWith ph1 proposal ps, ∀ p ∈ ps, ∀ tr ∈ taken ph1 own p,
    tr.encklen ∈ keyLengths ph1 proposal (tupleOf ph1 (protoOf p) tr)

/-! ### Where an approval comes from -/

section
variable {ph1 : Ph1} {pfsGroup : ℕ} {proposal : List Saprop} {saRet : Buf} {l : ℕ}
  {approval : Saprop} {sa : Buf}

/-- A protocol of the approval, made from a payload of the reply. -/
structure MadeOf (ph1 : Ph1) (own : Saprop) (p : PropPair) (pr : Saproto) : Prop where
  pr2 : ∃ pr2 ∈ own.head, pr2.protoId = protoId p.prop ∧
    (adjustEncmode ph1 (protoOf p)).encmode = (adjustEncmode ph1 pr2).encmode ∧
    ∀ tr ∈ taken ph1 own p, ∃ tr2 ∈ pr2.head, CommonTrns ph1.pcheckLevel tr tr2
  tuples : ∃ tr ∈ taken ph1 own p,
    pr.head.map (tupleOf ph1 pr) = [tupleOf ph1 (protoOf p) tr]

theorem madeOf_built (own : Saprop) (p : PropPair) (pr : Saproto)
    (h : built ph1 .INITIATOR own.head (protoOf p) = some pr) : MadeOf ph1 own p pr := by
  obtain ⟨pr2, hfirst, hmatch⟩ := Option.bind_eq_some_iff.mp h
  have hmatch : (matchProto ph1 (protoOf p) pr2).1 = some pr := hmatch
  obtain ⟨hmem, hid⟩ := firstLike_protoId hfirst
  rw [matchProto_new] at hmatch
  split_ifs at hmatch with hspi hmode
  obtain ⟨tr, htr, rfl⟩ := Option.map_eq_some_iff.mp hmatch
  have htaken : taken ph1 own p = some tr := by
    rw [taken, hfirst]
    exact htr
  constructor
  · refine ⟨pr2, hmem, hid, not_not.mp hmode, fun tr' htr' => ?_⟩
    rw [htaken] at htr'
    obtain rfl : tr = tr' := Option.some.inj htr'
    exact (findTrns_some htr).2
  · refine ⟨tr, htaken, ?_⟩
    have hadjusted : ∀ pr : Saproto, pr.encmode = (adjustEncmode ph1 (protoOf p)).encmode →
        pr.protoId = (protoOf p).protoId → tupleOf ph1 pr tr = tupleOf ph1 (protoOf p) tr := by
      intro pr hencmode hprotoId
      rw [tupleOf, tupleOf, adjusted_encmode (protoOf p) pr hencmode, hprotoId]
    exact congrArg (fun x => [x]) (hadjusted _ rfl (adjustEncmode_protoId ph1 _))

/-- The payloads of the reply, our proposal they go with, and the approval made of both. -/
theorem initiate_some (h : initiate ph1 pfsGroup proposal saRet l = some (approval, sa)) :
    ∃ n ps own, replied saRet l = some ps ∧ (∀ p ∈ ps, Listed .PH2 n p) ∧
      goesWith ph1 proposal ps = some own ∧ own ∈ proposal.map (sentSaprop ph1) ∧
      List.Forall₂ (MadeOf ph1 own) ps approval.head := by
  obtain ⟨sent, -, h⟩ := Option.bind_eq_some_iff.mp h
  obtain ⟨⟨spair, doi, sit⟩, -, h⟩ := Option.bind_eq_some_iff.mp h
  obtain ⟨rpair, hrpair, h⟩ := Option.bind_eq_some_iff.mp h
  have hlisted : ∀ n, ∀ p ∈ rpair n, Listed .PH2 n p := by
    obtain ⟨⟨pair, doi', sit'⟩, hpair, rfl⟩ := Option.map_eq_some_iff.mp hrpair
    exact (getProppairAndDoiSit_listed _ _ _ _ _ _ hpair).1
  split at h
  · rename_i n hn
    split_ifs at h
    obtain ⟨⟨approval', ret⟩, happroval, heq⟩ := Option.map_eq_some_iff.mp h
    obtain ⟨rfl, -⟩ := Prod.mk.inj heq
    obtain ⟨i, pr0, hlt, -, hdecoded, haccepted, -⟩ :=
      getPh2approval_some ph1 .INITIATOR _ _ _ _ happroval
    obtain ⟨own, hmem, hgoes, hown⟩ := firstAccepted_some ph1 .INITIATOR _ _ _ haccepted
    obtain rfl := aproppair2saprop_eq _ _ hdecoded
    have hne : rpair i ≠ [] := by
      intro hempty
      rw [hempty] at hdecoded
      exact absurd hdecoded (by simp [aproppair2saprop])
    have hi : (List.range MAXPROPPAIRLEN).find? (fun i => rpair i ≠ []) = some i := by
      have hmem : i ∈ (List.range MAXPROPPAIRLEN).filter fun i => rpair i ≠ [] :=
        List.mem_filter.mpr ⟨List.mem_range.mpr hlt, by simpa using hne⟩
      rw [hn] at hmem
      rw [← List.head?_filter, hn, List.mem_singleton.mp hmem]
      rfl
    refine ⟨i, rpair i, own, ?_, hlisted i, hgoes, hmem, ?_⟩
    · rw [replied, hrpair, Option.bind_some, hi]
      rfl
    · obtain ⟨_, _, _, _, head, -, -, hhead, rfl⟩ := (cmpsapropAlloc_new _ _ _ _ _).mp hown
      have hbuilt := (matchProtos_new ph1 .INITIATOR 0 _ (forall₂_like_refl ph1 own.head) head).mp hhead
      have hmap : List.Forall₂ (fun pr n => built ph1 .INITIATOR own.head pr = some n)
          ((rpair i).map protoOf) head := hbuilt
      exact (List.forall₂_map_left_iff.mp hmap).imp fun p pr hpr => madeOf_built own p pr hpr
  · exact absurd h (by simp)

/-! ### Nothing but the key length -/

theorem authOk_ne (protoId : ℤ) (tId : ℕ) (a : Attr) (h : authOk protoId tId a) :
    (a.lorv : ℤ) ≠ IPSECDOI_ATTR_AUTH_NONE := by
  intro hnone
  have hlorv : a.lorv = 254 := Int.natCast_inj.mp hnone
  simp [authOk, hlorv, ahOfAuth, IPSECDOI_ATTR_AUTH_HMAC_MD5, IPSECDOI_ATTR_AUTH_HMAC_SHA1,
    IPSECDOI_ATTR_AUTH_HMAC_SHA2_256, IPSECDOI_ATTR_AUTH_HMAC_SHA2_384,
    IPSECDOI_ATTR_AUTH_HMAC_SHA2_512] at h

/-- A transform without encryption states an authentication algorithm. -/
theorem auth_stated (t : Buf) (h : checkTransform IPSECDOI_PROTO_IPSEC_ESP t)
    (hnull : tId t = IPSECDOI_ESP_NULL) : (trnsOf t).authtype ≠ IPSECDOI_ATTR_AUTH_NONE := by
  have hattr : checkAttrIpsec IPSECDOI_PROTO_IPSEC_ESP t := (Bool.and_eq_true_iff.mp h).2
  unfold checkAttrIpsec at hattr
  dsimp only at hattr
  split_ifs at hattr with hall hah hseen
  have hseen : (attributes t).any fun a => a.type = IPSECDOI_ATTR_AUTH := by
    by_contra hno
    exact hseen ⟨rfl, hnull, by simpa using hno⟩
  rcases lastOf_mem IPSECDOI_ATTR_AUTH IPSECDOI_ATTR_AUTH_NONE (attributes t) with
    ⟨-, hno⟩ | ⟨a, ha, htype, hlast⟩
  · obtain ⟨a, ha, htype⟩ := List.any_eq_true.mp hseen
    exact absurd (of_decide_eq_true htype) (hno a ha)
  · have hok := List.all_eq_true.mp (by simpa using hall) a ha
    rw [ipsecAttrOk, htype, if_neg (by decide), if_pos rfl] at hok
    rw [trnsOf, hlast]
    exact authOk_ne _ _ a hok

/-- The transform taken was sent, up to the key length. -/
theorem taken_offered {n : ℕ} {p : PropPair} {own : Saprop} {pr : Saproto} {tr : Satrns}
    (hp : Listed .PH2 n p) (hown : own ∈ proposal.map (sentSaprop ph1))
    (hmade : MadeOf ph1 own p pr) (htr : tr ∈ taken ph1 own p) :
    ∃ y ∈ offered ph1 proposal, { y with encklen := tr.encklen } = tupleOf ph1 (protoOf p) tr ∧
      (ph1.pcheckLevel = .EXACT → y = tupleOf ph1 (protoOf p) tr) := by
  obtain ⟨pr2, hpr2, hid, hmode, htrns⟩ := hmade.pr2
  obtain ⟨tr2, htr2, hcommon⟩ := htrns tr htr
  obtain ⟨pp, hpp, rfl⟩ := List.mem_map.mp hown
  obtain ⟨pr2', hpr2', rfl⟩ := List.mem_map.mp hpr2
  have hsent : (sentProto ph1 pr2').protoId = pr2'.protoId ∧
      (sentProto ph1 pr2').head = pr2'.head := by
    unfold sentProto
    split <;> exact ⟨rfl, rfl⟩
  have hsame : ∀ encklen, ({ tupleOf ph1 (sentProto ph1 pr2') tr2 with encklen := encklen } : Tuple) =
      { tupleOf ph1 (protoOf p) tr with encklen := encklen } := by
    intro encklen
    simp only [tupleOf, ← hmode, hcommon.1, hcommon.2.1]
    rw [hid]
    rfl
  -- a transform that is left out states no authentication, the one taken does
  have hskipped : skipped pr2' tr2 = false := by
    by_contra hskipped
    obtain ⟨hesp, hnull, hnone⟩ : pr2'.protoId = IPSECDOI_PROTO_IPSEC_ESP ∧
        tr2.trnsId = IPSECDOI_ESP_NULL ∧ tr2.authtype = IPSECDOI_ATTR_AUTH_NONE := by
      simpa [skipped] using hskipped
    obtain ⟨x, -, hx⟩ := Option.bind_eq_some_iff.mp htr
    obtain ⟨t, ht, rfl⟩ := List.mem_map.mp (findTrns_some hx).1
    have hok := (getTransform_mem _ _ hp.found t ht).2.2
    rw [← hid, hsent.1, hesp] at hok
    have htId : tId t = IPSECDOI_ESP_NULL := Int.natCast_inj.mp (hcommon.1.trans hnull)
    exact auth_stated t hok htId (hcommon.2.1.trans hnone)
  refine ⟨tupleOf ph1 (sentProto ph1 pr2') tr2, ?_, hsame tr.encklen, fun hexact => ?_⟩
  · refine List.mem_flatMap.mpr ⟨pr2', List.mem_flatMap.mpr ⟨pp, hpp, hpr2'⟩, ?_⟩
    refine List.mem_map.mpr ⟨tr2, List.mem_filter.mpr ⟨hsent.2 ▸ htr2, ?_⟩, rfl⟩
    rw [hskipped]
    rfl
  · have hlen : tr.encklen = tr2.encklen := by
      have := hcommon.2.2
      rw [hexact] at this
      exact this
    have heq := hsame tr2.encklen
    rw [← hlen] at heq
    calc tupleOf ph1 (sentProto ph1 pr2') tr2
        = { tupleOf ph1 (sentProto ph1 pr2') tr2 with encklen := tr.encklen } := by
          rw [hlen]
          rfl
      _ = tupleOf ph1 (protoOf p) tr := heq

theorem approved_of_made {ps : List PropPair} {own : Saprop} {prs : List Saproto}
    (h : List.Forall₂ (MadeOf ph1 own) ps prs) (x : Tuple) :
    x ∈ (prs.flatMap fun pr => pr.head.map (tupleOf ph1 pr)) ↔
      ∃ p ∈ ps, ∃ tr ∈ taken ph1 own p, tupleOf ph1 (protoOf p) tr = x := by
  induction h with
  | nil => simp
  | @cons p pr ps prs hp _ ih =>
    obtain ⟨tr, htr, htuples⟩ := hp.tuples
    rw [List.flatMap_cons, htuples, List.mem_append, ih, List.mem_singleton, List.exists_mem_cons_iff]
    have hone : (∃ tr' ∈ taken ph1 own p, tupleOf ph1 (protoOf p) tr' = x) ↔
        x = tupleOf ph1 (protoOf p) tr := by
      rw [Option.mem_def.mp htr]
      simp [eq_comm]
    rw [hone]

end

/-! ### Offers of AES -/

def obeying : Ph1 :=
  { pcheckLevel := .OBEY
    natDetected := false
    natt := .rfc }

/-- A tunnel with AES of a key length, under the SPI of the one who sends it. -/
def aesTunnel (encklen : ℤ) (spi : List UInt8) : Saprop :=
  { propNo := 1
    lifetime := 28800
    lifebyte := 0
    pfsGroup := 0
    claim := 0
    head :=
      [{ protoId := IPSECDOI_PROTO_IPSEC_ESP
         spisize := 4
         encmode := IPSECDOI_ATTR_ENC_MODE_TUNNEL
         udpEncap := false
         spi := spi
         spiP := [0, 0, 0, 0]
         reqidOut := 0
         reqidIn := 0
         head :=
           [{ trnsNo := 1
              trnsId := IPSECDOI_ESP_AES
              encklen := encklen
              authtype := IPSECDOI_ATTR_AUTH_HMAC_SHA1 }] }] }

/-- The reply of a responder that takes AES with a key of 128 bits. -/
def aes128Reply : Buf :=
  [0, 0, 0, 1, 0, 0, 0, 1,
    0, 0, 0, 40, 1, 3, 4, 1, 9, 9, 9, 9,
    0, 0, 0, 28, 1, 12, 0, 0,
    128, 1, 0, 1, 128, 2, 112, 128, 128, 4, 0, 1, 128, 6, 0, 128, 128, 5, 0, 2]

end WanStack.Racoon.Phase2
