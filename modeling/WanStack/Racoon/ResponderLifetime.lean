import WanStack.Racoon.PropCheck
import WanStack.Racoon.QuickAuth
import WanStack.Racoon.SaChain

set_option autoImplicit false

/-!
# RESPONDER-LIFETIME

The body that `quick_r2send` builds, with the notifications of a lifetime that
the responder made shorter, and what the initiator makes of them.
-/
namespace WanStack.Racoon.Lifetime
open Aftr (Buf byteAt shortAt)
open Proposal (Saprop Saproto Ph1 PropCheck NattVersion IsakmpParse cmpsapropAlloc checkLevel GEN_LEN
  DATA_LEN IPSECDOI_ATTR_SA_LD_TYPE IPSECDOI_ATTR_SA_LD_TYPE_SEC IPSECDOI_ATTR_SA_LD_TYPE_KB
  IPSECDOI_ATTR_SA_LD IPSECDOI_ATTR_ENC_MODE_TRNS IPSECDOI_ATTR_ENC_MODE_UDPTRNS_RFC
  IPSECDOI_ATTR_ENC_MODE_UDPTRNS_DRAFT ISAKMP_NPTYPE_NONE isakmpParsewoh parseLoop payload chain
  links patch long u8 u32 isakmpSetAttrL isakmpSetAttrV longAt IPSEC_DOI)
open Handles (ISAKMP_NPTYPE_NONCE ISAKMP_NPTYPE_N notifyType)
open Quick (ISAKMP_NPTYPE_SA ISAKMP_NPTYPE_KE ISAKMP_NPTYPE_ID ISAKMP_NPTYPE_NATOA_RFC
  ISAKMP_NPTYPE_NATOA_DRAFT ISAKMP_NTYPE_RESPONDER_LIFETIME PL_N_LEN)

/-! ### The body -/

/-- What a payload holds, not so long that its length field wraps. -/
structure GenBody where
  v : Buf
  ne : v ≠ []
  fits : GEN_LEN + v.length < 65536

/-- What `quick_r2send` puts into the message. The NAT-OA are those it makes of
    the addresses; `dhpubP` is whether the initiator sent a KE payload. -/
structure R2 where
  proposal : List Saprop
  saRet : GenBody
  nonce : GenBody
  dhpubP : Bool
  dhpub : GenBody
  ids : Option (GenBody × GenBody)
  natOai : GenBody
  natOar : GenBody

def ipsecdoiTransportmode (pp : List Saprop) : Bool :=
  pp.all fun pp => pp.head.all fun pr =>
    pr.encmode = IPSECDOI_ATTR_ENC_MODE_TRNS || pr.encmode = IPSECDOI_ATTR_ENC_MODE_UDPTRNS_RFC ||
      pr.encmode = IPSECDOI_ATTR_ENC_MODE_UDPTRNS_DRAFT

def payloadNatOa : NattVersion → ℕ
  | .draft => ISAKMP_NPTYPE_NATOA_DRAFT
  | .rfc => ISAKMP_NPTYPE_NATOA_RFC

/-- The variable `natoa`. -/
def natoaType (ph1 : Ph1) (m : R2) : ℕ :=
  if ipsecdoiTransportmode m.proposal && ph1.natDetected then payloadNatOa ph1.natt
  else ISAKMP_NPTYPE_NONE

/-- A body, and the offset in it that `np_p` points to. -/
structure Body where
  buf : Buf
  npP : ℕ

def addSaNonce (m : R2) (next : ℕ) : Body :=
  let sa := payload ISAKMP_NPTYPE_NONCE m.saRet.v
  { buf := sa ++ payload next m.nonce.v
    npP := sa.length }

def addKe (m : R2) (next : ℕ) (b : Body) : Body :=
  { buf := b.buf ++ payload next m.dhpub.v
    npP := b.buf.length }

def addIds (ids : GenBody × GenBody) (next : ℕ) (b : Body) : Body :=
  let idci := b.buf ++ payload ISAKMP_NPTYPE_ID ids.1.v
  { buf := idci ++ payload next ids.2.v
    npP := idci.length }

/-- `np_p` is not moved on. -/
def addNatoa (m : R2) (natoa : ℕ) (b : Body) : Body :=
  { b with buf := b.buf ++ payload natoa m.natOai.v ++ payload ISAKMP_NPTYPE_NONE m.natOar.v }

/-- The body without notifications. -/
def r2Head (ph1 : Ph1) (m : R2) (pfsGroup : ℤ) : Body :=
  let natoa := natoaType ph1 m
  let ke : Bool := m.dhpubP && pfsGroup ≠ 0
  let afterKe := if m.ids.isNone then natoa else ISAKMP_NPTYPE_ID
  let b := addSaNonce m (if ke then ISAKMP_NPTYPE_KE else afterKe)
  let b := if ke then addKe m afterKe b else b
  let b := match m.ids with
    | none => b
    | some ids => addIds ids natoa b
  if natoa ≠ ISAKMP_NPTYPE_NONE then addNatoa m natoa b else b

/-! ### Notifications -/

/-- The attributes of the lifetimes that are claimed. -/
def lifetimeData (pp : Saprop) : Buf :=
  (if pp.claim &&& IPSECDOI_ATTR_SA_LD_TYPE_SEC ≠ 0 then
    isakmpSetAttrL IPSECDOI_ATTR_SA_LD_TYPE IPSECDOI_ATTR_SA_LD_TYPE_SEC ++
      isakmpSetAttrV IPSECDOI_ATTR_SA_LD (long (u32 pp.lifetime)) else []) ++
    if pp.claim &&& IPSECDOI_ATTR_SA_LD_TYPE_KB ≠ 0 then
      isakmpSetAttrL IPSECDOI_ATTR_SA_LD_TYPE IPSECDOI_ATTR_SA_LD_TYPE_KB ++
        isakmpSetAttrV IPSECDOI_ATTR_SA_LD (long (u32 pp.lifebyte)) else []

/-- The body of a notify payload. Of an SPI of four bytes as many are sent as its
    size says, and zeros behind them. -/
def notifyBody (type : ℕ) (pr : Saproto) (data : Buf) : Buf :=
  long IPSEC_DOI ++ [u8 pr.protoId, u8 pr.spisize] ++ short type ++
    (pr.spi ++ List.replicate pr.spisize 0).take pr.spisize ++ data

/-- `isakmp_add_pl_n`. -/
def isakmpAddPlN (b : Body) (type : ℕ) (pr : Saproto) (data : Buf) : Body :=
  let buf := patch b.buf b.npP [UInt8.ofNat ISAKMP_NPTYPE_N]
  { buf := buf ++ payload ISAKMP_NPTYPE_NONE (notifyBody type pr data)
    npP := buf.length }

/-- The body of the second message, for the approval `pp`. -/
def quickR2body (ph1 : Ph1) (m : R2) (pp : Saprop) : Buf :=
  let head := r2Head ph1 m pp.pfsGroup
  if lifetimeData pp = [] then head.buf else
  (pp.head.foldl (fun b pr =>
    isakmpAddPlN b ISAKMP_NTYPE_RESPONDER_LIFETIME pr (lifetimeData pp)) head).buf

/-! ### What is announced -/

/-- `pa` is one of the payloads that were added to the body, for `pr`, and it
    sets exactly the lifetimes that are shorter than those offered. -/
structure Announces (offer pp : Saprop) (head body : Buf) (pa : IsakmpParse) (pr : Saproto) : Prop where
  added : head.length ≤ body.length - pa.ptr.length
  type : notifyType pa.ptr = ISAKMP_NTYPE_RESPONDER_LIFETIME
  proto : byteAt pa.ptr 8 = u8 pr.protoId
  secs : ∀ secs kb, ((Quick.ipsecdoiParseResponderLifetime pa.ptr (secs, kb)).1 : ℤ) =
    if pp.lifetime < offer.lifetime then pp.lifetime else secs
  kb : ∀ secs kb, ((Quick.ipsecdoiParseResponderLifetime pa.ptr (secs, kb)).2 : ℤ) =
    if pp.lifebyte < offer.lifebyte then pp.lifebyte else kb

/-- A phase 2 handle of the initiator in front of the second message. -/
structure Waiting (offer : Saprop) (q : Quick.Exchange) : Prop where
  nonceP : q.nonceP = none
  dhpubP : q.dhpubP = none
  secs : q.lifetimeSecs = 0
  kb : q.lifetimeKb = 0
  sainfo : q.sainfoLifetime = some offer.lifetime

/-- The lifetimes of the SA: those that were announced, else those of the approval,
    which the initiator makes of the proposal it gets back. -/
def saLifetimes (level : PropCheck) (offer : Saprop) (e : Quick.Effects) : Option (ℤ × ℤ) :=
  (checkLevel level offer offer).map fun a =>
    (if e.secs ≠ 0 then (e.secs : ℤ) else a.1, if e.kb ≠ 0 then (e.kb : ℤ) else a.2.1)

/-- The responder announces what it approved, and the initiator ends with it. -/
def LifetimesAgree (ph1 : Ph1) (m : R2) (offer pp : Saprop) (env : Quick.Env) (q : Quick.Exchange)
    (s : Handles.State) (level : PropCheck) : Prop :=
  ∃ pays, isakmpParsewoh ISAKMP_NPTYPE_SA (quickR2body ph1 m pp) (quickR2body ph1 m pp).length =
      some pays ∧
    List.Forall₂
      (Announces offer pp (r2Head ph1 m pp.pfsGroup).buf (quickR2body ph1 m pp))
      (pays.filter fun pa => pa.type = ISAKMP_NPTYPE_N) pp.head ∧
    ∃ p, Quick.payloads env q Quick.i2Rules pays (Quick.i2Start q s) = .next p ∧
      saLifetimes level offer p.effects = some (pp.lifetime, pp.lifebyte)

/-! ### Chains of payloads of several types -/

/-- The type of the first payload of a chain, or what the chain ends with. -/
def nextType (segs : List (ℕ × Buf)) (np : ℕ) : ℕ := (segs.head?.map Prod.fst).getD np

/-- Payloads with their types, the last of which announces `np`. -/
def mixed : List (ℕ × Buf) → ℕ → Buf
  | [], _ => []
  | seg :: segs, np => payload (nextType segs np) seg.2 ++ mixed segs np

/-- What the walker finds in them. -/
def founds : List (ℕ × Buf) → ℕ → Buf → List IsakmpParse
  | [], _, _ => []
  | seg :: segs, np, rest =>
    { type := seg.1
      ptr := mixed (seg :: segs) np ++ rest
      len := GEN_LEN + seg.2.length } :: founds segs np rest

/-- The types and bodies that the walker takes. -/
def Walkable (segs : List (ℕ × Buf)) : Prop :=
  ∀ seg ∈ segs, seg.1 ≠ 0 ∧ seg.1 < 256 ∧ seg.2 ≠ [] ∧ GEN_LEN + seg.2.length < 65536

section Mixed
variable (xs ys : List (ℕ × Buf)) (np : ℕ) (rest : Buf)

theorem nextType_append : nextType (xs ++ ys) np = nextType xs (nextType ys np) := by
  cases xs <;> rfl

theorem mixed_append : mixed (xs ++ ys) np = mixed xs (nextType ys np) ++ mixed ys np := by
  induction xs with
  | nil => rfl
  | cons seg xs ih => rw [List.cons_append, mixed, mixed, nextType_append, ih, List.append_assoc]

theorem mixed_snoc (seg : ℕ × Buf) : mixed (xs ++ [seg]) np = mixed xs seg.1 ++ payload np seg.2 := by
  rw [mixed_append]
  exact congrArg _ (List.append_nil _)

theorem founds_append : founds (xs ++ ys) np rest =
    founds xs (nextType ys np) (mixed ys np ++ rest) ++ founds ys np rest := by
  induction xs with
  | nil => rfl
  | cons seg xs ih =>
    have hhead : mixed (seg :: (xs ++ ys)) np ++ rest =
        mixed (seg :: xs) (nextType ys np) ++ (mixed ys np ++ rest) := by
      rw [← List.append_assoc, ← mixed_append]
      rfl
    rw [List.cons_append, founds, founds, List.cons_append, ih, hhead]

/-- The walker goes over a chain and on with what is behind it. -/
theorem parseLoop_mixed (h : Walkable xs) (hnp : np < 256) (tlen k : ℕ)
    (hk : (mixed xs np).length + tlen ≤ k) :
    ∃ k', tlen ≤ k' ∧
      parseLoop k (nextType xs np) (mixed xs np ++ rest) ((mixed xs np).length + tlen : ℕ) =
        (parseLoop k' np rest tlen).map (founds xs np rest ++ ·) := by
  induction xs generalizing k with
  | nil =>
    refine ⟨k, by simpa [mixed] using hk, ?_⟩
    simp [mixed, founds, nextType]
  | cons seg xs ih =>
    obtain ⟨htype, -, hne, hlen⟩ := h seg List.mem_cons_self
    have hxs : Walkable xs := fun x hx => h x (List.mem_cons_of_mem _ hx)
    have hnext : nextType xs np < 256 := by
      cases xs with
      | nil => exact hnp
      | cons x xs => exact (hxs x List.mem_cons_self).2.1
    rw [mixed, List.length_append, Proposal.payload_length] at hk
    have hgen : GEN_LEN = 4 := rfl
    obtain ⟨k, rfl⟩ : ∃ j, k = j + 1 := ⟨k - 1, by omega⟩
    obtain ⟨k', hk', hrest⟩ := ih hxs k (by omega)
    refine ⟨k', hk', ?_⟩
    have hsize : (mixed (seg :: xs) np).length + tlen =
        GEN_LEN + seg.2.length + ((mixed xs np).length + tlen) := by
      rw [mixed, List.length_append, Proposal.payload_length]
      omega
    rw [hsize]
    change parseLoop (k + 1) seg.1 (payload _ _ ++ mixed xs np ++ rest) _ = _
    rw [List.append_assoc, Proposal.parseLoop_payload k seg.1 _ seg.2 _ _ htype hnext hlen hne, hrest,
      Option.map_map]
    simp only [founds, mixed, List.append_assoc, List.cons_append]
    rfl

/-- A chain that ends is walked over whole, whatever is behind it. -/
theorem isakmpParsewoh_mixed (h : Walkable xs) :
    isakmpParsewoh (nextType xs ISAKMP_NPTYPE_NONE) (mixed xs ISAKMP_NPTYPE_NONE ++ rest)
      (mixed xs ISAKMP_NPTYPE_NONE ++ rest).length = some (founds xs ISAKMP_NPTYPE_NONE rest) := by
  obtain ⟨k', -, hparse⟩ := parseLoop_mixed xs ISAKMP_NPTYPE_NONE rest h (by decide) rest.length
    (mixed xs ISAKMP_NPTYPE_NONE ++ rest).length (by simp)
  have hend : parseLoop k' ISAKMP_NPTYPE_NONE rest rest.length = some [] := by
    cases k' with
    | zero => rfl
    | succ k' => rw [parseLoop, if_pos (.inr rfl)]
  rw [hend] at hparse
  rw [isakmpParsewoh, List.length_append, Int.toNat_natCast]
  rw [List.length_append] at hparse
  rw [hparse]
  simp

end Mixed

/-! ### The payloads of the message -/

section Body
variable (ph1 : Ph1) (m : R2) (pp : Saprop)

/-- The payloads in front of the NAT-OA. -/
def front (pfsGroup : ℤ) : List (ℕ × Buf) :=
  [(ISAKMP_NPTYPE_SA, m.saRet.v), (ISAKMP_NPTYPE_NONCE, m.nonce.v)] ++
    (if m.dhpubP && pfsGroup ≠ 0 then [(ISAKMP_NPTYPE_KE, m.dhpub.v)] else []) ++
    match m.ids with
    | none => []
    | some ids => [(ISAKMP_NPTYPE_ID, ids.1.v), (ISAKMP_NPTYPE_ID, ids.2.v)]

/-- The NAT-OA behind them, when the type is `natoa`; the first is announced by
    what is in front of it. -/
def natoaTail (natoa : ℕ) : Buf :=
  if natoa ≠ ISAKMP_NPTYPE_NONE then
    payload natoa m.natOai.v ++ payload ISAKMP_NPTYPE_NONE m.natOar.v else []

/-- `np_p` points to the last payload in front of the NAT-OA. -/
theorem r2Head_eq (pfsGroup : ℤ) : ∃ init last, front m pfsGroup = init ++ [last] ∧
    (r2Head ph1 m pfsGroup).npP = (mixed init last.1).length ∧
    (r2Head ph1 m pfsGroup).buf =
      mixed (init ++ [last]) (natoaType ph1 m) ++ natoaTail m (natoaType ph1 m) := by
  have hnatoa : ∀ b : Body,
      (if natoaType ph1 m ≠ ISAKMP_NPTYPE_NONE then addNatoa m (natoaType ph1 m) b else b) =
        { b with buf := b.buf ++ natoaTail m (natoaType ph1 m) } := by
    intro b
    unfold natoaTail addNatoa
    by_cases h : natoaType ph1 m = ISAKMP_NPTYPE_NONE
    · simp [h]
    · simp [h]
  unfold r2Head front
  simp only [hnatoa]
  cases hke : (m.dhpubP && decide (pfsGroup ≠ 0)) with
  | false =>
    cases hids : m.ids with
    | none =>
      exact ⟨[(ISAKMP_NPTYPE_SA, m.saRet.v)], (ISAKMP_NPTYPE_NONCE, m.nonce.v), by simp,
        by simp [addSaNonce, mixed, nextType], by simp [addSaNonce, mixed, nextType]⟩
    | some ids =>
      exact ⟨[(ISAKMP_NPTYPE_SA, m.saRet.v), (ISAKMP_NPTYPE_NONCE, m.nonce.v),
        (ISAKMP_NPTYPE_ID, ids.1.v)], (ISAKMP_NPTYPE_ID, ids.2.v), by simp,
        by simp [addSaNonce, addIds, mixed, nextType, Nat.add_assoc],
        by simp [addSaNonce, addIds, mixed, nextType]⟩
  | true =>
    cases hids : m.ids with
    | none =>
      exact ⟨[(ISAKMP_NPTYPE_SA, m.saRet.v), (ISAKMP_NPTYPE_NONCE, m.nonce.v)],
        (ISAKMP_NPTYPE_KE, m.dhpub.v), by simp,
        by simp [addSaNonce, addKe, mixed, nextType],
        by simp [addSaNonce, addKe, mixed, nextType]⟩
    | some ids =>
      exact ⟨[(ISAKMP_NPTYPE_SA, m.saRet.v), (ISAKMP_NPTYPE_NONCE, m.nonce.v),
        (ISAKMP_NPTYPE_KE, m.dhpub.v), (ISAKMP_NPTYPE_ID, ids.1.v)], (ISAKMP_NPTYPE_ID, ids.2.v),
        by simp, by simp [addSaNonce, addKe, addIds, mixed, nextType, Nat.add_assoc],
        by simp [addSaNonce, addKe, addIds, mixed, nextType]⟩

/-- The notifications that are added. -/
def notifications (prs : List Saproto) (data : Buf) : List (ℕ × Buf) :=
  prs.map fun pr => (ISAKMP_NPTYPE_N, notifyBody ISAKMP_NTYPE_RESPONDER_LIFETIME pr data)

theorem patch_payload (pre : Buf) (t np : ℕ) (v more : Buf) :
    patch (pre ++ (payload t v ++ more)) pre.length [UInt8.ofNat np] =
      pre ++ (payload np v ++ more) := by
  have hsplit : ∀ np, pre ++ (payload np v ++ more) =
      pre ++ ([UInt8.ofNat np] ++ ([0] ++ Racoon.short (GEN_LEN + v.length) ++ v ++ more)) := by
    intro np
    simp [payload]
  rw [hsplit, hsplit]
  exact Proposal.patch_at _ _ _ _ _ rfl rfl

/-- The first notification is announced where `np_p` points to, each other one by
    the one in front of it. -/
theorem addNotifications (prs : List Saproto) (pr : Saproto) (data pre : Buf) (t : ℕ) (v more : Buf) :
    ((pr :: prs).foldl (fun b pr => isakmpAddPlN b ISAKMP_NTYPE_RESPONDER_LIFETIME pr data)
        { buf := pre ++ (payload t v ++ more)
          npP := pre.length }).buf =
      pre ++ (payload ISAKMP_NPTYPE_N v ++ more) ++
        mixed (notifications (pr :: prs) data) ISAKMP_NPTYPE_NONE := by
  induction prs generalizing pr pre t v more with
  | nil => simp [isakmpAddPlN, patch_payload, notifications, mixed, nextType]
  | cons next prs ih =>
    rw [List.foldl_cons, isakmpAddPlN, patch_payload]
    have hstart := ih next (pre ++ (payload ISAKMP_NPTYPE_N v ++ more)) ISAKMP_NPTYPE_NONE
      (notifyBody ISAKMP_NTYPE_RESPONDER_LIFETIME pr data) []
    rw [List.append_nil] at hstart
    rw [hstart]
    simp [notifications, mixed, nextType]

/-- The body with notifications. -/
theorem quickR2body_eq (hdata : lifetimeData pp ≠ []) (hhead : pp.head ≠ []) :
    quickR2body ph1 m pp = mixed (front m pp.pfsGroup) ISAKMP_NPTYPE_N ++
      natoaTail m (natoaType ph1 m) ++
      mixed (notifications pp.head (lifetimeData pp)) ISAKMP_NPTYPE_NONE := by
  obtain ⟨init, last, hfront, hnpP, hbuf⟩ := r2Head_eq ph1 m pp.pfsGroup
  obtain ⟨pr, prs, hprs⟩ := List.exists_cons_of_ne_nil hhead
  have hbody : r2Head ph1 m pp.pfsGroup =
      { buf := mixed init last.1 ++ (payload (natoaType ph1 m) last.2 ++ natoaTail m (natoaType ph1 m))
        npP := (mixed init last.1).length } := by
    rw [mixed_snoc, List.append_assoc] at hbuf
    rw [← hbuf, ← hnpP]
  unfold quickR2body
  rw [if_neg hdata, hbody, hprs, addNotifications, hfront, mixed_snoc]
  simp

end Body

/-! ### Reading a notification -/

/-- The attributes of a claimed time. -/
def secsData (lifetime : ℤ) : Buf :=
  isakmpSetAttrL IPSECDOI_ATTR_SA_LD_TYPE IPSECDOI_ATTR_SA_LD_TYPE_SEC ++
    isakmpSetAttrV IPSECDOI_ATTR_SA_LD (long (u32 lifetime))

theorem longAt_behind (b rest : Buf) (i : ℕ) : longAt (b ++ rest) (b.length + i) = longAt rest i := by
  unfold longAt
  rw [Nat.add_assoc, Proposal.shortAt_append, Proposal.shortAt_append]

theorem u32_lt (v : ℤ) : u32 v < 4294967296 := by
  unfold u32
  omega

section Reading
variable (lifetime : ℤ) (rest : Buf) (pr : Saproto) (secs kb : ℕ)

/-- The header of an attribute. -/
theorem attr_header (type lorv : ℕ) (htype : type < 65536) (hlorv : lorv < 65536) :
    shortAt (Racoon.short type ++ (Racoon.short lorv ++ rest)) 0 = type ∧
      shortAt (Racoon.short type ++ (Racoon.short lorv ++ rest)) 2 = lorv ∧
      (Racoon.short type ++ (Racoon.short lorv ++ rest)).drop DATA_LEN = rest := by
  refine ⟨Proposal.shortAt_short type htype _, ?_, rfl⟩
  exact (Proposal.shortAt_append (Racoon.short type) _ 0).trans (Proposal.shortAt_short lorv hlorv _)

/-- The round for the type of a lifetime. -/
theorem lifetimeLoop_type (k lorv : ℕ) (hlorv : lorv < 65536) (tlen : ℤ) (htlen : 4 ≤ tlen)
    (ldType : Option ℕ) (lifetimes : ℕ × ℕ) :
    Quick.lifetimeLoop (k + 1) (Racoon.short 32769 ++ (Racoon.short lorv ++ rest)) tlen ldType lifetimes =
      Quick.lifetimeLoop k rest (tlen - 4) (some lorv) lifetimes := by
  obtain ⟨htype, hval, hdrop⟩ := attr_header rest 32769 lorv (by decide) hlorv
  have hdata : DATA_LEN = 4 := rfl
  have hgo : ¬(0 ≤ tlen ∧ tlen < (DATA_LEN : ℤ)) := by
    rw [hdata]
    omega
  rw [Quick.lifetimeLoop, if_neg hgo]
  simp only [htype, hval]
  simp only [Nat.reduceMod, Nat.reduceLeDiff, decide_true, IPSECDOI_ATTR_SA_LD_TYPE, if_true,
    Bool.not_true, Bool.false_eq_true, if_false, hdrop]
  rfl

/-- The round for a time of four bytes. -/
theorem lifetimeLoop_value (k value : ℕ) (hvalue : value < 4294967296) (tlen : ℤ) (htlen : 4 ≤ tlen)
    (secs kb : ℕ) :
    Quick.lifetimeLoop (k + 1) (Racoon.short 2 ++ (Racoon.short 4 ++ (long value ++ rest))) tlen
        (some IPSECDOI_ATTR_SA_LD_TYPE_SEC) (secs, kb) =
      Quick.lifetimeLoop k rest (tlen - 8) (some IPSECDOI_ATTR_SA_LD_TYPE_SEC) (value, kb) := by
  obtain ⟨htype, hval, hdrop⟩ := attr_header (long value ++ rest) 2 4 (by decide) (by decide)
  have hdata : DATA_LEN = 4 := rfl
  have hgo : ¬(0 ≤ tlen ∧ tlen < (DATA_LEN : ℤ)) := by
    rw [hdata]
    omega
  have hlong : longAt (Racoon.short 2 ++ (Racoon.short 4 ++ (long value ++ rest))) DATA_LEN = value := by
    rw [← List.append_assoc]
    exact (longAt_behind (Racoon.short 2 ++ Racoon.short 4) _ 0).trans (Proposal.longAt_long _ hvalue _)
  have hafter : (Racoon.short 2 ++ (Racoon.short 4 ++ (long value ++ rest))).drop (DATA_LEN + 4) = rest := by
    rw [← List.drop_drop, hdrop]
    exact List.drop_left' rfl
  rw [Quick.lifetimeLoop, if_neg hgo]
  simp only [htype, hval, hlong]
  simp [hafter, IPSECDOI_ATTR_SA_LD_TYPE, IPSECDOI_ATTR_SA_LD]
  rfl

theorem lifetimeLoop_secs (k : ℕ) :
    Quick.lifetimeLoop (k + 3) (secsData lifetime ++ rest) 12 none (secs, kb) =
      (u32 lifetime, kb) := by
  have hdata : secsData lifetime ++ rest = Racoon.short 32769 ++ (Racoon.short 1 ++
      (Racoon.short 2 ++ (Racoon.short 4 ++ (long (u32 lifetime) ++ rest)))) := by
    simp only [secsData, isakmpSetAttrV, List.append_assoc]
    rfl
  rw [hdata, lifetimeLoop_type _ (k + 2) 1 (by decide) 12 (by decide),
    show (some 1 : Option ℕ) = some IPSECDOI_ATTR_SA_LD_TYPE_SEC from rfl,
    lifetimeLoop_value rest (k + 1) _ (u32_lt lifetime) _ (by decide)]
  rfl

/-- The notification of a claimed time, wherever it stands, is read as that time. -/
theorem notify_reads (np : ℕ) (hspi : pr.spisize < 256) (ptr : Buf)
    (hptr : ptr = payload np (notifyBody ISAKMP_NTYPE_RESPONDER_LIFETIME pr (secsData lifetime)) ++ rest) :
    notifyType ptr = ISAKMP_NTYPE_RESPONDER_LIFETIME ∧ byteAt ptr 8 = u8 pr.protoId ∧
      Quick.ipsecdoiParseResponderLifetime ptr (secs, kb) = (u32 lifetime, kb) := by
  obtain ⟨spi, hspiBytes⟩ : ∃ spi, spi = (pr.spi ++ List.replicate pr.spisize 0).take pr.spisize :=
    ⟨_, rfl⟩
  have hspiLen : spi.length = pr.spisize := by simp [hspiBytes]
  have hgen : GEN_LEN = 4 := rfl
  obtain ⟨len, hlen⟩ : ∃ len, len = GEN_LEN +
      (notifyBody ISAKMP_NTYPE_RESPONDER_LIFETIME pr (secsData lifetime)).length := ⟨_, rfl⟩
  have hlenVal : len = 24 + pr.spisize := by
    rw [hlen]
    simp [notifyBody, secsData, isakmpSetAttrL, isakmpSetAttrV, hgen]
    omega
  have hsplit : ptr = ([UInt8.ofNat np, 0] ++ Racoon.short len ++ long IPSEC_DOI) ++
      (u8 pr.protoId :: u8 pr.spisize :: (Racoon.short ISAKMP_NTYPE_RESPONDER_LIFETIME ++
        (spi ++ (secsData lifetime ++ rest)))) := by
    rw [hptr, payload, ← hlen, notifyBody, ← hspiBytes]
    simp
  have hlenAt : shortAt ptr 2 = 24 + pr.spisize := by
    rw [hsplit]
    simp only [List.append_assoc]
    refine (Proposal.shortAt_append [UInt8.ofNat np, 0] _ 0).trans ?_
    rw [Proposal.shortAt_short len (by omega), hlenVal]
  have hproto : byteAt ptr 8 = u8 pr.protoId := by
    rw [hsplit]
    exact Proposal.byteAt_at _ _ _ 8 rfl
  have hbehind : ptr = (([UInt8.ofNat np, 0] ++ Racoon.short len ++ long IPSEC_DOI) ++ [u8 pr.protoId]) ++
      (u8 pr.spisize :: (Racoon.short ISAKMP_NTYPE_RESPONDER_LIFETIME ++
        (spi ++ (secsData lifetime ++ rest)))) := by
    rw [hsplit]
    simp
  have hspisize : (byteAt ptr 9).toNat = pr.spisize := by
    rw [hbehind, Proposal.byteAt_at _ _ _ 9 rfl]
    have := Proposal.u8_toNat pr.spisize (by omega) (by omega)
    omega
  have htype : notifyType ptr = ISAKMP_NTYPE_RESPONDER_LIFETIME := by
    have hten : ptr = (([UInt8.ofNat np, 0] ++ Racoon.short len ++ long IPSEC_DOI) ++
        [u8 pr.protoId, u8 pr.spisize]) ++ (Racoon.short ISAKMP_NTYPE_RESPONDER_LIFETIME ++
          (spi ++ (secsData lifetime ++ rest))) := by
      rw [hsplit]
      simp
    rw [notifyType, hten]
    exact (Proposal.shortAt_append (([UInt8.ofNat np, 0] ++ Racoon.short len ++ long IPSEC_DOI) ++
      [u8 pr.protoId, u8 pr.spisize]) _ 0).trans (Proposal.shortAt_short _ (by decide) _)
  have hdrop : ptr.drop (PL_N_LEN + pr.spisize) = secsData lifetime ++ rest := by
    have hfront : ptr = (([UInt8.ofNat np, 0] ++ Racoon.short len ++ long IPSEC_DOI) ++
        [u8 pr.protoId, u8 pr.spisize] ++ Racoon.short ISAKMP_NTYPE_RESPONDER_LIFETIME ++ spi) ++
          (secsData lifetime ++ rest) := by
      rw [hsplit]
      simp
    rw [hfront]
    apply List.drop_left'
    simp [hspiLen, PL_N_LEN]
    omega
  have hlong : ∃ k, ptr.length = k + 3 := ⟨ptr.length - 3, by
    rw [hsplit]
    simp
    omega⟩
  obtain ⟨k, hk⟩ := hlong
  refine ⟨htype, hproto, ?_⟩
  have htlen : ((shortAt ptr 2 : ℕ) : ℤ) - (PL_N_LEN : ℕ) - (pr.spisize : ℕ) = 12 := by
    rw [hlenAt]
    have hpl : PL_N_LEN = 12 := rfl
    omega
  unfold Quick.ipsecdoiParseResponderLifetime
  dsimp only
  rw [hspisize, hdrop, htlen, hk]
  exact lifetimeLoop_secs lifetime rest secs kb k

end Reading

/-! ### The approval -/

section Approval
variable {ph1 : Ph1} {offer policy pp : Saprop}

/-- At level claim the shorter time is approved and flagged, and always the bytes
    that were offered. -/
theorem approval_claim (hlevel : ph1.pcheckLevel = .CLAIM)
    (happ : (cmpsapropAlloc ph1 offer policy .RESPONDER).new = some pp) :
    pp.lifetime = (if offer.lifetime ≤ policy.lifetime then offer.lifetime else policy.lifetime) ∧
      pp.lifebyte = offer.lifebyte ∧ (policy.lifetime < offer.lifetime → pp.claim = 1) ∧
      pp.head.length = policy.head.length := by
  obtain ⟨lifetime, lifebyte, pfsGroup, claim, head, hcheck, -, hnew, rfl⟩ :=
    (Proposal.cmpsapropAlloc_new ph1 .RESPONDER offer policy pp).mp happ
  have hlen : head.length = policy.head.length :=
    ((Proposal.matchProtos_new ph1 .RESPONDER 0 policy.head
      (Proposal.forall₂_like_refl ph1 offer.head) head).mp hnew).length_eq.symm
  rw [hlevel] at hcheck
  simp only [checkLevel] at hcheck
  by_cases hpfs : policy.pfsGroup ≠ 0 ∧ offer.pfsGroup ≠ policy.pfsGroup
  · rw [if_pos hpfs] at hcheck
    exact absurd hcheck (by simp)
  · rw [if_neg hpfs, Option.some.injEq, Prod.mk.injEq, Prod.mk.injEq, Prod.mk.injEq] at hcheck
    obtain ⟨rfl, rfl, -, rfl⟩ := hcheck
    refine ⟨rfl, rfl, fun hshort => ?_, hlen⟩
    have hnot : ¬ offer.lifetime ≤ policy.lifetime := Int.not_le.mpr hshort
    simp [hnot, IPSECDOI_ATTR_SA_LD_TYPE_SEC]

end Approval

/-! ### The initiator -/

section Initiator
variable (ph1 : Ph1) (m : R2) (offer pp : Saprop)

theorem lifetimeData_secs (hclaim : pp.claim = 1) : lifetimeData pp = secsData pp.lifetime := by
  unfold lifetimeData secsData
  rw [hclaim]
  simp [IPSECDOI_ATTR_SA_LD_TYPE_SEC, IPSECDOI_ATTR_SA_LD_TYPE_KB]

theorem length_notifyBody (type : ℕ) (pr : Saproto) (data : Buf) :
    (notifyBody type pr data).length = 8 + pr.spisize + data.length := by
  simp [notifyBody]
  omega

theorem walkable_front (pfsGroup : ℤ) : Walkable (front m pfsGroup) := by
  have hbody : ∀ (type : ℕ) (g : GenBody), type ≠ 0 → type < 256 →
      (type, g.v).1 ≠ 0 ∧ (type, g.v).1 < 256 ∧ (type, g.v).2 ≠ [] ∧
        GEN_LEN + (type, g.v).2.length < 65536 :=
    fun type g h0 h => ⟨h0, h, g.ne, g.fits⟩
  intro seg hseg
  unfold front at hseg
  simp only [List.mem_append] at hseg
  rcases hseg with (hseg | hseg) | hseg
  · rcases List.mem_cons.mp hseg with rfl | hseg
    · exact hbody _ m.saRet (by decide) (by decide)
    · obtain rfl := List.mem_singleton.mp hseg
      exact hbody _ m.nonce (by decide) (by decide)
  · split at hseg
    · obtain rfl := List.mem_singleton.mp hseg
      exact hbody _ m.dhpub (by decide) (by decide)
    · exact absurd hseg List.not_mem_nil
  · split at hseg
    · exact absurd hseg List.not_mem_nil
    · next ids _ =>
      rcases List.mem_cons.mp hseg with rfl | hseg
      · exact hbody _ ids.1 (by decide) (by decide)
      · obtain rfl := List.mem_singleton.mp hseg
        exact hbody _ ids.2 (by decide) (by decide)

theorem walkable_notifications (prs : List Saproto) (hspi : ∀ pr ∈ prs, pr.spisize < 256)
    (lifetime : ℤ) : Walkable (notifications prs (secsData lifetime)) := by
  intro seg hseg
  obtain ⟨pr, hpr, rfl⟩ := List.mem_map.mp hseg
  have hsize := length_notifyBody ISAKMP_NTYPE_RESPONDER_LIFETIME pr (secsData lifetime)
  have hdata : (secsData lifetime).length = 12 := rfl
  have hsmall := hspi pr hpr
  have hgen : GEN_LEN = 4 := rfl
  have htype : ISAKMP_NPTYPE_N ≠ 0 ∧ ISAKMP_NPTYPE_N < 256 := by decide
  refine ⟨htype.1, htype.2, ?_, ?_⟩
  · apply List.ne_nil_of_length_pos
    change 0 < (notifyBody ISAKMP_NTYPE_RESPONDER_LIFETIME pr (secsData lifetime)).length
    omega
  · change GEN_LEN + (notifyBody ISAKMP_NTYPE_RESPONDER_LIFETIME pr (secsData lifetime)).length < 65536
    omega

/-- No payload in front of the NAT-OA is a notification. -/
theorem founds_front (pfsGroup : ℤ) (np : ℕ) (rest : Buf) :
    (founds (front m pfsGroup) np rest).filter (fun pa => pa.type = ISAKMP_NPTYPE_N) = [] := by
  unfold front
  cases (m.dhpubP && decide (pfsGroup ≠ 0)) <;> cases m.ids <;>
    simp [founds, ISAKMP_NPTYPE_N, ISAKMP_NPTYPE_SA, ISAKMP_NPTYPE_NONCE, ISAKMP_NPTYPE_KE,
      ISAKMP_NPTYPE_ID]

/-- The loop of `quick_i2recv` keeps the payloads in front, and goes on. -/
theorem payloads_front (env : Quick.Env) (q : Quick.Exchange) (s : Handles.State)
    (hwait : Waiting offer q) (pfsGroup : ℤ) (np : ℕ) (rest : Buf) :
    ∃ p, Quick.payloads env q Quick.i2Rules (founds (front m pfsGroup) np rest) (Quick.i2Start q s) =
      .next p ∧ p.effects = q.effects s := by
  have hnonce := hwait.nonceP
  have hdh := hwait.dhpubP
  unfold front
  cases (m.dhpubP && decide (pfsGroup ≠ 0)) <;> cases m.ids <;>
    simp [founds, Quick.payloads, Quick.payload, Quick.kind, Quick.i2Start, hnonce, hdh,
      ISAKMP_NPTYPE_SA, ISAKMP_NPTYPE_NONCE, ISAKMP_NPTYPE_KE, ISAKMP_NPTYPE_ID]

variable {offer pp}

/-- What a notification of the approved time leaves of the lifetimes. -/
theorem ph2RecvN_secs (env : Quick.Env) (q : Quick.Exchange) (level : PropCheck)
    (henv : env.pcheckLevel = some level) (hlevel : level = .OBEY ∨ level = .CLAIM)
    (hwait : Waiting offer q) (lifetime : ℤ) (hfits : (u32 lifetime : ℤ) = lifetime)
    (hshort : lifetime < offer.lifetime) (pr : Saproto) (hspi : pr.spisize < 256) (np : ℕ)
    (rest : Buf) (e : Quick.Effects) :
    Quick.ph2RecvN env q
        (payload np (notifyBody ISAKMP_NTYPE_RESPONDER_LIFETIME pr (secsData lifetime)) ++ rest) e =
      { e with secs := u32 lifetime } := by
  obtain ⟨htype, -, hread⟩ := notify_reads lifetime rest pr e.secs e.kb np hspi _ rfl
  have hkeep : ¬ offer.lifetime ≤ ((u32 lifetime : ℕ) : ℤ) := by
    rw [hfits]
    omega
  unfold Quick.ph2RecvN Quick.responderLifetime
  rw [htype, hread, henv]
  rcases hlevel with rfl | rfl
  · simp [ISAKMP_NTYPE_RESPONDER_LIFETIME, Quick.ISAKMP_NTYPE_CONNECTED,
      Handles.ISAKMP_NTYPE_INITIAL_CONTACT]
  · simp [ISAKMP_NTYPE_RESPONDER_LIFETIME, Quick.ISAKMP_NTYPE_CONNECTED,
      Handles.ISAKMP_NTYPE_INITIAL_CONTACT, hwait.sainfo, hkeep]

theorem payload_n (env : Quick.Env) (q : Quick.Exchange) (rules : Quick.Rules) (ptr : Buf) (len : ℕ)
    (p : Quick.Progress) :
    Quick.payload env q rules { type := ISAKMP_NPTYPE_N, ptr := ptr, len := len } p =
      .next { p with effects := Quick.ph2RecvN env q ptr p.effects } := rfl

/-- The loop goes over all notifications, which leave the approved time. -/
theorem payloads_notifications (env : Quick.Env) (q : Quick.Exchange) (level : PropCheck)
    (henv : env.pcheckLevel = some level) (hlevel : level = .OBEY ∨ level = .CLAIM)
    (hwait : Waiting offer q) (lifetime : ℤ) (hfits : (u32 lifetime : ℤ) = lifetime)
    (hshort : lifetime < offer.lifetime) (prs : List Saproto) (hspi : ∀ pr ∈ prs, pr.spisize < 256)
    (p : Quick.Progress) :
    ∃ p', Quick.payloads env q Quick.i2Rules
        (founds (notifications prs (secsData lifetime)) ISAKMP_NPTYPE_NONE []) p = .next p' ∧
      p'.effects.kb = p.effects.kb ∧
      (p'.effects.secs = u32 lifetime ∨ prs = [] ∧ p'.effects.secs = p.effects.secs) := by
  induction prs generalizing p with
  | nil => exact ⟨p, rfl, rfl, Or.inr ⟨rfl, rfl⟩⟩
  | cons pr prs ih =>
    have hfirst := hspi pr List.mem_cons_self
    have hrest := fun x hx => hspi x (List.mem_cons_of_mem _ hx)
    have heffect := ph2RecvN_secs env q level henv hlevel hwait lifetime hfits hshort pr hfirst
      (nextType (notifications prs (secsData lifetime)) ISAKMP_NPTYPE_NONE)
      (mixed (notifications prs (secsData lifetime)) ISAKMP_NPTYPE_NONE) p.effects
    obtain ⟨p', hp', hkb, hsecs⟩ := ih hrest { p with effects := { p.effects with secs := u32 lifetime } }
    refine ⟨p', ?_, hkb, ?_⟩
    · rw [← hp', ← heffect]
      change Quick.payloads env q Quick.i2Rules
        ({ type := ISAKMP_NPTYPE_N, ptr := _, len := _ } :: founds (notifications prs _) _ _) p = _
      rw [Quick.payloads, payload_n, List.append_nil]
      rfl
    · rcases hsecs with hsecs | ⟨-, hsecs⟩
      · exact Or.inl hsecs
      · exact Or.inl hsecs

end Initiator

/-! ### Agreement -/

theorem length_mixed (xs : List (ℕ × Buf)) (np np' : ℕ) : (mixed xs np).length = (mixed xs np').length := by
  induction xs with
  | nil => rfl
  | cons seg xs ih =>
    simp only [mixed, List.length_append, Proposal.payload_length]
    omega

/-- The notifications that are found, and how much of the body is from each on. -/
theorem founds_notifications (lifetime : ℤ) (prs : List Saproto)
    (hspi : ∀ pr ∈ prs, pr.spisize < 256) (bound : ℕ)
    (hbound : (mixed (notifications prs (secsData lifetime)) ISAKMP_NPTYPE_NONE).length ≤ bound) :
    List.Forall₂ (fun (pa : IsakmpParse) pr => pa.ptr.length ≤ bound ∧
        notifyType pa.ptr = ISAKMP_NTYPE_RESPONDER_LIFETIME ∧ byteAt pa.ptr 8 = u8 pr.protoId ∧
        ∀ secs kb, Quick.ipsecdoiParseResponderLifetime pa.ptr (secs, kb) = (u32 lifetime, kb))
      (founds (notifications prs (secsData lifetime)) ISAKMP_NPTYPE_NONE []) prs := by
  induction prs with
  | nil => exact .nil
  | cons pr prs ih =>
    have hrest := fun x hx => hspi x (List.mem_cons_of_mem _ hx)
    have hpr := hspi pr List.mem_cons_self
    have hshorter : (mixed (notifications prs (secsData lifetime)) ISAKMP_NPTYPE_NONE).length ≤ bound := by
      refine Nat.le_trans ?_ hbound
      change _ ≤ (payload _ _ ++ mixed (notifications prs (secsData lifetime)) _).length
      rw [List.length_append]
      exact Nat.le_add_left _ _
    apply List.Forall₂.cons ⟨?_, ?_⟩ (ih hrest hshorter)
    · rw [List.append_nil]
      exact hbound
    · have hread := fun secs kb => notify_reads lifetime
        (mixed (notifications prs (secsData lifetime)) ISAKMP_NPTYPE_NONE) pr secs kb
        (nextType (notifications prs (secsData lifetime)) ISAKMP_NPTYPE_NONE) hpr _
        (List.append_nil _)
      exact ⟨(hread 0 0).1, (hread 0 0).2.1, fun secs kb => (hread secs kb).2.2⟩

/-- The part of the body in front of the notifications. -/
theorem length_r2Head (ph1 : Ph1) (m : R2) (pfsGroup : ℤ) :
    (r2Head ph1 m pfsGroup).buf.length =
      (mixed (front m pfsGroup) ISAKMP_NPTYPE_N).length + (natoaTail m (natoaType ph1 m)).length := by
  obtain ⟨init, last, hfront, -, hbuf⟩ := r2Head_eq ph1 m pfsGroup
  rw [hbuf, hfront, List.length_append, length_mixed _ (natoaType ph1 m) ISAKMP_NPTYPE_N]

theorem nextType_front (m : R2) (pfsGroup : ℤ) (np : ℕ) : nextType (front m pfsGroup) np = ISAKMP_NPTYPE_SA := by
  rfl

section Agree
variable {ph1 : Ph1} (m : R2) {offer pp : Saprop} {env : Quick.Env} {q : Quick.Exchange}
  (s : Handles.State) {level : PropCheck}

/-- What is approved at an end of the exchange for a time made shorter. -/
structure Shorter (offer pp : Saprop) : Prop where
  time : pp.lifetime < offer.lifetime
  bytes : pp.lifebyte = offer.lifebyte
  claim : pp.claim = 1
  head : pp.head ≠ []
  spi : ∀ pr ∈ pp.head, pr.spisize < 256

theorem saLifetimes_eq (hlevel : level = .OBEY ∨ level = .CLAIM) (e : Quick.Effects) :
    saLifetimes level offer e = some (if e.secs ≠ 0 then (e.secs : ℤ) else offer.lifetime,
      if e.kb ≠ 0 then (e.kb : ℤ) else offer.lifebyte) := by
  unfold saLifetimes
  rcases hlevel with rfl | rfl
  · rfl
  · simp [checkLevel]

variable (hshorter : Shorter offer pp)
include hshorter

theorem lifetimeData_shorter : lifetimeData pp = secsData pp.lifetime :=
  lifetimeData_secs pp hshorter.claim

theorem quickR2body_shorter : quickR2body ph1 m pp = mixed (front m pp.pfsGroup) ISAKMP_NPTYPE_N ++
    natoaTail m (natoaType ph1 m) ++
      mixed (notifications pp.head (secsData pp.lifetime)) ISAKMP_NPTYPE_NONE := by
  have hdata := lifetimeData_shorter hshorter
  rw [quickR2body_eq ph1 m pp (by rw [hdata]; exact List.cons_ne_nil _ _) hshorter.head, hdata]

/-- Without NAT-OA every notification is found, and all payloads are kept. -/
theorem parse_plain (hnatoa : natoaType ph1 m = ISAKMP_NPTYPE_NONE) :
    isakmpParsewoh ISAKMP_NPTYPE_SA (quickR2body ph1 m pp) (quickR2body ph1 m pp).length =
      some (founds (front m pp.pfsGroup) ISAKMP_NPTYPE_N
          (mixed (notifications pp.head (secsData pp.lifetime)) ISAKMP_NPTYPE_NONE) ++
        founds (notifications pp.head (secsData pp.lifetime)) ISAKMP_NPTYPE_NONE []) := by
  obtain ⟨pr, prs, hprs⟩ := List.exists_cons_of_ne_nil hshorter.head
  have hnext : nextType (notifications pp.head (secsData pp.lifetime)) ISAKMP_NPTYPE_NONE =
      ISAKMP_NPTYPE_N := by
    rw [hprs]
    rfl
  have hbody : quickR2body ph1 m pp =
      mixed (front m pp.pfsGroup ++ notifications pp.head (secsData pp.lifetime)) ISAKMP_NPTYPE_NONE := by
    rw [quickR2body_shorter m hshorter, mixed_append, hnext, hnatoa]
    simp [natoaTail]
  have hwalk : Walkable (front m pp.pfsGroup ++ notifications pp.head (secsData pp.lifetime)) := by
    intro seg hseg
    rcases List.mem_append.mp hseg with hseg | hseg
    · exact walkable_front m pp.pfsGroup seg hseg
    · exact walkable_notifications pp.head hshorter.spi pp.lifetime seg hseg
  have hparse := isakmpParsewoh_mixed _ [] hwalk
  rw [List.append_nil, nextType_append, nextType_front, founds_append, hnext, List.append_nil] at hparse
  rw [hbody, hparse]

/-- With NAT-OA the first of them is taken for a notification. -/
theorem parse_natoa (hnatoa : natoaType ph1 m ≠ ISAKMP_NPTYPE_NONE) :
    ∃ pays pa, isakmpParsewoh ISAKMP_NPTYPE_SA (quickR2body ph1 m pp) (quickR2body ph1 m pp).length =
        some pays ∧
      pa ∈ pays ∧ pa.type = ISAKMP_NPTYPE_N ∧
      (quickR2body ph1 m pp).length - pa.ptr.length < (r2Head ph1 m pp.pfsGroup).buf.length := by
  have htail : natoaTail m (natoaType ph1 m) =
      mixed [(ISAKMP_NPTYPE_N, m.natOai.v), (natoaType ph1 m, m.natOar.v)] ISAKMP_NPTYPE_NONE := by
    simp [natoaTail, hnatoa, mixed, nextType]
  have hlt : natoaType ph1 m < 256 := by
    unfold natoaType payloadNatOa
    split
    · split <;> decide
    · decide
  have hbody : quickR2body ph1 m pp =
      mixed (front m pp.pfsGroup ++ [(ISAKMP_NPTYPE_N, m.natOai.v), (natoaType ph1 m, m.natOar.v)])
          ISAKMP_NPTYPE_NONE ++
        mixed (notifications pp.head (secsData pp.lifetime)) ISAKMP_NPTYPE_NONE := by
    rw [quickR2body_shorter m hshorter, mixed_append, htail]
    rfl
  have hwalk : Walkable
      (front m pp.pfsGroup ++ [(ISAKMP_NPTYPE_N, m.natOai.v), (natoaType ph1 m, m.natOar.v)]) := by
    intro seg hseg
    rcases List.mem_append.mp hseg with hseg | hseg
    · exact walkable_front m pp.pfsGroup seg hseg
    · have htype : ISAKMP_NPTYPE_N ≠ 0 ∧ ISAKMP_NPTYPE_N < 256 := by decide
      rcases List.mem_cons.mp hseg with rfl | hseg
      · exact ⟨htype.1, htype.2, m.natOai.ne, m.natOai.fits⟩
      · obtain rfl := List.mem_singleton.mp hseg
        exact ⟨hnatoa, hlt, m.natOar.ne, m.natOar.fits⟩
  have hparse := isakmpParsewoh_mixed _
    (mixed (notifications pp.head (secsData pp.lifetime)) ISAKMP_NPTYPE_NONE) hwalk
  rw [nextType_append, nextType_front, founds_append, ← hbody] at hparse
  refine ⟨_, _, hparse, List.mem_append_right _ List.mem_cons_self, rfl, ?_⟩
  rw [quickR2body_shorter m hshorter, length_r2Head, htail]
  have hpos : 0 < (mixed [(ISAKMP_NPTYPE_N, m.natOai.v), (natoaType ph1 m, m.natOar.v)]
      ISAKMP_NPTYPE_NONE).length := by
    have hgen : GEN_LEN = 4 := rfl
    simp [mixed, hgen]
  simp only [List.length_append]
  omega

omit hshorter in
theorem payloads_append {xs : List IsakmpParse} (ys : List IsakmpParse) {p p' : Quick.Progress}
    (h : Quick.payloads env q Quick.i2Rules xs p = .next p') :
    Quick.payloads env q Quick.i2Rules (xs ++ ys) p = Quick.payloads env q Quick.i2Rules ys p' := by
  induction xs generalizing p with
  | nil =>
    obtain rfl : p = p' := by simpa [Quick.payloads] using h
    rfl
  | cons pa xs ih =>
    rw [Quick.payloads] at h
    rw [List.cons_append, Quick.payloads]
    cases hpa : Quick.payload env q Quick.i2Rules pa p with
    | next p1 =>
      simp only [hpa] at h
      exact ih h
    | stop p1 => simp [hpa] at h
    | null => simp [hpa] at h

omit hshorter in
theorem filter_founds (prs : List Saproto) (data : Buf) :
    (founds (notifications prs data) ISAKMP_NPTYPE_NONE []).filter
      (fun pa => pa.type = ISAKMP_NPTYPE_N) = founds (notifications prs data) ISAKMP_NPTYPE_NONE [] := by
  induction prs with
  | nil => rfl
  | cons pr prs ih =>
    change List.filter _ ({ type := ISAKMP_NPTYPE_N, ptr := _, len := _ } ::
      founds (notifications prs data) _ _) = _
    rw [List.filter_cons_of_pos (by simp), ih]
    rfl

/-- Where the initiator ends without NAT-OA. -/
theorem payloads_plain (henv : env.pcheckLevel = some level) (hlevel : level = .OBEY ∨ level = .CLAIM)
    (hwait : Waiting offer q) (hfits : (u32 pp.lifetime : ℤ) = pp.lifetime) :
    ∃ p, Quick.payloads env q Quick.i2Rules
        (founds (front m pp.pfsGroup) ISAKMP_NPTYPE_N
            (mixed (notifications pp.head (secsData pp.lifetime)) ISAKMP_NPTYPE_NONE) ++
          founds (notifications pp.head (secsData pp.lifetime)) ISAKMP_NPTYPE_NONE [])
        (Quick.i2Start q s) = .next p ∧
      saLifetimes level offer p.effects =
        some (if pp.lifetime ≠ 0 then pp.lifetime else offer.lifetime, pp.lifebyte) := by
  obtain ⟨p1, hfront, heffects⟩ := payloads_front m offer env q s hwait pp.pfsGroup ISAKMP_NPTYPE_N
    (mixed (notifications pp.head (secsData pp.lifetime)) ISAKMP_NPTYPE_NONE)
  obtain ⟨p2, hrest, hkb, hsecs⟩ := payloads_notifications env q level henv hlevel hwait pp.lifetime
    hfits hshorter.time pp.head hshorter.spi p1
  refine ⟨p2, (payloads_append _ hfront).trans hrest, ?_⟩
  have hkb0 : p2.effects.kb = 0 := by
    rw [hkb, heffects]
    exact hwait.kb
  have hsecs' : p2.effects.secs = u32 pp.lifetime := by
    rcases hsecs with hsecs | ⟨hnil, -⟩
    · exact hsecs
    · exact absurd hnil hshorter.head
  rw [saLifetimes_eq hlevel, hkb0, hsecs', hfits, hshorter.bytes]
  by_cases hzero : pp.lifetime = 0
  · simp [hzero, u32]
  · have hne : u32 pp.lifetime ≠ 0 := by omega
    simp [hzero, hne]

theorem agree_plain (henv : env.pcheckLevel = some level) (hlevel : level = .OBEY ∨ level = .CLAIM)
    (hwait : Waiting offer q) (hnatoa : natoaType ph1 m = ISAKMP_NPTYPE_NONE) :
    LifetimesAgree ph1 m offer pp env q s level ↔ 0 < pp.lifetime ∧ pp.lifetime < 4294967296 := by
  have hparse := parse_plain m hshorter hnatoa
  have hbodyLen : (quickR2body ph1 m pp).length = (r2Head ph1 m pp.pfsGroup).buf.length +
      (mixed (notifications pp.head (secsData pp.lifetime)) ISAKMP_NPTYPE_NONE).length := by
    rw [quickR2body_shorter m hshorter, length_r2Head]
    simp only [List.length_append]
  have hfound := founds_notifications pp.lifetime pp.head hshorter.spi _ (Nat.le_refl _)
  constructor
  · rintro ⟨pays, hpays, hann, p, hp, hend⟩
    obtain rfl := Option.some.inj (hparse.symm.trans hpays)
    rw [List.filter_append, founds_front, List.nil_append, filter_founds] at hann
    have hfits : (u32 pp.lifetime : ℤ) = pp.lifetime := by
      obtain ⟨pr, prs, hprs⟩ := List.exists_cons_of_ne_nil hshorter.head
      rw [hprs] at hann hfound
      cases hann with
      | cons hfirst _ =>
        cases hfound with
        | cons hread _ =>
          have hsecs := hfirst.secs 0 0
          rwa [hread.2.2.2 0 0, if_pos hshorter.time] at hsecs
    obtain ⟨p', hp', hend'⟩ := payloads_plain m s hshorter henv hlevel hwait hfits
    obtain rfl : p' = p := by simpa using hp'.symm.trans hp
    rw [hend', Option.some.injEq, Prod.mk.injEq] at hend
    have htime := hshorter.time
    have hrange := u32_lt pp.lifetime
    by_cases hzero : pp.lifetime = 0
    · rw [if_neg (not_not.mpr hzero)] at hend
      omega
    · omega
  · rintro ⟨hpos, hlt⟩
    have hfits : (u32 pp.lifetime : ℤ) = pp.lifetime := by
      unfold u32
      omega
    obtain ⟨p, hp, hend⟩ := payloads_plain m s hshorter henv hlevel hwait hfits
    refine ⟨_, hparse, ?_, p, hp, ?_⟩
    · rw [List.filter_append, founds_front, List.nil_append, filter_founds]
      refine hfound.imp ?_
      rintro pa pr ⟨hlen, htype, hproto, hread⟩
      have hbytes : ¬ pp.lifebyte < offer.lifebyte := by
        rw [hshorter.bytes]
        exact Int.lt_irrefl _
      refine ⟨by omega, htype, hproto, fun secs kb => ?_, fun secs kb => ?_⟩
      · rw [hread, if_pos hshorter.time, hfits]
      · rw [hread, if_neg hbytes]
    · rw [hend, if_pos (by omega)]

theorem agree_natoa (hnatoa : natoaType ph1 m ≠ ISAKMP_NPTYPE_NONE) :
    ¬ LifetimesAgree ph1 m offer pp env q s level := by
  obtain ⟨pays, pa, hpays, hmem, htype, hin⟩ := parse_natoa m hshorter hnatoa
  rintro ⟨pays', hpays', hann, -⟩
  obtain rfl := Option.some.inj (hpays.symm.trans hpays')
  obtain ⟨pr, -, hpr⟩ := Proposal.forall₂_left hann pa (List.mem_filter.mpr ⟨hmem, by simpa using htype⟩)
  exact Nat.not_lt.mpr hpr.added hin

end Agree

/-- The NAT-OA payloads are sent. -/
def WithNatoa (ph1 : Ph1) (m : R2) : Prop := ipsecdoiTransportmode m.proposal ∧ ph1.natDetected

theorem natoaType_none (ph1 : Ph1) (m : R2) :
    natoaType ph1 m = ISAKMP_NPTYPE_NONE ↔ ¬ WithNatoa ph1 m := by
  unfold natoaType WithNatoa
  constructor
  · intro h hsent
    rw [if_pos (by simp [hsent.1, hsent.2])] at h
    cases hn : ph1.natt <;> simp [hn, payloadNatOa, ISAKMP_NPTYPE_NATOA_RFC, ISAKMP_NPTYPE_NATOA_DRAFT,
      ISAKMP_NPTYPE_NONE] at h
  · intro h
    rw [if_neg (by simpa using h)]

instance (ph1 : Ph1) (m : R2) : Decidable (WithNatoa ph1 m) := inferInstanceAs (Decidable (_ ∧ _))

/-- Nothing is shorter than offered unless the policy's time is. The ends agree on
    such a time when it is a positive number of four bytes and no NAT-OA are sent. -/
theorem lifetimesAgree_iff {ph1 : Ph1} (m : R2) {offer policy pp : Saprop} {env : Quick.Env}
    {q : Quick.Exchange} (s : Handles.State) {level : PropCheck} (hclaim : ph1.pcheckLevel = .CLAIM)
    (happ : (cmpsapropAlloc ph1 offer policy .RESPONDER).new = some pp) (hhead : policy.head ≠ [])
    (hspi : ∀ pr ∈ pp.head, pr.spisize < 256) (henv : env.pcheckLevel = some level)
    (hlevel : level = .OBEY ∨ level = .CLAIM) (hwait : Waiting offer q) :
    (pp.lifetime < offer.lifetime ∨ pp.lifebyte < offer.lifebyte →
        LifetimesAgree ph1 m offer pp env q s level) ↔
      (policy.lifetime < offer.lifetime →
        0 < policy.lifetime ∧ policy.lifetime < 4294967296 ∧ ¬ WithNatoa ph1 m) := by
  obtain ⟨htime, hbytes, hflag, hheads⟩ := approval_claim hclaim happ
  by_cases hpolicy : policy.lifetime < offer.lifetime
  · have hpp : pp.lifetime = policy.lifetime := by
      rw [htime, if_neg (Int.not_le.mpr hpolicy)]
    have hhead' : pp.head ≠ [] := by
      apply List.ne_nil_of_length_pos
      rw [hheads]
      exact List.length_pos_iff.mpr hhead
    have hshorter : Shorter offer pp :=
      { time := by rwa [hpp]
        bytes := hbytes
        claim := hflag hpolicy
        head := hhead'
        spi := hspi }
    have hagree : LifetimesAgree ph1 m offer pp env q s level ↔
        0 < policy.lifetime ∧ policy.lifetime < 4294967296 ∧ ¬ WithNatoa ph1 m := by
      by_cases hnatoa : natoaType ph1 m = ISAKMP_NPTYPE_NONE
      · rw [agree_plain m s hshorter henv hlevel hwait hnatoa, hpp]
        have hsent := (natoaType_none ph1 m).mp hnatoa
        exact ⟨fun h => ⟨h.1, h.2, hsent⟩, fun h => ⟨h.1, h.2.1⟩⟩
      · apply iff_of_false (agree_natoa m s hshorter hnatoa)
        rintro ⟨-, -, hsent⟩
        exact hnatoa ((natoaType_none ph1 m).mpr hsent)
    exact ⟨fun h _ => hagree.mp (h (Or.inl hshorter.time)), fun h _ => hagree.mpr (h hpolicy)⟩
  · have hpp : pp.lifetime = offer.lifetime := by
      rw [htime, if_pos (Int.not_lt.mp hpolicy)]
    have hnot : ¬ (pp.lifetime < offer.lifetime ∨ pp.lifebyte < offer.lifebyte) := by
      rw [hpp, hbytes]
      simp
    exact ⟨fun _ h => absurd h hpolicy, fun _ h => absurd h hnot⟩

/-- ESP with the given time and mode. -/
def espFor (lifetime encmode : ℤ) : Saprop :=
  { propNo := 1
    lifetime := lifetime
    lifebyte := 1000
    pfsGroup := 0
    claim := 0
    head :=
      [{ protoId := Proposal.IPSECDOI_PROTO_IPSEC_ESP
         spisize := 4
         encmode := encmode
         udpEncap := false
         spi := [0, 0, 1, 1]
         spiP := [0, 0, 1, 1]
         reqidOut := 0
         reqidIn := 0
         head := [{ trnsNo := 1, trnsId := 12, encklen := 128, authtype := 2 }] }] }

def oneByte : GenBody :=
  { v := [7]
    ne := by decide
    fits := by decide }

def withoutKe (encmode : ℤ) : R2 :=
  { proposal := [espFor 600 encmode]
    saRet := oneByte
    nonce := oneByte
    dhpubP := false
    dhpub := oneByte
    ids := none
    natOai := oneByte
    natOar := oneByte }

/-- The initiator's handle for an offer of eight hours. -/
def waiting : Quick.Exchange :=
  { Quick.responder with sainfoLifetime := some 28800 }

theorem waiting_waiting (encmode : ℤ) : Waiting (espFor 28800 encmode) waiting :=
  { nonceP := rfl
    dhpubP := rfl
    secs := rfl
    kb := rfl
    sainfo := rfl }

def claimEnv : Quick.Env := { Quick.responderEnv with pcheckLevel := some .CLAIM }

def behindNat (natDetected : Bool) : Ph1 :=
  { pcheckLevel := .CLAIM
    natDetected := natDetected
    natt := .rfc }

theorem tenMinutes_approved :
    (cmpsapropAlloc (behindNat true) (espFor 28800 Proposal.IPSECDOI_ATTR_ENC_MODE_TUNNEL)
        (espFor 600 Proposal.IPSECDOI_ATTR_ENC_MODE_TUNNEL) .RESPONDER).new =
      some { espFor 600 Proposal.IPSECDOI_ATTR_ENC_MODE_TUNNEL with claim := 1 } := by
  rfl

/-- Ten minutes are approved in tunnel mode, and agreed on. -/
theorem tenMinutes_agree :
    LifetimesAgree (behindNat true) (withoutKe Proposal.IPSECDOI_ATTR_ENC_MODE_TUNNEL)
      (espFor 28800 Proposal.IPSECDOI_ATTR_ENC_MODE_TUNNEL)
      { espFor 600 Proposal.IPSECDOI_ATTR_ENC_MODE_TUNNEL with claim := 1 } claimEnv waiting
      Handles.gatewayState .CLAIM := by
  refine (lifetimesAgree_iff (withoutKe Proposal.IPSECDOI_ATTR_ENC_MODE_TUNNEL) Handles.gatewayState
    rfl tenMinutes_approved (by decide) (by decide) rfl (Or.inr rfl) (waiting_waiting _)).mpr
    (fun _ => ⟨by decide, by decide, by decide⟩) (Or.inl (by decide))

/-- In transport mode behind a NAT the first NAT-OA is taken for the notification. -/
theorem natoa_disagree :
    (cmpsapropAlloc (behindNat true) (espFor 28800 Proposal.IPSECDOI_ATTR_ENC_MODE_TRNS)
        (espFor 600 Proposal.IPSECDOI_ATTR_ENC_MODE_TRNS) .RESPONDER).new =
      some { espFor 600 Proposal.IPSECDOI_ATTR_ENC_MODE_TRNS with claim := 1 } ∧
    Waiting (espFor 28800 Proposal.IPSECDOI_ATTR_ENC_MODE_TRNS) waiting ∧
    ¬ LifetimesAgree (behindNat true) (withoutKe Proposal.IPSECDOI_ATTR_ENC_MODE_TRNS)
      (espFor 28800 Proposal.IPSECDOI_ATTR_ENC_MODE_TRNS)
      { espFor 600 Proposal.IPSECDOI_ATTR_ENC_MODE_TRNS with claim := 1 } claimEnv waiting
      Handles.gatewayState .CLAIM := by
  refine ⟨rfl, waiting_waiting _, ?_⟩
  apply agree_natoa
  · exact
      { time := by decide
        bytes := rfl
        claim := rfl
        head := by decide
        spi := by decide }
  · decide

end WanStack.Racoon.Lifetime
