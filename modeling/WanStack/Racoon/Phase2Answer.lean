import WanStack.Racoon.Phase2Offer
import WanStack.Racoon.Phase2Reply
import WanStack.Racoon.SaDecoded

set_option autoImplicit false

/-!
# What the responder answers

The approval is made of all transforms of a number, the answer of one of them for each
protocol. Here it is said when the one transform says by itself what was approved.
-/
namespace WanStack.Racoon.Phase2
open Aftr (Buf byteAt shortAt)
open Proposal

/-! ### Attributes that are all there -/

theorem byteAt_drop (d : Buf) (m i : ℕ) : byteAt (d.drop m) i = byteAt d (m + i) := by
  simp [byteAt]

theorem memcpy_congr (d d' : Buf) (n : ℕ) (h : ∀ i < n, byteAt d' i = byteAt d i) :
    memcpy d' n = memcpy d n :=
  List.map_congr_left fun i hi => h i (List.mem_range.mp hi)

/-- The walk over attributes reads nothing but the attributes. -/
theorem attrLoop_congr (k n : ℕ) (d d' : Buf) (tlen : ℤ) (h : ∀ i < n, byteAt d' i = byteAt d i)
    (hn : (encAttrs (attrLoop k d tlen)).length ≤ n) : attrLoop k d' tlen = attrLoop k d tlen := by
  induction k generalizing n d d' tlen with
  | zero => rfl
  | succ k ih =>
    unfold attrLoop at hn ⊢
    dsimp only at hn ⊢
    by_cases hend : ¬0 < tlen
    · rw [if_pos hend, if_pos hend]
    rw [if_neg hend] at hn
    rw [if_neg hend, if_neg hend]
    have hdata : DATA_LEN = 4 := rfl
    -- both branches have a header
    have hheader : DATA_LEN ≤ n := by
      split_ifs at hn
      · rw [encAttrs_cons, List.length_append, encAttr, if_pos rfl] at hn
        simp only [List.length_append, short_length] at hn
        omega
      · rw [encAttrs_cons, List.length_append, encAttr, if_neg Bool.false_ne_true] at hn
        simp only [List.length_append, short_length] at hn
        omega
    have h0 : shortAt d' 0 = shortAt d 0 := by
      rw [shortAt, shortAt, h 0 (by omega), h 1 (by omega)]
    have h2 : shortAt d' 2 = shortAt d 2 := by
      rw [shortAt, shortAt, h 2 (by omega), h 3 (by omega)]
    rw [h0, h2]
    split_ifs at hn ⊢ with htv
    · rw [encAttrs_cons, List.length_append, encAttr, if_pos rfl] at hn
      simp only [List.length_append, short_length] at hn
      congr 1
      apply ih (n - DATA_LEN)
      · intro i hi
        rw [byteAt_drop, byteAt_drop]
        exact h _ (by omega)
      · omega
    · rw [encAttrs_cons, List.length_append, encAttr, if_neg Bool.false_ne_true] at hn
      simp only [List.length_append, short_length, memcpy_length] at hn
      have hvalue : memcpy (d'.drop DATA_LEN) (shortAt d 2) = memcpy (d.drop DATA_LEN) (shortAt d 2) := by
        apply memcpy_congr
        intro i hi
        rw [byteAt_drop, byteAt_drop]
        exact h _ (by omega)
      rw [hvalue]
      congr 1
      apply ih (n - (DATA_LEN + shortAt d 2))
      · intro i hi
        rw [byteAt_drop, byteAt_drop]
        exact h _ (by omega)
      · omega

/-- Two transforms with the same bytes after the generic header. -/
structure SameBytes (t' t : Buf) : Prop where
  len : shortAt t' 2 = shortAt t 2
  bytes : ∀ i, GEN_LEN ≤ i → i < shortAt t 2 → byteAt t' i = byteAt t i

theorem SameBytes.symm {t' t : Buf} (h : SameBytes t' t) : SameBytes t t' :=
  ⟨h.len.symm, fun i hi hlt => (h.bytes i hi (h.len ▸ hlt)).symm⟩

theorem SameBytes.attributes {t' t : Buf} (h : SameBytes t' t) (hfit : AttrsFit t) :
    attributes t' = attributes t := by
  have hplen : PL_T_LEN = 8 := rfl
  have hgen : GEN_LEN = 4 := rfl
  have hsize : PL_T_LEN + (encAttrs (Proposal.attributes t)).length = shortAt t 2 := hfit
  unfold Proposal.attributes at hsize ⊢
  rw [h.len]
  apply attrLoop_congr _ (shortAt t 2 - PL_T_LEN)
  · intro i hi
    rw [byteAt_drop, byteAt_drop]
    exact h.bytes _ (by omega) (by omega)
  · dsimp only at hsize
    omega

theorem SameBytes.fit {t' t : Buf} (h : SameBytes t' t) (hfit : AttrsFit t) : AttrsFit t' := by
  rw [AttrsFit, h.attributes hfit, h.len]
  exact hfit

theorem SameBytes.same {t' t : Buf} (h : SameBytes t' t) (hfit : AttrsFit t) : SameTrns t' t := by
  have hplen : PL_T_LEN = 8 := rfl
  have hgen : GEN_LEN = 4 := rfl
  have hsize : PL_T_LEN + (encAttrs (Proposal.attributes t)).length = shortAt t 2 := hfit
  refine ⟨?_, ?_, h.attributes hfit⟩
  · rw [tNo, tNo, h.bytes 4 (by omega) (by omega)]
  · rw [tId, tId, h.bytes 5 (by omega) (by omega)]

/-- The copy of a transform, wherever it stands. -/
theorem copy_sameBytes (t : Buf) (r : UInt8) (rest : Buf) (h : GEN_LEN ≤ shortAt t 2) :
    SameBytes (framed ISAKMP_NPTYPE_NONE r (trnsCopy t) ++ rest) t := by
  have hlen := trnsCopy_length t h
  have hlt := shortAt_lt t 2
  obtain ⟨-, hplen⟩ := framed_header ISAKMP_NPTYPE_NONE r (trnsCopy t) rest (by decide) (by omega)
  refine ⟨hplen.trans hlen, fun i hi hbound => ?_⟩
  obtain ⟨j, rfl⟩ : ∃ j, i = GEN_LEN + j := ⟨i - GEN_LEN, by omega⟩
  have hdrop : (framed ISAKMP_NPTYPE_NONE r (trnsCopy t) ++ rest).drop GEN_LEN = trnsCopy t ++ rest := rfl
  have hcopy : byteAt (trnsCopy t) j = byteAt t (GEN_LEN + j) := by
    rw [trnsCopy, byteAt_drop, byteAt, memcpy, List.getD_eq_getElem?_getD, List.getElem?_map,
      List.getElem?_range hbound]
    rfl
  rw [← byteAt_drop, hdrop, ← hcopy, byteAt, byteAt, List.getD_eq_getElem?_getD,
    List.getElem?_append_left (by omega), ← List.getD_eq_getElem?_getD]

/-! ### Values of a part of the attributes -/

/-- A transform states a value of a type. -/
def States (type : ℕ) (as : List Attr) : Prop := ∃ a ∈ as, a.type = type

theorem lastOf_unstated {type : ℕ} {before : ℤ} {as : List Attr} (h : ¬States type as) :
    lastOf type before as = before := by
  rcases lastOf_mem type before as with ⟨hlast, -⟩ | ⟨a, ha, htype, -⟩
  · exact hlast
  · exact absurd ⟨a, ha, htype⟩ h

/-- What a part states where there is one value: that one, if it states any. -/
theorem lastOf_part {type : ℕ} {as bs : List Attr} (hsub : as ⊆ bs) (hall : Agreed type 0 bs)
    (hne : ∀ a ∈ bs, a.type = type → a.lorv ≠ 0) (h : States type as) :
    lastOf type 0 as = lastOf type 0 bs := by
  rcases lastOf_mem type 0 as with ⟨-, hno⟩ | ⟨a, ha, htype, hlast⟩
  · obtain ⟨a, ha, htype⟩ := h
    exact absurd htype (hno a ha)
  · rw [hlast, hall.stated a (hsub ha) htype (hne a (hsub ha) htype)]

theorem lastOf_ne_zero {type : ℕ} {as : List Attr} (hne : ∀ a ∈ as, a.type = type → a.lorv ≠ 0)
    (h : States type as) : lastOf type 0 as ≠ 0 := by
  rcases lastOf_mem type 0 as with ⟨-, hno⟩ | ⟨a, ha, htype, hlast⟩
  · obtain ⟨a, ha, htype⟩ := h
    exact absurd htype (hno a ha)
  · rw [hlast]
    exact_mod_cast hne a ha htype

/-- The modes and groups stated in a transform that was listed are not zero. -/
theorem listed_values {n : ℕ} {p : PropPair} (h : Listed .PH2 n p) (t : Buf) (ht : t ∈ p.trns)
    (a : Attr) (ha : a ∈ attributes t) :
    (a.type = IPSECDOI_ATTR_ENC_MODE → a.lorv ≠ 0) ∧
      (a.type = IPSECDOI_ATTR_GRP_DESC → a.lorv ≠ 0) := by
  have hmode : encModeOk a → a.lorv ≠ 0 := by
    intro hok hzero
    simp [encModeOk, hzero, IPSECDOI_ATTR_ENC_MODE_TUNNEL, IPSECDOI_ATTR_ENC_MODE_TRNS, nattUdpEncap,
      IPSECDOI_ATTR_ENC_MODE_UDPTUNNEL_RFC, IPSECDOI_ATTR_ENC_MODE_UDPTRNS_RFC,
      IPSECDOI_ATTR_ENC_MODE_UDPTUNNEL_DRAFT, IPSECDOI_ATTR_ENC_MODE_UDPTRNS_DRAFT] at hok
  have hgroup : grpDescOk a → a.lorv ≠ 0 := by
    intro hok hzero
    simp [grpDescOk, hzero, algOakleyDhdefOk] at hok
  have hipsec : ∀ protoId, checkAttrIpsec protoId t → (a.type = IPSECDOI_ATTR_ENC_MODE → encModeOk a) ∧
      (a.type = IPSECDOI_ATTR_GRP_DESC → grpDescOk a) := by
    intro protoId hok
    unfold checkAttrIpsec at hok
    dsimp only at hok
    split_ifs at hok with hall
    have hattr := List.all_eq_true.mp (by simpa using hall) a ha
    constructor
    · intro htype
      rwa [ipsecAttrOk, htype, if_pos rfl] at hattr
    · intro htype
      rwa [ipsecAttrOk, htype, if_neg (by decide), if_neg (by decide), if_neg (by decide),
        if_neg (by decide), if_pos rfl] at hattr
  have hipcomp : checkAttrIpcomp t → (a.type = IPSECDOI_ATTR_ENC_MODE → encModeOk a) ∧
      (a.type = IPSECDOI_ATTR_GRP_DESC → grpDescOk a) := by
    intro hok
    have hattr := List.all_eq_true.mp hok a ha
    constructor
    · intro htype
      rwa [ipcompAttrOk, htype, if_pos rfl] at hattr
    · intro htype
      rwa [ipcompAttrOk, htype, if_neg (by decide), if_neg (by decide), if_neg (by decide),
        if_pos rfl] at hattr
  have hok := (getTransform_mem _ _ h.found t ht).2.2
  have hboth : (a.type = IPSECDOI_ATTR_ENC_MODE → encModeOk a) ∧
      (a.type = IPSECDOI_ATTR_GRP_DESC → grpDescOk a) := by
    rcases checkProtocol_ph2 (protoOf p) h.protocol with hid | hid | hid
    all_goals
      replace hid : protoId p.prop = _ := hid
      rw [hid] at hok
    · exact hipsec _ (Bool.and_eq_true_iff.mp hok).2
    · exact hipsec _ (Bool.and_eq_true_iff.mp hok).2
    · exact hipcomp (Bool.and_eq_true_iff.mp hok).2
  exact ⟨fun htype => hmode (hboth.1 htype), fun htype => hgroup (hboth.2 htype)⟩

/-! ### What a reply is to say -/

/-- The lifetime in seconds as the claim level reduces it. -/
def reducedLife (level : PropCheck) (life own : ℤ) : ℤ := if level = .CLAIM then min life own else life

def algorithms (tr : Satrns) : ℤ × ℤ × ℤ := (tr.trnsId, tr.authtype, tr.encklen)

/-- What a proposal of a reply says by itself is what is approved for its protocol. -/
structure SaysAlone (ph1 : Ph1) (own approval : Saprop) (pr : Saproto) (p : PropPair) : Prop where
  one : ∃ t, p.trns = [t] ∧ AttrsFit t
  decoded : ∃ q pr', aproppair2saprop [p] = some q ∧ q.head = [pr'] ∧
    pr'.head.map algorithms = pr.head.map algorithms ∧
    (adjustEncmode ph1 pr').encmode = pr.encmode ∧ q.pfsGroup = approval.pfsGroup ∧
    q.lifebyte = approval.lifebyte ∧
    reducedLife ph1.pcheckLevel q.lifetime own.lifetime = approval.lifetime

/-- The protocols of an approval with the SPIs they were given. -/
def WithSpis (head prs : List Saproto) : Prop :=
  List.Forall₂ (fun pr' pr => ∃ spi, spi.length = 4 ∧ pr' = { pr with spi := spi }) head prs

/-- The one proposal of a protocol. -/
def OneOf (ps : List PropPair) (pr : Saproto) (p : PropPair) : Prop :=
  (ps.filter fun p => protoId p.prop = pr.protoId) = [p]

structure Answers (ph1 : Ph1) (own approval : Saprop) (saRet : Buf) : Prop where
  alone : ∃ ps, wireProposals saRet = some ps ∧
    ∀ pr ∈ approval.head, ∃ p, OneOf ps pr p ∧ SaysAlone ph1 own approval pr p
  spis : ∀ head, WithSpis head approval.head → ∃ sa ps,
    ipsecdoiUpdatespi { approval with head := head } saRet = (true, sa) ∧
      wireProposals sa = some ps ∧ ∀ pr ∈ head, ∃ p, OneOf ps pr p ∧
        memcpy (p.prop.drop PL_P_LEN) (spiSize p.prop) = pr.spi.drop (4 - pr.spisize)

/-! ### What is asked of the request -/

/-- The transform of a payload that goes with the protocol of ours. -/
def matched (ph1 : Ph1) (own : Saprop) (p : PropPair) : Option Buf :=
  (own.head.find? fun pr2 => pr2.protoId = protoId p.prop).bind fun pr2 =>
    p.trns.find? fun t => pr2.head.any fun tr2 => cmpsatrns (trnsOf t) tr2 ph1.pcheckLevel = 0

/-- The transform that is answered for one: the first with its number. -/
def echoed (p : PropPair) (t : Buf) : Option Buf := p.trns.find? fun t' => tNo t' = tNo t

/-- What the transform answered states for the whole number. -/
structure StatesAll (ph1 : Ph1) (own : Saprop) (pp : List PropPair) (p : PropPair) (t t' : Buf) :
    Prop where
  fit : AttrsFit t'
  same : algorithms (trnsOf t') = algorithms (trnsOf t)
  mode : States IPSECDOI_ATTR_ENC_MODE (attributes t') ∨
    (adjustEncmode ph1 (protoOf p)).encmode = IPSECDOI_ATTR_ENC_MODE_TRNS
  group : States IPSECDOI_ATTR_GRP_DESC (attributes t') ∨
    ∀ q ∈ pp, ∀ u ∈ q.trns, ¬States IPSECDOI_ATTR_GRP_DESC (attributes u)
  lifebyte : ∀ u ∈ (pp.flatMap PropPair.trns).getLast?, (livesOf t').lifebyte = (livesOf u).lifebyte
  lifetime : ∀ u ∈ (pp.flatMap PropPair.trns).getLast?,
    (livesOf t').lifetime = (livesOf u).lifetime ∨
      ph1.pcheckLevel = .CLAIM ∧ own.lifetime ≤ (livesOf t').lifetime ∧
        own.lifetime ≤ (livesOf u).lifetime

/-- No protocol twice, and for each the transform answered speaks for all of them. -/
structure AnswersAll (ph1 : Ph1) (own : Saprop) (pp : List PropPair) : Prop where
  distinct : (pp.map fun p => protoId p.prop).Nodup
  states : ∀ p ∈ pp, ∀ t ∈ matched ph1 own p, ∀ t' ∈ echoed p t, StatesAll ph1 own pp p t t'

/-- The pairs of the number that is answered, and the proposal of ours they go with. -/
def selected (ph1 : Ph1) (proposal : List Saprop) (sa : Buf) (l : ℕ) :
    Option (List PropPair × Saprop) :=
  (getProppair sa l .PH2).bind fun pair =>
    (firstNumber ph1 .RESPONDER proposal pair).bind fun i =>
      (proposal.find? fun q2 => FirstMatches ph1 .RESPONDER (decoded (pair i)) q2).map fun own =>
        (pair i, own)

/-! ### One transform and all of them -/

section
variable {ph1 : Ph1} {n : ℕ} {pp : List PropPair}

/-- What success of the decoding says about the values stated. -/
theorem decoded_agreed {q : Saprop} (h : aproppair2saprop pp = some q) :
    Agreed IPSECDOI_ATTR_GRP_DESC 0 ((pp.flatMap PropPair.trns).flatMap attributes) ∧
      ∀ p ∈ pp, spiSize p.prop ≤ 4 ∧ Agreed IPSECDOI_ATTR_ENC_MODE 0 (p.trns.flatMap attributes) ∧
        ∀ t ∈ p.trns, ∃ pp₁ pr₁, pr₁.protoId = protoId p.prop ∧
          ipsecdoiT2satrns t pp₁ pr₁ ≠ none := by
  cases pp with
  | nil => exact absurd h (by simp [aproppair2saprop])
  | cons p pp =>
    have hloop : protoLoop (p :: pp)
        { propNo := pNo p.prop
          lifetime := 0
          lifebyte := 0
          pfsGroup := 0
          claim := 0
          head := [] } ≠ none := by
      intro hnone
      rw [aproppair2saprop, hnone] at h
      exact absurd h (by simp)
    exact protoLoop_agreed _ _ hloop

theorem mode_iff (hlisted : ∀ p ∈ pp, Listed .PH2 n p) {q : Saprop}
    (h : aproppair2saprop pp = some q) {p p' : PropPair} {t t' : Buf} (hp : p ∈ pp) (ht : t ∈ p.trns)
    (hp' : p'.trns = [t']) (hattrs : attributes t' = attributes t) :
    (adjustEncmode ph1 (protoOf p')).encmode = (adjustEncmode ph1 (protoOf p)).encmode ↔
      States IPSECDOI_ATTR_ENC_MODE (attributes t) ∨
        (adjustEncmode ph1 (protoOf p)).encmode = IPSECDOI_ATTR_ENC_MODE_TRNS := by
  obtain ⟨-, hagreed, -⟩ := (decoded_agreed h).2 p hp
  have hne : ∀ a ∈ p.trns.flatMap attributes, a.type = IPSECDOI_ATTR_ENC_MODE → a.lorv ≠ 0 := by
    intro a ha
    obtain ⟨u, hu, ha⟩ := List.mem_flatMap.mp ha
    exact (listed_values (hlisted p hp) u hu a ha).1
  have hmode : (protoOf p').encmode = modeOf [t'] := by rw [protoOf, hp']
  have hone : modeOf [t'] =
      if lastOf IPSECDOI_ATTR_ENC_MODE 0 (attributes t) = 0 then IPSECDOI_ATTR_ENC_MODE_TRNS
      else lastOf IPSECDOI_ATTR_ENC_MODE 0 (attributes t) := by
    rw [modeOf, List.flatMap_singleton, hattrs]
  by_cases hstates : States IPSECDOI_ATTR_ENC_MODE (attributes t)
  · have hsub : attributes t ⊆ p.trns.flatMap attributes := fun a ha => List.mem_flatMap.mpr ⟨t, ht, ha⟩
    have hsame : (protoOf p').encmode = (protoOf p).encmode := by
      rw [hmode, hone, lastOf_part hsub hagreed hne hstates]
      rfl
    have hadjusted : (adjustEncmode ph1 (protoOf p')).encmode = (adjustEncmode ph1 (protoOf p)).encmode := by
      rw [adjustEncmode_encmode, adjustEncmode_encmode, hsame]
    exact ⟨fun _ => .inl hstates, fun _ => hadjusted⟩
  · have htrns : (adjustEncmode ph1 (protoOf p')).encmode = IPSECDOI_ATTR_ENC_MODE_TRNS := by
      rw [adjustEncmode_encmode, hmode, hone, lastOf_unstated hstates, if_pos rfl]
      have hudp : nattUdpEncap IPSECDOI_ATTR_ENC_MODE_TRNS = false := rfl
      rw [hudp, Bool.and_false]
      rfl
    rw [htrns]
    constructor
    · exact fun heq => .inr heq.symm
    · rintro (hs | heq)
      · exact absurd hs hstates
      · exact heq.symm

theorem group_iff (hlisted : ∀ p ∈ pp, Listed .PH2 n p) {q : Saprop}
    (h : aproppair2saprop pp = some q) {p : PropPair} {t : Buf} (hp : p ∈ pp) (ht : t ∈ p.trns) :
    lastOf IPSECDOI_ATTR_GRP_DESC 0 (attributes t) = (decoded pp).pfsGroup ↔
      States IPSECDOI_ATTR_GRP_DESC (attributes t) ∨
        ∀ q ∈ pp, ∀ u ∈ q.trns, ¬States IPSECDOI_ATTR_GRP_DESC (attributes u) := by
  have hgroup : (decoded pp).pfsGroup =
      lastOf IPSECDOI_ATTR_GRP_DESC 0 ((pp.flatMap PropPair.trns).flatMap attributes) := rfl
  have hmem : ∀ a, a ∈ (pp.flatMap PropPair.trns).flatMap attributes ↔
      ∃ q ∈ pp, ∃ u ∈ q.trns, a ∈ attributes u := by
    intro a
    simp only [List.mem_flatMap]
    constructor
    · rintro ⟨u, ⟨q, hq, hu⟩, ha⟩
      exact ⟨q, hq, u, hu, ha⟩
    · rintro ⟨q, hq, u, hu, ha⟩
      exact ⟨u, ⟨q, hq, hu⟩, ha⟩
  have hne : ∀ a ∈ (pp.flatMap PropPair.trns).flatMap attributes,
      a.type = IPSECDOI_ATTR_GRP_DESC → a.lorv ≠ 0 := by
    intro a ha
    obtain ⟨q, hq, u, hu, ha⟩ := (hmem a).mp ha
    exact (listed_values (hlisted q hq) u hu a ha).2
  have hall : States IPSECDOI_ATTR_GRP_DESC ((pp.flatMap PropPair.trns).flatMap attributes) ↔
      ∃ q ∈ pp, ∃ u ∈ q.trns, States IPSECDOI_ATTR_GRP_DESC (attributes u) := by
    constructor
    · rintro ⟨a, ha, htype⟩
      obtain ⟨q, hq, u, hu, ha⟩ := (hmem a).mp ha
      exact ⟨q, hq, u, hu, a, ha, htype⟩
    · rintro ⟨q, hq, u, hu, a, ha, htype⟩
      exact ⟨a, (hmem a).mpr ⟨q, hq, u, hu, ha⟩, htype⟩
  rw [hgroup]
  by_cases hstates : States IPSECDOI_ATTR_GRP_DESC (attributes t)
  · have hsub : attributes t ⊆ (pp.flatMap PropPair.trns).flatMap attributes :=
      fun a ha => (hmem a).mpr ⟨p, hp, t, ht, ha⟩
    exact ⟨fun _ => .inl hstates, fun _ => lastOf_part hsub (decoded_agreed h).1 hne hstates⟩
  · rw [lastOf_unstated hstates]
    by_cases hany : States IPSECDOI_ATTR_GRP_DESC ((pp.flatMap PropPair.trns).flatMap attributes)
    · have hzero := lastOf_ne_zero hne hany
      obtain ⟨q, hq, u, hu, hs⟩ := hall.mp hany
      constructor
      · exact fun heq => absurd heq.symm hzero
      · rintro (hs' | hno)
        · exact absurd hs' hstates
        · exact absurd hs (hno q hq u hu)
    · rw [lastOf_unstated hany]
      refine ⟨fun _ => .inr fun q hq u hu hs => hany (hall.mpr ⟨q, hq, u, hu, hs⟩), fun _ => rfl⟩

theorem reducedLife_iff (level : PropCheck) (life life' own : ℤ) :
    reducedLife level life own = reducedLife level life' own ↔
      life = life' ∨ level = .CLAIM ∧ own ≤ life ∧ own ≤ life' := by
  unfold reducedLife
  by_cases hclaim : level = .CLAIM
  · rw [if_pos hclaim, if_pos hclaim]
    simp only [hclaim, true_and]
    omega
  · simp [hclaim]

theorem decoded_last (hlisted : ∀ p ∈ pp, Listed .PH2 n p) (hne : pp ≠ []) :
    ∃ u, (pp.flatMap PropPair.trns).getLast? = some u ∧
      (decoded pp).lifebyte = (livesOf u).lifebyte ∧ (decoded pp).lifetime = (livesOf u).lifetime := by
  obtain ⟨p, ps, rfl⟩ := List.exists_cons_of_ne_nil hne
  obtain ⟨t, ts, hts⟩ := List.exists_cons_of_ne_nil (hlisted p List.mem_cons_self).nonempty
  obtain ⟨u, hu⟩ : ∃ u, ((p :: ps).flatMap PropPair.trns).getLast? = some u := by
    rw [List.flatMap_cons, hts, List.cons_append]
    exact ⟨_, List.getLast?_eq_some_getLast (List.cons_ne_nil _ _)⟩
  refine ⟨u, hu, ?_, ?_⟩
  · show (((p :: ps).flatMap PropPair.trns).getLast?.elim _ _) = _
    rw [hu]
    rfl
  · show (((p :: ps).flatMap PropPair.trns).getLast?.elim _ _) = _
    rw [hu]
    rfl

theorem decoded_single {p : PropPair} {t : Buf} (hp : p.trns = [t]) :
    (decoded [p]).head = [protoOf p] ∧
      (decoded [p]).pfsGroup = lastOf IPSECDOI_ATTR_GRP_DESC 0 (attributes t) ∧
      (decoded [p]).lifebyte = (livesOf t).lifebyte ∧ (decoded [p]).lifetime = (livesOf t).lifetime := by
  simp [decoded, propAfterAll, hp]

/-- A proposal with one transform is decoded where this was among those decoded. -/
theorem aproppair2saprop_single {q : Saprop} (h : aproppair2saprop pp = some q) {p p' : PropPair}
    {t t' : Buf} (hp : p ∈ pp) (ht : t ∈ p.trns) (hproto : protoId p'.prop = protoId p.prop)
    (hsize : spiSize p'.prop = spiSize p.prop) (hp' : p'.trns = [t'])
    (hattrs : attributes t' = attributes t) : aproppair2saprop [p'] = some (decoded [p']) := by
  obtain ⟨hspi, -, htrns⟩ := (decoded_agreed h).2 p hp
  obtain ⟨pp₁, pr₁, hpr₁, hdecoded⟩ := htrns t ht
  have hsome : aproppair2saprop [p'] ≠ none := by
    unfold aproppair2saprop protoLoop
    dsimp only
    rw [if_neg (by rw [hsize]; omega), hp', trnsLoop]
    obtain ⟨x, hx⟩ := Option.ne_none_iff_exists'.mp (ipsecdoiT2satrns_alone t t' hattrs pp₁
      { propNo := pNo p'.prop
        lifetime := 0
        lifebyte := 0
        pfsGroup := 0
        claim := 0
        head := [] } pr₁
      { protoId := protoId p'.prop
        spisize := spiSize p'.prop
        encmode := 0
        udpEncap := false
        spi := List.replicate (4 - spiSize p'.prop) 0 ++
          memcpy (p'.prop.drop PL_P_LEN) (spiSize p'.prop)
        spiP := List.replicate 4 0
        reqidOut := 0
        reqidIn := 0
        head := [] } rfl rfl (hproto.trans hpr₁.symm) hdecoded)
    rw [hx]
    simp [trnsLoop, protoLoop]
  obtain ⟨q', hq'⟩ := Option.ne_none_iff_exists'.mp hsome
  rw [hq', aproppair2saprop_eq _ _ hq']

/-- An approval made of the pairs: what it says of no protocol in particular. -/
structure SharedOf (ph1 : Ph1) (own approval : Saprop) (pp : List PropPair) : Prop where
  pfsGroup : approval.pfsGroup = (decoded pp).pfsGroup
  lifebyte : approval.lifebyte = (decoded pp).lifebyte
  lifetime : approval.lifetime = reducedLife ph1.pcheckLevel (decoded pp).lifetime own.lifetime

/-- A protocol of an approval made of a payload and one transform of it. -/
structure ProtoOf (ph1 : Ph1) (pr : Saproto) (p : PropPair) (t : Buf) : Prop where
  protoId : pr.protoId = Proposal.protoId p.prop
  spisize : pr.spisize = spiSize p.prop
  encmode : pr.encmode = (adjustEncmode ph1 (protoOf p)).encmode
  head : pr.head = [trnsOf t]

theorem saysAlone_iff (hlisted : ∀ p ∈ pp, Listed .PH2 n p) {q own approval : Saprop}
    (h : aproppair2saprop pp = some q) (hshared : SharedOf ph1 own approval pp) {pr : Saproto}
    {p p' : PropPair} {t t' t'' : Buf} (hp : p ∈ pp) (ht' : t' ∈ p.trns)
    (hpr : ProtoOf ph1 pr p t) (hproto : protoId p'.prop = protoId p.prop)
    (hsize : spiSize p'.prop = spiSize p.prop) (hp' : p'.trns = [t'']) (hbytes : SameBytes t'' t') :
    SaysAlone ph1 own approval pr p' ↔ StatesAll ph1 own pp p t t' := by
  have hne : pp ≠ [] := List.ne_nil_of_mem hp
  obtain ⟨u, hu, hlifebyte, hlifetime⟩ := decoded_last hlisted hne
  obtain ⟨hhead, hpfs, hbyte, hlife⟩ := decoded_single hp'
  -- under the common condition each part of the one is a part of the other
  have hparts : AttrsFit t' →
      (((decoded [p']).head.map fun pr' => pr'.head.map algorithms) = [pr.head.map algorithms] ↔
          algorithms (trnsOf t') = algorithms (trnsOf t)) ∧
        ((adjustEncmode ph1 (protoOf p')).encmode = pr.encmode ↔
          States IPSECDOI_ATTR_ENC_MODE (attributes t') ∨
            (adjustEncmode ph1 (protoOf p)).encmode = IPSECDOI_ATTR_ENC_MODE_TRNS) ∧
        ((decoded [p']).pfsGroup = approval.pfsGroup ↔
          States IPSECDOI_ATTR_GRP_DESC (attributes t') ∨
            ∀ q ∈ pp, ∀ u ∈ q.trns, ¬States IPSECDOI_ATTR_GRP_DESC (attributes u)) ∧
        ((decoded [p']).lifebyte = approval.lifebyte ↔ (livesOf t').lifebyte = (livesOf u).lifebyte) ∧
        (reducedLife ph1.pcheckLevel (decoded [p']).lifetime own.lifetime = approval.lifetime ↔
          (livesOf t').lifetime = (livesOf u).lifetime ∨ ph1.pcheckLevel = .CLAIM ∧
            own.lifetime ≤ (livesOf t').lifetime ∧ own.lifetime ≤ (livesOf u).lifetime) := by
    intro hfit
    have hsame : SameTrns t'' t' := hbytes.same hfit
    have hlives : livesOf t'' = livesOf t' := by rw [livesOf, livesOf, hsame.attributes]
    have htrns : trnsOf t'' = trnsOf t' := by
      rw [trnsOf, trnsOf, hsame.attributes, hsame.no, hsame.id]
    refine ⟨?_, ?_, ?_, ?_, ?_⟩
    · rw [hhead, hpr.head, List.map_singleton, protoOf, hp']
      simp [htrns]
    · rw [hpr.encmode]
      exact mode_iff hlisted h hp ht' hp' hsame.attributes
    · rw [hpfs, hsame.attributes, hshared.pfsGroup]
      exact group_iff hlisted h hp ht'
    · rw [hbyte, hlives, hshared.lifebyte, hlifebyte]
    · rw [hlife, hlives, hshared.lifetime, hlifetime]
      exact reducedLife_iff _ _ _ _
  constructor
  · intro hsays
    obtain ⟨t₁, ht₁, hfit⟩ := hsays.one
    obtain rfl : t'' = t₁ := by simpa [hp'] using ht₁
    have hfit' : AttrsFit t' := hbytes.symm.fit hfit
    obtain ⟨halg, hmode, hgroup, hbytes', hlife'⟩ := hparts hfit'
    obtain ⟨q', pr', hq', hone, halgs, hencmode, hpfs', hlb, hlt⟩ := hsays.decoded
    obtain rfl := aproppair2saprop_eq _ _ hq'
    obtain rfl : protoOf p' = pr' := by simpa [hhead] using hone
    refine ⟨hfit', halg.mp ?_, hmode.mp hencmode, hgroup.mp hpfs', ?_, ?_⟩
    · rw [hhead, List.map_singleton, halgs]
    · intro v hv
      obtain rfl : u = v := Option.some.inj (hu.symm.trans hv)
      exact hbytes'.mp hlb
    · intro v hv
      obtain rfl : u = v := Option.some.inj (hu.symm.trans hv)
      exact hlife'.mp hlt
  · intro hstates
    obtain ⟨halg, hmode, hgroup, hbytes', hlife'⟩ := hparts hstates.fit
    have hdecoded : aproppair2saprop [p'] = some (decoded [p']) :=
      aproppair2saprop_single h hp ht' hproto hsize hp' (hbytes.attributes hstates.fit)
    refine ⟨⟨t'', hp', hbytes.fit hstates.fit⟩, decoded [p'], protoOf p', hdecoded, hhead, ?_,
      hmode.mpr hstates.mode, hgroup.mpr hstates.group, hbytes'.mpr (hstates.lifebyte u hu),
      hlife'.mpr (hstates.lifetime u hu)⟩
    have halgs := halg.mpr hstates.same
    rw [hhead, List.map_singleton] at halgs
    exact List.singleton_inj.mp halgs

end

/-! ### The approval and the answer -/

/-- What the success of `ipsecdoi_selectph2proposal` stands for. -/
structure Selection (ph1 : Ph1) (n : ℕ) (pp : List PropPair) (own approval : Saprop)
    (ret : List PropPair) : Prop where
  listed : ∀ p ∈ pp, Listed .PH2 n p
  decoded : aproppair2saprop pp = some (Proposal.decoded pp)
  compared : (cmpsapropAlloc ph1 (Proposal.decoded pp) own .RESPONDER).new = some approval
  ret : List.Forall₂ (fun p r => answerPair approval p = some r) pp ret

theorem selection_some (ph1 : Ph1) (proposal : List Saprop) (sa : Buf) (l : ℕ) (approval : Saprop)
    (saRet : Buf) (h : ipsecdoiSelectph2proposal ph1 proposal sa l = some (approval, saRet)) :
    ∃ n pp own ret, n < MAXPROPPAIRLEN ∧ selected ph1 proposal sa l = some (pp, own) ∧
      Selection ph1 n pp own approval ret ∧
      saRet = getSabyproppair IPSEC_DOI IPSECDOI_SIT_IDENTITY_ONLY ret := by
  obtain ⟨⟨pair, doi, sit⟩, hpair, h⟩ := Option.bind_eq_some_iff.mp h
  obtain ⟨⟨approval', ret⟩, happroval, heq⟩ := Option.map_eq_some_iff.mp h
  obtain ⟨rfl, rfl⟩ := Prod.mk.inj heq
  obtain ⟨hlisted, rfl, rfl⟩ := getProppairAndDoiSit_listed _ _ _ _ _ _ hpair
  obtain ⟨i, pr0, hlt, hfirst, hdecoded, haccepted, hret⟩ :=
    getPh2approval_some ph1 .RESPONDER _ _ _ _ happroval
  obtain ⟨own, -, hgoes, hown⟩ := firstAccepted_some ph1 .RESPONDER _ _ _ haccepted
  obtain rfl := aproppair2saprop_eq _ _ hdecoded
  refine ⟨i, pair i, own, ret, hlt, ?_, ⟨hlisted i, hdecoded, hown, (PartialRun.mapM_forall₂ _ _ _).mp hret⟩, rfl⟩
  rw [selected, getProppair, hpair, Option.map_some, Option.bind_some, hfirst, Option.bind_some, hgoes]
  rfl

section
variable {ph1 : Ph1} {n : ℕ} {pp ret : List PropPair} {own approval : Saprop}

theorem Selection.shared (h : Selection ph1 n pp own approval ret) :
    SharedOf ph1 own approval pp := by
  obtain ⟨lifetime, lifebyte, pfsGroup, claim, head, hlevel, -, -, rfl⟩ :=
    (cmpsapropAlloc_new ph1 .RESPONDER _ own approval).mp h.compared
  obtain ⟨hlifetime, hlifebyte, hpfs⟩ := checkLevel_some hlevel
  exact ⟨hpfs, hlifebyte, hlifetime⟩

/-- Each protocol of ours beside the one made for it and the payload it was made of. -/
theorem Selection.built (h : Selection ph1 n pp own approval ret) :
    List.Forall₂ (fun pr2 pr => ∃ p t, pp.find? (fun p => protoId p.prop = pr2.protoId) = some p ∧
      p.trns.find? (fun t => pr2.head.any fun tr2 =>
        cmpsatrns (trnsOf t) tr2 ph1.pcheckLevel = 0) = some t ∧
      ProtoOf ph1 pr p t) own.head approval.head := by
  obtain ⟨_, _, _, _, head, -, -, hhead, rfl⟩ :=
    (cmpsapropAlloc_new ph1 .RESPONDER _ own approval).mp h.compared
  have hbuilt := (matchProtos_new ph1 .RESPONDER 0 own.head
    (forall₂_like_refl ph1 (pp.map protoOf)) head).mp hhead
  refine hbuilt.imp fun pr2 pr hpr => ?_
  obtain ⟨x, hx, hmatch⟩ := Option.bind_eq_some_iff.mp hpr
  rw [firstLike, List.find?_map] at hx
  obtain ⟨p, hp, rfl⟩ := Option.map_eq_some_iff.mp hx
  have hmatch : (matchProto ph1 (protoOf p) pr2).1 = some pr := hmatch
  rw [matchProto_new] at hmatch
  split_ifs at hmatch
  obtain ⟨tr, htr, rfl⟩ := Option.map_eq_some_iff.mp hmatch
  rw [findTrns, show (protoOf p).head = p.trns.map trnsOf from rfl, List.find?_map] at htr
  obtain ⟨t, ht, rfl⟩ := Option.map_eq_some_iff.mp htr
  exact ⟨p, t, hp, ht, by simp [newProto, protoOf], by simp [newProto, protoOf], by simp [newProto],
    by simp [newProto]⟩

theorem Selection.lengths (h : Selection ph1 n pp own approval ret) :
    pp.length = approval.head.length := by
  obtain ⟨_, _, _, _, head, -, hlen, -, heq⟩ :=
    (cmpsapropAlloc_new ph1 .RESPONDER _ own approval).mp h.compared
  rw [← h.built.length_eq, ← hlen]
  exact (List.length_map protoOf).symm

/-- The answer for a payload is one of its transforms, with the number of the one chosen. -/
theorem answerPair_some {p r : PropPair} (h : answerPair approval p = some r) :
    ∃ pr tr t', approval.head.find? (fun sp => sp.protoId = protoId p.prop) = some pr ∧
      pr.head = [tr] ∧ p.trns.find? (fun t => tr.trnsNo = tNo t) = some t' ∧
      r = { prop := p.prop, trns := [t'] } := by
  unfold answerPair at h
  split at h
  · exact absurd h (by simp)
  · rename_i pr hpr
    split at h
    · rename_i tr htr
      obtain ⟨t', ht', rfl⟩ := Option.map_eq_some_iff.mp h
      exact ⟨pr, tr, t', hpr, htr, ht', rfl⟩
    · exact absurd h (by simp)

theorem Selection.protocols (h : Selection ph1 n pp own approval ret) :
    (∀ p ∈ pp, ∃ pr ∈ approval.head, pr.protoId = protoId p.prop) ∧
      ∀ pr ∈ approval.head, ∃ p ∈ pp, pr.protoId = protoId p.prop := by
  constructor
  · intro p hp
    obtain ⟨r, -, hr⟩ := forall₂_left h.ret p hp
    obtain ⟨pr, _, _, hpr, -⟩ := answerPair_some hr
    exact ⟨pr, List.mem_of_find?_eq_some hpr, by simpa using List.find?_some hpr⟩
  · intro pr hpr
    obtain ⟨pr2, -, p, t, hp, -, hproto⟩ := forall₂_right h.built pr hpr
    exact ⟨p, List.mem_of_find?_eq_some hp, hproto.protoId⟩

theorem Selection.nodup (h : Selection ph1 n pp own approval ret)
    (hdistinct : (pp.map fun p => protoId p.prop).Nodup) :
    (approval.head.map Saproto.protoId).Nodup := by
  have hsub : (pp.map fun p => protoId p.prop) ⊆ approval.head.map Saproto.protoId := by
    intro k hk
    obtain ⟨p, hp, rfl⟩ := List.mem_map.mp hk
    obtain ⟨pr, hpr, hid⟩ := h.protocols.1 p hp
    exact List.mem_map.mpr ⟨pr, hpr, hid⟩
  have hperm := (List.subperm_of_subset hdistinct hsub).perm_of_length_le (by
    simp [h.lengths])
  exact hperm.nodup_iff.mp hdistinct

/-- Where no protocol is repeated, everything about a payload is about its own protocol. -/
theorem Selection.answered (h : Selection ph1 n pp own approval ret)
    (hdistinct : (pp.map fun p => protoId p.prop).Nodup) {p r : PropPair} (hp : p ∈ pp)
    (hr : answerPair approval p = some r) :
    ∃ pr ∈ approval.head, ∃ t ∈ matched ph1 own p, ∃ t' ∈ echoed p t,
      ProtoOf ph1 pr p t ∧ r = { prop := p.prop, trns := [t'] } := by
  have hnodup := h.nodup hdistinct
  obtain ⟨pr, tr, t', hpr, htr, ht', rfl⟩ := answerPair_some hr
  have hmem := List.mem_of_find?_eq_some hpr
  have hid : pr.protoId = protoId p.prop := by simpa using List.find?_some hpr
  obtain ⟨pr2, hpr2, p₀, t, hp₀, ht, hproto⟩ := forall₂_right h.built pr hmem
  have hp₀mem := List.mem_of_find?_eq_some hp₀
  have hid₂ : protoId p₀.prop = pr2.protoId := by simpa using List.find?_some hp₀
  obtain rfl : p₀ = p :=
    List.inj_on_of_nodup_map hdistinct hp₀mem hp (hproto.protoId.symm.trans hid)
  have hids : own.head.map Saproto.protoId = approval.head.map Saproto.protoId := by
    refine map_eq_of_forall₂ (fun a b hab => ?_) h.built
    obtain ⟨q, _, hq, -, hb⟩ := hab
    have hqid : protoId q.prop = a.protoId := by simpa using List.find?_some hq
    rw [← hqid, hb.protoId]
  have hown : own.head.find? (fun pr2 => pr2.protoId = protoId p₀.prop) = some pr2 := by
    rw [hid₂]
    exact find_of_nodup Saproto.protoId own.head pr2 (hids ▸ hnodup) hpr2
  refine ⟨pr, hmem, t, ?_, t', ?_, hproto, rfl⟩
  · rw [matched, hown]
    exact ht
  · obtain rfl : trnsOf t = tr := by simpa [hproto.head] using htr
    rw [echoed, Option.mem_def, ← ht']
    congr 1
    funext u
    simp [trnsOf, eq_comm]

/-- Where the pairs of the answer lie in it. -/
theorem Selection.answer (h : Selection ph1 n pp own approval ret) {p r : PropPair} (hp : p ∈ pp)
    (hr : answerPair approval p = some r) :
    ∃ t' ∈ p.trns, r = { prop := p.prop, trns := [t'] } ∧ Fits (blank r) := by
  obtain ⟨_, _, t', -, -, ht', rfl⟩ := answerPair_some hr
  have hmem := List.mem_of_find?_eq_some ht'
  obtain ⟨hgen, hroom, -⟩ := getTransform_mem _ _ (h.listed p hp).found t' hmem
  exact ⟨t', hmem, rfl, List.length_replicate, hgen,
    Nat.lt_of_le_of_lt hroom (shortAt_lt _ _)⟩

theorem Selection.fits (h : Selection ph1 n pp own approval ret) : ∀ r ∈ ret, Fits (blank r) := by
  intro r hr
  obtain ⟨p, hp, hans⟩ := forall₂_right h.ret r hr
  obtain ⟨_, -, -, hfits⟩ := h.answer hp hans
  exact hfits

theorem Selection.ids (h : Selection ph1 n pp own approval ret) :
    (ret.map fun r => protoId r.prop) = pp.map fun p => protoId p.prop := by
  refine (map_eq_of_forall₂ (fun p r hr => ?_) h.ret).symm
  obtain ⟨_, _, t', -, -, -, rfl⟩ := answerPair_some hr
  rfl

end

/-! ### Payloads of one protocol each -/

section
variable {α κ : Type} [DecidableEq κ] (key : α → κ)

theorem filter_of_nodup (l : List α) (x : α) (hl : (l.map key).Nodup) (hx : x ∈ l) :
    (l.filter fun y => key y = key x) = [x] := by
  induction l with
  | nil => cases hx
  | cons y l ih =>
    rw [List.map_cons, List.nodup_cons] at hl
    rcases List.mem_cons.mp hx with rfl | hx
    · have hno : (l.filter fun y => key y = key x) = [] := by
        refine List.filter_eq_nil_iff.mpr fun z hz hkey => hl.1 ?_
        exact List.mem_map.mpr ⟨z, hz, of_decide_eq_true hkey⟩
      rw [List.filter_cons_of_pos (by simp), hno]
    · have hkey : key y ≠ key x := fun he => hl.1 (he ▸ List.mem_map_of_mem hx)
      rw [List.filter_cons_of_neg (by simpa using hkey)]
      exact ih hl.2 hx

theorem nodup_of_filter (l : List α) (h : ∀ x ∈ l, ∃ y, (l.filter fun z => key z = key x) = [y]) :
    (l.map key).Nodup := by
  rw [List.nodup_iff_count_le_one]
  intro k
  by_cases hk : k ∈ l.map key
  · obtain ⟨x, hx, rfl⟩ := List.mem_map.mp hk
    obtain ⟨y, hy⟩ := h x hx
    rw [List.count_eq_countP, List.countP_map, List.countP_eq_length_filter]
    have hfilter : (l.filter ((fun k => k == key x) ∘ key)) = [y] := by
      rw [← hy]
      congr 1
    rw [hfilter]
    exact Nat.le_refl 1
  · rw [List.count_eq_zero_of_not_mem hk]
    exact Nat.zero_le 1

end

theorem readAs_ids {ps : List PropPair} {xs : List (Buf × PropPair)} (h : List.Forall₂ ReadAs ps xs) :
    (ps.map fun p => protoId p.prop) = xs.map fun x => protoId x.2.prop :=
  map_eq_of_forall₂ (fun _ _ hx => hx.protocol) h

section
variable {ph1 : Ph1} {n : ℕ} {pp ret : List PropPair} {own approval : Saprop}

/-- A proposal of the answer beside the payload it answers. -/
theorem Selection.says_iff (h : Selection ph1 n pp own approval ret) {p r p' : PropPair} {pr : Saproto}
    {t t' : Buf} (hp : p ∈ pp) (hr : answerPair approval p = some r) (hpr : ProtoOf ph1 pr p t)
    (hreq : r = { prop := p.prop, trns := [t'] }) (spi : Buf) (hread : ReadAs p' (spi, r)) :
    SaysAlone ph1 own approval pr p' ↔ StatesAll ph1 own pp p t t' := by
  obtain ⟨t₁, ht₁, heq, hfits⟩ := h.answer hp hr
  obtain ⟨-, ht⟩ := PropPair.mk.inj (hreq.symm.trans heq)
  obtain rfl : t' = t₁ := List.singleton_inj.mp ht
  subst hreq
  obtain ⟨rest, htrns⟩ := hread.trns
  exact saysAlone_iff h.listed h.decoded h.shared hp ht₁ hpr hread.protocol hread.spiSize htrns
    (copy_sameBytes _ _ _ hfits.gen)

theorem Selection.answersAll (h : Selection ph1 n pp own approval ret)
    (hanswers : Answers ph1 own approval
      (getSabyproppair IPSEC_DOI IPSECDOI_SIT_IDENTITY_ONLY ret)) : AnswersAll ph1 own pp := by
  obtain ⟨ps, hps, hall⟩ := hanswers.alone
  rw [getSabyproppair_answerWith ret h.fits] at hps
  obtain ⟨hread, -⟩ := (wireProposals_answerWith _ (List.forall_mem_map.mpr h.fits)).1 ps hps
  have hids : (ps.map fun p => protoId p.prop) = pp.map fun p => protoId p.prop := by
    rw [readAs_ids hread, List.map_map]
    exact h.ids
  have hdistinct : (pp.map fun p => protoId p.prop).Nodup := by
    rw [← hids]
    apply nodup_of_filter
    intro p' hp'
    have hmem : protoId p'.prop ∈ pp.map fun p => protoId p.prop :=
      hids ▸ List.mem_map_of_mem (f := fun p => protoId p.prop) hp'
    obtain ⟨p, hp, hid⟩ := List.mem_map.mp hmem
    obtain ⟨pr, hpr, hprid⟩ := h.protocols.1 p hp
    obtain ⟨p'', hone, -⟩ := hall pr hpr
    refine ⟨p'', ?_⟩
    rw [← hid, ← hprid]
    exact hone
  refine ⟨hdistinct, fun p hp t ht t' ht' => ?_⟩
  obtain ⟨r, hrmem, hr⟩ := forall₂_left h.ret p hp
  obtain ⟨pr, hpr, t₁, ht₁, t₁', ht₁', hproto, hreq⟩ := h.answered hdistinct hp hr
  obtain rfl : t = t₁ := Option.some.inj (ht.symm.trans ht₁)
  obtain rfl : t' = t₁' := Option.some.inj (ht'.symm.trans ht₁')
  obtain ⟨p', hp', hreads⟩ := forall₂_right hread (blank r) (List.mem_map_of_mem hrmem)
  obtain ⟨p'', hone, hsays⟩ := hall pr hpr
  have hmem : p' ∈ ps.filter fun p => protoId p.prop = pr.protoId := by
    refine List.mem_filter.mpr ⟨hp', ?_⟩
    have hid : protoId p'.prop = pr.protoId := by
      rw [hreads.protocol, hproto.protoId, blank, hreq]
    simpa using hid
  rw [show (ps.filter fun p => protoId p.prop = pr.protoId) = [p''] from hone] at hmem
  obtain rfl := List.mem_singleton.mp hmem
  exact (h.says_iff hp hr hproto hreq _ hreads).mp hsays

/-- Everything about a pair of the answer where the transforms answered speak for all. -/
structure AnswerOf (ph1 : Ph1) (pp : List PropPair) (own approval : Saprop) (r : PropPair) (p : PropPair)
    (pr : Saproto) (t t' : Buf) : Prop where
  payload : p ∈ pp
  proto : pr ∈ approval.head
  answered : answerPair approval p = some r
  madeOf : ProtoOf ph1 pr p t
  eq : r = { prop := p.prop, trns := [t'] }
  states : StatesAll ph1 own pp p t t'
  answerable : Answerable .PH2 r

theorem Selection.answerOf (h : Selection ph1 n pp own approval ret) (hall : AnswersAll ph1 own pp)
    {r : PropPair} (hr : r ∈ ret) : ∃ p pr t t', AnswerOf ph1 pp own approval r p pr t t' := by
  obtain ⟨p, hp, hans⟩ := forall₂_right h.ret r hr
  obtain ⟨pr, hpr, t, ht, t', ht', hproto, hreq⟩ := h.answered hall.distinct hp hans
  have hstates := hall.states p hp t ht t' ht'
  refine ⟨p, pr, t, t', hp, hpr, hans, hproto, hreq, hstates, ?_⟩
  rw [hreq]
  exact (h.listed p hp).answerable t' (List.mem_of_find?_eq_some ht') hstates.fit

/-- The answer read back, whatever SPIs are in it. -/
theorem Selection.wire (h : Selection ph1 n pp own approval ret) (hall : AnswersAll ph1 own pp)
    (spiOf : PropPair → Buf) (hlen : ∀ r ∈ ret, (spiOf r).length = spiSize r.prop) :
    ∃ ps, wireProposals (answerWith (ret.map fun r => (spiOf r, r))) = some ps ∧
      List.Forall₂ ReadAs ps (ret.map fun r => (spiOf r, r)) ∧
      (ps.map fun p => protoId p.prop).Nodup := by
  have hfits : ∀ x ∈ ret.map fun r => (spiOf r, r), Fits x := by
    refine List.forall_mem_map.mpr fun r hr => ?_
    exact ⟨hlen r hr, (h.fits r hr).gen, (h.fits r hr).room⟩
  have hcopied : ∀ x ∈ ret.map fun r => (spiOf r, r), trnsCopy (firstTrns x.2) ≠ [] := by
    refine List.forall_mem_map.mpr fun r hr => ?_
    obtain ⟨p, pr, t, t', hans⟩ := h.answerOf hall hr
    rw [trnsCopy_fit _ hans.answerable.fit]
    exact List.cons_ne_nil _ _
  obtain ⟨hsome, hne⟩ := wireProposals_answerWith _ hfits
  obtain ⟨ps, hps⟩ := Option.ne_none_iff_exists'.mp (hne hcopied)
  obtain ⟨hread, -⟩ := hsome ps hps
  refine ⟨ps, hps, hread, ?_⟩
  rw [readAs_ids hread, List.map_map]
  exact h.ids ▸ hall.distinct

/-- The pair of the answer and the proposal read back for an approved protocol. -/
theorem Selection.oneOf (h : Selection ph1 n pp own approval ret) (hall : AnswersAll ph1 own pp)
    {spiOf : PropPair → Buf} {ps : List PropPair}
    (hread : List.Forall₂ ReadAs ps (ret.map fun r => (spiOf r, r)))
    (hnodup : (ps.map fun p => protoId p.prop).Nodup) {pr : Saproto} (hpr : pr ∈ approval.head) :
    ∃ r ∈ ret, ∃ p t t' p', AnswerOf ph1 pp own approval r p pr t t' ∧ ReadAs p' (spiOf r, r) ∧
      OneOf ps pr p' := by
  obtain ⟨p, hp, hid⟩ := h.protocols.2 pr hpr
  obtain ⟨r, hr, hans⟩ := forall₂_left h.ret p hp
  obtain ⟨q, pr', t, t', hof⟩ := h.answerOf hall hr
  have hprop : q.prop = p.prop := by
    obtain ⟨_, _, _, -, -, -, hreq⟩ := answerPair_some hans
    rw [hreq] at hof
    exact (PropPair.mk.inj hof.eq).1.symm
  have hsame : pr' = pr := by
    refine List.inj_on_of_nodup_map (h.nodup hall.distinct) hof.proto hpr ?_
    rw [hof.madeOf.protoId, hprop, hid]
  subst hsame
  obtain ⟨p', hp', hreads⟩ := forall₂_right hread (spiOf r, r) (List.mem_map_of_mem hr)
  have hid' : pr'.protoId = protoId p'.prop := by
    rw [hreads.protocol, hof.madeOf.protoId, hof.eq]
  refine ⟨r, hr, q, t, t', p', hof, hreads, ?_⟩
  rw [OneOf, hid']
  exact filter_of_nodup (fun p : PropPair => protoId p.prop) ps p' hnodup hp'

theorem withSpis_ids {head prs : List Saproto} (h : WithSpis head prs) :
    head.map Saproto.protoId = prs.map Saproto.protoId := by
  refine map_eq_of_forall₂ (fun pr' pr hpr => ?_) h
  obtain ⟨spi, -, rfl⟩ := hpr
  rfl

/-- The protocol of an approval that a pair of the answer finds. -/
theorem protoFor_eq {approval : Saprop} (hnodup : (approval.head.map Saproto.protoId).Nodup)
    {pr : Saproto} (hpr : pr ∈ approval.head) {q : PropPair} {tr : Satrns}
    (hid : protoId q.prop = pr.protoId) (hhead : pr.head = [tr])
    (htr : (tId (firstTrns q) : ℤ) = tr.trnsId) : protoFor approval q = some pr := by
  have hfound : (protoId q.prop = pr.protoId && (pr.head.head?.any fun tr =>
      (tId (firstTrns q) : ℤ) = tr.trnsId)) = true := by simp [hid, hhead, htr]
  unfold protoFor
  cases hfind : approval.head.find? fun pr => protoId q.prop = pr.protoId &&
    (pr.head.head?.any fun tr => (tId (firstTrns q) : ℤ) = tr.trnsId) with
  | none => exact absurd hfound (by simpa using List.find?_eq_none.mp hfind pr hpr)
  | some y =>
    have hy := List.find?_some hfind
    simp only [Bool.and_eq_true, decide_eq_true_eq] at hy
    have hyid : y.protoId = pr.protoId := hy.1.symm.trans hid
    rw [List.inj_on_of_nodup_map hnodup (List.mem_of_find?_eq_some hfind) hpr hyid]

/-- The SPI that belongs into the proposal of a pair. -/
def spiOf (head : List Saproto) (r : PropPair) : Buf :=
  (head.find? fun pr => pr.protoId = protoId r.prop).elim [] fun pr => pr.spi.drop (4 - pr.spisize)

theorem Selection.answers (h : Selection ph1 n pp own approval ret) (hn : n < MAXPROPPAIRLEN)
    (hne : ret ≠ []) (hall : AnswersAll ph1 own pp) : Answers ph1 own approval
      (getSabyproppair IPSEC_DOI IPSECDOI_SIT_IDENTITY_ONLY ret) := by
  constructor
  · rw [getSabyproppair_answerWith ret h.fits]
    obtain ⟨ps, hps, hread, hnodup⟩ := h.wire hall (fun r => List.replicate (spiSize r.prop) 0)
      fun r _ => List.length_replicate
    refine ⟨ps, hps, fun pr hpr => ?_⟩
    obtain ⟨r, hr, p, t, t', p', hof, hreads, hone⟩ := h.oneOf hall hread hnodup hpr
    exact ⟨p', hone, (h.says_iff hof.payload hof.answered hof.madeOf hof.eq _ hreads).mpr hof.states⟩
  · intro head hspis
    have hids := withSpis_ids hspis
    have hheads : (head.map Saproto.protoId).Nodup := hids ▸ h.nodup hall.distinct
    -- the protocol of a pair, with the SPI it was given
    have hgiven : ∀ r ∈ ret, ∃ p pr t t' pr' spi, AnswerOf ph1 pp own approval r p pr t t' ∧
        pr' ∈ head ∧ spi.length = 4 ∧ pr' = { pr with spi := spi } ∧
        spiOf head r = spi.drop (4 - spiSize r.prop) ∧ spiSize r.prop ≤ 4 := by
      intro r hr
      obtain ⟨p, pr, t, t', hof⟩ := h.answerOf hall hr
      obtain ⟨pr', hpr', spi, hlen, heq⟩ := forall₂_right hspis pr hof.proto
      have hprop : r.prop = p.prop := by rw [hof.eq]
      have hid : pr'.protoId = protoId r.prop := by rw [heq, hprop, ← hof.madeOf.protoId]
      refine ⟨p, pr, t, t', pr', spi, hof, hpr', hlen, heq, ?_, ?_⟩
      · rw [spiOf, ← hid, find_of_nodup Saproto.protoId head pr' hheads hpr', heq, hprop,
          ← hof.madeOf.spisize]
        rfl
      · rw [hprop]
        exact ((decoded_agreed h.decoded).2 p hof.payload).1
    have hlen : ∀ r ∈ ret, (spiOf head r).length = spiSize r.prop := by
      intro r hr
      obtain ⟨_, _, _, _, _, spi, -, -, hlen, -, hspi, hle⟩ := hgiven r hr
      rw [hspi, List.length_drop, hlen]
      omega
    obtain ⟨ps, hps, hread, hnodup⟩ := h.wire hall (spiOf head) hlen
    refine ⟨_, ps, ?_, hps, ?_⟩
    · apply ipsecdoiUpdatespi_answerWith _ ret hne ?_ n hn ?_ (spiOf head) hlen
      · intro r hr q hq
        obtain ⟨p, pr, t, t', pr', spi, hof, hpr', -, heq, hspi, -⟩ := hgiven r hr
        have hprop : r.prop = p.prop := by rw [hof.eq]
        obtain ⟨t₁, ht₁, hsame⟩ := hq.trns
        refine ⟨pr', ?_, ?_⟩
        · have hhead : pr'.head = [trnsOf t] := by rw [heq, ← hof.madeOf.head]
          apply protoFor_eq hheads hpr' _ hhead
          · have halg : (trnsOf t').trnsId = (trnsOf t).trnsId := congrArg Prod.fst hof.states.same
            rw [firstTrns, ht₁, ← halg]
            show ((tId t₁ : ℕ) : ℤ) = tId t'
            rw [hsame.id, hof.eq]
            rfl
          · rw [hq.protocol, hprop, heq, ← hof.madeOf.protoId]
        · rw [hspi, heq, hprop, ← hof.madeOf.spisize]
      · intro r hr
        obtain ⟨p, pr, t, t', hof⟩ := h.answerOf hall hr
        exact hof.answerable
      · intro r hr
        obtain ⟨p, pr, t, t', hof⟩ := h.answerOf hall hr
        rw [hof.eq]
        exact (h.listed p hof.payload).number
    · intro pr' hpr'
      obtain ⟨pr, hpr, spi, hlen4, heq⟩ := forall₂_left hspis pr' hpr'
      obtain ⟨r, hr, p, t, t', p', hof, hreads, hone⟩ := h.oneOf hall hread hnodup hpr
      have hprop : r.prop = p.prop := by rw [hof.eq]
      have hid : pr'.protoId = protoId r.prop := by rw [heq, hprop, ← hof.madeOf.protoId]
      refine ⟨p', ?_, ?_⟩
      · rw [OneOf, heq]
        exact hone
      · rw [hreads.spi, spiOf, ← hid, find_of_nodup Saproto.protoId head pr' hheads hpr']
        rfl

end

/-- A request with AES for one hour, or triple DES for eight. -/
def aesOrTripleDes : Buf :=
  [0, 0, 0, 1, 0, 0, 0, 1,
    0, 0, 0, 64, 1, 3, 4, 2, 9, 9, 9, 9,
    3, 0, 0, 28, 1, 12, 0, 0,
    128, 1, 0, 1, 128, 2, 14, 16, 128, 4, 0, 1, 128, 6, 0, 128, 128, 5, 0, 2,
    0, 0, 0, 24, 2, 3, 0, 0,
    128, 1, 0, 1, 128, 2, 112, 128, 128, 4, 0, 1, 128, 5, 0, 2]

end WanStack.Racoon.Phase2
