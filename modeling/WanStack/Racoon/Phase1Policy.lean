import WanStack.Racoon.Phase1

set_option autoImplicit false

/-!
# What a phase 1 approval keeps of the policy

The search ends at one transform of the peer and one of our proposals; what the
merge of the two keeps, and what is sent back, is stated of these two.
-/
namespace WanStack.Racoon.Phase1
open Aftr (Buf byteAt shortAt)
open Proposal

/-! ### The merge -/

/-- Whether a limit on bytes is no weaker than the own one; 0 is no limit. -/
def NoWeaker (lifebyte own : ℕ) : Prop := own = 0 ∨ lifebyte ≠ 0 ∧ lifebyte ≤ own

instance (lifebyte own : ℕ) : Decidable (NoWeaker lifebyte own) :=
  inferInstanceAs (Decidable (_ ∨ _))

/-- The algorithms of an approval are those of `sa`. -/
structure Agrees (approval sa : Isakmpsa) : Prop where
  enctype : approval.enctype = sa.enctype
  hashtype : approval.hashtype = sa.hashtype
  dhGroup : approval.dhGroup = sa.dhGroup
  authmethod : isakmpsaSwitchAuthmethod approval.authmethod = isakmpsaSwitchAuthmethod sa.authmethod

/-- What an approval keeps of our proposal and of the one of the peer. A peer
    without a limit on bytes lifts ours, which is not spoken of here. -/
structure Respects (pcheckLevel : PropCheck) (own peer approval : Isakmpsa) : Prop where
  ofOwn : Agrees approval own
  ofPeer : Agrees approval peer
  encklen : approval.encklen = peer.encklen
  strong : pcheckLevel ≠ .OBEY → own.encklen ≤ approval.encklen
  exact : pcheckLevel = .EXACT → approval.encklen = own.encklen
  lifetime : pcheckLevel ≠ .OBEY → approval.lifetime ≤ own.lifetime
  lifebyte : pcheckLevel ≠ .OBEY → pcheckLevel = .EXACT ∨ peer.lifebyte ≠ 0 →
    NoWeaker approval.lifebyte own.lifebyte

theorem sameAlgorithms_iff (peer own : Isakmpsa) : sameAlgorithms peer own ↔ Agrees own peer := by
  simp only [sameAlgorithms, Bool.and_eq_true, decide_eq_true_eq]
  constructor
  · rintro ⟨⟨⟨hauth, henc⟩, hdh⟩, hhash⟩
    exact ⟨henc.symm, hhash.symm, hdh.symm, hauth.symm⟩
  · intro h
    exact ⟨⟨⟨h.authmethod.symm, h.enctype.symm⟩, h.dhGroup.symm⟩, h.hashtype.symm⟩

theorem mergeSa_agrees (pcheckLevel : PropCheck) (peer own : Isakmpsa) :
    Agrees (mergeSa pcheckLevel peer own) own := by
  cases pcheckLevel <;> exact ⟨rfl, rfl, rfl, rfl⟩

theorem Agrees.trans {a b c : Isakmpsa} (hab : Agrees a b) (hbc : Agrees b c) : Agrees a c :=
  ⟨hab.enctype.trans hbc.enctype, hab.hashtype.trans hbc.hashtype, hab.dhGroup.trans hbc.dhGroup,
    hab.authmethod.trans hbc.authmethod⟩

/-- What the levels between make of a proposal within ours. -/
theorem mergeSa_within (peer own : Isakmpsa) (hkey : own.encklen ≤ peer.encklen)
    (hlife : peer.lifetime ≤ own.lifetime) :
    (mergeSa .STRICT peer own).encklen = peer.encklen ∧
      (mergeSa .STRICT peer own).lifetime ≤ own.lifetime ∧
      (peer.lifebyte ≠ 0 → NoWeaker (mergeSa .STRICT peer own).lifebyte own.lifebyte) := by
  have hencklen : (mergeSa .STRICT peer own).encklen =
      if own.encklen < peer.encklen then peer.encklen else own.encklen := rfl
  have hlifetime : (mergeSa .STRICT peer own).lifetime =
      if peer.lifetime < own.lifetime then peer.lifetime else own.lifetime := rfl
  have hlifebyte : (mergeSa .STRICT peer own).lifebyte =
      if peer.lifebyte < own.lifebyte then peer.lifebyte else own.lifebyte := rfl
  refine ⟨?_, ?_, fun hbyte => ?_⟩
  · rw [hencklen]
    split_ifs <;> omega
  · rw [hlifetime]
    split_ifs <;> omega
  · rw [hlifebyte, NoWeaker]
    split_ifs <;> omega

theorem mergeSa_respects (pcheckLevel : PropCheck) (peer own : Isakmpsa)
    (hsame : sameAlgorithms peer own) (hlevel : levelAccepts pcheckLevel peer own) :
    Respects pcheckLevel own peer (mergeSa pcheckLevel peer own) := by
  have hown := mergeSa_agrees pcheckLevel peer own
  have hpeer := hown.trans ((sameAlgorithms_iff peer own).mp hsame)
  have hbetween : ∀ level, level = .STRICT ∨ level = .CLAIM →
      levelAccepts level peer own → Agrees (mergeSa level peer own) peer →
      Respects level own peer (mergeSa level peer own) := by
    intro level hbetween hlevel hpeer
    have hmerge : mergeSa level peer own = mergeSa .STRICT peer own := by
      rcases hbetween with rfl | rfl <;> rfl
    have hle : own.encklen ≤ peer.encklen ∧ peer.lifetime ≤ own.lifetime := by
      rcases hbetween with rfl | rfl <;> simpa [levelAccepts] using hlevel
    obtain ⟨hkey, hlife, hbyte⟩ := mergeSa_within peer own hle.1 hle.2
    have hexact : level ≠ .EXACT := by rcases hbetween with rfl | rfl <;> decide
    rw [hmerge] at hpeer ⊢
    exact
      { ofOwn := mergeSa_agrees .STRICT peer own
        ofPeer := hpeer
        encklen := hkey
        strong := fun _ => hle.1.trans_eq hkey.symm
        exact := fun h => absurd h hexact
        lifetime := fun _ => hlife
        lifebyte := fun _ h => hbyte (h.resolve_left hexact) }
  cases pcheckLevel with
  | OBEY => exact ⟨hown, hpeer, rfl, by simp, by simp, by simp, by simp⟩
  | STRICT => exact hbetween .STRICT (.inl rfl) hlevel hpeer
  | CLAIM => exact hbetween .CLAIM (.inr rfl) hlevel hpeer
  | EXACT =>
    have heq : peer.encklen = own.encklen ∧ peer.lifetime = own.lifetime := by
      simpa [levelAccepts] using hlevel
    have hbyte : NoWeaker own.lifebyte own.lifebyte := by
      unfold NoWeaker
      omega
    exact ⟨hown, hpeer, heq.1.symm, fun _ => Nat.le_refl _, fun _ => rfl, fun _ => Int.le_refl _,
      fun _ _ => hbyte⟩

theorem Respects.setDhgrp {pcheckLevel : PropCheck} {own peer approval approval' : Isakmpsa}
    (h : Respects pcheckLevel own peer approval) (hset : checkDhgrp approval = some approval') :
    Respects pcheckLevel own peer approval' := by
  have hfields : ∃ group, approval' = { approval with dhgrp := group } := by
    unfold checkDhgrp at hset
    split at hset
    · exact ⟨approval.dhgrp, (Option.some.inj hset).symm⟩
    · obtain ⟨group, -, rfl⟩ := Option.map_eq_some_iff.mp hset
      exact ⟨some group, rfl⟩
  obtain ⟨group, rfl⟩ := hfields
  obtain ⟨⟨h1, h2, h3, h4⟩, ⟨h5, h6, h7, h8⟩, h9, h10, h11, h12, h13⟩ := h
  exact ⟨⟨h1, h2, h3, h4⟩, ⟨h5, h6, h7, h8⟩, h9, h10, h11, h12, h13⟩

/-! ### The search -/

section
variable (env : Env) (rmtree : List Remoteconf)

/-- Whether a section may be used for a handle. -/
def Applicable (iph1 : Ph1handle) (rmconf : Remoteconf) : Prop :=
  match iph1.rmconf with
  | some known => rmconf = known
  | none => rmconf ∈ rmtree ∧ rmconfMatchType env (remoteOnly iph1.remote) rmconf ≠ MATCH_NONE

theorem enumLoop_approvalx (rmsel : Rmconfselector) (l : List (Remoteconf × ℕ))
    (sa approval : Isakmpsa) (h : enumLoop env rmsel approvalxFunc l sa = (true, approval)) :
    ∃ rmconf, rmconf ∈ l.map Prod.fst ∧ rmconfMatchType env rmsel rmconf ≠ MATCH_NONE ∧
      getPh1approvalx rmconf sa = some approval := by
  induction l with
  | nil => cases h
  | cons p rest ih =>
    have hrest : enumLoop env rmsel approvalxFunc rest sa = (true, approval) →
        ∃ rmconf, rmconf ∈ (p :: rest).map Prod.fst ∧
          rmconfMatchType env rmsel rmconf ≠ MATCH_NONE ∧
          getPh1approvalx rmconf sa = some approval := by
      intro h
      obtain ⟨rmconf, hmem, hrmconf⟩ := ih h
      exact ⟨rmconf, List.mem_cons_of_mem _ hmem, hrmconf⟩
    rw [enumLoop] at h
    by_cases hmatch : rmconfMatchType env rmsel p.1 = MATCH_NONE
    · rw [if_pos hmatch] at h
      exact hrest h
    · rw [if_neg hmatch] at h
      cases happroval : getPh1approvalx p.1 sa with
      | none =>
        rw [approvalxFunc, happroval] at h
        exact hrest h
      | some found =>
        rw [approvalxFunc, happroval] at h
        exact ⟨p.1, List.mem_cons_self, hmatch, happroval.trans (congrArg some (Prod.mk.inj h).2)⟩

theorem approve_applicable (iph1 : Ph1handle) (sa approval : Isakmpsa)
    (h : approve env rmtree iph1 sa = some approval) :
    ∃ rmconf, Applicable env rmtree iph1 rmconf ∧ getPh1approvalx rmconf sa = some approval := by
  unfold approve at h
  unfold Applicable
  cases hknown : iph1.rmconf with
  | some known =>
    rw [hknown] at h
    exact ⟨known, rfl, h⟩
  | none =>
    rw [hknown] at h
    dsimp only at h ⊢
    split at h
    · rename_i found hfound
      obtain ⟨rmconf, hmem, hmatch, happroval⟩ := enumLoop_approvalx env _ _ _ _ hfound
      rw [List.map_reverse, List.mem_reverse, List.zipIdx_map_fst] at hmem
      exact ⟨rmconf, ⟨hmem, hmatch⟩, happroval.trans h⟩
    · cases h

theorem getPh1approvalx_respects (rmconf : Remoteconf) (peer approval : Isakmpsa)
    (h : getPh1approvalx rmconf peer = some approval) :
    ∃ own ∈ rmconf.proposal, Respects rmconf.pcheckLevel own peer approval := by
  obtain ⟨own, hown, rfl⟩ := Option.map_eq_some_iff.mp h
  have hok := List.find?_some hown
  rw [Bool.and_eq_true] at hok
  exact ⟨own, List.mem_of_find?_eq_some hown, mergeSa_respects _ _ _ hok.1 hok.2⟩

/-- Where the loops stop: at the first pair of a payload, with those behind it, or
    at a further transform of a payload alone. -/
theorem starts_mem (l p : List PropPair) (h : p ∈ starts l) :
    (∃ s next, p = s :: next ∧ s ∈ l ∧ next ⊆ l ∧ next.length < l.length) ∨
      ∃ s ∈ l, ∃ t ∈ s.trns, p = [{ s with trns := [t] }] := by
  induction l with
  | nil => cases h
  | cons s next ih =>
    rw [starts, List.cons_append, List.mem_cons, List.mem_append] at h
    rcases h with rfl | h | h
    · exact .inl ⟨s, next, rfl, List.mem_cons_self, List.subset_cons_self _ _, Nat.lt_succ_self _⟩
    · obtain ⟨t, ht, rfl⟩ := List.mem_map.mp h
      exact .inr ⟨s, List.mem_cons_self, t, List.mem_of_mem_tail ht, rfl⟩
    · rcases ih h with ⟨s', next', rfl, hs, hnext, hlt⟩ | ⟨s', hs, t, ht, rfl⟩
      · exact .inl ⟨s', next', rfl, List.mem_cons_of_mem _ hs,
          fun x hx => List.mem_cons_of_mem _ (hnext hx), Nat.lt_succ_of_lt hlt⟩
      · exact .inr ⟨s', List.mem_cons_of_mem _ hs, t, ht, rfl⟩

/-! ### What is agreed on, and what is sent back -/

/-- Whether `p` is a proposal payload of the SA payload, as it is listed. -/
def Offered (sa : Buf) (l : ℕ) (p : PropPair) : Prop :=
  ∃ pair, getProppair sa l .PH1 = some pair ∧ p ∈ pair (pNo p.prop)

/-- Whether no other proposal payload has the number of `p`. -/
def Alone (sa : Buf) (l : ℕ) (p : PropPair) : Prop :=
  ∀ pair, getProppair sa l .PH1 = some pair → (pair (pNo p.prop)).length ≤ 1

/-- Whether an answer holds one proposal with one transform, and decoding it gives `peer`. -/
def Answers (saRet : Buf) (peer : Isakmpsa) : Prop :=
  ∃ pair p t, getProppair saRet saRet.length .PH1 = some pair ∧ pair (pNo p.prop) = [p] ∧
    (∀ n, n ≠ pNo p.prop → pair n = []) ∧ p.trns = [t] ∧ t2isakmpsa t = some peer

/-- One of our proposals and a transform `t` of the proposal payload `p` of the
    peer, which the approval and the answer come from. -/
structure Chosen (iph1 : Ph1handle) (sa : Buf) (l : ℕ) (approval : Isakmpsa) (saRet : Buf)
    (rmconf : Remoteconf) (own : Isakmpsa) (p : PropPair) (t : Buf) (peer : Isakmpsa) : Prop where
  applicable : Applicable env rmtree iph1 rmconf
  acceptable : own ∈ rmconf.proposal
  offered : Offered sa l p
  trns : t ∈ p.trns
  decoded : t2isakmpsa t = some peer
  respects : Respects rmconf.pcheckLevel own peer approval
  dhgrp : approval.dhgrp = some approval.dhGroup
  echoed : ∃ next, saRet = saB ++ frames ISAKMP_NPTYPE_P (propFrame { p with trns := [t] } :: next) ∧
    (Alone sa l p → next = [])
  answers : Alone sa l p → AttrsFit t → Answers saRet peer

theorem mergeSa_dhgrp (pcheckLevel : PropCheck) (peer own : Isakmpsa) (group : ℕ)
    (h : (mergeSa pcheckLevel peer own).dhgrp = some group) :
    group = (mergeSa pcheckLevel peer own).dhGroup := by
  have hdup : (dupisakmpsa own).dhgrp = some group → group = own.dhGroup := by
    intro h
    obtain ⟨-, -, hset⟩ := Option.bind_eq_some_iff.mp h
    unfold oakleySetdhgroup at hset
    split_ifs at hset
    exact (Option.some.inj hset).symm
  cases pcheckLevel <;> exact hdup h

theorem checkDhgrp_dhgrp (rmconf : Remoteconf) (peer approval approval' : Isakmpsa)
    (h : getPh1approvalx rmconf peer = some approval) (hset : checkDhgrp approval = some approval') :
    approval'.dhgrp = some approval'.dhGroup := by
  obtain ⟨own, -, rfl⟩ := Option.map_eq_some_iff.mp h
  unfold checkDhgrp at hset
  split at hset
  · rename_i group hgroup
    obtain rfl := Option.some.inj hset
    rw [hgroup, mergeSa_dhgrp _ _ _ group hgroup]
  · obtain ⟨group, hgroup, rfl⟩ := Option.map_eq_some_iff.mp hset
    unfold oakleySetdhgroup at hgroup
    split_ifs at hgroup
    exact congrArg some (Option.some.inj hgroup).symm

/-- Decoding looks at the attributes only. -/
theorem t2isakmpsa_same {t' t : Buf} (h : SameTrns t' t) : t2isakmpsa t' = t2isakmpsa t := by
  simp only [t2isakmpsa, h.attributes]

theorem answers_alone (p : PropPair) (t : Buf) (peer : Isakmpsa) (n : ℕ) (hp : Listed .PH1 n p)
    (ht : t ∈ p.trns) (hdecoded : t2isakmpsa t = some peer) (hfit : AttrsFit t) :
    Answers (getSabyproppair IPSEC_DOI IPSECDOI_SIT_IDENTITY_ONLY [{ p with trns := [t] }]) peer := by
  obtain ⟨pair, hget, hpair⟩ := getSabyproppair_reads .PH1 [{ p with trns := [t] }]
    (List.cons_ne_nil _ _) (by
      intro q hq
      obtain rfl := List.mem_singleton.mp hq
      exact hp.answerable t ht hfit) []
  rw [List.append_nil] at hget
  have hthis := hpair (pNo p.prop)
  rw [numbered, List.filter_cons_of_pos (by simp), List.filter_nil] at hthis
  obtain ⟨p', _, hcopied, hnil, hp'⟩ := List.forall₂_cons_right_iff.mp hthis
  obtain rfl := List.forall₂_nil_right_iff.mp hnil
  obtain ⟨t', htrns, hsame⟩ := hcopied.trns
  have hnumber : pNo p'.prop = pNo p.prop := hcopied.number
  refine ⟨pair, p', t', ?_, ?_, ?_, htrns, ?_⟩
  · rw [getProppair, hget]
    rfl
  · rw [hnumber, hp']
  · intro m hm
    have hother := hpair m
    rw [numbered, List.filter_cons_of_neg (by simpa using fun he => hm (he.symm.trans hnumber.symm)),
      List.filter_nil] at hother
    exact List.forall₂_nil_right_iff.mp hother
  · rw [t2isakmpsa_same hsame]
    exact hdecoded

/-- What a first pair and those behind it leave in the answer. -/
theorem echoed_eq (p : PropPair) (next : List PropPair)
    (h : ∀ q ∈ p :: next, GEN_LEN ≤ shortAt (firstTrns q) 2) :
    getSabyproppair IPSEC_DOI IPSECDOI_SIT_IDENTITY_ONLY (p :: next) =
      saB ++ frames ISAKMP_NPTYPE_P
        (propFrame { p with trns := [firstTrns p] } :: next.map propFrame) :=
  getSabyproppair_eq _ _ (p :: next) h

theorem checkph1proposal_chosen (sa : Buf) (l : ℕ) (iph1 : Ph1handle) (approval : Isakmpsa)
    (saRet : Buf) (h : ipsecdoiCheckph1proposal env rmtree sa l iph1 = some (approval, saRet)) :
    ∃ rmconf own p t peer, Chosen env rmtree iph1 sa l approval saRet rmconf own p t peer := by
  obtain ⟨⟨pair, doi, sit⟩, hget, h⟩ := Option.bind_eq_some_iff.mp h
  obtain ⟨⟨merged, stop⟩, hfind, h⟩ := Option.bind_eq_some_iff.mp h
  obtain ⟨approval, hset, h⟩ := Option.map_eq_some_iff.mp h
  obtain ⟨rfl, rfl⟩ := Prod.mk.inj h
  obtain ⟨hlisted, rfl, rfl⟩ := getProppairAndDoiSit_listed _ _ _ _ _ _ hget
  have hpair : getProppair sa l .PH1 = some pair := by
    rw [getProppair, hget]
    rfl
  obtain ⟨q, hq, htry⟩ := List.exists_of_findSome?_eq_some hfind
  obtain ⟨peer, hdecoded, hmerged⟩ := Option.bind_eq_some_iff.mp htry
  obtain ⟨found, happroved, hfound⟩ := Option.map_eq_some_iff.mp hmerged
  obtain ⟨rfl, rfl⟩ := Prod.mk.inj hfound
  obtain ⟨i, -, hq⟩ := List.mem_flatMap.mp hq
  obtain ⟨rmconf, happlicable, hx⟩ := approve_applicable env rmtree iph1 peer _ happroved
  obtain ⟨own, hown, hrespects⟩ := getPh1approvalx_respects rmconf peer _ hx
  have hgroup := checkDhgrp_dhgrp rmconf peer _ _ hx hset
  rcases starts_mem _ _ hq with ⟨p, next, rfl, hp, hnext, hlt⟩ | ⟨p, hp, t, ht, rfl⟩
  · have hlist := hlisted i p hp
    have hnumber : pNo p.prop = i := hlist.number
    have halone : Alone sa l p → next = [] := by
      intro halone
      have hone := halone pair hpair
      rw [hnumber] at hone
      exact List.eq_nil_of_length_eq_zero (by omega)
    refine ⟨rmconf, own, p, firstTrns p, peer,
      { applicable := happlicable
        acceptable := hown
        offered := ⟨pair, hpair, by rwa [hnumber]⟩
        trns := hlist.first_mem
        decoded := hdecoded
        respects := hrespects.setDhgrp hset
        dhgrp := hgroup
        echoed := ⟨next.map propFrame, ?_, fun ha => by rw [halone ha, List.map_nil]⟩
        answers := ?_ }⟩
    · apply echoed_eq
      intro q hq
      have hmem : q ∈ pair i := by
        rcases List.mem_cons.mp hq with rfl | hq
        · exact hp
        · exact hnext hq
      exact (getTransform_mem _ _ (hlisted i q hmem).found _ (hlisted i q hmem).first_mem).1
    · intro ha hfit
      rw [halone ha]
      exact answers_alone p (firstTrns p) peer i hlist hlist.first_mem hdecoded hfit
  · have hlist := hlisted i p hp
    have hnumber : pNo p.prop = i := hlist.number
    refine ⟨rmconf, own, p, t, peer,
      { applicable := happlicable
        acceptable := hown
        offered := ⟨pair, hpair, by rwa [hnumber]⟩
        trns := ht
        decoded := hdecoded
        respects := hrespects.setDhgrp hset
        dhgrp := hgroup
        echoed := ⟨[], ?_, fun _ => rfl⟩
        answers := fun _ hfit => answers_alone p t peer i hlist ht hdecoded hfit }⟩
    apply echoed_eq { p with trns := [t] } []
    intro q hq
    obtain rfl := List.mem_singleton.mp hq
    exact (getTransform_mem _ _ hlist.found t ht).1

/-- The policy as one would have it at every level and for every payload. -/
def KeepsPolicy (iph1 : Ph1handle) (sa : Buf) (l : ℕ) : Prop :=
  ∀ approval saRet, ipsecdoiCheckph1proposal env rmtree sa l iph1 = some (approval, saRet) →
    ∃ rmconf own peer, Applicable env rmtree iph1 rmconf ∧ own ∈ rmconf.proposal ∧
      Agrees approval own ∧ Agrees approval peer ∧ Answers saRet peer ∧
      approval.encklen = peer.encklen ∧ own.encklen ≤ approval.encklen ∧
      (rmconf.pcheckLevel = .EXACT → approval.encklen = own.encklen) ∧
      (rmconf.pcheckLevel ≠ .OBEY →
        approval.lifetime ≤ own.lifetime ∧ NoWeaker approval.lifebyte own.lifebyte)

end

/-! ### Runs -/

def plainEnv : Env :=
  { heap := []
    eayCmpAsn1dn := fun _ _ => false
    eayGetX509asn1issuername := fun _ => [] }

/-- An anonymous section with one proposal. -/
def sectionOf (level : PropCheck) (own : Isakmpsa) : Remoteconf :=
  { remote := .unspec
    etypes := [2]
    idvlP := []
    mycert := none
    matchEmptyCr := false
    verifyIdentifier := false
    passive := false
    pcheckLevel := level
    dhGroup := 0
    proposal := [own] }

def someHandle : Ph1handle := { remote := .inet 1 500, rmconf := none }

/-- A proposal with a pre-shared key, SHA-1 and group 2. -/
def ownOf (enctype encklen lifebyte : ℕ) : Isakmpsa :=
  { lifetime := 28800
    lifebyte := lifebyte
    enctype := enctype
    encklen := encklen
    authmethod := 1
    hashtype := 2
    dhGroup := 2
    dhgrp := none }

def sentCommon : List Attr :=
  [tvAttr OAKLEY_ATTR_HASH_ALG 2, tvAttr OAKLEY_ATTR_AUTH_METHOD 1, tvAttr OAKLEY_ATTR_GRP_DESC 2]

def sentTrns (attrs : Buf) : Buf := [1, 1, 0, 0] ++ attrs

/-- A payload of proposals with the number 1, each with the transforms given. -/
def sentSa (props : List (List (UInt8 × Buf))) : Buf :=
  saB ++ frames ISAKMP_NPTYPE_P
    (props.map fun ts => (0, [1, 1, 0, UInt8.ofNat ts.length] ++ frames ISAKMP_NPTYPE_T ts))

def sentAes128 : Buf :=
  sentSa [[(0, sentTrns (encAttrs ([tvAttr OAKLEY_ATTR_ENC_ALG 7, tvAttr OAKLEY_ATTR_KEY_LEN 128] ++
    sentCommon)))]]

def sentTripleDes : UInt8 × Buf :=
  (0, sentTrns (encAttrs (tvAttr OAKLEY_ATTR_ENC_ALG 5 :: sentCommon)))

/-- The cipher's type is the end of the first transform, its value the start of the next. -/
def sentAcross : Buf :=
  sentSa [[(0, sentTrns (encAttrs sentCommon ++ short (OAKLEY_ATTR_ENC_ALG + 32768))),
    (5, [2, 2, 0, 0])]]

theorem aes128_strict : ∃ rmconf own p t peer approval saRet,
    ipsecdoiCheckph1proposal plainEnv [sectionOf .STRICT (ownOf 7 128 0)] sentAes128
        sentAes128.length someHandle = some (approval, saRet) ∧
      Chosen plainEnv [sectionOf .STRICT (ownOf 7 128 0)] someHandle sentAes128 sentAes128.length
        approval saRet rmconf own p t peer := by
  obtain ⟨⟨approval, saRet⟩, hrun⟩ := Option.isSome_iff_exists.mp (by decide +kernel :
    (ipsecdoiCheckph1proposal plainEnv [sectionOf .STRICT (ownOf 7 128 0)] sentAes128
      sentAes128.length someHandle).isSome)
  obtain ⟨rmconf, own, p, t, peer, h⟩ := checkph1proposal_chosen _ _ _ _ _ _ _ hrun
  exact ⟨rmconf, own, p, t, peer, approval, saRet, hrun, h⟩

/-- With one section of one proposal, a run that breaks the policy is seen from its values. -/
theorem breaks_of (level : PropCheck) (own : Isakmpsa) (sa : Buf)
    (P : Isakmpsa → Buf → Bool)
    (hrun : ((ipsecdoiCheckph1proposal plainEnv [sectionOf level own] sa sa.length someHandle).map
      fun x => P x.1 x.2) = some true)
    (hP : ∀ approval saRet peer, P approval saRet → Answers saRet peer →
      ¬(own.encklen ≤ approval.encklen ∧ (level ≠ .OBEY → NoWeaker approval.lifebyte own.lifebyte))) :
    ¬KeepsPolicy plainEnv [sectionOf level own] someHandle sa sa.length := by
  intro hkeeps
  obtain ⟨⟨approval, saRet⟩, hcheck, hp⟩ := Option.map_eq_some_iff.mp hrun
  obtain ⟨rmconf, own', peer, ⟨hmem, -⟩, hown, -, -, hanswers, -, hkey, -, hlife⟩ :=
    hkeeps approval saRet hcheck
  obtain rfl := List.mem_singleton.mp hmem
  obtain rfl := List.mem_singleton.mp hown
  exact hP approval saRet peer hp hanswers ⟨hkey, fun hlevel => (hlife hlevel).2⟩

/-- How many proposals with the number 1 an answer holds, if it can be read. -/
def answered (saRet : Buf) : Option ℕ :=
  (getProppair saRet saRet.length .PH1).map fun pair => (pair 1).length

theorem Answers.answered {saRet : Buf} {peer : Isakmpsa} (h : Answers saRet peer) :
    ∃ n ≤ 1, answered saRet = some n := by
  obtain ⟨pair, p, t, hget, hp, hother, -⟩ := h
  refine ⟨(pair 1).length, ?_, by rw [Phase1.answered, hget]; rfl⟩
  by_cases h1 : 1 = pNo p.prop
  · rw [← h1] at hp
    rw [hp]
    exact Nat.le_refl 1
  · rw [hother 1 h1]
    exact Nat.zero_le 1

/-- The policy is not kept: at obey a shorter key is taken; a second proposal of the
    number is answered too; a value beyond the end of a transform is not sent back;
    a peer that has no limit on bytes lifts ours. -/
theorem policy_not_kept :
    ¬KeepsPolicy plainEnv [sectionOf .OBEY (ownOf 7 256 0)] someHandle sentAes128
        sentAes128.length ∧
      ¬KeepsPolicy plainEnv [sectionOf .EXACT (ownOf 5 0 0)] someHandle
        (sentSa [[sentTripleDes], [sentTripleDes]])
        (sentSa [[sentTripleDes], [sentTripleDes]]).length ∧
      ¬KeepsPolicy plainEnv [sectionOf .EXACT (ownOf 5 0 0)] someHandle sentAcross
        sentAcross.length ∧
      ¬KeepsPolicy plainEnv [sectionOf .STRICT (ownOf 5 0 1000)] someHandle
        (sentSa [[sentTripleDes]]) (sentSa [[sentTripleDes]]).length := by
  refine ⟨?_, ?_, ?_, ?_⟩
  · apply breaks_of _ _ _ (fun approval _ => approval.encklen = 128) (by decide +kernel)
    intro approval saRet peer hp _ h
    have hkey : approval.encklen = 128 := of_decide_eq_true hp
    have hown : (256 : ℕ) ≤ approval.encklen := h.1
    omega
  · apply breaks_of _ _ _ (fun _ saRet => answered saRet = some 2) (by decide +kernel)
    intro approval saRet peer hp hanswers _
    obtain ⟨n, hn, hlen⟩ := hanswers.answered
    obtain rfl : n = 2 := Option.some.inj (hlen.symm.trans (of_decide_eq_true hp))
    omega
  · apply breaks_of _ _ _ (fun _ saRet => answered saRet = none) (by decide +kernel)
    intro approval saRet peer hp hanswers _
    obtain ⟨n, hn, hlen⟩ := hanswers.answered
    exact absurd (hlen.symm.trans (of_decide_eq_true hp)) (by simp)
  · apply breaks_of _ _ _ (fun approval _ => approval.lifebyte = 0) (by decide +kernel)
    intro approval saRet peer hp _ h
    have hbyte : approval.lifebyte = 0 := of_decide_eq_true hp
    have hweak : NoWeaker approval.lifebyte 1000 := h.2 (by decide)
    rw [hbyte] at hweak
    revert hweak
    decide

end WanStack.Racoon.Phase1
