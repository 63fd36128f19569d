import WanStack.Racoon.SaWritten

set_option autoImplicit false

/-!
# The SA payload read back

Reading the payload `ipsecdoi_setph2proposal` wrote, whatever memory follows it,
gives the proposals it was written from.
-/
namespace WanStack.Racoon.Proposal
open Aftr (Buf byteAt shortAt hi lo)

/-- The lifetimes as they come back, with the defaults for what is not sent. -/
def sentLifetime (pp : Saprop) : ℤ :=
  if pp.lifetime = 0 then IPSECDOI_ATTR_SA_LD_SEC_DEFAULT else pp.lifetime

def sentLifebyte (pp : Saprop) : ℤ :=
  if pp.lifebyte = IPSECDOI_ATTR_SA_LD_KB_MAX then 0 else pp.lifebyte

theorem u16_of_lt (v : ℤ) (h0 : 0 ≤ v) (h : v < 65536) : (u16 v : ℤ) = v := by
  unfold u16
  omega

theorem u32_of_lt (v : ℤ) (h0 : 0 ≤ v) (h : v < 2 ^ 32) : (u32 v : ℤ) = v ∧ u32 v < 4294967296 := by
  unfold u32
  omega

/-- The value of a life duration as it is written. -/
theorem ipsecdoiSetLd_life (type life : ℤ) (h0 : 0 ≤ life) (h : life < 2 ^ 32) :
    ∃ a, lifeAttrs type life = [tvAttr IPSECDOI_ATTR_SA_LD_TYPE type, a] ∧
      a.type = IPSECDOI_ATTR_SA_LD ∧ (ipsecdoiSetLd a : ℤ) = life ∧ ldOk a := by
  refine ⟨_, rfl, ?_⟩
  by_cases hbig : life > 0xffff
  · obtain ⟨hval, hlt⟩ := u32_of_lt life h0 h
    rw [if_pos hbig]
    refine ⟨rfl, ?_, rfl⟩
    have hlong : longAt (long (u32 life)) 0 = u32 life := by
      simpa using longAt_long (u32 life) hlt []
    simpa [ipsecdoiSetLd, hlong] using hval
  · rw [if_neg hbig]
    exact ⟨rfl, u16_of_lt life h0 (by omega), rfl⟩

/-! ### Transforms -/

structure TrnsReads (pfsGroup : ℕ) (pp : Saprop) (pr : Saproto) (t : Buf) (tr : Satrns) : Prop where
  no : (tNo t : ℤ) = tr.trnsNo
  id : (tId t : ℤ) = tr.trnsId
  attrs : attributes t = attrsOf pfsGroup pp pr tr

theorem trnsReads_payload (pfsGroup : ℕ) (pp : Saprop) (pr : Saproto) (tr : Satrns)
    (h : ValidTrns pr tr) (np : ℕ) (hnp : np < 256) (rest : Buf)
    (hlen : GEN_LEN + (trnsBody pfsGroup pp pr tr).length < 65536) :
    TrnsReads pfsGroup pp pr (payload np (trnsBody pfsGroup pp pr tr) ++ rest) tr := by
  obtain ⟨-, hplen⟩ := payload_header np (trnsBody pfsGroup pp pr tr) rest hnp hlen
  have hbody : GEN_LEN + (trnsBody pfsGroup pp pr tr).length =
      PL_T_LEN + (setAttrs pfsGroup pp pr tr).length := by
    rw [trnsBody, List.length_append, ← Nat.add_assoc]
    rfl
  have htlen : ((PL_T_LEN + (setAttrs pfsGroup pp pr tr).length : ℕ) : ℤ) - PL_T_LEN =
      (setAttrs pfsGroup pp pr tr).length := by omega
  have hdrop : (payload np (trnsBody pfsGroup pp pr tr) ++ rest).drop PL_T_LEN =
      setAttrs pfsGroup pp pr tr ++ rest := rfl
  refine ⟨u8_toNat _ h.trnsNo.1 h.trnsNo.2, u8_toNat _ h.trnsId.1 h.trnsId.2, ?_⟩
  simp only [attributes, hplen, hbody, htlen, hdrop, Int.toNat_natCast]
  rw [setAttrs_eq]
  exact attrLoop_encAttrs _ (attrsOf_wellFormed pfsGroup pp pr tr) rest _ (Nat.le_refl _)

/-! ### Decoding -/

theorem tvAttr_lorv (type : ℕ) (val : ℤ) (h0 : 0 ≤ val) (h : val < 65536) :
    ((tvAttr type val).lorv : ℤ) = val := u16_of_lt val h0 h

theorem foldlM_lifetime (s : T2) (life : ℤ) (h0 : 0 ≤ life) (h : life < 2 ^ 32)
    (hs : s.pp.lifetime = IPSECDOI_ATTR_SA_LD_SEC_DEFAULT) :
    ∃ l p, (if life ≠ 0 then lifeAttrs IPSECDOI_ATTR_SA_LD_TYPE_SEC life else []).foldlM
      t2satrnsStep s =
      some { s with
        lifeT := l
        prev := p
        pp := { s.pp with
          lifetime := if life = 0 then IPSECDOI_ATTR_SA_LD_SEC_DEFAULT else life } } := by
  by_cases hlife : life = 0
  · refine ⟨s.lifeT, s.prev, ?_⟩
    rw [if_neg (by simp [hlife]), if_pos hlife, ← hs]
    rfl
  · obtain ⟨a, hattrs, htype, hval, -⟩ := ipsecdoiSetLd_life IPSECDOI_ATTR_SA_LD_TYPE_SEC life h0 h
    have hpos : ipsecdoiSetLd a ≠ 0 := by omega
    refine ⟨IPSECDOI_ATTR_SA_LD_TYPE_SEC, some IPSECDOI_ATTR_SA_LD, ?_⟩
    rw [if_pos hlife, if_neg hlife, hattrs, List.foldlM_cons]
    have hstep : t2satrnsStep s (tvAttr IPSECDOI_ATTR_SA_LD_TYPE IPSECDOI_ATTR_SA_LD_TYPE_SEC) =
        some { s with
          lifeT := IPSECDOI_ATTR_SA_LD_TYPE_SEC
          prev := some IPSECDOI_ATTR_SA_LD_TYPE } := rfl
    rw [hstep, Option.bind_eq_bind, Option.bind_some, List.foldlM_cons]
    simp [t2satrnsStep, htype, hpos, hs, hval, IPSECDOI_ATTR_SA_LD, IPSECDOI_ATTR_SA_LD_TYPE]

theorem bmod_natCast (n m : ℕ) (h : 2 * n < m) : (n : ℤ).bmod m = n := by
  have hmod : (n : ℤ) % m = n := Int.emod_eq_of_lt (by omega) (by omega)
  rw [Int.bmod_eq_emod_of_lt (by omega), hmod]

theorem toInt_of_lt (n : ℕ) (h : n < 2 ^ 31) : toInt n = n :=
  bmod_natCast n (2 ^ 32) (by omega)

theorem foldlM_lifebyte (s : T2) (life : ℤ) (h0 : 0 ≤ life) (h : life < 2 ^ 31)
    (hs : s.pp.lifebyte = 0) :
    ∃ l p, (if life ≠ 0 ∧ life ≠ IPSECDOI_ATTR_SA_LD_KB_MAX then
        lifeAttrs IPSECDOI_ATTR_SA_LD_TYPE_KB life else []).foldlM t2satrnsStep s =
      some { s with
        lifeT := l
        prev := p
        pp := { s.pp with
          lifebyte := if life = IPSECDOI_ATTR_SA_LD_KB_MAX then 0 else life } } := by
  by_cases hlife : life ≠ 0 ∧ life ≠ IPSECDOI_ATTR_SA_LD_KB_MAX
  · obtain ⟨a, hattrs, htype, hval, -⟩ :=
      ipsecdoiSetLd_life IPSECDOI_ATTR_SA_LD_TYPE_KB life h0 (by omega)
    have hpos : ipsecdoiSetLd a ≠ 0 := by omega
    have hint : toInt (ipsecdoiSetLd a) = life := by rw [toInt_of_lt _ (by omega), hval]
    refine ⟨IPSECDOI_ATTR_SA_LD_TYPE_KB, some IPSECDOI_ATTR_SA_LD, ?_⟩
    rw [if_pos hlife, if_neg hlife.2, hattrs, List.foldlM_cons]
    have hstep : t2satrnsStep s (tvAttr IPSECDOI_ATTR_SA_LD_TYPE IPSECDOI_ATTR_SA_LD_TYPE_KB) =
        some { s with
          lifeT := IPSECDOI_ATTR_SA_LD_TYPE_KB
          prev := some IPSECDOI_ATTR_SA_LD_TYPE } := rfl
    rw [hstep, Option.bind_eq_bind, Option.bind_some, List.foldlM_cons]
    simp [t2satrnsStep, htype, hpos, hs, hint, IPSECDOI_ATTR_SA_LD, IPSECDOI_ATTR_SA_LD_TYPE,
      IPSECDOI_ATTR_SA_LD_TYPE_KB, IPSECDOI_ATTR_SA_LD_TYPE_SEC]
  · refine ⟨s.lifeT, s.prev, ?_⟩
    have hzero : (if life = IPSECDOI_ATTR_SA_LD_KB_MAX then 0 else life) = s.pp.lifebyte := by
      rw [hs]
      split_ifs with hmax
      · rfl
      · by_contra hne
        exact hlife ⟨hne, hmax⟩
    rw [if_neg hlife, hzero]
    rfl

theorem step_encmode (s : T2) (encmode : ℤ) (h0 : 0 ≤ encmode) (h : encmode < 65536)
    (hs : s.pr.encmode = 0 ∨ s.pr.encmode = encmode) :
    ∃ p, t2satrnsStep s (tvAttr IPSECDOI_ATTR_ENC_MODE encmode) =
      some { s with
        prev := p
        pr := { s.pr with encmode := encmode } } := by
  refine ⟨some IPSECDOI_ATTR_ENC_MODE, ?_⟩
  have hlorv := tvAttr_lorv IPSECDOI_ATTR_ENC_MODE encmode h0 h
  have hok : ¬(s.pr.encmode ≠ 0 ∧ s.pr.encmode ≠ encmode) := by tauto
  simp only [t2satrnsStep, hlorv]
  rw [if_neg hok]
  rfl

theorem foldlM_keyLength (s : T2) (encklen : ℤ) (h0 : 0 ≤ encklen) (h : encklen < 65536)
    (hs : s.tr.encklen = 0) (hproto : encklen ≠ 0 → s.pr.protoId = IPSECDOI_PROTO_IPSEC_ESP) :
    ∃ p, (if encklen ≠ 0 then [tvAttr IPSECDOI_ATTR_KEY_LENGTH encklen] else []).foldlM
      t2satrnsStep s =
      some { s with
        prev := p
        tr := { s.tr with encklen := encklen } } := by
  by_cases hk : encklen = 0
  · refine ⟨s.prev, ?_⟩
    rw [if_neg (by simp [hk]), hk, ← hs]
    rfl
  · refine ⟨some IPSECDOI_ATTR_KEY_LENGTH, ?_⟩
    have hlorv := tvAttr_lorv IPSECDOI_ATTR_KEY_LENGTH encklen h0 h
    have hstep : t2satrnsStep s (tvAttr IPSECDOI_ATTR_KEY_LENGTH encklen) =
        some { s with
          prev := some IPSECDOI_ATTR_KEY_LENGTH
          tr := { s.tr with encklen := encklen } } := by
      simp only [t2satrnsStep, hlorv, hproto hk]
      rfl
    rw [if_pos hk, List.foldlM_cons, hstep]
    rfl

theorem foldlM_auth (s : T2) (c : Prop) [Decidable c] (authtype : ℤ)
    (hc : c → 0 ≤ authtype ∧ authtype < 65536) (hnot : ¬c → authtype = IPSECDOI_ATTR_AUTH_NONE)
    (hs : s.tr.authtype = IPSECDOI_ATTR_AUTH_NONE) :
    ∃ p, (if c then [tvAttr IPSECDOI_ATTR_AUTH authtype] else []).foldlM t2satrnsStep s =
      some { s with
        prev := p
        tr := { s.tr with authtype := authtype } } := by
  by_cases hk : c
  · refine ⟨some IPSECDOI_ATTR_AUTH, ?_⟩
    have hlorv := tvAttr_lorv IPSECDOI_ATTR_AUTH authtype (hc hk).1 (hc hk).2
    have hstep : t2satrnsStep s (tvAttr IPSECDOI_ATTR_AUTH authtype) =
        some { s with
          prev := some IPSECDOI_ATTR_AUTH
          tr := { s.tr with authtype := authtype } } := by
      simp only [t2satrnsStep, hlorv, hs]
      rfl
    rw [if_pos hk, List.foldlM_cons, hstep]
    rfl
  · refine ⟨s.prev, ?_⟩
    rw [if_neg hk, hnot hk, ← hs]
    rfl

theorem t2satrnsStep_group (s : T2) (a : Attr) (h : a.type = IPSECDOI_ATTR_GRP_DESC) :
    t2satrnsStep s a =
      if s.pp.pfsGroup = 0 then
        some { s with
          prev := some a.type
          pp := { s.pp with pfsGroup := a.lorv } }
      else if s.pp.pfsGroup ≠ a.lorv then none
      else some { s with prev := some a.type } := by
  rw [t2satrnsStep, h]
  rfl

theorem foldlM_group (s : T2) (pfsGroup : ℕ) (h : pfsGroup = 0 ∨ algOakleyDhdefOk pfsGroup)
    (hs : s.pp.pfsGroup = 0 ∨ s.pp.pfsGroup = pfsGroup) :
    ∃ p, (if algOakleyDhdefOk pfsGroup then [tvAttr IPSECDOI_ATTR_GRP_DESC pfsGroup] else []).foldlM
      t2satrnsStep s =
      some { s with
        prev := p
        pp := { s.pp with pfsGroup := pfsGroup } } := by
  by_cases hok : algOakleyDhdefOk pfsGroup
  · refine ⟨some IPSECDOI_ATTR_GRP_DESC, ?_⟩
    have hlt : pfsGroup < 65536 := by
      simp [algOakleyDhdefOk] at hok
      omega
    have hlorv := tvAttr_lorv IPSECDOI_ATTR_GRP_DESC pfsGroup (by omega) (by omega)
    have hstep : t2satrnsStep s (tvAttr IPSECDOI_ATTR_GRP_DESC pfsGroup) =
        some { s with
          prev := some IPSECDOI_ATTR_GRP_DESC
          pp := { s.pp with pfsGroup := pfsGroup } } := by
      rcases hs with hs | hs
      · simp only [t2satrnsStep, hlorv, hs]
        rfl
      · have hsame : ({ s.pp with pfsGroup := (pfsGroup : ℤ) } : Saprop) = s.pp := by rw [← hs]
        have hpos : (pfsGroup : ℤ) ≠ 0 := by
          rintro hzero
          rw [Int.natCast_eq_zero.mp hzero] at hok
          exact absurd hok (by decide)
        have hgroup : s.pp.pfsGroup ≠ 0 := hs ▸ hpos
        rw [hsame]
        have hstep := t2satrnsStep_group s (tvAttr IPSECDOI_ATTR_GRP_DESC pfsGroup) rfl
        rw [hstep, if_neg hgroup, if_neg (by rw [hlorv, hs]; exact not_not.mpr rfl)]
        rfl
    rw [if_pos hok, List.foldlM_cons, hstep]
    rfl
  · refine ⟨s.prev, ?_⟩
    have hzero : (pfsGroup : ℤ) = s.pp.pfsGroup := by
      rcases h with h | h
      · rcases hs with hs | hs <;> simp [h, hs]
      · exact absurd h hok
    rw [if_neg hok, hzero]
    rfl

theorem ahOfAuth_lt (lorv : ℕ) (h : (ahOfAuth lorv).isSome) : lorv < 65536 := by
  unfold ahOfAuth at h
  split_ifs at h with h1 h2 h3 h4 h5
  · exact h1 ▸ by decide
  · exact h2 ▸ by decide
  · exact h3 ▸ by decide
  · exact h4 ▸ by decide
  · exact h5 ▸ by decide
  · cases h

/-- An authentication that is sent is a number of two bytes. -/
theorem ValidTrns.authtype_sent {pr : Saproto} {tr : Satrns} (h : ValidTrns pr tr)
    (hc : pr.protoId = IPSECDOI_PROTO_IPSEC_ESP ∧ tr.authtype ≠ IPSECDOI_ATTR_AUTH_NONE ∨
      pr.protoId = IPSECDOI_PROTO_IPSEC_AH) : 0 ≤ tr.authtype ∧ tr.authtype < 65536 := by
  rcases hc with ⟨hesp, hauth⟩ | hah
  · rcases (h.esp hesp).2 with ⟨hnone, -⟩ | ⟨h0, hok⟩
    · exact absurd hnone hauth
    · have hlt := ahOfAuth_lt _ hok
      omega
  · obtain ⟨-, h0, hok⟩ := h.ah hah
    have hlt := ahOfAuth_lt tr.authtype.toNat (by rw [hok]; rfl)
    omega

theorem ValidTrns.authtype_unsent {pr : Saproto} {tr : Satrns} (h : ValidTrns pr tr)
    (hproto : checkProtocol .PH2 pr.protoId)
    (hc : ¬(pr.protoId = IPSECDOI_PROTO_IPSEC_ESP ∧ tr.authtype ≠ IPSECDOI_ATTR_AUTH_NONE ∨
      pr.protoId = IPSECDOI_PROTO_IPSEC_AH)) : tr.authtype = IPSECDOI_ATTR_AUTH_NONE := by
  rcases checkProtocol_ph2 pr hproto with hah | hesp | hipcomp
  · exact absurd (.inr hah) hc
  · by_contra hauth
    exact hc (.inl ⟨hesp, hauth⟩)
  · exact (h.ipcomp hipcomp).2

theorem ValidProto.encmode_range {pr : Saproto} (h : ValidProto pr) :
    0 ≤ pr.encmode ∧ pr.encmode < 65536 ∧ pr.encmode ≠ 0 := by
  rcases h.encmode with h | h | h
  · rw [h]; decide
  · rw [h]; decide
  · simp only [nattUdpEncap, Bool.or_eq_true, decide_eq_true_eq] at h
    rcases h with ((h | h) | h) | h <;> (rw [h]; decide)

/-- The lifetimes and the group of a proposal as every transform gives them. -/
def sentProp (pfsGroup : ℕ) (a pp : Saprop) : Saprop :=
  { pp with
    lifetime := sentLifetime a
    lifebyte := sentLifebyte a
    pfsGroup := pfsGroup }

theorem foldlM_append_some {as bs : List Attr} {s s' s'' : T2}
    (ha : as.foldlM t2satrnsStep s = some s') (hb : bs.foldlM t2satrnsStep s' = some s'') :
    (as ++ bs).foldlM t2satrnsStep s = some s'' := by
  rw [List.foldlM_append, ha]
  exact hb

theorem ipsecdoiT2satrns_reads (pfsGroup : ℕ) (a pp : Saprop) (pr pr' : Saproto) (t : Buf)
    (tr : Satrns) (ha : ValidProp pfsGroup a) (hpr : ValidProto pr) (htr : ValidTrns pr tr)
    (ht : TrnsReads pfsGroup a pr t tr) (hpfs : pp.pfsGroup = 0 ∨ pp.pfsGroup = pfsGroup)
    (hproto : pr'.protoId = pr.protoId) (hmode : pr'.encmode = 0 ∨ pr'.encmode = pr.encmode) :
    ipsecdoiT2satrns t pp pr' =
      some (sentProp pfsGroup a pp, { pr' with encmode := pr.encmode }, tr) := by
  obtain ⟨hmode0, hmodelt, -⟩ := hpr.encmode_range
  let tr0 : Satrns :=
    { trnsNo := tNo t
      trnsId := tId t
      encklen := 0
      authtype := IPSECDOI_ATTR_AUTH_NONE }
  let pp0 : Saprop := { pp with lifetime := IPSECDOI_ATTR_SA_LD_SEC_DEFAULT, lifebyte := 0 }
  let pp2 : Saprop := { pp with lifetime := sentLifetime a, lifebyte := sentLifebyte a }
  let pr3 : Saproto := { pr' with encmode := pr.encmode }
  obtain ⟨l1, p1, h1⟩ := foldlM_lifetime ⟨IPSECDOI_ATTR_SA_LD_TYPE_DEFAULT, none, pp0, pr', tr0⟩
    a.lifetime ha.lifetime.1 ha.lifetime.2 rfl
  obtain ⟨l2, p2, h2⟩ := foldlM_lifebyte ⟨l1, p1, { pp0 with lifetime := sentLifetime a }, pr', tr0⟩
    a.lifebyte ha.lifebyte.1 ha.lifebyte.2 rfl
  obtain ⟨p3, h3⟩ := step_encmode ⟨l2, p2, pp2, pr', tr0⟩ pr.encmode hmode0 hmodelt hmode
  obtain ⟨p4, h4⟩ := foldlM_keyLength ⟨l2, p3, pp2, pr3, tr0⟩ tr.encklen htr.encklen.1 htr.encklen.2
    rfl (fun hkey => by
      by_contra hesp
      exact hkey (htr.keyless (hproto ▸ hesp)))
  obtain ⟨p5, h5⟩ := foldlM_auth ⟨l2, p4, pp2, pr3, { tr0 with encklen := tr.encklen }⟩
    (pr.protoId = IPSECDOI_PROTO_IPSEC_ESP ∧ tr.authtype ≠ IPSECDOI_ATTR_AUTH_NONE ∨
      pr.protoId = IPSECDOI_PROTO_IPSEC_AH) tr.authtype htr.authtype_sent
    (htr.authtype_unsent hpr.protoId) rfl
  obtain ⟨p6, h6⟩ := foldlM_group
    ⟨l2, p5, pp2, pr3, { tr0 with encklen := tr.encklen, authtype := tr.authtype }⟩
    pfsGroup ha.group hpfs
  have htr0 : ({ tr0 with encklen := tr.encklen, authtype := tr.authtype } : Satrns) = tr := by
    simp only [tr0, ht.no, ht.id]
  have hmode3 : [tvAttr IPSECDOI_ATTR_ENC_MODE pr.encmode].foldlM t2satrnsStep
      ⟨l2, p2, pp2, pr', tr0⟩ = some ⟨l2, p3, pp2, pr3, tr0⟩ := by
    rw [List.foldlM_cons, h3]
    rfl
  have hall := foldlM_append_some (foldlM_append_some (foldlM_append_some (foldlM_append_some
    (foldlM_append_some h1 h2) hmode3) h4) h5) h6
  rw [ipsecdoiT2satrns, ht.attrs, attrsOf, hall, Option.map_some]
  exact congrArg (fun tr => some (sentProp pfsGroup a pp, pr3, tr)) htr0

/-- A first transform sets the mode, the lifetimes and the group; the others find
    them as they are. -/
theorem trnsLoop_reads (pfsGroup : ℕ) (a : Saprop) (pr : Saproto) (ha : ValidProp pfsGroup a)
    (hpr : ValidProto pr) (ts : List Buf) (trs : List Satrns)
    (hts : List.Forall₂ (TrnsReads pfsGroup a pr) ts trs) (htrs : ∀ tr ∈ trs, ValidTrns pr tr)
    (hne : trs ≠ []) (pp : Saprop) (pr' : Saproto)
    (hpfs : pp.pfsGroup = 0 ∨ pp.pfsGroup = pfsGroup) (hproto : pr'.protoId = pr.protoId)
    (hmode : pr'.encmode = 0 ∨ pr'.encmode = pr.encmode) :
    trnsLoop ts pp pr' =
      some (sentProp pfsGroup a pp, { pr' with encmode := pr.encmode, head := pr'.head ++ trs }) := by
  induction hts generalizing pp pr' with
  | nil => exact absurd rfl hne
  | @cons t tr ts trs ht hts ih =>
    have hstep := ipsecdoiT2satrns_reads pfsGroup a pp pr pr' t tr ha hpr
      (htrs tr List.mem_cons_self) ht hpfs hproto hmode
    rw [trnsLoop, hstep]
    cases hts with
    | nil => rfl
    | @cons t2 tr2 ts2 trs2 ht2 hts2 =>
      have hrest := ih (fun tr h => htrs tr (List.mem_cons_of_mem _ h)) (List.cons_ne_nil _ _)
        (sentProp pfsGroup a pp)
        { pr' with encmode := pr.encmode, head := pr'.head ++ [tr] } (.inr rfl) hproto (.inr rfl)
      rw [List.append_assoc] at hrest
      exact hrest

/-! ### Proposals -/

structure PropReads (pfsGroup : ℕ) (a : Saprop) (pr : Saproto) (prop : Buf) (trns : List Buf) :
    Prop where
  no : (pNo prop : ℤ) = a.propNo
  protoId : Proposal.protoId prop = pr.protoId
  spiSize : Proposal.spiSize prop = pr.spisize
  spi : memcpy (prop.drop PL_P_LEN) pr.spisize = wireSpi pr
  trns : List.Forall₂ (TrnsReads pfsGroup a pr) trns pr.head

/-- A protocol as it comes back. -/
def readProto (pr : Saproto) : Saproto :=
  { pr with
    udpEncap := false
    spiP := List.replicate 4 0
    reqidOut := 0
    reqidIn := 0 }

theorem protoLoop_reads (pfsGroup : ℕ) (a : Saprop) (ha : ValidProp pfsGroup a)
    (ps : List PropPair) (prs : List Saproto)
    (hps : List.Forall₂ (fun p pr => PropReads pfsGroup a pr p.prop p.trns) ps prs)
    (hprs : ∀ pr ∈ prs, ValidProto pr) (hne : prs ≠ []) (pp : Saprop)
    (hpfs : pp.pfsGroup = 0 ∨ pp.pfsGroup = pfsGroup) :
    protoLoop ps pp =
      some { sentProp pfsGroup a pp with head := pp.head ++ prs.map readProto } := by
  induction hps generalizing pp with
  | nil => exact absurd rfl hne
  | @cons p pr ps prs hp hps ih =>
    have hpr := hprs pr List.mem_cons_self
    have hsize : ¬4 < spiSize p.prop := by
      rw [hp.spiSize, hpr.spisize]
      rcases wireSpisize_cases pr with ⟨-, h⟩ | ⟨-, h⟩ <;> omega
    have hspi : List.replicate (4 - spiSize p.prop) 0 ++ memcpy (p.prop.drop PL_P_LEN)
        (spiSize p.prop) = pr.spi := by
      rw [hp.spiSize, hp.spi, hpr.spisize]
      exact hpr.spi.symm
    rw [protoLoop, if_neg hsize, hspi]
    simp only
    rw [trnsLoop_reads pfsGroup a pr ha hpr p.trns pr.head hp.trns hpr.trns hpr.nonempty pp _ hpfs
      hp.protoId (.inl rfl)]
    simp only [List.nil_append]
    rw [if_neg hpr.encmode_range.2.2, hp.protoId, hp.spiSize]
    cases hps with
    | nil => rfl
    | @cons p2 pr2 ps2 prs2 hp2 hps2 =>
      have hrest := ih (fun pr h => hprs pr (List.mem_cons_of_mem _ h)) (List.cons_ne_nil _ _)
        { sentProp pfsGroup a pp with head := pp.head ++ [readProto pr] } (.inr rfl)
      rw [List.append_assoc] at hrest
      exact hrest

/-! ### The walkers -/

theorem ldTypeOk_life (type : ℤ) (h : type = IPSECDOI_ATTR_SA_LD_TYPE_SEC ∨
    type = IPSECDOI_ATTR_SA_LD_TYPE_KB) : ldTypeOk (tvAttr IPSECDOI_ATTR_SA_LD_TYPE type) := by
  rcases h with rfl | rfl <;> decide

theorem encModeOk_valid (encmode : ℤ) (h : encmode = IPSECDOI_ATTR_ENC_MODE_TUNNEL ∨
    encmode = IPSECDOI_ATTR_ENC_MODE_TRNS ∨ nattUdpEncap encmode) :
    encModeOk (tvAttr IPSECDOI_ATTR_ENC_MODE encmode) := by
  rcases h with rfl | rfl | h
  · decide
  · decide
  · simp only [nattUdpEncap, Bool.or_eq_true, decide_eq_true_eq] at h
    rcases h with ((rfl | rfl) | rfl) | rfl <;> decide

theorem grpDescOk_group (pfsGroup : ℕ) (h : algOakleyDhdefOk pfsGroup) :
    grpDescOk (tvAttr IPSECDOI_ATTR_GRP_DESC pfsGroup) := by
  have hlt : pfsGroup < 65536 := by
    simp [algOakleyDhdefOk] at h
    omega
  have hlorv : (tvAttr IPSECDOI_ATTR_GRP_DESC pfsGroup).lorv = pfsGroup := by
    have h := tvAttr_lorv IPSECDOI_ATTR_GRP_DESC pfsGroup (by omega) (by omega)
    omega
  rw [grpDescOk, hlorv, h]
  rfl

theorem lifeAttrs_forall (P : Attr → Prop) (type life : ℤ) (h0 : 0 ≤ life) (h : life < 2 ^ 32)
    (htype : P (tvAttr IPSECDOI_ATTR_SA_LD_TYPE type))
    (hld : ∀ a, a.type = IPSECDOI_ATTR_SA_LD → ldOk a → P a) : ∀ a ∈ lifeAttrs type life, P a := by
  obtain ⟨a, hattrs, hatype, -, hok⟩ := ipsecdoiSetLd_life type life h0 h
  rw [hattrs]
  intro b hb
  rcases List.mem_cons.mp hb with rfl | hb
  · exact htype
  · obtain rfl := List.mem_singleton.mp hb
    exact hld b hatype hok

/-- What holds of each attribute that can be sent. -/
theorem attrsOf_forall (P : Attr → Prop) (pfsGroup : ℕ) (pp : Saprop) (pr : Saproto) (tr : Satrns)
    (hpp : ValidProp pfsGroup pp)
    (htype : ∀ type : ℤ, type = IPSECDOI_ATTR_SA_LD_TYPE_SEC ∨ type = IPSECDOI_ATTR_SA_LD_TYPE_KB →
      P (tvAttr IPSECDOI_ATTR_SA_LD_TYPE type))
    (hld : ∀ a, a.type = IPSECDOI_ATTR_SA_LD → ldOk a → P a)
    (hmode : P (tvAttr IPSECDOI_ATTR_ENC_MODE pr.encmode))
    (hkey : tr.encklen ≠ 0 → P (tvAttr IPSECDOI_ATTR_KEY_LENGTH tr.encklen))
    (hauth : pr.protoId = IPSECDOI_PROTO_IPSEC_ESP ∧ tr.authtype ≠ IPSECDOI_ATTR_AUTH_NONE ∨
      pr.protoId = IPSECDOI_PROTO_IPSEC_AH → P (tvAttr IPSECDOI_ATTR_AUTH tr.authtype))
    (hgroup : algOakleyDhdefOk pfsGroup → P (tvAttr IPSECDOI_ATTR_GRP_DESC pfsGroup)) :
    ∀ a ∈ attrsOf pfsGroup pp pr tr, P a := by
  have hite : ∀ (p : Prop) [Decidable p] (as : List Attr), (p → ∀ a ∈ as, P a) →
      ∀ a ∈ (if p then as else []), P a := by
    intro p _ as h a ha
    split_ifs at ha with hp
    · exact h hp a ha
    · cases ha
  have hone : ∀ b, P b → ∀ a ∈ [b], P a := by
    intro b hb a ha
    rwa [List.mem_singleton.mp ha]
  have hbyte : pp.lifebyte < 2 ^ 32 := by have := hpp.lifebyte; omega
  intro a ha
  simp only [attrsOf, List.mem_append] at ha
  rcases ha with ((((ha | ha) | ha) | ha) | ha) | ha
  · exact hite _ _ (fun _ => lifeAttrs_forall P _ _ hpp.lifetime.1 hpp.lifetime.2
      (htype _ (.inl rfl)) hld) a ha
  · exact hite _ _ (fun _ => lifeAttrs_forall P _ _ hpp.lifebyte.1 hbyte
      (htype _ (.inr rfl)) hld) a ha
  · exact hone _ hmode a ha
  · exact hite _ _ (fun h => hone _ (hkey h)) a ha
  · exact hite _ _ (fun h => hone _ (hauth h)) a ha
  · exact hite _ _ (fun h => hone _ (hgroup h)) a ha

theorem auth_mem (pfsGroup : ℕ) (pp : Saprop) (pr : Saproto) (tr : Satrns)
    (h : pr.protoId = IPSECDOI_PROTO_IPSEC_ESP ∧ tr.authtype ≠ IPSECDOI_ATTR_AUTH_NONE ∨
      pr.protoId = IPSECDOI_PROTO_IPSEC_AH) :
    (attrsOf pfsGroup pp pr tr).any fun a => a.type = IPSECDOI_ATTR_AUTH := by
  apply List.any_eq_true.mpr
  refine ⟨tvAttr IPSECDOI_ATTR_AUTH tr.authtype, ?_, by rfl⟩
  rw [attrsOf, if_pos h]
  simp

theorem authOk_valid (pr : Saproto) (tr : Satrns) (tId : ℕ) (hid : (tId : ℤ) = tr.trnsId)
    (htr : ValidTrns pr tr)
    (h : pr.protoId = IPSECDOI_PROTO_IPSEC_ESP ∧ tr.authtype ≠ IPSECDOI_ATTR_AUTH_NONE ∨
      pr.protoId = IPSECDOI_PROTO_IPSEC_AH) :
    authOk pr.protoId tId (tvAttr IPSECDOI_ATTR_AUTH tr.authtype) := by
  obtain ⟨h0, hlt⟩ := htr.authtype_sent h
  have hlorv : (tvAttr IPSECDOI_ATTR_AUTH tr.authtype).lorv = tr.authtype.toNat := by
    have h := tvAttr_lorv IPSECDOI_ATTR_AUTH tr.authtype h0 hlt
    omega
  rw [authOk, hlorv]
  rcases h with ⟨hesp, hauth⟩ | hah
  · rcases (htr.esp hesp).2 with ⟨hnone, -⟩ | ⟨-, hok⟩
    · exact absurd hnone hauth
    · obtain ⟨ah, hah⟩ := Option.isSome_iff_exists.mp hok
      rw [hah, hesp]
      rfl
  · obtain ⟨-, -, hok⟩ := htr.ah hah
    have hsame : tId = tr.trnsId.toNat := by omega
    rw [hok, hah, hsame]
    simp [tvAttr]

theorem checkAttrIpsec_of (protoId : ℤ) (t : Buf)
    (hall : (attributes t).all (ipsecAttrOk protoId (byteAt t 5).toNat))
    (hah : protoId = IPSECDOI_PROTO_IPSEC_AH →
      (attributes t).any fun b => b.type = IPSECDOI_ATTR_AUTH)
    (hesp : protoId = IPSECDOI_PROTO_IPSEC_ESP → (byteAt t 5).toNat = IPSECDOI_ESP_NULL →
      (attributes t).any fun b => b.type = IPSECDOI_ATTR_AUTH) : checkAttrIpsec protoId t := by
  have hah' : ¬(protoId = IPSECDOI_PROTO_IPSEC_AH ∧
      !(attributes t).any fun b => b.type = IPSECDOI_ATTR_AUTH) := by
    rintro ⟨h, hno⟩
    rw [hah h] at hno
    cases hno
  have hesp' : ¬(protoId = IPSECDOI_PROTO_IPSEC_ESP ∧ (byteAt t 5).toNat = IPSECDOI_ESP_NULL ∧
      !(attributes t).any fun b => b.type = IPSECDOI_ATTR_AUTH) := by
    rintro ⟨h, hnull, hno⟩
    rw [hesp h hnull] at hno
    cases hno
  rw [checkAttrIpsec, hall, if_neg (by decide), if_neg hah', if_neg hesp']

theorem checkTransform_reads (pfsGroup : ℕ) (a : Saprop) (pr : Saproto) (t : Buf) (tr : Satrns)
    (ha : ValidProp pfsGroup a) (hpr : ValidProto pr) (htr : ValidTrns pr tr)
    (ht : TrnsReads pfsGroup a pr t tr) : checkTransform pr.protoId t := by
  have hid : (byteAt t 5).toNat = tr.trnsId.toNat := by
    have := ht.id
    unfold tId at this
    omega
  have hids : (((byteAt t 5).toNat : ℕ) : ℤ) = tr.trnsId := ht.id
  have hmode := encModeOk_valid pr.encmode hpr.encmode
  have hipsec : ∀ b ∈ attrsOf pfsGroup a pr tr, ipsecAttrOk pr.protoId (byteAt t 5).toNat b := by
    apply attrsOf_forall (fun b => ipsecAttrOk pr.protoId (byteAt t 5).toNat b) pfsGroup a pr tr ha
    · exact fun type h => ldTypeOk_life type h
    · intro b hb hok
      rw [ipsecAttrOk, hb]
      exact hok
    · exact hmode
    · exact fun _ => rfl
    · exact authOk_valid pr tr _ hids htr
    · exact grpDescOk_group pfsGroup
  have hall : (attributes t).all (ipsecAttrOk pr.protoId (byteAt t 5).toNat) := by
    rw [ht.attrs]
    exact List.all_eq_true.mpr hipsec
  rcases checkProtocol_ph2 pr hpr.protoId with h | h | h
  · have hattr : checkAttrIpsec IPSECDOI_PROTO_IPSEC_AH t := by
      apply checkAttrIpsec_of _ _ (h ▸ hall)
      · intro _
        rw [ht.attrs]
        exact auth_mem pfsGroup a pr tr (.inr h)
      · exact fun hne => absurd hne (by decide)
    rw [checkTransform, h, hid, (htr.ah h).1, checkAttrAh, hattr]
    rfl
  · have hattr : checkAttrIpsec IPSECDOI_PROTO_IPSEC_ESP t := by
      apply checkAttrIpsec_of _ _ (h ▸ hall)
      · exact fun hne => absurd hne (by decide)
      · intro _ hnull
        rw [ht.attrs]
        apply auth_mem pfsGroup a pr tr (.inl ⟨h, _⟩)
        intro hnone
        rcases (htr.esp h).2 with ⟨-, hid⟩ | ⟨-, hok⟩
        · exact hid (by rw [← hids, hnull])
        · rw [hnone] at hok
          exact absurd hok (by decide)
    rw [checkTransform, h, hid, (htr.esp h).1, checkAttrEsp, hattr]
    rfl
  · have hattr : checkAttrIpcomp t := by
      rw [checkAttrIpcomp, ht.attrs]
      apply List.all_eq_true.mpr
      apply attrsOf_forall (fun b => ipcompAttrOk b) pfsGroup a pr tr ha
      · exact fun type h => ldTypeOk_life type h
      · intro b hb hok
        rw [ipcompAttrOk, hb]
        exact hok
      · exact hmode
      · exact fun hkey => absurd (htr.keyless (by rw [h]; decide)) hkey
      · rw [h]
        intro hc
        exact absurd hc (by simp [IPSECDOI_PROTO_IPCOMP, IPSECDOI_PROTO_IPSEC_ESP, IPSECDOI_PROTO_IPSEC_AH])
      · exact grpDescOk_group pfsGroup
    rw [checkTransform, h, hid, (htr.ipcomp h).1, hattr]
    rfl

/-- What is found in a chain of transforms passes the checks. -/
theorem trns_found (pfsGroup : ℕ) (a : Saprop) (pr : Saproto) (trs : List Satrns)
    (ha : ValidProp pfsGroup a) (hpr : ValidProto pr) (htrs : ∀ tr ∈ trs, ValidTrns pr tr)
    (hlen : ∀ tr ∈ trs, GEN_LEN + (trnsBody pfsGroup a pr tr).length < 65536)
    (pbuf : List IsakmpParse)
    (h : List.Forall₂ (fun (pa : IsakmpParse) body =>
      pa.type = ISAKMP_NPTYPE_T ∧ ∃ np more, np < 256 ∧ pa.ptr = payload np body ++ more)
      pbuf (trs.map (trnsBody pfsGroup a pr))) :
    ((pbuf.takeWhile fun pa => pa.type = ISAKMP_NPTYPE_T).filter fun pa =>
        checkTransform pr.protoId pa.ptr) = pbuf ∧
      List.Forall₂ (TrnsReads pfsGroup a pr) (pbuf.map IsakmpParse.ptr) trs := by
  induction trs generalizing pbuf with
  | nil =>
    cases h
    exact ⟨rfl, .nil⟩
  | cons tr trs ih =>
    cases h with
    | @cons pa _ pbuf _ hpa h =>
      obtain ⟨htype, np, more, hnp, hptr⟩ := hpa
      have htr := htrs tr List.mem_cons_self
      have hreads : TrnsReads pfsGroup a pr pa.ptr tr := by
        rw [hptr]
        exact trnsReads_payload pfsGroup a pr tr htr np hnp more (hlen tr List.mem_cons_self)
      have hok := checkTransform_reads pfsGroup a pr pa.ptr tr ha hpr htr hreads
      obtain ⟨hfilter, hrest⟩ := ih (fun tr h => htrs tr (List.mem_cons_of_mem _ h))
        (fun tr h => hlen tr (List.mem_cons_of_mem _ h)) pbuf h
      refine ⟨?_, .cons hreads hrest⟩
      rw [List.takeWhile_cons, if_pos (decide_eq_true htype), List.filter_cons, if_pos hok, hfilter]

theorem propBody_length (pfsGroup : ℕ) (a : Saprop) (pr : Saproto) (hspi : pr.spi.length = 4) :
    GEN_LEN + (propBody pfsGroup a pr).length = PL_P_LEN + wireSpisize pr +
      (chain ISAKMP_NPTYPE_T (pr.head.map (trnsBody pfsGroup a pr))).length := by
  have hpre := propPre_length a pr pr.head.length hspi
  have hgen : GEN_LEN = 4 := rfl
  have hplen : PL_P_LEN = 8 := rfl
  rw [propBody, List.length_append, List.length_drop, hpre]
  omega

theorem propReads_payload (pfsGroup : ℕ) (a : Saprop) (pr : Saproto) (ha : ValidProp pfsGroup a)
    (hpr : ValidProto pr) (np : ℕ) (hnp : np < 256) (rest : Buf)
    (hlen : GEN_LEN + (propBody pfsGroup a pr).length < 65536) :
    let prop := payload np (propBody pfsGroup a pr) ++ rest
    ∃ trns, getTransform prop = some trns ∧ PropReads pfsGroup a pr prop trns := by
  intro prop
  obtain ⟨-, hplen⟩ := payload_header np (propBody pfsGroup a pr) rest hnp hlen
  have hbody := propBody_length pfsGroup a pr hpr.spiLength
  have hwire := wireSpi_length pr hpr.spiLength
  have hsize : spiSize prop = wireSpisize pr := by
    show (UInt8.ofNat (wireSpisize pr)).toNat = wireSpisize pr
    rcases wireSpisize_cases pr with ⟨-, h⟩ | ⟨-, h⟩ <;> rw [h] <;> rfl
  have hproto : protoId prop = pr.protoId := by
    show ((u8 pr.protoId).toNat : ℤ) = pr.protoId
    rcases checkProtocol_ph2 pr hpr.protoId with h | h | h <;> rw [h] <;> rfl
  have hspi : prop.drop PL_P_LEN = wireSpi pr ++
      (chain ISAKMP_NPTYPE_T (pr.head.map (trnsBody pfsGroup a pr)) ++ rest) := by
    show wireSpi pr ++ chain ISAKMP_NPTYPE_T (pr.head.map (trnsBody pfsGroup a pr)) ++ rest = _
    rw [List.append_assoc]
  have htrns : prop.drop (PL_P_LEN + wireSpisize pr) =
      chain ISAKMP_NPTYPE_T (pr.head.map (trnsBody pfsGroup a pr)) ++ rest := by
    rw [← List.drop_drop, hspi, ← hwire, List.drop_left]
  have htlen : ((shortAt prop 2 : ℕ) : ℤ) - (PL_P_LEN + wireSpisize pr : ℕ) =
      (chain ISAKMP_NPTYPE_T (pr.head.map (trnsBody pfsGroup a pr))).length := by
    rw [show shortAt prop 2 = _ from hplen, hbody]
    omega
  have hsmall : ∀ tr ∈ pr.head, GEN_LEN + (trnsBody pfsGroup a pr tr).length < 65536 := by
    intro tr htr
    have hle := body_length_le ISAKMP_NPTYPE_T (pr.head.map (trnsBody pfsGroup a pr)) _
      (List.mem_map_of_mem htr)
    omega
  have hparse := isakmpParsewoh_chain ISAKMP_NPTYPE_T (by decide) (by decide)
    (pr.head.map (trnsBody pfsGroup a pr)) (by
      intro body hb
      obtain ⟨tr, htr, rfl⟩ := List.mem_map.mp hb
      exact ⟨List.cons_ne_nil _ _, hsmall tr htr⟩) rest
  obtain ⟨hfound, hreads⟩ := trns_found pfsGroup a pr pr.head ha hpr hpr.trns hsmall _
    (parses_forall₂ ISAKMP_NPTYPE_T (by decide) (pr.head.map (trnsBody pfsGroup a pr)) rest)
  refine ⟨_, ?_, ?_, hproto, ?_, ?_, hreads⟩
  · rw [getTransform, hsize, htlen, htrns, hparse, hproto, Option.map_some, hfound]
  · exact u8_toNat _ ha.propNo.1 ha.propNo.2
  · rw [hsize, hpr.spisize]
  · rw [hspi, hpr.spisize, ← hwire, memcpy_append]

/-! ### Grouping by number -/

/-- A pair as it was written for the protocol `x.2` of the proposal `x.1`. -/
def PairReads (pfsGroup : ℕ) (p : PropPair) (x : Saprop × Saproto) : Prop :=
  PropReads pfsGroup x.1 x.2 p.prop p.trns

/-- The protocols whose proposal has the number `n`. -/
def ofNo (n : ℕ) (xs : List (Saprop × Saproto)) : List (Saprop × Saproto) :=
  xs.filter fun x => x.1.propNo.toNat = n

theorem pairLoop_reads (pfsGroup : ℕ) (xs : List (Saprop × Saproto))
    (hxs : ∀ x ∈ xs, ValidProp pfsGroup x.1 ∧ ValidProto x.2 ∧
      GEN_LEN + (propBody pfsGroup x.1 x.2).length < 65536)
    (pbuf : List IsakmpParse)
    (h : List.Forall₂ (fun (pa : IsakmpParse) body =>
      pa.type = ISAKMP_NPTYPE_P ∧ ∃ np more, np < 256 ∧ pa.ptr = payload np body ++ more)
      pbuf (xs.map fun x => propBody pfsGroup x.1 x.2))
    (pair : Pairs) (seen : List (Saprop × Saproto))
    (hpair : ∀ n, List.Forall₂ (PairReads pfsGroup) (pair n) (ofNo n seen)) :
    ∃ pair', pairLoop .PH2 pbuf pair = some pair' ∧
      ∀ n, List.Forall₂ (PairReads pfsGroup) (pair' n) (ofNo n (seen ++ xs)) := by
  induction xs generalizing pbuf pair seen with
  | nil =>
    cases h
    rw [List.append_nil]
    exact ⟨pair, rfl, hpair⟩
  | cons x xs ih =>
    cases h with
    | @cons pa _ pbuf _ hpa h =>
      obtain ⟨htype, np, more, hnp, hptr⟩ := hpa
      obtain ⟨ha, hpr, hlen⟩ := hxs x List.mem_cons_self
      obtain ⟨trns, hget, hreads⟩ := propReads_payload pfsGroup x.1 x.2 ha hpr np hnp more hlen
      rw [← hptr] at hget hreads
      have hne : trns ≠ [] := by
        rintro rfl
        exact hpr.nonempty (List.forall₂_nil_left_iff.mp hreads.trns)
      obtain ⟨t, ts, rfl⟩ := List.exists_cons_of_ne_nil hne
      have hsize : checkSpiSize (protoId pa.ptr) (spiSize pa.ptr) = true := by
        rw [hreads.protoId, hreads.spiSize, hpr.spisize]
        rcases checkProtocol_ph2 x.2 hpr.protoId with h | h | h <;> simp [wireSpisize, h] <;> rfl
      have hno : pNo pa.ptr = x.1.propNo.toNat := by
        have := hreads.no
        omega
      have hpair' : ∀ n, List.Forall₂ (PairReads pfsGroup)
          (Function.update pair (pNo pa.ptr) (pair (pNo pa.ptr) ++ [⟨pa.ptr, t :: ts⟩]) n)
          (ofNo n (seen ++ [x])) := by
        intro n
        by_cases hn : n = x.1.propNo.toNat
        · subst hn
          rw [hno, Function.update_self, ofNo, List.filter_append]
          apply List.rel_append (hpair _)
          rw [List.filter_cons_of_pos (by simp)]
          exact .cons hreads .nil
        · rw [hno, Function.update_of_ne hn, ofNo, List.filter_append,
            List.filter_cons_of_neg (by simpa using Ne.symm hn), List.filter_nil, List.append_nil]
          exact hpair n
      obtain ⟨pair', hloop, hall⟩ :=
        ih (fun x h => hxs x (List.mem_cons_of_mem _ h)) pbuf h _ (seen ++ [x]) hpair'
      refine ⟨pair', ?_, ?_⟩
      · rw [pairLoop, if_neg (by rw [htype]; decide)]
        simp only [hreads.protoId, hpr.protoId] at hsize ⊢
        simp only [hsize, hget]
        exact hloop
      · rwa [List.append_assoc] at hall

theorem ofNo_other (n : ℕ) (proposal : List Saprop)
    (h : ∀ pp ∈ proposal, pp.propNo.toNat ≠ n) : ofNo n (protocols proposal) = [] := by
  apply List.filter_eq_nil_iff.mpr
  intro x hx
  obtain ⟨pp, hpp, hx⟩ := List.mem_flatMap.mp hx
  obtain ⟨pr, -, rfl⟩ := List.mem_map.mp hx
  simpa using h pp hpp

/-- Where the numbers differ, a number gives back the protocols of its proposal. -/
theorem ofNo_protocols (proposal : List Saprop)
    (hno : proposal.Pairwise fun a b => a.propNo.toNat ≠ b.propNo.toNat) (pp : Saprop)
    (hpp : pp ∈ proposal) :
    ofNo pp.propNo.toNat (protocols proposal) = pp.head.map fun pr => (pp, pr) := by
  induction proposal with
  | nil => cases hpp
  | cons a proposal ih =>
    obtain ⟨ha, hno⟩ := List.pairwise_cons.mp hno
    have hsplit : protocols (a :: proposal) =
        (a.head.map fun pr => (a, pr)) ++ protocols proposal := by
      simp [protocols]
    rw [hsplit, ofNo, List.filter_append]
    rcases List.mem_cons.mp hpp with rfl | hpp
    · have hrest := ofNo_other pp.propNo.toNat proposal fun b hb => (ha b hb).symm
      rw [ofNo] at hrest
      rw [hrest, List.append_nil, List.filter_eq_self]
      intro x hx
      obtain ⟨pr, -, rfl⟩ := List.mem_map.mp hx
      simp
    · have hfirst : (a.head.map fun pr => (a, pr)).filter
          (fun x => x.1.propNo.toNat = pp.propNo.toNat) = [] := by
        apply List.filter_eq_nil_iff.mpr
        intro x hx
        obtain ⟨pr, -, rfl⟩ := List.mem_map.mp hx
        simpa using ha pp hpp
      rw [hfirst, List.nil_append]
      exact ih hno hpp

/-- A proposal as it comes back, with the defaults for lifetimes that are not sent. -/
def readProp (pp : Saprop) : Saprop :=
  { pp with
    lifetime := sentLifetime pp
    lifebyte := sentLifebyte pp
    claim := 0
    head := pp.head.map readProto }

theorem aproppair2saprop_reads (pfsGroup : ℕ) (pp : Saprop) (hpp : ValidProp pfsGroup pp)
    (ps : List PropPair)
    (hps : List.Forall₂ (PairReads pfsGroup) ps (pp.head.map fun pr => (pp, pr))) :
    aproppair2saprop ps = some (readProp pp) := by
  have hps' : List.Forall₂ (fun p pr => PropReads pfsGroup pp pr p.prop p.trns) ps pp.head :=
    List.forall₂_map_right_iff.mp hps
  obtain ⟨pr, prs, hhead⟩ := List.exists_cons_of_ne_nil hpp.nonempty
  cases ps with
  | nil =>
    rw [hhead] at hps'
    cases hps'
  | cons p ps =>
    have hno : (pNo p.prop : ℤ) = pp.propNo := by
      rw [hhead] at hps'
      cases hps' with
      | cons hp _ => exact hp.no
    rw [aproppair2saprop, hno,
      protoLoop_reads pfsGroup pp hpp (p :: ps) pp.head hps' hpp.protos hpp.nonempty _ (.inl rfl)]
    simp only [sentProp, readProp, hpp.pfs, List.nil_append]

/-- AES with two authentications, compressed first, for one hour and 100000 KB. -/
def aesWithIpcomp : Saprop :=
  { propNo := 1
    lifetime := 3600
    lifebyte := 100000
    pfsGroup := 2
    claim := 0
    head :=
      [{ protoId := IPSECDOI_PROTO_IPCOMP
         spisize := 2
         encmode := IPSECDOI_ATTR_ENC_MODE_TUNNEL
         udpEncap := false
         spi := [0, 0, 0x12, 0x34]
         spiP := [0, 0, 0, 0]
         reqidOut := 0
         reqidIn := 0
         head := [⟨1, IPSECDOI_IPCOMP_DEFLATE, 0, IPSECDOI_ATTR_AUTH_NONE⟩] },
       { protoId := IPSECDOI_PROTO_IPSEC_ESP
         spisize := 4
         encmode := IPSECDOI_ATTR_ENC_MODE_TUNNEL
         udpEncap := false
         spi := [1, 2, 3, 4]
         spiP := [0, 0, 0, 0]
         reqidOut := 0
         reqidIn := 0
         head :=
          [⟨1, IPSECDOI_ESP_AES, 256, IPSECDOI_ATTR_AUTH_HMAC_SHA2_256⟩,
            ⟨2, IPSECDOI_ESP_AES, 128, IPSECDOI_ATTR_AUTH_HMAC_SHA1⟩] }] }

theorem aesWithIpcomp_valid : ValidProp 2 aesWithIpcomp := by
  have hipcomp : ValidTrns (aesWithIpcomp.head.get ⟨0, by decide⟩)
      ⟨1, IPSECDOI_IPCOMP_DEFLATE, 0, IPSECDOI_ATTR_AUTH_NONE⟩ :=
    ⟨by decide, by decide, by decide, by decide, by decide, by decide, by decide⟩
  have hsha256 : ValidTrns (aesWithIpcomp.head.get ⟨1, by decide⟩)
      ⟨1, IPSECDOI_ESP_AES, 256, IPSECDOI_ATTR_AUTH_HMAC_SHA2_256⟩ :=
    ⟨by decide, by decide, by decide, by decide, by decide, by decide, by decide⟩
  have hsha1 : ValidTrns (aesWithIpcomp.head.get ⟨1, by decide⟩)
      ⟨2, IPSECDOI_ESP_AES, 128, IPSECDOI_ATTR_AUTH_HMAC_SHA1⟩ :=
    ⟨by decide, by decide, by decide, by decide, by decide, by decide, by decide⟩
  refine ⟨by decide, by decide, by decide, by decide, by decide, ?_, by decide⟩
  intro pr hpr
  rcases List.mem_cons.mp hpr with rfl | hpr
  · refine ⟨by decide, by decide, by decide, by decide, by decide, ?_, by decide, by decide⟩
    intro tr htr
    rw [List.mem_singleton.mp htr]
    exact hipcomp
  · obtain rfl := List.mem_singleton.mp hpr
    refine ⟨by decide, by decide, by decide, by decide, by decide, ?_, by decide, by decide⟩
    intro tr htr
    rcases List.mem_cons.mp htr with rfl | htr
    · exact hsha256
    · rw [List.mem_singleton.mp htr]
      exact hsha1

end WanStack.Racoon.Proposal
