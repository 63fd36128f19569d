import WanStack.Racoon.SaChain

set_option autoImplicit false

/-!
# The SA payload as it is written

What `ipsecdoi_setph2proposal` writes is a chain of proposals that hold chains of
transforms, and these lists of attributes.
-/
namespace WanStack.Racoon.Proposal
open Aftr (Buf byteAt shortAt hi lo)

/-! ### Attributes -/

/-- An attribute as it is written. -/
def encAttr (a : Attr) : Buf :=
  if a.tv then short (a.type + 32768) ++ short a.lorv else short a.type ++ short a.lorv ++ a.value

def encAttrs (as : List Attr) : Buf := (as.map encAttr).flatten

structure WellFormed (a : Attr) : Prop where
  type : a.type < 32768
  lorv : a.lorv < 65536
  value : a.value.length = if a.tv then 0 else a.lorv

theorem attrLoop_encAttrs (as : List Attr) (has : ∀ a ∈ as, WellFormed a) (rest : Buf) (k : ℕ)
    (hk : (encAttrs as).length ≤ k) :
    attrLoop k (encAttrs as ++ rest) (encAttrs as).length = as := by
  induction as generalizing k with
  | nil => cases k <;> simp [encAttrs, attrLoop]
  | cons a as ih =>
    have ha := has a List.mem_cons_self
    have hsplit : encAttrs (a :: as) = encAttr a ++ encAttrs as := by simp [encAttrs]
    rw [hsplit, List.length_append] at hk ⊢
    cases htv : a.tv with
    | true =>
      have henc : encAttr a = short (a.type + 32768) ++ short a.lorv := by simp [encAttr, htv]
      have hlen : (encAttr a).length = 4 := by rw [henc]; rfl
      obtain ⟨k, rfl⟩ : ∃ k', k = k' + 1 := ⟨k - 1, by omega⟩
      have htype : shortAt (encAttr a ++ encAttrs as ++ rest) 0 = a.type + 32768 := by
        rw [henc, List.append_assoc, List.append_assoc]
        exact shortAt_short _ (by have := ha.type; omega) _
      have hlorv : shortAt (encAttr a ++ encAttrs as ++ rest) 2 = a.lorv := by
        rw [henc, List.append_assoc, List.append_assoc]
        exact (shortAt_append (short (a.type + 32768)) _ 0).trans (shortAt_short _ ha.lorv _)
      have hdrop : (encAttr a ++ encAttrs as ++ rest).drop DATA_LEN = encAttrs as ++ rest := by
        rw [List.append_assoc]
        exact List.drop_left' hlen
      have hvalue : a.value = [] := by
        have hv := ha.value
        rw [htv] at hv
        exact List.eq_nil_of_length_eq_zero hv
      have htlen : (((encAttr a).length + (encAttrs as).length : ℕ) : ℤ) - (DATA_LEN : ℕ) =
          ((encAttrs as).length : ℕ) := by
        rw [hlen]
        simp only [DATA_LEN]
        omega
      rw [attrLoop, if_neg (by omega)]
      simp only [htype, hlorv, hdrop, htlen]
      rw [if_pos (by omega), ih (fun a h => has a (List.mem_cons_of_mem _ h)) k (by omega)]
      have hmod : (a.type + 32768) % 32768 = a.type := by have := ha.type; omega
      rw [hmod]
      cases a
      simp_all
    | false =>
      have henc : encAttr a = short a.type ++ short a.lorv ++ a.value := by simp [encAttr, htv]
      have hvalue : a.value.length = a.lorv := by have hv := ha.value; rwa [htv] at hv
      have hlen : (encAttr a).length = 4 + a.lorv := by
        rw [henc, List.length_append, hvalue]
        rfl
      obtain ⟨k, rfl⟩ : ∃ k', k = k' + 1 := ⟨k - 1, by omega⟩
      have htype : shortAt (encAttr a ++ encAttrs as ++ rest) 0 = a.type := by
        rw [henc]
        simp only [List.append_assoc]
        exact shortAt_short _ (by have := ha.type; omega) _
      have hlorv : shortAt (encAttr a ++ encAttrs as ++ rest) 2 = a.lorv := by
        rw [henc]
        simp only [List.append_assoc]
        exact (shortAt_append (short a.type) _ 0).trans (shortAt_short _ ha.lorv _)
      have hval : (encAttr a ++ encAttrs as ++ rest).drop DATA_LEN =
          a.value ++ (encAttrs as ++ rest) := by
        rw [henc]
        simp only [List.append_assoc]
        rfl
      have hdrop : (encAttr a ++ encAttrs as ++ rest).drop (DATA_LEN + a.lorv) =
          encAttrs as ++ rest := by
        rw [List.append_assoc]
        exact List.drop_left' hlen
      have htlen : (((encAttr a).length + (encAttrs as).length : ℕ) : ℤ) -
          (DATA_LEN + a.lorv : ℕ) = ((encAttrs as).length : ℕ) := by
        rw [hlen]
        simp only [DATA_LEN]
        omega
      rw [attrLoop, if_neg (by omega)]
      simp only [htype, hlorv, hdrop, hval, htlen]
      have hlt := ha.type
      rw [if_neg (by omega), ih (fun a h => has a (List.mem_cons_of_mem _ h)) k (by omega),
        Nat.mod_eq_of_lt hlt, ← hvalue, memcpy_append]
      cases a
      simp_all

/-- The attributes of a life duration, and of a transform. -/
def lifeAttrs (type life : ℤ) : List Attr :=
  [{ type := IPSECDOI_ATTR_SA_LD_TYPE, tv := true, lorv := u16 type, value := [] },
    if life > 0xffff then
      { type := IPSECDOI_ATTR_SA_LD, tv := false, lorv := 4, value := long (u32 life) }
    else { type := IPSECDOI_ATTR_SA_LD, tv := true, lorv := u16 life, value := [] }]

def tvAttr (type : ℕ) (val : ℤ) : Attr :=
  { type := type, tv := true, lorv := u16 val, value := [] }

def attrsOf (pfsGroup : ℕ) (pp : Saprop) (pr : Saproto) (tr : Satrns) : List Attr :=
  (if pp.lifetime ≠ 0 then lifeAttrs IPSECDOI_ATTR_SA_LD_TYPE_SEC pp.lifetime else []) ++
    (if pp.lifebyte ≠ 0 ∧ pp.lifebyte ≠ IPSECDOI_ATTR_SA_LD_KB_MAX then
      lifeAttrs IPSECDOI_ATTR_SA_LD_TYPE_KB pp.lifebyte else []) ++
    [tvAttr IPSECDOI_ATTR_ENC_MODE pr.encmode] ++
    (if tr.encklen ≠ 0 then [tvAttr IPSECDOI_ATTR_KEY_LENGTH tr.encklen] else []) ++
    (if pr.protoId = IPSECDOI_PROTO_IPSEC_ESP ∧ tr.authtype ≠ IPSECDOI_ATTR_AUTH_NONE ∨
        pr.protoId = IPSECDOI_PROTO_IPSEC_AH then
      [tvAttr IPSECDOI_ATTR_AUTH tr.authtype] else []) ++
    (if algOakleyDhdefOk pfsGroup then [tvAttr IPSECDOI_ATTR_GRP_DESC pfsGroup] else [])

theorem encAttrs_append (as bs : List Attr) : encAttrs (as ++ bs) = encAttrs as ++ encAttrs bs := by
  simp [encAttrs]

theorem encAttrs_ite (p : Prop) [Decidable p] (as : List Attr) :
    encAttrs (if p then as else []) = if p then encAttrs as else [] := by
  split <;> rfl

theorem encAttrs_tvAttr (type : ℕ) (val : ℤ) :
    encAttrs [tvAttr type val] = isakmpSetAttrL type val := by
  simp [encAttrs, encAttr, tvAttr, isakmpSetAttrL]

theorem encAttrs_lifeAttrs (type life : ℤ) : encAttrs (lifeAttrs type life) = setLife type life := by
  unfold lifeAttrs setLife
  split_ifs <;> simp [encAttrs, encAttr, isakmpSetAttrL, isakmpSetAttrV]

theorem setAttrs_eq (pfsGroup : ℕ) (pp : Saprop) (pr : Saproto) (tr : Satrns) :
    setAttrs pfsGroup pp pr tr = encAttrs (attrsOf pfsGroup pp pr tr) := by
  simp only [setAttrs, attrsOf, encAttrs_append, encAttrs_ite, encAttrs_tvAttr, encAttrs_lifeAttrs]

theorem u16_lt (v : ℤ) : u16 v < 65536 := by
  unfold u16
  omega

theorem tvAttr_wellFormed (type : ℕ) (val : ℤ) (h : type < 32768) : WellFormed (tvAttr type val) :=
  ⟨h, u16_lt val, rfl⟩

theorem lifeAttrs_wellFormed (type life : ℤ) : ∀ a ∈ lifeAttrs type life, WellFormed a := by
  intro a ha
  rcases List.mem_cons.mp ha with rfl | ha
  · exact ⟨(by decide : IPSECDOI_ATTR_SA_LD_TYPE < 32768), u16_lt type, rfl⟩
  · obtain rfl := List.mem_singleton.mp ha
    split
    · exact ⟨(by decide : IPSECDOI_ATTR_SA_LD < 32768), (by decide : 4 < 65536), rfl⟩
    · exact ⟨(by decide : IPSECDOI_ATTR_SA_LD < 32768), u16_lt life, rfl⟩

theorem attrsOf_wellFormed (pfsGroup : ℕ) (pp : Saprop) (pr : Saproto) (tr : Satrns) :
    ∀ a ∈ attrsOf pfsGroup pp pr tr, WellFormed a := by
  have hite : ∀ (p : Prop) [Decidable p] (as : List Attr), (∀ a ∈ as, WellFormed a) →
      ∀ a ∈ (if p then as else []), WellFormed a := by
    intro p _ as h a ha
    split at ha
    · exact h a ha
    · cases ha
  have htv : ∀ (type : ℕ) (val : ℤ), type < 32768 → ∀ a ∈ [tvAttr type val], WellFormed a := by
    intro type val h a ha
    obtain rfl := List.mem_singleton.mp ha
    exact tvAttr_wellFormed type val h
  intro a ha
  simp only [attrsOf, List.mem_append] at ha
  rcases ha with ((((ha | ha) | ha) | ha) | ha) | ha
  · exact hite _ _ (lifeAttrs_wellFormed _ _) a ha
  · exact hite _ _ (lifeAttrs_wellFormed _ _) a ha
  · exact htv _ _ (by decide) a ha
  · exact hite _ _ (htv _ _ (by decide)) a ha
  · exact hite _ _ (htv _ _ (by decide)) a ha
  · exact hite _ _ (htv _ _ (by decide)) a ha

/-! ### What is valid -/

/-- A transform as the algorithms of a sainfo give it. -/
structure ValidTrns (pr : Saproto) (tr : Satrns) : Prop where
  trnsNo : 0 ≤ tr.trnsNo ∧ tr.trnsNo < 256
  trnsId : 0 ≤ tr.trnsId ∧ tr.trnsId < 256
  ah : pr.protoId = IPSECDOI_PROTO_IPSEC_AH →
    checkTrnsAh tr.trnsId.toNat ∧ 0 ≤ tr.authtype ∧
      ahOfAuth tr.authtype.toNat = some tr.trnsId.toNat
  esp : pr.protoId = IPSECDOI_PROTO_IPSEC_ESP →
    checkTrnsEsp tr.trnsId.toNat ∧
      (tr.authtype = IPSECDOI_ATTR_AUTH_NONE ∧ tr.trnsId ≠ IPSECDOI_ESP_NULL ∨
        0 ≤ tr.authtype ∧ (ahOfAuth tr.authtype.toNat).isSome)
  ipcomp : pr.protoId = IPSECDOI_PROTO_IPCOMP →
    checkTrnsIpcomp tr.trnsId.toNat ∧ tr.authtype = IPSECDOI_ATTR_AUTH_NONE
  encklen : 0 ≤ tr.encklen ∧ tr.encklen < 65536
  keyless : pr.protoId ≠ IPSECDOI_PROTO_IPSEC_ESP → tr.encklen = 0

/-- The size of the SPI on the wire. -/
def wireSpisize (pr : Saproto) : ℕ := if pr.protoId = IPSECDOI_PROTO_IPCOMP then 2 else 4

structure ValidProto (pr : Saproto) : Prop where
  protoId : checkProtocol .PH2 pr.protoId
  spisize : pr.spisize = wireSpisize pr
  spi : pr.spi = List.replicate (4 - wireSpisize pr) 0 ++ pr.spi.drop (4 - wireSpisize pr)
  spiLength : pr.spi.length = 4
  encmode : pr.encmode = IPSECDOI_ATTR_ENC_MODE_TUNNEL ∨ pr.encmode = IPSECDOI_ATTR_ENC_MODE_TRNS ∨
    nattUdpEncap pr.encmode
  trns : ∀ tr ∈ pr.head, ValidTrns pr tr
  nonempty : pr.head ≠ []
  few : pr.head.length ≤ 255

/-- A proposal that can be sent. `lifetime` is a `time_t`, written in four bytes;
    `lifebyte` is an `int`, so that a count of it is below 2^31. -/
structure ValidProp (pfsGroup : ℕ) (pp : Saprop) : Prop where
  propNo : 0 ≤ pp.propNo ∧ pp.propNo < 256
  lifetime : 0 ≤ pp.lifetime ∧ pp.lifetime < 2 ^ 32
  lifebyte : 0 ≤ pp.lifebyte ∧ pp.lifebyte < 2 ^ 31
  pfs : pp.pfsGroup = pfsGroup
  group : pfsGroup = 0 ∨ algOakleyDhdefOk pfsGroup
  protos : ∀ pr ∈ pp.head, ValidProto pr
  nonempty : pp.head ≠ []

/-! ### What is written -/

def trnsBody (pfsGroup : ℕ) (pp : Saprop) (pr : Saproto) (tr : Satrns) : Buf :=
  [u8 tr.trnsNo, u8 tr.trnsId, 0, 0] ++ setAttrs pfsGroup pp pr tr

/-- The SPI as it is written. -/
def wireSpi (pr : Saproto) : Buf := pr.spi.drop (4 - wireSpisize pr)

/-- A proposal up to its transforms, without its length. -/
def propPre (pp : Saprop) (pr : Saproto) (n : ℕ) : Buf :=
  [0, 0, 0, 0, u8 pp.propNo, u8 pr.protoId, UInt8.ofNat (wireSpisize pr), UInt8.ofNat n] ++
    wireSpi pr

def propBody (pfsGroup : ℕ) (pp : Saprop) (pr : Saproto) : Buf :=
  (propPre pp pr pr.head.length).drop GEN_LEN ++
    chain ISAKMP_NPTYPE_T (pr.head.map (trnsBody pfsGroup pp pr))

theorem wireSpisize_cases (pr : Saproto) :
    pr.protoId = IPSECDOI_PROTO_IPCOMP ∧ wireSpisize pr = 2 ∨
      pr.protoId ≠ IPSECDOI_PROTO_IPCOMP ∧ wireSpisize pr = 4 := by
  unfold wireSpisize
  split_ifs with h
  · exact .inl ⟨h, rfl⟩
  · exact .inr ⟨h, rfl⟩

theorem wireSpi_length (pr : Saproto) (h : pr.spi.length = 4) : (wireSpi pr).length = wireSpisize pr := by
  rw [wireSpi, List.length_drop, h]
  rcases wireSpisize_cases pr with ⟨-, h⟩ | ⟨-, h⟩ <;> omega

theorem propPre_length (pp : Saprop) (pr : Saproto) (n : ℕ) (h : pr.spi.length = 4) :
    (propPre pp pr n).length = PL_P_LEN + wireSpisize pr := by
  rw [propPre, List.length_append, wireSpi_length pr h]
  rfl

theorem checkProtocol_ph2 (pr : Saproto) (h : checkProtocol .PH2 pr.protoId) :
    pr.protoId = IPSECDOI_PROTO_IPSEC_AH ∨ pr.protoId = IPSECDOI_PROTO_IPSEC_ESP ∨
      pr.protoId = IPSECDOI_PROTO_IPCOMP := by
  simpa [checkProtocol, or_assoc] using h

theorem setLife_length (type life : ℤ) :
    (setLife type life).length = DATA_LEN + DATA_LEN + (if life > 0xffff then 4 else 0) := by
  unfold setLife
  split_ifs <;> rfl

/-- What is measured is what is written. -/
theorem attrlen_setAttrs (pfsGroup : ℕ) (pp : Saprop) (pr : Saproto) (tr : Satrns)
    (hproto : checkProtocol .PH2 pr.protoId)
    (hah : pr.protoId = IPSECDOI_PROTO_IPSEC_AH → tr.authtype ≠ IPSECDOI_ATTR_AUTH_NONE) :
    attrlen pfsGroup pp pr tr = some (setAttrs pfsGroup pp pr tr).length := by
  have hite : ∀ (p : Prop) [Decidable p] (b : Buf),
      (if p then b else []).length = if p then b.length else 0 := by
    intro p _ b
    split <;> rfl
  have htv : ∀ (type : ℕ) (val : ℤ), (isakmpSetAttrL type val).length = DATA_LEN := fun _ _ => rfl
  have hauth : (if pr.protoId = IPSECDOI_PROTO_IPSEC_ESP then
        some (if tr.authtype ≠ IPSECDOI_ATTR_AUTH_NONE then DATA_LEN else 0)
      else if pr.protoId = IPSECDOI_PROTO_IPSEC_AH then
        if tr.authtype = IPSECDOI_ATTR_AUTH_NONE then none else some DATA_LEN
      else if pr.protoId = IPSECDOI_PROTO_IPCOMP then some 0
      else none) =
      some (if pr.protoId = IPSECDOI_PROTO_IPSEC_ESP ∧ tr.authtype ≠ IPSECDOI_ATTR_AUTH_NONE ∨
        pr.protoId = IPSECDOI_PROTO_IPSEC_AH then DATA_LEN else 0) := by
    rcases checkProtocol_ph2 pr hproto with h | h | h
    · have hne : pr.protoId ≠ IPSECDOI_PROTO_IPSEC_ESP := by rw [h]; decide
      rw [if_neg hne, if_pos h, if_neg (hah h), if_pos (Or.inr h)]
    · have hne : pr.protoId ≠ IPSECDOI_PROTO_IPSEC_AH := by rw [h]; decide
      have hcond : (pr.protoId = IPSECDOI_PROTO_IPSEC_ESP ∧ tr.authtype ≠ IPSECDOI_ATTR_AUTH_NONE ∨
          pr.protoId = IPSECDOI_PROTO_IPSEC_AH) = (tr.authtype ≠ IPSECDOI_ATTR_AUTH_NONE) :=
        propext ⟨fun hc => hc.elim And.right (absurd · hne), fun hc => .inl ⟨h, hc⟩⟩
      rw [if_pos h]
      simp only [hcond]
    · have hesp : pr.protoId ≠ IPSECDOI_PROTO_IPSEC_ESP := by rw [h]; decide
      have hne : pr.protoId ≠ IPSECDOI_PROTO_IPSEC_AH := by rw [h]; decide
      rw [if_neg hesp, if_neg hne, if_pos h, if_neg (by simp [hesp, hne])]
  simp only [attrlen, setAttrs, List.length_append, hite, htv, setLife_length, hauth]
  rfl

theorem patch_right (p q : Buf) (i : ℕ) (bs : Buf) :
    patch (p ++ q) (p.length + i) bs = p ++ patch q i bs := by
  unfold patch
  rw [List.take_length_add_append, Nat.add_assoc, List.drop_length_add_append]
  simp

/-- The fields of a transform written one after the other. -/
theorem write_trns (p : Buf) (no id : UInt8) (attrs : Buf) :
    let w := p ++ List.replicate (PL_T_LEN + attrs.length) 0
    let w := patch w p.length [UInt8.ofNat ISAKMP_NPTYPE_NONE]
    let w := patch w (p.length + 4) [no]
    let w := patch w (p.length + 5) [id]
    let w := patch w (p.length + PL_T_LEN) attrs
    patch w (p.length + 2) (short (PL_T_LEN + attrs.length)) =
      p ++ payload ISAKMP_NPTYPE_NONE ([no, id, 0, 0] ++ attrs) := by
  have hzeros : List.replicate (PL_T_LEN + attrs.length) (0 : UInt8) =
      [0, 0, 0, 0, 0, 0, 0, 0] ++ List.replicate attrs.length 0 := by
    rw [List.replicate_add]
    rfl
  have hlen : GEN_LEN + ([no, id, 0, 0] ++ attrs).length = PL_T_LEN + attrs.length := by
    simp [GEN_LEN, PL_T_LEN]
    omega
  intro w0 w1 w2 w3 w4
  have h1 : w1 = p ++ ([0, 0, 0, 0, 0, 0, 0, 0] ++ List.replicate attrs.length 0) := by
    have h := patch_right p (List.replicate (PL_T_LEN + attrs.length) 0) 0 [UInt8.ofNat ISAKMP_NPTYPE_NONE]
    rw [Nat.add_zero] at h
    exact h.trans (by rw [hzeros]; rfl)
  have h2 : w2 = p ++ ([0, 0, 0, 0, no, 0, 0, 0] ++ List.replicate attrs.length 0) := by
    simp only [w2, h1, patch_right]
    rfl
  have h3 : w3 = p ++ ([0, 0, 0, 0, no, id, 0, 0] ++ List.replicate attrs.length 0) := by
    simp only [w3, h2, patch_right]
    rfl
  have h4 : w4 = p ++ ([0, 0, 0, 0, no, id, 0, 0] ++ attrs) := by
    simp only [w4, h3, patch_right]
    have hdrop : ([0, 0, 0, 0, no, id, 0, 0] ++ List.replicate attrs.length (0 : UInt8)).drop
        (PL_T_LEN + attrs.length) = [] :=
      List.drop_eq_nil_of_le (by simp [PL_T_LEN]; omega)
    rw [patch, hdrop, List.append_nil]
    rfl
  rw [h4, patch_right, payload, hlen]
  rfl

/-- The buffer and the offsets with the transforms `done` written. -/
def buildingOf (pp : Saprop) (pr : Saproto) (done : List Buf) : Building :=
  { p := propPre pp pr done.length ++ chain ISAKMP_NPTYPE_T done
    npT := some (PL_P_LEN + wireSpisize pr + lastOff ISAKMP_NPTYPE_T done)
    trnsoff := (propPre pp pr done.length ++ chain ISAKMP_NPTYPE_T done).length }

/-- Linking the last transform and counting the next. -/
theorem link_trns (pp : Saprop) (pr : Saproto) (done : List Buf) (hspi : pr.spi.length = 4)
    (hne : done ≠ []) :
    let p := patch (propPre pp pr done.length ++ chain ISAKMP_NPTYPE_T done)
      (PL_P_LEN + wireSpisize pr + lastOff ISAKMP_NPTYPE_T done) [UInt8.ofNat ISAKMP_NPTYPE_T]
    patch p 7 [byteAt p 7 + 1] =
      propPre pp pr (done.length + 1) ++ links ISAKMP_NPTYPE_T done := by
  intro p
  have hp : p = propPre pp pr done.length ++ links ISAKMP_NPTYPE_T done := by
    have h := patch_chain ISAKMP_NPTYPE_T (propPre pp pr done.length) done [] hne
    rw [List.append_nil, List.append_nil, propPre_length pp pr _ hspi] at h
    exact h
  have hbyte : byteAt p 7 = UInt8.ofNat done.length := by
    rw [hp]
    rfl
  rw [hbyte, hp, ← UInt8.ofNat_one, ← UInt8.ofNat_add]
  rfl

/-- A transform behind what is written. -/
theorem written_eq (pp : Saprop) (pr : Saproto) (done : List Buf) (hspi : pr.spi.length = 4)
    (no id : UInt8) (attrs : Buf) :
    let w := propPre pp pr (done.length + 1) ++ links ISAKMP_NPTYPE_T done
    ({ p := w ++ payload ISAKMP_NPTYPE_NONE ([no, id, 0, 0] ++ attrs)
       npT := some w.length
       trnsoff := w.length + (PL_T_LEN + attrs.length) } : Building) =
      buildingOf pp pr (done ++ [[no, id, 0, 0] ++ attrs]) := by
  intro w
  have hp : w ++ payload ISAKMP_NPTYPE_NONE ([no, id, 0, 0] ++ attrs) =
      propPre pp pr (done ++ [[no, id, 0, 0] ++ attrs]).length ++
        chain ISAKMP_NPTYPE_T (done ++ [[no, id, 0, 0] ++ attrs]) := by
    rw [chain_snoc, List.append_assoc, List.length_append]
    rfl
  have hnpT : w.length = PL_P_LEN + wireSpisize pr +
      lastOff ISAKMP_NPTYPE_T (done ++ [[no, id, 0, 0] ++ attrs]) := by
    rw [lastOff, List.dropLast_concat, List.length_append, propPre_length pp pr _ hspi]
  have htrnsoff : w.length + (PL_T_LEN + attrs.length) =
      (w ++ payload ISAKMP_NPTYPE_NONE ([no, id, 0, 0] ++ attrs)).length := by
    have hpayload : (payload ISAKMP_NPTYPE_NONE ([no, id, 0, 0] ++ attrs)).length =
        PL_T_LEN + attrs.length := by
      rw [payload_length, List.length_append, ← Nat.add_assoc]
      rfl
    rw [← hpayload, ← List.length_append]
  rw [buildingOf, ← hp, ← hnpT, ← htrnsoff]

theorem addTrns_first (pfsGroup : ℕ) (pp : Saprop) (pr : Saproto) (tr : Satrns)
    (hspi : pr.spi.length = 4) (hskip : skipped pr tr = false)
    (hlen : attrlen pfsGroup pp pr tr = some (setAttrs pfsGroup pp pr tr).length) :
    addTrns pfsGroup pp pr
      { p := propPre pp pr 1, npT := none, trnsoff := (propPre pp pr 1).length } tr =
      some (buildingOf pp pr [trnsBody pfsGroup pp pr tr]) := by
  rw [addTrns, if_neg (by simp [hskip]), hlen]
  simp only [Option.some.injEq]
  rw [write_trns]
  have h := written_eq pp pr [] hspi (u8 tr.trnsNo) (u8 tr.trnsId) (setAttrs pfsGroup pp pr tr)
  rw [show links ISAKMP_NPTYPE_T [] = [] from rfl] at h
  simp only [List.append_nil] at h
  exact h

theorem addTrns_buildingOf (pfsGroup : ℕ) (pp : Saprop) (pr : Saproto) (tr : Satrns) (done : List Buf)
    (hspi : pr.spi.length = 4) (hne : done ≠ []) (hskip : skipped pr tr = false)
    (hlen : attrlen pfsGroup pp pr tr = some (setAttrs pfsGroup pp pr tr).length) :
    addTrns pfsGroup pp pr (buildingOf pp pr done) tr =
      some (buildingOf pp pr (done ++ [trnsBody pfsGroup pp pr tr])) := by
  have hoff : (propPre pp pr done.length ++ chain ISAKMP_NPTYPE_T done).length =
      (propPre pp pr (done.length + 1) ++ links ISAKMP_NPTYPE_T done).length := by
    rw [List.length_append, List.length_append, propPre_length pp pr _ hspi,
      propPre_length pp pr _ hspi, chain_length]
  rw [addTrns, if_neg (by simp [hskip]), hlen]
  rw [trnsBody, ← written_eq pp pr done hspi]
  simp only [Option.some.injEq, buildingOf]
  rw [link_trns pp pr done hspi hne, hoff, write_trns]

theorem foldlM_addTrns (pfsGroup : ℕ) (pp : Saprop) (pr : Saproto) (hspi : pr.spi.length = 4)
    (trs : List Satrns) (htrs : ∀ tr ∈ trs, skipped pr tr = false ∧
      attrlen pfsGroup pp pr tr = some (setAttrs pfsGroup pp pr tr).length)
    (done : List Buf) (hne : done ≠ []) :
    trs.foldlM (addTrns pfsGroup pp pr) (buildingOf pp pr done) =
      some (buildingOf pp pr (done ++ trs.map (trnsBody pfsGroup pp pr))) := by
  induction trs generalizing done with
  | nil => simp
  | cons tr trs ih =>
    obtain ⟨hskip, hlen⟩ := htrs tr List.mem_cons_self
    rw [List.foldlM_cons, addTrns_buildingOf pfsGroup pp pr tr done hspi hne hskip hlen]
    rw [Option.bind_eq_bind, Option.bind_some,
      ih (fun tr h => htrs tr (List.mem_cons_of_mem _ h)) _ (by simp), List.append_assoc]
    rfl

/-- The fixed part of a proposal before its transforms. -/
theorem propPre_eq (pp : Saprop) (pr : Saproto) (hspi : pr.spi.length = 4) :
    let size := if pr.protoId = IPSECDOI_PROTO_IPCOMP then 2 else 4
    let p : Buf := List.replicate (PL_P_LEN + size) 0
    let p := patch p 0 [UInt8.ofNat ISAKMP_NPTYPE_NONE]
    let p := patch p 4 [u8 pp.propNo, u8 pr.protoId]
    let p := patch p 6 [UInt8.ofNat size, 1]
    patch p PL_P_LEN (pr.spi.drop (4 - size)) = propPre pp pr 1 := by
  intro size p0 p1 p2 p3
  have hlen : (wireSpi pr).length = size := wireSpi_length pr hspi
  have h0 : p0 = [0, 0, 0, 0, 0, 0, 0, 0] ++ List.replicate size 0 := by
    show List.replicate (PL_P_LEN + size) 0 = _
    rw [List.replicate_add]
    rfl
  have h3 : p3 = [0, 0, 0, 0, u8 pp.propNo, u8 pr.protoId, UInt8.ofNat size, 1] ++
      List.replicate size 0 := by
    simp only [p3, p2, p1, h0]
    rfl
  have hdrop : ([0, 0, 0, 0, u8 pp.propNo, u8 pr.protoId, UInt8.ofNat size, 1] ++
      List.replicate size (0 : UInt8)).drop (PL_P_LEN + (wireSpi pr).length) = [] :=
    List.drop_eq_nil_of_le (by simp [hlen, PL_P_LEN]; omega)
  rw [h3, show pr.spi.drop (4 - size) = wireSpi pr from rfl, patch, hdrop, List.append_nil]
  rfl

theorem setph2proposal0_eq (pfsGroup : ℕ) (pp : Saprop) (pr : Saproto) (hspi : pr.spi.length = 4)
    (hne : pr.head ≠ []) (htrs : ∀ tr ∈ pr.head, skipped pr tr = false ∧
      attrlen pfsGroup pp pr tr = some (setAttrs pfsGroup pp pr tr).length) :
    setph2proposal0 pfsGroup pp pr =
      some (payload ISAKMP_NPTYPE_NONE (propBody pfsGroup pp pr)) := by
  obtain ⟨tr, trs, htr⟩ : ∃ tr trs, pr.head = tr :: trs := List.exists_cons_of_ne_nil hne
  have hpre := propPre_eq pp pr hspi
  have hstart : (PL_P_LEN + if pr.protoId = IPSECDOI_PROTO_IPCOMP then 2 else 4) =
      (propPre pp pr 1).length := (propPre_length pp pr 1 hspi).symm
  obtain ⟨hskip, hlen⟩ := htrs tr (htr ▸ List.mem_cons_self)
  have hfold : pr.head.foldlM (addTrns pfsGroup pp pr)
      { p := propPre pp pr 1, npT := none, trnsoff := (propPre pp pr 1).length } =
      some (buildingOf pp pr (pr.head.map (trnsBody pfsGroup pp pr))) := by
    rw [htr, List.foldlM_cons, addTrns_first pfsGroup pp pr tr hspi hskip hlen,
      Option.bind_eq_bind, Option.bind_some,
      foldlM_addTrns pfsGroup pp pr hspi trs
        (fun tr h => htrs tr (htr ▸ List.mem_cons_of_mem _ h)) _ (by simp)]
    rfl
  simp only [setph2proposal0]
  rw [hpre, hstart, hfold]
  simp only [Option.bind_some, buildingOf, Option.some.injEq, List.length_map]
  have hsplit : propPre pp pr pr.head.length ++
      chain ISAKMP_NPTYPE_T (pr.head.map (trnsBody pfsGroup pp pr)) =
      [0, 0, 0, 0] ++ propBody pfsGroup pp pr := rfl
  have hlength : ([0, 0, 0, 0] ++ propBody pfsGroup pp pr).length =
      GEN_LEN + (propBody pfsGroup pp pr).length := List.length_append
  rw [hsplit, hlength]
  exact patch_at [0, 0] [0, 0] _ (propBody pfsGroup pp pr) 2 rfl rfl

theorem ValidTrns.written {pr : Saproto} {tr : Satrns} (pfsGroup : ℕ) (pp : Saprop)
    (h : ValidTrns pr tr) (hproto : checkProtocol .PH2 pr.protoId) :
    skipped pr tr = false ∧
      attrlen pfsGroup pp pr tr = some (setAttrs pfsGroup pp pr tr).length := by
  constructor
  · cases hskip : skipped pr tr with
    | false => rfl
    | true =>
      exfalso
      simp only [skipped, Bool.and_eq_true, decide_eq_true_eq] at hskip
      obtain ⟨⟨hesp, hnull⟩, hauth⟩ := hskip
      rcases (h.esp hesp).2 with ⟨-, hid⟩ | ⟨-, hok⟩
      · exact hid hnull
      · rw [hauth] at hok
        exact absurd hok (by decide)
  · apply attrlen_setAttrs pfsGroup pp pr tr hproto
    intro hah hauth
    have hok := (h.ah hah).2.2
    rw [hauth] at hok
    exact absurd hok (by simp [show ahOfAuth (IPSECDOI_ATTR_AUTH_NONE).toNat = none by decide])

theorem ValidProto.written {pr : Saproto} (pfsGroup : ℕ) (pp : Saprop) (h : ValidProto pr) :
    setph2proposal0 pfsGroup pp pr =
      some (payload ISAKMP_NPTYPE_NONE (propBody pfsGroup pp pr)) :=
  setph2proposal0_eq pfsGroup pp pr h.spiLength h.nonempty
    fun tr htr => (h.trns tr htr).written pfsGroup pp h.protoId

/-- The DOI and the situation. -/
def saB : Buf := long IPSEC_DOI ++ long IPSECDOI_SIT_IDENTITY_ONLY

theorem saB_reads (rest : Buf) : longAt (saB ++ rest) 0 = IPSEC_DOI ∧
    longAt (saB ++ rest) 4 = IPSECDOI_SIT_IDENTITY_ONLY ∧ (saB ++ rest).drop SA_B_LEN = rest := by
  have hsplit : saB ++ rest = long IPSEC_DOI ++ (long IPSECDOI_SIT_IDENTITY_ONLY ++ rest) :=
    List.append_assoc _ _ _
  refine ⟨?_, ?_, rfl⟩
  · rw [hsplit, longAt_long _ (by decide)]
  · have hshift : ∀ i, shortAt (saB ++ rest) (4 + i) =
        shortAt (long IPSECDOI_SIT_IDENTITY_ONLY ++ rest) i := fun i => by
      rw [hsplit]
      exact shortAt_append (long IPSEC_DOI) _ i
    rw [← longAt_long IPSECDOI_SIT_IDENTITY_ONLY (by decide) rest]
    exact congrArg₂ (fun a b => a * 65536 + b) (hshift 0) (hshift 2)

/-- The payload with the proposals `done` written. -/
def saBuilt (done : List Buf) : Sa :=
  { sa := saB ++ chain ISAKMP_NPTYPE_P done
    propoff := if done = [] then 0 else SA_B_LEN + lastOff ISAKMP_NPTYPE_P done }

theorem addProto_saBuilt (ph1 : Ph1) (pfsGroup : ℕ) (pp : Saprop) (pr : Saproto) (done : List Buf)
    (body : Buf) (hnat : ph1.natDetected = false)
    (h : setph2proposal0 pfsGroup pp pr = some (payload ISAKMP_NPTYPE_NONE body)) :
    addProto ph1 pfsGroup pp (saBuilt done) pr = some (saBuilt (done ++ [body])) := by
  have hpropoff : ((saB ++ chain ISAKMP_NPTYPE_P done) ++ payload ISAKMP_NPTYPE_NONE body).length -
      (payload ISAKMP_NPTYPE_NONE body).length =
      SA_B_LEN + lastOff ISAKMP_NPTYPE_P (done ++ [body]) := by
    rw [List.length_append, Nat.add_sub_cancel, List.length_append, chain_length, lastOff,
      List.dropLast_concat]
    rfl
  have hsa : (if (saBuilt done).propoff ≠ 0 then
        patch ((saB ++ chain ISAKMP_NPTYPE_P done) ++ payload ISAKMP_NPTYPE_NONE body)
          (saBuilt done).propoff [UInt8.ofNat ISAKMP_NPTYPE_P]
      else (saB ++ chain ISAKMP_NPTYPE_P done) ++ payload ISAKMP_NPTYPE_NONE body) =
      saB ++ chain ISAKMP_NPTYPE_P (done ++ [body]) := by
    by_cases hdone : done = []
    · subst hdone
      rfl
    · have hoff : (saBuilt done).propoff = saB.length + lastOff ISAKMP_NPTYPE_P done := if_neg hdone
      have hpos : (saBuilt done).propoff ≠ 0 := by
        rw [hoff]
        exact Nat.ne_of_gt (Nat.lt_of_lt_of_le (by decide : 0 < saB.length) (Nat.le_add_right _ _))
      rw [if_pos hpos, hoff, List.append_assoc, patch_chain _ _ _ _ hdone, chain_snoc]
  simp only [addProto, hnat, Bool.false_eq_true, if_false, h, Option.map_some]
  rw [show (saBuilt done).sa = saB ++ chain ISAKMP_NPTYPE_P done from rfl, hsa, hpropoff, saBuilt,
    if_neg (by simp)]

/-- Every protocol of a list of proposals, each with its proposal. -/
def protocols (proposal : List Saprop) : List (Saprop × Saproto) :=
  proposal.flatMap fun a => a.head.map fun pr => (a, pr)

theorem foldlM_addProto (ph1 : Ph1) (pfsGroup : ℕ) (pp : Saprop) (prs : List Saproto)
    (hnat : ph1.natDetected = false) (hprs : ∀ pr ∈ prs, ValidProto pr) (done : List Buf) :
    prs.foldlM (addProto ph1 pfsGroup pp) (saBuilt done) =
      some (saBuilt (done ++ prs.map (propBody pfsGroup pp))) := by
  induction prs generalizing done with
  | nil => simp
  | cons pr prs ih =>
    have hwritten := (hprs pr List.mem_cons_self).written pfsGroup pp
    rw [List.foldlM_cons, addProto_saBuilt ph1 pfsGroup pp pr done _ hnat hwritten,
      Option.bind_eq_bind, Option.bind_some, ih (fun pr h => hprs pr (List.mem_cons_of_mem _ h)),
      List.append_assoc]
    rfl

theorem ipsecdoiSetph2proposal_eq (ph1 : Ph1) (pfsGroup : ℕ) (proposal : List Saprop)
    (hnat : ph1.natDetected = false) (hvalid : ∀ pp ∈ proposal, ValidProp pfsGroup pp) :
    ipsecdoiSetph2proposal ph1 pfsGroup proposal =
      some (saB ++ chain ISAKMP_NPTYPE_P
        ((protocols proposal).map fun x => propBody pfsGroup x.1 x.2)) := by
  have hfold : ∀ (pps : List Saprop), (∀ pp ∈ pps, ValidProp pfsGroup pp) → ∀ done : List Buf,
      pps.foldlM (fun (s : Sa) (a : Saprop) => a.head.foldlM (addProto ph1 pfsGroup a) s)
        (saBuilt done) =
        some (saBuilt (done ++ (protocols pps).map fun x => propBody pfsGroup x.1 x.2)) := by
    intro pps
    induction pps with
    | nil => intro _ done; simp [protocols]
    | cons pp pps ih =>
      intro hpps done
      rw [List.foldlM_cons,
        foldlM_addProto ph1 pfsGroup pp pp.head hnat (hpps pp List.mem_cons_self).protos,
        Option.bind_eq_bind, Option.bind_some, ih (fun pp h => hpps pp (List.mem_cons_of_mem _ h)),
        List.append_assoc]
      simp [protocols, Function.comp_def]
  have hstart : ({ sa := long IPSEC_DOI ++ long IPSECDOI_SIT_IDENTITY_ONLY, propoff := 0 } : Sa) =
      saBuilt [] := rfl
  rw [ipsecdoiSetph2proposal, hstart, hfold proposal hvalid []]
  rfl

end WanStack.Racoon.Proposal
