import WanStack.Racoon.IdCompare

set_option autoImplicit false

/-!
# The identity of a peer

`rmconf_match_identity` of `remoteconf.c` with what it reads of the ID payload. A
read outside the payload is `none`.
-/
namespace WanStack.Racoon.PeerIdentity
open Aftr (Buf byteAt)
open Phase1
open Proposal (longAt)
open IdCompare (Vchar identOf readByte memcmp cmpAsn1dn typeOf dataOf)

section
variable (eayCmpAsn1dn : Buf → Buf → ℤ)

/-- An address of `n` bytes and the data of the payload. -/
def bytesMatch (n : ℕ) (same : Buf → Bool) (ident : Vchar) : Option Bool :=
  if ident.l ≠ n then some false
  else if ident.v.length < n then none
  else some (same ident.v)

def addressMatches (saddr : Sockaddr) (ident : Vchar) : Option Bool :=
  match saddr with
  | .inet addr _ => bytesMatch 4 (fun v => addr = longAt v 0) ident
  | .inet6 addr _ _ => bytesMatch 16 (fun v => addr = inet6At v) ident
  | _ => some false

/-- One round of the loop. -/
def idspecMatches (idP : Buf) (id : Idspec) : Option Bool :=
  if id = .undefined then some true
  else
    (readByte idP 0).bind fun type =>
      if id.idtype ≠ doi2idtype type then some false
      else
        match id with
        | .undefined => some true
        | .asn1dn dn =>
          (cmpAsn1dn eayCmpAsn1dn { v := dn, l := dn.length } (identOf idP)).map fun r => r = 0
        | .address saddr => addressMatches saddr (identOf idP)
        | .other _ value => (memcmp value (identOf idP).v value.length).map fun r => r = 0

def matchLoop (idP : Buf) : List Idspec → Option Bool
  | [] => some false
  | id :: rest =>
    (idspecMatches eayCmpAsn1dn idP id).bind fun found =>
      if found then some true else matchLoop idP rest

def rmconfMatchIdentity (rmconf : Remoteconf) (idP : Buf) : Option ℕ :=
  if rmconf.idvlP = [] then some 0
  else
    (matchLoop eayCmpAsn1dn idP rmconf.idvlP).map fun found =>
      if found then 0
      else if rmconf.verifyIdentifier then ISAKMP_NTYPE_INVALID_ID_INFORMATION else 0

/-! ### Identifiers and payloads -/

/-- The payload has the type of the identifier and exactly its value. -/
def Same (idP : Buf) (id : Idspec) : Prop :=
  ID_B_LEN ≤ idP.length ∧
    match id with
    | .undefined => False
    | .asn1dn dn => typeOf idP = IPSECDOI_ID_DER_ASN1_DN ∧ eayCmpAsn1dn dn (dataOf idP) = 0
    | .address (.inet addr _) =>
      typeOf idP = IPSECDOI_ID_IPV4_ADDR ∧ (dataOf idP).length = 4 ∧ addr = longAt (dataOf idP) 0
    | .address (.inet6 addr _ _) =>
      typeOf idP = IPSECDOI_ID_IPV6_ADDR ∧ (dataOf idP).length = 16 ∧ addr = inet6At (dataOf idP)
    | .address _ => False
    | .other idtype value =>
      (idtype = IDTYPE_FQDN ∧ typeOf idP = IPSECDOI_ID_FQDN ∨
        idtype = IDTYPE_USERFQDN ∧ typeOf idP = IPSECDOI_ID_USER_FQDN ∨
        idtype = IDTYPE_KEYID ∧ typeOf idP = IPSECDOI_ID_KEY_ID) ∧ dataOf idP = value

/-- What the loop asks for: an address may have any type that is no name, and of a name only
    the beginning is compared. -/
def Accepts (idP : Buf) (id : Idspec) : Prop :=
  id.idtype = doi2idtype (typeOf idP) ∧
    match id with
    | .undefined => False
    | .asn1dn dn => eayCmpAsn1dn dn (dataOf idP) = 0
    | .address (.inet addr _) => idP.length = ID_B_LEN + 4 ∧ addr = longAt (dataOf idP) 0
    | .address (.inet6 addr _ _) => idP.length = ID_B_LEN + 16 ∧ addr = inet6At (dataOf idP)
    | .address _ => False
    | .other _ value => (dataOf idP).take value.length = value

/-- The payload has all the bytes that the comparison with an identifier reads. -/
def ReadsInside (idP : Buf) (id : Idspec) : Prop :=
  1 ≤ idP.length ∧
    (id.idtype = doi2idtype (typeOf idP) →
      match id with
      | .asn1dn _ => ID_B_LEN ≤ idP.length
      | .other _ value => value.length ≤ (dataOf idP).length
      | _ => True)

variable {eayCmpAsn1dn} {idP : Buf} {id : Idspec}

theorem bytesMatch_eq {n : ℕ} (hn : n ≤ 32) (same : Buf → Bool) :
    bytesMatch n same (identOf idP) =
      some (decide (idP.length = ID_B_LEN + n) && same (dataOf idP)) := by
  unfold bytesMatch
  have hsmall := IdCompare.ident_small (a := idP) hn
  by_cases hl : idP.length = ID_B_LEN + n
  · have hlength := IdCompare.length_ident (a := idP) (by omega)
    have hl' := hsmall.mpr hl
    rw [if_neg (not_not.mpr hl'), if_neg (by omega), decide_eq_true hl, Bool.true_and]
    rfl
  · rw [if_pos (fun h => hl (hsmall.mp h)), decide_eq_false hl, Bool.false_and]

theorem addressMatches_inet (addr port : ℕ) :
    addressMatches (.inet addr port) (identOf idP) =
      some (decide (idP.length = ID_B_LEN + 4) && decide (addr = longAt (dataOf idP) 0)) :=
  bytesMatch_eq (n := 4) (by decide) fun v => addr = longAt v 0

theorem addressMatches_inet6 (addr scope port : ℕ) :
    addressMatches (.inet6 addr scope port) (identOf idP) =
      some (decide (idP.length = ID_B_LEN + 16) && decide (addr = inet6At (dataOf idP))) :=
  bytesMatch_eq (n := 16) (by decide) fun v => addr = inet6At v

theorem cmpAsn1dn_payload (dn : Buf) :
    cmpAsn1dn eayCmpAsn1dn { v := dn, l := dn.length } (identOf idP) =
      if ID_B_LEN ≤ idP.length then some (eayCmpAsn1dn dn (dataOf idP)) else none := by
  unfold cmpAsn1dn
  by_cases hl : ID_B_LEN ≤ idP.length
  · have hlength := IdCompare.length_ident (a := idP) hl
    rw [if_pos hl, if_pos ⟨le_refl _, hlength.ge⟩, List.take_length, ← hlength, List.take_length]
    rfl
  · have hwraps := IdCompare.ident_wraps (a := idP) (not_le.mp hl)
    rw [if_neg hl, if_neg]
    rintro ⟨-, h⟩
    unfold ID_B_LEN at hl hwraps
    omega

theorem memcmp_payload (value : Buf) :
    memcmp value (identOf idP).v value.length =
      if value.length ≤ (dataOf idP).length then
        some (if (dataOf idP).take value.length = value then 0 else 1)
      else none := by
  unfold memcmp
  change (if _ ∧ value.length ≤ (dataOf idP).length then
    some (if value.take value.length = (dataOf idP).take value.length then (0 : ℤ) else 1) else none) = _
  rw [List.take_length]
  simp [eq_comm]

/-- A round reads outside, or tells whether the identifier is accepted. -/
def Judges (eayCmpAsn1dn : Buf → Buf → ℤ) (idP : Buf) (id : Idspec) (found : Option Bool) : Prop :=
  (¬ ReadsInside idP id → found = none) ∧
    (ReadsInside idP id → ∃ b, found = some b ∧ (b = true ↔ Accepts eayCmpAsn1dn idP id))

theorem idspecMatches_judges (eayCmpAsn1dn : Buf → Buf → ℤ) (idP : Buf)
    (hid : id ≠ .undefined) :
    Judges eayCmpAsn1dn idP id (idspecMatches eayCmpAsn1dn idP id) := by
  unfold idspecMatches
  rw [if_neg hid]
  by_cases hl : 1 ≤ idP.length
  · rw [IdCompare.readByte_of_lt hl, Option.bind_some]
    change Judges eayCmpAsn1dn idP id
      (if id.idtype ≠ doi2idtype (typeOf idP) then _ else _)
    by_cases htype : id.idtype = doi2idtype (typeOf idP)
    · rw [if_neg (not_not.mpr htype)]
      cases id with
      | undefined => exact absurd rfl hid
      | asn1dn dn =>
        dsimp only
        rw [cmpAsn1dn_payload]
        constructor
        · intro hnot
          rw [if_neg fun h => hnot ⟨hl, fun _ => h⟩]
          rfl
        · intro hin
          rw [if_pos (hin.2 htype)]
          exact ⟨_, rfl, by simp [Accepts, htype]⟩
      | other idtype value =>
        dsimp only
        rw [memcmp_payload]
        constructor
        · intro hnot
          rw [if_neg fun h => hnot ⟨hl, fun _ => h⟩]
          rfl
        · intro hin
          rw [if_pos (hin.2 htype)]
          refine ⟨_, rfl, ?_⟩
          by_cases hvalue : (dataOf idP).take value.length = value
          · simp [Accepts, htype, hvalue]
          · simp [Accepts, hvalue]
      | address saddr =>
        refine ⟨fun hnot => absurd ⟨hl, fun _ => trivial⟩ hnot, fun _ => ?_⟩
        cases saddr with
        | unspec => exact ⟨false, rfl, by simp [Accepts]⟩
        | other => exact ⟨false, rfl, by simp [Accepts]⟩
        | inet addr port =>
          exact ⟨_, addressMatches_inet addr port, by simp [Accepts, htype]⟩
        | inet6 addr scope port =>
          exact ⟨_, addressMatches_inet6 addr scope port, by simp [Accepts, htype]⟩
    · rw [if_pos htype]
      refine ⟨fun hnot => absurd ⟨hl, fun h => absurd h htype⟩ hnot, fun _ => ⟨false, rfl, ?_⟩⟩
      simp [Accepts, htype]
  · rw [IdCompare.readByte_of_le (by omega)]
    exact ⟨fun _ => rfl, fun hin => absurd hin.1 hl⟩

/-! ### The loop -/

/-- Every identifier up to the first accepted one is read inside the payload. -/
def TriedInside (eayCmpAsn1dn : Buf → Buf → ℤ) (idP : Buf) (ids : List Idspec) : Prop :=
  ∀ before id after, ids = before ++ id :: after →
    (∀ t ∈ before, ¬ Accepts eayCmpAsn1dn idP t) → ReadsInside idP id

theorem triedInside_cons {rest : List Idspec} :
    TriedInside eayCmpAsn1dn idP (id :: rest) ↔ ReadsInside idP id ∧
      (¬ Accepts eayCmpAsn1dn idP id → TriedInside eayCmpAsn1dn idP rest) := by
  constructor
  · intro h
    refine ⟨h [] id rest rfl (by simp), fun hno before t after hsplit hbefore => ?_⟩
    apply h (id :: before) t after (by rw [hsplit]; rfl)
    intro u hu
    cases List.mem_cons.mp hu with
    | inl hu => exact hu ▸ hno
    | inr hu => exact hbefore u hu
  · intro h before t after hsplit hbefore
    cases before with
    | nil =>
      cases hsplit
      exact h.1
    | cons u before =>
      cases hsplit
      exact h.2 (hbefore id List.mem_cons_self) before t after rfl
        fun v hv => hbefore v (List.mem_cons_of_mem _ hv)

/-- The loop reads outside, or finds out whether an identifier is accepted. -/
theorem matchLoop_cases (eayCmpAsn1dn : Buf → Buf → ℤ) (idP : Buf)
    {ids : List Idspec} (hids : Idspec.undefined ∉ ids) :
    (¬ TriedInside eayCmpAsn1dn idP ids → matchLoop eayCmpAsn1dn idP ids = none) ∧
      (TriedInside eayCmpAsn1dn idP ids → ∃ b, matchLoop eayCmpAsn1dn idP ids = some b ∧
        (b = true ↔ ∃ id ∈ ids, Accepts eayCmpAsn1dn idP id)) := by
  induction ids with
  | nil =>
    refine ⟨fun h => absurd (fun before id after hsplit => ?_) h, fun _ => ⟨false, rfl, by simp⟩⟩
    simp at hsplit
  | cons id rest ih =>
    have hid : id ≠ .undefined := fun h => hids (h ▸ List.mem_cons_self)
    have hrest := ih fun h => hids (List.mem_cons_of_mem _ h)
    have hjudges := idspecMatches_judges eayCmpAsn1dn idP hid
    rw [triedInside_cons, matchLoop]
    by_cases hin : ReadsInside idP id
    · obtain ⟨b, hb, hiff⟩ := hjudges.2 hin
      rw [hb, Option.bind_some]
      by_cases haccepts : Accepts eayCmpAsn1dn idP id
      · rw [if_pos (hiff.mpr haccepts)]
        refine ⟨fun h => absurd ⟨hin, fun hno => absurd haccepts hno⟩ h, fun _ => ⟨true, rfl, ?_⟩⟩
        exact ⟨fun _ => ⟨id, List.mem_cons_self, haccepts⟩, fun _ => rfl⟩
      · rw [if_neg fun h => haccepts (hiff.mp h)]
        constructor
        · intro h
          exact hrest.1 fun htried => h ⟨hin, fun _ => htried⟩
        · intro h
          obtain ⟨b', hb', hiff'⟩ := hrest.2 (h.2 haccepts)
          refine ⟨b', hb', hiff'.trans ?_⟩
          simp [haccepts]
    · rw [hjudges.1 hin]
      exact ⟨fun _ => rfl, fun h => absurd h.1 hin⟩

theorem Same.accepts (h : Same eayCmpAsn1dn idP id) : Accepts eayCmpAsn1dn idP id := by
  obtain ⟨hl, hsame⟩ := h
  have hlength : (dataOf idP).length = idP.length - ID_B_LEN := List.length_drop
  cases id with
  | undefined => exact hsame.elim
  | asn1dn dn =>
    refine ⟨?_, hsame.2⟩
    rw [hsame.1]
    rfl
  | other idtype value =>
    refine ⟨?_, hsame.2 ▸ List.take_length⟩
    rcases hsame.1 with ⟨hid, htype⟩ | ⟨hid, htype⟩ | ⟨hid, htype⟩
    · rw [htype]
      exact hid
    · rw [htype]
      exact hid
    · rw [htype]
      exact hid
  | address saddr =>
    cases saddr with
    | unspec => exact hsame.elim
    | other => exact hsame.elim
    | inet addr port =>
      refine ⟨?_, ?_, hsame.2.2⟩
      · rw [hsame.1]
        rfl
      · have hfour := hsame.2.1
        omega
    | inet6 addr scope port =>
      refine ⟨?_, ?_, hsame.2.2⟩
      · rw [hsame.1]
        rfl
      · have hsixteen := hsame.2.1
        omega

end

/-- An identity is checked right exactly when every identifier tried is read inside the payload
    and one that is accepted comes with one that is the same. -/
theorem rmconfMatchIdentity_iff (eayCmpAsn1dn : Buf → Buf → ℤ) (rmconf : Remoteconf) (idP : Buf)
    (hverify : rmconf.verifyIdentifier = true) (hids : rmconf.idvlP ≠ [])
    (hvalues : Idspec.undefined ∉ rmconf.idvlP) :
    (∃ ret, rmconfMatchIdentity eayCmpAsn1dn rmconf idP = some ret ∧
        (ret = 0 ↔ ∃ id ∈ rmconf.idvlP, Same eayCmpAsn1dn idP id)) ↔
      TriedInside eayCmpAsn1dn idP rmconf.idvlP ∧
        ((∃ id ∈ rmconf.idvlP, Accepts eayCmpAsn1dn idP id) →
          ∃ id ∈ rmconf.idvlP, Same eayCmpAsn1dn idP id) := by
  have hloop := matchLoop_cases eayCmpAsn1dn idP hvalues
  have hsame : (∃ id ∈ rmconf.idvlP, Same eayCmpAsn1dn idP id) →
      ∃ id ∈ rmconf.idvlP, Accepts eayCmpAsn1dn idP id :=
    fun h => h.imp fun id hid => ⟨hid.1, hid.2.accepts⟩
  unfold rmconfMatchIdentity
  rw [if_neg hids, hverify]
  by_cases htried : TriedInside eayCmpAsn1dn idP rmconf.idvlP
  · obtain ⟨b, hb, hiff⟩ := hloop.2 htried
    rw [hb]
    have hret : (if b = true then 0 else if true = true then ISAKMP_NTYPE_INVALID_ID_INFORMATION else 0) = 0 ↔
        ∃ id ∈ rmconf.idvlP, Accepts eayCmpAsn1dn idP id := by
      rw [← hiff]
      cases b <;> decide
    constructor
    · rintro ⟨ret, hsome, hzero⟩
      cases hsome
      exact ⟨htried, fun h => hzero.mp (hret.mpr h)⟩
    · intro h
      exact ⟨_, rfl, hret.trans ⟨h.2, hsame⟩⟩
  · rw [hloop.1 htried]
    constructor
    · rintro ⟨ret, hret, -⟩
      cases hret
    · intro h
      exact absurd h.1 htried

section
variable {eayCmpAsn1dn : Buf → Buf → ℤ} {env : Env} {idP : Buf}
  (henv : ∀ a b, env.eayCmpAsn1dn a b = decide (eayCmpAsn1dn a b = 0))
include henv

theorem idspecMatches_heap {id : Idspec} {b : Bool}
    (h : idspecMatches eayCmpAsn1dn idP id = some b) : Phase1.idspecMatches env idP id = b := by
  by_cases hid : id = .undefined
  · subst hid
    cases h
    rfl
  · have hjudges := idspecMatches_judges eayCmpAsn1dn idP hid
    have hin : ReadsInside idP id := by
      by_contra hnot
      rw [hjudges.1 hnot] at h
      cases h
    obtain ⟨b', hb', hiff⟩ := hjudges.2 hin
    rw [h] at hb'
    cases hb'
    apply Bool.eq_iff_iff.mpr
    rw [hiff]
    have hlength : (idP.drop ID_B_LEN).length = idP.length - ID_B_LEN := List.length_drop
    have hl : 1 ≤ idP.length := hin.1
    unfold Phase1.idspecMatches Accepts
    rw [if_neg hid]
    change (if id.idtype ≠ doi2idtype (typeOf idP) then _ else _) = true ↔ _
    by_cases htype : id.idtype = doi2idtype (typeOf idP)
    · rw [if_neg (not_not.mpr htype)]
      cases id with
      | undefined => exact absurd rfl hid
      | asn1dn dn => simp [htype, henv, dataOf]
      | other idtype value =>
        have hvalue : value.length ≤ (dataOf idP).length := hin.2 htype
        have htake : Proposal.memcpy (idP.drop ID_B_LEN ++ env.heap) value.length =
            (dataOf idP).take value.length := by
          have hsplit : idP.drop ID_B_LEN ++ env.heap =
              (dataOf idP).take value.length ++ ((dataOf idP).drop value.length ++ env.heap) := by
            rw [← List.append_assoc, List.take_append_drop]
            rfl
          have hcopied := Proposal.memcpy_append ((dataOf idP).take value.length)
            ((dataOf idP).drop value.length ++ env.heap)
          rwa [← hsplit, List.length_take_of_le hvalue] at hcopied
        simp [htype, htake]
      | address saddr =>
        cases saddr with
        | unspec => simp
        | other => simp
        | inet addr port =>
          simp only [htype, dataOf, Bool.and_eq_true, decide_eq_true_eq, true_and]
          unfold ID_B_LEN at hlength ⊢
          omega
        | inet6 addr scope port =>
          simp only [htype, dataOf, Bool.and_eq_true, decide_eq_true_eq, true_and]
          unfold ID_B_LEN at hlength ⊢
          omega
    · rw [if_pos htype]
      simp [htype]

/-- Where nothing is read outside, the memory behind a payload does not matter. -/
theorem rmconfMatchIdentity_heap {rmconf : Remoteconf} {ret : ℕ}
    (h : rmconfMatchIdentity eayCmpAsn1dn rmconf idP = some ret) :
    Phase1.rmconfMatchIdentity env rmconf idP = ret := by
  have hloop : ∀ (ids : List Idspec) (b : Bool), matchLoop eayCmpAsn1dn idP ids = some b →
      ids.any (Phase1.idspecMatches env idP) = b := by
    intro ids
    induction ids with
    | nil =>
      intro b hb
      cases hb
      rfl
    | cons id rest ih =>
      intro b hb
      rw [matchLoop] at hb
      obtain ⟨found, hfound, hrest⟩ := Option.bind_eq_some_iff.mp hb
      rw [List.any_cons, idspecMatches_heap henv hfound]
      cases found with
      | true =>
        cases hrest
        rfl
      | false => exact ih b hrest
  unfold rmconfMatchIdentity at h
  unfold Phase1.rmconfMatchIdentity
  by_cases hids : rmconf.idvlP = []
  · rw [if_pos hids] at h ⊢
    cases h
    rfl
  · rw [if_neg hids] at h ⊢
    obtain ⟨found, hfound, hret⟩ := Option.map_eq_some_iff.mp h
    rw [hloop _ _ hfound]
    exact hret

end

/-! ### A name and its beginning -/

/-- A section that expects the name in `value`. -/
def named (value : Buf) : Remoteconf :=
  { remote := .unspec
    etypes := [2]
    idvlP := [.other IDTYPE_FQDN value]
    mycert := none
    matchEmptyCr := false
    verifyIdentifier := true
    passive := false
    pcheckLevel := .OBEY
    dhGroup := 2
    proposal := [] }

theorem rmconfMatchIdentity_iff_name :
    (∃ ret, rmconfMatchIdentity IdCompare.sameBytes (named [97, 98]) [2, 0, 0, 0, 97, 98] = some ret ∧
        (ret = 0 ↔ ∃ id ∈ (named [97, 98]).idvlP,
          Same IdCompare.sameBytes [2, 0, 0, 0, 97, 98] id)) ↔
      TriedInside IdCompare.sameBytes [2, 0, 0, 0, 97, 98] (named [97, 98]).idvlP ∧
        ((∃ id ∈ (named [97, 98]).idvlP, Accepts IdCompare.sameBytes [2, 0, 0, 0, 97, 98] id) →
          ∃ id ∈ (named [97, 98]).idvlP, Same IdCompare.sameBytes [2, 0, 0, 0, 97, 98] id) :=
  rmconfMatchIdentity_iff IdCompare.sameBytes (named [97, 98]) [2, 0, 0, 0, 97, 98] rfl
    (by simp [named]) (by simp [named])

/-- A longer name is accepted, and a shorter one is read past its end. -/
theorem rmconfMatchIdentity_longer :
    rmconfMatchIdentity IdCompare.sameBytes (named [97, 98]) [2, 0, 0, 0, 97, 98, 99] = some 0 ∧
      (¬ ∃ id ∈ (named [97, 98]).idvlP, Same IdCompare.sameBytes [2, 0, 0, 0, 97, 98, 99] id) ∧
      rmconfMatchIdentity IdCompare.sameBytes (named [97, 98]) [2, 0, 0, 0, 97] = none := by
  refine ⟨by decide +kernel, ?_, by decide +kernel⟩
  rintro ⟨id, hid, hsame⟩
  have hname : id = .other IDTYPE_FQDN [97, 98] := List.mem_singleton.mp hid
  subst hname
  have hvalue := hsame.2.2
  simp [dataOf, ID_B_LEN] at hvalue

end WanStack.Racoon.PeerIdentity
