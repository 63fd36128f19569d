import WanStack.Racoon.AttrWalk

set_option autoImplicit false

/-!
# The two forms of an attribute

A transform that its attributes fill is the list of these, written. A walk over it is a
fold over the list, and two lists that name the same values are compared by what the
fold reads of each attribute.
-/
namespace WanStack.Racoon.AttrWalk
open Aftr (Buf byteAt shortAt)
open Proposal (Attr attributes attrLoop AttrsFit WellFormed encAttr encAttrs encAttrs_cons encAttrs_attrLoop
  shortAt_short shortAt_append memcpy memcpy_append ipsecdoiSetLd PL_T_LEN DATA_LEN Saprop Saproto
  OAKLEY_ATTR_ENC_ALG OAKLEY_ATTR_HASH_ALG OAKLEY_ATTR_AUTH_METHOD OAKLEY_ATTR_GRP_DESC OAKLEY_ATTR_GRP_TYPE
  OAKLEY_ATTR_GRP_TYPE_MODP OAKLEY_ATTR_GRP_PI OAKLEY_ATTR_GRP_GEN_ONE OAKLEY_ATTR_GRP_ORDER
  OAKLEY_ATTR_SA_LD_TYPE OAKLEY_ATTR_SA_LD_TYPE_SEC OAKLEY_ATTR_SA_LD_TYPE_KB OAKLEY_ATTR_SA_LD OAKLEY_ATTR_KEY_LEN)
open Phase1 (Decoding Isakmpsa t2isakmpsaStep fixedKey OAKLEY_ATTR_GRP_GEN_TWO OAKLEY_ATTR_SA_LD_TYPE_DEFAULT)

/-! ### Transforms that are filled -/

/-- The attributes of a transform end where it ends. -/
structure Whole (t : Buf) : Prop where
  length : t.length = shortAt t 2
  fits : AttrsFit t

/-- An attribute in its list: what is before it, and the bytes behind its header. -/
structure Place where
  before : Option Attr
  attr : Attr
  behind : Buf

def places : Option Attr → List Attr → List Place
  | _, [] => []
  | before, a :: as => { before := before, attr := a, behind := a.value ++ encAttrs as } :: places (some a) as

/-- The attributes of a transform in their places. -/
def placesOf (t : Buf) : List Place := places none (attributes t)

theorem memcpy_length_self (b : Buf) : memcpy b b.length = b := by
  have h := memcpy_append b []
  rwa [List.append_nil] at h

theorem Whole.bytes {t : Buf} (h : Whole t) : t.drop PL_T_LEN = encAttrs (attributes t) := by
  have hbytes : encAttrs (attributes t) = memcpy (t.drop PL_T_LEN) (encAttrs (attributes t)).length :=
    (encAttrs_attrLoop _ _ _).1
  have hfits : PL_T_LEN + (encAttrs (attributes t)).length = shortAt t 2 := h.fits
  have hlen : (encAttrs (attributes t)).length = (t.drop PL_T_LEN).length := by
    rw [List.length_drop, h.length]
    omega
  rw [hbytes, hlen, memcpy_length_self]

theorem attributes_wellFormed (t : Buf) : ∀ a ∈ attributes t, WellFormed a := (encAttrs_attrLoop _ _ _).2

theorem attrAt_encAttr {a : Attr} (h : WellFormed a) (rest : Buf) :
    attrAt (encAttr a ++ rest) = a ∧ (encAttr a ++ rest).drop DATA_LEN = a.value ++ rest ∧
      size a = (encAttr a).length := by
  have htype := h.type
  cases a with
  | mk type tv lorv value =>
    cases tv with
    | true =>
      have hvalue : value = [] := List.eq_nil_of_length_eq_zero h.value
      have hwide : type + 32768 < 65536 := by
        change type < 32768 at htype
        omega
      have hbytes : encAttr { type := type, tv := true, lorv := lorv, value := value } ++ rest =
          short (type + 32768) ++ (short lorv ++ rest) := by
        rw [encAttr, if_pos rfl, List.append_assoc]
      have hread : shortAt (short (type + 32768) ++ (short lorv ++ rest)) 0 = type + 32768 :=
        shortAt_short _ hwide _
      have hlorv : shortAt (short (type + 32768) ++ (short lorv ++ rest)) 2 = lorv :=
        (shortAt_append (short (type + 32768)) _ 0).trans (shortAt_short _ h.lorv _)
      have hmod : (type + 32768) % 32768 = type := by
        change type < 32768 at htype
        omega
      refine ⟨?_, ?_, rfl⟩
      · rw [hbytes, attrAt, hread, hlorv, hmod, if_pos (Nat.le_add_left _ _), hvalue,
          decide_eq_true (Nat.le_add_left _ _)]
      · rw [hbytes, hvalue]
        rfl
    | false =>
      have hvalue : value.length = lorv := h.value
      have hbytes : encAttr { type := type, tv := false, lorv := lorv, value := value } ++ rest =
          short type ++ (short lorv ++ (value ++ rest)) := by
        rw [encAttr, if_neg Bool.false_ne_true, List.append_assoc, List.append_assoc]
      have hread : shortAt (short type ++ (short lorv ++ (value ++ rest))) 0 = type :=
        shortAt_short _ (Nat.lt_trans htype (by decide)) _
      have hlorv : shortAt (short type ++ (short lorv ++ (value ++ rest))) 2 = lorv :=
        (shortAt_append (short type) _ 0).trans (shortAt_short _ h.lorv _)
      have hdrop : (short type ++ (short lorv ++ (value ++ rest))).drop DATA_LEN = value ++ rest := rfl
      have hshort : ¬ 32768 ≤ type := Nat.not_le_of_lt htype
      refine ⟨?_, ?_, ?_⟩
      · rw [hbytes, attrAt, hread, hlorv, hdrop, if_neg hshort, decide_eq_false hshort, ← hvalue, memcpy_append,
          Nat.mod_eq_of_lt htype]
      · rw [hbytes, hdrop]
      · rw [size, if_neg Bool.false_ne_true, encAttr, if_neg Bool.false_ne_true, List.length_append, hvalue]
        rfl

/-- What the result of a fold says of a walk. -/
def ofFold {σ : Type} : Option σ → Outcome σ
  | some s => .through s
  | none => .refused

/-- A walk that stays inside is a fold over the attributes in their places. -/
theorem walk_encAttrs {σ : Type} (w : Walker σ) (as : List Attr) (has : ∀ a ∈ as, WellFormed a)
    (before : Option Attr) (k : ℕ) (hk : (encAttrs as).length < k) (s : σ)
    (hinside : walk w k s (encAttrs as) (encAttrs as).length ≠ .outside) :
    walk w k s (encAttrs as) (encAttrs as).length =
      ofFold ((places before as).foldlM (fun s p => w.round s p.attr p.behind) s) := by
  induction as generalizing before k s with
  | nil =>
    cases k with
    | zero => exact absurd hk (Nat.not_lt_zero _)
    | succ k => rfl
  | cons a as ih =>
    cases k with
    | zero => exact absurd hk (Nat.not_lt_zero _)
    | succ k =>
      obtain ⟨ha, has⟩ := List.forall_mem_cons.mp has
      obtain ⟨hat, hbehind, hsize⟩ := attrAt_encAttr ha (encAttrs as)
      have hrest : (encAttr a ++ encAttrs as).drop (size a) = encAttrs as := List.drop_left' hsize.symm
      have hlen : (encAttrs (a :: as)).length = size a + (encAttrs as).length := by
        rw [encAttrs_cons, List.length_append, hsize]
      have hfour := four_le_size a
      have htlen : (((encAttrs (a :: as)).length : ℕ) : ℤ) - (size a : ℕ) = (encAttrs as).length := by
        rw [hlen]
        omega
      rw [← encAttrs_cons] at hat hbehind hrest
      rw [walk, if_neg (by omega)] at hinside ⊢
      by_cases hread : (encAttrs (a :: as)).length < DATA_LEN + w.reads s (attrAt (encAttrs (a :: as)))
      · rw [if_pos hread] at hinside
        exact absurd rfl hinside
      rw [if_neg hread, hat, hbehind, hrest, htlen] at hinside ⊢
      rw [places, List.foldlM_cons]
      change _ = ofFold ((w.round s a (a.value ++ encAttrs as)).bind _)
      cases hround : w.round s a (a.value ++ encAttrs as) with
      | none => rfl
      | some s =>
        rw [hround] at hinside
        exact ih has (some a) k (by omega) s hinside

theorem walkOf_eq {σ : Type} (w : Walker σ) (s : σ) {t : Buf} (ht : Whole t) (hinside : walkOf w s t ≠ .outside) :
    walkOf w s t = ofFold ((placesOf t).foldlM (fun s p => w.round s p.attr p.behind) s) := by
  have hfits : PL_T_LEN + (encAttrs (attributes t)).length = shortAt t 2 := ht.fits
  have htlen : (shortAt t 2 : ℤ) - PL_T_LEN = (encAttrs (attributes t)).length := by omega
  unfold walkOf at hinside ⊢
  rw [htlen, ht.bytes, Int.toNat_natCast] at hinside ⊢
  exact walk_encAttrs w _ (attributes_wellFormed t) none _ (Nat.lt_succ_self _) s hinside

/-- A walk that reads no further than the bytes behind an attribute stays inside. -/
theorem walk_inside {σ : Type} (w : Walker σ) (as : List Attr) (has : ∀ a ∈ as, WellFormed a)
    (before : Option Attr) (hreads : ∀ p ∈ places before as, ∀ s, w.reads s p.attr ≤ p.behind.length) (k : ℕ) (s : σ) :
    walk w k s (encAttrs as) (encAttrs as).length ≠ .outside := by
  induction as generalizing before k s with
  | nil => cases k <;> simp [walk, encAttrs]
  | cons a as ih =>
    cases k with
    | zero => simp [walk]
    | succ k =>
      obtain ⟨ha, has⟩ := List.forall_mem_cons.mp has
      obtain ⟨hread, hreads⟩ := List.forall_mem_cons.mp hreads
      obtain ⟨hat, hbehind, hsize⟩ := attrAt_encAttr ha (encAttrs as)
      have hrest : (encAttr a ++ encAttrs as).drop (size a) = encAttrs as := List.drop_left' hsize.symm
      have hlen : (encAttrs (a :: as)).length = DATA_LEN + (a.value ++ encAttrs as).length := by
        have hdrop := congrArg List.length hbehind
        rw [List.length_drop, ← encAttrs_cons] at hdrop
        have hfour := four_le_size a
        have hcons : (encAttrs (a :: as)).length = size a + (encAttrs as).length := by
          rw [encAttrs_cons, List.length_append, hsize]
        have hdata : DATA_LEN = 4 := rfl
        omega
      have htlen : (((encAttrs (a :: as)).length : ℕ) : ℤ) - (size a : ℕ) = (encAttrs as).length := by
        rw [encAttrs_cons, List.length_append, hsize]
        omega
      have hpos : ¬ ¬ (0 : ℤ) < (encAttrs (a :: as)).length := by
        rw [hlen]
        have hdata : DATA_LEN = 4 := rfl
        omega
      rw [← encAttrs_cons] at hat hbehind hrest
      rw [walk, if_neg hpos, hat, if_neg (by rw [hlen]; exact Nat.not_lt_of_le (Nat.add_le_add_left (hread s) _)),
        hbehind, hrest, htlen]
      cases w.round s a (a.value ++ encAttrs as) with
      | none => simp
      | some s => exact ih has (some a) hreads k s

theorem walkOf_inside {σ : Type} (w : Walker σ) (s : σ) {t : Buf} (ht : Whole t)
    (hreads : ∀ p ∈ placesOf t, ∀ s, w.reads s p.attr ≤ p.behind.length) : walkOf w s t ≠ .outside := by
  have hfits : PL_T_LEN + (encAttrs (attributes t)).length = shortAt t 2 := ht.fits
  have htlen : (shortAt t 2 : ℤ) - PL_T_LEN = (encAttrs (attributes t)).length := by omega
  rw [walkOf, htlen, ht.bytes]
  exact walk_inside w _ (attributes_wellFormed t) none hreads _ s

/-- The value of a long attribute is behind its header. -/
theorem long_behind {before : Option Attr} {as : List Attr} (has : ∀ a ∈ as, WellFormed a) :
    ∀ p ∈ places before as, p.attr.tv = false → p.attr.lorv ≤ p.behind.length := by
  induction as generalizing before with
  | nil => exact fun p hp => absurd hp List.not_mem_nil
  | cons a as ih =>
    obtain ⟨ha, has⟩ := List.forall_mem_cons.mp has
    rw [places, List.forall_mem_cons]
    refine ⟨?_, ih has⟩
    intro hlong
    have hvalue := ha.value
    change a.tv = false at hlong
    rw [hlong, if_neg Bool.false_ne_true] at hvalue
    rw [List.length_append, hvalue]
    exact Nat.le_add_right _ _

theorem Whole.eight_le {t : Buf} (ht : Whole t) : 8 ≤ t.length := by
  rw [ht.length, ← ht.fits]
  exact Nat.le_add_right 8 _

/-- Of a transform that its attributes fill the checks and the reader of phase 2 read nothing else. -/
theorem Whole.isakmpChecked {t : Buf} (ht : Whole t) : IsakmpChecked t :=
  (walkOf_inside_iff _ _ _).mp (walkOf_inside isakmpWalker () ht fun _ _ _ => Nat.zero_le _)

theorem Whole.ipsecChecked {t : Buf} (ht : Whole t) (protoId : ℤ) : IpsecChecked protoId t :=
  ⟨(walkOf_inside_iff _ _ _).mp (walkOf_inside (ipsecWalker protoId _) false ht fun _ _ _ => Nat.zero_le _),
    fun _ => Nat.le_trans (by decide) ht.eight_le⟩

theorem Whole.trnsRead {t : Buf} (ht : Whole t) (pp : Saprop) (pr : Saproto) : TrnsRead t pp pr := by
  refine ⟨Nat.le_trans (by decide) ht.eight_le, ?_⟩
  apply (walkOf_inside_iff _ _ _).mp
  apply walkOf_inside trnsWalker _ ht
  intro p hp s
  have hlong := long_behind (attributes_wellFormed t) p hp
  change (if _ ∧ _ ∧ (!p.attr.tv) = true then p.attr.lorv else 0) ≤ _
  split_ifs with h
  · exact hlong (by simpa using h.2.2)
  · exact Nat.zero_le _

/-- The reader of phase 1 does so too when as many bytes come behind a short generator as
    its value is large. -/
theorem Whole.saRead {t : Buf} (ht : Whole t)
    (hgen : ∀ p ∈ placesOf t, generator p.attr.type = true → p.attr.tv = true → p.attr.lorv ≤ 4 →
      p.attr.lorv ≤ p.behind.length) : SaRead t := by
  apply (walkOf_inside_iff _ _ _).mp
  apply walkOf_inside saWalker _ ht
  intro p hp s
  change (if p.attr.tv = true then if _ ∧ _ then p.attr.lorv else 0 else if _ then p.attr.lorv else 0) ≤ _
  split_ifs with htv h
  · exact hgen p hp h.1 htv h.2
  · exact Nat.zero_le _
  · exact long_behind (attributes_wellFormed t) p hp (Bool.not_eq_true _ ▸ htv)
  · exact Nat.zero_le _

/-! ### Lists that name the same values -/

/-- The number that an attribute stands for. -/
def number (a : Attr) : ℕ := if a.tv then a.lorv else a.value.foldl (fun n b => n * 256 + b.toNat) 0

/-- Two attributes of one type and one number; those of no variable length are the same. -/
structure SameValue (varying : ℕ → Bool) (a b : Attr) : Prop where
  type : b.type = a.type
  number : number b = number a
  same : varying a.type = false → b = a

/-- A life duration that is taken is the number. -/
theorem ipsecdoiSetLd_number {a : Attr} (h : ipsecdoiSetLd a ≠ 0) : ipsecdoiSetLd a = number a := by
  unfold ipsecdoiSetLd at h ⊢
  unfold number
  cases htv : a.tv with
  | true => rfl
  | false =>
    rw [htv, if_neg Bool.false_ne_true] at h
    rw [if_neg Bool.false_ne_true, if_neg Bool.false_ne_true]
    generalize a.value = value at h ⊢
    rcases value with _ | ⟨b0, _ | ⟨b1, _ | ⟨b2, _ | ⟨b3, _ | ⟨b4, rest⟩⟩⟩⟩⟩
    · exact absurd rfl h
    · exact absurd rfl h
    · change b0.toNat * 256 + b1.toNat = (0 * 256 + b0.toNat) * 256 + b1.toNat
      omega
    · exact absurd rfl h
    · change (b0.toNat * 256 + b1.toNat) * 65536 + (b2.toNat * 256 + b3.toNat) =
        (((0 * 256 + b0.toNat) * 256 + b1.toNat) * 256 + b2.toNat) * 256 + b3.toNat
      omega
    · have htwo : rest.length + 5 ≠ 2 := by omega
      have hfour : rest.length + 5 ≠ 4 := by omega
      simp [htwo, hfour] at h

theorem places_forall₂ {varying : ℕ → Bool} {as bs : List Attr} (h : List.Forall₂ (SameValue varying) as bs)
    (before before' : Option Attr) :
    List.Forall₂ (fun p p' => SameValue varying p.attr p'.attr) (places before as) (places before' bs) := by
  induction h generalizing before before' with
  | nil => exact .nil
  | cons hab _ ih => exact .cons hab (ih _ _)

/-! ### The last attribute of a type -/

def lastOf (type : ℕ) (ps : List Place) : Option Place := (ps.filter fun p => p.attr.type = type).getLast?

theorem lastOf_cons (type : ℕ) (p : Place) (ps : List Place) :
    lastOf type (p :: ps) = if p.attr.type = type then some ((lastOf type ps).getD p) else lastOf type ps := by
  unfold lastOf
  by_cases h : p.attr.type = type
  · rw [if_pos h, List.filter_cons_of_pos (by simpa using h), List.getLast?_cons]
  · rw [if_neg h, List.filter_cons_of_neg (by simpa using h)]

theorem lastOf_type {type : ℕ} {ps : List Place} {p : Place} (h : lastOf type ps = some p) : p.attr.type = type := by
  have hmem := List.mem_of_getLast? h
  simpa using (List.mem_filter.mp hmem).2

theorem lastOf_isSome_iff (type : ℕ) (ps : List Place) :
    (lastOf type ps).isSome ↔ ∃ p ∈ ps, p.attr.type = type := by
  unfold lastOf
  simp

/-- A field that the attributes of one type set holds what the last of them says. -/
theorem foldlM_last {σ β : Type} {round : σ → Place → Option σ} (field : σ → β) (type : ℕ)
    (reading : Place → β)
    (hround : ∀ s p s1, round s p = some s1 → field s1 = if p.attr.type = type then reading p else field s)
    {ps : List Place} {s s' : σ} (h : ps.foldlM round s = some s') :
    field s' = ((lastOf type ps).map reading).getD (field s) := by
  induction ps generalizing s with
  | nil =>
    cases h
    rfl
  | cons p ps ih =>
    rw [List.foldlM_cons] at h
    obtain ⟨s1, hone, hrest⟩ := Option.bind_eq_some_iff.mp h
    rw [ih hrest, hround s p s1 hone, lastOf_cons]
    by_cases htype : p.attr.type = type
    · rw [if_pos htype, if_pos htype]
      cases lastOf type ps <;> rfl
    · rw [if_neg htype, if_neg htype]

/-! ### Phase 1 -/

/-- The attribute makes `t2isakmpsa` fail: a group type other than MODP, a short generator
    above 4, a heeded life duration that is 0 or of neither two nor four bytes, a key
    length that is no number of bytes. -/
def SaRefuses (prev : Option ℕ) (a : Attr) : Prop :=
  (a.type = OAKLEY_ATTR_GRP_TYPE ∧ a.lorv ≠ OAKLEY_ATTR_GRP_TYPE_MODP) ∨
  (generator a.type = true ∧ a.tv = true ∧ 4 < a.lorv) ∨
  (a.type = OAKLEY_ATTR_SA_LD ∧ prev = some OAKLEY_ATTR_SA_LD_TYPE ∧ ipsecdoiSetLd a = 0) ∨
  (a.type = OAKLEY_ATTR_KEY_LEN ∧ a.lorv % 8 ≠ 0)

/-- What comes before, as the round looks at it. -/
def Place.prev (p : Place) : Option ℕ := p.before.map Attr.type

/-- The cipher that the list ends up with. -/
def lastCipher (ps : List Place) : ℕ := ((lastOf OAKLEY_ATTR_ENC_ALG ps).map fun p => p.attr.lorv).getD 0

/-- Or a key length goes with a cipher that has none. -/
def SaRefused (t : Buf) : Prop :=
  (∃ p ∈ placesOf t, SaRefuses p.prev p.attr) ∨
    ((∃ p ∈ placesOf t, p.attr.type = OAKLEY_ATTR_KEY_LEN) ∧ fixedKey (lastCipher (placesOf t)) = true)

/-- The last prime, curves and order have the same bytes, and what is made of the last
    generators is the same. -/
def SameGroup (t t' : Buf) : Prop :=
  (∀ type ∈ [OAKLEY_ATTR_GRP_PI, OAKLEY_ATTR_GRP_CURVE_A, OAKLEY_ATTR_GRP_CURVE_B, OAKLEY_ATTR_GRP_ORDER],
    (lastOf type (placesOf t)).map (fun p => val p.attr) = (lastOf type (placesOf t')).map fun p => val p.attr) ∧
  (∀ type ∈ [OAKLEY_ATTR_GRP_GEN_ONE, OAKLEY_ATTR_GRP_GEN_TWO],
    (lastOf type (placesOf t)).map (fun p => gen p.attr p.behind) =
      (lastOf type (placesOf t')).map fun p => gen p.attr p.behind)

/-- A life duration behind a life type. -/
def heeded (s : Decoding) (a : Attr) : Bool := a.type = OAKLEY_ATTR_SA_LD && s.prev = some OAKLEY_ATTR_SA_LD_TYPE

/-- A round, field by field. -/
def nextDecoding (s : Decoding) (a : Attr) : Decoding :=
  { lifeT :=
      if a.type = OAKLEY_ATTR_SA_LD_TYPE then
        if a.lorv = OAKLEY_ATTR_SA_LD_TYPE_SEC ∨ a.lorv = OAKLEY_ATTR_SA_LD_TYPE_KB then a.lorv
        else OAKLEY_ATTR_SA_LD_TYPE_DEFAULT
      else s.lifeT
    prev := some a.type
    keylen := s.keylen || a.type = OAKLEY_ATTR_KEY_LEN
    sa :=
      { lifetime := if heeded s a ∧ s.lifeT = OAKLEY_ATTR_SA_LD_TYPE_SEC then ipsecdoiSetLd a else s.sa.lifetime
        lifebyte := if heeded s a ∧ s.lifeT ≠ OAKLEY_ATTR_SA_LD_TYPE_SEC then ipsecdoiSetLd a else s.sa.lifebyte
        enctype := if a.type = OAKLEY_ATTR_ENC_ALG then a.lorv else s.sa.enctype
        encklen := if a.type = OAKLEY_ATTR_KEY_LEN then a.lorv else s.sa.encklen
        authmethod := if a.type = OAKLEY_ATTR_AUTH_METHOD then a.lorv else s.sa.authmethod
        hashtype := if a.type = OAKLEY_ATTR_HASH_ALG then a.lorv else s.sa.hashtype
        dhGroup := if a.type = OAKLEY_ATTR_GRP_DESC then a.lorv else s.sa.dhGroup
        dhgrp := s.sa.dhgrp } }

section
attribute [local simp] OAKLEY_ATTR_ENC_ALG OAKLEY_ATTR_HASH_ALG OAKLEY_ATTR_AUTH_METHOD OAKLEY_ATTR_GRP_DESC
  OAKLEY_ATTR_GRP_TYPE OAKLEY_ATTR_GRP_GEN_ONE OAKLEY_ATTR_GRP_GEN_TWO OAKLEY_ATTR_SA_LD_TYPE OAKLEY_ATTR_SA_LD
  OAKLEY_ATTR_KEY_LEN

theorem t2isakmpsaStep_cases (s : Decoding) (a : Attr) :
    (SaRefuses s.prev a ∧ t2isakmpsaStep s a = none) ∨
      (¬ SaRefuses s.prev a ∧ t2isakmpsaStep s a = some (nextDecoding s a)) := by
  unfold t2isakmpsaStep
  dsimp only
  by_cases henc : a.type = OAKLEY_ATTR_ENC_ALG
  · rw [if_pos henc]
    exact Or.inr ⟨by simp [SaRefuses, generator, henc], by simp [nextDecoding, heeded, henc]⟩
  rw [if_neg henc]
  by_cases hhash : a.type = OAKLEY_ATTR_HASH_ALG
  · rw [if_pos hhash]
    exact Or.inr ⟨by simp [SaRefuses, generator, hhash], by simp [nextDecoding, heeded, hhash]⟩
  rw [if_neg hhash]
  by_cases hauth : a.type = OAKLEY_ATTR_AUTH_METHOD
  · rw [if_pos hauth]
    exact Or.inr ⟨by simp [SaRefuses, generator, hauth], by simp [nextDecoding, heeded, hauth]⟩
  rw [if_neg hauth]
  by_cases hdesc : a.type = OAKLEY_ATTR_GRP_DESC
  · rw [if_pos hdesc]
    exact Or.inr ⟨by simp [SaRefuses, generator, hdesc], by simp [nextDecoding, heeded, hdesc]⟩
  rw [if_neg hdesc]
  by_cases hgroup : a.type = OAKLEY_ATTR_GRP_TYPE
  · rw [if_pos hgroup]
    by_cases hmodp : a.lorv = OAKLEY_ATTR_GRP_TYPE_MODP
    · rw [if_pos hmodp]
      exact Or.inr ⟨by simp [SaRefuses, generator, hgroup, hmodp], by simp [nextDecoding, heeded, hgroup]⟩
    · rw [if_neg hmodp]
      exact Or.inl ⟨Or.inl ⟨hgroup, hmodp⟩, rfl⟩
  rw [if_neg hgroup]
  by_cases hgen : a.type = OAKLEY_ATTR_GRP_GEN_ONE ∨ a.type = OAKLEY_ATTR_GRP_GEN_TWO
  · have hisgen : generator a.type = true := by
      rw [generator, Bool.or_eq_true, decide_eq_true_eq, decide_eq_true_eq]
      exact hgen
    rw [if_pos hgen]
    by_cases hlarge : a.tv = true ∧ 4 < a.lorv
    · rw [if_pos hlarge]
      exact Or.inl ⟨Or.inr (Or.inl ⟨hisgen, hlarge⟩), rfl⟩
    · rw [if_neg hlarge]
      cases hgen with
      | inl hgen =>
        exact Or.inr ⟨by simpa [SaRefuses, generator, hgen] using hlarge, by simp [nextDecoding, heeded, hgen]⟩
      | inr hgen =>
        exact Or.inr ⟨by simpa [SaRefuses, generator, hgen] using hlarge, by simp [nextDecoding, heeded, hgen]⟩
  rw [if_neg hgen]
  by_cases hldtype : a.type = OAKLEY_ATTR_SA_LD_TYPE
  · rw [if_pos hldtype]
    exact Or.inr ⟨by simp [SaRefuses, generator, hldtype], by simp [nextDecoding, heeded, hldtype]⟩
  rw [if_neg hldtype]
  by_cases hld : a.type = OAKLEY_ATTR_SA_LD
  · rw [if_pos hld]
    by_cases hprev : s.prev ≠ some OAKLEY_ATTR_SA_LD_TYPE
    · have hnot : ¬ s.prev = some 11 := hprev
      rw [if_pos hprev]
      exact Or.inr ⟨by simp [SaRefuses, generator, hld, hnot], by simp [nextDecoding, heeded, hld, hnot]⟩
    have hheeded : s.prev = some OAKLEY_ATTR_SA_LD_TYPE := not_not.mp hprev
    rw [if_neg hprev]
    by_cases hzero : ipsecdoiSetLd a = 0
    · rw [if_pos hzero]
      exact Or.inl ⟨Or.inr (Or.inr (Or.inl ⟨hld, hheeded, hzero⟩)), rfl⟩
    rw [if_neg hzero]
    right
    constructor
    · simp [SaRefuses, generator, hld, hzero]
    · by_cases hsec : s.lifeT = OAKLEY_ATTR_SA_LD_TYPE_SEC
      · rw [if_pos hsec]
        simp [nextDecoding, heeded, hld, hheeded, hsec]
      · rw [if_neg hsec]
        simp [nextDecoding, heeded, hld, hheeded, hsec]
  rw [if_neg hld]
  by_cases hkey : a.type = OAKLEY_ATTR_KEY_LEN
  · rw [if_pos hkey]
    by_cases hbits : a.lorv % 8 ≠ 0
    · rw [if_pos hbits]
      exact Or.inl ⟨Or.inr (Or.inr (Or.inr ⟨hkey, hbits⟩)), rfl⟩
    · rw [if_neg hbits]
      exact Or.inr ⟨by simpa [SaRefuses, generator, hkey] using hbits, by simp [nextDecoding, heeded, hkey]⟩
  rw [if_neg hkey]
  have hnotgen : ¬ generator a.type = true := by
    rw [generator, Bool.or_eq_true, decide_eq_true_eq, decide_eq_true_eq]
    exact hgen
  right
  constructor
  · rintro (⟨h, -⟩ | ⟨h, -⟩ | ⟨h, -⟩ | ⟨h, -⟩)
    · exact hgroup h
    · exact hnotgen h
    · exact hld h
    · exact hkey h
  · simp only [nextDecoding, heeded, decide_eq_false hld, decide_eq_false hkey, Bool.false_and, Bool.or_false,
      Bool.false_eq_true, false_and, if_false, if_neg henc, if_neg hhash, if_neg hauth, if_neg hdesc, if_neg hldtype,
      if_neg hkey]

end

theorem t2isakmpsaStep_none_iff (s : Decoding) (a : Attr) : t2isakmpsaStep s a = none ↔ SaRefuses s.prev a := by
  cases t2isakmpsaStep_cases s a with
  | inl h => exact iff_of_true h.2 h.1
  | inr h =>
    rw [h.2]
    exact iff_of_false (Option.some_ne_none _) h.1

theorem t2isakmpsaStep_some {s s1 : Decoding} {a : Attr} (h : t2isakmpsaStep s a = some s1) :
    ¬ SaRefuses s.prev a ∧ s1 = nextDecoding s a := by
  cases t2isakmpsaStep_cases s a with
  | inl hnone => exact absurd (hnone.2.symm.trans h) (Option.some_ne_none _).symm
  | inr hsome => exact ⟨hsome.1, Option.some.inj (h.symm.trans hsome.2)⟩

/-- A round does with an attribute what it does with another for the same value. -/
theorem nextDecoding_same {s : Decoding} {a b : Attr} (hab : SameValue copied a b) (ha : ¬ SaRefuses s.prev a)
    (hb : ¬ SaRefuses s.prev b) : nextDecoding s b = nextDecoding s a := by
  by_cases hcopied : copied a.type = false
  · rw [hab.same hcopied]
  have hheeded : heeded s b = heeded s a := by rw [heeded, heeded, hab.type]
  have hset : heeded s a = true → ipsecdoiSetLd b = ipsecdoiSetLd a := by
    intro h
    obtain ⟨hld, hprev⟩ : a.type = OAKLEY_ATTR_SA_LD ∧ s.prev = some OAKLEY_ATTR_SA_LD_TYPE := by
      simpa only [heeded, Bool.and_eq_true, decide_eq_true_eq] using h
    have hla : ipsecdoiSetLd a ≠ 0 := fun h0 => ha (Or.inr (Or.inr (Or.inl ⟨hld, hprev, h0⟩)))
    have hlb : ipsecdoiSetLd b ≠ 0 := fun h0 => hb (Or.inr (Or.inr (Or.inl ⟨hab.type.trans hld, hprev, h0⟩)))
    rw [ipsecdoiSetLd_number hla, ipsecdoiSetLd_number hlb, hab.number]
  have hnot : ∀ type, copied type = false → a.type ≠ type := by
    intro type htype h
    rw [h] at hcopied
    exact hcopied htype
  unfold nextDecoding
  rw [hab.type, hheeded, if_neg (hnot OAKLEY_ATTR_SA_LD_TYPE rfl), if_neg (hnot OAKLEY_ATTR_SA_LD_TYPE rfl),
    if_neg (hnot OAKLEY_ATTR_ENC_ALG rfl), if_neg (hnot OAKLEY_ATTR_ENC_ALG rfl),
    if_neg (hnot OAKLEY_ATTR_KEY_LEN rfl), if_neg (hnot OAKLEY_ATTR_KEY_LEN rfl),
    if_neg (hnot OAKLEY_ATTR_AUTH_METHOD rfl), if_neg (hnot OAKLEY_ATTR_AUTH_METHOD rfl),
    if_neg (hnot OAKLEY_ATTR_HASH_ALG rfl), if_neg (hnot OAKLEY_ATTR_HASH_ALG rfl),
    if_neg (hnot OAKLEY_ATTR_GRP_DESC rfl), if_neg (hnot OAKLEY_ATTR_GRP_DESC rfl)]
  by_cases h : heeded s a = true
  · rw [hset h]
  · simp only [h, Bool.false_eq_true, false_and, if_false]

/-- The round of `t2isakmpsa` for an attribute in its place. -/
def saRound (s : Decoded) (p : Place) : Option Decoded := saWalker.round s p.attr p.behind

theorem saRound_some {s s1 : Decoded} {p : Place} (h : saRound s p = some s1) :
    ¬ SaRefuses s.decoding.prev p.attr ∧
      s1 = { decoding := nextDecoding s.decoding p.attr, dhgrp := dhgrpStep s.dhgrp p.attr p.behind } := by
  obtain ⟨decoding, hstep, rfl⟩ := Option.map_eq_some_iff.mp h
  obtain ⟨hrefuses, rfl⟩ := t2isakmpsaStep_some hstep
  exact ⟨hrefuses, rfl⟩

theorem saFold_none_iff (as : List Attr) (before : Option Attr) (s : Decoded)
    (hprev : s.decoding.prev = before.map Attr.type) :
    (places before as).foldlM saRound s = none ↔ ∃ p ∈ places before as, SaRefuses p.prev p.attr := by
  induction as generalizing before s with
  | nil => simp [places]
  | cons a as ih =>
    rw [places, List.foldlM_cons, List.exists_mem_cons_iff]
    change Option.bind _ _ = none ↔ SaRefuses (before.map Attr.type) a ∨ _
    rw [← hprev]
    cases hround : saRound s { before := before, attr := a, behind := a.value ++ encAttrs as } with
    | none =>
      have hrefuses := (t2isakmpsaStep_none_iff s.decoding a).mp (Option.map_eq_none_iff.mp hround)
      exact iff_of_true rfl (Or.inl hrefuses)
    | some s1 =>
      obtain ⟨hrefuses, rfl⟩ := saRound_some hround
      rw [or_iff_right hrefuses]
      exact ih (some a) _ rfl

/-- Lists that name the same values leave the same behind, but for the group. -/
theorem saFold_same {ps ps' : List Place}
    (h : List.Forall₂ (fun p p' => SameValue copied p.attr p'.attr) ps ps') {s s' r r' : Decoded}
    (hs : s'.decoding = s.decoding) (hr : ps.foldlM saRound s = some r) (hr' : ps'.foldlM saRound s' = some r') :
    r'.decoding = r.decoding := by
  induction h generalizing s s' with
  | nil =>
    cases hr
    cases hr'
    exact hs
  | cons hp _ ih =>
    rw [List.foldlM_cons] at hr hr'
    obtain ⟨s1, hone, hr⟩ := Option.bind_eq_some_iff.mp hr
    obtain ⟨s1', hone', hr'⟩ := Option.bind_eq_some_iff.mp hr'
    obtain ⟨hrefuses, rfl⟩ := saRound_some hone
    obtain ⟨hrefuses', rfl⟩ := saRound_some hone'
    rw [hs] at hrefuses'
    apply ih _ hr hr'
    change nextDecoding s'.decoding _ = nextDecoding s.decoding _
    rw [hs]
    exact nextDecoding_same hp hrefuses hrefuses'

theorem dhgrpStep_fields (g : Dhgroup) (a : Attr) (behind : Buf) :
    (dhgrpStep g a behind).type = (if a.type = OAKLEY_ATTR_GRP_TYPE then a.lorv else g.type) ∧
    (dhgrpStep g a behind).prime = (if a.type = OAKLEY_ATTR_GRP_PI then some (val a) else g.prime) ∧
    (dhgrpStep g a behind).gen1 = (if a.type = OAKLEY_ATTR_GRP_GEN_ONE then gen a behind else g.gen1) ∧
    (dhgrpStep g a behind).gen2 = (if a.type = OAKLEY_ATTR_GRP_GEN_TWO then gen a behind else g.gen2) ∧
    (dhgrpStep g a behind).curveA = (if a.type = OAKLEY_ATTR_GRP_CURVE_A then some (val a) else g.curveA) ∧
    (dhgrpStep g a behind).curveB = (if a.type = OAKLEY_ATTR_GRP_CURVE_B then some (val a) else g.curveB) ∧
    (dhgrpStep g a behind).order = (if a.type = OAKLEY_ATTR_GRP_ORDER then some (val a) else g.order) := by
  unfold dhgrpStep
  split_ifs <;> simp_all [OAKLEY_ATTR_GRP_TYPE, OAKLEY_ATTR_GRP_PI, OAKLEY_ATTR_GRP_GEN_ONE, OAKLEY_ATTR_GRP_GEN_TWO,
    OAKLEY_ATTR_GRP_CURVE_A, OAKLEY_ATTR_GRP_CURVE_B, OAKLEY_ATTR_GRP_ORDER]

/-- What the list leaves of the group: the last of each type. -/
theorem saFold_dhgrp {ps : List Place} {r : Decoded} (h : ps.foldlM saRound saStart = some r) :
    r.dhgrp =
      { type := ((lastOf OAKLEY_ATTR_GRP_TYPE ps).map fun p => p.attr.lorv).getD 0
        prime := (lastOf OAKLEY_ATTR_GRP_PI ps).map fun p => val p.attr
        gen1 := ((lastOf OAKLEY_ATTR_GRP_GEN_ONE ps).map fun p => gen p.attr p.behind).getD 0
        gen2 := ((lastOf OAKLEY_ATTR_GRP_GEN_TWO ps).map fun p => gen p.attr p.behind).getD 0
        curveA := (lastOf OAKLEY_ATTR_GRP_CURVE_A ps).map fun p => val p.attr
        curveB := (lastOf OAKLEY_ATTR_GRP_CURVE_B ps).map fun p => val p.attr
        order := (lastOf OAKLEY_ATTR_GRP_ORDER ps).map fun p => val p.attr } := by
  have hfields : ∀ (s : Decoded) (p : Place) (s1 : Decoded), saRound s p = some s1 →
      s1.dhgrp = dhgrpStep s.dhgrp p.attr p.behind := by
    intro s p s1 hone
    rw [(saRound_some hone).2]
  have hcopy : ∀ o : Option Place, (o.map fun p => some (val p.attr)).getD none = o.map fun p => val p.attr := by
    intro o
    cases o <;> rfl
  have htype := foldlM_last (fun s : Decoded => s.dhgrp.type) OAKLEY_ATTR_GRP_TYPE (fun p => p.attr.lorv)
    (fun s p s1 hone => by rw [hfields s p s1 hone]; exact (dhgrpStep_fields _ _ _).1) h
  have hprime := foldlM_last (fun s : Decoded => s.dhgrp.prime) OAKLEY_ATTR_GRP_PI (fun p => some (val p.attr))
    (fun s p s1 hone => by rw [hfields s p s1 hone]; exact (dhgrpStep_fields _ _ _).2.1) h
  have hgen1 := foldlM_last (fun s : Decoded => s.dhgrp.gen1) OAKLEY_ATTR_GRP_GEN_ONE
    (fun p => gen p.attr p.behind)
    (fun s p s1 hone => by rw [hfields s p s1 hone]; exact (dhgrpStep_fields _ _ _).2.2.1) h
  have hgen2 := foldlM_last (fun s : Decoded => s.dhgrp.gen2) OAKLEY_ATTR_GRP_GEN_TWO
    (fun p => gen p.attr p.behind)
    (fun s p s1 hone => by rw [hfields s p s1 hone]; exact (dhgrpStep_fields _ _ _).2.2.2.1) h
  have hcurveA := foldlM_last (fun s : Decoded => s.dhgrp.curveA) OAKLEY_ATTR_GRP_CURVE_A
    (fun p => some (val p.attr))
    (fun s p s1 hone => by rw [hfields s p s1 hone]; exact (dhgrpStep_fields _ _ _).2.2.2.2.1) h
  have hcurveB := foldlM_last (fun s : Decoded => s.dhgrp.curveB) OAKLEY_ATTR_GRP_CURVE_B
    (fun p => some (val p.attr))
    (fun s p s1 hone => by rw [hfields s p s1 hone]; exact (dhgrpStep_fields _ _ _).2.2.2.2.2.1) h
  have horder := foldlM_last (fun s : Decoded => s.dhgrp.order) OAKLEY_ATTR_GRP_ORDER
    (fun p => some (val p.attr))
    (fun s p s1 hone => by rw [hfields s p s1 hone]; exact (dhgrpStep_fields _ _ _).2.2.2.2.2.2) h
  rw [← hcopy, ← hcopy, ← hcopy, ← hcopy]
  exact Dhgroup.ext htype hprime hgen1 hgen2 hcurveA hcurveB horder

theorem saFold_keylen {ps : List Place} {r : Decoded} (h : ps.foldlM saRound saStart = some r) :
    r.decoding.keylen = true ↔ ∃ p ∈ ps, p.attr.type = OAKLEY_ATTR_KEY_LEN := by
  have hkeylen := foldlM_last (fun s : Decoded => s.decoding.keylen) OAKLEY_ATTR_KEY_LEN (fun _ => true)
    (fun s p s1 hone => by
      rw [(saRound_some hone).2]
      by_cases hkey : p.attr.type = OAKLEY_ATTR_KEY_LEN <;> simp [nextDecoding, hkey]) h
  rw [← lastOf_isSome_iff, hkeylen]
  cases lastOf OAKLEY_ATTR_KEY_LEN ps <;> simp [saStart]

theorem saFold_enctype {ps : List Place} {r : Decoded} (h : ps.foldlM saRound saStart = some r) :
    r.decoding.sa.enctype = lastCipher ps :=
  foldlM_last (fun s : Decoded => s.decoding.sa.enctype) OAKLEY_ATTR_ENC_ALG (fun p => p.attr.lorv)
    (fun s p s1 hone => by rw [(saRound_some hone).2]; rfl) h

/-- The last attributes of a type stand for the same value. -/
theorem lastOf_forall₂ {varying : ℕ → Bool} {ps ps' : List Place}
    (h : List.Forall₂ (fun p p' => SameValue varying p.attr p'.attr) ps ps') (type : ℕ) :
    Option.Rel (fun p p' => SameValue varying p.attr p'.attr) (lastOf type ps) (lastOf type ps') := by
  induction h with
  | nil => exact .none
  | cons hp _ ih =>
    rw [lastOf_cons, lastOf_cons, hp.type]
    split_ifs
    · revert ih
      generalize lastOf type _ = o
      generalize lastOf type _ = o'
      intro ih
      cases ih with
      | none => exact .some hp
      | some hlast => exact .some hlast
    · exact ih

theorem t2isakmpsa_eq {t : Buf} (ht : Whole t) (hread : SaRead t) :
    t2isakmpsa t = (ofFold ((placesOf t).foldlM saRound saStart)).andThen fun s =>
      if s.decoding.keylen ∧ fixedKey s.decoding.sa.enctype then .refused
      else .through (s.decoding.sa, s.dhgrp) := by
  rw [t2isakmpsa, walkOf_eq saWalker saStart ht ((walkOf_inside_iff _ _ _).mpr hread)]
  rfl

/-- Which transforms are refused, and what is made of the others. -/
theorem t2isakmpsa_cases {t : Buf} (ht : Whole t) (hread : SaRead t) :
    (SaRefused t ∧ t2isakmpsa t = .refused) ∨
      (¬ SaRefused t ∧ ∃ r, (placesOf t).foldlM saRound saStart = some r ∧
        t2isakmpsa t = .through (r.decoding.sa, r.dhgrp)) := by
  rw [t2isakmpsa_eq ht hread]
  cases hfold : (placesOf t).foldlM saRound saStart with
  | none => exact Or.inl ⟨Or.inl ((saFold_none_iff _ none saStart rfl).mp hfold), rfl⟩
  | some r =>
    have hrounds : ¬ ∃ p ∈ placesOf t, SaRefuses p.prev p.attr := by
      intro h
      rw [placesOf, (saFold_none_iff _ none saStart rfl).mpr h] at hfold
      cases hfold
    have hrefused : SaRefused t ↔ r.decoding.keylen = true ∧ fixedKey r.decoding.sa.enctype = true := by
      rw [SaRefused, or_iff_right hrounds, saFold_keylen hfold, saFold_enctype hfold]
    rw [hrefused]
    change (_ ∧ ite _ _ _ = _) ∨ (_ ∧ ∃ r', some r = some r' ∧ ite _ _ _ = _)
    by_cases hkey : r.decoding.keylen = true ∧ fixedKey r.decoding.sa.enctype = true
    · rw [if_pos hkey]
      exact Or.inl ⟨hkey, rfl⟩
    · rw [if_neg hkey]
      exact Or.inr ⟨hkey, r, rfl, rfl⟩

theorem getD_map_eq_iff {R : Place → Place → Prop} {o o' : Option Place} (h : Option.Rel R o o')
    (f : Place → ℤ) (d : ℤ) : (o.map f).getD d = (o'.map f).getD d ↔ o.map f = o'.map f := by
  cases h with
  | none => exact iff_of_true rfl rfl
  | some _ => exact (Option.some_inj).symm

theorem sameGroup_iff {t t' : Buf} {r r' : Decoded}
    (hplaces : List.Forall₂ (fun p p' => SameValue copied p.attr p'.attr) (placesOf t) (placesOf t'))
    (h : (placesOf t).foldlM saRound saStart = some r) (h' : (placesOf t').foldlM saRound saStart = some r') :
    r.dhgrp = r'.dhgrp ↔ SameGroup t t' := by
  have htype : ((lastOf OAKLEY_ATTR_GRP_TYPE (placesOf t)).map fun p => p.attr.lorv).getD 0 =
      ((lastOf OAKLEY_ATTR_GRP_TYPE (placesOf t')).map fun p => p.attr.lorv).getD 0 := by
    have hlast := lastOf_forall₂ hplaces OAKLEY_ATTR_GRP_TYPE
    have hoftype : ∀ p, lastOf OAKLEY_ATTR_GRP_TYPE (placesOf t) = some p → p.attr.type = OAKLEY_ATTR_GRP_TYPE :=
      fun p => lastOf_type
    revert hlast hoftype
    generalize lastOf OAKLEY_ATTR_GRP_TYPE (placesOf t) = o
    generalize lastOf OAKLEY_ATTR_GRP_TYPE (placesOf t') = o'
    intro hlast hoftype
    cases hlast with
    | none => rfl
    | @some p p' hp =>
      have hattr : p'.attr = p.attr := hp.same (by rw [hoftype p rfl]; rfl)
      change p.attr.lorv = p'.attr.lorv
      rw [hattr]
  rw [saFold_dhgrp h, saFold_dhgrp h', Dhgroup.mk.injEq, and_iff_right htype,
    getD_map_eq_iff (lastOf_forall₂ hplaces _), getD_map_eq_iff (lastOf_forall₂ hplaces _)]
  unfold SameGroup
  simp only [List.forall_mem_cons, List.not_mem_nil, false_implies, implies_true, and_true]
  constructor
  · rintro ⟨hprime, hgen1, hgen2, hcurveA, hcurveB, horder⟩
    exact ⟨⟨hprime, hcurveA, hcurveB, horder⟩, hgen1, hgen2⟩
  · rintro ⟨⟨hprime, hcurveA, hcurveB, horder⟩, hgen1, hgen2⟩
    exact ⟨hprime, hgen1, hgen2, hcurveA, hcurveB, horder⟩

/-- Two transforms that name the same values leave the same record if and only if both are
    refused, or neither is and their groups read the same. -/
theorem t2isakmpsa_same_iff {t t' : Buf} (ht : Whole t) (ht' : Whole t') (hread : SaRead t) (hread' : SaRead t')
    (hsame : List.Forall₂ (SameValue copied) (attributes t) (attributes t')) :
    t2isakmpsa t = t2isakmpsa t' ↔ (SaRefused t ↔ SaRefused t') ∧ (¬ SaRefused t → SameGroup t t') := by
  have hplaces := places_forall₂ hsame none none
  obtain ⟨href, heq⟩ | ⟨href, r, hfold, heq⟩ := t2isakmpsa_cases ht hread
  · obtain ⟨href', heq'⟩ | ⟨href', r', hfold', heq'⟩ := t2isakmpsa_cases ht' hread'
    · simp [heq, heq', href, href']
    · simp [heq, heq', href, href']
  · obtain ⟨href', heq'⟩ | ⟨href', r', hfold', heq'⟩ := t2isakmpsa_cases ht' hread'
    · simp [heq, heq', href, href']
    · have hdecoding : r'.decoding = r.decoding := saFold_same hplaces rfl hfold hfold'
      rw [heq, heq', hdecoding, Outcome.through.injEq, Prod.mk.injEq, and_iff_right rfl,
        sameGroup_iff hplaces hfold hfold']
      simp [href, href']

end WanStack.Racoon.AttrWalk
