import WanStack.Racoon.InfoAuth
import WanStack.Racoon.Phase1

set_option autoImplicit false

/-!
# The walks over the attributes of a transform

`check_attr_isakmp`, `check_attr_ipsec`, `t2isakmpsa` and `ipsecdoi_t2satrns` on the
bytes of one transform, every read tried against its end. What a round does is taken
from the readers of a list of attributes; the walk itself is made here. The daemon is
built without security contexts and without GSSAPI, and memory suffices.
-/
namespace WanStack.Racoon.AttrWalk
open Aftr (Buf byteAt shortAt)
open Proposal (Attr IsakmpParse parseLoop memcpy memcpy_length longAt toInt isakmpParsewoh GEN_LEN PL_T_LEN DATA_LEN
  isakmpAttrOk ipsecAttrOk T2 t2satrnsStep tNo tId Saprop Saproto Satrns
  IPSECDOI_PROTO_IPSEC_AH IPSECDOI_PROTO_IPSEC_ESP IPSECDOI_ESP_NULL IPSECDOI_ATTR_AUTH
  IPSECDOI_ATTR_AUTH_NONE IPSECDOI_ATTR_SA_LD_TYPE IPSECDOI_ATTR_SA_LD_TYPE_DEFAULT
  IPSECDOI_ATTR_SA_LD IPSECDOI_ATTR_SA_LD_SEC_DEFAULT
  OAKLEY_ATTR_GRP_TYPE OAKLEY_ATTR_GRP_PI OAKLEY_ATTR_GRP_GEN_ONE OAKLEY_ATTR_GRP_ORDER OAKLEY_ATTR_SA_LD)
open Phase1 (Decoding Isakmpsa t2isakmpsaStep fixedKey OAKLEY_ATTR_GRP_GEN_TWO
  OAKLEY_ATTR_SA_LD_TYPE_DEFAULT OAKLEY_ATTR_SA_LD_SEC_DEFAULT)

def OAKLEY_ATTR_GRP_CURVE_A : ℕ := 9
def OAKLEY_ATTR_GRP_CURVE_B : ℕ := 10

/-- A walk over attributes: how much of what lies behind the header of one is read, and the
    round for it, which sees these bytes. -/
structure Walker (σ : Type) where
  reads : σ → Attr → ℕ
  round : σ → Attr → Buf → Option σ

/-- How a walk ends. -/
inductive Outcome (σ : Type) where
  | through (s : σ)
  | refused
  | outside
  | unfinished
deriving DecidableEq

/-- What comes behind a walk that goes through. -/
def Outcome.andThen {σ τ : Type} (o : Outcome σ) (onward : σ → Outcome τ) : Outcome τ :=
  match o with
  | .through s => onward s
  | .refused => .refused
  | .outside => .outside
  | .unfinished => .unfinished

/-- The attribute at a pointer. -/
def attrAt (d : Buf) : Attr :=
  { type := shortAt d 0 % 32768
    tv := 32768 ≤ shortAt d 0
    lorv := shortAt d 2
    value := if 32768 ≤ shortAt d 0 then [] else memcpy (d.drop DATA_LEN) (shortAt d 2) }

/-- How far the pointer is moved on. -/
def size (a : Attr) : ℕ := if a.tv then DATA_LEN else DATA_LEN + a.lorv

/-- A walk, with a bound on its rounds. -/
def walk {σ : Type} (w : Walker σ) : ℕ → σ → Buf → ℤ → Outcome σ
  | 0, _, _, _ => .unfinished
  | k + 1, s, d, tlen =>
    if ¬ 0 < tlen then .through s
    else if d.length < DATA_LEN + w.reads s (attrAt d) then .outside
    else
      match w.round s (attrAt d) (d.drop DATA_LEN) with
      | none => .refused
      | some s => walk w k s (d.drop (size (attrAt d))) (tlen - size (attrAt d))

/-- The walk over a transform. -/
def walkOf {σ : Type} (w : Walker σ) (s : σ) (trns : Buf) : Outcome σ :=
  walk w ((shortAt trns 2 : ℤ) - PL_T_LEN).toNat.succ s (trns.drop PL_T_LEN) ((shortAt trns 2 : ℤ) - PL_T_LEN)

/-! ### The four readers -/

def isakmpWalker : Walker Unit where
  reads _ _ := 0
  round _ a _ := if isakmpAttrOk a then some () else none

def checkAttrIsakmp (trns : Buf) : Outcome Unit := walkOf isakmpWalker () trns

/-- Of `attrseen` only the place of `AUTH` is looked at. -/
def ipsecWalker (protoId : ℤ) (tId : ℕ) : Walker Bool where
  reads _ _ := 0
  round authSeen a _ := if ipsecAttrOk protoId tId a then some (authSeen || a.type = IPSECDOI_ATTR_AUTH) else none

def checkAttrIpsec (protoId : ℤ) (trns : Buf) : Outcome Bool :=
  (walkOf (ipsecWalker protoId (tId trns)) false trns).andThen fun authSeen =>
    if protoId = IPSECDOI_PROTO_IPSEC_AH ∧ !authSeen then .refused
    else if protoId = IPSECDOI_PROTO_IPSEC_ESP then
      -- the transform id is asked for whatever the length is
      if trns.length < 6 then .outside
      else if tId trns = IPSECDOI_ESP_NULL ∧ !authSeen then .refused
      else .through authSeen
    else .through authSeen

/-- The group that a peer sends. -/
@[ext] structure Dhgroup where
  type : ℕ
  prime : Option Buf
  gen1 : ℤ
  gen2 : ℤ
  curveA : Option Buf
  curveB : Option Buf
  order : Option Buf
deriving DecidableEq

/-- The copy of a value: of a short one, its two bytes. -/
def val (a : Attr) : Buf := if a.tv then short a.lorv else a.value

def generator (type : ℕ) : Bool := type = OAKLEY_ATTR_GRP_GEN_ONE || type = OAKLEY_ATTR_GRP_GEN_TWO

/-- A generator. The flag is asked the wrong way round: of a long one the length is taken,
    of a short one as many bytes behind it as the value is large. -/
def gen (a : Attr) (behind : Buf) : ℤ := if a.tv then toInt (longAt (behind.take a.lorv) 0) else a.lorv

/-- Types whose value is copied. -/
def copied (type : ℕ) : Bool :=
  type ∈ [OAKLEY_ATTR_GRP_PI, OAKLEY_ATTR_GRP_GEN_ONE, OAKLEY_ATTR_GRP_GEN_TWO, OAKLEY_ATTR_GRP_CURVE_A,
    OAKLEY_ATTR_GRP_CURVE_B, OAKLEY_ATTR_SA_LD, OAKLEY_ATTR_GRP_ORDER]

def dhgrpStep (g : Dhgroup) (a : Attr) (behind : Buf) : Dhgroup :=
  if a.type = OAKLEY_ATTR_GRP_TYPE then { g with type := a.lorv }
  else if a.type = OAKLEY_ATTR_GRP_PI then { g with prime := some (val a) }
  else if a.type = OAKLEY_ATTR_GRP_GEN_ONE then { g with gen1 := gen a behind }
  else if a.type = OAKLEY_ATTR_GRP_GEN_TWO then { g with gen2 := gen a behind }
  else if a.type = OAKLEY_ATTR_GRP_CURVE_A then { g with curveA := some (val a) }
  else if a.type = OAKLEY_ATTR_GRP_CURVE_B then { g with curveB := some (val a) }
  else if a.type = OAKLEY_ATTR_GRP_ORDER then { g with order := some (val a) }
  else g

/-- What the loop of `t2isakmpsa` carries along, with the group. -/
structure Decoded where
  decoding : Decoding
  dhgrp : Dhgroup

def saWalker : Walker Decoded where
  reads _ a :=
    if a.tv then if generator a.type ∧ a.lorv ≤ 4 then a.lorv else 0
    else if copied a.type then a.lorv else 0
  round s a behind :=
    (t2isakmpsaStep s.decoding a).map fun decoding =>
      { decoding := decoding, dhgrp := dhgrpStep s.dhgrp a behind }

def saStart : Decoded where
  decoding :=
    { lifeT := OAKLEY_ATTR_SA_LD_TYPE_DEFAULT
      prev := none
      keylen := false
      sa :=
        { lifetime := OAKLEY_ATTR_SA_LD_SEC_DEFAULT
          lifebyte := 0
          enctype := 0
          encklen := 0
          authmethod := 0
          hashtype := 0
          dhGroup := 0
          dhgrp := none } }
  dhgrp :=
    { type := 0
      prime := none
      gen1 := 0
      gen2 := 0
      curveA := none
      curveB := none
      order := none }

/-- The record, and the group of its own. -/
def t2isakmpsa (trns : Buf) : Outcome (Isakmpsa × Dhgroup) :=
  (walkOf saWalker saStart trns).andThen fun s =>
    if s.decoding.keylen ∧ fixedKey s.decoding.sa.enctype then .refused
    else .through (s.decoding.sa, s.dhgrp)

/-- A life duration is heeded behind a life type only. -/
def trnsWalker : Walker T2 where
  reads s a :=
    if a.type = IPSECDOI_ATTR_SA_LD ∧ s.prev = some IPSECDOI_ATTR_SA_LD_TYPE ∧ !a.tv then a.lorv else 0
  round s a _ := t2satrnsStep s a

def trnsStart (t : Buf) (pp : Saprop) (pr : Saproto) : T2 where
  lifeT := IPSECDOI_ATTR_SA_LD_TYPE_DEFAULT
  prev := none
  pp := { pp with lifetime := IPSECDOI_ATTR_SA_LD_SEC_DEFAULT, lifebyte := 0 }
  pr := pr
  tr :=
    { trnsNo := tNo t
      trnsId := tId t
      encklen := 0
      authtype := IPSECDOI_ATTR_AUTH_NONE }

def ipsecdoiT2satrns (t : Buf) (pp : Saprop) (pr : Saproto) : Outcome (Saprop × Saproto × Satrns) :=
  if t.length < 6 then .outside
  else (walkOf trnsWalker (trnsStart t pp pr) t).andThen fun s => .through (s.pp, s.pr, s.tr)

/-! ### What is read -/

/-- A transform that the payload walker lets through. -/
def Admitted (t : Buf) : Prop :=
  ∃ np gen pbuf, isakmpParsewoh np gen gen.length = some pbuf ∧ ∃ pa ∈ pbuf, t = memcpy pa.ptr pa.len

theorem found_len {k np : ℕ} {gen : Buf} {tlen : ℤ} {pbuf : List IsakmpParse}
    (h : parseLoop k np gen tlen = some pbuf) : ∀ pa ∈ pbuf, pa.len = shortAt pa.ptr 2 ∧ GEN_LEN ≤ pa.len := by
  induction pbuf generalizing k np gen tlen with
  | nil => exact fun pa hpa => absurd hpa List.not_mem_nil
  | cons pa pbuf ih =>
    obtain ⟨-, hptr, hlen, hgen, -, k', hrest⟩ := Handles.parseLoop_cons h
    rw [List.forall_mem_cons, hptr]
    exact ⟨⟨hlen, hgen⟩, ih hrest⟩

theorem memcpy_byteAt (b : Buf) {i n : ℕ} (h : i < n) : byteAt (memcpy b n) i = byteAt b i := by
  unfold memcpy
  rw [byteAt, List.getD_eq_getElem?_getD, List.getElem?_map, List.getElem?_range h]
  rfl

theorem Admitted.length {t : Buf} (h : Admitted t) : t.length = shortAt t 2 ∧ GEN_LEN ≤ t.length := by
  obtain ⟨np, gen, pbuf, hparse, pa, hpa, rfl⟩ := h
  obtain ⟨hlen, hgen⟩ := found_len hparse pa hpa
  have hfour : GEN_LEN = 4 := rfl
  have hread : shortAt (memcpy pa.ptr pa.len) 2 = shortAt pa.ptr 2 := by
    rw [shortAt, memcpy_byteAt _ (by omega), memcpy_byteAt _ (by omega)]
    rfl
  rw [memcpy_length, hread]
  exact ⟨hlen, hgen⟩

section
variable {σ : Type} (w : Walker σ)

/-- The attributes that a walk comes to, each with what is carried along and the pointer. -/
def reached : ℕ → σ → Buf → ℤ → List (σ × Buf)
  | 0, _, _, _ => []
  | k + 1, s, d, tlen =>
    if ¬ 0 < tlen then []
    else
      (s, d) ::
        match w.round s (attrAt d) (d.drop DATA_LEN) with
        | none => []
        | some s => reached k s (d.drop (size (attrAt d))) (tlen - size (attrAt d))

def reachedOf (s : σ) (trns : Buf) : List (σ × Buf) :=
  reached w ((shortAt trns 2 : ℤ) - PL_T_LEN).toNat.succ s (trns.drop PL_T_LEN) ((shortAt trns 2 : ℤ) - PL_T_LEN)

/-- Header, and what is read behind it, end inside. -/
def Inside (x : σ × Buf) : Prop := DATA_LEN + w.reads x.1 (attrAt x.2) ≤ x.2.length

theorem four_le_size (a : Attr) : 4 ≤ size a := by
  unfold size
  split_ifs
  · exact Nat.le_refl 4
  · exact Nat.le_add_right 4 _

/-- Every round takes four bytes at least. -/
theorem walk_ends (k : ℕ) (s : σ) (d : Buf) (tlen : ℤ) (hk : tlen < k) (hpos : 0 < k) :
    walk w k s d tlen ≠ .unfinished := by
  induction k generalizing s d tlen with
  | zero => exact absurd hpos (Nat.lt_irrefl 0)
  | succ k ih =>
    have hsize := four_le_size (attrAt d)
    rw [walk]
    by_cases hend : ¬ 0 < tlen
    · rw [if_pos hend]
      simp
    rw [if_neg hend]
    by_cases hread : d.length < DATA_LEN + w.reads s (attrAt d)
    · rw [if_pos hread]
      simp
    rw [if_neg hread]
    cases w.round s (attrAt d) (d.drop DATA_LEN) with
    | none => simp
    | some s => exact ih s _ _ (by omega) (by omega)

theorem walk_inside_iff (k : ℕ) (s : σ) (d : Buf) (tlen : ℤ) :
    walk w k s d tlen ≠ .outside ↔ ∀ x ∈ reached w k s d tlen, Inside w x := by
  induction k generalizing s d tlen with
  | zero => simp [walk, reached]
  | succ k ih =>
    rw [walk, reached]
    by_cases hend : ¬ 0 < tlen
    · rw [if_pos hend, if_pos hend]
      simp
    rw [if_neg hend, if_neg hend, List.forall_mem_cons]
    by_cases hread : d.length < DATA_LEN + w.reads s (attrAt d)
    · rw [if_pos hread]
      constructor
      · exact fun h => absurd rfl h
      · exact fun h => absurd h.1 (Nat.not_le_of_lt hread)
    have hinside : Inside w (s, d) := Nat.le_of_not_lt hread
    rw [if_neg hread, and_iff_right hinside]
    cases w.round s (attrAt d) (d.drop DATA_LEN) with
    | none => simp
    | some s => exact ih s _ _

theorem walkOf_ends (s : σ) (t : Buf) : walkOf w s t ≠ .unfinished :=
  walk_ends w _ s _ _ (by omega) (Nat.succ_pos _)

theorem walkOf_inside_iff (s : σ) (t : Buf) : walkOf w s t ≠ .outside ↔ ∀ x ∈ reachedOf w s t, Inside w x :=
  walk_inside_iff w _ s _ _

end

theorem andThen_ends {σ τ : Type} {o : Outcome σ} {onward : σ → Outcome τ} (ho : o ≠ .unfinished)
    (honward : ∀ s, onward s ≠ .unfinished) : o.andThen onward ≠ .unfinished := by
  cases o with
  | through s => exact honward s
  | refused => simp [Outcome.andThen]
  | outside => simp [Outcome.andThen]
  | unfinished => exact absurd rfl ho

theorem andThen_inside_iff {σ τ : Type} {o : Outcome σ} {onward : σ → Outcome τ} :
    o.andThen onward ≠ .outside ↔ o ≠ .outside ∧ ∀ s, o = .through s → onward s ≠ .outside := by
  cases o <;> simp [Outcome.andThen]

/-! ### Reads of the four -/

/-- The attributes that `check_attr_isakmp` comes to have their headers inside. -/
def IsakmpChecked (t : Buf) : Prop := ∀ x ∈ reachedOf isakmpWalker () t, Inside isakmpWalker x

/-- Those of `check_attr_ipsec` have, and so has the transform id that ESP asks for. -/
def IpsecChecked (protoId : ℤ) (t : Buf) : Prop :=
  (∀ x ∈ reachedOf (ipsecWalker protoId (tId t)) false t, Inside (ipsecWalker protoId (tId t)) x) ∧
    (protoId = IPSECDOI_PROTO_IPSEC_ESP → 6 ≤ t.length)

/-- The attributes that `t2isakmpsa` comes to have the values that it copies inside as well. -/
def SaRead (t : Buf) : Prop := ∀ x ∈ reachedOf saWalker saStart t, Inside saWalker x

/-- So have those of `ipsecdoi_t2satrns`, and the fields of the transform. -/
def TrnsRead (t : Buf) (pp : Saprop) (pr : Saproto) : Prop :=
  6 ≤ t.length ∧ ∀ x ∈ reachedOf trnsWalker (trnsStart t pp pr) t, Inside trnsWalker x

theorem checkAttrIsakmp_inside_iff (t : Buf) : checkAttrIsakmp t ≠ .outside ↔ IsakmpChecked t :=
  walkOf_inside_iff isakmpWalker () t

/-- Without room for an attribute the walk goes through. -/
theorem walkOf_short {σ : Type} (w : Walker σ) (s : σ) {t : Buf} (h : shortAt t 2 ≤ PL_T_LEN) :
    walkOf w s t = .through s := by
  rw [walkOf, walk, if_pos (by omega)]

theorem checkAttrIpsec_ends (protoId : ℤ) (t : Buf) : checkAttrIpsec protoId t ≠ .unfinished := by
  apply andThen_ends (walkOf_ends _ _ _)
  intro authSeen
  split_ifs <;> simp

theorem checkAttrIpsec_inside_iff (protoId : ℤ) {t : Buf} (hlen : t.length = shortAt t 2) :
    checkAttrIpsec protoId t ≠ .outside ↔ IpsecChecked protoId t := by
  unfold checkAttrIpsec IpsecChecked
  rw [andThen_inside_iff, walkOf_inside_iff]
  apply and_congr_right
  intro _
  constructor
  · intro h hesp
    by_contra hshort
    have hthrough : walkOf (ipsecWalker protoId (tId t)) false t = .through false := by
      apply walkOf_short
      have height : PL_T_LEN = 8 := rfl
      omega
    apply h false hthrough
    rw [hesp, if_neg (fun h => absurd h.1 (by decide)), if_pos rfl, if_pos (Nat.lt_of_not_le hshort)]
  · intro h authSeen _
    split_ifs with _ hesp hshort
    · simp
    · exact absurd (h hesp) (Nat.not_le_of_lt hshort)
    · simp
    · simp
    · simp

theorem t2isakmpsa_ends (t : Buf) : t2isakmpsa t ≠ .unfinished := by
  apply andThen_ends (walkOf_ends _ _ _)
  intro s
  split_ifs <;> simp

theorem t2isakmpsa_inside_iff (t : Buf) : t2isakmpsa t ≠ .outside ↔ SaRead t := by
  unfold t2isakmpsa SaRead
  rw [andThen_inside_iff, walkOf_inside_iff]
  apply and_iff_left
  intro s _
  split_ifs <;> simp

theorem ipsecdoiT2satrns_ends (t : Buf) (pp : Saprop) (pr : Saproto) :
    ipsecdoiT2satrns t pp pr ≠ .unfinished := by
  unfold ipsecdoiT2satrns
  split_ifs
  · simp
  · exact andThen_ends (walkOf_ends _ _ _) (by simp)

theorem ipsecdoiT2satrns_inside_iff (t : Buf) (pp : Saprop) (pr : Saproto) :
    ipsecdoiT2satrns t pp pr ≠ .outside ↔ TrnsRead t pp pr := by
  unfold ipsecdoiT2satrns TrnsRead
  by_cases hshort : t.length < 6
  · rw [if_pos hshort]
    exact ⟨fun h => absurd rfl h, fun h => absurd h.1 (Nat.not_le_of_lt hshort)⟩
  rw [if_neg hshort, and_iff_right (Nat.le_of_not_lt hshort), andThen_inside_iff, walkOf_inside_iff]
  simp

end WanStack.Racoon.AttrWalk
