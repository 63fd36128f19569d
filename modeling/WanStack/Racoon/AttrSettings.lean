import WanStack.Racoon.AttrForms

set_option autoImplicit false

/-!
# What the attributes of a transform settle

`ipsecdoi_t2satrns` fills a proposal: a duration, a group, a mode that are settled have
to come again as they are, and authentication must not. With the reader of phase 1 this
says what is read of a transform, and when two that name the same values are decoded
alike.
-/
namespace WanStack.Racoon.AttrWalk
open Aftr (Buf byteAt shortAt)
open Proposal (Attr isakmpParsewoh attributes encAttrs toInt ipsecdoiSetLd
  T2 t2satrnsStep tNo tId Saprop Saproto Satrns IPSECDOI_PROTO_IPSEC_ESP
  IPSECDOI_ATTR_SA_LD IPSECDOI_ATTR_SA_LD_TYPE IPSECDOI_ATTR_SA_LD_TYPE_DEFAULT IPSECDOI_ATTR_SA_LD_TYPE_SEC
  IPSECDOI_ATTR_SA_LD_TYPE_KB IPSECDOI_ATTR_SA_LD_SEC_DEFAULT IPSECDOI_ATTR_GRP_DESC IPSECDOI_ATTR_ENC_MODE
  IPSECDOI_ATTR_AUTH IPSECDOI_ATTR_AUTH_NONE IPSECDOI_ATTR_KEY_LENGTH)

/-! ### Settings -/

/-- What an attribute of `ipsecdoi_t2satrns` settles for the proposal. -/
inductive Setting where
  | seconds
  | bytes
  | group
  | mode
  | auth
deriving DecidableEq

/-- The value that counts as not settled yet. -/
def unset : Setting → ℤ
  | .seconds => IPSECDOI_ATTR_SA_LD_SEC_DEFAULT
  | .bytes => 0
  | .group => 0
  | .mode => 0
  | .auth => IPSECDOI_ATTR_AUTH_NONE

def lifeType (lorv : ℕ) : ℕ :=
  if lorv = IPSECDOI_ATTR_SA_LD_TYPE_SEC ∨ lorv = IPSECDOI_ATTR_SA_LD_TYPE_KB then lorv
  else IPSECDOI_ATTR_SA_LD_TYPE_DEFAULT

def setting (before : Option Attr) (a : Attr) : Option (Setting × ℤ) :=
  if a.type = IPSECDOI_ATTR_SA_LD then
    before.bind fun b =>
      if b.type ≠ IPSECDOI_ATTR_SA_LD_TYPE then none
      else if lifeType b.lorv = IPSECDOI_ATTR_SA_LD_TYPE_SEC then some (.seconds, ipsecdoiSetLd a)
      else some (.bytes, toInt (ipsecdoiSetLd a))
  else if a.type = IPSECDOI_ATTR_GRP_DESC then some (.group, a.lorv)
  else if a.type = IPSECDOI_ATTR_ENC_MODE then some (.mode, a.lorv)
  else if a.type = IPSECDOI_ATTR_AUTH then some (.auth, a.lorv)
  else none

/-- The settings of a list. -/
def settings (ps : List Place) : List (Setting × ℤ) := ps.filterMap fun p => setting p.before p.attr

/-- The second of two settings is refused for the first; authentication is settled once. -/
def Clash (x y : Setting × ℤ) : Prop := y.1 = x.1 ∧ x.2 ≠ unset x.1 ∧ (x.1 = .auth ∨ y.2 ≠ x.2)

/-- The attribute makes `ipsecdoi_t2satrns` fail by itself: a heeded life duration that is 0 or
    of neither two nor four bytes, a key length without ESP. -/
def TrnsRefuses (protoId : ℤ) (prev : Option ℕ) (a : Attr) : Prop :=
  (a.type = IPSECDOI_ATTR_SA_LD ∧ prev = some IPSECDOI_ATTR_SA_LD_TYPE ∧ ipsecdoiSetLd a = 0) ∨
  (a.type = IPSECDOI_ATTR_KEY_LENGTH ∧ protoId ≠ IPSECDOI_PROTO_IPSEC_ESP)

/-- Or an attribute clashes with an earlier one, or with what the proposal had. -/
def TrnsRefused (pp : Saprop) (pr : Saproto) (t : Buf) : Prop :=
  (∃ p ∈ placesOf t, TrnsRefuses pr.protoId p.prev p.attr) ∨
    ¬ ((.group, pp.pfsGroup) :: (.mode, pr.encmode) :: settings (placesOf t)).Pairwise fun x y => ¬ Clash x y

/-- What is settled so far. -/
def cur (s : T2) : Setting → ℤ
  | .seconds => s.pp.lifetime
  | .bytes => s.pp.lifebyte
  | .group => s.pp.pfsGroup
  | .mode => s.pr.encmode
  | .auth => s.tr.authtype

/-- What is carried along is that of the attribute before. -/
structure Carried (s : T2) (before : Option Attr) : Prop where
  prev : s.prev = before.map Attr.type
  lifeT : ∀ b, before = some b → b.type = IPSECDOI_ATTR_SA_LD_TYPE → s.lifeT = lifeType b.lorv

def Blocked (s : T2) (before : Option Attr) (a : Attr) : Prop :=
  TrnsRefuses s.pr.protoId (before.map Attr.type) a ∨
    ∃ x, setting before a = some x ∧ Clash (x.1, cur s x.1) x

structure Follows (s : T2) (before : Option Attr) (a : Attr) (s1 : T2) : Prop where
  carried : Carried s1 (some a)
  protoId : s1.pr.protoId = s.pr.protoId
  cur : cur s1 = (setting before a).elim (cur s) fun x => Function.update (cur s) x.1 x.2

theorem blocked_iff {s : T2} {before : Option Attr} {a : Attr} {x : Setting × ℤ} (hset : setting before a = some x)
    (hfree : ¬ TrnsRefuses s.pr.protoId (before.map Attr.type) a) :
    Blocked s before a ↔ Clash (x.1, cur s x.1) x := by
  rw [Blocked, or_iff_right hfree, hset]
  simp

theorem clash_iff {f : Setting} (hf : f ≠ .auth) (c v : ℤ) : Clash (f, c) (f, v) ↔ c ≠ unset f ∧ v ≠ c := by
  simp [Clash, hf]

/-- Nothing is settled. -/
theorem follows_none {s s1 : T2} {before : Option Attr} {a : Attr} (hset : setting before a = none)
    (hfree : ¬ TrnsRefuses s.pr.protoId (before.map Attr.type) a) (hcarried : Carried s1 (some a))
    (hprotoId : s1.pr.protoId = s.pr.protoId) (hcur : cur s1 = cur s) :
    ¬ Blocked s before a ∧ ∃ s2, some s1 = some s2 ∧ Follows s before a s2 := by
  constructor
  · rw [Blocked, or_iff_right hfree, hset]
    simp
  · refine ⟨s1, rfl, hcarried, hprotoId, ?_⟩
    rw [hset, hcur]
    rfl

/-- Something is settled, for the first time or as before. -/
theorem follows_some {s s1 : T2} {before : Option Attr} {a : Attr} {x : Setting × ℤ}
    (hset : setting before a = some x) (hfree : ¬ TrnsRefuses s.pr.protoId (before.map Attr.type) a)
    (hclash : ¬ Clash (x.1, cur s x.1) x)
    (hcarried : Carried s1 (some a)) (hprotoId : s1.pr.protoId = s.pr.protoId)
    (hcur : cur s1 = Function.update (cur s) x.1 x.2) :
    ¬ Blocked s before a ∧ ∃ s2, some s1 = some s2 ∧ Follows s before a s2 := by
  constructor
  · rwa [blocked_iff hset hfree]
  · refine ⟨s1, rfl, hcarried, hprotoId, ?_⟩
    rw [hset, hcur]
    rfl

theorem carried_next {s1 : T2} {a : Attr} (hprev : s1.prev = some a.type) (h : a.type ≠ IPSECDOI_ATTR_SA_LD_TYPE) :
    Carried s1 (some a) := by
  refine ⟨hprev, ?_⟩
  intro b hb htype
  rw [← Option.some.inj hb] at htype
  exact absurd htype h

theorem not_refuses {protoId : ℤ} {prev : Option ℕ} {a : Attr} {type : ℕ} (h : a.type = type)
    (hld : type ≠ IPSECDOI_ATTR_SA_LD) (hkey : type ≠ IPSECDOI_ATTR_KEY_LENGTH) :
    ¬ TrnsRefuses protoId prev a := by
  rintro (⟨htype, -⟩ | ⟨htype, -⟩)
  · exact hld (h.symm.trans htype)
  · exact hkey (h.symm.trans htype)

/-- The first value of a field is taken, and a later one has to be the same. -/
theorem settle_cases {s s1 s2 : T2} {before : Option Attr} {a : Attr} {f : Setting} {v : ℤ}
    (hset : setting before a = some (f, v)) (hfree : ¬ TrnsRefuses s.pr.protoId (before.map Attr.type) a)
    (hf : f ≠ .auth) (hcarried1 : Carried s1 (some a)) (hprotoId1 : s1.pr.protoId = s.pr.protoId)
    (hcur1 : cur s1 = Function.update (cur s) f v) (hcarried2 : Carried s2 (some a))
    (hprotoId2 : s2.pr.protoId = s.pr.protoId) (hcur2 : cur s2 = cur s) :
    (Blocked s before a ∧ (if cur s f = unset f then some s1 else if cur s f ≠ v then none else some s2) = none) ∨
      (¬ Blocked s before a ∧
        ∃ s3, (if cur s f = unset f then some s1 else if cur s f ≠ v then none else some s2) = some s3 ∧
          Follows s before a s3) := by
  by_cases hunset : cur s f = unset f
  · rw [if_pos hunset]
    exact Or.inr (follows_some hset hfree (fun h => h.2.1 hunset) hcarried1 hprotoId1 hcur1)
  rw [if_neg hunset]
  by_cases hother : cur s f ≠ v
  · rw [if_pos hother]
    exact Or.inl ⟨(blocked_iff hset hfree).mpr ((clash_iff hf _ _).mpr ⟨hunset, hother.symm⟩), rfl⟩
  rw [if_neg hother]
  have hsame : cur s f = v := not_not.mp hother
  right
  apply follows_some hset hfree
  · exact fun h => ((clash_iff hf _ _).mp h).2 hsame.symm
  · exact hcarried2
  · exact hprotoId2
  · rw [hcur2, ← hsame, Function.update_eq_self]

/-- `v` is kept apart from the number that it is in the code, which is not to be computed here. -/
theorem heeded_bytes {s : T2} {b a : Attr} {v : ℤ} (hset : setting (some b) a = some (.bytes, v))
    (hfree : ¬ TrnsRefuses s.pr.protoId ((some b).map Attr.type) a) (hldtype : a.type ≠ IPSECDOI_ATTR_SA_LD_TYPE) :
    (Blocked s (some b) a ∧
      (if s.pp.lifebyte = 0 then some { s with prev := some a.type, pp := { s.pp with lifebyte := v } }
        else if s.pp.lifebyte ≠ v then none else some { s with prev := some a.type }) = none) ∨
    (¬ Blocked s (some b) a ∧ ∃ s1,
      (if s.pp.lifebyte = 0 then some { s with prev := some a.type, pp := { s.pp with lifebyte := v } }
        else if s.pp.lifebyte ≠ v then none else some { s with prev := some a.type }) = some s1 ∧
        Follows s (some b) a s1) := by
  apply settle_cases hset hfree (by decide)
  · exact carried_next rfl hldtype
  · rfl
  · funext f
    cases f <;> rfl
  · exact carried_next rfl hldtype
  · rfl
  · rfl

theorem t2satrnsStep_cases {s : T2} {before : Option Attr} (hs : Carried s before) (a : Attr) :
    (Blocked s before a ∧ t2satrnsStep s a = none) ∨
      (¬ Blocked s before a ∧ ∃ s1, t2satrnsStep s a = some s1 ∧ Follows s before a s1) := by
  unfold t2satrnsStep
  dsimp only
  by_cases hldtype : a.type = IPSECDOI_ATTR_SA_LD_TYPE
  · rw [if_pos hldtype]
    right
    apply follows_none
    · rw [setting, hldtype]
      rfl
    · exact not_refuses hldtype (by decide) (by decide)
    · refine ⟨rfl, ?_⟩
      intro b hb _
      rw [← Option.some.inj hb]
      rfl
    · rfl
    · rfl
  rw [if_neg hldtype]
  by_cases hld : a.type = IPSECDOI_ATTR_SA_LD
  · have hnokey : a.type ≠ IPSECDOI_ATTR_KEY_LENGTH := by
      rw [hld]
      decide
    rw [if_pos hld]
    by_cases hprev : s.prev ≠ some IPSECDOI_ATTR_SA_LD_TYPE
    · have hbefore : before.map Attr.type ≠ some IPSECDOI_ATTR_SA_LD_TYPE := hs.prev ▸ hprev
      rw [if_pos hprev]
      right
      apply follows_none
      · rw [setting, if_pos hld]
        cases before with
        | none => rfl
        | some b => exact if_pos fun h => hbefore (congrArg some h)
      · simp [TrnsRefuses, hnokey, hbefore]
      · exact carried_next rfl hldtype
      · rfl
      · rfl
    have hheeded : s.prev = some IPSECDOI_ATTR_SA_LD_TYPE := not_not.mp hprev
    rw [if_neg hprev]
    by_cases hzero : ipsecdoiSetLd a = 0
    · rw [if_pos hzero]
      exact Or.inl ⟨Or.inl (Or.inl ⟨hld, hs.prev ▸ hheeded, hzero⟩), rfl⟩
    have hfree : ¬ TrnsRefuses s.pr.protoId (before.map Attr.type) a := by
      simp [TrnsRefuses, hzero, hnokey]
    rw [if_neg hzero]
    obtain ⟨b, rfl, hb⟩ := Option.map_eq_some_iff.mp (hs.prev.symm.trans hheeded)
    have hlife : s.lifeT = lifeType b.lorv := hs.lifeT b rfl hb
    by_cases hsec : s.lifeT = IPSECDOI_ATTR_SA_LD_TYPE_SEC
    · have hset : setting (some b) a = some (Setting.seconds, (ipsecdoiSetLd a : ℤ)) := by
        rw [setting, if_pos hld, Option.bind_some, if_neg (not_not.mpr hb), if_pos (hlife.symm.trans hsec)]
      rw [if_pos hsec]
      apply settle_cases hset hfree (by decide)
      · exact carried_next rfl hldtype
      · rfl
      · funext f
        cases f <;> rfl
      · exact carried_next rfl hldtype
      · rfl
      · rfl
    · have hset : setting (some b) a = some (Setting.bytes, toInt (ipsecdoiSetLd a)) := by
        rw [setting, if_pos hld, Option.bind_some, if_neg (not_not.mpr hb), if_neg fun h => hsec (hlife.trans h)]
      rw [if_neg hsec]
      exact heeded_bytes hset hfree hldtype
  rw [if_neg hld]
  by_cases hgroup : a.type = IPSECDOI_ATTR_GRP_DESC
  · have hset : setting before a = some (Setting.group, (a.lorv : ℤ)) := by
      rw [setting, if_neg hld, if_pos hgroup]
    rw [if_pos hgroup]
    apply settle_cases hset (not_refuses hgroup (by decide) (by decide)) (by decide)
    · exact carried_next rfl hldtype
    · rfl
    · funext f
      cases f <;> rfl
    · exact carried_next rfl hldtype
    · rfl
    · rfl
  rw [if_neg hgroup]
  by_cases hmode : a.type = IPSECDOI_ATTR_ENC_MODE
  · have hset : setting before a = some (Setting.mode, (a.lorv : ℤ)) := by
      rw [setting, if_neg hld, if_neg hgroup, if_pos hmode]
    have hfree : ¬ TrnsRefuses s.pr.protoId (before.map Attr.type) a := not_refuses hmode (by decide) (by decide)
    have hclash : Clash (Setting.mode, s.pr.encmode) (Setting.mode, (a.lorv : ℤ)) ↔ _ := clash_iff (by decide) _ _
    rw [if_pos hmode]
    by_cases hother : s.pr.encmode ≠ 0 ∧ s.pr.encmode ≠ a.lorv
    · rw [if_pos hother]
      exact Or.inl ⟨(blocked_iff hset hfree).mpr (hclash.mpr ⟨hother.1, hother.2.symm⟩), rfl⟩
    rw [if_neg hother]
    right
    apply follows_some hset hfree
    · exact fun h => hother ⟨(hclash.mp h).1, (hclash.mp h).2.symm⟩
    · exact carried_next rfl hldtype
    · rfl
    · funext f
      cases f <;> rfl
  rw [if_neg hmode]
  by_cases hauth : a.type = IPSECDOI_ATTR_AUTH
  · have hset : setting before a = some (Setting.auth, (a.lorv : ℤ)) := by
      rw [setting, if_neg hld, if_neg hgroup, if_neg hmode, if_pos hauth]
    have hfree : ¬ TrnsRefuses s.pr.protoId (before.map Attr.type) a := not_refuses hauth (by decide) (by decide)
    rw [if_pos hauth]
    by_cases hseen : s.tr.authtype ≠ IPSECDOI_ATTR_AUTH_NONE
    · rw [if_pos hseen]
      exact Or.inl ⟨(blocked_iff hset hfree).mpr ⟨rfl, hseen, Or.inl rfl⟩, rfl⟩
    rw [if_neg hseen]
    right
    apply follows_some hset hfree
    · exact fun h => hseen h.2.1
    · exact carried_next rfl hldtype
    · rfl
    · funext f
      cases f <;> rfl
  rw [if_neg hauth]
  have hset : setting before a = none := by
    rw [setting, if_neg hld, if_neg hgroup, if_neg hmode, if_neg hauth]
  by_cases hkey : a.type = IPSECDOI_ATTR_KEY_LENGTH
  · rw [if_pos hkey]
    by_cases hesp : s.pr.protoId ≠ IPSECDOI_PROTO_IPSEC_ESP
    · rw [if_pos hesp]
      exact Or.inl ⟨Or.inl (Or.inr ⟨hkey, hesp⟩), rfl⟩
    rw [if_neg hesp]
    right
    apply follows_none hset
    · exact fun h => h.elim (fun h => hld h.1) fun h => hesp h.2
    · exact carried_next rfl hldtype
    · rfl
    · rfl
  rw [if_neg hkey]
  right
  apply follows_none hset
  · exact fun h => h.elim (fun h => hld h.1) fun h => hkey h.1
  · exact carried_next rfl hldtype
  · rfl
  · rfl

/-- The round of `ipsecdoi_t2satrns` for an attribute in its place. -/
def trnsRound (s : T2) (p : Place) : Option T2 := trnsWalker.round s p.attr p.behind

theorem settings_none {before : Option Attr} {a : Attr} (h : setting before a = none) (behind : Buf) (ps : List Place) :
    settings ({ before := before, attr := a, behind := behind } :: ps) = settings ps :=
  List.filterMap_cons_none h

theorem settings_some {before : Option Attr} {a : Attr} {x : Setting × ℤ} (h : setting before a = some x)
    (behind : Buf) (ps : List Place) :
    settings ({ before := before, attr := a, behind := behind } :: ps) = x :: settings ps :=
  List.filterMap_cons_some h

/-- An attribute settles what it settles against those behind it. -/
theorem settled_iff {c : Setting → ℤ} {x : Setting × ℤ} (hx : ¬ Clash (x.1, c x.1) x)
    (ys : List (Setting × ℤ)) :
    (∀ y ∈ ys, ¬ Clash (y.1, Function.update c x.1 x.2 y.1) y) ↔
      (∀ y ∈ ys, ¬ Clash (y.1, c y.1) y) ∧ ∀ y ∈ ys, ¬ Clash x y := by
  rw [← forall₂_and]
  apply forall₂_congr
  intro y _
  by_cases hfield : y.1 = x.1
  · rw [hfield, Function.update_self]
    constructor
    · intro h
      refine ⟨?_, h⟩
      rintro ⟨_, hset, hother⟩
      by_cases hsame : x.2 = c x.1
      · apply h
        refine ⟨hfield, ?_, ?_⟩
        · rwa [hsame]
        · rwa [hsame]
      · exact hx ⟨rfl, hset, Or.inr hsame⟩
    · exact fun h => h.2
  · rw [Function.update_of_ne hfield]
    exact (and_iff_left fun h => hfield h.1).symm

theorem trnsFold_none_iff (as : List Attr) (before : Option Attr) (s : T2) (hs : Carried s before) :
    (places before as).foldlM trnsRound s = none ↔
      (∃ p ∈ places before as, TrnsRefuses s.pr.protoId p.prev p.attr) ∨
        ¬ ((∀ y ∈ settings (places before as), ¬ Clash (y.1, cur s y.1) y) ∧
          (settings (places before as)).Pairwise fun x y => ¬ Clash x y) := by
  induction as generalizing before s with
  | nil => simp [places, settings]
  | cons a as ih =>
    rw [places, List.foldlM_cons, List.exists_mem_cons_iff]
    change Option.bind (t2satrnsStep s a) _ = none ↔ (TrnsRefuses s.pr.protoId (before.map Attr.type) a ∨ _) ∨ _
    cases t2satrnsStep_cases hs a with
    | inl h =>
      obtain ⟨hblocked, hnone⟩ := h
      rw [hnone]
      apply iff_of_true rfl
      cases hblocked with
      | inl hrefuses => exact Or.inl (Or.inl hrefuses)
      | inr hclash =>
        obtain ⟨x, hset, hclash⟩ := hclash
        right
        intro h
        apply h.1 x _ hclash
        rw [settings_some hset]
        exact List.mem_cons_self
    | inr h =>
      obtain ⟨hblocked, s1, hsome, hfollows⟩ := h
      obtain ⟨hrefuses, hclash⟩ := not_or.mp hblocked
      have hrest := ih (some a) s1 hfollows.carried
      rw [hsome, or_iff_right hrefuses]
      rw [hfollows.protoId, hfollows.cur] at hrest
      refine hrest.trans ?_
      apply or_congr_right
      apply not_congr
      cases hset : setting before a with
      | none =>
        rw [settings_none hset]
        rfl
      | some x =>
        have hx : ¬ Clash (x.1, cur s x.1) x := fun h => hclash ⟨x, hset, h⟩
        rw [settings_some hset, List.forall_mem_cons, List.pairwise_cons, Option.elim_some, settled_iff hx,
          and_iff_right hx, and_assoc]

/-- What the proposal had counts as settled before. -/
theorem trnsRefused_iff (pp : Saprop) (pr : Saproto) (t : Buf) :
    (placesOf t).foldlM trnsRound (trnsStart t pp pr) = none ↔ TrnsRefused pp pr t := by
  have hstart : Carried (trnsStart t pp pr) none := ⟨rfl, fun b hb _ => by cases hb⟩
  have hcur : ∀ y : Setting × ℤ, ¬ Clash (y.1, cur (trnsStart t pp pr) y.1) y ↔
      ¬ Clash (.group, pp.pfsGroup) y ∧ ¬ Clash (.mode, pr.encmode) y := by
    intro y
    obtain ⟨f, v⟩ := y
    cases f <;> simp [Clash, cur, trnsStart, unset]
  have hfirst : ¬ Clash (.group, pp.pfsGroup) (.mode, pr.encmode) := fun h => by cases h.1
  rw [placesOf, trnsFold_none_iff _ none _ hstart, TrnsRefused]
  apply or_congr_right
  apply not_congr
  rw [List.pairwise_cons, List.pairwise_cons, List.forall_mem_cons, and_iff_right hfirst, ← and_assoc]
  apply and_congr_left
  intro _
  rw [← forall₂_and]
  exact forall₂_congr fun y _ => hcur y

theorem t2satrnsStep_same {s : T2} {a b : Attr} (hab : SameValue (· = IPSECDOI_ATTR_SA_LD) a b) {s1 s2 : T2}
    (h1 : t2satrnsStep s a = some s1) (h2 : t2satrnsStep s b = some s2) : s2 = s1 := by
  by_cases hld : a.type = IPSECDOI_ATTR_SA_LD
  · have hldb : b.type = IPSECDOI_ATTR_SA_LD := hab.type.trans hld
    have hnottype : IPSECDOI_ATTR_SA_LD ≠ IPSECDOI_ATTR_SA_LD_TYPE := by decide
    unfold t2satrnsStep at h1 h2
    dsimp only at h1 h2
    rw [hld, if_neg hnottype, if_pos rfl] at h1
    rw [hldb, if_neg hnottype, if_pos rfl] at h2
    by_cases hprev : s.prev ≠ some IPSECDOI_ATTR_SA_LD_TYPE
    · rw [if_pos hprev] at h1 h2
      exact Option.some.inj (h2.symm.trans h1)
    rw [if_neg hprev] at h1 h2
    by_cases hzero : ipsecdoiSetLd a = 0
    · rw [if_pos hzero] at h1
      cases h1
    by_cases hzerob : ipsecdoiSetLd b = 0
    · rw [if_pos hzerob] at h2
      cases h2
    have hsame : ipsecdoiSetLd b = ipsecdoiSetLd a := by
      rw [ipsecdoiSetLd_number hzero, ipsecdoiSetLd_number hzerob, hab.number]
    rw [hsame] at h2
    exact Option.some.inj (h2.symm.trans h1)
  · rw [hab.same (decide_eq_false hld)] at h2
    exact Option.some.inj (h2.symm.trans h1)

theorem trnsFold_same {ps ps' : List Place}
    (h : List.Forall₂ (fun p p' => SameValue (· = IPSECDOI_ATTR_SA_LD) p.attr p'.attr) ps ps') {s r r' : T2}
    (hr : ps.foldlM trnsRound s = some r) (hr' : ps'.foldlM trnsRound s = some r') : r' = r := by
  induction h generalizing s with
  | nil => exact Option.some.inj (hr'.symm.trans hr)
  | cons hp _ ih =>
    rw [List.foldlM_cons] at hr hr'
    obtain ⟨s1, hone, hr⟩ := Option.bind_eq_some_iff.mp hr
    obtain ⟨s1', hone', hr'⟩ := Option.bind_eq_some_iff.mp hr'
    obtain rfl := t2satrnsStep_same hp hone hone'
    exact ih hr hr'

theorem ipsecdoiT2satrns_eq {t : Buf} (ht : Whole t) {pp : Saprop} {pr : Saproto} (hread : TrnsRead t pp pr) :
    ipsecdoiT2satrns t pp pr =
      (ofFold ((placesOf t).foldlM trnsRound (trnsStart t pp pr))).andThen fun s => .through (s.pp, s.pr, s.tr) := by
  rw [ipsecdoiT2satrns, if_neg (Nat.not_lt_of_le hread.1),
    walkOf_eq trnsWalker _ ht ((walkOf_inside_iff _ _ _).mpr hread.2)]
  rfl

/-- Two transforms that name the same values leave the same record if and only if both are
    refused, or neither is. -/
theorem ipsecdoiT2satrns_same_iff {t t' : Buf} (pp : Saprop) (pr : Saproto) (ht : Whole t) (ht' : Whole t')
    (hno : tNo t' = tNo t) (hid : tId t' = tId t)
    (hsame : List.Forall₂ (SameValue (· = IPSECDOI_ATTR_SA_LD)) (attributes t) (attributes t')) :
    ipsecdoiT2satrns t pp pr = ipsecdoiT2satrns t' pp pr ↔ (TrnsRefused pp pr t ↔ TrnsRefused pp pr t') := by
  have hstart : trnsStart t' pp pr = trnsStart t pp pr := by rw [trnsStart, trnsStart, hno, hid]
  rw [ipsecdoiT2satrns_eq ht (ht.trnsRead pp pr), ipsecdoiT2satrns_eq ht' (ht'.trnsRead pp pr), ← trnsRefused_iff,
    ← trnsRefused_iff, hstart]
  cases hfold : (placesOf t).foldlM trnsRound (trnsStart t pp pr) with
  | none =>
    cases hfold' : (placesOf t').foldlM trnsRound (trnsStart t pp pr) with
    | none => exact iff_of_true rfl Iff.rfl
    | some r' => simp [ofFold, Outcome.andThen]
  | some r =>
    cases hfold' : (placesOf t').foldlM trnsRound (trnsStart t pp pr) with
    | none => simp [ofFold, Outcome.andThen]
    | some r' =>
      obtain rfl := trnsFold_same (places_forall₂ hsame none none) hfold hfold'
      simp

/-! ### Reads and forms -/

/-- The walks end. They stay inside a transform that the payload walker lets through if and
    only if the attributes that they come to do, with what is read of them. Two transforms
    filled by attributes that name the same values are decoded alike if and only if both
    are refused or neither is, and in phase 1 their groups read the same. -/
theorem attributeWalks_iff (t t' : Buf) (protoId : ℤ) (pp : Saprop) (pr : Saproto) :
    (Admitted t →
      (checkAttrIsakmp t ≠ .unfinished ∧ (checkAttrIsakmp t ≠ .outside ↔ IsakmpChecked t)) ∧
      (checkAttrIpsec protoId t ≠ .unfinished ∧ (checkAttrIpsec protoId t ≠ .outside ↔ IpsecChecked protoId t)) ∧
      (t2isakmpsa t ≠ .unfinished ∧ (t2isakmpsa t ≠ .outside ↔ SaRead t)) ∧
      (ipsecdoiT2satrns t pp pr ≠ .unfinished ∧ (ipsecdoiT2satrns t pp pr ≠ .outside ↔ TrnsRead t pp pr))) ∧
    (Whole t → Whole t' → SaRead t → SaRead t' →
      List.Forall₂ (SameValue copied) (attributes t) (attributes t') →
        (t2isakmpsa t = t2isakmpsa t' ↔ (SaRefused t ↔ SaRefused t') ∧ (¬ SaRefused t → SameGroup t t'))) ∧
    (Whole t → Whole t' → tNo t' = tNo t → tId t' = tId t →
      List.Forall₂ (SameValue (· = IPSECDOI_ATTR_SA_LD)) (attributes t) (attributes t') →
        (ipsecdoiT2satrns t pp pr = ipsecdoiT2satrns t' pp pr ↔ (TrnsRefused pp pr t ↔ TrnsRefused pp pr t'))) := by
  refine ⟨?_, ?_, ?_⟩
  · intro hadmitted
    have hlen := hadmitted.length.1
    exact ⟨⟨walkOf_ends _ _ _, checkAttrIsakmp_inside_iff t⟩,
      ⟨checkAttrIpsec_ends protoId t, checkAttrIpsec_inside_iff protoId hlen⟩,
      ⟨t2isakmpsa_ends t, t2isakmpsa_inside_iff t⟩,
      ⟨ipsecdoiT2satrns_ends t pp pr, ipsecdoiT2satrns_inside_iff t pp pr⟩⟩
  · intro ht ht' hread hread' hsame
    exact t2isakmpsa_same_iff ht ht' hread hread' hsame
  · intro ht ht' hno hid hsame
    exact ipsecdoiT2satrns_same_iff pp pr ht ht' hno hid hsame

section
/-- A transform with one cipher. -/
def oneCipher : Buf := [0, 0, 0, 12, 1, 1, 0, 0, 128, 1, 0, 5]

/-- An hour behind a life type, in phase 1 and in phase 2, short and long. -/
def hourShort : Buf := [0, 0, 0, 16, 1, 1, 0, 0, 128, 11, 0, 1, 128, 12, 14, 16]
def hourLong : Buf := [0, 0, 0, 20, 1, 1, 0, 0, 128, 11, 0, 1, 0, 12, 0, 4, 0, 0, 14, 16]
def hourShort2 : Buf := [0, 0, 0, 16, 1, 12, 0, 0, 128, 1, 0, 1, 128, 2, 14, 16]
def hourLong2 : Buf := [0, 0, 0, 20, 1, 12, 0, 0, 128, 1, 0, 1, 0, 2, 0, 4, 0, 0, 14, 16]

/-- One byte is left for an attribute. -/
def oneByte : Buf := [0, 0, 0, 9, 1, 1, 0, 0, 128]

/-- The generator 2 before a cipher, short and long. -/
def twoShort : Buf := [0, 0, 0, 16, 1, 1, 0, 0, 128, 7, 0, 2, 128, 1, 0, 5]
def twoLong : Buf := [0, 0, 0, 17, 1, 1, 0, 0, 0, 7, 0, 1, 2, 128, 1, 0, 5]

def tv (type lorv : ℕ) : Attr := { type := type, tv := true, lorv := lorv, value := [] }
def tlv (type : ℕ) (value : Buf) : Attr := { type := type, tv := false, lorv := value.length, value := value }

def somePp : Saprop :=
  { propNo := 1
    lifetime := 0
    lifebyte := 0
    pfsGroup := 0
    claim := 0
    head := [] }

def somePr : Saproto :=
  { protoId := IPSECDOI_PROTO_IPSEC_ESP
    spisize := 4
    encmode := 0
    udpEncap := false
    spi := [0, 0, 0, 1]
    spiP := [0, 0, 0, 0]
    reqidOut := 0
    reqidIn := 0
    head := [] }

/-- A transform is found when the payload walker finds nothing but it. -/
theorem admitted_alone (t : Buf)
    (hparse : isakmpParsewoh 3 t t.length = some [{ type := 3, ptr := t, len := t.length }]) : Admitted t :=
  ⟨3, t, _, hparse, _, List.mem_singleton_self _, (memcpy_length_self t).symm⟩

theorem whole_hours : Whole hourShort ∧ Whole hourLong ∧ Whole hourShort2 ∧ Whole hourLong2 :=
  ⟨⟨by decide +kernel, by decide +kernel⟩, ⟨by decide +kernel, by decide +kernel⟩,
    ⟨by decide +kernel, by decide +kernel⟩, ⟨by decide +kernel, by decide +kernel⟩⟩

theorem attributeWalks_hour :
    (checkAttrIsakmp oneCipher ≠ .outside ↔ IsakmpChecked oneCipher) ∧
    (t2isakmpsa hourShort = t2isakmpsa hourLong ↔
      (SaRefused hourShort ↔ SaRefused hourLong) ∧ (¬ SaRefused hourShort → SameGroup hourShort hourLong)) ∧
    (ipsecdoiT2satrns hourShort2 somePp somePr = ipsecdoiT2satrns hourLong2 somePp somePr ↔
      (TrnsRefused somePp somePr hourShort2 ↔ TrnsRefused somePp somePr hourLong2)) := by
  obtain ⟨hshort, hlong, hshort2, hlong2⟩ := whole_hours
  have hadmitted : Admitted oneCipher := admitted_alone oneCipher (by decide +kernel)
  have hread : SaRead hourShort := (t2isakmpsa_inside_iff _).mp (by decide +kernel)
  have hread' : SaRead hourLong := (t2isakmpsa_inside_iff _).mp (by decide +kernel)
  have hsame : List.Forall₂ (SameValue copied) (attributes hourShort) (attributes hourLong) := by
    rw [show attributes hourShort = [tv 11 1, tv 12 3600] by decide +kernel,
      show attributes hourLong = [tv 11 1, tlv 12 [0, 0, 14, 16]] by decide +kernel]
    exact .cons ⟨rfl, rfl, fun _ => rfl⟩ (.cons ⟨rfl, rfl, fun h => by cases h⟩ .nil)
  have hsame2 : List.Forall₂ (SameValue (· = IPSECDOI_ATTR_SA_LD)) (attributes hourShort2)
      (attributes hourLong2) := by
    rw [show attributes hourShort2 = [tv 1 1, tv 2 3600] by decide +kernel,
      show attributes hourLong2 = [tv 1 1, tlv 2 [0, 0, 14, 16]] by decide +kernel]
    exact .cons ⟨rfl, rfl, fun _ => rfl⟩ (.cons ⟨rfl, rfl, fun h => by cases h⟩ .nil)
  exact ⟨((attributeWalks_iff oneCipher oneCipher 0 somePp somePr).1 hadmitted).1.2,
    (attributeWalks_iff hourShort hourLong 0 somePp somePr).2.1 hshort hlong hread hread' hsame,
    (attributeWalks_iff hourShort2 hourLong2 0 somePp somePr).2.2 hshort2 hlong2 rfl rfl hsame2⟩

theorem generator_forms_differ :
    Admitted oneByte ∧ checkAttrIsakmp oneByte = .outside ∧
    Whole twoShort ∧ Whole twoLong ∧ SaRead twoShort ∧ SaRead twoLong ∧
    List.Forall₂ (SameValue copied) (attributes twoShort) (attributes twoLong) ∧
    t2isakmpsa twoShort ≠ t2isakmpsa twoLong := by
  refine ⟨?_, by decide, ⟨by decide +kernel, by decide +kernel⟩, ⟨by decide +kernel, by decide +kernel⟩,
    ?_, ?_, ?_, by decide +kernel⟩
  · exact admitted_alone oneByte (by decide +kernel)
  · exact (t2isakmpsa_inside_iff _).mp (by decide +kernel)
  · exact (t2isakmpsa_inside_iff _).mp (by decide +kernel)
  · rw [show attributes twoShort = [tv 7 2, tv 1 5] by decide +kernel,
      show attributes twoLong = [tlv 7 [2], tv 1 5] by decide +kernel]
    exact .cons ⟨rfl, rfl, fun h => by cases h⟩ (.cons ⟨rfl, rfl, fun _ => rfl⟩ .nil)

end

end WanStack.Racoon.AttrWalk
