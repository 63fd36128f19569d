import WanStack.Racoon.SaPayload
import Mathlib.Data.List.Forall2
import Mathlib.Tactic.MkIffOfInductiveProp
import Mathlib.Tactic.SplitIfs

set_option autoImplicit false

/-!
# What a proposal of the peer is decoded to

Where `aproppair2saprop` succeeds its result is read off the attributes: modes are
shared by the transforms of a payload, the group by all payloads of the number, and
the lifetimes are those of the last transform.
-/
namespace WanStack.Racoon.Proposal
open Aftr (Buf byteAt shortAt)

/-! ### Folds that may fail -/

section
variable {σ α : Type} {step : σ → α → Option σ}

/-- A fold that succeeds is the fold of what its rounds leave. -/
theorem foldlM_eq_foldl {read : σ → α → σ} (hread : ∀ s a s', step s a = some s' → s' = read s a)
    (as : List α) (s s' : σ) (h : as.foldlM step s = some s') : s' = as.foldl read s := by
  induction as generalizing s with
  | nil => exact (Option.some.inj h).symm
  | cons a as ih =>
    rw [List.foldlM_cons] at h
    obtain ⟨s₁, hs₁, h⟩ := Option.bind_eq_some_iff.mp h
    rw [List.foldl_cons, ← hread s a s₁ hs₁]
    exact ih s₁ h

/-- A fold succeeds where one with a related state does. -/
theorem foldlM_simulates {R : σ → σ → Prop}
    (hstep : ∀ s t a s', R s t → step s a = some s' → ∃ t', step t a = some t' ∧ R s' t')
    (as : List α) (s t s' : σ) (hR : R s t) (h : as.foldlM step s = some s') :
    ∃ t', as.foldlM step t = some t' ∧ R s' t' := by
  induction as generalizing s t with
  | nil =>
    obtain rfl : s = s' := Option.some.inj h
    exact ⟨t, rfl, hR⟩
  | cons a as ih =>
    rw [List.foldlM_cons] at h
    obtain ⟨s₁, hs₁, h⟩ := Option.bind_eq_some_iff.mp h
    obtain ⟨t₁, ht₁, hR₁⟩ := hstep s t a s₁ hR hs₁
    obtain ⟨t', ht', hR'⟩ := ih s₁ t₁ hR₁ h
    exact ⟨t', by rw [List.foldlM_cons, ht₁]; exact ht', hR'⟩

end

/-! ### One transform -/

/-- The value of the last attribute of a type, or what it was before. -/
def lastOf (type : ℕ) (before : ℤ) (as : List Attr) : ℤ :=
  as.foldl (fun v a => if a.type = type then a.lorv else v) before

theorem lastOf_append (type : ℕ) (before : ℤ) (as bs : List Attr) :
    lastOf type before (as ++ bs) = lastOf type (lastOf type before as) bs :=
  List.foldl_append

theorem lastOf_mem (type : ℕ) (before : ℤ) (as : List Attr) :
    lastOf type before as = before ∧ (∀ a ∈ as, a.type ≠ type) ∨
      ∃ a ∈ as, a.type = type ∧ lastOf type before as = a.lorv := by
  induction as generalizing before with
  | nil => exact .inl ⟨rfl, by simp⟩
  | cons a as ih =>
    have hcons : lastOf type before (a :: as) =
        lastOf type (if a.type = type then a.lorv else before) as := rfl
    rw [hcons]
    rcases ih (if a.type = type then a.lorv else before) with ⟨hlast, hno⟩ | ⟨b, hb, htype, hlast⟩
    · by_cases ha : a.type = type
      · rw [if_pos ha] at hlast
        exact .inr ⟨a, List.mem_cons_self, ha, by rw [if_pos ha, hlast]⟩
      · rw [if_neg ha] at hlast
        refine .inl ⟨by rw [if_neg ha, hlast], fun b hb => ?_⟩
        rcases List.mem_cons.mp hb with rfl | hb
        · exact ha
        · exact hno b hb
    · exact .inr ⟨b, List.mem_cons_of_mem _ hb, htype, hlast⟩

/-- The transform alone, without what is shared. -/
def trnsOf (t : Buf) : Satrns :=
  { trnsNo := tNo t
    trnsId := tId t
    encklen := lastOf IPSECDOI_ATTR_KEY_LENGTH 0 (attributes t)
    authtype := lastOf IPSECDOI_ATTR_AUTH IPSECDOI_ATTR_AUTH_NONE (attributes t) }

/-- The part of `T2` that the life attributes are about. -/
structure Lives where
  lifeT : ℕ
  prev : Option ℕ
  lifetime : ℤ
  lifebyte : ℤ

def T2.lives (s : T2) : Lives :=
  { lifeT := s.lifeT
    prev := s.prev
    lifetime := s.pp.lifetime
    lifebyte := s.pp.lifebyte }

def livesStep (s : Lives) (a : Attr) : Lives :=
  let dur := a.type = IPSECDOI_ATTR_SA_LD ∧ s.prev = some IPSECDOI_ATTR_SA_LD_TYPE
  { lifeT :=
      if a.type = IPSECDOI_ATTR_SA_LD_TYPE then
        if a.lorv = IPSECDOI_ATTR_SA_LD_TYPE_SEC ∨ a.lorv = IPSECDOI_ATTR_SA_LD_TYPE_KB then a.lorv
        else IPSECDOI_ATTR_SA_LD_TYPE_DEFAULT
      else s.lifeT
    prev := some a.type
    lifetime :=
      if dur ∧ s.lifeT = IPSECDOI_ATTR_SA_LD_TYPE_SEC then ipsecdoiSetLd a else s.lifetime
    lifebyte :=
      if dur ∧ s.lifeT ≠ IPSECDOI_ATTR_SA_LD_TYPE_SEC then toInt (ipsecdoiSetLd a) else s.lifebyte }

/-- The lifetimes of a transform. -/
def livesOf (t : Buf) : Lives :=
  (attributes t).foldl livesStep
    { lifeT := IPSECDOI_ATTR_SA_LD_TYPE_DEFAULT
      prev := none
      lifetime := IPSECDOI_ATTR_SA_LD_SEC_DEFAULT
      lifebyte := 0 }

/-- What a round of `ipsecdoi_t2satrns` that does not fail leaves. -/
def readStep (s : T2) (a : Attr) : T2 :=
  let lives := livesStep s.lives a
  { lifeT := lives.lifeT
    prev := lives.prev
    pp := { s.pp with
      lifetime := lives.lifetime
      lifebyte := lives.lifebyte
      pfsGroup := if a.type = IPSECDOI_ATTR_GRP_DESC then a.lorv else s.pp.pfsGroup }
    pr := { s.pr with
      encmode := if a.type = IPSECDOI_ATTR_ENC_MODE then a.lorv else s.pr.encmode }
    tr := { s.tr with
      encklen := if a.type = IPSECDOI_ATTR_KEY_LENGTH then a.lorv else s.tr.encklen
      authtype := if a.type = IPSECDOI_ATTR_AUTH then a.lorv else s.tr.authtype } }

theorem t2satrnsStep_eq (s : T2) (a : Attr) (s' : T2) (h : t2satrnsStep s a = some s') :
    s' = readStep s a := by
  -- a round keeps a value only where it is the one of the attribute
  obtain ⟨lifeT, prev, ⟨propNo, lifetime, lifebyte, pfsGroup, claim, protos⟩,
    ⟨protoId, spisize, encmode, udpEncap, spi, spiP, reqidOut, reqidIn, trs⟩, tr⟩ := s
  unfold t2satrnsStep at h
  dsimp only at h
  split_ifs at h <;> obtain rfl := Option.some.inj h <;>
    simp_all [readStep, livesStep, T2.lives, IPSECDOI_ATTR_SA_LD_TYPE, IPSECDOI_ATTR_SA_LD,
      IPSECDOI_ATTR_GRP_DESC, IPSECDOI_ATTR_ENC_MODE, IPSECDOI_ATTR_AUTH, IPSECDOI_ATTR_KEY_LENGTH]

theorem foldl_readStep (as : List Attr) (s : T2) :
    as.foldl readStep s =
      { lifeT := (as.foldl livesStep s.lives).lifeT
        prev := (as.foldl livesStep s.lives).prev
        pp := { s.pp with
          lifetime := (as.foldl livesStep s.lives).lifetime
          lifebyte := (as.foldl livesStep s.lives).lifebyte
          pfsGroup := lastOf IPSECDOI_ATTR_GRP_DESC s.pp.pfsGroup as }
        pr := { s.pr with encmode := lastOf IPSECDOI_ATTR_ENC_MODE s.pr.encmode as }
        tr := { s.tr with
          encklen := lastOf IPSECDOI_ATTR_KEY_LENGTH s.tr.encklen as
          authtype := lastOf IPSECDOI_ATTR_AUTH s.tr.authtype as } } := by
  induction as generalizing s with
  | nil => rfl
  | cons a as ih =>
    rw [List.foldl_cons, ih]
    rfl

/-- What the transform leaves of the proposal and of the protocol. -/
def propAfter (t : Buf) (pp : Saprop) : Saprop :=
  { pp with
    lifetime := (livesOf t).lifetime
    lifebyte := (livesOf t).lifebyte
    pfsGroup := lastOf IPSECDOI_ATTR_GRP_DESC pp.pfsGroup (attributes t) }

def protoAfter (t : Buf) (pr : Saproto) : Saproto :=
  { pr with encmode := lastOf IPSECDOI_ATTR_ENC_MODE pr.encmode (attributes t) }

theorem ipsecdoiT2satrns_eq (t : Buf) (pp : Saprop) (pr : Saproto) (x : Saprop × Saproto × Satrns)
    (h : ipsecdoiT2satrns t pp pr = some x) : x = (propAfter t pp, protoAfter t pr, trnsOf t) := by
  obtain ⟨s, hs, rfl⟩ := Option.map_eq_some_iff.mp h
  rw [foldlM_eq_foldl t2satrnsStep_eq _ _ _ hs, foldl_readStep]
  rfl

/-! ### A proposal payload -/

/-- The lifetimes are those of the last transform. -/
def propAfterAll (ts : List Buf) (pp : Saprop) : Saprop :=
  { pp with
    lifetime := ts.getLast?.elim pp.lifetime fun t => (livesOf t).lifetime
    lifebyte := ts.getLast?.elim pp.lifebyte fun t => (livesOf t).lifebyte
    pfsGroup := lastOf IPSECDOI_ATTR_GRP_DESC pp.pfsGroup (ts.flatMap attributes) }

theorem propAfterAll_cons (t : Buf) (ts : List Buf) (pp : Saprop) :
    propAfterAll (t :: ts) pp = propAfterAll ts (propAfter t pp) := by
  rw [propAfterAll, List.flatMap_cons, lastOf_append]
  cases ts <;> rfl

theorem propAfterAll_append (ts us : List Buf) (pp : Saprop) :
    propAfterAll (ts ++ us) pp = propAfterAll us (propAfterAll ts pp) := by
  induction ts generalizing pp with
  | nil => rfl
  | cons t ts ih => rw [List.cons_append, propAfterAll_cons, ih, propAfterAll_cons]

theorem trnsLoop_eq (ts : List Buf) (pp : Saprop) (pr : Saproto) (x : Saprop × Saproto)
    (h : trnsLoop ts pp pr = some x) :
    x = (propAfterAll ts pp,
      { pr with
        encmode := lastOf IPSECDOI_ATTR_ENC_MODE pr.encmode (ts.flatMap attributes)
        head := pr.head ++ ts.map trnsOf }) := by
  induction ts generalizing pp pr with
  | nil =>
    obtain rfl : (pp, pr) = x := Option.some.inj h
    rw [List.map_nil, List.append_nil]
    rfl
  | cons t ts ih =>
    unfold trnsLoop at h
    split at h
    · exact absurd h (by simp)
    · rename_i pp₁ pr₁ tr ht
      obtain ⟨rfl, rfl, rfl⟩ : pp₁ = _ ∧ pr₁ = _ ∧ tr = _ := by
        simpa using ipsecdoiT2satrns_eq t pp pr _ ht
      rw [ih _ _ h, propAfterAll_cons, List.flatMap_cons, lastOf_append, List.map_cons]
      simp [protoAfter]

/-- The mode that the transforms of a payload state. -/
def modeOf (ts : List Buf) : ℤ :=
  let encmode := lastOf IPSECDOI_ATTR_ENC_MODE 0 (ts.flatMap attributes)
  if encmode = 0 then IPSECDOI_ATTR_ENC_MODE_TRNS else encmode

def protoOf (p : PropPair) : Saproto :=
  { protoId := protoId p.prop
    spisize := spiSize p.prop
    encmode := modeOf p.trns
    udpEncap := false
    spi := List.replicate (4 - spiSize p.prop) 0 ++ memcpy (p.prop.drop PL_P_LEN) (spiSize p.prop)
    spiP := List.replicate 4 0
    reqidOut := 0
    reqidIn := 0
    head := p.trns.map trnsOf }

theorem protoLoop_eq (ps : List PropPair) (pp q : Saprop) (h : protoLoop ps pp = some q) :
    q = { propAfterAll (ps.flatMap PropPair.trns) pp with head := pp.head ++ ps.map protoOf } := by
  induction ps generalizing pp with
  | nil =>
    obtain rfl : pp = q := Option.some.inj h
    rw [List.map_nil, List.append_nil]
    rfl
  | cons p ps ih =>
    unfold protoLoop at h
    dsimp only at h
    split_ifs at h
    split at h
    · exact absurd h (by simp)
    · rename_i pp₁ pr hts
      obtain ⟨rfl, rfl⟩ : pp₁ = _ ∧ pr = _ := by simpa using trnsLoop_eq _ _ _ _ hts
      rw [ih _ h, List.flatMap_cons, propAfterAll_append]
      have hpr : ∀ pr : Saproto, (if pr.encmode = 0 then
          { pr with encmode := IPSECDOI_ATTR_ENC_MODE_TRNS } else pr) =
          { pr with encmode := if pr.encmode = 0 then IPSECDOI_ATTR_ENC_MODE_TRNS else pr.encmode } := by
        intro pr
        split <;> rfl
      rw [hpr]
      simp [propAfterAll, protoOf, modeOf]

/-- The proposal of the peer that the pairs of a number are decoded to. -/
def decoded (ps : List PropPair) : Saprop :=
  propAfterAll (ps.flatMap PropPair.trns)
    { propNo := ps.head?.elim 0 fun p => pNo p.prop
      lifetime := 0
      lifebyte := 0
      pfsGroup := 0
      claim := 0
      head := ps.map protoOf }

theorem aproppair2saprop_eq (ps : List PropPair) (q : Saprop) (h : aproppair2saprop ps = some q) :
    q = decoded ps := by
  cases ps with
  | nil => exact absurd h (by simp [aproppair2saprop])
  | cons p ps => exact protoLoop_eq (p :: ps) _ q h

/-! ### Where decoding succeeds -/

/-- What a round of `ipsecdoi_t2satrns` asks of an attribute. -/
@[mk_iff]
structure Passes (s : T2) (a : Attr) : Prop where
  life : a.type = IPSECDOI_ATTR_SA_LD → s.prev = some IPSECDOI_ATTR_SA_LD_TYPE →
    ipsecdoiSetLd a ≠ 0 ∧
      if s.lifeT = IPSECDOI_ATTR_SA_LD_TYPE_SEC then
        s.pp.lifetime = IPSECDOI_ATTR_SA_LD_SEC_DEFAULT ∨ s.pp.lifetime = ipsecdoiSetLd a
      else s.pp.lifebyte = 0 ∨ s.pp.lifebyte = toInt (ipsecdoiSetLd a)
  group : a.type = IPSECDOI_ATTR_GRP_DESC → s.pp.pfsGroup = 0 ∨ s.pp.pfsGroup = a.lorv
  encmode : a.type = IPSECDOI_ATTR_ENC_MODE → s.pr.encmode = 0 ∨ s.pr.encmode = a.lorv
  auth : a.type = IPSECDOI_ATTR_AUTH → s.tr.authtype = IPSECDOI_ATTR_AUTH_NONE
  keyLength : a.type = IPSECDOI_ATTR_KEY_LENGTH → s.pr.protoId = IPSECDOI_PROTO_IPSEC_ESP

theorem t2satrnsStep_passes (s : T2) (a : Attr) : t2satrnsStep s a ≠ none ↔ Passes s a := by
  have htypes : IPSECDOI_ATTR_SA_LD_TYPE = 1 ∧ IPSECDOI_ATTR_SA_LD = 2 ∧ IPSECDOI_ATTR_GRP_DESC = 3 ∧
      IPSECDOI_ATTR_ENC_MODE = 4 ∧ IPSECDOI_ATTR_AUTH = 5 ∧ IPSECDOI_ATTR_KEY_LENGTH = 6 :=
    ⟨rfl, rfl, rfl, rfl, rfl, rfl⟩
  rw [passes_iff]
  unfold t2satrnsStep
  simp only [htypes]
  by_cases htype : a.type = 1
  · simp [htype]
  by_cases hlife : a.type = 2
  · by_cases hprev : s.prev = some 1
    · by_cases hzero : ipsecdoiSetLd a = 0
      · simp [hlife, hprev, hzero]
      · by_cases hsec : s.lifeT = IPSECDOI_ATTR_SA_LD_TYPE_SEC
        · by_cases hset : s.pp.lifetime = IPSECDOI_ATTR_SA_LD_SEC_DEFAULT <;>
            simp [hlife, hprev, hzero, hsec, hset]
        · by_cases hset : s.pp.lifebyte = 0 <;> simp [hlife, hprev, hzero, hsec, hset]
    · simp [hlife, hprev]
  by_cases hgroup : a.type = 3
  · by_cases hset : s.pp.pfsGroup = 0 <;> simp [hgroup, hset]
  by_cases hmode : a.type = 4
  · by_cases hset : s.pr.encmode = 0 <;> simp [hmode, hset]
  by_cases hauth : a.type = 5
  · simp [hauth]
  by_cases hkey : a.type = 6
  · simp [hkey]
  · simp [htype, hlife, hgroup, hmode, hauth, hkey]
/-- The state of a walk that began with fewer of the shared values set. -/
structure Fewer (s s' : T2) : Prop where
  lives : s'.lives = s.lives
  authtype : s'.tr.authtype = s.tr.authtype
  protoId : s'.pr.protoId = s.pr.protoId
  group : s'.pp.pfsGroup = 0 ∨ s'.pp.pfsGroup = s.pp.pfsGroup
  encmode : s'.pr.encmode = 0 ∨ s'.pr.encmode = s.pr.encmode

theorem Fewer.passes {s s' : T2} (h : Fewer s s') {a : Attr} (ha : Passes s a) : Passes s' a := by
  have hlifeT : s'.lifeT = s.lifeT := congrArg Lives.lifeT h.lives
  have hprev : s'.prev = s.prev := congrArg Lives.prev h.lives
  have hlifetime : s'.pp.lifetime = s.pp.lifetime := congrArg Lives.lifetime h.lives
  have hlifebyte : s'.pp.lifebyte = s.pp.lifebyte := congrArg Lives.lifebyte h.lives
  constructor
  · rw [hlifeT, hprev, hlifetime, hlifebyte]
    exact ha.life
  · intro htype
    rcases h.group with hzero | hsame
    · exact .inl hzero
    · rw [hsame]
      exact ha.group htype
  · intro htype
    rcases h.encmode with hzero | hsame
    · exact .inl hzero
    · rw [hsame]
      exact ha.encmode htype
  · rw [h.authtype]
    exact ha.auth
  · rw [h.protoId]
    exact ha.keyLength

theorem Fewer.step (s s' : T2) (a : Attr) (s₁ : T2) (h : Fewer s s')
    (hs₁ : t2satrnsStep s a = some s₁) : ∃ s₁', t2satrnsStep s' a = some s₁' ∧ Fewer s₁ s₁' := by
  have hpasses : Passes s' a := h.passes ((t2satrnsStep_passes s a).mp (by simp [hs₁]))
  obtain ⟨s₁', hs₁'⟩ := Option.ne_none_iff_exists'.mp ((t2satrnsStep_passes s' a).mpr hpasses)
  obtain rfl := t2satrnsStep_eq s a s₁ hs₁
  obtain rfl := t2satrnsStep_eq s' a s₁' hs₁'
  refine ⟨_, hs₁', ?_, ?_, h.protoId, ?_, ?_⟩
  · exact congrArg (livesStep · a) h.lives
  · simp only [readStep, h.authtype]
  · simp only [readStep]
    split
    · exact .inr rfl
    · exact h.group
  · simp only [readStep]
    split
    · exact .inr rfl
    · exact h.encmode

/-- A transform that was decoded among others is decoded with nothing shared set. -/
theorem ipsecdoiT2satrns_alone (t t' : Buf) (hattrs : attributes t' = attributes t)
    (pp pp' : Saprop) (pr pr' : Saproto) (hgroup : pp'.pfsGroup = 0) (hmode : pr'.encmode = 0)
    (hproto : pr'.protoId = pr.protoId) (h : ipsecdoiT2satrns t pp pr ≠ none) :
    ipsecdoiT2satrns t' pp' pr' ≠ none := by
  obtain ⟨x, hx⟩ := Option.ne_none_iff_exists'.mp h
  obtain ⟨s, hs, -⟩ := Option.map_eq_some_iff.mp hx
  unfold ipsecdoiT2satrns
  rw [hattrs]
  obtain ⟨s', hs', -⟩ := foldlM_simulates Fewer.step (attributes t) _
    { lifeT := IPSECDOI_ATTR_SA_LD_TYPE_DEFAULT
      prev := none
      pp := { pp' with lifetime := IPSECDOI_ATTR_SA_LD_SEC_DEFAULT, lifebyte := 0 }
      pr := pr'
      tr :=
        { trnsNo := tNo t'
          trnsId := tId t'
          encklen := 0
          authtype := IPSECDOI_ATTR_AUTH_NONE } } s
    (by exact ⟨rfl, rfl, hproto, .inl hgroup, .inl hmode⟩) hs
  simp [hs']

/-! ### Values stated more than once -/

/-- All values stated for a type are the same, and the one there was before if any. -/
structure Agreed (type : ℕ) (before : ℤ) (as : List Attr) : Prop where
  kept : before ≠ 0 → lastOf type before as = before
  stated : ∀ a ∈ as, a.type = type → a.lorv ≠ 0 → lastOf type before as = a.lorv

theorem Agreed.nil (type : ℕ) (before : ℤ) : Agreed type before [] :=
  ⟨fun _ => rfl, fun _ h => absurd h List.not_mem_nil⟩

theorem Agreed.singleton {type : ℕ} {before : ℤ} {a : Attr}
    (h : a.type = type → before = 0 ∨ before = a.lorv) : Agreed type before [a] := by
  have hlast : lastOf type before [a] = if a.type = type then (a.lorv : ℤ) else before := rfl
  constructor
  · intro hbefore
    rw [hlast]
    split
    · rename_i htype
      exact ((h htype).resolve_left hbefore).symm
    · rfl
  · intro b hb htype _
    obtain rfl := List.mem_singleton.mp hb
    rw [hlast, if_pos htype]

theorem Agreed.append {type : ℕ} {before : ℤ} {as bs : List Attr} (has : Agreed type before as)
    (hbs : Agreed type (lastOf type before as) bs) : Agreed type before (as ++ bs) := by
  constructor
  · intro hbefore
    have hkept := has.kept hbefore
    rw [lastOf_append, hbs.kept (by rw [hkept]; exact hbefore), hkept]
  · intro a ha htype hne
    rw [lastOf_append]
    rcases List.mem_append.mp ha with ha | ha
    · have hstated := has.stated a ha htype hne
      rw [hbs.kept (by rw [hstated]; exact_mod_cast hne), hstated]
    · exact hbs.stated a ha htype hne

theorem foldlM_agreed (as : List Attr) (s s' : T2) (h : as.foldlM t2satrnsStep s = some s') :
    Agreed IPSECDOI_ATTR_GRP_DESC s.pp.pfsGroup as ∧
      Agreed IPSECDOI_ATTR_ENC_MODE s.pr.encmode as := by
  induction as generalizing s with
  | nil => exact ⟨.nil _ _, .nil _ _⟩
  | cons a as ih =>
    rw [List.foldlM_cons] at h
    obtain ⟨s₁, hs₁, h⟩ := Option.bind_eq_some_iff.mp h
    have hpasses : Passes s a := (t2satrnsStep_passes s a).mp (by simp [hs₁])
    obtain rfl := t2satrnsStep_eq s a s₁ hs₁
    obtain ⟨hgroup, hmode⟩ := ih _ h
    exact ⟨(Agreed.singleton hpasses.group).append hgroup, (Agreed.singleton hpasses.encmode).append hmode⟩

/-- What a payload that is decoded says about its transforms. -/
theorem trnsLoop_agreed (ts : List Buf) (pp : Saprop) (pr : Saproto) (h : trnsLoop ts pp pr ≠ none) :
    Agreed IPSECDOI_ATTR_GRP_DESC pp.pfsGroup (ts.flatMap attributes) ∧
      Agreed IPSECDOI_ATTR_ENC_MODE pr.encmode (ts.flatMap attributes) ∧
      ∀ t ∈ ts, ∃ pp₁ pr₁, pr₁.protoId = pr.protoId ∧ ipsecdoiT2satrns t pp₁ pr₁ ≠ none := by
  induction ts generalizing pp pr with
  | nil => exact ⟨.nil _ _, .nil _ _, by simp⟩
  | cons t ts ih =>
    unfold trnsLoop at h
    split at h
    · exact absurd rfl h
    · rename_i pp₁ pr₁ tr ht
      obtain ⟨s, hs, -⟩ := Option.map_eq_some_iff.mp ht
      obtain ⟨hgroup, hmode⟩ := foldlM_agreed _ _ _ hs
      obtain ⟨rfl, rfl, rfl⟩ : pp₁ = _ ∧ pr₁ = _ ∧ tr = _ := by
        simpa using ipsecdoiT2satrns_eq t pp pr _ ht
      obtain ⟨hgroups, hmodes, hall⟩ := ih _ _ h
      rw [List.flatMap_cons]
      refine ⟨hgroup.append hgroups, hmode.append hmodes, fun u hu => ?_⟩
      rcases List.mem_cons.mp hu with rfl | hu
      · exact ⟨pp, pr, rfl, by simp [ht]⟩
      · exact hall u hu

theorem protoLoop_agreed (ps : List PropPair) (pp : Saprop) (h : protoLoop ps pp ≠ none) :
    Agreed IPSECDOI_ATTR_GRP_DESC pp.pfsGroup ((ps.flatMap PropPair.trns).flatMap attributes) ∧
      ∀ p ∈ ps, spiSize p.prop ≤ 4 ∧ Agreed IPSECDOI_ATTR_ENC_MODE 0 (p.trns.flatMap attributes) ∧
        ∀ t ∈ p.trns, ∃ pp₁ pr₁, pr₁.protoId = protoId p.prop ∧
          ipsecdoiT2satrns t pp₁ pr₁ ≠ none := by
  induction ps generalizing pp with
  | nil => exact ⟨.nil _ _, by simp⟩
  | cons p ps ih =>
    unfold protoLoop at h
    dsimp only at h
    split_ifs at h with hspi
    · exact absurd rfl h
    split at h
    · exact absurd rfl h
    · rename_i pp₁ pr hts
      obtain ⟨hgroup, hmode, htrns⟩ := trnsLoop_agreed _ _ _ (by rw [hts]; simp)
      obtain ⟨rfl, rfl⟩ : pp₁ = _ ∧ pr = _ := by simpa using trnsLoop_eq _ _ _ _ hts
      obtain ⟨hgroups, hall⟩ := ih _ h
      rw [List.flatMap_cons, List.flatMap_append]
      refine ⟨hgroup.append hgroups, fun q hq => ?_⟩
      rcases List.mem_cons.mp hq with rfl | hq
      · exact ⟨Nat.le_of_not_lt hspi, hmode, htrns⟩
      · exact hall q hq

end WanStack.Racoon.Proposal
