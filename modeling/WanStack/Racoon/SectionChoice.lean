import WanStack.Lib.Leader
import WanStack.Racoon.Remoteconf

set_option autoImplicit false

/-!
# The choice of a remote section

`getrmconf` and `getrmconf_by_ph1` of `remoteconf.c`: the sections are gone
through with `rmconf_find`, which keeps the best one so far and the number of
sections that match as well.
-/
namespace WanStack.Racoon.SectionChoice
open Aftr (Buf)
open Phase1
open Lib.Leader (Leads holders leads_single)

def GETRMCONF_F_NO_ANONYMOUS : BitVec 32 := 0x0001
def GETRMCONF_F_NO_PASSIVE : BitVec 32 := 0x0002

/-- The part of a phase 1 handle that a selector is made from. -/
structure Ph1handle where
  remote : Sockaddr
  etype : ℕ
  approval : Option Isakmpsa
  idP : Option Buf
  crP : Option Buf

def rmconfSelectorFromPh1 (iph1 : Ph1handle) : Rmconfselector :=
  { noAnonymous := false
    noPassive := false
    remote := some iph1.remote
    etype := iph1.etype
    approval := iph1.approval
    identity := iph1.idP
    certificateRequest := iph1.crP }

structure RmconfFindContext where
  sel : Rmconfselector
  rmconf : Option Remoteconf
  matchType : ℕ
  numFound : ℕ

/-- What `getrmconf_by_ph1` returns. -/
inductive Answer where
  | NULL
  | RMCONF_ERR_MULTIPLE
  | rmconf (rmconf : Remoteconf)
deriving DecidableEq, Repr

section
variable (env : Env)

def rmconfFind (_ : ℕ) (rmconf : Remoteconf) (fctx : RmconfFindContext) : Bool × RmconfFindContext :=
  let matchType := rmconfMatchType env fctx.sel rmconf
  if fctx.rmconf ≠ none ∧ matchType < fctx.matchType then (false, fctx)
  else if fctx.rmconf ≠ none ∧ matchType = fctx.matchType then
    (false, { fctx with numFound := fctx.numFound + 1 })
  else (false, { fctx with matchType := matchType, numFound := 1, rmconf := some rmconf })

def findContext (sel : Rmconfselector) : RmconfFindContext :=
  { sel := sel
    rmconf := none
    matchType := 0
    numFound := 0 }

/-- `ctx.sel` as `getrmconf` fills it in. -/
def remoteSelector (remote : Option Sockaddr) (flags : BitVec 32) : Rmconfselector :=
  { noAnonymous := flags &&& GETRMCONF_F_NO_ANONYMOUS ≠ 0
    noPassive := flags &&& GETRMCONF_F_NO_PASSIVE ≠ 0
    remote := remote
    etype := ISAKMP_ETYPE_NONE
    approval := none
    identity := none
    certificateRequest := none }

def getrmconf (rmtree : List Remoteconf) (remote : Option Sockaddr) (flags : BitVec 32) :
    Option Remoteconf :=
  let sel := remoteSelector remote flags
  match enumrmconf env rmtree sel (rmconfFind env) (findContext sel) with
  | (true, _) => none
  | (false, ctx) =>
    if ctx.rmconf = none then none
    else if ctx.numFound ≠ 1 then none
    else ctx.rmconf

def getrmconfByPh1 (rmtree : List Remoteconf) (iph1 : Ph1handle) : Answer :=
  let sel := rmconfSelectorFromPh1 iph1
  match enumrmconf env rmtree sel (rmconfFind env) (findContext sel) with
  | (true, _) => .RMCONF_ERR_MULTIPLE
  | (false, ctx) =>
    match ctx.rmconf with
    | none => .NULL
    | some rmconf => if ctx.numFound ≠ 1 then .RMCONF_ERR_MULTIPLE else .rmconf rmconf

end

/-! ### The pass over the sections -/

section
variable (env : Env) {sel : Rmconfselector} {fctx : RmconfFindContext} {p : Remoteconf}
  {l : List Remoteconf} {place : ℕ}

/-- What the context holds after the sections `l` have matched. -/
inductive Found (sel : Rmconfselector) (l : List Remoteconf) (fctx : RmconfFindContext) : Prop where
  | nothing (hsel : fctx.sel = sel) (hrmconf : fctx.rmconf = none) (hnil : l = [])
  | best (p : Remoteconf) (hsel : fctx.sel = sel) (hrmconf : fctx.rmconf = some p)
      (htype : fctx.matchType = rmconfMatchType env sel p)
      (hleads : Leads (rmconfMatchType env sel) l p fctx.numFound)

theorem rmconfFind_goes_on : (rmconfFind env place p fctx).1 = false := by
  unfold rmconfFind
  dsimp only
  split_ifs <;> rfl

theorem rmconfFind_found (p : Remoteconf) (place : ℕ) (h : Found env sel l fctx) :
    Found env sel (l ++ [p]) (rmconfFind env place p fctx).2 := by
  cases h with
  | nothing hsel hrmconf hnil =>
    subst hnil hsel
    have hstep : (rmconfFind env place p fctx).2 =
        { fctx with
          matchType := rmconfMatchType env fctx.sel p
          numFound := 1
          rmconf := some p } := by
      simp [rmconfFind, hrmconf]
    rw [hstep]
    exact .best p rfl rfl rfl leads_single
  | best q hsel hrmconf htype hleads =>
    subst hsel
    have hsome : fctx.rmconf ≠ none := by simp [hrmconf]
    unfold rmconfFind
    dsimp only
    rw [htype]
    rcases lt_trichotomy (rmconfMatchType env fctx.sel p) (rmconfMatchType env fctx.sel q)
      with hlt | heq | hgt
    · rw [if_pos ⟨hsome, hlt⟩]
      exact .best q rfl hrmconf htype (hleads.worse hlt)
    · rw [if_neg (fun hlt => hlt.2.ne heq), if_pos ⟨hsome, heq⟩]
      exact .best q rfl hrmconf rfl (hleads.equal heq)
    · rw [if_neg (fun hlt => hlt.2.not_gt hgt), if_neg (fun heq => hgt.ne' heq.2)]
      exact .best p rfl rfl rfl (hleads.better hgt)

def matching (sel : Rmconfselector) (p : Remoteconf) : Bool :=
  rmconfMatchType env sel p ≠ MATCH_NONE

theorem enumLoop_found (entries : List (Remoteconf × ℕ)) (h : Found env sel l fctx) :
    ∃ fctx', enumLoop env sel (rmconfFind env) entries fctx = (false, fctx') ∧
      Found env sel (l ++ (entries.map Prod.fst).filter (matching env sel)) fctx' := by
  induction entries generalizing l fctx with
  | nil => exact ⟨fctx, rfl, by simpa using h⟩
  | cons entry entries ih =>
    obtain ⟨p, place⟩ := entry
    by_cases hnone : rmconfMatchType env sel p = MATCH_NONE
    · have hskip := ih h
      simpa [enumLoop, hnone, matching] using hskip
    · have hrest := ih (rmconfFind_found env p place h)
      have hstep : rmconfFind env place p fctx = (false, (rmconfFind env place p fctx).2) :=
        Prod.ext (rmconfFind_goes_on env) rfl
      rw [enumLoop, if_neg hnone, hstep]
      simpa [matching, hnone] using hrest

/-- What the two functions find in the context at the end. -/
theorem enumrmconf_found (rmtree : List Remoteconf) (sel : Rmconfselector) :
    ∃ ctx, enumrmconf env rmtree sel (rmconfFind env) (findContext sel) = (false, ctx) ∧
      ((ctx.rmconf = none ∧ ∀ q ∈ rmtree, rmconfMatchType env sel q = MATCH_NONE) ∨
        ∃ p, ctx.rmconf = some p ∧ rmconfMatchType env sel p ≠ MATCH_NONE ∧
          Leads (rmconfMatchType env sel) rmtree p ctx.numFound) := by
  have hstart : Found env sel [] (findContext sel) := .nothing rfl rfl rfl
  obtain ⟨ctx, hloop, hfound⟩ := enumLoop_found env rmtree.zipIdx.reverse hstart
  have hentries : (rmtree.zipIdx.reverse.map Prod.fst) = rmtree.reverse := by
    rw [List.map_reverse, List.zipIdx_map_fst]
  rw [hentries, List.nil_append] at hfound
  refine ⟨ctx, hloop, ?_⟩
  cases hfound with
  | nothing hsel hrmconf hnil =>
    left
    refine ⟨hrmconf, fun q hq => ?_⟩
    have hout := List.filter_eq_nil_iff.mp hnil q (List.mem_reverse.mpr hq)
    simpa [matching] using hout
  | best p hsel hrmconf htype hleads =>
    right
    have hmatch : rmconfMatchType env sel p ≠ MATCH_NONE := by
      have hin := (List.mem_filter.mp hleads.mem).2
      simpa [matching] using hin
    refine ⟨p, hrmconf, hmatch, ?_⟩
    apply Leads.perm _ (List.reverse_perm rmtree)
    apply hleads.of_filter
    intro q _ hq
    have hnone : rmconfMatchType env sel q = MATCH_NONE := by simpa [matching] using hq
    rw [hnone]
    exact Nat.pos_of_ne_zero hmatch

end

/-! ### The answers -/

section
variable (value : Remoteconf → ℕ) (rmtree : List Remoteconf)

def NoneMatches : Prop := ∀ q ∈ rmtree, value q = MATCH_NONE

/-- `p` matches, and every other section of the list has a smaller value. -/
def UniqueBest (p : Remoteconf) : Prop :=
  value p ≠ MATCH_NONE ∧ ∃ before after, rmtree = before ++ p :: after ∧
    ∀ q ∈ before ++ after, value q < value p

/-- Two sections or more have the greatest value of a matching one. -/
def SharedBest : Prop :=
  ∃ p ∈ rmtree, value p ≠ MATCH_NONE ∧ (∀ q ∈ rmtree, value q ≤ value p) ∧
    2 ≤ rmtree.countP fun q => value q = value p

def Chosen : Answer → Prop
  | .NULL => NoneMatches value rmtree
  | .rmconf p => UniqueBest value rmtree p
  | .RMCONF_ERR_MULTIPLE => SharedBest value rmtree

variable {value rmtree} {rmtree' : List Remoteconf} {p : Remoteconf} {answer answer' : Answer}

theorem uniqueBest_iff :
    UniqueBest value rmtree p ↔ value p ≠ MATCH_NONE ∧ Leads value rmtree p 1 := by
  unfold UniqueBest
  rw [Lib.Leader.leads_one_iff]

theorem sharedBest_iff : SharedBest value rmtree ↔
    ∃ p shared, value p ≠ MATCH_NONE ∧ Leads value rmtree p shared ∧ 2 ≤ shared := by
  constructor
  · rintro ⟨p, hp, hmatch, hgreatest, htwo⟩
    exact ⟨p, _, hmatch, ⟨hp, hgreatest, rfl⟩, htwo⟩
  · rintro ⟨p, shared, hmatch, hleads, htwo⟩
    refine ⟨p, hleads.mem, hmatch, hleads.greatest, ?_⟩
    rw [← hleads.holders_eq] at htwo
    exact htwo

theorem Leads.not_noneMatches {shared : ℕ} (h : Leads value rmtree p shared)
    (hmatch : value p ≠ MATCH_NONE) : ¬ NoneMatches value rmtree :=
  fun hnone => hmatch (hnone p h.mem)

/-- A list has one answer. -/
theorem Chosen.unique (h : Chosen value rmtree answer) (h' : Chosen value rmtree answer') :
    answer = answer' := by
  cases answer <;> cases answer' <;>
    simp only [Chosen, uniqueBest_iff, sharedBest_iff] at h h'
  case NULL.NULL => rfl
  case RMCONF_ERR_MULTIPLE.RMCONF_ERR_MULTIPLE => rfl
  case NULL.RMCONF_ERR_MULTIPLE =>
    obtain ⟨p, shared, hmatch, hleads, _⟩ := h'
    exact absurd h (Leads.not_noneMatches hleads hmatch)
  case NULL.rmconf p => exact absurd h (Leads.not_noneMatches h'.2 h'.1)
  case RMCONF_ERR_MULTIPLE.NULL =>
    obtain ⟨p, shared, hmatch, hleads, _⟩ := h
    exact absurd h' (Leads.not_noneMatches hleads hmatch)
  case rmconf.NULL p => exact absurd h' (Leads.not_noneMatches h.2 h.1)
  case RMCONF_ERR_MULTIPLE.rmconf p =>
    obtain ⟨q, shared, _, hleads, htwo⟩ := h
    have hone := (hleads.unique h'.2).2
    omega
  case rmconf.RMCONF_ERR_MULTIPLE p =>
    obtain ⟨q, shared, _, hleads, htwo⟩ := h'
    have hone := (hleads.unique h.2).2
    omega
  case rmconf.rmconf p q => rw [h.2.eq_of_one h'.2]

theorem Chosen.perm (h : Chosen value rmtree answer) (hperm : rmtree.Perm rmtree') :
    Chosen value rmtree' answer := by
  cases answer with
  | NULL => exact fun q hq => h q (hperm.mem_iff.mpr hq)
  | RMCONF_ERR_MULTIPLE =>
    obtain ⟨p, shared, hmatch, hleads, htwo⟩ := sharedBest_iff.mp h
    exact sharedBest_iff.mpr ⟨p, shared, hmatch, hleads.perm hperm, htwo⟩
  | rmconf p =>
    have hbest := uniqueBest_iff.mp h
    exact uniqueBest_iff.mpr ⟨hbest.1, hbest.2.perm hperm⟩

end

section
variable (env : Env) (rmtree : List Remoteconf)

/-- The answer of `getrmconf` with its two ways of failing told apart. -/
def answerOf (sel : Rmconfselector) : Answer :=
  let ctx := (enumrmconf env rmtree sel (rmconfFind env) (findContext sel)).2
  match ctx.rmconf with
  | none => .NULL
  | some rmconf => if ctx.numFound ≠ 1 then .RMCONF_ERR_MULTIPLE else .rmconf rmconf

theorem answerOf_chosen (sel : Rmconfselector) :
    Chosen (rmconfMatchType env sel) rmtree (answerOf env rmtree sel) := by
  obtain ⟨ctx, henum, hctx⟩ := enumrmconf_found env rmtree sel
  unfold answerOf
  rw [henum]
  dsimp only
  cases hctx with
  | inl hnone =>
    rw [hnone.1]
    exact hnone.2
  | inr hbest =>
    obtain ⟨p, hrmconf, hmatch, hleads⟩ := hbest
    rw [hrmconf]
    dsimp only
    by_cases hone : ctx.numFound = 1
    · rw [if_neg (not_not.mpr hone)]
      rw [hone] at hleads
      exact uniqueBest_iff.mpr ⟨hmatch, hleads⟩
    · rw [if_pos hone]
      have htwo : 2 ≤ ctx.numFound := by
        have hpos := hleads.shared_pos
        omega
      exact sharedBest_iff.mpr ⟨p, _, hmatch, hleads, htwo⟩

theorem getrmconfByPh1_eq (iph1 : Ph1handle) :
    getrmconfByPh1 env rmtree iph1 = answerOf env rmtree (rmconfSelectorFromPh1 iph1) := by
  obtain ⟨ctx, henum, -⟩ := enumrmconf_found env rmtree (rmconfSelectorFromPh1 iph1)
  simp only [getrmconfByPh1, answerOf, henum]

theorem getrmconf_eq_some_iff (remote : Option Sockaddr) (flags : BitVec 32) (p : Remoteconf) :
    getrmconf env rmtree remote flags = some p ↔
      answerOf env rmtree (remoteSelector remote flags) = .rmconf p := by
  obtain ⟨ctx, henum, -⟩ := enumrmconf_found env rmtree (remoteSelector remote flags)
  simp only [getrmconf, answerOf, henum]
  cases hrmconf : ctx.rmconf with
  | none => simp
  | some q => by_cases hone : ctx.numFound = 1 <;> simp [hone]

theorem answerOf_eq_iff (sel : Rmconfselector) (answer : Answer) :
    answerOf env rmtree sel = answer ↔ Chosen (rmconfMatchType env sel) rmtree answer := by
  constructor
  · rintro rfl
    exact answerOf_chosen env rmtree sel
  · intro h
    exact (answerOf_chosen env rmtree sel).unique h

theorem answerOf_perm {rmtree' : List Remoteconf} (hperm : rmtree.Perm rmtree')
    (sel : Rmconfselector) : answerOf env rmtree' sel = answerOf env rmtree sel := by
  rw [answerOf_eq_iff]
  exact (answerOf_chosen env rmtree sel).perm hperm

theorem getrmconf_eq_none_iff (remote : Option Sockaddr) (flags : BitVec 32) :
    getrmconf env rmtree remote flags = none ↔
      answerOf env rmtree (remoteSelector remote flags) = .NULL ∨
        answerOf env rmtree (remoteSelector remote flags) = .RMCONF_ERR_MULTIPLE := by
  have hsome := getrmconf_eq_some_iff env rmtree remote flags
  cases hget : getrmconf env rmtree remote flags with
  | some p =>
    have hanswer := (hsome p).mp hget
    simp [hanswer]
  | none =>
    cases hanswer : answerOf env rmtree (remoteSelector remote flags) with
    | NULL => simp
    | RMCONF_ERR_MULTIPLE => simp
    | rmconf p =>
      have hget' := (hsome p).mpr hanswer
      rw [hget] at hget'
      cases hget'

/-- The answers say which section has the greatest value, and the order of the
    sections does not matter. -/
theorem getrmconf_order_free :
    (∀ iph1 answer, getrmconfByPh1 env rmtree iph1 = answer ↔
      Chosen (rmconfMatchType env (rmconfSelectorFromPh1 iph1)) rmtree answer) ∧
    (∀ remote flags,
      (∀ p, getrmconf env rmtree remote flags = some p ↔
        UniqueBest (rmconfMatchType env (remoteSelector remote flags)) rmtree p) ∧
      (getrmconf env rmtree remote flags = none ↔
        NoneMatches (rmconfMatchType env (remoteSelector remote flags)) rmtree ∨
          SharedBest (rmconfMatchType env (remoteSelector remote flags)) rmtree)) ∧
    ∀ rmtree', rmtree.Perm rmtree' →
      (∀ iph1, getrmconfByPh1 env rmtree' iph1 = getrmconfByPh1 env rmtree iph1) ∧
      ∀ remote flags, getrmconf env rmtree' remote flags = getrmconf env rmtree remote flags := by
  refine ⟨?_, ?_, ?_⟩
  · intro iph1 answer
    rw [getrmconfByPh1_eq, answerOf_eq_iff]
  · intro remote flags
    constructor
    · intro p
      rw [getrmconf_eq_some_iff, answerOf_eq_iff]
      exact Iff.rfl
    · rw [getrmconf_eq_none_iff, answerOf_eq_iff, answerOf_eq_iff]
      exact Iff.rfl
  · intro rmtree' hperm
    constructor
    · intro iph1
      rw [getrmconfByPh1_eq, getrmconfByPh1_eq, answerOf_perm env rmtree hperm]
    · intro remote flags
      apply Option.ext
      intro p
      rw [getrmconf_eq_some_iff, getrmconf_eq_some_iff, answerOf_perm env rmtree hperm]

end

def noEnv : Env :=
  { heap := []
    eayCmpAsn1dn := fun a b => a = b
    eayGetX509asn1issuername := fun _ => [] }

def anonymousSection : Remoteconf :=
  { remote := .unspec
    etypes := [2]
    idvlP := []
    mycert := none
    matchEmptyCr := false
    verifyIdentifier := false
    passive := false
    pcheckLevel := .OBEY
    dhGroup := 2
    proposal := [] }

/-- The section of one host beats the anonymous one in both orders. -/
theorem getrmconf_order_free_host :
    let host := { anonymousSection with remote := .inet 3232235777 500 }
    let iph1 : Ph1handle :=
      { remote := .inet 3232235777 500
        etype := 2
        approval := none
        idP := none
        crP := none }
    getrmconfByPh1 noEnv [host, anonymousSection] iph1 =
        getrmconfByPh1 noEnv [anonymousSection, host] iph1 ∧
      getrmconfByPh1 noEnv [anonymousSection, host] iph1 = .rmconf host :=
  ⟨((getrmconf_order_free noEnv _).2.2 _ (List.Perm.swap _ _ _)).1 _, by decide +kernel⟩

end WanStack.Racoon.SectionChoice
