import WanStack.Racoon.Handles

set_option autoImplicit false

/-!
# The phase 2 handle of an association

`getph2bysaidx` of `handler.c`, by which the expire and delete messages of PF_KEY
find the handle they are about. `pk_sendupdate` gives the kernel the association
from the peer under `spi`, `pk_sendadd` the one to the peer under `spi_p`.
-/
namespace WanStack.Racoon.SaIndex
open Aftr (Buf)
open Proposal (Saproto Saprop)
open Handles (carries)

/-- `sa_src` and `sa_dst` are the ends of the associations where they are not those
    of the negotiation. -/
structure Ph2handle extends Handles.Ph2handle where
  saSrc : Option Sockaddr
  saDst : Option Sockaddr

/-- The loop over the protocols of a proposal. -/
def searchLoop (found : Saproto → Bool) (protoId : ℤ) : List Saproto → Bool
  | [] => false
  | pr :: rest =>
    if protoId ≠ pr.protoId then false
    else if found pr then true
    else searchLoop found protoId rest

/-- `src` and `dst` are not looked at. -/
def getph2bysaidx (src dst : Sockaddr) (protoId : ℤ) (spi : Buf) :
    List Ph2handle → Option Ph2handle
  | [] => none
  | iph2 :: rest =>
    match iph2.approval, iph2.proposal with
    | none, none => getph2bysaidx src dst protoId spi rest
    | some approval, _ =>
      if searchLoop (fun pr => spi = pr.spi || spi = pr.spiP) protoId approval.head then some iph2
      else getph2bysaidx src dst protoId spi rest
    | none, some proposal =>
      if searchLoop (fun pr => spi = pr.spi) protoId proposal.head then some iph2
      else getph2bysaidx src dst protoId spi rest

/-! ### The associations of a handle -/

def protos (iph2 : Ph2handle) : List Saproto :=
  match iph2.approval, iph2.proposal with
  | some approval, _ => approval.head
  | none, some proposal => proposal.head
  | none, none => []

/-- Our end and that of the peer. -/
def saEnds (iph2 : Ph2handle) : Sockaddr × Sockaddr :=
  match iph2.saSrc, iph2.saDst with
  | some saSrc, some saDst => (saSrc, saDst)
  | _, _ => (iph2.src, iph2.dst)

/-- As `getph2byid` and `getph2bysaddr` compare addresses. -/
def SameAddr (a b : Sockaddr) : Prop := cmpsaddr a b = .MATCH ∨ cmpsaddr a b = .WILDPORT_MATCH

def FromPeer (src dst : Sockaddr) (iph2 : Ph2handle) : Prop :=
  SameAddr src (saEnds iph2).2 ∧ SameAddr dst (saEnds iph2).1

def ToPeer (src dst : Sockaddr) (iph2 : Ph2handle) : Prop :=
  SameAddr src (saEnds iph2).1 ∧ SameAddr dst (saEnds iph2).2

/-- The SPI of the peer is known from the approval on. -/
def HasSa (src dst : Sockaddr) (protoId : ℤ) (spi : Buf) (iph2 : Ph2handle) : Prop :=
  ∃ pr ∈ protos iph2, pr.protoId = protoId ∧
    (spi = pr.spi ∧ FromPeer src dst iph2 ∨
      iph2.approval ≠ none ∧ spi = pr.spiP ∧ ToPeer src dst iph2)

/-- What a lookup is to return. -/
def Answers (src dst : Sockaddr) (protoId : ℤ) (spi : Buf) (ph2tree : List Ph2handle)
    (answer : Option Ph2handle) : Prop :=
  (∀ iph2, answer = some iph2 → iph2 ∈ ph2tree ∧ HasSa src dst protoId spi iph2) ∧
    (answer = none → ∀ iph2 ∈ ph2tree, ¬ HasSa src dst protoId spi iph2)

/-- A protocol with the SPI, and none but this protocol in front of it. -/
def Leading (protoId : ℤ) (spi : Buf) (iph2 : Ph2handle) : Prop :=
  ∃ before pr after, protos iph2 = before ++ pr :: after ∧
    (∀ q ∈ before, q.protoId = protoId) ∧ pr.protoId = protoId ∧
    (spi = pr.spi ∨ iph2.approval ≠ none ∧ spi = pr.spiP)

/-! ### The search -/

variable {src dst : Sockaddr} {protoId : ℤ} {spi : Buf} {iph2 : Ph2handle}
  {ph2tree : List Ph2handle}

theorem searchLoop_eq (found : Saproto → Bool) (l : List Saproto) :
    searchLoop found protoId l = (l.takeWhile fun pr => protoId = pr.protoId).any found := by
  induction l with
  | nil => rfl
  | cons pr rest ih =>
    unfold searchLoop
    by_cases hproto : protoId = pr.protoId
    · have htake : (pr :: rest).takeWhile (fun pr => protoId = pr.protoId) =
          pr :: rest.takeWhile fun pr => protoId = pr.protoId :=
        List.takeWhile_cons_of_pos (decide_eq_true hproto)
      rw [if_neg (not_not.mpr hproto), htake, List.any_cons, ih]
      cases found pr <;> rfl
    · have htake : (pr :: rest).takeWhile (fun pr => protoId = pr.protoId) = [] :=
        List.takeWhile_cons_of_neg (by simpa using hproto)
      rw [if_pos hproto, htake]
      rfl

theorem searchLoop_iff (found : Saproto → Bool) (l : List Saproto) :
    searchLoop found protoId l = true ↔ ∃ before pr after, l = before ++ pr :: after ∧
      (∀ q ∈ before, q.protoId = protoId) ∧ pr.protoId = protoId ∧ found pr = true := by
  induction l with
  | nil => simp [searchLoop]
  | cons pr rest ih =>
    unfold searchLoop
    split_ifs with hproto hfound
    · constructor
      · intro h
        cases h
      · rintro ⟨before, q, after, hl, hbefore, hq, -⟩
        cases before with
        | nil =>
          cases hl
          exact absurd hq.symm hproto
        | cons b before =>
          cases hl
          exact absurd (hbefore pr List.mem_cons_self).symm hproto
    · have hproto' : pr.protoId = protoId := (not_not.mp hproto).symm
      exact ⟨fun _ => ⟨[], pr, rest, rfl, by simp, hproto', hfound⟩, fun _ => rfl⟩
    · rw [ih]
      have hproto' : pr.protoId = protoId := (not_not.mp hproto).symm
      constructor
      · rintro ⟨before, q, after, hl, hbefore, hq⟩
        refine ⟨pr :: before, q, after, congrArg (pr :: ·) hl, ?_, hq⟩
        intro p hp
        cases List.mem_cons.mp hp with
        | inl heq => exact heq ▸ hproto'
        | inr hin => exact hbefore p hin
      · rintro ⟨before, q, after, hl, hbefore, hq⟩
        cases before with
        | nil =>
          cases hl
          exact absurd hq.2 hfound
        | cons b before =>
          cases hl
          exact ⟨before, q, after, rfl, fun p hp => hbefore p (List.mem_cons_of_mem _ hp), hq⟩

theorem carries_iff : carries protoId spi iph2.toPh2handle = true ↔ Leading protoId spi iph2 := by
  unfold carries Leading protos
  cases happroval : iph2.approval with
  | some approval =>
    dsimp only
    rw [← searchLoop_eq, searchLoop_iff]
    simp
  | none =>
    cases hproposal : iph2.proposal with
    | some proposal =>
      dsimp only
      rw [← searchLoop_eq, searchLoop_iff]
      simp
    | none => simp

theorem getph2bysaidx_eq : getph2bysaidx src dst protoId spi ph2tree =
    ph2tree.find? fun p => carries protoId spi p.toPh2handle := by
  induction ph2tree with
  | nil => rfl
  | cons p rest ih =>
    unfold getph2bysaidx
    rw [List.find?_cons]
    cases happroval : p.approval with
    | some approval =>
      have hcarries : carries protoId spi p.toPh2handle =
          searchLoop (fun pr => spi = pr.spi || spi = pr.spiP) protoId approval.head := by
        unfold carries
        rw [happroval, searchLoop_eq]
      rw [hcarries]
      dsimp only
      rw [ih]
      cases searchLoop (fun pr => spi = pr.spi || spi = pr.spiP) protoId approval.head <;> rfl
    | none =>
      cases hproposal : p.proposal with
      | some proposal =>
        have hcarries : carries protoId spi p.toPh2handle =
            searchLoop (fun pr => spi = pr.spi) protoId proposal.head := by
          unfold carries
          rw [happroval, hproposal, searchLoop_eq]
        rw [hcarries]
        dsimp only
        rw [ih]
        cases searchLoop (fun pr => spi = pr.spi) protoId proposal.head <;> rfl
      | none =>
        have hcarries : carries protoId spi p.toPh2handle = false := by
          unfold carries
          rw [happroval, hproposal]
        rw [hcarries]
        exact ih

theorem getph2bysaidx_handles {s : Handles.State}
    (h : s.ph2tree = ph2tree.map Ph2handle.toPh2handle) : Handles.getph2bysaidx s protoId spi =
      (getph2bysaidx src dst protoId spi ph2tree).map Ph2handle.toPh2handle := by
  unfold Handles.getph2bysaidx
  rw [h, getph2bysaidx_eq, List.find?_map]
  rfl

theorem getph2bysaidx_some_iff : getph2bysaidx src dst protoId spi ph2tree = some iph2 ↔
    ∃ before after, ph2tree = before ++ iph2 :: after ∧
      (∀ p ∈ before, ¬ Leading protoId spi p) ∧ Leading protoId spi iph2 := by
  rw [getph2bysaidx_eq, List.find?_eq_some_iff_append, carries_iff]
  constructor
  · rintro ⟨hleading, before, after, htree, hbefore⟩
    refine ⟨before, after, htree, fun p hp hlead => ?_, hleading⟩
    have hnot := hbefore p hp
    rw [carries_iff.mpr hlead] at hnot
    cases hnot
  · rintro ⟨before, after, htree, hbefore, hleading⟩
    refine ⟨hleading, before, after, htree, fun p hp => ?_⟩
    rw [Bool.not_eq_true', Bool.eq_false_iff]
    exact fun hcarries => hbefore p hp (carries_iff.mp hcarries)

theorem getph2bysaidx_none_iff : getph2bysaidx src dst protoId spi ph2tree = none ↔
    ∀ p ∈ ph2tree, ¬ Leading protoId spi p := by
  rw [getph2bysaidx_eq, List.find?_eq_none]
  constructor
  · exact fun h p hp hleading => h p hp (carries_iff.mpr hleading)
  · exact fun h p hp hcarries => h p hp (carries_iff.mp hcarries)

/-- The lookup answers rightly when the first handle with the SPI among its leading
    protocols has the association, and not all handles that have it keep it behind
    another protocol. -/
theorem getph2bysaidx_iff (src dst : Sockaddr) (protoId : ℤ) (spi : Buf)
    (ph2tree : List Ph2handle) :
    Answers src dst protoId spi ph2tree (getph2bysaidx src dst protoId spi ph2tree) ↔
      (∀ before iph2 after, ph2tree = before ++ iph2 :: after →
        (∀ p ∈ before, ¬ Leading protoId spi p) → Leading protoId spi iph2 →
          HasSa src dst protoId spi iph2) ∧
      ((∃ iph2 ∈ ph2tree, HasSa src dst protoId spi iph2) →
        ∃ iph2 ∈ ph2tree, Leading protoId spi iph2) := by
  constructor
  · intro h
    constructor
    · intro before iph2 after htree hbefore hleading
      have hfound : getph2bysaidx src dst protoId spi ph2tree = some iph2 :=
        getph2bysaidx_some_iff.mpr ⟨before, after, htree, hbefore, hleading⟩
      exact (h.1 iph2 hfound).2
    · rintro ⟨iph2, hmem, hhas⟩
      by_contra hnone
      have hnone' : ∀ p ∈ ph2tree, ¬ Leading protoId spi p := by
        intro p hp hleading
        exact hnone ⟨p, hp, hleading⟩
      exact h.2 (getph2bysaidx_none_iff.mpr hnone') iph2 hmem hhas
  · rintro ⟨hfirst, hvisible⟩
    constructor
    · intro iph2 hfound
      obtain ⟨before, after, htree, hbefore, hleading⟩ := getph2bysaidx_some_iff.mp hfound
      refine ⟨?_, hfirst before iph2 after htree hbefore hleading⟩
      rw [htree]
      exact List.mem_append_right _ List.mem_cons_self
    · intro hnone iph2 hmem hhas
      obtain ⟨p, hp, hleading⟩ := hvisible ⟨iph2, hmem, hhas⟩
      exact getph2bysaidx_none_iff.mp hnone p hp hleading

/-! ### Two peers with one SPI, and a bundle -/

def saproto (protoId : ℤ) (spi spiP : UInt8) : Saproto :=
  { protoId := protoId
    spisize := 4
    encmode := Proposal.IPSECDOI_ATTR_ENC_MODE_TUNNEL
    udpEncap := false
    spi := [0, 0, 0, spi]
    spiP := [0, 0, 0, spiP]
    reqidOut := 0
    reqidIn := 0
    head := [] }

def established (addr : ℕ) (peer : Sockaddr) (head : List Saproto) : Ph2handle :=
  { addr := addr
    ph1 := some 1
    status := Handles.PHASE2ST_ESTABLISHED
    src := .inet 1 0
    dst := peer
    proposal := none
    approval := some
      { propNo := 1, lifetime := 28800, lifebyte := 0, pfsGroup := 0, claim := 0, head := head }
    saSrc := none
    saDst := none }

/-- The peers 2 and 3 both take SPI 9 for ESP. -/
def twoPeers : List Ph2handle :=
  [established 1 (.inet 2 0) [saproto 3 1 9], established 2 (.inet 3 0) [saproto 3 2 9]]

/-- AH, and ESP behind it. -/
def bundle : List Ph2handle := [established 1 (.inet 2 0) [saproto 2 1 8, saproto 3 2 9]]

/-- The association to peer 3 leads to the handle of peer 2, and that from peer 2 under
    ESP to none. -/
theorem getph2bysaidx_wrong :
    ¬ Answers (.inet 1 0) (.inet 3 0) 3 [0, 0, 0, 9] twoPeers
      (getph2bysaidx (.inet 1 0) (.inet 3 0) 3 [0, 0, 0, 9] twoPeers) ∧
    ¬ Answers (.inet 2 0) (.inet 1 0) 3 [0, 0, 0, 2] bundle
      (getph2bysaidx (.inet 2 0) (.inet 1 0) 3 [0, 0, 0, 2] bundle) := by
  constructor
  · intro h
    have hhas := (h.1 (established 1 (.inet 2 0) [saproto 3 1 9]) rfl).2
    obtain ⟨pr, -, -, hinbound | houtbound⟩ := hhas
    · exact absurd hinbound.2.1 (by unfold SameAddr; decide)
    · exact absurd houtbound.2.2.2 (by unfold SameAddr; decide)
  · intro h
    apply h.2 rfl _ List.mem_cons_self
    refine ⟨saproto 3 2 9, List.mem_cons_of_mem _ List.mem_cons_self, rfl, Or.inl ⟨rfl, ?_, ?_⟩⟩
    · exact Or.inl rfl
    · exact Or.inl rfl

end WanStack.Racoon.SaIndex
