import WanStack.Racoon.Informational

set_option autoImplicit false

/-!
# What the hash of an informational message covers

The hash is computed over the payload behind it; the loop goes over all of
them, with a handle that one of them may remove.
-/
namespace WanStack.Racoon.Handles
open Aftr (Buf byteAt shortAt)
open Proposal (IsakmpParse isakmpParsewoh parseLoop longAt memcpy GEN_LEN ISAKMP_NPTYPE_NONE
  IPSEC_DOI IPSECDOI_PROTO_ISAKMP)

variable {env : Env} {addr : ℕ} {iph1 : Ph1handle} {enc : Bool} {s : State} {msg0 msg : Buf}
  {error : ℤ} {pbuf : List IsakmpParse}

/-! ### The payloads found -/

theorem shortAt_drop (b : Buf) (n i : ℕ) : shortAt (b.drop n) i = shortAt b (n + i) := by
  simp [shortAt, byteAt, List.getD_eq_getElem?_getD, Nat.add_assoc]

/-- What the walker does with the first payload. -/
theorem parseLoop_cons {k np : ℕ} {gen : Buf} {tlen : ℤ} {pa : IsakmpParse}
    (h : parseLoop k np gen tlen = some (pa :: pbuf)) :
    pa.type = np ∧ pa.ptr = gen ∧ pa.len = shortAt gen 2 ∧ GEN_LEN ≤ pa.len ∧ pa.len ≤ tlen ∧
      ∃ k', parseLoop k' (byteAt gen 0).toNat (gen.drop pa.len) (tlen - pa.len) = some pbuf := by
  cases k with
  | zero => cases h
  | succ k =>
    rw [parseLoop] at h
    dsimp only at h
    split_ifs at h with hend hshort hplen
    · cases h
    · obtain ⟨rest, hrest, heq⟩ := Option.map_eq_some_iff.mp h
      obtain ⟨rfl, rfl⟩ := List.cons.inj heq
      refine ⟨rfl, rfl, rfl, ?_, ?_, k, hrest⟩
      · exact Nat.le_of_not_lt fun hlt => hplen (.inl hlt)
      · exact Int.not_lt.mp fun hlt => hplen (.inr hlt)

theorem parseLoop_nil {k np : ℕ} {gen : Buf} {tlen : ℤ} (hk : 0 < k)
    (h : parseLoop k np gen tlen = some []) : tlen ≤ 0 ∨ np = ISAKMP_NPTYPE_NONE := by
  obtain ⟨k, rfl⟩ : ∃ k', k = k' + 1 := ⟨k - 1, by omega⟩
  rw [parseLoop] at h
  dsimp only at h
  split_ifs at h with hend hshort hplen
  · exact hend.imp_left Int.not_lt.mp
  · obtain ⟨rest, -, heq⟩ := Option.map_eq_some_iff.mp h
    cases heq

/-- Every payload starts at or behind the first, and is not empty. -/
theorem parseLoop_bounds {k np : ℕ} {gen : Buf} {tlen : ℤ}
    (h : parseLoop k np gen tlen = some pbuf) :
    ∀ pa ∈ pbuf, pa.ptr.length ≤ gen.length ∧ GEN_LEN ≤ pa.len := by
  induction pbuf generalizing k np gen tlen with
  | nil => exact fun pa hpa => absurd hpa List.not_mem_nil
  | cons pa pbuf ih =>
    obtain ⟨-, hptr, -, hlen, -, k', hrest⟩ := parseLoop_cons h
    intro q hq
    rcases List.mem_cons.mp hq with rfl | hq
    · exact ⟨Nat.le_of_eq (congrArg List.length hptr), hlen⟩
    · have hbound := ih hrest q hq
      rw [List.length_drop] at hbound
      exact ⟨by omega, hbound.2⟩

/-! ### The calls of a loop -/

/-- Whether a payload is passed to a handler. -/
def Handled (pa : IsakmpParse) : Prop := pa.type = ISAKMP_NPTYPE_N ∨ pa.type = ISAKMP_NPTYPE_D

theorem Handled.not_skipped {pa : IsakmpParse} (h : Handled pa) :
    ¬(pa.type = ISAKMP_NPTYPE_HASH ∨ pa.type = ISAKMP_NPTYPE_NONCE) := by
  rcases h with h | h <;> rw [h] <;> decide

theorem dispatch_unhandled {pa : IsakmpParse} (h : ¬Handled pa) :
    ∃ error', dispatch env addr enc error (pa :: pbuf) s = dispatch env addr enc error' pbuf s := by
  rw [dispatch]
  by_cases hskip : pa.type = ISAKMP_NPTYPE_HASH ∨ pa.type = ISAKMP_NPTYPE_NONCE
  · exact ⟨error, if_pos hskip⟩
  · refine ⟨0, ?_⟩
    rw [if_neg hskip]
    exact if_neg h

theorem dispatch_dead {pa : IsakmpParse} (h : Handled pa) (hdead : s.ph1 addr = none) :
    (dispatch env addr enc error (pa :: pbuf) s).calls = [{ pa := pa, live := false }] := by
  rw [dispatch, if_neg h.not_skipped,
    if_pos (show pa.type = ISAKMP_NPTYPE_N ∨ pa.type = ISAKMP_NPTYPE_D from h), hdead]

/-- The value and the state that the handler of a payload leaves. -/
def handle (env : Env) (iph1 : Ph1handle) (enc : Bool) (pa : IsakmpParse) (s : State) : ℤ × State :=
  if pa.type = ISAKMP_NPTYPE_N then isakmpInfoRecvN env iph1 pa.ptr enc s
  else (0, isakmpInfoRecvD env iph1 pa.ptr enc s)

theorem dispatch_live {pa : IsakmpParse} (h : Handled pa) (hlive : s.ph1 addr = some iph1) :
    (dispatch env addr enc error (pa :: pbuf) s).calls =
      { pa := pa, live := true } ::
        if (handle env iph1 enc pa s).1 < 0 then []
        else (dispatch env addr enc (handle env iph1 enc pa s).1 pbuf
          (handle env iph1 enc pa s).2).calls := by
  rw [dispatch, if_neg h.not_skipped,
    if_pos (show pa.type = ISAKMP_NPTYPE_N ∨ pa.type = ISAKMP_NPTYPE_D from h), hlive]
  simp only
  rw [← handle]
  split_ifs <;> rfl

theorem dispatch_calls_mem : ∀ c ∈ (dispatch env addr enc error pbuf s).calls,
    c.pa ∈ pbuf ∧ Handled c.pa := by
  induction pbuf generalizing error s with
  | nil => exact fun c hc => absurd hc List.not_mem_nil
  | cons pa pbuf ih =>
    intro c hc
    by_cases hpa : Handled pa
    · cases hlive : s.ph1 addr with
      | none =>
        rw [dispatch_dead hpa hlive] at hc
        rw [List.mem_singleton.mp hc]
        exact ⟨List.mem_cons_self, hpa⟩
      | some iph1 =>
        rw [dispatch_live hpa hlive] at hc
        rcases List.mem_cons.mp hc with rfl | hc
        · exact ⟨List.mem_cons_self, hpa⟩
        · split_ifs at hc
          · cases hc
          · exact (ih c hc).imp_left (List.mem_cons_of_mem _)
    · obtain ⟨error', h⟩ := @dispatch_unhandled env addr enc s error pbuf pa hpa
      rw [h] at hc
      exact (ih c hc).imp_left (List.mem_cons_of_mem _)

/-- A loop makes no call only where there is nothing to handle. -/
theorem dispatch_calls_eq_nil :
    (dispatch env addr enc error pbuf s).calls = [] ↔ ∀ pa ∈ pbuf, ¬Handled pa := by
  induction pbuf generalizing error s with
  | nil => exact ⟨fun _ pa hpa => absurd hpa List.not_mem_nil, fun _ => rfl⟩
  | cons pa pbuf ih =>
    by_cases hpa : Handled pa
    · constructor
      · intro h
        cases hlive : s.ph1 addr with
        | none =>
          rw [dispatch_dead hpa hlive] at h
          cases h
        | some iph1 =>
          rw [dispatch_live hpa hlive] at h
          cases h
      · exact fun h => absurd hpa (h pa List.mem_cons_self)
    · obtain ⟨error', h⟩ := @dispatch_unhandled env addr enc s error pbuf pa hpa
      rw [h, ih, List.forall_mem_cons]
      exact ⟨fun hrest => ⟨hpa, hrest⟩, And.right⟩

/-! ### The message -/

/-- The offset of a payload in the message. -/
def offset (msg : Buf) (pa : IsakmpParse) : ℕ := msg.length - pa.ptr.length

/-- Whether a payload lies in the bytes the hash is computed over. -/
def Covered (msg : Buf) (pa : IsakmpParse) : Prop :=
  ISAKMP_LEN + genLen msg ≤ offset msg pa ∧
    offset msg pa + pa.len ≤ ISAKMP_LEN + genLen msg + ndLen msg

/-- Whether the loop ends at the payload behind the hash: its answer cannot be sent. -/
def EndsLoop (env : Env) (pa : IsakmpParse) : Prop :=
  pa.type = ISAKMP_NPTYPE_N ∧ notifyType pa.ptr = ISAKMP_NTYPE_R_U_THERE ∧ env.sendError < 0

/-- Only an answer that cannot be sent is an error. -/
theorem handle_neg_iff (pa : IsakmpParse) :
    (handle env iph1 true pa s).1 < 0 ↔ EndsLoop env pa := by
  by_cases hn : pa.type = ISAKMP_NPTYPE_N
  · rw [handle, if_pos hn, isakmpInfoRecvN, EndsLoop]
    by_cases hru : notifyType pa.ptr = ISAKMP_NTYPE_R_U_THERE
    · have hic : ¬(notifyType pa.ptr = ISAKMP_NTYPE_INITIAL_CONTACT ∧ true = true) := by
        rw [hru]
        decide
      rw [if_neg hic, if_pos ⟨hru, rfl⟩]
      exact ⟨fun h => ⟨hn, hru, h⟩, fun h => h.2.2⟩
    · refine ⟨fun h => ?_, fun h => absurd h.2.1 hru⟩
      rw [if_neg (fun hc : _ ∧ true = true => hru hc.1)] at h
      split_ifs at h <;> exact absurd h (Int.lt_irrefl 0)
  · rw [handle, if_neg hn]
    exact ⟨fun h => absurd h (Int.lt_irrefl 0), fun h => absurd h.1 hn⟩

/-- The loop reaches nothing to handle behind the second payload. -/
def OnlyHashed (env : Env) (pbuf : List IsakmpParse) : Prop :=
  (∀ pa ∈ pbuf.drop 2, ¬Handled pa) ∨ ∃ pa, pbuf[1]? = some pa ∧ EndsLoop env pa

/-- The payloads of an accepted message: the hash, the payload it is computed over,
    and others behind that. -/
theorem accepted_payloads (hacc : acceptedText env iph1 msg0 = some msg)
    (hparse : isakmpParse msg = some pbuf) :
    ∃ hash rest, pbuf = hash :: rest ∧ ¬Handled hash ∧
      ∀ pa tail, rest = pa :: tail → Covered msg pa ∧ ∀ q ∈ tail, ¬Covered msg q := by
  have hok : hashValidated env iph1 msg = true := by
    unfold acceptedText at hacc
    split_ifs at hacc
    obtain ⟨-, hfilter⟩ := Option.filter_eq_some_iff.mp hacc
    exact (Bool.and_eq_true_iff.mp hfilter).2
  simp only [hashValidated, Bool.and_eq_true, decide_eq_true_eq] at hok
  obtain ⟨⟨⟨⟨⟨hnp, -⟩, hlen⟩, hnd⟩, -⟩, -⟩ := hok
  have hgen : GEN_LEN = 4 := rfl
  unfold isakmpParse isakmpParsewoh at hparse
  cases pbuf with
  | nil =>
    rcases parseLoop_nil (by omega) hparse with h | h
    · omega
    · rw [hnp] at h
      exact absurd h (by decide)
  | cons hash rest =>
    obtain ⟨htype, -, hhash, -, -, k', hrest⟩ := parseLoop_cons hparse
    have hlen1 : hash.len = genLen msg := by
      rw [hhash, shortAt_drop, genLen]
    refine ⟨hash, rest, rfl, ?_, ?_⟩
    · rw [Handled, htype, hnp]
      decide
    · rintro pa tail rfl
      obtain ⟨-, hptr, hplen, -, -, k'', htail⟩ := parseLoop_cons hrest
      rw [List.drop_drop, hlen1] at hptr hrest
      have hndlen : (nd msg).length = msg.length - (ISAKMP_LEN + genLen msg) := List.length_drop
      have hpalen : pa.len = ndLen msg := by rw [hplen, List.drop_drop, hlen1, ndLen, nd]
      constructor
      · rw [Covered, offset, hptr, show (msg.drop (ISAKMP_LEN + genLen msg)).length = _ from hndlen,
          hpalen]
        omega
      · intro q hq hcov
        have hbound := parseLoop_bounds htail q hq
        rw [List.drop_drop, List.length_drop, List.length_drop, hlen1, hpalen] at hbound
        rw [Covered, offset] at hcov
        omega

/-- In an accepted message every Notification and Deletion payload handled is
    covered by its hash, and the handle given to the handler is live, exactly when
    the loop reaches nothing to handle behind the second payload. -/
theorem calls_authenticated_iff (hlive : s.ph1 iph1.addr = some iph1) (henc : encrypted msg0)
    (hacc : acceptedText env iph1 msg0 = some msg) (hparse : isakmpParse msg = some pbuf) :
    (∀ c ∈ (isakmpInfoRecv env iph1 msg0 s).calls, Covered msg c.pa ∧ c.live) ↔
      OnlyHashed env pbuf := by
  obtain ⟨hash, rest, rfl, hhash, hcov⟩ := accepted_payloads hacc hparse
  have hrun : isakmpInfoRecv env iph1 msg0 s = dispatch env iph1.addr true 0 (hash :: rest) s := by
    simp only [isakmpInfoRecv, henc, hacc, hparse]
    rfl
  obtain ⟨error, hskip⟩ := @dispatch_unhandled env iph1.addr true s 0 rest hash hhash
  rw [hrun, hskip]
  cases rest with
  | nil => exact ⟨fun _ => .inl fun pa hpa => absurd hpa List.not_mem_nil,
      fun _ c hc => absurd hc List.not_mem_nil⟩
  | cons pa tail =>
    obtain ⟨hpa, htail⟩ := hcov pa tail rfl
    -- a call made for the tail is not covered
    have hnone : ∀ error s, (∀ c ∈ (dispatch env iph1.addr true error tail s).calls,
        Covered msg c.pa ∧ c.live) ↔ ∀ q ∈ tail, ¬Handled q := by
      intro error s
      rw [← @dispatch_calls_eq_nil env iph1.addr true s error tail, List.eq_nil_iff_forall_not_mem]
      exact ⟨fun h c hc => htail c.pa (dispatch_calls_mem c hc).1 (h c hc).1,
        fun h c hc => absurd hc (h c)⟩
    by_cases hh : Handled pa
    · rw [dispatch_live hh hlive, List.forall_mem_cons]
      split_ifs with herr
      · refine ⟨fun _ => .inr ⟨pa, rfl, ?_⟩, fun _ => ⟨⟨hpa, rfl⟩, fun c hc => absurd hc
          List.not_mem_nil⟩⟩
        exact (handle_neg_iff pa).mp herr
      · rw [hnone]
        refine ⟨fun h => .inl h.2, fun h => ⟨⟨hpa, rfl⟩, ?_⟩⟩
        rcases h with h | ⟨q, hq, hend⟩
        · exact h
        · obtain rfl : pa = q := Option.some.inj hq
          exact absurd ((handle_neg_iff pa).mpr hend) herr
    · obtain ⟨error', h⟩ := @dispatch_unhandled env iph1.addr true s error tail pa hh
      rw [h, hnone]
      refine ⟨.inl, fun h => ?_⟩
      rcases h with h | ⟨q, hq, hend⟩
      · exact h
      · obtain rfl : pa = q := Option.some.inj hq
        exact absurd (.inl hend.1) hh

/-! ### A message that deletes its own handle -/

instance (msg : Buf) (pa : IsakmpParse) : Decidable (Covered msg pa) :=
  inferInstanceAs (Decidable (_ ∧ _))

/-- An established handle of a gateway. -/
def gateway : Ph1handle :=
  { addr := 1
    index := List.replicate 8 1 ++ List.replicate 8 2
    status := PHASE1ST_ESTABLISHED
    side := .RESPONDER
    etype := ISAKMP_ETYPE_IDENT
    localAddr := .inet 1 500
    remote := .inet 2 500
    id := []
    idP := []
    ivm := true
    rmconf := some { rekey := .FORCE, dpdInterval := 0, weakPhase1Check := false }
    unity := false
    dpdSupport := false
    dpdFails := 0
    dpdLastAck := 0
    dpdSeq := 0 }

def gatewayState : State :=
  { ph1tree := [gateway]
    ph2tree := []
    sadb := { entries := [], distinct := List.nodup_nil }
    sent := []
    ph1Distinct := by decide
    ph2Distinct := by decide }

/-- Messages as they come, with a hash of sixteen bytes. -/
def plainEnv : Env :=
  { decrypt := some
    computeHash1 := fun _ _ => some (List.replicate 16 7)
    dump := true
    fLocal := false
    sendError := 0
    stack := fun _ => [] }

def infoHeader : Buf :=
  gateway.index ++ [8, 0x10, 5, 1, 0, 0, 0, 9] ++ short 0 ++ short 88

def hashPayload : Buf := [12, 0] ++ short 20 ++ List.replicate 16 7

/-- A Deletion payload for the handle itself, with `np` behind it. -/
def ownDelete (np : UInt8) : Buf :=
  [np, 0] ++ short 28 ++ [0, 0, 0, 1, 1, 16, 0, 1] ++ gateway.index

def initialContact : Buf := [0, 0] ++ short 12 ++ [0, 0, 0, 1, 1, 0, 0x60, 0x02]

theorem ownDelete_only :
    acceptedText plainEnv gateway (infoHeader ++ hashPayload ++ ownDelete 0) =
      some (infoHeader ++ hashPayload ++ ownDelete 0) ∧
    ∀ c ∈ (isakmpInfoRecv plainEnv gateway
      (infoHeader ++ hashPayload ++ ownDelete 0) gatewayState).calls,
      Covered (infoHeader ++ hashPayload ++ ownDelete 0) c.pa ∧ c.live := by
  have hparse : isakmpParse (infoHeader ++ hashPayload ++ ownDelete 0) =
      some [⟨8, hashPayload ++ ownDelete 0, 20⟩, ⟨12, ownDelete 0, 28⟩] := by decide +kernel
  refine ⟨by decide +kernel, ?_⟩
  exact (calls_authenticated_iff (by decide +kernel) (by decide +kernel) (by decide +kernel)
    hparse).mpr (.inl fun pa hpa => absurd hpa List.not_mem_nil)

theorem notify_after_delete :
    acceptedText plainEnv gateway (infoHeader ++ hashPayload ++ ownDelete 11 ++ initialContact) =
      some (infoHeader ++ hashPayload ++ ownDelete 11 ++ initialContact) ∧
    (∃ c ∈ (isakmpInfoRecv plainEnv gateway
      (infoHeader ++ hashPayload ++ ownDelete 11 ++ initialContact) gatewayState).calls,
      ¬Covered (infoHeader ++ hashPayload ++ ownDelete 11 ++ initialContact) c.pa ∧ ¬c.live) := by
  decide +kernel

end WanStack.Racoon.Handles
