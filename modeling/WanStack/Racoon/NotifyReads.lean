import WanStack.Lib.Tried
import WanStack.Lib.Walk
import WanStack.Racoon.AttrWalk
import WanStack.Racoon.QuickAuth

set_option autoImplicit false

/-!
# What is read of notifications and deletes

The handlers of both payloads, every read tried against the length that the parser found
for the payload. The structures read are longer than the header that the parser asks for.
Memory for answers and texts suffices.
-/
namespace WanStack.Racoon.NotifyReads
open Aftr (Buf byteAt shortAt)
open Tried (Result Inside read touch inside_touch_bind inside_pure inside_bind inside_read inside_read_bind inside_stop
  read_bind_through_iff bind_through_iff read_through_iff not_inside_unfinished)
open Proposal (IsakmpParse parseLoop isakmpParsewoh memcpy longAt GEN_LEN DATA_LEN IPSEC_DOI
  IPSECDOI_PROTO_ISAKMP IPSECDOI_PROTO_IPSEC_AH IPSECDOI_PROTO_IPSEC_ESP IPSECDOI_PROTO_IPCOMP
  IPSECDOI_ATTR_SA_LD_TYPE IPSECDOI_ATTR_SA_LD_TYPE_SEC IPSECDOI_ATTR_SA_LD_TYPE_KB IPSECDOI_ATTR_SA_LD)
open Handles (Env State notifyType ruICk ruRCk ruData delProtoId delSpiSize delNumSpi delSpi
  delIpcompSpi ipcompSpis getph1byindex ph1RekeyEnabled purgeRemote isakmpPh1expire purgeable
  ipsecdoi2pfkeyProto PHASE1ST_EXPIRED PL_D_LEN INDEX_LEN COOKIE_LEN ISAKMP_NTYPE_INITIAL_CONTACT
  ISAKMP_NTYPE_R_U_THERE ISAKMP_NTYPE_R_U_THERE_ACK isakmpInfoRecvInitialcontact)
open Quick (PL_N_LEN Effects Exchange ISAKMP_NTYPE_CONNECTED ISAKMP_NTYPE_RESPONDER_LIFETIME
  ISAKMP_NTYPE_INVALID_PAYLOAD_TYPE)

/-- A field of a payload, the `n` bytes at `i`. -/
def field {α : Type} (pa : IsakmpParse) (i n : ℕ) (v : Buf → α) : Result α := read pa.len i n (v pa.ptr)

/-! ### Notifications -/

def spiSize (notify : Buf) : ℕ := (byteAt notify 9).toNat

/-- The data behind the SPI is logged, as a text or in hex. -/
def isakmpLogNotify (notify : IsakmpParse) : Result ℤ := do
  let _ ← field notify 10 2 notifyType
  let len ← field notify 2 2 fun p => shortAt p 2
  let spiSize ← field notify 9 1 spiSize
  if len < PL_N_LEN + spiSize then return -1
  else if len - PL_N_LEN - spiSize = 0 then return 0
  else read notify.len (PL_N_LEN + spiSize) (len - PL_N_LEN - spiSize) 0

def isakmpInfoRecvRU (env : Env) (iph1 : Handles.Ph1handle) (ru : IsakmpParse) (s : State) : Result (ℤ × State) := do
  let iCk ← field ru 12 COOKIE_LEN ruICk
  let rCk ← field ru 20 COOKIE_LEN ruRCk
  let data ← field ru 28 4 ruData
  return (env.sendError, { s with sent := s.sent ++ [.rUThereAck iph1.addr iCk rCk data] })

def isakmpInfoRecvRUAck (iph1 : Handles.Ph1handle) (ru : IsakmpParse) (s : State) : Result State := do
  let seq ← field ru 28 4 fun p => longAt p 28
  if seq ≤ iph1.dpdLastAck ∨ iph1.dpdSeq < seq then return s
  else do
    let iCk ← field ru 12 COOKIE_LEN ruICk
    let rCk ← field ru 20 COOKIE_LEN ruRCk
    if iCk ++ rCk ≠ iph1.index ∧ rCk ++ iCk ≠ iph1.index then return s
    else return s.setPh1 iph1.addr (fun p => { p with dpdFails := 0, dpdLastAck := seq }) fun _ => rfl

def isakmpInfoRecvN (env : Env) (iph1 : Handles.Ph1handle) (notify : IsakmpParse) (enc : Bool) (s : State) :
    Result (ℤ × State) := do
  let type ← field notify 10 2 notifyType
  if type = ISAKMP_NTYPE_INITIAL_CONTACT ∧ enc then
    return (0, if env.fLocal then s else isakmpInfoRecvInitialcontact env.dump iph1 none s)
  else if type = ISAKMP_NTYPE_R_U_THERE ∧ enc then isakmpInfoRecvRU env iph1 notify s
  else if type = ISAKMP_NTYPE_R_U_THERE_ACK ∧ enc then do
    let s ← isakmpInfoRecvRUAck iph1 notify s
    return (0, s)
  else do
    let _ ← isakmpLogNotify notify
    return (0, s)

/-! ### Deletes -/

/-- Whether `purge_ipsec_spi` comes to an association that it compares the SPIs with. -/
def compares (env : Env) (iph1 : Handles.Ph1handle) (protoId : ℤ) (s : State) : Bool :=
  env.dump && (ipsecdoi2pfkeyProto protoId).any fun satype =>
    s.sadb.entries.any (purgeable iph1.remote satype)

/-- `purge_ipsec_spi` for the `n` SPIs at `i`. The first is logged whatever their number is. -/
def purgeIpsecSpi (env : Env) (debug2 : Bool) (iph1 : Handles.Ph1handle) (protoId : ℤ) (len i n : ℕ)
    (spis : List Buf) (s : State) : Result State := do
  let _ ← touch debug2 len i 4
  let _ ← touch (compares env iph1 protoId s) len i (4 * n)
  return Handles.purgeIpsecSpi env.dump iph1.remote protoId spis s

/-- The index is compared with the ones of the handles that are not expired. -/
def getph1byindexAt (d : IsakmpParse) (s : State) : Result (Option Handles.Ph1handle) :=
  if s.ph1tree.any fun p => p.status < PHASE1ST_EXPIRED then
    field d PL_D_LEN INDEX_LEN fun p => getph1byindex s (memcpy (p.drop PL_D_LEN) INDEX_LEN)
  else return none

def deleteIsakmp (env : Env) (d : IsakmpParse) (s : State) : Result State := do
  let found ← getph1byindexAt d s
  match found with
  | none => return s
  | some delPh1 =>
    if ph1RekeyEnabled delPh1 then return purgeRemote env.dump delPh1 s
    else return isakmpPh1expire delPh1 s

/-- The SPI of IPComp is copied to a variable of four bytes, and the list is read from there. -/
def deleteIpcomp (env : Env) (debug2 : Bool) (iph1 : Handles.Ph1handle) (d : IsakmpParse) (numSpi : ℕ) (s : State) :
    Result State := do
  let size ← field d 9 1 delSpiSize
  if size = 2 ∨ size = 4 then do
    let spi ← field d PL_D_LEN size delIpcompSpi
    purgeIpsecSpi env debug2 iph1 IPSECDOI_PROTO_IPCOMP 4 0 numSpi (ipcompSpis env (spi.getD []) numSpi) s
  else return s

def deleteIpsec (env : Env) (debug2 : Bool) (iph1 : Handles.Ph1handle) (d : IsakmpParse) (numSpi : ℕ) (s : State) :
    Result State := do
  let size ← field d 9 1 delSpiSize
  if size = 4 then
    purgeIpsecSpi env debug2 iph1 (delProtoId d.ptr) d.len PL_D_LEN numSpi
      ((List.range numSpi).map (delSpi d.ptr)) s
  else return s

def deleteSpis (env : Env) (debug2 : Bool) (iph1 : Handles.Ph1handle) (d : IsakmpParse) (numSpi : ℕ) (s : State) :
    Result State := do
  let protoId ← field d 8 1 delProtoId
  if protoId = IPSECDOI_PROTO_ISAKMP then do
    let size ← field d 9 1 delSpiSize
    if size = INDEX_LEN then deleteIsakmp env d s else return s
  else if protoId = IPSECDOI_PROTO_IPSEC_AH ∨ protoId = IPSECDOI_PROTO_IPSEC_ESP then
    deleteIpsec env debug2 iph1 d numSpi s
  else if protoId = IPSECDOI_PROTO_IPCOMP then deleteIpcomp env debug2 iph1 d numSpi s
  else return s

/-- Whether the delete is not encrypted and such ones are not taken. -/
def ignored (iph1 : Handles.Ph1handle) (enc : Bool) : Bool := !(iph1.rmconf.any Handles.RmConf.weakPhase1Check) && !enc

/-- `debug2` is whether the messages of the lowest level are logged. -/
def isakmpInfoRecvD (env : Env) (debug2 : Bool) (iph1 : Handles.Ph1handle) (d : IsakmpParse) (enc : Bool) (s : State) :
    Result State := do
  let doi ← field d 4 4 fun p => longAt p 4
  if doi ≠ IPSEC_DOI ∧ (!iph1.unity ∨ doi ≠ 0) then return s
  else do
    let numSpi ← field d 10 2 delNumSpi
    let len ← field d 2 2 fun p => shortAt p 2
    let size ← field d 9 1 delSpiSize
    if (len : ℤ) - PL_D_LEN ≠ numSpi * size then return s
    else if ignored iph1 enc then return s
    else deleteSpis env debug2 iph1 d numSpi s

/-! ### Notifications in quick mode -/

/-- A `struct isakmp_data`, the flag apart from the type. -/
structure IsakmpData where
  type : ℕ
  flag : Bool
  lorv : ℕ
deriving DecidableEq, Repr

def isakmpData (d : Buf) : IsakmpData :=
  { type := shortAt d 0 % 32768
    flag := 32768 ≤ shortAt d 0
    lorv := shortAt d 2 }

/-- How far the pointer is moved on, and how much of a lifetime is read. -/
def IsakmpData.size (a : IsakmpData) : ℕ := if a.flag then DATA_LEN else DATA_LEN + a.lorv
def IsakmpData.value (a : IsakmpData) : ℕ := if a.flag then 0 else a.lorv

/-- The loop of `ipsecdoi_parse_responder_lifetime`. A length below zero counts as a large one. -/
def lifetimeLoop (notify : IsakmpParse) : ℕ → ℕ → ℤ → Option ℕ → ℕ × ℕ → Result (ℕ × ℕ)
  | 0, _, _, _, _ => .unfinished
  | k + 1, off, tlen, ldType, (secs, kb) =>
    if 0 ≤ tlen ∧ tlen < DATA_LEN then return (secs, kb)
    else do
      let a ← field notify off DATA_LEN fun p => isakmpData (p.drop off)
      let next := lifetimeLoop notify k (off + a.size) (tlen - a.size)
      if a.type = IPSECDOI_ATTR_SA_LD_TYPE then
        if !a.flag then return (secs, kb) else next (some a.lorv) (secs, kb)
      else if a.type = IPSECDOI_ATTR_SA_LD then
        if !a.flag ∧ a.lorv ≠ 2 ∧ a.lorv ≠ 4 then return (secs, kb)
        else do
          let value ← field notify (off + DATA_LEN) a.value fun p =>
            if a.flag then a.lorv
            else if a.lorv = 2 then shortAt (p.drop off) DATA_LEN else longAt (p.drop off) DATA_LEN
          if ldType = some IPSECDOI_ATTR_SA_LD_TYPE_SEC then next ldType (value, kb)
          else if ldType = some IPSECDOI_ATTR_SA_LD_TYPE_KB then next ldType (secs, value)
          else return (secs, kb)
      else next ldType (secs, kb)

def ipsecdoiParseResponderLifetime (notify : IsakmpParse) (lifetimes : ℕ × ℕ) : Result (ℕ × ℕ) := do
  let len ← field notify 2 2 fun p => shortAt p 2
  let spiSize ← field notify 9 1 spiSize
  lifetimeLoop notify notify.len (PL_N_LEN + spiSize) (len - PL_N_LEN - spiSize) none lifetimes

/-- The check of the lifetime that is announced. -/
def checkLifetime (env : Quick.Env) (q : Exchange) (lifetimes : ℕ × ℕ) : ℕ × ℕ :=
  match env.pcheckLevel.getD .EXACT with
  | .OBEY => lifetimes
  | .STRICT | .CLAIM =>
    (if q.sainfoLifetime.all fun l => l ≤ (lifetimes.1 : ℤ) then 0 else lifetimes.1, lifetimes.2)
  | .EXACT => (if q.sainfoLifetime.all fun l => l ≠ (lifetimes.1 : ℤ) then 0 else lifetimes.1, lifetimes.2)

def ph2RecvN (env : Quick.Env) (q : Exchange) (notify : IsakmpParse) (e : Effects) : Result Effects := do
  let type ← field notify 10 2 notifyType
  if type = ISAKMP_NTYPE_CONNECTED then return e
  else if type = ISAKMP_NTYPE_INITIAL_CONTACT then
    return if env.fLocal then e
      else { e with state := isakmpInfoRecvInitialcontact env.dump env.iph1 (some q.addr) e.state }
  else if type = ISAKMP_NTYPE_RESPONDER_LIFETIME then do
    let lifetimes ← ipsecdoiParseResponderLifetime notify (e.secs, e.kb)
    let checked := checkLifetime env q lifetimes
    return { e with
      secs := checked.1
      kb := checked.2 }
  else do
    let _ ← isakmpLogNotify notify
    return { e with state := Quick.isakmpInfoSendN2 q ISAKMP_NTYPE_INVALID_PAYLOAD_TYPE e.state }

/-! ### The handlers as they are modelled without the tries -/

section
variable {env : Env} {debug2 : Bool} {iph1 : Handles.Ph1handle} {pa : IsakmpParse} {enc : Bool} {s s' : State}

theorem isakmpInfoRecvRU_through {r : ℤ × State} (h : isakmpInfoRecvRU env iph1 pa s = .through r) :
    Handles.isakmpInfoRecvRU env iph1 pa.ptr s = r := by
  obtain ⟨-, h⟩ := read_bind_through_iff.mp h
  obtain ⟨-, h⟩ := read_bind_through_iff.mp h
  obtain ⟨-, h⟩ := read_bind_through_iff.mp h
  exact Result.through.inj h

theorem isakmpInfoRecvRUAck_through (h : isakmpInfoRecvRUAck iph1 pa s = .through s') :
    Handles.isakmpInfoRecvRUAck iph1 pa.ptr s = s' := by
  obtain ⟨-, h⟩ := read_bind_through_iff.mp h
  unfold Handles.isakmpInfoRecvRUAck
  dsimp only at h ⊢
  split at h
  · rename_i hseq
    rw [if_pos hseq]
    exact Result.through.inj h
  · rename_i hseq
    rw [if_neg hseq]
    obtain ⟨-, h⟩ := read_bind_through_iff.mp h
    obtain ⟨-, h⟩ := read_bind_through_iff.mp h
    split at h
    · rename_i hck
      rw [if_pos hck]
      exact Result.through.inj h
    · rename_i hck
      rw [if_neg hck]
      exact Result.through.inj h

theorem isakmpInfoRecvN_through {r : ℤ × State} (h : isakmpInfoRecvN env iph1 pa enc s = .through r) :
    Handles.isakmpInfoRecvN env iph1 pa.ptr enc s = r := by
  obtain ⟨-, h⟩ := read_bind_through_iff.mp h
  unfold Handles.isakmpInfoRecvN
  dsimp only at h ⊢
  split at h
  · rename_i hcontact
    rw [if_pos hcontact]
    exact Result.through.inj h
  · rename_i hcontact
    rw [if_neg hcontact]
    split at h
    · rename_i hru
      rw [if_pos hru]
      exact isakmpInfoRecvRU_through h
    · rename_i hru
      rw [if_neg hru]
      split at h
      · rename_i hack
        rw [if_pos hack]
        obtain ⟨s', hs', h⟩ := bind_through_iff.mp h
        rw [isakmpInfoRecvRUAck_through hs']
        exact Result.through.inj h
      · rename_i hack
        rw [if_neg hack]
        obtain ⟨-, -, h⟩ := bind_through_iff.mp h
        exact Result.through.inj h

theorem purgeIpsecSpi_through {protoId : ℤ} {len i n : ℕ} {spis : List Buf}
    (h : purgeIpsecSpi env debug2 iph1 protoId len i n spis s = .through s') :
    Handles.purgeIpsecSpi env.dump iph1.remote protoId spis s = s' := by
  obtain ⟨-, -, h⟩ := bind_through_iff.mp h
  obtain ⟨-, -, h⟩ := bind_through_iff.mp h
  exact Result.through.inj h

theorem deleteIsakmp_through (h : deleteIsakmp env pa s = .through s') :
    Handles.deleteIsakmp env (memcpy (pa.ptr.drop PL_D_LEN) INDEX_LEN) s = s' := by
  obtain ⟨found, hfound, h⟩ := bind_through_iff.mp h
  have hsame : getph1byindex s (memcpy (pa.ptr.drop PL_D_LEN) INDEX_LEN) = found := by
    unfold getph1byindexAt at hfound
    split at hfound
    · exact (read_through_iff.mp hfound).2
    · rename_i hnone
      rw [← Result.through.inj hfound]
      apply List.find?_eq_none.mpr
      intro p hp hsome
      apply hnone
      apply List.any_eq_true.mpr
      refine ⟨p, hp, ?_⟩
      simp only [decide_eq_true_eq] at hsome ⊢
      omega
  unfold Handles.deleteIsakmp
  rw [hsame]
  cases found with
  | none => exact Result.through.inj h
  | some delPh1 =>
    dsimp only at h ⊢
    split at h
    · rename_i hrekey
      rw [if_pos hrekey]
      exact Result.through.inj h
    · rename_i hrekey
      rw [if_neg hrekey]
      exact Result.through.inj h

theorem deleteIpsec_through {n : ℕ} (h : deleteIpsec env debug2 iph1 pa n s = .through s') :
    (if delSpiSize pa.ptr ≠ 4 then s
      else Handles.purgeIpsecSpi env.dump iph1.remote (delProtoId pa.ptr)
        ((List.range n).map (delSpi pa.ptr)) s) = s' := by
  obtain ⟨-, h⟩ := read_bind_through_iff.mp h
  split at h
  · rename_i hsize
    rw [if_neg (not_not_intro hsize)]
    exact purgeIpsecSpi_through h
  · rename_i hsize
    rw [if_pos hsize]
    exact Result.through.inj h

theorem deleteIpcomp_through {n : ℕ} (h : deleteIpcomp env debug2 iph1 pa n s = .through s') :
    (match delIpcompSpi pa.ptr with
      | none => s
      | some spi => Handles.purgeIpsecSpi env.dump iph1.remote IPSECDOI_PROTO_IPCOMP
        (ipcompSpis env spi n) s) = s' := by
  obtain ⟨-, h⟩ := read_bind_through_iff.mp h
  unfold delIpcompSpi
  split at h
  · rename_i hsize
    obtain ⟨-, h⟩ := read_bind_through_iff.mp h
    have hpurged := purgeIpsecSpi_through h
    unfold delIpcompSpi at hpurged
    cases hsize with
    | inl htwo =>
      rw [if_pos htwo] at hpurged ⊢
      exact hpurged
    | inr hfour =>
      rw [if_neg (by omega), if_pos hfour] at hpurged ⊢
      exact hpurged
  · rename_i hsize
    rw [if_neg fun htwo => hsize (Or.inl htwo), if_neg fun hfour => hsize (Or.inr hfour)]
    exact Result.through.inj h

theorem isakmpInfoRecvD_through (h : isakmpInfoRecvD env debug2 iph1 pa enc s = .through s') :
    Handles.isakmpInfoRecvD env iph1 pa.ptr enc s = s' := by
  obtain ⟨-, h⟩ := read_bind_through_iff.mp h
  unfold Handles.isakmpInfoRecvD
  dsimp only at h ⊢
  split at h
  · rename_i hdoi
    rw [if_pos hdoi]
    exact Result.through.inj h
  rename_i hdoi
  rw [if_neg hdoi]
  obtain ⟨-, h⟩ := read_bind_through_iff.mp h
  obtain ⟨-, h⟩ := read_bind_through_iff.mp h
  obtain ⟨-, h⟩ := read_bind_through_iff.mp h
  split at h
  · rename_i hlen
    rw [if_pos hlen]
    exact Result.through.inj h
  rename_i hlen
  rw [if_neg hlen]
  unfold ignored at h
  split at h
  · rename_i hignored
    rw [if_pos hignored]
    exact Result.through.inj h
  rename_i hignored
  rw [if_neg hignored]
  obtain ⟨-, h⟩ := read_bind_through_iff.mp h
  split at h
  · rename_i hisakmp
    rw [if_pos hisakmp]
    obtain ⟨-, h⟩ := read_bind_through_iff.mp h
    split at h
    · rename_i hsize
      rw [if_neg (not_not_intro hsize)]
      exact deleteIsakmp_through h
    · rename_i hsize
      rw [if_pos hsize]
      exact Result.through.inj h
  rename_i hisakmp
  rw [if_neg hisakmp]
  split at h
  · rename_i hipsec
    rw [if_pos hipsec]
    exact deleteIpsec_through h
  rename_i hipsec
  rw [if_neg hipsec]
  split at h
  · rename_i hipcomp
    rw [if_pos hipcomp, hipcomp]
    exact deleteIpcomp_through h
  · rename_i hipcomp
    rw [if_neg hipcomp]
    exact Result.through.inj h

theorem quickLoop_eq (k : ℕ) (d : Buf) (tlen : ℤ) (ldType : Option ℕ) (secs kb : ℕ) :
    Quick.lifetimeLoop (k + 1) d tlen ldType (secs, kb) =
      if 0 ≤ tlen ∧ tlen < DATA_LEN then (secs, kb)
      else
        let a := isakmpData d
        let next := Quick.lifetimeLoop k (d.drop a.size) (tlen - a.size)
        if a.type = IPSECDOI_ATTR_SA_LD_TYPE then
          if !a.flag then (secs, kb) else next (some a.lorv) (secs, kb)
        else if a.type = IPSECDOI_ATTR_SA_LD then
          if !a.flag ∧ a.lorv ≠ 2 ∧ a.lorv ≠ 4 then (secs, kb)
          else
            let value := if a.flag then a.lorv
              else if a.lorv = 2 then shortAt d DATA_LEN else longAt d DATA_LEN
            if ldType = some IPSECDOI_ATTR_SA_LD_TYPE_SEC then next ldType (value, kb)
            else if ldType = some IPSECDOI_ATTR_SA_LD_TYPE_KB then next ldType (secs, value)
            else (secs, kb)
        else next ldType (secs, kb) := rfl

theorem lifetimeLoop_through {k k' off : ℕ} {tlen : ℤ} {ldType : Option ℕ} {l r : ℕ × ℕ} (hk : k ≤ k')
    (h : lifetimeLoop pa k off tlen ldType l = .through r) :
    Quick.lifetimeLoop k' (pa.ptr.drop off) tlen ldType l = r := by
  induction k generalizing k' off tlen ldType l with
  | zero => cases h
  | succ k ih =>
    obtain ⟨j, rfl⟩ : ∃ j, k' = j + 1 := ⟨k' - 1, by omega⟩
    obtain ⟨secs, kb⟩ := l
    have hnext : ∀ {n : ℕ} {t : Option ℕ} {l' : ℕ × ℕ},
        lifetimeLoop pa k (off + n) (tlen - n) t l' = .through r →
          Quick.lifetimeLoop j ((pa.ptr.drop off).drop n) (tlen - n) t l' = r := by
      intro n t l' hthrough
      rw [List.drop_drop]
      exact ih (by omega) hthrough
    rw [quickLoop_eq]
    unfold lifetimeLoop at h
    by_cases hend : 0 ≤ tlen ∧ tlen < DATA_LEN
    · rw [if_pos hend] at h ⊢
      exact Result.through.inj h
    rw [if_neg hend] at h ⊢
    obtain ⟨-, h⟩ := read_bind_through_iff.mp h
    dsimp only at h ⊢
    by_cases htype : (isakmpData (pa.ptr.drop off)).type = IPSECDOI_ATTR_SA_LD_TYPE
    · rw [if_pos htype] at h ⊢
      by_cases hflag : (!(isakmpData (pa.ptr.drop off)).flag) = true
      · rw [if_pos hflag] at h ⊢
        exact Result.through.inj h
      · rw [if_neg hflag] at h ⊢
        exact hnext h
    rw [if_neg htype] at h ⊢
    by_cases hld : (isakmpData (pa.ptr.drop off)).type = IPSECDOI_ATTR_SA_LD
    · rw [if_pos hld] at h ⊢
      by_cases hform : (!(isakmpData (pa.ptr.drop off)).flag) = true ∧
          (isakmpData (pa.ptr.drop off)).lorv ≠ 2 ∧ (isakmpData (pa.ptr.drop off)).lorv ≠ 4
      · rw [if_pos hform] at h ⊢
        exact Result.through.inj h
      rw [if_neg hform] at h ⊢
      obtain ⟨-, h⟩ := read_bind_through_iff.mp h
      by_cases hsec : ldType = some IPSECDOI_ATTR_SA_LD_TYPE_SEC
      · rw [if_pos hsec] at h ⊢
        exact hnext h
      rw [if_neg hsec] at h ⊢
      by_cases hkb : ldType = some IPSECDOI_ATTR_SA_LD_TYPE_KB
      · rw [if_pos hkb] at h ⊢
        exact hnext h
      · rw [if_neg hkb] at h ⊢
        exact Result.through.inj h
    · rw [if_neg hld] at h ⊢
      exact hnext h

theorem ipsecdoiParseResponderLifetime_through {l r : ℕ × ℕ} (hlen : pa.len ≤ pa.ptr.length)
    (h : ipsecdoiParseResponderLifetime pa l = .through r) :
    Quick.ipsecdoiParseResponderLifetime pa.ptr l = r := by
  obtain ⟨-, h⟩ := read_bind_through_iff.mp h
  obtain ⟨-, h⟩ := read_bind_through_iff.mp h
  exact lifetimeLoop_through hlen h

theorem checkLifetime_eq {env : Quick.Env} {q : Exchange} {l r : ℕ × ℕ} (n : Buf)
    (h : Quick.ipsecdoiParseResponderLifetime n l = r) :
    Quick.responderLifetime env q n l = checkLifetime env q r := by
  subst h
  unfold Quick.responderLifetime checkLifetime
  cases env.pcheckLevel.getD .EXACT <;> rfl

theorem ph2RecvN_through {env : Quick.Env} {q : Exchange} {e e' : Effects} (hlen : pa.len ≤ pa.ptr.length)
    (h : ph2RecvN env q pa e = .through e') : Quick.ph2RecvN env q pa.ptr e = e' := by
  obtain ⟨-, h⟩ := read_bind_through_iff.mp h
  unfold Quick.ph2RecvN
  dsimp only at h ⊢
  split at h
  · rename_i hconnected
    rw [if_pos hconnected]
    exact Result.through.inj h
  rename_i hconnected
  rw [if_neg hconnected]
  split at h
  · rename_i hcontact
    rw [if_pos hcontact]
    exact Result.through.inj h
  rename_i hcontact
  rw [if_neg hcontact]
  split at h
  · rename_i hlifetime
    rw [if_pos hlifetime]
    obtain ⟨l, hl, h⟩ := bind_through_iff.mp h
    rw [checkLifetime_eq pa.ptr (ipsecdoiParseResponderLifetime_through hlen hl)]
    exact Result.through.inj h
  · rename_i hlifetime
    rw [if_neg hlifetime]
    obtain ⟨-, -, h⟩ := bind_through_iff.mp h
    exact Result.through.inj h

end

/-! ### Which payloads are read inside -/

def PL_RU_LEN : ℕ := 32

/-- A notification that is taken for one of dead peer detection. -/
def ForDpd (enc : Bool) (notify : Buf) : Prop :=
  enc = true ∧ (notifyType notify = ISAKMP_NTYPE_R_U_THERE ∨ notifyType notify = ISAKMP_NTYPE_R_U_THERE_ACK)

/-- A delete of a domain that is looked at. -/
def DoiTaken (iph1 : Handles.Ph1handle) (d : Buf) : Prop :=
  longAt d 4 = IPSEC_DOI ∨ iph1.unity = true ∧ longAt d 4 = 0

/-- The SPIs are those that the length has room for, and they are looked at. -/
def SpisTaken (iph1 : Handles.Ph1handle) (enc : Bool) (d : Buf) : Prop :=
  shortAt d 2 = PL_D_LEN + delNumSpi d * delSpiSize d ∧ ignored iph1 enc = false

/-- There are as many SPIs as are read: one cookie pair if a handle is looked for, the first
    SPI if it is logged, and of IPComp one, and not a second if there is an association. -/
structure SpisThere (env : Env) (debug2 : Bool) (iph1 : Handles.Ph1handle) (d : Buf) (s : State) : Prop where
  isakmp : delProtoId d = IPSECDOI_PROTO_ISAKMP → delSpiSize d = INDEX_LEN →
    (∃ p ∈ s.ph1tree, p.status < PHASE1ST_EXPIRED) → delNumSpi d ≠ 0
  ipsec : (delProtoId d = IPSECDOI_PROTO_IPSEC_AH ∨ delProtoId d = IPSECDOI_PROTO_IPSEC_ESP) →
    delSpiSize d = 4 → debug2 = true → delNumSpi d ≠ 0
  ipcomp : delProtoId d = IPSECDOI_PROTO_IPCOMP → delSpiSize d = 2 ∨ delSpiSize d = 4 →
    delNumSpi d ≠ 0 ∧ (compares env iph1 IPSECDOI_PROTO_IPCOMP s = true → delNumSpi d = 1)

/-- The attributes of a notification, each with all that follows it. -/
def piece (d : Buf) : Option ℕ := if d.length < DATA_LEN then none else some (isakmpData d).size

def pieces (d : Buf) : List Buf := (Lib.Walk.walk piece d).getD []

def area (pa : IsakmpParse) : Buf := (memcpy pa.ptr pa.len).drop (PL_N_LEN + spiSize pa.ptr)

/-- An attribute that is longer than what is left. -/
def Cut (d : Buf) : Prop := DATA_LEN ≤ d.length ∧ d.length < (isakmpData d).size

/-- An attribute that the walk ends with for its form. -/
def Malformed (a : IsakmpData) : Prop :=
  a.flag = false ∧ (a.type = IPSECDOI_ATTR_SA_LD_TYPE ∨
    a.type = IPSECDOI_ATTR_SA_LD ∧ a.lorv ≠ 2 ∧ a.lorv ≠ 4)

/-- A lifetime of no type. -/
def Untyped (ldType : Option ℕ) (a : IsakmpData) : Prop :=
  a.type = IPSECDOI_ATTR_SA_LD ∧ ldType ≠ some IPSECDOI_ATTR_SA_LD_TYPE_SEC ∧
    ldType ≠ some IPSECDOI_ATTR_SA_LD_TYPE_KB

/-- The type of lifetime that the last of the attributes leaves. -/
def ldTypeAfter (ldType : Option ℕ) (ds : List Buf) : Option ℕ :=
  ds.foldl (fun t d => if (isakmpData d).type = IPSECDOI_ATTR_SA_LD_TYPE then some (isakmpData d).lorv else t) ldType

/-- An attribute that is cut is malformed, or the walk has ended in front of it. -/
def CutUnread (ldType : Option ℕ) (ds : List Buf) : Prop :=
  ∀ before d after, ds = before ++ d :: after → Cut d →
    Malformed (isakmpData d) ∨ ∃ front e behind, before = front ++ e :: behind ∧
      (Malformed (isakmpData e) ∨ Untyped (ldTypeAfter ldType front) (isakmpData e))

/-- The SPI and the attributes that are read are there. -/
def LifetimesThere (pa : IsakmpParse) : Prop :=
  PL_N_LEN + spiSize pa.ptr ≤ pa.len ∧ CutUnread none (pieces (area pa))

section
variable {env : Env} {debug2 : Bool} {iph1 : Handles.Ph1handle} {pa : IsakmpParse} {enc : Bool} {s : State}

theorem isakmpLogNotify_inside (h : pa.len = shortAt pa.ptr 2) :
    Inside (isakmpLogNotify pa) ↔ PL_N_LEN ≤ pa.len := by
  have hheader : PL_N_LEN = 12 := rfl
  unfold isakmpLogNotify field
  rw [inside_read_bind, inside_read_bind, inside_read_bind, inside_stop, inside_stop, inside_read]
  dsimp only
  rw [← h]
  constructor
  · intro hin
    omega
  · intro hlen
    refine ⟨by omega, by omega, by omega, ?_⟩
    intro hroom _
    omega

theorem isakmpInfoRecvRU_inside : Inside (isakmpInfoRecvRU env iph1 pa s) ↔ PL_RU_LEN ≤ pa.len := by
  have hru : PL_RU_LEN = 32 := rfl
  have hck : COOKIE_LEN = 8 := rfl
  unfold isakmpInfoRecvRU field
  rw [inside_read_bind, inside_read_bind, inside_read_bind]
  constructor
  · intro hin
    omega
  · intro hlen
    exact ⟨by omega, by omega, by omega, inside_pure _⟩

theorem isakmpInfoRecvRUAck_inside : Inside (isakmpInfoRecvRUAck iph1 pa s) ↔ PL_RU_LEN ≤ pa.len := by
  have hru : PL_RU_LEN = 32 := rfl
  have hck : COOKIE_LEN = 8 := rfl
  unfold isakmpInfoRecvRUAck field
  rw [inside_read_bind, inside_stop, inside_read_bind, inside_read_bind, inside_stop]
  constructor
  · intro hin
    omega
  · intro hlen
    refine ⟨by omega, ?_⟩
    intro _
    exact ⟨by omega, by omega, fun _ => inside_pure _⟩

theorem isakmpInfoRecvN_inside (h : pa.len = shortAt pa.ptr 2) :
    Inside (isakmpInfoRecvN env iph1 pa enc s) ↔
      PL_N_LEN ≤ pa.len ∧ (ForDpd enc pa.ptr → PL_RU_LEN ≤ pa.len) := by
  unfold isakmpInfoRecvN field
  rw [inside_read_bind]
  have hcontact : ISAKMP_NTYPE_INITIAL_CONTACT ≠ ISAKMP_NTYPE_R_U_THERE ∧
      ISAKMP_NTYPE_INITIAL_CONTACT ≠ ISAKMP_NTYPE_R_U_THERE_ACK := by decide
  change 12 ≤ pa.len ∧ _ ↔ 12 ≤ pa.len ∧ _
  apply and_congr_right
  intro hlen
  by_cases hinitial : notifyType pa.ptr = ISAKMP_NTYPE_INITIAL_CONTACT ∧ enc = true
  · rw [if_pos hinitial]
    refine iff_of_true (inside_pure _) ?_
    intro hdpd
    cases hdpd.2 with
    | inl hru => exact absurd (hinitial.1.symm.trans hru) hcontact.1
    | inr hack => exact absurd (hinitial.1.symm.trans hack) hcontact.2
  rw [if_neg hinitial]
  by_cases hru : notifyType pa.ptr = ISAKMP_NTYPE_R_U_THERE ∧ enc = true
  · rw [if_pos hru, isakmpInfoRecvRU_inside]
    exact ⟨fun hin _ => hin, fun hin => hin ⟨hru.2, Or.inl hru.1⟩⟩
  rw [if_neg hru]
  by_cases hack : notifyType pa.ptr = ISAKMP_NTYPE_R_U_THERE_ACK ∧ enc = true
  · rw [if_pos hack, inside_bind]
    constructor
    · intro hin _
      obtain ⟨s', hs', -⟩ := hin
      exact isakmpInfoRecvRUAck_inside.mp ⟨s', hs'⟩
    · intro hin
      obtain ⟨s', hs'⟩ := isakmpInfoRecvRUAck_inside.mpr (hin ⟨hack.2, Or.inr hack.1⟩)
      exact ⟨s', hs', inside_pure _⟩
  · rw [if_neg hack, inside_bind]
    have hlog := (isakmpLogNotify_inside h).mpr hlen
    obtain ⟨r, hr⟩ := hlog
    refine iff_of_true ⟨r, hr, inside_pure _⟩ ?_
    intro hdpd
    cases hdpd.2 with
    | inl hru' => exact absurd ⟨hru', hdpd.1⟩ hru
    | inr hack' => exact absurd ⟨hack', hdpd.1⟩ hack

theorem purgeIpsecSpi_inside {protoId : ℤ} {len i n : ℕ} {spis : List Buf} :
    Inside (purgeIpsecSpi env debug2 iph1 protoId len i n spis s) ↔
      (debug2 = true → i + 4 ≤ len) ∧ (compares env iph1 protoId s = true → i + 4 * n ≤ len) := by
  unfold purgeIpsecSpi
  rw [inside_touch_bind, inside_touch_bind]
  constructor
  · intro hin
    exact ⟨hin.1, hin.2.1⟩
  · intro hin
    exact ⟨hin.1, hin.2, inside_pure _⟩

theorem deleteIsakmp_inside : Inside (deleteIsakmp env pa s) ↔
    ((∃ p ∈ s.ph1tree, p.status < PHASE1ST_EXPIRED) → PL_D_LEN + INDEX_LEN ≤ pa.len) := by
  have hafter : ∀ found, Inside (match found with
      | none => pure s
      | some delPh1 => if ph1RekeyEnabled delPh1 then pure (purgeRemote env.dump delPh1 s)
        else pure (isakmpPh1expire delPh1 s) : Result State) := by
    intro found
    cases found with
    | none => exact inside_pure s
    | some delPh1 =>
      dsimp only
      split
      · exact inside_pure _
      · exact inside_pure _
  have hany : (s.ph1tree.any fun p => p.status < PHASE1ST_EXPIRED) = true ↔
      ∃ p ∈ s.ph1tree, p.status < PHASE1ST_EXPIRED := by simp
  unfold deleteIsakmp getph1byindexAt field
  rw [inside_bind, ← hany]
  by_cases hlive : (s.ph1tree.any fun p => p.status < PHASE1ST_EXPIRED) = true
  · rw [if_pos hlive]
    constructor
    · intro hin _
      obtain ⟨found, hfound, -⟩ := hin
      exact (read_through_iff.mp hfound).1
    · intro hin
      exact ⟨_, read_through_iff.mpr ⟨hin hlive, rfl⟩, hafter _⟩
  · rw [if_neg hlive]
    exact iff_of_true ⟨none, rfl, hafter none⟩ fun h => absurd h hlive

theorem deleteIpsec_inside (hlen : pa.len = PL_D_LEN + delNumSpi pa.ptr * delSpiSize pa.ptr) :
    Inside (deleteIpsec env debug2 iph1 pa (delNumSpi pa.ptr) s) ↔
      (delSpiSize pa.ptr = 4 → debug2 = true → delNumSpi pa.ptr ≠ 0) := by
  have htwelve : PL_D_LEN = 12 := rfl
  unfold deleteIpsec field
  rw [inside_read_bind]
  by_cases hsize : delSpiSize pa.ptr = 4
  · rw [if_pos hsize, purgeIpsecSpi_inside]
    rw [hsize] at hlen
    constructor
    · intro hin _ hdebug
      have hroom := hin.2.1 hdebug
      omega
    · intro hin
      refine ⟨by omega, ?_, ?_⟩
      · intro hdebug
        have hnum := hin hsize hdebug
        omega
      · intro _
        omega
  · rw [if_neg hsize]
    exact iff_of_true ⟨by omega, inside_pure s⟩ fun h => absurd h hsize

/-- The variable has room for one. -/
theorem deleteIpcomp_inside (hlen : pa.len = PL_D_LEN + delNumSpi pa.ptr * delSpiSize pa.ptr) :
    Inside (deleteIpcomp env debug2 iph1 pa (delNumSpi pa.ptr) s) ↔
      (delSpiSize pa.ptr = 2 ∨ delSpiSize pa.ptr = 4 →
        delNumSpi pa.ptr ≠ 0 ∧ (compares env iph1 IPSECDOI_PROTO_IPCOMP s = true → delNumSpi pa.ptr = 1)) := by
  have htwelve : PL_D_LEN = 12 := rfl
  unfold deleteIpcomp field
  rw [inside_read_bind]
  by_cases hsize : delSpiSize pa.ptr = 2 ∨ delSpiSize pa.ptr = 4
  · have hroom : PL_D_LEN + delSpiSize pa.ptr ≤ pa.len ↔ delNumSpi pa.ptr ≠ 0 := by
      cases hsize with
      | inl htwo =>
        rw [htwo] at hlen ⊢
        omega
      | inr hfour =>
        rw [hfour] at hlen ⊢
        omega
    rw [if_pos hsize, inside_read_bind, purgeIpsecSpi_inside, hroom]
    constructor
    · intro hin _
      refine ⟨hin.2.1, ?_⟩
      intro hcompares
      have hone := hin.2.2.2 hcompares
      omega
    · intro hin
      obtain ⟨hnum, hone⟩ := hin hsize
      refine ⟨by omega, hnum, by omega, ?_⟩
      intro hcompares
      have hnumOne := hone hcompares
      omega
  · rw [if_neg hsize]
    exact iff_of_true ⟨by omega, inside_pure s⟩ fun h => absurd h hsize

theorem deleteSpis_inside (hlen : pa.len = PL_D_LEN + delNumSpi pa.ptr * delSpiSize pa.ptr) :
    Inside (deleteSpis env debug2 iph1 pa (delNumSpi pa.ptr) s) ↔
      SpisThere env debug2 iph1 pa.ptr s := by
  have htwelve : PL_D_LEN = 12 := rfl
  have hsixteen : INDEX_LEN = 16 := rfl
  have hprotos : IPSECDOI_PROTO_ISAKMP ≠ IPSECDOI_PROTO_IPSEC_AH ∧
      IPSECDOI_PROTO_ISAKMP ≠ IPSECDOI_PROTO_IPSEC_ESP ∧ IPSECDOI_PROTO_ISAKMP ≠ IPSECDOI_PROTO_IPCOMP ∧ IPSECDOI_PROTO_IPSEC_AH ≠ IPSECDOI_PROTO_IPCOMP ∧
      IPSECDOI_PROTO_IPSEC_ESP ≠ IPSECDOI_PROTO_IPCOMP := by decide
  have hhead : 8 + 1 ≤ pa.len := by omega
  unfold deleteSpis field
  rw [inside_read_bind]
  by_cases hisakmp : delProtoId pa.ptr = IPSECDOI_PROTO_ISAKMP
  · rw [if_pos hisakmp, inside_read_bind]
    have hothers : ∀ {n : ℤ}, IPSECDOI_PROTO_ISAKMP ≠ n → delProtoId pa.ptr ≠ n := by
      intro n hne heq
      exact hne (hisakmp.symm.trans heq)
    by_cases hsize : delSpiSize pa.ptr = INDEX_LEN
    · rw [if_pos hsize, deleteIsakmp_inside]
      rw [hsize, hsixteen] at hlen
      constructor
      · intro hin
        constructor
        · intro _ _ hlive
          have hroom := hin.2.2 hlive
          omega
        · intro hproto
          exact absurd hproto (not_or.mpr ⟨hothers hprotos.1, hothers hprotos.2.1⟩)
        · intro hproto
          exact absurd hproto (hothers hprotos.2.2.1)
      · intro hthere
        refine ⟨hhead, by omega, ?_⟩
        intro hlive
        have hnum := hthere.isakmp hisakmp hsize hlive
        omega
    · rw [if_neg hsize]
      refine iff_of_true ⟨hhead, by omega, inside_pure s⟩ ⟨?_, ?_, ?_⟩
      · intro _ hindex
        exact absurd hindex hsize
      · intro hproto
        exact absurd hproto (not_or.mpr ⟨hothers hprotos.1, hothers hprotos.2.1⟩)
      · intro hproto
        exact absurd hproto (hothers hprotos.2.2.1)
  rw [if_neg hisakmp]
  by_cases hipsec : delProtoId pa.ptr = IPSECDOI_PROTO_IPSEC_AH ∨ delProtoId pa.ptr = IPSECDOI_PROTO_IPSEC_ESP
  · rw [if_pos hipsec, deleteIpsec_inside hlen]
    have hnot : delProtoId pa.ptr ≠ IPSECDOI_PROTO_IPCOMP := by
      cases hipsec with
      | inl hah => rw [hah]; exact hprotos.2.2.2.1
      | inr hesp => rw [hesp]; exact hprotos.2.2.2.2
    constructor
    · intro hin
      exact ⟨fun h => absurd h hisakmp, fun _ => hin.2, fun h => absurd h hnot⟩
    · intro hthere
      exact ⟨hhead, hthere.ipsec hipsec⟩
  rw [if_neg hipsec]
  by_cases hipcomp : delProtoId pa.ptr = IPSECDOI_PROTO_IPCOMP
  · rw [if_pos hipcomp, deleteIpcomp_inside hlen]
    constructor
    · intro hin
      exact ⟨fun h => absurd h hisakmp, fun h => absurd h hipsec, fun _ => hin.2⟩
    · intro hthere
      exact ⟨hhead, hthere.ipcomp hipcomp⟩
  · rw [if_neg hipcomp]
    exact iff_of_true ⟨hhead, inside_pure s⟩
      ⟨fun h => absurd h hisakmp, fun h => absurd h hipsec, fun h => absurd h hipcomp⟩

theorem isakmpInfoRecvD_inside (h : pa.len = shortAt pa.ptr 2) :
    Inside (isakmpInfoRecvD env debug2 iph1 pa enc s) ↔
      8 ≤ pa.len ∧ (DoiTaken iph1 pa.ptr → PL_D_LEN ≤ pa.len ∧
        (SpisTaken iph1 enc pa.ptr → SpisThere env debug2 iph1 pa.ptr s)) := by
  have htwelve : PL_D_LEN = 12 := rfl
  have hdoi : ¬(longAt pa.ptr 4 ≠ IPSEC_DOI ∧ ((!iph1.unity) = true ∨ longAt pa.ptr 4 ≠ 0)) ↔
      DoiTaken iph1 pa.ptr := by
    unfold DoiTaken
    cases iph1.unity with
    | false => simp
    | true =>
      simp
      tauto
  have hspis : ¬((shortAt pa.ptr 2 : ℤ) - PL_D_LEN ≠ delNumSpi pa.ptr * delSpiSize pa.ptr) ↔
      shortAt pa.ptr 2 = PL_D_LEN + delNumSpi pa.ptr * delSpiSize pa.ptr := by
    rw [not_not, ← Nat.cast_mul]
    omega
  unfold isakmpInfoRecvD field
  rw [inside_read_bind, inside_stop, hdoi, inside_read_bind, inside_read_bind, inside_read_bind, inside_stop,
    hspis, inside_stop]
  change 8 ≤ pa.len ∧ _ ↔ _
  apply and_congr_right
  intro _
  apply imp_congr_right
  intro _
  constructor
  · intro hin
    refine ⟨by omega, ?_⟩
    intro htaken
    have hlen := h.trans htaken.1
    exact (deleteSpis_inside hlen).mp (hin.2.2.2 htaken.1 (by rw [htaken.2]; exact Bool.false_ne_true))
  · intro hin
    refine ⟨by omega, by omega, by omega, ?_⟩
    intro hlen hignored
    exact (deleteSpis_inside (h.trans hlen)).mpr (hin.2 ⟨hlen, by simpa using hignored⟩)

/-! ### The attributes of a notification -/

theorem cutUnread_nil (ldType : Option ℕ) : CutUnread ldType [] := by
  intro before d after hsplit
  cases before <;> cases hsplit

/-- What the walk asks of the first attribute, and of the others if it goes on to them. -/
theorem cutUnread_cons (ldType : Option ℕ) (d : Buf) (ds : List Buf) :
    CutUnread ldType (d :: ds) ↔ (Cut d → Malformed (isakmpData d)) ∧
      (Malformed (isakmpData d) ∨ Untyped ldType (isakmpData d) ∨ CutUnread (ldTypeAfter ldType [d]) ds) := by
  constructor
  · intro h
    constructor
    · intro hcut
      cases h [] d ds rfl hcut with
      | inl hform => exact hform
      | inr hbefore =>
        obtain ⟨front, e, behind, hsplit, -⟩ := hbefore
        cases front <;> cases hsplit
    · by_cases hform : Malformed (isakmpData d)
      · exact Or.inl hform
      by_cases huntyped : Untyped ldType (isakmpData d)
      · exact Or.inr (Or.inl huntyped)
      refine Or.inr (Or.inr ?_)
      intro before d' after hsplit hcut
      cases h (d :: before) d' after (by rw [hsplit]; rfl) hcut with
      | inl hform' => exact Or.inl hform'
      | inr hbefore =>
        obtain ⟨front, e, behind, hfront, hends⟩ := hbefore
        cases front with
        | nil =>
          obtain rfl : d = e := (List.cons.inj hfront).1
          exact absurd hends (not_or.mpr ⟨hform, huntyped⟩)
        | cons c front =>
          obtain ⟨rfl, hrest⟩ := List.cons.inj hfront
          exact Or.inr ⟨front, e, behind, hrest, hends⟩
  · intro h before d' after hsplit hcut
    cases before with
    | nil =>
      obtain ⟨rfl, -⟩ := List.cons.inj hsplit
      exact Or.inl (h.1 hcut)
    | cons c before =>
      obtain ⟨rfl, hrest⟩ := List.cons.inj hsplit
      cases h.2 with
      | inl hform => exact Or.inr ⟨[], d, before, rfl, Or.inl hform⟩
      | inr hgoes =>
        cases hgoes with
        | inl huntyped => exact Or.inr ⟨[], d, before, rfl, Or.inr huntyped⟩
        | inr hkept =>
          cases hkept before d' after hrest hcut with
          | inl hform' => exact Or.inl hform'
          | inr hbefore =>
            obtain ⟨front, e, behind, hfront, hends⟩ := hbefore
            exact Or.inr ⟨d :: front, e, behind, by rw [hfront]; rfl, hends⟩

theorem size_eq (a : IsakmpData) : a.size = DATA_LEN + a.value := by
  unfold IsakmpData.size IsakmpData.value
  split <;> rfl

theorem size_pos (a : IsakmpData) : DATA_LEN ≤ a.size := by
  unfold IsakmpData.size
  split <;> omega

theorem piece_advances : Lib.Walk.Advances piece := by
  intro d n hn
  unfold piece at hn
  split at hn
  · cases hn
  · have hfour : DATA_LEN = 4 := rfl
    have hsize := size_pos (isakmpData d)
    have heq := Option.some.inj hn
    omega

theorem pieces_short {d : Buf} (h : d.length < DATA_LEN) (ldType : Option ℕ) : CutUnread ldType (pieces d) := by
  unfold pieces
  by_cases hnil : d = []
  · rw [hnil, Lib.Walk.walk_nil]
    exact cutUnread_nil ldType
  · rw [Lib.Walk.walk_stop piece_advances hnil (if_pos h)]
    change CutUnread ldType [d]
    rw [cutUnread_cons]
    exact ⟨fun hcut => absurd hcut.1 (by omega), Or.inr (Or.inr (cutUnread_nil _))⟩

theorem pieces_cons {d : Buf} (h : DATA_LEN ≤ d.length) : pieces d = d :: pieces (d.drop (isakmpData d).size) := by
  have hnil : d ≠ [] := by
    intro heq
    rw [heq] at h
    exact absurd h (by decide)
  obtain ⟨rs, hrs⟩ := Lib.Walk.walk_total piece_advances (d.drop (isakmpData d).size)
  unfold pieces
  rw [Lib.Walk.walk_next piece_advances hnil (if_neg (by omega)), hrs]
  rfl

theorem isakmpData_area {p : Buf} {len off : ℕ} (h : off + DATA_LEN ≤ len) :
    isakmpData ((memcpy p len).drop off) = isakmpData (p.drop off) := by
  have hfour : DATA_LEN = 4 := rfl
  have hshort : ∀ i, i + 2 ≤ DATA_LEN → shortAt ((memcpy p len).drop off) i = shortAt (p.drop off) i := by
    intro i hi
    rw [Handles.shortAt_drop, Handles.shortAt_drop, shortAt, AttrWalk.memcpy_byteAt _ (by omega),
      AttrWalk.memcpy_byteAt _ (by omega)]
    rfl
  unfold isakmpData
  rw [hshort 0 (by omega), hshort 2 (by omega)]

theorem lifetimeLoop_beyond {k off : ℕ} {tlen : ℤ} {ldType : Option ℕ} {l : ℕ × ℕ} (hoff : pa.len < off)
    (htlen : tlen < 0) : ¬Inside (lifetimeLoop pa k off tlen ldType l) := by
  cases k with
  | zero => exact not_inside_unfinished
  | succ k =>
    unfold lifetimeLoop field
    rw [if_neg (by omega), inside_read_bind]
    omega

/-- The walk reads inside as long as no attribute that it looks into is cut. -/
theorem lifetimeLoop_inside {k off : ℕ} {ldType : Option ℕ} {l : ℕ × ℕ} (hoff : off ≤ pa.len)
    (hk : pa.len - off < k) :
    Inside (lifetimeLoop pa k off (pa.len - off) ldType l) ↔
      CutUnread ldType (pieces ((memcpy pa.ptr pa.len).drop off)) := by
  have hfour : DATA_LEN = 4 := rfl
  induction k generalizing off ldType l with
  | zero => exact absurd hk (Nat.not_lt_zero _)
  | succ k ih =>
    have hlen : ((memcpy pa.ptr pa.len).drop off).length = pa.len - off := by
      rw [List.length_drop, Proposal.memcpy_length]
    unfold lifetimeLoop
    by_cases hend : (0 : ℤ) ≤ (pa.len : ℤ) - off ∧ (pa.len : ℤ) - off < DATA_LEN
    · rw [if_pos hend]
      exact iff_of_true (inside_pure _) (pieces_short (by omega) _)
    rw [if_neg hend, pieces_cons (by omega), cutUnread_cons, isakmpData_area (by omega), List.drop_drop]
    unfold field
    rw [inside_read_bind, and_iff_right (by omega)]
    have hsize := size_pos (isakmpData (pa.ptr.drop off))
    have hcut : Cut ((memcpy pa.ptr pa.len).drop off) ↔ pa.len < off + (isakmpData (pa.ptr.drop off)).size := by
      unfold Cut
      rw [isakmpData_area (by omega), hlen]
      omega
    have hnext : ∀ t l', Inside (lifetimeLoop pa k (off + (isakmpData (pa.ptr.drop off)).size)
        ((pa.len : ℤ) - off - (isakmpData (pa.ptr.drop off)).size) t l') ↔
          ¬Cut ((memcpy pa.ptr pa.len).drop off) ∧ CutUnread t
            (pieces ((memcpy pa.ptr pa.len).drop (off + (isakmpData (pa.ptr.drop off)).size))) := by
      intro t l'
      rw [hcut]
      by_cases hbeyond : pa.len < off + (isakmpData (pa.ptr.drop off)).size
      · exact iff_of_false (lifetimeLoop_beyond hbeyond (by omega)) fun h => h.1 hbeyond
      · have hrest := @ih (off + (isakmpData (pa.ptr.drop off)).size) t l' (by omega) (by omega)
        rw [Nat.cast_add, ← sub_sub] at hrest
        exact hrest.trans ⟨fun h => ⟨hbeyond, h⟩, fun h => h.2⟩
    have hafter : ldTypeAfter ldType [(memcpy pa.ptr pa.len).drop off] =
        if (isakmpData (pa.ptr.drop off)).type = IPSECDOI_ATTR_SA_LD_TYPE then
          some (isakmpData (pa.ptr.drop off)).lorv
        else ldType := by
      change (if _ then _ else _) = _
      rw [isakmpData_area (by omega)]
    rw [hafter]
    dsimp only
    -- an attribute that the walk goes on behind has to be there as a whole
    have hgoes : ∀ {t ds}, ¬Malformed (isakmpData (pa.ptr.drop off)) →
        ¬Untyped ldType (isakmpData (pa.ptr.drop off)) →
        ((¬Cut ((memcpy pa.ptr pa.len).drop off) ∧ CutUnread t ds) ↔
          (Cut ((memcpy pa.ptr pa.len).drop off) → Malformed (isakmpData (pa.ptr.drop off))) ∧
            (Malformed (isakmpData (pa.ptr.drop off)) ∨ Untyped ldType (isakmpData (pa.ptr.drop off)) ∨
              CutUnread t ds)) := by
      intro t ds hform htyped
      constructor
      · intro h
        exact ⟨fun hc => absurd hc h.1, Or.inr (Or.inr h.2)⟩
      · intro h
        exact ⟨fun hc => hform (h.1 hc), (h.2.resolve_left hform).resolve_left htyped⟩
    by_cases htype : (isakmpData (pa.ptr.drop off)).type = IPSECDOI_ATTR_SA_LD_TYPE
    · rw [if_pos htype, if_pos htype]
      have hne : IPSECDOI_ATTR_SA_LD_TYPE ≠ IPSECDOI_ATTR_SA_LD := by decide
      by_cases hflag : (isakmpData (pa.ptr.drop off)).flag = true
      · rw [if_neg (by simp [hflag]), hnext]
        apply hgoes
        · intro hform
          exact absurd hflag (by simp [hform.1])
        · intro huntyped
          exact hne (htype.symm.trans huntyped.1)
      · rw [if_pos (by simpa using hflag)]
        have hform : Malformed (isakmpData (pa.ptr.drop off)) := ⟨by simpa using hflag, Or.inl htype⟩
        exact iff_of_true (inside_pure _) ⟨fun _ => hform, Or.inl hform⟩
    rw [if_neg htype, if_neg htype]
    by_cases hld : (isakmpData (pa.ptr.drop off)).type = IPSECDOI_ATTR_SA_LD
    · rw [if_pos hld]
      by_cases hlong : (!(isakmpData (pa.ptr.drop off)).flag) = true ∧
          (isakmpData (pa.ptr.drop off)).lorv ≠ 2 ∧ (isakmpData (pa.ptr.drop off)).lorv ≠ 4
      · rw [if_pos hlong]
        have hform : Malformed (isakmpData (pa.ptr.drop off)) :=
          ⟨by simpa using hlong.1, Or.inr ⟨hld, hlong.2⟩⟩
        exact iff_of_true (inside_pure _) ⟨fun _ => hform, Or.inl hform⟩
      rw [if_neg hlong, inside_read_bind]
      have hform : ¬Malformed (isakmpData (pa.ptr.drop off)) := by
        intro h
        cases h.2 with
        | inl hty => exact htype hty
        | inr hrest => exact hlong ⟨by simp [h.1], hrest.2⟩
      have hvalue : off + DATA_LEN + (isakmpData (pa.ptr.drop off)).value ≤ pa.len ↔
          ¬Cut ((memcpy pa.ptr pa.len).drop off) := by
        rw [hcut, size_eq]
        omega
      rw [hvalue]
      by_cases hsec : ldType = some IPSECDOI_ATTR_SA_LD_TYPE_SEC
      · rw [if_pos hsec, hnext, and_self_left]
        exact hgoes hform fun huntyped => huntyped.2.1 hsec
      rw [if_neg hsec]
      by_cases hkb : ldType = some IPSECDOI_ATTR_SA_LD_TYPE_KB
      · rw [if_pos hkb, hnext, and_self_left]
        exact hgoes hform fun huntyped => huntyped.2.2 hkb
      · rw [if_neg hkb]
        constructor
        · intro h
          exact ⟨fun hc => absurd hc h.1, Or.inr (Or.inl ⟨hld, hsec, hkb⟩)⟩
        · intro h
          exact ⟨fun hc => hform (h.1 hc), inside_pure _⟩
    · rw [if_neg hld, hnext]
      apply hgoes
      · intro h
        cases h.2 with
        | inl hty => exact htype hty
        | inr hrest => exact hld hrest.1
      · intro huntyped
        exact hld huntyped.1

theorem ipsecdoiParseResponderLifetime_inside {l : ℕ × ℕ} (h : pa.len = shortAt pa.ptr 2) :
    Inside (ipsecdoiParseResponderLifetime pa l) ↔ LifetimesThere pa := by
  have hheader : PL_N_LEN = 12 := rfl
  unfold ipsecdoiParseResponderLifetime field LifetimesThere
  rw [inside_read_bind, inside_read_bind]
  dsimp only
  rw [← h]
  by_cases hspi : PL_N_LEN + spiSize pa.ptr ≤ pa.len
  · have hloop := @lifetimeLoop_inside pa pa.len (PL_N_LEN + spiSize pa.ptr) none l hspi (by omega)
    rw [Nat.cast_add, ← sub_sub] at hloop
    constructor
    · intro hin
      exact ⟨hspi, hloop.mp hin.2.2⟩
    · intro hthere
      exact ⟨by omega, by omega, hloop.mpr hthere.2⟩
  · constructor
    · intro hin
      exact absurd hin.2.2 (lifetimeLoop_beyond (by omega) (by omega))
    · intro hthere
      exact absurd hthere.1 hspi

theorem ph2RecvN_inside {qenv : Quick.Env} {q : Exchange} {e : Effects} (h : pa.len = shortAt pa.ptr 2) :
    Inside (ph2RecvN qenv q pa e) ↔ PL_N_LEN ≤ pa.len ∧
      (notifyType pa.ptr = ISAKMP_NTYPE_RESPONDER_LIFETIME → LifetimesThere pa) := by
  have hlifetime : ISAKMP_NTYPE_CONNECTED ≠ ISAKMP_NTYPE_RESPONDER_LIFETIME ∧
      ISAKMP_NTYPE_INITIAL_CONTACT ≠ ISAKMP_NTYPE_RESPONDER_LIFETIME := by decide
  unfold ph2RecvN field
  rw [inside_read_bind]
  change 12 ≤ pa.len ∧ _ ↔ 12 ≤ pa.len ∧ _
  apply and_congr_right
  intro hlen
  by_cases hconnected : notifyType pa.ptr = ISAKMP_NTYPE_CONNECTED
  · rw [if_pos hconnected]
    exact iff_of_true (inside_pure e) fun hty => absurd (hconnected.symm.trans hty) hlifetime.1
  rw [if_neg hconnected]
  by_cases hcontact : notifyType pa.ptr = ISAKMP_NTYPE_INITIAL_CONTACT
  · rw [if_pos hcontact]
    exact iff_of_true (inside_pure _) fun hty => absurd (hcontact.symm.trans hty) hlifetime.2
  rw [if_neg hcontact]
  by_cases hty : notifyType pa.ptr = ISAKMP_NTYPE_RESPONDER_LIFETIME
  · rw [if_pos hty, inside_bind]
    constructor
    · intro hin _
      obtain ⟨l, hl, -⟩ := hin
      exact (ipsecdoiParseResponderLifetime_inside h).mp ⟨l, hl⟩
    · intro hin
      obtain ⟨l, hl⟩ := (ipsecdoiParseResponderLifetime_inside h).mpr (hin hty)
      exact ⟨l, hl, inside_pure _⟩
  · rw [if_neg hty, inside_bind]
    obtain ⟨r, hr⟩ := (isakmpLogNotify_inside h).mpr hlen
    exact iff_of_true ⟨r, hr, inside_pure _⟩ fun heq => absurd heq hty

end

/-- Each handler reads inside and returns for the payloads that have what it looks at. -/
theorem payloads_read_inside (np0 : ℕ) (gen : Buf) (len : ℤ) (pbuf : List IsakmpParse) (pa : IsakmpParse)
    (h : isakmpParsewoh np0 gen len = some pbuf) (hpa : pa ∈ pbuf) (env : Env) (debug2 : Bool)
    (iph1 : Handles.Ph1handle) (enc : Bool) (s : State) (qenv : Quick.Env) (q : Exchange) (e : Effects)
    (l : ℕ × ℕ) :
    (Inside (isakmpLogNotify pa) ↔ PL_N_LEN ≤ pa.len) ∧
      (Inside (isakmpInfoRecvN env iph1 pa enc s) ↔
        PL_N_LEN ≤ pa.len ∧ (ForDpd enc pa.ptr → PL_RU_LEN ≤ pa.len)) ∧
      (Inside (isakmpInfoRecvD env debug2 iph1 pa enc s) ↔
        8 ≤ pa.len ∧ (DoiTaken iph1 pa.ptr → PL_D_LEN ≤ pa.len ∧
          (SpisTaken iph1 enc pa.ptr → SpisThere env debug2 iph1 pa.ptr s))) ∧
      (Inside (ph2RecvN qenv q pa e) ↔ PL_N_LEN ≤ pa.len ∧
        (notifyType pa.ptr = ISAKMP_NTYPE_RESPONDER_LIFETIME → LifetimesThere pa)) ∧
      (Inside (ipsecdoiParseResponderLifetime pa l) ↔ LifetimesThere pa) := by
  have hlen := (AttrWalk.found_len h pa hpa).1
  exact ⟨isakmpLogNotify_inside hlen, isakmpInfoRecvN_inside hlen, isakmpInfoRecvD_inside hlen,
    ph2RecvN_inside hlen, ipsecdoiParseResponderLifetime_inside hlen⟩

/-- The delete of the gateway's own index. -/
def gatewayDelete : IsakmpParse := { type := 12, ptr := Handles.ownDelete 0, len := 28 }

theorem gatewayDelete_inside :
    Inside (isakmpInfoRecvD Handles.plainEnv true Handles.gateway gatewayDelete true Handles.gatewayState) := by
  apply (payloads_read_inside 12 (Handles.ownDelete 0) 28 [gatewayDelete] gatewayDelete (by decide +kernel)
    List.mem_cons_self Handles.plainEnv true Handles.gateway true Handles.gatewayState Quick.responderEnv
    Quick.responder { secs := 0, kb := 0, state := Handles.gatewayState } (0, 0)).2.2.1.mpr
  refine ⟨by decide, ?_⟩
  intro _
  refine ⟨by decide, ?_⟩
  intro _
  constructor
  · intro _ _ _
    decide
  · intro hproto
    exact absurd hproto (by decide)
  · intro hproto
    exact absurd hproto (by decide)

/-- A notification without a type, a delete of cookies without any, and an attribute of a
    hundred bytes at the end of a notification. -/
def shortNotify : IsakmpParse := { type := 11, ptr := [0, 0, 0, 5, 0], len := 5 }
def emptyDelete : IsakmpParse := { type := 12, ptr := [0, 0, 0, 12, 0, 0, 0, 1, 1, 16, 0, 0], len := 12 }
def cutNotify : IsakmpParse :=
  { type := 11, ptr := [0, 0, 0, 16, 0, 0, 0, 1, 3, 0, 96, 0, 0, 9, 0, 100], len := 16 }

theorem payload_read_outside :
    isakmpParsewoh 11 shortNotify.ptr 5 = some [shortNotify] ∧ ¬Inside (isakmpLogNotify shortNotify) ∧
      isakmpParsewoh 12 emptyDelete.ptr 12 = some [emptyDelete] ∧
      ¬Inside (isakmpInfoRecvD Handles.plainEnv false Handles.gateway emptyDelete true Handles.gatewayState) ∧
      isakmpParsewoh 11 cutNotify.ptr 16 = some [cutNotify] ∧
      ¬Inside (ipsecdoiParseResponderLifetime cutNotify (0, 0)) := by
  refine ⟨by decide +kernel, ?_, by decide +kernel, ?_, by decide +kernel, ?_⟩
  · rw [isakmpLogNotify_inside rfl]
    decide
  · rw [isakmpInfoRecvD_inside rfl]
    intro hin
    have hthere := (hin.2 (Or.inl (by decide +kernel))).2 ⟨by decide, by decide⟩
    exact hthere.isakmp rfl rfl ⟨Handles.gateway, List.mem_cons_self, by decide⟩ rfl
  · rw [ipsecdoiParseResponderLifetime_inside rfl]
    intro hthere
    have hpieces : pieces (area cutNotify) = [[0, 9, 0, 100]] := by decide +kernel
    have hunread := hthere.2
    rw [hpieces, cutUnread_cons] at hunread
    have hform := hunread.1 ⟨by decide, by decide⟩
    exact absurd hform.2 (by decide)

end WanStack.Racoon.NotifyReads
