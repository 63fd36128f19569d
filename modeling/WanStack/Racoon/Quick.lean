import WanStack.Racoon.Informational

set_option autoImplicit false

/-!
# Receiving in quick mode

`quick_r1recv`, `quick_i2recv`, `quick_i3recv` and `quick_r3recv`, and
`ph2_recv_n`, which they call while they go over the payloads of a message.
Memory suffices. A read through a NULL pointer ends the daemon.
-/
namespace WanStack.Racoon.Quick
open Aftr (Buf byteAt shortAt)
open Proposal (IsakmpParse PropCheck longAt memcpy GEN_LEN DATA_LEN IPSECDOI_ATTR_SA_LD_TYPE
  IPSECDOI_ATTR_SA_LD_TYPE_SEC IPSECDOI_ATTR_SA_LD_TYPE_KB IPSECDOI_ATTR_SA_LD)
open Handles (State encrypted notifyType isakmpParse isakmpInfoRecvInitialcontact
  ISAKMP_NPTYPE_HASH ISAKMP_NPTYPE_NONCE ISAKMP_NPTYPE_N ISAKMP_NTYPE_INITIAL_CONTACT)

def PHASE2ST_START : ℕ := 1
def PHASE2ST_STATUS2 : ℕ := 2
def PHASE2ST_MSG1SENT : ℕ := 5
def PHASE2ST_STATUS6 : ℕ := 6
def PHASE2ST_COMMIT : ℕ := 7
def PHASE2ST_ADDSA : ℕ := 8

def ISAKMP_NPTYPE_SA : ℕ := 1
def ISAKMP_NPTYPE_KE : ℕ := 4
def ISAKMP_NPTYPE_ID : ℕ := 5
def ISAKMP_NPTYPE_NATOA_RFC : ℕ := 21
def ISAKMP_NPTYPE_NATOA_DRAFT : ℕ := 131

def ISAKMP_INTERNAL_ERROR : ℤ := -1
def ISAKMP_NTYPE_INVALID_PAYLOAD_TYPE : ℕ := 1
def ISAKMP_NTYPE_ATTRIBUTES_NOT_SUPPORTED : ℤ := 13
def ISAKMP_NTYPE_NO_PROPOSAL_CHOSEN : ℤ := 14
def ISAKMP_NTYPE_BAD_PROPOSAL_SYNTAX : ℤ := 15
def ISAKMP_NTYPE_PAYLOAD_MALFORMED : ℤ := 16
def ISAKMP_NTYPE_INVALID_ID_INFORMATION : ℤ := 18
def ISAKMP_NTYPE_INVALID_HASH_INFORMATION : ℤ := 23
def ISAKMP_NTYPE_CONNECTED : ℕ := 16384
def ISAKMP_NTYPE_RESPONDER_LIFETIME : ℕ := 24576

/-- The sizes of `struct isakmp_pl_n` and `ipsecdoi_id_b`. -/
def PL_N_LEN : ℕ := 12
def ID_B_LEN : ℕ := 4

def IPSECDOI_ID_IPV4_ADDR : ℕ := 1
def IPSECDOI_ID_IPV4_ADDR_SUBNET : ℕ := 4
def IPSECDOI_ID_IPV6_ADDR : ℕ := 5
def IPSECDOI_ID_IPV6_ADDR_SUBNET : ℕ := 6
def IPSEC_ULPROTO_ANY : ℕ := 255

/-- The fields of a phase 2 handle that the functions read and write. Of the
    approval only its presence counts, of the section its lifetime. -/
structure Exchange where
  addr : ℕ
  status : ℕ
  msgid : Buf
  nonce : Buf
  sa : Option Buf
  saRet : Option Buf
  nonceP : Option Buf
  dhpubP : Option Buf
  id : Option Buf
  idP : Option Buf
  natoaSrc : Option Sockaddr
  natoaDst : Option Sockaddr
  msg1 : Option Buf
  commit : Bool
  approval : Bool
  sainfoLifetime : Option ℤ
  lifetimeSecs : ℕ
  lifetimeKb : ℕ

/-- What the functions meet outside: the phase 1 handle with the level of its
    section, decryption and the keyed hashes, the memory behind a payload that is
    copied, whether PF_KEY gives a dump, local test mode, and what the functions
    return that choose a proposal and hand the associations to the kernel. -/
structure Env where
  iph1 : Handles.Ph1handle
  pcheckLevel : Option PropCheck
  decrypt : Buf → Option Buf
  computeHash1 : Buf → Buf → Buf
  computeHash3 : Buf → Buf → Buf
  heap : Buf
  dump : Bool
  fLocal : Bool
  getSainfoR : Exchange → ℤ
  getProposalR : Exchange → ℤ
  setProposalFromProposal : Exchange → ℤ
  selectph2proposal : Exchange → ℤ
  pfsGroup : Exchange → ℕ
  checkph2proposal : Exchange → ℤ
  pkSendupdate : ℤ
  pkSendadd : ℤ

/-! ### Identities -/

/-- The bits of a byte up to its highest one. -/
def bitLength (b : ℕ) : ℕ := if b = 0 then 0 else b.log2 + 1

/-- The length of a subnet mask of `n` bytes. -/
def maskLen : ℕ → Buf → ℕ
  | 0, _ => 0
  | n + 1, mask =>
    if byteAt mask 0 = 255 then 8 + maskLen n (mask.drop 1)
    else 8 - bitLength (255 - (byteAt mask 0).toNat)

inductive IdSockaddr where
  | null
  | error (e : ℤ)
  | addr (saddr : Sockaddr) (plen ulProto : ℕ)
deriving DecidableEq

/-- The scope counts for a link local address only. -/
def inet6Of (v : Buf) : Sockaddr :=
  let linkLocal := byteAt v ID_B_LEN = 0xfe ∧ (byteAt v (ID_B_LEN + 1)).toNat / 64 = 2
  .inet6
    (((longAt v 4 * 4294967296 + longAt v 8) * 4294967296 + longAt v 12) * 4294967296 +
      longAt v 16)
    (if linkLocal then longAt v 24 else 0) (shortAt v 2)

def ipsecdoiId2sockaddr (heap : Buf) : Option Buf → IdSockaddr
  | none => .error ISAKMP_INTERNAL_ERROR
  | some buf =>
    if buf = [] then .null else
    let v := buf ++ heap
    let type := (byteAt v 0).toNat
    let protoId := (byteAt v 1).toNat
    let ulProto := if protoId = 0 then IPSEC_ULPROTO_ANY else protoId
    let inet : Sockaddr := .inet (longAt v ID_B_LEN) (shortAt v 2)
    if type = IPSECDOI_ID_IPV4_ADDR then .addr inet 32 ulProto
    else if type = IPSECDOI_ID_IPV4_ADDR_SUBNET then
      if buf.length < 4 then .error ISAKMP_INTERNAL_ERROR
      else .addr inet (maskLen 4 (v.drop (ID_B_LEN + 4))) ulProto
    else if type = IPSECDOI_ID_IPV6_ADDR then .addr (inet6Of v) 128 ulProto
    else if type = IPSECDOI_ID_IPV6_ADDR_SUBNET then
      if buf.length < 16 then .error ISAKMP_INTERNAL_ERROR
      else .addr (inet6Of v) (maskLen 16 (v.drop (ID_B_LEN + 16))) ulProto
    else .error ISAKMP_NTYPE_INVALID_ID_INFORMATION

def extractPort : Sockaddr → ℕ
  | .inet _ port => port
  | .inet6 _ _ port => port
  | _ => 0

def setPort (port : ℕ) : Sockaddr → Sockaddr
  | .inet addr _ => .inet addr port
  | .inet6 addr scope _ => .inet6 addr scope port
  | saddr => saddr

/-! ### Notification -/

/-- What a notification may change: the lifetimes kept of the responder, and
    everything outside of the handle. -/
structure Effects where
  secs : ℕ
  kb : ℕ
  state : State

/-- The loop of `ipsecdoi_parse_responder_lifetime` over the attributes. A length
    below zero counts as a large one. The walk is followed to the end of the message. -/
def lifetimeLoop : ℕ → Buf → ℤ → Option ℕ → ℕ × ℕ → ℕ × ℕ
  | 0, _, _, _, lifetimes => lifetimes
  | k + 1, d, tlen, ldType, (secs, kb) =>
    if 0 ≤ tlen ∧ tlen < DATA_LEN then (secs, kb) else
    let type := shortAt d 0 % 32768
    let tv : Bool := 32768 ≤ shortAt d 0
    let lorv := shortAt d 2
    let size := if tv then DATA_LEN else DATA_LEN + lorv
    let next := lifetimeLoop k (d.drop size) (tlen - size)
    if type = IPSECDOI_ATTR_SA_LD_TYPE then
      if !tv then (secs, kb) else next (some lorv) (secs, kb)
    else if type = IPSECDOI_ATTR_SA_LD then
      if !tv ∧ lorv ≠ 2 ∧ lorv ≠ 4 then (secs, kb) else
      let value :=
        if tv then lorv else if lorv = 2 then shortAt d DATA_LEN else longAt d DATA_LEN
      if ldType = some IPSECDOI_ATTR_SA_LD_TYPE_SEC then next ldType (value, kb)
      else if ldType = some IPSECDOI_ATTR_SA_LD_TYPE_KB then next ldType (secs, value)
      else (secs, kb)
    else next ldType (secs, kb)

def ipsecdoiParseResponderLifetime (notify : Buf) (lifetimes : ℕ × ℕ) : ℕ × ℕ :=
  let spiSize := (byteAt notify 9).toNat
  lifetimeLoop notify.length (notify.drop (PL_N_LEN + spiSize))
    (shortAt notify 2 - PL_N_LEN - spiSize) none lifetimes

/-- The branch of `ph2_recv_n` for RESPONDER-LIFETIME. -/
def responderLifetime (env : Env) (q : Exchange) (notify : Buf) (lifetimes : ℕ × ℕ) : ℕ × ℕ :=
  let (secs, kb) := ipsecdoiParseResponderLifetime notify lifetimes
  match env.pcheckLevel.getD .EXACT with
  | .OBEY => (secs, kb)
  | .STRICT | .CLAIM => (if q.sainfoLifetime.all fun l => l ≤ (secs : ℤ) then 0 else secs, kb)
  | .EXACT => (if q.sainfoLifetime.all fun l => l ≠ (secs : ℤ) then 0 else secs, kb)

/-- `isakmp_info_send_n2`; without an approval it sends nothing. -/
def isakmpInfoSendN2 (q : Exchange) (type : ℕ) (s : State) : State :=
  if q.approval then { s with sent := s.sent ++ [.n2 q.addr type] } else s

def ph2RecvN (env : Env) (q : Exchange) (notify : Buf) (e : Effects) : Effects :=
  let type := notifyType notify
  if type = ISAKMP_NTYPE_CONNECTED then e
  else if type = ISAKMP_NTYPE_INITIAL_CONTACT then
    if env.fLocal then e
    else { e with state := isakmpInfoRecvInitialcontact env.dump env.iph1 (some q.addr) e.state }
  else if type = ISAKMP_NTYPE_RESPONDER_LIFETIME then
    let (secs, kb) := responderLifetime env q notify (e.secs, e.kb)
    { e with
      secs := secs
      kb := kb }
  else { e with state := isakmpInfoSendN2 q ISAKMP_NTYPE_INVALID_PAYLOAD_TYPE e.state }

/-! ### The loop over the payloads -/

inductive Kind where
  | sa
  | nonce
  | ke
  | id
  | n
  | natoa
deriving DecidableEq

/-- The cases of the switch in `quick_r1recv` and `quick_i2recv`. -/
def kind (pa : IsakmpParse) : Option Kind :=
  if pa.type = ISAKMP_NPTYPE_SA then some .sa
  else if pa.type = ISAKMP_NPTYPE_NONCE then some .nonce
  else if pa.type = ISAKMP_NPTYPE_KE then some .ke
  else if pa.type = ISAKMP_NPTYPE_ID then some .id
  else if pa.type = ISAKMP_NPTYPE_N then some .n
  else if pa.type = ISAKMP_NPTYPE_NATOA_DRAFT ∨ pa.type = ISAKMP_NPTYPE_NATOA_RFC then some .natoa
  else none

/-- The copy that `isakmp_p2ph` makes. -/
def body (pa : IsakmpParse) : Buf := memcpy (pa.ptr.drop GEN_LEN) (pa.len - GEN_LEN)

/-- Where the two loops differ: a second SA is passed over or ends the loop, and
    what `error` is set to at a third ID, at a third NAT-OA and at another payload. -/
structure Rules where
  multiSa : Bool
  idError : Option ℤ
  natoaError : Option ℤ
  typeError : Option ℤ

/-- The variable `error`, the payloads kept, and what notifications changed. The
    IDs are kept in their order; `natoa1` is filled before `natoa2`. -/
structure Progress where
  error : ℤ
  sa : Option Buf
  nonceP : Option Buf
  dhpubP : Option Buf
  ids : List Buf
  natoa1 : Option Sockaddr
  natoa2 : Option Sockaddr
  effects : Effects

/-- `goto end`, with `error` set or left. -/
def Progress.fail (p : Progress) (e : Option ℤ) : Progress := { p with error := e.getD p.error }

inductive Step where
  | next (p : Progress)
  | stop (p : Progress)
  | null

def payload (env : Env) (q : Exchange) (rules : Rules) (pa : IsakmpParse) (p : Progress) : Step :=
  match kind pa with
  | some .sa =>
    if p.sa.isSome then if rules.multiSa then .next p else .stop p
    else .next { p with sa := some (body pa) }
  | some .nonce =>
    if p.nonceP.isSome then .stop p else .next { p with nonceP := some (body pa) }
  | some .ke =>
    if p.dhpubP.isSome then .stop p else .next { p with dhpubP := some (body pa) }
  | some .id =>
    if p.ids.length < 2 then .next { p with ids := p.ids ++ [body pa] }
    else .stop (p.fail rules.idError)
  | some .n => .next { p with effects := ph2RecvN env q pa.ptr p.effects }
  | some .natoa =>
    match ipsecdoiId2sockaddr env.heap (some (body pa)) with
    | .null => .null
    | .error e => .stop { p with error := e }
    | .addr saddr _ _ =>
      let p := { p with error := 0 }
      if p.natoa1.isNone then .next { p with natoa1 := some saddr }
      else if p.natoa2.isNone then .next { p with natoa2 := some saddr }
      else .stop (p.fail rules.natoaError)
  | none => .stop (p.fail rules.typeError)

def payloads (env : Env) (q : Exchange) (rules : Rules) : List IsakmpParse → Progress → Step
  | [], p => .next p
  | pa :: pays, p =>
    match payload env q rules pa p with
    | .next p => payloads env q rules pays p
    | .stop p => .stop p
    | .null => .null

/-- The payloads as they are copied to be hashed. -/
def hashed (pays : List IsakmpParse) : Buf := (pays.map fun pa => memcpy pa.ptr pa.len).flatten

/-- `memcmp` with the hash computed, over as many bytes as that one has. -/
def hashMatches (hash : IsakmpParse) (myHash : Buf) : Bool :=
  memcpy (hash.ptr.drop GEN_LEN) myHash.length = myHash

/-! ### The four functions -/

/-- What a function returns, nothing where the daemon ends, with the handle and
    everything outside of it. -/
structure Received where
  error : Option ℤ
  exchange : Exchange
  state : State

def Exchange.effects (q : Exchange) (s : State) : Effects :=
  { secs := q.lifetimeSecs
    kb := q.lifetimeKb
    state := s }

def Exchange.withEffects (q : Exchange) (e : Effects) : Exchange :=
  { q with
    lifetimeSecs := e.secs
    lifetimeKb := e.kb }

/-- The decrypted payloads of a message. -/
def plainPayloads (env : Env) (msg0 : Buf) : Option (List IsakmpParse) :=
  (env.decrypt msg0).bind isakmpParse

def r1Rules : Rules :=
  { multiSa := false
    idError := some ISAKMP_NTYPE_INVALID_ID_INFORMATION
    natoaError := some ISAKMP_NTYPE_PAYLOAD_MALFORMED
    typeError := some ISAKMP_NTYPE_PAYLOAD_MALFORMED }

def r1Start (q : Exchange) (s : State) (pays : List IsakmpParse) : Progress :=
  { error :=
      if pays.head?.any fun pa => pa.type = ISAKMP_NPTYPE_SA then ISAKMP_INTERNAL_ERROR
      else ISAKMP_NTYPE_BAD_PROPOSAL_SYNTAX
    sa := none
    nonceP := none
    dhpubP := none
    ids := []
    natoa1 := q.natoaDst
    natoa2 := q.natoaSrc
    effects := q.effects s }

/-- The handle with what the loop of `quick_r1recv` kept. -/
def r1Kept (q : Exchange) (p : Progress) : Exchange :=
  { q.withEffects p.effects with
    sa := p.sa
    nonceP := p.nonceP
    dhpubP := p.dhpubP
    idP := p.ids[0]?
    id := p.ids[1]?
    natoaDst := p.natoa1
    natoaSrc := p.natoa2 }

/-- From "get sainfo" on. -/
def r1Select (env : Env) (q : Exchange) : ℤ :=
  let select : ℤ :=
    if env.selectph2proposal q < 0 then ISAKMP_NTYPE_NO_PROPOSAL_CHOSEN
    else if q.dhpubP.isSome ∧ env.pfsGroup q = 0 then ISAKMP_NTYPE_NO_PROPOSAL_CHOSEN
    else if q.dhpubP.isNone ∧ env.pfsGroup q ≠ 0 then ISAKMP_NTYPE_NO_PROPOSAL_CHOSEN
    else 0
  if env.getSainfoR q ≠ 0 then env.getSainfoR q
  else if env.getProposalR q = -2 then
    if env.setProposalFromProposal q ≠ 0 then ISAKMP_INTERNAL_ERROR else select
  else if env.getProposalR q = 0 then select
  else env.getProposalR q

/-- What is freed at the end of `quick_r1recv` after an error. -/
def r1Freed (q : Exchange) : Exchange :=
  { q with
    sa := none
    nonceP := none
    dhpubP := none
    id := none
    idP := none
    natoaSrc := none
    natoaDst := none }

def r1End (error : ℤ) (q : Exchange) (s : State) : Received :=
  { error := some error
    exchange := if error ≠ 0 then r1Freed q else q
    state := s }

/-- From the loop on; `hash` is the first payload. -/
def r1Body (env : Env) (q : Exchange) (s : State) (msg0 : Buf) (hash : IsakmpParse)
    (pays : List IsakmpParse) : Received :=
  match payloads env q r1Rules pays (r1Start q s pays) with
  | .null =>
    { error := none
      exchange := q
      state := s }
  | .stop p => r1End p.error (r1Kept q p) p.effects.state
  | .next p =>
    let q := r1Kept q p
    let fail (error : ℤ) := r1End error q p.effects.state
    if p.sa.isNone ∨ p.nonceP.isNone then fail ISAKMP_NTYPE_PAYLOAD_MALFORMED
    else if !hashMatches hash (env.computeHash1 q.msgid (hashed pays)) then
      fail ISAKMP_NTYPE_INVALID_HASH_INFORMATION
    else if r1Select env q ≠ 0 then fail (r1Select env q)
    else
      { error := some 0
        exchange :=
          { q with
            msg1 := some msg0
            status := PHASE2ST_STATUS2 }
        state := p.effects.state }

def quickR1recv (env : Env) (q : Exchange) (s : State) (msg0 : Buf) : Received :=
  let fail (error : ℤ) := r1End error q s
  if q.status ≠ PHASE2ST_START then fail ISAKMP_INTERNAL_ERROR
  else if !encrypted msg0 then fail ISAKMP_NTYPE_PAYLOAD_MALFORMED
  else
    match plainPayloads env msg0 with
    | none => fail ISAKMP_INTERNAL_ERROR
    | some [] => fail ISAKMP_NTYPE_BAD_PROPOSAL_SYNTAX
    | some (hash :: pays) =>
      if hash.type ≠ ISAKMP_NPTYPE_HASH then fail ISAKMP_NTYPE_BAD_PROPOSAL_SYNTAX
      else r1Body env q s msg0 hash pays

def i2Rules : Rules :=
  { multiSa := true
    idError := none
    natoaError := none
    typeError := none }

def i2Start (q : Exchange) (s : State) : Progress :=
  { error := ISAKMP_INTERNAL_ERROR
    sa := none
    nonceP := q.nonceP
    dhpubP := q.dhpubP
    ids := []
    natoa1 := q.natoaSrc
    natoa2 := q.natoaDst
    effects := q.effects s }

/-- The handle with what the loop of `quick_i2recv` kept. -/
def i2Kept (q : Exchange) (p : Progress) : Exchange :=
  { q.withEffects p.effects with
    saRet := p.sa
    nonceP := p.nonceP
    dhpubP := p.dhpubP
    natoaSrc := p.natoa1
    natoaDst := p.natoa2 }

inductive IdCheck where
  | null
  | failed (error : ℤ)
  | matched (natoa : Option Sockaddr)

/-- The check of an identity that is returned against the one proposed, or against
    a NAT-OA, which gets the port of the one proposed. -/
def checkId (heap : Buf) (proposed : Option Buf) (got : Buf) (natoa : Option Sockaddr) : IdCheck :=
  match ipsecdoiId2sockaddr heap proposed with
  | .null => .null
  | .error e => .failed e
  | .addr proposedAddr proposedPlen proposedUlproto =>
    match ipsecdoiId2sockaddr heap (some got) with
    | .null => .null
    | .error e => .failed e
    | .addr gotAddr gotPlen gotUlproto =>
      if proposedPlen ≠ gotPlen ∨ proposedUlproto ≠ gotUlproto then
        .failed ISAKMP_NTYPE_ATTRIBUTES_NOT_SUPPORTED
      else
        let natoa := natoa.map (setPort (extractPort proposedAddr))
        if cmpsaddr proposedAddr gotAddr = .MATCH then .matched natoa
        else if natoa.any fun natoa => cmpsaddr natoa gotAddr = .MATCH then .matched natoa
        else .failed ISAKMP_NTYPE_ATTRIBUTES_NOT_SUPPORTED

/-- No identity is none to check. -/
def checkIdOf (heap : Buf) (proposed got : Option Buf) (natoa : Option Sockaddr) : IdCheck :=
  match got with
  | none => .matched natoa
  | some got => checkId heap proposed got natoa

inductive IdsCheck where
  | null
  | failed (error : ℤ)
  | matched (q : Exchange)

/-- The checks of IDci, then of IDcr. -/
def checkIds (heap : Buf) (q : Exchange) (ids : List Buf) : IdsCheck :=
  match checkIdOf heap q.id ids[0]? q.natoaSrc with
  | .null => .null
  | .failed error => .failed error
  | .matched natoaSrc =>
    match checkIdOf heap q.idP ids[1]? q.natoaDst with
    | .null => .null
    | .failed error => .failed error
    | .matched natoaDst =>
      .matched { q with
        natoaSrc := natoaSrc
        natoaDst := natoaDst }

/-- What is freed at the end of `quick_i2recv` after an error. -/
def i2Freed (q : Exchange) : Exchange :=
  { q with
    saRet := none
    nonceP := none
    dhpubP := none
    id := none
    idP := none
    natoaSrc := none
    natoaDst := none }

def i2End (error : ℤ) (q : Exchange) (s : State) : Received :=
  { error := some error
    exchange := if error ≠ 0 then i2Freed q else q
    state := s }

/-- From the check of the hash on. -/
def i2Hash (env : Env) (q : Exchange) (s : State) (hash : IsakmpParse) (pays : List IsakmpParse) :
    Received :=
  if !hashMatches hash (env.computeHash1 q.msgid (q.nonce ++ hashed pays)) then
    i2End ISAKMP_NTYPE_INVALID_HASH_INFORMATION q s
  else if env.checkph2proposal q < 0 then i2End ISAKMP_NTYPE_NO_PROPOSAL_CHOSEN q s
  else
    { error := some 0
      exchange := { q with status := PHASE2ST_STATUS6 }
      state := s }

/-- From the loop on; `hash` is the first payload. -/
def i2Body (env : Env) (q : Exchange) (s : State) (hash : IsakmpParse) (pays : List IsakmpParse) :
    Received :=
  match payloads env q i2Rules pays (i2Start q s) with
  | .null =>
    { error := none
      exchange := q
      state := s }
  | .stop p => i2End p.error (i2Kept q p) p.effects.state
  | .next p =>
    let q := i2Kept q p
    if p.sa.isNone ∨ p.nonceP.isNone then i2End p.error q p.effects.state
    else
      match checkIds env.heap q p.ids with
      | .null =>
        { error := none
          exchange := q
          state := p.effects.state }
      | .failed error => i2End error q p.effects.state
      | .matched q => i2Hash env q p.effects.state hash pays

def quickI2recv (env : Env) (q : Exchange) (s : State) (msg0 : Buf) : Received :=
  let fail (error : ℤ) := i2End error q s
  if q.status ≠ PHASE2ST_MSG1SENT then fail ISAKMP_INTERNAL_ERROR
  else if !encrypted msg0 then fail ISAKMP_INTERNAL_ERROR
  else
    match plainPayloads env msg0 with
    | none => fail ISAKMP_INTERNAL_ERROR
    | some [] => fail ISAKMP_INTERNAL_ERROR
    | some (hash :: pays) =>
      if hash.type ≠ ISAKMP_NPTYPE_HASH then fail ISAKMP_INTERNAL_ERROR
      else i2Body env q s hash pays

/-- The HASH payload and the notification that a loop found. -/
structure Found where
  hash : Option IsakmpParse
  notify : Option IsakmpParse
  effects : Effects

/-- The loop of `quick_r3recv`, and with `one` that of `quick_i3recv`, which passes
    over all notifications but the first. It says whether it went to the end. -/
def hashLoop (env : Env) (q : Exchange) (one : Bool) : List IsakmpParse → Found → Bool × Found
  | [], f => (true, f)
  | pa :: pays, f =>
    if pa.type = ISAKMP_NPTYPE_HASH then hashLoop env q one pays { f with hash := some pa }
    else if pa.type = ISAKMP_NPTYPE_N then
      if one ∧ f.notify.isSome then hashLoop env q one pays f
      else
        hashLoop env q one pays
          { f with
            notify := some pa
            effects := ph2RecvN env q pa.ptr f.effects }
    else (false, f)

def noneFound (q : Exchange) (s : State) : Found :=
  { hash := none
    notify := none
    effects := q.effects s }

def Found.returns (f : Found) (q : Exchange) (error : ℤ) : Received :=
  { error := some error
    exchange := q.withEffects f.effects
    state := f.effects.state }

/-- From the check of HASH(4) on. -/
def i3Hash (env : Env) (q : Exchange) (f : Found) (hash notify : IsakmpParse) : Received :=
  if !hashMatches hash (env.computeHash1 q.msgid (memcpy notify.ptr notify.len)) then
    f.returns q ISAKMP_NTYPE_INVALID_HASH_INFORMATION
  else
    let q :=
      { q with
        status := PHASE2ST_ADDSA
        commit := !q.commit }
    if env.fLocal then f.returns q 0
    else if env.pkSendupdate < 0 then f.returns q ISAKMP_INTERNAL_ERROR
    else if env.pkSendadd < 0 then f.returns q ISAKMP_INTERNAL_ERROR
    else f.returns q 0

/-- From the loop on. Without a notification the hash is asked for of none. -/
def i3Body (env : Env) (q : Exchange) (s : State) (pays : List IsakmpParse) : Received :=
  let (whole, f) := hashLoop env q true pays (noneFound q s)
  if !whole then f.returns q ISAKMP_INTERNAL_ERROR
  else
    match f.hash, f.notify with
    | none, _ => f.returns q ISAKMP_INTERNAL_ERROR
    | some _, none =>
      { error := none
        exchange := q
        state := s }
    | some hash, some notify => i3Hash env q f hash notify

def quickI3recv (env : Env) (q : Exchange) (s : State) (msg0 : Buf) : Received :=
  let fail : Received :=
    { error := some ISAKMP_INTERNAL_ERROR
      exchange := q
      state := s }
  if q.status ≠ PHASE2ST_COMMIT then fail
  else if !encrypted msg0 then fail
  else
    match plainPayloads env msg0 with
    | none => fail
    | some pays => i3Body env q s pays

/-- From the check of HASH(3) on, which is over the nonces. -/
def r3Hash (env : Env) (q : Exchange) (f : Found) (hash : IsakmpParse) (nonceP : Buf) : Received :=
  if !hashMatches hash (env.computeHash3 q.msgid (nonceP ++ q.nonce)) then
    f.returns q ISAKMP_NTYPE_INVALID_HASH_INFORMATION
  else f.returns { q with status := if q.commit then PHASE2ST_COMMIT else PHASE2ST_STATUS6 } 0

/-- From the loop on. -/
def r3Body (env : Env) (q : Exchange) (s : State) (pays : List IsakmpParse) : Received :=
  let (whole, f) := hashLoop env q false pays (noneFound q s)
  if !whole then f.returns q ISAKMP_INTERNAL_ERROR
  else
    match f.hash, q.nonceP with
    | none, _ => f.returns q ISAKMP_INTERNAL_ERROR
    | some _, none =>
      { error := none
        exchange := q
        state := f.effects.state }
    | some hash, some nonceP => r3Hash env q f hash nonceP

def quickR3recv (env : Env) (q : Exchange) (s : State) (msg0 : Buf) : Received :=
  let fail : Received :=
    { error := some ISAKMP_INTERNAL_ERROR
      exchange := q
      state := s }
  if q.status ≠ PHASE2ST_MSG1SENT then fail
  else if !encrypted msg0 then fail
  else
    match plainPayloads env msg0 with
    | none => fail
    | some pays => r3Body env q s pays

end WanStack.Racoon.Quick
