import WanStack.Racoon.Handles
import WanStack.Racoon.SaPayload
import WanStack.Racoon.IsakmpFrag

set_option autoImplicit false

/-!
# The informational exchange

`isakmp_info_recv`, the loop it runs over the payloads of a message, and the
handlers of Notification and Deletion payloads. Decryption and the keyed hash
are parameters; a pointer into a message is the memory from where it points to.
-/
namespace WanStack.Racoon.Handles
open Aftr (Buf byteAt shortAt)
open Proposal (IsakmpParse isakmpParsewoh longAt memcpy GEN_LEN ISAKMP_NPTYPE_NONE IPSEC_DOI
  IPSECDOI_PROTO_ISAKMP IPSECDOI_PROTO_IPSEC_AH IPSECDOI_PROTO_IPSEC_ESP IPSECDOI_PROTO_IPCOMP)

def ISAKMP_NPTYPE_HASH : ℕ := 8
def ISAKMP_NPTYPE_NONCE : ℕ := 10
def ISAKMP_NPTYPE_N : ℕ := 11
def ISAKMP_NPTYPE_D : ℕ := 12

def ISAKMP_ETYPE_BASE : ℕ := 1
def ISAKMP_ETYPE_IDENT : ℕ := 2
def ISAKMP_ETYPE_AGG : ℕ := 4

def ISAKMP_NTYPE_INITIAL_CONTACT : ℕ := 24578
def ISAKMP_NTYPE_R_U_THERE : ℕ := 36136
def ISAKMP_NTYPE_R_U_THERE_ACK : ℕ := 36137

/-- The sizes of `struct isakmp_pl_d`, `isakmp_index` and `cookie_t`. -/
def PL_D_LEN : ℕ := 12
def INDEX_LEN : ℕ := 16
def COOKIE_LEN : ℕ := 8

/-- Where the fields of the header lie. -/
def ISAKMP_NP : ℕ := 16
def ISAKMP_FLAGS : ℕ := 19
def ISAKMP_MSGID : ℕ := 20

/-- `ISAKMP_FLAG_E` is the lowest bit of the flags. -/
def encrypted (msg : Buf) : Bool := (byteAt msg ISAKMP_FLAGS).toNat % 2 = 1

/-- What a message meets outside of what is modelled: the decryption under the
    new IV of the handle, `oakley_compute_hash1` on a message id and a body,
    whether PF_KEY gives a dump, local test mode, what sending an answer
    returns, and the memory behind the local variable `spi`. -/
structure Env where
  decrypt : Buf → Option Buf
  computeHash1 : Buf → Buf → Option Buf
  dump : Bool
  fLocal : Bool
  sendError : ℤ
  stack : ℕ → Buf

/-! ### Notification -/

def notifyType (notify : Buf) : ℕ := shortAt notify 10

/-- The cookies and the data of a R-U-THERE. -/
def ruICk (ru : Buf) : Buf := memcpy (ru.drop 12) COOKIE_LEN
def ruRCk (ru : Buf) : Buf := memcpy (ru.drop 20) COOKIE_LEN
def ruData (ru : Buf) : Buf := memcpy (ru.drop 28) 4

def isakmpInfoRecvRU (env : Env) (iph1 : Ph1handle) (ru : Buf) (s : State) : ℤ × State :=
  (env.sendError,
    { s with sent := s.sent ++ [.rUThereAck iph1.addr (ruICk ru) (ruRCk ru) (ruData ru)] })

def isakmpInfoRecvRUAck (iph1 : Ph1handle) (ru : Buf) (s : State) : State :=
  let seq := longAt ru 28
  if seq ≤ iph1.dpdLastAck ∨ iph1.dpdSeq < seq then s
  else if ruICk ru ++ ruRCk ru ≠ iph1.index ∧ ruRCk ru ++ ruICk ru ≠ iph1.index then s
  else s.setPh1 iph1.addr (fun p => { p with dpdFails := 0, dpdLastAck := seq }) fun _ => rfl

/-- `isakmp_info_recv_n`; a notification it only logs changes nothing. -/
def isakmpInfoRecvN (env : Env) (iph1 : Ph1handle) (notify : Buf) (enc : Bool) (s : State) :
    ℤ × State :=
  let type := notifyType notify
  if type = ISAKMP_NTYPE_INITIAL_CONTACT ∧ enc then
    (0, if env.fLocal then s else isakmpInfoRecvInitialcontact env.dump iph1 none s)
  else if type = ISAKMP_NTYPE_R_U_THERE ∧ enc then isakmpInfoRecvRU env iph1 notify s
  else if type = ISAKMP_NTYPE_R_U_THERE_ACK ∧ enc then (0, isakmpInfoRecvRUAck iph1 notify s)
  else (0, s)

/-! ### Deletion -/

def delProtoId (d : Buf) : ℤ := (byteAt d 8).toNat
def delSpiSize (d : Buf) : ℕ := (byteAt d 9).toNat
def delNumSpi (d : Buf) : ℕ := shortAt d 10

/-- The SPI number `i` of the list, of four bytes. -/
def delSpi (d : Buf) (i : ℕ) : Buf := memcpy (d.drop (PL_D_LEN + 4 * i)) 4

/-- The local variable `spi`, for a size of two or four. -/
def delIpcompSpi (d : Buf) : Option Buf :=
  if delSpiSize d = 2 then some ([0, 0] ++ memcpy (d.drop PL_D_LEN) 2)
  else if delSpiSize d = 4 then some (memcpy (d.drop PL_D_LEN) 4)
  else none

/-- The SPIs read from the variable on, past its end from the second. -/
def ipcompSpis (env : Env) (spi : Buf) (n : ℕ) : List Buf :=
  (List.range n).map fun i => if i = 0 then spi else env.stack i

def deleteIsakmp (env : Env) (index : Buf) (s : State) : State :=
  match getph1byindex s index with
  | none => s
  | some delPh1 =>
    if ph1RekeyEnabled delPh1 then purgeRemote env.dump delPh1 s else isakmpPh1expire delPh1 s

/-- `isakmp_info_recv_d`, which returns 0 always. -/
def isakmpInfoRecvD (env : Env) (iph1 : Ph1handle) (d : Buf) (enc : Bool) (s : State) : State :=
  if longAt d 4 ≠ IPSEC_DOI ∧ (!iph1.unity ∨ longAt d 4 ≠ 0) then s else
  let numSpi := delNumSpi d
  if (shortAt d 2 : ℤ) - PL_D_LEN ≠ numSpi * delSpiSize d then s else
  if !(iph1.rmconf.any RmConf.weakPhase1Check) && !enc then s else
  if delProtoId d = IPSECDOI_PROTO_ISAKMP then
    if delSpiSize d ≠ INDEX_LEN then s
    else deleteIsakmp env (memcpy (d.drop PL_D_LEN) INDEX_LEN) s
  else if delProtoId d = IPSECDOI_PROTO_IPSEC_AH ∨ delProtoId d = IPSECDOI_PROTO_IPSEC_ESP then
    if delSpiSize d ≠ 4 then s
    else
      purgeIpsecSpi env.dump iph1.remote (delProtoId d) ((List.range numSpi).map (delSpi d)) s
  else if delProtoId d = IPSECDOI_PROTO_IPCOMP then
    match delIpcompSpi d with
    | none => s
    | some spi => purgeIpsecSpi env.dump iph1.remote (delProtoId d) (ipcompSpis env spi numSpi) s
  else s

/-! ### The message -/

/-- `isakmp_parse`. -/
def isakmpParse (msg : Buf) : Option (List IsakmpParse) :=
  isakmpParsewoh (byteAt msg ISAKMP_NP).toNat (msg.drop ISAKMP_LEN) (msg.length - ISAKMP_LEN : ℤ)

/-- The length of the first payload of a message, and the second payload. -/
def genLen (msg : Buf) : ℕ := shortAt msg (ISAKMP_LEN + 2)
def nd (msg : Buf) : Buf := msg.drop (ISAKMP_LEN + genLen msg)
def ndLen (msg : Buf) : ℕ := shortAt (nd msg) 2

/-- The checks on an encrypted message up to "hash validated". -/
def hashValidated (env : Env) (iph1 : Ph1handle) (msg : Buf) : Bool :=
  (byteAt msg ISAKMP_NP).toNat = ISAKMP_NPTYPE_HASH &&
    (iph1.status = PHASE1ST_ESTABLISHED || iph1.status = PHASE1ST_DYING) &&
    ISAKMP_LEN + genLen msg + GEN_LEN ≤ msg.length &&
    ndLen msg ≤ msg.length - (ISAKMP_LEN + genLen msg) && GEN_LEN ≤ ndLen msg &&
    match env.computeHash1 (memcpy (msg.drop ISAKMP_MSGID) 4) (memcpy (nd msg) (ndLen msg)) with
    | none => false
    | some hash =>
      genLen msg = GEN_LEN + hash.length &&
        memcpy (msg.drop (ISAKMP_LEN + GEN_LEN)) hash.length = hash

/-- A call of a payload handler, and whether the handle it is given is live. -/
structure Call where
  pa : IsakmpParse
  live : Bool

structure Outcome where
  error : ℤ
  calls : List Call
  state : State

/-- The loop over the payloads, for the handle at `addr`. Once the handle is freed
    and passed on, nothing is known of what follows. -/
def dispatch (env : Env) (addr : ℕ) (enc : Bool) : ℤ → List IsakmpParse → State → Outcome
  | error, [], s => { error := error, calls := [], state := s }
  | error, pa :: pbuf, s =>
    if pa.type = ISAKMP_NPTYPE_HASH ∨ pa.type = ISAKMP_NPTYPE_NONCE then
      dispatch env addr enc error pbuf s
    else if pa.type = ISAKMP_NPTYPE_N ∨ pa.type = ISAKMP_NPTYPE_D then
      match s.ph1 addr with
      | none =>
        { error := error
          calls := [{ pa := pa, live := false }]
          state := s }
      | some iph1 =>
        let (error, s) :=
          if pa.type = ISAKMP_NPTYPE_N then isakmpInfoRecvN env iph1 pa.ptr enc s
          else (0, isakmpInfoRecvD env iph1 pa.ptr enc s)
        let call : Call := { pa := pa, live := true }
        if error < 0 then { error := error, calls := [call], state := s }
        else
          let o := dispatch env addr enc error pbuf s
          { o with calls := call :: o.calls }
    else dispatch env addr enc 0 pbuf s

/-- Whether a message that is not encrypted is still looked at. -/
def beforeKeys (iph1 : Ph1handle) : Bool :=
  (iph1.etype = ISAKMP_ETYPE_AGG || iph1.etype = ISAKMP_ETYPE_BASE ||
    iph1.etype = ISAKMP_ETYPE_IDENT) &&
    match iph1.side with
    | .INITIATOR => iph1.status < PHASE1ST_MSG3SENT
    | .RESPONDER => iph1.status < PHASE1ST_MSG2SENT

/-- The plain text of an encrypted message that is accepted. -/
def acceptedText (env : Env) (iph1 : Ph1handle) (msg0 : Buf) : Option Buf :=
  if !iph1.ivm then none else
  (env.decrypt msg0).filter fun msg =>
    ISAKMP_LEN + GEN_LEN ≤ msg.length && hashValidated env iph1 msg

def isakmpInfoRecv (env : Env) (iph1 : Ph1handle) (msg0 : Buf) (s : State) : Outcome :=
  let fail (error : ℤ) : Outcome := { error := error, calls := [], state := s }
  let go (msg : Buf) : Outcome :=
    match isakmpParse msg with
    | none => fail (-1)
    | some pbuf => dispatch env iph1.addr (encrypted msg0) 0 pbuf s
  if encrypted msg0 then
    match acceptedText env iph1 msg0 with
    | none => fail (-1)
    | some msg => go msg
  else if msg0.length < ISAKMP_LEN + GEN_LEN then fail (-1)
  else if !beforeKeys iph1 then fail 0
  else go msg0

end WanStack.Racoon.Handles
