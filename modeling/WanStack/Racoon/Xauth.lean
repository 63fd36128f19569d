import WanStack.Aftr.ControlStream
import WanStack.Racoon.Informational
import WanStack.Racoon.Remoteconf

set_option autoImplicit false

/-!
# Xauth

The mode config messages of `isakmp_cfg.c`, the logins of `isakmp_xauth.c` that
their attributes start, and `throttle.c`. A message is gone over one payload, or
one attribute of a payload, at a step. Phase 1 handles are named by their
cookies, which are never used twice; a step on a handle that has been freed is
undefined. Addresses and network settings that mode config hands out are left
out, and the messages it sends. Times are in microseconds.
-/
namespace WanStack.Racoon.Xauth
open Aftr (Buf byteAt shortAt)
open Aftr.ControlStream (cstring)
open Handles (PHASE1ST_ESTABLISHED PHASE1ST_EXPIRED ISAKMP_NPTYPE_HASH)
open Phase1
open Proposal (memcpy GEN_LEN DATA_LEN ISAKMP_NPTYPE_NONE)

def ISAKMP_NPTYPE_ATTR : ℕ := 14

def ISAKMP_CFG_REPLY : ℕ := 2
def ISAKMP_CFG_SET : ℕ := 3

/-- `ISAKMP_GEN_MASK`, and `ISAKMP_GEN_TV`. -/
def ISAKMP_GEN_TV : ℕ := 32768

def XAUTH_TYPE : ℕ := 16520
def XAUTH_USER_NAME : ℕ := 16521
def XAUTH_USER_PASSWORD : ℕ := 16522
def XAUTH_STATUS : ℕ := 16527
def XAUTH_ANSWER : ℕ := 16529

def XAUTH_TYPE_GENERIC : ℕ := 0

def XAUTH_STATUS_OK : ℕ := 1

def THROTTLE_PENALTY_MAX : ℕ := 10

/-- The sizes of `struct isakmp` and `struct isakmp_pl_attr`. -/
def ISAKMP_LEN : ℕ := 28
def PL_ATTR_LEN : ℕ := 8

def SECOND : ℕ := 1000000

/-! ### Logins -/

inductive AuthSource where
  | SYSTEM
  | RADIUS
  | PAM
  | LDAP
  | other
deriving DecidableEq, Repr

inductive GroupSource where
  | SYSTEM
  | LDAP
  | other
deriving DecidableEq, Repr

/-- What the logins read of `isakmp_cfg_config`. -/
structure CfgConfig where
  authsource : AuthSource
  groupsource : GroupSource
  grouplist : List Buf
  authThrottle : ℕ
deriving DecidableEq, Repr

/-- What is met outside at a step: what `isakmp_cfg_getport` gives, the system's
    databases and its `crypt`, what the servers answer, with the name of the user
    that the LDAP login finds, the hash of a message, and whether there is memory
    for a throttle entry and for a delayed reply. -/
structure Answers where
  port : Option ℕ
  getspnam : Buf → Option Buf
  getpwnam : Buf → Option ℕ
  crypt : Buf → Buf → Option Buf
  getgrnam : Buf → Option (List Buf)
  radius : Buf → Buf → ℤ
  pam : ℕ → Buf → Buf → ℤ
  ldap : Buf → Buf → ℤ × Option Buf
  groupLdap : Option Buf → Buf → ℤ
  computeHash1 : Buf → Option Buf
  throttleAdd : Bool
  calloc : Bool

def xauthLoginSystem (a : Answers) (usr pwd : Buf) : ℤ :=
  match a.getspnam usr, a.getpwnam usr with
  | some syscryptpwd, some uid =>
    if uid = 0 then -1 else
    match a.crypt pwd syscryptpwd with
    | none => -1
    | some cryptpwd => if cryptpwd = syscryptpwd then 0 else -1
  | _, _ => -1

def xauthGroupSystem (a : Answers) (usr grp : Buf) : ℤ :=
  match a.getgrnam grp with
  | none => -1
  | some members => if members.contains usr then 0 else -1

/-- The loop of `group_check`. -/
def groupLoop (cfg : CfgConfig) (a : Answers) (usr : Buf) (udn : Option Buf) (res : ℤ) : List Buf → ℤ
  | [] => res
  | grp :: grps =>
    let res :=
      match cfg.groupsource with
      | .SYSTEM => xauthGroupSystem a usr grp
      | .LDAP => a.groupLdap udn grp
      | .other => res
    if res = 0 then res else groupLoop cfg a usr udn res grps

def groupCheck (cfg : CfgConfig) (a : Answers) (usr : Buf) (udn : Option Buf) : ℤ :=
  groupLoop cfg a usr udn (-1) cfg.grouplist

/-- The login source, with the name in the directory that is kept from now on. -/
def authenticate (cfg : CfgConfig) (a : Answers) (port : ℕ) (usr pwd : Buf) (udn : Option Buf) :
    ℤ × Option Buf :=
  match cfg.authsource with
  | .SYSTEM => (xauthLoginSystem a usr pwd, udn)
  | .RADIUS => (a.radius usr pwd, udn)
  | .PAM => (a.pam port usr pwd, udn)
  | .LDAP => a.ldap usr pwd
  | .other => (-1, udn)

/-! ### Throttling -/

structure ThrottleEntry where
  penaltyEnds : ℕ
  host : Sockaddr
deriving DecidableEq, Repr

/-- The loop of `throttle_host`, over the list from its tail: what is kept in front
    of the entry, the entry that is found, and what is behind it. -/
def throttleFind (now : ℕ) (addr : Sockaddr) :
    List ThrottleEntry → List ThrottleEntry × Option (ThrottleEntry × List ThrottleEntry)
  | [] => ([], none)
  | te :: tes =>
    if te.penaltyEnds < now then throttleFind now addr tes
    else if cmpsaddr addr te.host ≠ .MISMATCH then ([], some (te, tes))
    else
      let found := throttleFind now addr tes
      (te :: found.1, found.2)

/-- The entry's penalty after a failure. -/
def penalise (authThrottle now : ℕ) (te : ThrottleEntry) : ThrottleEntry :=
  let res := authThrottle * SECOND + (te.penaltyEnds - now)
  let res := if THROTTLE_PENALTY_MAX ≤ res / SECOND then THROTTLE_PENALTY_MAX * SECOND else res
  { te with penaltyEnds := now + res }

/-- `throttle_host`, with the list from its tail, and whether there is memory. -/
def throttleHost (authThrottle now : ℕ) (throttleList : List ThrottleEntry) (addr : Sockaddr)
    (authfail alloc : Bool) : List ThrottleEntry × ℕ :=
  if authThrottle = 0 then (throttleList, 0) else
  match throttleFind now addr throttleList with
  | (kept, none) =>
    if !authfail then (kept, 0)
    else if alloc then
      (kept ++ [{ penaltyEnds := now + authThrottle * SECOND, host := addr }], 0)
    else (kept, authThrottle)
  | (front, some (te, behind)) =>
    let te := if authfail then penalise authThrottle now te else te
    (front ++ te :: behind, (te.penaltyEnds - now) / SECOND)

/-! ### The state -/

inductive Xauthst where
  | NOTYET
  | REQSENT
  | OK
deriving DecidableEq, Repr

/-- A phase 1 handle with what mode config and Xauth keep for it. -/
structure Ph1handle where
  index : ℕ
  remote : Sockaddr
  status : ℕ
  authmethod : ℕ
  vendoridXauth : Bool
  deletePh1 : Bool
  xst : Xauthst
  usr : Option Buf
  pwd : Option Buf
  udn : Option Buf
deriving DecidableEq, Repr

structure XauthReplyArg where
  index : ℕ
  res : ℤ
  xtime : ℕ
deriving DecidableEq, Repr

/-- The loop over the attributes of a payload: the type of the exchange, the
    attribute that is next, with what lies behind it, and `tlen`. -/
structure AttrLoop where
  type : ℕ
  attr : Buf
  tlen : ℤ
deriving DecidableEq, Repr

/-- `isakmp_cfg_r` in its loop: the handle it was given, the payload that is next,
    with what lies behind it, `tlen`, and the loop over attributes that it is in. -/
structure Cursor where
  iph1 : ℕ
  np : ℕ
  ph : Buf
  tlen : ℤ
  attrs : Option AttrLoop
deriving DecidableEq, Repr

/-- A moment at which a login is tried. -/
structure Moment where
  cfg : CfgConfig
  answers : Answers
  throttleList : List ThrottleEntry
  now : ℕ
  udn : Option Buf

/-- What is remembered of a run, and read by no code: the names and passwords that
    were received over a handle, and the logins that were tried for it. -/
inductive Did where
  | usr (index : ℕ) (v : Buf)
  | pwd (index : ℕ) (v : Buf)
  | login (index : ℕ) (usr pwd : Buf) (m : Moment)

/-- `cookies` are those of the next handle. -/
structure State where
  cfg : CfgConfig
  now : ℕ
  ph1tree : List Ph1handle
  cookies : ℕ
  throttleList : List ThrottleEntry
  replies : List XauthReplyArg
  running : Option Cursor
  did : List Did

def State.cold (cfg : CfgConfig) : State where
  cfg := cfg
  now := 0
  ph1tree := []
  cookies := 0
  throttleList := []
  replies := []
  running := none
  did := []

/-- The handle that a pointer leads to, unless it has been freed. -/
def State.handle (s : State) (index : ℕ) : Option Ph1handle :=
  s.ph1tree.find? fun h => h.index = index

def State.getph1byindex (s : State) (index : ℕ) : Option Ph1handle :=
  s.ph1tree.find? fun h => ¬PHASE1ST_EXPIRED ≤ h.status ∧ h.index = index

def State.setHandle (s : State) (h : Ph1handle) : State :=
  { s with ph1tree := s.ph1tree.map fun g => if g.index = h.index then h else g }

/-- `remph1` and `delph1`. -/
def State.delph1 (s : State) (index : ℕ) : State :=
  { s with ph1tree := s.ph1tree.filter fun h => h.index ≠ index }

/-! ### Replies -/

/-- The server's methods with Xauth. -/
def xauthServer (authmethod : ℕ) : Bool :=
  authmethod ∈ [OAKLEY_ATTR_AUTH_METHOD_HYBRID_RSA_R, OAKLEY_ATTR_AUTH_METHOD_XAUTH_RSASIG_R,
    OAKLEY_ATTR_AUTH_METHOD_XAUTH_PSKEY_R, OAKLEY_ATTR_AUTH_METHOD_HYBRID_DSS_R,
    OAKLEY_ATTR_AUTH_METHOD_XAUTH_DSSSIG_R, OAKLEY_ATTR_AUTH_METHOD_XAUTH_RSAENC_R,
    OAKLEY_ATTR_AUTH_METHOD_XAUTH_RSAREV_R]

/-- The client's. -/
def xauthClient (authmethod : ℕ) : Bool :=
  authmethod ∈ [OAKLEY_ATTR_AUTH_METHOD_HYBRID_RSA_I, OAKLEY_ATTR_AUTH_METHOD_XAUTH_PSKEY_I,
    OAKLEY_ATTR_AUTH_METHOD_XAUTH_RSASIG_I, OAKLEY_ATTR_AUTH_METHOD_HYBRID_DSS_I,
    OAKLEY_ATTR_AUTH_METHOD_XAUTH_DSSSIG_I, OAKLEY_ATTR_AUTH_METHOD_XAUTH_RSAENC_I,
    OAKLEY_ATTR_AUTH_METHOD_XAUTH_RSAREV_I]

def xauthCheck (iph1 : Ph1handle) : ℤ :=
  if xauthServer iph1.authmethod then
    if !iph1.vendoridXauth then -1
    else if iph1.xst ≠ .OK then -1
    else 0
  else 0

/-- `xauth_sendreq`. -/
def xauthSendreq (iph1 : Ph1handle) : Ph1handle :=
  if iph1.status < PHASE1ST_ESTABLISHED then iph1
  else if iph1.xst ≠ .NOTYET then iph1
  else { iph1 with xst := .REQSENT }

/-- `xauth_reply`: what it returns, and the state. -/
def xauthReply (s : State) (iph1 : Ph1handle) (res : ℤ) : State × ℤ :=
  if res ≠ 0 then (s.delph1 iph1.index, -1) else (s.setHandle { iph1 with xst := .OK }, 0)

/-- A login with the name and the password that are stored: the result, what is
    kept of the name in the directory, the throttle list and the delay. -/
structure Login where
  res : ℤ
  udn : Option Buf
  throttleList : List ThrottleEntry
  delay : ℕ

/-- Without an address neither the source is asked nor the host throttled. -/
def tryLogin (m : Moment) (remote : Sockaddr) (usr pwd : Buf) : Login :=
  match m.answers.port with
  | none =>
    { res := -1
      udn := m.udn
      throttleList := m.throttleList
      delay := 0 }
  | some port =>
    let login := authenticate m.cfg m.answers port usr pwd m.udn
    let res := if login.1 = 0 ∧ m.cfg.grouplist ≠ [] then groupCheck m.cfg m.answers usr login.2 else login.1
    let throttle := throttleHost m.cfg.authThrottle m.now m.throttleList remote (res ≠ 0) m.answers.throttleAdd
    { res := if 0 < throttle.2 then -1 else res
      udn := login.2
      throttleList := throttle.1
      delay := throttle.2 }

def State.moment (s : State) (a : Answers) (iph1 : Ph1handle) : Moment where
  cfg := s.cfg
  answers := a
  throttleList := s.throttleList
  now := s.now
  udn := iph1.udn

/-- What a login leaves before it is answered, now or later. -/
def State.tried (s : State) (iph1 : Ph1handle) (usr pwd : Buf) (m : Moment) (login : Login) : State :=
  { s.setHandle { iph1 with udn := login.udn } with
    throttleList := login.throttleList
    did := s.did ++ [.login iph1.index usr pwd m] }

/-- The part of `xauth_attr_reply` behind the attribute: a login, when a name and
    a password are stored. -/
def attempt (a : Answers) (s : State) (iph1 : Ph1handle) : State × ℤ :=
  match iph1.usr, iph1.pwd with
  | some usr, some pwd =>
    let m := s.moment a iph1
    let login := tryLogin m iph1.remote (cstring usr) (cstring pwd)
    let s := s.tried iph1 usr pwd m login
    if login.delay ≠ 0 ∧ a.calloc then
      ({ s with
        replies := s.replies ++
          [{ index := iph1.index, res := login.res, xtime := s.now + login.delay * SECOND }] }, 0)
    else xauthReply s { iph1 with udn := login.udn } login.res
  | _, _ => (s, 0)

/-- The handle with a name or a password stored. -/
def storeAttr (iph1 : Ph1handle) (attr : Buf) : Ph1handle :=
  let v := memcpy (attr.drop DATA_LEN) (shortAt attr 2)
  if shortAt attr 0 % ISAKMP_GEN_TV = XAUTH_USER_NAME then { iph1 with usr := some v }
  else if shortAt attr 0 % ISAKMP_GEN_TV = XAUTH_USER_PASSWORD then { iph1 with pwd := some v }
  else iph1

def storeDid (iph1 : Ph1handle) (attr : Buf) : List Did :=
  let v := memcpy (attr.drop DATA_LEN) (shortAt attr 2)
  if shortAt attr 0 % ISAKMP_GEN_TV = XAUTH_USER_NAME then [.usr iph1.index v]
  else if shortAt attr 0 % ISAKMP_GEN_TV = XAUTH_USER_PASSWORD then [.pwd iph1.index v]
  else []

def State.stored (s : State) (iph1 : Ph1handle) (attr : Buf) : State :=
  { s.setHandle (storeAttr iph1 attr) with did := s.did ++ storeDid iph1 attr }

/-- The attribute of an authentication that is not the generic one. -/
def otherXauthType (attr : Buf) : Bool :=
  shortAt attr 0 % ISAKMP_GEN_TV = XAUTH_TYPE && shortAt attr 2 ≠ XAUTH_TYPE_GENERIC

/-- `xauth_attr_reply`. -/
def xauthAttrReply (a : Answers) (s : State) (iph1 : Ph1handle) (attr : Buf) : State × ℤ :=
  if !iph1.vendoridXauth then (s, -1)
  else if iph1.xst ≠ .REQSENT then (s, -1)
  else if otherXauthType attr then (s, -1)
  else attempt a (s.stored iph1 attr) (storeAttr iph1 attr)

/-! ### Messages -/

def State.runs (s : State) (c : Cursor) : State := { s with running := some c }

/-- The loop over attributes is left. -/
def Cursor.leave (c : Cursor) : Cursor := { c with attrs := none }

/-- `n` bytes on in the attributes. -/
def Cursor.skip (c : Cursor) (l : AttrLoop) (n : ℕ) : Cursor :=
  { c with
    attrs := some
      { l with
        attr := l.attr.drop n
        tlen := l.tlen - n } }

/-- The value of `xauth_attr_reply` ends `isakmp_cfg_reply` or not. -/
def afterXauth (c : Cursor) (l : AttrLoop) (n : ℕ) (r : State × ℤ) : State :=
  if r.2 ≠ 0 then r.1.runs c.leave else r.1.runs (c.skip l n)

/-- A round of `isakmp_cfg_reply`. -/
def isakmpCfgReply (a : Answers) (s : State) (iph1 : Ph1handle) (c : Cursor) (l : AttrLoop) : State :=
  if l.tlen ≤ 0 then s.runs c.leave else
  let type := shortAt l.attr 0
  if ISAKMP_GEN_TV ≤ type then
    if type % ISAKMP_GEN_TV = XAUTH_TYPE then
      afterXauth c l DATA_LEN (xauthAttrReply a s iph1 l.attr)
    else s.runs (c.skip l DATA_LEN)
  else
    let alen := shortAt l.attr 2
    if l.tlen < alen then s.runs c.leave
    else if XAUTH_TYPE ≤ type ∧ type ≤ XAUTH_ANSWER then
      afterXauth c l (DATA_LEN + alen) (xauthAttrReply a s iph1 l.attr)
    else s.runs (c.skip l (DATA_LEN + alen))

/-- What `isakmp_xauth_set` does to the handle for an `XAUTH_STATUS`. -/
def isakmpXauthSet (iph1 : Ph1handle) (attr : Buf) : Ph1handle :=
  if !iph1.vendoridXauth then iph1
  else if !xauthClient iph1.authmethod then iph1
  else if shortAt attr 2 ≠ XAUTH_STATUS_OK then { iph1 with deletePh1 := true }
  else iph1

/-- A round of `isakmp_cfg_set`, and its end. -/
def isakmpCfgSet (s : State) (iph1 : Ph1handle) (c : Cursor) (l : AttrLoop) : State :=
  if l.tlen ≤ 0 then
    if iph1.deletePh1 then (s.delph1 iph1.index).runs c.leave else s.runs c.leave
  else
    let type := shortAt l.attr 0
    let s := if type % ISAKMP_GEN_TV = XAUTH_STATUS then s.setHandle (isakmpXauthSet iph1 l.attr) else s
    s.runs (c.skip l (if ISAKMP_GEN_TV ≤ type then DATA_LEN else DATA_LEN + shortAt l.attr 2))

/-- The payload that is next fits. -/
def Cursor.Fits (c : Cursor) : Prop :=
  0 < c.tlen ∧ c.np ≠ ISAKMP_NPTYPE_NONE ∧ (GEN_LEN : ℤ) ≤ c.tlen ∧ (shortAt c.ph 2 : ℤ) ≤ c.tlen
deriving Decidable

/-- To the next payload. -/
def Cursor.advance (c : Cursor) : Cursor :=
  { c with
    np := (byteAt c.ph 0).toNat
    ph := c.ph.drop (shortAt c.ph 2)
    tlen := c.tlen - shortAt c.ph 2 }

/-- Whether the hash payload holds the hash of the payload behind it. -/
def hashMatches (a : Answers) (ph : Buf) : Bool :=
  let nph := ph.drop (shortAt ph 2)
  match a.computeHash1 (memcpy nph (shortAt nph 2)) with
  | none => false
  | some check => memcpy (ph.drop GEN_LEN) check.length = check

/-- A round of `isakmp_cfg_r`. A payload whose attributes are gone over is left
    behind at once; requests, acknowledgements and other types change nothing here. -/
def isakmpCfgR (a : Answers) (s : State) (c : Cursor) : Option State :=
  let out := { s with running := none }
  if ¬c.Fits then some out else
  if c.np = ISAKMP_NPTYPE_HASH then
    (s.handle c.iph1).map fun _ => if hashMatches a c.ph then s.runs c.advance else out
  else if c.np = ISAKMP_NPTYPE_ATTR then
    (s.handle c.iph1).map fun _ =>
      let type := (byteAt c.ph 4).toNat
      if type = ISAKMP_CFG_REPLY ∨ type = ISAKMP_CFG_SET then
        s.runs
          { c.advance with
            attrs := some
              { type := type
                attr := c.ph.drop PL_ATTR_LEN
                tlen := (shortAt c.ph 2 : ℤ) - PL_ATTR_LEN } }
      else s.runs c.advance
  else some (s.runs c.advance)

/-- The step that runs next in a message. -/
def round (a : Answers) (s : State) (c : Cursor) : Option State :=
  match c.attrs with
  | none => isakmpCfgR a s c
  | some l =>
    (s.handle c.iph1).map fun iph1 =>
      if l.type = ISAKMP_CFG_REPLY then isakmpCfgReply a s iph1 c l else isakmpCfgSet s iph1 c l

/-! ### Steps -/

/-- What happens: time passes; a message goes on; and when none is gone over, a
    phase 1 begins, its peer announces Xauth, it is established, it expires or is
    deleted, the configuration changes, a delayed reply is due, or a message
    arrives for a handle, with what it is decrypted to and what lies behind it. -/
inductive Event where
  | tick (d : ℕ)
  | next (a : Answers)
  | begin (remote : Sockaddr) (authmethod : ℕ)
  | vendorid (index : ℕ)
  | establish (index : ℕ)
  | expire (index : ℕ)
  | delete (index : ℕ)
  | reload (cfg : CfgConfig)
  | reply (k : ℕ)
  | receive (index : ℕ) (msg : Buf) (dmsg : Option Buf) (heap : Buf)

def State.onHandle (s : State) (index : ℕ) (f : Ph1handle → Ph1handle) : State :=
  match s.handle index with
  | none => s
  | some iph1 => s.setHandle (f iph1)

/-- `xauth_reply_stub`, when its time has come. -/
def xauthReplyStub (s : State) (k : ℕ) : State :=
  match s.replies[k]? with
  | none => s
  | some xra =>
    if s.now < xra.xtime then s else
    let s := { s with replies := s.replies.eraseIdx k }
    match s.getph1byindex xra.index with
    | none => s
    | some iph1 => (xauthReply s iph1 xra.res).1

/-- The start of `isakmp_cfg_r`, for the handle that `isakmp_main` finds. -/
def receive (s : State) (index : ℕ) (msg : Buf) (dmsg : Option Buf) (heap : Buf) : State :=
  match s.getph1byindex index, dmsg with
  | some iph1, some dmsg =>
    if msg.length < ISAKMP_LEN then s
    else if (byteAt msg 19).toNat % 2 = 0 then s
    else
      s.runs
        { iph1 := iph1.index
          np := (byteAt dmsg 16).toNat
          ph := (dmsg ++ heap).drop ISAKMP_LEN
          tlen := (dmsg.length : ℤ) - ISAKMP_LEN
          attrs := none }
  | _, _ => s

/-- A step while no message is gone over. -/
def idle (s : State) : Event → State
  | .tick d => { s with now := s.now + d }
  | .next _ => s
  | .begin remote authmethod =>
    { s with
      ph1tree :=
        { index := s.cookies
          remote := remote
          status := 1
          authmethod := authmethod
          vendoridXauth := false
          deletePh1 := false
          xst := .NOTYET
          usr := none
          pwd := none
          udn := none } :: s.ph1tree
      cookies := s.cookies + 1 }
  | .vendorid index => s.onHandle index fun iph1 => { iph1 with vendoridXauth := true }
  | .establish index =>
    s.onHandle index fun iph1 =>
      let iph1 := { iph1 with status := PHASE1ST_ESTABLISHED }
      if iph1.vendoridXauth && xauthServer iph1.authmethod then xauthSendreq iph1 else iph1
  | .expire index => s.onHandle index fun iph1 => { iph1 with status := PHASE1ST_EXPIRED }
  | .delete index => s.delph1 index
  | .reload cfg => { s with cfg }
  | .reply k => xauthReplyStub s k
  | .receive index msg dmsg heap => receive s index msg dmsg heap

def step (s : State) (e : Event) : Option State :=
  match s.running, e with
  | none, e => some (idle s e)
  | some _, .tick d => some { s with now := s.now + d }
  | some c, .next a => round a s c
  | some _, _ => some s

end WanStack.Racoon.Xauth
