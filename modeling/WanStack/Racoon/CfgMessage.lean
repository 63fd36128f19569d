import WanStack.Racoon.Xauth

set_option autoImplicit false

/-!
# The reads of a mode config message

`isakmp_cfg_r` goes over the payloads of a decrypted message, and one of three loops
over the attributes of a payload. Every read of the message is tried against its end,
and an attribute payload is taken only behind a hash that covers it. What a message
meets of the phase 1 handle is told round by round; memory suffices.
-/
namespace WanStack.Racoon.Cfg
open Aftr (Buf byteAt shortAt bytesAt)
open Handles (ISAKMP_NPTYPE_HASH)
open Proposal (GEN_LEN DATA_LEN ISAKMP_NPTYPE_NONE)
open Xauth

def ISAKMP_CFG_REQUEST : ℕ := 1
def ISAKMP_CFG_ACK : ℕ := 4

def INTERNAL_IP4_ADDRESS : ℕ := 1
def INTERNAL_IP4_NETMASK : ℕ := 2
def INTERNAL_IP4_DNS : ℕ := 3
def INTERNAL_IP4_NBNS : ℕ := 4

def XAUTH_MESSAGE : ℕ := 16524

def UNITY_DEF_DOMAIN : ℕ := 28674
def UNITY_SPLIT_INCLUDE : ℕ := 28676
def UNITY_LOCAL_LAN : ℕ := 28678
def UNITY_DDNS_HOSTNAME : ℕ := 28682

def MAXPATHLEN : ℕ := 4096

/-- The size of `struct unity_network`. -/
def UNITY_NETWORK_LEN : ℕ := 14

/-- What is met of the handle when an attribute is gone over: its vendor ids, whether a
    login was asked for, whether `xauth_attr_reply` returns 0 once it has taken the
    attribute, and room for name servers. -/
structure Moment where
  vendoridXauth : Bool
  vendoridUnity : Bool
  reqsent : Bool
  replied : Bool
  dns4Room : Bool
  wins4Room : Bool

/-- How a loop ends: it goes through, it is left, or it meets a fault. -/
inductive Outcome where
  | through
  | left
  | outside
  | unverified
  | unfinished
deriving DecidableEq

/-- No fault. -/
def Outcome.Fine (o : Outcome) : Prop := o = .through ∨ o = .left

/-- What comes behind a payload that has to go through. -/
def Outcome.followed : Outcome → Outcome → Outcome
  | .through, onward => onward
  | o, _ => o

/-- What comes behind attributes, whatever their loop returns. -/
def Outcome.ignored : Outcome → Outcome → Outcome
  | .through, onward => onward
  | .left, onward => onward
  | o, _ => o

/-! ### Attributes

What is done with an attribute: how many bytes of its value are read, and whether the
loop goes on. -/

def xauthAttrReply (a : Moment) (type lorv : ℕ) : ℕ × Bool :=
  if !a.vendoridXauth then (0, false)
  else if !a.reqsent then (0, false)
  else if type = XAUTH_TYPE then (0, lorv = XAUTH_TYPE_GENERIC && a.replied)
  else (if type = XAUTH_USER_NAME ∨ type = XAUTH_USER_PASSWORD then lorv else 0, a.replied)

def isakmpCfgGetaddr4 (alen : ℕ) : ℕ := if alen = 4 then 4 else 0

def isakmpCfgAppendaddr4 (room : Bool) (alen : ℕ) : ℕ := if alen = 4 ∧ room then 4 else 0

def isakmpCfgGetstring (alen : ℕ) : ℕ := if MAXPATHLEN < alen then MAXPATHLEN else alen

def isakmpUnityReply (type alen : ℕ) : ℕ :=
  if type = UNITY_SPLIT_INCLUDE ∨ type = UNITY_LOCAL_LAN then alen / UNITY_NETWORK_LEN * UNITY_NETWORK_LEN else 0

def isakmpXauthReq (a : Moment) (type alen : ℕ) : ℕ := if a.vendoridXauth ∧ type = XAUTH_MESSAGE then alen else 0

/-- A host name is copied with its attribute. -/
def isakmpUnityReq (a : Moment) (type alen : ℕ) : ℕ := if a.vendoridUnity ∧ type = UNITY_DDNS_HOSTNAME then alen else 0

/-- The cases of a loop: of a short attribute, of a long one, and whether the length of a
    long one is checked. -/
structure Cases where
  short : Moment → ℕ → ℕ → Bool
  long : Moment → ℕ → ℕ → ℕ × Bool
  checked : Bool

def replyCases : Cases where
  short a type lorv := if type = XAUTH_TYPE then (xauthAttrReply a type lorv).2 else true
  long a type alen :=
    if XAUTH_TYPE ≤ type ∧ type ≤ XAUTH_ANSWER then xauthAttrReply a type alen
    else if type = INTERNAL_IP4_ADDRESS ∨ type = INTERNAL_IP4_NETMASK then (isakmpCfgGetaddr4 alen, true)
    else if type = INTERNAL_IP4_DNS then (isakmpCfgAppendaddr4 a.dns4Room alen, true)
    else if type = INTERNAL_IP4_NBNS then (isakmpCfgAppendaddr4 a.wins4Room alen, true)
    else if type = UNITY_DEF_DOMAIN then (isakmpCfgGetstring alen, true)
    else (isakmpUnityReply type alen, true)
  checked := true

/-- A short attribute has no value behind it. -/
def requestCases : Cases where
  short _ _ _ := true
  long a type alen :=
    if XAUTH_TYPE ≤ type ∧ type ≤ XAUTH_ANSWER then (isakmpXauthReq a type alen, true)
    else (isakmpUnityReq a type alen, true)
  checked := true

/-- `isakmp_xauth_set` looks at the header of the attribute only. -/
def setCases : Cases where
  short _ _ _ := true
  long _ _ _ := (0, true)
  checked := false

/-- A loop over attributes, with a bound on its rounds. -/
def attrLoop (c : Cases) (answers : ℕ → Moment) (m : Buf) : ℕ → ℕ → ℕ → ℤ → Outcome
  | 0, _, _, _ => .unfinished
  | k + 1, j, attr, tlen =>
    if ¬ 0 < tlen then .through
    else if m.length < attr + DATA_LEN then .outside
    else
      let type := shortAt m attr
      let lorv := shortAt m (attr + 2)
      if ISAKMP_GEN_TV ≤ type then
        if c.short (answers j) (type % ISAKMP_GEN_TV) lorv then
          attrLoop c answers m k (j + 1) (attr + DATA_LEN) (tlen - DATA_LEN)
        else .left
      else if c.checked ∧ tlen < lorv then .left
      else if m.length < attr + DATA_LEN + (c.long (answers j) type lorv).1 then .outside
      else if (c.long (answers j) type lorv).2 then
        attrLoop c answers m k (j + 1) (attr + DATA_LEN + lorv) (tlen - (DATA_LEN + lorv))
      else .left

/-- The attributes of the payload at `attrpl`. -/
def attributesOf (c : Cases) (answers : ℕ → Moment) (m : Buf) (attrpl : ℕ) : Outcome :=
  attrLoop c answers m (shortAt m (attrpl + 2) + 1) 0 (attrpl + PL_ATTR_LEN)
    ((shortAt m (attrpl + 2) : ℤ) - PL_ATTR_LEN)

/-- A script may be started, and the attributes are copied for the administrator. -/
def isakmpCfgReply (answers : ℕ → Moment) (m : Buf) (attrpl : ℕ) : Outcome := attributesOf replyCases answers m attrpl

/-- The answer repeats the identifier. -/
def answered (m : Buf) (attrpl : ℕ) : Outcome → Outcome
  | .through => if m.length < attrpl + PL_ATTR_LEN then .outside else .through
  | o => o

def isakmpCfgRequest (answers : ℕ → Moment) (m : Buf) (attrpl : ℕ) : Outcome :=
  answered m attrpl (attributesOf requestCases answers m attrpl)

def isakmpCfgSet (answers : ℕ → Moment) (m : Buf) (attrpl : ℕ) : Outcome :=
  answered m attrpl (attributesOf setCases answers m attrpl)

def isakmpCfgAttrR (answers : ℕ → Moment) (m : Buf) (attrpl : ℕ) : Outcome :=
  if m.length < attrpl + 5 then .outside
  else
    let type := (byteAt m (attrpl + 4)).toNat
    if type = ISAKMP_CFG_REPLY then isakmpCfgReply answers m attrpl
    else if type = ISAKMP_CFG_REQUEST then isakmpCfgRequest answers m attrpl
    else if type = ISAKMP_CFG_SET then isakmpCfgSet answers m attrpl
    else .through

/-! ### Payloads -/

/-- The case of a hash: it goes through when the payload behind it has this hash. -/
def hashPayload (computeHash1 : Buf → Option Buf) (m : Buf) (ph : ℕ) : Outcome :=
  let nph := ph + shortAt m (ph + 2)
  if m.length < nph + GEN_LEN then .outside
  else
    let plen := shortAt m (nph + 2)
    if m.length < nph + plen then .outside
    else
      match computeHash1 (bytesAt m nph plen) with
      | none => .left
      | some check =>
        if m.length < ph + GEN_LEN + check.length then .outside
        else if bytesAt m (ph + GEN_LEN) check.length = check then .through
        else .left

/-- The loop of `isakmp_cfg_r`, with a bound on its rounds. `covered` are the payloads that a
    hash was found right for. -/
def cfgLoop (computeHash1 : Buf → Option Buf) (answers : ℕ → ℕ → Moment) (m : Buf) :
    ℕ → ℕ → ℕ → ℕ → ℕ → List ℕ → Outcome
  | 0, _, _, _, _, _ => .unfinished
  | k + 1, i, np, ph, tlen, covered =>
    if ¬ 0 < tlen ∨ np = ISAKMP_NPTYPE_NONE then .through
    else if tlen < GEN_LEN then .left
    else if m.length < ph + GEN_LEN then .outside
    else
      let len := shortAt m (ph + 2)
      if tlen < len then .left
      else
        let onward := cfgLoop computeHash1 answers m k (i + 1) (byteAt m ph).toNat (ph + len) (tlen - len)
        if np = ISAKMP_NPTYPE_HASH then (hashPayload computeHash1 m ph).followed (onward ((ph + len) :: covered))
        else if np = ISAKMP_NPTYPE_ATTR then
          if ph ∈ covered then (isakmpCfgAttrR (answers i) m ph).ignored (onward covered) else .unverified
        else onward covered

/-- The message, behind its header: the loop ends without a fault. -/
def Safe (computeHash1 : Buf → Option Buf) (answers : ℕ → ℕ → Moment) (np : UInt8) (m : Buf) : Prop :=
  ∃ k, (cfgLoop computeHash1 answers m k 0 np.toNat 0 m.length []).Fine

/-! ### What the lengths lay out -/

/-- A payload, and the type it announces. -/
structure Payload where
  np : ℕ
  off : ℕ
  len : ℕ
  next : ℕ

/-- The payloads one behind the other; one without a length is the last. -/
def payloads (m : Buf) : ℕ → ℕ → ℕ → List Payload
  | 0, _, _ => []
  | k + 1, np, off =>
    if np = ISAKMP_NPTYPE_NONE ∨ m.length < off + GEN_LEN ∨ m.length < off + shortAt m (off + 2) then []
    else
      { np := np, off := off, len := shortAt m (off + 2), next := (byteAt m off).toNat } ::
        if shortAt m (off + 2) = 0 then []
        else payloads m k (byteAt m off).toNat (off + shortAt m (off + 2))

/-- An attribute, with what is left of its payload. -/
structure Attribute where
  moment : ℕ
  off : ℕ
  tlen : ℤ

/-- The attributes that a loop comes to. -/
def attributes (c : Cases) (answers : ℕ → Moment) (m : Buf) : ℕ → ℕ → ℕ → ℤ → List Attribute
  | 0, _, _, _ => []
  | k + 1, j, off, tlen =>
    if ¬ 0 < tlen then []
    else
      { moment := j, off := off, tlen := tlen } ::
        if ISAKMP_GEN_TV ≤ shortAt m off then
          if c.short (answers j) (shortAt m off % ISAKMP_GEN_TV) (shortAt m (off + 2)) then
            attributes c answers m k (j + 1) (off + DATA_LEN) (tlen - DATA_LEN)
          else []
        else if c.checked ∧ tlen < shortAt m (off + 2) then []
        else if (c.long (answers j) (shortAt m off) (shortAt m (off + 2))).2 then
          attributes c answers m k (j + 1) (off + DATA_LEN + shortAt m (off + 2))
            (tlen - (DATA_LEN + shortAt m (off + 2)))
        else []

/-- Header, and what is read of the value, end inside the message. -/
def Attribute.Inside (c : Cases) (answers : ℕ → Moment) (m : Buf) (a : Attribute) : Prop :=
  a.off + DATA_LEN ≤ m.length ∧
    (shortAt m a.off < ISAKMP_GEN_TV → ¬ (c.checked ∧ a.tlen < shortAt m (a.off + 2)) →
      a.off + DATA_LEN + (c.long (answers a.moment) (shortAt m a.off) (shortAt m (a.off + 2))).1 ≤ m.length)

theorem attrLoop_fine_iff (c : Cases) (answers : ℕ → Moment) (m : Buf) (k j off : ℕ) (tlen : ℤ) (hk : tlen < k)
    (hpos : 0 < k) :
    (attrLoop c answers m k j off tlen).Fine ↔
      ∀ a ∈ attributes c answers m k j off tlen, a.Inside c answers m := by
  induction k generalizing j off tlen with
  | zero => exact absurd hpos (Nat.lt_irrefl 0)
  | succ k ih =>
    rw [attrLoop, attributes]
    by_cases hend : ¬ 0 < tlen
    · rw [if_pos hend, if_pos hend]
      simp [Outcome.Fine]
    rw [if_neg hend, if_neg hend, List.forall_mem_cons]
    have hdata : DATA_LEN = 4 := rfl
    have hk0 : 0 < k := by omega
    by_cases hheader : m.length < off + DATA_LEN
    · rw [if_pos hheader]
      constructor
      · rintro (h | h) <;> cases h
      · rintro ⟨⟨hinside, -⟩, -⟩
        exact absurd hinside (Nat.not_le_of_lt hheader)
    rw [if_neg hheader]
    dsimp only
    by_cases hshort : ISAKMP_GEN_TV ≤ shortAt m off
    · have hinside : Attribute.Inside c answers m { moment := j, off := off, tlen := tlen } :=
        ⟨Nat.le_of_not_lt hheader, fun h => absurd h (Nat.not_lt_of_le hshort)⟩
      rw [if_pos hshort, if_pos hshort]
      by_cases hgo : c.short (answers j) (shortAt m off % ISAKMP_GEN_TV) (shortAt m (off + 2)) = true
      · rw [if_pos hgo, if_pos hgo, ih _ _ _ (by omega) hk0]
        exact (and_iff_right hinside).symm
      · rw [if_neg hgo, if_neg hgo]
        simp [Outcome.Fine, hinside]
    rw [if_neg hshort, if_neg hshort]
    have hlong := Nat.lt_of_not_le hshort
    by_cases hcheck : c.checked = true ∧ tlen < shortAt m (off + 2)
    · have hinside : Attribute.Inside c answers m { moment := j, off := off, tlen := tlen } :=
        ⟨Nat.le_of_not_lt hheader, fun _ h => absurd hcheck h⟩
      rw [if_pos hcheck, if_pos hcheck]
      simp [Outcome.Fine, hinside]
    rw [if_neg hcheck, if_neg hcheck]
    by_cases hvalue : m.length < off + DATA_LEN + (c.long (answers j) (shortAt m off) (shortAt m (off + 2))).1
    · rw [if_pos hvalue]
      constructor
      · rintro (h | h) <;> cases h
      · rintro ⟨⟨-, hinside⟩, -⟩
        exact absurd (hinside hlong hcheck) (Nat.not_le_of_lt hvalue)
    have hinside : Attribute.Inside c answers m { moment := j, off := off, tlen := tlen } :=
      ⟨Nat.le_of_not_lt hheader, fun _ _ => Nat.le_of_not_lt hvalue⟩
    rw [if_neg hvalue]
    by_cases hgo : (c.long (answers j) (shortAt m off) (shortAt m (off + 2))).2 = true
    · rw [if_pos hgo, if_pos hgo, ih _ _ _ (by omega) hk0]
      exact (and_iff_right hinside).symm
    · rw [if_neg hgo, if_neg hgo]
      simp [Outcome.Fine, hinside]

/-! ### Proper payloads -/

/-- The attributes of the payload at `attrpl` lie inside the message. -/
def AttributesInside (c : Cases) (answers : ℕ → Moment) (m : Buf) (attrpl : ℕ) : Prop :=
  ∀ a ∈ attributes c answers m (shortAt m (attrpl + 2) + 1) 0 (attrpl + PL_ATTR_LEN)
    ((shortAt m (attrpl + 2) : ℤ) - PL_ATTR_LEN), a.Inside c answers m

theorem attributesOf_fine_iff (c : Cases) (answers : ℕ → Moment) (m : Buf) (attrpl : ℕ) :
    (attributesOf c answers m attrpl).Fine ↔ AttributesInside c answers m attrpl :=
  attrLoop_fine_iff c answers m _ 0 _ _ (by have hattr : PL_ATTR_LEN = 8 := rfl; omega) (Nat.succ_pos _)

/-- A loop that comes to an attribute starts behind the whole payload header. -/
theorem attributesOf_left {c : Cases} {answers : ℕ → Moment} {m : Buf} {attrpl : ℕ}
    (hfits : attrpl + shortAt m (attrpl + 2) ≤ m.length) (h : attributesOf c answers m attrpl ≠ .through) :
    attrpl + PL_ATTR_LEN ≤ m.length := by
  by_contra hshort
  apply h
  have hattr : PL_ATTR_LEN = 8 := rfl
  rw [attributesOf, attrLoop, if_pos (by omega)]

theorem answered_fine_iff {c : Cases} {answers : ℕ → Moment} {m : Buf} {attrpl : ℕ}
    (hfits : attrpl + shortAt m (attrpl + 2) ≤ m.length) :
    (answered m attrpl (attributesOf c answers m attrpl)).Fine ↔
      attrpl + PL_ATTR_LEN ≤ m.length ∧ AttributesInside c answers m attrpl := by
  rw [← attributesOf_fine_iff]
  by_cases hthrough : attributesOf c answers m attrpl = .through
  · rw [hthrough, answered]
    by_cases hshort : m.length < attrpl + PL_ATTR_LEN
    · rw [if_pos hshort]
      constructor
      · rintro (h | h) <;> cases h
      · rintro ⟨h, -⟩
        exact absurd h (Nat.not_le_of_lt hshort)
    · rw [if_neg hshort]
      exact (and_iff_right (Nat.le_of_not_lt hshort)).symm
  · have hheader := attributesOf_left hfits hthrough
    have hsame : answered m attrpl (attributesOf c answers m attrpl) = attributesOf c answers m attrpl := by
      revert hthrough
      cases attributesOf c answers m attrpl with
      | through => exact fun h => absurd rfl h
      | left | outside | unverified | unfinished => exact fun _ => rfl
    rw [hsame]
    exact (and_iff_right hheader).symm

/-- An attribute payload: the type of its exchange, the identifier that an answer repeats and
    its attributes lie inside the message. -/
def AttrFits (answers : ℕ → Moment) (m : Buf) (attrpl : ℕ) : Prop :=
  attrpl + 5 ≤ m.length ∧
    ((byteAt m (attrpl + 4)).toNat = ISAKMP_CFG_REPLY → AttributesInside replyCases answers m attrpl) ∧
    ((byteAt m (attrpl + 4)).toNat = ISAKMP_CFG_REQUEST →
      attrpl + PL_ATTR_LEN ≤ m.length ∧ AttributesInside requestCases answers m attrpl) ∧
    ((byteAt m (attrpl + 4)).toNat = ISAKMP_CFG_SET →
      attrpl + PL_ATTR_LEN ≤ m.length ∧ AttributesInside setCases answers m attrpl)

theorem isakmpCfgAttrR_fine_iff {answers : ℕ → Moment} {m : Buf} {attrpl : ℕ}
    (hfits : attrpl + shortAt m (attrpl + 2) ≤ m.length) :
    (isakmpCfgAttrR answers m attrpl).Fine ↔ AttrFits answers m attrpl := by
  unfold isakmpCfgAttrR AttrFits
  by_cases htype : m.length < attrpl + 5
  · rw [if_pos htype]
    constructor
    · rintro (h | h) <;> cases h
    · rintro ⟨h, -⟩
      exact absurd h (Nat.not_le_of_lt htype)
  rw [if_neg htype, and_iff_right (Nat.le_of_not_lt htype)]
  dsimp only
  by_cases hreply : (byteAt m (attrpl + 4)).toNat = ISAKMP_CFG_REPLY
  · rw [if_pos hreply, isakmpCfgReply, attributesOf_fine_iff, hreply]
    simp [ISAKMP_CFG_REPLY, ISAKMP_CFG_REQUEST, ISAKMP_CFG_SET]
  rw [if_neg hreply]
  by_cases hrequest : (byteAt m (attrpl + 4)).toNat = ISAKMP_CFG_REQUEST
  · rw [if_pos hrequest, isakmpCfgRequest, answered_fine_iff hfits, hrequest]
    simp [ISAKMP_CFG_REPLY, ISAKMP_CFG_REQUEST, ISAKMP_CFG_SET]
  rw [if_neg hrequest]
  by_cases hset : (byteAt m (attrpl + 4)).toNat = ISAKMP_CFG_SET
  · rw [if_pos hset, isakmpCfgSet, answered_fine_iff hfits, hset]
    simp [ISAKMP_CFG_REPLY, ISAKMP_CFG_REQUEST, ISAKMP_CFG_SET]
  rw [if_neg hset]
  simp [hreply, hrequest, hset, Outcome.Fine]

/-- A hash payload: the payload behind it is whole, and the hash is as long as it has to be. -/
def HashFits (computeHash1 : Buf → Option Buf) (m : Buf) (ph : ℕ) : Prop :=
  ph + shortAt m (ph + 2) + GEN_LEN ≤ m.length ∧
    ph + shortAt m (ph + 2) + shortAt m (ph + shortAt m (ph + 2) + 2) ≤ m.length ∧
    ∀ check, computeHash1 (bytesAt m (ph + shortAt m (ph + 2)) (shortAt m (ph + shortAt m (ph + 2) + 2))) = some check →
      ph + GEN_LEN + check.length ≤ m.length

/-- It is not the hash of the payload behind it. -/
def Mismatch (computeHash1 : Buf → Option Buf) (m : Buf) (ph : ℕ) : Prop :=
  ∀ check, computeHash1 (bytesAt m (ph + shortAt m (ph + 2)) (shortAt m (ph + shortAt m (ph + 2) + 2))) = some check →
    bytesAt m (ph + GEN_LEN) check.length ≠ check

theorem hashPayload_cases (computeHash1 : Buf → Option Buf) (m : Buf) (ph : ℕ) :
    (hashPayload computeHash1 m ph = .outside ∧ ¬ HashFits computeHash1 m ph) ∨
    (hashPayload computeHash1 m ph = .left ∧ HashFits computeHash1 m ph ∧ Mismatch computeHash1 m ph) ∨
    (hashPayload computeHash1 m ph = .through ∧ HashFits computeHash1 m ph ∧ ¬ Mismatch computeHash1 m ph) := by
  unfold hashPayload HashFits Mismatch
  dsimp only
  generalize ph + shortAt m (ph + 2) = nph
  by_cases hheader : m.length < nph + GEN_LEN
  · exact Or.inl ⟨if_pos hheader, fun h => absurd h.1 (Nat.not_le_of_lt hheader)⟩
  rw [if_neg hheader]
  by_cases hbody : m.length < nph + shortAt m (nph + 2)
  · exact Or.inl ⟨if_pos hbody, fun h => absurd h.2.1 (Nat.not_le_of_lt hbody)⟩
  rw [if_neg hbody]
  have hwhole := And.intro (Nat.le_of_not_lt hheader) (Nat.le_of_not_lt hbody)
  cases computeHash1 (bytesAt m nph (shortAt m (nph + 2))) with
  | none =>
    simp only [reduceCtorEq, false_implies, implies_true, and_true]
    exact Or.inr (Or.inl ⟨trivial, hwhole⟩)
  | some check =>
    simp only [Option.some.injEq, forall_eq']
    by_cases hdigest : m.length < ph + GEN_LEN + check.length
    · exact Or.inl ⟨if_pos hdigest, fun h => absurd h.2.2 (Nat.not_le_of_lt hdigest)⟩
    rw [if_neg hdigest]
    have hfits := And.intro hwhole.1 (And.intro hwhole.2 (Nat.le_of_not_lt hdigest))
    by_cases hsame : bytesAt m (ph + GEN_LEN) check.length = check
    · exact Or.inr (Or.inr ⟨if_pos hsame, hfits, fun h => h hsame⟩)
    · exact Or.inr (Or.inl ⟨if_neg hsame, hfits, hsame⟩)

/-- The message is left at this payload. -/
def Leaves (computeHash1 : Buf → Option Buf) (m : Buf) (np off : ℕ) : Prop :=
  np = ISAKMP_NPTYPE_HASH ∧ HashFits computeHash1 m off ∧ Mismatch computeHash1 m off

/-- A payload with the one in front of it: a hash is followed by a whole payload; attributes
    stand behind a hash and lie inside the message; and a payload without a length is
    the last, or is taken for a hash that is not its own. -/
structure Payload.Proper (computeHash1 : Buf → Option Buf) (answers : ℕ → Moment) (m : Buf) (front : Option Payload)
    (p : Payload) : Prop where
  hash : p.np = ISAKMP_NPTYPE_HASH → HashFits computeHash1 m p.off
  attr : p.np = ISAKMP_NPTYPE_ATTR →
    (∃ f, front = some f ∧ f.np = ISAKMP_NPTYPE_HASH) ∧ AttrFits answers m p.off
  empty : p.len = 0 → ¬ Leaves computeHash1 m p.np p.off →
    p.next = ISAKMP_NPTYPE_NONE ∨ Leaves computeHash1 m p.next p.off

/-- All payloads are proper, up to the one at which the message is left. -/
def Proper (computeHash1 : Buf → Option Buf) (answers : ℕ → ℕ → Moment) (m : Buf) :
    ℕ → Option Payload → List Payload → Prop
  | _, _, [] => True
  | i, front, p :: ps =>
    p.Proper computeHash1 (answers i) m front ∧
      (¬ Leaves computeHash1 m p.np p.off → Proper computeHash1 answers m (i + 1) (some p) ps)

/-! ### The rounds -/

theorem followed_fine (o onward : Outcome) : (o.followed onward).Fine ↔ o = .left ∨ o = .through ∧ onward.Fine := by
  cases o <;> simp [Outcome.followed, Outcome.Fine]

theorem ignored_fine (o onward : Outcome) : (o.ignored onward).Fine ↔ o.Fine ∧ onward.Fine := by
  cases o <;> simp [Outcome.ignored, Outcome.Fine]

section Rounds
variable {computeHash1 : Buf → Option Buf} {answers : ℕ → ℕ → Moment} {m : Buf} {np off : ℕ}

/-- A payload that is laid out. -/
def LaidOut (m : Buf) (np off : ℕ) : Prop :=
  np ≠ ISAKMP_NPTYPE_NONE ∧ off + GEN_LEN ≤ m.length ∧ off + shortAt m (off + 2) ≤ m.length

theorem cfgLoop_end (h : ¬ LaidOut m np off) (hoff : off ≤ m.length) (k i : ℕ) (covered : List ℕ) :
    (cfgLoop computeHash1 answers m (k + 1) i np off (m.length - off) covered).Fine := by
  have hgen : GEN_LEN = 4 := rfl
  rw [cfgLoop]
  by_cases hnone : ¬ 0 < m.length - off ∨ np = ISAKMP_NPTYPE_NONE
  · rw [if_pos hnone]
    exact Or.inl rfl
  rw [if_neg hnone]
  by_cases hheader : m.length - off < GEN_LEN
  · rw [if_pos hheader]
    exact Or.inr rfl
  rw [if_neg hheader, if_neg (by omega)]
  have hlong : m.length - off < shortAt m (off + 2) := by
    by_contra hfits
    exact h ⟨(not_or.mp hnone).2, by omega, by omega⟩
  dsimp only
  rw [if_pos hlong]
  exact Or.inr rfl

theorem cfgLoop_round (h : LaidOut m np off) (k i : ℕ) (covered : List ℕ) :
    cfgLoop computeHash1 answers m (k + 1) i np off (m.length - off) covered =
      if np = ISAKMP_NPTYPE_HASH then
        (hashPayload computeHash1 m off).followed
          (cfgLoop computeHash1 answers m k (i + 1) (byteAt m off).toNat (off + shortAt m (off + 2))
            (m.length - (off + shortAt m (off + 2))) ((off + shortAt m (off + 2)) :: covered))
      else if np = ISAKMP_NPTYPE_ATTR then
        if off ∈ covered then
          (isakmpCfgAttrR (answers i) m off).ignored
            (cfgLoop computeHash1 answers m k (i + 1) (byteAt m off).toNat (off + shortAt m (off + 2))
              (m.length - (off + shortAt m (off + 2))) covered)
        else .unverified
      else
        cfgLoop computeHash1 answers m k (i + 1) (byteAt m off).toNat (off + shortAt m (off + 2))
          (m.length - (off + shortAt m (off + 2))) covered := by
  obtain ⟨hnone, hheader, hfits⟩ := h
  have hgen : GEN_LEN = 4 := rfl
  have hgo : ¬ (¬ 0 < m.length - off ∨ np = ISAKMP_NPTYPE_NONE) := by
    rintro (h | h)
    · omega
    · exact hnone h
  rw [cfgLoop, if_neg hgo, if_neg (by omega), if_neg (by omega)]
  dsimp only
  rw [if_neg (by omega), Nat.sub_sub]

/-- A payload without a length is met again, under the type that it announces. -/
theorem stuck_iff (hheader : off + GEN_LEN ≤ m.length) (hlen : shortAt m (off + 2) = 0) (i : ℕ) (covered : List ℕ) :
    (∃ k, (cfgLoop computeHash1 answers m k i (byteAt m off).toNat off (m.length - off) covered).Fine) ↔
      (byteAt m off).toNat = ISAKMP_NPTYPE_NONE ∨ Leaves computeHash1 m (byteAt m off).toNat off := by
  have hgen : GEN_LEN = 4 := rfl
  constructor
  · rintro ⟨k, hfine⟩
    induction k generalizing i covered with
    | zero => obtain h | h := hfine <;> cases h
    | succ k ih =>
      by_cases hnone : (byteAt m off).toNat = ISAKMP_NPTYPE_NONE
      · exact Or.inl hnone
      have hlaid : LaidOut m (byteAt m off).toNat off := ⟨hnone, hheader, by omega⟩
      rw [cfgLoop_round hlaid, hlen, Nat.add_zero] at hfine
      split_ifs at hfine with hhash hattr hcovered
      · obtain hleft | ⟨-, hfine⟩ := (followed_fine _ _).mp hfine
        · obtain ⟨h, -⟩ | ⟨-, hfits, hmiss⟩ | ⟨h, -⟩ := hashPayload_cases computeHash1 m off
          · cases hleft.symm.trans h
          · exact Or.inr ⟨hhash, hfits, hmiss⟩
          · cases hleft.symm.trans h
        · exact ih _ _ hfine
      · exact ih _ _ ((ignored_fine _ _).mp hfine).2
      · obtain h | h := hfine <;> cases h
      · exact ih _ _ hfine
  · intro h
    by_cases hnone : (byteAt m off).toNat = ISAKMP_NPTYPE_NONE
    · exact ⟨1, cfgLoop_end (fun hlaid => hlaid.1 hnone) (by omega) 0 i covered⟩
    obtain ⟨hhash, hfits, hmiss⟩ := h.resolve_left hnone
    refine ⟨1, ?_⟩
    rw [cfgLoop_round ⟨hnone, hheader, by omega⟩, if_pos hhash, followed_fine]
    obtain ⟨-, h⟩ | ⟨h, -⟩ | ⟨-, -, h⟩ := hashPayload_cases computeHash1 m off
    · exact absurd hfits h
    · exact Or.inl h
    · exact absurd hmiss h

/-- The payload at an offset. -/
def payloadAt (m : Buf) (np off : ℕ) : Payload where
  np := np
  off := off
  len := shortAt m (off + 2)
  next := (byteAt m off).toNat

theorem payloads_laid (h : LaidOut m np off) (n : ℕ) : payloads m (n + 1) np off =
    payloadAt m np off ::
      if shortAt m (off + 2) = 0 then [] else payloads m n (byteAt m off).toNat (off + shortAt m (off + 2)) := by
  obtain ⟨hnone, hheader, hfits⟩ := h
  rw [payloads, if_neg]
  · rfl
  · rintro (h | h | h)
    · exact hnone h
    · omega
    · omega

theorem payloads_end (h : ¬ LaidOut m np off) (n : ℕ) : payloads m (n + 1) np off = [] := by
  rw [payloads, if_pos]
  by_contra hlaid
  obtain ⟨hnone, hrest⟩ := not_or.mp hlaid
  obtain ⟨hheader, hfits⟩ := not_or.mp hrest
  exact h ⟨hnone, Nat.le_of_not_lt hheader, Nat.le_of_not_lt hfits⟩

/-- What a hash covers of the payloads gone over: the next one, if it is the last of them. -/
structure Covers (covered : List ℕ) (front : Option Payload) (off : ℕ) : Prop where
  mem_iff : off ∈ covered ↔ ∃ f, front = some f ∧ f.np = ISAKMP_NPTYPE_HASH
  le : ∀ c ∈ covered, c ≤ off

theorem Covers.hash {covered : List ℕ} {front : Option Payload} (h : Covers covered front off)
    (hhash : np = ISAKMP_NPTYPE_HASH) :
    Covers ((off + shortAt m (off + 2)) :: covered) (some (payloadAt m np off)) (off + shortAt m (off + 2)) := by
  constructor
  · exact ⟨fun _ => ⟨_, rfl, hhash⟩, fun _ => List.mem_cons_self⟩
  · intro c hc
    obtain rfl | hc := List.mem_cons.mp hc
    · exact Nat.le_refl _
    · exact Nat.le_trans (h.le c hc) (Nat.le_add_right _ _)

theorem Covers.other {covered : List ℕ} {front : Option Payload} (h : Covers covered front off)
    (hother : np ≠ ISAKMP_NPTYPE_HASH) (hlen : shortAt m (off + 2) ≠ 0) :
    Covers covered (some (payloadAt m np off)) (off + shortAt m (off + 2)) := by
  constructor
  · constructor
    · intro hmem
      have hle := h.le _ hmem
      omega
    · rintro ⟨f, hf, hnp⟩
      rw [← Option.some.inj hf] at hnp
      exact absurd hnp hother
  · intro c hc
    exact Nat.le_trans (h.le c hc) (Nat.le_add_right _ _)

/-- The first round decides, then what follows. -/
theorem exists_round {P : ℕ → Prop} (hzero : ¬ P 0) : (∃ k, P k) ↔ ∃ k, P (k + 1) := by
  constructor
  · rintro ⟨k, hk⟩
    cases k with
    | zero => exact absurd hk hzero
    | succ k => exact ⟨k, hk⟩
  · rintro ⟨k, hk⟩
    exact ⟨k + 1, hk⟩

theorem loop_iff (n i : ℕ) (covered : List ℕ) (front : Option Payload) (hn : m.length < off + n)
    (hoff : off ≤ m.length) (hcovers : Covers covered front off) :
    (∃ k, (cfgLoop computeHash1 answers m k i np off (m.length - off) covered).Fine) ↔
      Proper computeHash1 answers m i front (payloads m n np off) := by
  induction n generalizing i np off covered front with
  | zero => omega
  | succ n ih =>
    by_cases hlaid : LaidOut m np off
    swap
    · rw [payloads_end hlaid]
      exact ⟨fun _ => trivial, fun _ => ⟨1, cfgLoop_end hlaid hoff 0 i covered⟩⟩
    have hzero : ¬ (cfgLoop computeHash1 answers m 0 i np off (m.length - off) covered).Fine := by
      rintro (h | h) <;> cases h
    rw [payloads_laid hlaid, Proper, exists_round hzero]
    simp only [cfgLoop_round hlaid]
    obtain ⟨hnone, hheader, hfits⟩ := hlaid
    -- what the rounds behind this one ask for
    have honward : ∀ covered', (shortAt m (off + 2) ≠ 0 →
          Covers covered' (some (payloadAt m np off)) (off + shortAt m (off + 2))) →
        ((∃ k, (cfgLoop computeHash1 answers m k (i + 1) (byteAt m off).toNat (off + shortAt m (off + 2))
            (m.length - (off + shortAt m (off + 2))) covered').Fine) ↔
          ((payloadAt m np off).len = 0 → (payloadAt m np off).next = ISAKMP_NPTYPE_NONE ∨
              Leaves computeHash1 m (payloadAt m np off).next off) ∧
            Proper computeHash1 answers m (i + 1) (some (payloadAt m np off))
              (if shortAt m (off + 2) = 0 then []
                else payloads m n (byteAt m off).toNat (off + shortAt m (off + 2)))) := by
      intro covered' hcovers'
      by_cases hlen : shortAt m (off + 2) = 0
      · have hplace : off + shortAt m (off + 2) = off := by omega
        rw [if_pos hlen, hplace, stuck_iff hheader hlen]
        exact ⟨fun h => ⟨fun _ => h, trivial⟩, fun h => h.1 hlen⟩
      · rw [if_neg hlen, ih (i + 1) covered' _ (by omega) hfits (hcovers' hlen)]
        exact (and_iff_right fun h => absurd h hlen).symm
    by_cases hhash : np = ISAKMP_NPTYPE_HASH
    · have hattr : np ≠ ISAKMP_NPTYPE_ATTR := by
        rw [hhash]
        decide
      simp only [if_pos hhash, followed_fine]
      obtain ⟨h, hno⟩ | ⟨h, hyes, hmiss⟩ | ⟨h, hyes, hmatch⟩ := hashPayload_cases computeHash1 m off
      · rw [h]
        constructor
        · rintro ⟨k, h | ⟨h, -⟩⟩ <;> cases h
        · rintro ⟨hproper, -⟩
          exact absurd (hproper.hash hhash) hno
      · have hleaves : Leaves computeHash1 m np off := ⟨hhash, hyes, hmiss⟩
        constructor
        · intro _
          exact ⟨⟨fun _ => hyes, fun h => absurd h hattr, fun _ h => absurd hleaves h⟩, fun h => absurd hleaves h⟩
        · intro _
          exact ⟨0, Or.inl h⟩
      · have hstays : ¬ Leaves computeHash1 m np off := fun hleaves => hmatch hleaves.2.2
        rw [h]
        simp only [reduceCtorEq, false_or, true_and]
        rw [honward _ fun _ => hcovers.hash hhash]
        constructor
        · rintro ⟨hempty, hrest⟩
          exact ⟨⟨fun _ => hyes, fun h => absurd h hattr, fun hlen _ => hempty hlen⟩, fun _ => hrest⟩
        · rintro ⟨hproper, hrest⟩
          exact ⟨fun hlen => hproper.empty hlen hstays, hrest hstays⟩
    have hstays : ¬ Leaves computeHash1 m np off := fun hleaves => hhash hleaves.1
    simp only [if_neg hhash]
    by_cases hattr : np = ISAKMP_NPTYPE_ATTR
    · simp only [if_pos hattr]
      by_cases hcov : off ∈ covered
      · simp only [if_pos hcov, ignored_fine, exists_and_left]
        rw [honward _ fun hlen => hcovers.other hhash hlen, isakmpCfgAttrR_fine_iff hfits]
        constructor
        · rintro ⟨hattrs, hempty, hrest⟩
          exact ⟨⟨fun h => absurd h hhash, fun _ => ⟨hcovers.mem_iff.mp hcov, hattrs⟩, fun hlen _ => hempty hlen⟩,
            fun _ => hrest⟩
        · rintro ⟨hproper, hrest⟩
          exact ⟨(hproper.attr hattr).2, fun hlen => hproper.empty hlen hstays, hrest hstays⟩
      · simp only [if_neg hcov]
        constructor
        · rintro ⟨k, h | h⟩ <;> cases h
        · rintro ⟨hproper, -⟩
          exact absurd (hcovers.mem_iff.mpr (hproper.attr hattr).1) hcov
    · simp only [if_neg hattr]
      rw [honward _ fun hlen => hcovers.other hhash hlen]
      constructor
      · rintro ⟨hempty, hrest⟩
        exact ⟨⟨fun h => absurd h hhash, fun h => absurd h hattr, fun hlen _ => hempty hlen⟩, fun _ => hrest⟩
      · rintro ⟨hproper, hrest⟩
        exact ⟨fun hlen => hproper.empty hlen hstays, hrest hstays⟩

end Rounds

/-- A message is gone over without a fault exactly if the payloads that its lengths lay out
    are proper, up to the one at which it is left. -/
theorem safe_iff (computeHash1 : Buf → Option Buf) (answers : ℕ → ℕ → Moment) (np : UInt8) (m : Buf) :
    Safe computeHash1 answers np m ↔
      Proper computeHash1 answers m 0 none (payloads m (m.length + 1) np.toNat 0) := by
  apply loop_iff
  · omega
  · exact Nat.zero_le _
  · constructor
    · simp
    · simp

/-- Attributes without a hash in front: an exchange of type ACK, and no attribute. -/
def bareAttr : Buf := [0, 0, 0, 8, 4, 0, 0, 0]

def noLogin : Moment where
  vendoridXauth := false
  vendoridUnity := false
  reqsent := false
  replied := false
  dns4Room := false
  wins4Room := false

/-- They are acted upon, whatever the hash. -/
theorem bare_attr_taken : ¬ Safe (fun _ => none) (fun _ _ => noLogin) 14 bareAttr := by
  rintro ⟨k, hfine⟩
  cases k with
  | zero => obtain h | h := hfine <;> cases h
  | succ k =>
    have hlaid : LaidOut bareAttr 14 0 := ⟨by decide, by decide, by decide⟩
    have hround := @cfgLoop_round (fun _ => none) (fun _ _ => noLogin) bareAttr 14 0 hlaid k 0 []
    rw [if_neg (by decide), if_pos (show 14 = ISAKMP_NPTYPE_ATTR from rfl), if_neg List.not_mem_nil] at hround
    change (cfgLoop _ _ bareAttr (k + 1) 0 14 0 (bareAttr.length - 0) []).Fine at hfine
    rw [hround] at hfine
    obtain h | h := hfine <;> cases h

end WanStack.Racoon.Cfg
