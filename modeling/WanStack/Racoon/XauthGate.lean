import WanStack.Racoon.Xauth

set_option autoImplicit false

/-!
# The Xauth gate

A server's phase 1 handle passes `xauth_check` only behind a login that was
accepted while its host was not throttled.
-/
namespace WanStack.Racoon.Xauth
open Aftr (Buf byteAt shortAt)
open Aftr.ControlStream (cstring)
open Handles (PHASE1ST_ESTABLISHED PHASE1ST_EXPIRED ISAKMP_NPTYPE_HASH)
open PartialRun

/-! ### Accepted logins -/

def inGroup (cfg : CfgConfig) (a : Answers) (usr : Buf) (udn : Option Buf) (grp : Buf) : Bool :=
  match cfg.groupsource with
  | .SYSTEM => xauthGroupSystem a usr grp = 0
  | .LDAP => a.groupLdap udn grp = 0
  | .other => false

/-- The configured source takes the name and the password, and a listed group has
    the user if any is listed. -/
def Moment.accepts (m : Moment) (usr pwd : Buf) : Bool :=
  match m.answers.port with
  | none => false
  | some port =>
    let login := authenticate m.cfg m.answers port (cstring usr) (cstring pwd) m.udn
    login.1 = 0 &&
      (m.cfg.grouplist.isEmpty || m.cfg.grouplist.any (inGroup m.cfg m.answers (cstring usr) login.2))

/-- The delay that `throttle_host` imposes. -/
def Moment.delay (m : Moment) (remote : Sockaddr) (authfail : Bool) : ℕ :=
  (throttleHost m.cfg.authThrottle m.now m.throttleList remote authfail m.answers.throttleAdd).2

def Moment.Passes (m : Moment) (remote : Sockaddr) (usr pwd : Buf) : Prop :=
  m.accepts usr pwd ∧ m.delay remote false = 0
deriving Decidable

/-- The login is refused, but only later. -/
def Moment.Delayed (m : Moment) (remote : Sockaddr) (usr pwd : Buf) : Prop :=
  m.answers.port ≠ none ∧ m.delay remote (!m.accepts usr pwd) ≠ 0 ∧ m.answers.calloc
deriving Decidable

section Login
variable (cfg : CfgConfig) (a : Answers) (usr : Buf) (udn : Option Buf)

theorem groupLoop_eq_zero (res : ℤ) (hres : res ≠ 0) (grps : List Buf) :
    groupLoop cfg a usr udn res grps = 0 ↔ grps.any (inGroup cfg a usr udn) := by
  induction grps generalizing res with
  | nil => simp [groupLoop, hres]
  | cons grp grps ih =>
    rw [groupLoop, List.any_cons, inGroup]
    cases cfg.groupsource with
    | SYSTEM =>
      by_cases hgrp : xauthGroupSystem a usr grp = 0
      · simp [hgrp]
      · simp only [hgrp, if_false, decide_false, Bool.false_or]
        exact ih _ hgrp
    | LDAP =>
      by_cases hgrp : a.groupLdap udn grp = 0
      · simp [hgrp]
      · simp only [hgrp, if_false, decide_false, Bool.false_or]
        exact ih _ hgrp
    | other =>
      simp only [hres, if_false, Bool.false_or]
      exact ih _ hres

variable (m : Moment) (remote : Sockaddr) (pwd : Buf)

/-- What the source and the groups make of a name and a password. -/
theorem accepts_iff (port : ℕ) (hport : m.answers.port = some port) (login : ℤ × Option Buf)
    (hlogin : login = authenticate m.cfg m.answers port (cstring usr) (cstring pwd) m.udn) :
    (if login.1 = 0 ∧ m.cfg.grouplist ≠ [] then groupCheck m.cfg m.answers (cstring usr) login.2
      else login.1) = 0 ↔ m.accepts usr pwd := by
  simp only [Moment.accepts, hport, ← hlogin]
  by_cases hres : login.1 = 0
  · by_cases hgrps : m.cfg.grouplist = []
    · simp [hres, hgrps]
    · have hloop := groupLoop_eq_zero m.cfg m.answers (cstring usr) login.2 (-1) (by decide)
        m.cfg.grouplist
      rw [if_pos ⟨hres, hgrps⟩, groupCheck, hloop]
      simp [hres, hgrps]
  · simp [hres]

theorem tryLogin_delay : (tryLogin m remote (cstring usr) (cstring pwd)).delay =
    if m.answers.port = none then 0 else m.delay remote (!m.accepts usr pwd) := by
  unfold tryLogin Moment.delay
  cases hport : m.answers.port with
  | none => rfl
  | some port =>
    have haccepts := accepts_iff usr m pwd port hport _ rfl
    simp only [reduceCtorEq, if_false]
    congr 2
    rw [Bool.eq_iff_iff, decide_eq_true_iff, Ne, haccepts]
    simp

/-- A login is successful when it is accepted and not throttled. -/
theorem tryLogin_res :
    (tryLogin m remote (cstring usr) (cstring pwd)).res = 0 ↔ m.Passes remote usr pwd := by
  have hdelay := tryLogin_delay usr m remote pwd
  unfold tryLogin at hdelay ⊢
  unfold Moment.Passes
  cases hport : m.answers.port with
  | none => simp [Moment.accepts, hport]
  | some port =>
    have haccepts := accepts_iff usr m pwd port hport _ rfl
    simp only [hport, reduceCtorEq, if_false] at hdelay ⊢
    rw [hdelay]
    by_cases hpass : m.accepts usr pwd
    · have hzero := haccepts.mpr hpass
      simp only [hpass, Bool.not_true]
      rcases Nat.eq_zero_or_pos (m.delay remote false) with hno | hpos
      · rw [hno, if_neg (by decide), hzero]
        simp
      · rw [if_pos hpos]
        have hne := Nat.ne_of_gt hpos
        simp [hne]
    · have hne := mt haccepts.mp hpass
      simp only [hpass, Bool.false_eq_true, false_and, iff_false]
      rcases Nat.eq_zero_or_pos (m.delay remote !false) with hno | hpos
      · rwa [hno, if_neg (by decide)]
      · rw [if_pos hpos]
        decide

theorem tryLogin_delayed (h : (tryLogin m remote (cstring usr) (cstring pwd)).delay ≠ 0) :
    (tryLogin m remote (cstring usr) (cstring pwd)).res ≠ 0 := by
  unfold tryLogin at h ⊢
  cases hport : m.answers.port with
  | none => simp
  | some port =>
    simp only [hport] at h ⊢
    rw [if_pos (Nat.pos_of_ne_zero h)]
    decide

end Login

/-! ### The gate -/

/-- A login with a name and a password received over the handle before was
    accepted, without a delay for the host. -/
def LoggedIn (did : List Did) (index : ℕ) (remote : Sockaddr) : Prop :=
  ∃ front usr pwd m behind, did = front ++ .login index usr pwd m :: behind ∧
    .usr index usr ∈ front ∧ .pwd index pwd ∈ front ∧ m.Passes remote usr pwd

/-- A handle of the server passes the check. -/
def Lets (iph1 : Ph1handle) : Prop := xauthServer iph1.authmethod ∧ xauthCheck iph1 = 0

def Gate (s : State) : Prop :=
  ∀ iph1 ∈ s.ph1tree, Lets iph1 → LoggedIn s.did iph1.index iph1.remote

/-- The round of a message for the attribute at `l`, of the handle `iph1`. -/
structure InLoop (s : State) (e : Event) (a : Answers) (c : Cursor) (l : AttrLoop) (iph1 : Ph1handle) :
    Prop where
  event : e = .next a
  running : s.running = some c
  attrs : c.attrs = some l
  handle : s.handle c.iph1 = some iph1

/-- An attribute of a SET payload, or a status. -/
def FromStatus (l : AttrLoop) : Prop :=
  l.type = ISAKMP_CFG_SET ∨ shortAt l.attr 0 % ISAKMP_GEN_TV = XAUTH_STATUS

/-- What is asked of a step: the gate holds behind it, and no handle passes anew
    through a SET payload or a status. -/
def Sound (s : State) (e : Event) (s' : State) : Prop :=
  Gate s' ∧ ∀ a c l iph1, InLoop s e a c l iph1 → FromStatus l →
    ∀ g' ∈ s'.ph1tree, Lets g' → ∃ g ∈ s.ph1tree, g.index = g'.index ∧ Lets g

/-- A payload that is gone over with the handle is still to come. -/
inductive Touches : Cursor → Prop where
  | here {c : Cursor} (fits : c.Fits) (np : c.np = ISAKMP_NPTYPE_HASH ∨ c.np = ISAKMP_NPTYPE_ATTR) :
    Touches c
  | later {c : Cursor} (fits : c.Fits) (rest : Touches c.advance) : Touches c

/-- The attribute at `l` gets to `xauth_attr_reply`. -/
def Reaches (l : AttrLoop) : Prop :=
  0 < l.tlen ∧
    if ISAKMP_GEN_TV ≤ shortAt l.attr 0 then shortAt l.attr 0 % ISAKMP_GEN_TV = XAUTH_TYPE
    else (shortAt l.attr 2 : ℤ) ≤ l.tlen ∧ XAUTH_TYPE ≤ shortAt l.attr 0 ∧ shortAt l.attr 0 ≤ XAUTH_ANSWER

/-- It passes the checks there. -/
structure Heeds (iph1 : Ph1handle) (attr : Buf) : Prop where
  vendorid : iph1.vendoridXauth
  reqsent : iph1.xst = .REQSENT
  generic : otherXauthType attr = false

/-- The attribute at `l` starts a login with this name and password. -/
structure Starts (iph1 : Ph1handle) (l : AttrLoop) (usr pwd : Buf) : Prop where
  reply : l.type = ISAKMP_CFG_REPLY
  reaches : Reaches l
  heeds : Heeds iph1 l.attr
  usr : (storeAttr iph1 l.attr).usr = some usr
  pwd : (storeAttr iph1 l.attr).pwd = some pwd

/-- No login is refused at once, and no client's handle deleted for a status, while
    the message has a payload to come that is gone over with the handle; and a
    status in a reply starts no login that is accepted. -/
structure Careful (s : State) (e : Event) : Prop where
  refused : ∀ a c l iph1 usr pwd, InLoop s e a c l iph1 → Starts iph1 l usr pwd →
    ¬ (s.moment a iph1).Passes iph1.remote usr pwd → ¬ (s.moment a iph1).Delayed iph1.remote usr pwd →
      ¬ Touches c.leave
  status : ∀ a c l iph1 usr pwd, InLoop s e a c l iph1 → Starts iph1 l usr pwd →
    shortAt l.attr 0 % ISAKMP_GEN_TV = XAUTH_STATUS → ¬ (s.moment a iph1).Passes iph1.remote usr pwd
  client : ∀ a c l iph1, InLoop s e a c l iph1 → l.type ≠ ISAKMP_CFG_REPLY → l.tlen ≤ 0 →
    iph1.deletePh1 → ¬ Touches c.leave

/-! ### What is kept -/

/-- What a handle stores was received over it, and it is logged in if it says so. -/
structure Backed (did : List Did) (iph1 : Ph1handle) : Prop where
  usr : ∀ v, iph1.usr = some v → .usr iph1.index v ∈ did
  pwd : ∀ v, iph1.pwd = some v → .pwd iph1.index v ∈ did
  ok : iph1.xst = .OK → LoggedIn did iph1.index iph1.remote

def State.indices (s : State) : List ℕ := s.ph1tree.map Ph1handle.index

/-- The handle of a message is there while a payload may still be gone over with it. -/
def Alive (s : State) (c : Cursor) : Prop := c.iph1 ∈ s.indices ∨ c.attrs = none ∧ ¬ Touches c

structure Inv (s : State) : Prop where
  backed : ∀ iph1 ∈ s.ph1tree, Backed s.did iph1
  refused : ∀ xra ∈ s.replies, xra.res ≠ 0
  alive : ∀ c, s.running = some c → Alive s c

theorem xauthCheck_server {iph1 : Ph1handle} (h : Lets iph1) : iph1.xst = .OK := by
  obtain ⟨hserver, hcheck⟩ := h
  unfold xauthCheck at hcheck
  rw [if_pos hserver] at hcheck
  by_contra hne
  cases hv : iph1.vendoridXauth <;> simp [hv, hne] at hcheck

theorem Inv.gate {s : State} (h : Inv s) : Gate s :=
  fun iph1 hmem hlets => (h.backed iph1 hmem).ok (xauthCheck_server hlets)

theorem LoggedIn.mono {did : List Did} {index : ℕ} {remote : Sockaddr} (more : List Did)
    (h : LoggedIn did index remote) : LoggedIn (did ++ more) index remote := by
  obtain ⟨front, usr, pwd, m, behind, rfl, hrest⟩ := h
  exact ⟨front, usr, pwd, m, behind ++ more, by simp, hrest⟩

theorem Backed.mono {did : List Did} {iph1 : Ph1handle} (more : List Did) (h : Backed did iph1) :
    Backed (did ++ more) iph1 where
  usr v hv := List.mem_append_left _ (h.usr v hv)
  pwd v hv := List.mem_append_left _ (h.pwd v hv)
  ok hok := (h.ok hok).mono more

section State
variable (s : State) (iph1 : Ph1handle)

theorem mem_setHandle {g : Ph1handle} (h : g ∈ (s.setHandle iph1).ph1tree) :
    g = iph1 ∨ g ∈ s.ph1tree := by
  obtain ⟨f, hf, rfl⟩ := List.mem_map.mp h
  split
  · exact Or.inl rfl
  · exact Or.inr hf

theorem indices_setHandle : (s.setHandle iph1).indices = s.indices := by
  unfold State.indices State.setHandle
  rw [List.map_map]
  apply List.map_congr_left
  intro g _
  dsimp only [Function.comp]
  split
  · next h => exact h.symm
  · rfl

theorem mem_delph1 {g : Ph1handle} {index : ℕ} (h : g ∈ (s.delph1 index).ph1tree) : g ∈ s.ph1tree :=
  (List.mem_filter.mp h).1

variable {s iph1}

theorem handle_mem {index : ℕ} (h : s.handle index = some iph1) : iph1 ∈ s.ph1tree ∧ iph1.index = index :=
  ⟨List.mem_of_find?_eq_some h, by simpa using List.find?_some h⟩

theorem handle_of_index {index : ℕ} (h : index ∈ s.indices) : ∃ iph1, s.handle index = some iph1 := by
  obtain ⟨g, hg, rfl⟩ := List.mem_map.mp h
  rw [← Option.isSome_iff_exists, State.handle, List.find?_isSome]
  exact ⟨g, hg, by simp⟩

theorem handle_index {index : ℕ} (h : s.handle index = some iph1) : index ∈ s.indices := by
  obtain ⟨hmem, rfl⟩ := handle_mem h
  exact List.mem_map_of_mem hmem

end State

theorem Backed.congr {did : List Did} {g iph1 : Ph1handle} (h : Backed did iph1)
    (hindex : g.index = iph1.index) (hremote : g.remote = iph1.remote) (husr : g.usr = iph1.usr)
    (hpwd : g.pwd = iph1.pwd) (hok : g.xst = .OK → iph1.xst = .OK) : Backed did g where
  usr v hv := hindex ▸ h.usr v (husr ▸ hv)
  pwd v hv := hindex ▸ h.pwd v (hpwd ▸ hv)
  ok hg := by
    rw [hindex, hremote]
    exact h.ok (hok hg)

theorem backed_storeAttr {did : List Did} {iph1 : Ph1handle} (h : Backed did iph1) (attr : Buf) :
    Backed (did ++ storeDid iph1 attr) (storeAttr iph1 attr) := by
  unfold storeAttr storeDid
  dsimp only
  split
  · refine ⟨?_, fun v hv => List.mem_append_left _ (h.pwd v hv), fun hok => (h.ok hok).mono _⟩
    intro v hv
    obtain rfl := Option.some.inj hv
    exact List.mem_append_right _ List.mem_cons_self
  · split
    · refine ⟨fun v hv => List.mem_append_left _ (h.usr v hv), ?_, fun hok => (h.ok hok).mono _⟩
      intro v hv
      obtain rfl := Option.some.inj hv
      exact List.mem_append_right _ List.mem_cons_self
    · exact h.mono []

@[simp] theorem storeAttr_index (iph1 : Ph1handle) (attr : Buf) :
    (storeAttr iph1 attr).index = iph1.index := by
  unfold storeAttr
  dsimp only
  split <;> [rfl; split <;> rfl]

/-! ### A login -/

section Attempt
variable {a : Answers} {s : State} {iph1 : Ph1handle}

/-- How a login with a stored name and password ends: it is answered later, or it
    is successful, or the handle is deleted. -/
theorem attempt_cases {usr pwd : Buf} (husr : iph1.usr = some usr) (hpwd : iph1.pwd = some pwd) :
    ∃ login, login = tryLogin (s.moment a iph1) iph1.remote (cstring usr) (cstring pwd) ∧
      ((s.moment a iph1).Delayed iph1.remote usr pwd ∧ login.res ≠ 0 ∧
          attempt a s iph1 =
            ({ s.tried iph1 usr pwd (s.moment a iph1) login with
              replies := s.replies ++
                [{ index := iph1.index, res := login.res, xtime := s.now + login.delay * SECOND }] }, 0) ∨
        ¬ (s.moment a iph1).Delayed iph1.remote usr pwd ∧ (s.moment a iph1).Passes iph1.remote usr pwd ∧
          attempt a s iph1 =
            ((s.tried iph1 usr pwd (s.moment a iph1) login).setHandle
              { iph1 with udn := login.udn, xst := .OK }, 0) ∨
        ¬ (s.moment a iph1).Delayed iph1.remote usr pwd ∧ ¬ (s.moment a iph1).Passes iph1.remote usr pwd ∧
          attempt a s iph1 =
            ((s.tried iph1 usr pwd (s.moment a iph1) login).delph1 iph1.index, -1)) := by
  refine ⟨_, rfl, ?_⟩
  have hdelay := tryLogin_delay usr (s.moment a iph1) iph1.remote pwd
  have hres := tryLogin_res usr (s.moment a iph1) iph1.remote pwd
  have hlater := tryLogin_delayed usr (s.moment a iph1) iph1.remote pwd
  generalize hlogin : tryLogin (s.moment a iph1) iph1.remote (cstring usr) (cstring pwd) = login at *
  have hdelayed : (s.moment a iph1).Delayed iph1.remote usr pwd ↔ login.delay ≠ 0 ∧ a.calloc := by
    rw [hdelay, Moment.Delayed]
    change a.port ≠ none ∧ _ ∧ _ ↔ (if a.port = none then _ else _) ≠ 0 ∧ _
    by_cases hport : a.port = none
    · simp [hport]
    · simp [hport, State.moment]
  have hattempt : attempt a s iph1 =
      if login.delay ≠ 0 ∧ a.calloc then
        ({ s.tried iph1 usr pwd (s.moment a iph1) login with
          replies := s.replies ++
            [{ index := iph1.index, res := login.res, xtime := s.now + login.delay * SECOND }] }, 0)
      else xauthReply (s.tried iph1 usr pwd (s.moment a iph1) login) { iph1 with udn := login.udn }
        login.res := by
    unfold attempt
    simp only [husr, hpwd, hlogin]
    rfl
  rw [hattempt, hdelayed]
  by_cases hd : login.delay ≠ 0 ∧ a.calloc
  · exact Or.inl ⟨hd, hlater hd.1, if_pos hd⟩
  · rw [if_neg hd]
    by_cases hpass : (s.moment a iph1).Passes iph1.remote usr pwd
    · refine Or.inr (Or.inl ⟨hd, hpass, ?_⟩)
      rw [xauthReply, if_neg (not_not.mpr (hres.mpr hpass))]
    · refine Or.inr (Or.inr ⟨hd, hpass, ?_⟩)
      rw [xauthReply, if_pos (mt hres.mp hpass)]

/-- A login that may be refused at once: it is neither accepted nor delayed. -/
def Refused (a : Answers) (s : State) (iph1 : Ph1handle) : Prop :=
  ∃ usr pwd, iph1.usr = some usr ∧ iph1.pwd = some pwd ∧
    ¬ (s.moment a iph1).Passes iph1.remote usr pwd ∧ ¬ (s.moment a iph1).Delayed iph1.remote usr pwd

def Accepted (a : Answers) (s : State) (iph1 : Ph1handle) : Prop :=
  ∃ usr pwd, iph1.usr = some usr ∧ iph1.pwd = some pwd ∧ (s.moment a iph1).Passes iph1.remote usr pwd

theorem indices_tried (usr pwd : Buf) (m : Moment) (login : Login) :
    (s.tried iph1 usr pwd m login).indices = s.indices :=
  indices_setHandle s { iph1 with udn := login.udn }

/-- What a login leaves of the state `s`, when `iph1` is a handle of it. -/
structure After (a : Answers) (s : State) (iph1 : Ph1handle) (r : State × ℤ) : Prop where
  backed : (∀ g ∈ s.ph1tree, Backed s.did g) → Backed s.did iph1 → ∀ g ∈ r.1.ph1tree, Backed r.1.did g
  refused : (∀ xra ∈ s.replies, xra.res ≠ 0) → ∀ xra ∈ r.1.replies, xra.res ≠ 0
  indices : r.1.indices = s.indices ∨ Refused a s iph1 ∧ r.2 ≠ 0
  lets : ¬ Accepted a s iph1 → ∀ g' ∈ r.1.ph1tree, Lets g' →
    ∃ g, (g = iph1 ∨ g ∈ s.ph1tree) ∧ g.index = g'.index ∧ Lets g

theorem after_same (err : ℤ) : After a s iph1 (s, err) where
  backed hall _ := hall
  refused h := h
  indices := Or.inl rfl
  lets _ g' hg' hlets := ⟨g', Or.inr hg', rfl, hlets⟩

/-- The handles behind a login, before its answer. -/
theorem backed_tried (usr pwd : Buf) (m : Moment) (login : Login)
    (hall : ∀ g ∈ s.ph1tree, Backed s.did g) (hb : Backed s.did iph1) :
    ∀ g ∈ (s.tried iph1 usr pwd m login).ph1tree, Backed (s.tried iph1 usr pwd m login).did g := by
  intro g hg
  have hnew : Backed s.did { iph1 with udn := login.udn } := hb.congr rfl rfl rfl rfl id
  rcases mem_setHandle s _ hg with rfl | hg
  · exact hnew.mono _
  · exact (hall g hg).mono _

theorem lets_tried (usr pwd : Buf) (m : Moment) (login : Login) {g' : Ph1handle}
    (hg' : g' ∈ (s.tried iph1 usr pwd m login).ph1tree) (hlets : Lets g') :
    ∃ g, (g = iph1 ∨ g ∈ s.ph1tree) ∧ g.index = g'.index ∧ Lets g := by
  rcases mem_setHandle s _ hg' with rfl | hg'
  · exact ⟨iph1, Or.inl rfl, rfl, hlets⟩
  · exact ⟨g', Or.inr hg', rfl, hlets⟩

variable (a s iph1) in
theorem attempt_after : After a s iph1 (attempt a s iph1) := by
  cases husr : iph1.usr with
  | none =>
    have hnone : attempt a s iph1 = (s, 0) := by
      unfold attempt
      rw [husr]
    rw [hnone]
    exact after_same 0
  | some usr =>
    cases hpwd : iph1.pwd with
    | none =>
      have hnone : attempt a s iph1 = (s, 0) := by
        unfold attempt
        rw [husr, hpwd]
      rw [hnone]
      exact after_same 0
    | some pwd =>
      obtain ⟨login, -, hcase⟩ := attempt_cases (a := a) (s := s) husr hpwd
      rcases hcase with ⟨-, hres, heq⟩ | ⟨-, hpass, heq⟩ | ⟨hdelayed, hpass, heq⟩
      · rw [heq]
        refine ⟨backed_tried usr pwd (s.moment a iph1) login, ?_, ?_,
          fun _ g' hg' => lets_tried usr pwd (s.moment a iph1) login hg'⟩
        · intro hrefused xra hxra
          rcases List.mem_append.mp hxra with hxra | hxra
          · exact hrefused xra hxra
          · obtain rfl := List.mem_singleton.mp hxra
            exact hres
        · exact Or.inl (indices_tried usr pwd (s.moment a iph1) login)
      · rw [heq]
        refine ⟨?_, fun h => h, ?_, fun h => absurd ⟨usr, pwd, husr, hpwd, hpass⟩ h⟩
        · intro hall hb g hg
          rcases mem_setHandle _ _ hg with rfl | hg
          · refine ⟨fun v hv => List.mem_append_left _ (hb.usr v hv),
              fun v hv => List.mem_append_left _ (hb.pwd v hv), fun _ => ?_⟩
            exact ⟨s.did, usr, pwd, s.moment a iph1, [], rfl, hb.usr usr husr, hb.pwd pwd hpwd, hpass⟩
          · exact backed_tried usr pwd (s.moment a iph1) login hall hb g hg
        · exact Or.inl ((indices_setHandle _ _).trans (indices_tried usr pwd (s.moment a iph1) login))
      · rw [heq]
        refine ⟨?_, fun h => h, Or.inr ⟨⟨usr, pwd, husr, hpwd, hpass, hdelayed⟩, by simp⟩, ?_⟩
        · exact fun hall hb g hg => backed_tried usr pwd (s.moment a iph1) login hall hb g (mem_delph1 _ hg)
        · exact fun _ g' hg' => lets_tried usr pwd (s.moment a iph1) login (mem_delph1 _ hg')

end Attempt

/-! ### An attribute -/

section Attribute
variable {a : Answers} {s : State} {iph1 : Ph1handle}

theorem lets_storeAttr (attr : Buf) : Lets (storeAttr iph1 attr) ↔ Lets iph1 := by
  unfold storeAttr
  dsimp only
  split <;> [rfl; split <;> rfl]

theorem storeAttr_remote (attr : Buf) : (storeAttr iph1 attr).remote = iph1.remote := by
  unfold storeAttr
  dsimp only
  split <;> [rfl; split <;> rfl]

theorem moment_stored (attr : Buf) :
    (s.stored iph1 attr).moment a (storeAttr iph1 attr) = s.moment a iph1 := by
  have hudn : (storeAttr iph1 attr).udn = iph1.udn := by
    unfold storeAttr
    dsimp only
    split <;> [rfl; split <;> rfl]
  unfold State.moment State.stored
  rw [hudn]
  rfl

variable (a s iph1) in
theorem xauthAttrReply_cases (attr : Buf) : xauthAttrReply a s iph1 attr = (s, -1) ∨
    Heeds iph1 attr ∧
      xauthAttrReply a s iph1 attr = attempt a (s.stored iph1 attr) (storeAttr iph1 attr) := by
  unfold xauthAttrReply
  cases hv : iph1.vendoridXauth with
  | false => exact Or.inl (by simp)
  | true =>
    by_cases hst : iph1.xst = .REQSENT
    · cases ho : otherXauthType attr with
      | true => exact Or.inl (by simp [hst])
      | false => exact Or.inr ⟨⟨hv, hst, ho⟩, by simp [hst]⟩
    · exact Or.inl (by simp [hst])

/-- What an attribute leaves of the state, by the login it starts. -/
structure Replied (a : Answers) (s : State) (iph1 : Ph1handle) (attr : Buf) (r : State × ℤ) : Prop where
  backed : ∀ g ∈ r.1.ph1tree, Backed r.1.did g
  refused : ∀ xra ∈ r.1.replies, xra.res ≠ 0
  indices : r.1.indices = s.indices ∨
    Heeds iph1 attr ∧ Refused a (s.stored iph1 attr) (storeAttr iph1 attr) ∧ r.2 ≠ 0
  lets : ¬ (Heeds iph1 attr ∧ Accepted a (s.stored iph1 attr) (storeAttr iph1 attr)) →
    ∀ g' ∈ r.1.ph1tree, Lets g' → ∃ g ∈ s.ph1tree, g.index = g'.index ∧ Lets g

theorem xauthAttrReply_replied (hinv : Inv s) (hmem : iph1 ∈ s.ph1tree) (attr : Buf) :
    Replied a s iph1 attr (xauthAttrReply a s iph1 attr) := by
  rcases xauthAttrReply_cases a s iph1 attr with heq | ⟨hheeds, heq⟩
  · rw [heq]
    exact
      { backed := hinv.backed
        refused := hinv.refused
        indices := Or.inl rfl
        lets := fun _ g' hg' hlets => ⟨g', hg', rfl, hlets⟩ }
  · rw [heq]
    have hafter := attempt_after a (s.stored iph1 attr) (storeAttr iph1 attr)
    have hb := backed_storeAttr (hinv.backed iph1 hmem) attr
    refine ⟨hafter.backed ?_ hb, hafter.refused hinv.refused, ?_, ?_⟩
    · intro g hg
      rcases mem_setHandle s _ hg with rfl | hg
      · exact hb
      · exact (hinv.backed g hg).mono _
    · rcases hafter.indices with hsame | hrefused
      · exact Or.inl (hsame.trans (indices_setHandle s _))
      · exact Or.inr ⟨hheeds, hrefused⟩
    · intro hno g' hg' hlets
      obtain ⟨g, hg, hindex, hl⟩ := hafter.lets (fun hacc => hno ⟨hheeds, hacc⟩) g' hg' hlets
      have hor : g = storeAttr iph1 attr ∨ g ∈ s.ph1tree := by
        rcases hg with rfl | hg
        · exact Or.inl rfl
        · exact mem_setHandle s _ hg
      rcases hor with rfl | hg
      · exact ⟨iph1, hmem, (storeAttr_index iph1 attr).symm.trans hindex, (lets_storeAttr attr).mp hl⟩
      · exact ⟨g, hg, hindex, hl⟩

end Attribute

/-! ### Rounds -/

section Round
variable {a : Answers} {s s' : State} {e : Event} {c : Cursor} {l : AttrLoop} {iph1 : Ph1handle}

/-- The message goes on at `c`. -/
theorem Inv.runs (hbacked : ∀ g ∈ s.ph1tree, Backed s.did g) (hrefused : ∀ xra ∈ s.replies, xra.res ≠ 0)
    (halive : Alive s c) : Inv (s.runs c) where
  backed := hbacked
  refused := hrefused
  alive c' hc' := by
    obtain rfl := Option.some.inj hc'
    exact halive

variable (a s c l iph1) in
theorem isakmpCfgReply_cases : isakmpCfgReply a s iph1 c l = s.runs c.leave ∨
    (∃ n, isakmpCfgReply a s iph1 c l = s.runs (c.skip l n)) ∨
      Reaches l ∧
        ∃ n, isakmpCfgReply a s iph1 c l = afterXauth c l n (xauthAttrReply a s iph1 l.attr) := by
  unfold isakmpCfgReply Reaches
  dsimp only
  split
  · exact Or.inl rfl
  · next hleft =>
    have hpos : 0 < l.tlen := Int.not_le.mp hleft
    split
    · split
      · next htype => exact Or.inr (Or.inr ⟨⟨hpos, htype⟩, _, rfl⟩)
      · exact Or.inr (Or.inl ⟨_, rfl⟩)
    · split
      · exact Or.inl rfl
      · next hfits =>
        split
        · next htype =>
          exact Or.inr (Or.inr ⟨⟨hpos, Int.not_lt.mp hfits, htype⟩, _, rfl⟩)
        · exact Or.inr (Or.inl ⟨_, rfl⟩)

/-- A login of the attribute, in the words of the state before. -/
theorem starts_of (hreply : l.type = ISAKMP_CFG_REPLY) (hreaches : Reaches l)
    (hheeds : Heeds iph1 l.attr) {usr pwd : Buf} (husr : (storeAttr iph1 l.attr).usr = some usr)
    (hpwd : (storeAttr iph1 l.attr).pwd = some pwd) : Starts iph1 l usr pwd where
  reply := hreply
  reaches := hreaches
  heeds := hheeds
  usr := husr
  pwd := hpwd

theorem reply_sound (hinv : Inv s) (hc : Careful s e) (hloop : InLoop s e a c l iph1)
    (hreply : l.type = ISAKMP_CFG_REPLY) :
    Inv (isakmpCfgReply a s iph1 c l) ∧
      (FromStatus l → ∀ g' ∈ (isakmpCfgReply a s iph1 c l).ph1tree, Lets g' →
        ∃ g ∈ s.ph1tree, g.index = g'.index ∧ Lets g) := by
  obtain ⟨hmem, hindex⟩ := handle_mem hloop.handle
  have hthere := handle_index hloop.handle
  rcases isakmpCfgReply_cases a s c l iph1 with
    heq | ⟨n, heq⟩ | ⟨hreaches, n, heq⟩
  · rw [heq]
    exact ⟨Inv.runs hinv.backed hinv.refused (Or.inl hthere),
      fun _ g' hg' hlets => ⟨g', hg', rfl, hlets⟩⟩
  · rw [heq]
    exact ⟨Inv.runs hinv.backed hinv.refused (Or.inl hthere),
      fun _ g' hg' hlets => ⟨g', hg', rfl, hlets⟩⟩
  · have hrep := xauthAttrReply_replied (a := a) hinv hmem l.attr
    have hnone : FromStatus l →
        ¬ (Heeds iph1 l.attr ∧ Accepted a (s.stored iph1 l.attr) (storeAttr iph1 l.attr)) := by
      rintro hstatus ⟨hheeds, usr, pwd, husr, hpwd, hpass⟩
      rw [moment_stored, storeAttr_remote] at hpass
      rcases hstatus with hset | hstatus
      · rw [hreply] at hset
        exact absurd hset (by decide)
      · exact hc.status a c l iph1 usr pwd hloop (starts_of hreply hreaches hheeds husr hpwd) hstatus hpass
    rw [heq, afterXauth]
    split
    · refine ⟨Inv.runs hrep.backed hrep.refused ?_, fun hstatus => hrep.lets (hnone hstatus)⟩
      rcases hrep.indices with hsame | ⟨hheeds, ⟨usr, pwd, husr, hpwd, hpass, hdelayed⟩, -⟩
      · refine Or.inl ?_
        rw [hsame]
        exact hthere
      · rw [moment_stored, storeAttr_remote] at hpass hdelayed
        exact Or.inr ⟨rfl, hc.refused a c l iph1 usr pwd hloop
          (starts_of hreply hreaches hheeds husr hpwd) hpass hdelayed⟩
    · next hzero =>
      refine ⟨Inv.runs hrep.backed hrep.refused ?_, fun hstatus => hrep.lets (hnone hstatus)⟩
      rcases hrep.indices with hsame | ⟨-, -, hne⟩
      · refine Or.inl ?_
        rw [hsame]
        exact hthere
      · exact absurd hne hzero

theorem isakmpXauthSet_lets (attr : Buf) : Lets (isakmpXauthSet iph1 attr) ↔ Lets iph1 := by
  unfold isakmpXauthSet
  split <;> [rfl; split <;> [rfl; split <;> rfl]]

theorem backed_isakmpXauthSet {did : List Did} (h : Backed did iph1) (attr : Buf) :
    Backed did (isakmpXauthSet iph1 attr) := by
  unfold isakmpXauthSet
  split
  · exact h
  · split
    · exact h
    · split
      · exact h.congr rfl rfl rfl rfl id
      · exact h

theorem isakmpXauthSet_index (attr : Buf) : (isakmpXauthSet iph1 attr).index = iph1.index := by
  unfold isakmpXauthSet
  split <;> [rfl; split <;> [rfl; split <;> rfl]]

theorem set_sound (hinv : Inv s) (hc : Careful s e) (hloop : InLoop s e a c l iph1)
    (hset : l.type ≠ ISAKMP_CFG_REPLY) :
    Inv (isakmpCfgSet s iph1 c l) ∧
      ∀ g' ∈ (isakmpCfgSet s iph1 c l).ph1tree, Lets g' →
        ∃ g ∈ s.ph1tree, g.index = g'.index ∧ Lets g := by
  obtain ⟨hmem, hindex⟩ := handle_mem hloop.handle
  have hthere := handle_index hloop.handle
  unfold isakmpCfgSet
  dsimp only
  split
  · next hend =>
    split
    · next hdelete =>
      refine ⟨Inv.runs (fun g hg => hinv.backed g (mem_delph1 s hg)) hinv.refused ?_,
        fun g' hg' hlets => ⟨g', mem_delph1 s hg', rfl, hlets⟩⟩
      exact Or.inr ⟨rfl, hc.client a c l iph1 hloop hset hend hdelete⟩
    · exact ⟨Inv.runs hinv.backed hinv.refused (Or.inl hthere),
        fun g' hg' hlets => ⟨g', hg', rfl, hlets⟩⟩
  · split
    · refine ⟨Inv.runs ?_ hinv.refused (Or.inl ?_), ?_⟩
      · intro g hg
        rcases mem_setHandle s _ hg with rfl | hg
        · exact backed_isakmpXauthSet (hinv.backed iph1 hmem) l.attr
        · exact hinv.backed g hg
      · rw [indices_setHandle]
        exact hthere
      · intro g' hg' hlets
        rcases mem_setHandle s _ hg' with rfl | hg'
        · exact ⟨iph1, hmem, (isakmpXauthSet_index l.attr).symm, (isakmpXauthSet_lets l.attr).mp hlets⟩
        · exact ⟨g', hg', rfl, hlets⟩
    · exact ⟨Inv.runs hinv.backed hinv.refused (Or.inl hthere),
        fun g' hg' hlets => ⟨g', hg', rfl, hlets⟩⟩

/-- A round of `isakmp_cfg_r` changes no handle, and is defined while none that is
    needed has gone. -/
theorem isakmpCfgR_sound (hinv : Inv s) (hrun : s.running = some c) (hattrs : c.attrs = none) :
    ∃ s', isakmpCfgR a s c = some s' ∧ Inv s' ∧ s'.ph1tree = s.ph1tree := by
  have halive := hinv.alive c hrun
  have hout : Inv { s with running := none } :=
    { backed := hinv.backed
      refused := hinv.refused
      alive := fun c' hc' => by cases hc' }
  have hgoes : ∀ c', c'.iph1 = c.iph1 → c.iph1 ∈ s.indices → Inv (s.runs c') :=
    fun c' hsame hthere => Inv.runs hinv.backed hinv.refused (Or.inl (hsame ▸ hthere))
  unfold isakmpCfgR
  dsimp only
  by_cases hfits : c.Fits
  · rw [if_neg (not_not.mpr hfits)]
    have hneeded : c.np = ISAKMP_NPTYPE_HASH ∨ c.np = ISAKMP_NPTYPE_ATTR → c.iph1 ∈ s.indices := by
      intro hnp
      rcases halive with hthere | ⟨-, hno⟩
      · exact hthere
      · exact absurd (Touches.here hfits hnp) hno
    by_cases hhash : c.np = ISAKMP_NPTYPE_HASH
    · rw [if_pos hhash]
      have hthere := hneeded (Or.inl hhash)
      obtain ⟨iph1, hiph1⟩ := handle_of_index hthere
      rw [hiph1, Option.map_some]
      refine ⟨_, rfl, ?_⟩
      split
      · exact ⟨hgoes _ rfl hthere, rfl⟩
      · exact ⟨hout, rfl⟩
    · rw [if_neg hhash]
      by_cases hattr : c.np = ISAKMP_NPTYPE_ATTR
      · rw [if_pos hattr]
        have hthere := hneeded (Or.inr hattr)
        obtain ⟨iph1, hiph1⟩ := handle_of_index hthere
        rw [hiph1, Option.map_some]
        refine ⟨_, rfl, ?_⟩
        split
        · exact ⟨hgoes _ rfl hthere, rfl⟩
        · exact ⟨hgoes _ rfl hthere, rfl⟩
      · rw [if_neg hattr]
        refine ⟨_, rfl, ?_, rfl⟩
        rcases halive with hthere | ⟨-, hno⟩
        · exact hgoes _ rfl hthere
        · exact Inv.runs hinv.backed hinv.refused
            (Or.inr ⟨hattrs, fun hlater => hno (Touches.later hfits hlater)⟩)
  · rw [if_pos hfits]
    exact ⟨_, rfl, hout, rfl⟩

end Round

/-! ### Runs -/

section Steps
variable {s : State}

/-- A change of a handle that leaves what the gate looks at, or sends a request. -/
theorem onHandle_inv (hinv : Inv s) (hidle : s.running = none) (index : ℕ) (f : Ph1handle → Ph1handle)
    (hf : ∀ did iph1, Backed did iph1 → Backed did (f iph1)) : Inv (s.onHandle index f) := by
  unfold State.onHandle
  cases hh : s.handle index with
  | none => exact hinv
  | some iph1 =>
    refine ⟨?_, hinv.refused, fun c hc => ?_⟩
    · intro g hg
      rcases mem_setHandle s _ hg with rfl | hg
      · exact hf s.did iph1 (hinv.backed iph1 (handle_mem hh).1)
      · exact hinv.backed g hg
    · exact absurd (hidle.symm.trans hc) (by simp)

theorem xauthReplyStub_inv (hinv : Inv s) (hidle : s.running = none) (k : ℕ) :
    Inv (xauthReplyStub s k) := by
  unfold xauthReplyStub
  cases hk : s.replies[k]? with
  | none => exact hinv
  | some xra =>
    dsimp only
    have hres := hinv.refused xra (List.mem_of_getElem? hk)
    have hrest : ∀ y ∈ s.replies.eraseIdx k, y.res ≠ 0 :=
      fun y hy => hinv.refused y (List.mem_of_mem_eraseIdx hy)
    split
    · exact hinv
    · split
      · exact ⟨hinv.backed, hrest, fun c hc => absurd (hidle.symm.trans hc) (by simp)⟩
      · rw [xauthReply, if_pos hres]
        exact ⟨fun g hg => hinv.backed g (mem_delph1 _ hg), hrest,
          fun c hc => absurd (hidle.symm.trans hc) (by simp)⟩

theorem receive_inv (hinv : Inv s) (index : ℕ) (msg : Buf) (dmsg : Option Buf) (heap : Buf) :
    Inv (receive s index msg dmsg heap) := by
  unfold receive
  split
  · next hiph1 =>
    split
    · exact hinv
    · split
      · exact hinv
      · refine Inv.runs hinv.backed hinv.refused (Or.inl ?_)
        exact List.mem_map_of_mem (List.mem_of_find?_eq_some hiph1)
  · exact hinv

theorem idle_inv (hinv : Inv s) (hidle : s.running = none) (e : Event) : Inv (idle s e) := by
  have hnone : ∀ c, s.running = some c → False := fun c hc => by simp [hidle] at hc
  cases e with
  | tick d => exact ⟨hinv.backed, hinv.refused, hinv.alive⟩
  | next a => exact hinv
  | begin remote authmethod =>
    refine ⟨?_, hinv.refused, fun c hc => (hnone c hc).elim⟩
    intro g hg
    rcases List.mem_cons.mp hg with rfl | hg
    · exact ⟨fun v hv => (by cases hv), fun v hv => (by cases hv), fun hok => (by cases hok)⟩
    · exact hinv.backed g hg
  | vendorid index =>
    exact onHandle_inv hinv hidle index _ fun did iph1 hb => hb.congr rfl rfl rfl rfl id
  | establish index =>
    apply onHandle_inv hinv hidle index
    intro did iph1 hb
    dsimp only
    split
    · unfold xauthSendreq
      split
      · exact hb.congr rfl rfl rfl rfl id
      · split
        · exact hb.congr rfl rfl rfl rfl id
        · exact hb.congr rfl rfl rfl rfl fun hok => by cases hok
    · exact hb.congr rfl rfl rfl rfl id
  | expire index =>
    exact onHandle_inv hinv hidle index _ fun did iph1 hb => hb.congr rfl rfl rfl rfl id
  | delete index =>
    exact ⟨fun g hg => hinv.backed g (mem_delph1 s hg), hinv.refused, fun c hc => (hnone c hc).elim⟩
  | reload cfg => exact ⟨hinv.backed, hinv.refused, hinv.alive⟩
  | reply k => exact xauthReplyStub_inv hinv hidle k
  | receive index msg dmsg heap => exact receive_inv hinv index msg dmsg heap

theorem step_idle (hidle : s.running = none) (e : Event) : step s e = some (idle s e) := by
  unfold step
  rw [hidle]

theorem step_next {c : Cursor} (hrun : s.running = some c) (a : Answers) :
    step s (.next a) = round a s c := by
  unfold step
  rw [hrun]

theorem step_tick {c : Cursor} (hrun : s.running = some c) (d : ℕ) :
    step s (.tick d) = some { s with now := s.now + d } := by
  unfold step
  rw [hrun]

/-- A careful step is defined, keeps the gate, and lets nothing through for a status. -/
theorem step_sound (s : State) (e : Event) (hinv : Inv s) (hc : Careful s e) :
    ∃ s', step s e = some s' ∧ Sound s e s' ∧ Inv s' := by
  have hquiet : ∀ s', Inv s' → (∀ g' ∈ s'.ph1tree, Lets g' → ∃ g ∈ s.ph1tree, g.index = g'.index ∧ Lets g) →
      Sound s e s' := fun s' hinv' hlets => ⟨hinv'.gate, fun _ _ _ _ _ _ => hlets⟩
  cases hrun : s.running with
  | none =>
    have hinv' := idle_inv hinv hrun e
    refine ⟨_, step_idle hrun e, ⟨hinv'.gate, ?_⟩, hinv'⟩
    intro a c l iph1 hloop
    exact absurd (hrun.symm.trans hloop.running) (by simp)
  | some c =>
    have hsame : step s e = some s → ∃ s', step s e = some s' ∧ Sound s e s' ∧ Inv s' :=
      fun h => ⟨s, h, hquiet s hinv fun g hg hl => ⟨g, hg, rfl, hl⟩, hinv⟩
    cases e with
    | tick d =>
      have hinv' : Inv { s with now := s.now + d } := ⟨hinv.backed, hinv.refused, hinv.alive⟩
      exact ⟨_, step_tick hrun d, hquiet _ hinv' fun g hg hl => ⟨g, hg, rfl, hl⟩, hinv'⟩
    | next a =>
      rw [step_next hrun]
      unfold round
      cases hattrs : c.attrs with
      | none =>
        obtain ⟨s', hs', hinv', htree⟩ := isakmpCfgR_sound (a := a) hinv hrun hattrs
        refine ⟨s', hs', hquiet s' hinv' fun g hg hl => ⟨g, ?_, rfl, hl⟩, hinv'⟩
        rwa [← htree]
      | some l =>
        have hthere : c.iph1 ∈ s.indices := by
          rcases hinv.alive c hrun with hthere | ⟨hnone, -⟩
          · exact hthere
          · exact absurd (hnone.symm.trans hattrs) (by simp)
        obtain ⟨iph1, hiph1⟩ := handle_of_index hthere
        have hloop : InLoop s (.next a) a c l iph1 := ⟨rfl, hrun, hattrs, hiph1⟩
        dsimp only
        rw [hiph1, Option.map_some]
        refine ⟨_, rfl, ?_⟩
        by_cases htype : l.type = ISAKMP_CFG_REPLY
        · rw [if_pos htype]
          obtain ⟨hinv', hlets⟩ := reply_sound hinv hc hloop htype
          refine ⟨⟨hinv'.gate, ?_⟩, hinv'⟩
          intro a' c' l' iph1' hloop' hstatus
          obtain rfl : c = c' := Option.some.inj (hrun.symm.trans hloop'.running)
          obtain rfl : l = l' := Option.some.inj (hattrs.symm.trans hloop'.attrs)
          exact hlets hstatus
        · rw [if_neg htype]
          obtain ⟨hinv', hlets⟩ := set_sound hinv hc hloop htype
          exact ⟨hquiet _ hinv' hlets, hinv'⟩
    | begin remote authmethod => exact hsame (by unfold step; rw [hrun])
    | vendorid index => exact hsame (by unfold step; rw [hrun])
    | establish index => exact hsame (by unfold step; rw [hrun])
    | expire index => exact hsame (by unfold step; rw [hrun])
    | delete index => exact hsame (by unfold step; rw [hrun])
    | reload cfg => exact hsame (by unfold step; rw [hrun])
    | reply k => exact hsame (by unfold step; rw [hrun])
    | receive index msg dmsg heap => exact hsame (by unfold step; rw [hrun])

end Steps

theorem cold_inv (cfg : CfgConfig) : Inv (.cold cfg) where
  backed := by simp [State.cold]
  refused := by simp [State.cold]
  alive := by simp [State.cold]

/-- Every careful run from a cold start goes through: no step is on a handle that has
    gone, the gate always holds, and no status opens it. -/
theorem gate_holds (cfg : CfgConfig) (es : List Event) (h : Along step Careful (.cold cfg) es) :
    Through step Sound (.cold cfg) es :=
  through_of_along step_sound (cold_inv cfg) h

/-- The attributes gone over are those of the last payload, and none is a status. -/
def LastPayload (s : State) (_ : Event) : Prop :=
  ∀ c ∈ s.running, ∀ l ∈ c.attrs,
    c.np = Proposal.ISAKMP_NPTYPE_NONE ∧ shortAt l.attr 0 % ISAKMP_GEN_TV ≠ XAUTH_STATUS

instance (s : State) (e : Event) : Decidable (LastPayload s e) :=
  inferInstanceAs (Decidable (∀ c ∈ s.running, ∀ l ∈ c.attrs, _ ∧ _))

/-- Messages that end with the attributes are careful. -/
theorem careful_of_last (s : State) (e : Event) (h : LastPayload s e) : Careful s e := by
  have hlast : ∀ a c l iph1, InLoop s e a c l iph1 →
      c.np = Proposal.ISAKMP_NPTYPE_NONE ∧ shortAt l.attr 0 % ISAKMP_GEN_TV ≠ XAUTH_STATUS := by
    intro a c l iph1 hloop
    exact h c hloop.running l hloop.attrs
  have hno : ∀ c : Cursor, c.np = Proposal.ISAKMP_NPTYPE_NONE → ¬ Touches c.leave := by
    intro c hnp htouches
    cases htouches with
    | here fits _ => exact fits.2.1 hnp
    | later fits _ => exact fits.2.1 hnp
  exact
    { refused := fun a c l iph1 _ _ hloop _ _ _ => hno c (hlast a c l iph1 hloop).1
      status := fun a c l iph1 _ _ hloop _ hstatus => absurd hstatus (hlast a c l iph1 hloop).2
      client := fun a c l iph1 hloop _ _ _ => hno c (hlast a c l iph1 hloop).1 }

/-! ### Two messages -/

/-- A RADIUS server that takes one password. -/
def radiusOnly : CfgConfig where
  authsource := .RADIUS
  groupsource := .SYSTEM
  grouplist := []
  authThrottle := 0

def oneSecret : Answers where
  port := some 0
  getspnam _ := none
  getpwnam _ := none
  crypt _ _ := none
  getgrnam _ := none
  radius usr pwd := if usr = [97] ∧ pwd = [98] then 0 else -1
  pam _ _ _ := -1
  ldap _ _ := (-1, none)
  groupLdap _ _ := -1
  computeHash1 _ := none
  throttleAdd := true
  calloc := true

/-- A reply with a name and a password of one byte, in front of the payload `np`. -/
def credentials (np usr pwd : UInt8) : Buf :=
  [np, 0, 0, 18, 2, 0, 0, 1, 64, 137, 0, 1, usr, 64, 138, 0, 1, pwd]

def withHeader (payloads : Buf) : Buf :=
  List.replicate 16 0 ++ [14, 0x10, 6, 1] ++ List.replicate 8 0 ++ payloads

/-- A phase 1 with Xauth is established, and a message arrives and is gone over. -/
def session (payloads : Buf) (rounds : ℕ) : List Event :=
  [.begin (.inet 1 500) Phase1.OAKLEY_ATTR_AUTH_METHOD_XAUTH_PSKEY_R, .vendorid 0, .establish 0,
    .receive 0 (withHeader payloads) (some (withHeader payloads)) []] ++
    List.replicate rounds (.next oneSecret)

/-- The right password opens the gate. -/
theorem password_lets :
    ((run step (.cold radiusOnly) (session (credentials 0 97 98) 5)).map fun s =>
      s.ph1tree.map xauthCheck) = some [0] ∧
    Through step Sound (.cold radiusOnly) (session (credentials 0 97 98) 5) := by
  refine ⟨by decide +kernel, gate_holds radiusOnly _ ?_⟩
  have hlast : Along step LastPayload (.cold radiusOnly) (session (credentials 0 97 98) 5) := by
    decide +kernel
  exact hlast.mono careful_of_last

/-- A wrong one deletes the handle, and the acknowledgement behind it is gone over
    with that handle. -/
theorem freed_handle_used :
    ¬ Through step Sound (.cold radiusOnly)
      (session (credentials 14 97 99 ++ [0, 0, 0, 8, 4, 0, 0, 0]) 4) := by
  intro h
  have hrun := h.run_isSome
  revert hrun
  decide +kernel

end WanStack.Racoon.Xauth
