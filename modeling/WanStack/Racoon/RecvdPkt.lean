import WanStack.Aftr.Bytes

set_option autoImplicit false

/-!
# The packets already answered

`add_recvdpkt` keeps the answer to a packet on `rcptree`, `check_recvdpkt`
sends it again to every copy, and `sweep_recvdpkt` drops what is old. Times
are in microseconds. The digest of OpenSSL is a parameter.
-/
namespace WanStack.Racoon
open Aftr (Buf)

/-- A socket address, with the parts `cmpsaddr` looks at. -/
inductive Sockaddr where
  | unspec
  | inet (addr port : ℕ)
  | inet6 (addr scope port : ℕ)
  | other
deriving DecidableEq, Repr

inductive CmpSaddr where
  | MATCH
  | WILDPORT_MATCH
  | WOP_MATCH
  | MISMATCH
deriving DecidableEq, Repr

def IPSEC_PORT_ANY : ℕ := 0

def cmpPorts (port1 port2 : ℕ) : CmpSaddr :=
  if port1 = port2 then .MATCH
  else if port1 = IPSEC_PORT_ANY ∨ port2 = IPSEC_PORT_ANY then .WILDPORT_MATCH
  else .WOP_MATCH

def cmpsaddr : Sockaddr → Sockaddr → CmpSaddr
  | .unspec, .unspec => cmpPorts IPSEC_PORT_ANY IPSEC_PORT_ANY
  | .inet addr1 port1, .inet addr2 port2 =>
    if addr1 ≠ addr2 then .MISMATCH else cmpPorts port1 port2
  | .inet6 addr1 scope1 port1, .inet6 addr2 scope2 port2 =>
    if addr1 ≠ addr2 then .MISMATCH else
    if scope1 ≠ scope2 then .MISMATCH else cmpPorts port1 port2
  | _, _ => .MISMATCH

namespace RecvdPkt

abbrev Digest : Type := Vector UInt8 16

structure Recvdpkt where
  remote : Sockaddr
  localAddr : Sockaddr
  hash : Digest
  sendbuf : Buf
  retryCounter : ℤ
  timeSend : ℤ
deriving DecidableEq

structure Lcconf where
  retryCounter : ℤ
  retryInterval : ℤ

/-- `retry_counter * retry_interval`, a product of two `int`s. -/
def Lcconf.window (lcconf : Lcconf) : ℤ :=
  (lcconf.retryCounter * lcconf.retryInterval).bmod (2 ^ 32)

def second : ℤ := 1000000

/-- A packet that arrives, and what the system calls made for it give: whether
    there is memory for its digest, whether a socket is open for the recorded
    local address, how many datagrams go out and whether all of them do. -/
structure Arrival where
  remote : Sockaddr
  localAddr : Sockaddr
  rbuf : Buf
  mem : Bool
  fd : Bool
  datagrams : ℕ
  sendOk : Bool

structure State where
  now : ℤ
  rcptree : List Recvdpkt

section
variable (md5 : Buf → Digest) (lcconf : Lcconf)

/-- What `check_recvdpkt` does to the first entry of a digest once it has sent
    its answer. -/
def resent (hash : Digest) (now : ℤ) : List Recvdpkt → List Recvdpkt
  | [] => []
  | r :: rest =>
    if hash = r.hash then
      if r.retryCounter - 1 ≤ 0 then rest
      else { r with retryCounter := r.retryCounter - 1, timeSend := now } :: rest
    else r :: resent hash now rest

/-- The value of `check_recvdpkt`, the datagrams it sends and the new list. -/
def checkRecvdpkt (a : Arrival) (s : State) : ℤ × List (Sockaddr × Buf) × List Recvdpkt :=
  if !a.mem then (-1, [], s.rcptree) else
  match s.rcptree.find? fun r => md5 a.rbuf = r.hash with
  | none => (0, [], s.rcptree)
  | some r =>
    if cmpsaddr a.remote r.remote ≠ .MATCH then (2, [], s.rcptree) else
    if !a.fd then (-1, [], s.rcptree) else
    let datagrams := List.replicate a.datagrams (r.remote, r.sendbuf)
    if !a.sendOk then (-1, datagrams, s.rcptree)
    else (1, datagrams, resent (md5 a.rbuf) s.now s.rcptree)

def addRecvdpkt (remote localAddr : Sockaddr) (sbuf rbuf : Buf) (mem : Bool) (s : State) : ℤ × State :=
  if lcconf.retryCounter = 0 then (0, s) else
  if !mem then (-1, s) else
  let new : Recvdpkt :=
    { remote := remote
      localAddr := localAddr
      hash := md5 rbuf
      sendbuf := sbuf
      retryCounter := lcconf.retryCounter
      timeSend := s.now }
  (0, { s with rcptree := new :: s.rcptree })

def sweepRecvdpkt (s : State) : State :=
  let sweep := s.now - lcconf.window * second
  { s with rcptree := s.rcptree.filter fun r => !(r.timeSend < sweep) }

/-- The end of `isakmp_handler`: whether `isakmp_main` is called. -/
def isakmpHandler (a : Arrival) (s : State) : Bool × State :=
  let checked := checkRecvdpkt md5 a s
  (checked.1 = 0, { s with rcptree := checked.2.2 })

/-- What happens: time passes, a packet arrives, an answer is recorded, the
    timer of the sweep expires. -/
inductive Event where
  | elapse (d : ℕ)
  | packet (a : Arrival)
  | record (remote localAddr : Sockaddr) (sbuf rbuf : Buf) (mem : Bool)
  | sweep

def step (s : State) : Event → State
  | .elapse d => { s with now := s.now + d }
  | .packet a => (isakmpHandler md5 a s).2
  | .record remote localAddr sbuf rbuf mem => (addRecvdpkt md5 lcconf remote localAddr sbuf rbuf mem s).2
  | .sweep => sweepRecvdpkt lcconf s

def run (s : State) (es : List Event) : State := es.foldl (step md5 lcconf) s

def start (now : ℤ) : State := { now := now, rcptree := [] }

/-! ### An entry stays while its packet has resends left -/

def elapsed (es : List Event) : ℕ :=
  (es.map fun | .elapse d => d | _ => 0).sum

/-- A packet of this digest from this address that is answered, as long as the
    digest has an entry. -/
def Event.answers (hash : Digest) (remote : Sockaddr) : Event → Bool
  | .packet a =>
    a.mem && md5 a.rbuf = hash && cmpsaddr a.remote remote = .MATCH && a.fd && a.sendOk
  | _ => false

def answered (hash : Digest) (remote : Sockaddr) (es : List Event) : ℕ :=
  es.countP (Event.answers md5 hash remote)

/-- An entry of the digest and address, sent at `t` or later, with `left` resends. -/
def Remembers (hash : Digest) (remote : Sockaddr) (t left : ℤ) (s : State) : Prop :=
  ∃ r ∈ s.rcptree, r.hash = hash ∧ r.remote = remote ∧ t ≤ r.timeSend ∧ left ≤ r.retryCounter

theorem mem_resent (hash : Digest) (now : ℤ) (r r' : Recvdpkt) (l : List Recvdpkt)
    (hr : r ∈ l) (hfind : l.find? (fun r => hash = r.hash) = some r') (hne : r ≠ r') :
    r ∈ resent hash now l := by
  induction l with
  | nil => cases hr
  | cons x l ih =>
    by_cases hx : hash = x.hash
    · have hx' : x = r' := by simpa [List.find?_cons, hx] using hfind
      have hmem : r ∈ l := (List.mem_cons.mp hr).resolve_left (hx' ▸ hne)
      rw [resent, if_pos hx]
      split
      · exact hmem
      · exact List.mem_cons_of_mem _ hmem
    · rw [resent, if_neg hx]
      rw [List.find?_cons_of_neg (by simpa using hx)] at hfind
      rcases List.mem_cons.mp hr with rfl | hmem
      · exact List.mem_cons_self
      · exact List.mem_cons_of_mem _ (ih hmem hfind)

theorem first_resent (hash : Digest) (now : ℤ) (r : Recvdpkt) (l : List Recvdpkt)
    (hfind : l.find? (fun r => hash = r.hash) = some r) (hleft : 1 < r.retryCounter) :
    { r with retryCounter := r.retryCounter - 1, timeSend := now } ∈ resent hash now l := by
  induction l with
  | nil => cases hfind
  | cons x l ih =>
    by_cases hx : hash = x.hash
    · have hx' : x = r := by simpa [List.find?_cons, hx] using hfind
      rw [resent, if_pos hx, hx', if_neg (by omega)]
      exact List.mem_cons_self
    · rw [List.find?_cons_of_neg (by simpa using hx)] at hfind
      rw [resent, if_neg hx]
      exact List.mem_cons_of_mem _ (ih hfind)

/-- The list changes only by a resend of the first entry of the digest. -/
theorem checkRecvdpkt_cases (a : Arrival) (s : State) :
    (checkRecvdpkt md5 a s).2.2 = s.rcptree ∨
      ∃ r, s.rcptree.find? (fun r => md5 a.rbuf = r.hash) = some r ∧
        (Event.packet a).answers md5 (md5 a.rbuf) r.remote = true ∧
        (checkRecvdpkt md5 a s).2.2 = resent (md5 a.rbuf) s.now s.rcptree := by
  unfold checkRecvdpkt
  by_cases hmem : a.mem = true
  · cases hfind : s.rcptree.find? (fun r => md5 a.rbuf = r.hash) with
    | none => simp [hmem]
    | some r =>
      by_cases haddr : cmpsaddr a.remote r.remote = .MATCH
      · cases hfd : a.fd <;> cases hsend : a.sendOk <;>
          simp [hmem, haddr, Event.answers, hfd, hsend]
      · simp [hmem, haddr]
  · simp [hmem]

/-- The entry of a recorded answer. -/
def newRecvdpkt (remote localAddr : Sockaddr) (sbuf rbuf : Buf) (now : ℤ) : Recvdpkt :=
  { remote := remote
    localAddr := localAddr
    hash := md5 rbuf
    sendbuf := sbuf
    retryCounter := lcconf.retryCounter
    timeSend := now }

theorem addRecvdpkt_rcptree (remote localAddr : Sockaddr) (sbuf rbuf : Buf) (mem : Bool)
    (s : State) :
    (addRecvdpkt md5 lcconf remote localAddr sbuf rbuf mem s).2.rcptree = s.rcptree ∨
      mem = true ∧ (addRecvdpkt md5 lcconf remote localAddr sbuf rbuf mem s).2.rcptree =
        newRecvdpkt md5 lcconf remote localAddr sbuf rbuf s.now :: s.rcptree := by
  unfold addRecvdpkt
  by_cases hzero : lcconf.retryCounter = 0
  · simp [hzero]
  · cases mem
    · simp [hzero]
    · right
      simp [hzero, newRecvdpkt]

theorem checkRecvdpkt_known (a : Arrival) (s : State) (r : Recvdpkt) (hr : r ∈ s.rcptree)
    (hhash : r.hash = md5 a.rbuf) : (checkRecvdpkt md5 a s).1 ≠ 0 := by
  unfold checkRecvdpkt
  cases hfind : s.rcptree.find? (fun r => md5 a.rbuf = r.hash) with
  | none =>
    have hno := List.find?_eq_none.mp hfind r hr
    simp [hhash] at hno
  | some r' =>
    dsimp only
    split_ifs <;> simp

theorem packet_remembers (a : Arrival) (s : State) (hash : Digest) (remote : Sockaddr) (t left : ℤ)
    (ht : t ≤ s.now) (hleft : ((Event.packet a).answers md5 hash remote).toNat < left)
    (hs : Remembers hash remote t left s) :
    Remembers hash remote t (left - ((Event.packet a).answers md5 hash remote).toNat)
      (isakmpHandler md5 a s).2 := by
  obtain ⟨r, hr, hhash, hremote, htime, hcount⟩ := hs
  have hstays : left - ((Event.packet a).answers md5 hash remote).toNat ≤ r.retryCounter := by omega
  have hlist : (isakmpHandler md5 a s).2.rcptree = (checkRecvdpkt md5 a s).2.2 := rfl
  rcases checkRecvdpkt_cases md5 a s with hsame | ⟨r', hfind, hans, hnew⟩
  · exact ⟨r, by rw [hlist, hsame]; exact hr, hhash, hremote, htime, hstays⟩
  by_cases hfirst : r = r'
  · -- the resend is taken from this entry, and counted
    subst hfirst
    have hmd5 : md5 a.rbuf = r.hash := by simpa using List.find?_some hfind
    rw [hmd5] at hfind hans
    rw [← hhash, ← hremote, hans] at hleft ⊢
    simp only [Bool.toNat_true, Nat.cast_one] at hleft ⊢
    refine ⟨{ r with retryCounter := r.retryCounter - 1, timeSend := s.now }, ?_, rfl, rfl, ht,
      by simpa using hcount⟩
    rw [hlist, hnew, hmd5]
    exact first_resent _ _ _ _ hfind (by omega)
  · refine ⟨r, ?_, hhash, hremote, htime, hstays⟩
    rw [hlist, hnew]
    exact mem_resent _ _ _ _ _ hr hfind hfirst

theorem step_remembers (s : State) (e : Event) (hash : Digest) (remote : Sockaddr) (t left : ℤ)
    (ht : t ≤ s.now) (hwindow : s.now ≤ t + lcconf.window * second)
    (hleft : (e.answers md5 hash remote).toNat < left) (hs : Remembers hash remote t left s) :
    Remembers hash remote t (left - (e.answers md5 hash remote).toNat) (step md5 lcconf s e) := by
  cases e with
  | packet a => exact packet_remembers md5 a s hash remote t left ht hleft hs
  | elapse d => simpa [step, Event.answers, Remembers] using hs
  | record remote' localAddr sbuf rbuf mem =>
    obtain ⟨r, hr, hrest⟩ := hs
    refine ⟨r, ?_, by simpa [Event.answers] using hrest⟩
    rcases addRecvdpkt_rcptree md5 lcconf remote' localAddr sbuf rbuf mem s with hsame | ⟨-, hnew⟩
    · rw [step, hsame]
      exact hr
    · rw [step, hnew]
      exact List.mem_cons_of_mem _ hr
  | sweep =>
    obtain ⟨r, hr, hhash, hremote, htime, hcount⟩ := hs
    refine ⟨r, List.mem_filter.mpr ⟨hr, ?_⟩, hhash, hremote, htime, by
      simpa [Event.answers] using hcount⟩
    have hold : ¬ r.timeSend < s.now - lcconf.window * second := by omega
    simpa using hold

theorem step_now (s : State) (e : Event) :
    (step md5 lcconf s e).now = s.now + elapsed [e] := by
  cases e with
  | elapse d => simp [step, elapsed]
  | packet a => simp [step, elapsed, isakmpHandler]
  | record remote localAddr sbuf rbuf mem =>
    simp only [step, elapsed, addRecvdpkt]
    split_ifs <;> simp
  | sweep => simp [step, elapsed, sweepRecvdpkt]

theorem run_remembers (s : State) (es : List Event) (hash : Digest) (remote : Sockaddr) (t left : ℤ)
    (ht : t ≤ s.now) (hwindow : s.now + elapsed es ≤ t + lcconf.window * second)
    (hleft : (answered md5 hash remote es : ℤ) < left) (hs : Remembers hash remote t left s) :
    Remembers hash remote t (left - answered md5 hash remote es) (run md5 lcconf s es) := by
  induction es generalizing s left with
  | nil => simpa [run, answered] using hs
  | cons e es ih =>
    have hcount : answered md5 hash remote (e :: es) =
        (e.answers md5 hash remote).toNat + answered md5 hash remote es := by
      cases hans : e.answers md5 hash remote <;> simp [answered, hans, Nat.add_comm]
    have hclock : elapsed (e :: es) = elapsed [e] + elapsed es := by simp [elapsed]
    rw [hcount, Nat.cast_add] at hleft
    rw [hclock, Nat.cast_add] at hwindow
    have hfirst := step_remembers md5 lcconf s e hash remote t left ht (by omega) (by omega) hs
    have hnow := step_now md5 lcconf s e
    have hrest := ih (step md5 lcconf s e) _ (by omega) (by omega) (by omega) hfirst
    rwa [hcount, Nat.cast_add, ← sub_sub]

/-! ### Where answers go -/

/-- The answer was recorded for a packet of this digest from this address. -/
def Recorded (es : List Event) (hash : Digest) (remote : Sockaddr) (sbuf : Buf) : Prop :=
  ∃ localAddr rbuf, md5 rbuf = hash ∧ Event.record remote localAddr sbuf rbuf true ∈ es

theorem resent_entries (hash : Digest) (now : ℤ) (l : List Recvdpkt) (r : Recvdpkt)
    (hr : r ∈ resent hash now l) :
    ∃ r' ∈ l, r.hash = r'.hash ∧ r.remote = r'.remote ∧ r.sendbuf = r'.sendbuf := by
  induction l with
  | nil => cases hr
  | cons x l ih =>
    rw [resent] at hr
    split_ifs at hr
    · exact ⟨r, List.mem_cons_of_mem _ hr, rfl, rfl, rfl⟩
    · rcases List.mem_cons.mp hr with rfl | hr
      · exact ⟨x, List.mem_cons_self, rfl, rfl, rfl⟩
      · exact ⟨r, List.mem_cons_of_mem _ hr, rfl, rfl, rfl⟩
    · rcases List.mem_cons.mp hr with rfl | hr
      · exact ⟨r, List.mem_cons_self, rfl, rfl, rfl⟩
      · obtain ⟨r', hr', hsame⟩ := ih hr
        exact ⟨r', List.mem_cons_of_mem _ hr', hsame⟩

theorem step_recorded (s : State) (e : Event) (es : List Event)
    (hs : ∀ r ∈ s.rcptree, Recorded md5 es r.hash r.remote r.sendbuf)
    (r : Recvdpkt) (hr : r ∈ (step md5 lcconf s e).rcptree) :
    Recorded md5 (es ++ [e]) r.hash r.remote r.sendbuf := by
  have hold : ∀ r ∈ s.rcptree, Recorded md5 (es ++ [e]) r.hash r.remote r.sendbuf := by
    intro r hr
    obtain ⟨localAddr, rbuf, hhash, hmem⟩ := hs r hr
    exact ⟨localAddr, rbuf, hhash, List.mem_append_left _ hmem⟩
  cases e with
  | elapse d => exact hold r hr
  | packet a =>
    have hlist : (step md5 lcconf s (.packet a)).rcptree = (checkRecvdpkt md5 a s).2.2 := rfl
    rw [hlist] at hr
    rcases checkRecvdpkt_cases md5 a s with hsame | ⟨-, -, -, hnew⟩
    · exact hold r (hsame ▸ hr)
    · rw [hnew] at hr
      obtain ⟨r', hr', hhash, hremote, hsbuf⟩ := resent_entries _ _ _ _ hr
      rw [hhash, hremote, hsbuf]
      exact hold r' hr'
  | record remote localAddr sbuf rbuf mem =>
    rw [step] at hr
    rcases addRecvdpkt_rcptree md5 lcconf remote localAddr sbuf rbuf mem s with hsame | ⟨hmem, hnew⟩
    · exact hold r (hsame ▸ hr)
    · rw [hnew] at hr
      rcases List.mem_cons.mp hr with rfl | hr
      · exact ⟨localAddr, rbuf, rfl, by simp [newRecvdpkt, hmem]⟩
      · exact hold r hr
  | sweep => exact hold r (List.mem_of_mem_filter hr)

theorem run_recorded (now : ℤ) (es : List Event) (r : Recvdpkt)
    (hr : r ∈ (run md5 lcconf (start now) es).rcptree) :
    Recorded md5 es r.hash r.remote r.sendbuf := by
  induction es using List.reverseRecOn generalizing r with
  | nil => simp [run, start] at hr
  | append_singleton es e ih =>
    rw [run, List.foldl_concat] at hr
    exact step_recorded md5 lcconf _ e es ih r hr

theorem checkRecvdpkt_sends (a : Arrival) (s : State) (p : Sockaddr × Buf)
    (hp : p ∈ (checkRecvdpkt md5 a s).2.1) :
    ∃ r ∈ s.rcptree, r.hash = md5 a.rbuf ∧ p = (r.remote, r.sendbuf) := by
  unfold checkRecvdpkt at hp
  cases hfind : s.rcptree.find? (fun r => md5 a.rbuf = r.hash) with
  | none =>
    rw [hfind] at hp
    dsimp only at hp
    split_ifs at hp <;> simp at hp
  | some r =>
    have hmd5 : md5 a.rbuf = r.hash := by simpa using List.find?_some hfind
    refine ⟨r, List.mem_of_find?_eq_some hfind, hmd5.symm, ?_⟩
    rw [hfind] at hp
    dsimp only at hp
    split_ifs at hp <;> simp at hp
    · exact hp.2
    · exact hp.2

/-- What happens around the recording of an answer. -/
def aroundRecord (es : List Event) (remote localAddr : Sockaddr) (sbuf rbuf : Buf)
    (es' : List Event) : List Event :=
  es ++ .record remote localAddr sbuf rbuf true :: es'

theorem record_remembers (s : State) (remote localAddr : Sockaddr) (sbuf rbuf : Buf)
    (hcounter : lcconf.retryCounter ≠ 0) :
    Remembers (md5 rbuf) remote s.now lcconf.retryCounter
      (step md5 lcconf s (.record remote localAddr sbuf rbuf true)) := by
  refine ⟨newRecvdpkt md5 lcconf remote localAddr sbuf rbuf s.now, ?_, rfl, rfl, le_refl _,
    le_refl _⟩
  simp [step, addRecvdpkt, hcounter, newRecvdpkt]

/-- A copy that comes within the window while its answer has resends left is
    not handled again, and answers go to the address they were recorded for. -/
theorem copy_answered (now : ℤ) (es es' : List Event) (remote localAddr : Sockaddr)
    (sbuf rbuf : Buf) (a : Arrival) :
    (a.rbuf = rbuf → elapsed es' < lcconf.window * second →
      answered md5 (md5 rbuf) remote es' < lcconf.retryCounter →
      (checkRecvdpkt md5 a (run md5 lcconf (start now)
          (aroundRecord es remote localAddr sbuf rbuf es'))).1 ≠ 0 ∧
        (isakmpHandler md5 a (run md5 lcconf (start now)
          (aroundRecord es remote localAddr sbuf rbuf es'))).1 = false) ∧
      ∀ p ∈ (checkRecvdpkt md5 a (run md5 lcconf (start now)
          (aroundRecord es remote localAddr sbuf rbuf es'))).2.1,
        Recorded md5 (aroundRecord es remote localAddr sbuf rbuf es') (md5 a.rbuf) p.1 p.2 := by
  constructor
  · intro hcopy hwindow hleft
    have hnonzero : (checkRecvdpkt md5 a (run md5 lcconf (start now)
        (aroundRecord es remote localAddr sbuf rbuf es'))).1 ≠ 0 := by
      rw [aroundRecord, run, List.foldl_append, List.foldl_cons]
      have hstart := record_remembers md5 lcconf (run md5 lcconf (start now) es) remote localAddr
        sbuf rbuf (by omega)
      have hnow := step_now md5 lcconf (run md5 lcconf (start now) es)
        (.record remote localAddr sbuf rbuf true)
      have hclock : elapsed [Event.record remote localAddr sbuf rbuf true] = 0 := rfl
      obtain ⟨r, hr, hhash, -⟩ := run_remembers md5 lcconf _ es' _ _ _ _ (by omega) (by omega)
        hleft hstart
      exact checkRecvdpkt_known md5 a _ r hr (hcopy ▸ hhash)
    exact ⟨hnonzero, by simp [isakmpHandler, hnonzero]⟩
  · intro p hp
    obtain ⟨r, hr, hhash, rfl⟩ := checkRecvdpkt_sends md5 a _ p hp
    have hrec := run_recorded md5 lcconf now _ r hr
    rwa [hhash] at hrec

end

/-- The first message of a phase 1, its digest and its answer. -/
def firstMsg : Buf :=
  [1, 2, 3, 4, 5, 6, 7, 8, 0, 0, 0, 0, 0, 0, 0, 0, 1, 16, 2, 0, 0, 0, 0, 0, 0, 0, 0, 28]

def firstDigest : Digest :=
  #v[16, 163, 17, 207, 159, 106, 176, 130, 44, 249, 139, 213, 88, 225, 17, 255]

def peer : Sockaddr := .inet 3232248588 500
def gateway : Sockaddr := .inet 3232248589 500

def firstCopy : Arrival :=
  { remote := peer
    localAddr := gateway
    rbuf := firstMsg
    mem := true
    fd := true
    datagrams := 1
    sendOk := true }

theorem copy_answered_default :
    (checkRecvdpkt (fun _ => firstDigest) firstCopy (run (fun _ => firstDigest) ⟨5, 10⟩ (start 0)
      (aroundRecord [] peer gateway [1] firstMsg
        [.elapse 20000000, .packet firstCopy, .sweep, .elapse 20000000]))).1 ≠ 0 :=
  ((copy_answered (fun _ => firstDigest) ⟨5, 10⟩ 0 [] _ peer gateway [1] firstMsg firstCopy).1 rfl
    (by decide) (by decide)).1

/-- With one resend the second copy is handled again, at once. -/
theorem copy_handled_again :
    elapsed [Event.packet firstCopy] < (Lcconf.mk 1 10).window * second ∧
      (checkRecvdpkt (fun _ => firstDigest) firstCopy (run (fun _ => firstDigest) ⟨1, 10⟩ (start 0)
        (aroundRecord [] peer gateway [1] firstMsg [.packet firstCopy]))).1 = 0 ∧
      (isakmpHandler (fun _ => firstDigest) firstCopy (run (fun _ => firstDigest) ⟨1, 10⟩ (start 0)
        (aroundRecord [] peer gateway [1] firstMsg [.packet firstCopy]))).1 = true := by
  decide +kernel

end RecvdPkt
end WanStack.Racoon
