import WanStack.Racoon.Informational
import WanStack.Racoon.Schedular

set_option autoImplicit false

/-!
# Dead peer detection

`isakmp_info_send_r_u`, `isakmp_sched_r_u` and `isakmp_info_recv_r_u_ack` of
`isakmp_inf.c`, for one phase 1 handle and the timer that lies in it. A probe that
the network or `isakmp_info_send_common` loses is sent for the peer's sake.
-/
namespace WanStack.Racoon.Dpd
open Aftr (Buf)
open Handles (ruICk ruRCk PHASE1ST_EXPIRED PHASE1ST_ESTABLISHED)
open Proposal (longAt)
open RecvdPkt (second)
open Schedular (schedCancel schedSchedule)

/-- `dpdRetry` and `dpdMaxfails` are those of its `rmconf`, `dpdRU` is its timer. -/
structure Ph1handle extends Handles.Ph1handle where
  dpdRetry : ℤ
  dpdMaxfails : ℤ
  dpdRU : ℕ

/-- The part of a configuration that is read here. -/
structure Rmconf extends Handles.RmConf where
  dpdRetry : ℤ
  dpdMaxfails : ℤ

/-- A probe with its number, the number of an accepted ack, and a purge with the
    bound it is due to. -/
inductive Note where
  | probe (seq : ℕ)
  | accepted (seq : ℕ)
  | purged (maxfails : ℤ)
deriving DecidableEq, Repr

/-- The last of `notes` stands first; `gone` is set once the handle is freed. -/
structure State where
  iph1 : Ph1handle
  timers : Schedular.State
  notes : List Note
  gone : Bool

/-- The pointer to `isakmp_info_send_r_u`. -/
def SEND_R_U : ℕ := 1

def isakmpSchedRU (retry : Bool) (clock : ℤ) (iph1 : Ph1handle) (timers : Schedular.State) :
    Schedular.State :=
  match iph1.rmconf with
  | none => timers
  | some rmconf =>
    if !iph1.dpdSupport || rmconf.dpdInterval = 0 then timers
    else if retry then schedSchedule iph1.dpdRU iph1.dpdRetry SEND_R_U clock timers
    else schedSchedule iph1.dpdRU rmconf.dpdInterval SEND_R_U clock timers

def isakmpInfoRecvRUAck (ru : Buf) (clock : ℤ) (s : State) : State :=
  let iph1 := s.iph1
  let seq := longAt ru 28
  if seq ≤ iph1.dpdLastAck ∨ iph1.dpdSeq < seq then s
  else if ruICk ru ++ ruRCk ru ≠ iph1.index ∧ ruRCk ru ++ ruICk ru ≠ iph1.index then s
  else
    let iph1 := { iph1 with dpdFails := 0, dpdLastAck := seq }
    { s with
      iph1 := iph1
      timers := isakmpSchedRU false clock iph1 (schedCancel iph1.dpdRU s.timers)
      notes := .accepted seq :: s.notes }

/-- The number of the first probe is drawn: `rand() & 0x0fff`. -/
def startSeq (random : ℕ) (iph1 : Ph1handle) : Ph1handle :=
  if iph1.dpdSeq = 0 then { iph1 with dpdSeq := random % 4096, dpdLastAck := random % 4096 }
  else iph1

/-- The counters are a `u_int32_t` and a `u_int8_t`. -/
def countProbe (iph1 : Ph1handle) : Ph1handle :=
  { iph1 with
    dpdSeq := (iph1.dpdSeq + 1) % 2 ^ 32
    dpdFails := (iph1.dpdFails + 1) % 2 ^ 8 }

/-- `memory` tells whether there is any for the payload; `none` is the use of a
    `NULL` configuration. -/
def isakmpInfoSendRU (random : ℕ) (memory : Bool) (clock : ℤ) (s : State) : Option State :=
  if s.iph1.status = PHASE1ST_EXPIRED then some s
  else
    match s.iph1.rmconf with
    | none => none
    | some _ =>
      if s.iph1.dpdMaxfails ≤ s.iph1.dpdFails then
        some { s with notes := .purged s.iph1.dpdMaxfails :: s.notes, gone := true }
      else if !memory then some s
      else
        let iph1 := countProbe (startSeq random s.iph1)
        some { s with
          iph1 := iph1
          timers := isakmpSchedRU true clock iph1 s.timers
          notes := .probe iph1.dpdSeq :: s.notes }

/-- `timer`: `schedular` finds the timer due by its reading `now`. `reload` gives the
    handle another configuration, and `others` is what all other timers do. -/
inductive Event where
  | timer (now clock : ℤ) (random : ℕ) (memory : Bool)
  | ack (ru : Buf) (clock : ℤ)
  | reload (rmconf : Rmconf)
  | others (timers : Schedular.State)

def step (s : State) : Event → Option State
  | .timer now clock random memory =>
    if s.gone = false ∧ s.timers.clock ≤ now ∧ now ≤ clock ∧
        s.timers.sctree.head? = some s.iph1.dpdRU ∧ (s.timers.sched s.iph1.dpdRU).xtime ≤ now then
      isakmpInfoSendRU random memory clock { s with timers := schedCancel s.iph1.dpdRU s.timers }
    else none
  | .ack ru clock =>
    if s.gone = false ∧ s.timers.clock ≤ clock then some (isakmpInfoRecvRUAck ru clock s) else none
  | .reload rmconf =>
    if s.gone then none
    else some { s with iph1 := { s.iph1 with
      rmconf := some rmconf.toRmConf
      dpdRetry := rmconf.dpdRetry
      dpdMaxfails := rmconf.dpdMaxfails } }
  | .others timers =>
    if timers.sched s.iph1.dpdRU = s.timers.sched s.iph1.dpdRU then some { s with timers := timers }
    else none

/-! ### What the counters are for -/

/-- The probes sent since the last accepted ack. -/
def sentSince : List Note → ℕ
  | [] => 0
  | .probe _ :: l => sentSince l + 1
  | .accepted _ :: _ => 0
  | .purged _ :: l => sentSince l

/-- The numbers of the accepted acks, the last one first. -/
def acceptedAcks (l : List Note) : List ℕ :=
  l.filterMap fun
    | .accepted seq => some seq
    | _ => none

/-- When the timer runs out, a probe is sent. -/
def Sends (iph1 : Ph1handle) (memory : Bool) : Prop :=
  iph1.status ≠ PHASE1ST_EXPIRED ∧ iph1.dpdFails < iph1.dpdMaxfails ∧ memory = true

/-- The counters have room for one more probe. -/
def Fits (s : State) : Event → Prop
  | .timer _ _ _ memory =>
    Sends s.iph1 memory → s.iph1.dpdFails + 1 < 2 ^ 8 ∧ s.iph1.dpdSeq + 1 < 2 ^ 32
  | _ => True

/-- What the notes are to be, each seen from the ones before it. -/
def Sound : List Note → Prop
  | [] => True
  | .probe _ :: l => Sound l
  | .accepted seq :: l => .probe seq ∈ l ∧ (∀ n ∈ acceptedAcks l, n < seq) ∧ Sound l
  | .purged maxfails :: l => maxfails ≤ sentSince l ∧ Sound l

variable {s s' : State} {l earlier later : List Note} {seq : ℕ} {ru : Buf} {clock : ℤ}

theorem Sound.increasing (h : Sound l) : (acceptedAcks l).Pairwise fun m n => n < m := by
  induction l with
  | nil => exact List.Pairwise.nil
  | cons note l ih =>
    cases note with
    | probe seq => exact ih h
    | accepted seq => exact List.Pairwise.cons h.2.1 (ih h.2.2)
    | purged maxfails => exact ih h.2

theorem Sound.of_append (h : Sound (later ++ earlier)) : Sound earlier := by
  induction later with
  | nil => exact h
  | cons note later ih =>
    cases note with
    | probe seq => exact ih h
    | accepted seq => exact ih h.2.2
    | purged maxfails => exact ih h.2

/-! ### Steps -/

structure Inv (s : State) : Prop where
  fails : s.iph1.dpdFails = sentSince s.notes
  sent : ∀ n, s.iph1.dpdLastAck < n → n ≤ s.iph1.dpdSeq → .probe n ∈ s.notes
  latest : ∀ n ∈ acceptedAcks s.notes, n ≤ s.iph1.dpdLastAck
  fresh : s.iph1.dpdSeq = 0 → acceptedAcks s.notes = []
  sound : Sound s.notes

theorem Inv.ack (h : Inv s) : Inv (isakmpInfoRecvRUAck ru clock s) := by
  unfold isakmpInfoRecvRUAck
  dsimp only
  split
  · exact h
  · next hseq =>
    split
    · exact h
    · have hlate : s.iph1.dpdLastAck < longAt ru 28 := by omega
      have hreached : longAt ru 28 ≤ s.iph1.dpdSeq := by omega
      constructor
      · rfl
      · intro n hlast hn
        have hlast' : longAt ru 28 < n := hlast
        have hsent := h.sent n (hlate.trans hlast') hn
        exact List.mem_cons_of_mem _ hsent
      · intro n hn
        cases List.mem_cons.mp hn with
        | inl heq => exact heq.le
        | inr hin => exact (h.latest n hin).trans hlate.le
      · intro hzero
        have hzero' : s.iph1.dpdSeq = 0 := hzero
        omega
      · refine ⟨h.sent _ hlate hreached, ?_, h.sound⟩
        intro n hn
        exact (h.latest n hn).trans_lt hlate

/-- On the handles the ack does what it does to the one handle here. -/
theorem ack_handles (s : State) (ru : Buf) (clock : ℤ) (t : Handles.State) :
    Handles.isakmpInfoRecvRUAck s.iph1.toPh1handle ru t =
      if (isakmpInfoRecvRUAck ru clock s).notes = s.notes then t
      else t.setPh1 s.iph1.addr (fun p => { p with
        dpdFails := (isakmpInfoRecvRUAck ru clock s).iph1.dpdFails
        dpdLastAck := (isakmpInfoRecvRUAck ru clock s).iph1.dpdLastAck }) fun _ => rfl := by
  unfold Handles.isakmpInfoRecvRUAck isakmpInfoRecvRUAck
  dsimp only
  by_cases hseq : longAt ru 28 ≤ s.iph1.dpdLastAck ∨ s.iph1.dpdSeq < longAt ru 28
  · simp only [hseq, if_true]
  · simp only [hseq, if_false]
    by_cases hck : ruICk ru ++ ruRCk ru ≠ s.iph1.index ∧ ruRCk ru ++ ruICk ru ≠ s.iph1.index
    · rw [if_pos hck, if_pos hck, if_pos rfl]
    · have hmore : ¬ (.accepted (longAt ru 28) :: s.notes = s.notes) := List.cons_ne_self _ _
      simp only [hck, if_false, if_neg hmore]

theorem Inv.startSeq (h : Inv s) (random : ℕ) : Inv { s with iph1 := Dpd.startSeq random s.iph1 } := by
  unfold Dpd.startSeq
  split
  · next hzero =>
    have hnone := h.fresh hzero
    constructor
    · exact h.fails
    · intro n hlast hn
      have hlast' : random % 4096 < n := hlast
      have hn' : n ≤ random % 4096 := hn
      omega
    · intro n hn
      rw [hnone] at hn
      cases hn
    · exact fun _ => hnone
    · exact h.sound
  · exact h

theorem startSeq_fails (random : ℕ) (iph1 : Ph1handle) :
    (startSeq random iph1).dpdFails = iph1.dpdFails := by
  unfold startSeq
  split <;> rfl

theorem startSeq_room (random : ℕ) {iph1 : Ph1handle} (h : iph1.dpdSeq + 1 < 2 ^ 32) :
    (startSeq random iph1).dpdSeq + 1 < 2 ^ 32 := by
  unfold startSeq
  split
  · change random % 4096 + 1 < 2 ^ 32
    omega
  · exact h

theorem countProbe_seq {iph1 : Ph1handle} (h : iph1.dpdSeq + 1 < 2 ^ 32) :
    (countProbe iph1).dpdSeq = iph1.dpdSeq + 1 := Nat.mod_eq_of_lt h

theorem countProbe_fails {iph1 : Ph1handle} (h : iph1.dpdFails + 1 < 2 ^ 8) :
    (countProbe iph1).dpdFails = iph1.dpdFails + 1 := Nat.mod_eq_of_lt h

theorem Inv.probe {timers : Schedular.State} (h : Inv s) (hfails : s.iph1.dpdFails + 1 < 2 ^ 8)
    (hseq : s.iph1.dpdSeq + 1 < 2 ^ 32) : Inv { s with
      iph1 := countProbe s.iph1
      timers := timers
      notes := .probe (countProbe s.iph1).dpdSeq :: s.notes } := by
  have hcount := countProbe_seq hseq
  constructor
  · change (countProbe s.iph1).dpdFails = sentSince s.notes + 1
    rw [countProbe_fails hfails, h.fails]
  · intro n hlast hn
    have hlast' : s.iph1.dpdLastAck < n := hlast
    have hn' : n ≤ (countProbe s.iph1).dpdSeq := hn
    by_cases hold : n ≤ s.iph1.dpdSeq
    · exact List.mem_cons_of_mem _ (h.sent n hlast' hold)
    · have hnew : n = (countProbe s.iph1).dpdSeq := by omega
      rw [hnew]
      exact List.mem_cons_self
  · exact h.latest
  · intro hzero
    have hzero' : (countProbe s.iph1).dpdSeq = 0 := hzero
    omega
  · exact h.sound

theorem Inv.send {random : ℕ} {memory : Bool} (h : Inv s)
    (hfits : Sends s.iph1 memory → s.iph1.dpdFails + 1 < 2 ^ 8 ∧ s.iph1.dpdSeq + 1 < 2 ^ 32)
    (hstep : isakmpInfoSendRU random memory clock s = some s') : Inv s' := by
  unfold isakmpInfoSendRU at hstep
  split at hstep
  · exact Option.some.inj hstep ▸ h
  · next hstatus =>
    split at hstep
    · cases hstep
    · split at hstep
      · next hdead =>
        rw [← Option.some.inj hstep]
        refine ⟨h.fails, ?_, h.latest, h.fresh, ?_⟩
        · exact fun n hlast hn => List.mem_cons_of_mem _ (h.sent n hlast hn)
        · exact ⟨h.fails ▸ hdead, h.sound⟩
      · next halive =>
        split at hstep
        · exact Option.some.inj hstep ▸ h
        · next hmemory =>
          have hsends : Sends s.iph1 memory := ⟨hstatus, not_le.mp halive, by simpa using hmemory⟩
          have hroom := hfits hsends
          rw [← Option.some.inj hstep]
          apply (h.startSeq random).probe
          · exact (startSeq_fails random s.iph1).symm ▸ hroom.1
          · exact startSeq_room random hroom.2

theorem inv_step {e : Event} (h : Inv s) (hfits : Fits s e) (hstep : step s e = some s') : Inv s' := by
  cases e with
  | timer now clock random memory =>
    unfold step at hstep
    dsimp only at hstep
    split at hstep
    · have hcancelled : Inv { s with timers := schedCancel s.iph1.dpdRU s.timers } :=
        ⟨h.fails, h.sent, h.latest, h.fresh, h.sound⟩
      exact hcancelled.send hfits hstep
    · cases hstep
  | ack ru clock =>
    unfold step at hstep
    dsimp only at hstep
    split at hstep
    · exact Option.some.inj hstep ▸ h.ack
    · cases hstep
  | reload rmconf =>
    unfold step at hstep
    dsimp only at hstep
    split at hstep
    · cases hstep
    · rw [← Option.some.inj hstep]
      exact ⟨h.fails, h.sent, h.latest, h.fresh, h.sound⟩
  | others timers =>
    unfold step at hstep
    dsimp only at hstep
    split at hstep
    · rw [← Option.some.inj hstep]
      exact ⟨h.fails, h.sent, h.latest, h.fresh, h.sound⟩
    · cases hstep

/-! ### Runs -/

/-- `newph1` clears the counters. -/
def started (iph1 : Ph1handle) (timers : Schedular.State) : State where
  iph1 := { iph1 with dpdSeq := 0, dpdLastAck := 0, dpdFails := 0 }
  timers := timers
  notes := []
  gone := false

theorem inv_started (iph1 : Ph1handle) (timers : Schedular.State) : Inv (started iph1 timers) where
  fails := rfl
  sent n hlast hn := by
    have hlast' : 0 < n := hlast
    have hn' : n ≤ 0 := hn
    omega
  latest n hn := by cases hn
  fresh _ := rfl
  sound := trivial

/-- A number that has been accepted is never accepted again. -/
theorem Inv.replayed (h : Inv s) (hold : longAt ru 28 ∈ acceptedAcks s.notes) :
    isakmpInfoRecvRUAck ru clock s = s := by
  unfold isakmpInfoRecvRUAck
  exact if_pos (Or.inl (h.latest _ hold))

theorem dpd_counts (iph1 : Ph1handle) (timers : Schedular.State) (es : List Event) (s : State)
    (hfits : PartialRun.Along step Fits (started iph1 timers) es)
    (hrun : PartialRun.run step (started iph1 timers) es = some s) :
    s.iph1.dpdFails = sentSince s.notes ∧
    (acceptedAcks s.notes).Pairwise (fun m n => n < m) ∧
    (∀ later n earlier, s.notes = later ++ .accepted n :: earlier → .probe n ∈ earlier) ∧
    (∀ later (maxfails : ℤ) earlier, s.notes = later ++ .purged maxfails :: earlier →
      maxfails ≤ sentSince earlier) ∧
    ∀ ru clock, longAt ru 28 ∈ acceptedAcks s.notes → isakmpInfoRecvRUAck ru clock s = s := by
  have hinv : Inv s :=
    PartialRun.run_along (fun _ _ _ => inv_step) (inv_started iph1 timers) hfits hrun
  refine ⟨hinv.fails, hinv.sound.increasing, ?_, ?_, fun ru clock => hinv.replayed⟩
  · intro later n earlier hnotes
    have hsound := hinv.sound
    rw [hnotes] at hsound
    exact hsound.of_append.1
  · intro later maxfails earlier hnotes
    have hsound := hinv.sound
    rw [hnotes] at hsound
    exact hsound.of_append.1

/-! ### When the counters have room -/

def isTimer : Event → Bool
  | .timer _ _ _ _ => true
  | _ => false

def smallReload : Event → Prop
  | .reload rmconf => rmconf.dpdMaxfails ≤ 255
  | _ => True

/-- The bound on the probes is small, and `n` more of them do not wrap the number. -/
structure Small (n : ℕ) (iph1 : Ph1handle) : Prop where
  maxfails : iph1.dpdMaxfails ≤ 255
  seq : iph1.dpdSeq + n < 2 ^ 32
  start : 4095 + n < 2 ^ 32

theorem Small.fits {n : ℕ} {e : Event} (h : Small ([e].countP isTimer + n) s.iph1) : Fits s e := by
  cases e with
  | timer now clock random memory =>
    intro hsends
    have hlt := hsends.2.1
    have hmax := h.maxfails
    have hseq : s.iph1.dpdSeq + (1 + n) < 2 ^ 32 := h.seq
    constructor
    · omega
    · omega
  | ack ru clock => trivial
  | reload rmconf => trivial
  | others timers => trivial

theorem ack_small {n : ℕ} (h : Small n s.iph1) : Small n (isakmpInfoRecvRUAck ru clock s).iph1 := by
  unfold isakmpInfoRecvRUAck
  dsimp only
  split_ifs
  · exact h
  · exact h
  · exact ⟨h.maxfails, h.seq, h.start⟩

theorem startSeq_small {n : ℕ} {iph1 : Ph1handle} (random : ℕ) (h : Small n iph1) :
    Small n (startSeq random iph1) := by
  have hstart := h.start
  unfold startSeq
  split_ifs
  · refine ⟨h.maxfails, ?_, h.start⟩
    change random % 4096 + n < 2 ^ 32
    omega
  · exact h

theorem countProbe_small {n : ℕ} {iph1 : Ph1handle} (h : Small (1 + n) iph1) :
    Small n (countProbe iph1) := by
  have hseq := h.seq
  have hstart := h.start
  refine ⟨h.maxfails, ?_, ?_⟩
  · rw [countProbe_seq (by omega)]
    omega
  · omega

theorem send_small {n random : ℕ} {memory : Bool} (h : Small (1 + n) s.iph1)
    (hstep : isakmpInfoSendRU random memory clock s = some s') : Small n s'.iph1 := by
  have hkept : Small n s.iph1 := by
    have hseq := h.seq
    have hstart := h.start
    exact ⟨h.maxfails, by omega, by omega⟩
  unfold isakmpInfoSendRU at hstep
  split at hstep
  · exact Option.some.inj hstep ▸ hkept
  · split at hstep
    · cases hstep
    · split at hstep
      · rw [← Option.some.inj hstep]
        exact hkept
      · split at hstep
        · exact Option.some.inj hstep ▸ hkept
        · rw [← Option.some.inj hstep]
          exact countProbe_small (startSeq_small random h)

theorem step_small {n : ℕ} {e : Event} (he : smallReload e)
    (h : Small ([e].countP isTimer + n) s.iph1) (hstep : step s e = some s') : Small n s'.iph1 := by
  cases e with
  | timer now clock random memory =>
    unfold step at hstep
    dsimp only at hstep
    split at hstep
    · exact send_small (s := { s with timers := schedCancel s.iph1.dpdRU s.timers }) h hstep
    · cases hstep
  | ack ru clock =>
    have hn : Small n s.iph1 := by simpa [isTimer] using h
    unfold step at hstep
    dsimp only at hstep
    split at hstep
    · exact Option.some.inj hstep ▸ ack_small hn
    · cases hstep
  | reload rmconf =>
    have hn : Small n s.iph1 := by simpa [isTimer] using h
    unfold step at hstep
    dsimp only at hstep
    split at hstep
    · cases hstep
    · rw [← Option.some.inj hstep]
      exact ⟨he, hn.seq, hn.start⟩
  | others timers =>
    have hn : Small n s.iph1 := by simpa [isTimer] using h
    unfold step at hstep
    dsimp only at hstep
    split at hstep
    · rw [← Option.some.inj hstep]
      exact hn
    · cases hstep

/-- With a bound of at most 255 the counters have room for 2^32 - 4096 runs of the timer. -/
theorem along_fits {es : List Event} (hes : ∀ e ∈ es, smallReload e)
    (h : Small (es.countP isTimer) s.iph1) : PartialRun.Along step Fits s es := by
  induction es generalizing s with
  | nil => trivial
  | cons e es ih =>
    have hcount : (e :: es).countP isTimer = [e].countP isTimer + es.countP isTimer :=
      @List.countP_append _ isTimer [e] es
    rw [hcount] at h
    have he := hes e List.mem_cons_self
    refine ⟨h.fits, fun s' hs' => ih (fun f hf => hes f (List.mem_cons_of_mem _ hf)) ?_⟩
    exact step_small he h hs'

def peer (maxfails : ℤ) : Ph1handle :=
  { addr := 1
    index := List.replicate 8 1 ++ List.replicate 8 2
    status := PHASE1ST_ESTABLISHED
    side := .INITIATOR
    etype := Handles.ISAKMP_ETYPE_IDENT
    localAddr := .inet 1 500
    remote := .inet 2 500
    id := []
    idP := []
    ivm := true
    rmconf := some { rekey := .ON, dpdInterval := 20, weakPhase1Check := false }
    unity := false
    dpdSupport := true
    dpdFails := 0
    dpdLastAck := 0
    dpdSeq := 0
    dpdRetry := 5
    dpdMaxfails := maxfails
    dpdRU := 1 }

/-- The timer is armed as the handle is established. -/
def armed (maxfails : ℤ) : State :=
  started (peer maxfails) (isakmpSchedRU false 0 (peer maxfails) (Schedular.schedInit 0).toState)

def expiry (i : ℕ) : ℤ := (20 + 5 * i) * second

/-- The timer runs out `n` times, and no ack comes. -/
def unanswered (n : ℕ) : List Event :=
  (List.range n).map fun i => .timer (expiry i) (expiry i) 0 true

/-- The ack for number 1. -/
def firstAck : Buf :=
  List.replicate 12 0 ++ List.replicate 8 1 ++ List.replicate 8 2 ++ [0, 0, 0, 1]

/-- Two probes, the ack for the first of them, and the same again. -/
def answered : List Event :=
  unanswered 2 ++ [.ack firstAck (expiry 1), .ack firstAck (expiry 2)]

theorem dpd_counts_answered : ∃ s, PartialRun.run step (armed 5) answered = some s ∧
    s.iph1.dpdFails = sentSince s.notes ∧ s.notes = [.accepted 1, .probe 2, .probe 1] := by
  have hrun : ((PartialRun.run step (armed 5) answered).map State.notes) =
      some [.accepted 1, .probe 2, .probe 1] := by decide +kernel
  obtain ⟨s, hs, hnotes⟩ := Option.map_eq_some_iff.mp hrun
  have hfits : PartialRun.Along step Fits (armed 5) answered := by
    apply along_fits
    · intro e he
      cases e with
      | reload rmconf => simp [answered, unanswered] at he
      | timer now clock random memory => trivial
      | ack ru clock => trivial
      | others timers => trivial
    · exact ⟨by decide, by decide, by decide⟩
  exact ⟨s, hs, (dpd_counts _ _ answered s hfits hs).1, hnotes⟩

/-- With a bound of 1000, 256 probes without an ack count as none. -/
theorem dpd_fails_wraps : ∃ s, PartialRun.run step (armed 1000) (unanswered 256) = some s ∧
    s.iph1.dpdFails = 0 ∧ sentSince s.notes = 256 := by
  have hrun : ((PartialRun.run step (armed 1000) (unanswered 256)).map fun s =>
      (s.iph1.dpdFails, sentSince s.notes)) = some (0, 256) := by decide +kernel
  obtain ⟨s, hs, hcount⟩ := Option.map_eq_some_iff.mp hrun
  exact ⟨s, hs, congrArg Prod.fst hcount, congrArg Prod.snd hcount⟩

end WanStack.Racoon.Dpd
