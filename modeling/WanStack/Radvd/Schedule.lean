import WanStack.Radvd.Timer
import WanStack.Lib.PartialRun

set_option autoImplicit false

/-!
# When multicast advertisements are sent

`process_rs`, `timer_handler` and `touch_iface` set the time of the next
advertisement on an interface by `reschedule_iface`.
-/
namespace WanStack.Radvd.Schedule

def MAX_INITIAL_RTR_ADVERT_INTERVAL : ℚ := 16
def MAX_INITIAL_RTR_ADVERTISEMENTS : ℕ := 3
def IFACE_SETUP_DELAY : ℚ := 1
def MIN_DELAY_BETWEEN_RAS : ℚ := 3
def MIN_DELAY_BETWEEN_RAS_MIPv6 : ℚ := 30 / 1000
def MIN_MinRtrAdvInterval : ℚ := 3
def MIN_MinRtrAdvInterval_MIPv6 : ℚ := 3 / 100
def MIN_MaxRtrAdvInterval : ℚ := 4
def MIN_MaxRtrAdvInterval_MIPv6 : ℚ := 7 / 100
def MAX_MaxRtrAdvInterval : ℚ := 1800
def MAX_RA_DELAY_SECONDS : ℚ := 1 / 2

/-- The settings that matter for the schedule. -/
structure Settings where
  mipv6 : Bool
  AdvSendAdvert : Bool
  UnicastOnly : Bool
  AdvRASolicitedUnicast : Bool
  hasClients : Bool
  MinRtrAdvInterval : ℚ
  MaxRtrAdvInterval : ℚ
  MinDelayBetweenRAs : ℚ

/-- The part of `check_iface` about them. -/
def checkIface (cfg : Settings) : Bool :=
  (if cfg.mipv6 then MIN_MinRtrAdvInterval_MIPv6 else MIN_MinRtrAdvInterval) ≤
      cfg.MinRtrAdvInterval &&
    cfg.MinRtrAdvInterval ≤ 3 / 4 * cfg.MaxRtrAdvInterval &&
    (if cfg.mipv6 then MIN_MaxRtrAdvInterval_MIPv6 else MIN_MaxRtrAdvInterval) ≤
      cfg.MaxRtrAdvInterval &&
    cfg.MaxRtrAdvInterval ≤ MAX_MaxRtrAdvInterval &&
    (if cfg.mipv6 then MIN_DELAY_BETWEEN_RAS_MIPv6 else MIN_DELAY_BETWEEN_RAS) ≤
      cfg.MinDelayBetweenRAs

/-- An interface, and the times of the multicast advertisements sent on it,
    the newest first. -/
structure Iface where
  ready : Bool
  changed : Bool
  racount : ℕ
  last_multicast : Timespec
  next_multicast : Timespec
  sent : List Timespec
deriving DecidableEq

/-- What comes from outside with an event: the reading of the clock at its
    start and the one when the schedule is made, whether `setup_iface` works,
    and the random numbers, `rand() / (RAND_MAX + 1.0)`. -/
structure Outside where
  now : Timespec
  later : Timespec
  setupOk : Bool
  delay : ℚ
  draw : ℚ

inductive Event where
  | solicitation (fromUnspecified : Bool)
  | expire
  | touch

def setupIface (ok : Bool) (s : Iface) : Iface := { s with changed := false, ready := ok }

/-- `send_ra` to a destination, or to all hosts. -/
def sendRa (cfg : Settings) (o : Outside) (toAll : Bool) (s : Iface) : Iface :=
  if !cfg.AdvSendAdvert then s
  else if toAll then { s with last_multicast := o.now, sent := o.now :: s.sent }
  else s

def ensureIfaceSetup (o : Outside) (s : Iface) : Iface :=
  if s.changed then setupIface o.setupOk s else s

def countRa (s : Iface) : Iface :=
  if s.racount < MAX_INITIAL_RTR_ADVERTISEMENTS then { s with racount := s.racount + 1 } else s

def sendRaForall (cfg : Settings) (o : Outside) (toAll : Bool) (s : Iface) : Iface :=
  let s := ensureIfaceSetup o s
  if !s.ready then s
  else if cfg.hasClients then countRa s
  else if toAll && cfg.UnicastOnly then countRa s
  else sendRa cfg o toAll (countRa s)

/-- The pause that `reschedule_iface` makes of the one asked for. -/
def pause (cfg : Settings) (s : Iface) (next : ℚ) : ℚ :=
  if !s.changed && !s.ready then 10 * cfg.MaxRtrAdvInterval
  else if next = 0 then IFACE_SETUP_DELAY
  else if s.racount < MAX_INITIAL_RTR_ADVERTISEMENTS then
    min MAX_INITIAL_RTR_ADVERT_INTERVAL cfg.MaxRtrAdvInterval
  else next

def rescheduleIface (cfg : Settings) (o : Outside) (next : ℚ) (s : Iface) : Iface :=
  { s with next_multicast := nextTimespec o.later (pause cfg s next) }

def randBetween (lower upper draw : ℚ) : ℚ := (upper - lower) * draw + lower

def touched (s : Iface) : Iface := { s with changed := true, ready := false, racount := 0 }

def touchIface (cfg : Settings) (o : Outside) (s : Iface) : Iface :=
  rescheduleIface cfg o 0 (touched s)

def timerHandler (cfg : Settings) (o : Outside) (s : Iface) : Iface :=
  rescheduleIface cfg o (randBetween cfg.MinRtrAdvInterval cfg.MaxRtrAdvInterval o.draw)
    (sendRaForall cfg o true s)

/-- Whether the last multicast was too short ago for the solicitation. -/
def rateLimited (cfg : Settings) (o : Outside) (s : Iface) : Bool :=
  (timespecdiff o.now s.last_multicast : ℚ) / 1000 < cfg.MinDelayBetweenRAs

/-- The pause asked for by a solicitation that came too early. -/
def limitedNext (cfg : Settings) (o : Outside) (s : Iface) : ℚ :=
  cfg.MinDelayBetweenRAs - o.now.ns / 10 ^ 9 + s.last_multicast.ns / 10 ^ 9 +
    MAX_RA_DELAY_SECONDS * o.delay

/-- `process_rs` on a valid solicitation. The answer to all hosts and the
    schedule after it are those of `timer_handler`. -/
def processRs (cfg : Settings) (o : Outside) (fromUnspecified : Bool) (s : Iface) : Iface :=
  if cfg.UnicastOnly || (cfg.AdvRASolicitedUnicast && !fromUnspecified) then
    sendRaForall cfg o false s
  else if rateLimited cfg o s then rescheduleIface cfg o (limitedNext cfg o s) s
  else timerHandler cfg o s

/-- An interface that is not ready is set up first. -/
def prepared (o : Outside) (s : Iface) : Iface :=
  if !s.ready then setupIface o.setupOk s else s

def process (cfg : Settings) (o : Outside) (fromUnspecified : Bool) (s : Iface) : Iface :=
  if !(prepared o s).ready then prepared o s
  else processRs cfg o fromUnspecified (prepared o s)

/-- One event. The timer expires at the scheduled time at the earliest. -/
def step (cfg : Settings) (s : Iface) : Event × Outside → Iface
  | (.solicitation u, o) => process cfg o u s
  | (.expire, o) => timerHandler cfg o s
  | (.touch, o) => touchIface cfg o s

/-! ### Spacing -/

/-- Consecutive multicasts are at least the delay apart. -/
def Spaced (cfg : Settings) (sent : List Timespec) : Prop :=
  sent.IsChain fun t earlier =>
    (earlier.ns : ℚ) + 10 ^ 9 * cfg.MinDelayBetweenRAs ≤ t.ns

/-- The clock goes forward within an event, random numbers are not negative,
    and the timer expires at the scheduled time or later. -/
def Timely (s : Iface) (e : Event × Outside) : Prop :=
  e.2.now.ns ≤ e.2.later.ns ∧ 0 ≤ e.2.delay ∧ 0 ≤ e.2.draw ∧
    match e.1 with
    | .expire => s.next_multicast.ns ≤ e.2.now.ns
    | _ => True

/-- Whether `timer_handler` sends to all hosts. -/
def multicasts (cfg : Settings) (o : Outside) (s : Iface) : Bool :=
  (ensureIfaceSetup o s).ready && !cfg.hasClients && !cfg.UnicastOnly && cfg.AdvSendAdvert

/-- The pause after a multicast: a fixed one while few were sent, else the one
    drawn. -/
def pauseAfter (cfg : Settings) (o : Outside) (s : Iface) : ℚ :=
  if s.racount + 1 < MAX_INITIAL_RTR_ADVERTISEMENTS then
    min MAX_INITIAL_RTR_ADVERT_INTERVAL cfg.MaxRtrAdvInterval
  else randBetween cfg.MinRtrAdvInterval cfg.MaxRtrAdvInterval o.draw

/-- The delay since the last multicast will be over some time after `t`. -/
def OverAfter (cfg : Settings) (s : Iface) (t : Timespec) (wait : ℚ) : Prop :=
  s.sent ≠ [] →
    (s.last_multicast.ns : ℚ) + 10 ^ 9 * cfg.MinDelayBetweenRAs ≤ t.ns + 10 ^ 9 * wait

/-- When a solicitation of an interface that is ready keeps the spacing. -/
def SolicitSpacious (cfg : Settings) (o : Outside) (u : Bool) (s : Iface) : Prop :=
  cfg.UnicastOnly = false → (cfg.AdvRASolicitedUnicast && !u) = false →
    if rateLimited cfg o s then
      s.racount < MAX_INITIAL_RTR_ADVERTISEMENTS →
        OverAfter cfg s o.later (min MAX_INITIAL_RTR_ADVERT_INTERVAL cfg.MaxRtrAdvInterval)
    else
      OverAfter cfg s o.now 0 ∧
        (multicasts cfg o s = true → cfg.MinDelayBetweenRAs ≤ pauseAfter cfg o s)

/-- When an event keeps the spacing. -/
def Spacious (cfg : Settings) (s : Iface) (e : Event × Outside) : Prop :=
  match e.1 with
  | .touch => OverAfter cfg s e.2.later IFACE_SETUP_DELAY
  | .expire => multicasts cfg e.2 s = true → cfg.MinDelayBetweenRAs ≤ pauseAfter cfg e.2 s
  | .solicitation u => (prepared e.2 s).ready = true → SolicitSpacious cfg e.2 u (prepared e.2 s)

instance (s : Iface) : (e : Event × Outside) → Decidable (Timely s e)
  | (.solicitation _, _) => inferInstanceAs (Decidable (_ ∧ _ ∧ _ ∧ True))
  | (.expire, _) => inferInstanceAs (Decidable (_ ∧ _ ∧ _ ∧ _ ≤ _))
  | (.touch, _) => inferInstanceAs (Decidable (_ ∧ _ ∧ _ ∧ True))

instance (cfg : Settings) (s : Iface) (t : Timespec) (wait : ℚ) :
    Decidable (OverAfter cfg s t wait) :=
  inferInstanceAs (Decidable (s.sent ≠ [] → _ ≤ _))

instance (cfg : Settings) (o : Outside) (u : Bool) (s : Iface) :
    Decidable (SolicitSpacious cfg o u s) := by
  unfold SolicitSpacious
  infer_instance

instance (cfg : Settings) (s : Iface) : (e : Event × Outside) → Decidable (Spacious cfg s e)
  | (.touch, o) => inferInstanceAs (Decidable (OverAfter cfg s o.later IFACE_SETUP_DELAY))
  | (.expire, o) => inferInstanceAs (Decidable (multicasts cfg o s = true → _ ≤ _))
  | (.solicitation u, o) =>
    inferInstanceAs (Decidable ((prepared o s).ready = true →
      SolicitSpacious cfg o u (prepared o s)))

/-- The multicasts are spaced, and the next one is not scheduled too early. -/
structure Inv (cfg : Settings) (s : Iface) : Prop where
  spaced : Spaced cfg s.sent
  last : ∀ t ∈ s.sent.head?, s.last_multicast = t
  next : OverAfter cfg s s.next_multicast 0

section
variable {cfg : Settings} {M : ℤ} (hM : 10 ^ 9 * cfg.MinDelayBetweenRAs = M)
include hM

/-- A schedule is right when its pause is long enough. -/
theorem Inv.reschedule {o : Outside} {next : ℚ} {s : Iface} (hspaced : Spaced cfg s.sent)
    (hlast : ∀ t ∈ s.sent.head?, s.last_multicast = t)
    (hpause : OverAfter cfg s o.later (pause cfg s next)) :
    Inv cfg (rescheduleIface cfg o next s) := by
  refine ⟨hspaced, hlast, ?_⟩
  intro hne
  have hover := hpause hne
  rw [hM] at hover
  have hle := le_nextTimespec o.later (pause cfg s next) (s.last_multicast.ns + M) (by
    push_cast
    exact hover)
  have hcast : ((s.last_multicast.ns + M : ℤ) : ℚ) ≤
      ((nextTimespec o.later (pause cfg s next)).ns : ℚ) := Int.cast_le.2 hle
  push_cast at hcast
  unfold rescheduleIface
  rw [hM, mul_zero, add_zero]
  exact hcast

end

/-- What accepted settings give. -/
theorem checkIface_pos {cfg : Settings} (h : checkIface cfg = true) :
    0 < cfg.MinRtrAdvInterval ∧ cfg.MinRtrAdvInterval ≤ cfg.MaxRtrAdvInterval ∧
      0 ≤ cfg.MinDelayBetweenRAs := by
  unfold checkIface at h
  simp only [Bool.and_eq_true, decide_eq_true_iff] at h
  obtain ⟨⟨⟨⟨h1, h2⟩, h3⟩, -⟩, h5⟩ := h
  unfold MIN_MinRtrAdvInterval MIN_MinRtrAdvInterval_MIPv6 at h1
  unfold MIN_DELAY_BETWEEN_RAS MIN_DELAY_BETWEEN_RAS_MIPv6 at h5
  have hpos : 0 < cfg.MinRtrAdvInterval := by
    split_ifs at h1 <;> linarith
  refine ⟨hpos, by linarith, ?_⟩
  split_ifs at h5 <;> linarith

theorem randBetween_pos {cfg : Settings} (h : checkIface cfg = true) {draw : ℚ}
    (hdraw : 0 ≤ draw) :
    0 < randBetween cfg.MinRtrAdvInterval cfg.MaxRtrAdvInterval draw := by
  obtain ⟨hpos, hle, -⟩ := checkIface_pos h
  have hmul := mul_nonneg (sub_nonneg.2 hle) hdraw
  unfold randBetween
  linarith

theorem pause_nonneg {cfg : Settings} (h : checkIface cfg = true) (s : Iface) {next : ℚ}
    (hnext : 0 ≤ next) : 0 ≤ pause cfg s next := by
  obtain ⟨hpos, hle, -⟩ := checkIface_pos h
  have hmax : 0 ≤ cfg.MaxRtrAdvInterval := by linarith
  unfold pause
  split_ifs
  · linarith
  · decide
  · exact le_min (by decide) hmax
  · exact hnext

/-- No multicast was sent, and none was scheduled. -/
structure SameTimes (s s' : Iface) : Prop where
  sent : s'.sent = s.sent
  last : s'.last_multicast = s.last_multicast
  next : s'.next_multicast = s.next_multicast

theorem SameTimes.trans {s s' s'' : Iface} (h : SameTimes s s') (h' : SameTimes s' s'') :
    SameTimes s s'' :=
  ⟨h'.sent.trans h.sent, h'.last.trans h.last, h'.next.trans h.next⟩

theorem SameTimes.inv {cfg : Settings} {s s' : Iface} (h : SameTimes s s') (hI : Inv cfg s) :
    Inv cfg s' := by
  refine ⟨?_, ?_, ?_⟩
  · rw [h.sent]
    exact hI.spaced
  · rw [h.sent, h.last]
    exact hI.last
  · unfold OverAfter
    rw [h.sent, h.last, h.next]
    exact hI.next

theorem ensureIfaceSetup_times (o : Outside) (s : Iface) :
    SameTimes s (ensureIfaceSetup o s) ∧ (ensureIfaceSetup o s).changed = false ∧
      (ensureIfaceSetup o s).racount = s.racount := by
  unfold ensureIfaceSetup
  split_ifs with h
  · exact ⟨⟨rfl, rfl, rfl⟩, rfl, rfl⟩
  · exact ⟨⟨rfl, rfl, rfl⟩, by simpa using h, rfl⟩

theorem countRa_times (s : Iface) :
    SameTimes s (countRa s) ∧ (countRa s).ready = s.ready ∧
      ((countRa s).racount < MAX_INITIAL_RTR_ADVERTISEMENTS ↔
        s.racount + 1 < MAX_INITIAL_RTR_ADVERTISEMENTS) := by
  unfold countRa
  split_ifs with h
  · exact ⟨⟨rfl, rfl, rfl⟩, rfl, Iff.rfl⟩
  · exact ⟨⟨rfl, rfl, rfl⟩, rfl, by omega⟩

/-- A multicast, when one is sent. -/
theorem sendRaForall_sent {cfg : Settings} {o : Outside} {s : Iface}
    (h : multicasts cfg o s = true) :
    sendRaForall cfg o true s =
      { countRa (ensureIfaceSetup o s) with last_multicast := o.now, sent := o.now :: s.sent } := by
  unfold multicasts at h
  simp only [Bool.and_eq_true, Bool.not_eq_true'] at h
  obtain ⟨⟨⟨hready, hclients⟩, hunicast⟩, hadv⟩ := h
  have hsent : (countRa (ensureIfaceSetup o s)).sent = s.sent :=
    ((ensureIfaceSetup_times o s).1.trans (countRa_times _).1).sent
  unfold sendRaForall sendRa
  simp only [hready, hclients, hunicast, hadv, hsent, Bool.not_true, Bool.and_false,
    Bool.false_eq_true, if_false, if_true]

/-- Else the times stay. -/
theorem sendRaForall_quiet {cfg : Settings} {o : Outside} {s : Iface} (toAll : Bool)
    (h : toAll = true → multicasts cfg o s = false) :
    SameTimes s (sendRaForall cfg o toAll s) := by
  have hensure := (ensureIfaceSetup_times o s).1
  have hcount := hensure.trans (countRa_times (ensureIfaceSetup o s)).1
  unfold sendRaForall sendRa
  dsimp only
  split_ifs with hready hclients hunicast hadv hall
  · exact hensure
  · exact hcount
  · exact hcount
  · exact hcount
  · have hm := h hall
    unfold multicasts at hm
    simp_all
  · exact hcount

/-- The pause after a multicast. -/
theorem pause_sent {cfg : Settings} {o : Outside} {s : Iface} (h : multicasts cfg o s = true)
    {next : ℚ} (hnext : next ≠ 0) :
    pause cfg (sendRaForall cfg o true s) next =
      if s.racount + 1 < MAX_INITIAL_RTR_ADVERTISEMENTS then
        min MAX_INITIAL_RTR_ADVERT_INTERVAL cfg.MaxRtrAdvInterval
      else next := by
  obtain ⟨-, -, hra⟩ := ensureIfaceSetup_times o s
  obtain ⟨-, hready, hcount⟩ := countRa_times (ensureIfaceSetup o s)
  have hr : (ensureIfaceSetup o s).ready = true := by
    unfold multicasts at h
    simp only [Bool.and_eq_true] at h
    exact h.1.1.1
  rw [sendRaForall_sent h]
  unfold pause
  dsimp only
  rw [hready, hr, Bool.not_true, Bool.and_false, if_neg (by decide), if_neg hnext]
  rw [hra] at hcount
  simp only [hcount]

section
variable {cfg : Settings} {M : ℤ} (hcfg : checkIface cfg = true)
  (hM : 10 ^ 9 * cfg.MinDelayBetweenRAs = M) {s : Iface} {o : Outside}
include hcfg hM

/-- `timer_handler` keeps the spacing when the delay is over and the pause
    after a multicast is long enough. -/
theorem Inv.timerHandler (hI : Inv cfg s) (hlater : o.now.ns ≤ o.later.ns) (hdraw : 0 ≤ o.draw)
    (hover : OverAfter cfg s o.now 0)
    (hpause : multicasts cfg o s = true → cfg.MinDelayBetweenRAs ≤ pauseAfter cfg o s) :
    Inv cfg (timerHandler cfg o s) := by
  have hrand := randBetween_pos hcfg hdraw
  have hlater' : (o.now.ns : ℚ) ≤ o.later.ns := Int.cast_le.2 hlater
  unfold Schedule.timerHandler
  cases hm : multicasts cfg o s with
  | true =>
    apply Inv.reschedule hM
    · rw [sendRaForall_sent hm]
      cases hsent : s.sent with
      | nil => exact List.IsChain.singleton _
      | cons t rest =>
        have hspaced := hI.spaced
        rw [hsent] at hspaced
        apply List.isChain_cons_cons.2
        refine ⟨?_, hspaced⟩
        have hlast := hI.last t (by rw [hsent]; rfl)
        have h0 := hover (by rw [hsent]; exact List.cons_ne_nil _ _)
        rw [hlast, mul_zero, add_zero] at h0
        exact h0
    · rw [sendRaForall_sent hm]
      intro t ht
      exact Option.some.inj ht
    · intro _
      rw [pause_sent hm hrand.ne']
      have hlong := hpause hm
      unfold pauseAfter at hlong
      rw [sendRaForall_sent hm]
      dsimp only
      linarith
  | false =>
    have hsame := sendRaForall_quiet true (fun _ => hm)
    have hI' := hsame.inv hI
    apply Inv.reschedule hM hI'.spaced hI'.last
    intro hne
    have hnonneg := pause_nonneg hcfg (sendRaForall cfg o true s) hrand.le
    rw [hsame.sent] at hne
    have h0 := hover hne
    rw [hsame.last]
    linarith

theorem Inv.processRs (hI : Inv cfg s) (hlater : o.now.ns ≤ o.later.ns) (hdraw : 0 ≤ o.draw)
    (hdelay : 0 ≤ o.delay) (hready : s.ready = true) (u : Bool)
    (hspacious : SolicitSpacious cfg o u s) : Inv cfg (processRs cfg o u s) := by
  have hlater' : (o.now.ns : ℚ) ≤ o.later.ns := Int.cast_le.2 hlater
  unfold SolicitSpacious at hspacious
  unfold Schedule.processRs
  split_ifs with hunicast hlimited
  · exact (sendRaForall_quiet false (fun h => absurd h (by decide))).inv hI
  · rw [Bool.or_eq_true, not_or, Bool.not_eq_true, Bool.not_eq_true] at hunicast
    have hsp := hspacious hunicast.1 hunicast.2
    rw [if_pos hlimited] at hsp
    apply Inv.reschedule hM hI.spaced hI.last
    unfold pause
    rw [hready, Bool.not_true, Bool.and_false, if_neg (by decide)]
    -- the pause asked for ends the delay
    have hnext : OverAfter cfg s o.later (limitedNext cfg o s) := by
      intro _
      have hd : 0 ≤ MAX_RA_DELAY_SECONDS * o.delay := by
        unfold MAX_RA_DELAY_SECONDS
        linarith
      unfold limitedNext
      linarith
    split_ifs with hzero hcount
    · intro hne
      have h0 := hnext hne
      rw [hzero] at h0
      unfold IFACE_SETUP_DELAY
      linarith
    · exact hsp hcount
    · exact hnext
  · rw [Bool.or_eq_true, not_or, Bool.not_eq_true, Bool.not_eq_true] at hunicast
    have hsp := hspacious hunicast.1 hunicast.2
    rw [if_neg hlimited] at hsp
    exact hI.timerHandler hcfg hM hlater hdraw hsp.1 hsp.2

/-- One event keeps the spacing. -/
theorem Inv.step (hI : Inv cfg s) (e : Event × Outside) (htimely : Timely s e)
    (hspacious : Spacious cfg s e) : Inv cfg (step cfg s e) := by
  obtain ⟨event, o⟩ := e
  obtain ⟨hlater, hdelay, hdraw, htimer⟩ := htimely
  cases event with
  | solicitation u =>
    have hsame : SameTimes s (prepared o s) := by
      unfold prepared
      split_ifs <;> exact ⟨rfl, rfl, rfl⟩
    have hI' := hsame.inv hI
    change Inv cfg (process cfg o u s)
    unfold process
    split_ifs with hready
    · exact hI'
    · have hr : (prepared o s).ready = true := by simpa using hready
      exact hI'.processRs hcfg hM hlater hdraw hdelay hr u (hspacious hr)
  | expire =>
    apply hI.timerHandler hcfg hM hlater hdraw _ hspacious
    intro hne
    have hnext := hI.next hne
    have hle : (s.next_multicast.ns : ℚ) ≤ o.now.ns := Int.cast_le.2 htimer
    linarith
  | touch =>
    have hpause : OverAfter cfg (touched s) o.later (pause cfg (touched s) 0) := hspacious
    exact Inv.reschedule hM hI.spaced hI.last hpause

end

/-- The default settings. -/
def defaults : Settings :=
  { mipv6 := false, AdvSendAdvert := true, UnicastOnly := false, AdvRASolicitedUnicast := true
    hasClients := false, MinRtrAdvInterval := 198, MaxRtrAdvInterval := 600
    MinDelayBetweenRAs := 3 }

/-- An interface that has sent two of its initial advertisements. -/
def twoSent : Iface :=
  { ready := true, changed := false, racount := 2, last_multicast := ⟨984, 0⟩
    next_multicast := ⟨1000, 0⟩, sent := [] }

/-- An event at a second of the clock, all random numbers zero. -/
def eventAt (sec : ℤ) (e : Event) : Event × Outside := (e, ⟨⟨sec, 0⟩, ⟨sec, 0⟩, true, 0, 0⟩)

end WanStack.Radvd.Schedule
