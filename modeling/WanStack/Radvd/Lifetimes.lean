import Mathlib.Algebra.Order.Group.MinMax
import WanStack.Radvd.Options
import WanStack.Radvd.Timer

set_option autoImplicit false

/-!
# Decrementing lifetimes

`update_iface_times` ages the prefixes before an advertisement is built, and
`SIGUSR1` resets them.
-/
namespace WanStack.Radvd.Lifetimes

/-- An interface and the time of its last advertisement. -/
structure Aging where
  iface : Interface
  last_ra_time : Timespec

def decrementLifetime (secs : ℤ) (lifetime : UInt32) : UInt32 :=
  if secs < lifetime.toNat then lifetime - UInt32.ofNat secs.toNat else 0

/-- The whole seconds between two readings; a clock that went back counts as zero. -/
def secsSince (now last : Timespec) : ℤ := max 0 ((timespecdiff now last).tdiv 1000)

/-- One round of the loop of `update_iface_times`. -/
def updatePrefix (secs : ℤ) (cease_adv : Bool) (p : AdvPrefix) : AdvPrefix :=
  if !p.DecrementLifetimesFlag || 0 < p.curr_preferredlft then
    if !(cease_adv && p.DeprecatePrefixFlag) then
      if p.DecrementLifetimesFlag then
        { p with
          curr_validlft := decrementLifetime secs p.curr_validlft
          curr_preferredlft := decrementLifetime secs p.curr_preferredlft }
      else p
    else p
  else p

def updateIfaceTimes (now : Timespec) (s : Aging) : Aging :=
  { iface := { s.iface with
      AdvPrefixList := s.iface.AdvPrefixList.map
        (updatePrefix (secsSince now s.last_ra_time) s.iface.cease_adv) }
    last_ra_time := now }

/-- `send_ra`, as far as the lifetimes go. -/
def sendRa (now : Timespec) (s : Aging) : Aging :=
  if !s.iface.AdvSendAdvert then s else updateIfaceTimes now s

def resetPrefix (p : AdvPrefix) : AdvPrefix :=
  if p.DecrementLifetimesFlag then
    { p with
      curr_validlft := p.AdvValidLifetime
      curr_preferredlft := p.AdvPreferredLifetime }
  else p

def resetPrefixLifetimes (s : Aging) : Aging :=
  { s with iface := { s.iface with AdvPrefixList := s.iface.AdvPrefixList.map resetPrefix } }

/-- An advertisement, periodic or solicited, or a reset, at a reading of the clock. -/
inductive Event where
  | advertise (now : Timespec)
  | reset (now : Timespec)

def step (s : Aging) : Event → Aging
  | .advertise now => sendRa now s
  | .reset _ => resetPrefixLifetimes s

def run (s : Aging) (es : List Event) : Aging := es.foldl step s

/-! ### Seconds counted -/

/-- The clock of a run: the last advertisement, the last reset, and the whole
    seconds counted between advertisements since the reset. -/
structure Clock where
  last : Timespec
  resetAt : Timespec
  counted : ℤ

def tick (c : Clock) : Event → Clock
  | .advertise now => { c with last := now, counted := c.counted + secsSince now c.last }
  | .reset now => { c with resetAt := now, counted := 0 }

def clockAfter (start : Timespec) (es : List Event) : Clock := es.foldl tick ⟨start, start, 0⟩

/-- Seconds since the last reset, at the last advertisement. -/
def Clock.elapsed (c : Clock) : ℚ := ((c.last.ns - c.resetAt.ns : ℤ) : ℚ) / 10 ^ 9

theorem secsSince_nonneg (now last : Timespec) : 0 ≤ secsSince now last := le_max_left _ _

theorem decrementLifetime_toNat {secs : ℤ} (h : 0 ≤ secs) (lifetime : UInt32) :
    (decrementLifetime secs lifetime).toNat = (lifetime.toNat - secs).toNat := by
  have hlt := lifetime.toNat_lt
  unfold decrementLifetime
  split_ifs with hsecs
  · have hle : UInt32.ofNat secs.toNat ≤ lifetime := by
      rw [UInt32.le_iff_toNat_le, UInt32.toNat_ofNat']
      omega
    rw [UInt32.toNat_sub_of_le _ _ hle, UInt32.toNat_ofNat']
    omega
  · rw [UInt32.toNat_zero]
    omega

/-- A prefix with decrementing lifetimes against the clock: both lifetimes
    count until the preferred one has run out. -/
structure Counts (p0 p : AdvPrefix) (c : Clock) : Prop where
  decrements : p.DecrementLifetimesFlag = true
  valid : p.AdvValidLifetime = p0.AdvValidLifetime
  preferred : p.AdvPreferredLifetime = p0.AdvPreferredLifetime
  nonneg : 0 ≤ c.counted
  curr_preferred : p.curr_preferredlft.toNat = (p0.AdvPreferredLifetime.toNat - c.counted).toNat
  curr_valid : 0 < p.curr_preferredlft →
    p.curr_validlft.toNat = (p0.AdvValidLifetime.toNat - c.counted).toNat

theorem updatePrefix_live {p : AdvPrefix} (hd : p.DecrementLifetimesFlag = true)
    (hpos : 0 < p.curr_preferredlft) (secs : ℤ) :
    updatePrefix secs false p =
      { p with
        curr_validlft := decrementLifetime secs p.curr_validlft
        curr_preferredlft := decrementLifetime secs p.curr_preferredlft } := by
  unfold updatePrefix
  rw [if_pos (by simp [hpos]), if_pos (by simp), if_pos hd]

/-- A prefix whose preferred lifetime has run out stays as it is. -/
theorem updatePrefix_out {p : AdvPrefix} (hd : p.DecrementLifetimesFlag = true)
    (hzero : p.curr_preferredlft.toNat = 0) (secs : ℤ) (cease_adv : Bool) :
    updatePrefix secs cease_adv p = p := by
  have hpos : ¬ 0 < p.curr_preferredlft := by
    rw [UInt32.lt_iff_toNat_lt, hzero]
    exact lt_irrefl 0
  unfold updatePrefix
  rw [if_neg (by simp [hd, hpos])]

theorem Counts.update {p0 p : AdvPrefix} {c : Clock} (h : Counts p0 p c) (now : Timespec) :
    Counts p0 (updatePrefix (secsSince now c.last) false p) (tick c (.advertise now)) := by
  have hsecs := secsSince_nonneg now c.last
  have hpref := h.curr_preferred
  have hnonneg := h.nonneg
  by_cases hpos : 0 < p.curr_preferredlft
  · have hvalid := h.curr_valid hpos
    have hpos' : 0 < p.curr_preferredlft.toNat := UInt32.lt_iff_toNat_lt.1 hpos
    rw [updatePrefix_live h.decrements hpos]
    refine ⟨h.decrements, h.valid, h.preferred, add_nonneg hnonneg hsecs, ?_, ?_⟩
    · change (decrementLifetime _ _).toNat = (_ - (c.counted + _)).toNat
      rw [decrementLifetime_toNat hsecs]
      omega
    · intro hleft
      have hleft' : 0 < (decrementLifetime (secsSince now c.last) p.curr_preferredlft).toNat :=
        UInt32.lt_iff_toNat_lt.1 hleft
      change (decrementLifetime _ _).toNat = (_ - (c.counted + _)).toNat
      rw [decrementLifetime_toNat hsecs] at hleft' ⊢
      omega
  · have hzero : p.curr_preferredlft.toNat = 0 := by
      by_contra hne
      exact hpos (UInt32.lt_iff_toNat_lt.2 (Nat.pos_of_ne_zero hne))
    rw [updatePrefix_out h.decrements hzero]
    refine ⟨h.decrements, h.valid, h.preferred, add_nonneg hnonneg hsecs, ?_, ?_⟩
    · change p.curr_preferredlft.toNat = (_ - (c.counted + _)).toNat
      omega
    · intro hleft
      exact absurd hleft hpos

theorem Counts.reset {p0 p : AdvPrefix} {c : Clock} (h : Counts p0 p c) (now : Timespec) :
    Counts p0 (resetPrefix p) (tick c (.reset now)) := by
  unfold resetPrefix
  rw [if_pos h.decrements]
  refine ⟨h.decrements, h.valid, h.preferred, le_rfl, ?_, ?_⟩
  · change p.AdvPreferredLifetime.toNat = (_ - (0 : ℤ)).toNat
    rw [h.preferred]
    omega
  · intro _
    change p.AdvValidLifetime.toNat = (_ - (0 : ℤ)).toNat
    rw [h.valid]
    omega

/-- A state of a run, with the prefix at an index. -/
structure Ages (p0 : AdvPrefix) (i : ℕ) (s : Aging) (c : Clock) : Prop where
  sends : s.iface.AdvSendAdvert = true
  lasts : s.iface.cease_adv = false
  last : s.last_ra_time = c.last
  counts : ∃ p, s.iface.AdvPrefixList[i]? = some p ∧ Counts p0 p c

theorem Ages.step {p0 : AdvPrefix} {i : ℕ} {s : Aging} {c : Clock} (h : Ages p0 i s c)
    (e : Event) : Ages p0 i (step s e) (tick c e) := by
  obtain ⟨p, hp, hcounts⟩ := h.counts
  cases e with
  | advertise now =>
    change Ages p0 i (sendRa now s) _
    unfold sendRa updateIfaceTimes
    rw [h.sends, Bool.not_true, if_neg (by decide)]
    refine ⟨h.sends, h.lasts, rfl, updatePrefix (secsSince now c.last) false p, ?_,
      hcounts.update now⟩
    rw [List.getElem?_map, hp, h.last, h.lasts]
    rfl
  | reset now =>
    refine ⟨h.sends, h.lasts, h.last, resetPrefix p, ?_, hcounts.reset now⟩
    change (s.iface.AdvPrefixList.map resetPrefix)[i]? = _
    rw [List.getElem?_map, hp]
    rfl

theorem Ages.run {p0 : AdvPrefix} {i : ℕ} {s : Aging} {c : Clock} (h : Ages p0 i s c)
    (es : List Event) : Ages p0 i (run s es) (es.foldl tick c) := by
  induction es generalizing s c with
  | nil => exact h
  | cons e es ih => exact ih (h.step e)

/-! ### What is advertised -/

theorem mem_advertised {sys : Sys} {iface : Interface} {p q : AdvPrefix}
    (h : q ∈ advertised sys iface p) (cease_adv : Bool) :
    (p.DecrementLifetimesFlag = true → 0 < p.curr_preferredlft) ∧
      sentLifetimes q cease_adv = sentLifetimes p cease_adv := by
  have hauto : ∀ name, q ∈ autoPrefixes sys name p →
      sentLifetimes q cease_adv = sentLifetimes p cease_adv := by
    intro name hq
    obtain ⟨x, -, rfl⟩ := List.mem_map.1 hq
    rfl
  have h6to4 : q ∈ autoPrefix6to4 sys p →
      sentLifetimes q cease_adv = sentLifetimes p cease_adv := by
    intro hq
    obtain ⟨dst, -, rfl⟩ := Option.map_eq_some_iff.1 (Option.mem_toList.1 hq)
    rfl
  unfold advertised at h
  by_cases hlive : (!p.DecrementLifetimesFlag || decide (0 < p.curr_preferredlft)) = true
  · rw [if_pos hlive] at h
    refine ⟨fun hd => by simpa [hd] using hlive, ?_⟩
    split_ifs at h
    all_goals simp only [List.mem_append, List.mem_singleton, List.append_nil,
      List.nil_append] at h
    all_goals grind
  · rw [if_neg hlive] at h
    exact absurd h List.not_mem_nil

theorem within_one {lifetime : ℕ} {counted : ℤ} {elapsed : ℚ} (v : ℕ)
    (hv : v = (lifetime - counted).toNat) (h : |(counted : ℚ) - elapsed| ≤ 1) :
    |(v : ℚ) - max 0 (lifetime - elapsed)| ≤ 1 := by
  have hmax : (v : ℚ) = max 0 ((lifetime : ℚ) - counted) := by
    have hz : (v : ℤ) = max 0 ((lifetime : ℤ) - counted) := by omega
    exact_mod_cast hz
  have hdiff : ((lifetime : ℚ) - counted) - (lifetime - elapsed) = elapsed - counted := by ring
  have hclamp := abs_max_sub_max_le_abs ((lifetime : ℚ) - counted) (lifetime - elapsed) 0
  rw [hdiff, abs_sub_comm elapsed] at hclamp
  rw [hmax, max_comm 0, max_comm 0]
  exact hclamp.trans h

/-- What the advertisements promise of a prefix whose lifetimes count down. -/
structure Promised (p0 : AdvPrefix) (i : ℕ) (s : Aging) (c : Clock) (p : AdvPrefix) : Prop where
  at_index : s.iface.AdvPrefixList[i]? = some p
  /-- Lifetimes carried count the time since the reset, while the seconds
      counted agree with it. -/
  carried : ∀ sys, ∀ q ∈ advertised sys s.iface p, |(c.counted : ℚ) - c.elapsed| ≤ 1 →
    |((sentLifetimes q s.iface.cease_adv).1.toNat : ℚ) -
        max 0 (p0.AdvValidLifetime.toNat - c.elapsed)| ≤ 1 ∧
      |((sentLifetimes q s.iface.cease_adv).2.toNat : ℚ) -
        max 0 (p0.AdvPreferredLifetime.toNat - c.elapsed)| ≤ 1
  ordered : ∀ sys, ∀ q ∈ advertised sys s.iface p,
    (sentLifetimes q s.iface.cease_adv).2 ≤ (sentLifetimes q s.iface.cease_adv).1
  /-- The preferred lifetime has run out once as many seconds were counted. -/
  out_iff : p.curr_preferredlft.toNat = 0 ↔ (p0.AdvPreferredLifetime.toNat : ℤ) ≤ c.counted
  /-- Then the prefix is not advertised, and stays as it is. -/
  out : p.curr_preferredlft.toNat = 0 → (∀ sys, advertised sys s.iface p = []) ∧
    ∀ now, (step s (.advertise now)).iface.AdvPrefixList[i]? = some p

theorem Ages.promised {p0 : AdvPrefix} {i : ℕ} {s : Aging} {c : Clock} (h : Ages p0 i s c)
    (hle : p0.AdvPreferredLifetime ≤ p0.AdvValidLifetime) : ∃ p, Promised p0 i s c p := by
  obtain ⟨p, hp, hcounts⟩ := h.counts
  have hpref := hcounts.curr_preferred
  have hcarried : ∀ sys, ∀ q ∈ advertised sys s.iface p,
      sentLifetimes q s.iface.cease_adv = (p.curr_validlft, p.curr_preferredlft) ∧
        0 < p.curr_preferredlft := by
    intro sys q hq
    obtain ⟨hlive, hsent⟩ := mem_advertised hq s.iface.cease_adv
    refine ⟨?_, hlive hcounts.decrements⟩
    rw [hsent, h.lasts]
    rfl
  refine ⟨p, hp, ?_, ?_, ?_, ?_⟩
  · intro sys q hq hnear
    obtain ⟨hsent, hpos⟩ := hcarried sys q hq
    rw [hsent]
    exact ⟨within_one _ (hcounts.curr_valid hpos) hnear, within_one _ hpref hnear⟩
  · intro sys q hq
    obtain ⟨hsent, hpos⟩ := hcarried sys q hq
    have hvalid := hcounts.curr_valid hpos
    rw [UInt32.le_iff_toNat_le] at hle
    rw [hsent, UInt32.le_iff_toNat_le]
    dsimp only
    omega
  · omega
  · intro hzero
    constructor
    · intro sys
      apply List.eq_nil_iff_forall_not_mem.2
      intro q hq
      have hpos := UInt32.lt_iff_toNat_lt.1 (hcarried sys q hq).2
      rw [hzero] at hpos
      exact absurd hpos (lt_irrefl 0)
    · intro now
      change (sendRa now s).iface.AdvPrefixList[i]? = some p
      unfold sendRa updateIfaceTimes
      rw [h.sends, Bool.not_true, if_neg (by decide)]
      change (s.iface.AdvPrefixList.map _)[i]? = _
      rw [List.getElem?_map, hp, Option.map_some, updatePrefix_out hcounts.decrements hzero]

/-- A prefix of ten valid and two preferred seconds. -/
def shortPrefix : AdvPrefix :=
  { Prefix := in6addrAny, PrefixLen := 64, AdvOnLinkFlag := true, AdvAutonomousFlag := true
    AdvValidLifetime := 10, AdvPreferredLifetime := 2, DeprecatePrefixFlag := false
    DecrementLifetimesFlag := true, curr_validlft := 10, curr_preferredlft := 2
    AdvRouterAddr := false, if6to4 := [], if6 := [] }

def shortIface : Interface := { bareInterface 1224 with AdvPrefixList := [shortPrefix] }

end WanStack.Radvd.Lifetimes
