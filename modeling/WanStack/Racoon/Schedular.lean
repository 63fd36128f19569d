import WanStack.Lib.PartialRun
import WanStack.Lib.Queue
import WanStack.Racoon.RecvdPkt

set_option autoImplicit false

/-!
# The timer queue

`sched_schedule`, `sched_cancel` and `schedular` of `schedule.c`. The loop of
`schedular` is taken round by round: between two rounds the callback may call the
other two, and each of its calls reads the clock again. Times are in microseconds.
-/
namespace WanStack.Racoon.Schedular
open Lib.Queue (Before enqueue)
open RecvdPkt (second)

/-- `func` is a pointer to the callback; a timer is armed while it is not `NULL`. -/
structure Sched where
  func : Option ℕ
  xtime : ℤ
  tick : ℤ
  id : ℕ
deriving DecidableEq, Repr

/-- `id` is the static counter of `sched_schedule`, `clock` the last reading of the
    clock and `now` the reading of a `schedular` that has not returned. -/
structure State where
  sctree : List ℕ
  sched : ℕ → Sched
  id : ℕ
  clock : ℤ
  now : Option ℤ

def schedCancel (sc : ℕ) (s : State) : State :=
  match (s.sched sc).func with
  | none => s
  | some _ =>
    { s with
      sctree := s.sctree.erase sc
      sched := Function.update s.sched sc { s.sched sc with func := none } }

def schedSchedule (sc : ℕ) (tick : ℤ) (func : ℕ) (now : ℤ) (s : State) : State :=
  let s := schedCancel sc s
  let sched := Function.update s.sched sc ⟨some func, now + tick * second, tick, s.id⟩
  { s with
    sctree := enqueue (fun p => (sched p).xtime) sc s.sctree
    sched := sched
    id := s.id + 1
    clock := now }

/-- The condition of the loop of `schedular`. -/
def due (s : State) (now : ℤ) : Bool :=
  match s.sctree with
  | [] => false
  | p :: _ => (s.sched p).xtime ≤ now

def timeout (s : State) (now : ℤ) : Option ℤ :=
  s.sctree.head?.map fun p => (s.sched p).xtime - now

/-! ### Runs -/

/-- One arming of a timer. -/
structure Arming where
  sc : ℕ
  func : ℕ
  xtime : ℤ
  id : ℕ
deriving DecidableEq, Repr

def armingOf (s : State) (sc : ℕ) : Option Arming :=
  (s.sched sc).func.map fun func => ⟨sc, func, (s.sched sc).xtime, (s.sched sc).id⟩

def pending (s : State) : List Arming := s.sctree.filterMap (armingOf s)

/-- What has been done so far: the armings made, those cancelled or replaced before
    they ran, those that ran, and what `schedular` returned. -/
structure Run extends State where
  armed : List Arming
  dropped : List Arming
  ran : List Arming
  returned : List (Option ℤ)

inductive Event where
  | schedule (sc : ℕ) (tick : ℤ) (func : ℕ) (clock : ℤ)
  | cancel (sc : ℕ)
  | enter (clock : ℤ)
  | round
  | leave

/-- `enter`, the rounds and `leave` are one call of `schedular`. -/
def step (r : Run) : Event → Option Run
  | .schedule sc tick func clock =>
    if r.clock ≤ clock then
      let s := schedSchedule sc tick func clock r.toState
      some { r with
        toState := s
        armed := r.armed ++ (armingOf s sc).toList
        dropped := r.dropped ++ (armingOf r.toState sc).toList }
    else none
  | .cancel sc =>
    some { r with
      toState := schedCancel sc r.toState
      dropped := r.dropped ++ (armingOf r.toState sc).toList }
  | .enter clock =>
    if r.clock ≤ clock ∧ r.now = none then
      some { r with clock := clock, now := some clock }
    else none
  | .round =>
    match r.now, r.sctree with
    | some now, p :: _ =>
      if (r.sched p).xtime ≤ now then
        some { r with
          toState := schedCancel p r.toState
          ran := r.ran ++ (armingOf r.toState p).toList }
      else none
    | _, _ => none
  | .leave =>
    match r.now with
    | none => none
    | some now =>
      if due r.toState now then none
      else some { r with now := none, returned := r.returned ++ [timeout r.toState now] }

def sched0 : Sched := ⟨none, 0, 0, 0⟩

/-- After `sched_init`, with every timer cleared. -/
def schedInit (clock : ℤ) : Run :=
  { sctree := [], sched := fun _ => sched0, id := 1, clock := clock, now := none
    armed := [], dropped := [], ran := [], returned := [] }

def earlier (a b : Arming) : Prop := Before Arming.xtime Arming.id a b

instance (a b : Arming) : Decidable (earlier a b) :=
  inferInstanceAs (Decidable (Before Arming.xtime Arming.id a b))

/-- A timer that is armed for a time not before the arming. -/
def relative : Event → Prop
  | .schedule _ tick _ _ => 0 ≤ tick
  | _ => True

def isRound : Event → Bool
  | .round => true
  | _ => false

def rounds (es : List Event) : ℕ := es.countP isRound

/-- The armings among `l` that come before `a`. -/
def rank (a : Arming) (l : List Arming) : ℕ := l.countP fun b => earlier b a

/-! ### The queue -/

structure Consistent (s : State) : Prop where
  sorted : s.sctree.Pairwise (Before (fun p => (s.sched p).xtime) fun p => (s.sched p).id)
  linked : ∀ sc, sc ∈ s.sctree ↔ (s.sched sc).func ≠ none
  numbered : ∀ sc ∈ s.sctree, (s.sched sc).id < s.id

variable {s : State} {r r' : Run} {sc : ℕ}

theorem Consistent.nodup (h : Consistent s) : s.sctree.Nodup := by
  apply h.sorted.imp
  intro a b hab heq
  subst heq
  exact Lib.Queue.not_before_self hab

theorem schedCancel_id : (schedCancel sc s).id = s.id := by
  unfold schedCancel
  split <;> rfl

theorem schedCancel_clock : (schedCancel sc s).clock = s.clock := by
  unfold schedCancel
  split <;> rfl

theorem schedCancel_now : (schedCancel sc s).now = s.now := by
  unfold schedCancel
  split <;> rfl

theorem schedCancel_func : ((schedCancel sc s).sched sc).func = none := by
  unfold schedCancel
  split
  · next h => exact h
  · simp only [Function.update_self]

theorem schedCancel_other {p : ℕ} (hp : p ≠ sc) : (schedCancel sc s).sched p = s.sched p := by
  unfold schedCancel
  split
  · rfl
  · exact Function.update_of_ne hp _ _

theorem Consistent.schedCancel_sctree (h : Consistent s) :
    (schedCancel sc s).sctree = s.sctree.erase sc := by
  unfold schedCancel
  split
  · next hfunc =>
    have hout : sc ∉ s.sctree := fun hin => (h.linked sc).mp hin hfunc
    exact (List.erase_of_not_mem hout).symm
  · rfl

theorem Consistent.mem_schedCancel (h : Consistent s) {p : ℕ} :
    p ∈ (schedCancel sc s).sctree ↔ p ≠ sc ∧ p ∈ s.sctree := by
  rw [h.schedCancel_sctree]
  exact h.nodup.mem_erase_iff

theorem Consistent.cancelled (h : Consistent s) (sc : ℕ) : Consistent (schedCancel sc s) where
  sorted := by
    have hsub : (s.sctree.erase sc).Sublist s.sctree := List.erase_sublist
    have hsorted := h.sorted.sublist hsub
    rw [← h.schedCancel_sctree] at hsorted
    apply hsorted.imp_of_mem
    intro a b ha hb hab
    have ha' := schedCancel_other (s := s) (h.mem_schedCancel.mp ha).1
    have hb' := schedCancel_other (s := s) (h.mem_schedCancel.mp hb).1
    simpa only [Before, ha', hb'] using hab
  linked p := by
    rw [h.mem_schedCancel, h.linked p]
    by_cases hp : p = sc
    · subst hp
      simp [schedCancel_func]
    · rw [schedCancel_other hp]
      simp [hp]
  numbered p hp := by
    have hmem := h.mem_schedCancel.mp hp
    rw [schedCancel_other hmem.1, schedCancel_id]
    exact h.numbered p hmem.2

section Schedule
variable {tick now : ℤ} {func : ℕ}

theorem schedSchedule_self : (schedSchedule sc tick func now s).sched sc =
    ⟨some func, now + tick * second, tick, s.id⟩ := by
  change Function.update _ sc _ sc = _
  rw [Function.update_self, schedCancel_id]

theorem schedSchedule_other {p : ℕ} (hp : p ≠ sc) :
    (schedSchedule sc tick func now s).sched p = s.sched p := by
  change Function.update _ sc _ p = _
  rw [Function.update_of_ne hp, schedCancel_other hp]

theorem schedSchedule_id : (schedSchedule sc tick func now s).id = s.id + 1 :=
  congrArg (· + 1) schedCancel_id

theorem schedSchedule_now : (schedSchedule sc tick func now s).now = s.now := schedCancel_now

theorem Consistent.mem_schedSchedule (h : Consistent s) {p : ℕ} :
    p ∈ (schedSchedule sc tick func now s).sctree ↔ p = sc ∨ p ≠ sc ∧ p ∈ s.sctree := by
  rw [← h.mem_schedCancel]
  exact Lib.Queue.mem_enqueue

theorem Consistent.scheduled (h : Consistent s) :
    Consistent (schedSchedule sc tick func now s) where
  sorted := by
    have hcancel := h.cancelled sc
    apply Lib.Queue.pairwise_enqueue
    · apply hcancel.sorted.imp_of_mem
      intro a b ha hb hab
      have ha' := (h.mem_schedCancel.mp ha).1
      have hb' := (h.mem_schedCancel.mp hb).1
      simpa only [Before, schedSchedule_other ha', schedSchedule_other hb',
        schedCancel_other ha', schedCancel_other hb'] using hab
    · intro p hp
      have hmem := h.mem_schedCancel.mp hp
      rw [schedSchedule_self, schedSchedule_other hmem.1]
      exact h.numbered p hmem.2
  linked p := by
    rw [h.mem_schedSchedule]
    by_cases hp : p = sc
    · subst hp
      simp [schedSchedule_self]
    · rw [schedSchedule_other hp, h.linked p]
      simp [hp]
  numbered p hp := by
    rw [schedSchedule_id]
    cases h.mem_schedSchedule.mp hp with
    | inl heq =>
      rw [heq, schedSchedule_self]
      exact Nat.lt_succ_self _
    | inr hmem =>
      rw [schedSchedule_other hmem.1]
      exact (h.numbered p hmem.2).trans (Nat.lt_succ_self _)

end Schedule

/-! ### What is armed -/

theorem mem_pending {a : Arming} : a ∈ pending s ↔ ∃ p ∈ s.sctree, armingOf s p = some a :=
  List.mem_filterMap

theorem armingOf_eq_some {a : Arming} (h : armingOf s sc = some a) :
    a.sc = sc ∧ a.xtime = (s.sched sc).xtime ∧ a.id = (s.sched sc).id := by
  obtain ⟨func, -, rfl⟩ := Option.map_eq_some_iff.mp h
  exact ⟨rfl, rfl, rfl⟩

theorem armingOf_congr {t : State} (h : t.sched sc = s.sched sc) : armingOf t sc = armingOf s sc := by
  unfold armingOf
  rw [h]

theorem filterMap_congr_other {t : State} {l : List ℕ} (hl : sc ∉ l)
    (h : ∀ p, p ≠ sc → t.sched p = s.sched p) : l.filterMap (armingOf t) = l.filterMap (armingOf s) := by
  apply List.filterMap_congr
  intro p hp
  apply armingOf_congr
  exact h p fun heq => hl (heq ▸ hp)

theorem Consistent.pending_sorted (h : Consistent s) : (pending s).Pairwise earlier := by
  apply h.sorted.filterMap
  intro p q hpq a ha b hb
  have ha' := armingOf_eq_some ha
  have hb' := armingOf_eq_some hb
  simpa only [earlier, Before, ha'.2.1, ha'.2.2, hb'.2.1, hb'.2.2] using hpq

theorem Consistent.pending_lt (h : Consistent s) {a : Arming} (ha : a ∈ pending s) : a.id < s.id := by
  obtain ⟨p, hp, hsome⟩ := mem_pending.mp ha
  rw [(armingOf_eq_some hsome).2.2]
  exact h.numbered p hp

theorem Consistent.armingOf_eq_none (h : Consistent s) (hout : sc ∉ s.sctree) :
    armingOf s sc = none := by
  have hfunc : (s.sched sc).func = none := by
    by_contra hne
    exact hout ((h.linked sc).mpr hne)
  unfold armingOf
  rw [hfunc]
  rfl

theorem Consistent.pending_schedCancel (h : Consistent s) (sc : ℕ) :
    (pending s).Perm ((armingOf s sc).toList ++ pending (schedCancel sc s)) := by
  have hrest : pending (schedCancel sc s) = (s.sctree.erase sc).filterMap (armingOf s) := by
    unfold pending
    rw [h.schedCancel_sctree]
    have hout : sc ∉ s.sctree.erase sc := fun hin => (h.nodup.mem_erase_iff.mp hin).1 rfl
    exact filterMap_congr_other hout fun p hp => schedCancel_other hp
  rw [hrest]
  by_cases hin : sc ∈ s.sctree
  · have hperm := (List.perm_cons_erase hin).filterMap (armingOf s)
    cases ha : armingOf s sc with
    | none => rwa [List.filterMap_cons_none ha] at hperm
    | some a => rwa [List.filterMap_cons_some ha] at hperm
  · rw [h.armingOf_eq_none hin, List.erase_of_not_mem hin]
    exact List.Perm.refl _

theorem Consistent.pending_round {p : ℕ} {l : List ℕ} (h : Consistent s) (hl : s.sctree = p :: l) :
    pending s = (armingOf s p).toList ++ pending (schedCancel p s) := by
  have hout : p ∉ l := (List.nodup_cons.mp (hl ▸ h.nodup)).1
  have hrest : pending (schedCancel p s) = l.filterMap (armingOf s) := by
    unfold pending
    rw [h.schedCancel_sctree, hl, List.erase_cons_head]
    exact filterMap_congr_other hout fun q hq => schedCancel_other hq
  rw [hrest]
  unfold pending
  rw [hl]
  cases ha : armingOf s p with
  | none => exact List.filterMap_cons_none ha
  | some a => exact List.filterMap_cons_some ha

theorem Consistent.armingOf_head {p : ℕ} {l : List ℕ} (h : Consistent s) (hl : s.sctree = p :: l) :
    ∃ a, armingOf s p = some a := by
  have hfunc := (h.linked p).mp (hl ▸ List.mem_cons_self)
  obtain ⟨func, hsome⟩ := Option.ne_none_iff_exists'.mp hfunc
  exact ⟨_, Option.map_eq_some_iff.mpr ⟨func, hsome, rfl⟩⟩

section Schedule
variable {tick now : ℤ} {func : ℕ}

theorem armingOf_schedSchedule : armingOf (schedSchedule sc tick func now s) sc =
    some ⟨sc, func, now + tick * second, s.id⟩ := by
  unfold armingOf
  rw [schedSchedule_self]
  rfl

theorem Consistent.pending_schedSchedule (h : Consistent s) (sc : ℕ) (tick now : ℤ) (func : ℕ) :
    (pending (schedSchedule sc tick func now s)).Perm
      (⟨sc, func, now + tick * second, s.id⟩ :: pending (schedCancel sc s)) := by
  have hperm : (schedSchedule sc tick func now s).sctree.Perm
      (sc :: (schedCancel sc s).sctree) := List.perm_orderedInsert _ _ _
  have hout : sc ∉ (schedCancel sc s).sctree := fun hin =>
    (h.mem_schedCancel.mp hin).1 rfl
  have hfilter := hperm.filterMap (armingOf (schedSchedule sc tick func now s))
  rw [List.filterMap_cons_some armingOf_schedSchedule] at hfilter
  rw [filterMap_congr_other (s := schedCancel sc s) hout] at hfilter
  · exact hfilter
  · intro p hp
    rw [schedSchedule_other hp, schedCancel_other hp]

end Schedule

/-! ### What each step does -/

/-- The ledger: an arming is pending, dropped, or has run. -/
structure Inv (r : Run) : Prop where
  consistent : Consistent r.toState
  ledger : r.armed.Perm (pending r.toState ++ (r.dropped ++ r.ran))
  numbered : r.armed.Pairwise fun a b => a.id < b.id
  below : ∀ a ∈ r.armed, a.id < r.id
  returned : ∀ t, some t ∈ r.returned → 0 < t

theorem inv_schedInit (clock : ℤ) : Inv (schedInit clock) where
  consistent := by
    constructor
    · exact List.Pairwise.nil
    · intro sc
      simp [schedInit, sched0]
    · intro sc hsc
      cases hsc
  ledger := List.Perm.refl _
  numbered := List.Pairwise.nil
  below a ha := by cases ha
  returned t ht := by cases ht

theorem step_schedule {tick clock : ℤ} {func : ℕ}
    (h : step r (.schedule sc tick func clock) = some r') :
    r.clock ≤ clock ∧ r' = { r with
      toState := schedSchedule sc tick func clock r.toState
      armed := r.armed ++ [⟨sc, func, clock + tick * second, r.id⟩]
      dropped := r.dropped ++ (armingOf r.toState sc).toList } := by
  unfold step at h
  dsimp only at h
  rw [armingOf_schedSchedule] at h
  split at h
  · next hclock => exact ⟨hclock, (Option.some.inj h).symm⟩
  · cases h

theorem step_enter {clock : ℤ} (h : step r (.enter clock) = some r') :
    r.clock ≤ clock ∧ r.now = none ∧ r' = { r with clock := clock, now := some clock } := by
  unfold step at h
  dsimp only at h
  split at h
  · next hclock => exact ⟨hclock.1, hclock.2, (Option.some.inj h).symm⟩
  · cases h

theorem step_round (h : step r .round = some r') :
    ∃ now p l, r.now = some now ∧ r.sctree = p :: l ∧ (r.sched p).xtime ≤ now ∧ r' = { r with
      toState := schedCancel p r.toState
      ran := r.ran ++ (armingOf r.toState p).toList } := by
  unfold step at h
  dsimp only at h
  split at h
  · next now p l hnow hl =>
    split at h
    · next hdue => exact ⟨now, p, l, hnow, hl, hdue, (Option.some.inj h).symm⟩
    · cases h
  · cases h

theorem step_leave (h : step r .leave = some r') :
    ∃ now, r.now = some now ∧ due r.toState now = false ∧
      r' = { r with now := none, returned := r.returned ++ [timeout r.toState now] } := by
  unfold step at h
  dsimp only at h
  split at h
  · cases h
  · next now hnow =>
    split at h
    · cases h
    · next hdue => exact ⟨now, hnow, Bool.eq_false_iff.mpr hdue, (Option.some.inj h).symm⟩

theorem timeout_pos {now t : ℤ} (hdue : due s now = false) (ht : timeout s now = some t) : 0 < t := by
  unfold due at hdue
  unfold timeout at ht
  cases hl : s.sctree with
  | nil =>
    rw [hl] at ht
    cases ht
  | cons p l =>
    rw [hl] at hdue ht
    have hlate : ¬ (s.sched p).xtime ≤ now := of_decide_eq_false hdue
    have hdiff : (s.sched p).xtime - now = t := Option.some.inj ht
    omega

theorem Inv.cancel (h : Inv r) (sc : ℕ) : Inv { r with
    toState := schedCancel sc r.toState
    dropped := r.dropped ++ (armingOf r.toState sc).toList } where
  consistent := h.consistent.cancelled _
  ledger := by
    apply h.ledger.trans
    have hcancel := h.consistent.pending_schedCancel sc
    have hsplit := hcancel.append_right (r.dropped ++ r.ran)
    apply hsplit.trans
    rw [List.append_assoc, List.append_assoc]
    apply (List.perm_append_comm_assoc _ _ _).trans
    apply List.Perm.append_left
    exact List.perm_append_comm_assoc _ _ _
  numbered := h.numbered
  below a ha := (h.below a ha).trans_eq schedCancel_id.symm
  returned := h.returned

theorem Inv.schedule {tick clock : ℤ} {func : ℕ} (h : Inv r) : Inv { r with
    toState := schedSchedule sc tick func clock r.toState
    armed := r.armed ++ [⟨sc, func, clock + tick * second, r.id⟩]
    dropped := r.dropped ++ (armingOf r.toState sc).toList } where
  consistent := h.consistent.scheduled
  ledger := by
    have hcancel := (h.cancel sc).ledger
    have hnew := h.consistent.pending_schedSchedule sc tick clock func
    apply List.perm_append_comm.trans
    apply (hcancel.cons _).trans
    exact (hnew.append_right _).symm
  numbered := by
    apply List.pairwise_append.mpr
    refine ⟨h.numbered, List.pairwise_singleton _ _, ?_⟩
    intro a ha b hb
    rw [List.mem_singleton.mp hb]
    exact h.below a ha
  below a ha := by
    change a.id < (schedSchedule sc tick func clock r.toState).id
    rw [schedSchedule_id]
    cases List.mem_append.mp ha with
    | inl ha => exact (h.below a ha).trans (Nat.lt_succ_self _)
    | inr ha =>
      rw [List.mem_singleton.mp ha]
      exact Nat.lt_succ_self _
  returned := h.returned

theorem Inv.round {p : ℕ} {l : List ℕ} (h : Inv r) (hl : r.sctree = p :: l) : Inv { r with
    toState := schedCancel p r.toState
    ran := r.ran ++ (armingOf r.toState p).toList } where
  consistent := h.consistent.cancelled _
  ledger := by
    apply h.ledger.trans
    rw [h.consistent.pending_round hl]
    generalize (armingOf r.toState p).toList = head
    generalize pending (schedCancel p r.toState) = rest
    rw [List.append_assoc, ← List.append_assoc r.dropped]
    apply List.perm_append_comm.trans
    rw [List.append_assoc]
  numbered := h.numbered
  below a ha := (h.below a ha).trans_eq schedCancel_id.symm
  returned := h.returned

theorem inv_step {e : Event} (h : Inv r) (hstep : step r e = some r') : Inv r' := by
  cases e with
  | schedule sc tick func clock =>
    rw [(step_schedule hstep).2]
    exact h.schedule
  | cancel sc =>
    cases hstep
    exact h.cancel sc
  | enter clock =>
    rw [(step_enter hstep).2.2]
    exact ⟨⟨h.consistent.sorted, h.consistent.linked, h.consistent.numbered⟩, h.ledger, h.numbered,
      h.below, h.returned⟩
  | round =>
    obtain ⟨now, p, l, -, hl, -, rfl⟩ := step_round hstep
    exact h.round hl
  | leave =>
    obtain ⟨now, -, hdue, rfl⟩ := step_leave hstep
    refine ⟨⟨h.consistent.sorted, h.consistent.linked, h.consistent.numbered⟩, h.ledger, h.numbered,
      h.below, ?_⟩
    intro t ht
    cases List.mem_append.mp ht with
    | inl ht => exact h.returned t ht
    | inr ht => exact timeout_pos hdue (List.mem_singleton.mp ht).symm

theorem inv_run {es : List Event} (h : Inv r) (hrun : PartialRun.run step r es = some r') : Inv r' :=
  PartialRun.run_keeps (fun _ _ _ _ hinv hstep => inv_step hinv hstep) h hrun

/-! ### The order over a run -/

/-- Where no timer is armed for the past, all that ran comes before all that is armed. -/
structure InOrder (r : Run) : Prop where
  reading : ∀ now, r.now = some now → now ≤ r.clock
  past : ∀ a ∈ r.ran, a.xtime ≤ r.clock
  ordered : r.ran.Pairwise earlier
  ahead : ∀ a ∈ r.ran, ∀ b ∈ pending r.toState, earlier a b

theorem inOrder_schedInit (clock : ℤ) : InOrder (schedInit clock) where
  reading now hnow := by cases hnow
  past a ha := by cases ha
  ordered := List.Pairwise.nil
  ahead a ha := by cases ha

theorem Inv.ran_below (h : Inv r) {a : Arming} (ha : a ∈ r.ran) : a.id < r.id := by
  apply h.below a
  apply h.ledger.mem_iff.mpr
  exact List.mem_append_right _ (List.mem_append_right _ ha)

theorem Consistent.pending_subset (h : Consistent s) {a : Arming}
    (ha : a ∈ pending (schedCancel sc s)) : a ∈ pending s :=
  (h.pending_schedCancel sc).mem_iff.mpr (List.mem_append_right _ ha)

theorem inOrder_step {e : Event} (hr : Inv r) (h : InOrder r) (he : relative e)
    (hstep : step r e = some r') : InOrder r' := by
  cases e with
  | schedule sc tick func clock =>
    obtain ⟨hclock, rfl⟩ := step_schedule hstep
    have htick : 0 ≤ tick := he
    constructor
    · intro now hnow
      rw [schedSchedule_now] at hnow
      exact (h.reading now hnow).trans hclock
    · intro a ha
      exact (h.past a ha).trans hclock
    · exact h.ordered
    · intro a ha b hb
      cases List.mem_cons.mp ((hr.consistent.pending_schedSchedule sc tick clock func).mem_iff.mp hb) with
      | inl hnew =>
        have hpast : a.xtime ≤ clock := (h.past a ha).trans hclock
        have hlater : clock ≤ clock + tick * second := by
          unfold second
          omega
        rw [hnew]
        cases lt_or_eq_of_le (hpast.trans hlater) with
        | inl hlt => exact Or.inl hlt
        | inr heq => exact Or.inr ⟨heq, hr.ran_below ha⟩
      | inr hold => exact h.ahead a ha b (hr.consistent.pending_subset hold)
  | cancel sc =>
    cases hstep
    constructor
    · intro now hnow
      rw [schedCancel_now] at hnow
      rw [schedCancel_clock]
      exact h.reading now hnow
    · intro a ha
      rw [schedCancel_clock]
      exact h.past a ha
    · exact h.ordered
    · exact fun a ha b hb => h.ahead a ha b (hr.consistent.pending_subset hb)
  | enter clock =>
    obtain ⟨hclock, -, rfl⟩ := step_enter hstep
    constructor
    · intro now hnow
      exact (Option.some.inj hnow).ge
    · exact fun a ha => (h.past a ha).trans hclock
    · exact h.ordered
    · exact h.ahead
  | round =>
    obtain ⟨now, p, l, hnow, hl, hdue, rfl⟩ := step_round hstep
    obtain ⟨head, hhead⟩ := hr.consistent.armingOf_head hl
    have hpending := hr.consistent.pending_round hl
    have hsorted := hr.consistent.pending_sorted
    rw [hpending, hhead] at hsorted
    have hrest := List.pairwise_cons.mp hsorted
    rw [hhead]
    have hin : head ∈ pending r.toState := by
      rw [hpending, hhead]
      exact List.mem_cons_self
    constructor
    · intro t ht
      rw [schedCancel_now] at ht
      rw [schedCancel_clock]
      exact h.reading t ht
    · intro a ha
      rw [schedCancel_clock]
      cases List.mem_append.mp ha with
      | inl ha => exact h.past a ha
      | inr ha =>
        rw [List.mem_singleton.mp ha, (armingOf_eq_some hhead).2.1]
        exact hdue.trans (h.reading now hnow)
    · apply List.pairwise_append.mpr
      refine ⟨h.ordered, List.pairwise_singleton _ _, ?_⟩
      intro a ha b hb
      rw [List.mem_singleton.mp hb]
      exact h.ahead a ha head hin
    · intro a ha b hb
      cases List.mem_append.mp ha with
      | inl ha => exact h.ahead a ha b (hr.consistent.pending_subset hb)
      | inr ha =>
        rw [List.mem_singleton.mp ha]
        exact hrest.1 b hb
  | leave =>
    obtain ⟨now, -, -, rfl⟩ := step_leave hstep
    constructor
    · intro now hnow
      cases hnow
    · exact h.past
    · exact h.ordered
    · exact h.ahead

theorem inOrder_run {es : List Event} {clock : ℤ} (hes : ∀ e ∈ es, relative e)
    (hrun : PartialRun.run step (schedInit clock) es = some r) : InOrder r := by
  have hboth : Inv r ∧ InOrder r := by
    apply PartialRun.run_keeps _ ⟨inv_schedInit clock, inOrder_schedInit clock⟩ hrun
    intro r e r' he hr hstep
    exact ⟨inv_step hr.1 hstep, inOrder_step hr.1 hr.2 (hes e he) hstep⟩
  exact hboth.2

/-! ### Progress -/

structure Grows (r r' : Run) : Prop where
  armed : r.armed <+: r'.armed
  dropped : r.dropped <+: r'.dropped
  ran : r.ran <+: r'.ran

theorem Grows.refl (r : Run) : Grows r r :=
  ⟨List.prefix_refl _, List.prefix_refl _, List.prefix_refl _⟩

theorem Grows.trans {r'' : Run} (h : Grows r r') (h' : Grows r' r'') : Grows r r'' :=
  ⟨h.armed.trans h'.armed, h.dropped.trans h'.dropped, h.ran.trans h'.ran⟩

theorem grows_step {e : Event} (h : step r e = some r') : Grows r r' := by
  cases e with
  | schedule sc tick func clock =>
    rw [(step_schedule h).2]
    exact ⟨List.prefix_append _ _, List.prefix_append _ _, List.prefix_refl _⟩
  | cancel sc =>
    cases h
    exact ⟨List.prefix_refl _, List.prefix_append _ _, List.prefix_refl _⟩
  | enter clock =>
    rw [(step_enter h).2.2]
    exact ⟨List.prefix_refl _, List.prefix_refl _, List.prefix_refl _⟩
  | round =>
    obtain ⟨now, p, l, -, -, -, rfl⟩ := step_round h
    exact ⟨List.prefix_refl _, List.prefix_refl _, List.prefix_append _ _⟩
  | leave =>
    obtain ⟨now, -, -, rfl⟩ := step_leave h
    exact ⟨List.prefix_refl _, List.prefix_refl _, List.prefix_refl _⟩

theorem grows_run {es : List Event} (h : PartialRun.run step r es = some r') : Grows r r' :=
  PartialRun.run_keeps (fun _ _ _ _ hinv hstep => hinv.trans (grows_step hstep)) (Grows.refl r) h

/-- An arming that is still pending at the end was pending all the time. -/
theorem Inv.pending_before (h : Inv r) (h' : Inv r') (hgrows : Grows r r') {a : Arming}
    (ha : a ∈ r.armed) (ha' : a ∈ pending r'.toState) : a ∈ pending r.toState := by
  have hledger := h.ledger.mem_iff.mp ha
  cases List.mem_append.mp hledger with
  | inl hin => exact hin
  | inr hgone =>
    have hnodup : r'.armed.Nodup := h'.numbered.imp fun hlt heq => absurd (congrArg Arming.id heq) hlt.ne
    have hapart := (List.nodup_append.mp (h'.ledger.nodup_iff.mp hnodup)).2.2
    have hgone' : a ∈ r'.dropped ++ r'.ran := by
      cases List.mem_append.mp hgone with
      | inl hdropped => exact List.mem_append_left _ (hgrows.dropped.subset hdropped)
      | inr hran => exact List.mem_append_right _ (hgrows.ran.subset hran)
    exact absurd rfl (hapart a ha' a hgone')

/-- One round takes away one arming before `a`. -/
theorem rank_step {e : Event} {a : Arming} (h : Inv r) (ha : a ∈ pending r'.toState)
    (hstep : step r e = some r') :
    rounds [e] + rank a (pending r'.toState) + rank a r.armed ≤
      rank a (pending r.toState) + rank a r'.armed := by
  have hcancel (sc : ℕ) : rank a (pending r.toState) =
      rank a (armingOf r.toState sc).toList + rank a (pending (schedCancel sc r.toState)) := by
    unfold rank
    rw [(h.consistent.pending_schedCancel sc).countP_eq, List.countP_append]
  cases e with
  | schedule sc tick func clock =>
    obtain ⟨-, rfl⟩ := step_schedule hstep
    have hnew := h.consistent.pending_schedSchedule sc tick clock func
    have hone := hcancel sc
    unfold rank at hone ⊢
    rw [hnew.countP_eq, List.countP_cons, List.countP_append, List.countP_singleton]
    have hzero : rounds [Event.schedule sc tick func clock] = 0 := rfl
    omega
  | cancel sc =>
    cases hstep
    have hone := hcancel sc
    change 0 + rank a (pending (schedCancel sc r.toState)) + rank a r.armed ≤ _ + rank a r.armed
    omega
  | enter clock =>
    obtain ⟨-, -, rfl⟩ := step_enter hstep
    change 0 + rank a (pending r.toState) + rank a r.armed ≤ _ + rank a r.armed
    omega
  | round =>
    obtain ⟨now, p, l, -, hl, -, rfl⟩ := step_round hstep
    obtain ⟨head, hhead⟩ := h.consistent.armingOf_head hl
    have hpending := h.consistent.pending_round hl
    have hsorted := h.consistent.pending_sorted
    rw [hpending, hhead] at hsorted
    have hbefore : earlier head a := (List.pairwise_cons.mp hsorted).1 a ha
    have hhere : rank a (armingOf r.toState p).toList = 1 := by
      rw [hhead]
      exact List.countP_cons_of_pos (decide_eq_true hbefore)
    have hone := hcancel p
    change 1 + rank a (pending (schedCancel p r.toState)) + rank a r.armed ≤ _ + rank a r.armed
    omega
  | leave =>
    obtain ⟨now, -, -, rfl⟩ := step_leave hstep
    change 0 + rank a (pending r.toState) + rank a r.armed ≤ _ + rank a r.armed
    omega

theorem rank_run {es : List Event} {a : Arming} (h : Inv r) (ha : a ∈ r.armed)
    (ha' : a ∈ pending r'.toState) (hrun : PartialRun.run step r es = some r') :
    rounds es + rank a (pending r'.toState) + rank a r.armed ≤
      rank a (pending r.toState) + rank a r'.armed := by
  induction es generalizing r with
  | nil =>
    cases hrun
    simp [rounds]
  | cons e es ih =>
    obtain ⟨t, ht, hrest⟩ := Option.bind_eq_some_iff.mp hrun
    have hinv := inv_step h ht
    have hend := inv_run hinv hrest
    have hta : a ∈ t.armed := (grows_step ht).armed.subset ha
    have htp := hinv.pending_before hend (grows_run hrest) hta ha'
    have hone := rank_step h htp ht
    have hall := ih hinv hta hrest
    have hcount : rounds (e :: es) = rounds [e] + rounds es :=
      @List.countP_append _ isRound [e] es
    omega

theorem due_of_pending (h : Consistent s) {a : Arming} {now : ℤ} (ha : a ∈ pending s)
    (hdue : a.xtime ≤ now) : due s now = true := by
  obtain ⟨p, hp, hsome⟩ := mem_pending.mp ha
  unfold due
  cases hl : s.sctree with
  | nil =>
    rw [hl] at hp
    cases hp
  | cons q l =>
    have hsorted := h.sorted
    rw [hl] at hp hsorted
    have hpdue : (s.sched p).xtime ≤ now := (armingOf_eq_some hsome).2.1 ▸ hdue
    apply decide_eq_true
    cases List.mem_cons.mp hp with
    | inl heq => exact heq ▸ hpdue
    | inr hin => exact ((List.pairwise_cons.mp hsorted).1 p hin).key_le.trans hpdue

theorem round_or_leave {now : ℤ} (h : r.now = some now) :
    (step r .round).isSome = !(step r .leave).isSome := by
  unfold step due
  simp only [h]
  cases r.sctree with
  | nil => rfl
  | cons p l =>
    by_cases hdue : (r.sched p).xtime ≤ now
    · simp [hdue]
    · simp [hdue]

theorem leave_nothing_due (h : Inv r) (hstep : step r .leave = some r') {a : Arming}
    (ha : a ∈ pending r'.toState) : ∃ now, r.now = some now ∧ now < a.xtime := by
  obtain ⟨now, hnow, hdue, rfl⟩ := step_leave hstep
  refine ⟨now, hnow, ?_⟩
  by_contra hle
  have hdue' := due_of_pending h.consistent ha (not_lt.mp hle)
  rw [hdue] at hdue'
  cases hdue'

/-- A round runs the callback of the first of all armed timers, which is due. -/
theorem round_first (h : Inv r) (hstep : step r .round = some r') :
    ∃ a now, r'.ran = r.ran ++ [a] ∧ pending r.toState = a :: pending r'.toState ∧
      r.now = some now ∧ a.xtime ≤ now ∧ ∀ b ∈ pending r'.toState, earlier a b := by
  obtain ⟨now, p, l, hnow, hl, hdue, rfl⟩ := step_round hstep
  obtain ⟨head, hhead⟩ := h.consistent.armingOf_head hl
  have hpending := h.consistent.pending_round hl
  have hsorted := h.consistent.pending_sorted
  rw [hpending] at hsorted
  rw [hhead] at hpending hsorted ⊢
  refine ⟨head, now, rfl, hpending, hnow, ?_, (List.pairwise_cons.mp hsorted).1⟩
  rw [(armingOf_eq_some hhead).2.1]
  exact hdue

/-- What is armed after the expiry of `a` does not come before it. -/
theorem rank_expired {es : List Event} {a : Arming} (hes : ∀ e ∈ es, relative e)
    (hpast : a.xtime ≤ r.clock) (hid : a.id < r.id) (hrun : PartialRun.run step r es = some r') :
    rank a r'.armed = rank a r.armed := by
  have hkept : a.xtime ≤ r'.clock ∧ a.id < r'.id ∧ rank a r'.armed = rank a r.armed := by
    apply PartialRun.run_keeps _ ⟨hpast, hid, rfl⟩ hrun
    intro t e t' he ht hstep
    obtain ⟨hclock, hlt, hrank⟩ := ht
    cases e with
    | schedule sc tick func clock =>
      obtain ⟨hle, rfl⟩ := step_schedule hstep
      have htick : 0 ≤ tick := hes _ he
      refine ⟨hclock.trans hle, ?_, ?_⟩
      · rw [schedSchedule_id]
        omega
      · have hlate : ¬ earlier ⟨sc, func, clock + tick * second, t.id⟩ a := by
          rintro (hx | hx)
          · have hx' : clock + tick * second < a.xtime := hx
            unfold second at hx'
            omega
          · have hx' : t.id < a.id := hx.2
            omega
        unfold rank at hrank ⊢
        rw [List.countP_append, hrank, List.countP_cons_of_neg (by simpa using hlate)]
        rfl
    | cancel sc =>
      cases hstep
      rw [schedCancel_clock, schedCancel_id]
      exact ⟨hclock, hlt, hrank⟩
    | enter clock =>
      obtain ⟨hle, -, rfl⟩ := step_enter hstep
      exact ⟨hclock.trans hle, hlt, hrank⟩
    | round =>
      obtain ⟨now, p, l, -, -, -, rfl⟩ := step_round hstep
      rw [schedCancel_clock, schedCancel_id]
      exact ⟨hclock, hlt, hrank⟩
    | leave =>
      obtain ⟨now, -, -, rfl⟩ := step_leave hstep
      exact ⟨hclock, hlt, hrank⟩
  exact hkept.2.2

theorem Inv.count_eq (h : Inv r) :
    r.sctree.count sc = if (r.sched sc).func = none then 0 else 1 := by
  split_ifs with hfunc
  · apply List.count_eq_zero_of_not_mem
    exact fun hin => (h.consistent.linked sc).mp hin hfunc
  · exact List.count_eq_one_of_mem h.consistent.nodup ((h.consistent.linked sc).mpr hfunc)

/-- An arming that stays pending has at most as many rounds before it as there are
    armings before it. -/
theorem Inv.served (h : Inv r) {a : Arming} (ha : a ∈ pending r.toState) {es : List Event}
    (hrun : PartialRun.run step r es = some r') :
    a ∈ r'.dropped ∨ a ∈ r'.ran ∨
      rounds es + rank a r.armed ≤ rank a (pending r.toState) + rank a r'.armed := by
  have harmed : a ∈ r.armed := h.ledger.mem_iff.mpr (List.mem_append_left _ ha)
  have harmed' := (grows_run hrun).armed.subset harmed
  have hledger := (inv_run h hrun).ledger.mem_iff.mp harmed'
  cases List.mem_append.mp hledger with
  | inl hin =>
    have hrank := rank_run h harmed hin hrun
    apply Or.inr
    apply Or.inr
    omega
  | inr hgone => exact (List.mem_append.mp hgone).imp id Or.inl

theorem schedular_runs (clock : ℤ) (es : List Event) (r : Run)
    (h : PartialRun.run step (schedInit clock) es = some r) :
    r.sctree.Pairwise (Before (fun p => (r.sched p).xtime) fun p => (r.sched p).id) ∧
    (∀ sc, r.sctree.count sc = if (r.sched sc).func = none then 0 else 1) ∧
    r.armed.Pairwise (fun a b => a.id < b.id) ∧
    r.armed.Perm (pending r.toState ++ (r.dropped ++ r.ran)) ∧
    (∀ r', step r .round = some r' → ∃ a now, r'.ran = r.ran ++ [a] ∧
      pending r.toState = a :: pending r'.toState ∧ r.now = some now ∧ a.xtime ≤ now ∧
      ∀ b ∈ pending r'.toState, earlier a b) ∧
    (∀ r', step r .leave = some r' →
      ∀ a ∈ pending r'.toState, ∃ now, r.now = some now ∧ now < a.xtime) ∧
    (∀ now, r.now = some now → (step r .round).isSome = !(step r .leave).isSome) ∧
    (∀ t, some t ∈ r.returned → 0 < t) ∧
    (∀ a ∈ pending r.toState, ∀ es' r', PartialRun.run step r es' = some r' →
      a ∈ r'.dropped ∨ a ∈ r'.ran ∨
        rounds es' + rank a r.armed ≤ rank a (pending r.toState) + rank a r'.armed) ∧
    (∀ a ∈ pending r.toState, a.xtime ≤ r.clock → ∀ es' r',
      PartialRun.run step r es' = some r' → (∀ e ∈ es', relative e) →
        a ∈ r'.dropped ∨ a ∈ r'.ran ∨ rounds es' ≤ rank a (pending r.toState)) ∧
    ((∀ e ∈ es, relative e) → r.ran.Pairwise earlier) := by
  have hinv : Inv r := inv_run (inv_schedInit clock) h
  refine ⟨hinv.consistent.sorted, fun sc => hinv.count_eq, hinv.numbered, hinv.ledger,
    fun r' => round_first hinv, fun r' hstep a => leave_nothing_due hinv hstep,
    fun now => round_or_leave, hinv.returned, fun a ha es' r' => hinv.served ha, ?_,
    fun hes => (inOrder_run hes h).ordered⟩
  intro a ha hpast es' r' hrun hes'
  have hid := hinv.consistent.pending_lt ha
  have hmade := rank_expired hes' hpast hid hrun
  have hserved := hinv.served ha hrun
  rw [hmade] at hserved
  exact hserved.imp id (Or.imp id Nat.le_of_add_le_add_right)

/-- The first callback arms its own timer and one of the others again. -/
def rearmed : List Event :=
  [.schedule 1 2 10 0, .schedule 2 2 20 0, .schedule 3 3 30 0, .enter (3 * second), .round,
    .schedule 1 0 10 (3 * second), .schedule 3 5 30 (3 * second), .round, .round, .leave]

theorem schedular_runs_rearmed : ∃ r, PartialRun.run step (schedInit 0) rearmed = some r ∧
    r.ran.map Arming.id = [1, 2, 4] ∧ r.dropped.map Arming.id = [3] ∧
    r.armed.Perm (pending r.toState ++ (r.dropped ++ r.ran)) ∧ r.ran.Pairwise earlier := by
  have hrun : ((PartialRun.run step (schedInit 0) rearmed).map fun r =>
      (r.ran.map Arming.id, r.dropped.map Arming.id)) = some ([1, 2, 4], [3]) := by decide +kernel
  obtain ⟨r, hr, hids⟩ := Option.map_eq_some_iff.mp hrun
  have hall := schedular_runs 0 rearmed r hr
  refine ⟨r, hr, congrArg Prod.fst hids, congrArg Prod.snd hids, hall.2.2.2.1, ?_⟩
  apply hall.2.2.2.2.2.2.2.2.2.2
  simp [rearmed, relative]

end WanStack.Racoon.Schedular
