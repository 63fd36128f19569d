import WanStack.Aftr.Command

set_option autoImplicit false

/-!
# Generations of sessions

`session_nextgen` tries the next twenty values of a counter that wraps at `FIRSTGEN`. Zero
is passed over, and what the last attempt leaves is generation 1.
-/
namespace WanStack.Aftr

/-- A generation that no session carries, open or not yet collected. -/
def Control.Fresh (c : Control) (g : ℕ) : Prop :=
  1 ≤ g ∧ g < FIRSTGEN ∧ ∀ ss ∈ c.sslist ++ c.orphans, ss.generation ≠ g

/-- The counter after `j` attempts. -/
def Control.nextGen (c : Control) (j : ℕ) : ℕ := (c.sesgen + j) % FIRSTGEN

variable {c : Control}

theorem nextGen_succ (c : Control) (j : ℕ) :
    Control.nextGen { c with sesgen := (c.sesgen + 1) % FIRSTGEN } j = c.nextGen (j + 1) := by
  change ((c.sesgen + 1) % 1024 + j) % 1024 = (c.sesgen + (j + 1)) % 1024
  omega

/-- One attempt takes the next value or leaves the counter there. -/
theorem sessionNextgen_attempt (k : ℕ) (h : c.sesgen < FIRSTGEN) :
    c.Fresh (c.nextGen 1) ∧ (sessionNextgen (k + 1) c).2 = c.nextGen 1 ∨
      ¬c.Fresh (c.nextGen 1) ∧ sessionNextgen (k + 1) c =
        sessionNextgen k { c with sesgen := (c.sesgen + 1) % FIRSTGEN } := by
  change c.sesgen < 1024 at h
  rw [sessionNextgen]
  by_cases hwrap : c.sesgen + 1 = FIRSTGEN
  · right
    have hzero : (c.sesgen + 1) % FIRSTGEN = 0 := by rw [hwrap, Nat.mod_self]
    rw [if_pos hwrap, Control.nextGen, hzero]
    refine ⟨?_, rfl⟩
    intro hfresh
    exact Nat.not_succ_le_zero 0 hfresh.1
  · have hlt : c.sesgen + 1 < FIRSTGEN := by
      change _ < 1024
      change ¬_ = 1024 at hwrap
      omega
    have hmod : (c.sesgen + 1) % FIRSTGEN = c.sesgen + 1 := Nat.mod_eq_of_lt hlt
    rw [if_neg hwrap, Control.nextGen, hmod]
    by_cases hused : (c.sslist ++ c.orphans).any (·.generation = c.sesgen + 1) = true
    · right
      obtain ⟨ss, hss, hgen⟩ := List.any_eq_true.mp hused
      rw [if_pos hused]
      refine ⟨?_, rfl⟩
      intro hfresh
      exact hfresh.2.2 ss hss (of_decide_eq_true hgen)
    · left
      rw [if_neg hused]
      refine ⟨⟨Nat.le_add_left _ _, hlt, ?_⟩, rfl⟩
      intro ss hss hgen
      exact hused (List.any_eq_true.mpr ⟨ss, hss, decide_eq_true hgen⟩)

theorem fresh_sesgen (g : ℕ) (x : ℕ) : Control.Fresh { c with sesgen := x } g ↔ c.Fresh g := Iff.rfl

/-- The attempts find the first value that is fresh. -/
theorem sessionNextgen_fresh {k j : ℕ} (h : c.sesgen < FIRSTGEN) (hj : 1 ≤ j) (hjk : j ≤ k)
    (hfresh : c.Fresh (c.nextGen j)) : c.Fresh (sessionNextgen k c).2 := by
  induction k generalizing c j with
  | zero => omega
  | succ k ih =>
    obtain ⟨hfirst, hgen⟩ | ⟨hfirst, hnext⟩ := sessionNextgen_attempt k h
    · rw [hgen]
      exact hfirst
    · have hone : j ≠ 1 := by
        rintro rfl
        exact hfirst hfresh
      obtain ⟨i, rfl⟩ := Nat.exists_eq_add_of_le' hj
      have hlt : (c.sesgen + 1) % FIRSTGEN < FIRSTGEN := Nat.mod_lt _ (by decide)
      rw [hnext, ← fresh_sesgen _ ((c.sesgen + 1) % FIRSTGEN)]
      apply ih hlt (j := i) (by omega) (by omega)
      rw [nextGen_succ]
      exact hfresh

theorem sessionNextgen_used {k : ℕ} (h : c.sesgen < FIRSTGEN)
    (hused : ∀ j, 1 ≤ j → j ≤ k → ¬c.Fresh (c.nextGen j)) : (sessionNextgen k c).2 = 1 := by
  induction k generalizing c with
  | zero => rfl
  | succ k ih =>
    obtain ⟨hfirst, -⟩ | ⟨-, hnext⟩ := sessionNextgen_attempt k h
    · exact absurd hfirst (hused 1 (Nat.le_refl 1) (by omega))
    · rw [hnext]
      apply ih (Nat.mod_lt _ (by decide))
      intro j hj hjk
      rw [nextGen_succ]
      exact hused (j + 1) (by omega) (by omega)

theorem sessionNextgen_fresh_iff (c : Control) (h : c.sesgen < FIRSTGEN) :
    c.Fresh (sessionNextgen 20 c).2 ↔
      (∃ j, 1 ≤ j ∧ j ≤ 20 ∧ c.Fresh (c.nextGen j)) ∨ c.Fresh 1 := by
  by_cases hex : ∃ j, 1 ≤ j ∧ j ≤ 20 ∧ c.Fresh (c.nextGen j)
  · obtain ⟨j, hj, hjk, hfresh⟩ := hex
    exact iff_of_true (sessionNextgen_fresh h hj hjk hfresh) (.inl ⟨j, hj, hjk, hfresh⟩)
  · have hused : ∀ j, 1 ≤ j → j ≤ 20 → ¬c.Fresh (c.nextGen j) :=
      fun j hj hjk hfresh => hex ⟨j, hj, hjk, hfresh⟩
    rw [sessionNextgen_used h hused, or_iff_right hex]

/-- The standard input and sessions 2 to 19 are open, and the counter is about to wrap. -/
def crowded : Control :=
  { sslist := ⟨0, 1, 4, true, []⟩ :: (List.range 18).map fun i => ⟨i + 1, i + 2, 8, false, []⟩
    sesgen := FIRSTGEN - 1 }

theorem sessionNextgen_fresh_initial :
    ({} : Control).Fresh (sessionNextgen 20 {}).2 := by
  refine (sessionNextgen_fresh_iff {} (by decide)).mpr (.inl ⟨1, by decide, by decide, ?_⟩)
  refine ⟨by decide, by decide, ?_⟩
  intro ss hss
  obtain rfl := List.mem_singleton.mp hss
  decide

theorem sessionNextgen_crowded :
    ¬∀ c : Control, c.sesgen < FIRSTGEN → (c.sslist ++ c.orphans).length < FIRSTGEN - 1 →
      c.Fresh (sessionNextgen 20 c).2 := by
  intro hall
  have hfresh := hall crowded (by decide) (by decide)
  have hone : (sessionNextgen 20 crowded).2 = 1 := by decide +kernel
  rw [hone] at hfresh
  exact hfresh.2.2 ⟨0, 1, 4, true, []⟩ (List.mem_append_left _ (List.mem_cons_self ..)) rfl

end WanStack.Aftr
