import Mathlib.Data.List.Basic

set_option autoImplicit false

/-!
# A body with a label to go back to

One pass over the body ends with a result, or goes back to the label in another
state. The rules reduce a fact about all passes to one about a single pass.
-/
namespace WanStack.Again

variable {σ ρ : Type}

inductive Pass (σ ρ : Type) where
  | done (r : ρ)
  | again (s : σ)

/-- At most `k` passes; `none` when they were not enough. -/
def loop (pass : σ → Pass σ ρ) : ℕ → σ → Option ρ
  | 0, _ => none
  | k + 1, s =>
    match pass s with
    | .done r => some r
    | .again s' => loop pass k s'

/-- A state to go on from is in `Back`, a result in `End`. -/
def Pass.Meets (Back : σ → Prop) (End : ρ → Prop) : Pass σ ρ → Prop
  | .done r => End r
  | .again s => Back s

variable {pass : σ → Pass σ ρ} {I : σ → Prop} {Q : ρ → Prop}

/-- Each pass keeps the invariant and leaves less to do, or ends as it should. -/
theorem loop_ends (μ : σ → ℕ)
    (h : ∀ s, I s → (pass s).Meets (fun s' => I s' ∧ μ s' < μ s) Q) {k : ℕ} {s : σ} (hs : I s)
    (hk : μ s < k) : ∃ r, loop pass k s = some r ∧ Q r := by
  induction k generalizing s with
  | zero => omega
  | succ k ih =>
    have hpass := h s hs
    cases hp : pass s with
    | done r =>
      rw [hp] at hpass
      exact ⟨r, by simp [loop, hp], hpass⟩
    | again s' =>
      rw [hp] at hpass
      obtain ⟨hs', hless⟩ := hpass
      obtain ⟨r, hr, hQ⟩ := ih hs' (by omega)
      exact ⟨r, by simpa [loop, hp] using hr, hQ⟩

/-- What a loop returned, if only the invariant is known. -/
theorem loop_post (h : ∀ s, I s → (pass s).Meets I Q) {k : ℕ} {s : σ} {r : ρ} (hs : I s)
    (hr : loop pass k s = some r) : Q r := by
  induction k generalizing s with
  | zero => simp [loop] at hr
  | succ k ih =>
    have hpass := h s hs
    cases hp : pass s with
    | done r' =>
      rw [hp] at hpass
      simp only [loop, hp, Option.some.injEq] at hr
      exact hr ▸ hpass
    | again s' =>
      rw [hp] at hpass
      simp only [loop, hp] at hr
      exact ih hpass hr

end WanStack.Again
