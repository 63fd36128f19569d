import Mathlib.Data.List.Basic

set_option autoImplicit false

/-!
# A field used again over a list

A record that is filled once for each element of a list and never cleared has
two kinds of fields: one that every element sets, and one that only some
elements set, so that the others are handed what an earlier one left.
-/
namespace WanStack.Lib.Reused

variable {α σ : Type} (S : α → Prop) [DecidablePred S] (x base : σ)

/-- What the field holds after an element: `x` where the element sets it. -/
def held (s : σ) (a : α) : σ := if S a then x else s

/-- From the value `s` on, each element sets the field or finds it at `base`. -/
def Clean : σ → List α → Prop
  | _, [] => True
  | s, a :: l => (S a ∨ s = base) ∧ Clean (held S x s a) l

theorem clean_of_eq (h : x = base) (l : List α) : Clean S x base base l := by
  induction l with
  | nil => exact trivial
  | cons a l ih =>
    refine ⟨Or.inr rfl, ?_⟩
    have hheld : held S x base a = base := by
      unfold held
      split
      · exact h
      · rfl
    rwa [hheld]

/-- Once it is set to something else, every element has to set it. -/
theorem clean_set (h : x ≠ base) (l : List α) : Clean S x base x l ↔ ∀ a ∈ l, S a := by
  induction l with
  | nil => simp [Clean]
  | cons a l ih =>
    have hheld : held S x x a = x := by
      unfold held
      split <;> rfl
    simp only [Clean, hheld, ih, h, or_false, List.forall_mem_cons]

theorem clean_iff (h : x ≠ base) (l : List α) :
    Clean S x base base l ↔ l.Pairwise fun a b => S a → S b := by
  induction l with
  | nil => simp [Clean]
  | cons a l ih =>
    simp only [Clean, or_true, true_and, List.pairwise_cons]
    by_cases ha : S a
    · have hheld : held S x base a = x := by simp [held, ha]
      rw [hheld, clean_set S x base h l]
      constructor
      · intro hall
        refine ⟨fun b hb _ => hall b hb, ?_⟩
        exact List.pairwise_of_forall_mem_list fun _ _ b hb _ => hall b hb
      · intro hpair b hb
        exact hpair.1 b hb ha
    · have hheld : held S x base a = base := by simp [held, ha]
      rw [hheld, ih]
      simp [ha]

theorem clean_base (l : List α) :
    Clean S x base base l ↔ x = base ∨ l.Pairwise fun a b => S a → S b := by
  by_cases h : x = base
  · simp [h, clean_of_eq]
  · simp only [clean_iff S x base h, h, false_or]

end WanStack.Lib.Reused
