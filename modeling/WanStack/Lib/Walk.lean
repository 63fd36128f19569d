import Mathlib.Data.List.Basic
import Mathlib.Data.Nat.Init

set_option autoImplicit false

/-!
# A walk over a list by pieces

A loop that looks at what is left of a list and goes on by some number of
elements, or stops. Its rounds are what is left at the beginning of each; they
are found with some fuel, and no fuel is missed when every round goes on.
-/
namespace WanStack.Lib.Walk

variable {β : Type} (next : List β → Option ℕ)

/-- What is left at the beginning of each round. -/
def rounds : ℕ → List β → Option (List (List β))
  | _, [] => some []
  | 0, _ :: _ => none
  | k + 1, x :: xs =>
    match next (x :: xs) with
    | none => some [x :: xs]
    | some n => (rounds k ((x :: xs).drop n)).map fun rs => (x :: xs) :: rs

/-- The rounds with as much fuel as there are elements. -/
def walk (xs : List β) : Option (List (List β)) := rounds next xs.length xs

def Advances : Prop := ∀ xs n, next xs = some n → 0 < n

variable {next}

theorem rounds_fuel (h : Advances next) (k : ℕ) (xs : List β) (hk : xs.length ≤ k) :
    rounds next k xs = walk next xs := by
  unfold walk
  induction k using Nat.strong_induction_on generalizing xs with
  | _ k ih =>
    cases xs with
    | nil => cases k <;> rfl
    | cons x xs =>
      obtain ⟨k, rfl⟩ : ∃ j, k = j + 1 := ⟨k - 1, by simp at hk; omega⟩
      change rounds next (k + 1) (x :: xs) = rounds next (xs.length + 1) (x :: xs)
      unfold rounds
      cases hn : next (x :: xs) with
      | none => rfl
      | some n =>
        have hpos := h _ n hn
        have hshort : ((x :: xs).drop n).length ≤ xs.length := by
          simp only [List.length_drop, List.length_cons]
          omega
        simp only [List.length_cons] at hk
        have hk' := ih k (by omega) ((x :: xs).drop n) (by omega)
        by_cases hxs : xs.length < k
        · dsimp only
          rw [hk', ih xs.length (by omega) _ hshort]
        · rw [show xs.length = k by omega]

/-- One round of a walk. -/
theorem walk_cons (h : Advances next) (x : β) (xs : List β) :
    walk next (x :: xs) =
      match next (x :: xs) with
      | none => some [x :: xs]
      | some n => (walk next ((x :: xs).drop n)).map fun rs => (x :: xs) :: rs := by
  rw [walk, List.length_cons, rounds]
  cases hn : next (x :: xs) with
  | none => rfl
  | some n =>
    have hpos := h _ n hn
    have hshort : ((x :: xs).drop n).length ≤ xs.length := by
      simp only [List.length_drop, List.length_cons]
      omega
    simp only [rounds_fuel h xs.length _ hshort]

theorem walk_nil : walk next [] = some [] := rfl

theorem walk_stop (h : Advances next) {xs : List β} (hne : xs ≠ []) (hn : next xs = none) :
    walk next xs = some [xs] := by
  cases xs with
  | nil => exact absurd rfl hne
  | cons x xs => rw [walk_cons h, hn]

theorem walk_next (h : Advances next) {xs : List β} {n : ℕ} (hne : xs ≠ [])
    (hn : next xs = some n) : walk next xs = (walk next (xs.drop n)).map fun rs => xs :: rs := by
  cases xs with
  | nil => exact absurd rfl hne
  | cons x xs => rw [walk_cons h, hn]

/-- A walk in which every round goes on comes to an end. -/
theorem walk_total (h : Advances next) (xs : List β) : ∃ rs, walk next xs = some rs := by
  induction hl : xs.length using Nat.strong_induction_on generalizing xs with
  | _ l ih =>
    cases xs with
    | nil => exact ⟨[], rfl⟩
    | cons x xs =>
      cases hn : next (x :: xs) with
      | none => exact ⟨_, walk_stop h (List.cons_ne_nil x xs) hn⟩
      | some n =>
        have hpos := h _ n hn
        have hshort : ((x :: xs).drop n).length < l := by
          simp only [List.length_drop, List.length_cons] at hl ⊢
          omega
        obtain ⟨rs, hrs⟩ := ih _ hshort _ rfl
        rw [walk_next h (List.cons_ne_nil x xs) hn, hrs]
        exact ⟨_, rfl⟩

/-- The pieces `ps` in front of `rest` are each gone over. -/
def GoesOver (next : List β → Option ℕ) : List (List β) → List β → Prop
  | [], _ => True
  | p :: ps, rest => next (p ++ (ps.flatten ++ rest)) = some p.length ∧ GoesOver next ps rest

/-- What is left at each of the pieces. -/
def leftAt : List (List β) → List β → List (List β)
  | [], _ => []
  | p :: ps, rest => (p ++ (ps.flatten ++ rest)) :: leftAt ps rest

@[simp] theorem length_leftAt (ps : List (List β)) (rest : List β) :
    (leftAt ps rest).length = ps.length := by
  induction ps with
  | nil => rfl
  | cons p ps ih => simp [leftAt, ih]

theorem goesOver_ne_nil (h : Advances next) {p : List β} {rest : List β}
    (hp : next (p ++ rest) = some p.length) : p ++ rest ≠ [] := by
  have hpos := h _ _ hp
  intro hnil
  rw [(List.append_eq_nil_iff.mp hnil).1] at hpos
  exact absurd hpos (by simp)

/-- A walk over pieces that are gone over continues behind them. -/
theorem walk_pieces (h : Advances next) (ps : List (List β)) (rest : List β)
    (hps : GoesOver next ps rest) :
    walk next (ps.flatten ++ rest) = (walk next rest).map fun rs => leftAt ps rest ++ rs := by
  induction ps with
  | nil =>
    change walk next rest = _
    cases walk next rest <;> rfl
  | cons p ps ih =>
    rw [List.flatten_cons, List.append_assoc, walk_next h (goesOver_ne_nil h hps.1) hps.1,
      List.drop_left, ih hps.2, Option.map_map]
    rfl

/-- A walk stops at the first piece that is not gone over. -/
theorem walk_pieces_stop (h : Advances next) (ps : List (List β)) (p rest : List β)
    (hps : GoesOver next ps (p ++ rest)) (hne : p ≠ []) (hp : next (p ++ rest) = none) :
    walk next (ps.flatten ++ (p ++ rest)) = some (leftAt ps (p ++ rest) ++ [p ++ rest]) := by
  rw [walk_pieces h ps _ hps, walk_stop h (by simp [hne]) hp]
  rfl

/-- Behind pieces that are each gone over or stopped at, the rounds come to `rest`
    exactly when all are gone over. -/
theorem walk_reaches (h : Advances next) (ps : List (List β)) {rest : List β} (hrest : rest ≠ [])
    (hps : ∀ p ∈ ps, p ≠ [] ∧ ∀ tail, next (p ++ tail) = none ∨ next (p ++ tail) = some p.length) :
    ∃ rs, walk next (ps.flatten ++ rest) = some rs ∧
      (GoesOver next ps rest → rs[ps.length]? = some rest) ∧
      (¬ GoesOver next ps rest → rs[ps.length]? = none) := by
  induction ps with
  | nil =>
    obtain ⟨rs, hrs⟩ := walk_total h rest
    refine ⟨rs, hrs, fun _ => ?_, fun hnot => absurd trivial hnot⟩
    cases hn : next rest with
    | none =>
      obtain rfl := Option.some.inj (hrs.symm.trans (walk_stop h hrest hn))
      rfl
    | some n =>
      rw [walk_next h hrest hn] at hrs
      obtain ⟨rs', -, rfl⟩ := Option.map_eq_some_iff.mp hrs
      rfl
  | cons p ps ih =>
    obtain ⟨hne, hpiece⟩ := hps p List.mem_cons_self
    have hall : p ++ (ps.flatten ++ rest) ≠ [] := by simp [hne]
    rw [List.flatten_cons, List.append_assoc]
    rcases hpiece (ps.flatten ++ rest) with hstop | hgoes
    · refine ⟨[p ++ (ps.flatten ++ rest)], walk_stop h hall hstop, ?_, fun _ => rfl⟩
      intro hover
      rw [hover.1] at hstop
      exact absurd hstop (by simp)
    · obtain ⟨rs, hrs, hreached, hmissed⟩ := ih fun q hq => hps q (List.mem_cons_of_mem _ hq)
      refine ⟨(p ++ (ps.flatten ++ rest)) :: rs, ?_, ?_, ?_⟩
      · rw [walk_next h hall hgoes, List.drop_left, hrs]
        rfl
      · intro hover
        exact hreached hover.2
      · intro hnot
        exact hmissed fun hover => hnot ⟨hgoes, hover⟩

end WanStack.Lib.Walk
