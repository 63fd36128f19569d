import Mathlib.Data.Nat.Init

set_option autoImplicit false

/-!
# Reads tried against an end

A routine that is given a piece of memory of a length, each read of which is tried
against that length. It goes through, or reads outside, or has not enough rounds.
-/
namespace WanStack.Tried

inductive Result (α : Type) where
  | through (a : α)
  | outside
  | unfinished
deriving DecidableEq, Repr

variable {α β : Type}

def Result.andThen (x : Result α) (f : α → Result β) : Result β :=
  match x with
  | .through a => f a
  | .outside => .outside
  | .unfinished => .unfinished

instance : Monad Result where
  pure := .through
  bind := Result.andThen

/-- The value `v` of the `n` bytes at `i`, in a piece of `len` bytes. -/
def read (len i n : ℕ) (v : α) : Result α := if i + n ≤ len then .through v else .outside

/-- A read that is made under a condition, and whose value nothing depends on. -/
def touch (c : Bool) (len i n : ℕ) : Result Unit := if c then read len i n () else pure ()

def Inside (x : Result α) : Prop := ∃ a, x = .through a

variable {len i n : ℕ} {v : α} {b : β} {x : Result α} {f : α → Result β}

theorem inside_pure (a : α) : Inside (pure a : Result α) := ⟨a, rfl⟩

theorem inside_through (a : α) : Inside (.through a) := ⟨a, rfl⟩

theorem not_inside_outside : ¬Inside (.outside : Result α) := by
  intro h
  obtain ⟨a, ha⟩ := h
  cases ha

theorem not_inside_unfinished : ¬Inside (.unfinished : Result α) := by
  intro h
  obtain ⟨a, ha⟩ := h
  cases ha

theorem bind_through_iff : x >>= f = .through b ↔ ∃ a, x = .through a ∧ f a = .through b := by
  constructor
  · intro h
    cases x with
    | through a => exact ⟨a, rfl, h⟩
    | outside => cases h
    | unfinished => cases h
  · intro h
    obtain ⟨a, rfl, hf⟩ := h
    exact hf

theorem inside_bind : Inside (x >>= f) ↔ ∃ a, x = .through a ∧ Inside (f a) := by
  constructor
  · intro h
    obtain ⟨b, hb⟩ := h
    obtain ⟨a, ha, hf⟩ := bind_through_iff.mp hb
    exact ⟨a, ha, b, hf⟩
  · intro h
    obtain ⟨a, ha, b, hf⟩ := h
    exact ⟨b, bind_through_iff.mpr ⟨a, ha, hf⟩⟩

theorem read_through_iff {w : α} : read len i n v = .through w ↔ i + n ≤ len ∧ v = w := by
  unfold read
  by_cases hin : i + n ≤ len
  · rw [if_pos hin]
    constructor
    · intro h
      cases h
      exact ⟨hin, rfl⟩
    · intro h
      rw [h.2]
  · rw [if_neg hin]
    constructor
    · intro h
      cases h
    · intro h
      exact absurd h.1 hin

theorem inside_read : Inside (read len i n v) ↔ i + n ≤ len := by
  constructor
  · intro h
    obtain ⟨a, ha⟩ := h
    exact (read_through_iff.mp ha).1
  · intro h
    exact ⟨v, read_through_iff.mpr ⟨h, rfl⟩⟩

/-- A read, and what follows with the value read. -/
theorem read_bind_through_iff :
    read len i n v >>= f = .through b ↔ i + n ≤ len ∧ f v = .through b := by
  rw [bind_through_iff]
  constructor
  · intro h
    obtain ⟨a, ha, hf⟩ := h
    obtain ⟨hin, rfl⟩ := read_through_iff.mp ha
    exact ⟨hin, hf⟩
  · intro h
    exact ⟨v, read_through_iff.mpr ⟨h.1, rfl⟩, h.2⟩

theorem read_bind_within (h : i + n ≤ len) : read len i n v >>= f = f v := by
  rw [read, if_pos h]
  rfl

theorem inside_read_bind : Inside (read len i n v >>= f) ↔ i + n ≤ len ∧ Inside (f v) := by
  constructor
  · intro h
    obtain ⟨b, hb⟩ := h
    obtain ⟨hin, hf⟩ := read_bind_through_iff.mp hb
    exact ⟨hin, b, hf⟩
  · intro h
    obtain ⟨hin, b, hf⟩ := h
    exact ⟨b, read_bind_through_iff.mpr ⟨hin, hf⟩⟩

theorem touch_through_iff {c : Bool} {u : Unit} : touch c len i n = .through u ↔ c → i + n ≤ len := by
  unfold touch
  cases c with
  | true => simp [read_through_iff]
  | false => exact ⟨fun _ h => absurd h Bool.false_ne_true, fun _ => rfl⟩

theorem inside_touch_bind {c : Bool} {f : Unit → Result β} :
    Inside (touch c len i n >>= f) ↔ (c → i + n ≤ len) ∧ Inside (f ()) := by
  rw [inside_bind]
  constructor
  · intro h
    obtain ⟨u, hu, hf⟩ := h
    exact ⟨touch_through_iff.mp hu, hf⟩
  · intro h
    exact ⟨(), touch_through_iff.mpr h.1, h.2⟩

/-- A branch of which one way reads nothing. -/
theorem inside_stop {c : Prop} [Decidable c] {a : α} :
    Inside (if c then pure a else x) ↔ ¬c → Inside x := by
  by_cases hc : c
  · rw [if_pos hc]
    exact ⟨fun _ hnot => absurd hc hnot, fun _ => inside_pure a⟩
  · rw [if_neg hc]
    exact ⟨fun h _ => h, fun h => h hc⟩

end WanStack.Tried
