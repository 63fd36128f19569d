import Mathlib.Data.List.Basic
import Mathlib.Data.List.Forall2

set_option autoImplicit false

/-!
# Runs of a partial step function

A step may be undefined. `Along` asks something of every state before a step;
an invariant that the step keeps under it holds after the run, which is then
defined.
-/
namespace WanStack.PartialRun

variable {σ ι : Type} (step : σ → ι → Option σ)

def run (s : σ) : List ι → Option σ
  | [] => some s
  | i :: is => (step s i).bind fun s' => run s' is

/-- `P` holds of every step of the run. -/
def Along (P : σ → ι → Prop) : σ → List ι → Prop
  | _, [] => True
  | s, i :: is => P s i ∧ ∀ s', step s i = some s' → Along P s' is

variable {step} {P : σ → ι → Prop}

instance Along.decidable [∀ s i, Decidable (P s i)] :
    (s : σ) → (is : List ι) → Decidable (Along step P s is)
  | _, [] => isTrue trivial
  | s, i :: is =>
    match h : step s i with
    | none => decidable_of_iff (P s i) (by simp [Along, h])
    | some s' =>
      have := Along.decidable s' is
      decidable_of_iff (P s i ∧ Along step P s' is) (by simp [Along, h])

theorem run_invariant {Inv : σ → Prop}
    (hstep : ∀ s i, Inv s → P s i → ∃ s', step s i = some s' ∧ Inv s')
    {s : σ} {is : List ι} (hs : Inv s) (h : Along step P s is) :
    ∃ s', run step s is = some s' ∧ Inv s' := by
  induction is generalizing s with
  | nil => exact ⟨s, rfl, hs⟩
  | cons i is ih =>
    obtain ⟨hP, hrest⟩ := h
    obtain ⟨s', hs', hinv⟩ := hstep s i hs hP
    obtain ⟨t, ht, htinv⟩ := ih hinv (hrest s' hs')
    refine ⟨t, ?_, htinv⟩
    rw [run, hs', Option.bind_some, ht]

theorem run_keeps {Inv : σ → Prop} {s s' : σ} {is : List ι}
    (hstep : ∀ s i s', i ∈ is → Inv s → step s i = some s' → Inv s')
    (hs : Inv s) (h : run step s is = some s') : Inv s' := by
  induction is generalizing s with
  | nil => exact Option.some.inj h ▸ hs
  | cons i is ih =>
    obtain ⟨t, ht, hrest⟩ := Option.bind_eq_some_iff.mp h
    have hinv := hstep s i t List.mem_cons_self hs ht
    exact ih (fun s j s' hj => hstep s j s' (List.mem_cons_of_mem _ hj)) hinv hrest

theorem run_along {Inv : σ → Prop} {s s' : σ} {is : List ι}
    (hstep : ∀ s i s', Inv s → P s i → step s i = some s' → Inv s')
    (hs : Inv s) (h : Along step P s is) (hrun : run step s is = some s') : Inv s' := by
  induction is generalizing s with
  | nil => exact Option.some.inj hrun ▸ hs
  | cons i is ih =>
    obtain ⟨t, ht, hrest⟩ := Option.bind_eq_some_iff.mp hrun
    exact ih (hstep s i t hs h.1 ht) (h.2 t ht) hrest

/-- Every step of the run is defined and `Inv` holds before it and at the end. -/
def Kept (step : σ → ι → Option σ) (Inv : σ → Prop) : σ → List ι → Prop
  | s, [] => Inv s
  | s, i :: is => Inv s ∧ ∃ s', step s i = some s' ∧ Kept step Inv s' is

theorem Kept.head {Inv : σ → Prop} {s : σ} {is : List ι} (h : Kept step Inv s is) : Inv s := by
  cases is with
  | nil => exact h
  | cons i is => exact h.1

/-- Where a step keeps an invariant exactly under `P`, a run does. -/
theorem kept_iff_along {Side Inv : σ → Prop}
    (hside : ∀ s i s', Side s → step s i = some s' → Side s')
    (hstep : ∀ s i, Side s → Inv s → (P s i ↔ ∃ s', step s i = some s' ∧ Inv s'))
    {s : σ} {is : List ι} (hs : Side s) (hinv : Inv s) :
    Kept step Inv s is ↔ Along step P s is := by
  induction is generalizing s with
  | nil => exact ⟨fun _ => trivial, fun _ => hinv⟩
  | cons i is ih =>
    constructor
    · intro hkept
      obtain ⟨-, s', hs', hrest⟩ := hkept
      refine ⟨(hstep s i hs hinv).mpr ⟨s', hs', hrest.head⟩, ?_⟩
      intro t ht
      obtain rfl : s' = t := Option.some.inj (hs'.symm.trans ht)
      exact (ih (hside s i s' hs hs') hrest.head).mp hrest
    · intro halong
      obtain ⟨hP, hrest⟩ := halong
      obtain ⟨s', hs', hinv'⟩ := (hstep s i hs hinv).mp hP
      exact ⟨hinv, s', hs', (ih (hside s i s' hs hs') hinv').mpr (hrest s' hs')⟩

/-- Every step of the run is defined, and what it leads to stands in `R` to what it
    came from. -/
def Through (step : σ → ι → Option σ) (R : σ → ι → σ → Prop) : σ → List ι → Prop
  | _, [] => True
  | s, i :: is => ∃ s', step s i = some s' ∧ R s i s' ∧ Through step R s' is

theorem Along.mono {Q : σ → ι → Prop} (hPQ : ∀ s i, P s i → Q s i) {s : σ} {is : List ι}
    (h : Along step P s is) : Along step Q s is := by
  induction is generalizing s with
  | nil => trivial
  | cons i is ih => exact ⟨hPQ s i h.1, fun s' hs' => ih (h.2 s' hs')⟩

theorem Through.run_isSome {R : σ → ι → σ → Prop} {s : σ} {is : List ι} (h : Through step R s is) :
    (run step s is).isSome := by
  induction is generalizing s with
  | nil => rfl
  | cons i is ih =>
    obtain ⟨s', hs', -, hrest⟩ := h
    rw [run, hs', Option.bind_some]
    exact ih hrest

theorem through_of_along {Inv : σ → Prop} {R : σ → ι → σ → Prop}
    (hstep : ∀ s i, Inv s → P s i → ∃ s', step s i = some s' ∧ R s i s' ∧ Inv s')
    {s : σ} {is : List ι} (hs : Inv s) (h : Along step P s is) : Through step R s is := by
  induction is generalizing s with
  | nil => trivial
  | cons i is ih =>
    obtain ⟨hP, hrest⟩ := h
    obtain ⟨s', hs', hR, hinv⟩ := hstep s i hs hP
    exact ⟨s', hs', hR, ih hinv (hrest s' hs')⟩

/-! ### One partial result for each element -/

theorem mapM_eq_some {α β : Type} (f : α → Option β) (l : List α) (r : List β) :
    l.mapM f = some r ↔ l.map f = r.map some := by
  induction l generalizing r with
  | nil => cases r <;> simp
  | cons x l ih =>
    rw [List.mapM_cons]
    cases hx : f x with
    | none => cases r <;> simp [hx]
    | some y =>
      cases r with
      | nil => simp [Option.bind_eq_some_iff]
      | cons z r => simp [Option.bind_eq_some_iff, hx, ih, and_comm]

theorem mapM_mem {α β : Type} {f : α → Option β} {l : List α} {r : List β} (h : l.mapM f = some r) :
    (∀ x ∈ l, ∃ y, f x = some y) ∧ ∀ y ∈ r, ∃ x ∈ l, f x = some y := by
  have hmap := (mapM_eq_some f l r).mp h
  constructor
  · intro x hx
    have hmem : f x ∈ r.map some := hmap ▸ List.mem_map_of_mem hx
    obtain ⟨y, -, hy⟩ := List.mem_map.mp hmem
    exact ⟨y, hy.symm⟩
  · intro y hy
    have hmem : some y ∈ l.map f := hmap ▸ List.mem_map_of_mem hy
    exact List.mem_map.mp hmem

theorem mapM_forall₂ {α β : Type} (f : α → Option β) (l : List α) (r : List β) :
    l.mapM f = some r ↔ List.Forall₂ (fun a b => f a = some b) l r := by
  rw [mapM_eq_some, ← List.forall₂_eq_eq_eq, List.forall₂_map_left_iff,
    List.forall₂_map_right_iff]

end WanStack.PartialRun
