import Mathlib.Data.List.Basic
import Mathlib.Data.List.Nodup

set_option autoImplicit false

/-!
# Radix (patricia) trees

Values at the leaves, a bit to look at in every glue node. The bits of a key
are given by `bit`, and the first `w` of them determine it.
-/
namespace WanStack.Radix

variable {α κ : Type}

inductive Tree (α : Type) where
  | leaf (x : α)
  | glue (b : ℕ) (left right : Tree α)
deriving DecidableEq, Repr

open WanStack.Radix.Tree

def leaves : Tree α → List α
  | leaf x => [x]
  | glue _ l r => leaves l ++ leaves r

/-- The leaf the bits of a key lead to. -/
def follow (bit : ℕ → Bool) : Tree α → α
  | leaf x => x
  | glue b l r => if bit b then follow bit r else follow bit l

/-- The first bit in which two keys differ. -/
def differ (bit : κ → ℕ → Bool) (w : ℕ) (a b : κ) : Option ℕ :=
  (List.range w).find? fun i => bit a i != bit b i

/-- A new glue node on bit `d` over a tree and the new leaf. -/
def join (bit : ℕ → Bool) (d : ℕ) (x : α) (t : Tree α) : Tree α :=
  if bit d then glue d t (leaf x) else glue d (leaf x) t

/-- Put the leaf under a glue node on bit `d`, above the topmost node whose
    bit is not before `d`. -/
def place (bit : ℕ → Bool) (d : ℕ) (x : α) : Tree α → Tree α
  | leaf y => join bit d x (leaf y)
  | glue b l r =>
    if d ≤ b then join bit d x (glue b l r)
    else if bit b then glue b l (place bit d x r) else glue b (place bit d x l) r

section Keys
variable (key : α → κ) (bit : κ → ℕ → Bool) (w : ℕ)

def find [DecidableEq κ] (k : κ) : Option (Tree α) → Option α
  | none => none
  | some t => let x := follow (bit k) t; if key x = k then some x else none

/-- The new tree, and the leaf of the same key that kept `x` out. -/
def insert (x : α) : Option (Tree α) → Option (Tree α) × Option α
  | none => (some (leaf x), none)
  | some t =>
    let y := follow (bit (key x)) t
    match differ bit w (key x) (key y) with
    | none => (some t, some y)
    | some d => (some (place (bit (key x)) d x t), none)

/-- Bits grow downwards; under a node on bit `b` the keys agree before `b`, and
    on `b` they are 0 on the left and 1 on the right. -/
def WellFormed : ℕ → Tree α → Prop
  | _, leaf _ => True
  | lo, glue b l r => lo ≤ b ∧ b < w ∧ (∀ x ∈ leaves l, bit (key x) b = false) ∧
      (∀ x ∈ leaves r, bit (key x) b = true) ∧
      (∀ x ∈ leaves (glue b l r), ∀ y ∈ leaves (glue b l r), ∀ i < b,
        bit (key x) i = bit (key y) i) ∧ WellFormed (b + 1) l ∧ WellFormed (b + 1) r

end Keys

/-- Take out the leaves with a property; a glue node left with one child goes. -/
def prune (p : α → Bool) : Tree α → Option (Tree α)
  | leaf x => if p x then none else some (leaf x)
  | glue b l r =>
    match prune p l, prune p r with
    | none, none => none
    | some l, none => some l
    | none, some r => some r
    | some l, some r => some (glue b l r)

/-- The values of a tree that may be empty. -/
def values : Option (Tree α) → List α
  | none => []
  | some t => leaves t

@[simp] theorem values_none : values (none : Option (Tree α)) = [] := rfl
@[simp] theorem values_some (t : Tree α) : values (some t) = leaves t := rfl

theorem follow_mem (bit : ℕ → Bool) (t : Tree α) : follow bit t ∈ leaves t := by
  induction t with
  | leaf x => simp [follow, leaves]
  | glue b l r ihl ihr =>
    simp only [follow, leaves, List.mem_append]
    split
    · exact .inr ihr
    · exact .inl ihl

theorem values_prune (p : α → Bool) (t : Tree α) :
    values (prune p t) = (leaves t).filter fun x => !p x := by
  induction t with
  | leaf x =>
    simp only [prune, leaves]
    split <;> simp_all [leaves]
  | glue b l r ihl ihr =>
    simp only [prune, leaves, List.filter_append, ← ihl, ← ihr]
    cases prune p l <;> cases prune p r <;> simp [leaves]

theorem differ_none {bit : κ → ℕ → Bool} {w : ℕ} {a b : κ} (h : differ bit w a b = none) :
    ∀ i < w, bit a i = bit b i := by
  intro i hi
  simpa using List.find?_eq_none.mp h i (List.mem_range.mpr hi)

theorem differ_some {bit : κ → ℕ → Bool} {w d : ℕ} {a b : κ} (h : differ bit w a b = some d) :
    d < w ∧ bit a d ≠ bit b d ∧ ∀ i < d, bit a i = bit b i := by
  obtain ⟨hd, l₁, l₂, hl, hbefore⟩ := List.find?_eq_some_iff_append.mp h
  have hlen : l₁.length = d ∧ ∀ i < d, i ∈ l₁ := by
    have hget : (List.range w)[l₁.length]? = some d := by simp [hl]
    have hd' : l₁.length = d := by
      rw [List.getElem?_range (by
        rw [← List.length_range (n := w), hl]
        simp)] at hget
      exact Option.some.inj hget
    refine ⟨hd', fun i hi => ?_⟩
    have hi' : (List.range w)[i]? = some i := by
      refine List.getElem?_range ?_
      have : (List.range w).length = l₁.length + (l₂.length + 1) := by simp [hl]
      rw [List.length_range] at this
      omega
    rw [hl, List.getElem?_append_left (by omega)] at hi'
    exact List.mem_of_getElem? hi'
  refine ⟨?_, by simpa using hd, fun i hi => by simpa using hbefore i (hlen.2 i hi)⟩
  have : d ∈ List.range w := by simp [hl]
  exact List.mem_range.mp this

theorem perm_join (bit : ℕ → Bool) (d : ℕ) (x : α) (t : Tree α) :
    (leaves (join bit d x t)).Perm (x :: leaves t) := by
  unfold join
  split
  · exact List.perm_append_singleton x (leaves t)
  · exact List.Perm.refl _

theorem perm_place (bit : ℕ → Bool) (d : ℕ) (x : α) (t : Tree α) :
    (leaves (place bit d x t)).Perm (x :: leaves t) := by
  induction t with
  | leaf y => exact perm_join bit d x (leaf y)
  | glue b l r ihl ihr =>
    simp only [place]
    split
    · exact perm_join bit d x _
    · split
      · exact (List.Perm.append_left _ ihr).trans List.perm_middle
      · exact List.Perm.append_right _ ihl

section Keys
variable {key : α → κ} {bit : κ → ℕ → Bool} {w : ℕ}

theorem WellFormed.mono {lo lo' : ℕ} {t : Tree α} (h : WellFormed key bit w lo t)
    (hle : lo' ≤ lo) : WellFormed key bit w lo' t := by
  cases t with
  | leaf x => trivial
  | glue b l r => exact ⟨Nat.le_trans hle h.1, h.2⟩

theorem follow_eq {lo : ℕ} {t : Tree α} (h : WellFormed key bit w lo t) {x : α}
    (hx : x ∈ leaves t) : follow (bit (key x)) t = x := by
  induction t generalizing lo with
  | leaf y => simpa [follow, leaves, eq_comm] using hx
  | glue b l r ihl ihr =>
    obtain ⟨-, -, hl, hr, -, hwl, hwr⟩ := h
    rcases List.mem_append.mp hx with hx | hx
    · rw [follow, if_neg (by simp [hl x hx])]
      exact ihl hwl hx
    · rw [follow, if_pos (hr x hx)]
      exact ihr hwr hx

/-- A key is found exactly when a leaf has it. -/
theorem find_eq_some [DecidableEq κ] {t : Option (Tree α)}
    (h : ∀ u ∈ t, WellFormed key bit w 0 u) {k : κ} {x : α} :
    find key bit k t = some x ↔ x ∈ values t ∧ key x = k := by
  cases t with
  | none => simp [find]
  | some t =>
    simp only [find, Option.ite_none_right_eq_some, Option.some.injEq, values_some]
    constructor
    · rintro ⟨hk, rfl⟩
      exact ⟨follow_mem _ t, hk⟩
    · rintro ⟨hx, rfl⟩
      have := follow_eq (h t rfl) hx
      exact ⟨by rw [this], this⟩

theorem find_eq_none [DecidableEq κ] {t : Option (Tree α)}
    (h : ∀ u ∈ t, WellFormed key bit w 0 u) {k : κ} :
    find key bit k t = none ↔ ∀ x ∈ values t, key x ≠ k := by
  constructor
  · intro hnone x hx hk
    have := (find_eq_some h).mpr ⟨hx, hk⟩
    simp [hnone] at this
  · intro hall
    cases hf : find key bit k t with
    | none => rfl
    | some x =>
      obtain ⟨hx, hk⟩ := (find_eq_some h).mp hf
      exact absurd hk (hall x hx)

theorem wellFormed_join {lo d : ℕ} {t : Tree α} {x : α} (hlo : lo ≤ d) (hd : d < w)
    (ht : WellFormed key bit w (d + 1) t)
    (hne : ∀ y ∈ leaves t, bit (key x) d ≠ bit (key y) d)
    (heq : ∀ y ∈ leaves t, ∀ i < d, bit (key x) i = bit (key y) i) :
    WellFormed key bit w lo (join (bit (key x)) d x t) := by
  have hall : ∀ y z, (y = x ∨ y ∈ leaves t) → (z = x ∨ z ∈ leaves t) → ∀ i < d,
      bit (key y) i = bit (key z) i := by
    rintro y z (rfl | hy) (rfl | hz) i hi
    · rfl
    · exact heq z hz i hi
    · exact (heq y hy i hi).symm
    · exact (heq y hy i hi).symm.trans (heq z hz i hi)
  unfold join
  split
  · rename_i hx
    refine ⟨hlo, hd, fun y hy => ?_, ?_, ?_, ht, trivial⟩
    · have := hne y hy
      simpa [hx] using this.symm
    · simpa [leaves] using hx
    · intro y hy z hz
      refine hall y z ?_ ?_
      · simpa [leaves, or_comm] using hy
      · simpa [leaves, or_comm] using hz
  · rename_i hx
    refine ⟨hlo, hd, ?_, fun y hy => ?_, ?_, trivial, ht⟩
    · simpa [leaves] using hx
    · have := hne y hy
      simpa [hx] using this.symm
    · intro y hy z hz
      refine hall y z ?_ ?_
      · simpa [leaves] using hy
      · simpa [leaves] using hz

theorem wellFormed_place {lo d : ℕ} {t : Tree α} {x : α} (ht : WellFormed key bit w lo t)
    (hlo : lo ≤ d) (hd : d < w)
    (hne : bit (key x) d ≠ bit (key (follow (bit (key x)) t)) d)
    (heq : ∀ i < d, bit (key x) i = bit (key (follow (bit (key x)) t)) i) :
    WellFormed key bit w lo (place (bit (key x)) d x t) := by
  induction t generalizing lo with
  | leaf y =>
    refine wellFormed_join hlo hd trivial ?_ ?_
    · simpa [leaves, follow] using hne
    · simpa [leaves, follow] using heq
  | glue b l r ihl ihr =>
    obtain ⟨hlb, hbw, hl, hr, hagree, hwl, hwr⟩ := ht
    have hmem := follow_mem (bit (key x)) (glue b l r)
    -- the leaf followed to has the bit of `x` in every node on the way
    have hb : bit (key x) b = bit (key (follow (bit (key x)) (glue b l r))) b := by
      simp only [follow]
      split
      · rename_i hx
        rw [hx, hr _ (follow_mem _ r)]
      · rename_i hx
        rw [hl _ (follow_mem _ l)]
        simpa using hx
    simp only [place]
    split
    · rename_i hdb
      have hdb' : d < b := Nat.lt_of_le_of_ne hdb fun h => hne (h ▸ hb)
      refine wellFormed_join hlo hd ⟨hdb', hbw, hl, hr, hagree, hwl, hwr⟩ ?_ ?_
      · intro y hy
        rw [hagree y hy _ hmem d hdb']
        exact hne
      · intro y hy i hi
        rw [hagree y hy _ hmem i (by omega)]
        exact heq i hi
    · rename_i hdb
      have hperm : ∀ y, y = x ∨ y ∈ leaves (glue b l r) → ∀ z,
          z = x ∨ z ∈ leaves (glue b l r) → ∀ i < b, bit (key y) i = bit (key z) i := by
        have hx : ∀ y ∈ leaves (glue b l r), ∀ i < b, bit (key x) i = bit (key y) i := by
          intro y hy i hi
          rw [heq i (by omega), hagree _ hmem y hy i hi]
        rintro y (rfl | hy) z (rfl | hz) i hi
        · rfl
        · exact hx z hz i hi
        · exact (hx y hy i hi).symm
        · exact hagree y hy z hz i hi
      split
      · rename_i hx
        simp only [follow, hx, if_true] at hne heq
        have hp := perm_place (bit (key x)) d x r
        refine ⟨hlb, hbw, hl, ?_, ?_, hwl, ihr hwr (by omega) hne heq⟩
        · intro y hy
          rcases List.mem_cons.mp (hp.mem_iff.mp hy) with rfl | hy
          · exact hx
          · exact hr y hy
        · intro y hy z hz
          refine hperm y ?_ z ?_
          · simp only [leaves, List.mem_append, hp.mem_iff, List.mem_cons] at hy ⊢
            tauto
          · simp only [leaves, List.mem_append, hp.mem_iff, List.mem_cons] at hz ⊢
            tauto
      · rename_i hx
        simp only [follow, hx] at hne heq
        have hp := perm_place (bit (key x)) d x l
        refine ⟨hlb, hbw, ?_, hr, ?_, ihl hwl (by omega) hne heq, hwr⟩
        · intro y hy
          rcases List.mem_cons.mp (hp.mem_iff.mp hy) with rfl | hy
          · simpa using hx
          · exact hl y hy
        · intro y hy z hz
          refine hperm y ?_ z ?_
          · simp only [leaves, List.mem_append, hp.mem_iff, List.mem_cons] at hy ⊢
            tauto
          · simp only [leaves, List.mem_append, hp.mem_iff, List.mem_cons] at hz ⊢
            tauto

/-- An insertion adds the leaf, unless a leaf has its key. -/
theorem insert_spec [DecidableEq κ] (hbit : ∀ a b : κ, (∀ i < w, bit a i = bit b i) → a = b)
    {t : Option (Tree α)} (h : ∀ u ∈ t, WellFormed key bit w 0 u) (x : α) :
    ((insert key bit w x t).2 = none ∧ find key bit (key x) t = none ∧
      (values (insert key bit w x t).1).Perm (x :: values t) ∧
      ∀ u ∈ (insert key bit w x t).1, WellFormed key bit w 0 u) ∨
    ∃ y, (insert key bit w x t).2 = some y ∧ find key bit (key x) t = some y ∧
      (insert key bit w x t).1 = t := by
  cases t with
  | none =>
    refine .inl ⟨rfl, rfl, List.Perm.refl _, ?_⟩
    rintro u hu
    obtain rfl := Option.some.inj hu
    trivial
  | some t =>
    simp only [insert]
    cases hd : differ bit w (key x) (key (follow (bit (key x)) t)) with
    | none =>
      have hkey := hbit _ _ (differ_none hd)
      exact .inr ⟨follow (bit (key x)) t, rfl, by simp [find, ← hkey], rfl⟩
    | some d =>
      obtain ⟨hdw, hne, heq⟩ := differ_some hd
      refine .inl ⟨rfl, ?_, perm_place _ d x t, ?_⟩
      · simp only [find, ite_eq_right_iff, reduceCtorEq, imp_false]
        intro hkey
        exact hne (by rw [hkey])
      · rintro u hu
        obtain rfl := Option.some.inj hu
        exact wellFormed_place (h t rfl) (Nat.zero_le d) hdw hne heq

theorem wellFormed_prune {lo : ℕ} {t : Tree α} (p : α → Bool) (h : WellFormed key bit w lo t) :
    ∀ u ∈ prune p t, WellFormed key bit w lo u := by
  induction t generalizing lo with
  | leaf x =>
    intro u hu
    simp only [prune] at hu
    split at hu
    · simp at hu
    · obtain rfl := Option.some.inj hu
      trivial
  | glue b l r ihl ihr =>
    obtain ⟨hlb, hbw, hl, hr, hagree, hwl, hwr⟩ := h
    have hvl := values_prune p l
    have hvr := values_prune p r
    intro u hu
    simp only [prune] at hu
    cases hpl : prune p l with
    | none =>
      cases hpr : prune p r with
      | none => simp [hpl, hpr] at hu
      | some r' =>
        rw [hpl, hpr] at hu
        obtain rfl := Option.some.inj hu
        exact (ihr hwr _ hpr).mono (by omega)
    | some l' =>
      cases hpr : prune p r with
      | none =>
        rw [hpl, hpr] at hu
        obtain rfl := Option.some.inj hu
        exact (ihl hwl _ hpl).mono (by omega)
      | some r' =>
        rw [hpl, hpr] at hu
        obtain rfl := Option.some.inj hu
        rw [hpl, values_some] at hvl
        rw [hpr, values_some] at hvr
        have hsub : ∀ y ∈ leaves (glue b l' r'), y ∈ leaves (glue b l r) := by
          intro y hy
          simp only [leaves, hvl, hvr, List.mem_append, List.mem_filter] at hy ⊢
          tauto
        refine ⟨hlb, hbw, ?_, ?_, ?_, ihl hwl _ hpl, ihr hwr _ hpr⟩
        · intro y hy
          rw [hvl] at hy
          exact hl y (List.mem_of_mem_filter hy)
        · intro y hy
          rw [hvr] at hy
          exact hr y (List.mem_of_mem_filter hy)
        · exact fun y hy z hz => hagree y (hsub y hy) z (hsub z hz)

end Keys

end WanStack.Radix
