import Mathlib.Order.Basic
import Mathlib.Data.Nat.Notation

set_option autoImplicit false

/-!
# Binary heaps in arrays

The keys of the slots 1 to `last`; the children of slot `i` are `2 * i` and `2 * i + 1`. While
an element moves up or down, the order holds but for the slot it is at.
-/
namespace WanStack.BinaryHeap

variable {β : Type} {g : ℕ → β} {last i j : ℕ} {b : β}

/-- The slots `i` and `j` change places. -/
def swap (g : ℕ → β) (i j : ℕ) : ℕ → β :=
  Function.update (Function.update g i (g j)) j (g i)

theorem swap_left (h : i ≠ j) : swap g i j i = g j := by
  unfold swap
  rw [Function.update_of_ne h, Function.update_self]

theorem swap_right : swap g i j j = g i := Function.update_self _ _ _

theorem swap_other {k : ℕ} (hi : k ≠ i) (hj : k ≠ j) : swap g i j k = g k := by
  unfold swap
  rw [Function.update_of_ne hj, Function.update_of_ne hi]

def Ordered [LE β] (g : ℕ → β) (last : ℕ) : Prop := ∀ j, 1 < j → j ≤ last → g (j / 2) ≤ g j

/-- The order, but for slot `i` and the one above. -/
structure UpOrdered [LE β] (g : ℕ → β) (last i : ℕ) : Prop where
  off : ∀ j, 1 < j → j ≤ last → j ≠ i → g (j / 2) ≤ g j
  grand : ∀ j, j ≤ last → j / 2 = i → 1 < i → g (i / 2) ≤ g j

/-- The order, but for slot `i` and the ones below. -/
structure DownOrdered [LE β] (g : ℕ → β) (last i : ℕ) : Prop where
  off : ∀ j, 1 < j → j ≤ last → j / 2 ≠ i → g (j / 2) ≤ g j
  grand : ∀ j, j ≤ last → j / 2 = i → 1 < i → g (i / 2) ≤ g j

variable [Preorder β]

theorem UpOrdered.ordered (h : UpOrdered g last i) (hend : 1 < i → g (i / 2) ≤ g i) :
    Ordered g last := by
  intro j hj hlast
  by_cases hji : j = i
  · subst hji
    exact hend hj
  · exact h.off j hj hlast hji

theorem DownOrdered.ordered (h : DownOrdered g last i)
    (hend : ∀ j, 1 < j → j ≤ last → j / 2 = i → g i ≤ g j) : Ordered g last := by
  intro j hj hlast
  by_cases hji : j / 2 = i
  · rw [hji]
    exact hend j hj hlast hji
  · exact h.off j hj hlast hji

theorem UpOrdered.step (h : UpOrdered g last i) (hi : 1 < i) (hlt : g i < g (i / 2))
    (hlast : i ≤ last) : UpOrdered (swap g i (i / 2)) last (i / 2) := by
  have hne : i ≠ i / 2 := by omega
  constructor
  · intro j hj hjl hjp
    by_cases hji : j = i
    · subst hji
      rw [swap_right, swap_left hne]
      exact hlt.le
    · rw [swap_other hji hjp]
      by_cases hhi : j / 2 = i
      · rw [hhi, swap_left hne]
        exact h.grand j hjl hhi hi
      · by_cases hhp : j / 2 = i / 2
        · have hoff := h.off j hj hjl hji
          rw [hhp] at hoff
          rw [hhp, swap_right]
          exact hlt.le.trans hoff
        · rw [swap_other hhi hhp]
          exact h.off j hj hjl hji
  · intro j hjl hjp hp
    have hpp := h.off (i / 2) hp (by omega) hne.symm
    rw [swap_other (by omega) (by omega)]
    by_cases hji : j = i
    · subst hji
      rw [swap_left hne]
      exact hpp
    · rw [swap_other hji (by omega)]
      have hoff := h.off j (by omega) hjl hji
      rw [hjp] at hoff
      exact hpp.trans hoff

/-- `j` is the child of `i` with the smallest key. -/
theorem DownOrdered.step (h : DownOrdered g last i) (hi : 0 < i) (hj : j / 2 = i)
    (hmin : ∀ k, k ≤ last → k / 2 = i → g j ≤ g k) (hle : g j ≤ g i) (hlast : j ≤ last) :
    DownOrdered (swap g i j) last j := by
  have hne : i ≠ j := by omega
  constructor
  · intro k hk hkl hkj
    by_cases hki : k = i
    · subst hki
      rw [swap_left hne, swap_other (by omega) (by omega)]
      exact h.grand j hlast hj hk
    · by_cases hhi : k / 2 = i
      · rw [hhi, swap_left hne]
        by_cases hkj' : k = j
        · subst hkj'
          rw [swap_right]
          exact hle
        · rw [swap_other hki hkj']
          exact hmin k hkl hhi
      · rw [swap_other hhi hkj, swap_other hki (by omega)]
        exact h.off k hk hkl hhi
  · intro k hkl hkj hj1
    rw [hj, swap_left hne, swap_other (by omega) (by omega)]
    have hoff := h.off k (by omega) hkl (by omega)
    rw [hkj] at hoff
    exact hoff

theorem Ordered.root_le (h : Ordered g last) (hj : 0 < j) (hlast : j ≤ last) : g 1 ≤ g j := by
  induction j using Nat.strongRecOn with
  | ind j ih =>
    by_cases hone : j = 1
    · rw [hone]
    · have hhalf := ih (j / 2) (by omega) (by omega) (by omega)
      exact hhalf.trans (h j (by omega) hlast)

/-- A smaller key in slot `i`. -/
theorem Ordered.smaller (h : Ordered g last) (hb : b ≤ g i) :
    UpOrdered (Function.update g i b) last i := by
  constructor
  · intro j hj hlast hji
    rw [Function.update_of_ne hji]
    by_cases hhi : j / 2 = i
    · have hoff := h j hj hlast
      rw [hhi] at hoff
      rw [hhi, Function.update_self]
      exact hb.trans hoff
    · rw [Function.update_of_ne hhi]
      exact h j hj hlast
  · intro j hlast hji hi
    rw [Function.update_of_ne (by omega), Function.update_of_ne (by omega)]
    have hoff := h j (by omega) hlast
    rw [hji] at hoff
    exact (h i hi (by omega)).trans hoff

/-- A larger key in slot `i`. -/
theorem Ordered.larger (h : Ordered g last) (hb : g i ≤ b) :
    DownOrdered (Function.update g i b) last i := by
  constructor
  · intro j hj hlast hji
    rw [Function.update_of_ne hji]
    by_cases hhi : j = i
    · subst hhi
      rw [Function.update_self]
      exact (h j hj hlast).trans hb
    · rw [Function.update_of_ne hhi]
      exact h j hj hlast
  · intro j hlast hji hi
    rw [Function.update_of_ne (by omega), Function.update_of_ne (by omega)]
    have hoff := h j (by omega) hlast
    rw [hji] at hoff
    exact (h i hi (by omega)).trans hoff

/-- A key in a new last slot. -/
theorem Ordered.push (h : Ordered g last) (b : β) :
    UpOrdered (Function.update g (last + 1) b) (last + 1) (last + 1) := by
  constructor
  · intro j hj hlast hji
    rw [Function.update_of_ne hji, Function.update_of_ne (by omega)]
    exact h j hj (by omega)
  · intro j hlast hji hi
    omega

theorem Ordered.pop (h : Ordered g last) : Ordered g (last - 1) :=
  fun j hj hlast => h j hj (Nat.le_trans hlast (Nat.sub_le last 1))

theorem Ordered.congr {g' : ℕ → β} (h : Ordered g last)
    (heq : ∀ j, 0 < j → j ≤ last → g' j = g j) : Ordered g' last := by
  intro j hj hlast
  rw [heq j (by omega) hlast, heq (j / 2) (by omega) (by omega)]
  exact h j hj hlast

theorem UpOrdered.congr {g' : ℕ → β} (h : UpOrdered g last i)
    (heq : ∀ j, 0 < j → j ≤ last → g' j = g j) : UpOrdered g' last i := by
  constructor
  · intro j hj hlast hji
    rw [heq j (by omega) hlast, heq (j / 2) (by omega) (by omega)]
    exact h.off j hj hlast hji
  · intro j hlast hji hi
    rw [heq j (by omega) hlast, heq (i / 2) (by omega) (by omega)]
    exact h.grand j hlast hji hi

theorem DownOrdered.congr {g' : ℕ → β} (h : DownOrdered g last i)
    (heq : ∀ j, 0 < j → j ≤ last → g' j = g j) : DownOrdered g' last i := by
  constructor
  · intro j hj hlast hji
    rw [heq j (by omega) hlast, heq (j / 2) (by omega) (by omega)]
    exact h.off j hj hlast hji
  · intro j hlast hji hi
    rw [heq j (by omega) hlast, heq (i / 2) (by omega) (by omega)]
    exact h.grand j hlast hji hi

end WanStack.BinaryHeap
