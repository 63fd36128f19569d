import Mathlib.Data.List.Perm.Basic
import Mathlib.Data.List.Nodup

set_option autoImplicit false

/-!
# Slots and their holders

A table of slots, each marked used or free, beside a list of the slots that are
held. `Marks` says that the two agree and that no slot is held twice.
-/
namespace WanStack.Lib.Slots

structure Marks (used : List Bool) (held : List ℕ) : Prop where
  nodup : held.Nodup
  marked : ∀ i, used[i]? = some true ↔ i ∈ held

variable {used : List Bool} {held held' : List ℕ} {i : ℕ}

theorem Marks.lt_length (h : Marks used held) (hi : i ∈ held) : i < used.length := by
  have hused := (h.marked i).mpr hi
  exact (List.getElem?_eq_some_iff.mp hused).1

theorem Marks.perm (h : Marks used held) (hperm : held'.Perm held) : Marks used held' where
  nodup := hperm.nodup_iff.mpr h.nodup
  marked j := by rw [h.marked, hperm.mem_iff]

/-- A free slot is taken. -/
theorem Marks.take (h : Marks used held) (hi : used[i]? = some false)
    (hperm : held'.Perm (i :: held)) : Marks (used.set i true) held' := by
  have hlt := (List.getElem?_eq_some_iff.mp hi).1
  have hnot : i ∉ held := fun hmem => by
    have hused := (h.marked i).mpr hmem
    simp [hi] at hused
  apply Marks.perm _ hperm
  constructor
  · exact List.nodup_cons.mpr ⟨hnot, h.nodup⟩
  · intro j
    rw [List.getElem?_set, List.mem_cons]
    by_cases hj : i = j
    · subst hj
      simp [hlt]
    · rw [if_neg hj, h.marked]
      simp [Ne.symm hj]

/-- A held slot is given back. -/
theorem Marks.release (h : Marks used held) (hperm : held.Perm (i :: held')) :
    Marks (used.set i false) held' := by
  have hcons := h.perm hperm.symm
  have hnodup := List.nodup_cons.mp hcons.nodup
  have hlt := hcons.lt_length List.mem_cons_self
  constructor
  · exact hnodup.2
  · intro j
    rw [List.getElem?_set]
    by_cases hj : i = j
    · subst hj
      simp [hlt, hnodup.1]
    · rw [if_neg hj, hcons.marked]
      simp [Ne.symm hj]

theorem Marks.grow (h : Marks used held) (n : ℕ) :
    Marks (used ++ List.replicate n false) held where
  nodup := h.nodup
  marked j := by
    rw [← h.marked]
    by_cases hj : j < used.length
    · rw [List.getElem?_append_left hj]
    · have hout : used[j]? = none := List.getElem?_eq_none (by omega)
      rw [List.getElem?_append_right (by omega), hout]
      simp [List.getElem?_replicate]

/-- A table can be cut exactly when the slots that go are free. -/
theorem Marks.shrink_iff (h : Marks used held) (n : ℕ) :
    Marks (used.take n) held ↔ ∀ j, used[j]? = some true → j < n := by
  constructor
  · intro hcut j hj
    have hmem := (h.marked j).mp hj
    have hlt := hcut.lt_length hmem
    rw [List.length_take] at hlt
    omega
  · intro hfree
    constructor
    · exact h.nodup
    · intro j
      rw [List.getElem?_take, ← h.marked]
      split
      · exact Iff.rfl
      · constructor
        · intro hno
          simp at hno
        · intro hj
          exact absurd (hfree j hj) ‹_›

end WanStack.Lib.Slots
