import Mathlib.Data.List.Nodup
import Mathlib.Data.List.TakeWhile

set_option autoImplicit false

/-!
# A cursor into a list

A walk over a list that is interrupted keeps the element to go on with. The
elements ahead of it are those the walk has still to pass, also when elements
are removed or put in front in between.
-/
namespace WanStack.Cursor

variable {α β : Type} [DecidableEq β] (key : α → β)

/-- The elements from the cursor on. -/
def ahead (p : Option α) (l : List α) : List α := p.elim [] fun g => l.dropWhile (key · ≠ key g)

/-- The element after `g`. -/
def next (g : α) (l : List α) : Option α := (l.dropWhile (key · ≠ key g)).tail.head?

def without (g : α) (l : List α) : List α := l.filter (key · ≠ key g)

variable {key} {g x y : α} {p : Option α} {l l₁ l₂ : List α}

theorem ahead_none : ahead key none l = [] := rfl

theorem mem_of_ahead (h : x ∈ ahead key p l) : x ∈ l := by
  cases p with
  | none => cases h
  | some g => exact (List.dropWhile_sublist _).mem h

theorem ahead_append (h₁ : ∀ y ∈ l₁, key y ≠ key g) (hx : key x = key g) :
    ahead key (some g) (l₁ ++ x :: l₂) = x :: l₂ := by
  simp only [ahead, Option.elim_some]
  rw [List.dropWhile_append_of_pos fun y hy => decide_eq_true (h₁ y hy),
    List.dropWhile_cons_of_neg (by simp [hx])]

/-- Where the cursor stands. -/
theorem ahead_split (h : x ∈ ahead key (some g) l) : ∃ l₁ g' l₂, l = l₁ ++ g' :: l₂ ∧
    key g' = key g ∧ (∀ y ∈ l₁, key y ≠ key g) ∧ ahead key (some g) l = g' :: l₂ := by
  simp only [ahead, Option.elim_some] at h ⊢
  have hne : l.dropWhile (key · ≠ key g) ≠ [] := List.ne_nil_of_mem h
  have hhead := List.head_dropWhile_not (fun y => decide (key y ≠ key g)) hne
  refine ⟨l.takeWhile (key · ≠ key g), (l.dropWhile (key · ≠ key g)).head hne,
    (l.dropWhile (key · ≠ key g)).tail, ?_, ?_, fun y hy => ?_, (List.cons_head_tail hne).symm⟩
  · rw [List.cons_head_tail, List.takeWhile_append_dropWhile]
  · simpa using hhead
  · have h := List.mem_takeWhile_imp hy
    exact of_decide_eq_true h

theorem ahead_head (hl : (l.map key).Nodup) : ahead key l.head? l = l := by
  cases l with
  | nil => rfl
  | cons x l =>
    show ahead key (some x) ([] ++ x :: l) = x :: l
    exact ahead_append (fun y hy => absurd hy List.not_mem_nil) rfl

/-- An element put in front is behind the cursor. -/
theorem ahead_cons (h : ∀ g ∈ p, key g ≠ key y) : ahead key p (y :: l) = ahead key p l := by
  cases p with
  | none => rfl
  | some g =>
    simp only [ahead, Option.elim_some]
    exact List.dropWhile_cons_of_pos (decide_eq_true (Ne.symm (h g rfl)))

theorem nodup_without (hl : (l.map key).Nodup) (y : α) : ((without key y l).map key).Nodup :=
  hl.sublist (List.Sublist.map key List.filter_sublist)

/-- Elements elsewhere may be removed. -/
theorem ahead_without (h : x ∈ ahead key (some g) l) (hx : key x ≠ key y) (hg : key g ≠ key y) :
    x ∈ ahead key (some g) (without key y l) := by
  obtain ⟨l₁, g', l₂, rfl, hg', h₁, hl⟩ := ahead_split h
  rw [hl] at h
  have hkeep : without key y (l₁ ++ g' :: l₂) = without key y l₁ ++ g' :: without key y l₂ := by
    unfold without
    rw [List.filter_append, List.filter_cons_of_pos]
    rw [decide_eq_true_iff, hg']
    exact hg
  have hbefore : ∀ z ∈ without key y l₁, key z ≠ key g := fun z hz => h₁ z (List.mem_filter.mp hz).1
  rw [hkeep, ahead_append hbefore hg']
  rcases List.mem_cons.mp h with rfl | h
  · exact List.mem_cons_self ..
  · exact List.mem_cons_of_mem _ (List.mem_filter.mpr ⟨h, decide_eq_true hx⟩)

/-- The cursor moves on from an element. -/
theorem ahead_next (hl : (l.map key).Nodup) (h : x ∈ ahead key (some g) l) (hx : key x ≠ key g) :
    x ∈ ahead key (next key g l) l ∧ x ∈ ahead key (next key g l) (without key g l) := by
  obtain ⟨l₁, g', l₂, rfl, hg', h₁, hahead⟩ := ahead_split h
  rw [hahead] at h
  have hnext : next key g (l₁ ++ g' :: l₂) = l₂.head? := by
    unfold next
    have hdrop : (l₁ ++ g' :: l₂).dropWhile (key · ≠ key g) = g' :: l₂ := hahead
    rw [hdrop, List.tail_cons]
  have hnodup := hl
  rw [List.map_append, List.map_cons, List.nodup_append] at hnodup
  obtain ⟨-, hnodup₂, hdisj⟩ := hnodup
  have hafter : ∀ y ∈ l₂, key y ≠ key g := by
    intro y hy hyg
    exact (List.nodup_cons.mp hnodup₂).1 (by rw [hg', ← hyg]; exact List.mem_map_of_mem hy)
  have hkeep : without key g (l₁ ++ g' :: l₂) = l₁ ++ l₂ := by
    unfold without
    rw [List.filter_append, List.filter_cons_of_neg (by simp [hg']),
      List.filter_eq_self.mpr fun y hy => decide_eq_true (h₁ y hy),
      List.filter_eq_self.mpr fun y hy => decide_eq_true (hafter y hy)]
  rcases List.mem_cons.mp h with rfl | h
  · exact absurd hg' hx
  rw [hnext, hkeep]
  cases l₂ with
  | nil => cases h
  | cons z l₂ =>
    have hbefore : ∀ y ∈ l₁, key y ≠ key z := fun y hy =>
      hdisj _ (List.mem_map_of_mem hy) _ (List.mem_cons_of_mem _ (List.mem_cons_self ..))
    have hbefore' : ∀ y ∈ l₁ ++ [g'], key y ≠ key z := by
      intro y hy
      rcases List.mem_append.mp hy with hy | hy
      · exact hbefore y hy
      · rw [List.mem_singleton.mp hy, hg']
        exact (hafter z (List.mem_cons_self ..)).symm
    constructor
    · rw [List.head?_cons, ← List.singleton_append, ← List.append_assoc, ahead_append hbefore' rfl]
      exact h
    · rw [List.head?_cons, ahead_append hbefore rfl]
      exact h

/-- The cursor moves on to an element that stays. -/
theorem next_mem (hl : (l.map key).Nodup) (h : next key g l = some y) : y ∈ without key g l := by
  have hmem : y ∈ (l.dropWhile (key · ≠ key g)).tail := List.mem_of_head? h
  have hne : l.dropWhile (key · ≠ key g) ≠ [] := by
    intro hnil
    rw [hnil] at hmem
    cases hmem
  obtain ⟨l₁, g', l₂, rfl, hg', -, hahead⟩ :=
    @ahead_split _ _ _ key g _ _ (List.head_mem hne)
  have hdrop : (l₁ ++ g' :: l₂).dropWhile (key · ≠ key g) = g' :: l₂ := hahead
  rw [hdrop, List.tail_cons] at hmem
  refine List.mem_filter.mpr ⟨?_, decide_eq_true fun hy => ?_⟩
  · simp [hmem]
  · rw [List.map_append, List.map_cons, List.nodup_append] at hl
    exact (List.nodup_cons.mp hl.2.1).1 (by rw [hg', ← hy]; exact List.mem_map_of_mem hmem)

theorem suffix_ahead (p : Option α) (l : List α) : ahead key p l <:+ l := by
  cases p with
  | none => exact List.nil_suffix
  | some g => exact List.dropWhile_suffix _

/-- When the first element of a kind is found, all of the kind are there or
    later. -/
theorem ahead_find (hl : (l.map key).Nodup) {P : α → Bool}
    (hf : (ahead key p l).find? P = some y) (h : x ∈ ahead key p l) (hx : P x = true) :
    x ∈ ahead key (some y) l := by
  obtain ⟨-, as, bs, hsplit, has⟩ := List.find?_eq_some_iff_append.mp hf
  obtain ⟨l₁, hl₁⟩ := @suffix_ahead _ _ _ key p l
  rw [hsplit] at hl₁ h
  have hlist : l = (l₁ ++ as) ++ y :: bs := by rw [List.append_assoc, hl₁]
  have hbefore : ∀ z ∈ l₁ ++ as, key z ≠ key y := by
    intro z hz
    rw [hlist, List.map_append, List.nodup_append] at hl
    exact hl.2.2 _ (List.mem_map_of_mem hz) _ (by simp)
  rw [hlist, ahead_append hbefore rfl]
  rcases List.mem_append.mp h with h | h
  · have hno := has x h
    rw [hx] at hno
    cases hno
  · exact h

end WanStack.Cursor
