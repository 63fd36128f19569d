import Mathlib.Data.List.Count
import Mathlib.Order.Lattice

set_option autoImplicit false

/-!
# The leader of a list

A pass over a list that keeps an element of the greatest key met so far and the
number of elements that share this key. `Leads` is what it knows after a part of
the list; one lemma for each way in which the next element compares.
-/
namespace WanStack.Lib.Leader

variable {α κ : Type} [LinearOrder κ] {key : α → κ} {l l' : List α} {who a : α} {shared : ℕ}

/-- How many elements have the key `k`. -/
def holders (key : α → κ) (k : κ) (l : List α) : ℕ := l.countP fun a => key a = k

structure Leads (key : α → κ) (l : List α) (who : α) (shared : ℕ) : Prop where
  mem : who ∈ l
  greatest : ∀ a ∈ l, key a ≤ key who
  holders_eq : holders key (key who) l = shared

theorem holders_append (k : κ) (l l' : List α) :
    holders key k (l ++ l') = holders key k l + holders key k l' :=
  List.countP_append

theorem holders_single_of_ne {k : κ} (h : key a ≠ k) : holders key k [a] = 0 := by
  simp [holders, h]

theorem holders_single : holders key (key a) [a] = 1 := by
  simp [holders]

theorem holders_eq_zero {k : κ} (h : ∀ a ∈ l, key a < k) : holders key k l = 0 := by
  unfold holders
  rw [List.countP_eq_zero]
  intro a ha
  simpa using (h a ha).ne

theorem leads_single : Leads key [a] a 1 where
  mem := List.mem_singleton_self a
  greatest b hb := by rw [List.mem_singleton.mp hb]
  holders_eq := holders_single

theorem Leads.worse (h : Leads key l who shared) (ha : key a < key who) :
    Leads key (l ++ [a]) who shared where
  mem := List.mem_append_left _ h.mem
  greatest b hb := by
    cases List.mem_append.mp hb with
    | inl hb => exact h.greatest b hb
    | inr hb => rw [List.mem_singleton.mp hb]; exact ha.le
  holders_eq := by rw [holders_append, h.holders_eq, holders_single_of_ne ha.ne, Nat.add_zero]

theorem Leads.equal (h : Leads key l who shared) (ha : key a = key who) :
    Leads key (l ++ [a]) who (shared + 1) where
  mem := List.mem_append_left _ h.mem
  greatest b hb := by
    cases List.mem_append.mp hb with
    | inl hb => exact h.greatest b hb
    | inr hb => rw [List.mem_singleton.mp hb]; exact ha.le
  holders_eq := by rw [holders_append, h.holders_eq, ← ha, holders_single]

theorem Leads.better (h : Leads key l who shared) (ha : key who < key a) :
    Leads key (l ++ [a]) a 1 where
  mem := List.mem_append_right _ (List.mem_singleton_self a)
  greatest b hb := by
    cases List.mem_append.mp hb with
    | inl hb => exact (h.greatest b hb).trans ha.le
    | inr hb => rw [List.mem_singleton.mp hb]
  holders_eq := by
    have hzero := holders_eq_zero fun b hb => (h.greatest b hb).trans_lt ha
    rw [holders_append, hzero, holders_single]

theorem Leads.perm (h : Leads key l who shared) (hperm : l.Perm l') : Leads key l' who shared where
  mem := hperm.mem_iff.mp h.mem
  greatest a ha := h.greatest a (hperm.mem_iff.mpr ha)
  holders_eq := by
    rw [← h.holders_eq]
    exact (hperm.countP_eq _).symm

theorem Leads.shared_pos (h : Leads key l who shared) : 0 < shared := by
  rw [← h.holders_eq]
  exact List.countP_pos_iff.mpr ⟨who, h.mem, by simp⟩

/-- Who leads alone has a greater key than every other element. -/
theorem leads_one_iff : Leads key l who 1 ↔ ∃ before after, l = before ++ who :: after ∧
    ∀ a ∈ before ++ after, key a < key who := by
  constructor
  · intro h
    obtain ⟨before, after, hl⟩ := List.append_of_mem h.mem
    refine ⟨before, after, hl, fun a ha => ?_⟩
    have hcount : holders key (key who) (before ++ after) = 0 := by
      have hall := h.holders_eq
      rw [hl, holders_append, ← List.singleton_append, holders_append, holders_single] at hall
      rw [holders_append]
      omega
    have hne : key a ≠ key who := by
      have hnone := List.countP_eq_zero.mp hcount a ha
      simpa using hnone
    have hmem : a ∈ l := by
      rw [hl]
      cases List.mem_append.mp ha with
      | inl ha => exact List.mem_append_left _ ha
      | inr ha => exact List.mem_append_right _ (List.mem_cons_of_mem _ ha)
    exact lt_of_le_of_ne (h.greatest a hmem) hne
  · rintro ⟨before, after, hl, hless⟩
    subst hl
    have hzero := holders_eq_zero hless
    constructor
    · exact List.mem_append_right _ List.mem_cons_self
    · intro a ha
      by_cases hwho : a = who
      · rw [hwho]
      · have hother : a ∈ before ++ after := by
          simp only [List.mem_append, List.mem_cons, hwho, false_or] at ha ⊢
          exact ha
        exact (hless a hother).le
    · rw [holders_append, ← List.singleton_append, holders_append, holders_single]
      rw [holders_append] at hzero
      omega

/-- Two leaders have one key, and it is shared by as many. -/
theorem Leads.unique {who' : α} {shared' : ℕ} (h : Leads key l who shared)
    (h' : Leads key l who' shared') : key who = key who' ∧ shared = shared' := by
  have hkey : key who = key who' := le_antisymm (h'.greatest who h.mem) (h.greatest who' h'.mem)
  refine ⟨hkey, ?_⟩
  rw [← h.holders_eq, ← h'.holders_eq, hkey]

theorem Leads.eq_of_one {who' : α} (h : Leads key l who 1) (h' : Leads key l who' 1) :
    who = who' := by
  obtain ⟨before, after, hl, hless⟩ := leads_one_iff.mp h'
  by_contra hne
  have hmem : who ∈ before ++ after := by
    have hwho := h.mem
    rw [hl] at hwho
    simp only [List.mem_append, List.mem_cons, hne, false_or] at hwho ⊢
    exact hwho
  exact absurd (h.unique h').1 (hless who hmem).ne

/-- Elements left out that are behind the leader do not matter. -/
theorem Leads.of_filter {f : α → Bool} (h : Leads key (l.filter f) who shared)
    (hout : ∀ a ∈ l, f a = false → key a < key who) : Leads key l who shared where
  mem := (List.mem_filter.mp h.mem).1
  greatest a ha := by
    cases hf : f a with
    | false => exact (hout a ha hf).le
    | true => exact h.greatest a (List.mem_filter.mpr ⟨ha, hf⟩)
  holders_eq := by
    rw [← h.holders_eq]
    unfold holders
    rw [List.countP_filter]
    apply List.countP_congr
    intro a ha
    cases hf : f a with
    | false => simpa using (hout a ha hf).ne
    | true => simp

end WanStack.Lib.Leader
