import Mathlib.Data.Tree.Basic
import Mathlib.Data.Int.Order.Basic
import Mathlib.Data.List.Basic

set_option autoImplicit false

/-!
# Search in a tree by a comparison with the key

A search compares one key with the entries it meets; `c x` is the result for
the entry `x`, negative when the key is before `x`. Nothing is assumed of the
comparison: the lemmas say what its signs along the list of entries give.
-/
namespace WanStack.SearchTree
open BinaryTree

variable {α : Type}

/-- The entries from left to right. -/
def toList : BinaryTree α → List α
  | nil => []
  | node x l r => toList l ++ x :: toList r

def find (c : α → ℤ) : BinaryTree α → Option α
  | nil => none
  | node x l r => if c x < 0 then find c l else if c x > 0 then find c r else some x

/-- The uppermost entry with a property. -/
def top (p : α → Bool) : BinaryTree α → Option α
  | nil => none
  | node x l r => if p x then some x else (top p l).or (top p r)

/-- `a` is on the path from the root down to `b`, and above it. -/
def Above (a b : α) : BinaryTree α → Prop
  | nil => False
  | node x l r => (a = x ∧ (b ∈ toList l ∨ b ∈ toList r)) ∨ Above a b l ∨ Above a b r

instance decidableAbove [DecidableEq α] (a b : α) : (t : BinaryTree α) → Decidable (Above a b t)
  | nil => inferInstanceAs (Decidable False)
  | node x l r =>
    have := decidableAbove a b l
    have := decidableAbove a b r
    inferInstanceAs (Decidable ((a = x ∧ (b ∈ toList l ∨ b ∈ toList r)) ∨ _ ∨ _))

/-- Along the list the key is first after, then at, then before the entries. -/
def Probe (c : α → ℤ) (l : List α) : Prop := l.Pairwise fun x y => (c y).sign ≤ (c x).sign

/-- `n` was put where a search by `c` ends between two neighbours. -/
def Inserted (c : α → ℤ) (n : α) (l l' : List α) : Prop :=
  ∃ l₁ l₂, l = l₁ ++ l₂ ∧ l' = l₁ ++ n :: l₂ ∧ (∀ a ∈ l₁.getLast?, 0 < c a) ∧
    ∀ b ∈ l₂.head?, c b < 0

def Removed (x : α) (l l' : List α) : Prop := ∃ l₁ l₂, l = l₁ ++ x :: l₂ ∧ l' = l₁ ++ l₂

/-- The comparison `c` refines `d`. -/
def Refines (c d : α → ℤ) (l : List α) : Prop := ∀ x ∈ l, d x ≠ 0 → (c x).sign = (d x).sign

@[simp] theorem toList_nil : toList (nil : BinaryTree α) = [] := rfl

@[simp] theorem toList_node (x : α) (l r : BinaryTree α) :
    toList (node x l r) = toList l ++ x :: toList r := rfl

theorem toList_eq_nil {t : BinaryTree α} : toList t = [] ↔ t = nil := by
  cases t <;> simp

theorem find_some {c : α → ℤ} {t : BinaryTree α} {x : α} (h : find c t = some x) :
    x ∈ toList t ∧ c x = 0 := by
  induction t with
  | nil => simp [find] at h
  | node y l r ihl ihr =>
    simp only [find] at h
    split at h
    · exact ⟨by simp [(ihl h).1], (ihl h).2⟩
    · split at h
      · exact ⟨by simp [(ihr h).1], (ihr h).2⟩
      · obtain rfl := Option.some.inj h
        exact ⟨by simp, by omega⟩

theorem probe_node {c : α → ℤ} {x : α} {l r : BinaryTree α}
    (h : Probe c (toList (node x l r))) :
    Probe c (toList l) ∧ Probe c (toList r) ∧ (∀ y ∈ toList l, (c x).sign ≤ (c y).sign) ∧
      ∀ y ∈ toList r, (c y).sign ≤ (c x).sign := by
  rw [Probe, toList_node, List.pairwise_append, List.pairwise_cons] at h
  obtain ⟨hl, ⟨hx, hr⟩, hlr⟩ := h
  exact ⟨hl, hr, fun y hy => hlr y hy x (List.mem_cons_self ..), hx⟩

/-- With a probe the search finds an entry whenever the key meets one. -/
theorem find_isSome {c : α → ℤ} {t : BinaryTree α} (hp : Probe c (toList t))
    (h : ∃ x ∈ toList t, c x = 0) : (find c t).isSome = true := by
  induction t with
  | nil => simp at h
  | node y l r ihl ihr =>
    obtain ⟨hpl, hpr, hl, hr⟩ := probe_node hp
    obtain ⟨x, hx, hx0⟩ := h
    simp only [toList_node, List.mem_append, List.mem_cons] at hx
    simp only [find]
    split
    · rename_i hneg
      refine ihl hpl ?_
      rcases hx with hx | rfl | hx
      · exact ⟨x, hx, hx0⟩
      · omega
      · have := hr x hx
        rw [hx0, Int.sign_zero, Int.sign_eq_neg_one_of_neg hneg] at this
        omega
    · split
      · rename_i hpos
        refine ihr hpr ?_
        rcases hx with hx | rfl | hx
        · have := hl x hx
          rw [hx0, Int.sign_zero, Int.sign_eq_one_of_pos hpos] at this
          omega
        · omega
        · exact ⟨x, hx, hx0⟩
      · rfl

theorem find_eq {c : α → ℤ} {t : BinaryTree α} (hp : Probe c (toList t)) {x : α}
    (hx : x ∈ toList t) (hx0 : c x = 0) (huniq : ∀ y ∈ toList t, c y = 0 → y = x) :
    find c t = some x := by
  obtain ⟨y, hy⟩ := Option.isSome_iff_exists.mp (find_isSome hp ⟨x, hx, hx0⟩)
  obtain ⟨hmem, h0⟩ := find_some hy
  rw [hy, huniq y hmem h0]

theorem top_some {p : α → Bool} {t : BinaryTree α} {x : α} (h : top p t = some x) :
    x ∈ toList t ∧ p x = true := by
  induction t with
  | nil => simp [top] at h
  | node y l r ihl ihr =>
    simp only [top] at h
    split at h
    · obtain rfl := Option.some.inj h
      exact ⟨by simp, ‹_›⟩
    · rcases Option.or_eq_some_iff.mp h with h | ⟨-, h⟩
      · exact ⟨by simp [(ihl h).1], (ihl h).2⟩
      · exact ⟨by simp [(ihr h).1], (ihr h).2⟩

theorem top_isSome {p : α → Bool} {t : BinaryTree α} :
    (top p t).isSome = true ↔ ∃ x ∈ toList t, p x = true := by
  induction t with
  | nil => simp [top]
  | node y l r ihl ihr =>
    simp only [top]
    split
    · rename_i hy
      simp only [Option.isSome_some, true_iff]
      exact ⟨y, by simp, hy⟩
    · rename_i hy
      simp only [Option.isSome_or, Bool.or_eq_true, ihl, ihr, toList_node, List.mem_append,
        List.mem_cons]
      constructor
      · rintro (⟨x, hx, hpx⟩ | ⟨x, hx, hpx⟩)
        · exact ⟨x, .inl hx, hpx⟩
        · exact ⟨x, .inr (.inr hx), hpx⟩
      · rintro ⟨x, hx | rfl | hx, hpx⟩
        · exact .inl ⟨x, hx, hpx⟩
        · exact absurd hpx hy
        · exact .inr ⟨x, hx, hpx⟩

/-- A search that goes by `d` until it meets `d x = 0` reaches the uppermost
    such entry; if the key matches that one it is found. -/
theorem find_top {c d : α → ℤ} {t : BinaryTree α} (hp : Probe d (toList t))
    (hcd : Refines c d (toList t)) {g : α}
    (hg : top (fun x => d x = 0) t = some g) (hg0 : c g = 0) : find c t = some g := by
  induction t with
  | nil => simp [top] at hg
  | node y l r ihl ihr =>
    obtain ⟨hpl, hpr, hl, hr⟩ := probe_node hp
    simp only [top] at hg
    simp only [find]
    by_cases hy : d y = 0
    · rw [if_pos (by simpa using hy)] at hg
      obtain rfl := Option.some.inj hg
      simp [hg0]
    · rw [if_neg (by simpa using hy)] at hg
      have hsign := hcd y (by simp) hy
      rcases lt_or_gt_of_ne hy with hneg | hpos
      · rw [Int.sign_eq_neg_one_of_neg hneg] at hsign
        have hcy : c y < 0 := Int.sign_eq_neg_one_iff_neg.mp hsign
        rw [if_pos hcy]
        refine ihl hpl (fun x hx => hcd x (by simp [hx])) ?_
        rcases Option.or_eq_some_iff.mp hg with hg | ⟨-, hg⟩
        · exact hg
        · obtain ⟨hmem, hzero⟩ := top_some hg
          have := hr g hmem
          simp only [decide_eq_true_eq] at hzero
          rw [hzero, Int.sign_zero, Int.sign_eq_neg_one_of_neg hneg] at this
          omega
      · rw [Int.sign_eq_one_of_pos hpos] at hsign
        have hcy : 0 < c y := Int.sign_eq_one_iff_pos.mp hsign
        rw [if_neg (by omega), if_pos hcy]
        refine ihr hpr (fun x hx => hcd x (by simp [hx])) ?_
        rcases Option.or_eq_some_iff.mp hg with hg | ⟨-, hg⟩
        · obtain ⟨hmem, hzero⟩ := top_some hg
          have := hl g hmem
          simp only [decide_eq_true_eq] at hzero
          rw [hzero, Int.sign_zero, Int.sign_eq_one_of_pos hpos] at this
          omega
        · exact hg

/-- With a probe the search finds the uppermost of the entries the key meets. -/
theorem find_eq_top {c : α → ℤ} {t : BinaryTree α} (hp : Probe c (toList t)) :
    find c t = top (fun x => decide (c x = 0)) t := by
  have hnone : ∀ u : BinaryTree α, (∀ x ∈ toList u, c x ≠ 0) → top (fun x => decide (c x = 0)) u = none := by
    intro u hu
    rw [← Option.not_isSome_iff_eq_none, top_isSome]
    rintro ⟨x, hx, hx0⟩
    exact hu x hx (of_decide_eq_true hx0)
  induction t with
  | nil => rfl
  | node y l r ihl ihr =>
    obtain ⟨hpl, hpr, hl, hr⟩ := probe_node hp
    simp only [find, top]
    rcases Int.lt_trichotomy (c y) 0 with hneg | hzero | hpos
    · have hright := hnone r (by
        intro x hx hx0
        have hsign := hr x hx
        rw [hx0, Int.sign_zero, Int.sign_eq_neg_one_of_neg hneg] at hsign
        omega)
      rw [if_pos hneg, if_neg (by rw [decide_eq_true_eq]; omega), hright, Option.or_none]
      exact ihl hpl
    · rw [if_neg (by omega), if_neg (by omega), if_pos (decide_eq_true hzero)]
    · have hleft := hnone l (by
        intro x hx hx0
        have hsign := hl x hx
        rw [hx0, Int.sign_zero, Int.sign_eq_one_of_pos hpos] at hsign
        omega)
      rw [if_neg (by omega), if_pos hpos, if_neg (by rw [decide_eq_true_eq]; omega), hleft,
        Option.none_or]
      exact ihr hpr

/-- When the uppermost such entry sends the key to its right, what is found
    comes after it. -/
theorem find_after_top {c d : α → ℤ} {t : BinaryTree α} (hp : Probe d (toList t))
    (hcd : Refines c d (toList t)) {g x : α} (hg : top (fun x => d x = 0) t = some g)
    (hpos : 0 < c g) (hx : find c t = some x) : ∃ l₁ l₂, toList t = l₁ ++ g :: l₂ ∧ x ∈ l₂ := by
  induction t with
  | nil => cases hg
  | node y l r ihl ihr =>
    obtain ⟨hpl, hpr, hl, hr⟩ := probe_node hp
    simp only [top] at hg
    simp only [find] at hx
    by_cases hy : d y = 0
    · rw [if_pos (decide_eq_true hy)] at hg
      obtain rfl := Option.some.inj hg
      rw [if_neg (by omega), if_pos hpos] at hx
      exact ⟨toList l, toList r, rfl, (find_some hx).1⟩
    · rw [if_neg (by simpa using hy)] at hg
      have hsign := hcd y (by simp) hy
      -- `g` is on the side of `y` that `d` goes to
      rcases lt_or_gt_of_ne hy with hneg | hpos'
      · rw [Int.sign_eq_neg_one_of_neg hneg] at hsign
        rw [if_pos (Int.sign_eq_neg_one_iff_neg.mp hsign)] at hx
        have hgl : top (fun x => d x = 0) l = some g := by
          rcases Option.or_eq_some_iff.mp hg with hg | ⟨-, hg⟩
          · exact hg
          · obtain ⟨hmem, hzero⟩ := top_some hg
            have := hr g hmem
            rw [of_decide_eq_true hzero, Int.sign_zero, Int.sign_eq_neg_one_of_neg hneg] at this
            omega
        obtain ⟨l₁, l₂, hlist, hmem⟩ := ihl hpl (fun x hx => hcd x (by simp [hx])) hgl hx
        exact ⟨l₁, l₂ ++ y :: toList r, by rw [toList_node, hlist]; simp,
          List.mem_append_left _ hmem⟩
      · rw [Int.sign_eq_one_of_pos hpos'] at hsign
        have hcy := Int.sign_eq_one_iff_pos.mp hsign
        rw [if_neg (by omega), if_pos hcy] at hx
        have hgr : top (fun x => d x = 0) r = some g := by
          rcases Option.or_eq_some_iff.mp hg with hg | ⟨-, hg⟩
          · obtain ⟨hmem, hzero⟩ := top_some hg
            have := hl g hmem
            rw [of_decide_eq_true hzero, Int.sign_zero, Int.sign_eq_one_of_pos hpos'] at this
            omega
          · exact hg
        obtain ⟨l₁, l₂, hlist, hmem⟩ := ihr hpr (fun x hx => hcd x (by simp [hx])) hgr hx
        exact ⟨toList l ++ y :: l₁, l₂, by rw [toList_node, hlist]; simp, hmem⟩

/-- An entry is found when every entry above it sends the key its way. -/
theorem find_of_above {c : α → ℤ} {t : BinaryTree α} {x : α} (hx : x ∈ toList t) (hx0 : c x = 0)
    (hord : (toList t).Pairwise fun a b =>
      (b = x → Above a x t → 0 < c a) ∧ (a = x → Above b x t → c b < 0)) :
    find c t = some x := by
  induction t with
  | nil => simp at hx
  | node y l r ihl ihr =>
    rw [toList_node, List.pairwise_append, List.pairwise_cons] at hord
    obtain ⟨hl, ⟨hyr, hr⟩, hlr⟩ := hord
    simp only [find]
    simp only [toList_node, List.mem_append, List.mem_cons] at hx
    rcases hx with hx | rfl | hx
    · have hneg : c y < 0 :=
        (hlr x hx y (List.mem_cons_self ..)).2 rfl (.inl ⟨rfl, .inl hx⟩)
      rw [if_pos hneg]
      refine ihl hx (hl.imp fun h => ?_)
      exact ⟨fun h1 h2 => h.1 h1 (.inr (.inl h2)), fun h1 h2 => h.2 h1 (.inr (.inl h2))⟩
    · simp [hx0]
    · have hpos : 0 < c y := (hyr x hx).1 rfl (.inl ⟨rfl, .inr hx⟩)
      rw [if_neg (by omega), if_pos hpos]
      refine ihr hx (hr.imp fun h => ?_)
      exact ⟨fun h1 h2 => h.1 h1 (.inr (.inr h2)), fun h1 h2 => h.2 h1 (.inr (.inr h2))⟩

theorem Refines.refl (c : α → ℤ) (l : List α) : Refines c c l := fun _ _ _ => rfl

theorem Inserted.mem {c : α → ℤ} {n x : α} {l l' : List α} (h : Inserted c n l l') :
    x ∈ l' ↔ x = n ∨ x ∈ l := by
  obtain ⟨l₁, l₂, rfl, rfl, -, -⟩ := h
  simp only [List.mem_append, List.mem_cons]
  tauto

theorem Inserted.perm {c : α → ℤ} {n : α} {l l' : List α} (h : Inserted c n l l') :
    l'.Perm (n :: l) := by
  obtain ⟨l₁, l₂, rfl, rfl, -, -⟩ := h
  exact List.perm_middle

/-- Where a comparison that `c` refines is a probe, the new entry lies between
    the entries the key is after and those it is before. -/
theorem Inserted.split {c d : α → ℤ} {n : α} {l l' : List α} (h : Inserted c n l l')
    (hd : Probe d l) (hcd : Refines c d l) :
    ∃ l₁ l₂, l = l₁ ++ l₂ ∧ l' = l₁ ++ n :: l₂ ∧ (∀ a ∈ l₁, 0 ≤ d a) ∧ ∀ b ∈ l₂, d b ≤ 0 := by
  obtain ⟨l₁, l₂, rfl, rfl, hlast, hhead⟩ := h
  obtain ⟨h₁, h₂, -⟩ := List.pairwise_append.mp hd
  refine ⟨l₁, l₂, rfl, rfl, ?_, ?_⟩
  · intro a ha
    rcases l₁.eq_nil_or_concat' with rfl | ⟨l₀, z, rfl⟩
    · simp at ha
    have hz : 0 ≤ (d z).sign := by
      by_cases h0 : d z = 0
      · simp [h0]
      · rw [← hcd z (by simp) h0, Int.sign_eq_one_of_pos (hlast z (by simp))]
        omega
    have hza : (d z).sign ≤ (d a).sign := by
      rcases List.mem_append.mp ha with ha | ha
      · exact (List.pairwise_append.mp h₁).2.2 a ha z (by simp)
      · rw [List.mem_singleton.mp ha]
    exact Int.sign_nonneg_iff.mp (le_trans hz hza)
  · intro b hb
    cases l₂ with
    | nil => simp at hb
    | cons z l₂ =>
      have hz : (d z).sign ≤ 0 := by
        by_cases h0 : d z = 0
        · simp [h0]
        · rw [← hcd z (by simp) h0, Int.sign_eq_neg_one_of_neg (hhead z (by simp))]
          omega
      have hzb : (d b).sign ≤ (d z).sign := by
        rcases List.mem_cons.mp hb with rfl | hb
        · exact le_rfl
        · exact (List.pairwise_cons.mp h₂).1 b hb
      by_contra hpos
      rw [Int.sign_eq_one_of_pos (by omega)] at hzb
      omega

theorem Removed.perm {x : α} {l l' : List α} (h : Removed x l l') : l.Perm (x :: l') := by
  obtain ⟨l₁, l₂, rfl, rfl⟩ := h
  exact List.perm_middle

/-- Removing a new entry undoes its insertion. -/
theorem Removed.of_inserted {c : α → ℤ} {n : α} {l l' l'' : List α} (h : Removed n l' l'')
    (hi : Inserted c n l l') (hn : n ∉ l) : l'' = l := by
  obtain ⟨a, b, rfl, rfl⟩ := h
  obtain ⟨l₁, l₂, rfl, heq, -, -⟩ := hi
  rw [List.mem_append, not_or] at hn
  rcases List.append_eq_append_iff.mp heq with ⟨z, rfl, h⟩ | ⟨z, rfl, h⟩
  · cases z with
    | nil => simpa using (List.cons.inj h).2
    | cons y z => simp_all
  · cases z with
    | nil => simpa using (List.cons.inj h).2.symm
    | cons y z => simp_all

theorem Removed.sublist {x : α} {l l' : List α} (h : Removed x l l') : l'.Sublist l := by
  obtain ⟨l₁, l₂, rfl, rfl⟩ := h
  exact (List.Sublist.refl l₁).append (List.sublist_cons_self x l₂)

theorem Removed.mem {x y : α} {l l' : List α} (h : Removed x l l') (hnd : l.Nodup) :
    y ∈ l' ↔ y ∈ l ∧ y ≠ x := by
  have hperm := h.perm
  have hx : x ∉ l' := (List.nodup_cons.mp (hperm.nodup_iff.mp hnd)).1
  rw [hperm.mem_iff, List.mem_cons]
  constructor
  · intro hy
    exact ⟨.inr hy, fun h => hx (h ▸ hy)⟩
  · rintro ⟨rfl | hy, hne⟩
    · exact absurd rfl hne
    · exact hy

theorem find_none {c : α → ℤ} {t : BinaryTree α} (hp : Probe c (toList t))
    (h : find c t = none) : ∀ x ∈ toList t, c x ≠ 0 := by
  intro x hx h0
  have := find_isSome hp ⟨x, hx, h0⟩
  simp [h] at this

end WanStack.SearchTree
