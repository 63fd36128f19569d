import Mathlib.Data.List.Pairwise
import WanStack.Lib.SearchTree

set_option autoImplicit false

/-!
# Comparisons that are orders

A comparison returns a negative, zero or positive number. `TotalOn` says that
it is a total preorder on a set; comparing two lists of numbers field by field
is one everywhere.
-/
namespace WanStack.FieldOrder
open SearchTree

variable {α : Type}

/-- Compare field by field; the first difference decides. -/
def lexDiff : List ℤ → List ℤ → ℤ
  | a :: as, b :: bs => if a ≠ b then a - b else lexDiff as bs
  | _, _ => 0

/-- The second comparison decides where the first one does not. -/
def orElse (a b : ℤ) : ℤ := if a ≠ 0 then a else b

structure TotalOn (cmp : α → α → ℤ) (S : Set α) : Prop where
  antisymm : ∀ a ∈ S, ∀ b ∈ S, (cmp b a).sign = -(cmp a b).sign
  trans : ∀ a ∈ S, ∀ b ∈ S, ∀ c ∈ S, cmp a b ≤ 0 → cmp b c ≤ 0 → cmp a c ≤ 0

theorem lexDiff_antisymm (a b : List ℤ) : lexDiff b a = -lexDiff a b := by
  induction a generalizing b with
  | nil => cases b <;> simp [lexDiff]
  | cons x a ih =>
    cases b with
    | nil => simp [lexDiff]
    | cons y b =>
      by_cases h : x = y
      · simp [lexDiff, h, ih]
      · simp only [lexDiff, if_pos h, if_pos (Ne.symm h)]
        omega

theorem lexDiff_eq_zero {a b : List ℤ} (hlen : a.length = b.length) :
    lexDiff a b = 0 ↔ a = b := by
  induction a generalizing b with
  | nil => cases b <;> simp_all [lexDiff]
  | cons x a ih =>
    cases b with
    | nil => simp at hlen
    | cons y b =>
      by_cases h : x = y
      · simp [lexDiff, h, ih (by simpa using hlen)]
      · simp only [lexDiff, if_pos h, List.cons.injEq, h, false_and, iff_false]
        omega

@[simp] theorem lexDiff_self (a : List ℤ) : lexDiff a a = 0 := (lexDiff_eq_zero rfl).mpr rfl

theorem lexDiff_trans {a b c : List ℤ} (hab : a.length = b.length) (hbc : b.length = c.length)
    (h₁ : lexDiff a b ≤ 0) (h₂ : lexDiff b c ≤ 0) : lexDiff a c ≤ 0 := by
  induction a generalizing b c with
  | nil => cases c <;> simp [lexDiff]
  | cons x a ih =>
    cases b with
    | nil => simp at hab
    | cons y b =>
      cases c with
      | nil => simp at hbc
      | cons z c =>
        simp only [lexDiff] at h₁ h₂ ⊢
        by_cases hxy : x = y
        · subst hxy
          rw [if_neg (by simp)] at h₁
          split_ifs at h₂ ⊢ with hz
          · exact h₂
          · exact ih (by simpa using hab) (by simpa using hbc) h₁ h₂
        · rw [if_pos hxy] at h₁
          split_ifs at h₂ ⊢ <;> omega

theorem lexDiff_append {a b a' b' : List ℤ} (hlen : a.length = b.length) :
    lexDiff (a ++ a') (b ++ b') = orElse (lexDiff a b) (lexDiff a' b') := by
  induction a generalizing b with
  | nil => cases b <;> simp_all [lexDiff, orElse]
  | cons x a ih =>
    cases b with
    | nil => simp at hlen
    | cons y b =>
      by_cases h : x = y
      · simp [lexDiff, h, ih (by simpa using hlen)]
      · have : x - y ≠ 0 := by omega
        simp [lexDiff, h, orElse, this]

/-- Ordering by fields is total. -/
theorem totalOn_lexDiff (key : α → List ℤ) (S : Set α)
    (hlen : ∀ a b, (key a).length = (key b).length) :
    TotalOn (fun a b => lexDiff (key a) (key b)) S where
  antisymm a _ b _ := by
    simp only [lexDiff_antisymm (key a) (key b), Int.sign_neg]
  trans a _ b _ c _ h₁ h₂ := lexDiff_trans (hlen a b) (hlen b c) h₁ h₂

namespace TotalOn

variable {cmp : α → α → ℤ} {S T : Set α}

theorem mono (h : TotalOn cmp S) (hTS : T ⊆ S) : TotalOn cmp T where
  antisymm a ha b hb := h.antisymm a (hTS ha) b (hTS hb)
  trans a ha b hb c hc := h.trans a (hTS ha) b (hTS hb) c (hTS hc)

theorem congr {cmp' : α → α → ℤ} (h : TotalOn cmp S)
    (heq : ∀ a ∈ S, ∀ b ∈ S, (cmp' a b).sign = (cmp a b).sign) : TotalOn cmp' S where
  antisymm a ha b hb := by rw [heq a ha b hb, heq b hb a ha, h.antisymm a ha b hb]
  trans a ha b hb c hc h₁ h₂ := by
    have key : ∀ x ∈ S, ∀ y ∈ S, cmp' x y ≤ 0 ↔ cmp x y ≤ 0 := by
      intro x hx y hy
      rw [← not_lt, ← Int.sign_eq_one_iff_pos, heq x hx y hy, Int.sign_eq_one_iff_pos, not_lt]
    exact (key a ha c hc).mpr (h.trans a ha b hb c hc ((key a ha b hb).mp h₁)
      ((key b hb c hc).mp h₂))

theorem neg_iff (h : TotalOn cmp S) {a b : α} (ha : a ∈ S) (hb : b ∈ S) :
    cmp b a < 0 ↔ 0 < cmp a b := by
  rw [← Int.sign_eq_neg_one_iff_neg, ← Int.sign_eq_one_iff_pos, h.antisymm a ha b hb]
  omega

theorem nonpos_iff (h : TotalOn cmp S) {a b : α} (ha : a ∈ S) (hb : b ∈ S) :
    cmp b a ≤ 0 ↔ 0 ≤ cmp a b := by
  have := h.neg_iff hb ha
  omega

theorem self (h : TotalOn cmp S) {a : α} (ha : a ∈ S) : cmp a a = 0 := by
  have h1 := h.neg_iff ha ha
  omega

theorem lt_of_lt_of_le (h : TotalOn cmp S) {a b c : α} (ha : a ∈ S) (hb : b ∈ S) (hc : c ∈ S)
    (h₁ : cmp a b < 0) (h₂ : cmp b c ≤ 0) : cmp a c < 0 := by
  by_contra hge
  have hca : cmp c a ≤ 0 := (h.nonpos_iff ha hc).mpr (by omega)
  have hba : cmp b a ≤ 0 := h.trans b hb c hc a ha h₂ hca
  have := (h.nonpos_iff ha hb).mp hba
  omega

/-- A key that is comparable with the entries is a probe of a sorted list. -/
theorem probe (h : TotalOn cmp S) {k : α} {l : List α} (hk : k ∈ S) (hl : ∀ x ∈ l, x ∈ S)
    (hsorted : l.Pairwise fun x y => cmp x y ≤ 0) : Probe (cmp k) l := by
  refine hsorted.imp_of_mem fun {x y} hx hy hxy => ?_
  rcases lt_trichotomy (cmp k x) 0 with hkx | hkx | hkx
  · rw [Int.sign_eq_neg_one_of_neg (h.lt_of_lt_of_le hk (hl x hx) (hl y hy) hkx hxy)]
    rw [Int.sign_eq_neg_one_of_neg hkx]
  · have := h.trans k hk x (hl x hx) y (hl y hy) (by omega) hxy
    rw [hkx, Int.sign_zero]
    exact Int.sign_nonpos_iff.mpr this
  · rw [Int.sign_eq_one_of_pos hkx]
    rcases Int.sign_trichotomy (cmp k y) with h | h | h <;> omega

end TotalOn

/-- In order, without equal entries. -/
def Sorted (cmp : α → α → ℤ) (l : List α) : Prop := l.Pairwise fun x y => cmp x y < 0

namespace Sorted

variable {cmp : α → α → ℤ} {S : Set α} {l l' : List α}

theorem sublist (h : Sorted cmp l) (hsub : l'.Sublist l) : Sorted cmp l' :=
  List.Pairwise.sublist hsub h

theorem probe (h : Sorted cmp l) (hS : TotalOn cmp S) {k : α} (hk : k ∈ S)
    (hl : ∀ x ∈ l, x ∈ S) : Probe (cmp k) l :=
  hS.probe hk hl (h.imp fun hxy => Int.le_of_lt hxy)

theorem nodup (h : Sorted cmp l) (hS : TotalOn cmp S) (hl : ∀ x ∈ l, x ∈ S) : l.Nodup := by
  refine h.imp_of_mem fun {x y} hx hy hxy heq => ?_
  subst heq
  have := hS.self (hl x hx)
  omega

theorem eq_of_zero (h : Sorted cmp l) (hS : TotalOn cmp S) (hl : ∀ x ∈ l, x ∈ S) {x y : α}
    (hx : x ∈ l) (hy : y ∈ l) (h0 : cmp x y = 0) : x = y := by
  have hsymm : Std.Symm fun a b => a ∈ S → b ∈ S → cmp a b = 0 → a = b := by
    refine ⟨fun a b hab hb ha h0 => (hab ha hb ?_).symm⟩
    have h1 := hS.neg_iff ha hb
    have h2 := hS.neg_iff hb ha
    omega
  exact List.Pairwise.forall_of_forall (R := fun a b => a ∈ S → b ∈ S → cmp a b = 0 → a = b)
    (fun _ _ _ _ _ => rfl) (h.imp fun hab _ _ h0 => by omega) hx hy (hl x hx) (hl y hy) h0

/-- An entry that meets no equal one keeps the list sorted. -/
theorem insert (h : Sorted cmp l) (hS : TotalOn cmp S) {n : α} (hn : n ∈ S)
    (hl : ∀ x ∈ l, x ∈ S) (hnone : ∀ x ∈ l, cmp n x ≠ 0) (hins : Inserted (cmp n) n l l') :
    Sorted cmp l' := by
  obtain ⟨l₁, l₂, rfl, rfl, h₁, h₂⟩ := hins.split (h.probe hS hn hl) (Refines.refl _ _)
  obtain ⟨hs₁, hs₂, hs⟩ := List.pairwise_append.mp h
  refine List.pairwise_append.mpr ⟨hs₁, List.pairwise_cons.mpr ⟨?_, hs₂⟩, ?_⟩
  · intro b hb
    have := h₂ b hb
    have := hnone b (List.mem_append_right _ hb)
    omega
  · intro a ha b hb
    rcases List.mem_cons.mp hb with rfl | hb
    · have := h₁ a ha
      have := hnone a (List.mem_append_left _ ha)
      exact (hS.neg_iff hn (hl a (List.mem_append_left _ ha))).mpr (by omega)
    · exact hs a ha b hb

/-- Every entry of a sorted tree is found by the search for itself. -/
theorem find_self {t : BinaryTree α} (h : Sorted cmp (toList t)) (hS : TotalOn cmp S)
    (hl : ∀ x ∈ toList t, x ∈ S) {x : α} (hx : x ∈ toList t) : find (cmp x) t = some x :=
  find_eq (h.probe hS (hl x hx) hl) hx (hS.self (hl x hx))
    fun _ hy h0 => (h.eq_of_zero hS hl hx hy h0).symm

end Sorted

end WanStack.FieldOrder
