import Mathlib.Data.Nat.Init
import Mathlib.Tactic.Common

set_option autoImplicit false

/-!
# Addresses behind a mask

An address of `w` bits matches an entry when its bits behind a mask of length `l` are
those of the entry. The entry then stands for a prefix exactly when it has no bits
outside the mask.
-/
namespace WanStack.BitPrefix

variable {X : Type} (bit : X → ℕ → Bool)

/-- Two addresses have the same first `l` bits. -/
def Agree (l : ℕ) (a x : X) : Prop := ∀ i < l, bit x i = bit a i

/-- The bits of `x` behind the mask are those of `a`. -/
def Covers (w l : ℕ) (a x : X) : Prop := ∀ i < w, (bit x i && decide (i < l)) = bit a i

/-- `a` has no bits outside the mask. -/
def Clear (w l : ℕ) (a : X) : Prop := ∀ i, l ≤ i → i < w → bit a i = false

variable {bit} {w l : ℕ} {a b x : X}

theorem Agree.refl (a : X) : Agree bit l a a := fun _ _ => rfl

theorem covers_iff (hl : l ≤ w) : Covers bit w l a x ↔ Clear bit w l a ∧ Agree bit l a x := by
  constructor
  · intro h
    constructor
    · intro i hli hiw
      have := h i hiw
      simpa [Nat.not_lt.mpr hli] using this.symm
    · intro i hil
      have := h i (by omega)
      simpa [hil] using this
  · intro ⟨hclear, hagree⟩ i hiw
    by_cases hil : i < l
    · simpa [hil] using hagree i hil
    · have := hclear i (Nat.not_lt.mp hil) hiw
      simp [hil, this]

theorem covers_iff_agree (hl : l ≤ w) (ha : Clear bit w l a) :
    Covers bit w l a x ↔ Agree bit l a x := by
  rw [covers_iff hl]
  exact ⟨And.right, fun h => ⟨ha, h⟩⟩

/-- An entry `b` with a mask of length `l'` matches the prefix of `a` of length `l` and
    nothing else exactly when it is that prefix. -/
theorem exact_iff {l' : ℕ} (hl : l ≤ w) (hl' : l' ≤ w)
    (hflip : ∀ i < w, ∃ y, ∀ j < w, bit y j = if j = i then !bit a j else bit a j) :
    (∀ x, Covers bit w l' b x ↔ Agree bit l a x) ↔
      l' = l ∧ Clear bit w l' b ∧ Agree bit l a b := by
  constructor
  · intro h
    obtain ⟨hclear, hab⟩ := (covers_iff hl').mp ((h a).mpr (.refl a))
    -- an address that differs from `a` in one bit tells the two lengths apart
    have hsame : l' = l := by
      rcases Nat.lt_trichotomy l' l with hlt | heq | hlt
      · obtain ⟨y, hy⟩ := hflip l' (by omega)
        have hcov : Covers bit w l' b y := by
          refine (covers_iff hl').mpr ⟨hclear, fun i hi => ?_⟩
          rw [hy i (by omega), if_neg (by omega)]
          exact hab i hi
        have := (h y).mp hcov l' hlt
        rw [hy l' (by omega), if_pos rfl] at this
        simp at this
      · exact heq
      · obtain ⟨y, hy⟩ := hflip l (by omega)
        have hagree : Agree bit l a y := by
          intro i hi
          rw [hy i (by omega), if_neg (by omega)]
        have hcov := ((covers_iff hl').mp ((h y).mpr hagree)).2 l hlt
        rw [hy l (by omega), if_pos rfl, hab l hlt] at hcov
        simp at hcov
    refine ⟨hsame, hclear, ?_⟩
    intro i hi
    exact (hab i (by omega)).symm
  · intro ⟨heq, hclear, hab⟩ x
    subst heq
    rw [covers_iff_agree hl' hclear]
    constructor
    · intro h i hi
      rw [h i hi, hab i hi]
    · intro h i hi
      rw [h i hi, hab i hi]

end WanStack.BitPrefix
