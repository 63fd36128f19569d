import Mathlib.Data.Nat.ModEq

set_option autoImplicit false

/-!
# One's complement sums

Sums of words whose carries are added in again at the low end. `w` is the word of
ones, which stands for zero as the zero word does; sums count modulo `w`.
-/
namespace WanStack.OnesComplement

/-- The carry added to the word it came from. -/
def carry (w s : ℕ) : ℕ := s / (w + 1) + s % (w + 1)

/-- A sum of at most `w + 1` words, brought down to one. -/
def folded (w s : ℕ) : ℕ := carry w (carry w s)

/-- The complement that is sent with the words. -/
def cksum (w s : ℕ) : ℕ := w - folded w s

variable {w s : ℕ}

theorem carry_modEq (w s : ℕ) : carry w s ≡ s [MOD w] := by
  have hs : s = w * (s / (w + 1)) + carry w s := by
    have := Nat.div_add_mod s (w + 1)
    rw [Nat.add_mul, Nat.one_mul] at this
    unfold carry
    omega
  have hmod : w * (s / (w + 1)) + carry w s ≡ carry w s [MOD w] := Nat.ModEq.modulus_mul_add
  rw [← hs] at hmod
  exact hmod.symm

theorem carry_eq_zero : carry w s = 0 ↔ s = 0 := by
  unfold carry
  constructor
  · intro h
    have := Nat.div_add_mod s (w + 1)
    obtain ⟨hq, hr⟩ := Nat.add_eq_zero_iff.mp h
    rw [hq, hr, Nat.mul_zero] at this
    exact this.symm
  · rintro rfl
    simp

theorem folded_modEq (w s : ℕ) : folded w s ≡ s [MOD w] :=
  (carry_modEq w (carry w s)).trans (carry_modEq w s)

theorem folded_eq_zero : folded w s = 0 ↔ s = 0 := by
  unfold folded
  rw [carry_eq_zero, carry_eq_zero]

theorem folded_le (h : s < (w + 1) * (w + 1)) : folded w s ≤ w := by
  have hq : s / (w + 1) < w + 1 := Nat.div_lt_of_lt_mul h
  have hr : s % (w + 1) < w + 1 := Nat.mod_lt _ (Nat.succ_pos w)
  have ht : carry w s ≤ 2 * w := by
    unfold carry
    omega
  unfold folded
  generalize carry w s = t at ht
  unfold carry
  rcases Nat.lt_or_ge t (w + 1) with hlt | hge
  · rw [Nat.div_eq_of_lt hlt, Nat.mod_eq_of_lt hlt]
    omega
  · have hone : t / (w + 1) = 1 := Nat.div_eq_of_lt_le (by omega) (by omega)
    have := Nat.div_add_mod t (w + 1)
    rw [hone] at this ⊢
    omega

/-- The word of ones is what a sum comes to that is zero but has a part that is not. -/
theorem folded_eq_ones (hw : 0 < w) (h : s < (w + 1) * (w + 1)) :
    folded w s = w ↔ w ∣ s ∧ 0 < s := by
  have hmod := folded_modEq w s
  constructor
  · intro hones
    rw [hones] at hmod
    refine ⟨(Nat.modEq_zero_iff_dvd).mp (hmod.symm.trans Nat.modulus_modEq_zero), ?_⟩
    by_contra hzero
    have : folded w s = 0 := folded_eq_zero.mpr (by omega)
    omega
  · rintro ⟨hdvd, hpos⟩
    have hle := folded_le h
    have hdvd' : w ∣ folded w s :=
      (Nat.modEq_zero_iff_dvd).mp (hmod.trans ((Nat.modEq_zero_iff_dvd).mpr hdvd))
    have hne : folded w s ≠ 0 := fun e => by
      have := folded_eq_zero.mp e
      omega
    exact Nat.le_antisymm hle (Nat.le_of_dvd (Nat.pos_of_ne_zero hne) hdvd')

theorem cksum_le (w s : ℕ) : cksum w s ≤ w := Nat.sub_le _ _

theorem cksum_dvd (h : s < (w + 1) * (w + 1)) : w ∣ s + cksum w s := by
  have hle := folded_le h
  rw [← Nat.modEq_zero_iff_dvd]
  calc
    s + cksum w s ≡ folded w s + cksum w s [MOD w] := ((folded_modEq w s).symm).add_right _
    _ = w := Nat.add_sub_cancel' hle
    _ ≡ 0 [MOD w] := Nat.modulus_modEq_zero

theorem cksum_eq_zero (hw : 0 < w) (h : s < (w + 1) * (w + 1)) :
    cksum w s = 0 ↔ w ∣ s ∧ 0 < s := by
  have hle := folded_le h
  rw [← folded_eq_ones hw h]
  unfold cksum
  omega

/-- Where one part of what was summed gives way to another, the complement follows from the
    complement before and the two parts alone. -/
theorem update_dvd {t c d old new : ℕ} (hc : c ≤ w) (h : w ∣ t + old + c)
    (hd : d + old ≡ new [MOD w]) (hs : w - c + d < (w + 1) * (w + 1)) :
    w ∣ t + new + cksum w (w - c + d) := by
  have hold : t + old ≡ w - c [MOD w] := by
    apply Nat.ModEq.add_right_cancel' c
    rw [Nat.sub_add_cancel hc]
    exact ((Nat.modEq_zero_iff_dvd).mpr h).trans Nat.modulus_modEq_zero.symm
  have hnew : t + new ≡ w - c + d [MOD w] := by
    calc
      t + new ≡ t + (d + old) [MOD w] := hd.symm.add_left t
      _ = t + old + d := by omega
      _ ≡ w - c + d [MOD w] := hold.add_right d
  rw [← Nat.modEq_zero_iff_dvd]
  exact (hnew.add_right _).trans ((Nat.modEq_zero_iff_dvd).mpr (cksum_dvd hs))

end WanStack.OnesComplement
