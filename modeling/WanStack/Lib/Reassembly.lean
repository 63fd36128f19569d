import Mathlib.Data.List.Basic
import Mathlib.Data.List.Sublists

set_option autoImplicit false

/-!
# Reassembly of a payload from pieces

A receiver keeps the pieces of one payload in a list sorted by offset. A new
piece is refused when it repeats or overlaps what is kept. Nothing here knows
which protocol carries the pieces.
-/
namespace WanStack.Reassembly

structure Piece (α : Type) where
  off : ℕ
  more : Bool
  data : List α
deriving DecidableEq, Repr

variable {α : Type}

/-- The insertion loop. `p` is the piece just passed, `none` at the head. -/
def place (x : Piece α) : Option (Piece α) → List (Piece α) → Option (List (Piece α))
  | p, [] =>
    if p.any (fun p => p.off + p.data.length > x.off) then none else some [x]
  | p, q :: qs =>
    if q.off = x.off then none
    else if q.off > x.off then
      if x.off + x.data.length > q.off ∨ x.more = false ∨
          p.any (fun p => p.off + p.data.length > x.off) = true then none
      else some (x :: q :: qs)
    else if q.more = false then none
    else (place x (some q) qs).map (q :: ·)

/-- Length of the payload when the pieces join from `off` on and the last one
    ends it. `more` is the flag of the piece just passed, `true` at the head. -/
def joined : ℕ → Bool → List (Piece α) → Option ℕ
  | off, more, [] => if more then none else some off
  | off, _, q :: qs =>
    if q.off = off then joined (off + q.data.length) q.more qs else none

/-- The pieces a sender makes of consecutive blocks of one payload. -/
def cut : ℕ → List (List α) → List (Piece α)
  | _, [] => []
  | off, b :: bs => ⟨off, !bs.isEmpty, b⟩ :: cut (off + b.length) bs

@[simp] theorem cut_length (off : ℕ) (bs : List (List α)) : (cut off bs).length = bs.length := by
  induction bs generalizing off with
  | nil => rfl
  | cons b bs ih => simp [cut, ih]

theorem cut_data (off : ℕ) (bs : List (List α)) :
    (cut off bs).flatMap Piece.data = bs.flatten := by
  induction bs generalizing off with
  | nil => rfl
  | cons b bs ih => simp [cut, ih]

theorem cut_off_ge {off : ℕ} {bs : List (List α)} {x : Piece α} (h : x ∈ cut off bs) :
    off ≤ x.off := by
  induction bs generalizing off with
  | nil => simp [cut] at h
  | cons b bs ih =>
    rcases List.mem_cons.mp h with rfl | h
    · exact le_refl _
    · have := ih h
      omega

theorem cut_end_le {off : ℕ} {bs : List (List α)} {x : Piece α} (h : x ∈ cut off bs) :
    x.off + x.data.length ≤ off + bs.flatten.length := by
  induction bs generalizing off with
  | nil => simp [cut] at h
  | cons b bs ih =>
    rcases List.mem_cons.mp h with rfl | h
    · simp only [List.flatten_cons, List.length_append]
      omega
    · have := ih h
      simp only [List.flatten_cons, List.length_append]
      omega

theorem cut_inj_off {off : ℕ} {bs : List (List α)} (hne : ∀ b ∈ bs, b ≠ []) {x y : Piece α}
    (hx : x ∈ cut off bs) (hy : y ∈ cut off bs) (h : x.off = y.off) : x = y := by
  induction bs generalizing off with
  | nil => simp [cut] at hx
  | cons b bs ih =>
    have hb : 0 < b.length := List.length_pos_of_ne_nil (hne b (by simp))
    rcases List.mem_cons.mp hx with rfl | hx <;> rcases List.mem_cons.mp hy with rfl | hy
    · rfl
    · have := cut_off_ge hy
      simp only at h
      omega
    · have := cut_off_ge hx
      simp only at h
      omega
    · exact ih (fun c hc => hne c (by simp [hc])) hx hy

theorem cut_nodup {off : ℕ} {bs : List (List α)} (hne : ∀ b ∈ bs, b ≠ []) :
    (cut off bs).Nodup := by
  induction bs generalizing off with
  | nil => exact List.nodup_nil
  | cons b bs ih =>
    have hb : 0 < b.length := List.length_pos_of_ne_nil (hne b (by simp))
    refine List.nodup_cons.mpr ⟨fun hmem => ?_, ih fun c hc => hne c (by simp [hc])⟩
    have := cut_off_ge hmem
    simp only at this
    omega

/-- A piece with the more flag is followed by one that starts where it ends. -/
theorem cut_next {off : ℕ} {bs : List (List α)} {x : Piece α} (h : x ∈ cut off bs)
    (hm : x.more = true) : ∃ y ∈ cut off bs, y.off = x.off + x.data.length := by
  induction bs generalizing off with
  | nil => simp [cut] at h
  | cons b bs ih =>
    rcases List.mem_cons.mp h with rfl | h
    · cases bs with
      | nil => simp at hm
      | cons c bs => exact ⟨_, List.mem_cons_of_mem _ (List.mem_cons_self ..), rfl⟩
    · obtain ⟨y, hy, hoff⟩ := ih h
      exact ⟨y, List.mem_cons_of_mem _ hy, hoff⟩

/-- What `place` does on a receiver that holds some pieces of a cut: a piece it
    holds is refused, a missing one is added and the list stays in cut order. -/
theorem place_cut (off : ℕ) (bs : List (List α)) (hne : ∀ b ∈ bs, b ≠ [])
    (p : Option (Piece α)) (hp : ∀ r ∈ p, r.off + r.data.length ≤ off)
    (xs : List (Piece α)) (hxs : xs.Sublist (cut off bs)) (x : Piece α) (hx : x ∈ cut off bs) :
    (x ∈ xs → place x p xs = none) ∧
    (x ∉ xs → ∃ ys, place x p xs = some ys ∧ ys.Sublist (cut off bs) ∧
      ∀ y, y ∈ ys ↔ y = x ∨ y ∈ xs) := by
  induction bs generalizing off p xs with
  | nil => simp [cut] at hx
  | cons b bs ih =>
    have hb : 0 < b.length := List.length_pos_of_ne_nil (hne b (by simp))
    have hne' : ∀ c ∈ bs, c ≠ [] := fun c hc => hne c (by simp [hc])
    have hpass : ∀ z : Piece α, z.off ≥ off →
        p.any (fun r => r.off + r.data.length > z.off) = false := by
      intro z hz
      cases p with
      | none => rfl
      | some r =>
        have := hp r rfl
        simp only [Option.any_some, decide_eq_false_iff_not]
        omega
    rcases List.sublist_cons_iff.mp hxs with hskip | ⟨r, rfl, hr⟩
    · -- the first block is missing
      rcases List.mem_cons.mp hx with rfl | hx
      · constructor
        · intro hmem
          have := cut_off_ge (hskip.subset hmem)
          simp only at this
          omega
        · intro _
          have hany := hpass ⟨off, !bs.isEmpty, b⟩ (le_refl _)
          cases xs with
          | nil => exact ⟨_, by simp only [place, hany]; rfl, by simp [cut], by simp⟩
          | cons q qs =>
            have hq := cut_off_ge (hskip.subset (List.mem_cons_self ..))
            have hbs : bs.isEmpty = false := by
              cases bs with
              | nil => simp [cut] at hskip
              | cons _ _ => rfl
            refine ⟨_, ?_, List.Sublist.cons_cons _ hskip, by simp⟩
            have h1 : q.off ≠ off := by omega
            have h2 : q.off > off := by omega
            have h3 : ¬ off + b.length > q.off := by omega
            simp only [place, h1, h2, h3, if_false, if_true, hbs, hany]
            simp
      · obtain ⟨hold, hnew⟩ := ih (off + b.length) hne' p
          (fun r hr => by have := hp r hr; omega) xs hskip hx
        refine ⟨hold, fun hmem => ?_⟩
        obtain ⟨ys, hys, hsub, hin⟩ := hnew hmem
        exact ⟨ys, hys, hsub.cons _, hin⟩
    · -- the first block is held
      rcases List.mem_cons.mp hx with rfl | hx
      · exact ⟨fun _ => by simp [place], fun hmem => absurd (List.mem_cons_self ..) hmem⟩
      · have hoff := cut_off_ge hx
        have hbs : bs.isEmpty = false := by
          cases bs with
          | nil => simp [cut] at hx
          | cons _ _ => rfl
        have hne1 : off ≠ x.off := by omega
        have hne2 : ¬ off > x.off := by omega
        have hxb : x ≠ ⟨off, !bs.isEmpty, b⟩ := by
          rintro rfl
          simp only at hoff
          omega
        have hstep : place x p (⟨off, !bs.isEmpty, b⟩ :: r) =
            (place x (some ⟨off, !bs.isEmpty, b⟩) r).map (⟨off, !bs.isEmpty, b⟩ :: ·) := by
          simp only [place, hne1, hne2, if_false, hbs]
          rfl
        obtain ⟨hold, hnew⟩ := ih (off + b.length) hne' (some ⟨off, !bs.isEmpty, b⟩)
          (fun r hr => by cases hr; exact le_refl _) r hr hx
        refine ⟨fun hmem => ?_, fun hmem => ?_⟩
        · rw [hstep, hold (by simpa [hxb] using hmem)]
          rfl
        · obtain ⟨ys, hys, hsub, hin⟩ := hnew (by simpa [hxb] using hmem)
          refine ⟨⟨off, !bs.isEmpty, b⟩ :: ys, by rw [hstep, hys]; rfl,
            List.Sublist.cons_cons _ hsub, fun y => ?_⟩
          simp only [List.mem_cons, hin]
          tauto

/-- Pieces of a cut join exactly when none is missing. -/
theorem joined_cut (off : ℕ) (bs : List (List α)) (hne : ∀ b ∈ bs, b ≠ [])
    (more : Bool) (hm : more = !bs.isEmpty) (xs : List (Piece α)) (hxs : xs.Sublist (cut off bs)) :
    (xs = cut off bs → joined off more xs = some (off + bs.flatten.length)) ∧
    (xs ≠ cut off bs → joined off more xs = none) := by
  induction bs generalizing off more xs with
  | nil =>
    obtain rfl : xs = [] := by simpa [cut] using hxs
    subst hm
    simp [cut, joined]
  | cons b bs ih =>
    have hb : 0 < b.length := List.length_pos_of_ne_nil (hne b (by simp))
    have hne' : ∀ c ∈ bs, c ≠ [] := fun c hc => hne c (by simp [hc])
    rcases List.sublist_cons_iff.mp hxs with hskip | ⟨r, rfl, hr⟩
    · have hnone : joined off more xs = none := by
        cases xs with
        | nil => simp [joined, hm]
        | cons q qs =>
          have hq := cut_off_ge (hskip.subset (List.mem_cons_self ..))
          have hqo : q.off ≠ off := by omega
          simp [joined, hqo]
      refine ⟨fun heq => ?_, fun _ => hnone⟩
      have hlen := hskip.length_le
      rw [heq] at hlen
      simp only [cut_length, List.length_cons] at hlen
      omega
    · obtain ⟨hall, hgap⟩ := ih (off + b.length) hne' (!bs.isEmpty) rfl r hr
      have hstep : joined off more (⟨off, !bs.isEmpty, b⟩ :: r) =
          joined (off + b.length) (!bs.isEmpty) r := by simp [joined]
      rw [hstep]
      refine ⟨fun heq => ?_, fun hne => hgap (fun heq => hne (by rw [heq]; rfl))⟩
      rw [hall (List.cons.inj heq).2]
      simp only [List.flatten_cons, List.length_append]
      congr 1
      omega

end WanStack.Reassembly
