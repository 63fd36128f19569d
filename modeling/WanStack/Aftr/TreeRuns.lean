import WanStack.Aftr.TreeLinks

set_option autoImplicit false

/-!
# The rebalancing loops

Each loop, run on the fields that hold a tree, ends with fields that hold what the
corresponding operation makes of the tree. That it never reads through `NULL` rests on the
balance of the tree before.
-/
namespace WanStack.Aftr
open BinaryTree SearchTree FieldOrder RedBlack

namespace TreeLinks

variable {s s' : TreeLinks} {t l r : RedBlack.Tree ℕ} {f p g : Frame ℕ} {fs : List (Frame ℕ)}
  {k : Color} {d : Bool} {n x y fuel : ℕ}

theorem isRed_ne_nil (h : isRed t = true) : t ≠ nil := by
  rintro rfl
  cases h

theorem Holds.addr_ne_zero (h : Holds s (zip t fs)) (ht : t ≠ nil) : addr t ≠ 0 := by
  intro e
  have hmem : (0 : ℕ) ∈ list t := e ▸ addr_mem ht
  exact h.null ((list_zip_perm t fs).mem_iff.mpr (List.mem_append_left _ hmem))

theorem Holds.value_ne_zero (h : Holds s (zip t (f :: fs))) : f.value ≠ 0 := by
  have hzip : Holds s (zip (plug t f) fs) := h
  have hplug : addr (plug t f) ≠ 0 := by
    apply hzip.addr_ne_zero
    unfold plug
    split <;> simp
  rwa [addr_plug] at hplug

/-- The fields of a node and of the node above it. -/
theorem Holds.node (h : Holds s (zip t fs)) (ht : t ≠ nil) :
    s.parent (addr t) = above fs ∧ s.color (addr t) = if isRed t then .red else .black := by
  obtain ⟨hmem, -⟩ := holds_zip.mp h
  rcases t with - | ⟨⟨k, x⟩, l, r⟩
  · exact absurd rfl ht
  · obtain ⟨-, -, hparent, hcolor, -⟩ := hmem
    refine ⟨hparent, hcolor.trans ?_⟩
    cases k <;> rfl

theorem Holds.frame (h : Holds s (zip t (f :: fs))) :
    s.child f.left f.value = addr t ∧ s.child (!f.left) f.value = addr f.sib ∧
      s.parent f.value = above fs ∧ s.color f.value = f.color := by
  obtain ⟨-, ⟨hchild, hsib, hparent, hcolor, -⟩, -⟩ := holds_zip.mp h
  exact ⟨hchild, hsib, hparent, hcolor⟩

theorem Holds.apart (h : Holds s (zip t (f :: fs))) (hne : t ≠ nil ∨ f.sib ≠ nil) :
    addr t ≠ addr f.sib := by
  have hperm := list_zip_perm t (f :: fs)
  have hnd := hperm.nodup_iff.mp h.nodup
  have hnull := mt hperm.mem_iff.mpr h.null
  rw [List.nodup_append] at hnd
  rw [List.mem_append, not_or] at hnull
  have hsib : ∀ z ∈ list f.sib, z ∈ around (f :: fs) := fun z hz => mem_around (.inl hz)
  intro e
  by_cases ht : t = nil
  · have hs : f.sib ≠ nil := hne.resolve_left (not_not_intro ht)
    have hmem := hsib _ (addr_mem hs)
    rw [← e, ht] at hmem
    exact hnull.2 hmem
  · by_cases hs : f.sib = nil
    · have hmem := addr_mem ht
      rw [e, hs] at hmem
      exact hnull.1 hmem
    · exact hnd.2.2 _ (addr_mem ht) _ (hsib _ (addr_mem hs)) e

/-- The tests for the side of a node. -/
theorem Holds.left_iff (h : Holds s (zip t (f :: fs))) (hne : t ≠ nil ∨ f.sib ≠ nil) :
    s.left f.value = addr t ↔ f.left = true := by
  obtain ⟨hchild, hsib, -⟩ := h.frame
  have hapart := h.apart hne
  cases hd : f.left with
  | true =>
    rw [hd] at hchild
    exact ⟨fun _ => rfl, fun _ => hchild⟩
  | false =>
    rw [hd] at hsib
    refine ⟨fun e => absurd (e.symm.trans hsib) hapart, fun e => ?_⟩
    cases e

theorem Holds.right_iff (h : Holds s (zip t (f :: fs))) (hne : t ≠ nil ∨ f.sib ≠ nil) :
    s.right f.value = addr t ↔ f.left = false := by
  obtain ⟨hchild, hsib, -⟩ := h.frame
  have hapart := h.apart hne
  cases hd : f.left with
  | true =>
    rw [hd] at hsib
    refine ⟨fun e => absurd (e.symm.trans hsib) hapart, fun e => ?_⟩
    cases e
  | false =>
    rw [hd] at hchild
    exact ⟨fun _ => rfl, fun _ => hchild⟩

/-- The last step of both loops, at the root. -/
theorem Holds.blacken_root (h : Holds s t) : Holds (s.blackenNode s.root) (blacken t) := by
  have hzip : Holds s (zip t []) := h
  rw [h.root]
  exact blackenNode_run hzip

theorem zip_ne_nil (ht : t ≠ nil) (fs : List (Frame ℕ)) : zip t fs ≠ nil := by
  induction fs generalizing t with
  | nil => exact ht
  | cons f fs ih =>
    apply ih
    unfold plug
    split <;> simp

/-- Under a black node, or at the root, the loop after an insertion ends. -/
theorem natTreeInsertColor_done (h : Holds s (zip t fs)) (ht : t ≠ nil) (hfuel : 0 < fuel)
    (habove : ∀ f ∈ fs.head?, f.color = .black) :
    ∃ s', natTreeInsertColor fuel (addr t) s = some s' ∧ Holds s' (blacken (zip t fs)) := by
  obtain ⟨fuel, rfl⟩ := Nat.exists_eq_succ_of_ne_zero hfuel.ne'
  have hparent : ¬ (s.parent (addr t) ≠ 0 ∧ s.color (s.parent (addr t)) = .red) := by
    rw [(h.node ht).1]
    cases fs with
    | nil => exact fun e => e.1 rfl
    | cons f fs =>
      intro e
      have hblack : s.color f.value = .black := h.frame.2.2.2.trans (habove f rfl)
      exact Color.noConfusion (hblack.symm.trans e.2)
  have hroot : s.root ≠ 0 := by
    have hzip : Holds s (zip (zip t fs) []) := h
    rw [h.root]
    exact hzip.addr_ne_zero (zip_ne_nil ht fs)
  refine ⟨s.blackenNode s.root, ?_, h.blacken_root⟩
  rw [natTreeInsertColor, if_neg hparent, if_neg hroot, blackenNode, if_pos hroot]

/-- A rotation to the side away from the node that goes up. -/
theorem rotateOut_run {a b c : RedBlack.Tree ℕ} {j : Color}
    (h : Holds s (zip (plug c ⟨d, j, y, b⟩) (⟨d, k, x, a⟩ :: fs))) :
    ∃ s', natTreeRotate (!d) x s = some s' ∧
      Holds s' (zip (plug b ⟨d, k, x, a⟩) (⟨!d, j, y, c⟩ :: fs)) := by
  have hform : zip (plug c ⟨d, j, y, b⟩) (⟨d, k, x, a⟩ :: fs) =
      zip (plug (plug c ⟨!!d, j, y, b⟩) ⟨!!d, k, x, a⟩) fs := by
    rw [Bool.not_not]
    rfl
  obtain ⟨s', hrun, hs⟩ := rotate_run (d := !d) (hform ▸ h)
  rw [Bool.not_not] at hs
  exact ⟨s', hrun, hs⟩

/-- The outer rotation: the parent takes the place of the grandparent. -/
theorem rotateUp_run {pk gk : Color} {pv gv : ℕ} {ps gs : RedBlack.Tree ℕ}
    (h : Holds s (zip t (⟨d, pk, pv, ps⟩ :: ⟨d, gk, gv, gs⟩ :: fs))) :
    ∃ s', natTreeRotate (!d) gv ((s.setColor pv .black).setColor gv .red) = some s' ∧
      Holds s' (zip t (⟨d, .black, pv, plug ps ⟨d, .red, gv, gs⟩⟩ :: fs)) := by
  have h₁ := setColor_above h .black
  have h₂ := setColor_above (t := plug t ⟨d, .black, pv, ps⟩) (f := ⟨d, gk, gv, gs⟩) h₁ .red
  obtain ⟨s', hrun, hs⟩ := rotateOut_run (c := t) h₂
  refine ⟨s', hrun, ?_⟩
  rw [zip_sib]
  exact hs

/-- The inner rotation: the red node takes the place of its parent. -/
theorem rotateIn_run {pk j : Color} {pv : ℕ} {ps b c : RedBlack.Tree ℕ}
    (h : Holds s (zip (plug c ⟨!d, j, x, b⟩) (⟨!d, pk, pv, ps⟩ :: fs))) :
    ∃ s', natTreeRotate d pv s = some s' ∧
      Holds s' (zip (plug b ⟨!d, pk, pv, ps⟩) (⟨d, j, x, c⟩ :: fs)) := rotate_run h

theorem rotateUp_outer (t ps gs : RedBlack.Tree ℕ) (pk gk : Color) (pv gv : ℕ) :
    rotateUp t ⟨d, pk, pv, ps⟩ ⟨d, gk, gv, gs⟩ =
      plug t ⟨d, .black, pv, plug ps ⟨d, .red, gv, gs⟩⟩ := by
  cases d <;> rfl

theorem rotateUp_inner (ps gs b c : RedBlack.Tree ℕ) (j pk gk : Color) (pv gv : ℕ) :
    rotateUp (plug c ⟨!d, j, x, b⟩) ⟨!d, pk, pv, ps⟩ ⟨d, gk, gv, gs⟩ =
      plug (plug b ⟨!d, pk, pv, ps⟩) ⟨d, .black, x, plug c ⟨d, .red, gv, gs⟩⟩ := by
  cases d <;> rfl

/-- What the loop after an insertion reads around a node with two nodes above it. -/
theorem Holds.grand (h : Holds s (zip t (p :: g :: fs))) (ht : t ≠ nil) :
    s.parent (addr t) = p.value ∧ p.value ≠ 0 ∧ s.color p.value = p.color ∧
      s.parent p.value = g.value ∧ g.value ≠ 0 ∧
      (decide (p.value = s.left g.value) : Bool) = g.left ∧
      s.child (!g.left) g.value = addr g.sib ∧
      (addr g.sib ≠ 0 ∧ s.color (addr g.sib) = .red ↔ isRed g.sib = true) := by
  have hg : Holds s (zip (plug t p) (g :: fs)) := h
  have hplug : plug t p ≠ nil := zip_ne_nil ht [p]
  have hside := hg.left_iff (.inl hplug)
  rw [addr_plug] at hside
  obtain ⟨-, -, hpp, hpc⟩ := h.frame
  obtain ⟨-, hgs, -, -⟩ := hg.frame
  refine ⟨(h.node ht).1, h.value_ne_zero, hpc, hpp, hg.value_ne_zero, ?_, hgs, ?_⟩
  · rw [Bool.eq_iff_iff, decide_eq_true_eq, ← hside]
    exact eq_comm
  · have hsib := zip_sib (plug t p) g fs ▸ hg
    by_cases hnil : g.sib = nil
    · rw [hnil]
      exact ⟨fun e => absurd rfl e.1, fun e => by cases e⟩
    · have h0 : addr g.sib ≠ 0 := hsib.addr_ne_zero hnil
      rw [(hsib.node hnil).2]
      cases isRed g.sib <;> simp [h0]

theorem eq_plug (d : Bool) (ht : t ≠ nil) :
    ∃ k x b c, t = plug c (⟨d, k, x, b⟩ : Frame ℕ) := by
  rcases t with - | ⟨⟨k, x⟩, l, r⟩
  · exact absurd rfl ht
  · cases d with
    | true => exact ⟨k, x, r, l, rfl⟩
    | false => exact ⟨k, x, l, r, rfl⟩

/-- The loop after an insertion, from the red node `t` upwards. -/
theorem natTreeInsertColor_run (h : Holds s (zip t fs)) (ht : isRed t = true) (hfs : FramesOk fs)
    (hfuel : fs.length < fuel) :
    ∃ s', natTreeInsertColor fuel (addr t) s = some s' ∧ Holds s' (insertColor t fs) := by
  fun_induction insertColor t fs generalizing s fuel with
  | case1 t => exact natTreeInsertColor_done h (isRed_ne_nil ht) hfuel (by simp)
  | case2 t p =>
    have hp : p.color = .black := eq_black fun e => (hfs.2.1 e).2
    exact natTreeInsertColor_done h (isRed_ne_nil ht) (by omega) (by simpa using hp)
  | case3 t p g fs hp hg ih =>
    obtain ⟨fuel, rfl⟩ := Nat.exists_eq_succ_of_ne_zero (show fuel ≠ 0 by omega)
    have hne := isRed_ne_nil ht
    obtain ⟨hpar, hp0, hpc, hgpar, hg0, hd, htmp, hred⟩ := h.grand hne
    have hsib : Holds s (zip g.sib (⟨!g.left, g.color, g.value, plug t p⟩ :: fs)) :=
      zip_sib (plug t p) g fs ▸ h
    have h₁ : Holds (s.setColor (addr g.sib) .black)
        (zip t (p :: { g with sib := blacken g.sib } :: fs)) := by
      have hblack := blackenNode_run hsib
      rw [blackenNode, if_pos (hred.mpr hg).1, zip_sib, Bool.not_not] at hblack
      exact hblack
    have h₂ := setColor_above h₁ .black
    have h₃ := setColor_above (t := plug t { p with color := .black }) h₂ .red
    have hlen : fs.length < fuel := by
      simp only [List.length_cons] at hfuel
      omega
    obtain ⟨s', hrun, hs⟩ := ih h₃ (by simp) hfs.2.2.2.2 hlen
    refine ⟨s', ?_, hs⟩
    rw [addr_plug] at hrun
    simp only [natTreeInsertColor, hpar, hgpar, hd, htmp, if_pos (And.intro hp0 (hpc.trans hp)),
      if_neg hg0, if_pos (hred.mpr hg)]
    exact hrun
  | case4 t p g fs hp hg =>
    obtain ⟨fuel, rfl⟩ := Nat.exists_eq_succ_of_ne_zero (show fuel ≠ 0 by omega)
    have hne := isRed_ne_nil ht
    have hlen : 0 < fuel := by
      simp only [List.length_cons] at hfuel
      omega
    obtain ⟨hpar, hp0, hpc, hgpar, hg0, hd, htmp, hred⟩ := h.grand hne
    obtain ⟨hpt, hps, -, -⟩ := h.frame
    have hapart := h.apart (.inl hne)
    obtain ⟨pl, pk, pv, ps⟩ := p
    obtain ⟨gl, gk, gv, gs⟩ := g
    by_cases hside : pl = gl
    · subst hside
      -- the outer child: one rotation
      have hinner : s.child (!pl) pv ≠ addr t := fun e => hapart (e.symm.trans hps)
      obtain ⟨s₁, hrot, h₁⟩ := rotateUp_run h
      obtain ⟨s', hrun, hs⟩ := natTreeInsertColor_done h₁ hne hlen (by simp)
      refine ⟨s', ?_, rotateUp_outer .. ▸ hs⟩
      simp only [natTreeInsertColor, hpar, hgpar, hd, htmp, if_pos (And.intro hp0 (hpc.trans hp)),
        if_neg hg0, if_neg (mt hred.mp hg), if_neg hinner, Option.bind_eq_bind, Option.bind_some,
        hrot]
      exact hrun
    · obtain rfl : pl = !gl := by cases pl <;> cases gl <;> simp_all
      -- the inner child: it takes the place of its parent first
      obtain ⟨k, x, b, c, rfl⟩ := eq_plug (!gl) hne
      rw [Bool.not_not] at hps
      obtain ⟨s₀, hrot₀, h₀⟩ := rotateIn_run h
      obtain ⟨s₁, hrot, h₁⟩ := rotateUp_run h₀
      have hne' : plug b ⟨!gl, pk, pv, ps⟩ ≠ nil := by
        unfold plug
        split <;> simp
      obtain ⟨s', hrun, hs⟩ := natTreeInsertColor_done h₁ hne' hlen (by simp)
      refine ⟨s', ?_, rotateUp_inner .. ▸ hs⟩
      rw [addr_plug] at hpar hpt hrun ⊢
      simp only [natTreeInsertColor, hpar, hgpar, hd, htmp, if_pos (And.intro hp0 (hpc.trans hp)),
        if_neg hg0, if_neg (mt hred.mp hg), if_pos hpt, Option.bind_eq_bind, hrot₀, Option.map_some,
        Option.bind_some, hrot]
      exact hrun
  | case5 t p g fs hp =>
    exact natTreeInsertColor_done h (isRed_ne_nil ht) (by omega) (by simpa using eq_black hp)

theorem Holds.black_eq (h : Holds s (zip t fs)) : s.black (addr t) = !isRed t := by
  by_cases ht : t = nil
  · rw [ht]
    rfl
  · have h0 := h.addr_ne_zero ht
    rw [black, (h.node ht).2, decide_eq_false h0, Bool.false_or]
    cases isRed t <;> rfl

theorem root_around (t : RedBlack.Tree ℕ) (f : Frame ℕ) (fs : List (Frame ℕ)) :
    addr (zip t (f :: fs)) ∈ around (f :: fs) := by
  induction fs generalizing t f with
  | nil =>
    have hroot : addr (zip t [f]) = f.value := addr_plug
    rw [hroot]
    exact mem_around (.inr (.inl rfl))
  | cons g fs ih => exact mem_around (.inr (.inr (ih (plug t f) g)))

/-- A position below the root is not the root. -/
theorem Holds.ne_root (h : Holds s (zip t (f :: fs))) : addr t ≠ s.root := by
  have hperm := list_zip_perm t (f :: fs)
  have hnd := hperm.nodup_iff.mp h.nodup
  have hnull := mt hperm.mem_iff.mpr h.null
  rw [List.nodup_append] at hnd
  rw [List.mem_append, not_or] at hnull
  have hroot := root_around t f fs
  rw [← h.root] at hroot
  intro e
  by_cases ht : t = nil
  · rw [← e, ht] at hroot
    exact hnull.2 hroot
  · exact hnd.2.2 _ (addr_mem ht) _ hroot e

theorem natTreeRemoveColor_done {q : ℕ} (h : Holds s (zip t fs)) (hfuel : 0 < fuel)
    (hend : isRed t = true ∨ fs = []) :
    ∃ s', natTreeRemoveColor fuel q (addr t) s = some s' ∧ Holds s' (zip (blacken t) fs) := by
  obtain ⟨fuel, rfl⟩ := Nat.exists_eq_succ_of_ne_zero hfuel.ne'
  refine ⟨s.blackenNode (addr t), ?_, blackenNode_run h⟩
  rw [natTreeRemoveColor, if_neg]
  rintro ⟨hblack, hroot⟩
  obtain hred | rfl := hend
  · rw [h.black_eq, hred] at hblack
    cases hblack
  · exact hroot h.root.symm

/-- The sibling of a hole with its own subtrees, seen from the outer one. -/
theorem zip_far (d : Bool) (k ky : Color) (p y : ℕ) (n near far : RedBlack.Tree ℕ)
    (fs : List (Frame ℕ)) :
    zip n (⟨d, k, p, plug near ⟨d, ky, y, far⟩⟩ :: fs) =
      zip far (⟨!d, ky, y, near⟩ :: ⟨!d, k, p, n⟩ :: fs) := by
  cases d <;> rfl

/-- The last rotation of a round: the sibling takes the place of the parent. -/
theorem lastRotation_run {ky : Color} {pv : ℕ} {t near far : RedBlack.Tree ℕ}
    (h : Holds s (zip far (⟨!d, ky, y, near⟩ :: ⟨!d, k, pv, t⟩ :: fs))) :
    ∃ s', natTreeRotate d pv
        (((s.setColor y (s.color pv)).setColor pv .black).blackenNode (s.child (!d) y)) = some s' ∧
      Holds s' (zip (plug (blacken far) ⟨!d, k, y, plug t ⟨d, .black, pv, near⟩⟩) fs) := by
  have hcolor : s.color pv = k := (Holds.frame (t := plug far ⟨!d, ky, y, near⟩) h).2.2.2
  have hfar : s.child (!d) y = addr far := h.frame.1
  rw [hcolor, hfar]
  have h₁ := setColor_above h k
  have h₂ : Holds ((s.setColor y k).setColor pv .black)
      (zip far (⟨!d, k, y, near⟩ :: ⟨!d, .black, pv, t⟩ :: fs)) :=
    setColor_above (t := plug far ⟨!d, k, y, near⟩) h₁ .black
  have h₃ : Holds (((s.setColor y k).setColor pv .black).blackenNode (addr far))
      (zip (plug (plug (blacken far) ⟨!d, k, y, near⟩) ⟨!d, .black, pv, t⟩) fs) :=
    blackenNode_run h₂
  obtain ⟨s', hrun, hs⟩ := rotate_run h₃
  refine ⟨s', hrun, ?_⟩
  have hend : plug (blacken far) ⟨!d, k, y, plug t ⟨d, .black, pv, near⟩⟩ =
      plug (plug near ⟨!d, .black, pv, t⟩) ⟨d, k, y, blacken far⟩ := by
    cases d <;> rfl
  rw [hend]
  exact hs

/-- The round of the functional repair, on either side. -/
def mend (d : Bool) (n : RedBlack.Tree ℕ) (k : Color) (p : ℕ) (sib : RedBlack.Tree ℕ) :
    RedBlack.Tree ℕ × Bool :=
  if d then mendLeft n k p sib else mendRight n k p sib

theorem mend_far {pv : ℕ} {near far : RedBlack.Tree ℕ} (hfar : isRed far = true) :
    mend d t k pv (plug near ⟨d, .black, y, far⟩) =
      (plug (blacken far) ⟨!d, k, y, plug t ⟨d, .black, pv, near⟩⟩, false) := by
  cases d <;> simp [mend, plug, mendLeft, mendRight, hfar]

theorem mend_near {pv z : ℕ} {nn nf far : RedBlack.Tree ℕ} (hfar : isRed far = false) :
    mend d t k pv (plug (plug nn ⟨d, .red, z, nf⟩) ⟨d, .black, y, far⟩) =
      (plug (plug nf ⟨d, .black, y, far⟩) ⟨!d, k, z, plug t ⟨d, .black, pv, nn⟩⟩, false) := by
  cases d <;> simp [mend, plug, mendLeft, mendRight, hfar]

theorem mend_short {pv : ℕ} {near far : RedBlack.Tree ℕ} (hnear : isRed near = false)
    (hfar : isRed far = false) :
    mend d t k pv (plug near ⟨d, .black, y, far⟩) =
      (plug t ⟨d, k, pv, plug near ⟨d, .red, y, far⟩⟩, true) := by
  cases d <;> simp [mend, plug, mendLeft, mendRight, hnear, hfar]

/-- A round with a black sibling. -/
theorem removeRound_run {pv : ℕ} {near far : RedBlack.Tree ℕ}
    (h : Holds s (zip t (⟨d, k, pv, plug near ⟨d, .black, y, far⟩⟩ :: fs))) :
    ∃ s', removeRound d pv s = some ((mend d t k pv (plug near ⟨d, .black, y, far⟩)).2, s') ∧
      Holds s' (zip (mend d t k pv (plug near ⟨d, .black, y, far⟩)).1 fs) := by
  have hout : Holds s (zip far (⟨!d, .black, y, near⟩ :: ⟨!d, k, pv, t⟩ :: fs)) := zip_far .. ▸ h
  have hin : Holds s (zip near (⟨d, .black, y, far⟩ :: ⟨!d, k, pv, t⟩ :: fs)) := by
    rw [zip_sib]
    exact hout
  have htmp : s.child (!d) pv = y := h.frame.2.1.trans addr_plug
  have hy0 : y ≠ 0 := hin.value_ne_zero
  have hnear : s.child d y = addr near := hin.frame.1
  have hfar : s.child (!d) y = addr far := hout.frame.1
  have hboth : (s.black (s.left y) ∧ s.black (s.right y)) ↔
      isRed near = false ∧ isRed far = false := by
    have hleft : s.left y = s.child true y := rfl
    have hright : s.right y = s.child false y := rfl
    have hn := hin.black_eq
    have hf := hout.black_eq
    cases d with
    | true => rw [hleft, hright, hnear, show s.child false y = addr far from hfar, hn, hf]; simp
    | false => rw [hleft, hright, show s.child true y = addr far from hfar, hnear, hn, hf]; simp [and_comm]
  by_cases hred : isRed far = true
  · -- the far child of the sibling is red: one rotation
    have hnot : ¬ (s.black (s.left y) ∧ s.black (s.right y)) := fun e =>
      absurd (hboth.mp e).2 (by simp [hred])
    have hblack : ¬ s.black (addr far) = true := by
      rw [hout.black_eq, hred]
      decide
    obtain ⟨s', hrun, hs⟩ := lastRotation_run hout
    rw [mend_far hred]
    refine ⟨s', ?_, hs⟩
    simp only [removeRound, htmp, if_neg hy0, if_neg hnot, hfar, if_neg hblack,
      Option.bind_eq_bind, Option.bind_some]
    rw [hfar] at hrun
    rw [show ((s.setColor y (s.color pv)).setColor pv .black).child = s.child from rfl, hfar, hrun]
    rfl
  · rw [Bool.not_eq_true] at hred
    by_cases hn : isRed near = true
    · -- the near child is red: it takes the place of the sibling first
      obtain ⟨kz, z, nf, nn, rfl⟩ := eq_plug d (isRed_ne_nil hn)
      obtain rfl : kz = .red := by simpa using hn
      have hnot : ¬ (s.black (s.left y) ∧ s.black (s.right y)) := fun e =>
        absurd (hboth.mp e).1 (by simp)
      have hblack : s.black (addr far) = true := by rw [hout.black_eq, hred]; rfl
      have hblacken : blacken (plug nn (⟨d, .red, z, nf⟩ : Frame ℕ)) = plug nn ⟨d, .black, z, nf⟩ := by
        cases d <;> rfl
      have h₁ := blackenNode_run hin
      rw [hblacken] at h₁
      have h₂ := setColor_above h₁ .red
      obtain ⟨s₁, hrot, h₃⟩ := rotateOut_run (c := nn) h₂
      have htmp₁ : s₁.child (!d) pv = z :=
        (Holds.frame (t := plug (plug nf ⟨d, .red, y, far⟩) ⟨!d, .black, z, nn⟩) h₃).1.trans addr_plug
      have hz0 : z ≠ 0 := h₃.value_ne_zero
      obtain ⟨s', hrun, hs⟩ := lastRotation_run h₃
      have hblacken' : blacken (plug nf (⟨d, .red, y, far⟩ : Frame ℕ)) = plug nf ⟨d, .black, y, far⟩ := by
        cases d <;> rfl
      rw [hblacken'] at hs
      rw [mend_near hred]
      refine ⟨s', ?_, hs⟩
      simp only [removeRound, htmp, if_neg hy0, if_neg hnot, hfar, if_pos hblack, hnear, hrot,
        Option.bind_eq_bind, Option.bind_some, htmp₁, if_neg hz0]
      rw [show ((s₁.setColor z (s₁.color pv)).setColor pv .black).child = s₁.child from rfl, hrun]
      rfl
    · rw [Bool.not_eq_true] at hn
      rw [mend_short hn hred]
      have h₁ := setColor_above hout .red
      refine ⟨s.setColor y .red, ?_, ?_⟩
      · simp only [removeRound, htmp, if_neg hy0, if_pos (hboth.mpr ⟨hn, hred⟩)]
      · exact (zip_far ..).symm ▸ h₁

/-- The guards of the loop after a removal, at a hole that is still short. -/
theorem natTreeRemoveColor_round (fuel : ℕ) (h : Holds s (zip t (f :: fs))) (hred : isRed t = false)
    (hsib : f.sib ≠ nil) :
    natTreeRemoveColor (fuel + 1) f.value (addr t) s = (do
      let s ← if s.color (addr f.sib) = .red then
          natTreeRotate f.left f.value ((s.setColor (addr f.sib) .black).setColor f.value .red)
        else some s
      let (short, s) ← removeRound f.left f.value s
      if short then natTreeRemoveColor fuel (s.parent f.value) f.value s
      else some (s.blackenNode s.root)) := by
  have hblack : s.black (addr t) = true := by rw [h.black_eq, hred]; rfl
  have hside : (decide (s.left f.value = addr t) : Bool) = f.left := by
    rw [Bool.eq_iff_iff, decide_eq_true_eq]
    exact h.left_iff (.inr hsib)
  have htmp : addr f.sib ≠ 0 := Holds.addr_ne_zero (zip_sib t f fs ▸ h) hsib
  rw [natTreeRemoveColor, if_pos ⟨hblack, h.ne_root⟩, if_neg h.value_ne_zero]
  simp only [hside, h.frame.2.1, if_neg htmp]

/-- A red sibling: it goes up, and the parent gets red under it. -/
theorem redSibling_run {pv : ℕ} {near far : RedBlack.Tree ℕ}
    (h : Holds s (zip t (⟨d, k, pv, plug near ⟨d, .red, y, far⟩⟩ :: fs))) :
    ∃ s', natTreeRotate d pv ((s.setColor y .black).setColor pv .red) = some s' ∧
      Holds s' (zip t (⟨d, .red, pv, near⟩ :: ⟨d, .black, y, far⟩ :: fs)) := by
  have hout : Holds s (zip far (⟨!d, .red, y, near⟩ :: ⟨!d, k, pv, t⟩ :: fs)) := zip_far .. ▸ h
  have h₁ := setColor_above hout .black
  have h₂ : Holds ((s.setColor y .black).setColor pv .red)
      (zip (plug (plug far ⟨!d, .black, y, near⟩) ⟨!d, .red, pv, t⟩) fs) :=
    setColor_above (t := plug far ⟨!d, .black, y, near⟩) h₁ .red
  obtain ⟨s', hrun, hs⟩ := rotate_run h₂
  refine ⟨s', hrun, ?_⟩
  have hend : zip t (⟨d, .red, pv, near⟩ :: ⟨d, .black, y, far⟩ :: fs) =
      zip (plug (plug near ⟨!d, .red, pv, t⟩) ⟨d, .black, y, far⟩) fs := by
    cases d <;> rfl
  rw [hend]
  exact hs

/-- When the parent is short it is at the top of what the round leaves. -/
theorem addr_mend {pv : ℕ} {near far : RedBlack.Tree ℕ}
    (h : (mend d t k pv (plug near ⟨d, .black, y, far⟩)).2 = true) :
    addr (mend d t k pv (plug near ⟨d, .black, y, far⟩)).1 = pv := by
  by_cases hfar : isRed far = true
  · rw [mend_far hfar] at h
    cases h
  · rw [Bool.not_eq_true] at hfar
    by_cases hnear : isRed near = true
    · obtain ⟨kz, z, nf, nn, rfl⟩ := eq_plug d (isRed_ne_nil hnear)
      obtain rfl : kz = .red := by simpa using hnear
      rw [mend_near hfar] at h
      cases h
    · rw [Bool.not_eq_true] at hnear
      rw [mend_short hnear hfar, addr_plug]

/-- A black tree that is not empty, seen from a side. -/
theorem eq_plug_black (d : Bool) (ht : t ≠ nil) (hb : isRed t = false) :
    ∃ x b c, t = plug c (⟨d, .black, x, b⟩ : Frame ℕ) := by
  obtain ⟨k, x, b, c, rfl⟩ := eq_plug d ht
  obtain rfl : k = .black := eq_black fun e => by simp [e] at hb
  exact ⟨x, b, c, rfl⟩

theorem height_ne_nil {m : ℕ} (h : BlackHeight (m + 1) t) : t ≠ nil := by
  rintro rfl
  cases h

/-- What a round does with the flag. -/
def goOn (fuel parent : ℕ) (short : Bool) (s : TreeLinks) : Option TreeLinks :=
  if short then natTreeRemoveColor fuel (s.parent parent) parent s
  else some (s.blackenNode s.root)

theorem blackSibling_round (fuel : ℕ) (h : Holds s (zip t (f :: fs)))
    (hred : isRed t = false) (hsib : f.sib ≠ nil) (hsb : isRed f.sib = false) :
    ∃ s', natTreeRemoveColor (fuel + 1) f.value (addr t) s =
        goOn fuel f.value (mend f.left t f.color f.value f.sib).2 s' ∧
      Holds s' (zip (mend f.left t f.color f.value f.sib).1 fs) ∧
      ((mend f.left t f.color f.value f.sib).2 = true →
        addr (mend f.left t f.color f.value f.sib).1 = f.value) := by
  have hround := natTreeRemoveColor_round fuel h hred hsib
  have hblack : ¬ s.color (addr f.sib) = .red := by
    rw [(Holds.node (zip_sib t f fs ▸ h) hsib).2, hsb]
    decide
  obtain ⟨d, k, pv, sib⟩ := f
  obtain ⟨y, far, near, rfl⟩ := eq_plug_black d hsib hsb
  obtain ⟨s', hrun, hs⟩ := removeRound_run h
  refine ⟨s', ?_, hs, addr_mend⟩
  rw [hround, if_neg hblack]
  simp only [Option.bind_eq_bind, Option.bind_some, hrun]
  rfl

theorem redSibling_round {tl tr : RedBlack.Tree ℕ} (fuel : ℕ)
    (h : Holds s (zip t (f :: fs))) (hred : isRed t = false) (hsib : f.sib = .node (.red, y) tl tr)
    (hnear : (if f.left then tl else tr) ≠ nil)
    (hnb : isRed (if f.left then tl else tr) = false) :
    ∃ s', natTreeRemoveColor (fuel + 1) f.value (addr t) s =
        goOn fuel f.value (mend f.left t .red f.value (if f.left then tl else tr)).2 s' ∧
      Holds s' (zip (mend f.left t .red f.value (if f.left then tl else tr)).1
        (⟨f.left, .black, y, if f.left then tr else tl⟩ :: fs)) ∧
      ((mend f.left t .red f.value (if f.left then tl else tr)).2 = true →
        addr (mend f.left t .red f.value (if f.left then tl else tr)).1 = f.value) := by
  have hne : f.sib ≠ nil := by simp [hsib]
  have hround := natTreeRemoveColor_round fuel h hred hne
  have hcolor : s.color (addr f.sib) = .red := by
    rw [(Holds.node (zip_sib t f fs ▸ h) hne).2, hsib]
    rfl
  obtain ⟨d, k, pv, sib⟩ := f
  have hform : sib = plug (if d then tl else tr) ⟨d, .red, y, if d then tr else tl⟩ := by
    rw [show sib = .node (.red, y) tl tr from hsib]
    cases d <;> rfl
  subst hform
  obtain ⟨s₁, hrun₁, h₁⟩ := redSibling_run h
  obtain ⟨z, far, near, heq⟩ := eq_plug_black d hnear hnb
  simp only at hnear hnb heq hround hcolor hrun₁ h₁ ⊢
  rw [heq] at h₁ ⊢
  obtain ⟨s', hrun, hs⟩ := removeRound_run h₁
  refine ⟨s', ?_, hs, addr_mend⟩
  rw [hround, if_pos hcolor]
  rw [addr_plug]
  simp only [Option.bind_eq_bind, hrun₁, Option.bind_some, hrun]
  rfl

/-- The loop after a removal, from the hole upwards. -/
theorem natTreeRemoveColor_run {m : ℕ} (h : Holds s (zip t fs)) (hn : NoRedRed (blacken t))
    (hm : BlackHeight m t) (hfs : FramesOk fs) (hfits : Fits (m + 1) fs)
    (hfuel : fs.length + 1 < fuel) :
    ∃ s', natTreeRemoveColor fuel (above fs) (addr t) s = some s' ∧
      Holds s' (removeColor t fs) := by
  fun_induction removeColor t fs generalizing s fuel m with
  | case1 t => exact natTreeRemoveColor_done h (by omega) (.inr rfl)
  | case2 t f fs hred => exact natTreeRemoveColor_done h (by omega) (.inl hred)
  | case3 t f fs hred y tl tr hsib near =>
    rename_i r up hshort
    obtain ⟨fuel, rfl⟩ := Nat.exists_eq_succ_of_ne_zero (show fuel ≠ 0 by omega)
    rw [Bool.not_eq_true] at hred
    obtain ⟨-, hnear, -, -⟩ := red_sib hfs hfits hsib
    rw [blacken_of_black hred] at hn
    have hmend : Mended .red m r := mend_ok f.left hn hm hnear.1 hnear.2.1 hnear.2.2
    have hr : isRed r.1 = true := hmend.1
    obtain ⟨s₁, hround, h₁, haddr⟩ := redSibling_round fuel h hred hsib
      (height_ne_nil hnear.2.2) hnear.2.1
    -- the parent is red now, so the loop ends there
    obtain ⟨s', hrun, hs⟩ := natTreeRemoveColor_done (q := s₁.parent f.value) h₁
      (show 0 < fuel by omega) (.inl hr)
    refine ⟨s', ?_, hs⟩
    rw [haddr hshort] at hrun
    exact hround.trans ((if_pos hshort).trans hrun)
  | case4 t f fs hred y tl tr hsib near =>
    rename_i r up hshort
    obtain ⟨fuel, rfl⟩ := Nat.exists_eq_succ_of_ne_zero (show fuel ≠ 0 by omega)
    rw [Bool.not_eq_true] at hred
    obtain ⟨-, hnear, -, -⟩ := red_sib hfs hfits hsib
    obtain ⟨s₁, hround, h₁, -⟩ := redSibling_round fuel h hred hsib
      (height_ne_nil hnear.2.2) hnear.2.1
    exact ⟨_, hround.trans (if_neg hshort), h₁.blacken_root⟩
  | case5 t f fs hred hsib r =>
    rename_i hshort ih
    obtain ⟨fuel, rfl⟩ := Nat.exists_eq_succ_of_ne_zero (show fuel ≠ 0 by omega)
    rw [Bool.not_eq_true] at hred
    have hsb := isRed_of_ne hsib
    rw [blacken_of_black hred] at hn
    have hmend : Mended f.color m r := mend_ok f.left hn hm hfs.1 hsb hfits.1
    rw [Mended, if_pos hshort] at hmend
    obtain ⟨-, hok, hheight⟩ := hmend
    have hfit := hfits.2
    rw [grow_succ] at hfit
    obtain ⟨s₁, hround, h₁, haddr⟩ := blackSibling_round fuel h hred
      (height_ne_nil hfits.1) hsb
    have haddr' : addr r.1 = f.value := haddr hshort
    have hlen : fs.length + 1 < fuel := by
      simp only [List.length_cons] at hfuel
      omega
    obtain ⟨s', hrun, hs⟩ := ih h₁ hok hheight hfs.2.2 hfit hlen
    refine ⟨s', ?_, hs⟩
    have hpar : s₁.parent f.value = above fs := by
      have hr : r.1 ≠ nil := fun e => h.value_ne_zero (by rw [← haddr', e]; rfl)
      rw [← haddr']
      exact (Holds.node h₁ hr).1
    rw [← hpar, haddr'] at hrun
    exact hround.trans ((if_pos hshort).trans hrun)
  | case6 t f fs hred hsib r =>
    rename_i hshort
    obtain ⟨fuel, rfl⟩ := Nat.exists_eq_succ_of_ne_zero (show fuel ≠ 0 by omega)
    rw [Bool.not_eq_true] at hred
    obtain ⟨s₁, hround, h₁, -⟩ := blackSibling_round fuel h hred
      (height_ne_nil hfits.1) (isRed_of_ne hsib)
    exact ⟨_, hround.trans (if_neg hshort), h₁.blacken_root⟩

end TreeLinks
end WanStack.Aftr
