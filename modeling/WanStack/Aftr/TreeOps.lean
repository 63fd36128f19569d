import WanStack.Aftr.TreeRuns

set_option autoImplicit false

/-!
# Insertion, removal and the walk over the NAT tree

On the fields that hold a balanced tree, the operations end with fields that hold the tree
that the operations on trees give, and the walk from the minimum meets the entries in order.
-/
namespace WanStack.Aftr
open BinaryTree SearchTree FieldOrder RedBlack

namespace TreeLinks

variable {s s' : TreeLinks} {t l r : RedBlack.Tree ℕ} {f : Frame ℕ} {fs gs : List (Frame ℕ)}
  {k : Color} {n q x y fuel : ℕ}

theorem length_le_around (fs : List (Frame ℕ)) : fs.length ≤ (around fs).length := by
  induction fs with
  | nil => exact Nat.zero_le _
  | cons f fs ih =>
    simp only [around, before, after, List.length_append] at ih ⊢
    cases f.left <;> simp <;> omega

theorem length_le_zip (t : RedBlack.Tree ℕ) (fs : List (Frame ℕ)) :
    fs.length + (list t).length ≤ (list (zip t fs)).length := by
  have hlen := (list_zip_perm t fs).length_eq
  have haround := length_le_around fs
  rw [List.length_append] at hlen
  omega

/-- The last comparison says on which side of the frame above a hole the hole is. -/
def Side (comp : ℤ) (fs : List (Frame ℕ)) : Prop := ∀ f ∈ fs.head?, comp < 0 ↔ f.left = true

section
variable (cmp : ℕ → ℕ → ℤ) (n : ℕ)

/-- One step of the search, down to a side. -/
theorem insertPlace_step (fuel : ℕ) (comp : ℤ) (h : Holds s (zip (node (k, y) l r) fs)) :
    insertPlace cmp n (fuel + 1) y (above fs) comp s =
      if cmp n y < 0 then insertPlace cmp n fuel (addr l) y (cmp n y) s
      else if cmp n y > 0 then insertPlace cmp n fuel (addr r) y (cmp n y) s
      else some (.error y) := by
  have hy0 : y ≠ 0 := h.addr_ne_zero (by simp)
  obtain ⟨⟨hleft, hright, -⟩, -⟩ := holds_zip.mp h
  rw [insertPlace, if_neg hy0, hleft, hright]

/-- The search goes where the descent in the tree goes. -/
theorem insertPlace_run {comp : ℤ} (h : Holds s (zip t fs)) (hside : Side comp fs)
    (hfuel : (list t).length < fuel) :
    (∃ x, descend (cmp n) t fs = .error x ∧
      insertPlace cmp n fuel (addr t) (above fs) comp s = some (.error x)) ∨
    ∃ gs comp', descend (cmp n) t fs = .ok gs ∧ Side comp' gs ∧
      insertPlace cmp n fuel (addr t) (above fs) comp s = some (.ok (above gs, comp')) := by
  induction t generalizing fs fuel comp with
  | nil =>
    obtain ⟨fuel, rfl⟩ := Nat.exists_eq_succ_of_ne_zero (show fuel ≠ 0 by omega)
    exact .inr ⟨fs, comp, rfl, hside, if_pos rfl⟩
  | node p l r ihl ihr =>
    obtain ⟨k, y⟩ := p
    obtain ⟨fuel, rfl⟩ := Nat.exists_eq_succ_of_ne_zero (show fuel ≠ 0 by omega)
    simp only [list_node, List.length_append, List.length_cons] at hfuel
    have hstep := insertPlace_step cmp n fuel comp h
    rw [descend]
    change (∃ x, _ ∧ insertPlace cmp n (fuel + 1) y (above fs) comp s = _) ∨
      ∃ gs comp', _ ∧ _ ∧ insertPlace cmp n (fuel + 1) y (above fs) comp s = _
    rw [hstep]
    by_cases hneg : cmp n y < 0
    · rw [if_pos hneg, if_pos hneg]
      have hnext : Side (cmp n y) (⟨true, k, y, r⟩ :: fs) := by
        rintro f ⟨⟩
        simp [hneg]
      exact ihl h hnext (by omega)
    · rw [if_neg hneg, if_neg hneg]
      by_cases hpos : cmp n y > 0
      · rw [if_pos hpos, if_pos hpos]
        have hnext : Side (cmp n y) (⟨false, k, y, l⟩ :: fs) := by
          rintro f ⟨⟩
          simpa using hneg
        exact ihr h hnext (by omega)
      · rw [if_neg hpos, if_neg hpos]
        exact .inl ⟨y, rfl, rfl⟩

/-- What goes in is not in the tree when nothing in the tree is equal to it. -/
theorem natTreeInsert_run (h : Holds s t) (hbal : Balanced t) (hn0 : n ≠ 0)
    (hnew : (RedBlack.insert (cmp n) n t).2 = none → n ∉ list t) (hfuel : (list t).length < fuel) :
    ∃ s', natTreeInsert cmp fuel n s = some (s', ((RedBlack.insert (cmp n) n t).2).getD 0) ∧
      Holds s' (RedBlack.insert (cmp n) n t).1 ∧ ((RedBlack.insert (cmp n) n t).2 ≠ none → s' = s) := by
  have hzip : Holds s (zip t []) := h
  have hside : Side 0 ([] : List (Frame ℕ)) := fun f hf => by cases hf
  have hplace := insertPlace_run cmp n hzip hside hfuel
  simp only [natTreeInsert, h.root]
  unfold RedBlack.insert at hnew ⊢
  obtain ⟨x, hd, hrun⟩ | ⟨gs, comp, hd, hside, hrun⟩ := hplace
  · refine ⟨s, ?_, ?_, ?_⟩ <;> rw [hd]
    · rw [show above ([] : List (Frame ℕ)) = 0 from rfl] at hrun
      simp only [hrun]
      rfl
    · exact h
    · exact fun _ => rfl
  · rw [hd] at hnew ⊢
    have hgs : zip nil gs = t := zip_descend hd
    have hleaf : Holds s (zip nil gs) := hgs ▸ h
    have hn : n ∉ list (zip nil gs) := hgs ▸ hnew rfl
    obtain ⟨-, -, hfs, -⟩ := balanced_zip.mp (hgs ▸ hbal)
    have hlen : gs.length < fuel := by
      have hle := length_le_zip nil gs
      rw [hgs] at hle
      omega
    obtain ⟨s', hcolor, hs⟩ := natTreeInsertColor_run (attach_run hleaf hn hn0 hside) rfl hfs hlen
    refine ⟨s', ?_, hs, fun e => absurd rfl e⟩
    rw [show above ([] : List (Frame ℕ)) = 0 from rfl] at hrun
    simp only [hrun, Option.bind_eq_bind, Option.bind_some]
    rw [show addr (node (.red, n) nil nil) = n from rfl] at hcolor
    simp only [hcolor]
    rfl

end

theorem leftEnd_run {kn : Color} {child : RedBlack.Tree ℕ} (h : Mem s q (node (k, x) l r))
    (hnull : 0 ∉ list l) (hlm : leftmost k x r l fs = (kn, y, child, gs))
    (hfuel : (list l).length < fuel) : leftEnd fuel x s = some y := by
  fun_induction leftmost k x r l fs generalizing q fuel with
  | case1 k x r fs =>
    obtain ⟨fuel, rfl⟩ := Nat.exists_eq_succ_of_ne_zero (show fuel ≠ 0 by omega)
    simp only [Prod.mk.injEq] at hlm
    obtain ⟨-, rfl, -, -⟩ := hlm
    exact if_pos h.1
  | case2 k x r k' x' l' r' fs ih =>
    obtain ⟨fuel, rfl⟩ := Nat.exists_eq_succ_of_ne_zero (show fuel ≠ 0 by omega)
    simp only [list_node, List.mem_append, List.mem_cons, not_or, List.length_append,
      List.length_cons] at hnull hfuel
    have hleft : s.left x = x' := h.1
    rw [leftEnd, hleft, if_neg (Ne.symm hnull.2.1)]
    exact ih h.2.2.2.2.1 hnull.1 hlm (by omega)

/-- From below the root the loop without a body gets there. -/
theorem climb_run (h : Holds s (zip t fs)) (ht : t ≠ nil) (hfuel : fs.length < fuel) :
    climb fuel (addr t) s = some () := by
  induction fs generalizing t fuel with
  | nil =>
    obtain ⟨fuel, rfl⟩ := Nat.exists_eq_succ_of_ne_zero (show fuel ≠ 0 by omega)
    exact if_pos (h.node ht).1
  | cons f fs ih =>
    obtain ⟨fuel, rfl⟩ := Nat.exists_eq_succ_of_ne_zero (show fuel ≠ 0 by omega)
    have hup : Holds s (zip (plug t f) fs) := h
    have hlen : fs.length < fuel := by
      rw [List.length_cons] at hfuel
      omega
    have hih := ih hup (zip_ne_nil ht [f]) hlen
    rw [climb, (h.node ht).1, if_neg (show above (f :: fs) ≠ 0 from h.value_ne_zero)]
    rw [addr_plug] at hih
    exact hih

theorem climb_above (h : Holds s (zip t (f :: fs))) (hfuel : fs.length < fuel) :
    climb fuel f.value s = some () := by
  have hup : Holds s (zip (plug t f) fs) := h
  have hne : plug t f ≠ nil := by
    unfold plug
    split <;> simp
  have hclimb := climb_run hup hne hfuel
  rwa [addr_plug] at hclimb

theorem value_mem (gs : List (Frame ℕ)) : f.value ∈ around (gs ++ f :: fs) := by
  induction gs with
  | nil => exact mem_around (.inr (.inl rfl))
  | cons g gs ih => exact mem_around (.inr (.inr ih))

theorem splice_run {c : RedBlack.Tree ℕ} {m : ℕ} (h : Holds s (zip c fs)) (hn : NoRedRed c)
    (hm : BlackHeight m c) (hfs : FramesOk fs) (hfits : Fits (grow k m) fs)
    (hfuel : fs.length + 1 < fuel) :
    ∃ s', (if k = .black then natTreeRemoveColor fuel (above fs) (addr c) s else some s) = some s' ∧
      Holds s' (splice k c fs) := by
  cases k with
  | red => exact ⟨s, rfl, h⟩
  | black => exact natTreeRemoveColor_run h hn.blacken hm hfs hfits hfuel

/-- A node with one child at most. -/
theorem natTreeRemove_one {c : RedBlack.Tree ℕ} (h : Holds s (zip (node (k, n) l r) fs))
    (hbal : Balanced (zip (node (k, n) l r) fs)) (hc : Only c l r)
    (hchild : (if s.left n = 0 then s.right n else s.left n) = addr c)
    (hzero : s.left n = 0 ∨ s.right n = 0) (hfuel : fs.length + 1 < fuel) :
    ∃ s', natTreeRemove fuel n s = some s' ∧ Holds s' (splice k c fs) := by
  obtain ⟨⟨-, hnl, hnr⟩, -, hfs, _, ⟨m, rfl, hml, hmr⟩, hfits⟩ := balanced_zip.mp hbal
  have hcn : NoRedRed c ∧ BlackHeight m c := by
    obtain ⟨-, rfl⟩ | ⟨-, rfl⟩ := hc
    · exact ⟨hnr, hmr⟩
    · exact ⟨hnl, hml⟩
  have hparent : s.parent n = above fs := (holds_zip.mp h).1.2.2.1
  have hcolor : s.color n = k := (holds_zip.mp h).1.2.2.2.1
  obtain ⟨s', hrun, hs⟩ := splice_run (unlink_run h hc) hcn.1 hcn.2 hfs hfits hfuel
  refine ⟨s', ?_, hs⟩
  rw [natTreeRemove, if_pos hzero, hchild, hparent, hcolor]
  exact hrun

/-- A node with two children: its successor takes its place. -/
theorem natTreeRemove_two {kn : Color} {l' r' child : RedBlack.Tree ℕ} {k' : Color} {x' : ℕ}
    (h : Holds s (zip (node (k, n) l (node (k', x') l' r')) fs))
    (hbal : Balanced (zip (node (k, n) l (node (k', x') l' r')) fs)) (hl : l ≠ nil)
    (hlm : leftmost k' x' r' l' [] = (kn, y, child, gs))
    (hfuel : (list (zip (node (k, n) l (node (k', x') l' r')) fs)).length + 1 < fuel) :
    ∃ s', natTreeRemove fuel n s = some s' ∧
      Holds s' (splice kn child (gs ++ ⟨false, k, y, l⟩ :: fs)) := by
  have hzip : zip (node (kn, y) nil child) (gs ++ ⟨false, k, n, l⟩ :: fs) =
      zip (node (k, n) l (node (k', x') l' r')) fs := by
    rw [zip_append, zip_leftmost hlm]
    rfl
  have h₀ : Holds s (zip (node (kn, y) nil child) (gs ++ ⟨false, k, n, l⟩ :: fs)) := hzip ▸ h
  obtain ⟨⟨-, -, hnc⟩, -, hfs, _, ⟨m, rfl, -, hm⟩, hfits⟩ := balanced_zip.mp (hzip ▸ hbal)
  obtain ⟨⟨hleft, hright, hparent, hcolor, hmem, hmemr⟩, -⟩ := holds_zip.mp h
  obtain ⟨⟨-, hyr, hyp, hyk, -⟩, -, hnd, hnull⟩ := holds_zip.mp h₀
  have hperm : (list (zip (node (kn, y) nil child) (gs ++ ⟨false, k, n, l⟩ :: fs))).Perm
      (y :: (list child ++ around (gs ++ ⟨false, k, n, l⟩ :: fs))) := only_perm (.inl ⟨rfl, rfl⟩)
  have hparts := hperm.nodup_iff.mp hnd
  have hzero := mt hperm.mem_iff.mpr hnull
  simp only [List.nodup_cons, List.nodup_append, List.mem_cons, List.mem_append, not_or]
    at hparts hzero
  obtain ⟨⟨hyc, hyf⟩, -, hfnd, -⟩ := hparts
  have hy0 : y ≠ 0 := Ne.symm hzero.1
  have hn0 : ¬ (s.left n = 0 ∨ s.right n = 0) := by
    rw [hleft, hright]
    have hin : Holds s (zip l (⟨true, k, n, node (k', x') l' r'⟩ :: fs)) := h
    have hin' : Holds s (zip (node (k', x') l' r') (⟨false, k, n, l⟩ :: fs)) := h
    exact fun e => e.elim (hin.addr_ne_zero hl) (hin'.addr_ne_zero (by simp))
  have hend : leftEnd fuel (s.right n) s = some y := by
    have hin : Holds s (zip l' (⟨true, k', x', r'⟩ :: ⟨false, k, n, l⟩ :: fs)) := h
    have hperm' := list_zip_perm l' (⟨true, k', x', r'⟩ :: ⟨false, k, n, l⟩ :: fs)
    have hlen := length_le_zip l' (⟨true, k', x', r'⟩ :: ⟨false, k, n, l⟩ :: fs)
    rw [hright]
    refine leftEnd_run hmemr (fun hz => ?_) hlm ?_
    · exact hin.null (hperm'.mem_iff.mpr (List.mem_append_left _ hz))
    · have heq : zip l' (⟨true, k', x', r'⟩ :: ⟨false, k, n, l⟩ :: fs) =
          zip (node (k, n) l (node (k', x') l' r')) fs := rfl
      rw [heq] at hlen
      omega
  -- the successor leaves its place
  have h₁ := unlink_run h₀ (.inl ⟨rfl, rfl⟩)
  have hsame : Same (s.unlink y (addr child) (above (gs ++ ⟨false, k, n, l⟩ :: fs))) s y :=
    same_unlink (ne_addr hyc hy0) (ne_above hyf hy0)
  -- and takes the place of the node that is removed
  have h₁' : Holds (s.unlink y (addr child) (above (gs ++ ⟨false, k, n, l⟩ :: fs)))
      (zip (node (k, n) l (zip child gs)) fs) := by
    rw [zip_append] at h₁
    exact h₁
  have hyout : y ∉ list (zip (node (k, n) l (zip child gs)) fs) := by
    have hperm₁ := list_zip_perm child (gs ++ ⟨false, k, n, l⟩ :: fs)
    rw [zip_append] at hperm₁
    exact fun e => (List.mem_append.mp (hperm₁.mem_iff.mp e)).elim hyc hyf
  obtain ⟨s₂, hrun₂, h₂⟩ := transplant_run h₁' hl hyout hy0
  have h₂' : Holds s₂ (zip child (gs ++ ⟨false, k, y, l⟩ :: fs)) := by
    rw [zip_append]
    exact h₂
  have habove : (if s.parent y = n then y else s.parent y) = above (gs ++ ⟨false, k, y, l⟩ :: fs) := by
    rw [hyp]
    cases gs with
    | nil => exact if_pos rfl
    | cons g gs =>
      refine if_neg fun e => ?_
      have hg : g.value = n := e
      exact (nodup_around hfnd).2.1 (hg ▸ value_mem (f := ⟨false, k, n, l⟩) gs)
  have hlen : (gs ++ ⟨false, k, y, l⟩ :: fs : List (Frame ℕ)).length + 1 < fuel := by
    have hle := length_le_zip (node (kn, y) nil child) (gs ++ ⟨false, k, n, l⟩ :: fs)
    rw [hzip] at hle
    simp only [List.length_append, List.length_cons] at hle ⊢
    omega
  have hclimb : climb fuel (above (gs ++ ⟨false, k, y, l⟩ :: fs)) s₂ = some () ∧
      above (gs ++ ⟨false, k, y, l⟩ :: fs) ≠ 0 := by
    cases gs with
    | nil => exact ⟨climb_above h₂' (by simp at hlen ⊢; omega), h₂'.value_ne_zero⟩
    | cons g gs => exact ⟨climb_above h₂' (by simp at hlen ⊢; omega), h₂'.value_ne_zero⟩
  obtain ⟨s', hrun, hs⟩ := splice_run h₂' hnc hm (framesOk_value gs hfs) (fits_value gs hfits) hlen
  refine ⟨s', ?_, hs⟩
  have hpar : (s.unlink y (addr child) (above (gs ++ ⟨false, k, n, l⟩ :: fs))).parent y =
      s.parent y := hsame.parent
  rw [natTreeRemove, if_neg hn0]
  simp only [hend, Option.bind_eq_bind, Option.bind_some, hyr, hyk]
  rw [hyp] at hpar habove ⊢
  simp only [hpar, habove, hrun₂, Option.bind_some, if_pos hclimb.2, hclimb.1]
  exact hrun

theorem natTreeRemove_run (h : Holds s t) (hbal : Balanced t) (hn : n ∈ list t)
    (hfuel : (list t).length + 1 < fuel) :
    ∃ s', natTreeRemove fuel n s = some s' ∧ Holds s' (RedBlack.remove (· = n) t) := by
  unfold RedBlack.remove
  split
  · rename_i hnone
    exact absurd (locate_none hnone n hn) (by simp)
  · rename_i k x r fs hloc
    obtain rfl : x = n := of_decide_eq_true (locate_some hloc).1
    have hz : zip (node (k, x) nil r) fs = t := zip_locate hloc
    have hs : Holds s (zip (node (k, x) nil r) fs) := hz ▸ h
    have hleft : s.left x = 0 := (holds_zip.mp hs).1.1
    have hright : s.right x = addr r := (holds_zip.mp hs).1.2.1
    have hlen := length_le_zip (node (k, x) nil r) fs
    rw [hz] at hlen
    exact natTreeRemove_one hs (hz ▸ hbal) (.inl ⟨rfl, rfl⟩) (by rw [if_pos hleft, hright])
      (.inl hleft) (by omega)
  · rename_i k x l fs hl hloc
    obtain rfl : x = n := of_decide_eq_true (locate_some hloc).1
    have hz : zip (node (k, x) l nil) fs = t := zip_locate hloc
    have hs : Holds s (zip (node (k, x) l nil) fs) := hz ▸ h
    have hleft : s.left x = addr l := (holds_zip.mp hs).1.1
    have hright : s.right x = 0 := (holds_zip.mp hs).1.2.1
    have hin : Holds s (zip l (⟨true, k, x, nil⟩ :: fs)) := hs
    have hne : s.left x ≠ 0 := hleft ▸ hin.addr_ne_zero hl
    have hlen := length_le_zip (node (k, x) l nil) fs
    rw [hz] at hlen
    exact natTreeRemove_one hs (hz ▸ hbal) (.inr ⟨rfl, rfl⟩) (by rw [if_neg hne, hleft])
      (.inr hright) (by omega)
  · rename_i k x l k' x' l' r' fs hl hloc
    obtain rfl : x = n := of_decide_eq_true (locate_some hloc).1
    have hz : zip (node (k, x) l (node (k', x') l' r')) fs = t := zip_locate hloc
    have hs : Holds s (zip (node (k, x) l (node (k', x') l' r')) fs) := hz ▸ h
    cases hlm : leftmost k' x' r' l' [] with
    | mk kn rest =>
      obtain ⟨y, child, below⟩ := rest
      exact natTreeRemove_two hs (hz ▸ hbal) hl hlm (hz ▸ hfuel)

theorem head_leftmost {kn : Color} {child : RedBlack.Tree ℕ}
    (hlm : leftmost k x r l [] = (kn, y, child, gs)) :
    (list (node (k, x) l r)).head? = some y := by
  have hlist := list_leftmost hlm
  have hbefore := before_leftmost hlm
  simp only [before, after, List.nil_append, List.append_nil] at hlist hbefore
  rw [list_node, hlist, hbefore]
  rfl

/-- The left end of a subtree is its first entry. -/
theorem leftEnd_head (h : Mem s q t) (ht : t ≠ nil) (hnull : 0 ∉ list t)
    (hfuel : (list t).length < fuel) :
    leftEnd fuel (addr t) s = some ((list t).head?.getD 0) := by
  rcases t with - | ⟨⟨k, x⟩, l, r⟩
  · exact absurd rfl ht
  · cases hlm : leftmost k x r l [] with
    | mk kn rest =>
      obtain ⟨y, child, below⟩ := rest
      rw [head_leftmost hlm]
      simp only [list_node, List.mem_append, not_or, List.length_append] at hnull hfuel
      exact leftEnd_run h hnull.1 hlm (by omega)

theorem natTreeMin_run (h : Holds s t) (hfuel : (list t).length < fuel) :
    natTreeMin fuel s = some ((list t).head?.getD 0) := by
  by_cases ht : t = nil
  · subst ht
    exact if_pos h.root
  · have h0 : s.root ≠ 0 := by
      rw [h.root]
      exact fun e => ht ((addr_eq_zero h.null).mp e)
    rw [natTreeMin, if_neg h0, h.root]
    exact leftEnd_head h.mem ht h.null hfuel

/-- Up from a position to the first node that it is left of. -/
theorem rightTop_run (h : Holds s (zip t fs)) (ht : t ≠ nil) (hfuel : fs.length < fuel) :
    (rightTop fuel (addr t) s).map s.parent = some ((after fs).head?.getD 0) := by
  induction fs generalizing t fuel with
  | nil =>
    obtain ⟨fuel, rfl⟩ := Nat.exists_eq_succ_of_ne_zero (show fuel ≠ 0 by omega)
    have hparent : s.parent (addr t) = 0 := (h.node ht).1
    rw [rightTop, if_neg fun e => e.1 hparent, Option.map_some, hparent]
    rfl
  | cons f fs ih =>
    obtain ⟨fuel, rfl⟩ := Nat.exists_eq_succ_of_ne_zero (show fuel ≠ 0 by omega)
    have hparent : s.parent (addr t) = f.value := (h.node ht).1
    have hside := h.right_iff (.inl ht)
    have hup : Holds s (zip (plug t f) fs) := h
    have hlen : fs.length < fuel := by
      rw [List.length_cons] at hfuel
      omega
    rw [rightTop, hparent]
    cases hd : f.left with
    | true =>
      have hnot : ¬ (f.value ≠ 0 ∧ addr t = s.right f.value) := by
        rintro ⟨-, e⟩
        rw [hside.mp e.symm] at hd
        cases hd
      rw [if_neg hnot, Option.map_some, hparent, after, hd]
      rfl
    | false =>
      have hih := ih hup (zip_ne_nil ht [f]) hlen
      rw [addr_plug] at hih
      rw [if_pos ⟨h.value_ne_zero, (hside.mpr hd).symm⟩, hih, after, hd]
      rfl

/-- The successor is the next entry in the order. -/
theorem natTreeNext_run (h : Holds s (zip (node (k, n) l r) fs))
    (hfuel : (list (zip (node (k, n) l r) fs)).length < fuel) :
    natTreeNext fuel n s = some ((list r ++ after fs).head?.getD 0) := by
  obtain ⟨⟨-, hright, hparent, -, -, hmem⟩, -⟩ := holds_zip.mp h
  have hin : Holds s (zip r (⟨false, k, n, l⟩ :: fs)) := h
  have hperm := list_zip_perm r (⟨false, k, n, l⟩ :: fs)
  have hlen := length_le_zip r (⟨false, k, n, l⟩ :: fs)
  have hsame : zip r (⟨false, k, n, l⟩ :: fs) = zip (node (k, n) l r) fs := rfl
  rw [hsame, List.length_cons] at hlen
  by_cases hr : r = nil
  · subst hr
    have hzero : ¬ s.right n ≠ 0 := fun e => e hright
    have htop := rightTop_run h (by simp) (show fs.length < fuel by omega)
    rw [natTreeNext, if_neg hzero]
    cases fs with
    | nil => rw [if_neg fun e => e.1 hparent]; exact htop
    | cons f fs =>
      have hside := h.left_iff (.inl (by simp))
      have hpar : s.parent n = f.value := hparent
      rw [hpar]
      cases hd : f.left with
      | true =>
        rw [if_pos ⟨h.value_ne_zero, (hside.mpr hd).symm⟩, after, hd]
        rfl
      | false =>
        have hnot : ¬ (f.value ≠ 0 ∧ n = s.left f.value) := by
          rintro ⟨-, e⟩
          rw [hside.mp e.symm] at hd
          cases hd
        rw [if_neg hnot]
        exact htop
  · have hne : s.right n ≠ 0 := hright ▸ hin.addr_ne_zero hr
    have hhead : (list r ++ after fs).head? = (list r).head? :=
      List.head?_append_of_ne_nil _ (List.ne_nil_of_mem (addr_mem hr))
    rw [natTreeNext, if_pos hne, hright, hhead]
    refine leftEnd_head hmem hr (fun hz => ?_) (by omega)
    exact hin.null (hperm.mem_iff.mpr (List.mem_append_left _ hz))

/-- The next entry after one of the tree, and none after the last. -/
theorem natTreeNext_list {l₁ l₂ : List ℕ} (h : Holds s t) (hlist : list t = l₁ ++ x :: l₂)
    (hfuel : (list t).length < fuel) : natTreeNext fuel x s = some (l₂.head?.getD 0) := by
  cases hloc : locate (fun y => y = x) t [] with
  | none => exact absurd (locate_none hloc x (by simp [hlist])) (by simp)
  | some pos =>
    obtain ⟨k, z, l, r, fs⟩ := pos
    obtain rfl : z = x := of_decide_eq_true (locate_some hloc).1
    have hz : zip (node (k, z) l r) fs = t := zip_locate hloc
    have hnext := natTreeNext_run (hz ▸ h) (hz ▸ hfuel)
    have hparts : l₁ ++ z :: l₂ = (before fs ++ list l) ++ z :: (list r ++ after fs) := by
      rw [← hlist, ← hz, list_zip]
      simp
    have hnd := h.nodup
    rw [hlist, List.nodup_append, List.nodup_cons] at hnd
    have hl₁ : z ∉ l₁ := fun e => hnd.2.2 z e z List.mem_cons_self rfl
    obtain ⟨-, -, rfl⟩ := (List.append_cons_inj_of_notMem hl₁ hnd.2.1.1).mp hparts
    exact hnext

/-- `for (n = nat_tree_min(pr); n != NULL; n = nat_tree_next(n))`: the nodes met. -/
def walkFrom (fuel : ℕ) (s : TreeLinks) : ℕ → ℕ → Option (List ℕ)
  | 0, _ => none
  | steps + 1, n =>
    if n = 0 then some []
    else do
      let m ← natTreeNext fuel n s
      let l ← walkFrom fuel s steps m
      return n :: l

theorem walkFrom_run {l₁ l₂ : List ℕ} (h : Holds s t) (hlist : list t = l₁ ++ l₂)
    (hfuel : (list t).length < fuel) :
    walkFrom fuel s (l₂.length + 1) (l₂.head?.getD 0) = some l₂ := by
  induction l₂ generalizing l₁ with
  | nil => exact if_pos rfl
  | cons x l₂ ih =>
    have hx0 : x ≠ 0 := fun e => h.null (by simp [hlist, e])
    have hnext := natTreeNext_list h hlist hfuel
    have hlist' : list t = (l₁ ++ [x]) ++ l₂ := by simpa using hlist
    have hih := ih hlist'
    change walkFrom fuel s (l₂.length + 1 + 1) x = some (x :: l₂)
    rw [walkFrom, if_neg hx0, hnext]
    simp only [Option.bind_eq_bind, Option.bind_some, hih]
    rfl

section
variable {cmp : ℕ → ℕ → ℤ}

/-- In a balanced search tree an insertion adds the new entry, or returns the equal one and
    changes nothing, a removal takes out the given node, both leave a balanced search tree, and
    the walk from the minimum meets every entry once, in order. -/
theorem tree_operations (h : Holds s t) (hbal : Balanced t)
    (hS : TotalOn cmp {x | x = n ∨ x ∈ list t}) (hsorted : Sorted cmp (list t))
    (hfuel : (list t).length + 1 < fuel) :
    (n ≠ 0 → ∃ s' t' r, natTreeInsert cmp fuel n s = some (s', r) ∧ Holds s' t' ∧ Balanced t' ∧
      Sorted cmp (list t') ∧
      ((r = 0 ∧ (∀ x ∈ list t, cmp n x ≠ 0) ∧ (list t').Perm (n :: list t)) ∨
        (r ∈ list t ∧ cmp n r = 0 ∧ s' = s ∧ t' = t))) ∧
    (n ∈ list t → ∃ s' t', natTreeRemove fuel n s = some s' ∧ Holds s' t' ∧ Balanced t' ∧
      Sorted cmp (list t') ∧ Removed n (list t) (list t')) ∧
    (∃ m, natTreeMin fuel s = some m ∧ walkFrom fuel s ((list t).length + 1) m = some (list t)) ∧
    (list t).Nodup := by
  have hn : n ∈ {x | x = n ∨ x ∈ list t} := .inl rfl
  have hl : ∀ x ∈ list t, x ∈ {x | x = n ∨ x ∈ list t} := fun x hx => .inr hx
  have hprobe := hsorted.probe hS hn hl
  have hlen : (list t).length < fuel := by omega
  refine ⟨fun hn0 => ?_, fun hmem => ?_, ?_, h.nodup⟩
  · have hspec := RedBlack.insert_spec (cmp n) n t
    have hnew : (RedBlack.insert (cmp n) n t).2 = none → n ∉ list t := by
      intro hnone hmem
      obtain h | ⟨x, hx, -⟩ := hspec
      · exact find_none hprobe h.2.1 n hmem (hS.self hn)
      · rw [hnone] at hx
        cases hx
    obtain ⟨s', hrun, hs, hsame⟩ := natTreeInsert_run cmp n h hbal hn0 hnew hlen
    refine ⟨s', _, _, hrun, hs, insert_balanced (cmp n) n hbal, ?_⟩
    obtain ⟨hnone, hfind, hins⟩ | ⟨x, hx, hfind, heq⟩ := hspec
    · have hneq := find_none hprobe hfind
      rw [hnone]
      exact ⟨hsorted.insert hS hn hl hneq hins, .inl ⟨rfl, hneq, hins.perm⟩⟩
    · obtain ⟨hmem, hzero⟩ := find_some hfind
      rw [heq]
      refine ⟨hsorted, .inr ⟨?_, ?_, hsame (by simp [hx]), rfl⟩⟩
      · rw [hx]
        exact hmem
      · rw [hx]
        exact hzero
  · obtain ⟨s', hrun, hs⟩ := natTreeRemove_run h hbal hmem hfuel
    obtain ⟨-, hnone⟩ | ⟨x, hx, hrem⟩ := RedBlack.remove_spec (· = n) t
    · exact absurd (hnone n hmem) (by simp)
    · obtain rfl : x = n := of_decide_eq_true hx
      exact ⟨s', _, hrun, hs, remove_balanced _ hbal, hsorted.sublist hrem.sublist, hrem⟩
  · exact ⟨_, natTreeMin_run h hlen, walkFrom_run h (List.nil_append _).symm hlen⟩

/-- A black root with two red children: the root is taken out. -/
theorem tree_operations_three :
    ∃ s' t', natTreeRemove 6 2
        ⟨fun d x => if x = 2 then if d then 1 else 3 else 0, fun x => if x = 2 then 0 else 2,
          fun x => if x = 2 then .black else .red, 2⟩ = some s' ∧ Holds s' t' ∧ Balanced t' ∧
      Removed 2 [1, 2, 3] (list t') := by
  have h : Holds ⟨fun d x => if x = 2 then if d then 1 else 3 else 0,
      fun x => if x = 2 then 0 else 2, fun x => if x = 2 then .black else .red, 2⟩
      (node (.black, 2) (node (.red, 1) nil nil) (node (.red, 3) nil nil)) :=
    ⟨rfl, by simp [Mem, left, right, addr], by decide, by decide⟩
  have hleaf : ∀ x : ℕ, BlackHeight 0 (node (.red, x) (nil : RedBlack.Tree ℕ) nil) := fun x =>
    BlackHeight.red rfl rfl
  have hbal : Balanced (node (.black, 2) (node (.red, 1) nil nil)
      (node (.red, 3) (nil : RedBlack.Tree ℕ) nil)) :=
    ⟨rfl, by simp [NoRedRed], 1, (hleaf 1).black (hleaf 3)⟩
  have hS : TotalOn (fun a b : ℕ => (a : ℤ) - b) {x | x = 2 ∨ x ∈ [1, 2, 3]} := by
    refine ⟨?_, ?_⟩
    · intro a _ b _
      rw [← Int.sign_neg, Int.neg_sub]
    · intro a _ b _ c _ h₁ h₂
      omega
  have hfuel : (list (node (.black, 2) (node (.red, 1) nil nil)
      (node (.red, 3) (nil : RedBlack.Tree ℕ) nil))).length + 1 < 6 := by decide
  obtain ⟨-, hremove, -⟩ := tree_operations h hbal hS (by simp [Sorted]) hfuel
  obtain ⟨s', t', hrun, hs, hb, -, hrem⟩ := hremove (by decide)
  exact ⟨s', t', hrun, hs, hb, hrem⟩

end

end TreeLinks
end WanStack.Aftr
