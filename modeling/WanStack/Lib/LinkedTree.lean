import Mathlib.Logic.Function.Basic
import WanStack.Lib.SearchTree

set_option autoImplicit false

/-!
# Trees of nodes in memory

A tree of addresses, and the fields of the nodes at these addresses that make memory hold
it. Address 0 is `NULL`. A write to the field of a node says nothing about a tree the node
is not part of.
-/
namespace WanStack.LinkedTree
open BinaryTree SearchTree

/-- The address of the root. -/
def ptr : BinaryTree ℕ → ℕ
  | nil => 0
  | node x _ _ => x

@[simp] theorem ptr_nil : ptr nil = 0 := rfl

@[simp] theorem ptr_node (x : ℕ) (l r : BinaryTree ℕ) : ptr (node x l r) = x := rfl

/-- The child fields of all nodes. -/
def Kids (left right : ℕ → ℕ) : BinaryTree ℕ → Prop
  | nil => True
  | node x l r => left x = ptr l ∧ right x = ptr r ∧ Kids left right l ∧ Kids left right r

variable {left right left' right' : ℕ → ℕ} {t : BinaryTree ℕ} {q x : ℕ}

theorem ptr_mem (h : t ≠ nil) : ptr t ∈ toList t := by
  cases t with
  | nil => exact absurd rfl h
  | node x l r => simp

theorem ptr_eq_zero (h : 0 ∉ toList t) : ptr t = 0 ↔ t = nil := by
  constructor
  · intro hzero
    by_contra hne
    exact h (hzero ▸ ptr_mem hne)
  · rintro rfl
    rfl

theorem Kids.congr (h : Kids left right t)
    (heq : ∀ x ∈ toList t, left' x = left x ∧ right' x = right x) : Kids left' right' t := by
  induction t with
  | nil => trivial
  | node x l r ihl ihr =>
    simp only [toList_node, List.mem_append, List.mem_cons] at heq
    obtain ⟨hleft, hright, hl, hr⟩ := h
    obtain ⟨hxl, hxr⟩ := heq x (.inr (.inl rfl))
    exact ⟨hxl.trans hleft, hxr.trans hright, ihl hl fun y hy => heq y (.inl hy),
      ihr hr fun y hy => heq y (.inr (.inr hy))⟩

theorem Kids.update_left (h : Kids left right t) (hx : x ∉ toList t) :
    Kids (Function.update left x q) right t := by
  apply h.congr
  intro y hy
  have hne : y ≠ x := fun e => hx (e ▸ hy)
  exact ⟨Function.update_of_ne hne _ _, rfl⟩

theorem Kids.update_right (h : Kids left right t) (hx : x ∉ toList t) :
    Kids left (Function.update right x q) t := by
  apply h.congr
  intro y hy
  have hne : y ≠ x := fun e => hx (e ▸ hy)
  exact ⟨rfl, Function.update_of_ne hne _ _⟩

/-! ### With links to the parents -/

/-- The links of all nodes, and to the root; `child true` is the left child. -/
structure Links where
  child : Bool → ℕ → ℕ
  parent : ℕ → ℕ
  root : ℕ

/-- The node above a hole, the side the hole is on, and the other subtree. -/
structure Frame where
  left : Bool
  value : ℕ
  sib : BinaryTree ℕ

def plug (t : BinaryTree ℕ) (f : Frame) : BinaryTree ℕ :=
  if f.left then node f.value t f.sib else node f.value f.sib t

def zip : BinaryTree ℕ → List Frame → BinaryTree ℕ
  | t, [] => t
  | t, f :: fs => zip (plug t f) fs

def above : List Frame → ℕ
  | [] => 0
  | f :: _ => f.value

/-- The nodes of the frames around a hole. -/
def around : List Frame → List ℕ
  | [] => []
  | f :: fs => f.value :: (toList f.sib ++ around fs)

namespace Links

def setChild (s : Links) (d : Bool) (x v : ℕ) : Links :=
  { s with child := fun e y => if e = d ∧ y = x then v else s.child e y }

def setParent (s : Links) (x v : ℕ) : Links :=
  { s with parent := fun y => if y = x then v else s.parent y }

def setRoot (s : Links) (v : ℕ) : Links := { s with root := v }

/-- Link to `new` from where `q` links to `x`; the side `d` is looked at first. -/
def relink (s : Links) (d : Bool) (q x new : ℕ) : Links :=
  if q = 0 then s.setRoot new
  else if s.child d q = x then s.setChild d q new
  else s.setChild (!d) q new

/-- The links of the nodes of a tree, under the node `q`. -/
def Mem (s : Links) : ℕ → BinaryTree ℕ → Prop
  | _, nil => True
  | q, node x l r =>
    s.child true x = ptr l ∧ s.child false x = ptr r ∧ s.parent x = q ∧ Mem s x l ∧ Mem s x r

/-- The links of the nodes around a hole, where `p` is the link to what fills it. -/
def Up (s : Links) : ℕ → List Frame → Prop
  | p, [] => s.root = p
  | p, f :: fs =>
    s.child f.left f.value = p ∧ s.child (!f.left) f.value = ptr f.sib ∧
      s.parent f.value = above fs ∧ Mem s f.value f.sib ∧ Up s f.value fs

/-- The links hold the tree. -/
structure Holds (s : Links) (t : BinaryTree ℕ) : Prop where
  root : s.root = ptr t
  mem : Mem s 0 t
  nodup : (toList t).Nodup
  null : 0 ∉ toList t

/-- The links of the node `x` are the same. -/
structure Same (s' s : Links) (x : ℕ) : Prop where
  child : ∀ d, s'.child d x = s.child d x
  parent : s'.parent x = s.parent x

end Links

section
variable {s s' : Links} {t u : BinaryTree ℕ} {f : Frame} {fs : List Frame} {d : Bool}
  {p p' q v x y : ℕ}

theorem ptr_plug : ptr (plug t f) = f.value := by
  unfold plug
  split <;> rfl

theorem plug_ne_nil (t : BinaryTree ℕ) (f : Frame) : plug t f ≠ nil := by
  unfold plug
  split <;> simp

theorem toList_zip_perm (t : BinaryTree ℕ) (fs : List Frame) :
    (toList (zip t fs)).Perm (toList t ++ around fs) := by
  induction fs generalizing t with
  | nil =>
    rw [around, List.append_nil]
    exact List.Perm.refl _
  | cons f fs ih =>
    refine (ih (plug t f)).trans (List.perm_iff_count.mpr fun z => ?_)
    unfold plug
    split <;> simp only [toList_node, around, List.count_append, List.count_cons] <;> omega

theorem mem_around (h : f ∈ fs) : f.value ∈ around fs := by
  induction fs with
  | nil => exact absurd h List.not_mem_nil
  | cons f' fs ih =>
    rcases List.mem_cons.mp h with rfl | h
    · exact List.mem_cons_self
    · exact List.mem_cons_of_mem _ (List.mem_append_right _ (ih h))

theorem ne_ptr {z : ℕ} (hz : z ∉ toList t) (h0 : z ≠ 0) : z ≠ ptr t := by
  rintro rfl
  exact hz (ptr_mem fun e => h0 (by rw [e]; rfl))

theorem ne_above {z : ℕ} (hz : z ∉ around fs) (h0 : z ≠ 0) : z ≠ above fs := by
  rintro rfl
  cases fs with
  | nil => exact h0 rfl
  | cons f fs => exact hz List.mem_cons_self

namespace Links

theorem Same.trans {s'' : Links} (h : Same s'' s' x) (h' : Same s' s x) : Same s'' s x :=
  ⟨fun d => (h.child d).trans (h'.child d), h.parent.trans h'.parent⟩

theorem same_setChild (h : x ≠ y) : Same (s.setChild d y v) s x :=
  ⟨fun _ => if_neg fun e => h e.2, rfl⟩

theorem same_setParent (h : x ≠ y) : Same (s.setParent y v) s x :=
  ⟨fun _ => rfl, if_neg h⟩

theorem mem_plug : Mem s q (plug t f) ↔
    s.child f.left f.value = ptr t ∧ s.child (!f.left) f.value = ptr f.sib ∧
      s.parent f.value = q ∧ Mem s f.value f.sib ∧ Mem s f.value t := by
  obtain ⟨d, x, sib⟩ := f
  cases d with
  | true =>
    simp only [plug, Mem, Bool.not_true, if_true]
    tauto
  | false =>
    simp only [plug, Mem, Bool.not_false, Bool.false_eq_true, if_false]
    tauto

/-- The tree around a position, in parts. -/
theorem mem_zip : Mem s 0 (zip t fs) ∧ s.root = ptr (zip t fs) ↔
    Mem s (above fs) t ∧ Up s (ptr t) fs := by
  induction fs generalizing t with
  | nil => rfl
  | cons f fs ih =>
    simp only [zip, ih, mem_plug, ptr_plug, Up, above]
    tauto

theorem holds_zip : Holds s (zip t fs) ↔ Mem s (above fs) t ∧ Up s (ptr t) fs ∧
    (toList t ++ around fs).Nodup ∧ 0 ∉ toList t ++ around fs := by
  have hperm := toList_zip_perm t fs
  constructor
  · intro h
    obtain ⟨hmem, hup⟩ := mem_zip.mp ⟨h.mem, h.root⟩
    exact ⟨hmem, hup, hperm.nodup_iff.mp h.nodup, mt hperm.mem_iff.mpr h.null⟩
  · rintro ⟨hmem, hup, hnd, hnull⟩
    obtain ⟨hm, hroot⟩ := mem_zip.mpr ⟨hmem, hup⟩
    exact ⟨hroot, hm, hperm.nodup_iff.mpr hnd, mt hperm.mem_iff.mp hnull⟩

theorem Mem.congr (h : Mem s q t) (heq : ∀ x ∈ toList t, Same s' s x) : Mem s' q t := by
  induction t generalizing q with
  | nil => trivial
  | node x l r ihl ihr =>
    simp only [toList_node, List.mem_append, List.mem_cons] at heq
    obtain ⟨hleft, hright, hparent, hl, hr⟩ := h
    have hx := heq x (.inr (.inl rfl))
    exact ⟨(hx.child true).trans hleft, (hx.child false).trans hright, hx.parent.trans hparent,
      ihl hl fun y hy => heq y (.inl hy), ihr hr fun y hy => heq y (.inr (.inr hy))⟩

theorem Up.congr (h : Up s p fs) (hroot : s'.root = s.root)
    (heq : ∀ x ∈ around fs, Same s' s x) : Up s' p fs := by
  induction fs generalizing p with
  | nil => exact hroot.trans h
  | cons f fs ih =>
    simp only [around, List.mem_cons, List.mem_append] at heq
    obtain ⟨hchild, hsib, hparent, hmem, hup⟩ := h
    have hx := heq f.value (.inl rfl)
    exact ⟨(hx.child _).trans hchild, (hx.child _).trans hsib, hx.parent.trans hparent,
      hmem.congr fun y hy => heq y (.inr (.inl hy)), ih hup fun y hy => heq y (.inr (.inr hy))⟩

/-- The link in the frame above a position, moved from `p` to `p'`. -/
theorem Up.setChild (h : Up s p (f :: fs)) (hnd : (around (f :: fs)).Nodup) :
    Up (s.setChild f.left f.value p') p' (f :: fs) := by
  rw [around, List.nodup_cons, List.mem_append, not_or] at hnd
  obtain ⟨⟨hvs, hva⟩, -⟩ := hnd
  obtain ⟨hchild, hsib, hparent, hmem, hup⟩ := h
  have hroot : (s.setChild f.left f.value p').root = s.root := rfl
  refine ⟨if_pos ⟨rfl, rfl⟩, ?_, hparent, ?_, ?_⟩
  · refine (if_neg fun e => ?_).trans hsib
    cases hd : f.left <;> simp [hd] at e
  · exact hmem.congr fun y hy => same_setChild fun e => hvs (e ▸ hy)
  · exact hup.congr hroot fun y hy => same_setChild fun e => hva (e ▸ hy)

/-- A subtree under another node. -/
theorem Mem.setParent (h : Mem s q t) (hnd : (toList t).Nodup) : Mem (s.setParent (ptr t) p) p t := by
  cases t with
  | nil => trivial
  | node x l r =>
    obtain ⟨hleft, hright, hparent, hl, hr⟩ := h
    rw [toList_node, List.nodup_append, List.nodup_cons] at hnd
    refine ⟨hleft, hright, if_pos rfl, hl.congr fun y hy => same_setParent ?_,
      hr.congr fun y hy => same_setParent ?_⟩
    · rintro rfl
      exact hnd.2.2 y hy y List.mem_cons_self rfl
    · rintro rfl
      exact hnd.2.1.1 hy

@[simp] theorem relink_parent (s : Links) (d : Bool) (q x new : ℕ) :
    (s.relink d q x new).parent = s.parent := by
  unfold relink
  split
  · rfl
  · split <;> rfl

theorem same_relink (h : x ≠ q) : Same (s.relink d q y v) s x := by
  unfold relink
  split
  · exact ⟨fun _ => rfl, rfl⟩
  · split
    · exact same_setChild h
    · exact same_setChild h

theorem Up.relink (h : Up s p fs) (hnd : (around fs).Nodup) (hp : p ∉ around fs)
    (h0 : 0 ∉ around fs) (hne : p ≠ 0) : Up (s.relink d (above fs) p p') p' fs := by
  cases fs with
  | nil => rfl
  | cons f fs =>
    have hsib : p ≠ ptr f.sib :=
      ne_ptr (fun hm => hp (List.mem_cons_of_mem _ (List.mem_append_left _ hm))) hne
    have hvalue : above (f :: fs) ≠ 0 := fun e => h0 (e ▸ List.mem_cons_self)
    have hset : Up (s.setChild f.left f.value p') p' (f :: fs) := h.setChild hnd
    unfold Links.relink
    rw [if_neg hvalue]
    by_cases hd : f.left = d
    · rw [if_pos (hd ▸ h.1), ← hd]
      exact hset
    · have hother : (!f.left) = d := by
        cases hl : f.left <;> cases d <;> simp_all
      rw [if_neg fun e => hsib (e.symm.trans (hother ▸ h.2.1)), ← hother, Bool.not_not]
      exact hset

/-- A new leaf beside the subtree at a position, under a new node. -/
theorem Holds.graft {e : Bool} {g z : ℕ} (h : Holds s (zip t fs)) (ht : t ≠ nil)
    (hroot : s'.root = s.root) (hsame : ∀ x ∈ toList t ++ around fs, Same s' s x)
    (hnew : [z, g].Nodup ∧ 0 ∉ [z, g] ∧ ∀ x ∈ [z, g], x ∉ toList t ++ around fs)
    (hg : s'.child d g = z ∧ s'.child (!d) g = ptr t ∧ s'.parent g = above fs)
    (hz : (∀ c, s'.child c z = 0) ∧ s'.parent z = g) :
    Holds ((s'.relink e (above fs) (ptr t) g).setParent (ptr t) g)
      (zip (node z nil nil) (⟨d, g, t⟩ :: fs)) := by
  obtain ⟨hmem, hup, hnd, hnull⟩ := holds_zip.mp h
  obtain ⟨hzg, hnew0, hfresh⟩ := hnew
  have hzmem : z ∉ toList t ++ around fs := hfresh z (by simp)
  have hgmem : g ∉ toList t ++ around fs := hfresh g (by simp)
  have hz0 : z ≠ 0 := fun e => hnew0 (by simp [e])
  have hg0 : g ≠ 0 := fun e => hnew0 (by simp [e])
  have hzg' : z ≠ g := by simpa using hzg
  have hpmem := ptr_mem ht
  have hp0 : ptr t ≠ 0 := fun e => hnull (e ▸ List.mem_append_left _ hpmem)
  rw [List.mem_append, not_or] at hzmem hgmem hnull
  rw [List.nodup_append] at hnd
  obtain ⟨hndt, hnda, hdisj⟩ := hnd
  have hmem' : Mem s' (above fs) t :=
    hmem.congr fun y hy => hsame y (List.mem_append_left _ hy)
  have hup' : Up s' (ptr t) fs :=
    hup.congr hroot fun y hy => hsame y (List.mem_append_right _ hy)
  have habove : ∀ y, y ∉ around fs → y ≠ 0 → y ≠ above fs := fun y => ne_above
  have hkeep : ∀ y, y ∉ around fs → y ≠ 0 → y ≠ ptr t →
      Same ((s'.relink e (above fs) (ptr t) g).setParent (ptr t) g) s' y :=
    fun y hy h0 hne => (same_setParent hne).trans (same_relink (habove y hy h0))
  have hpa : ptr t ∉ around fs := fun hm => hdisj _ hpmem _ hm rfl
  have hsz := hkeep z hzmem.2 hz0 fun e => hzmem.1 (e ▸ hpmem)
  have hsg := hkeep g hgmem.2 hg0 fun e => hgmem.1 (e ▸ hpmem)
  have hrelinked : Mem (s'.relink e (above fs) (ptr t) g) (above fs) t := by
    apply hmem'.congr
    intro y hy
    refine same_relink (habove y (fun hm => hdisj y hy y hm rfl) ?_)
    rintro rfl
    exact hnull.1 hy
  have hupNew : Up ((s'.relink e (above fs) (ptr t) g).setParent (ptr t) g) g fs := by
    apply Up.congr (hup'.relink hnda hpa hnull.2 hp0)
    · rfl
    · intro y hy
      refine same_setParent ?_
      rintro rfl
      exact hpa hy
  refine holds_zip.mpr ⟨⟨?_, ?_, ?_, trivial, trivial⟩, ⟨?_, ?_, ?_, ?_, hupNew⟩, ?_, ?_⟩
  · exact (hsz.child true).trans (hz.1 true)
  · exact (hsz.child false).trans (hz.1 false)
  · exact hsz.parent.trans hz.2
  · exact (hsg.child d).trans hg.1
  · exact (hsg.child (!d)).trans hg.2.1
  · exact hsg.parent.trans hg.2.2
  · exact hrelinked.setParent hndt
  · have hsub : (toList t ++ around fs).Nodup := List.nodup_append.mpr ⟨hndt, hnda, hdisj⟩
    simp only [toList_node, toList_nil, around, List.nil_append, List.cons_append,
      List.nodup_cons, List.mem_cons, List.mem_append, not_or]
    exact ⟨⟨hzg', hzmem⟩, hgmem, hsub⟩
  · simp only [toList_node, toList_nil, around, List.nil_append, List.cons_append,
      List.mem_cons, List.mem_append, not_or]
    exact ⟨hz0.symm, hg0.symm, hnull⟩

/-- A leaf and the node above it go, the other subtree moves up. -/
theorem Holds.ungraft {e : Bool} {g z : ℕ}
    (h : Holds s (zip (node z nil nil) (⟨d, g, t⟩ :: fs))) (ht : t ≠ nil) :
    Holds (((s.setChild d g 0).relink e (above fs) g (ptr t)).setParent (ptr t) (above fs))
      (zip t fs) := by
  obtain ⟨-, hup, hnd, hnull⟩ := holds_zip.mp h
  simp only [toList_node, toList_nil, around, List.nil_append, List.cons_append,
    List.nodup_cons, List.mem_cons, List.mem_append, not_or] at hnd hnull
  obtain ⟨-, ⟨hgt, hga⟩, hnd⟩ := hnd
  obtain ⟨-, hg0, hnullt, hnulla⟩ := hnull
  obtain ⟨-, -, -, hmem, hupg⟩ := hup
  rw [List.nodup_append] at hnd
  obtain ⟨hndt, hnda, hdisj⟩ := hnd
  have hpmem := ptr_mem ht
  have hupSet : Up (s.setChild d g 0) g fs := by
    apply Up.congr hupg
    · rfl
    · intro y hy
      refine same_setChild ?_
      rintro rfl
      exact hga hy
  have hmemSet : Mem ((s.setChild d g 0).relink e (above fs) g (ptr t)) g t := by
    apply hmem.congr
    intro y hy
    refine Same.trans (same_relink ?_) (same_setChild ?_)
    · refine ne_above (fun hm => hdisj y hy y hm rfl) ?_
      rintro rfl
      exact hnullt hy
    · rintro rfl
      exact hgt hy
  refine holds_zip.mpr ⟨hmemSet.setParent hndt, ?_, ?_, ?_⟩
  · apply Up.congr (hupSet.relink hnda hga hnulla (Ne.symm hg0))
    · rfl
    · intro y hy
      refine same_setParent ?_
      rintro rfl
      exact hdisj _ hpmem _ hy rfl
  · exact List.nodup_append.mpr ⟨hndt, hnda, hdisj⟩
  · rw [List.mem_append, not_or]
    exact ⟨hnullt, hnulla⟩

end Links
end

end WanStack.LinkedTree
