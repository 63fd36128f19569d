import Mathlib.Data.List.Nodup
import WanStack.Aftr.State
import WanStack.Lib.LinkedTree

set_option autoImplicit false

/-!
# The splay tree in memory

`tleft` and `tright` are the fields of the nodes, by address; 0 is `NULL`. The comparison
is with the entries at two addresses: `nat_splay_splay` and `nat_splay_splay_wild` are one
function of it. `node` is the address of the local that holds the two side trees while the
tree is taken apart.
-/
namespace WanStack.Aftr
open BinaryTree SearchTree FieldOrder LinkedTree
open Splay (Side leftList rightList hangLeft hangRight)

/-- The tree of one tunnel and protocol: the links of all nodes, and `tnat_root`. -/
structure SplayLinks where
  tleft : ℕ → ℕ
  tright : ℕ → ℕ
  root : ℕ

namespace SplayLinks

def setLeft (s : SplayLinks) (x v : ℕ) : SplayLinks := { s with tleft := Function.update s.tleft x v }

def setRight (s : SplayLinks) (x v : ℕ) : SplayLinks := { s with tright := Function.update s.tright x v }

def setRoot (s : SplayLinks) (v : ℕ) : SplayLinks := { s with root := v }

@[simp] theorem setLeft_root (s : SplayLinks) (x v : ℕ) : (s.setLeft x v).root = s.root := rfl

@[simp] theorem setRight_root (s : SplayLinks) (x v : ℕ) : (s.setRight x v).root = s.root := rfl

def natSplayRotateRight (n : ℕ) (s : SplayLinks) : SplayLinks :=
  let s := s.setLeft s.root (s.tright n)
  let s := s.setRight n s.root
  s.setRoot n

def natSplayRotateLeft (n : ℕ) (s : SplayLinks) : SplayLinks :=
  let s := s.setRight s.root (s.tleft n)
  let s := s.setLeft n s.root
  s.setRoot n

/-- The new end of the left side tree, and the links after. -/
def natSplayLinkRight (n : ℕ) (s : SplayLinks) : ℕ × SplayLinks :=
  let s := s.setRight n s.root
  let n := s.root
  (n, s.setRoot (s.tright s.root))

def natSplayLinkLeft (n : ℕ) (s : SplayLinks) : ℕ × SplayLinks :=
  let s := s.setLeft n s.root
  let n := s.root
  (n, s.setRoot (s.tleft s.root))

def natSplayAssemble (n left right : ℕ) (s : SplayLinks) : SplayLinks :=
  let s := s.setRight left (s.tleft s.root)
  let s := s.setLeft right (s.tright s.root)
  let s := s.setLeft s.root (s.tright n)
  s.setRight s.root (s.tleft n)

section
variable (cmp : ℕ → ℕ → ℤ) (node n : ℕ)

/-- The loop of `nat_splay_splay`: where it stops, the ends of the side trees. -/
def splayLoop : ℕ → ℕ → ℕ → SplayLinks → Option (ℕ × ℕ × SplayLinks)
  | 0, _, _, _ => none
  | fuel + 1, left, right, s =>
    if cmp n s.root < 0 then
      let tmp := s.tleft s.root
      if tmp = 0 then some (left, right, s)
      else if cmp n tmp < 0 then
        let s := s.natSplayRotateRight tmp
        if s.tleft s.root = 0 then some (left, right, s)
        else
          let (right, s) := s.natSplayLinkLeft right
          splayLoop fuel left right s
      else
        let (right, s) := s.natSplayLinkLeft right
        splayLoop fuel left right s
    else if cmp n s.root > 0 then
      let tmp := s.tright s.root
      if tmp = 0 then some (left, right, s)
      else if cmp n tmp > 0 then
        let s := s.natSplayRotateLeft tmp
        if s.tright s.root = 0 then some (left, right, s)
        else
          let (left, s) := s.natSplayLinkRight left
          splayLoop fuel left right s
      else
        let (left, s) := s.natSplayLinkRight left
        splayLoop fuel left right s
    else some (left, right, s)

def natSplaySplay (fuel : ℕ) (s : SplayLinks) : Option SplayLinks :=
  if s.root = 0 then some s
  else do
    let s := (s.setRight node 0).setLeft node 0
    let (left, right, s) ← splayLoop cmp n fuel node node s
    return s.natSplayAssemble node left right

/-- The new tree and what is returned: `NULL`, or the entry that kept `n` out. -/
def natSplayInsert (fuel : ℕ) (s : SplayLinks) : Option (SplayLinks × ℕ) :=
  if s.root = 0 then some (((s.setRight n 0).setLeft n 0).setRoot n, 0)
  else do
    let s ← natSplaySplay cmp node n fuel s
    let comp := cmp n s.root
    if comp < 0 then
      let s := s.setLeft n (s.tleft s.root)
      let s := s.setRight n s.root
      let s := s.setLeft s.root 0
      return (s.setRoot n, 0)
    else if comp > 0 then
      let s := s.setRight n (s.tright s.root)
      let s := s.setLeft n s.root
      let s := s.setRight s.root 0
      return (s.setRoot n, 0)
    else return (s, s.root)

/-- The new tree and what is returned: `n`, or `NULL` when nothing is removed. -/
def natSplayRemove (fuel : ℕ) (s : SplayLinks) : Option (SplayLinks × ℕ) :=
  if s.root = 0 then some (s, 0)
  else do
    let s ← natSplaySplay cmp node n fuel s
    if cmp n s.root = 0 then
      if s.tleft s.root = 0 then return (s.setRoot (s.tright s.root), n)
      else
        let tmp := s.tright s.root
        let s ← natSplaySplay cmp node n fuel (s.setRoot (s.tleft s.root))
        return (s.setRight s.root tmp, n)
    else return (s, 0)

end

/-- The links hold the tree. -/
structure Holds (s : SplayLinks) (t : BinaryTree ℕ) : Prop where
  root : s.root = ptr t
  kids : Kids s.tleft s.tright t
  nodup : (toList t).Nodup
  null : 0 ∉ toList t

/-- Where the next node of a side tree is linked. -/
def last (d : ℕ) : Side ℕ → ℕ
  | [] => d
  | (x, _) :: _ => x

/-- A side tree in memory: each node keeps a subtree in one field and has the next
    node in the other. What the latest node has there is left from before. -/
def Chain (keep next : ℕ → ℕ) (P : BinaryTree ℕ → Prop) (d : ℕ) : Side ℕ → Prop
  | [] => True
  | (x, t) :: l => keep x = ptr t ∧ P t ∧ next (last d l) = x ∧ Chain keep next P d l

/-- The side trees, and another tree `u`. -/
structure Beside (node : ℕ) (s : SplayLinks) (ls rs : Side ℕ) (u : BinaryTree ℕ) : Prop where
  lefts : Chain s.tleft s.tright (Kids s.tleft s.tright) node ls
  rights : Chain s.tright s.tleft (Kids s.tleft s.tright) node rs
  other : Kids s.tleft s.tright u

/-- The tree taken apart: what is left of it, and the side trees. -/
structure Parted (node : ℕ) (s : SplayLinks) (t : BinaryTree ℕ) (ls rs : Side ℕ)
    (u : BinaryTree ℕ) : Prop where
  root : s.root = ptr t
  kids : Kids s.tleft s.tright t
  beside : Beside node s ls rs u
  nodup : (node :: (toList t ++ (rightList ls ++ (rightList rs ++ toList u)))).Nodup
  null : 0 ∉ toList t

section
variable {keep next keep' next' : ℕ → ℕ} {P P' : BinaryTree ℕ → Prop} {d z v : ℕ} {l : Side ℕ}
  {s : SplayLinks} {node x y : ℕ} {ls rs : Side ℕ} {t u a b r : BinaryTree ℕ}

theorem last_mem (d : ℕ) (l : Side ℕ) : last d l ∈ d :: rightList l := by
  cases l with
  | nil => exact List.mem_cons_self
  | cons p l => exact List.mem_cons_of_mem _ List.mem_cons_self

theorem mem_side {p : ℕ × BinaryTree ℕ} (hp : p ∈ l) :
    p.1 ∈ rightList l ∧ ∀ x ∈ toList p.2, x ∈ rightList l := by
  induction l with
  | nil => cases hp
  | cons q l ih =>
    simp only [rightList, List.cons_append, List.mem_cons, List.mem_append]
    cases List.mem_cons.mp hp with
    | inl h =>
      subst h
      exact ⟨.inl rfl, fun x hx => .inr (.inl hx)⟩
    | inr h =>
      obtain ⟨h1, h2⟩ := ih h
      exact ⟨.inr (.inr h1), fun x hx => .inr (.inr (h2 x hx))⟩

theorem last_notMem (hnd : (d :: rightList l).Nodup) {p : ℕ × BinaryTree ℕ} (hp : p ∈ l) :
    last d l ∉ toList p.2 := by
  cases l with
  | nil => cases hp
  | cons q l =>
    simp only [rightList, List.cons_append, List.nodup_cons, List.mem_append, not_or] at hnd
    obtain ⟨-, ⟨hx, hl⟩, -⟩ := hnd
    intro hmem
    cases List.mem_cons.mp hp with
    | inl h => exact hx (h ▸ hmem)
    | inr h => exact hl ((mem_side h).2 _ hmem)

theorem Chain.congr (h : Chain keep next P d l) (hnd : (d :: rightList l).Nodup)
    (hP : ∀ p ∈ l, P p.2 → P' p.2) (hkeep : ∀ p ∈ l, keep' p.1 = keep p.1)
    (hnext : ∀ x ∈ d :: rightList l, x ≠ last d l → next' x = next x) :
    Chain keep' next' P' d l := by
  induction l with
  | nil => trivial
  | cons p l ih =>
    obtain ⟨x, t⟩ := p
    obtain ⟨hk, ht, hn, hl⟩ := h
    have hsub : (d :: rightList l).Sublist (d :: rightList ((x, t) :: l)) :=
      ((List.sublist_append_right (toList t) _).cons x).cons_cons d
    have hne : ∀ y ∈ d :: rightList l, y ≠ x := by
      intro y hy heq
      simp only [rightList, List.cons_append, List.nodup_cons, List.mem_cons, List.mem_append,
        not_or] at hnd
      cases List.mem_cons.mp hy with
      | inl h => exact hnd.1.1 (h.symm.trans heq)
      | inr h => exact hnd.2.1.2 (heq ▸ h)
    refine ⟨(hkeep _ List.mem_cons_self).trans hk, hP _ List.mem_cons_self ht, ?_, ?_⟩
    · have hlast := last_mem d l
      rw [hnext _ (hsub.subset hlast) (hne _ hlast)]
      exact hn
    · apply ih hl (hnd.sublist hsub)
      · exact fun p hp => hP p (List.mem_cons_of_mem _ hp)
      · exact fun p hp => hkeep p (List.mem_cons_of_mem _ hp)
      · exact fun y hy _ => hnext y (hsub.subset hy) (hne y hy)

/-- Writing the field in which nodes keep subtrees, off the side tree. -/
theorem Chain.update_keep (h : Chain keep next P d l) (hnd : (d :: rightList l).Nodup)
    (hz : z ∉ rightList l) (hP : ∀ t, z ∉ toList t → P t → P' t) :
    Chain (Function.update keep z v) next P' d l := by
  apply h.congr hnd
  · intro p hp
    exact hP p.2 fun hmem => hz ((mem_side hp).2 z hmem)
  · intro p hp
    have hne : p.1 ≠ z := fun e => hz (e ▸ (mem_side hp).1)
    exact Function.update_of_ne hne _ _
  · exact fun _ _ _ => rfl

/-- Writing the other field off the side tree, or at its end. -/
theorem Chain.update_next (h : Chain keep next P d l) (hnd : (d :: rightList l).Nodup)
    (hz : z ∈ d :: rightList l → z = last d l) (hP : ∀ t, z ∉ toList t → P t → P' t) :
    Chain keep (Function.update next z v) P' d l := by
  apply h.congr hnd
  · intro p hp
    apply hP
    intro hmem
    have heq := hz (List.mem_cons_of_mem _ ((mem_side hp).2 z hmem))
    exact last_notMem hnd hp (heq ▸ hmem)
  · exact fun _ _ => rfl
  · intro x hx hne
    have hxz : x ≠ z := fun e => hne (e.trans (hz (e ▸ hx)))
    exact Function.update_of_ne hxz _ _

/-- A left link is written nowhere beside, or at the end of the right side tree. -/
theorem Beside.setLeft (h : Beside node s ls rs u)
    (hnd : (node :: (rightList ls ++ (rightList rs ++ toList u))).Nodup)
    (hz : z ∈ node :: (rightList ls ++ (rightList rs ++ toList u)) → z = last node rs) :
    Beside node (s.setLeft z v) ls rs u := by
  have hlast := last_mem node rs
  have hkids : ∀ t, z ∉ toList t → Kids s.tleft s.tright t →
      Kids (s.setLeft z v).tleft (s.setLeft z v).tright t := fun t hz h => h.update_left hz
  refine ⟨?_, ?_, ?_⟩
  · apply h.lefts.update_keep (by grind [List.nodup_append]) _ hkids
    grind [List.nodup_append]
  · apply h.rights.update_next (by grind [List.nodup_append]) _ hkids
    grind
  · apply hkids u _ h.other
    grind [List.nodup_append]

/-- A right link is written nowhere beside, or at the end of the left side tree. -/
theorem Beside.setRight (h : Beside node s ls rs u)
    (hnd : (node :: (rightList ls ++ (rightList rs ++ toList u))).Nodup)
    (hz : z ∈ node :: (rightList ls ++ (rightList rs ++ toList u)) → z = last node ls) :
    Beside node (s.setRight z v) ls rs u := by
  have hlast := last_mem node ls
  have hkids : ∀ t, z ∉ toList t → Kids s.tleft s.tright t →
      Kids (s.setRight z v).tleft (s.setRight z v).tright t := fun t hz h => h.update_right hz
  refine ⟨?_, ?_, ?_⟩
  · apply h.lefts.update_next (by grind [List.nodup_append]) _ hkids
    grind
  · apply h.rights.update_keep (by grind [List.nodup_append]) _ hkids
    grind [List.nodup_append]
  · apply hkids u _ h.other
    grind [List.nodup_append]

theorem Parted.off (h : Parted node s t ls rs u) (hz : z ∈ toList t) :
    (node :: (rightList ls ++ (rightList rs ++ toList u))).Nodup ∧
      z ∉ node :: (rightList ls ++ (rightList rs ++ toList u)) := by
  have hnd := h.nodup
  grind [List.nodup_append]

theorem Parted.rotateRight (h : Parted node s (.node x (.node y a b) r) ls rs u) :
    Parted node (s.natSplayRotateRight y) (.node y a (.node x b r)) ls rs u := by
  have hnd := h.nodup
  have hxy : x ≠ y ∧ x ∉ toList a ∧ x ∉ toList b ∧ x ∉ toList r ∧ y ∉ toList a ∧
      y ∉ toList b ∧ y ∉ toList r := by
    simp only [toList_node, List.nodup_cons, List.nodup_append, List.mem_append,
      List.mem_cons] at hnd
    grind
  obtain ⟨hne, hxa, hxb, hxr, hya, hyb, hyr⟩ := hxy
  have hroot : s.root = x := h.root
  obtain ⟨hxl, hxright, ⟨hyl, hyright, ha, hb⟩, hr⟩ := h.kids
  refine ⟨rfl, ?_, ?_, ?_, ?_⟩
  · simp only [natSplayRotateRight, setLeft, setRight, setRoot, hroot]
    refine ⟨?_, ?_, ?_, ?_, ?_, ?_, ?_⟩
    · rw [Function.update_of_ne hne.symm]
      exact hyl
    · exact Function.update_self ..
    · exact (ha.update_left hxa).update_right hya
    · rw [Function.update_self]
      exact hyright
    · rw [Function.update_of_ne hne]
      exact hxright
    · exact (hb.update_left hxb).update_right hyb
    · exact (hr.update_left hxr).update_right hyr
  · obtain ⟨hrest, hx⟩ := h.off (z := x) (by simp)
    have hy := (h.off (z := y) (by simp)).2
    have hleft : Beside node (s.setLeft s.root (s.tright y)) ls rs u :=
      h.beside.setLeft hrest fun hmem => absurd hmem (hroot ▸ hx)
    have hright := hleft.setRight (v := s.root) hrest fun hmem => absurd hmem hy
    exact ⟨hright.lefts, hright.rights, hright.other⟩
  · rw [← List.append_assoc, ← List.cons_append] at hnd ⊢
    simpa using hnd
  · simpa using h.null

theorem Parted.rotateLeft (h : Parted node s (.node x a (.node y b r)) ls rs u) :
    Parted node (s.natSplayRotateLeft y) (.node y (.node x a b) r) ls rs u := by
  have hnd := h.nodup
  have hxy : x ≠ y ∧ x ∉ toList a ∧ x ∉ toList b ∧ x ∉ toList r ∧ y ∉ toList a ∧
      y ∉ toList b ∧ y ∉ toList r := by
    simp only [toList_node, List.nodup_cons, List.nodup_append, List.mem_append,
      List.mem_cons] at hnd
    grind
  obtain ⟨hne, hxa, hxb, hxr, hya, hyb, hyr⟩ := hxy
  have hroot : s.root = x := h.root
  obtain ⟨hxl, hxright, ha, hyl, hyright, hb, hr⟩ := h.kids
  refine ⟨rfl, ?_, ?_, ?_, ?_⟩
  · simp only [natSplayRotateLeft, setLeft, setRight, setRoot, hroot]
    refine ⟨?_, ?_, ⟨?_, ?_, ?_, ?_⟩, ?_⟩
    · exact Function.update_self ..
    · rw [Function.update_of_ne hne.symm]
      exact hyright
    · rw [Function.update_of_ne hne]
      exact hxl
    · rw [Function.update_self]
      exact hyl
    · exact (ha.update_right hxa).update_left hya
    · exact (hb.update_right hxb).update_left hyb
    · exact (hr.update_right hxr).update_left hyr
  · obtain ⟨hrest, hx⟩ := h.off (z := x) (by simp)
    have hy := (h.off (z := y) (by simp)).2
    have hright : Beside node (s.setRight s.root (s.tleft y)) ls rs u :=
      h.beside.setRight hrest fun hmem => absurd hmem (hroot ▸ hx)
    have hleft := hright.setLeft (v := s.root) hrest fun hmem => absurd hmem hy
    exact ⟨hleft.lefts, hleft.rights, hleft.other⟩
  · rw [← List.append_assoc, ← List.cons_append] at hnd ⊢
    simpa using hnd
  · simpa using h.null

/-- The node goes to the end of the right side tree with what is right of it. -/
theorem Parted.linkLeft (h : Parted node s (.node x a b) ls rs u) :
    (s.natSplayLinkLeft (last node rs)).1 = x ∧
      Parted node (s.natSplayLinkLeft (last node rs)).2 a ls ((x, b) :: rs) u := by
  have hnd := h.nodup
  have hroot : s.root = x := h.root
  obtain ⟨hrest, hx⟩ := h.off (z := x) (by simp)
  have hlast := last_mem node rs
  have hne : x ≠ last node rs := by grind
  have hlasta : last node rs ∉ toList a := by
    simp only [toList_node, List.nodup_cons, List.nodup_append, List.mem_append,
      List.mem_cons] at hnd
    grind
  have hlastb : last node rs ∉ toList b := by
    simp only [toList_node, List.nodup_cons, List.nodup_append, List.mem_append,
      List.mem_cons] at hnd
    grind
  obtain ⟨hxl, hxr, ha, hb⟩ := h.kids
  have hside : Beside node (s.setLeft (last node rs) s.root) ls rs u :=
    h.beside.setLeft hrest fun _ => rfl
  refine ⟨hroot, ?_, ?_, ?_, ?_, ?_⟩
  · change Function.update s.tleft (last node rs) s.root s.root = ptr a
    rw [hroot, Function.update_of_ne hne]
    exact hxl
  · exact ha.update_left hlasta
  · refine ⟨hside.lefts, ⟨hxr, hb.update_left hlastb, ?_, hside.rights⟩, hside.other⟩
    change Function.update s.tleft (last node rs) s.root (last node rs) = x
    rw [Function.update_self]
    exact hroot
  · refine (List.Perm.nodup_iff (List.perm_iff_count.mpr ?_)).mp hnd
    intro z
    simp only [toList_node, rightList, List.count_append, List.count_cons]
    omega
  · intro hmem
    exact h.null (by simp [hmem])

/-- The node goes to the end of the left side tree with what is left of it. -/
theorem Parted.linkRight (h : Parted node s (.node x a b) ls rs u) :
    (s.natSplayLinkRight (last node ls)).1 = x ∧
      Parted node (s.natSplayLinkRight (last node ls)).2 b ((x, a) :: ls) rs u := by
  have hnd := h.nodup
  have hroot : s.root = x := h.root
  obtain ⟨hrest, hx⟩ := h.off (z := x) (by simp)
  have hlast := last_mem node ls
  have hne : x ≠ last node ls := by grind
  have hlasta : last node ls ∉ toList a := by
    simp only [toList_node, List.nodup_cons, List.nodup_append, List.mem_append,
      List.mem_cons] at hnd
    grind
  have hlastb : last node ls ∉ toList b := by
    simp only [toList_node, List.nodup_cons, List.nodup_append, List.mem_append,
      List.mem_cons] at hnd
    grind
  obtain ⟨hxl, hxr, ha, hb⟩ := h.kids
  have hside : Beside node (s.setRight (last node ls) s.root) ls rs u :=
    h.beside.setRight hrest fun _ => rfl
  refine ⟨hroot, ?_, ?_, ?_, ?_, ?_⟩
  · change Function.update s.tright (last node ls) s.root s.root = ptr b
    rw [hroot, Function.update_of_ne hne]
    exact hxr
  · exact hb.update_right hlastb
  · refine ⟨⟨hxl, ha.update_right hlasta, ?_, hside.lefts⟩, hside.rights, hside.other⟩
    change Function.update s.tright (last node ls) s.root (last node ls) = x
    rw [Function.update_self]
    exact hroot
  · refine (List.Perm.nodup_iff (List.perm_iff_count.mpr ?_)).mp hnd
    intro z
    simp only [toList_node, rightList, List.count_append, List.count_cons]
    omega
  · intro hmem
    exact h.null (by simp [hmem])

/-- The left side tree, hung together with a subtree at its end. -/
theorem kids_hangLeft {left right : ℕ → ℕ} (h : Chain left right (Kids left right) node ls)
    (ht : Kids left right t) (hend : right (last node ls) = ptr t) :
    Kids left right (hangLeft ls t) ∧ right node = ptr (hangLeft ls t) := by
  induction ls generalizing t with
  | nil => exact ⟨ht, hend⟩
  | cons p ls ih =>
    obtain ⟨hk, hp, hnext, hl⟩ := h
    exact ih hl ⟨hk, hend, hp, ht⟩ hnext

theorem kids_hangRight {left right : ℕ → ℕ} (h : Chain right left (Kids left right) node rs)
    (ht : Kids left right t) (hend : left (last node rs) = ptr t) :
    Kids left right (hangRight rs t) ∧ left node = ptr (hangRight rs t) := by
  induction rs generalizing t with
  | nil => exact ⟨ht, hend⟩
  | cons p rs ih =>
    obtain ⟨hk, hp, hnext, hr⟩ := h
    exact ih hr ⟨hend, hk, ht, hp⟩ hnext

theorem leftList_perm (l : Side ℕ) : (leftList l).Perm (rightList l) := by
  induction l with
  | nil => exact List.Perm.refl _
  | cons p l ih =>
    rw [List.perm_iff_count] at ih ⊢
    intro z
    have hz := ih z
    simp only [leftList, rightList, List.count_append, List.count_cons, List.count_nil]
    omega

/-- All subtrees are hung together under the node the loop stopped at. -/
theorem Parted.assemble (h : Parted node s (.node x a b) ls rs u) :
    (s.natSplayAssemble node (last node ls) (last node rs)).root = x ∧
      Kids (s.natSplayAssemble node (last node ls) (last node rs)).tleft
        (s.natSplayAssemble node (last node ls) (last node rs)).tright
        (Splay.assemble x a b ls rs) ∧
      Kids (s.natSplayAssemble node (last node ls) (last node rs)).tleft
        (s.natSplayAssemble node (last node ls) (last node rs)).tright u := by
  have hnd := h.nodup
  have hroot : s.root = x := h.root
  obtain ⟨hrest, hx⟩ := h.off (z := x) (by simp)
  have hlast := last_mem node ls
  have hlast' := last_mem node rs
  simp only [toList_node, List.nodup_cons, List.nodup_append, List.mem_append, List.mem_cons,
    not_or] at hnd hx hlast hlast'
  have hne : x ≠ last node ls := by grind
  have hne' : x ≠ last node rs := by grind
  have ha : last node ls ∉ toList a ∧ last node rs ∉ toList a ∧ x ∉ toList a := by grind
  have hb : last node ls ∉ toList b ∧ last node rs ∉ toList b ∧ x ∉ toList b := by grind
  obtain ⟨hxl, hxr, hka, hkb⟩ := h.kids
  -- after the first two writes the side trees are whole
  have hside : Beside node ((s.setRight (last node ls) (ptr a)).setLeft (last node rs) (ptr b))
      ls rs u :=
    (h.beside.setRight hrest fun _ => rfl).setLeft hrest fun _ => rfl
  obtain ⟨hl, hleft⟩ := kids_hangLeft hside.lefts
    ((hka.update_right ha.1).update_left ha.2.1) (Function.update_self ..)
  obtain ⟨hr, hright⟩ := kids_hangRight hside.rights
    ((hkb.update_right hb.1).update_left hb.2.1) (Function.update_self ..)
  have hxa : x ∉ toList (hangLeft ls a) := by
    rw [Splay.toList_hangLeft, List.mem_append, (leftList_perm ls).mem_iff]
    grind
  have hxb : x ∉ toList (hangRight rs b) := by
    rw [Splay.toList_hangRight, List.mem_append]
    grind
  have hright' : (s.setRight (last node ls) (ptr a)).tright x = ptr b :=
    (Function.update_of_ne hne _ _).trans hxr
  have hright'' : (((s.setRight (last node ls) (ptr a)).setLeft (last node rs) (ptr b)).setLeft x
      (ptr (hangLeft ls a))).tleft node = ptr (hangRight rs b) :=
    (Function.update_of_ne (Ne.symm hx.1) _ _).trans hright
  have heq : s.natSplayAssemble node (last node ls) (last node rs) =
      ((((s.setRight (last node ls) (ptr a)).setLeft (last node rs) (ptr b)).setLeft x
        (ptr (hangLeft ls a))).setRight x (ptr (hangRight rs b))) := by
    simp only [natSplayAssemble, setLeft_root, setRight_root, hroot, hxl]
    rw [hright', hleft, hright'']
  rw [heq]
  refine ⟨hroot, ⟨?_, ?_, ?_, ?_⟩, ?_⟩
  · exact Function.update_self ..
  · exact Function.update_self ..
  · exact (hl.update_left hxa).update_right hxa
  · exact (hr.update_left hxb).update_right hxb
  · exact (hside.other.update_left hx.2.2.2).update_right hx.2.2.2


variable (cmp : ℕ → ℕ → ℤ) (n : ℕ) {fuel : ℕ}

theorem eq_nil_of_isNil (h : Splay.isNil t = true) : t = nil := by
  cases t with
  | nil => rfl
  | node x l r => cases h

theorem ptr_ne_zero (h : Splay.isNil t = false) (hnull : 0 ∉ toList t) : ptr t ≠ 0 := by
  intro hzero
  rw [(ptr_eq_zero hnull).mp hzero] at h
  cases h

/-- The loop takes the tree apart as the search in the tree says. -/
theorem splayLoop_run (h : Parted node s t ls rs u) (hne : Splay.isNil t = false)
    (hfuel : (toList t).length ≤ fuel) :
    ∃ s' x a b ls' rs', splayLoop cmp n fuel (last node ls) (last node rs) s =
        some (last node ls', last node rs', s') ∧
      Parted node s' (.node x a b) ls' rs' u ∧
      Splay.splayLoop (cmp n) t ls rs = Splay.assemble x a b ls' rs' := by
  fun_induction Splay.splayLoop (cmp n) t ls rs generalizing s fuel with
  | case1 ls rs => cases hne
  | case2 x r ls rs hx =>
    obtain ⟨fuel, rfl⟩ := Nat.exists_eq_succ_of_ne_zero (show fuel ≠ 0 by simp at hfuel; omega)
    have hroot : s.root = x := h.root
    have hleft : s.tleft x = 0 := h.kids.1
    refine ⟨s, x, nil, r, ls, rs, ?_, h, rfl⟩
    simp only [splayLoop, hroot, if_pos hx, hleft, if_true]
  | case3 x r ls rs hx y ll lr hy hll =>
    obtain ⟨fuel, rfl⟩ := Nat.exists_eq_succ_of_ne_zero (show fuel ≠ 0 by simp at hfuel; omega)
    have hroot : s.root = x := h.root
    have hleft : s.tleft x = y := h.kids.1
    have hy0 : y ≠ 0 := fun e => h.null (by simp [e])
    obtain rfl := eq_nil_of_isNil hll
    have hrot := h.rotateRight
    have hend : (s.natSplayRotateRight y).tleft (s.natSplayRotateRight y).root = 0 := by
      rw [hrot.root]
      exact hrot.kids.1
    refine ⟨_, y, nil, _, ls, rs, ?_, hrot, rfl⟩
    simp only [splayLoop, hroot, if_pos hx, hleft, if_neg hy0, if_pos hy, hend, if_true]
  | case4 x r ls rs hx y ll lr hy hll ih =>
    obtain ⟨fuel, rfl⟩ := Nat.exists_eq_succ_of_ne_zero (show fuel ≠ 0 by simp at hfuel; omega)
    have hroot : s.root = x := h.root
    have hleft : s.tleft x = y := h.kids.1
    have hy0 : y ≠ 0 := fun e => h.null (by simp [e])
    have hrot := h.rotateRight
    have hend : (s.natSplayRotateRight y).tleft (s.natSplayRotateRight y).root ≠ 0 := by
      rw [hrot.root, ptr_node, hrot.kids.1]
      exact ptr_ne_zero (by simpa using hll) fun hmem => h.null (by simp [hmem])
    obtain ⟨hlast, hlink⟩ := hrot.linkLeft
    have hlen : (toList ll).length ≤ fuel := by simp at hfuel; omega
    obtain ⟨s', z, a, b, ls', rs', hrun, hdone, heq⟩ := ih hlink (by simpa using hll) hlen
    refine ⟨s', z, a, b, ls', rs', ?_, hdone, heq⟩
    simp only [splayLoop, hroot, if_pos hx, hleft, if_neg hy0, if_pos hy, hend, if_false, hlast]
    exact hrun
  | case5 x r ls rs hx y ll lr hy ih =>
    obtain ⟨fuel, rfl⟩ := Nat.exists_eq_succ_of_ne_zero (show fuel ≠ 0 by simp at hfuel; omega)
    have hroot : s.root = x := h.root
    have hleft : s.tleft x = y := h.kids.1
    have hy0 : y ≠ 0 := fun e => h.null (by simp [e])
    obtain ⟨hlast, hlink⟩ := h.linkLeft
    have hlen : (toList (BinaryTree.node y ll lr)).length ≤ fuel := by simp at hfuel ⊢; omega
    obtain ⟨s', z, a, b, ls', rs', hrun, hdone, heq⟩ := ih hlink rfl hlen
    refine ⟨s', z, a, b, ls', rs', ?_, hdone, heq⟩
    simp only [splayLoop, hroot, if_pos hx, hleft, if_neg hy0, if_neg hy, hlast]
    exact hrun
  | case6 x l ls rs hx hx' =>
    obtain ⟨fuel, rfl⟩ := Nat.exists_eq_succ_of_ne_zero (show fuel ≠ 0 by simp at hfuel; omega)
    have hroot : s.root = x := h.root
    have hright : s.tright x = 0 := h.kids.2.1
    refine ⟨s, x, l, nil, ls, rs, ?_, h, rfl⟩
    simp only [splayLoop, hroot, if_neg hx, if_pos hx', hright, if_true]
  | case7 x l ls rs hx hx' y rl rr hy hrr =>
    obtain ⟨fuel, rfl⟩ := Nat.exists_eq_succ_of_ne_zero (show fuel ≠ 0 by simp at hfuel; omega)
    have hroot : s.root = x := h.root
    have hright : s.tright x = y := h.kids.2.1
    have hy0 : y ≠ 0 := fun e => h.null (by simp [e])
    obtain rfl := eq_nil_of_isNil hrr
    have hrot := h.rotateLeft
    have hend : (s.natSplayRotateLeft y).tright (s.natSplayRotateLeft y).root = 0 := by
      rw [hrot.root]
      exact hrot.kids.2.1
    refine ⟨_, y, _, nil, ls, rs, ?_, hrot, rfl⟩
    simp only [splayLoop, hroot, if_neg hx, if_pos hx', hright, if_neg hy0, if_pos hy, hend,
      if_true]
  | case8 x l ls rs hx hx' y rl rr hy hrr ih =>
    obtain ⟨fuel, rfl⟩ := Nat.exists_eq_succ_of_ne_zero (show fuel ≠ 0 by simp at hfuel; omega)
    have hroot : s.root = x := h.root
    have hright : s.tright x = y := h.kids.2.1
    have hy0 : y ≠ 0 := fun e => h.null (by simp [e])
    have hrot := h.rotateLeft
    have hend : (s.natSplayRotateLeft y).tright (s.natSplayRotateLeft y).root ≠ 0 := by
      rw [hrot.root, ptr_node, hrot.kids.2.1]
      exact ptr_ne_zero (by simpa using hrr) fun hmem => h.null (by simp [hmem])
    obtain ⟨hlast, hlink⟩ := hrot.linkRight
    have hlen : (toList rr).length ≤ fuel := by simp at hfuel; omega
    obtain ⟨s', z, a, b, ls', rs', hrun, hdone, heq⟩ := ih hlink (by simpa using hrr) hlen
    refine ⟨s', z, a, b, ls', rs', ?_, hdone, heq⟩
    simp only [splayLoop, hroot, if_neg hx, if_pos hx', hright, if_neg hy0, if_pos hy, hend,
      if_false, hlast]
    exact hrun
  | case9 x l ls rs hx hx' y rl rr hy ih =>
    obtain ⟨fuel, rfl⟩ := Nat.exists_eq_succ_of_ne_zero (show fuel ≠ 0 by simp at hfuel; omega)
    have hroot : s.root = x := h.root
    have hright : s.tright x = y := h.kids.2.1
    have hy0 : y ≠ 0 := fun e => h.null (by simp [e])
    obtain ⟨hlast, hlink⟩ := h.linkRight
    have hlen : (toList (BinaryTree.node y rl rr)).length ≤ fuel := by simp at hfuel ⊢; omega
    obtain ⟨s', z, a, b, ls', rs', hrun, hdone, heq⟩ := ih hlink rfl hlen
    refine ⟨s', z, a, b, ls', rs', ?_, hdone, heq⟩
    simp only [splayLoop, hroot, if_neg hx, if_pos hx', hright, if_neg hy0, if_neg hy, hlast]
    exact hrun
  | case10 x l r ls rs hx hx' =>
    obtain ⟨fuel, rfl⟩ := Nat.exists_eq_succ_of_ne_zero (show fuel ≠ 0 by simp at hfuel; omega)
    have hroot : s.root = x := h.root
    refine ⟨s, x, l, r, ls, rs, ?_, h, rfl⟩
    simp only [splayLoop, hroot, if_neg hx, if_neg hx']

theorem natSplaySplay_run (h : Holds s t) (hu : Kids s.tleft s.tright u)
    (hnd : (node :: (toList t ++ toList u)).Nodup) (hfuel : (toList t).length ≤ fuel) :
    ∃ s', natSplaySplay cmp node n fuel s = some s' ∧ Holds s' (Splay.splay (cmp n) t) ∧
      Kids s'.tleft s'.tright u := by
  cases t with
  | nil =>
    refine ⟨s, ?_, h, hu⟩
    simp only [natSplaySplay, h.root, ptr_nil, if_true]
  | node x l r =>
    have hroot : s.root ≠ 0 := by
      rw [h.root]
      exact ptr_ne_zero rfl h.null
    obtain ⟨hnode, hapart⟩ := List.nodup_cons.mp hnd
    have ht : node ∉ toList (BinaryTree.node x l r) := fun hmem =>
      hnode (List.mem_append_left _ hmem)
    have hnu : node ∉ toList u := fun hmem => hnode (List.mem_append_right _ hmem)
    have hstart : Parted node ((s.setRight node 0).setLeft node 0) (.node x l r) [] [] u := by
      refine ⟨h.root, (h.kids.update_right ht).update_left ht, ⟨trivial, trivial, ?_⟩, hnd, h.null⟩
      exact (hu.update_right hnu).update_left hnu
    obtain ⟨s', y, a, b, ls, rs, hrun, hparted, heq⟩ := splayLoop_run cmp n hstart rfl hfuel
    obtain ⟨hr, hk, hu'⟩ := hparted.assemble
    have hsplay : Splay.splay (cmp n) (.node x l r) = Splay.assemble y a b ls rs := heq
    refine ⟨s'.natSplayAssemble node (last node ls) (last node rs), ?_, ⟨?_, ?_, ?_, ?_⟩, hu'⟩
    · have hloop : splayLoop cmp n fuel node node ((s.setRight node 0).setLeft node 0) = _ := hrun
      simp only [natSplaySplay, if_neg hroot, hloop]
      rfl
    · rw [hsplay]
      exact hr
    · rw [hsplay]
      exact hk
    · rw [Splay.toList_splay]
      exact h.nodup
    · rw [Splay.toList_splay]
      exact h.null

/-- What goes in is not in the tree when nothing in the tree is equal to it. -/
theorem natSplayInsert_run (h : Holds s t) (hnode : node ∉ toList t)
    (hfuel : (toList t).length ≤ fuel) (hzero : n ≠ 0)
    (hnew : (Splay.insert (cmp n) n t).2 = none → n ∉ toList t) :
    ∃ s', natSplayInsert cmp node n fuel s =
        some (s', ((Splay.insert (cmp n) n t).2).getD 0) ∧
      Holds s' (Splay.insert (cmp n) n t).1 := by
  cases t with
  | nil =>
    refine ⟨((s.setRight n 0).setLeft n 0).setRoot n, ?_, rfl, ?_, ?_, ?_⟩
    · simp only [natSplayInsert, h.root, ptr_nil, if_true]
      rfl
    · exact ⟨Function.update_self .., Function.update_self .., trivial, trivial⟩
    · simp [Splay.insert]
    · simpa [Splay.insert] using hzero.symm
  | node x l r =>
    have hroot : s.root ≠ 0 := by
      rw [h.root]
      exact ptr_ne_zero rfl h.null
    obtain ⟨s', hrun, hs, -⟩ := natSplaySplay_run cmp n (u := nil) h trivial
      (by simpa using ⟨by simpa using hnode, h.nodup⟩) hfuel
    obtain ⟨y, a, b, heq, -⟩ := Splay.splay_node (cmp n) x l r
    have hlist : toList (BinaryTree.node y a b) = toList (BinaryTree.node x l r) := by
      rw [← heq, Splay.toList_splay]
    rw [heq] at hs
    have hy : s'.root = y := hs.root
    obtain ⟨hyl, hyr, ha, hb⟩ := hs.kids
    have hnd := hs.nodup
    have hnull := hs.null
    simp only [toList_node, List.nodup_append, List.nodup_cons, List.mem_append, List.mem_cons,
      not_or] at hnd hnull
    have hya : y ∉ toList a := fun hmem => hnd.2.2 y hmem y (.inl rfl) rfl
    have hyb : y ∉ toList b := hnd.2.1.1
    simp only [natSplayInsert, if_neg hroot, hrun, Splay.insert, heq, hy, Option.bind_eq_bind,
      Option.bind_some, Option.pure_def] at hnew ⊢
    by_cases hneg : cmp n y < 0
    · simp only [if_pos hneg, forall_const, ← hlist, toList_node, List.mem_append, List.mem_cons,
        not_or, setLeft_root, setRight_root, hy] at hnew ⊢
      obtain ⟨hna, hny, hnb⟩ := hnew
      refine ⟨_, rfl, rfl, ⟨?_, ?_, ?_, ?_, ?_, trivial, ?_⟩, ?_, ?_⟩
      · exact (Function.update_of_ne hny _ _).trans ((Function.update_self ..).trans hyl)
      · exact Function.update_self ..
      · exact ((ha.update_left hna).update_right hna).update_left hya
      · exact Function.update_self ..
      · exact (Function.update_of_ne (Ne.symm hny) _ _).trans hyr
      · exact ((hb.update_left hnb).update_right hnb).update_left hyb
      · simp only [toList_node, toList_nil, List.nil_append, List.nodup_append, List.nodup_cons,
          List.mem_cons]
        grind
      · simp only [toList_node, toList_nil, List.nil_append, List.mem_append, List.mem_cons,
          not_or]
        exact ⟨hnull.1, hzero.symm, hnull.2.1, hnull.2.2⟩
    · by_cases hpos : cmp n y > 0
      · simp only [if_neg hneg, if_pos hpos, forall_const, ← hlist, toList_node, List.mem_append,
          List.mem_cons, not_or, setLeft_root, setRight_root, hy] at hnew ⊢
        obtain ⟨hna, hny, hnb⟩ := hnew
        refine ⟨_, rfl, rfl, ⟨?_, ?_, ⟨?_, ?_, ?_, trivial⟩, ?_⟩, ?_, ?_⟩
        · exact Function.update_self ..
        · exact (Function.update_of_ne hny _ _).trans ((Function.update_self ..).trans hyr)
        · exact (Function.update_of_ne (Ne.symm hny) _ _).trans hyl
        · exact Function.update_self ..
        · exact ((ha.update_right hna).update_left hna).update_right hya
        · exact ((hb.update_right hnb).update_left hnb).update_right hyb
        · simp only [toList_node, toList_nil, List.append_assoc, List.cons_append, List.nil_append,
            List.nodup_append, List.nodup_cons, List.mem_cons]
          grind
        · simp only [toList_node, toList_nil, List.append_assoc, List.cons_append, List.nil_append,
            List.mem_append, List.mem_cons, not_or]
          exact ⟨hnull.1, hnull.2.1, hzero.symm, hnull.2.2⟩
      · simp only [if_neg hneg, if_neg hpos]
        exact ⟨s', by rw [Option.getD_some], hs⟩

theorem natSplayRemove_run (h : Holds s t) (hnode : node ∉ toList t)
    (hfuel : (toList t).length ≤ fuel) :
    ∃ s', natSplayRemove cmp node n fuel s =
        some (s', if (Splay.remove (cmp n) t).2 then n else 0) ∧
      Holds s' (Splay.remove (cmp n) t).1 := by
  cases t with
  | nil =>
    refine ⟨s, ?_, h⟩
    simp only [natSplayRemove, h.root, ptr_nil, if_true]
    rfl
  | node x l r =>
    have hroot : s.root ≠ 0 := by
      rw [h.root]
      exact ptr_ne_zero rfl h.null
    have hsub := Splay.remove_sublist (cmp n) (.node x l r)
    obtain ⟨s', hrun, hs, -⟩ := natSplaySplay_run cmp n (u := nil) h trivial
      (by simpa using ⟨by simpa using hnode, h.nodup⟩) hfuel
    obtain ⟨y, a, b, heq, -⟩ := Splay.splay_node (cmp n) x l r
    have hlist : toList (BinaryTree.node y a b) = toList (BinaryTree.node x l r) := by
      rw [← heq, Splay.toList_splay]
    rw [heq] at hs
    have hy : s'.root = y := hs.root
    obtain ⟨hyl, hyr, ha, hb⟩ := hs.kids
    have hkeep : ∀ s', s'.root = ptr (Splay.remove (cmp n) (.node x l r)).1 →
        Kids s'.tleft s'.tright (Splay.remove (cmp n) (.node x l r)).1 →
        Holds s' (Splay.remove (cmp n) (.node x l r)).1 := fun s' hroot hkids =>
      ⟨hroot, hkids, hsub.nodup h.nodup, fun hmem => h.null (hsub.subset hmem)⟩
    simp only [natSplayRemove, if_neg hroot, hrun, hy, Option.bind_eq_bind,
      Option.bind_some, Option.pure_def]
    by_cases h0 : cmp n y = 0
    · cases a with
      | nil =>
        have hrem : Splay.remove (cmp n) (.node x l r) = (b, true) := by
          simp only [Splay.remove, heq, if_pos h0, Splay.splay_nil]
        rw [hrem] at hkeep ⊢
        rw [if_pos h0, if_pos (show s'.tleft y = 0 from hyl)]
        exact ⟨_, rfl, hkeep _ hyr hb⟩
      | node p c d =>
        have hnd := hs.nodup
        have hnodes : node ∉ toList (BinaryTree.node y (.node p c d) b) := hlist ▸ hnode
        have hlen : (toList (BinaryTree.node p c d)).length ≤ fuel := by
          rw [← hlist, toList_node, List.length_append] at hfuel
          omega
        rw [toList_node, List.nodup_append, List.nodup_cons] at hnd
        rw [toList_node, List.mem_append, List.mem_cons, not_or, not_or] at hnodes
        have hnull : 0 ∉ toList (BinaryTree.node p c d) := fun hmem =>
          hs.null (List.mem_append_left _ hmem)
        have hleft : s'.tleft y ≠ 0 := by
          rw [hyl]
          exact ptr_ne_zero rfl hnull
        have happart : (node :: (toList (BinaryTree.node p c d) ++ toList b)).Nodup := by
          rw [List.nodup_cons, List.nodup_append, List.mem_append, not_or]
          exact ⟨⟨hnodes.1, hnodes.2.2⟩, hnd.1, hnd.2.1.2,
            fun v hv w hw => hnd.2.2 v hv w (List.mem_cons_of_mem _ hw)⟩
        -- the rest of the tree is kept while the left part is splayed
        obtain ⟨s₂, hrun₂, hs₂, hb₂⟩ := natSplaySplay_run cmp n (s := s'.setRoot (s'.tleft y))
          (u := b) ⟨hyl, ha, hnd.1, hnull⟩ hb happart hlen
        obtain ⟨z, e, f, heq₂, -⟩ := Splay.splay_node (cmp n) p c d
        have hlist₂ : toList (BinaryTree.node z e f) = toList (BinaryTree.node p c d) := by
          rw [← heq₂, Splay.toList_splay]
        rw [heq₂] at hs₂
        have hz : s₂.root = z := hs₂.root
        have hrem : Splay.remove (cmp n) (.node x l r) = (.node z e b, true) := by
          simp only [Splay.remove, heq, if_pos h0, heq₂]
        have hze : z ∉ toList e := fun hmem => by
          have hnd₂ := hs₂.nodup
          rw [toList_node, List.nodup_append] at hnd₂
          exact hnd₂.2.2 z hmem z List.mem_cons_self rfl
        have hzb : z ∉ toList b := fun hmem => by
          refine hnd.2.2 z ?_ z (List.mem_cons_of_mem _ hmem) rfl
          rw [← hlist₂]
          simp
        rw [hrem] at hkeep ⊢
        rw [if_pos h0, if_neg hleft, hrun₂, Option.bind_some, hz]
        refine ⟨_, rfl, hkeep _ hz ⟨hs₂.kids.1, ?_, ?_, ?_⟩⟩
        · exact (Function.update_self ..).trans hyr
        · exact hs₂.kids.2.2.1.update_right hze
        · exact hb₂.update_right hzb
    · have hrem : Splay.remove (cmp n) (.node x l r) = (.node y a b, false) := by
        simp only [Splay.remove, heq, if_neg h0]
      rw [hrem, if_neg h0]
      exact ⟨s', rfl, hs⟩

end

section
variable {cmp : ℕ → ℕ → ℤ} {node n fuel : ℕ} {s : SplayLinks} {t : BinaryTree ℕ}

variable (cmp n) in
/-- With an entry in the tree that is equal to the key, splaying ends with it at the root. -/
theorem natSplaySplay_root (h : Holds s t) (hnode : node ∉ toList t)
    (hfuel : (toList t).length ≤ fuel) :
    ∃ s' t', natSplaySplay cmp node n fuel s = some s' ∧ Holds s' t' ∧ toList t' = toList t ∧
      ∀ x, find (cmp n) t = some x → s'.root = x := by
  obtain ⟨s', hrun, hs, -⟩ := natSplaySplay_run cmp n (u := nil) h trivial
    (by simpa using ⟨hnode, h.nodup⟩) hfuel
  refine ⟨s', _, hrun, hs, Splay.toList_splay _ _, ?_⟩
  intro x hx
  rw [← Splay.lookup_eq_find] at hx
  rw [hs.root]
  unfold Splay.lookup at hx
  split at hx
  · cases hx
  · rename_i y l r heq
    rw [heq]
    split_ifs at hx
    exact Option.some.inj hx

/-- In a search tree splaying keeps the entries in their order and brings the equal one to
    the root, an insertion adds one entry or returns the equal one, and a removal takes out
    the equal entry; all that are left are found again. -/
theorem splay_operations (h : Holds s t) (hS : TotalOn cmp {x | x = n ∨ x ∈ toList t})
    (hsorted : Sorted cmp (toList t)) (hnode : node ∉ toList t)
    (hfuel : (toList t).length ≤ fuel) :
    (∃ s' t', natSplaySplay cmp node n fuel s = some s' ∧ Holds s' t' ∧
      toList t' = toList t ∧ ∀ x ∈ toList t, cmp n x = 0 → s'.root = x) ∧
    (n ≠ 0 → ∃ s' t' r, natSplayInsert cmp node n fuel s = some (s', r) ∧ Holds s' t' ∧
      Sorted cmp (toList t') ∧
      ((r = 0 ∧ (∀ x ∈ toList t, cmp n x ≠ 0) ∧ (toList t').Perm (n :: toList t)) ∨
        (r ∈ toList t ∧ cmp n r = 0 ∧ toList t' = toList t))) ∧
    ∃ s' t' r, natSplayRemove cmp node n fuel s = some (s', r) ∧ Holds s' t' ∧
      ((r = 0 ∧ (∀ x ∈ toList t, cmp n x ≠ 0) ∧ toList t' = toList t) ∨
        ∃ x ∈ toList t, cmp n x = 0 ∧ r = n ∧ Removed x (toList t) (toList t')) ∧
      ∀ y ∈ toList t', ∃ s'', natSplaySplay cmp node y fuel s' = some s'' ∧ s''.root = y := by
  have hn : n ∈ {x | x = n ∨ x ∈ toList t} := .inl rfl
  have hl : ∀ x ∈ toList t, x ∈ {x | x = n ∨ x ∈ toList t} := fun x hx => .inr hx
  have hprobe := hsorted.probe hS hn hl
  have huniq : ∀ x ∈ toList t, cmp n x = 0 → ∀ y ∈ toList t, cmp n y = 0 → y = x := by
    intro x hx hx0 y hy hy0
    have hxn : cmp x n ≤ 0 := (hS.nonpos_iff hn (hl x hx)).mpr (by omega)
    have hyn : cmp y n ≤ 0 := (hS.nonpos_iff hn (hl y hy)).mpr (by omega)
    have hxy : cmp x y ≤ 0 := hS.trans x (hl x hx) n hn y (hl y hy) hxn (by omega)
    have hyx : cmp y x ≤ 0 := hS.trans y (hl y hy) n hn x (hl x hx) hyn (by omega)
    have hzero : 0 ≤ cmp y x := (hS.nonpos_iff (hl y hy) (hl x hx)).mp hxy
    exact hsorted.eq_of_zero hS hl hy hx (by omega)
  refine ⟨?_, ?_, ?_⟩
  · obtain ⟨s', t', hrun, hs, hlist, hroot⟩ := natSplaySplay_root cmp n h hnode hfuel
    refine ⟨s', t', hrun, hs, hlist, ?_⟩
    intro x hx hx0
    exact hroot x (find_eq hprobe hx hx0 (huniq x hx hx0))
  · intro hzero
    have hspec := Splay.insert_spec (cmp n) n t
    obtain ⟨s', hrun, hs⟩ := natSplayInsert_run cmp n h hnode hfuel hzero (by
      intro hnone hmem
      cases hspec with
      | inl h => exact find_none hprobe h.2.1 n hmem (hS.self hn)
      | inr h =>
        obtain ⟨x, hx, -⟩ := h
        rw [hnone] at hx
        cases hx)
    refine ⟨s', _, _, hrun, hs, ?_⟩
    cases hspec with
    | inl h =>
      obtain ⟨hnone, hfind, hins⟩ := h
      have hneq := find_none hprobe hfind
      rw [hnone]
      exact ⟨hsorted.insert hS hn hl hneq hins, .inl ⟨rfl, hneq, hins.perm⟩⟩
    | inr h =>
      obtain ⟨x, hx, hfind, hlist⟩ := h
      rw [hx, hlist]
      exact ⟨hsorted, .inr ⟨(find_some hfind).1, (find_some hfind).2, rfl⟩⟩
  · obtain ⟨s', hrun, hs⟩ := natSplayRemove_run cmp n h hnode hfuel
    have hsub := Splay.remove_sublist (cmp n) t
    refine ⟨s', _, _, hrun, hs, ?_, ?_⟩
    · by_cases hex : ∃ x ∈ toList t, cmp n x = 0
      · obtain ⟨x, hx, hx0⟩ := hex
        obtain ⟨htrue, hrem⟩ := Splay.remove_spec hprobe h.nodup hx hx0 (huniq x hx hx0)
        exact .inr ⟨x, hx, hx0, by rw [htrue, if_pos rfl], hrem⟩
      · have hneq : ∀ x ∈ toList t, cmp n x ≠ 0 := fun x hx hx0 => hex ⟨x, hx, hx0⟩
        have hfalse : (Splay.remove (cmp n) t).2 = false :=
          Bool.eq_false_iff.mpr fun htrue => hex (Splay.remove_some htrue)
        exact .inl ⟨by rw [hfalse]; rfl, hneq, Splay.remove_eq_none hfalse⟩
    · intro y hy
      obtain ⟨s'', t'', hrun', -, -, hroot⟩ := natSplaySplay_root cmp y hs
        (fun hmem => hnode (hsub.subset hmem)) (Nat.le_trans hsub.length_le hfuel)
      refine ⟨s'', hrun', hroot y ?_⟩
      exact (hsorted.sublist hsub).find_self hS (fun x hx => hl x (hsub.subset hx)) hy

/-- Three entries, the smallest at the root, and the key of the largest. -/
theorem splay_operations_three :
    ∃ s' t', natSplaySplay (fun a b => (a : ℤ) - b) 9 3 3
        ⟨fun _ => 0, fun x => if x = 1 then 2 else if x = 2 then 3 else 0, 1⟩ = some s' ∧
      Holds s' t' ∧ toList t' = [1, 2, 3] ∧ s'.root = 3 := by
  have h : Holds ⟨fun _ => 0, fun x => if x = 1 then 2 else if x = 2 then 3 else 0, 1⟩
      (.node 1 nil (.node 2 nil (.node 3 nil nil))) :=
    ⟨rfl, by simp [Kids], by decide, by decide⟩
  have hS : TotalOn (fun a b : ℕ => (a : ℤ) - b) {x | x = 3 ∨ x ∈ [1, 2, 3]} := by
    refine ⟨?_, ?_⟩
    · intro a _ b _
      rw [← Int.sign_neg, Int.neg_sub]
    · intro a _ b _ c _ h₁ h₂
      omega
  have hnode : 9 ∉ toList (.node 1 nil (.node 2 nil (.node 3 nil nil))) := by decide
  have hfuel : (toList (.node 1 nil (.node 2 nil (.node 3 nil nil)))).length ≤ 3 := by decide
  obtain ⟨⟨s', t', hrun, hs, hlist, hroot⟩, -⟩ :=
    splay_operations h hS (by simp [Sorted]) hnode hfuel
  exact ⟨s', t', hrun, hs, hlist, hroot 3 (by decide) rfl⟩

end

section
variable {entry : ℕ → NatEntry} {node n fuel : ℕ} {s : SplayLinks} {t : BinaryTree ℕ} {pr : Pr}
  {nats : Nats}

/-- In memory the splay tree of a tunnel goes as in the state. -/
theorem natSplay_refines (h : Holds s t) (hnode : node ∉ toList t)
    (hfuel : (toList t).length ≤ fuel)
    (hroot : t.map entry = nats.root ((entry n).tunnel, pr)) :
    (∃ s' t', natSplaySplay (fun a b => natSplayCompareAbs (entry a) (entry b)) node n fuel s =
        some s' ∧ Holds s' t' ∧
      t'.map entry = (nats.natSplaySplay pr (entry n)).root ((entry n).tunnel, pr)) ∧
    (n ≠ 0 → n ∉ toList t →
      ∃ s' t' r, natSplayInsert (fun a b => natSplayCompareAbs (entry a) (entry b)) node n fuel s =
        some (s', r) ∧ Holds s' t' ∧
      t'.map entry = (nats.natSplayInsert pr (entry n)).1.root ((entry n).tunnel, pr)) ∧
    ∃ s' t' r, natSplayRemove (fun a b => natSplayCompareAbs (entry a) (entry b)) node n fuel s =
        some (s', r) ∧ Holds s' t' ∧
      t'.map entry = (nats.natSplayRemove pr (entry n)).1.root ((entry n).tunnel, pr) := by
  refine ⟨?_, ?_, ?_⟩
  · obtain ⟨s', hrun, hs, -⟩ := natSplaySplay_run
      (fun a b => natSplayCompareAbs (entry a) (entry b)) n (u := nil) h trivial
      (by simpa using ⟨hnode, h.nodup⟩) hfuel
    refine ⟨s', _, hrun, hs, ?_⟩
    rw [Splay.map_splay entry (natSplayCompareAbs (entry n)), hroot]
    simp [Nats.natSplaySplay]
  · intro hzero hnew
    obtain ⟨s', hrun, hs⟩ := natSplayInsert_run
      (fun a b => natSplayCompareAbs (entry a) (entry b)) n h hnode hfuel hzero fun _ => hnew
    refine ⟨s', _, _, hrun, hs, ?_⟩
    rw [Splay.map_insert entry (natSplayCompareAbs (entry n)), hroot]
    simp [Nats.natSplayInsert]
  · obtain ⟨s', hrun, hs⟩ := natSplayRemove_run
      (fun a b => natSplayCompareAbs (entry a) (entry b)) n h hnode hfuel
    refine ⟨s', _, _, hrun, hs, ?_⟩
    rw [Splay.map_remove entry (natSplayCompareAbs (entry n)), hroot]
    simp [Nats.natSplayRemove]

end

end SplayLinks
end WanStack.Aftr
