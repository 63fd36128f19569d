import WanStack.Aftr.State
import WanStack.Lib.FieldOrder
import WanStack.Lib.RedBlackBalance

set_option autoImplicit false

/-!
# The NAT tree in memory

`left`, `right`, `parent` and `color` are the fields of the nodes, by address; 0 is `NULL`.
The two halves of the rebalancing loops differ in the side only, so they are written once:
`child true` is `left`. A loop has fuel, and a read through `NULL` ends in `none`.
-/
namespace WanStack.Aftr
open BinaryTree SearchTree FieldOrder RedBlack

/-- The tree of one protocol: the fields of all nodes, and `nat_tree`. -/
structure TreeLinks where
  child : Bool → ℕ → ℕ
  parent : ℕ → ℕ
  color : ℕ → Color
  root : ℕ

namespace TreeLinks

def left (s : TreeLinks) : ℕ → ℕ := s.child true

def right (s : TreeLinks) : ℕ → ℕ := s.child false

def setChild (s : TreeLinks) (d : Bool) (x v : ℕ) : TreeLinks :=
  { s with child := fun e y => if e = d ∧ y = x then v else s.child e y }

def setParent (s : TreeLinks) (x v : ℕ) : TreeLinks :=
  { s with parent := fun y => if y = x then v else s.parent y }

def setColor (s : TreeLinks) (x : ℕ) (k : Color) : TreeLinks :=
  { s with color := fun y => if y = x then k else s.color y }

def setRoot (s : TreeLinks) (v : ℕ) : TreeLinks := { s with root := v }

/-- `NULL` or black. -/
def black (s : TreeLinks) (x : ℕ) : Bool := x = 0 || s.color x = .black

/-- `if (x != NULL) x->parent = q`. -/
def adopt (s : TreeLinks) (x q : ℕ) : TreeLinks := if x ≠ 0 then s.setParent x q else s

/-- `if (x != NULL) x->color = RB_BLACK`. -/
def blackenNode (s : TreeLinks) (x : ℕ) : TreeLinks :=
  if x ≠ 0 then s.setColor x .black else s

/-- Put `n'` where `parent` links to `n`. -/
def relink (s : TreeLinks) (parent n n' : ℕ) : TreeLinks :=
  if parent ≠ 0 then
    if s.left parent = n then s.setChild true parent n' else s.setChild false parent n'
  else s.setRoot n'

/-- `nat_tree_rotate_left` and `nat_tree_rotate_right`: `n` goes down on the side `d`. -/
def natTreeRotate (d : Bool) (n : ℕ) (s : TreeLinks) : Option TreeLinks :=
  let tmp := s.child (!d) n
  if tmp = 0 then none
  else
    let s := s.setChild (!d) n (s.child d tmp)
    let s := s.adopt (s.child (!d) n) n
    let s := s.setParent tmp (s.parent n)
    let s := s.relink (s.parent n) n tmp
    let s := s.setChild d tmp n
    some (s.setParent n tmp)

def natTreeRotateLeft : ℕ → TreeLinks → Option TreeLinks := natTreeRotate true

def natTreeRotateRight : ℕ → TreeLinks → Option TreeLinks := natTreeRotate false

def natTreeInsertColor : ℕ → ℕ → TreeLinks → Option TreeLinks
  | 0, _, _ => none
  | fuel + 1, n, s =>
    let parent := s.parent n
    if parent ≠ 0 ∧ s.color parent = .red then
      let gparent := s.parent parent
      if gparent = 0 then none
      else
        let d : Bool := parent = s.left gparent
        let tmp := s.child (!d) gparent
        if tmp ≠ 0 ∧ s.color tmp = .red then
          natTreeInsertColor fuel gparent
            (((s.setColor tmp .black).setColor parent .black).setColor gparent .red)
        else do
          -- the inner child takes the place of its parent first
          let (n, parent, s) ← if s.child (!d) parent = n then
              (natTreeRotate d parent s).map fun s => (parent, n, s)
            else some (n, parent, s)
          let s ← natTreeRotate (!d) gparent ((s.setColor parent .black).setColor gparent .red)
          natTreeInsertColor fuel n s
    else if s.root = 0 then none
    else some (s.setColor s.root .black)

/-- A round of `nat_tree_remove_color` with a black sibling of a node on the side `d` of
    `parent`: the flag says that the loop goes on from `parent`. -/
def removeRound (d : Bool) (parent : ℕ) (s : TreeLinks) : Option (Bool × TreeLinks) :=
  let tmp := s.child (!d) parent
  if tmp = 0 then none
  else if s.black (s.left tmp) ∧ s.black (s.right tmp) then some (true, s.setColor tmp .red)
  else do
    let s ← if s.black (s.child (!d) tmp) then
        natTreeRotate (!d) tmp ((s.blackenNode (s.child d tmp)).setColor tmp .red)
      else some s
    let tmp := s.child (!d) parent
    if tmp = 0 then none
    else
      let s := (s.setColor tmp (s.color parent)).setColor parent .black
      let s ← natTreeRotate d parent (s.blackenNode (s.child (!d) tmp))
      return (false, s)

def natTreeRemoveColor : ℕ → ℕ → ℕ → TreeLinks → Option TreeLinks
  | 0, _, _, _ => none
  | fuel + 1, parent, n, s =>
    if s.black n ∧ n ≠ s.root then
      if parent = 0 then none
      else
        let d : Bool := s.left parent = n
        let tmp := s.child (!d) parent
        if tmp = 0 then none
        else do
          let s ← if s.color tmp = .red then
              natTreeRotate d parent ((s.setColor tmp .black).setColor parent .red)
            else some s
          let (short, s) ← removeRound d parent s
          if short then natTreeRemoveColor fuel (s.parent parent) parent s
          else some (s.blackenNode s.root)
    else some (s.blackenNode n)

/-- `while ((left = n->left) != NULL) n = left`. -/
def leftEnd : ℕ → ℕ → TreeLinks → Option ℕ
  | 0, _, _ => none
  | fuel + 1, n, s => if s.left n = 0 then some n else leftEnd fuel (s.left n) s

/-- The loop without a body that goes up to the root. -/
def climb : ℕ → ℕ → TreeLinks → Option Unit
  | 0, _, _ => none
  | fuel + 1, x, s => if s.parent x = 0 then some () else climb fuel (s.parent x) s

/-- Take out a node with one child at most: its place goes to the child. -/
def unlink (n child parent : ℕ) (s : TreeLinks) : TreeLinks :=
  (s.adopt child parent).relink parent n child

/-- `n` gets all links and the color of `old`. -/
def transplant (old n : ℕ) (s : TreeLinks) : Option TreeLinks :=
  let s := s.setChild true n (s.left old)
  let s := s.setChild false n (s.right old)
  let s := s.setParent n (s.parent old)
  let s := s.setColor n (s.color old)
  let s := s.relink (s.parent old) old n
  if s.left old = 0 then none
  else
    let s := s.setParent (s.left old) n
    some (s.adopt (s.right old) n)

def natTreeRemove (fuel n : ℕ) (s : TreeLinks) : Option TreeLinks :=
  if s.left n = 0 ∨ s.right n = 0 then
    let child := if s.left n = 0 then s.right n else s.left n
    let parent := s.parent n
    let color := s.color n
    let s := s.unlink n child parent
    if color = .black then natTreeRemoveColor fuel parent child s else some s
  else do
    let old := n
    let n ← leftEnd fuel (s.right n) s
    let child := s.right n
    let parent := s.parent n
    let color := s.color n
    let s := s.unlink n child parent
    let parent := if s.parent n = old then n else parent
    let s ← transplant old n s
    if parent ≠ 0 then climb fuel parent s
    if color = .black then natTreeRemoveColor fuel parent child s else some s

/-- Link `n` under `parent`, on the side of the last comparison. -/
def hang (s : TreeLinks) (parent n : ℕ) (comp : ℤ) : TreeLinks :=
  if parent ≠ 0 then
    if comp < 0 then s.setChild true parent n else s.setChild false parent n
  else s.setRoot n

section
variable (cmp : ℕ → ℕ → ℤ)

/-- The search in `nat_tree_insert`: the last node met and the comparison there, or the
    equal node. -/
def insertPlace (n : ℕ) : ℕ → ℕ → ℕ → ℤ → TreeLinks → Option (Except ℕ (ℕ × ℤ))
  | 0, _, _, _, _ => none
  | fuel + 1, tmp, parent, comp, s =>
    if tmp = 0 then some (.ok (parent, comp))
    else if cmp n tmp < 0 then insertPlace n fuel (s.left tmp) tmp (cmp n tmp) s
    else if cmp n tmp > 0 then insertPlace n fuel (s.right tmp) tmp (cmp n tmp) s
    else some (.error tmp)

/-- The new tree and what is returned: `NULL`, or the entry that kept `n` out. -/
def natTreeInsert (fuel n : ℕ) (s : TreeLinks) : Option (TreeLinks × ℕ) := do
  match ← insertPlace cmp n fuel s.root 0 0 s with
  | .error tmp => return (s, tmp)
  | .ok (parent, comp) =>
    let s := s.setParent n parent
    let s := (s.setChild false n 0).setChild true n 0
    let s := s.setColor n .red
    let s ← natTreeInsertColor fuel n (s.hang parent n comp)
    return (s, 0)

end

def natTreeMin (fuel : ℕ) (s : TreeLinks) : Option ℕ :=
  if s.root = 0 then some 0 else leftEnd fuel s.root s

/-- `while ((n->parent != NULL) && (n == n->parent->right)) n = n->parent`. -/
def rightTop : ℕ → ℕ → TreeLinks → Option ℕ
  | 0, _, _ => none
  | fuel + 1, n, s =>
    if s.parent n ≠ 0 ∧ n = s.right (s.parent n) then rightTop fuel (s.parent n) s else some n

def natTreeNext (fuel n : ℕ) (s : TreeLinks) : Option ℕ :=
  if s.right n ≠ 0 then leftEnd fuel (s.right n) s
  else if s.parent n ≠ 0 ∧ n = s.left (s.parent n) then some (s.parent n)
  else (rightTop fuel n s).map s.parent

/-- The address of the root. -/
def addr : RedBlack.Tree ℕ → ℕ
  | nil => 0
  | node (_, x) _ _ => x

/-- The node above a hole. -/
def above : List (Frame ℕ) → ℕ
  | [] => 0
  | f :: _ => f.value

/-- The fields of the nodes of a tree, under the node `q`. -/
def Mem (s : TreeLinks) : ℕ → RedBlack.Tree ℕ → Prop
  | _, nil => True
  | q, node (k, x) l r =>
    s.left x = addr l ∧ s.right x = addr r ∧ s.parent x = q ∧ s.color x = k ∧ Mem s x l ∧ Mem s x r

/-- The fields of the nodes around a hole, which hold the link `p` to what fills it. -/
def Up (s : TreeLinks) : ℕ → List (Frame ℕ) → Prop
  | p, [] => s.root = p
  | p, f :: fs =>
    s.child f.left f.value = p ∧ s.child (!f.left) f.value = addr f.sib ∧
      s.parent f.value = above fs ∧ s.color f.value = f.color ∧ Mem s f.value f.sib ∧
      Up s f.value fs

/-- The fields hold the tree. -/
structure Holds (s : TreeLinks) (t : RedBlack.Tree ℕ) : Prop where
  root : s.root = addr t
  mem : Mem s 0 t
  nodup : (list t).Nodup
  null : 0 ∉ list t

/-- The fields of the node `x` are the same. -/
structure Same (s' s : TreeLinks) (x : ℕ) : Prop where
  child : ∀ d, s'.child d x = s.child d x
  parent : s'.parent x = s.parent x
  color : s'.color x = s.color x

variable {s s' : TreeLinks} {t l r : RedBlack.Tree ℕ} {f : Frame ℕ} {fs : List (Frame ℕ)} {k : Color}
  {d : Bool} {n p p' q v x y : ℕ}

theorem mem_plug : Mem s q (plug t f) ↔
    s.child f.left f.value = addr t ∧ s.child (!f.left) f.value = addr f.sib ∧
      s.parent f.value = q ∧ s.color f.value = f.color ∧ Mem s f.value f.sib ∧
      Mem s f.value t := by
  obtain ⟨d, k, x, sib⟩ := f
  cases d with
  | true =>
    simp only [plug, Mem, left, right, Bool.not_true, if_true]
    tauto
  | false =>
    simp only [plug, Mem, left, right, Bool.not_false, Bool.false_eq_true, if_false]
    tauto

theorem addr_plug : addr (plug t f) = f.value := by
  unfold plug
  split <;> rfl

theorem addr_mem (h : t ≠ nil) : addr t ∈ list t := by
  rcases t with - | ⟨⟨k, x⟩, l, r⟩
  · exact absurd rfl h
  · simp [addr]

theorem addr_eq_zero (h : 0 ∉ list t) : addr t = 0 ↔ t = nil := by
  constructor
  · intro hzero
    by_contra hne
    exact h (hzero ▸ addr_mem hne)
  · rintro rfl
    rfl

/-- The tree around a position, in parts. -/
theorem mem_zip : Mem s 0 (zip t fs) ∧ s.root = addr (zip t fs) ↔
    Mem s (above fs) t ∧ Up s (addr t) fs := by
  induction fs generalizing t with
  | nil => rfl
  | cons f fs ih =>
    simp only [zip, ih, mem_plug, addr_plug, Up, above]
    tauto

theorem holds_zip : Holds s (zip t fs) ↔ Mem s (above fs) t ∧ Up s (addr t) fs ∧
    (list (zip t fs)).Nodup ∧ 0 ∉ list (zip t fs) := by
  constructor
  · intro h
    obtain ⟨hmem, hup⟩ := mem_zip.mp ⟨h.mem, h.root⟩
    exact ⟨hmem, hup, h.nodup, h.null⟩
  · rintro ⟨hmem, hup, hnd, hnull⟩
    obtain ⟨hm, hroot⟩ := mem_zip.mpr ⟨hmem, hup⟩
    exact ⟨hroot, hm, hnd, hnull⟩

theorem Mem.congr (h : Mem s q t) (heq : ∀ x ∈ list t, Same s' s x) : Mem s' q t := by
  induction t generalizing q with
  | nil => trivial
  | node p l r ihl ihr =>
    obtain ⟨k, x⟩ := p
    simp only [list_node, List.mem_append, List.mem_cons] at heq
    obtain ⟨hleft, hright, hparent, hcolor, hl, hr⟩ := h
    have hx := heq x (.inr (.inl rfl))
    exact ⟨(hx.child true).trans hleft, (hx.child false).trans hright, hx.parent.trans hparent,
      hx.color.trans hcolor, ihl hl fun y hy => heq y (.inl hy),
      ihr hr fun y hy => heq y (.inr (.inr hy))⟩

/-- The nodes of the frames around a hole. -/
def around (fs : List (Frame ℕ)) : List ℕ := before fs ++ after fs

theorem mem_around (h : x ∈ list f.sib ∨ x = f.value ∨ x ∈ around fs) : x ∈ around (f :: fs) := by
  simp only [around, before, after] at h ⊢
  cases f.left <;> simp at h ⊢ <;> tauto

theorem nodup_around (h : (around (f :: fs)).Nodup) :
    f.value ∉ list f.sib ∧ f.value ∉ around fs ∧ (around fs).Nodup := by
  have hperm : (around (f :: fs)).Perm (f.value :: (list f.sib ++ around fs)) := by
    rw [List.perm_iff_count]
    intro z
    simp only [around, before, after]
    cases f.left <;> simp [List.count_cons] <;> omega
  have hnd := hperm.nodup_iff.mp h
  rw [List.nodup_cons, List.nodup_append, List.mem_append, not_or] at hnd
  exact ⟨hnd.1.1, hnd.1.2, hnd.2.2.1⟩

theorem list_zip_perm (t : RedBlack.Tree ℕ) (fs : List (Frame ℕ)) :
    (list (zip t fs)).Perm (list t ++ around fs) := by
  rw [list_zip, around, List.perm_iff_count]
  intro z
  simp only [List.count_append]
  omega

theorem above_mem (h : fs ≠ []) : above fs ∈ around fs := by
  cases fs with
  | nil => exact absurd rfl h
  | cons f fs => exact mem_around (.inr (.inl rfl))

theorem ne_addr {z : ℕ} (hz : z ∉ list t) (h0 : z ≠ 0) : z ≠ addr t := by
  rintro rfl
  exact hz (addr_mem fun e => h0 (by rw [e]; rfl))

theorem ne_above {z : ℕ} (hz : z ∉ around fs) (h0 : z ≠ 0) : z ≠ above fs := by
  rintro rfl
  exact hz (above_mem fun e => h0 (by rw [e]; rfl))

theorem Up.congr (h : Up s p fs) (hroot : s'.root = s.root)
    (heq : ∀ x ∈ around fs, Same s' s x) : Up s' p fs := by
  induction fs generalizing p with
  | nil => exact hroot.trans h
  | cons f fs ih =>
    obtain ⟨hchild, hsib, hparent, hcolor, hmem, hup⟩ := h
    have hx := heq f.value (mem_around (.inr (.inl rfl)))
    exact ⟨(hx.child _).trans hchild, (hx.child _).trans hsib, hx.parent.trans hparent,
      hx.color.trans hcolor, hmem.congr fun y hy => heq y (mem_around (.inl hy)),
      ih hup fun y hy => heq y (mem_around (.inr (.inr hy)))⟩

theorem Same.trans {s'' : TreeLinks} (h : Same s'' s' x) (h' : Same s' s x) : Same s'' s x :=
  ⟨fun d => (h.child d).trans (h'.child d), h.parent.trans h'.parent, h.color.trans h'.color⟩

theorem same_setChild (h : x ≠ y) : Same (s.setChild d y v) s x :=
  ⟨fun _ => if_neg fun e => h e.2, rfl, rfl⟩

theorem same_setParent (h : x ≠ y) : Same (s.setParent y v) s x :=
  ⟨fun _ => rfl, if_neg h, rfl⟩

theorem same_setColor (h : x ≠ y) : Same (s.setColor y k) s x :=
  ⟨fun _ => rfl, rfl, if_neg h⟩

theorem same_adopt (h : x ≠ y) : Same (s.adopt y v) s x := by
  unfold adopt
  split
  · exact same_setParent h
  · exact ⟨fun _ => rfl, rfl, rfl⟩

theorem same_relink (h : x ≠ q) : Same (s.relink q p p') s x := by
  unfold relink
  split
  · split
    · exact same_setChild h
    · exact same_setChild h
  · exact ⟨fun _ => rfl, rfl, rfl⟩

@[simp] theorem relink_parent (s : TreeLinks) (q p p' : ℕ) : (s.relink q p p').parent = s.parent := by
  unfold relink
  split <;> [split <;> rfl; rfl]

@[simp] theorem relink_color (s : TreeLinks) (q p p' : ℕ) : (s.relink q p p').color = s.color := by
  unfold relink
  split <;> [split <;> rfl; rfl]

@[simp] theorem adopt_root (s : TreeLinks) (x q : ℕ) : (s.adopt x q).root = s.root := by
  unfold adopt
  split <;> rfl

@[simp] theorem adopt_child (s : TreeLinks) (x q : ℕ) : (s.adopt x q).child = s.child := by
  unfold adopt
  split <;> rfl

@[simp] theorem adopt_color (s : TreeLinks) (x q : ℕ) : (s.adopt x q).color = s.color := by
  unfold adopt
  split <;> rfl

/-- The link in the frame above a position, moved from `p` to `p'`. -/
theorem Up.setChild (h : Up s p (f :: fs)) (hnd : (around (f :: fs)).Nodup) :
    Up (s.setChild f.left f.value p') p' (f :: fs) := by
  obtain ⟨hvs, hva, -⟩ := nodup_around hnd
  obtain ⟨hchild, hsib, hparent, hcolor, hmem, hup⟩ := h
  have hroot : (s.setChild f.left f.value p').root = s.root := rfl
  refine ⟨if_pos ⟨rfl, rfl⟩, ?_, hparent, hcolor, ?_, ?_⟩
  · refine (if_neg fun e => ?_).trans hsib
    cases hd : f.left <;> simp [hd] at e
  · exact hmem.congr fun y hy => same_setChild fun e => hvs (e ▸ hy)
  · apply hup.congr hroot
    intro y hy
    apply same_setChild
    rintro rfl
    exact hva hy

theorem Up.relink (h : Up s p fs) (hp : p ≠ 0) (hout : p ∉ around fs)
    (hnd : (around fs).Nodup) (hnull : 0 ∉ around fs) :
    Up (s.relink (above fs) p p') p' fs := by
  cases fs with
  | nil => rfl
  | cons f fs =>
    have hv0 : f.value ≠ 0 := fun e => hnull (mem_around (.inr (.inl e.symm)))
    obtain ⟨hchild, hsib, -⟩ := id h
    have hsibp : addr f.sib ≠ p := by
      intro e
      by_cases hnil : f.sib = nil
      · rw [hnil] at e
        exact hp e.symm
      · exact hout (mem_around (.inl (e ▸ addr_mem hnil)))
    have heq : s.relink f.value p p' = s.setChild f.left f.value p' := by
      unfold TreeLinks.relink
      rw [if_pos hv0]
      cases hd : f.left with
      | true =>
        rw [hd] at hchild
        exact if_pos hchild
      | false =>
        rw [hd] at hsib
        exact if_neg fun e => hsibp (hsib.symm.trans e)
    rw [above, heq]
    exact h.setChild hnd

/-- A subtree under another node. -/
theorem Mem.adopt (h : Mem s q t) (hnd : (list t).Nodup) (hnull : 0 ∉ list t) :
    Mem (s.adopt (addr t) p) p t := by
  rcases t with - | ⟨⟨k, x⟩, l, r⟩
  · trivial
  · obtain ⟨hleft, hright, hparent, hcolor, hl, hr⟩ := h
    rw [list_node, List.nodup_append, List.nodup_cons] at hnd
    have hx0 : x ≠ 0 := fun e => hnull (by simp [e])
    have heq : s.adopt (addr (node (k, x) l r)) p = s.setParent x p := if_pos hx0
    rw [heq]
    refine ⟨hleft, hright, if_pos rfl, hcolor, hl.congr fun y hy => same_setParent ?_,
      hr.congr fun y hy => same_setParent ?_⟩
    · rintro rfl
      exact hnd.2.2 y hy y List.mem_cons_self rfl
    · rintro rfl
      exact hnd.2.1.1 hy

theorem adopt_setChild (s : TreeLinks) (d : Bool) (x v p q : ℕ) :
    (s.setChild d x v).adopt p q = (s.adopt p q).setChild d x v := by
  unfold TreeLinks.adopt
  split <;> rfl

theorem adopt_parent (h : x ≠ p) : (s.adopt p q).parent x = s.parent x := (same_adopt h).parent

theorem list_rotate (d : Bool) (j k : Color) (x y : ℕ) (a b c : RedBlack.Tree ℕ) :
    list (plug (plug b ⟨!d, k, x, a⟩) ⟨d, j, y, c⟩) =
      list (plug (plug c ⟨!d, j, y, b⟩) ⟨!d, k, x, a⟩) := by
  cases d <;> simp [plug]

/-- A rotation, where the child that goes up is there. -/
theorem rotate_run {a b c : RedBlack.Tree ℕ} {j : Color}
    (h : Holds s (zip (plug (plug c ⟨!d, j, y, b⟩) ⟨!d, k, x, a⟩) fs)) :
    ∃ s', natTreeRotate d x s = some s' ∧
      Holds s' (zip (plug (plug b ⟨!d, k, x, a⟩) ⟨d, j, y, c⟩) fs) := by
  obtain ⟨hmem, hup, hnd, hnull⟩ := holds_zip.mp h
  obtain ⟨hxy, hxa, hxp, hxk, hma, hmy⟩ := mem_plug.mp hmem
  obtain ⟨hyc, hyb, hyp, hyj, hmb, hmc⟩ := mem_plug.mp hmy
  simp only [Bool.not_not, addr_plug] at hxy hxa hyc hyb hup hxp hxk hma hyp hyj hmb hmc
  have hlist : list (zip (plug (plug b ⟨!d, k, x, a⟩) ⟨d, j, y, c⟩) fs) =
      list (zip (plug (plug c ⟨!d, j, y, b⟩) ⟨!d, k, x, a⟩) fs) := by
    rw [list_zip, list_zip, list_rotate]
  have hperm : (list (zip (plug (plug c ⟨!d, j, y, b⟩) ⟨!d, k, x, a⟩) fs)).Perm
      (x :: y :: (list a ++ (list b ++ (list c ++ around fs)))) := by
    refine (list_zip_perm _ _).trans (List.perm_iff_count.mpr fun z => ?_)
    cases d <;> simp [plug, List.count_cons] <;> omega
  have hparts := hperm.nodup_iff.mp hnd
  have hzero := mt hperm.mem_iff.mpr hnull
  simp only [List.nodup_cons, List.nodup_append, List.mem_cons, List.mem_append, not_or]
    at hparts hzero
  obtain ⟨⟨hne, hxa', hxb, hxc, hxf⟩, ⟨hya, hyb', hyc', hyf⟩, -, ⟨hbnd, ⟨-, hfnd, hcf⟩, hbc⟩, habc⟩ :=
    hparts
  obtain ⟨hx0, hy0, ha0, hb0, hc0, hf0⟩ := hzero
  have hxb' : x ≠ addr b := ne_addr hxb (Ne.symm hx0)
  have hyb'' : y ≠ addr b := ne_addr hyb' (Ne.symm hy0)
  have hxf' : x ≠ above fs := ne_above hxf (Ne.symm hx0)
  have hyf' : y ≠ above fs := ne_above hyf (Ne.symm hy0)
  let s₁ := (s.setChild (!d) x (addr b)).adopt (addr b) x
  let s₂ := (s₁.setParent y (above fs)).relink (above fs) x y
  let s₃ := (s₂.setChild d y x).setParent x y
  have hrun : natTreeRotate d x s = some s₃ := by
    have h1 : (s.setChild (!d) x (addr b)).child (!d) x = addr b := if_pos ⟨rfl, rfl⟩
    have h2 : s₁.parent x = above fs := (adopt_parent hxb').trans hxp
    have h3 : (s₁.setParent y (above fs)).parent x = above fs := (if_neg hne).trans h2
    simp only [natTreeRotate, hxy, if_neg (Ne.symm hy0), hyb, h1]
    rw [show (s.setChild (!d) x (addr b)).adopt (addr b) x = s₁ from rfl, h2, h3]
  -- which fields are written
  have hchild : ∀ e z, z ≠ above fs → s₃.child e z =
      if e = d ∧ z = y then x else if e = !d ∧ z = x then addr b else s.child e z := by
    intro e z hz
    have h2 : s₂.child e z = s₁.child e z := (same_relink hz).child e
    have h1 : s₁.child e z = (s.setChild (!d) x (addr b)).child e z := by
      rw [adopt_child]
    change (if e = d ∧ z = y then x else s₂.child e z) = _
    rw [h2, h1]
    rfl
  have hsame : ∀ z, z ≠ x → z ≠ y → z ≠ above fs → Same s₃ (s.adopt (addr b) x) z := by
    intro z hzx hzy hzf
    have h1 : Same s₁ (s.adopt (addr b) x) z := by
      rw [show s₁ = _ from adopt_setChild ..]
      exact same_setChild hzx
    exact (same_setParent hzx).trans ((same_setChild hzy).trans ((same_relink hzf).trans
      ((same_setParent hzy).trans h1)))
  have hoff : ∀ z, z ≠ x → z ≠ y → z ≠ addr b → z ≠ above fs → Same s₃ s z := fun z hzx hzy hzb hzf =>
    (hsame z hzx hzy hzf).trans (same_adopt hzb)
  have hcolor : s₃.color = s.color := by
    change s₂.color = s.color
    rw [relink_color]
    change s₁.color = s.color
    rw [adopt_color]
    rfl
  have hd : d ≠ !d := by cases d <;> decide
  have hmema : Mem s₃ x a := hma.congr fun z hz =>
    hoff z (fun e => hxa' (e ▸ hz)) (fun e => hya (e ▸ hz))
      (ne_addr (fun hzb => habc z hz z (.inl hzb) rfl) fun e => ha0 (e ▸ hz))
      (ne_above (fun hzf => habc z hz z (.inr (.inr hzf)) rfl) fun e => ha0 (e ▸ hz))
  have hmemc : Mem s₃ y c := hmc.congr fun z hz =>
    hoff z (fun e => hxc (e ▸ hz)) (fun e => hyc' (e ▸ hz))
      (ne_addr (fun hzb => hbc z hzb z (.inl hz) rfl) fun e => hc0 (e ▸ hz))
      (ne_above (fun hzf => hcf z hz z hzf rfl) fun e => hc0 (e ▸ hz))
  have hmemb : Mem s₃ x b := (hmb.adopt hbnd hb0).congr fun z hz =>
    hsame z (fun e => hxb (e ▸ hz)) (fun e => hyb' (e ▸ hz))
      (ne_above (fun hzf => hbc z hz z (.inr hzf) rfl) fun e => hb0 (e ▸ hz))
  refine ⟨s₃, hrun, holds_zip.mpr ⟨?_, ?_, hlist ▸ hnd, hlist ▸ hnull⟩⟩
  · refine mem_plug.mpr ⟨?_, ?_, ?_, ?_, hmemc, mem_plug.mpr ⟨?_, ?_, ?_, ?_, hmema, hmemb⟩⟩
    · rw [hchild d y hyf', if_pos ⟨rfl, rfl⟩, addr_plug]
    · rw [hchild _ y hyf', if_neg fun e => hd e.1.symm, if_neg fun e => hne e.2.symm]
      exact hyc
    · have hparent : s₂.parent y = (s₁.setParent y (above fs)).parent y := by rw [relink_parent]
      exact (if_neg (Ne.symm hne)).trans (hparent.trans (if_pos rfl))
    · exact (congrFun hcolor y).trans hyj
    · rw [hchild _ x hxf', if_neg fun e => hne e.2, if_pos ⟨rfl, rfl⟩]
    · rw [Bool.not_not, hchild _ x hxf', if_neg fun e => hne e.2, if_neg fun e => hd e.1]
      exact hxa
    · exact if_pos rfl
    · exact (congrFun hcolor x).trans hxk
  · have hup₁ : Up (s₁.setParent y (above fs)) x fs := by
      apply hup.congr
      · exact adopt_root ..
      · intro z hz
        have hzy : z ≠ y := fun e => hyf (e ▸ hz)
        have hzx : z ≠ x := fun e => hxf (e ▸ hz)
        have hzb : z ≠ addr b :=
          ne_addr (fun hzb => hbc z hzb z (.inr hz) rfl) fun e => hf0 (e ▸ hz)
        exact (same_setParent hzy).trans ((same_adopt hzb).trans (same_setChild hzx))
    have hup₂ : Up s₂ y fs := hup₁.relink (Ne.symm hx0) hxf hfnd hf0
    rw [addr_plug]
    have hroot : s₃.root = s₂.root := rfl
    apply hup₂.congr hroot
    intro z hz
    have hzy : z ≠ y := fun e => hyf (e ▸ hz)
    have hzx : z ≠ x := fun e => hxf (e ▸ hz)
    exact (same_setParent hzx).trans (same_setChild hzy)

theorem setColor_run (h : Holds s (zip (node (k, x) l r) fs)) (j : Color) :
    Holds (s.setColor x j) (zip (node (j, x) l r) fs) := by
  obtain ⟨⟨hleft, hright, hparent, -, hl, hr⟩, hup, hnd, hnull⟩ := holds_zip.mp h
  have hlist : list (zip (node (j, x) l r) fs) = list (zip (node (k, x) l r) fs) := by simp
  have hparts := (list_zip_perm _ _).nodup_iff.mp hnd
  simp only [list_node, List.nodup_append, List.nodup_cons, List.mem_append, List.mem_cons]
    at hparts
  obtain ⟨⟨-, ⟨hxr, -⟩, hlx⟩, -, hxf⟩ := hparts
  have hroot : (s.setColor x j).root = s.root := rfl
  refine holds_zip.mpr ⟨⟨hleft, hright, hparent, if_pos rfl, ?_, ?_⟩, ?_, hlist ▸ hnd,
    hlist ▸ hnull⟩
  · exact hl.congr fun z hz => same_setColor fun e => hlx z hz x (.inl rfl) e
  · exact hr.congr fun z hz => same_setColor fun e => hxr (e ▸ hz)
  · apply hup.congr hroot
    intro z hz
    apply same_setColor
    rintro rfl
    exact hxf z (.inr (.inl rfl)) z hz rfl

/-- `node` with the link to the child in the frame. -/
theorem setColor_above (h : Holds s (zip t (f :: fs))) (j : Color) :
    Holds (s.setColor f.value j) (zip t ({ f with color := j } :: fs)) := by
  obtain ⟨d, k, x, sib⟩ := f
  cases d with
  | true => exact setColor_run (l := t) (r := sib) (k := k) h j
  | false => exact setColor_run (l := sib) (r := t) (k := k) h j

/-- The same position seen from its sibling. -/
theorem zip_sib (t : RedBlack.Tree ℕ) (f : Frame ℕ) (fs : List (Frame ℕ)) :
    zip t (f :: fs) = zip f.sib (⟨!f.left, f.color, f.value, t⟩ :: fs) := by
  obtain ⟨d, k, x, sib⟩ := f
  cases d <;> rfl

theorem blackenNode_run (h : Holds s (zip t fs)) :
    Holds (s.blackenNode (addr t)) (zip (blacken t) fs) := by
  rcases t with - | ⟨⟨k, x⟩, l, r⟩
  · exact h
  · have hx0 : x ≠ 0 := by
      rintro rfl
      exact h.null ((list_zip_perm _ _).mem_iff.mpr (by simp))
    have heq : s.blackenNode (addr (node (k, x) l r)) = s.setColor x .black := if_pos hx0
    rw [heq]
    exact setColor_run h .black

theorem same_unlink (hp : x ≠ p) (hq : x ≠ q) : Same (s.unlink n p q) s x :=
  (same_relink hq).trans (same_adopt hp)

/-- The only child of a node, if there is one. -/
def Only (c l r : RedBlack.Tree ℕ) : Prop := l = nil ∧ c = r ∨ r = nil ∧ c = l

theorem only_perm {c : RedBlack.Tree ℕ} (hc : Only c l r) :
    (list (zip (node (k, x) l r) fs)).Perm (x :: (list c ++ around fs)) := by
  refine (list_zip_perm _ _).trans (List.perm_iff_count.mpr fun z => ?_)
  obtain ⟨rfl, rfl⟩ | ⟨rfl, rfl⟩ := hc
  · simp [List.count_cons]
  · simp [List.count_cons]
    omega

/-- A node with one child at most, taken out. -/
theorem unlink_run {c : RedBlack.Tree ℕ} (h : Holds s (zip (node (k, x) l r) fs))
    (hc : Only c l r) : Holds (s.unlink x (addr c) (above fs)) (zip c fs) := by
  obtain ⟨⟨hleft, hright, hparent, hcolor, hl, hr⟩, hup, hnd, hnull⟩ := holds_zip.mp h
  have hmem : Mem s x c := by
    obtain ⟨-, rfl⟩ | ⟨-, rfl⟩ := hc
    · exact hr
    · exact hl
  have hperm : (list (zip (node (k, x) l r) fs)).Perm (x :: (list c ++ around fs)) := only_perm hc
  have hparts := hperm.nodup_iff.mp hnd
  have hzero := mt hperm.mem_iff.mpr hnull
  simp only [List.nodup_cons, List.nodup_append, List.mem_cons, List.mem_append, not_or]
    at hparts hzero
  obtain ⟨⟨-, hxf⟩, hcnd, hfnd, hcf⟩ := hparts
  obtain ⟨hx0, hc0, hf0⟩ := hzero
  have hsub : (list (zip c fs)).Perm (list c ++ around fs) := list_zip_perm _ _
  have hup₁ : Up (s.adopt (addr c) (above fs)) x fs := by
    apply hup.congr (adopt_root ..)
    intro z hz
    exact same_adopt (ne_addr (fun hzc => hcf z hzc z hz rfl) fun e => hf0 (e ▸ hz))
  refine holds_zip.mpr ⟨?_, hup₁.relink (Ne.symm hx0) hxf hfnd hf0, ?_, ?_⟩
  · apply (hmem.adopt hcnd hc0).congr
    intro z hz
    exact same_relink (ne_above (fun hzf => hcf z hz z hzf rfl) fun e => hc0 (e ▸ hz))
  · rw [hsub.nodup_iff, List.nodup_append]
    exact ⟨hcnd, hfnd, hcf⟩
  · rw [hsub.mem_iff, List.mem_append]
    exact fun hmem => hmem.elim hc0 hf0

/-- Another node, in the place of one with a left child. -/
theorem transplant_run {o : ℕ} (h : Holds s (zip (node (k, o) l r) fs)) (hl : l ≠ nil)
    (hn : n ∉ list (zip (node (k, o) l r) fs)) (hn0 : n ≠ 0) :
    ∃ s', transplant o n s = some s' ∧ Holds s' (zip (node (k, n) l r) fs) := by
  obtain ⟨⟨hleft, hright, hparent, hcolor, hml, hmr⟩, hup, hnd, hnull⟩ := holds_zip.mp h
  have hperm : (list (zip (node (k, o) l r) fs)).Perm (o :: (list l ++ (list r ++ around fs))) := by
    refine (list_zip_perm _ _).trans (List.perm_iff_count.mpr fun z => ?_)
    simp [List.count_cons]
    omega
  have hperm' : (list (zip (node (k, n) l r) fs)).Perm (n :: (list l ++ (list r ++ around fs))) := by
    refine (list_zip_perm _ _).trans (List.perm_iff_count.mpr fun z => ?_)
    simp [List.count_cons]
    omega
  have hparts := hperm.nodup_iff.mp hnd
  have hzero := mt hperm.mem_iff.mpr hnull
  have hout := mt hperm.mem_iff.mpr hn
  simp only [List.nodup_cons, List.nodup_append, List.mem_cons, List.mem_append, not_or]
    at hparts hzero hout
  obtain ⟨⟨hol, hor, hof⟩, hlnd, ⟨hrnd, hfnd, hrf⟩, hlrf⟩ := hparts
  obtain ⟨ho0, hl0, hr0, hf0⟩ := hzero
  obtain ⟨hno, hnl, hnr, hnf⟩ := hout
  have hnl' : n ≠ addr l := ne_addr hnl hn0
  have hnr' : n ≠ addr r := ne_addr hnr hn0
  have hnf' : n ≠ above fs := ne_above hnf hn0
  let s₁ := (((s.setChild true n (addr l)).setChild false n (addr r)).setParent n (above fs)).setColor n k
  let s₂ := s₁.relink (above fs) o n
  let s₃ := (s₂.setParent (addr l) n).adopt (addr r) n
  have hon : o ≠ n := Ne.symm hno
  have hof' : o ≠ above fs := ne_above hof (Ne.symm ho0)
  have hlo : addr l ≠ 0 := fun e => hl ((addr_eq_zero hl0).mp e)
  have hol' : o ≠ addr l := ne_addr hol (Ne.symm ho0)
  have hsame₁ : ∀ z, z ≠ n → Same s₁ s z := fun z hz =>
    (same_setColor hz).trans ((same_setParent hz).trans ((same_setChild hz).trans
      (same_setChild hz)))
  have hsame₂ : ∀ z, z ≠ n → z ≠ above fs → Same s₂ s z := fun z hz hzf =>
    (same_relink hzf).trans (hsame₁ z hz)
  have hrun : transplant o n s = some s₃ := by
    have h1 : (s.setChild true n (addr l)).right o = addr r :=
      ((same_setChild hon).child false).trans hright
    have h2 : ((s.setChild true n (addr l)).setChild false n (addr r)).parent o = above fs := hparent
    have h3 : (((s.setChild true n (addr l)).setChild false n (addr r)).setParent n
        (above fs)).color o = k := hcolor
    have h4 : s₁.parent o = above fs := (hsame₁ o hon).parent.trans hparent
    have h5 : s₂.left o = addr l := ((hsame₂ o hon hof').child true).trans hleft
    have h6 : (s₂.setParent (addr l) n).right o = addr r :=
      ((hsame₂ o hon hof').child false).trans hright
    simp only [transplant, hleft, h1, h2, h3]
    rw [show (((s.setChild true n (addr l)).setChild false n (addr r)).setParent n
      (above fs)).setColor n k = s₁ from rfl, h4]
    rw [show s₁.relink (above fs) o n = s₂ from rfl, h5, if_neg hlo, h6]
  have hsame₃ : ∀ z, z ≠ n → z ≠ addr l → z ≠ addr r → z ≠ above fs → Same s₃ s z :=
    fun z hz hzl hzr hzf => (same_adopt hzr).trans ((same_setParent hzl).trans (hsame₂ z hz hzf))
  have hn₃ : Same s₃ s₁ n :=
    (same_adopt hnr').trans ((same_setParent hnl').trans (same_relink hnf'))
  have hl₂ : Mem s₂ o l := hml.congr fun z hz =>
    hsame₂ z (fun e => hnl (e ▸ hz)) (ne_above (fun hzf => hlrf z hz z (.inr hzf) rfl) fun e =>
      hl0 (e ▸ hz))
  have hl₃ : Mem s₃ n l := by
    have hadopt : s₂.adopt (addr l) n = s₂.setParent (addr l) n := if_pos hlo
    apply (hadopt ▸ hl₂.adopt (p := n) hlnd hl0).congr
    intro z hz
    exact same_adopt (ne_addr (fun hzr => hlrf z hz z (.inl hzr) rfl) fun e => hl0 (e ▸ hz))
  have hr₃ : Mem s₃ n r := by
    refine Mem.adopt (s := s₂.setParent (addr l) n) (q := o) ?_ hrnd hr0
    apply hmr.congr
    intro z hz
    have hzl : z ≠ addr l := ne_addr (fun hzl => hlrf z hzl z (.inl hz) rfl) fun e => hr0 (e ▸ hz)
    have hzf : z ≠ above fs := ne_above (fun hzf => hrf z hz z hzf rfl) fun e => hr0 (e ▸ hz)
    exact (same_setParent hzl).trans (hsame₂ z (fun e => hnr (e ▸ hz)) hzf)
  have hup₂ : Up s₂ n fs := by
    have hroot : s₁.root = s.root := rfl
    have hup₁ : Up s₁ o fs := hup.congr hroot fun z hz => hsame₁ z fun e => hnf (e ▸ hz)
    exact hup₁.relink (Ne.symm ho0) hof hfnd hf0
  have hup₃ : Up s₃ n fs := by
    have hroot : s₃.root = s₂.root := adopt_root ..
    apply hup₂.congr hroot
    intro z hz
    have hzl : z ≠ addr l := ne_addr (fun hzl => hlrf z hzl z (.inr hz) rfl) fun e => hf0 (e ▸ hz)
    have hzr : z ≠ addr r := ne_addr (fun hzr => hrf z hzr z hz rfl) fun e => hf0 (e ▸ hz)
    exact (same_adopt hzr).trans (same_setParent hzl)
  refine ⟨s₃, hrun, holds_zip.mpr ⟨⟨?_, ?_, ?_, ?_, hl₃, hr₃⟩, hup₃, ?_, ?_⟩⟩
  · have hother : s₁.child true n = addr l := by simp [s₁, setChild, setParent, setColor]
    exact (hn₃.child true).trans hother
  · exact (hn₃.child false).trans (if_pos ⟨rfl, rfl⟩)
  · exact hn₃.parent.trans (if_pos rfl)
  · exact hn₃.color.trans (if_pos rfl)
  · rw [hperm'.nodup_iff]
    simp only [List.nodup_cons, List.nodup_append, List.mem_append, not_or]
    exact ⟨⟨hnl, hnr, hnf⟩, hlnd, ⟨hrnd, hfnd, hrf⟩, fun a ha b hb => hlrf a ha b hb⟩
  · rw [hperm'.mem_iff, List.mem_cons, List.mem_append, List.mem_append]
    rintro (e | h | h | h)
    · exact hn0 e.symm
    · exact hl0 h
    · exact hr0 h
    · exact hf0 h

/-- A new red leaf. -/
theorem attach_run {comp : ℤ} (h : Holds s (zip nil fs)) (hn : n ∉ list (zip nil fs)) (hn0 : n ≠ 0)
    (hcomp : ∀ f ∈ fs.head?, comp < 0 ↔ f.left = true) :
    Holds (((((s.setParent n (above fs)).setChild false n 0).setChild true n 0).setColor n
      .red).hang (above fs) n comp) (zip (node (.red, n) nil nil) fs) := by
  obtain ⟨-, hup, hnd, hnull⟩ := holds_zip.mp h
  have hperm := list_zip_perm nil fs
  have hperm' : (list (zip (node (.red, n) nil nil) fs)).Perm (n :: around fs) := list_zip_perm _ _
  have hfnd : (around fs).Nodup := hperm.nodup_iff.mp hnd
  have hf0 : 0 ∉ around fs := mt hperm.mem_iff.mpr hnull
  have hnf : n ∉ around fs := mt hperm.mem_iff.mpr hn
  have hnf' : n ≠ above fs := ne_above hnf hn0
  let s₁ := (((s.setParent n (above fs)).setChild false n 0).setChild true n 0).setColor n .red
  have hup₁ : Up s₁ 0 fs := by
    have hroot : s₁.root = s.root := rfl
    apply hup.congr hroot
    intro z hz
    have hzn : z ≠ n := fun e => hnf (e ▸ hz)
    exact (same_setColor hzn).trans ((same_setChild hzn).trans ((same_setChild hzn).trans
      (same_setParent hzn)))
  have hhang : Same (s₁.hang (above fs) n comp) s₁ n ∧ Up (s₁.hang (above fs) n comp) n fs := by
    cases fs with
    | nil => exact ⟨⟨fun _ => rfl, rfl, rfl⟩, rfl⟩
    | cons f fs =>
      have hv0 : f.value ≠ 0 := fun e => hf0 (mem_around (.inr (.inl e.symm)))
      have hside : s₁.hang (above (f :: fs)) n comp = s₁.setChild f.left f.value n := by
        have hleft := hcomp f rfl
        unfold hang
        rw [above, if_pos hv0]
        cases hd : f.left with
        | true => exact if_pos (hleft.mpr hd)
        | false => exact if_neg fun e => by simp [hd] at hleft; omega
      rw [hside]
      exact ⟨same_setChild hnf', hup₁.setChild hfnd⟩
  obtain ⟨hsame, hup₂⟩ := hhang
  have hright : s₁.child false n = 0 := by simp [s₁, setChild, setParent, setColor]
  refine holds_zip.mpr ⟨⟨?_, ?_, ?_, ?_, trivial, trivial⟩, hup₂, ?_, ?_⟩
  · exact (hsame.child true).trans (if_pos ⟨rfl, rfl⟩)
  · exact (hsame.child false).trans hright
  · exact hsame.parent.trans (if_pos rfl)
  · exact hsame.color.trans (if_pos rfl)
  · rw [hperm'.nodup_iff, List.nodup_cons]
    exact ⟨hnf, hfnd⟩
  · rw [hperm'.mem_iff, List.mem_cons]
    exact fun hmem => hmem.elim (fun e => hn0 e.symm) hf0

end TreeLinks
end WanStack.Aftr
