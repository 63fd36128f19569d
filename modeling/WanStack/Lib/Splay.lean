import WanStack.Lib.SearchTree

set_option autoImplicit false

/-!
# Top-down splay trees

The loop takes the tree apart along the search path into a left and a right
part, and assembles them under the last node met. The comparison `c` is with
one fixed key; nothing is assumed of it unless a lemma says so.
-/
namespace WanStack.Splay
open BinaryTree SearchTree

variable {α : Type}

/-- Nodes cut off on one side with the subtree they keep, the latest first. -/
abbrev Side (α : Type) := List (α × BinaryTree α)

/-- Put the left part under the root's left subtree. -/
def hangLeft : Side α → BinaryTree α → BinaryTree α
  | [], t => t
  | (x, l) :: ls, t => hangLeft ls (node x l t)

def hangRight : Side α → BinaryTree α → BinaryTree α
  | [], t => t
  | (x, r) :: rs, t => hangRight rs (node x t r)

def assemble (x : α) (l r : BinaryTree α) (ls rs : Side α) : BinaryTree α :=
  node x (hangLeft ls l) (hangRight rs r)

def isNil : BinaryTree α → Bool
  | nil => true
  | node .. => false

/-- The loop, with the parts cut off so far. -/
def splayLoop (c : α → ℤ) : BinaryTree α → Side α → Side α → BinaryTree α
  | nil, _, _ => nil
  | node x l r, ls, rs =>
    if c x < 0 then
      match l with
      | nil => assemble x nil r ls rs
      | node y ll lr =>
        if c y < 0 then
          -- rotate right, then link left
          if isNil ll then assemble y nil (node x lr r) ls rs
          else splayLoop c ll ls ((y, node x lr r) :: rs)
        else splayLoop c (node y ll lr) ls ((x, r) :: rs)
    else if c x > 0 then
      match r with
      | nil => assemble x l nil ls rs
      | node y rl rr =>
        if c y > 0 then
          if isNil rr then assemble y (node x l rl) nil ls rs
          else splayLoop c rr ((y, node x l rl) :: ls) rs
        else splayLoop c (node y rl rr) ((x, l) :: ls) rs
    else assemble x l r ls rs

def splay (c : α → ℤ) (t : BinaryTree α) : BinaryTree α := splayLoop c t [] []

/-- The new tree, and the equal entry that kept `n` out. -/
def insert (c : α → ℤ) (n : α) (t : BinaryTree α) : BinaryTree α × Option α :=
  match splay c t with
  | nil => (node n nil nil, none)
  | node x l r =>
    if c x < 0 then (node n l (node x nil r), none)
    else if c x > 0 then (node n (node x l nil) r, none)
    else (node x l r, some x)

/-- The new tree, and whether the root was taken out. -/
def remove (c : α → ℤ) (t : BinaryTree α) : BinaryTree α × Bool :=
  match splay c t with
  | nil => (nil, false)
  | node x l r =>
    if c x = 0 then
      match splay c l with
      | nil => (r, true)
      | node y a _ => (node y a r, true)
    else (node x l r, false)

/-- The splayed tree, and its root when that is equal to the key. -/
def lookup (c : α → ℤ) (t : BinaryTree α) : BinaryTree α × Option α :=
  match splay c t with
  | nil => (nil, none)
  | node x l r => (node x l r, if c x = 0 then some x else none)

def leftList : Side α → List α
  | [] => []
  | (x, l) :: ls => leftList ls ++ (toList l ++ [x])

def rightList : Side α → List α
  | [] => []
  | (x, r) :: rs => x :: toList r ++ rightList rs

theorem toList_hangLeft (ls : Side α) (t : BinaryTree α) :
    toList (hangLeft ls t) = leftList ls ++ toList t := by
  induction ls generalizing t with
  | nil => rfl
  | cons p ls ih => simp [hangLeft, leftList, ih]

theorem toList_hangRight (rs : Side α) (t : BinaryTree α) :
    toList (hangRight rs t) = toList t ++ rightList rs := by
  induction rs generalizing t with
  | nil => simp [hangRight, rightList]
  | cons p rs ih => simp [hangRight, rightList, ih]

/-- What the loop leaves: the same entries in the same order, the entry the
    search finds at the root, and otherwise a root next to the key. -/
structure Splayed (c : α → ℤ) (t : BinaryTree α) (ls rs : Side α) (x : α)
    (l r : BinaryTree α) : Prop where
  list : toList l ++ x :: toList r = leftList ls ++ (toList t ++ rightList rs)
  found : find c t = if c x = 0 then some x else none
  left : c x < 0 → ∃ ls' : Side α, toList l = leftList ls' ∧ ∀ p ∈ ls', 0 < c p.1
  right : c x > 0 → ∃ rs' : Side α, toList r = rightList rs' ∧ ∀ p ∈ rs', c p.1 < 0

theorem splayLoop_spec (c : α → ℤ) (t : BinaryTree α) (ls rs : Side α) (hne : isNil t = false)
    (hls : ∀ p ∈ ls, 0 < c p.1) (hrs : ∀ p ∈ rs, c p.1 < 0) :
    ∃ x l r, splayLoop c t ls rs = node x l r ∧ Splayed c t ls rs x l r := by
  fun_induction splayLoop c t ls rs with
  | case1 ls rs => simp [isNil] at hne
  | case2 x r ls rs hx =>
    refine ⟨x, _, _, rfl, ?_, ?_, ?_, ?_⟩
    · simp [toList_hangLeft, toList_hangRight]
    · have : c x ≠ 0 := by omega
      simp [find, hx, this]
    · exact fun _ => ⟨ls, by simp [toList_hangLeft], hls⟩
    · intro h
      omega
  | case3 x r ls rs hx y ll lr hy hll =>
    obtain rfl : ll = nil := by
      cases ll with
      | nil => rfl
      | node _ _ _ => simp [isNil] at hll
    refine ⟨y, _, _, rfl, ?_, ?_, ?_, ?_⟩
    · simp [toList_hangLeft, toList_hangRight]
    · have : c y ≠ 0 := by omega
      simp [find, hx, hy, this]
    · exact fun _ => ⟨ls, by simp [toList_hangLeft], hls⟩
    · intro h
      omega
  | case4 x r ls rs hx y ll lr hy hll ih =>
    obtain ⟨z, a, b, heq, hlist, hfound, hleft, hright⟩ := ih (by simpa using hll) hls
      (List.forall_mem_cons.mpr ⟨hy, hrs⟩)
    refine ⟨z, a, b, heq, ?_, ?_, hleft, hright⟩
    · rw [hlist]
      simp [rightList]
    · rw [← hfound]
      simp [find, hx, hy]
  | case5 x r ls rs hx y ll lr hy ih =>
    obtain ⟨z, a, b, heq, hlist, hfound, hleft, hright⟩ := ih rfl hls (List.forall_mem_cons.mpr ⟨hx, hrs⟩)
    refine ⟨z, a, b, heq, ?_, ?_, hleft, hright⟩
    · rw [hlist]
      simp [rightList]
    · rw [← hfound]
      simp [find, hx]
  | case6 x l ls rs hx hx' =>
    refine ⟨x, _, _, rfl, ?_, ?_, ?_, ?_⟩
    · simp [toList_hangLeft, toList_hangRight]
    · have : c x ≠ 0 := by omega
      simp [find, hx, hx', this]
    · intro h
      omega
    · exact fun _ => ⟨rs, by simp [toList_hangRight], hrs⟩
  | case7 x l ls rs hx hx' y rl rr hy hrr =>
    obtain rfl : rr = nil := by
      cases rr with
      | nil => rfl
      | node _ _ _ => simp [isNil] at hrr
    have hy' : ¬ c y < 0 := by omega
    refine ⟨y, _, _, rfl, ?_, ?_, ?_, ?_⟩
    · simp [toList_hangLeft, toList_hangRight]
    · have : c y ≠ 0 := by omega
      simp [find, hx, hx', hy, hy', this]
    · intro h
      omega
    · exact fun _ => ⟨rs, by simp [toList_hangRight], hrs⟩
  | case8 x l ls rs hx hx' y rl rr hy hrr ih =>
    obtain ⟨z, a, b, heq, hlist, hfound, hleft, hright⟩ := ih (by simpa using hrr)
      (List.forall_mem_cons.mpr ⟨hy, hls⟩) hrs
    have hy' : ¬ c y < 0 := by omega
    refine ⟨z, a, b, heq, ?_, ?_, hleft, hright⟩
    · rw [hlist]
      simp [leftList]
    · rw [← hfound]
      simp [find, hx, hx', hy, hy']
  | case9 x l ls rs hx hx' y rl rr hy ih =>
    obtain ⟨z, a, b, heq, hlist, hfound, hleft, hright⟩ := ih rfl (List.forall_mem_cons.mpr ⟨hx', hls⟩) hrs
    refine ⟨z, a, b, heq, ?_, ?_, hleft, hright⟩
    · rw [hlist]
      simp [leftList]
    · rw [← hfound]
      simp [find, hx, hx']
  | case10 x l r ls rs hx hx' =>
    have h0 : c x = 0 := by omega
    refine ⟨x, _, _, rfl, ?_, ?_, ?_, ?_⟩
    · simp [toList_hangLeft, toList_hangRight]
    · simp [find, h0]
    · intro h
      omega
    · intro h
      omega

theorem splay_node (c : α → ℤ) (x : α) (l r : BinaryTree α) :
    ∃ y a b, splay c (node x l r) = node y a b ∧ Splayed c (node x l r) [] [] y a b :=
  splayLoop_spec c (node x l r) [] [] rfl (by simp) (by simp)

@[simp] theorem splay_nil (c : α → ℤ) : splay c nil = nil := rfl

@[simp] theorem toList_splay (c : α → ℤ) (t : BinaryTree α) :
    toList (splay c t) = toList t := by
  cases t with
  | nil => rfl
  | node x l r =>
    obtain ⟨y, a, b, heq, h⟩ := splay_node c x l r
    rw [heq, toList_node, h.list]
    simp [leftList, rightList]

@[simp] theorem toList_lookup (c : α → ℤ) (t : BinaryTree α) :
    toList (lookup c t).1 = toList t := by
  unfold lookup
  split
  · rename_i h
    rw [← toList_splay c t, h]
  · rename_i h
    rw [← toList_splay c t, h]

/-- Splaying finds what the plain search finds. -/
theorem lookup_eq_find (c : α → ℤ) (t : BinaryTree α) : (lookup c t).2 = find c t := by
  cases t with
  | nil => rfl
  | node x l r =>
    obtain ⟨y, a, b, heq, h⟩ := splay_node c x l r
    simp only [lookup, heq, h.found]

theorem last_leftList {c : α → ℤ} {ls : Side α} (h : ∀ p ∈ ls, 0 < c p.1) :
    ∀ a ∈ (leftList ls).getLast?, 0 < c a := by
  intro a ha
  cases ls with
  | nil => simp [leftList] at ha
  | cons p ls =>
    simp only [leftList, ← List.append_assoc, List.getLast?_concat, Option.mem_def,
      Option.some.injEq] at ha
    exact ha ▸ h p (List.mem_cons_self ..)

theorem head_rightList {c : α → ℤ} {rs : Side α} (h : ∀ p ∈ rs, c p.1 < 0) :
    ∀ b ∈ (rightList rs).head?, c b < 0 := by
  intro b hb
  cases rs with
  | nil => simp [rightList] at hb
  | cons p rs =>
    simp only [rightList, List.cons_append, List.head?_cons, Option.mem_def,
      Option.some.injEq] at hb
    exact hb ▸ h p (List.mem_cons_self ..)

/-- An insertion adds the entry, unless the search finds an equal one. -/
theorem insert_spec (c : α → ℤ) (n : α) (t : BinaryTree α) :
    ((insert c n t).2 = none ∧ find c t = none ∧
      Inserted c n (toList t) (toList (insert c n t).1)) ∨
    ∃ x, (insert c n t).2 = some x ∧ find c t = some x ∧
      toList (insert c n t).1 = toList t := by
  cases t with
  | nil => exact .inl ⟨rfl, rfl, [], [], rfl, rfl, by simp, by simp⟩
  | node z a b =>
    obtain ⟨x, l, r, heq, h⟩ := splay_node c z a b
    have hlist : toList (node z a b) = toList l ++ x :: toList r := by
      rw [h.list]
      simp [leftList, rightList]
    simp only [insert, heq, h.found]
    split
    · rename_i hneg
      obtain ⟨ls, hls, hpos⟩ := h.left hneg
      refine .inl ⟨rfl, if_neg (by omega), toList l, x :: toList r, hlist, by simp, ?_, ?_⟩
      · rw [hls]
        exact last_leftList hpos
      · simpa using hneg
    · split
      · rename_i hpos
        obtain ⟨rs, hrs, hneg⟩ := h.right hpos
        refine .inl ⟨rfl, if_neg (by omega), toList l ++ [x], toList r, ?_, by simp, ?_, ?_⟩
        · rw [hlist]
          simp
        · simpa using hpos
        · rw [hrs]
          exact head_rightList hneg
      · have h0 : c x = 0 := by omega
        exact .inr ⟨x, rfl, by simp [h0], by simpa using hlist.symm⟩

/-- A removal loses entries at most. -/
theorem remove_sublist (c : α → ℤ) (t : BinaryTree α) :
    (toList (remove c t).1).Sublist (toList t) := by
  unfold remove
  split
  · simp
  · rename_i x l r hsplay
    rw [← toList_splay c t, hsplay]
    split
    · have hl := toList_splay c l
      split
      · exact (List.sublist_cons_self x _).trans (List.sublist_append_right ..)
      · rename_i y a b hy
        rw [hy] at hl
        simp only [toList_node, ← hl, List.append_assoc, List.cons_append]
        refine (List.Sublist.refl _).append (List.Sublist.cons_cons y ?_)
        exact (List.sublist_cons_self x _).trans (List.sublist_append_right ..)
    · exact List.Sublist.refl _

/-- It takes out the one entry equal to the key, and nothing else. -/
theorem remove_spec {c : α → ℤ} {t : BinaryTree α} {x : α} (hp : Probe c (toList t))
    (hnd : (toList t).Nodup) (hx : x ∈ toList t) (hx0 : c x = 0)
    (huniq : ∀ y ∈ toList t, c y = 0 → y = x) :
    (remove c t).2 = true ∧ Removed x (toList t) (toList (remove c t).1) := by
  cases t with
  | nil => simp at hx
  | node z a b =>
    obtain ⟨y, l, r, heq, h⟩ := splay_node c z a b
    have hlist : toList (node z a b) = toList l ++ y :: toList r := by
      rw [h.list]
      simp [leftList, rightList]
    have hfind := find_eq hp hx hx0 huniq
    rw [h.found] at hfind
    split at hfind
    · rename_i hy0
      obtain rfl := Option.some.inj hfind
      rw [hlist] at hp hnd huniq ⊢
      simp only [remove, heq, hy0, if_true]
      have hcl := toList_splay c l
      cases hl : splay c l with
      | nil =>
        rw [hl] at hcl
        exact ⟨rfl, [], toList r, by simp [← hcl], rfl⟩
      | node w d e =>
        -- what the second splay leaves on the right of its root would be lost
        have hpos : ∀ v ∈ toList l, 0 < c v := by
          intro v hv
          have hsign := (List.pairwise_append.mp hp).2.2 v hv y (List.mem_cons_self ..)
          have hne : c v ≠ 0 := by
            intro hv0
            have := huniq v (List.mem_append_left _ hv) hv0
            exact (List.nodup_append.mp hnd).2.2 v hv y (List.mem_cons_self ..) this
          rw [hx0, Int.sign_zero] at hsign
          rcases lt_or_gt_of_ne hne with hneg | hpos
          · rw [Int.sign_eq_neg_one_of_neg hneg] at hsign
            omega
          · exact hpos
        have he : toList e = [] := by
          cases l with
          | nil => simp at hl
          | node p q s =>
            obtain ⟨w', d', e', heq', h'⟩ := splay_node c p q s
            rw [heq'] at hl
            obtain ⟨rfl, rfl, rfl⟩ := BinaryTree.node.inj hl
            have hmem : ∀ v ∈ toList d' ++ w' :: toList e', v ∈ toList (node p q s) := by
              rw [h'.list]
              simp [leftList, rightList]
            obtain ⟨rs, hrs, hneg⟩ := h'.right (hpos w' (hmem w' (by simp)))
            cases rs with
            | nil => simpa [rightList] using hrs
            | cons u rs =>
              have h1 := hneg u (List.mem_cons_self ..)
              have h2 := hpos u.1 (hmem u.1 (by simp [hrs, rightList]))
              omega
        rw [hl, toList_node, he] at hcl
        refine ⟨rfl, toList l, toList r, rfl, ?_⟩
        rw [← hcl]
        simp
    · simp at hfind

theorem remove_some {c : α → ℤ} {t : BinaryTree α} (h : (remove c t).2 = true) :
    ∃ x ∈ toList t, c x = 0 := by
  unfold remove at h
  split at h
  · cases h
  · rename_i x l r heq
    have hx : x ∈ toList t := by
      rw [← toList_splay c t, heq]
      simp
    split at h
    · rename_i h0
      exact ⟨x, hx, h0⟩
    · cases h

theorem remove_eq_none {c : α → ℤ} {t : BinaryTree α} (h : (remove c t).2 = false) :
    toList (remove c t).1 = toList t := by
  unfold remove at h ⊢
  split
  · rename_i hs
    rw [← toList_splay c t, hs]
  · rename_i x l r hs
    rw [← toList_splay c t, hs]
    split
    · rename_i h0
      rw [hs] at h
      simp only [h0, if_true] at h
      split at h <;> simp at h
    · rfl

section
variable {β : Type} (f : α → β) (c : β → ℤ)

/-- A side with the entries renamed. -/
def mapSide (l : Side α) : Side β := l.map fun p => (f p.1, p.2.map f)

theorem map_hangLeft (ls : Side α) (t : BinaryTree α) :
    (hangLeft ls t).map f = hangLeft (mapSide f ls) (t.map f) := by
  induction ls generalizing t with
  | nil => rfl
  | cons p ls ih => exact ih _

theorem map_hangRight (rs : Side α) (t : BinaryTree α) :
    (hangRight rs t).map f = hangRight (mapSide f rs) (t.map f) := by
  induction rs generalizing t with
  | nil => rfl
  | cons p rs ih => exact ih _

theorem map_assemble (x : α) (l r : BinaryTree α) (ls rs : Side α) :
    (assemble x l r ls rs).map f =
      assemble (f x) (l.map f) (r.map f) (mapSide f ls) (mapSide f rs) := by
  rw [assemble, assemble, BinaryTree.map, map_hangLeft, map_hangRight]

@[simp] theorem isNil_map (t : BinaryTree α) : isNil (t.map f) = isNil t := by
  cases t <;> rfl

/-- The comparison is all that the loop sees of an entry. -/
theorem map_splayLoop (t : BinaryTree α) (ls rs : Side α) :
    (splayLoop (fun x => c (f x)) t ls rs).map f =
      splayLoop c (t.map f) (mapSide f ls) (mapSide f rs) := by
  fun_induction splayLoop (fun x => c (f x)) t ls rs with
  | case1 ls rs => rfl
  | case2 x r ls rs hx =>
    rw [map_assemble, splayLoop.eq_def c (map f (.node x _ _))]
    simp only [BinaryTree.map, if_pos hx]
  | case3 x r ls rs hx y ll lr hy hll =>
    rw [map_assemble, splayLoop.eq_def c (map f (.node x _ _))]
    simp only [BinaryTree.map, if_pos hx, if_pos hy, isNil_map, hll, if_true]
  | case4 x r ls rs hx y ll lr hy hll ih =>
    rw [ih, splayLoop.eq_def c (map f (.node x _ _))]
    simp only [BinaryTree.map, if_pos hx, if_pos hy, isNil_map, if_neg hll]
    rfl
  | case5 x r ls rs hx y ll lr hy ih =>
    rw [ih, splayLoop.eq_def c (map f (.node x _ _))]
    simp only [BinaryTree.map, if_pos hx, if_neg hy]
    rfl
  | case6 x l ls rs hx hx' =>
    rw [map_assemble, splayLoop.eq_def c (map f (.node x _ _))]
    simp only [BinaryTree.map, if_neg hx, if_pos hx']
  | case7 x l ls rs hx hx' y rl rr hy hrr =>
    rw [map_assemble, splayLoop.eq_def c (map f (.node x _ _))]
    simp only [BinaryTree.map, if_neg hx, if_pos hx', if_pos hy, isNil_map, hrr, if_true]
  | case8 x l ls rs hx hx' y rl rr hy hrr ih =>
    rw [ih, splayLoop.eq_def c (map f (.node x _ _))]
    simp only [BinaryTree.map, if_neg hx, if_pos hx', if_pos hy, isNil_map, if_neg hrr]
    rfl
  | case9 x l ls rs hx hx' y rl rr hy ih =>
    rw [ih, splayLoop.eq_def c (map f (.node x _ _))]
    simp only [BinaryTree.map, if_neg hx, if_pos hx', if_neg hy]
    rfl
  | case10 x l r ls rs hx hx' =>
    rw [map_assemble, splayLoop.eq_def c (map f (.node x _ _))]
    simp only [BinaryTree.map, if_neg hx, if_neg hx']

theorem map_splay (t : BinaryTree α) :
    (splay (fun x => c (f x)) t).map f = splay c (t.map f) := map_splayLoop f c t [] []

theorem map_insert (n : α) (t : BinaryTree α) :
    (insert (fun x => c (f x)) n t).1.map f = (insert c (f n) (t.map f)).1 := by
  have h := map_splay f c t
  unfold insert
  rw [← h]
  cases splay (fun x => c (f x)) t with
  | nil => rfl
  | node x l r =>
    simp only [BinaryTree.map]
    split_ifs <;> rfl

theorem map_remove (t : BinaryTree α) :
    (remove (fun x => c (f x)) t).1.map f = (remove c (t.map f)).1 := by
  have h := map_splay f c t
  unfold remove
  rw [← h]
  cases splay (fun x => c (f x)) t with
  | nil => rfl
  | node x l r =>
    have hl := map_splay f c l
    simp only [BinaryTree.map]
    rw [← hl]
    split_ifs
    · cases splay (fun x => c (f x)) l <;> rfl
    · rfl
end

end WanStack.Splay
