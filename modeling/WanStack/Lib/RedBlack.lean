import WanStack.Lib.SearchTree

set_option autoImplicit false

/-!
# Red-black trees with parent links

A position in the tree is a subtree with the frames above it, nearest first;
the frames stand for the parent links. Insertion descends by a comparison
with the new entry, removal starts from a node that is pointed at. Neither
needs the comparison to be an order.
-/
namespace WanStack.RedBlack
open BinaryTree SearchTree

variable {α : Type}

inductive Color where
  | red
  | black
deriving DecidableEq, Repr

/-- A tree whose nodes carry a color. -/
abbrev Tree (α : Type) := BinaryTree (Color × α)

/-- The node above a hole: `left` when the hole is its left child. -/
structure Frame (α : Type) where
  left : Bool
  color : Color
  value : α
  sib : Tree α

def entries (t : Tree α) : BinaryTree α := t.map Prod.snd

def isRed : Tree α → Bool
  | node (.red, _) _ _ => true
  | _ => false

def blacken : Tree α → Tree α
  | nil => nil
  | node (_, x) l r => node (.black, x) l r

def plug (t : Tree α) (f : Frame α) : Tree α :=
  if f.left then node (f.color, f.value) t f.sib else node (f.color, f.value) f.sib t

def zip : Tree α → List (Frame α) → Tree α
  | t, [] => t
  | t, f :: fs => zip (plug t f) fs

/-- The rotations under the grandparent `g` of the red node `n`, whose parent
    is `p`: the parent takes its place, after `n` took the parent's when it
    is the inner child. -/
def rotateUp (n : Tree α) (p g : Frame α) : Tree α :=
  match p.left, g.left with
  | true, true => node (.black, p.value) n (node (.red, g.value) p.sib g.sib)
  | false, false => node (.black, p.value) (node (.red, g.value) g.sib p.sib) n
  | false, true =>
    match n with
    | nil => nil
    | node (_, x) l r =>
      node (.black, x) (node (p.color, p.value) p.sib l) (node (.red, g.value) r g.sib)
  | true, false =>
    match n with
    | nil => nil
    | node (_, x) l r =>
      node (.black, x) (node (.red, g.value) g.sib l) (node (p.color, p.value) r p.sib)

/-- The loop after an insertion, from the red node upwards. -/
def insertColor : Tree α → List (Frame α) → Tree α
  | n, [] => blacken n
  | n, [p] => blacken (plug n p)
  | n, p :: g :: fs =>
    if p.color = .red then
      if isRed g.sib then
        insertColor (plug (plug n { p with color := .black })
          { g with color := .red, sib := blacken g.sib }) fs
      else blacken (zip (rotateUp n p g) fs)
    else blacken (zip n (p :: g :: fs))

/-- The descent: the frames to the place of the new entry, or the entry equal
    to it. -/
def descend (c : α → ℤ) : Tree α → List (Frame α) → Except α (List (Frame α))
  | nil, fs => .ok fs
  | node (k, x) l r, fs =>
    if c x < 0 then descend c l (⟨true, k, x, r⟩ :: fs)
    else if c x > 0 then descend c r (⟨false, k, x, l⟩ :: fs)
    else .error x

/-- The new tree, and the equal entry that kept `n` out. -/
def insert (c : α → ℤ) (n : α) (t : Tree α) : Tree α × Option α :=
  match descend c t [] with
  | .ok fs => (insertColor (node (.red, n) nil nil) fs, none)
  | .error x => (t, some x)

/-- One round after a removal with a black sibling: the hole `n` is the left
    child of `(k, p)`. The flag says that the parent is one black node short. -/
def mendLeft (n : Tree α) (k : Color) (p : α) : Tree α → Tree α × Bool
  | nil => (node (k, p) n nil, false)
  | node (kt, t) tl tr =>
    if !isRed tl && !isRed tr then (node (k, p) n (node (.red, t) tl tr), true)
    else if !isRed tr then
      match tl with
      | nil => (node (k, p) n (node (kt, t) tl tr), false)
      | node (_, l) ll lr =>
        (node (k, l) (node (.black, p) n ll) (node (.black, t) lr tr), false)
    else (node (k, t) (node (.black, p) n tl) (blacken tr), false)

def mendRight (n : Tree α) (k : Color) (p : α) : Tree α → Tree α × Bool
  | nil => (node (k, p) nil n, false)
  | node (kt, t) tl tr =>
    if !isRed tl && !isRed tr then (node (k, p) (node (.red, t) tl tr) n, true)
    else if !isRed tl then
      match tr with
      | nil => (node (k, p) (node (kt, t) tl tr) n, false)
      | node (_, r) rl rr =>
        (node (k, r) (node (.black, t) tl rl) (node (.black, p) rr n), false)
    else (node (k, t) (blacken tl) (node (.black, p) tr n), false)

/-- The loop after the removal of a black node, from its child upwards. -/
def removeColor : Tree α → List (Frame α) → Tree α
  | n, [] => blacken n
  | n, f :: fs =>
    if isRed n then zip (blacken n) (f :: fs) else
    match f.sib with
    | node (.red, t) tl tr =>
      -- the sibling goes up, the parent gets red under it
      let near := if f.left then tl else tr
      let m := if f.left then mendLeft n .red f.value near else mendRight n .red f.value near
      let up : Frame α := ⟨f.left, .black, t, if f.left then tr else tl⟩
      if m.2 then zip (blacken m.1) (up :: fs) else blacken (zip m.1 (up :: fs))
    | sib =>
      let m := if f.left then mendLeft n f.color f.value sib
        else mendRight n f.color f.value sib
      if m.2 then removeColor m.1 fs else blacken (zip m.1 fs)

/-- The position of the first node with a property. -/
def locate (p : α → Bool) : Tree α → List (Frame α) →
    Option (Color × α × Tree α × Tree α × List (Frame α))
  | nil, _ => none
  | node (k, x) l r, fs =>
    if p x then some (k, x, l, r, fs)
    else (locate p l (⟨true, k, x, r⟩ :: fs)).or (locate p r (⟨false, k, x, l⟩ :: fs))

/-- The leftmost node of a tree that is not empty: color, entry, right
    subtree and the frames above. -/
def leftmost (k : Color) (x : α) (r : Tree α) : Tree α → List (Frame α) →
    Color × α × Tree α × List (Frame α)
  | nil, fs => (k, x, r, fs)
  | node (k', x') l' r', fs => leftmost k' x' r' l' (⟨true, k, x, r⟩ :: fs)

/-- Close the gap a node of color `k` left with `child`. -/
def splice (k : Color) (child : Tree α) (fs : List (Frame α)) : Tree α :=
  if k = .black then removeColor child fs else zip child fs

def remove (p : α → Bool) (t : Tree α) : Tree α :=
  match locate p t [] with
  | none => t
  | some (k, _, nil, r, fs) => splice k r fs
  | some (k, _, l, nil, fs) => splice k l fs
  | some (k, _, l, node (k', x') l' r', fs) =>
    let (kn, n, child, below) := leftmost k' x' r' l' []
    splice kn child (below ++ ⟨false, k, n, l⟩ :: fs)

@[simp] theorem entries_nil : entries (nil : Tree α) = nil := rfl

@[simp] theorem entries_node (k : Color) (x : α) (l r : Tree α) :
    entries (node (k, x) l r) = node x (entries l) (entries r) := rfl

@[simp] theorem entries_blacken (t : Tree α) : entries (blacken t) = entries t := by
  rcases t with - | ⟨⟨k, x⟩, l, r⟩ <;> rfl

/-- The entries of a tree, from left to right. -/
def list (t : Tree α) : List α := toList (entries t)

@[simp] theorem list_nil : list (nil : Tree α) = [] := rfl

@[simp] theorem list_node (k : Color) (x : α) (l r : Tree α) :
    list (node (k, x) l r) = list l ++ x :: list r := rfl

@[simp] theorem list_blacken (t : Tree α) : list (blacken t) = list t := by
  simp [list]

/-- The entries on the left of a hole, and those on its right. -/
def before : List (Frame α) → List α
  | [] => []
  | f :: fs => before fs ++ if f.left then [] else list f.sib ++ [f.value]

def after : List (Frame α) → List α
  | [] => []
  | f :: fs => (if f.left then f.value :: list f.sib else []) ++ after fs

theorem list_plug (t : Tree α) (f : Frame α) :
    list (plug t f) = (if f.left then [] else list f.sib ++ [f.value]) ++ list t ++
      if f.left then f.value :: list f.sib else [] := by
  unfold plug
  split <;> simp

@[simp] theorem list_zip (t : Tree α) (fs : List (Frame α)) :
    list (zip t fs) = before fs ++ list t ++ after fs := by
  induction fs generalizing t with
  | nil => simp [zip, before, after]
  | cons f fs ih =>
    rw [zip, ih, list_plug, before, after]
    simp

theorem before_append (fs gs : List (Frame α)) : before (fs ++ gs) = before gs ++ before fs := by
  induction fs with
  | nil => simp [before]
  | cons f fs ih => simp [before, ih]

theorem after_append (fs gs : List (Frame α)) : after (fs ++ gs) = after fs ++ after gs := by
  induction fs with
  | nil => simp [after]
  | cons f fs ih => simp [after, ih]

theorem list_rotateUp (x : α) (l r : Tree α) (k : Color) (p g : Frame α) :
    list (rotateUp (node (k, x) l r) p g) =
      before [p, g] ++ list (node (k, x) l r) ++ after [p, g] := by
  rcases p with ⟨- | -, pk, pv, ps⟩ <;> rcases g with ⟨- | -, gk, gv, gs⟩ <;>
    simp [rotateUp, before, after]

theorem list_insertColor (n : Tree α) (fs : List (Frame α)) (hn : n ≠ nil) :
    list (insertColor n fs) = before fs ++ list n ++ after fs := by
  fun_induction insertColor n fs with
  | case1 n => simp [before, after]
  | case2 n p => simp [list_plug, before, after]
  | case3 n p g fs hp hg ih =>
    rw [ih (by unfold plug; split <;> simp), list_plug, list_plug]
    simp only [before, after, list_blacken]
    rcases p with ⟨- | -, pk, pv, ps⟩ <;> rcases g with ⟨- | -, gk, gv, gs⟩ <;> simp
  | case4 n p g fs hp hg =>
    rcases n with - | ⟨⟨k, x⟩, l, r⟩
    · exact absurd rfl hn
    · rw [list_blacken, list_zip, list_rotateUp]
      simp [before, after]
  | case5 n p g fs hp => simp

theorem descend_error {c : α → ℤ} {t : Tree α} {fs : List (Frame α)} {x : α}
    (h : descend c t fs = .error x) : find c (entries t) = some x := by
  fun_induction descend c t fs with
  | case1 fs => simp at h
  | case2 fs k y l r hy ih => simpa [find, hy] using ih h
  | case3 fs k y l r hy hy' ih => simpa [find, hy, hy'] using ih h
  | case4 fs k y l r hy hy' => simpa [find, hy, hy'] using h

theorem descend_ok {c : α → ℤ} {t : Tree α} {fs gs : List (Frame α)}
    (h : descend c t fs = .ok gs) (hlast : ∀ a ∈ (before fs).getLast?, 0 < c a)
    (hhead : ∀ b ∈ (after fs).head?, c b < 0) :
    find c (entries t) = none ∧ before fs ++ list t ++ after fs = before gs ++ after gs ∧
      (∀ a ∈ (before gs).getLast?, 0 < c a) ∧ ∀ b ∈ (after gs).head?, c b < 0 := by
  fun_induction descend c t fs with
  | case1 fs =>
    obtain rfl := Except.ok.inj h
    exact ⟨rfl, by simp, hlast, hhead⟩
  | case2 fs k y l r hy ih =>
    obtain ⟨hfind, hlist, hl, hr⟩ := ih h (by simpa [before] using hlast)
      (by simpa [after] using hy)
    refine ⟨by simpa [find, hy] using hfind, ?_, hl, hr⟩
    rw [← hlist]
    simp [before, after]
  | case3 fs k y l r hy hy' ih =>
    obtain ⟨hfind, hlist, hl, hr⟩ := ih h (by simpa [before, ← List.append_assoc] using hy')
      (by simpa [after] using hhead)
    refine ⟨by simpa [find, hy, hy'] using hfind, ?_, hl, hr⟩
    rw [← hlist]
    simp [before, after]
  | case4 fs k y l r hy hy' => simp at h

/-- An insertion adds the entry, unless the search finds an equal one. -/
theorem insert_spec (c : α → ℤ) (n : α) (t : Tree α) :
    ((insert c n t).2 = none ∧ find c (entries t) = none ∧
      Inserted c n (list t) (list (insert c n t).1)) ∨
    ∃ x, (insert c n t).2 = some x ∧ find c (entries t) = some x ∧ (insert c n t).1 = t := by
  unfold insert
  cases h : descend c t [] with
  | error x => exact .inr ⟨x, rfl, descend_error h, rfl⟩
  | ok fs =>
    obtain ⟨hfind, hlist, hl, hr⟩ := descend_ok h (by simp [before]) (by simp [after])
    refine .inl ⟨rfl, hfind, before fs, after fs, ?_, ?_, hl, hr⟩
    · simpa [before, after] using hlist
    · simp [list_insertColor]

theorem list_mendLeft (n : Tree α) (k : Color) (p : α) (sib : Tree α) :
    list (mendLeft n k p sib).1 = list n ++ p :: list sib := by
  rcases sib with - | ⟨⟨kt, t⟩, tl, tr⟩
  · rfl
  · simp only [mendLeft]
    split
    · simp
    · split
      · rcases tl with - | ⟨⟨_, l⟩, ll, lr⟩ <;> simp
      · simp

theorem list_mendRight (n : Tree α) (k : Color) (p : α) (sib : Tree α) :
    list (mendRight n k p sib).1 = list sib ++ p :: list n := by
  rcases sib with - | ⟨⟨kt, t⟩, tl, tr⟩
  · rfl
  · simp only [mendRight]
    split
    · simp
    · split
      · rcases tr with - | ⟨⟨_, l⟩, ll, lr⟩ <;> simp
      · simp

theorem list_removeColor (n : Tree α) (fs : List (Frame α)) :
    list (removeColor n fs) = before fs ++ list n ++ after fs := by
  fun_induction removeColor n fs with
  | case1 n => simp [before, after]
  | case2 n f fs hn => simp
  | case3 n f fs hn t tl tr hsib near m up hm =>
    rcases f with ⟨- | -, fk, fv, fsib⟩ <;> subst hsib <;>
      simp [m, near, up, list_mendLeft, list_mendRight, before, after]
  | case4 n f fs hn t tl tr hsib near m up hm =>
    rcases f with ⟨- | -, fk, fv, fsib⟩ <;> subst hsib <;>
      simp [m, near, up, list_mendLeft, list_mendRight, before, after]
  | case5 n f fs hn hsib m hm ih =>
    rw [ih]
    rcases f with ⟨- | -, fk, fv, fsib⟩ <;>
      simp [m, list_mendLeft, list_mendRight, before, after]
  | case6 n f fs hn hsib m hm =>
    rcases f with ⟨- | -, fk, fv, fsib⟩ <;>
      simp [m, list_mendLeft, list_mendRight, before, after]

@[simp] theorem list_splice (k : Color) (child : Tree α) (fs : List (Frame α)) :
    list (splice k child fs) = before fs ++ list child ++ after fs := by
  unfold splice
  split
  · exact list_removeColor ..
  · exact list_zip ..

theorem locate_some {p : α → Bool} {t l r : Tree α} {fs gs : List (Frame α)} {k : Color} {x : α}
    (h : locate p t fs = some (k, x, l, r, gs)) :
    p x = true ∧ before fs ++ list t ++ after fs =
      before gs ++ list l ++ x :: list r ++ after gs := by
  fun_induction locate p t fs with
  | case1 fs => simp at h
  | case2 fs k' y l' r' hy =>
    simp only [Option.some.injEq, Prod.mk.injEq] at h
    obtain ⟨rfl, rfl, rfl, rfl, rfl⟩ := h
    exact ⟨hy, by simp⟩
  | case3 fs k' y l' r' hy ihl ihr =>
    rcases Option.or_eq_some_iff.mp h with h | ⟨-, h⟩
    · obtain ⟨hp, hlist⟩ := ihl h
      refine ⟨hp, ?_⟩
      rw [← hlist]
      simp [before, after]
    · obtain ⟨hp, hlist⟩ := ihr h
      refine ⟨hp, ?_⟩
      rw [← hlist]
      simp [before, after]

theorem locate_none {p : α → Bool} {t : Tree α} {fs : List (Frame α)}
    (h : locate p t fs = none) : ∀ x ∈ list t, p x = false := by
  fun_induction locate p t fs with
  | case1 fs => simp
  | case2 fs k y l r hy => simp at h
  | case3 fs k y l r hy ihl ihr =>
    obtain ⟨hl, hr⟩ := Option.or_eq_none_iff.mp h
    intro x hx
    simp only [list_node, List.mem_append, List.mem_cons] at hx
    rcases hx with hx | rfl | hx
    · exact ihl hl x hx
    · simpa using hy
    · exact ihr hr x hx

theorem list_leftmost {k kn : Color} {x n : α} {l r child : Tree α} {fs gs : List (Frame α)}
    (h : leftmost k x r l fs = (kn, n, child, gs)) :
    before fs ++ (list l ++ x :: list r) ++ after fs =
      before gs ++ n :: list child ++ after gs := by
  fun_induction leftmost k x r l fs with
  | case1 k x r fs =>
    simp only [Prod.mk.injEq] at h
    obtain ⟨rfl, rfl, rfl, rfl⟩ := h
    simp
  | case2 k x r fs k' x' l' r' ih =>
    rw [← ih h]
    simp [before, after]

theorem before_leftmost {k kn : Color} {x n : α} {l r child : Tree α} {fs gs : List (Frame α)}
    (h : leftmost k x r l fs = (kn, n, child, gs)) : before gs = before fs := by
  fun_induction leftmost k x r l fs with
  | case1 k x r fs =>
    simp only [Prod.mk.injEq] at h
    obtain ⟨-, -, -, rfl⟩ := h
    rfl
  | case2 k x r fs k' x' l' r' ih => simp [ih h, before]

/-- A removal takes out one entry with the property, and only that. -/
theorem remove_spec (p : α → Bool) (t : Tree α) :
    (remove p t = t ∧ ∀ x ∈ list t, p x = false) ∨
    ∃ x, p x = true ∧ Removed x (list t) (list (remove p t)) := by
  unfold remove
  split
  · rename_i h
    exact .inl ⟨rfl, locate_none h⟩
  · rename_i k x r fs h
    obtain ⟨hp, hlist⟩ := locate_some h
    refine .inr ⟨x, hp, before fs, list r ++ after fs, ?_, by simp⟩
    simpa [before, after] using hlist
  · rename_i k x l fs hl h
    obtain ⟨hp, hlist⟩ := locate_some h
    refine .inr ⟨x, hp, before fs ++ list l, after fs, ?_, by simp⟩
    simpa [before, after] using hlist
  · rename_i k x l k' x' l' r' fs hl h
    obtain ⟨hp, hlist⟩ := locate_some h
    cases hm : leftmost k' x' r' l' [] with
    | mk kn m =>
      obtain ⟨n, child, below⟩ := m
      have hleft := list_leftmost hm
      have hbefore := before_leftmost hm
      simp only [before, after, List.nil_append, List.append_nil] at hleft hbefore
      rw [hbefore, List.nil_append] at hleft
      refine .inr ⟨x, hp, before fs ++ list l, n :: list child ++ after below ++ after fs, ?_, ?_⟩
      · simp only [before, after, List.nil_append, List.append_nil] at hlist
        rw [hlist, list_node, hleft]
        simp
      · rw [list_splice, before_append, after_append, hbefore]
        simp [before, after]

end WanStack.RedBlack
