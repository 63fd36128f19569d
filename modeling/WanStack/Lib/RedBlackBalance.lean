import WanStack.Lib.RedBlack

set_option autoImplicit false

/-!
# Balance of red-black trees

No red node has a red child, all paths down have the same number of black nodes and the root
is black. Around a hole the frames are judged without what fills it: `Fits n` holds when a
subtree of black height `n` in the hole makes all heights equal.
-/
namespace WanStack.RedBlack
open BinaryTree SearchTree

variable {α : Type}

/-- The black height of a node over children of height `n`. -/
def grow : Color → ℕ → ℕ
  | .red, n => n
  | .black, n => n + 1

def BlackHeight : ℕ → Tree α → Prop
  | n, nil => n = 0
  | n, node (k, _) l r => ∃ m, n = grow k m ∧ BlackHeight m l ∧ BlackHeight m r

def NoRedRed : Tree α → Prop
  | nil => True
  | node (k, _) l r => (k = .red → isRed l = false ∧ isRed r = false) ∧ NoRedRed l ∧ NoRedRed r

structure Balanced (t : Tree α) : Prop where
  root : isRed t = false
  noRedRed : NoRedRed t
  height : ∃ n, BlackHeight n t

def Fits : ℕ → List (Frame α) → Prop
  | _, [] => True
  | n, f :: fs => BlackHeight n f.sib ∧ Fits (grow f.color n) fs

/-- A hole may be filled with a red node. At the root it may not. -/
def BlackAbove : List (Frame α) → Prop
  | [] => False
  | f :: _ => f.color = .black

def FramesOk : List (Frame α) → Prop
  | [] => True
  | f :: fs => NoRedRed f.sib ∧ (f.color = .red → isRed f.sib = false ∧ BlackAbove fs) ∧ FramesOk fs

variable {t n l r : Tree α} {f : Frame α} {fs : List (Frame α)} {k : Color} {x : α} {m : ℕ}

@[simp] theorem isRed_nil : isRed (nil : Tree α) = false := rfl

@[simp] theorem isRed_node : isRed (node (k, x) l r) = decide (k = .red) := by
  cases k <;> rfl

@[simp] theorem grow_red (n : ℕ) : grow .red n = n := rfl

@[simp] theorem grow_black (n : ℕ) : grow .black n = n + 1 := rfl

theorem blackHeight_plug : BlackHeight m (plug t f) ↔
    ∃ n, m = grow f.color n ∧ BlackHeight n t ∧ BlackHeight n f.sib := by
  unfold plug
  split
  · rfl
  · simp only [BlackHeight, and_comm]

theorem noRedRed_plug : NoRedRed (plug t f) ↔
    (f.color = .red → isRed t = false ∧ isRed f.sib = false) ∧ NoRedRed t ∧ NoRedRed f.sib := by
  unfold plug
  split
  · rfl
  · simp only [NoRedRed, and_comm]

@[simp] theorem isRed_plug : isRed (plug t f) = decide (f.color = .red) := by
  unfold plug
  split <;> simp

theorem BlackHeight.node (hl : BlackHeight m l) (hr : BlackHeight m r) :
    BlackHeight (grow k m) (.node (k, x) l r) := ⟨m, rfl, hl, hr⟩

theorem BlackHeight.red (hl : BlackHeight m l) (hr : BlackHeight m r) :
    BlackHeight m (.node (.red, x) l r) := ⟨m, rfl, hl, hr⟩

theorem BlackHeight.black (hl : BlackHeight m l) (hr : BlackHeight m r) :
    BlackHeight (m + 1) (.node (.black, x) l r) := ⟨m, rfl, hl, hr⟩

theorem NoRedRed.black (hl : NoRedRed l) (hr : NoRedRed r) :
    NoRedRed (.node (.black, x) l r) := by
  refine ⟨fun hk => ?_, hl, hr⟩
  cases hk

theorem NoRedRed.over_black (hl : NoRedRed l) (hlb : isRed l = false) (hr : NoRedRed r)
    (hrb : isRed r = false) : NoRedRed (.node (k, x) l r) := ⟨fun _ => ⟨hlb, hrb⟩, hl, hr⟩

theorem blackHeight_unique {m' : ℕ} (h : BlackHeight m t) (h' : BlackHeight m' t) : m = m' := by
  induction t generalizing m m' with
  | nil => exact h.trans h'.symm
  | node p l r ihl ihr =>
    obtain ⟨a, rfl, hl, -⟩ := h
    obtain ⟨b, rfl, hl', -⟩ := h'
    rw [ihl hl hl']

/-- A tree is balanced when the subtree in the hole fits the frames around it. -/
theorem balanced_zip : Balanced (zip t fs) ↔ NoRedRed t ∧ (isRed t = true → BlackAbove fs) ∧
    FramesOk fs ∧ ∃ n, BlackHeight n t ∧ Fits n fs := by
  induction fs generalizing t with
  | nil =>
    constructor
    · rintro ⟨hroot, hred, m, hm⟩
      have hblack : isRed t = false := hroot
      exact ⟨hred, fun h => absurd (hblack.symm.trans h) Bool.false_ne_true, trivial, m, hm, trivial⟩
    · rintro ⟨hred, habove, -, m, hm, -⟩
      exact ⟨Bool.eq_false_iff.mpr habove, hred, m, hm⟩
  | cons f fs ih =>
    simp only [zip, ih, isRed_plug, noRedRed_plug, blackHeight_plug, FramesOk, Fits, BlackAbove,
      decide_eq_true_eq]
    constructor
    · rintro ⟨⟨hred, ht, hsib⟩, habove, hfs, _, ⟨m, rfl, hm, hms⟩, hfits⟩
      refine ⟨ht, ?_, ⟨hsib, fun h => ⟨(hred h).2, habove h⟩, hfs⟩, m, hm, hms, hfits⟩
      intro h
      cases hk : f.color with
      | red => simp [(hred hk).1] at h
      | black => rfl
    · rintro ⟨ht, hblack, ⟨hsib, hred, hfs⟩, m, hm, hms, hfits⟩
      refine ⟨⟨?_, ht, hsib⟩, fun h => (hred h).2, hfs, _, ⟨m, rfl, hm, hms⟩, hfits⟩
      intro h
      refine ⟨Bool.eq_false_iff.mpr fun hr => ?_, (hred h).1⟩
      rw [hblack hr] at h
      cases h

theorem blacken_of_black (h : isRed t = false) : blacken t = t := by
  rcases t with - | ⟨⟨- | -, x⟩, l, r⟩
  · rfl
  · cases h
  · rfl

@[simp] theorem isRed_blacken : isRed (blacken t) = false := by
  rcases t with - | ⟨⟨k, x⟩, l, r⟩ <;> rfl

theorem NoRedRed.blacken (h : NoRedRed t) : NoRedRed (blacken t) := by
  rcases t with - | ⟨⟨k, x⟩, l, r⟩
  · trivial
  · refine ⟨fun hk => ?_, h.2⟩
    cases hk

theorem BlackHeight.blacken (h : BlackHeight m t) (hred : isRed t = true) :
    BlackHeight (m + 1) (blacken t) := by
  rcases t with - | ⟨⟨- | -, x⟩, l, r⟩
  · cases hred
  · obtain ⟨_, rfl, h⟩ := h
    exact ⟨_, rfl, h⟩
  · cases hred

theorem Balanced.blacken (h : Balanced t) : Balanced (blacken t) := by
  rw [blacken_of_black h.root]
  exact h

theorem NoRedRed.balanced_blacken (h : NoRedRed t) (hm : BlackHeight m t) :
    Balanced (RedBlack.blacken t) := by
  refine ⟨isRed_blacken, h.blacken, ?_⟩
  by_cases hred : isRed t = true
  · exact ⟨m + 1, hm.blacken hred⟩
  · rw [blacken_of_black (Bool.eq_false_iff.mpr hred)]
    exact ⟨m, hm⟩

/-- The rotations leave a black node over red ones. -/
theorem rotateUp_ok {p g : Frame α} (hred : isRed n = true) (hn : NoRedRed n)
    (hm : BlackHeight m n) (hp : p.color = .red) (hps : isRed p.sib = false)
    (hnps : NoRedRed p.sib) (hmp : BlackHeight m p.sib) (hgs : isRed g.sib = false)
    (hngs : NoRedRed g.sib) (hmg : BlackHeight m g.sib) :
    isRed (rotateUp n p g) = false ∧ NoRedRed (rotateUp n p g) ∧
      BlackHeight (m + 1) (rotateUp n p g) := by
  rcases n with - | ⟨⟨- | -, x⟩, l, r⟩
  · cases hred
  · obtain ⟨hlr, hnl, hnr⟩ := hn
    obtain ⟨hl, hr⟩ := hlr rfl
    obtain ⟨_, rfl, hml, hmr⟩ := hm
    rcases p with ⟨- | -, pk, pv, ps⟩ <;> rcases g with ⟨- | -, gk, gv, gs⟩ <;>
      simp only at hp hps hnps hmp hgs hngs hmg <;> subst hp <;>
      simp [rotateUp, NoRedRed, BlackHeight, hl, hr, hnl, hnr, hml, hmr, hps, hnps, hmp, hgs,
        hngs, hmg]
  · cases hred

theorem eq_black (h : k ≠ .red) : k = .black := by
  cases k with
  | red => exact absurd rfl h
  | black => rfl

/-- A red node put in the place of a leaf, or moved up from there. -/
theorem insertColor_balanced (hred : isRed n = true) (hn : NoRedRed n) (hm : BlackHeight m n)
    (hfs : FramesOk fs) (hfits : Fits m fs) : Balanced (insertColor n fs) := by
  fun_induction insertColor n fs generalizing m with
  | case1 n => exact hn.balanced_blacken hm
  | case2 n p =>
    have hp : p.color = .black := eq_black fun h => (hfs.2.1 h).2
    have hzip : Balanced (zip n [p]) := balanced_zip.mpr ⟨hn, fun _ => hp, hfs, m, hm, hfits⟩
    exact hzip.blacken
  | case3 n p g fs hp hg ih =>
    obtain ⟨hnp, hredp, hng, -, hfs⟩ := hfs
    obtain ⟨hmp, hmg, hfits⟩ := hfits
    have hgb : g.color = .black := (hredp hp).2
    rw [hp, grow_red] at hmg hfits
    rw [hgb, grow_black] at hfits
    -- the black level goes from the grandparent to its children
    apply ih (by simp) _ _ hfs hfits
    · rw [noRedRed_plug, noRedRed_plug]
      exact ⟨fun _ => ⟨by simp, isRed_blacken⟩, ⟨fun h => absurd h.symm Color.noConfusion, hn, hnp⟩,
        hng.blacken⟩
    · rw [blackHeight_plug]
      exact ⟨m + 1, rfl, blackHeight_plug.mpr ⟨m, rfl, hm, hmp⟩, hmg.blacken hg⟩
  | case4 n p g fs hp hg =>
    obtain ⟨hnp, hredp, hng, -, hfs⟩ := hfs
    obtain ⟨hmp, hmg, hfits⟩ := hfits
    have hgb : g.color = .black := (hredp hp).2
    rw [hp, grow_red] at hmg hfits
    rw [hgb, grow_black] at hfits
    obtain ⟨hblack, hok, hheight⟩ := rotateUp_ok hred hn hm hp (hredp hp).1 hnp hmp
      (Bool.eq_false_iff.mpr hg) hng hmg
    have hzip : Balanced (zip (rotateUp n p g) fs) :=
      balanced_zip.mpr ⟨hok, fun h => absurd (hblack.symm.trans h) Bool.false_ne_true, hfs, m + 1,
        hheight, hfits⟩
    exact hzip.blacken
  | case5 n p g fs hp =>
    have hzip : Balanced (zip n (p :: g :: fs)) :=
      balanced_zip.mpr ⟨hn, fun _ => eq_black hp, hfs, m, hm, hfits⟩
    exact hzip.blacken

/-- What a round of the repair leaves, where the hole was one black node short: the parent
    is one short, or nothing is. -/
def Mended (k : Color) (m : ℕ) (r : Tree α × Bool) : Prop :=
  isRed r.1 = decide (k = .red) ∧
    if r.2 then NoRedRed (blacken r.1) ∧ BlackHeight (grow k m) r.1
    else NoRedRed r.1 ∧ BlackHeight (grow k (m + 1)) r.1

theorem mendLeft_ok {s : Tree α} (hn : NoRedRed n) (hm : BlackHeight m n) (hs : NoRedRed s)
    (hsb : isRed s = false) (hms : BlackHeight (m + 1) s) : Mended k m (mendLeft n k x s) := by
  rcases s with - | ⟨⟨- | -, t⟩, tl, tr⟩
  · cases hms
  · cases hsb
  obtain ⟨-, hnl, hnr⟩ := hs
  obtain ⟨_, heq, hml, hmr⟩ := hms
  obtain rfl : m = _ := Nat.succ.inj heq
  by_cases hr : isRed tr = true
  · have hmend : mendLeft n k x (node (.black, t) tl tr) =
        (node (k, t) (node (.black, x) n tl) (blacken tr), false) := by simp [mendLeft, hr]
    rw [hmend]
    exact ⟨isRed_node, (hn.black hnl).over_black rfl hnr.blacken isRed_blacken,
      (hm.black hml).node (hmr.blacken hr)⟩
  · rw [Bool.not_eq_true] at hr
    rcases tl with - | ⟨⟨- | -, y⟩, ll, lr⟩
    · have hmend : mendLeft n k x (node (.black, t) nil tr) =
          (node (k, x) n (node (.red, t) nil tr), true) := by simp [mendLeft, hr]
      rw [hmend]
      exact ⟨isRed_node, hn.black (hnl.over_black rfl hnr hr), hm.node (hml.red hmr)⟩
    · have hmend : mendLeft n k x (node (.black, t) (node (.red, y) ll lr) tr) =
          (node (k, y) (node (.black, x) n ll) (node (.black, t) lr tr), false) := by
        simp [mendLeft, hr]
      obtain ⟨_, rfl, hmll, hmlr⟩ := hml
      rw [hmend]
      exact ⟨isRed_node, (hn.black hnl.2.1).over_black rfl (hnl.2.2.black hnr) rfl,
        (hm.black hmll).node (hmlr.black hmr)⟩
    · have hmend : mendLeft n k x (node (.black, t) (node (.black, y) ll lr) tr) =
          (node (k, x) n (node (.red, t) (node (.black, y) ll lr) tr), true) := by
        simp [mendLeft, hr]
      rw [hmend]
      exact ⟨isRed_node, hn.black (hnl.over_black rfl hnr hr), hm.node (hml.red hmr)⟩

theorem mendRight_ok {s : Tree α} (hn : NoRedRed n) (hm : BlackHeight m n) (hs : NoRedRed s)
    (hsb : isRed s = false) (hms : BlackHeight (m + 1) s) : Mended k m (mendRight n k x s) := by
  rcases s with - | ⟨⟨- | -, t⟩, tl, tr⟩
  · cases hms
  · cases hsb
  obtain ⟨-, hnl, hnr⟩ := hs
  obtain ⟨_, heq, hml, hmr⟩ := hms
  obtain rfl : m = _ := Nat.succ.inj heq
  by_cases hl : isRed tl = true
  · have hmend : mendRight n k x (node (.black, t) tl tr) =
        (node (k, t) (blacken tl) (node (.black, x) tr n), false) := by simp [mendRight, hl]
    rw [hmend]
    exact ⟨isRed_node, hnl.blacken.over_black isRed_blacken (hnr.black hn) rfl,
      (hml.blacken hl).node (hmr.black hm)⟩
  · rw [Bool.not_eq_true] at hl
    rcases tr with - | ⟨⟨- | -, y⟩, rl, rr⟩
    · have hmend : mendRight n k x (node (.black, t) tl nil) =
          (node (k, x) (node (.red, t) tl nil) n, true) := by simp [mendRight, hl]
      rw [hmend]
      exact ⟨isRed_node, (hnl.over_black hl hnr rfl).black hn, (hml.red hmr).node hm⟩
    · have hmend : mendRight n k x (node (.black, t) tl (node (.red, y) rl rr)) =
          (node (k, y) (node (.black, t) tl rl) (node (.black, x) rr n), false) := by
        simp [mendRight, hl]
      obtain ⟨_, rfl, hmrl, hmrr⟩ := hmr
      rw [hmend]
      exact ⟨isRed_node, (hnl.black hnr.2.1).over_black rfl (hnr.2.2.black hn) rfl,
        (hml.black hmrl).node (hmrr.black hm)⟩
    · have hmend : mendRight n k x (node (.black, t) tl (node (.black, y) rl rr)) =
          (node (k, x) (node (.red, t) tl (node (.black, y) rl rr)) n, true) := by
        simp [mendRight, hl]
      rw [hmend]
      exact ⟨isRed_node, (hnl.over_black hl hnr rfl).black hn, (hml.red hmr).node hm⟩

theorem mend_ok {s : Tree α} (d : Bool) (hn : NoRedRed n) (hm : BlackHeight m n)
    (hs : NoRedRed s) (hsb : isRed s = false) (hms : BlackHeight (m + 1) s) :
    Mended k m (if d then mendLeft n k x s else mendRight n k x s) := by
  cases d with
  | true => exact mendLeft_ok hn hm hs hsb hms
  | false => exact mendRight_ok hn hm hs hsb hms

theorem isRed_of_ne (h : ∀ x l r, t = node (.red, x) l r → False) : isRed t = false := by
  rcases t with - | ⟨⟨- | -, x⟩, l, r⟩
  · rfl
  · exact absurd rfl (h x l r)
  · rfl

/-- Over a red sibling the parent is black, and both children of the sibling can take its
    place. -/
theorem red_sib {t : α} {tl tr : Tree α} (hfs : FramesOk (f :: fs)) (hfits : Fits (m + 1) (f :: fs))
    (hsib : f.sib = node (.red, t) tl tr) :
    f.color = .black ∧
      (NoRedRed (if f.left then tl else tr) ∧ isRed (if f.left then tl else tr) = false ∧
        BlackHeight (m + 1) (if f.left then tl else tr)) ∧
      (NoRedRed (if f.left then tr else tl) ∧ isRed (if f.left then tr else tl) = false ∧
        BlackHeight (m + 1) (if f.left then tr else tl)) ∧ Fits (m + 1 + 1) fs := by
  obtain ⟨hns, hreds, -⟩ := hfs
  obtain ⟨hms, hfit⟩ := hfits
  rw [hsib] at hns hreds hms
  have hk : f.color = .black := eq_black fun h => absurd (hreds h).1 (by simp)
  obtain ⟨hlr, hl, hr⟩ := hns
  obtain ⟨hlb, hrb⟩ := hlr rfl
  obtain ⟨_, heq, hml, hmr⟩ := hms
  obtain rfl : m + 1 = _ := heq
  rw [hk, grow_black] at hfit
  cases f.left with
  | true => exact ⟨hk, ⟨hl, hlb, hml⟩, ⟨hr, hrb, hmr⟩, hfit⟩
  | false => exact ⟨hk, ⟨hr, hrb, hmr⟩, ⟨hl, hlb, hml⟩, hfit⟩

theorem grow_succ (k : Color) (m : ℕ) : grow k (m + 1) = grow k m + 1 := by
  cases k <;> rfl

/-- The repair after the removal of a black node, from the hole it left upwards. -/
theorem removeColor_balanced (hn : NoRedRed (blacken n)) (hm : BlackHeight m n)
    (hfs : FramesOk fs) (hfits : Fits (m + 1) fs) : Balanced (removeColor n fs) := by
  fun_induction removeColor n fs generalizing m with
  | case1 n =>
    refine ⟨isRed_blacken, hn, ?_⟩
    by_cases hred : isRed n = true
    · exact ⟨m + 1, hm.blacken hred⟩
    · rw [blacken_of_black (Bool.eq_false_iff.mpr hred)]
      exact ⟨m, hm⟩
  | case2 n f fs hred =>
    exact balanced_zip.mpr ⟨hn, fun h => absurd (isRed_blacken.symm.trans h) Bool.false_ne_true,
      hfs, m + 1, hm.blacken hred, hfits⟩
  | case3 n f fs hred t tl tr hsib near r up =>
    rename_i hshort
    rw [blacken_of_black (Bool.eq_false_iff.mpr hred)] at hn
    obtain ⟨hk, hnear, hfar, hfit⟩ := red_sib hfs hfits hsib
    have hmend : Mended .red m r := mend_ok f.left hn hm hnear.1 hnear.2.1 hnear.2.2
    rw [Mended, if_pos hshort] at hmend
    obtain ⟨hr, hok, hheight⟩ := hmend
    exact balanced_zip.mpr ⟨hok, fun h => absurd (isRed_blacken.symm.trans h) Bool.false_ne_true,
      ⟨hfar.1, fun h => absurd h.symm Color.noConfusion, hfs.2.2⟩, m + 1, hheight.blacken hr,
      hfar.2.2, hfit⟩
  | case4 n f fs hred t tl tr hsib near r up =>
    rename_i hshort
    rw [blacken_of_black (Bool.eq_false_iff.mpr hred)] at hn
    obtain ⟨hk, hnear, hfar, hfit⟩ := red_sib hfs hfits hsib
    have hmend : Mended .red m r := mend_ok f.left hn hm hnear.1 hnear.2.1 hnear.2.2
    rw [Mended, if_neg hshort] at hmend
    obtain ⟨hr, hok, hheight⟩ := hmend
    have hzip : Balanced (zip r.1 (up :: fs)) := balanced_zip.mpr ⟨hok, fun _ => rfl,
      ⟨hfar.1, fun h => absurd h.symm Color.noConfusion, hfs.2.2⟩, m + 1, hheight, hfar.2.2, hfit⟩
    exact hzip.blacken
  | case5 n f fs hred hsib r =>
    rename_i hshort ih
    rw [blacken_of_black (Bool.eq_false_iff.mpr hred)] at hn
    have hsb := isRed_of_ne hsib
    have hmend : Mended f.color m r := mend_ok f.left hn hm hfs.1 hsb hfits.1
    rw [Mended, if_pos hshort] at hmend
    obtain ⟨-, hok, hheight⟩ := hmend
    have hfit := hfits.2
    rw [grow_succ] at hfit
    exact ih hok hheight hfs.2.2 hfit
  | case6 n f fs hred hsib r =>
    rename_i hshort
    rw [blacken_of_black (Bool.eq_false_iff.mpr hred)] at hn
    have hsb := isRed_of_ne hsib
    have hmend : Mended f.color m r := mend_ok f.left hn hm hfs.1 hsb hfits.1
    rw [Mended, if_neg hshort] at hmend
    obtain ⟨hr, hok, hheight⟩ := hmend
    have habove : isRed r.1 = true → BlackAbove fs := by
      intro h
      rw [hr, decide_eq_true_eq] at h
      exact (hfs.2.1 h).2
    have hzip : Balanced (zip r.1 fs) := balanced_zip.mpr ⟨hok, habove, hfs.2.2, _, hheight, hfits.2⟩
    exact hzip.blacken

theorem zip_append (t : Tree α) (fs gs : List (Frame α)) : zip t (fs ++ gs) = zip (zip t fs) gs := by
  induction fs generalizing t with
  | nil => rfl
  | cons f fs ih => exact ih _

theorem zip_descend {c : α → ℤ} {gs : List (Frame α)} (h : descend c t fs = .ok gs) :
    zip nil gs = zip t fs := by
  fun_induction descend c t fs with
  | case1 fs =>
    obtain rfl := Except.ok.inj h
    rfl
  | case2 fs k y l r hy ih => exact ih h
  | case3 fs k y l r hy hy' ih => exact ih h
  | case4 fs k y l r hy hy' => cases h

theorem zip_locate {p : α → Bool} {gs : List (Frame α)}
    (h : locate p t fs = some (k, x, l, r, gs)) : zip (node (k, x) l r) gs = zip t fs := by
  fun_induction locate p t fs with
  | case1 fs => cases h
  | case2 fs k' y l' r' hy =>
    simp only [Option.some.injEq, Prod.mk.injEq] at h
    obtain ⟨rfl, rfl, rfl, rfl, rfl⟩ := h
    rfl
  | case3 fs k' y l' r' hy ihl ihr =>
    cases Option.or_eq_some_iff.mp h with
    | inl h => exact ihl h
    | inr h => exact ihr h.2

theorem zip_leftmost {kn : Color} {y : α} {child : Tree α} {gs : List (Frame α)}
    (h : leftmost k x r l fs = (kn, y, child, gs)) :
    zip (node (kn, y) nil child) gs = zip (node (k, x) l r) fs := by
  fun_induction leftmost k x r l fs with
  | case1 k x r fs =>
    simp only [Prod.mk.injEq] at h
    obtain ⟨rfl, rfl, rfl, rfl⟩ := h
    rfl
  | case2 k x r fs k' x' l' r' ih => exact ih h

theorem insert_balanced (c : α → ℤ) (a : α) (h : Balanced t) : Balanced (insert c a t).1 := by
  unfold insert
  cases hd : descend c t [] with
  | error y => exact h
  | ok fs =>
    have hzip : Balanced (zip nil fs) := by
      rw [zip_descend hd]
      exact h
    obtain ⟨-, -, hfs, m, hm, hfits⟩ := balanced_zip.mp hzip
    have hleaf : NoRedRed (node (.red, a) (nil : Tree α) nil) :=
      NoRedRed.over_black trivial rfl trivial rfl
    exact insertColor_balanced rfl hleaf (BlackHeight.red hm hm) hfs hfits

theorem splice_balanced {child : Tree α} (hn : NoRedRed child) (hm : BlackHeight m child)
    (hk : k = .red → isRed child = false) (hfs : FramesOk fs) (hfits : Fits (grow k m) fs) :
    Balanced (splice k child fs) := by
  unfold splice
  cases k with
  | black =>
    rw [if_pos rfl]
    exact removeColor_balanced hn.blacken hm hfs hfits
  | red =>
    rw [if_neg Color.noConfusion]
    exact balanced_zip.mpr ⟨hn, fun h => absurd ((hk rfl).symm.trans h) Bool.false_ne_true, hfs, m,
      hm, hfits⟩

/-- The entries say nothing about the balance. -/
theorem framesOk_value {d : Bool} {y : α} {s : Tree α} (gs : List (Frame α))
    (h : FramesOk (gs ++ ⟨d, k, x, s⟩ :: fs)) : FramesOk (gs ++ ⟨d, k, y, s⟩ :: fs) := by
  induction gs with
  | nil => exact h
  | cons g gs ih =>
    obtain ⟨hs, hred, hgs⟩ := h
    refine ⟨hs, fun hk => ⟨(hred hk).1, ?_⟩, ih hgs⟩
    have habove := (hred hk).2
    cases gs <;> exact habove

theorem fits_value {d : Bool} {y : α} {s : Tree α} (gs : List (Frame α))
    (h : Fits m (gs ++ ⟨d, k, x, s⟩ :: fs)) : Fits m (gs ++ ⟨d, k, y, s⟩ :: fs) := by
  induction gs generalizing m with
  | nil => exact h
  | cons g gs ih => exact ⟨h.1, ih h.2⟩

theorem remove_balanced (p : α → Bool) (h : Balanced t) : Balanced (remove p t) := by
  unfold remove
  split
  · exact h
  · rename_i k x r fs hloc
    have hz : zip (node (k, x) nil r) fs = t := zip_locate hloc
    rw [← hz, balanced_zip] at h
    obtain ⟨⟨hk, -, hr⟩, -, hfs, _, ⟨m, rfl, -, hm⟩, hfits⟩ := h
    exact splice_balanced hr hm (fun h => (hk h).2) hfs hfits
  · rename_i k x l fs hl hloc
    have hz : zip (node (k, x) l nil) fs = t := zip_locate hloc
    rw [← hz, balanced_zip] at h
    obtain ⟨⟨hk, hn, -⟩, -, hfs, _, ⟨m, rfl, hm, -⟩, hfits⟩ := h
    exact splice_balanced hn hm (fun h => (hk h).1) hfs hfits
  · rename_i k x l k' x' l' r' fs hl hloc
    have hz : zip (node (k, x) l (node (k', x') l' r')) fs = t := zip_locate hloc
    cases hlm : leftmost k' x' r' l' [] with
    | mk kn rest =>
      obtain ⟨y, child, below⟩ := rest
      have hbelow : zip (node (kn, y) nil child) (below ++ ⟨false, k, x, l⟩ :: fs) = t := by
        rw [zip_append, zip_leftmost hlm]
        exact hz
      rw [← hbelow, balanced_zip] at h
      obtain ⟨⟨hk, -, hc⟩, -, hfs, _, ⟨m, rfl, -, hm⟩, hfits⟩ := h
      exact splice_balanced hc hm (fun h => (hk h).2) (framesOk_value below hfs)
        (fits_value below hfits)

end WanStack.RedBlack
