import WanStack.Lib.Radix

set_option autoImplicit false

/-!
# A position in a radix tree

The glue nodes above a position, nearest first, and what `place` and `prune` do there.
-/
namespace WanStack.Radix
open WanStack.Radix.Tree

variable {α κ : Type}

/-- A glue node above a position, the side the position is on, and the other subtree. -/
structure Frame (α : Type) where
  right : Bool
  bit : ℕ
  sib : Tree α

def plug (t : Tree α) (f : Frame α) : Tree α :=
  if f.right then glue f.bit f.sib t else glue f.bit t f.sib

def zip : Tree α → List (Frame α) → Tree α
  | t, [] => t
  | t, f :: fs => zip (plug t f) fs

/-- The leaf the bits of a key lead to, and the way to it. -/
def focus (bit : ℕ → Bool) : Tree α → List (Frame α) → α × List (Frame α)
  | leaf x, fs => (x, fs)
  | glue b l r, fs =>
    if bit b then focus bit r (⟨true, b, l⟩ :: fs) else focus bit l (⟨false, b, r⟩ :: fs)

/-- The same tree with other numbers in the glue nodes. -/
def relabel (f : ℕ → ℕ) : Tree α → Tree α
  | leaf x => leaf x
  | glue b l r => glue (f b) (relabel f l) (relabel f r)

def Frame.relabel (f : ℕ → ℕ) (u : Frame α) : Frame α :=
  ⟨u.right, f u.bit, Radix.relabel f u.sib⟩

/-- The leaves of the frames. -/
def others : List (Frame α) → List α
  | [] => []
  | f :: fs => leaves f.sib ++ others fs

variable {t u : Tree α} {f : Frame α} {fs : List (Frame α)} {x y : α}

theorem mem_leaves_plug : y ∈ leaves (plug t f) ↔ y ∈ leaves t ∨ y ∈ leaves f.sib := by
  unfold plug
  split
  · rw [leaves, List.mem_append, or_comm]
  · rw [leaves, List.mem_append]

theorem mem_leaves_zip : y ∈ leaves (zip t fs) ↔ y ∈ leaves t ∨ y ∈ others fs := by
  induction fs generalizing t with
  | nil => simp [zip, others]
  | cons f fs ih => rw [zip, ih, mem_leaves_plug, others, List.mem_append, or_assoc]

theorem focus_fst (bit : ℕ → Bool) (t : Tree α) (fs : List (Frame α)) :
    (focus bit t fs).1 = follow bit t := by
  induction t generalizing fs with
  | leaf x => rfl
  | glue b l r ihl ihr =>
    unfold focus follow
    split
    · exact ihr _
    · exact ihl _

theorem zip_focus (bit : ℕ → Bool) (t : Tree α) (fs : List (Frame α)) :
    zip (leaf (focus bit t fs).1) (focus bit t fs).2 = zip t fs := by
  induction t generalizing fs with
  | leaf x => rfl
  | glue b l r ihl ihr =>
    unfold focus
    split
    · exact ihr _
    · exact ihl _

theorem focus_side (bit : ℕ → Bool) (t : Tree α) (fs : List (Frame α))
    (h : ∀ f ∈ fs, f.right = bit f.bit) : ∀ f ∈ (focus bit t fs).2, f.right = bit f.bit := by
  induction t generalizing fs with
  | leaf x => exact h
  | glue b l r ihl ihr =>
    unfold focus
    split
    · rename_i hb
      apply ihr
      intro f hf
      rcases List.mem_cons.mp hf with rfl | hf
      · exact hb.symm
      · exact h f hf
    · rename_i hb
      apply ihl
      intro f hf
      rcases List.mem_cons.mp hf with rfl | hf
      · exact (Bool.eq_false_iff.mpr hb).symm
      · exact h f hf

theorem zip_append (t : Tree α) (fs gs : List (Frame α)) :
    zip t (fs ++ gs) = zip (zip t fs) gs := by
  induction fs generalizing t with
  | nil => rfl
  | cons f fs ih => exact ih _

theorem leaves_relabel (f : ℕ → ℕ) (t : Tree α) : leaves (relabel f t) = leaves t := by
  induction t with
  | leaf x => rfl
  | glue b l r ihl ihr => rw [relabel, leaves, ihl, ihr, leaves]

theorem relabel_zip (f : ℕ → ℕ) (t : Tree α) (fs : List (Frame α)) :
    relabel f (zip t fs) = zip (relabel f t) (fs.map (Frame.relabel f)) := by
  induction fs generalizing t with
  | nil => rfl
  | cons u fs ih =>
    rw [zip, ih, List.map_cons, zip]
    congr 1
    unfold plug Frame.relabel
    split <;> rfl

theorem follow_relabel (f : ℕ → ℕ) (bit : ℕ → Bool) (t : Tree α) :
    follow bit (relabel f t) = follow (fun b => bit (f b)) t := by
  induction t with
  | leaf x => rfl
  | glue b l r ihl ihr => rw [relabel, follow, ihl, ihr, follow]

/-! ### Insertion -/

theorem place_plug {bit : ℕ → Bool} {d : ℕ} (hlt : f.bit < d) (hside : f.right = bit f.bit) :
    place bit d x (plug t f) = plug (place bit d x t) f := by
  unfold plug
  rw [hside]
  split
  · rename_i hb
    rw [place, if_neg (by omega), if_pos hb]
  · rename_i hb
    rw [place, if_neg (by omega), if_neg hb]

/-- A leaf with a bit behind all on the way is placed at the position. -/
theorem place_zip {bit : ℕ → Bool} {d : ℕ} (h : ∀ f ∈ fs, f.bit < d ∧ f.right = bit f.bit) :
    place bit d x (zip t fs) = zip (place bit d x t) fs := by
  induction fs generalizing t with
  | nil => rfl
  | cons f fs ih =>
    obtain ⟨hlt, hside⟩ := h f List.mem_cons_self
    rw [zip, ih fun g hg => h g (List.mem_cons_of_mem _ hg), place_plug hlt hside, zip]

/-- The node at the end of the frames, or the leaf itself. -/
theorem zip_last (t : Tree α) (fs : List (Frame α)) :
    fs = [] ∧ zip t fs = t ∨ ∃ f ∈ fs, ∃ u, zip t fs = plug u f := by
  rcases List.eq_nil_or_concat fs with rfl | ⟨gs, f, rfl⟩
  · exact .inl ⟨rfl, rfl⟩
  · refine .inr ⟨f, by simp, zip t gs, ?_⟩
    rw [List.concat_eq_append, zip_append]
    rfl

theorem place_join {bit : ℕ → Bool} {d : ℕ} (h : ∀ f ∈ fs, d ≤ f.bit) :
    place bit d x (zip (leaf y) fs) = join bit d x (zip (leaf y) fs) := by
  obtain ⟨-, heq⟩ | ⟨f, hf, u, heq⟩ := zip_last (leaf y) fs
  · rw [heq, place]
  · rw [heq]
    unfold plug
    split
    · rw [place, if_pos (h f hf)]
    · rw [place, if_pos (h f hf)]

theorem join_eq_plug (bit : ℕ → Bool) (d : ℕ) (x : α) (t : Tree α) :
    join bit d x t = plug (leaf x) ⟨bit d, d, t⟩ := rfl

/-! ### Removal -/

theorem prune_self {p : α → Bool} (h : ∀ y ∈ leaves t, p y = false) : prune p t = some t := by
  induction t with
  | leaf x => rw [prune, if_neg (by rw [h x List.mem_cons_self]; exact Bool.false_ne_true)]
  | glue b l r ihl ihr =>
    rw [leaves] at h
    rw [prune, ihl fun y hy => h y (List.mem_append_left _ hy),
      ihr fun y hy => h y (List.mem_append_right _ hy)]

theorem prune_plug {p : α → Bool} (hsib : ∀ y ∈ leaves f.sib, p y = false)
    (ht : prune p t = some u) : prune p (plug t f) = some (plug u f) := by
  unfold plug
  split
  · rw [prune, ht, prune_self hsib]
  · rw [prune, ht, prune_self hsib]

theorem prune_zip {p : α → Bool} (h : ∀ y ∈ others fs, p y = false)
    (ht : prune p t = some u) : prune p (zip t fs) = some (zip u fs) := by
  induction fs generalizing t u with
  | nil => exact ht
  | cons f fs ih =>
    rw [others] at h
    exact ih (fun y hy => h y (List.mem_append_right _ hy))
      (prune_plug (fun y hy => h y (List.mem_append_left _ hy)) ht)

theorem prune_plug_leaf {p : α → Bool} (hsib : ∀ y ∈ leaves f.sib, p y = false)
    (hx : p x = true) : prune p (plug (leaf x) f) = some f.sib := by
  have hleaf : prune p (leaf x) = none := if_pos hx
  unfold plug
  split
  · rw [prune, hleaf, prune_self hsib]
  · rw [prune, hleaf, prune_self hsib]

/-! ### The bits on the way -/

section Keys
variable {key : α → κ} {bit : κ → ℕ → Bool} {w : ℕ}

/-- What is known of the frames above a subtree whose bits are from `lo` on. -/
structure Way (key : α → κ) (bit : κ → ℕ → Bool) (w lo : ℕ) (t : Tree α)
    (fs : List (Frame α)) : Prop where
  length : fs.length ≤ lo
  le : lo ≤ w
  lt : ∀ f ∈ fs, f.bit < lo
  side : ∀ f ∈ fs, ∀ y ∈ leaves t, bit (key y) f.bit = f.right
  decreasing : fs.Pairwise fun f g => g.bit < f.bit
  wf : WellFormed key bit w lo t

theorem WellFormed.way (h : WellFormed key bit w 0 (zip t fs)) :
    ∃ lo, Way key bit w lo t fs := by
  induction fs generalizing t with
  | nil => exact ⟨0, Nat.le_refl 0, Nat.zero_le w, by simp, by simp, List.Pairwise.nil, h⟩
  | cons f fs ih =>
    obtain ⟨lo, hway⟩ := ih h
    have hplug : lo ≤ f.bit ∧ f.bit < w ∧ (∀ y ∈ leaves t, bit (key y) f.bit = f.right) ∧
        WellFormed key bit w (f.bit + 1) t := by
      have hwf := hway.wf
      unfold plug at hwf
      split at hwf
      · rename_i hright
        obtain ⟨hlo, hw, -, hr, -, -, hwf⟩ := hwf
        exact ⟨hlo, hw, by rwa [hright], hwf⟩
      · rename_i hright
        obtain ⟨hlo, hw, hl, -, -, hwf, -⟩ := hwf
        exact ⟨hlo, hw, by rwa [Bool.eq_false_iff.mpr hright], hwf⟩
    obtain ⟨hlo, hw, hside, hwf⟩ := hplug
    have hlt : ∀ g ∈ fs, g.bit < f.bit := fun g hg => Nat.lt_of_lt_of_le (hway.lt g hg) hlo
    refine ⟨f.bit + 1, ?_, hw, ?_, ?_, ?_, hwf⟩
    · have := hway.length
      rw [List.length_cons]
      omega
    · intro g hg
      rcases List.mem_cons.mp hg with rfl | hg
      · exact Nat.lt_succ_self _
      · exact Nat.lt_succ_of_lt (hlt g hg)
    · intro g hg y hy
      rcases List.mem_cons.mp hg with rfl | hg
      · exact hside y hy
      · exact hway.side g hg y (mem_leaves_plug.mpr (.inl hy))
    · exact List.Pairwise.cons hlt hway.decreasing

end Keys

end WanStack.Radix
