import WanStack.Aftr.TunnelLinks

set_option autoImplicit false

/-!
# The loops over the tunnel tree

What memory holds is a radix tree with the address of a glue node in place of its bit. The
way down is `follow`, the way up stops in the path to a leaf.
-/
namespace WanStack.Aftr
open BinaryTree SearchTree Radix

/-- The nodes in memory. -/
def nodes : Radix.Tree ℕ → BinaryTree ℕ
  | .leaf t => node t nil nil
  | .glue g l r => node g (nodes l) (nodes r)

def nodesOf : Option (Radix.Tree ℕ) → BinaryTree ℕ
  | none => nil
  | some u => nodes u

/-- `left` is the side of a key with the bit 0. -/
def hole (f : Radix.Frame ℕ) : LinkedTree.Frame := ⟨!f.right, f.bit, nodes f.sib⟩

variable {s s' : TunnelTree} {t u v : Radix.Tree ℕ} {f : Radix.Frame ℕ}
  {fs : List (Radix.Frame ℕ)} {k : Addr6} {q lo fuel d : ℕ}

theorem nodes_ne_nil (u : Radix.Tree ℕ) : nodes u ≠ nil := by
  cases u with
  | leaf t => exact fun h => nomatch h
  | glue g l r => exact fun h => nomatch h

theorem nodes_plug (u : Radix.Tree ℕ) (f : Radix.Frame ℕ) :
    nodes (Radix.plug u f) = LinkedTree.plug (nodes u) (hole f) := by
  unfold Radix.plug LinkedTree.plug hole
  cases f.right <;> rfl

theorem nodes_zip (u : Radix.Tree ℕ) (fs : List (Radix.Frame ℕ)) :
    nodes (Radix.zip u fs) = LinkedTree.zip (nodes u) (fs.map hole) := by
  induction fs generalizing u with
  | nil => rfl
  | cons f fs ih => rw [Radix.zip, ih, nodes_plug, List.map_cons, LinkedTree.zip]

theorem leaves_subset : ∀ x ∈ leaves u, x ∈ toList (nodes u) := by
  induction u with
  | leaf t => exact fun x hx => by simpa [leaves, nodes] using hx
  | glue g l r ihl ihr =>
    intro x hx
    simp only [nodes, toList_node, List.mem_append, List.mem_cons]
    rcases List.mem_append.mp hx with hx | hx
    · exact .inl (ihl x hx)
    · exact .inr (.inr (ihr x hx))

namespace TunnelTree

/-- A tunnel is a leaf, and every other node is glue. -/
def Shaped (s : TunnelTree) : Radix.Tree ℕ → Prop
  | .leaf t => s.bit t = MAXTUNBIT ∧ s.glue t = false
  | .glue g l r => s.glue g = true ∧ Shaped s l ∧ Shaped s r

/-- The tree in memory. -/
structure Represents (s : TunnelTree) (u : Option (Radix.Tree ℕ)) : Prop where
  holds : s.toLinks.Holds (nodesOf u)
  shaped : ∀ v ∈ u, s.Shaped v
  wf : ∀ v ∈ u, WellFormed s.key bitAt MAXTUNBIT 0 (relabel s.bit v)

/-- The fields of the node `x` are the same. -/
structure SameNode (s' s : TunnelTree) (x : ℕ) : Prop where
  links : s'.toLinks.Same s.toLinks x
  bit : s'.bit x = s.bit x
  key : s'.key x = s.key x
  glue : s'.glue x = s.glue x

theorem Shaped.congr (h : s.Shaped u)
    (heq : ∀ x ∈ toList (nodes u), s'.bit x = s.bit x ∧ s'.glue x = s.glue x) :
    s'.Shaped u := by
  induction u with
  | leaf t =>
    obtain ⟨hbit, hglue⟩ := heq t (by simp [nodes])
    exact ⟨hbit.trans h.1, hglue.trans h.2⟩
  | glue g l r ihl ihr =>
    simp only [nodes, toList_node, List.mem_append, List.mem_cons] at heq
    exact ⟨(heq g (.inr (.inl rfl))).2.trans h.1, ihl h.2.1 fun x hx => heq x (.inl hx),
      ihr h.2.2 fun x hx => heq x (.inr (.inr hx))⟩

theorem shaped_plug : s.Shaped (Radix.plug u f) ↔
    s.Shaped u ∧ s.glue f.bit = true ∧ s.Shaped f.sib := by
  unfold Radix.plug
  split
  · simp only [Shaped]
    tauto
  · simp only [Shaped]
    tauto

theorem shaped_zip : s.Shaped (Radix.zip u fs) ↔
    s.Shaped u ∧ ∀ f ∈ fs, s.glue f.bit = true ∧ s.Shaped f.sib := by
  induction fs generalizing u with
  | nil => simp [Radix.zip]
  | cons f fs ih =>
    rw [Radix.zip, ih, shaped_plug, List.forall_mem_cons]
    tauto

theorem relabel_congr {f g : ℕ → ℕ} (h : ∀ x ∈ toList (nodes u), f x = g x) :
    relabel f u = relabel g u := by
  induction u with
  | leaf t => rfl
  | glue x l r ihl ihr =>
    simp only [nodes, toList_node, List.mem_append, List.mem_cons] at h
    rw [relabel, h x (.inr (.inl rfl)), ihl fun y hy => h y (.inl hy),
      ihr fun y hy => h y (.inr (.inr hy)), relabel]

/-- Only the keys of the leaves count. -/
theorem wellFormed_congr {key key' : ℕ → Addr6} {u : Radix.Tree ℕ}
    (h : WellFormed key bitAt MAXTUNBIT lo u) (heq : ∀ x ∈ leaves u, key' x = key x) :
    WellFormed key' bitAt MAXTUNBIT lo u := by
  induction u generalizing lo with
  | leaf t => trivial
  | glue b l r ihl ihr =>
    obtain ⟨hlo, hb, hl, hr, hall, hwl, hwr⟩ := h
    have hleft : ∀ x ∈ leaves l, key' x = key x :=
      fun x hx => heq x (List.mem_append_left _ hx)
    have hright : ∀ x ∈ leaves r, key' x = key x :=
      fun x hx => heq x (List.mem_append_right _ hx)
    refine ⟨hlo, hb, ?_, ?_, ?_, ihl hwl hleft, ihr hwr hright⟩
    · intro x hx
      rw [hleft x hx]
      exact hl x hx
    · intro x hx
      rw [hright x hx]
      exact hr x hx
    · intro x hx y hy i hi
      rw [heq x hx, heq y hy]
      exact hall x hx y hy i hi

theorem Represents.congr {u : Option (Radix.Tree ℕ)} (h : s.Represents u)
    (hroot : s'.root = s.root) (heq : ∀ x ∈ toList (nodesOf u), SameNode s' s x) :
    s'.Represents u := by
  refine ⟨⟨hroot.trans h.holds.root, ?_, h.holds.nodup, h.holds.null⟩, ?_, ?_⟩
  · exact h.holds.mem.congr fun x hx => (heq x hx).links
  · rintro v rfl
    exact (h.shaped v rfl).congr fun x hx => ⟨(heq x hx).bit, (heq x hx).glue⟩
  · rintro v rfl
    rw [relabel_congr fun x hx => (heq x hx).bit]
    apply wellFormed_congr (h.wf v rfl)
    intro x hx
    rw [leaves_relabel] at hx
    exact (heq x (leaves_subset x hx)).key

/-! ### The way down -/

/-- The child the bit of the key leads to. -/
theorem next_child {g : ℕ} {l r : Radix.Tree ℕ}
    (hmem : s.toLinks.Mem q (nodes (.glue g l r))) (hb : s.bit g < MAXTUNBIT) :
    (if keyBit k (s.bit g) then s.right g else s.left g) =
      LinkedTree.ptr (nodes (if bitAt k (s.bit g) then r else l)) := by
  rw [keyBit_eq k hb]
  split
  · exact hmem.2.1
  · exact hmem.1

theorem ptr_nodes_ne_zero (h : 0 ∉ toList (nodes u)) : LinkedTree.ptr (nodes u) ≠ 0 :=
  fun hzero => nodes_ne_nil u ((LinkedTree.ptr_eq_zero h).mp hzero)

/-- The leaf below a position that the key leads to. -/
def target (s : TunnelTree) (k : Addr6) (u : Radix.Tree ℕ) : ℕ :=
  follow (fun g => bitAt k (s.bit g)) u

theorem findLoop_run (hmem : s.toLinks.Mem q (nodes u)) (hnull : 0 ∉ toList (nodes u))
    (hshape : s.Shaped u) (hwf : WellFormed s.key bitAt MAXTUNBIT lo (relabel s.bit u))
    (hfuel : MAXTUNBIT < lo + fuel) (hpos : 0 < fuel) :
    findLoop fuel k (LinkedTree.ptr (nodes u)) s = some (s.target k u) := by
  induction u generalizing lo fuel q with
  | leaf t =>
    obtain ⟨fuel, rfl⟩ := Nat.exists_eq_add_of_lt hpos
    have hbit : ¬ s.bit t < MAXTUNBIT := by rw [hshape.1]; exact lt_irrefl _
    unfold findLoop
    exact if_neg hbit
  | glue g l r ihl ihr =>
    obtain ⟨fuel, rfl⟩ := Nat.exists_eq_add_of_lt hpos
    obtain ⟨hlo, hb, -, -, -, hwl, hwr⟩ := hwf
    have hnext := next_child (k := k) hmem hb
    simp only [nodes, toList_node, List.mem_append, List.mem_cons, not_or] at hnull
    obtain ⟨hnl, -, hnr⟩ := hnull
    have hptr : LinkedTree.ptr (nodes (.glue g l r)) = g := rfl
    rw [Nat.zero_add, hptr, findLoop, if_pos hb]
    simp only [hnext]
    unfold target follow
    split
    · rw [if_neg (ptr_nodes_ne_zero hnr)]
      exact ihr hmem.2.2.2.2 hnr hshape.2.2 hwr (by omega) (by omega)
    · rw [if_neg (ptr_nodes_ne_zero hnl)]
      exact ihl hmem.2.2.2.1 hnl hshape.2.1 hwl (by omega) (by omega)

theorem descend_run (hmem : s.toLinks.Mem q (nodes u)) (hnull : 0 ∉ toList (nodes u))
    (hshape : s.Shaped u) (hwf : WellFormed s.key bitAt MAXTUNBIT lo (relabel s.bit u))
    (hfuel : MAXTUNBIT < lo + fuel) (hpos : 0 < fuel) :
    descend fuel k (LinkedTree.ptr (nodes u)) s = some (s.target k u) := by
  induction u generalizing lo fuel q with
  | leaf t =>
    obtain ⟨fuel, rfl⟩ := Nat.exists_eq_add_of_lt hpos
    have hleaf : ¬ (s.bit t < MAXTUNBIT ∨ s.glue t = true) := by
      rw [hshape.1, hshape.2]
      simp
    unfold descend
    exact if_neg hleaf
  | glue g l r ihl ihr =>
    obtain ⟨fuel, rfl⟩ := Nat.exists_eq_add_of_lt hpos
    obtain ⟨hlo, hb, -, -, -, hwl, hwr⟩ := hwf
    have hnext := next_child (k := k) hmem hb
    simp only [nodes, toList_node, List.mem_append, List.mem_cons, not_or] at hnull
    obtain ⟨hnl, -, hnr⟩ := hnull
    have hptr : LinkedTree.ptr (nodes (.glue g l r)) = g := rfl
    rw [Nat.zero_add, hptr, descend, if_pos (.inl hb)]
    simp only [hnext]
    unfold target follow
    split
    · rw [if_neg (ptr_nodes_ne_zero hnr)]
      exact ihr hmem.2.2.2.2 hnr hshape.2.2 hwr (by omega) (by omega)
    · rw [if_neg (ptr_nodes_ne_zero hnl)]
      exact ihl hmem.2.2.2.1 hnl hshape.2.1 hwl (by omega) (by omega)

/-! ### The way up -/

/-- The walk up stops below the first glue node on a bit before `d`. -/
theorem climb_run (hup : s.toLinks.Up (LinkedTree.ptr (nodes u)) (fs.map hole))
    (hmem : s.toLinks.Mem (LinkedTree.above (fs.map hole)) (nodes u))
    (hnull : 0 ∉ LinkedTree.around (fs.map hole)) (hfuel : fs.length < fuel) :
    ∃ low high, fs = low ++ high ∧
      climb fuel d (LinkedTree.ptr (nodes u)) s =
        some (LinkedTree.ptr (nodes (Radix.zip u low))) ∧
      (∀ f ∈ low, d ≤ s.bit f.bit) ∧ ∀ f ∈ high.head?, s.bit f.bit < d := by
  induction fs generalizing u fuel with
  | nil =>
    obtain ⟨fuel, rfl⟩ := Nat.exists_eq_add_of_lt hfuel
    have hparent : s.parent (LinkedTree.ptr (nodes u)) = 0 := by
      cases u with
      | leaf t => exact hmem.2.2.1
      | glue g l r => exact hmem.2.2.1
    refine ⟨[], [], rfl, ?_, by simp, by simp⟩
    rw [List.length_nil, Nat.zero_add, climb, hparent, if_neg fun h => h.1 rfl, Radix.zip]
  | cons f fs ih =>
    obtain ⟨fuel, rfl⟩ := Nat.exists_eq_add_of_lt hfuel
    have hparent : s.parent (LinkedTree.ptr (nodes u)) = f.bit := by
      cases u with
      | leaf t => exact hmem.2.2.1
      | glue g l r => exact hmem.2.2.1
    rw [List.map_cons, LinkedTree.around, List.mem_cons, List.mem_append, not_or, not_or]
      at hnull
    obtain ⟨hne, -, hnull⟩ := hnull
    rw [climb, hparent]
    by_cases hd : d ≤ s.bit f.bit
    · have hplug : s.toLinks.Mem (LinkedTree.above (fs.map hole))
          (nodes (Radix.plug u f)) := by
        rw [nodes_plug]
        exact LinkedTree.Links.mem_plug.mpr ⟨hup.1, hup.2.1, hup.2.2.1, hup.2.2.2.1, hmem⟩
      have hptr : LinkedTree.ptr (nodes (Radix.plug u f)) = f.bit := by
        rw [nodes_plug, LinkedTree.ptr_plug]
        rfl
      have hupPlug : s.toLinks.Up (LinkedTree.ptr (nodes (Radix.plug u f))) (fs.map hole) := by
        rw [hptr]
        exact hup.2.2.2.2
      obtain ⟨low, high, hfs, hclimb, hlow, hhigh⟩ :=
        ih hupPlug hplug hnull (show fs.length < (f :: fs).length + fuel by
          rw [List.length_cons]; omega)
      refine ⟨f :: low, high, by rw [hfs, List.cons_append], ?_, ?_, hhigh⟩
      · rw [if_pos ⟨Ne.symm hne, hd⟩, ← hptr, hclimb, Radix.zip]
      · exact List.forall_mem_cons.mpr ⟨hd, hlow⟩
    · refine ⟨[], f :: fs, rfl, ?_, by simp, ?_⟩
      · rw [if_neg fun h => hd h.2, Radix.zip]
      · intro g hg
        obtain rfl : f = g := Option.some.inj hg
        exact Nat.lt_of_not_le hd

end TunnelTree

end WanStack.Aftr
