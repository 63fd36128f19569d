import WanStack.Aftr.TunnelRuns

set_option autoImplicit false

/-!
# The tunnel tree as a set of keys

Over every sequence of insertions and removals the tree holds the keys that were inserted
and not removed, whatever `malloc` does.
-/
namespace WanStack.Aftr
open BinaryTree SearchTree Radix

namespace TunnelTree

variable {s s' : TunnelTree} {u : Radix.Tree ℕ} {w : Option (Radix.Tree ℕ)} {k : Addr6}
  {live : List (ℕ × Addr6)} {gl : Option ℕ} {t x q e fuel lo : ℕ}

/-! ### The nodes of a tree -/

theorem leaf_node (hmem : s.toLinks.Mem q (nodes u)) (hshape : s.Shaped u)
    (hx : x ∈ leaves u) : s.bit x = MAXTUNBIT ∧ s.glue x = false ∧ ∀ c, s.child c x = 0 := by
  induction u generalizing q with
  | leaf t =>
    obtain rfl := List.mem_singleton.mp hx
    refine ⟨hshape.1, hshape.2, fun c => ?_⟩
    cases c with
    | true => exact hmem.1
    | false => exact hmem.2.1
  | glue g l r ihl ihr =>
    rcases List.mem_append.mp hx with hx | hx
    · exact ihl hmem.2.2.2.1 hshape.2.1 hx
    · exact ihr hmem.2.2.2.2 hshape.2.2 hx

/-- The root of the subtree below a glue node on the bit `b`. -/
theorem below_node {b : ℕ} (hmem : s.toLinks.Mem q (nodes u)) (hshape : s.Shaped u)
    (hwf : WellFormed s.key bitAt MAXTUNBIT (b + 1) (relabel s.bit u)) (hb : b < MAXTUNBIT) :
    s.parent (LinkedTree.ptr (nodes u)) = q ∧ b < s.bit (LinkedTree.ptr (nodes u)) := by
  cases u with
  | leaf t => exact ⟨hmem.2.2.1, hb.trans_eq hshape.1.symm⟩
  | glue g l r => exact ⟨hmem.2.2.1, hwf.1⟩

/-- A node is a leaf, or glue with two children and a bit before theirs. -/
theorem node_cases (hmem : s.toLinks.Mem q (nodes u)) (hshape : s.Shaped u)
    (hwf : WellFormed s.key bitAt MAXTUNBIT lo (relabel s.bit u)) (hx : x ∈ toList (nodes u)) :
    x ∈ leaves u ∨ s.glue x = true ∧ s.bit x < MAXTUNBIT ∧
      ∀ c, s.child c x ∈ toList (nodes u) ∧ s.parent (s.child c x) = x ∧
        s.bit x < s.bit (s.child c x) := by
  induction u generalizing lo q with
  | leaf t =>
    simp only [nodes, toList_node, toList_nil, List.nil_append, List.mem_singleton] at hx
    exact .inl (List.mem_singleton.mpr hx)
  | glue g l r ihl ihr =>
    obtain ⟨hleft, hright, -, hml, hmr⟩ := hmem
    obtain ⟨hglue, hsl, hsr⟩ := hshape
    obtain ⟨-, hb, -, -, -, hwl, hwr⟩ := hwf
    simp only [nodes, toList_node, List.mem_append, List.mem_cons] at hx ⊢
    rcases hx with hx | rfl | hx
    · rcases ihl hml hsl hwl hx with hleaf | ⟨hg, hbit, hkids⟩
      · exact .inl (List.mem_append_left _ hleaf)
      · exact .inr ⟨hg, hbit, fun c => ⟨.inl (hkids c).1, (hkids c).2⟩⟩
    · refine .inr ⟨hglue, hb, fun c => ?_⟩
      cases c with
      | true =>
        rw [hleft]
        exact ⟨.inl (LinkedTree.ptr_mem (nodes_ne_nil l)), below_node hml hsl hwl hb⟩
      | false =>
        rw [hright]
        exact ⟨.inr (.inr (LinkedTree.ptr_mem (nodes_ne_nil r))), below_node hmr hsr hwr hb⟩
    · rcases ihr hmr hsr hwr hx with hleaf | ⟨hg, hbit, hkids⟩
      · exact .inl (List.mem_append_right _ hleaf)
      · exact .inr ⟨hg, hbit, fun c => ⟨.inr (.inr (hkids c).1), (hkids c).2⟩⟩

/-! ### The set -/

/-- Memory holds a tree of the tunnels of `live`, and nothing else is allocated. -/
structure Holding (s : TunnelTree) (live : List (ℕ × Addr6)) (w : Option (Radix.Tree ℕ)) :
    Prop where
  represents : s.Represents w
  alloc : s.alloc.Perm (toList (nodesOf w))
  leaf_iff : ∀ t, t ∈ values w ↔ ∃ k, (t, k) ∈ live
  key : ∀ p ∈ live, s.key p.1 = p.2

/-- The tunnels inserted and not removed, with their keys. `malloc` gives nodes that are not
    allocated, or fails. -/
inductive TreeRun : TunnelTree → List (ℕ × Addr6) → Prop
  | start {s : TunnelTree} (hroot : s.root = 0) (halloc : s.alloc = []) : TreeRun s []
  | insert {s s' : TunnelTree} {live : List (ℕ × Addr6)} {fuel t r : ℕ} {k : Addr6}
      {gl : Option ℕ} (h : TreeRun s live) (ht : t ∉ 0 :: s.alloc)
      (hgl : ∀ g ∈ gl, g ∉ 0 :: t :: s.alloc) (hfuel : MAXTUNBIT < fuel)
      (hadd : s.addTunnel fuel t k gl = some (s', r)) :
      TreeRun s' (if r = 0 then live else (t, k) :: live)
  | remove {s s' : TunnelTree} {live : List (ℕ × Addr6)} {t : ℕ} {k : Addr6}
      (h : TreeRun s live) (hmem : (t, k) ∈ live) (hremove : s.tunnelTreeRemove t = some s') :
      TreeRun s' (live.filter fun p => p.1 ≠ t)

theorem newTunnel_same (hx : x ≠ t) : SameNode (s.newTunnel t k) s x := by
  refine ⟨⟨fun c => ?_, if_neg hx⟩, Function.update_of_ne hx _ _, ?_,
    Function.update_of_ne hx _ _⟩
  · exact (if_neg fun h => hx h.2).trans (if_neg fun h => hx h.2)
  · exact (Function.update_of_ne hx _ _).trans (Function.update_of_ne hx _ _)

theorem newTunnel_new : (s.newTunnel t k).New t := by
  refine ⟨fun c => ?_, Function.update_self _ _ _⟩
  cases c with
  | true =>
    simp [newTunnel, malloc, setLeft, setRight, setParent, setBit, setKey, setGlue,
      LinkedTree.Links.setChild, LinkedTree.Links.setParent]
  | false =>
    simp [newTunnel, malloc, setLeft, setRight, setParent, setBit, setKey, setGlue,
      LinkedTree.Links.setChild, LinkedTree.Links.setParent]

theorem newTunnel_key : (s.newTunnel t k).key t = k := Function.update_self _ _ _

theorem newTunnel_represents (h : s.Represents w) (ht : t ∉ toList (nodesOf w)) :
    (s.newTunnel t k).Represents w := by
  apply Represents.congr h
  · rfl
  · intro x hx
    refine newTunnel_same ?_
    rintro rfl
    exact ht hx

/-- A key is in the set when the leaf it leads to has it. -/
theorem Holding.key_iff (h : s.Holding live (some u)) (ht : t ∉ toList (nodes u)) :
    (∃ e, (e, k) ∈ live) ↔
      (s.newTunnel t k).key ((s.newTunnel t k).target k u) = k := by
  have hrep := newTunnel_represents (k := k) h.represents ht
  rw [← TunnelTree.key_iff hrep]
  have hkey : ∀ x ∈ leaves u, (s.newTunnel t k).key x = s.key x := by
    intro x hx
    refine (newTunnel_same ?_).key
    rintro rfl
    exact ht (leaves_subset x hx)
  constructor
  · rintro ⟨e, he⟩
    have hmem := (h.leaf_iff e).mpr ⟨k, he⟩
    exact ⟨e, hmem, (hkey e hmem).trans (h.key _ he)⟩
  · rintro ⟨x, hx, hxk⟩
    obtain ⟨k', hk'⟩ := (h.leaf_iff x).mp hx
    rw [hkey x hx, h.key _ hk'] at hxk
    exact ⟨x, hxk ▸ hk'⟩

/-- The first tunnel. -/
theorem insert_first (fuel : ℕ) (gl : Option ℕ) (k : Addr6) (h : s.Holding live none) (ht : t ∉ 0 :: s.alloc) :
    ∃ s', tunnelTreeInsert fuel t gl (s.newTunnel t k) = some (s', 0, false) ∧
      s'.Holding ((t, k) :: live) (some (.leaf t)) := by
  have hlive : live = [] := by
    apply List.eq_nil_iff_forall_not_mem.mpr
    intro p hp
    exact absurd ((h.leaf_iff p.1).mpr ⟨p.2, hp⟩) List.not_mem_nil
  have halloc : s.alloc = [] := List.perm_nil.mp h.alloc
  have ht0 : t ≠ 0 := fun e => ht (e ▸ List.mem_cons_self)
  have hrep := newTunnel_represents (k := k) h.represents (t := t) List.not_mem_nil
  refine ⟨_, insert_empty hrep gl, ⟨⟨rfl, ?_, ?_, ?_⟩, ?_, ?_⟩, ?_, ?_, ?_⟩
  · refine ⟨?_, ?_, if_pos rfl, trivial, trivial⟩
    · simp [setLeft, setRight, setParent, setBit, setRoot, LinkedTree.Links.setChild,
        LinkedTree.Links.setParent, LinkedTree.Links.setRoot]
    · simp [setLeft, setRight, setParent, setBit, setRoot, LinkedTree.Links.setChild,
        LinkedTree.Links.setParent, LinkedTree.Links.setRoot]
  · exact List.nodup_singleton t
  · exact fun hm => ht0 (List.mem_singleton.mp hm).symm
  · intro v hv
    obtain rfl := Option.some.inj hv
    exact ⟨Function.update_self _ _ _, (newTunnel_new (s := s) (k := k)).glue⟩
  · intro v hv
    obtain rfl := Option.some.inj hv
    trivial
  · change (t :: s.alloc).Perm [t]
    rw [halloc]
  · intro y
    rw [hlive]
    simp [leaves]
  · rw [hlive]
    intro p hp
    obtain rfl := List.mem_singleton.mp hp
    exact newTunnel_key

theorem insert_another (h : s.Holding live (some u)) (ht : t ∉ 0 :: s.alloc)
    (hfuel : MAXTUNBIT < fuel) (hnone : ∀ p ∈ live, p.2 ≠ k) :
    tunnelTreeInsert fuel t none (s.newTunnel t k) =
      some ((s.newTunnel t k).setBit t MAXTUNBIT, t, false) ∧
    ∀ g ∉ 0 :: t :: s.alloc, ∃ s' u',
      tunnelTreeInsert fuel t (some g) (s.newTunnel t k) = some (s', 0, false) ∧
        s'.Holding ((t, k) :: live) (some u') := by
  rw [List.mem_cons, not_or, h.alloc.mem_iff] at ht
  obtain ⟨ht0, ht⟩ := ht
  have hrep := newTunnel_represents (k := k) h.represents ht
  have hkey : (s.newTunnel t k).key ((s.newTunnel t k).target k u) ≠ k := by
    intro e
    obtain ⟨x, hx⟩ := (h.key_iff ht).mpr e
    exact hnone _ hx rfl
  have hout : (s.newTunnel t k).Outside t u := ⟨ht, ht0⟩
  obtain ⟨d, v, high, hsplit, hfail, hinsert⟩ :=
    insert_absent (t := t) hrep hout hfuel (by rwa [newTunnel_key])
  refine ⟨hfail, fun g hg => ?_⟩
  rw [List.mem_cons, List.mem_cons, not_or, not_or, h.alloc.mem_iff] at hg
  obtain ⟨hg0, hgt, hg⟩ := hg
  have hnew : ((s.newTunnel t k).setBit t MAXTUNBIT).alloc = t :: s.alloc := rfl
  have hnode : LinkedTree.ptr (nodes v) ≠ g := by
    rintro rfl
    apply hg
    change LinkedTree.ptr (nodes v) ∈ toList (nodes u)
    rw [← hsplit.tree, nodes_zip, (LinkedTree.toList_zip_perm _ _).mem_iff]
    exact List.mem_append_left _ (LinkedTree.ptr_mem (nodes_ne_nil v))
  obtain ⟨-, hkeys, -, halloc⟩ :=
    inserted_rest (s := (s.newTunnel t k).setBit t MAXTUNBIT) hsplit.lt (Ne.symm hgt) hnode
  refine ⟨_, _, hinsert g, insert_represents hrep hout ⟨hg, hg0⟩ (Ne.symm hgt) newTunnel_new hsplit,
    ?_, ?_, ?_⟩
  · rw [halloc, hnew]
    refine List.Perm.trans ?_ (nodes_grafted_perm _ _ _ _ _ _).symm
    rw [hsplit.tree]
    exact (List.Perm.swap t g _).trans (List.Perm.cons t (List.Perm.cons g h.alloc))
  · intro y
    rw [values_some, mem_grafted, hsplit.tree]
    have hy := h.leaf_iff y
    rw [values_some] at hy
    rw [hy]
    simp only [List.mem_cons, Prod.mk.injEq, exists_or, exists_and_left, exists_eq, and_true]
  · intro p hp
    rw [hkeys]
    rcases List.mem_cons.mp hp with rfl | hp
    · rw [Function.update_of_ne (Ne.symm hgt)]
      exact newTunnel_key
    · have hmem := (h.leaf_iff p.1).mpr ⟨p.2, hp⟩
      have hpu : p.1 ∈ toList (nodes u) := leaves_subset _ hmem
      have hpg : p.1 ≠ g := fun e => hg (e ▸ hpu)
      have hpt : p.1 ≠ t := fun e => ht (e ▸ hpu)
      rw [Function.update_of_ne hpg]
      exact (newTunnel_same hpt).key.trans (h.key p hp)

/-- `tunnel_tree_insert` of a new node: the tunnel that has the key, no memory, or the key is
    added. -/
theorem insert_cases (h : s.Holding live w) (ht : t ∉ 0 :: s.alloc)
    (hgl : ∀ g ∈ gl, g ∉ 0 :: t :: s.alloc) (hfuel : MAXTUNBIT < fuel) :
    (∃ e, (e, k) ∈ live ∧ tunnelTreeInsert fuel t gl (s.newTunnel t k) =
      some (s.newTunnel t k, e, false)) ∨
    (∀ p ∈ live, p.2 ≠ k) ∧
      ((gl = none ∧ s.root ≠ 0 ∧ tunnelTreeInsert fuel t gl (s.newTunnel t k) =
        some ((s.newTunnel t k).setBit t MAXTUNBIT, t, false)) ∨
      (gl ≠ none ∨ s.root = 0) ∧ ∃ s' w',
        tunnelTreeInsert fuel t gl (s.newTunnel t k) = some (s', 0, false) ∧
          s'.Holding ((t, k) :: live) w') := by
  cases w with
  | none =>
    have hlive : ∀ p ∈ live, p.2 ≠ k := by
      intro p hp
      exact absurd ((h.leaf_iff p.1).mpr ⟨p.2, hp⟩) List.not_mem_nil
    obtain ⟨s', hinsert, hholding⟩ := insert_first fuel gl k h ht
    exact .inr ⟨hlive, .inr ⟨.inr h.represents.holds.root, s', _, hinsert, hholding⟩⟩
  | some u =>
    have hnot : t ∉ toList (nodes u) := by
      rw [List.mem_cons, not_or, h.alloc.mem_iff] at ht
      exact ht.2
    have hroot : s.root ≠ 0 := by
      have hptr : s.root = LinkedTree.ptr (nodes u) := h.represents.holds.root
      rw [hptr]
      exact ptr_nodes_ne_zero h.represents.holds.null
    by_cases hkey : ∃ e, (e, k) ∈ live
    · have hrep := newTunnel_represents (k := k) h.represents hnot
      have htarget := (h.key_iff hnot).mp hkey
      have hnew : (s.newTunnel t k).key t = k := newTunnel_key
      have hinsert := insert_present (t := t) hrep hfuel (by rwa [hnew]) gl
      rw [hnew] at hinsert
      have hmem : (s.newTunnel t k).target k u ∈ leaves u := target_mem
      refine .inl ⟨_, ?_, hinsert⟩
      obtain ⟨k', hk'⟩ := (h.leaf_iff _).mp hmem
      have hsame : (s.newTunnel t k).target k u ≠ t := by
        intro e
        exact hnot (e ▸ leaves_subset _ hmem)
      have hold := (newTunnel_same (s := s) (k := k) hsame).key
      have hkk : k' = k := ((hold.symm.trans htarget).symm.trans (h.key _ hk')).symm
      rwa [hkk] at hk'
    · have hnone : ∀ p ∈ live, p.2 ≠ k := by
        rintro p hp rfl
        exact hkey ⟨p.1, hp⟩
      obtain ⟨hfail, hinsert⟩ := insert_another h ht hfuel hnone
      refine .inr ⟨hnone, ?_⟩
      cases gl with
      | none => exact .inl ⟨rfl, hroot, hfail⟩
      | some g =>
        obtain ⟨s', u', hins, hholding⟩ := hinsert g (hgl g rfl)
        exact .inr ⟨.inl (Option.some_ne_none g), s', _, hins, hholding⟩

/-- The node is freed, and nothing has changed. -/
theorem Holding.freed (h : s.Holding live w) (hsame : ∀ x ∈ s.alloc, SameNode s' s x)
    (hroot : s'.root = s.root) (halloc : s'.alloc = t :: s.alloc) : (s'.free t).Holding live w := by
  refine ⟨?_, ?_, h.leaf_iff, ?_⟩
  · apply Represents.congr h.represents
    · exact hroot
    · intro x hx
      have hx' := hsame x (h.alloc.mem_iff.mpr hx)
      exact ⟨hx'.links, hx'.bit, hx'.key, hx'.glue⟩
  · change (s'.alloc.erase t).Perm _
    rw [halloc, List.erase_cons_head]
    exact h.alloc
  · intro p hp
    have hmem := (h.leaf_iff p.1).mpr ⟨p.2, hp⟩
    refine (hsame p.1 (h.alloc.mem_iff.mpr ?_)).key.trans (h.key p hp)
    cases w with
    | none => exact absurd hmem List.not_mem_nil
    | some u => exact leaves_subset _ hmem

theorem remove_holding (h : s.Holding live w) (hmem : (t, k) ∈ live) :
    ∃ s' w', tunnelTreeRemove t s = some s' ∧
      s'.Holding (live.filter fun p => p.1 ≠ t) w' := by
  have hleaf := (h.leaf_iff t).mpr ⟨k, hmem⟩
  cases w with
  | none => exact absurd hleaf List.not_mem_nil
  | some u =>
    have hnull : 0 ∉ toList (nodes u) := h.represents.holds.null
    have htree := s.zip_path (s.key t) u
    rw [target_eq (h.represents.wf u rfl) hleaf] at htree
    generalize s.path (s.key t) u = fs at htree
    subst htree
    cases fs with
    | nil =>
      refine ⟨_, none, remove_last h.represents, ⟨⟨rfl, trivial, List.nodup_nil, ?_⟩, ?_, ?_⟩,
        ?_, ?_, ?_⟩
      · exact List.not_mem_nil
      · exact fun v hv => absurd hv (Option.not_mem_none v)
      · exact fun v hv => absurd hv (Option.not_mem_none v)
      · change (s.alloc.erase t).Perm []
        have hone : s.alloc = [t] := List.perm_singleton.mp h.alloc
        rw [hone, List.erase_cons_head]
      · intro y
        have hy := h.leaf_iff y
        simp only [Radix.zip, values_some, leaves, List.mem_singleton] at hy
        simp [List.mem_filter, ← hy]
      · intro p hp
        exact h.key p (List.mem_of_mem_filter hp)
    | cons f fs =>
      obtain ⟨r, g, v⟩ := f
      have hapart := leaf_apart h.represents
      refine ⟨_, _, remove_pruned h.represents, pruned_represents h.represents, ?_, ?_, ?_⟩
      · change ((s.alloc.erase t).erase g).Perm _
        have hperm : (toList (nodes (Radix.zip (.leaf t) (⟨r, g, v⟩ :: fs)))).Perm
            (t :: g :: toList (nodes (Radix.zip v fs))) := by
          rw [nodes_zip, nodes_zip]
          apply (LinkedTree.toList_zip_perm _ _).trans
          exact List.Perm.cons t (List.Perm.cons g (LinkedTree.toList_zip_perm _ _).symm)
        have herase := ((h.alloc.trans hperm).erase t).erase g
        rwa [List.erase_cons_head, List.erase_cons_head] at herase
      · intro y
        have hy := h.leaf_iff y
        rw [values_some] at hy
        rw [values_some, mem_pruned h.represents, hy]
        simp [List.mem_filter]
      · intro p hp
        exact h.key p (List.mem_of_mem_filter hp)

/-! ### Runs -/

theorem newTunnel_setBit_same (hx : x ≠ t) :
    SameNode ((s.newTunnel t k).setBit t MAXTUNBIT) s x := by
  have hsame := newTunnel_same (s := s) (k := k) hx
  exact ⟨hsame.links, (Function.update_of_ne hx _ _).trans hsame.bit, hsame.key, hsame.glue⟩

theorem addTunnel_run (h : s.Holding live w) (ht : t ∉ 0 :: s.alloc)
    (hgl : ∀ g ∈ gl, g ∉ 0 :: t :: s.alloc) (hfuel : MAXTUNBIT < fuel) :
    ∃ s' r w', addTunnel fuel t k gl s = some (s', r) ∧
      s'.Holding (if r = 0 then live else (t, k) :: live) w' := by
  have ht' := ht
  rw [List.mem_cons, not_or] at ht
  obtain ⟨ht0, ht⟩ := ht
  have hother : ∀ x ∈ s.alloc, x ≠ t := by
    rintro x hx rfl
    exact ht hx
  unfold addTunnel
  obtain ⟨e, he, hinsert⟩ | ⟨-, ⟨-, -, hinsert⟩ | ⟨-, s', w', hinsert, hholding⟩⟩ :=
    insert_cases (k := k) h ht' hgl hfuel
  · have he0 : e ≠ 0 := by
      rintro rfl
      have hmem := (h.leaf_iff 0).mpr ⟨k, he⟩
      cases w with
      | none => exact List.not_mem_nil hmem
      | some u => exact h.represents.holds.null (leaves_subset _ hmem)
    rw [hinsert, Option.map_some, if_pos he0]
    exact ⟨_, 0, w, rfl, h.freed (fun x hx => newTunnel_same (hother x hx)) rfl rfl⟩
  · rw [hinsert, Option.map_some, if_pos ht0]
    exact ⟨_, 0, w, rfl, h.freed (fun x hx => newTunnel_setBit_same (hother x hx)) rfl rfl⟩
  · rw [hinsert, Option.map_some, if_neg fun hne => hne rfl]
    refine ⟨s', t, w', rfl, ?_⟩
    rw [if_neg ht0]
    exact hholding

theorem TreeRun.holding (h : TreeRun s live) : ∃ w, s.Holding live w := by
  induction h with
  | start hroot halloc =>
    refine ⟨none, ⟨⟨hroot, trivial, List.nodup_nil, List.not_mem_nil⟩, ?_, ?_⟩, ?_, ?_, ?_⟩
    · exact fun v hv => absurd hv (Option.not_mem_none v)
    · exact fun v hv => absurd hv (Option.not_mem_none v)
    · rw [halloc]
      exact List.Perm.refl _
    · simp
    · simp
  | insert h ht hgl hfuel hadd ih =>
    obtain ⟨w, hw⟩ := ih
    obtain ⟨s'', r', w', hadd', hholding⟩ := addTunnel_run hw ht hgl hfuel
    obtain ⟨rfl, rfl⟩ := Prod.mk.inj (Option.some.inj (hadd'.symm.trans hadd))
    exact ⟨w', hholding⟩
  | remove h hmem hremove ih =>
    obtain ⟨w, hw⟩ := ih
    obtain ⟨s'', w', hremove', hholding⟩ := remove_holding hw hmem
    obtain rfl := Option.some.inj (hremove'.symm.trans hremove)
    exact ⟨w', hholding⟩

theorem Holding.unique (h : s.Holding live w) {e' : ℕ} (he : (e, k) ∈ live)
    (he' : (e', k) ∈ live) : e = e' := by
  have hmem := (h.leaf_iff e).mpr ⟨k, he⟩
  have hmem' := (h.leaf_iff e').mpr ⟨k, he'⟩
  cases w with
  | none => exact absurd hmem List.not_mem_nil
  | some u =>
    have hwf := h.represents.wf u rfl
    have htarget := target_eq hwf hmem
    have htarget' := target_eq hwf hmem'
    rw [h.key _ he] at htarget
    rw [h.key _ he'] at htarget'
    exact htarget.symm.trans htarget'

theorem Holding.live_ne_zero (h : s.Holding live w) (he : (e, k) ∈ live) : e ≠ 0 := by
  rintro rfl
  have hmem := (h.leaf_iff 0).mpr ⟨k, he⟩
  cases w with
  | none => exact List.not_mem_nil hmem
  | some u => exact h.represents.holds.null (leaves_subset _ hmem)

theorem Holding.find (h : s.Holding live w) (hfuel : MAXTUNBIT < fuel) (k : Addr6) :
    ∃ r, tunnelTreeFind fuel k s = some r ∧ ∀ e, (e, k) ∈ live ↔ e = r ∧ r ≠ 0 := by
  obtain ⟨r, hfind, hsome, hnone⟩ := tunnelTreeFind_run (k := k) h.represents hfuel
  refine ⟨r, hfind, fun e => ⟨fun he => ?_, ?_⟩⟩
  · have hr : r ≠ 0 := by
      intro hzero
      exact hnone hzero e ((h.leaf_iff e).mpr ⟨k, he⟩) (h.key _ he)
    obtain ⟨hmem, hkey⟩ := hsome hr
    obtain ⟨k', hk'⟩ := (h.leaf_iff r).mp hmem
    have hkk : k' = k := (h.key _ hk').symm.trans hkey
    exact ⟨h.unique he (hkk ▸ hk'), hr⟩
  · rintro ⟨rfl, hr⟩
    obtain ⟨hmem, hkey⟩ := hsome hr
    obtain ⟨k', hk'⟩ := (h.leaf_iff e).mp hmem
    have hkk : k' = k := (h.key _ hk').symm.trans hkey
    exact hkk ▸ hk'

/-- A tunnel is a leaf; a glue node has two children, on later bits. -/
theorem Holding.node (h : s.Holding live w) (hx : x ∈ s.alloc) :
    ((∃ k, (x, k) ∈ live) ∧ s.bit x = MAXTUNBIT ∧ s.glue x = false ∧ ∀ c, s.child c x = 0) ∨
    (s.glue x = true ∧ s.bit x < MAXTUNBIT ∧ ∀ c, s.child c x ≠ 0 ∧ s.child c x ∈ s.alloc ∧
      s.parent (s.child c x) = x ∧ s.bit x < s.bit (s.child c x)) := by
  rw [h.alloc.mem_iff] at hx
  cases w with
  | none => exact absurd hx List.not_mem_nil
  | some u =>
    have hmem : s.toLinks.Mem 0 (nodes u) := h.represents.holds.mem
    have hshape := h.represents.shaped u rfl
    rcases node_cases hmem hshape (h.represents.wf u rfl) hx with hleaf | ⟨hglue, hbit, hkids⟩
    · exact .inl ⟨(h.leaf_iff x).mp hleaf, leaf_node hmem hshape hleaf⟩
    · refine .inr ⟨hglue, hbit, fun c => ?_⟩
      obtain ⟨hin, hparent, hlt⟩ := hkids c
      refine ⟨?_, h.alloc.mem_iff.mpr hin, hparent, hlt⟩
      intro hzero
      exact h.represents.holds.null (hzero ▸ hin)

/-- The tree is the same, only a node outside it may have changed. -/
structure Untouched (s' s : TunnelTree) : Prop where
  root : s'.root = s.root
  nodes : ∀ x ∈ s.alloc, SameNode s' s x

/-- The tree is a set of keys over every run: it finds the tunnels inserted and not removed,
    a present key keeps its tunnel, and without memory for a glue node nothing changes. -/
theorem tunnel_tree_set (h : TreeRun s live) (hfuel : MAXTUNBIT < fuel) :
    (∀ k, ∃ r, tunnelTreeFind fuel k s = some r ∧ ∀ e, (e, k) ∈ live ↔ e = r ∧ r ≠ 0) ∧
    (∀ x ∈ s.alloc,
      ((∃ k, (x, k) ∈ live) ∧ s.bit x = MAXTUNBIT ∧ s.glue x = false ∧ ∀ c, s.child c x = 0) ∨
      (s.glue x = true ∧ s.bit x < MAXTUNBIT ∧ ∀ c, s.child c x ≠ 0 ∧ s.child c x ∈ s.alloc ∧
        s.parent (s.child c x) = x ∧ s.bit x < s.bit (s.child c x))) ∧
    (∀ t k gl, t ∉ 0 :: s.alloc → (∀ g ∈ gl, g ∉ 0 :: t :: s.alloc) →
      (∀ e, (e, k) ∈ live → ∃ s', Untouched s' s ∧
        tunnelTreeInsert fuel t gl (s.newTunnel t k) = some (s', e, false)) ∧
      ((∀ p ∈ live, p.2 ≠ k) → gl = none → s.root ≠ 0 → ∃ s', Untouched s' s ∧
        tunnelTreeInsert fuel t gl (s.newTunnel t k) = some (s', t, false)) ∧
      ((∀ p ∈ live, p.2 ≠ k) → gl ≠ none ∨ s.root = 0 → ∃ s', TreeRun s' ((t, k) :: live) ∧
        tunnelTreeInsert fuel t gl (s.newTunnel t k) = some (s', 0, false))) ∧
    ∀ t k, (t, k) ∈ live → ∃ s', TreeRun s' (live.filter fun p => p.1 ≠ t) ∧
      tunnelTreeRemove t s = some s' := by
  obtain ⟨w, hw⟩ := h.holding
  refine ⟨hw.find hfuel, fun x hx => hw.node hx, fun t k gl ht hgl => ?_, fun t k hmem => ?_⟩
  · have hother : ∀ x ∈ s.alloc, x ≠ t := by
      rintro x hx rfl
      exact ht (List.mem_cons_of_mem 0 hx)
    have ht0 : t ≠ 0 := fun e => ht (e ▸ List.mem_cons_self)
    obtain ⟨e, he, hinsert⟩ | ⟨habsent, ⟨hgn, hroot, hinsert⟩ | ⟨hcond, s', w', hinsert, -⟩⟩ :=
      insert_cases (k := k) hw ht hgl hfuel
    · refine ⟨fun e' he' => ⟨s.newTunnel t k, ⟨rfl, ?_⟩, ?_⟩, ?_, ?_⟩
      · exact fun x hx => newTunnel_same (hother x hx)
      · rw [hw.unique he' he]
        exact hinsert
      · exact fun habsent => absurd rfl (habsent _ he)
      · exact fun habsent => absurd rfl (habsent _ he)
    · refine ⟨fun e he => absurd rfl (habsent _ he), fun _ _ _ =>
        ⟨(s.newTunnel t k).setBit t MAXTUNBIT, ⟨rfl, ?_⟩, hinsert⟩, ?_⟩
      · exact fun x hx => newTunnel_setBit_same (hother x hx)
      · rintro - (hne | hzero)
        · exact absurd hgn hne
        · exact absurd hzero hroot
    · refine ⟨fun e he => absurd rfl (habsent _ he), ?_, fun _ _ => ⟨s', ?_, hinsert⟩⟩
      · rintro - hgn hroot
        rcases hcond with hne | hzero
        · exact absurd hgn hne
        · exact absurd hzero hroot
      · have hrun := h.insert (k := k) (r := t) ht hgl hfuel (by
          unfold addTunnel
          rw [hinsert, Option.map_some, if_neg fun hne => hne rfl])
        rwa [if_neg ht0] at hrun
  · obtain ⟨s', w', hremove, -⟩ := remove_holding hw hmem
    exact ⟨s', h.remove hmem hremove, hremove⟩

/-- No tunnel. -/
def noTunnel : TunnelTree :=
  ⟨⟨fun _ _ => 0, fun _ => 0, 0⟩, fun _ => 0, fun _ => 0, fun _ => false, []⟩

/-- A tunnel, then another one. -/
theorem tunnel_tree_set_two : ∃ s, TreeRun s [(2, 9), (1, 5)] ∧
    tunnelTreeFind 129 5 s = some 1 ∧ tunnelTreeFind 129 9 s = some 2 := by
  have hfuel : MAXTUNBIT < 129 := by decide
  have hadd : noTunnel.addTunnel 129 1 5 none =
      some (((noTunnel.addTunnel 129 1 5 none).get rfl).1, 1) := rfl
  have hone := TreeRun.insert (.start rfl rfl) (by decide) (by simp) hfuel hadd
  obtain ⟨-, -, hinsert, -⟩ := tunnel_tree_set hone hfuel
  obtain ⟨s, hrun, -⟩ := (hinsert 2 9 (some 3) (by decide +kernel) (by decide +kernel)).2.2
    (by decide) (.inl (Option.some_ne_none 3))
  obtain ⟨hfind, -⟩ := tunnel_tree_set hrun hfuel
  obtain ⟨r₅, hr₅, hmem₅⟩ := hfind 5
  obtain ⟨r₉, hr₉, hmem₉⟩ := hfind 9
  obtain ⟨rfl, -⟩ := (hmem₅ 1).mp (by simp)
  obtain ⟨rfl, -⟩ := (hmem₉ 2).mp (by simp)
  exact ⟨s, hrun, hr₅, hr₉⟩

end TunnelTree

end WanStack.Aftr
