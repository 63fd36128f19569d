import WanStack.Aftr.TunnelPaths

set_option autoImplicit false

/-!
# Insertions into the tunnel tree and removals

Every operation keeps a tree in memory and changes its leaves by one.
-/
namespace WanStack.Aftr
open BinaryTree SearchTree Radix

namespace TunnelTree

variable {s s' : TunnelTree} {u v : Radix.Tree ℕ} {fs : List (Radix.Frame ℕ)} {k : Addr6}
  {t x g node fuel d lo : ℕ}

/-! ### The path of a key -/

/-- The glue nodes above the leaf a key leads to, nearest first. -/
def path (s : TunnelTree) (k : Addr6) (u : Radix.Tree ℕ) : List (Radix.Frame ℕ) :=
  (focus (fun g => bitAt k (s.bit g)) u []).2

theorem zip_path (s : TunnelTree) (k : Addr6) (u : Radix.Tree ℕ) :
    Radix.zip (.leaf (s.target k u)) (s.path k u) = u := by
  have h := zip_focus (fun g => bitAt k (s.bit g)) u []
  rwa [focus_fst] at h

theorem path_side : ∀ f ∈ s.path k u, f.right = bitAt k (s.bit f.bit) :=
  focus_side _ u [] (by simp)

theorem target_mem : s.target k u ∈ leaves u := follow_mem _ u

theorem target_eq (h : WellFormed s.key bitAt MAXTUNBIT lo (relabel s.bit u))
    (hx : x ∈ leaves u) : s.target (s.key x) u = x := by
  have hfollow := follow_eq h (by rwa [leaves_relabel])
  rwa [follow_relabel] at hfollow

/-- The leaf with a key is the one the key leads to. -/
theorem key_iff (h : s.Represents (some u)) :
    (∃ x ∈ leaves u, s.key x = k) ↔ s.key (s.target k u) = k := by
  constructor
  · rintro ⟨x, hx, rfl⟩
    rw [target_eq (h.wf u rfl) hx]
  · intro hk
    exact ⟨_, target_mem, hk⟩

/-! ### `tunnel_tree_find` -/

theorem tunnelTreeFind_run {w : Option (Radix.Tree ℕ)} (h : s.Represents w)
    (hfuel : MAXTUNBIT < fuel) : ∃ r, tunnelTreeFind fuel k s = some r ∧
      (r ≠ 0 → r ∈ values w ∧ s.key r = k) ∧ (r = 0 → ∀ x ∈ values w, s.key x ≠ k) := by
  cases w with
  | none =>
    have hroot : s.root = 0 := h.holds.root
    exact ⟨0, if_pos hroot, fun hne => absurd rfl hne, by simp⟩
  | some u =>
    have hnull : 0 ∉ toList (nodes u) := h.holds.null
    have hroot : s.root = LinkedTree.ptr (nodes u) := h.holds.root
    have hloop := findLoop_run (k := k) h.holds.mem hnull (h.shaped u rfl) (h.wf u rfl)
      (by omega) (Nat.zero_lt_of_lt hfuel)
    have hleaf := (shaped_zip.mp ((s.zip_path k u).symm ▸ h.shaped u rfl)).1
    have hne : s.target k u ≠ 0 := fun e => hnull (e ▸ leaves_subset _ target_mem)
    unfold tunnelTreeFind
    rw [if_neg (by rw [hroot]; exact ptr_nodes_ne_zero hnull), hroot, hloop, Option.map_some,
      if_neg hne, if_neg (by rw [hleaf.1, hleaf.2]; simp)]
    split
    · rename_i hk
      exact ⟨_, rfl, fun _ => ⟨target_mem, hk⟩, fun e => absurd e hne⟩
    · rename_i hk
      refine ⟨0, rfl, fun e => absurd rfl e, fun _ x hx hxk => ?_⟩
      exact hk ((key_iff h).mp ⟨x, hx, hxk⟩)

/-! ### The new glue node -/

theorem newGlue_eq (hd : d < MAXTUNBIT) (htg : t ≠ g) (hnode : node ≠ g) :
    s.newGlue t g node d =
      { child := fun c x =>
          if x = g then if c = bitAt (s.key t) d then node else t else s.child c x
        parent := fun x => if x = t then g else if x = g then s.parent node else s.parent x
        root := s.root
        bit := Function.update s.bit g d
        key := Function.update s.key g 0
        glue := Function.update s.glue g true
        alloc := g :: s.alloc } := by
  have hbit := keyBit_eq (s.key t) hd
  unfold newGlue
  simp only [malloc, setLeft, setRight, setParent, setBit, setKey, setGlue,
    LinkedTree.Links.setChild, LinkedTree.Links.setParent, Function.update_of_ne htg, hbit, hd,
    true_and, if_neg hnode, Function.update_idem]
  cases bitAt (s.key t) d with
  | true =>
    simp only [if_true]
    congr 2
    · funext c x
      by_cases hx : x = g <;> cases c <;> simp [hx]
    · funext x
      by_cases hx : x = g <;> simp [hx]
  | false =>
    simp only [Bool.false_eq_true, if_false]
    congr 2
    · funext c x
      by_cases hx : x = g <;> cases c <;> simp [hx]
    · funext x
      by_cases hx : x = g <;> simp [hx]

theorem newGlue_same (hd : d < MAXTUNBIT) (htg : t ≠ g) (hnode : node ≠ g) (hxt : x ≠ t)
    (hxg : x ≠ g) : SameNode (s.newGlue t g node d) s x := by
  rw [newGlue_eq hd htg hnode]
  exact ⟨⟨fun c => if_neg hxg, (if_neg hxt).trans (if_neg hxg)⟩, Function.update_of_ne hxg _ _,
    Function.update_of_ne hxg _ _, Function.update_of_ne hxg _ _⟩

theorem toLinks_replace (s : TunnelTree) (node g : ℕ) : (s.replace node g).toLinks =
    (s.toLinks.relink false (s.parent node) node g).setParent node g := by
  unfold replace setParent
  rw [toLinks_relink]

theorem replace_rest (s : TunnelTree) (node g : ℕ) : (s.replace node g).bit = s.bit ∧
    (s.replace node g).key = s.key ∧ (s.replace node g).glue = s.glue ∧
    (s.replace node g).alloc = s.alloc := by
  unfold replace relink
  split
  · exact ⟨rfl, rfl, rfl, rfl⟩
  · split
    · exact ⟨rfl, rfl, rfl, rfl⟩
    · exact ⟨rfl, rfl, rfl, rfl⟩

theorem inserted_rest (hd : d < MAXTUNBIT) (htg : t ≠ g) (hnode : node ≠ g) :
    ((s.newGlue t g node d).replace node g).bit = Function.update s.bit g d ∧
    ((s.newGlue t g node d).replace node g).key = Function.update s.key g 0 ∧
    ((s.newGlue t g node d).replace node g).glue = Function.update s.glue g true ∧
    ((s.newGlue t g node d).replace node g).alloc = g :: s.alloc := by
  obtain ⟨hbit, hkey, hglue, halloc⟩ := replace_rest (s.newGlue t g node d) node g
  rw [hbit, hkey, hglue, halloc, newGlue_eq hd htg hnode]
  exact ⟨rfl, rfl, rfl, rfl⟩

/-- A node that is not in the tree. -/
structure Outside (s : TunnelTree) (t : ℕ) (u : Radix.Tree ℕ) : Prop where
  notMem : t ∉ toList (nodes u)
  ne : t ≠ 0

/-- The tree with the leaf `t` under a new glue node above `v`. -/
def grafted (s : TunnelTree) (t g d : ℕ) (v : Radix.Tree ℕ) (high : List (Radix.Frame ℕ)) :
    Radix.Tree ℕ :=
  Radix.zip (.leaf t) (⟨bitAt (s.key t) d, g, v⟩ :: high)

theorem newGlue_holds {high : List (Radix.Frame ℕ)}
    (h : s.toLinks.Holds (nodes (Radix.zip v high)))
    (ht : s.Outside t (Radix.zip v high)) (hg : s.Outside g (Radix.zip v high)) (htg : t ≠ g)
    (hkids : ∀ c, s.child c t = 0) (hd : d < MAXTUNBIT) :
    ((s.newGlue t g (LinkedTree.ptr (nodes v)) d).replace
      (LinkedTree.ptr (nodes v)) g).toLinks.Holds (nodes (s.grafted t g d v high)) := by
  have hperm := LinkedTree.toList_zip_perm (nodes v) (high.map hole)
  have hht := ht.notMem
  have hhg := hg.notMem
  rw [nodes_zip] at h hht hhg
  rw [hperm.mem_iff] at hht hhg
  obtain ⟨hmem, -, -, -⟩ := LinkedTree.Links.holds_zip.mp h
  have hne := nodes_ne_nil v
  have hptr := List.mem_append_left (LinkedTree.around (high.map hole)) (LinkedTree.ptr_mem hne)
  have hnode : LinkedTree.ptr (nodes v) ≠ g := fun e => hhg (e ▸ hptr)
  have hnodet : LinkedTree.ptr (nodes v) ≠ t := fun e => hht (e ▸ hptr)
  have hparent : s.parent (LinkedTree.ptr (nodes v)) = LinkedTree.above (high.map hole) := by
    cases v with
    | leaf x => exact hmem.2.2.1
    | glue b l r => exact hmem.2.2.1
  have hsame : ∀ x ∈ toList (nodes v) ++ LinkedTree.around (high.map hole),
      SameNode (s.newGlue t g (LinkedTree.ptr (nodes v)) d) s x := by
    intro x hx
    exact newGlue_same hd htg hnode (fun e => hht (e ▸ hx)) fun e => hhg (e ▸ hx)
  have hparent' : (s.newGlue t g (LinkedTree.ptr (nodes v)) d).parent (LinkedTree.ptr (nodes v)) =
      LinkedTree.above (high.map hole) := (hsame _ hptr).links.parent.trans hparent
  rw [toLinks_replace, hparent']
  unfold grafted
  rw [nodes_zip, List.map_cons]
  refine h.graft hne ?_ (fun x hx => (hsame x hx).links) ⟨?_, ?_, ?_⟩ ?_ ?_
  · rw [newGlue_eq hd htg hnode]
  · simpa using htg
  · simpa using ⟨ht.ne.symm, hg.ne.symm⟩
  · simpa using ⟨by simpa using hht, by simpa using hhg⟩
  · rw [newGlue_eq hd htg hnode]
    refine ⟨?_, ?_, ?_⟩
    · simp
    · simp
    · simp [htg.symm, hparent]
  · rw [newGlue_eq hd htg hnode]
    exact ⟨fun c => (if_neg htg).trans (hkids c), if_pos rfl⟩

/-- With `t` below the new node on the bit `d`, the tree is the old one with `t` placed. -/
theorem wellFormed_grafted {low high : List (Radix.Frame ℕ)} (hv : Radix.zip (.leaf x) low = v)
    (h : WellFormed s.key bitAt MAXTUNBIT 0 (relabel s.bit (Radix.zip v high)))
    (hx : s.target (s.key t) (Radix.zip v high) = x)
    (hbits : ∀ y ∈ toList (nodes (Radix.zip v high)), s'.bit y = s.bit y) (hbitg : s'.bit g = d)
    (hkeys : ∀ y ∈ leaves (Radix.zip v high), s'.key y = s.key y) (hkeyt : s'.key t = s.key t)
    (hd : d < MAXTUNBIT) (hdiffer : DiffersAt (s.key t) (s.key x) d)
    (hlow : ∀ f ∈ low, d ≤ s.bit f.bit)
    (hhigh : ∀ f ∈ high, s.bit f.bit < d ∧ f.right = bitAt (s.key t) (s.bit f.bit)) :
    WellFormed s'.key bitAt MAXTUNBIT 0 (relabel s'.bit (s.grafted t g d v high)) := by
  have hperm := LinkedTree.toList_zip_perm (nodes v) (high.map hole)
  have hbithigh : ∀ f ∈ high, s'.bit f.bit = s.bit f.bit := by
    intro f hf
    apply hbits
    rw [nodes_zip, hperm.mem_iff]
    exact List.mem_append_right _ (LinkedTree.mem_around (List.mem_map_of_mem hf))
  have hbitlow : ∀ f ∈ low, s'.bit f.bit = s.bit f.bit := by
    intro f hf
    apply hbits
    rw [nodes_zip, hperm.mem_iff, ← hv, nodes_zip, List.mem_append]
    refine .inl ((LinkedTree.toList_zip_perm _ _).mem_iff.mpr ?_)
    exact List.mem_append_right _ (LinkedTree.mem_around (List.mem_map_of_mem hf))
  have htree : relabel s'.bit (s.grafted t g d v high) =
      place (bitAt (s'.key t)) d t (relabel s'.bit (Radix.zip v high)) := by
    have hleaf : ∀ y : ℕ, relabel s'.bit (.leaf y) = .leaf y := fun y => rfl
    unfold grafted
    rw [relabel_zip, relabel_zip, place_zip, ← hv, relabel_zip, hleaf, hleaf, place_join,
      join_eq_plug, List.map_cons, Radix.zip, hkeyt]
    · unfold Frame.relabel
      rw [hbitg, relabel_zip]
      rfl
    · intro f' hf'
      obtain ⟨f, hf, rfl⟩ := List.mem_map.mp hf'
      exact (hlow f hf).trans (hbitlow f hf).ge
    · intro f' hf'
      obtain ⟨f, hf, rfl⟩ := List.mem_map.mp hf'
      unfold Frame.relabel
      rw [hbithigh f hf, hkeyt]
      exact hhigh f hf
  have hlabel : relabel s'.bit (Radix.zip v high) = relabel s.bit (Radix.zip v high) :=
    relabel_congr hbits
  have hfollow : follow (bitAt (s.key t)) (relabel s.bit (Radix.zip v high)) = x := by
    rw [follow_relabel]
    exact hx
  have hmemx : x ∈ leaves (Radix.zip v high) := hx ▸ target_mem
  have hwf : WellFormed s'.key bitAt MAXTUNBIT 0 (relabel s.bit (Radix.zip v high)) := by
    apply wellFormed_congr h
    intro y hy
    rw [leaves_relabel] at hy
    exact hkeys y hy
  rw [htree, hlabel]
  apply wellFormed_place hwf (Nat.zero_le d) hd
  · rw [hkeyt, hfollow, hkeys x hmemx]
    exact hdiffer.ne hd
  · rw [hkeyt, hfollow, hkeys x hmemx]
    exact hdiffer.before

theorem newGlue_represents {low high : List (Radix.Frame ℕ)} (hv : Radix.zip (.leaf x) low = v)
    (h : s.Represents (some (Radix.zip v high)))
    (hx : s.target (s.key t) (Radix.zip v high) = x)
    (ht : s.Outside t (Radix.zip v high)) (hg : s.Outside g (Radix.zip v high)) (htg : t ≠ g)
    (hkids : ∀ c, s.child c t = 0) (hbit : s.bit t = MAXTUNBIT) (hglue : s.glue t = false)
    (hd : d < MAXTUNBIT) (hdiffer : DiffersAt (s.key t) (s.key x) d)
    (hlow : ∀ f ∈ low, d ≤ s.bit f.bit)
    (hhigh : ∀ f ∈ high, s.bit f.bit < d ∧ f.right = bitAt (s.key t) (s.bit f.bit)) :
    ((s.newGlue t g (LinkedTree.ptr (nodes v)) d).replace
      (LinkedTree.ptr (nodes v)) g).Represents (some (s.grafted t g d v high)) := by
  have hholds := newGlue_holds h.holds ht hg htg hkids hd
  have hptr : LinkedTree.ptr (nodes v) ∈ toList (nodes (Radix.zip v high)) := by
    rw [nodes_zip, (LinkedTree.toList_zip_perm _ _).mem_iff]
    exact List.mem_append_left _ (LinkedTree.ptr_mem (nodes_ne_nil v))
  have hother : ∀ y ∈ toList (nodes (Radix.zip v high)), y ≠ g := by
    rintro y hy rfl
    exact hg.notMem hy
  obtain ⟨hbits, hkeys, hglues, -⟩ := inserted_rest (s := s) hd htg (hother _ hptr)
  revert hholds hbits hkeys hglues
  generalize (s.newGlue t g (LinkedTree.ptr (nodes v)) d).replace (LinkedTree.ptr (nodes v)) g = s'
  intro hholds hbits hkeys hglues
  have hbitx : ∀ y, y ≠ g → s'.bit y = s.bit y := by
    intro y hy
    rw [hbits, Function.update_of_ne hy]
  have hgluex : ∀ y, y ≠ g → s'.glue y = s.glue y := by
    intro y hy
    rw [hglues, Function.update_of_ne hy]
  have hkeyx : ∀ y, y ≠ g → s'.key y = s.key y := by
    intro y hy
    rw [hkeys, Function.update_of_ne hy]
  refine ⟨hholds, ?_, ?_⟩
  · intro w hw
    obtain rfl := Option.some.inj hw
    obtain ⟨hv', hhigh'⟩ := shaped_zip.mp ((h.shaped _ rfl).congr fun y hy =>
      ⟨hbitx y (hother y hy), hgluex y (hother y hy)⟩)
    refine shaped_zip.mpr ⟨⟨?_, ?_⟩, List.forall_mem_cons.mpr ⟨⟨?_, hv'⟩, hhigh'⟩⟩
    · rw [hbitx t htg, hbit]
    · rw [hgluex t htg, hglue]
    · rw [hglues, Function.update_self]
  · intro w hw
    obtain rfl := Option.some.inj hw
    apply wellFormed_grafted hv (h.wf _ rfl) hx
    · exact fun y hy => hbitx y (hother y hy)
    · rw [hbits, Function.update_self]
    · exact fun y hy => hkeyx y (hother y (leaves_subset y hy))
    · exact hkeyx t htg
    · exact hd
    · exact hdiffer
    · exact hlow
    · exact hhigh

/-! ### `tunnel_tree_insert` -/

theorem mem_grafted {high : List (Radix.Frame ℕ)} {y : ℕ} :
    y ∈ leaves (s.grafted t g d v high) ↔ y = t ∨ y ∈ leaves (Radix.zip v high) := by
  unfold grafted
  rw [mem_leaves_zip, mem_leaves_zip, others, List.mem_append, leaves, List.mem_singleton]

theorem nodes_grafted_perm (s : TunnelTree) (t g d : ℕ) (v : Radix.Tree ℕ)
    (high : List (Radix.Frame ℕ)) : (toList (nodes (s.grafted t g d v high))).Perm
      (t :: g :: toList (nodes (Radix.zip v high))) := by
  unfold grafted
  rw [nodes_zip, nodes_zip]
  apply (LinkedTree.toList_zip_perm _ _).trans
  exact List.Perm.cons t (List.Perm.cons g (LinkedTree.toList_zip_perm _ _).symm)

/-- A node from `malloc`, with a key. -/
structure New (s : TunnelTree) (t : ℕ) : Prop where
  kids : ∀ c, s.child c t = 0
  glue : s.glue t = false

/-- Where the climb from the leaf of a key stops, for a key that is not there. -/
structure Split (s : TunnelTree) (t d : ℕ) (u v : Radix.Tree ℕ) (high : List (Radix.Frame ℕ)) :
    Prop where
  lt : d < MAXTUNBIT
  tree : Radix.zip v high = u
  ne : s.bit (LinkedTree.ptr (nodes v)) ≠ d
  low : ∃ low, Radix.zip (.leaf (s.target (s.key t) u)) low = v ∧ ∀ f ∈ low, d ≤ s.bit f.bit
  high : ∀ f ∈ high, s.bit f.bit < d ∧ f.right = bitAt (s.key t) (s.bit f.bit)
  differs : DiffersAt (s.key t) (s.key (s.target (s.key t) u)) d

theorem path_way (h : s.Represents (some u)) : ∃ lo, Way s.key bitAt MAXTUNBIT lo
    (.leaf (s.target k u)) ((s.path k u).map (Frame.relabel s.bit)) := by
  have hwf := h.wf u rfl
  rw [← s.zip_path k u, relabel_zip] at hwf
  exact hwf.way

theorem climb_path (h : s.Represents (some u)) (hfuel : MAXTUNBIT < fuel) :
    ∃ low high, s.path k u = low ++ high ∧
      climb fuel d (s.target k u) s =
        some (LinkedTree.ptr (nodes (Radix.zip (.leaf (s.target k u)) low))) ∧
      (∀ f ∈ low, d ≤ s.bit f.bit) ∧ ∀ f ∈ high.head?, s.bit f.bit < d := by
  have hholds := h.holds
  change s.toLinks.Holds (nodes u) at hholds
  rw [← s.zip_path k u, nodes_zip] at hholds
  obtain ⟨hmem, hup, -, hnull⟩ := LinkedTree.Links.holds_zip.mp hholds
  obtain ⟨lo, hway⟩ := path_way (k := k) h
  have hlen := hway.length
  have hle := hway.le
  rw [List.length_map] at hlen
  apply climb_run hup hmem
  · exact fun hm => hnull (List.mem_append_right _ hm)
  · omega

/-- The bits go down from one glue node to the next above it. -/
theorem high_lt {low high : List (Radix.Frame ℕ)} (h : s.Represents (some u))
    (hpath : s.path k u = low ++ high) (hhead : ∀ f ∈ high.head?, s.bit f.bit < d) :
    ∀ f ∈ high, s.bit f.bit < d := by
  obtain ⟨lo, hway⟩ := path_way (k := k) h
  have hdec := hway.decreasing
  rw [hpath, List.map_append, List.pairwise_append] at hdec
  obtain ⟨-, hdec, -⟩ := hdec
  cases high with
  | nil => exact fun f hf => absurd hf List.not_mem_nil
  | cons f high =>
    have hf := hhead f rfl
    rw [List.map_cons, List.pairwise_cons] at hdec
    intro f' hf'
    rcases List.mem_cons.mp hf' with rfl | hf'
    · exact hf
    · exact (hdec.1 _ (List.mem_map_of_mem hf')).trans hf

theorem path_bit (h : s.Represents (some u)) : ∀ f ∈ s.path k u, s.bit f.bit < MAXTUNBIT ∧
    bitAt (s.key (s.target k u)) (s.bit f.bit) = bitAt k (s.bit f.bit) := by
  intro f hf
  obtain ⟨lo, hway⟩ := path_way (k := k) h
  have hlt := hway.lt _ (List.mem_map_of_mem hf)
  have hside := hway.side _ (List.mem_map_of_mem hf) _ (List.mem_singleton.mpr rfl)
  exact ⟨hlt.trans_le hway.le, hside.trans (path_side f hf)⟩

theorem climb_same (h : s.Represents (some u)) (hfuel : MAXTUNBIT < fuel) :
    climb fuel MAXTUNBIT (s.target k u) s = some (s.target k u) := by
  obtain ⟨low, high, hpath, hclimb, hlow, -⟩ := climb_path (k := k) (d := MAXTUNBIT) h hfuel
  have hnil : low = [] := by
    apply List.eq_nil_iff_forall_not_mem.mpr
    intro f hf
    have hlt := (path_bit (k := k) h f (hpath ▸ List.mem_append_left _ hf)).1
    exact absurd (hlow f hf) (Nat.not_le_of_lt hlt)
  rw [hclimb, hnil]
  rfl

theorem climb_split (h : s.Represents (some u)) (hfuel : MAXTUNBIT < fuel)
    (hd : d < MAXTUNBIT)
    (hdiffer : DiffersAt (s.key t) (s.key (s.target (s.key t) u)) d) :
    ∃ v high, climb fuel d (s.target (s.key t) u) s = some (LinkedTree.ptr (nodes v)) ∧
      s.Split t d u v high := by
  obtain ⟨low, high, hpath, hclimb, hlow, hhead⟩ := climb_path (k := s.key t) (d := d) h hfuel
  have htree : Radix.zip (Radix.zip (.leaf (s.target (s.key t) u)) low) high = u := by
    rw [← zip_append, ← hpath, zip_path]
  have hbits := path_bit (k := s.key t) h
  rw [hpath] at hbits
  have hleaf := (shaped_zip.mp ((s.zip_path (s.key t) u).symm ▸ h.shaped u rfl)).1
  refine ⟨_, high, hclimb, hd, htree, ?_, ⟨low, rfl, hlow⟩, ?_, hdiffer⟩
  · obtain ⟨-, heq⟩ | ⟨f, hf, w, heq⟩ := zip_last (.leaf (s.target (s.key t) u)) low
    · rw [heq]
      exact fun e => absurd (hleaf.1.symm.trans e) hd.ne'
    · -- a glue node on the bit `d` would have led the key the other way
      rw [heq, nodes_plug, LinkedTree.ptr_plug]
      intro e
      have hbit := (hbits f (List.mem_append_left _ hf)).2
      have hfd : s.bit f.bit = d := e
      rw [hfd] at hbit
      exact hdiffer.ne hd hbit.symm
  · intro f hf
    refine ⟨high_lt h hpath hhead f hf, path_side (u := u) f ?_⟩
    rw [hpath]
    exact List.mem_append_right _ hf

theorem differLoop_zero (a b : Addr6) : DiffersAt a b (differLoop a b MAXTUNBIT 0 0) :=
  differLoop_spec a b (Nat.zero_le 16) fun j hj => absurd hj (Nat.not_lt_zero j)

theorem insert_empty (h : s.Represents none) (glue : Option ℕ) :
    tunnelTreeInsert fuel t glue s = some
      (((((s.setParent t 0).setRight t 0).setLeft t 0).setBit t MAXTUNBIT).setRoot t, 0, false) :=
  if_pos h.holds.root

theorem insert_present (h : s.Represents (some u)) (hfuel : MAXTUNBIT < fuel)
    (hkey : s.key (s.target (s.key t) u) = s.key t) (glue : Option ℕ) :
    tunnelTreeInsert fuel t glue s = some (s, s.target (s.key t) u, false) := by
  have hnull : 0 ∉ toList (nodes u) := h.holds.null
  have hroot : s.root = LinkedTree.ptr (nodes u) := h.holds.root
  have hdescend := descend_run (k := s.key t) h.holds.mem hnull (h.shaped u rfl) (h.wf u rfl)
    (by omega) (Nat.zero_lt_of_lt hfuel)
  have hleaf := (shaped_zip.mp ((s.zip_path (s.key t) u).symm ▸ h.shaped u rfl)).1
  have hspec := differLoop_zero (s.key t) (s.key t)
  have hd : differLoop (s.key t) (s.key t) MAXTUNBIT 0 0 = MAXTUNBIT := by
    by_contra hne
    exact hspec.ne (Nat.lt_of_le_of_ne hspec.le hne) rfl
  unfold tunnelTreeInsert
  rw [if_neg (by rw [hroot]; exact ptr_nodes_ne_zero hnull), hroot, hdescend]
  simp [hleaf.1, hleaf.2, hkey, hd, climb_same h hfuel]

/-- The key is new: there is a place for it, and `malloc` decides. -/
theorem insert_absent (h : s.Represents (some u)) (ht : s.Outside t u)
    (hfuel : MAXTUNBIT < fuel) (hkey : s.key (s.target (s.key t) u) ≠ s.key t) :
    ∃ d v high, s.Split t d u v high ∧
      tunnelTreeInsert fuel t none s = some (s.setBit t MAXTUNBIT, t, false) ∧
      ∀ g, tunnelTreeInsert fuel t (some g) s =
        some (((s.setBit t MAXTUNBIT).newGlue t g (LinkedTree.ptr (nodes v)) d).replace
          (LinkedTree.ptr (nodes v)) g, 0, false) := by
  have hnull : 0 ∉ toList (nodes u) := h.holds.null
  have hroot : s.root = LinkedTree.ptr (nodes u) := h.holds.root
  have hdescend := descend_run (k := s.key t) h.holds.mem hnull (h.shaped u rfl) (h.wf u rfl)
    (by omega) (Nat.zero_lt_of_lt hfuel)
  have hleaf := (shaped_zip.mp ((s.zip_path (s.key t) u).symm ▸ h.shaped u rfl)).1
  have hspec := differLoop_zero (s.key t) (s.key (s.target (s.key t) u))
  revert hspec
  generalize hloop : differLoop (s.key t) (s.key (s.target (s.key t) u)) MAXTUNBIT 0 0 = d
  intro hspec
  have hd : d < MAXTUNBIT := by
    refine Nat.lt_of_le_of_ne hspec.le fun e => hkey ?_
    exact Tunnels.bitAt_inj _ _ fun i hi => (hspec.before i (e ▸ hi)).symm
  obtain ⟨v, high, hclimb, hsplit⟩ := climb_split h hfuel hd hspec
  have hmem : LinkedTree.ptr (nodes v) ∈ toList (nodes u) := by
    rw [← hsplit.tree, nodes_zip, (LinkedTree.toList_zip_perm _ _).mem_iff]
    exact List.mem_append_left _ (LinkedTree.ptr_mem (nodes_ne_nil v))
  have hnt : LinkedTree.ptr (nodes v) ≠ t := fun e => ht.notMem (e ▸ hmem)
  have hbit : (s.setBit t MAXTUNBIT).bit (LinkedTree.ptr (nodes v)) ≠ d := by
    change Function.update s.bit t MAXTUNBIT (LinkedTree.ptr (nodes v)) ≠ d
    rw [Function.update_of_ne hnt]
    exact hsplit.ne
  have hle : ¬ MAXTUNBIT < d := Nat.not_lt.mpr hspec.le
  refine ⟨d, v, high, hsplit, ?_, fun g => ?_⟩
  · unfold tunnelTreeInsert
    rw [if_neg (by rw [hroot]; exact ptr_nodes_ne_zero hnull), hroot, hdescend]
    simp [hleaf.1, hloop, hle, hclimb, hd.ne, hbit]
  · unfold tunnelTreeInsert
    rw [if_neg (by rw [hroot]; exact ptr_nodes_ne_zero hnull), hroot, hdescend]
    simp [hleaf.1, hloop, hle, hclimb, hd.ne, hbit]

theorem represents_setBit (h : s.Represents (some u)) (ht : s.Outside t u) :
    (s.setBit t MAXTUNBIT).Represents (some u) := by
  apply Represents.congr h
  · rfl
  · intro x hx
    have hne : x ≠ t := fun e => ht.notMem (e ▸ hx)
    exact ⟨⟨fun _ => rfl, rfl⟩, Function.update_of_ne hne _ _, rfl, rfl⟩

/-- The new leaf is in the tree. -/
theorem insert_represents {high : List (Radix.Frame ℕ)} (h : s.Represents (some u))
    (ht : s.Outside t u) (hg : s.Outside g u) (htg : t ≠ g) (hnew : s.New t)
    (hsplit : s.Split t d u v high) :
    (((s.setBit t MAXTUNBIT).newGlue t g (LinkedTree.ptr (nodes v)) d).replace
      (LinkedTree.ptr (nodes v)) g).Represents
      (some ((s.setBit t MAXTUNBIT).grafted t g d v high)) := by
  have hset := represents_setBit h ht
  obtain ⟨low, hlow, hbits⟩ := hsplit.low
  have htree := hsplit.tree
  have hbitx : ∀ x ∈ toList (nodes u), (s.setBit t MAXTUNBIT).bit x = s.bit x := by
    intro x hx
    have hne : x ≠ t := fun e => ht.notMem (e ▸ hx)
    exact Function.update_of_ne hne _ _
  have htarget : (s.setBit t MAXTUNBIT).target (s.key t) u = s.target (s.key t) u := by
    unfold target
    rw [← follow_relabel _ _ u, ← follow_relabel _ _ u, relabel_congr hbitx]
  have hframe : ∀ f ∈ high, (s.setBit t MAXTUNBIT).bit f.bit = s.bit f.bit := by
    intro f hf
    apply hbitx
    rw [← htree, nodes_zip, (LinkedTree.toList_zip_perm _ _).mem_iff]
    exact List.mem_append_right _ (LinkedTree.mem_around (List.mem_map_of_mem hf))
  have hlowf : ∀ f ∈ low, (s.setBit t MAXTUNBIT).bit f.bit = s.bit f.bit := by
    intro f hf
    apply hbitx
    rw [← htree, nodes_zip, (LinkedTree.toList_zip_perm _ _).mem_iff, ← hlow, nodes_zip,
      List.mem_append, (LinkedTree.toList_zip_perm _ _).mem_iff]
    exact .inl (List.mem_append_right _ (LinkedTree.mem_around (List.mem_map_of_mem hf)))
  subst htree
  apply newGlue_represents hlow hset htarget ⟨ht.notMem, ht.ne⟩ ⟨hg.notMem, hg.ne⟩ htg
  · exact hnew.kids
  · exact Function.update_self _ _ _
  · exact hnew.glue
  · exact hsplit.lt
  · exact hsplit.differs
  · intro f hf
    rw [hlowf f hf]
    exact hbits f hf
  · intro f hf
    rw [hframe f hf]
    exact hsplit.high f hf

/-! ### `tunnel_tree_remove` -/

theorem remove_last (h : s.Represents (some (.leaf t))) :
    tunnelTreeRemove t s = some (((s.setGlue t true).free t).setRoot 0) := by
  obtain ⟨hleft, hright, hparent, -, -⟩ := h.holds.mem
  have hl : s.left t = 0 := hleft
  have hr : s.right t = 0 := hright
  unfold tunnelTreeRemove
  simp [hl, hr, hparent]

/-- The state after the leaf `t` and the glue node `g` above it are gone. -/
def pruned (s : TunnelTree) (right : Bool) (t g q child : ℕ) : TunnelTree :=
  { s with
    toLinks := ((s.toLinks.setChild (!right) g 0).relink false q g child).setParent child q
    glue := Function.update s.glue t true
    alloc := (s.alloc.erase t).erase g }

theorem relink_rest (s : TunnelTree) (q x new : ℕ) : s.relink q x new =
    { s with toLinks := s.toLinks.relink false q x new } := by
  unfold relink LinkedTree.Links.relink
  split
  · rfl
  · unfold right
    split <;> rfl

theorem remove_pruned {r : Bool} {w : Radix.Tree ℕ}
    (h : s.Represents (some (Radix.zip (.leaf t) (⟨r, g, w⟩ :: fs)))) :
    tunnelTreeRemove t s = some (s.pruned r t g (LinkedTree.above (fs.map hole))
      (LinkedTree.ptr (nodes w))) := by
  have hholds := h.holds
  change s.toLinks.Holds (nodes (Radix.zip (.leaf t) (⟨r, g, w⟩ :: fs))) at hholds
  rw [nodes_zip, List.map_cons] at hholds
  obtain ⟨⟨hleft, hright, hparent, -, -⟩, ⟨hchild, hsib, hgparent, -, -⟩, hnd, hnull⟩ :=
    LinkedTree.Links.holds_zip.mp hholds
  have hl : s.left t = 0 := hleft
  have hr : s.right t = 0 := hright
  have hp : s.parent t = g := hparent
  have hgp : s.parent g = LinkedTree.above (fs.map hole) := hgparent
  have hglue : s.glue g = true := ((shaped_zip.mp (h.shaped _ rfl)).2 _ List.mem_cons_self).1
  simp only [nodes, toList_node, toList_nil, LinkedTree.around, List.nil_append, hole,
    List.cons_append, List.nodup_cons, List.mem_cons, List.mem_append, not_or] at hnd hnull
  obtain ⟨⟨htg, hts, -⟩, -⟩ := hnd
  obtain ⟨ht0, hg0, hs0, -⟩ := hnull
  have hsib0 : LinkedTree.ptr (nodes w) ≠ 0 := ptr_nodes_ne_zero hs0
  have hsibt : LinkedTree.ptr (nodes w) ≠ t :=
    fun e => hts (e ▸ LinkedTree.ptr_mem (nodes_ne_nil w))
  have hglue' : Function.update s.glue t true g = true := by
    rw [Function.update_of_ne (Ne.symm htg), hglue]
  unfold tunnelTreeRemove
  rw [if_neg fun e => e.1 hr, if_pos ⟨hr, hl⟩, hp]
  simp only [relink_rest]
  rw [if_neg (Ne.symm hg0)]
  cases r with
  | true =>
    have hright : ((s.setGlue t true).free t).right g = t := hchild
    have hleft : ((s.setGlue t true).free t).left g = LinkedTree.ptr (nodes w) := hsib
    rw [if_pos hright]
    simp only [hleft, LinkedTree.Links.relink_parent]
    rw [if_neg, if_neg hsib0]
    · unfold pruned
      rw [← hgp]
      rfl
    · change ¬ ((!Function.update s.glue t true g) = true)
      rw [hglue']
      exact Bool.false_ne_true
  | false =>
    have hright : ((s.setGlue t true).free t).right g = LinkedTree.ptr (nodes w) := hsib
    rw [if_neg fun e => hsibt (hright.symm.trans e)]
    simp only [hright, LinkedTree.Links.relink_parent]
    rw [if_neg, if_neg hsib0]
    · unfold pruned
      rw [← hgp]
      rfl
    · change ¬ ((!Function.update s.glue t true g) = true)
      rw [hglue']
      exact Bool.false_ne_true

theorem others_subset : ∀ x ∈ others fs, x ∈ LinkedTree.around (fs.map hole) := by
  induction fs with
  | nil => exact fun x hx => absurd hx List.not_mem_nil
  | cons f fs ih =>
    intro x hx
    rw [List.map_cons, LinkedTree.around, List.mem_cons, List.mem_append]
    rcases List.mem_append.mp hx with hx | hx
    · exact .inr (.inl (leaves_subset x hx))
    · exact .inr (.inr (ih x hx))

/-- The node of the leaf is nowhere else. -/
theorem leaf_apart {f : Radix.Frame ℕ} (h : s.Represents (some (Radix.zip (.leaf t) (f :: fs)))) :
    (t :: f.bit :: toList (nodes (Radix.zip f.sib fs))).Nodup := by
  have hnd := h.holds.nodup
  change (toList (nodes (Radix.zip (.leaf t) (f :: fs)))).Nodup at hnd
  rw [nodes_zip, (LinkedTree.toList_zip_perm _ _).nodup_iff] at hnd
  rw [nodes_zip, List.nodup_cons, List.nodup_cons, List.mem_cons,
    (LinkedTree.toList_zip_perm _ _).nodup_iff, (LinkedTree.toList_zip_perm _ _).mem_iff,
    (LinkedTree.toList_zip_perm _ _).mem_iff]
  rw [← List.mem_cons, ← List.nodup_cons, ← List.nodup_cons]
  exact hnd

theorem mem_pruned {f : Radix.Frame ℕ} {y : ℕ}
    (h : s.Represents (some (Radix.zip (.leaf t) (f :: fs)))) :
    y ∈ leaves (Radix.zip f.sib fs) ↔ y ∈ leaves (Radix.zip (.leaf t) (f :: fs)) ∧ y ≠ t := by
  have hnd := leaf_apart h
  rw [List.nodup_cons] at hnd
  rw [mem_leaves_zip (t := .leaf t), others, leaves, List.mem_singleton, List.mem_append,
    ← mem_leaves_zip]
  constructor
  · rintro hy
    refine ⟨.inr hy, ?_⟩
    rintro rfl
    exact hnd.1 (List.mem_cons_of_mem _ (leaves_subset _ hy))
  · rintro ⟨rfl | hy, hne⟩
    · exact absurd rfl hne
    · exact hy

theorem pruned_represents {r : Bool} {w : Radix.Tree ℕ}
    (h : s.Represents (some (Radix.zip (.leaf t) (⟨r, g, w⟩ :: fs)))) :
    (s.pruned r t g (LinkedTree.above (fs.map hole)) (LinkedTree.ptr (nodes w))).Represents
      (some (Radix.zip w fs)) := by
  have hnd := leaf_apart h
  rw [List.nodup_cons, List.mem_cons, not_or] at hnd
  obtain ⟨⟨-, ht⟩, -⟩ := hnd
  have hholds := h.holds
  change s.toLinks.Holds (nodes (Radix.zip (.leaf t) (⟨r, g, w⟩ :: fs))) at hholds
  refine ⟨?_, ?_, ?_⟩
  · change LinkedTree.Links.Holds _ (nodes (Radix.zip w fs))
    rw [nodes_zip, List.map_cons] at hholds
    rw [nodes_zip]
    exact hholds.ungraft (nodes_ne_nil w)
  · intro v hv
    obtain rfl := Option.some.inj hv
    have hshape := shaped_zip.mp (h.shaped _ rfl)
    have hkept : s.Shaped (Radix.zip w fs) :=
      shaped_zip.mpr ⟨(hshape.2 _ List.mem_cons_self).2,
        fun f hf => hshape.2 f (List.mem_cons_of_mem _ hf)⟩
    apply hkept.congr
    intro y hy
    refine ⟨rfl, Function.update_of_ne ?_ _ _⟩
    rintro rfl
    exact ht hy
  · intro v hv
    obtain rfl := Option.some.inj hv
    have hother : ∀ y ∈ leaves (Radix.zip w fs), decide (y = t) = false := by
      intro y hy
      rw [decide_eq_false_iff_not]
      rintro rfl
      exact ht (leaves_subset _ hy)
    have hprune : prune (fun y => decide (y = t))
        (Radix.zip (.leaf t) ((Radix.Frame.mk r g w :: fs).map (Frame.relabel s.bit))) =
        some (Radix.zip (relabel s.bit w) (fs.map (Frame.relabel s.bit))) := by
      rw [List.map_cons, Radix.zip]
      apply prune_zip
      · intro y hy
        apply hother
        have hmem := (leaves_relabel s.bit (Radix.zip w fs)).symm ▸ relabel_zip s.bit w fs ▸
          mem_leaves_zip.mpr (.inr hy)
        exact hmem
      · apply prune_plug_leaf
        · intro y hy
          apply hother
          change y ∈ leaves (relabel s.bit w) at hy
          rw [leaves_relabel] at hy
          exact mem_leaves_zip.mpr (.inl hy)
        · exact decide_eq_true rfl
    change WellFormed s.key bitAt MAXTUNBIT 0 (relabel s.bit (Radix.zip w fs))
    rw [relabel_zip]
    have hwf := h.wf _ rfl
    rw [relabel_zip] at hwf
    exact wellFormed_prune _ hwf _ hprune

end TunnelTree

end WanStack.Aftr
