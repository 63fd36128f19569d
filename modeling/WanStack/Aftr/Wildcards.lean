import WanStack.Aftr.Runs

set_option autoImplicit false

/-!
# Wildcard searches

A tree is ordered by the absolute comparison and searched with the wildcard
comparison. The search goes right where the entries of an endpoint begin; from
there it depends on which of them is uppermost.
-/
namespace WanStack.Aftr
open BinaryTree SearchTree FieldOrder Relation

/-- A tree of entries in the order of its comparison. -/
structure InOrder (pre : NatEntry → List ℤ) (t : BinaryTree NatEntry) : Prop where
  sorted : Sorted (compareAbs pre) (toList t)
  peers : PeersOrdered pre {n | n ∈ toList t}
  flags : ∀ n ∈ toList t, n.flags.matchAny = true

/-- The search with the wildcard comparison finds an entry whenever one matches. -/
def WildComplete (pre : NatEntry → List ℤ) (t : BinaryTree NatEntry) : Prop :=
  ∀ k : NatEntry, (∃ x ∈ toList t, compareWild pre k x = 0) →
    (find (compareWild pre k) t).isSome = true

/-- The uppermost entry of the endpoint of a wildcard is a wildcard. -/
def WildTop (pre : NatEntry → List ℤ) (t : BinaryTree NatEntry) : Prop :=
  ∀ w ∈ toList t, w.flags.allDst = true →
    (top (fun x => decide (pre x = pre w)) t).all (·.flags.allDst) = true

instance (pre : NatEntry → List ℤ) (t : BinaryTree NatEntry) : Decidable (WildTop pre t) :=
  inferInstanceAs (Decidable (∀ w ∈ toList t, w.flags.allDst = true →
    (top (fun x => decide (pre x = pre w)) t).all (·.flags.allDst) = true))

section Trees
variable {pre : NatEntry → List ℤ} {t : BinaryTree NatEntry} {k w g : NatEntry}

theorem InOrder.total (hlen : ∀ a b, (pre a).length = (pre b).length) (h : InOrder pre t) :
    TotalOn (compareAbs pre) {n | n ∈ toList t} :=
  totalOn_compareAbs hlen h.peers h.flags

/-- Along a tree the first fields do not go down. -/
theorem InOrder.probe (hlen : ∀ a b, (pre a).length = (pre b).length) (h : InOrder pre t)
    (k : NatEntry) : Probe (fun x => lexDiff (pre k) (pre x)) (toList t) := by
  refine (totalOn_lexDiff pre Set.univ hlen).probe (Set.mem_univ k) (fun x _ => Set.mem_univ x) ?_
  refine h.sorted.imp fun {x y} hxy => ?_
  by_cases h0 : lexDiff (pre x) (pre y) = 0
  · exact Int.le_of_eq h0
  · rw [compareAbs, orElse_of_ne _ h0] at hxy
    exact Int.le_of_lt hxy

theorem top_endpoint (hlen : ∀ a b, (pre a).length = (pre b).length) (w : NatEntry)
    (t : BinaryTree NatEntry) : top (fun x => decide (pre x = pre w)) t =
      top (fun x => decide (lexDiff (pre w) (pre x) = 0)) t := by
  congr 1
  funext x
  exact decide_eq_decide.mpr (eq_comm.trans (lexDiff_eq_zero (hlen w x)).symm)

/-- A wildcard on top of its endpoint is what every search there finds. -/
theorem InOrder.find_top (hlen : ∀ a b, (pre a).length = (pre b).length) (h : InOrder pre t)
    (hk : pre k = pre g) (hg : top (fun x => decide (pre x = pre g)) t = some g)
    (hwild : g.flags.allDst = true) : find (compareWild pre k) t = some g := by
  refine SearchTree.find_top (h.probe hlen k) (refines_compareWild k _) ?_
    ((compareWild_eq_zero hlen).mpr ⟨hk, .inr (.inl hwild)⟩)
  rw [top_endpoint hlen, ← hk] at hg
  exact hg

theorem sign_le_of {a b : ℤ} (hneg : a < 0 → b < 0) (hzero : a = 0 → b ≤ 0) : b.sign ≤ a.sign := by
  rcases lt_trichotomy a 0 with ha | ha | ha
  · rw [Int.sign_eq_neg_one_of_neg ha, Int.sign_eq_neg_one_of_neg (hneg ha)]
  · rw [ha, Int.sign_zero]
    exact Int.sign_nonpos_iff.mpr (hzero ha)
  · rw [Int.sign_eq_one_of_pos ha]
    rcases Int.sign_trichotomy b with h | h | h <;> omega

/-- Two entries of one endpoint that are no wildcards are in the order of
    their destinations. -/
theorem InOrder.peer_lt (hlen : ∀ a b, (pre a).length = (pre b).length) {x y : NatEntry}
    (hpre : pre x = pre y) (hx : x.flags.allDst = false) (hm : x.flags.matchAny = true)
    (hlt : compareAbs pre x y < 0) : x.dst < y.dst ∨ x.dst = y.dst ∧ x.dport < y.dport := by
  rw [compareAbs, (lexDiff_eq_zero (hlen x y)).mpr hpre, orElse_zero_left, hx] at hlt
  simp only [Bool.false_eq_true, if_false, comparePeer, hm, if_true, orElse] at hlt
  split_ifs at hlt <;> omega

/-- Without wildcards at the endpoint of the key the two comparisons agree. -/
theorem InOrder.probe_plain (hlen : ∀ a b, (pre a).length = (pre b).length) (h : InOrder pre t)
    (hplain : ∀ x ∈ toList t, pre k = pre x → x.flags.allDst = false) :
    Probe (compareWild pre k) (toList t) := by
  have hpre := h.probe hlen k
  refine (hpre.and h.sorted).imp_of_mem fun {x y} hx hy ⟨hsign, hlt⟩ => ?_
  dsimp only at hsign
  by_cases hdx : lexDiff (pre k) (pre x) = 0
  · rw [hdx, Int.sign_zero, Int.sign_nonpos_iff] at hsign
    by_cases hdy : lexDiff (pre k) (pre y) = 0
    · -- both are at the endpoint of the key
      have hkx := (lexDiff_eq_zero (hlen k x)).mp hdx
      have hky := (lexDiff_eq_zero (hlen k y)).mp hdy
      have hx' := hplain x hx hkx
      have hy' := hplain y hy hky
      have hpeer := InOrder.peer_lt hlen (hkx.symm.trans hky) hx' (h.flags x hx) hlt
      rw [compareWild, compareWild, hdx, hdy, orElse_zero_left, orElse_zero_left, hx', hy']
      cases hkw : k.flags.allDst
      · simp only [Bool.or_false, Bool.false_eq_true, if_false, comparePeer, orElse]
        apply sign_le_of <;> intro h0 <;> split_ifs at h0 ⊢ <;> omega
      · simp
    · have hneg : lexDiff (pre k) (pre y) < 0 := by omega
      rw [refines_compareWild k _ y hy hdy, Int.sign_eq_neg_one_of_neg hneg]
      rcases Int.sign_trichotomy (compareWild pre k x) with h | h | h <;> omega
  · rw [refines_compareWild k _ x hx hdx]
    by_cases hdy : lexDiff (pre k) (pre y) = 0
    · have hpos : 0 < lexDiff (pre k) (pre x) := by
        rw [hdy, Int.sign_zero] at hsign
        have := Int.sign_nonneg_iff.mp hsign
        omega
      rw [Int.sign_eq_one_of_pos hpos]
      rcases Int.sign_trichotomy (compareWild pre k y) with h | h | h <;> omega
    · rw [refines_compareWild k _ y hy hdy]
      exact hsign

/-- What has to be on top of the endpoint of an entry. -/
theorem top_endpoint_some (hw : w ∈ toList t) :
    ∃ g, top (fun x => decide (pre x = pre w)) t = some g ∧ pre g = pre w := by
  have hsome : (top (fun x => decide (pre x = pre w)) t).isSome = true :=
    top_isSome.mpr ⟨w, hw, decide_eq_true rfl⟩
  obtain ⟨g, hg⟩ := Option.isSome_iff_exists.mp hsome
  exact ⟨g, hg, of_decide_eq_true (top_some hg).2⟩

theorem InOrder.complete (hlen : ∀ a b, (pre a).length = (pre b).length) (h : InOrder pre t)
    (htop : WildTop pre t) : WildComplete pre t := by
  rintro k ⟨x, hx, hx0⟩
  by_cases hwild : ∃ w ∈ toList t, pre k = pre w ∧ w.flags.allDst = true
  · obtain ⟨w, hw, hkw, hall⟩ := hwild
    obtain ⟨g, hg, hgw⟩ := @top_endpoint_some pre t w hw
    have hgall := htop w hw hall
    rw [hg, Option.all_some] at hgall
    rw [← hgw] at hg
    rw [h.find_top hlen (hkw.trans hgw.symm) hg hgall]
    rfl
  · have hplain : ∀ x ∈ toList t, pre k = pre x → x.flags.allDst = false := by
      intro x hx hkx
      by_contra hall
      rw [Bool.not_eq_false] at hall
      exact hwild ⟨x, hx, hkx, hall⟩
    exact find_isSome (h.probe_plain hlen hplain) ⟨x, hx, hx0⟩

theorem dst_bound (l : List NatEntry) : ∃ m, ∀ x ∈ l, x.dst < m := by
  induction l with
  | nil => exact ⟨0, fun x hx => absurd hx List.not_mem_nil⟩
  | cons y l ih =>
    obtain ⟨m, hm⟩ := ih
    refine ⟨max m (y.dst + 1), fun x hx => ?_⟩
    rcases List.mem_cons.mp hx with rfl | hx
    · omega
    · have := hm x hx
      omega

/-- With another entry on top the destinations beyond it are cut off from the
    wildcard. -/
theorem InOrder.top_of_complete (hlen : ∀ a b, (pre a).length = (pre b).length)
    (hkey : ∀ (w : NatEntry) (d : ℕ),
      pre { w with flags := {}, dst := d, dport := 0 } = pre w)
    (h : InOrder pre t) (hcomplete : WildComplete pre t) : WildTop pre t := by
  intro w hw hall
  obtain ⟨g, hg, hgw⟩ := @top_endpoint_some pre t w hw
  rw [hg, Option.all_some]
  by_contra hplain
  rw [Bool.not_eq_true] at hplain
  obtain ⟨d, hd⟩ := dst_bound (toList t)
  set k : NatEntry := { w with flags := {}, dst := d, dport := 0 } with hk
  have hkw : pre k = pre w := hkey w d
  have hgmem := (top_some hg).1
  have hpos : 0 < compareWild pre k g := by
    have hlt := hd g hgmem
    rw [compareWild, (lexDiff_eq_zero (hlen k g)).mpr (hkw.trans hgw.symm), orElse_zero_left, hplain]
    simp only [hk, Bool.or_false, Bool.false_eq_true, if_false, comparePeer, orElse]
    split_ifs <;> omega
  obtain ⟨x, hx⟩ := Option.isSome_iff_exists.mp
    (hcomplete k ⟨w, hw, (compareWild_eq_zero hlen).mpr ⟨hkw, .inr (.inl hall)⟩⟩)
  have hg' : top (fun x => decide (lexDiff (pre k) (pre x) = 0)) t = some g := by
    rw [hkw, ← top_endpoint hlen]
    exact hg
  obtain ⟨l₁, l₂, hlist, hmem⟩ := find_after_top (h.probe hlen k) (refines_compareWild k _) hg' hpos hx
  obtain ⟨hxmem, hx0⟩ := find_some hx
  obtain ⟨hkx, hmatch⟩ := (compareWild_eq_zero hlen).mp hx0
  -- what comes after `g` is no wildcard
  have hgx : compareAbs pre g x < 0 := by
    have hsorted := h.sorted
    rw [hlist] at hsorted
    exact (List.pairwise_cons.mp (List.pairwise_append.mp hsorted).2.1).1 x hmem
  have hpre : pre g = pre x := hgw.trans (hkw.symm.trans hkx)
  rcases hmatch with hkall | hxall | ⟨hdst, -⟩
  · cases hkall
  · have hpeer := InOrder.peer_lt hlen hpre hplain (h.flags g hgmem) hgx
    rcases h.peers x hxmem g hgmem hpre.symm hxall hplain with hlt | hlt <;> omega
  · have := hd x hxmem
    rw [← hdst] at this
    exact absurd this (Nat.lt_irrefl _)

end Trees

/-! ### Runs -/

/-- At every inside and every outside endpoint the wildcards have destinations
    before those of the other entries. -/
structure State.PeersInOrder (s : State) : Prop where
  inside : s.Ordered
  outside : PeersOrdered NatEntry.outside s.nats.live

def TreeSorted (s : State) : Prop := ∀ pr, Sorted natTreeCompareAbs (s.nats.list pr)

/-- `nat_tree_find_wild` and `nat_splay_find` find an entry whenever a live one
    matches. -/
structure LookupsComplete (s : State) : Prop where
  tree : ∀ pr key, (∃ x ∈ s.nats.list pr, natTreeCompareWild key x = 0) →
    (s.nats.natTreeFindWild pr key).isSome = true
  splay : ∀ pr key lastgen stale, (∃ x ∈ s.nats.splay (key.tunnel, pr),
    natSplayCompareWild key x = 0) →
      (s.nats.natSplayFind pr key 0 lastgen false stale).2.isSome = true

/-- In every tree a wildcard is on top of its endpoint, if there is one. -/
structure State.WildTop (s : State) : Prop where
  tree : ∀ pr, WanStack.Aftr.WildTop NatEntry.outside (RedBlack.entries (s.nats.tree pr))
  splay : ∀ k, WanStack.Aftr.WildTop NatEntry.inside (s.nats.root k)

/-- Only entries of one tree are at one endpoint. -/
theorem peersOrdered_live {pre : NatEntry → List ℤ}
    (hpre : ∀ a b, pre a = pre b → a.proto = b.proto) (s : Nats) :
    PeersOrdered pre s.live ↔ ∀ pr ∈ [Pr.tcp, .udp, .icmp], ∀ w ∈ s.list pr, ∀ a ∈ s.list pr,
      w.proto = pr ∧ a.proto = pr ∧ pre w = pre a ∧ w.flags.allDst = true ∧
        a.flags.allDst = false → w.dst < a.dst ∨ w.dst = a.dst ∧ w.dport < a.dport := by
  constructor
  · rintro h pr - w hw a ha ⟨rfl, ha', hpre, hwild, hplain⟩
    exact h w hw a (by rw [← ha'] at ha; exact ha) hpre hwild hplain
  · intro h w hw a ha hwa hwild hplain
    have hproto := hpre w a hwa
    refine h w.proto ?_ w hw a (by rw [hproto]; exact ha) ⟨rfl, hproto.symm, hwa, hwild, hplain⟩
    cases w.proto <;> simp

instance decidablePeersOrdered_inside (s : Nats) :
    Decidable (PeersOrdered NatEntry.inside s.live) :=
  decidable_of_iff _ (peersOrdered_live (fun _ _ h => (inside_eq.mp h).2.1) s).symm

instance decidablePeersOrdered_outside (s : Nats) :
    Decidable (PeersOrdered NatEntry.outside s.live) :=
  decidable_of_iff _ (peersOrdered_live (fun _ _ h => (outside_eq.mp h).1) s).symm

instance (s : State) : Decidable s.PeersInOrder :=
  decidable_of_iff (PeersOrdered NatEntry.inside s.nats.live ∧
    PeersOrdered NatEntry.outside s.nats.live) ⟨fun ⟨h, h'⟩ => ⟨h, h'⟩, fun ⟨h, h'⟩ => ⟨h, h'⟩⟩

section
variable {cfg : Conf} {m : Mode} {s s' : State} {es : List Event}

theorem Base.total_outside (hb : Base s) (ho : PeersOrdered NatEntry.outside s.nats.live) :
    TotalOn natTreeCompareAbs s.nats.live :=
  totalOn_compareAbs outside_length ho fun n hn => hb.flags n (.of_live hn)

theorem Base.move_sorted (hb : Base s) (h : Move cfg m s s') (ht : TreeSorted s)
    (ho' : PeersOrdered NatEntry.outside s'.nats.live) : TreeSorted s' := by
  intro pr
  rcases hb.effect h with he | ⟨n, -, hl, -⟩ | ⟨n, c, seconds, -, -, -, rfl⟩
  · rw [he.list]
    exact ht pr
  · by_cases hpr : pr = n.proto
    · subst hpr
      have htotal := (hb.move h).total_outside ho'
      have hn : n ∈ s'.nats.live := hl.live.mpr (.inl rfl)
      have hsub : ∀ x ∈ s.nats.list n.proto, x ∈ s'.nats.live :=
        fun x hx => hl.live.mpr (.inr (hb.mem_live hx))
      refine (ht _).insert htotal hn hsub ?_ hl.tree
      exact find_none ((ht _).probe htotal hn hsub) hl.treeNone
    · rw [hl.treeOther pr hpr]
      exact ht pr
  · exact (ht pr).sublist (delNat_list_sublist pr)

/-- The destinations are in order between two states where they are. -/
theorem Base.between_outside {a : State} (hb : Base s) (h₁ : Moves cfg m s a)
    (h₂ : Moves cfg m a s') (ho : PeersOrdered NatEntry.outside s.nats.live)
    (ho' : PeersOrdered NatEntry.outside s'.nats.live) :
    PeersOrdered NatEntry.outside a.nats.live := by
  cases hm : m.grow with
  | true => exact ho'.mono ((hb.moves h₁).moves_grow h₂ hm)
  | false => exact ho.mono (hb.moves_shrink h₁ hm)

theorem Base.moves_sorted (hb : Base s) (h : Moves cfg m s s') (ht : TreeSorted s)
    (ho : PeersOrdered NatEntry.outside s.nats.live)
    (ho' : PeersOrdered NatEntry.outside s'.nats.live) : TreeSorted s' := by
  induction h using ReflTransGen.head_induction_on with
  | refl => exact ht
  | head hmove h ih =>
    have ho₁ := hb.between_outside (.single hmove) h ho ho'
    exact ih (hb.move hmove) (hb.move_sorted hmove ht ho₁) ho₁

theorem always_sorted {ports : Ports} {rnd₁ rnd₂ rnd₃ : UInt32}
    (h : Always cfg State.PeersInOrder (start ports rnd₁ rnd₂ rnd₃) es) :
    Always cfg (fun s => Linked s ∧ TreeSorted s) (start ports rnd₁ rnd₂ rnd₃) es := by
  refine h.keep ⟨linked_start ports rnd₁ rnd₂ rnd₃, fun pr => List.Pairwise.nil⟩ ?_
  rintro s e ⟨hl, ht⟩ ho ho'
  exact ⟨step_linked hl e ho.inside ho'.inside,
    hl.toBase.moves_sorted (step_moves cfg hl.tuns e) ht ho.outside ho'.outside⟩

/-- The trees of a state whose destinations are in order. -/
theorem Linked.inOrder_tree (hl : Linked s) (ht : TreeSorted s) (ho : s.PeersInOrder) (pr : Pr) :
    InOrder NatEntry.outside (RedBlack.entries (s.nats.tree pr)) where
  sorted := ht pr
  peers := ho.outside.mono fun _ hn => hl.mem_live hn
  flags _ hn := hl.flags _ (.of_list hn)

theorem Linked.inOrder_splay (hl : Linked s) (ho : s.PeersInOrder) (k : ℕ × Pr) :
    InOrder NatEntry.inside (s.nats.root k) where
  sorted := hl.sorted k
  peers := ho.inside.mono fun _ hn => (hl.mem_splay.mp hn).2
  flags _ hn := hl.flags _ (.of_splay hn)

theorem natSplayFind_wild (s : Nats) (pr : Pr) (key : NatEntry) (lastgen : ℕ) (stale : Bool) :
    (s.natSplayFind pr key 0 lastgen false stale).2 =
      find (natSplayCompareWild key) (s.root (key.tunnel, pr)) := by
  have hgen : Nats.staleGen lastgen 0 = false := by simp [Nats.staleGen, FIRSTGEN]
  simp only [Nats.natSplayFind, hgen, Bool.and_false, Bool.false_eq_true, if_false]
  exact Splay.lookup_eq_find _ _

/-- The wildcard searches are complete just when the wildcards are on top. -/
theorem Linked.lookupsComplete_iff (hl : Linked s) (ht : TreeSorted s) (ho : s.PeersInOrder) :
    LookupsComplete s ↔ s.WildTop := by
  constructor
  · intro h
    refine ⟨fun pr => ?_, fun k => ?_⟩
    · exact (hl.inOrder_tree ht ho pr).top_of_complete outside_length (fun _ _ => rfl) (h.tree pr)
    · refine (hl.inOrder_splay ho k).top_of_complete inside_length (fun _ _ => rfl) fun key ⟨x, hx, hx0⟩ => ?_
      -- the key belongs to this tree
      obtain ⟨htun, hpr, -, -⟩ := inside_eq.mp ((compareWild_eq_zero inside_length).mp hx0).1
      obtain rfl : k = (key.tunnel, key.proto) := by
        rw [htun, hpr]
        exact hl.place k x hx
      have hfound := h.splay key.proto key 0 true ⟨x, hx, hx0⟩
      rw [natSplayFind_wild] at hfound
      exact hfound
  · intro h
    refine ⟨fun pr key hx => ?_, fun pr key lastgen stale hx => ?_⟩
    · exact (hl.inOrder_tree ht ho pr).complete outside_length (h.tree pr) key hx
    · rw [natSplayFind_wild]
      exact (hl.inOrder_splay ho _).complete inside_length (h.splay _) key hx

/-- The trees to look at. -/
theorem Linked.wildTop (hl : Linked s) (h : ∀ pr ∈ [Pr.tcp, .udp, .icmp],
    WildTop NatEntry.outside (RedBlack.entries (s.nats.tree pr)) ∧
      ∀ w ∈ s.nats.list pr, WildTop NatEntry.inside (s.nats.root (w.tunnel, w.proto))) :
    s.WildTop := by
  have hpr (pr : Pr) : pr ∈ [Pr.tcp, .udp, .icmp] := by cases pr <;> simp
  refine ⟨fun pr => (h pr (hpr pr)).1, fun k w hw hall => ?_⟩
  obtain ⟨rfl, hlive⟩ := hl.mem_splay.mp hw
  exact (h w.proto (hpr _)).2 w hlive w hw hall

end

/-- A static entry of an FTP server. -/
def serverState : State := start (bootPools defaultConf [.addPool 7]) 0 0 0

def serverBoot : List Event :=
  [.boot plainEnv (.nat 5 true 10 PORTFTP 7 PORTFTP), .bootDone false]

/-- A packet from a client to the server. -/
def clientPkt (src : ℕ) : Pkt :=
  { proto := .tcp, src := src, dst := 7, sport := 1000, dport := PORTFTP }

def client (src : ℕ) : Event := .natout plainEnv (clientPkt src)

end WanStack.Aftr
