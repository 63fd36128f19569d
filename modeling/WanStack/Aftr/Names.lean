import WanStack.Aftr.Changes

set_option autoImplicit false

/-!
# Addresses as names

No address is given twice, so an address names one entry in every state of a
run, whatever the order of the trees, and a deleted entry stays away.
-/
namespace WanStack.Aftr
open SearchTree Relation

structure Names (s : State) : Prop where
  fresh : ∀ x, Known s x → x.ptr < s.nats.next
  inj : ∀ x y, Known s x → Known s y → x.ptr = y.ptr → x = y
  nodup : ∀ pr, (s.nats.list pr).Nodup
  proto : ∀ pr, ∀ x ∈ s.nats.list pr, x.proto = pr
  tuns : ∀ t ∈ s.tuns.nonats, t.ptr < s.tuns.next

/-- What may be new after a change: one entry, with the next address. -/
structure Fresh (s s' : State) : Prop where
  next : s.nats.next ≤ s'.nats.next
  known : (∀ x, Known s' x → Known s x) ∨
    ∃ n : NatEntry, n.ptr = s.nats.next ∧ n.ptr < s'.nats.next ∧
      ∀ x, Known s' x → x = n ∨ Known s x
  list : ∀ pr, ((s'.nats.list pr).Sublist (s.nats.list pr)) ∨
    ∃ n : NatEntry, n.ptr = s.nats.next ∧ n.proto = pr ∧
      (s'.nats.list pr).Perm (n :: s.nats.list pr)

section
variable {cfg : Conf} {l : Leave} {s s' : State}

theorem Fresh.names (h : Fresh s s') (hn : Names s)
    (ht : ∀ t ∈ s'.tuns.nonats, t.ptr < s'.tuns.next) : Names s' where
  fresh x hx := by
    have hnext := h.next
    rcases h.known with hk | ⟨n, -, hlt, hk⟩
    · exact Nat.lt_of_lt_of_le (hn.fresh x (hk x hx)) hnext
    · rcases hk x hx with rfl | hx
      · exact hlt
      · exact Nat.lt_of_lt_of_le (hn.fresh x hx) hnext
  inj x y hx hy hxy := by
    rcases h.known with hk | ⟨n, hp, -, hk⟩
    · exact hn.inj x y (hk x hx) (hk y hy) hxy
    · rcases hk x hx with hx | hx <;> rcases hk y hy with hy | hy
      · rw [hx, hy]
      · have := hn.fresh y hy
        rw [hx] at hxy
        omega
      · have := hn.fresh x hx
        rw [hy] at hxy
        omega
      · exact hn.inj x y hx hy hxy
  nodup pr := by
    rcases h.list pr with hl | ⟨n, hp, -, hl⟩
    · exact (hn.nodup pr).sublist hl
    · rw [hl.nodup_iff, List.nodup_cons]
      refine ⟨fun hmem => ?_, hn.nodup pr⟩
      have := hn.fresh n (.of_list hmem)
      omega
  proto pr x hx := by
    rcases h.list pr with hl | ⟨n, -, hpr, hl⟩
    · exact hn.proto pr x (hl.mem hx)
    · rcases List.mem_cons.mp (hl.mem_iff.mp hx) with rfl | hx
      · exact hpr
      · exact hn.proto pr x hx
  tuns := ht

theorem Fresh.of_quiet (h : SameNats s.nats s'.nats) (hk : ∀ x, Known s' x → Known s x) :
    Fresh s s' where
  next := h.next
  known := .inl hk
  list pr := .inl (by rw [h.list])

/-- Changes outside the entries. -/
theorem Fresh.of_nats (hn : s'.nats = s.nats) (hc : s'.ctl = s.ctl) : Fresh s s' where
  next := by rw [hn]
  known := .inl fun _ hx => hx.congr hn.symm hc.symm
  list pr := .inl (by rw [hn])

theorem Fresh.of_links {n : NatEntry} (h : Links s.nats s'.nats n)
    (hk : ∀ x, Known s' x → x = n ∨ Known s x) : Fresh s s' where
  next := by
    have := h.next
    omega
  known := .inr ⟨n, h.ptr, by rw [h.next, h.ptr]; exact Nat.lt_succ_self _, hk⟩
  list pr := by
    by_cases hpr : n.proto = pr
    · exact .inr ⟨n, h.ptr, hpr, hpr ▸ h.tree.perm⟩
    · exact .inl (by rw [h.treeOther pr (Ne.symm hpr)])

theorem delNat_fresh (cfg : Conf) (seconds : ℕ) (n : NatEntry) (s : State) :
    Fresh s (delNat cfg seconds n s) where
  next := Nat.le_of_eq (delNat_rest ..).2.2.2.1.symm
  known := .inl fun _ hx => delNat_known hx
  list pr := .inl (delNat_list_sublist pr)

theorem Change.fresh (h : Change cfg l s s') (hn : Names s) : Fresh s s' := by
  cases h with
  | rotate h =>
    have hq := Quiet.of_root h
    exact .of_quiet hq.nats hq.known
  | @cache pr key n h hgen =>
    refine ⟨Nat.le_refl _, .inl ?_, fun pr => .inl (.refl _)⟩
    rintro x (h1 | h1 | h1 | h1 | ⟨k, h1⟩ | h1)
    · exact .inl h1
    · exact .inr (.inl h1)
    · exact .inr (.inr (.inl h1))
    · exact .inr (.inr (.inr (.inl h1)))
    · simp only [Function.update_apply] at h1
      split at h1
      · cases h1
        exact .of_list (natTreeFindWild_mem h).1
      · exact .of_nathash h1
    · exact .inr (.inr (.inr (.inr (.inr h1))))
  | resizeNat up rnd =>
    rcases resizeNatHash_cases up rnd s.nats with h | ⟨sz, -, h⟩
    · exact .of_nats (by rw [h]) rfl
    · refine ⟨by rw [h], .inl ?_, fun pr => .inl (by rw [h]; exact .refl _)⟩
      rw [h]
      rintro x (h1 | h1 | h1 | h1 | ⟨k, h1⟩ | h1)
      · exact .inl h1
      · exact .inr (.inl h1)
      · exact .inr (.inr (.inl h1))
      · exact .inr (.inr (.inr (.inl h1)))
      · cases h1
      · exact .inr (.inr (.inr (.inr (.inr h1))))
  | alloc => exact .of_quiet (alloc_quiet s).nats (alloc_quiet s).known
  | @unlinked n nats hp h =>
    obtain ⟨hsame, hheap, hx, -⟩ := unlinked_same hp
      (fun x hx => hn.fresh x (.of_list hx)) (by rw [h])
    rw [h] at hsame hheap hx
    have hq : Quiet s { s with nats := nats } := .of_nats hsame
      (fun x hx' => .of_heap (hheap ▸ hx')) fun p x hx' => .of_xlist (hx ▸ hx')
    exact .of_quiet hq.nats hq.known
  | @link n nats hl hp h hflags p =>
    obtain ⟨hlinks, hheap, hx, -⟩ := link_true hp h
    have hcopy := hlinks.copy (b := (nats.heapInsert n).count n.tunnel n.proto)
      rfl rfl rfl rfl rfl rfl rfl
    refine .of_links hcopy (hcopy.known ?_ ?_ ?_)
    · intro x hx'
      exact (List.mem_cons.mp hx').imp id fun h => .of_heap (hheap ▸ h)
    · intro q x hx'
      exact .inr (.of_xlist (p := q) (hx ▸ hx'))
    · intro l hl x hx
      exact .inr (.of_chain hl hx)
  | @xchain n n0 hl hheap =>
    have hsame : SameNats s.nats (s.nats.xchain n0 n) :=
      ⟨fun _ => rfl, fun _ => rfl, rfl, rfl, rfl, rfl, Nat.le_refl _⟩
    have hq : Quiet s { s with nats := s.nats.xchain n0 n } := by
      refine .of_nats hsame (fun x hx => .of_heap hx) fun p x hx => ?_
      simp only [Nats.xchain, Function.update_apply] at hx
      split at hx
      · rcases List.mem_cons.mp hx with rfl | hx
        · exact .of_heap hheap
        · exact .of_xlist hx
      · exact .of_xlist hx
    exact .of_quiet hq.nats hq.known
  | @static n nats sid hl hp h hflags =>
    obtain ⟨hlinks, hheap, hx, -⟩ := link_true hp h
    have hcopy := hlinks.copy (b := { nats with
      generation := Function.update nats.generation n.ptr s.ctl.curgen }.count n.tunnel n.proto)
      rfl rfl rfl rfl rfl rfl rfl
    refine .of_links hcopy (hcopy.known ?_ ?_ ?_)
    · intro x hx'
      exact .inr (.of_heap (hheap ▸ hx'))
    · intro q x hx'
      exact .inr (.of_xlist (p := q) (hx ▸ hx'))
    · intro l hl x hx
      rcases chains_addSnat hl hx with h | ⟨l', hl', hx⟩
      · exact .inl h
      · exact .inr (.of_chain hl' hx)
  | @take key n hl hkey hk hall =>
    refine ⟨Nat.le_refl _, .inl ?_, fun pr => .inl (.refl _)⟩
    rintro x (h1 | h1 | h1 | h1 | h1 | ⟨l, hl, h1⟩)
    · exact .inl h1
    · exact .inr (.inl h1)
    · exact .inr (.inr (.inl h1))
    · exact .inr (.inr (.inr (.inl h1)))
    · exact .inr (.inr (.inr (.inr (.inl h1))))
    · dsimp only at hl
      split at hl
      · rcases chains_promote hl h1 with rfl | ⟨l', hl', h1⟩
        · exact .of_splay hk
        · exact .of_chain hl' h1
      · exact .of_chain hl h1
  | @del n hl hk seconds => exact delNat_fresh cfg seconds n s
  | _ => exact .of_nats rfl rfl

/-! ### Tunnels -/

theorem tunnelLookup_nonats (s : Tunnels) (peer : Addr6) :
    (s.tunnelLookup peer).1.nonats = s.nonats ∧
      (s.tunnelLookup peer).1.ngeneration = s.ngeneration ∧
      (s.tunnelLookup peer).1.next = s.next := by
  rcases s.tunnelLookup_fst peer with h | ⟨t, -, h⟩ <;> rw [h] <;> exact ⟨rfl, rfl, rfl⟩

theorem addTunnel_some {env : NatEnv} {peer : Addr6} {a tuns : Tunnels} {t : Tunnel}
    (h : a.addTunnel cfg env peer = (tuns, some t)) :
    t.ptr = a.next ∧ tuns.next = a.next + 1 ∧ tuns.nonats = a.nonats ∧
      tuns.ngeneration = a.ngeneration := by
  obtain ⟨hnonats, hgen, hnext⟩ := tunnelLookup_nonats a peer
  rcases addTunnel_cases cfg env peer a with h' | ⟨t', tree, hp, -, h'⟩ <;> rw [h] at h' <;> cases h'
  exact ⟨hp.trans hnext, congrArg (· + 1) hnext, hnonats, hgen⟩

/-- The no-NAT tunnels a change leaves or makes, and their generations. -/
structure OldTuns (l : Leave) (s s' : State) : Prop where
  next : s.tuns.next ≤ s'.tuns.next
  nonats : ∀ t ∈ s'.tuns.nonats, t ∈ s.tuns.nonats ∨ l.session.isSome = true ∧
    t.ptr = s.tuns.next ∧ t.ptr < s'.tuns.next ∧ s'.tuns.ngeneration t.ptr = s.ctl.curgen
  ngeneration : ∀ p < s.tuns.next, s'.tuns.ngeneration p = s.tuns.ngeneration p ∨
    l.takes = true ∧ s'.tuns.ngeneration p = s.ctl.curgen

theorem OldTuns.of_eq (hx : s'.tuns.next = s.tuns.next)
    (hn : s'.tuns.nonats.Sublist s.tuns.nonats)
    (hg : s'.tuns.ngeneration = s.tuns.ngeneration) : OldTuns l s s' where
  next := Nat.le_of_eq hx.symm
  nonats t ht := .inl (hn.mem ht)
  ngeneration p _ := .inl (by rw [hg])

theorem Change.oldTuns (h : Change cfg l s s') : OldTuns l s s' := by
  cases h with
  | lookup peer =>
    obtain ⟨hnonats, hgen, hnext⟩ := tunnelLookup_nonats s.tuns peer
    exact .of_eq hnext (by rw [hnonats]) hgen
  | addStd h =>
    obtain ⟨-, hnext, hnonats, hgen⟩ := addTunnel_some h
    refine ⟨by rw [hnext]; exact Nat.le_succ _, fun u hu => .inl (hnonats ▸ hu), fun p _ => .inl ?_⟩
    dsimp only
    rw [hgen]
  | @addNonat env peer tuns t hl h addr plen =>
    obtain ⟨hp, hnext, hnonats, hgen⟩ := addTunnel_some h
    refine ⟨by rw [hnext]; exact Nat.le_succ _, fun u hu => ?_, fun p hlt => .inl ?_⟩
    · rcases List.mem_append.mp hu with hu | hu
      · exact .inl (hnonats ▸ hu)
      · rw [List.mem_singleton] at hu
        subst hu
        refine .inr ⟨hl, hp, by rw [hnext, hp]; exact Nat.lt_succ_self _, ?_⟩
        simp only [Function.update_self]
    · have hne : p ≠ t.ptr := by omega
      simp only [Function.update_of_ne hne, hgen]
  | @takeNonat t hl ht =>
    refine ⟨Nat.le_refl _, fun u hu => .inl hu, fun p _ => ?_⟩
    simp only [Function.update_apply]
    split
    · exact .inr ⟨hl, rfl⟩
    · exact .inl rfl
  | removeNonat t hl => exact .of_eq rfl List.filter_sublist rfl
  | resizeTun up rnd =>
    have h : (resizeTunHash up rnd s.tuns).next = s.tuns.next ∧
        (resizeTunHash up rnd s.tuns).nonats = s.tuns.nonats ∧
        (resizeTunHash up rnd s.tuns).ngeneration = s.tuns.ngeneration := by
      simp only [resizeTunHash]
      split <;> exact ⟨rfl, rfl, rfl⟩
    exact .of_eq h.1 (by rw [h.2.1]) h.2.2
  | rate seconds t pr hl =>
    have h : (natRate cfg seconds t pr s.tuns).1.next = s.tuns.next ∧
        (natRate cfg seconds t pr s.tuns).1.nonats = s.tuns.nonats ∧
        (natRate cfg seconds t pr s.tuns).1.ngeneration = s.tuns.ngeneration := by
      simp only [natRate]
      split <;> exact ⟨rfl, rfl, rfl⟩
    exact .of_eq h.1 (by rw [h.2.1]) h.2.2
  | _ => exact .of_eq rfl (.refl _) rfl

theorem Change.names (h : Change cfg l s s') (hn : Names s) : Names s' := by
  have ho := h.oldTuns
  apply (h.fresh hn).names hn
  intro t ht
  rcases ho.nonats t ht with ht | ⟨-, -, hlt, -⟩
  · exact Nat.lt_of_lt_of_le (hn.tuns t ht) ho.next
  · exact hlt

theorem Changes.names (h : Changes cfg l s s') (hn : Names s) : Names s' :=
  h.keep hn fun _ _ hab hn => hab.names hn

theorem Names.quiet (hn : Names s) (h : SameNats s.nats s'.nats)
    (hk : ∀ x, Known s' x → Known s x) (ht : s'.tuns = s.tuns) : Names s' := by
  apply (Fresh.of_quiet h hk).names hn
  rw [ht]
  exact hn.tuns

/-- Work of the control channel that makes no entry. -/
theorem Names.ctl (hn : Names s) {c : Control} (h : ∀ l ∈ c.chains, ∀ x ∈ l, Known s x) :
    Names { s with ctl := c } := hn.quiet (SameNats.refl _) (Quiet.of_ctl h).known rfl

/-- A deleted entry is in no NAT tree afterwards. -/
theorem Names.delNat_live (hn : Names s) {n : NatEntry} (hk : Known s n) {seconds : ℕ}
    {x : NatEntry} (hx : x ∈ (delNat cfg seconds n s).nats.live) :
    x ∈ s.nats.live ∧ x.ptr ≠ n.ptr := by
  have hlive : x ∈ s.nats.live := (delNat_list_sublist x.proto).mem hx
  refine ⟨hlive, fun hp => ?_⟩
  obtain rfl := hn.inj x n (.of_list hlive) hk hp
  change x ∈ (delNat cfg seconds x s).nats.list x.proto at hx
  rw [delNat_list, if_pos rfl] at hx
  rcases RedBlack.remove_spec (fun y => decide (y.ptr = x.ptr)) (s.nats.tree x.proto) with
    ⟨-, hnone⟩ | ⟨y, hy, hrem⟩
  · have := hnone x hlive
    simp at this
  · have hyl : y ∈ s.nats.list x.proto := hrem.perm.mem_iff.mpr (List.mem_cons_self ..)
    obtain rfl := hn.inj y x (.of_list hyl) hk (of_decide_eq_true hy)
    exact ((hrem.mem (hn.nodup y.proto)).mp hx).2 rfl

/-- No entry that is older than a change becomes live by it. -/
theorem Fresh.live (h : Fresh s s') {x : NatEntry} (hlt : x.ptr < s.nats.next)
    (hx : x ∈ s'.nats.live) : x ∈ s.nats.live := by
  rcases h.list x.proto with hl | ⟨n, hp, -, hl⟩
  · exact hl.mem hx
  · rcases List.mem_cons.mp (hl.mem_iff.mp hx) with rfl | hx
    · omega
    · exact hx

/-! ### Trees -/

theorem link_tnatcnt {pr : Pr} {n : NatEntry} {nats nats' : Nats} {ok : Bool}
    (h : nats.link pr n = (nats', ok)) : nats'.tnatcnt = nats.tnatcnt := by
  simp only [Nats.link, Nats.natTreeInsert, Nats.natSplayInsert] at h
  rcases ht : RedBlack.insert (natTreeCompareAbs n) n (nats.tree pr) with ⟨t, _ | e⟩
  · rcases hr : Splay.insert (natSplayCompareAbs n) n (nats.root (n.tunnel, pr)) with ⟨u, _ | e⟩ <;>
      simp only [ht, hr, Prod.mk.injEq] at h <;> obtain ⟨rfl, -⟩ := h <;> rfl
  · simp only [ht, Prod.mk.injEq] at h
    obtain ⟨rfl, -⟩ := h
    rfl

/-- The trees and the counters of the entries of a tunnel stay as they are. -/
structure SameTrees (a b : Nats) : Prop where
  list : ∀ pr, b.list pr = a.list pr
  splay : ∀ k, b.splay k = a.splay k
  tnatcnt : b.tnatcnt = a.tnatcnt

/-- A change leaves the trees, or puts one entry into both, or deletes one. -/
theorem Change.trees (h : Change cfg l s s') (hn : Names s) : SameTrees s.nats s'.nats ∨
    (∃ n, Links s.nats s'.nats n ∧
      s'.nats.tnatcnt = (s.nats.count n.tunnel n.proto).tnatcnt) ∨
    ∃ n seconds, l.deletes = true ∧ Known s n ∧ s' = delNat cfg seconds n s := by
  cases h with
  | @rotate k root h =>
    refine .inl ⟨fun _ => rfl, fun k' => ?_, rfl⟩
    simp only [Nats.splay, Function.update_apply]
    split
    · rename_i hk
      rw [hk]
      exact h
    · rfl
  | @unlinked n nats hp h =>
    obtain ⟨hsame, -⟩ := unlinked_same hp (fun x hx => hn.fresh x (.of_list hx)) (by rw [h])
    rw [h] at hsame
    have hcnt : nats.tnatcnt = s.nats.alloc.tnatcnt := link_tnatcnt h
    exact .inl ⟨hsame.list, hsame.splay, hcnt⟩
  | @link n nats hl hp h hflags p =>
    obtain ⟨hlinks, -⟩ := link_true hp h
    refine .inr (.inl ⟨n, hlinks.copy rfl rfl rfl rfl rfl rfl rfl, ?_⟩)
    have hcnt := link_tnatcnt h
    simp only [Nats.count, Nats.heapInsert, hcnt, Nats.alloc]
  | @static n nats sid hl hp h hflags =>
    obtain ⟨hlinks, -⟩ := link_true hp h
    refine .inr (.inl ⟨n, hlinks.copy rfl rfl rfl rfl rfl rfl rfl, ?_⟩)
    have hcnt := link_tnatcnt h
    simp only [Nats.count, hcnt, Nats.alloc]
  | resizeNat up rnd =>
    rcases resizeNatHash_cases up rnd s.nats with h | ⟨sz, -, h⟩ <;>
      exact .inl ⟨fun pr => by rw [h] <;> rfl, fun k => by rw [h] <;> rfl, by rw [h]⟩
  | @del n hl hk seconds => exact .inr (.inr ⟨n, seconds, hl, hk, rfl⟩)
  | _ => exact .inl ⟨fun _ => rfl, fun _ => rfl, rfl⟩

/-- Another entry stays when one is deleted. -/
theorem Names.delNat_spares (hn : Names s) {n x : NatEntry} (hk : Known s n) {seconds : ℕ}
    (hx : x ∈ s.nats.live) (hne : x ≠ n) : x ∈ (delNat cfg seconds n s).nats.live := by
  change x ∈ (delNat cfg seconds n s).nats.list x.proto
  rw [delNat_list]
  split
  · rename_i hpr
    rcases RedBlack.remove_spec (fun y => decide (y.ptr = n.ptr)) (s.nats.tree n.proto) with
      ⟨heq, -⟩ | ⟨y, hy, hrem⟩
    · rw [heq, ← hpr]
      exact hx
    · have hyl : y ∈ s.nats.list n.proto := hrem.perm.mem_iff.mpr (List.mem_cons_self ..)
      obtain rfl := hn.inj y n (.of_list hyl) hk (of_decide_eq_true hy)
      refine (hrem.mem (hn.nodup y.proto)).mpr ⟨?_, hne⟩
      rw [← hpr]
      exact hx
  · exact hx

/-! ### Generations and chains -/

theorem delNat_generation (cfg : Conf) (seconds : ℕ) (n : NatEntry) (s : State) :
    (delNat cfg seconds n s).nats.generation = s.nats.generation := by
  simp only [delNat, Nats.unhash]
  split <;> rfl

theorem Change.generation (h : Change cfg l s s') {p : ℕ} (hp : p < s.nats.next) :
    s'.nats.generation p = s.nats.generation p ∨
      l.takes = true ∧ s'.nats.generation p = s.ctl.curgen := by
  cases h with
  | @unlinked n nats hn h =>
    have hg := (link_chains h).2.2
    exact .inl (congrFun hg p)
  | @link n nats hl hn h hflags q =>
    have hg := (link_chains h).2.2
    exact .inl (congrFun hg p)
  | @static n nats sid hl hn h hflags =>
    have hg := (link_chains h).2.2
    have hne : p ≠ n.ptr := by omega
    refine .inl ?_
    simp only [Nats.count, Function.update_of_ne hne]
    exact congrFun hg p
  | @take key n hl hkey hk hall =>
    simp only [Function.update_apply]
    split
    · exact .inr ⟨hl, rfl⟩
    · exact .inl rfl
  | resizeNat up rnd =>
    rcases resizeNatHash_cases up rnd s.nats with h | ⟨sz, -, h⟩ <;> rw [h] <;> exact .inl rfl
  | del hl hk seconds => exact .inl (congrFun (delNat_generation ..) p)
  | _ => exact .inl rfl

/-- What a change does to the control part. -/
theorem Change.ctl (h : Change cfg l s s') : s'.ctl = s.ctl ∨
    (∃ sid n, l.session = some sid ∧ n.ptr = s.nats.next ∧ s'.ctl = s.ctl.addSnat sid n ∧
      s'.nats.generation n.ptr = s.ctl.curgen) ∨
    (∃ n, l.takes = true ∧ s.nats.generation n.ptr ≤ FIRSTGEN ∧ Known s n ∧
      s'.ctl = s.ctl.promote n ∧ s'.nats.generation n.ptr = s.ctl.curgen) ∨
    ∃ n seconds, l.deletes = true ∧ Known s n ∧ s' = delNat cfg seconds n s := by
  cases h with
  | @static n nats sid hl hp h hflags =>
    refine .inr (.inl ⟨sid, n, hl, hp, rfl, ?_⟩)
    simp only [Nats.count, Function.update_self]
  | @take key n hl hkey hk hall =>
    by_cases hg : s.nats.generation n.ptr ≤ FIRSTGEN
    · refine .inr (.inr (.inl ⟨n, hl, hg, .of_splay hk, if_pos hg, ?_⟩))
      simp only [Function.update_self]
    · exact .inl (if_neg hg)
  | @del n hl hk seconds => exact .inr (.inr (.inr ⟨n, seconds, hl, hk, rfl⟩))
  | _ => exact .inl rfl

end

end WanStack.Aftr
