import WanStack.Aftr.Moves

set_option autoImplicit false

/-!
# What the pointers point to

`Base` holds in every state. `Linked` says that every entry the state knows is
in both trees and that the splay trees are sorted; it needs the comparison of
the splay trees to be an order.
-/
namespace WanStack.Aftr
open SearchTree FieldOrder Relation

/-- The live entries: those of the NAT trees. -/
def Nats.live (s : Nats) : Set NatEntry := {n | n ∈ s.list n.proto}

structure Base (s : State) : Prop where
  tuns : s.tuns.Ok
  fresh : ∀ n, Known s n → n.ptr < s.nats.next
  flags : ∀ n, Known s n → n.flags.matchAny = true
  proto : ∀ pr, ∀ n ∈ s.nats.list pr, n.proto = pr
  place : ∀ k, ∀ n ∈ s.nats.splay k, k = (n.tunnel, n.proto)
  nodup : ∀ pr, (s.nats.list pr).Nodup
  ptrs : ∀ n ∈ s.nats.live, ∀ m ∈ s.nats.live, n.ptr = m.ptr → n = m
  size : 0 < s.nats.nathashsz

structure Linked (s : State) : Prop extends Base s where
  live : ∀ n, Known s n → n ∈ s.nats.live
  splay : ∀ n ∈ s.nats.live, n ∈ s.nats.splay (n.tunnel, n.proto)
  sorted : ∀ k, Sorted natSplayCompareAbs (s.nats.splay k)
  owner : ∀ n ∈ s.nats.live, ∃ u ∈ s.tuns.live, u.ptr = n.tunnel ∧ s.tuns.nonat n.tunnel = none
  cached : ∀ h n, s.nats.nathash h = some n → s.nats.hash n.ptr = h ∧ h = s.nats.slot n

/-- Within an inside endpoint every wildcard is before the other entries. -/
def State.Ordered (s : State) : Prop := PeersOrdered NatEntry.inside s.nats.live

theorem Base.mem_live {s : State} (h : Base s) {pr : Pr} {n : NatEntry}
    (hn : n ∈ s.nats.list pr) : n ∈ s.nats.live := by
  obtain rfl := h.proto pr n hn
  exact hn

theorem Known.of_live {s : State} {n : NatEntry} (h : n ∈ s.nats.live) : Known s n := .of_list h

theorem Linked.known_iff {s : State} (h : Linked s) {n : NatEntry} :
    Known s n ↔ n ∈ s.nats.live := ⟨h.live n, .of_live⟩

theorem Linked.mem_splay {s : State} (h : Linked s) {k : ℕ × Pr} {n : NatEntry} :
    n ∈ s.nats.splay k ↔ k = (n.tunnel, n.proto) ∧ n ∈ s.nats.live := by
  constructor
  · intro hn
    exact ⟨h.place k n hn, h.live n (.of_splay hn)⟩
  · rintro ⟨rfl, hn⟩
    exact h.splay n hn

/-- The comparison is an order on the live entries. -/
theorem Base.total {s : State} (h : Base s) (ho : s.Ordered) :
    TotalOn natSplayCompareAbs s.nats.live :=
  totalOn_compareAbs inside_length ho fun n hn => h.flags n (.of_live hn)

/-! ### Links that fail -/

/-- A new entry that collides in one of the trees leaves both as they were. -/
theorem unlinked_same {s : Nats} {n : NatEntry} (hp : n.ptr = s.next)
    (hfresh : ∀ x ∈ s.list n.proto, x.ptr < s.next) (hf : (s.alloc.link n.proto n).2 = false) :
    SameNats s (s.alloc.link n.proto n).1 ∧ (s.alloc.link n.proto n).1.heap = s.heap ∧
      (s.alloc.link n.proto n).1.xlist = s.xlist ∧
      (s.alloc.link n.proto n).1.generation = s.generation := by
  simp only [Nats.link, Nats.natTreeInsert, Nats.natSplayInsert, Nats.alloc] at hf ⊢
  rcases RedBlack.insert_spec (natTreeCompareAbs n) n (s.tree n.proto) with
    ⟨htn, htf, hti⟩ | ⟨x, htn, -, htree⟩
  · rcases Splay.insert_spec (natSplayCompareAbs n) n (s.root (n.tunnel, n.proto)) with
      ⟨hrn, hrf, hri⟩ | ⟨x, hrn, -, hrl⟩
    · simp [htn, hrn] at hf
    · simp only [htn, hrn]
      refine ⟨⟨?_, ?_, rfl, rfl, rfl, rfl, Nat.le_succ _⟩, rfl, rfl, rfl⟩
      · intro pr
        by_cases hpr : pr = n.proto
        · subst hpr
          simp only [Nats.list, Nats.natTreeRemove, Function.update_self]
          rcases RedBlack.remove_spec (fun y => decide (y.ptr = n.ptr))
            (RedBlack.insert (natTreeCompareAbs n) n (s.tree n.proto)).1 with
            ⟨-, hnone⟩ | ⟨y, hy, hrem⟩
          · simpa using hnone n (hti.mem.mpr (.inl rfl))
          · have hyn : y = n := by
              rcases hti.mem.mp (hrem.perm.mem_iff.mpr (List.mem_cons_self ..)) with h | h
              · exact h
              · have := hfresh y h
                have := of_decide_eq_true hy
                omega
            subst hyn
            exact hrem.of_inserted hti (fun h => by have := hfresh y h; omega)
        · simp [Nats.list, Nats.natTreeRemove, Function.update_of_ne hpr]
      · intro k
        simp only [Nats.splay, Nats.natTreeRemove, Function.update_apply]
        split
        · rename_i hk
          rw [hrl, hk]
        · rfl
  · simp only [htn, htree, Function.update_eq_self]
    exact ⟨⟨fun _ => rfl, fun _ => rfl, rfl, rfl, rfl, rfl, Nat.le_succ _⟩, by simp, by simp,
      by simp⟩

/-! ### Deletion -/

theorem chains_listRemove {c : Control} {n x : NatEntry} {l : List NatEntry}
    (hl : l ∈ (c.listRemove n).chains) (hx : x ∈ l) :
    x.ptr ≠ n.ptr ∧ ∃ l' ∈ c.chains, x ∈ l' := by
  have hfilter : ∃ l' ∈ c.chains, l = l'.filter (·.ptr ≠ n.ptr) := by
    simp only [Control.chains, Control.listRemove, List.mem_cons, List.map_append, List.map_map,
      List.mem_append, List.mem_map] at hl ⊢
    rcases hl with rfl | ⟨ss, hss, rfl⟩ | ⟨ss, hss, rfl⟩
    · exact ⟨_, .inl rfl, rfl⟩
    · exact ⟨_, .inr (.inl ⟨ss, hss, rfl⟩), rfl⟩
    · exact ⟨_, .inr (.inr ⟨ss, hss, rfl⟩), rfl⟩
  obtain ⟨l', hl', rfl⟩ := hfilter
  obtain ⟨hx, hne⟩ := List.mem_filter.mp hx
  exact ⟨of_decide_eq_true hne, l', hl', hx⟩

theorem chains_unchain {c : Control} {n x : NatEntry} {l : List NatEntry}
    (hl : l ∈ (c.unchain n).chains) (hx : x ∈ l) :
    x.ptr ≠ n.ptr ∧ ∃ l' ∈ c.chains, x ∈ l' := by
  simp only [Control.unchain] at hl
  split at hl
  · exact chains_listRemove hl hx
  · rename_i hoff
    refine ⟨fun hp => hoff ?_, l, hl, hx⟩
    exact List.any_eq_true.mpr ⟨l, hl, List.any_eq_true.mpr ⟨x, hx, decide_eq_true hp⟩⟩

section Deletion
variable (cfg : Conf) (seconds : ℕ) (n : NatEntry) (s : State)

theorem delNat_list (pr : Pr) : (delNat cfg seconds n s).nats.list pr =
    if pr = n.proto then RedBlack.list (RedBlack.remove (fun x => decide (x.ptr = n.ptr))
      (s.nats.tree n.proto)) else s.nats.list pr := by
  have : (delNat cfg seconds n s).nats.tree = (s.nats.natTreeRemove n.proto n).tree := by
    simp only [delNat, Nats.unhash]
    split <;> rfl
  simp only [Nats.list, this, Nats.natTreeRemove, Function.update_apply]
  split <;> rfl

theorem delNat_splay (k : ℕ × Pr) : (delNat cfg seconds n s).nats.splay k =
    if k = (n.tunnel, n.proto) then
      SearchTree.toList (Splay.remove (natSplayCompareAbs n) (s.nats.root (n.tunnel, n.proto))).1
    else s.nats.splay k := by
  have : (delNat cfg seconds n s).nats.root = (s.nats.natSplayRemove n.proto n).1.root := by
    simp only [delNat, Nats.unhash]
    split <;> rfl
  simp only [Nats.splay, this, Nats.natSplayRemove, Function.update_apply]
  split <;> rfl

theorem delNat_nathash : (delNat cfg seconds n s).nats.nathash =
    if s.nats.hash n.ptr < s.nats.nathashsz ∧ s.nats.nathash (s.nats.hash n.ptr) = some n
    then Function.update s.nats.nathash (s.nats.hash n.ptr) none else s.nats.nathash := by
  simp only [delNat, Nats.unhash]
  exact apply_ite Nats.nathash _ _ _

theorem delNat_rest : (delNat cfg seconds n s).nats.nathashsz = s.nats.nathashsz ∧
    (delNat cfg seconds n s).nats.nathashrnd = s.nats.nathashrnd ∧
    (delNat cfg seconds n s).nats.hash = s.nats.hash ∧
    (delNat cfg seconds n s).nats.next = s.nats.next ∧
    (delNat cfg seconds n s).nats.heap = s.nats.heap.filter (·.ptr ≠ n.ptr) ∧
    (delNat cfg seconds n s).nats.xlist = (s.nats.unchainFtp n).xlist := by
  simp only [delNat, Nats.unhash]
  split <;> exact ⟨rfl, rfl, rfl, rfl, rfl, rfl⟩

variable {cfg seconds n s}

theorem delNat_list_sublist (pr : Pr) :
    ((delNat cfg seconds n s).nats.list pr).Sublist (s.nats.list pr) := by
  rw [delNat_list]
  split
  · rename_i h
    subst h
    rcases RedBlack.remove_spec (fun x => decide (x.ptr = n.ptr)) (s.nats.tree n.proto) with
      ⟨heq, -⟩ | ⟨x, -, hrem⟩
    · rw [heq]
      exact .refl _
    · exact hrem.sublist
  · exact .refl _

theorem delNat_splay_sublist (k : ℕ × Pr) :
    ((delNat cfg seconds n s).nats.splay k).Sublist (s.nats.splay k) := by
  rw [delNat_splay]
  split
  · rename_i h
    subst h
    exact Splay.remove_sublist ..
  · exact .refl _

theorem delNat_nathash_some {h : ℕ} {x : NatEntry}
    (hx : (delNat cfg seconds n s).nats.nathash h = some x) : s.nats.nathash h = some x := by
  rw [delNat_nathash] at hx
  split at hx
  · rw [Function.update_apply] at hx
    split at hx
    · simp at hx
    · exact hx
  · exact hx

theorem delNat_known {x : NatEntry} (h : Known (delNat cfg seconds n s) x) : Known s x := by
  obtain ⟨-, -, -, -, hheap, hxlist⟩ := delNat_rest cfg seconds n s
  rcases h with ⟨pr, h⟩ | ⟨k, h⟩ | h | ⟨p, h⟩ | ⟨k, h⟩ | ⟨l, hl, h⟩
  · exact .of_list ((delNat_list_sublist pr).mem h)
  · exact .of_splay ((delNat_splay_sublist k).mem h)
  · rw [hheap] at h
    exact .of_heap (List.mem_filter.mp h).1
  · rw [hxlist] at h
    simp only [Nats.unchainFtp] at h
    split at h
    · simp at h
    · exact .of_xlist (List.mem_filter.mp h).1
  · exact .of_nathash (delNat_nathash_some h)
  · obtain ⟨-, l', hl', h⟩ := chains_unchain hl h
    exact .of_chain hl' h

/-- Removing an entry by its address removes just that entry. -/
theorem Base.delNat_live (hb : Base s) (hn : n ∈ s.nats.live) {x : NatEntry} :
    x ∈ (delNat cfg seconds n s).nats.live ↔ x ∈ s.nats.live ∧ x ≠ n := by
  change x ∈ (delNat cfg seconds n s).nats.list x.proto ↔ x ∈ s.nats.list x.proto ∧ x ≠ n
  rw [delNat_list]
  split
  · rename_i hpr
    rcases RedBlack.remove_spec (fun y => decide (y.ptr = n.ptr)) (s.nats.tree n.proto) with
      ⟨-, hnone⟩ | ⟨y, hy, hrem⟩
    · simpa using hnone n hn
    · have hyl : y ∈ s.nats.list n.proto := hrem.perm.mem_iff.mpr (List.mem_cons_self ..)
      obtain rfl := hb.ptrs y (hb.mem_live hyl) n hn (of_decide_eq_true hy)
      rw [hpr]
      exact hrem.mem (hb.nodup y.proto)
  · rename_i hpr
    exact ⟨fun h => ⟨h, fun heq => hpr (by rw [heq])⟩, fun h => h.1⟩

end Deletion

/-! ### One move -/

section Step
variable {cfg : Conf} {m : Mode} {s s' : State}

theorem Tunnels.Ok.grows {a b : Tunnels} (h : ReflTransGen Tunnels.Grow a b) (hok : a.Ok) :
    b.Ok := by
  induction h with
  | refl => exact hok
  | tail _ hg ih => exact ih.grow hg

theorem Tunnels.Grow.keeps {a b : Tunnels} (h : ReflTransGen Tunnels.Grow a b) (hok : a.Ok)
    {t : Tunnel} (ht : t ∈ a.live) :
    t ∈ b.live ∧ b.nonat t.ptr = a.nonat t.ptr ∧ b.srcidx t.ptr = a.srcidx t.ptr := by
  induction h with
  | refl => exact ⟨ht, rfl, rfl⟩
  | tail hab hg ih =>
    obtain ⟨h1, h2, h3⟩ := ih
    obtain ⟨h4, h5, h6⟩ := hg.keep (hok.grows hab) h1
    exact ⟨h4, h5.trans h2, h6.trans h3⟩

theorem Move.tuns (h : Move cfg m s s') (hok : s.tuns.Ok) : s'.tuns.Ok := by
  cases h with
  | quiet h => exact hok.grows h.tuns
  | ports h => exact hok
  | frags e ht => exact hok
  | cache hf => exact hok
  | resize up rnd => exact hok
  | unlinked hp hf => exact hok
  | link hm hl hk ht hf ho =>
    rw [ht]
    exact hok
  | del hm seconds hk hc => exact hok
  | removeTunnel hm hg ht hn hroot havail => exact hok.removeTunnel ht hn
  | removeNonat hm hg ht hn => exact hok.removeNonat (hok.nonats _ ht)

theorem resizeNatHash_cases (up : Bool) (rnd : UInt32) (s : Nats) :
    resizeNatHash up rnd s = s ∨ ∃ sz, 0 < sz ∧ resizeNatHash up rnd s =
      { s with nathash := fun _ => none, nathashsz := sz, nathashrnd := rnd } := by
  unfold resizeNatHash
  simp only
  split
  · exact .inl rfl
  · refine .inr ⟨_, ?_, rfl⟩
    simp only [MAXNATHASH, MINNATHASH] at *
    omega

theorem Base.unlinked (hb : Base s) {n : NatEntry} (hp : n.ptr = s.nats.next)
    (hf : (s.nats.alloc.link n.proto n).2 = false) :
    SameNats s.nats (s.nats.alloc.link n.proto n).1 ∧
      ∀ x, Known { s with nats := (s.nats.alloc.link n.proto n).1 } x → Known s x := by
  obtain ⟨hsame, hheap, hx, -⟩ := unlinked_same hp (fun x hx => hb.fresh x (.of_list hx)) hf
  refine ⟨hsame, (Quiet.of_nats hsame ?_ ?_).known⟩
  · intro n hn
    rw [hheap] at hn
    exact .of_heap hn
  · intro p n hn
    rw [hx] at hn
    exact .of_xlist hn

/-- The trees hold what they held. -/
structure Steady (s s' : State) : Prop where
  list : ∀ pr, s'.nats.list pr = s.nats.list pr
  splay : ∀ k, s'.nats.splay k = s.nats.splay k
  next : s.nats.next ≤ s'.nats.next
  known : ∀ n, Known s' n → Known s n
  size : 0 < s.nats.nathashsz → 0 < s'.nats.nathashsz

theorem Steady.live (h : Steady s s') : s'.nats.live = s.nats.live := by
  ext n
  change n ∈ s'.nats.list n.proto ↔ n ∈ s.nats.list n.proto
  rw [h.list]

theorem Steady.of_nats (h : s'.nats = s.nats) (hc : s'.ctl = s.ctl) : Steady s s' where
  list pr := by rw [h]
  splay k := by rw [h]
  next := Nat.le_of_eq (by rw [h])
  known n hn := hn.congr h.symm hc.symm
  size hs := by rwa [h]

/-- Of what `Known` says only the hash table changes. -/
theorem Steady.of_nathash {nats : Nats} (ht : nats.tree = s.nats.tree)
    (hr : nats.root = s.nats.root) (hh : nats.heap = s.nats.heap)
    (hx : nats.xlist = s.nats.xlist) (hn : nats.next = s.nats.next)
    (hz : 0 < s.nats.nathashsz → 0 < nats.nathashsz)
    (hc : ∀ h n, nats.nathash h = some n → Known s n) : Steady s { s with nats := nats } where
  list pr := by simp only [Nats.list, ht]
  splay k := by simp only [Nats.splay, hr]
  next := Nat.le_of_eq hn.symm
  size := hz
  known n hn := by
    rcases hn with ⟨pr, h⟩ | ⟨k, h⟩ | h | ⟨p, h⟩ | ⟨k, h⟩ | ⟨l, hl, h⟩
    · simp only [Nats.list, ht] at h
      exact .of_list h
    · simp only [Nats.splay, hr] at h
      exact .of_splay h
    · simp only [hh] at h
      exact .of_heap h
    · simp only [hx] at h
      exact .of_xlist h
    · exact hc k n h
    · exact .of_chain hl h

/-- What a move does to the entries: nothing, a link or a deletion. -/
theorem Base.effect (hb : Base s) (h : Move cfg m s s') :
    Steady s s' ∨
    (∃ n, m.grow = true ∧ Links s.nats s'.nats n ∧ (∀ x, Known s' x → x = n ∨ Known s x) ∧
      s'.tuns = s.tuns ∧ Origin cfg s n s'.ports) ∨
    ∃ n c seconds, m.grow = false ∧ Known s n ∧ (∀ l ∈ c.chains, ∀ x ∈ l, Known s x) ∧
      s' = delNat cfg seconds n { s with ctl := c } := by
  cases h with
  | quiet h =>
    exact .inl ⟨h.nats.list, h.nats.splay, h.nats.next, h.known, fun hs => h.nats.nathashsz ▸ hs⟩
  | ports h => exact .inl (.of_nats rfl rfl)
  | frags e ht => exact .inl (.of_nats rfl rfl)
  | cache hf =>
    refine .inl (.of_nathash rfl rfl rfl rfl rfl id ?_)
    intro k n h
    simp only [Function.update_apply] at h
    split at h
    · obtain rfl := Option.some.inj h
      exact .of_list (natTreeFindWild_mem hf).1
    · exact .of_nathash h
  | resize up rnd =>
    rcases resizeNatHash_cases up rnd s.nats with heq | ⟨sz, hsz, heq⟩ <;> rw [heq]
    · exact .inl (.of_nats rfl rfl)
    · exact .inl (.of_nathash rfl rfl rfl rfl rfl (fun _ => hsz) (by simp))
  | unlinked hp hf =>
    obtain ⟨hsame, hknown⟩ := hb.unlinked hp hf
    exact .inl ⟨hsame.list, hsame.splay, hsame.next, hknown, fun hs => hsame.nathashsz ▸ hs⟩
  | link hm hl hk ht hf ho => exact .inr (.inl ⟨_, hm, hl, hk, ht, ho⟩)
  | del hm seconds hk hc => exact .inr (.inr ⟨_, _, seconds, hm, hk, hc, rfl⟩)
  | removeTunnel hm hg ht hn hroot havail => exact .inl (.of_nats rfl rfl)
  | removeNonat hm hg ht hn => exact .inl (.of_nats rfl rfl)

theorem Origin.flags {n : NatEntry} {p : Ports} (h : Origin cfg s n p) :
    n.flags.matchAny = true := by
  cases h with
  | dynamic hb hport hsrc hflags howner =>
    rw [hflags]
    cases n.proto <;> rfl
  | ftpData n0 hk hb hport hn hflags => rw [hflags]; rfl
  | static i hpool hport hflags hdst howner =>
    rcases hflags with h | ⟨h, -⟩ <;> rw [h] <;> rfl
  | clone n0 hk h0 hprr hsport hproto hn =>
    obtain ⟨dst, dport, hn⟩ := hn
    rw [hn]
    rfl

/-- Fewer entries that are known and linked. -/
theorem Base.less (hb : Base s) (ht : s'.tuns.Ok) (hnext : s.nats.next ≤ s'.nats.next)
    (hk : ∀ n, Known s' n → Known s n)
    (hl : ∀ pr, (s'.nats.list pr).Sublist (s.nats.list pr))
    (hs : ∀ k, ∀ n ∈ s'.nats.splay k, n ∈ s.nats.splay k) (hsz : 0 < s'.nats.nathashsz) :
    Base s' where
  tuns := ht
  fresh n hn := Nat.lt_of_lt_of_le (hb.fresh n (hk n hn)) hnext
  flags n hn := hb.flags n (hk n hn)
  proto pr n hn := hb.proto pr n ((hl pr).mem hn)
  place k n hn := hb.place k n (hs k n hn)
  nodup pr := (hb.nodup pr).sublist (hl pr)
  ptrs n hn x hx := hb.ptrs n ((hl n.proto).mem hn) x ((hl x.proto).mem hx)
  size := hsz

theorem Links.mem_list {n x : NatEntry} {pr : Pr} (hl : Links s.nats s'.nats n)
    (hx : x ∈ s'.nats.list pr) : x = n ∧ pr = n.proto ∨ x ∈ s.nats.list pr := by
  by_cases hpr : pr = n.proto
  · subst hpr
    rcases hl.tree.mem.mp hx with h | h
    · exact .inl ⟨h, rfl⟩
    · exact .inr h
  · rw [hl.treeOther pr hpr] at hx
    exact .inr hx

theorem Links.mem_splay {n x : NatEntry} {k : ℕ × Pr} (hl : Links s.nats s'.nats n)
    (hx : x ∈ s'.nats.splay k) : x = n ∧ k = (n.tunnel, n.proto) ∨ x ∈ s.nats.splay k := by
  by_cases hk : k = (n.tunnel, n.proto)
  · subst hk
    rcases hl.root.mem.mp hx with h | h
    · exact .inl ⟨h, rfl⟩
    · exact .inr h
  · rw [hl.rootOther k hk] at hx
    exact .inr hx

theorem Links.live {n x : NatEntry} (hl : Links s.nats s'.nats n) :
    x ∈ s'.nats.live ↔ x = n ∨ x ∈ s.nats.live := by
  constructor
  · intro hx
    exact (hl.mem_list hx).imp And.left id
  · rintro (rfl | hx)
    · exact hl.tree.mem.mpr (.inl rfl)
    · change x ∈ s'.nats.list x.proto
      by_cases hpr : x.proto = n.proto
      · rw [hpr]
        exact hl.tree.mem.mpr (.inr (hpr ▸ hx))
      · rw [hl.treeOther _ hpr]
        exact hx

theorem Base.move (hb : Base s) (h : Move cfg m s s') : Base s' := by
  have ht := h.tuns hb.tuns
  rcases hb.effect h with h | ⟨n, -, hl, hk, -, ho⟩ | ⟨n, c, seconds, -, hk, hc, rfl⟩
  · exact hb.less ht h.next h.known (fun pr => by rw [h.list pr]) (fun k n hn => h.splay k ▸ hn)
      (h.size hb.size)
  · have hfresh : ∀ x, Known s x → x.ptr < n.ptr := fun x hx => hl.ptr ▸ hb.fresh x hx
    refine ⟨ht, ?_, ?_, ?_, ?_, ?_, ?_, ?_⟩
    · intro x hx
      have := hl.ptr
      have := hl.next
      rcases hk x hx with rfl | hx
      · omega
      · have := hfresh x hx
        omega
    · intro x hx
      rcases hk x hx with rfl | hx
      · exact ho.flags
      · exact hb.flags x hx
    · intro pr x hx
      rcases hl.mem_list hx with ⟨rfl, rfl⟩ | hx
      · rfl
      · exact hb.proto pr x hx
    · intro k x hx
      rcases hl.mem_splay hx with ⟨rfl, rfl⟩ | hx
      · rfl
      · exact hb.place k x hx
    · intro pr
      by_cases hpr : pr = n.proto
      · subst hpr
        rw [hl.tree.perm.nodup_iff, List.nodup_cons]
        refine ⟨fun hn => ?_, hb.nodup _⟩
        have := hfresh n (.of_list hn)
        omega
      · rw [hl.treeOther pr hpr]
        exact hb.nodup pr
    · intro x hx y hy hxy
      rcases hl.live.mp hx with rfl | hx <;> rcases hl.live.mp hy with rfl | hy
      · rfl
      · have := hfresh y (.of_live hy)
        omega
      · have := hfresh x (.of_live hx)
        omega
      · exact hb.ptrs x hx y hy hxy
    · rw [hl.nathashsz]
      exact hb.size
  · obtain ⟨hsz, -, -, hnext, -⟩ := delNat_rest cfg seconds n { s with ctl := c }
    refine hb.less ht (Nat.le_of_eq hnext.symm) ?_ (fun pr => delNat_list_sublist pr)
      (fun k x hx => (delNat_splay_sublist k).mem hx) (hsz ▸ hb.size)
    intro x hx
    rcases delNat_known hx with h | h | h | h | h | ⟨l, hl, h⟩
    · exact .inl h
    · exact .inr (.inl h)
    · exact .of_heap h
    · exact .inr (.inr (.inr (.inl h)))
    · exact .inr (.inr (.inr (.inr (.inl h))))
    · exact hc l hl x h

theorem Base.live_grow (hb : Base s) (h : Move cfg m s s') (hm : m.grow = true) :
    s.nats.live ⊆ s'.nats.live := by
  rcases hb.effect h with h | ⟨n, -, hl, -⟩ | ⟨n, c, seconds, hm', -⟩
  · rw [h.live]
  · exact fun x hx => hl.live.mpr (.inr hx)
  · simp [hm] at hm'

theorem Base.live_shrink (hb : Base s) (h : Move cfg m s s') (hm : m.grow = false) :
    s'.nats.live ⊆ s.nats.live := by
  rcases hb.effect h with h | ⟨n, hm', -⟩ | ⟨n, c, seconds, -, -, -, rfl⟩
  · rw [h.live]
  · simp [hm] at hm'
  · exact fun x hx => (delNat_list_sublist x.proto).mem hx

theorem Linked.steady (hl : Linked s) (h : Steady s s') (hb' : Base s')
    (howner : ∀ n ∈ s.nats.live,
      ∃ u ∈ s'.tuns.live, u.ptr = n.tunnel ∧ s'.tuns.nonat n.tunnel = none)
    (hcached : ∀ k n, s'.nats.nathash k = some n → s'.nats.hash n.ptr = k ∧ k = s'.nats.slot n) :
    Linked s' where
  toBase := hb'
  live n hn := by
    rw [h.live]
    exact hl.live n (h.known n hn)
  splay n hn := by
    rw [h.splay]
    exact hl.splay n (h.live ▸ hn)
  sorted k := by
    rw [h.splay]
    exact hl.sorted k
  owner n hn := howner n (h.live ▸ hn)
  cached := hcached

theorem slot_congr {a b : Nats} {n x : NatEntry} (hsz : b.nathashsz = a.nathashsz)
    (hrnd : b.nathashrnd = a.nathashrnd) (h : n.outside = x.outside) : b.slot n = a.slot x := by
  rw [Nats.slot, Nats.slot, hsz, hrnd, jhashNat_congr h]

/-- An exact search of the splay tree of an entry finds the entry. -/
theorem Linked.probe (hl : Linked s) (ho : s.Ordered) {n : NatEntry} (hn : n ∈ s.nats.live)
    (k : ℕ × Pr) : Probe (natSplayCompareAbs n) (s.nats.splay k) :=
  (hl.sorted k).probe (hl.total ho) hn fun _ hx => hl.live _ (.of_splay hx)

theorem Linked.nodup_splay (hl : Linked s) (ho : s.Ordered) (k : ℕ × Pr) :
    (s.nats.splay k).Nodup :=
  (hl.sorted k).nodup (hl.total ho) fun _ hx => hl.live _ (.of_splay hx)

theorem Linked.removed (hl : Linked s) (ho : s.Ordered) {n : NatEntry} (hn : n ∈ s.nats.live) :
    (s.nats.natSplayRemove n.proto n).2 = true ∧
      Removed n (s.nats.splay (n.tunnel, n.proto))
        (SearchTree.toList
          (Splay.remove (natSplayCompareAbs n) (s.nats.root (n.tunnel, n.proto))).1) := by
  refine Splay.remove_spec (hl.probe ho hn _) (hl.nodup_splay ho _) (hl.splay n hn)
    ((hl.total ho).self hn) fun y hy h0 => ?_
  exact ((hl.sorted _).eq_of_zero (hl.total ho) (fun _ hx => hl.live _ (.of_splay hx))
    (hl.splay n hn) hy h0).symm

/-- After a deletion the entry is in neither tree, in no chain and in no slot. -/
theorem Linked.delNat_known (hl : Linked s) (ho : s.Ordered) {n : NatEntry} (hn : Known s n)
    (seconds : ℕ) {x : NatEntry} (hx : Known (delNat cfg seconds n s) x) : Known s x ∧ x ≠ n := by
  have hlive := hl.live n hn
  refine ⟨Aftr.delNat_known hx, ?_⟩
  obtain ⟨-, -, -, -, hheap, hxlist⟩ := delNat_rest cfg seconds n s
  rcases hx with ⟨pr, h⟩ | ⟨k, h⟩ | h | ⟨p, h⟩ | ⟨k, h⟩ | ⟨l, hl', h⟩
  · have hx := hl.mem_live ((delNat_list_sublist pr).mem h)
    obtain rfl := hl.proto pr x ((delNat_list_sublist pr).mem h)
    exact ((hl.delNat_live hlive).mp h).2
  · rw [delNat_splay] at h
    split at h
    · exact ((hl.removed ho hlive).2.mem (hl.nodup_splay ho _) |>.mp h).2
    · rename_i hk
      rintro rfl
      exact hk (hl.place k x h)
  · rw [hheap] at h
    rintro rfl
    simp at h
  · rw [hxlist] at h
    rintro rfl
    simp only [Nats.unchainFtp] at h
    split at h <;> simp at h
  · have hold := delNat_nathash_some h
    rintro rfl
    obtain ⟨hhash, hslot⟩ := hl.cached k x hold
    rw [delNat_nathash, hhash, if_pos] at h
    · simp at h
    · refine ⟨?_, hold⟩
      rw [hslot]
      exact Nat.lt_of_le_of_lt Nat.and_le_right (Nat.sub_lt hl.size Nat.zero_lt_one)
  · rintro rfl
    exact (chains_unchain hl' h).1 rfl

theorem Linked.delNat (hl : Linked s) (ho : s.Ordered) {n : NatEntry} (hn : Known s n)
    (seconds : ℕ) : Linked (delNat cfg seconds n s) := by
  have hlive := hl.live n hn
  obtain ⟨hsz, hrnd, hhash, -, -, -⟩ := delNat_rest cfg seconds n s
  have hmem : ∀ x, x ∈ (Aftr.delNat cfg seconds n s).nats.live ↔ x ∈ s.nats.live ∧ x ≠ n :=
    fun x => hl.delNat_live hlive
  have hmove : Move cfg ⟨false, fun _ => True, True⟩ s (Aftr.delNat cfg seconds n s) :=
    .del rfl seconds hn fun l hl' x hx => .of_chain hl' hx
  refine ⟨hl.move hmove, ?_, ?_, ?_, ?_, ?_⟩
  · intro x hx
    obtain ⟨hx, hne⟩ := hl.delNat_known ho hn seconds hx
    exact (hmem x).mpr ⟨hl.live x hx, hne⟩
  · intro x hx
    obtain ⟨hx, hne⟩ := (hmem x).mp hx
    rw [delNat_splay]
    split
    · rename_i hk
      rw [(hl.removed ho hlive).2.mem (hl.nodup_splay ho _), ← hk]
      exact ⟨hl.splay x hx, hne⟩
    · exact hl.splay x hx
  · intro k
    exact (hl.sorted k).sublist (delNat_splay_sublist k)
  · intro x hx
    exact hl.owner x ((hmem x).mp hx).1
  · intro k x hx
    rw [hhash, slot_congr hsz hrnd rfl]
    exact hl.cached k x (delNat_nathash_some hx)

theorem Linked.origin (hl : Linked s) {n : NatEntry} {p : Ports} (h : Origin cfg s n p) :
    ∃ u ∈ s.tuns.live, u.ptr = n.tunnel ∧ s.tuns.nonat n.tunnel = none := by
  cases h with
  | dynamic hb hport hsrc hflags howner => exact howner
  | ftpData n0 hk hb hport hn hflags =>
    rw [hn.1]
    exact hl.owner n0 (hl.live n0 hk)
  | static i hpool hport hflags hdst howner => exact howner
  | clone n0 hk h0 hprr hsport hproto hn =>
    obtain ⟨dst, dport, hn⟩ := hn
    rw [hn]
    exact hl.owner n0 (hl.live n0 hk)

theorem Linked.link (hl : Linked s) (ho' : s'.Ordered) {n : NatEntry}
    (hm : Links s.nats s'.nats n) (hk : ∀ x, Known s' x → x = n ∨ Known s x)
    (ht : s'.tuns = s.tuns) (hb' : Base s') (hor : Origin cfg s n s'.ports) : Linked s' := by
  have hn : n ∈ s'.nats.live := hm.live.mpr (.inl rfl)
  have hsub : ∀ k, ∀ x ∈ s.nats.splay k, x ∈ s'.nats.live :=
    fun k x hx => hm.live.mpr (.inr (hl.live x (.of_splay hx)))
  refine ⟨hb', ?_, ?_, ?_, ?_, ?_⟩
  · intro x hx
    exact hm.live.mpr ((hk x hx).imp id (hl.live x))
  · intro x hx
    rcases hm.live.mp hx with rfl | hx
    · exact hm.root.mem.mpr (.inl rfl)
    · by_cases hkey : (x.tunnel, x.proto) = (n.tunnel, n.proto)
      · rw [hkey]
        exact hm.root.mem.mpr (.inr (hkey ▸ hl.splay x hx))
      · rw [hm.rootOther _ hkey]
        exact hl.splay x hx
  · intro k
    by_cases hkey : k = (n.tunnel, n.proto)
    · subst hkey
      have htotal := hb'.total ho'
      refine (hl.sorted _).insert htotal hn (hsub _) ?_ hm.root
      exact find_none ((hl.sorted _).probe htotal hn (hsub _)) hm.rootNone
    · rw [hm.rootOther k hkey]
      exact hl.sorted k
  · intro x hx
    rw [ht]
    rcases hm.live.mp hx with rfl | hx
    · exact hl.origin hor
    · exact hl.owner x hx
  · intro k x hx
    rw [hm.nathash] at hx
    rw [hm.hash, slot_congr hm.nathashsz hm.nathashrnd rfl]
    exact hl.cached k x hx

theorem Linked.move (hl : Linked s) (h : Move cfg m s s') (hclean : m.clean) (ho : s.Ordered)
    (ho' : s'.Ordered) : Linked s' := by
  have hb' := hl.toBase.move h
  cases h with
  | quiet h =>
    refine hl.steady ⟨h.nats.list, h.nats.splay, h.nats.next, h.known,
      fun hs => h.nats.nathashsz ▸ hs⟩ hb' ?_ ?_
    · intro n hn
      obtain ⟨u, hu, hp, hnn⟩ := hl.owner n hn
      obtain ⟨hu', hnonat, -⟩ := Tunnels.Grow.keeps h.tuns hl.tuns hu
      refine ⟨u, hu', hp, ?_⟩
      rw [← hp, hnonat, hp]
      exact hnn
    · intro k n hn
      rw [h.nats.nathash] at hn
      rw [h.nats.hash, slot_congr h.nats.nathashsz h.nats.nathashrnd rfl]
      exact hl.cached k n hn
  | ports h => exact hl.steady (.of_nats rfl rfl) hb' hl.owner hl.cached
  | frags e ht => exact hl.steady (.of_nats rfl rfl) hb' hl.owner hl.cached
  | cache hf =>
    rename_i pr key x
    obtain ⟨hmem, h0⟩ := natTreeFindWild_mem hf
    have hx := hl.mem_live hmem
    have hout := ((compareWild_eq_zero outside_length).mp h0).1
    refine hl.steady (.of_nathash rfl rfl rfl rfl rfl id ?_) hb' hl.owner ?_
    · intro k n h
      simp only [Function.update_apply] at h
      split at h
      · obtain rfl := Option.some.inj h
        exact .of_live hx
      · exact .of_nathash h
    · intro k n h
      simp only [Function.update_apply] at h ⊢
      split at h
      · rename_i hk
        obtain rfl := Option.some.inj h
        rw [if_pos rfl]
        exact ⟨hk.symm, hk.trans (slot_congr rfl rfl hout)⟩
      · rename_i hk
        obtain ⟨hh, hslot⟩ := hl.cached k n h
        refine ⟨?_, hslot⟩
        rw [if_neg]
        · exact hh
        · -- the same entry would be in the same slot
          intro hptr
          obtain rfl := hl.ptrs n (hl.live n (.of_nathash h)) x hx hptr
          exact hk (hslot.trans (slot_congr rfl rfl hout.symm))
  | resize up rnd =>
    rcases resizeNatHash_cases up rnd s.nats with heq | ⟨sz, hsz, heq⟩
    · rw [heq]
      exact hl
    · rw [heq] at hb' ⊢
      refine hl.steady (.of_nathash rfl rfl rfl rfl rfl (fun _ => hsz) (by simp)) hb' hl.owner ?_
      intro k n h
      simp at h
  | unlinked hp hf =>
    obtain ⟨hsame, hknown⟩ := hl.unlinked hp hf
    refine hl.steady ⟨hsame.list, hsame.splay, hsame.next, hknown,
      fun hs => hsame.nathashsz ▸ hs⟩ hb' hl.owner ?_
    intro k n h
    simp only [hsame.nathash] at h
    rw [hsame.hash, slot_congr hsame.nathashsz hsame.nathashrnd rfl]
    exact hl.cached k n h
  | link hm hlk hk ht hf hor => exact hl.link ho' hlk hk ht hb' hor
  | @del n c hm seconds hk hc =>
    have hq : Quiet s { s with ctl := c } := .of_ctl hc
    have hmove : Move cfg m s { s with ctl := c } := .quiet hq
    have hl' : Linked { s with ctl := c } :=
      hl.steady ⟨hq.nats.list, hq.nats.splay, hq.nats.next, hq.known, id⟩
        (hl.toBase.move hmove) hl.owner hl.cached
    exact hl'.delNat ho (.of_live (hl.live n hk)) seconds
  | @removeTunnel t hm hg ht hn hroot havail =>
    refine hl.steady (.of_nats rfl rfl) hb' ?_ hl.cached
    intro n hn
    obtain ⟨u, hu, hp, hnn⟩ := hl.owner n hn
    refine ⟨u, ?_, hp, hnn⟩
    rw [Tunnels.live_removeTunnel]
    refine List.mem_filter.mpr ⟨hu, decide_eq_true fun hut => ?_⟩
    have := hl.splay n hn
    rw [← hp, hut, hroot hclean n.proto] at this
    simp at this
  | @removeNonat t hm hg ht hn =>
    refine hl.steady (.of_nats rfl rfl) hb' ?_ hl.cached
    intro n hn'
    obtain ⟨u, hu, hp, hnn⟩ := hl.owner n hn'
    have hut : u.ptr ≠ t.ptr := by
      rintro hut
      rw [← hp, hut] at hnn
      simp [hnn] at hn
    refine ⟨u, ?_, hp, ?_⟩
    · rw [Tunnels.live_removeNonat]
      exact List.mem_filter.mpr ⟨hu, decide_eq_true hut⟩
    · simp only [Tunnels.removeNonat, Tunnels.removeTunnel]
      rw [Function.update_of_ne (hp ▸ hut)]
      exact hnn

/-! ### A sequence of moves -/

theorem Base.moves (hb : Base s) (h : Moves cfg m s s') : Base s' := by
  induction h with
  | refl => exact hb
  | tail _ hm ih => exact ih.move hm

theorem Base.moves_grow (hb : Base s) (h : Moves cfg m s s') (hm : m.grow = true) :
    s.nats.live ⊆ s'.nats.live := by
  induction h with
  | refl => exact fun _ hx => hx
  | tail h hmove ih => exact ih.trans ((hb.moves h).live_grow hmove hm)

theorem Base.moves_shrink (hb : Base s) (h : Moves cfg m s s') (hm : m.grow = false) :
    s'.nats.live ⊆ s.nats.live := by
  induction h with
  | refl => exact fun _ hx => hx
  | tail h hmove ih => exact ((hb.moves h).live_shrink hmove hm).trans ih

/-- What lies between two states in order is in order. -/
theorem Base.between {a : State} (hb : Base s) (h₁ : Moves cfg m s a) (h₂ : Moves cfg m a s')
    (ho : s.Ordered) (ho' : s'.Ordered) : a.Ordered := by
  cases hm : m.grow with
  | true => exact ho'.mono ((hb.moves h₁).moves_grow h₂ hm)
  | false => exact ho.mono (hb.moves_shrink h₁ hm)

theorem Linked.moves (hl : Linked s) (h : Moves cfg m s s') (hclean : m.clean) (ho : s.Ordered)
    (ho' : s'.Ordered) : Linked s' := by
  induction h using ReflTransGen.head_induction_on with
  | refl => exact hl
  | head hmove h ih =>
    have ho₁ := hl.between (.single hmove) h ho ho'
    exact ih (hl.move hmove hclean ho ho₁) ho₁

end Step

end WanStack.Aftr
