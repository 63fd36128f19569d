import WanStack.Aftr.Linked

set_option autoImplicit false

/-!
# Packets as moves

The functions that look for tunnels and entries and make new ones, and
`natin` and `natout` over them.
-/
namespace WanStack.Aftr
open SearchTree Relation

/-! ### Tunnels -/

theorem addTunnel_cases (cfg : Conf) (env : NatEnv) (peer : Addr6) (s : Tunnels) :
    s.addTunnel cfg env peer = ((s.tunnelLookup peer).1, none) ∨
    ∃ t tree, t.ptr = (s.tunnelLookup peer).1.next ∧
      Radix.insert Tunnel.remote bitAt MAXTUNBIT t (s.tunnelLookup peer).1.tree = (tree, none) ∧
      s.addTunnel cfg env peer = ({ (s.tunnelLookup peer).1 with
        tree := tree
        mtu := Function.update (s.tunnelLookup peer).1.mtu t.ptr cfg.tundefmtu
        tbdrop := Function.update (s.tunnelLookup peer).1.tbdrop t.ptr cfg.defaultTbdrop
        next := (s.tunnelLookup peer).1.next + 1 }, some t) := by
  unfold Tunnels.addTunnel
  rcases s.tunnelLookup peer with ⟨l, _ | u⟩
  · dsimp only
    split
    · exact .inl rfl
    · rcases h : Radix.insert Tunnel.remote bitAt MAXTUNBIT ⟨l.next, peer⟩ l.tree with ⟨tree, _ | u⟩
      · dsimp only
        split
        · exact .inl rfl
        · exact .inr ⟨⟨l.next, peer⟩, tree, rfl, h, rfl⟩
      · exact .inl rfl
  · exact .inl rfl

/-- Tunnels that grew, with the one that was asked for. -/
def Found (s s' : State) (r : Option Tunnel) : Prop :=
  Quiet s s' ∧ ∀ t, r = some t → s.tuns.Ok → t ∈ s'.tuns.live

def FoundStd (s s' : State) (r : Option Tunnel) : Prop :=
  Quiet s s' ∧ ∀ t, r = some t → s.tuns.Ok → t ∈ s'.tuns.live ∧ s'.tuns.nonat t.ptr = none

theorem Quiet.trans {a b c : State} (h : Quiet a b) (h' : Quiet b c) : Quiet a c where
  nats :=
    { list := fun pr => (h'.nats.list pr).trans (h.nats.list pr)
      splay := fun k => (h'.nats.splay k).trans (h.nats.splay k)
      nathash := h'.nats.nathash.trans h.nats.nathash
      nathashsz := h'.nats.nathashsz.trans h.nats.nathashsz
      nathashrnd := h'.nats.nathashrnd.trans h.nats.nathashrnd
      hash := h'.nats.hash.trans h.nats.hash
      next := Nat.le_trans h.nats.next h'.nats.next }
  tuns := h.tuns.trans h'.tuns
  ports := h'.ports.trans h.ports
  frags := h'.frags.trans h.frags
  known n hn := h.known n (h'.known n hn)

theorem tunnelLookup_rest (s : Tunnels) (peer : Addr6) :
    (s.tunnelLookup peer).1.nonat = s.nonat ∧ (s.tunnelLookup peer).1.next = s.next := by
  rcases s.tunnelLookup_fst peer with heq | ⟨v, -, heq⟩ <;> rw [heq] <;> exact ⟨rfl, rfl⟩

theorem lookup_quiet (s : State) (peer : Addr6) :
    Quiet s { s with tuns := (s.tuns.tunnelLookup peer).1 } :=
  .of_tuns (.single (.lookup s.tuns peer))

theorem lookup_found (s : State) (peer : Addr6) :
    Found s { s with tuns := (s.tuns.tunnelLookup peer).1 } (s.tuns.tunnelLookup peer).2 := by
  refine ⟨lookup_quiet s peer, fun t ht hok => ?_⟩
  rw [hok.tunnelLookup] at ht
  have hlive := (hok.find_eq_some.mp ht).1
  exact (Tunnels.Grow.keep hok (.lookup s.tuns peer) hlive).1

/-- A tunnel that `add_tunnel` made, once its kind is set. -/
theorem added_found {s : State} {peer : Addr6} {t : Tunnel} {tuns : Tunnels}
    (h : Tunnels.Added (s.tuns.tunnelLookup peer).1 tuns t) :
    Found s { s with tuns := tuns } (some t) := by
  refine ⟨.of_tuns (.tail (.single (.lookup s.tuns peer)) (.add h)), ?_⟩
  rintro u hu -
  obtain rfl := Option.some.inj hu
  exact h.perm.mem_iff.mpr (List.mem_cons_self ..)

theorem addStdtunnel_found (cfg : Conf) (env : NatEnv) (peer : Addr6) (src : Option ℕ)
    (s : State) : FoundStd s (addStdtunnel cfg env peer src s).1
      (addStdtunnel cfg env peer src s).2 := by
  have hnone : ∀ s' : State, Quiet s s' → FoundStd s s' none := fun s' h => ⟨h, by simp⟩
  -- the new address has no prefix
  have hsome : ∀ (t : Tunnel) (tuns : Tunnels), tuns.nonat = s.tuns.nonat →
      Tunnels.Added (s.tuns.tunnelLookup peer).1 tuns t →
      FoundStd s { s with tuns := tuns } (some t) := by
    intro t tuns hn h
    obtain ⟨hq, hlive⟩ := added_found h
    refine ⟨hq, fun u hu hok => ⟨hlive u hu hok, ?_⟩⟩
    obtain rfl := Option.some.inj hu
    by_contra hne
    have hlt := hok.nonat_lt t.ptr (by rw [← hn]; exact Option.isSome_iff_ne_none.mpr hne)
    have hptr := h.ptr
    have hnext := (tunnelLookup_rest s.tuns peer).2
    omega
  have hnonat := (tunnelLookup_rest s.tuns peer).1
  unfold addStdtunnel
  split
  · exact hnone _ (.refl s)
  split
  · exact hnone _ (.refl s)
  rcases addTunnel_cases cfg (env.after 1) peer s.tuns with h | ⟨t, tree, hp, hins, h⟩
  · rw [h]
    exact hnone _ (lookup_quiet s peer)
  · rw [h]
    dsimp only
    split
    · refine hsome t _ hnonat ⟨hins, hp, rfl, rfl, rfl, rfl, rfl, .inl ⟨rfl, rfl, _, rfl⟩⟩
    · refine hsome t _ hnonat ⟨hins, hp, rfl, rfl, rfl, rfl, rfl, .inl ⟨rfl, rfl, _, rfl⟩⟩

theorem FoundStd.after {s s₁ s' : State} {r : Option Tunnel} (h : Quiet s s₁)
    (h' : FoundStd s₁ s' r) : FoundStd s s' r :=
  ⟨h.trans h'.1, fun t ht hok => h'.2 t ht (hok.grows h.tuns)⟩

theorem FoundStd.found {s s' : State} {r : Option Tunnel} (h : FoundStd s s' r) : Found s s' r :=
  ⟨h.1, fun t ht hok => (h.2 t ht hok).1⟩

theorem decap_found (cfg : Conf) (env : NatEnv) (peer : Addr6) (auto : Bool) (s : State) :
    Found s (decap cfg env peer auto s).1 (decap cfg env peer auto s).2 := by
  have h := lookup_found s peer
  unfold decap
  rcases hlk : s.tuns.tunnelLookup peer with ⟨tuns, _ | t⟩ <;> rw [hlk] at h
  · dsimp only
    split
    · exact ((addStdtunnel_found cfg env peer none { s with tuns := tuns }).after h.1).found
    · exact h
  · exact h

theorem FoundStd.owner {s s' : State} {t : Tunnel} (h : FoundStd s s' (some t))
    (hok : s.tuns.Ok) : Owner s' t.ptr := by
  obtain ⟨hlive, hn⟩ := h.2 t rfl hok
  exact .inl ⟨t, hlive, rfl, hn⟩

/-! ### New entries -/

theorem natRate_core (cfg : Conf) (seconds t : ℕ) (pr : Pr) (s : Tunnels) :
    Tunnels.SameCore s (natRate cfg seconds t pr s).1 := by
  unfold natRate
  split <;> exact ⟨rfl, rfl, rfl, rfl, rfl, rfl, rfl, rfl, rfl⟩

theorem takePort_cases (cfg : Conf) (env : NatEnv) (t i : ℕ) (pr : Pr) (p : Ports) :
    ∃ p₁, (p₁ = p ∨ p.avail (t, pr) = 0 ∧ p₁ = p.fillBucket cfg env t i pr) ∧
      (p.takePort cfg env t i pr = (p₁, none) ∨
        (p₁.bucket (t, pr)).isSome = true ∧
          p.takePort cfg env t i pr = (p₁.pop (t, pr), some (p₁.topPort (t, pr)))) := by
  refine ⟨if p.avail (t, pr) = 0 then p.fillBucket cfg env t i pr else p, ?_, ?_⟩
  · split
    · exact .inr ⟨‹_›, rfl⟩
    · exact .inl rfl
  · unfold Ports.takePort
    dsimp only
    generalize (if p.avail (t, pr) = 0 then p.fillBucket cfg env t i pr else p) = p₁
    cases hb : p₁.bucket (t, pr) with
    | none => exact .inl rfl
    | some b => exact .inr ⟨rfl, by simp [Ports.pop, Ports.topPort, hb]⟩

section
variable {cfg : Conf} {m : Mode} {s : State}

theorem alloc_quiet (s : State) : Quiet s { s with nats := s.nats.alloc } :=
  .of_nats ⟨fun _ => rfl, fun _ => rfl, rfl, rfl, rfl, rfl, Nat.le_succ _⟩
    (fun _ hn => .of_heap hn) fun _ _ hn => .of_xlist hn

theorem fillBucket_pools (cfg : Conf) (env : NatEnv) (t i : ℕ) (pr : Pr) (p : Ports) :
    (p.fillBucket cfg env t i pr).pools = p.pools := by
  unfold Ports.fillBucket
  split
  · rfl
  · split <;> rfl

theorem Owner.congr {s s' : State} {t : ℕ} (h : Owner s t) (hn : s'.nats = s.nats)
    (hc : s'.ctl = s.ctl) (ht : s'.tuns = s.tuns) : Owner s' t := by
  rcases h with ⟨u, hu, hp, hnn⟩ | ⟨n, hk, hnt⟩
  · exact .inl ⟨u, ht ▸ hu, hp, ht ▸ hnn⟩
  · exact .inr ⟨n, hk.congr hn hc, hnt⟩

theorem unlinked_moves {n : NatEntry} {nats : Nats} (hp : n.ptr = s.nats.next)
    (h : s.nats.alloc.link n.proto n = (nats, false)) :
    Moves cfg m s { s with nats := nats } := by
  have hmove : Move cfg m s _ := .unlinked hp (by rw [h])
  rw [h] at hmove
  exact .single hmove

theorem Links.copy {s a b : Nats} {n : NatEntry} (h : Links s a n) (ht : b.tree = a.tree)
    (hr : b.root = a.root) (hc : b.nathash = a.nathash) (hz : b.nathashsz = a.nathashsz)
    (hd : b.nathashrnd = a.nathashrnd) (hh : b.hash = a.hash) (hx : b.next = a.next) :
    Links s b n where
  ptr := h.ptr
  next := hx.trans h.next
  treeNone := h.treeNone
  tree := by
    simp only [Nats.list, ht]
    exact h.tree
  treeOther pr hpr := by
    simp only [Nats.list, ht]
    exact h.treeOther pr hpr
  rootNone := h.rootNone
  root := by
    simp only [Nats.splay, hr]
    exact h.root
  rootOther k hk := by
    simp only [Nats.splay, hr]
    exact h.rootOther k hk
  nathash := hc.trans h.nathash
  nathashsz := hz.trans h.nathashsz
  nathashrnd := hd.trans h.nathashrnd
  hash := hh.trans h.hash

theorem Links.known {s s' : State} {n : NatEntry} (h : Links s.nats s'.nats n)
    (hheap : ∀ x ∈ s'.nats.heap, x = n ∨ Known s x)
    (hx : ∀ p, ∀ x ∈ s'.nats.xlist p, x = n ∨ Known s x)
    (hc : ∀ l ∈ s'.ctl.chains, ∀ x ∈ l, x = n ∨ Known s x) (x : NatEntry) (hk : Known s' x) :
    x = n ∨ Known s x := by
  rcases hk with ⟨pr, hk⟩ | ⟨k, hk⟩ | hk | ⟨p, hk⟩ | ⟨k, hk⟩ | ⟨l, hl, hk⟩
  · exact (h.mem_list hk).imp And.left .of_list
  · exact (h.mem_splay hk).imp And.left .of_splay
  · exact hheap x hk
  · exact hx p x hk
  · exact .inr (.of_nathash (h.nathash ▸ hk))
  · exact hc l hl x hk

variable (cfg) in
/-- `new_nat` for an entry that has its address already. -/
theorem newNat_moves (env : NatEnv) {n : NatEntry} (hm : m.grow = true)
    (hp : n.ptr = s.nats.next) (ht : Owner s n.tunnel)
    (ho : ∀ p : Ports, p.pools = s.ports.pools →
      (p.bucket (n.tunnel, n.proto)).isSome = true →
      Origin cfg { s with ports := p } { n with nport := p.topPort (n.tunnel, n.proto) }
        (p.pop (n.tunnel, n.proto))) :
    Moves cfg m s (newNat cfg env n { s with nats := s.nats.alloc }).1 ∧
      ∀ n', (newNat cfg env n { s with nats := s.nats.alloc }).2 = some n' →
        Known (newNat cfg env n { s with nats := s.nats.alloc }).1 n' := by
  obtain ⟨p₁, hp₁, hcases⟩ := takePort_cases cfg env n.tunnel (s.tuns.srcidx n.tunnel) n.proto
    s.ports
  have hfill : Moves cfg m s { s with ports := p₁ } := by
    rcases hp₁ with rfl | ⟨ha, rfl⟩
    · exact .refl s
    · exact .single (.ports (.fill env n.tunnel n.proto ht ha))
  have hpools : p₁.pools = s.ports.pools := by
    rcases hp₁ with rfl | ⟨-, rfl⟩
    · rfl
    · exact fillBucket_pools ..
  unfold newNat
  rcases hcases with h | ⟨hb, h⟩
  · simp only [h]
    exact ⟨hfill.trans (alloc_quiet _).moves, by simp⟩
  simp only [h]
  -- the port goes on hold first, then the trees are tried
  have hhold := hfill.trans (.single (.ports (.hold n.tunnel n.proto
    (env.seconds + cfg.holdLifetime) (ht.congr rfl rfl rfl) hb)))
  set n' : NatEntry := { n with nport := p₁.topPort (n.tunnel, n.proto) } with hn'
  split
  · exact ⟨hhold.trans (alloc_quiet _).moves, by simp⟩
  rcases hl : s.nats.alloc.link n.proto n' with ⟨nats, _ | _⟩
  · exact ⟨hhold.trans (unlinked_moves (n := n') hp hl), by simp⟩
  · obtain ⟨hlinks, hheap, hx, -⟩ := link_true (n := n') hp hl
    have hcopy := hlinks.copy (b := (nats.heapInsert n').count n.tunnel n.proto)
      rfl rfl rfl rfl rfl rfl rfl
    refine ⟨hfill.trans (.single (.link hm hcopy (hcopy.known ?_ ?_ ?_) rfl rfl
      (ho p₁ hpools hb))), ?_⟩
    · intro x hx
      exact (List.mem_cons.mp hx).imp id fun h => .of_heap (hheap ▸ h)
    · intro p x hx'
      exact .inr (.of_xlist (p := p) (hx ▸ hx'))
    · intro l hl x hx
      exact .inr (.of_chain hl hx)
    · rintro x hx
      obtain rfl := Option.some.inj hx
      exact .of_list hlinks.mem

theorem Owner.of_known {n : NatEntry} (h : Known s n) : Owner s n.tunnel := .inr ⟨n, h, rfl⟩

theorem pool_congr {p q : Ports} (h : p.pools = q.pools) (i : ℕ) : p.pool i = q.pool i := by
  rw [Ports.pool, Ports.pool, h]

/-! ### FTP -/

variable (cfg) in
theorem getFtptempdata_moves (env : NatEnv) (hm : m.grow = true) {n0 : NatEntry}
    (hk : Known s n0) (np : ℕ) :
    Moves cfg m s (getFtptempdata cfg env n0 np s).1 ∧
      ∀ n, (getFtptempdata cfg env n0 np s).2 = some n →
        Known (getFtptempdata cfg env n0 np s).1 n := by
  unfold getFtptempdata
  split
  · rename_i n hfind
    refine ⟨.refl s, fun x hx => ?_⟩
    obtain rfl := Option.some.inj hx
    exact .of_xlist (List.mem_of_find?_eq_some hfind)
  split
  · exact ⟨.refl s, by simp⟩
  have hcore := natRate_core cfg env.seconds n0.tunnel .tcp s.tuns
  rcases hr : natRate cfg env.seconds n0.tunnel .tcp s.tuns with ⟨tuns, ok⟩
  rw [hr] at hcore
  have hrate : Quiet s { s with tuns := tuns } := .of_core hcore
  dsimp only
  split
  · exact ⟨hrate.moves, by simp⟩
  obtain ⟨hmoves, hknown⟩ := newNat_moves cfg (s := { s with tuns := tuns })
    (env.after 1) (n := ftpDataEntry n0 s.nats.next np) hm rfl
    (.of_known (n := n0) (hk.congr rfl rfl)) fun p hp hb =>
      .ftpData n0 (hk.congr rfl rfl) hb rfl ⟨rfl, rfl, rfl, rfl, rfl, rfl⟩ rfl
  dsimp only at hmoves hknown
  generalize newNat cfg (env.after 1) _ _ = r at hmoves hknown ⊢
  rcases r with ⟨s', _ | n⟩
  · exact ⟨hrate.moves.trans hmoves, by simp⟩
  · have hn := hknown n rfl
    refine ⟨hrate.moves.trans (hmoves.trans (Quiet.moves ?_)), ?_⟩
    · refine .of_nats ⟨fun _ => rfl, fun _ => rfl, rfl, rfl, rfl, rfl, Nat.le_refl _⟩
        (fun x hx => .of_heap hx) fun p x hx => ?_
      simp only [Nats.xchain, Function.update_apply] at hx
      split at hx
      · rcases List.mem_cons.mp hx with rfl | hx
        · exact hn
        · exact .of_xlist hx
      · exact .of_xlist hx
    · intro x hx
      obtain rfl := Option.some.inj hx
      exact .of_xlist (p := n0.ptr) (by simp [Nats.xchain])

theorem patchFtpin_moves (env : NatEnv) (hm : m.grow = true) (server : Bool) (p : Pkt)
    {n0 : NatEntry} (hk : Known s n0) : Moves cfg m s (patchFtpin cfg env server p n0 s).1 := by
  unfold patchFtpin
  dsimp only
  split
  · exact .refl s
  · rename_i n hn
    have hkn : Known s n := by
      split at hn
      · exact .of_xlist (List.mem_of_find?_eq_some hn)
      · obtain rfl := Option.some.inj hn
        exact hk
    split
    · exact .refl s
    · rename_i np _
      have h := (getFtptempdata_moves cfg env hm hkn np).1
      rcases hr : getFtptempdata cfg env n np s with ⟨s', _ | x⟩ <;> rw [hr] at h <;> exact h

theorem getFtptempsrv_moves (env : NatEnv) (hm : m.grow = true) (p : Pkt) {n0 : NatEntry}
    (hk : Known s n0) (h0 : n0.flags.allDst = true) (hprr : n0.flags.prrNull = false)
    (hsport : n0.sport = PORTFTP) (hproto : n0.proto = .tcp) :
    Moves cfg m s (getFtptempsrv cfg env p n0 s).1 := by
  unfold getFtptempsrv
  split
  · exact .refl s
  have hcore := natRate_core cfg env.seconds n0.tunnel .tcp s.tuns
  rcases hr : natRate cfg env.seconds n0.tunnel .tcp s.tuns with ⟨tuns, ok⟩
  rw [hr] at hcore
  have hrate : Quiet s { s with tuns := tuns } := .of_core hcore
  dsimp only
  split
  · exact hrate.moves
  split
  · exact hrate.moves.trans (alloc_quiet _).moves
  set n := ftpSrvEntry n0 s.nats.next p
  have hpr : n.proto = .tcp := hproto
  rcases hl : s.nats.alloc.link .tcp n with ⟨nats, _ | _⟩
  · exact hrate.moves.trans (unlinked_moves (n := n) rfl (by rw [hpr]; exact hl))
  · obtain ⟨hlinks, hheap, hx, -⟩ := link_true (n := n) rfl (by rw [hpr]; exact hl)
    have hcopy := hlinks.copy (b := ((nats.heapInsert n).xchain n0 n).count n0.tunnel .tcp)
      rfl rfl rfl rfl rfl rfl rfl
    refine hrate.moves.trans (.single (.link (s := { s with tuns := tuns }) hm hcopy
      (Links.known hcopy ?_ ?_ ?_) rfl rfl ?_))
    · intro x hx
      exact (List.mem_cons.mp hx).imp id fun h => .of_heap (hheap ▸ h)
    · intro q x hx'
      simp only [Nats.count, Nats.xchain, Nats.heapInsert, Function.update_apply] at hx'
      split at hx'
      · exact (List.mem_cons.mp hx').imp id fun h => .of_xlist (p := n0.ptr) (hx ▸ h)
      · exact .inr (.of_xlist (p := q) (hx ▸ hx'))
    · intro l hl x hx
      exact .inr (.of_chain hl hx)
    · exact .clone n0 (hk.congr rfl rfl) h0 hprr hsport hproto ⟨p.src, p.sport, rfl⟩

theorem patchFtpout_moves (env : NatEnv) (hm : m.grow = true) (server : Bool) (p : Pkt)
    {n0 : NatEntry} (hk : Known s n0) (hprr : n0.flags.prrNull = false)
    (hsport : server = true → n0.sport = PORTFTP) (hproto : n0.proto = .tcp) :
    Moves cfg m s (patchFtpout cfg env server p n0 s).1 := by
  unfold patchFtpout
  split
  · rename_i h
    obtain ⟨hs, h0⟩ := Bool.and_eq_true_iff.mp h
    split
    · exact .refl s
    · exact getFtptempsrv_moves env hm p hk h0 hprr (hsport hs) hproto
  · exact .refl s

/-! ### The functions of the loop -/

theorem natinGot_moves (env : NatEnv) (hm : m.grow = true) (p : Pkt) {n : NatEntry}
    (hk : Known s n) : Moves cfg m s (natinGot cfg env p n s).1 := by
  unfold natinGot
  dsimp only
  split_ifs
  · exact patchFtpin_moves env hm false p hk
  · exact patchFtpin_moves env hm true p hk
  · exact .refl s
  · exact .refl s

theorem natin_moves (env : NatEnv) (hm : m.grow = true) {t : ℕ} (p : Pkt)
    (ht : ∃ u ∈ s.tuns.live, u.ptr = t ∧ s.tuns.nonat t = none) :
    Moves cfg m s (natin cfg env t p s).1 := by
  have hq := natSplayFind_quiet s p.proto (inKey t p) 0 s.ctl.lastgen false false
  have hfind := @natSplayFind_snd s.nats p.proto (inKey t p) 0 s.ctl.lastgen false false
  have hlist : ∀ k, (s.nats.natSplayFind p.proto (inKey t p) 0 s.ctl.lastgen false false).1.splay k
      = s.nats.splay k := hq.nats.splay
  unfold natin
  rcases hr : s.nats.natSplayFind p.proto (inKey t p) 0 s.ctl.lastgen false false with
    ⟨nats, _ | n⟩ <;> rw [hr] at hq hfind hlist
  · dsimp only at hq ⊢
    refine hq.moves.trans ?_
    split
    · exact .refl _
    have hcore := natRate_core cfg env.seconds t p.proto s.tuns
    rcases hr : natRate cfg env.seconds t p.proto s.tuns with ⟨tuns, ok⟩
    rw [hr] at hcore
    have hrate : Quiet { s with nats := nats } { s with nats := nats, tuns := tuns } :=
      .of_core hcore
    dsimp only
    refine hrate.moves.trans ?_
    split
    · exact .refl _
    have hsrc : tuns.srcidx = s.tuns.srcidx := hcore.srcidx
    have howner : ∃ u ∈ tuns.live, u.ptr = t ∧ tuns.nonat t = none := by
      obtain ⟨u, hu, hp, hn⟩ := ht
      refine ⟨u, ?_, hp, ?_⟩
      · rw [Tunnels.live, hcore.tree]
        exact hu
      · rw [hcore.nonat]
        exact hn
    obtain ⟨hmoves, hknown⟩ := newNat_moves cfg
      (s := { s with nats := nats, tuns := tuns }) (env.after 1)
      (n := inEntry t (s.ports.pool (s.tuns.srcidx t)).addr nats.next p) hm rfl (.inl howner)
      fun q hq hb => .dynamic hb rfl (by
        simp only [inEntry, inKey, pool_congr hq, hsrc]) rfl howner
    generalize newNat cfg (env.after 1) _ _ = r at hmoves hknown ⊢
    rcases r with ⟨s', _ | n⟩
    · exact hmoves
    · exact hmoves.trans (natinGot_moves (env.after 3) hm p (hknown n rfl))
  · refine hq.moves.trans (natinGot_moves env hm p ?_)
    refine .of_splay (k := ((inKey t p).tunnel, p.proto)) ?_
    rw [show ({ s with nats := nats } : State).nats.splay _ = s.nats.splay _ from hlist _]
    exact natSplayRoFind_mem (hfind rfl)

theorem prrin_quiet (t : ℕ) (p : Pkt) (s : State) : Quiet s (prrin t p s).1 :=
  natSplayFind_quiet s p.proto (prrinKey t p) 0 s.ctl.lastgen true false

theorem naticmpin_quiet (t : ℕ) (proto : Pr) (src sport : ℕ) (s : State) :
    Quiet s (naticmpin t proto src sport s).1 :=
  natSplayFind_quiet s proto { tunnel := t, proto := proto, flags := {}, src := src, sport := sport }
    0 s.ctl.lastgen false false

theorem natoutFound_moves (env : NatEnv) (hm : m.grow = true) (p : Pkt) {n : NatEntry}
    (hk : Known s n) : Moves cfg m s (natoutFound cfg env p n s).1 := by
  unfold natoutFound
  split
  · exact .refl s
  split
  · exact .refl s
  split
  · exact (natSplaySplay_quiet s p.proto n).moves
  rename_i hprr
  rw [Bool.not_eq_true] at hprr
  have hpatch : Moves cfg m s (if n.proto = .tcp then
        if p.sport = PORTFTP then patchFtpout cfg env false p n s
        else if n.sport = PORTFTP then patchFtpout cfg env true p n s
        else (s, some n)
      else (s, some n)).1 := by
    split_ifs with htcp h21 hs21
    · exact patchFtpout_moves env hm false p hk hprr (by simp) htcp
    · exact patchFtpout_moves env hm true p hk hprr (fun _ => hs21) htcp
    · exact .refl s
    · exact .refl s
  dsimp only
  generalize (if n.proto = .tcp then
        if p.sport = PORTFTP then patchFtpout cfg env false p n s
        else if n.sport = PORTFTP then patchFtpout cfg env true p n s
        else (s, some n)
      else (s, some n)) = r at hpatch ⊢
  rcases r with ⟨s', _ | nn⟩
  · exact hpatch
  · exact hpatch.trans (natSplaySplay_quiet s' p.proto nn).moves

theorem natout_moves (env : NatEnv) (hm : m.grow = true) (p : Pkt) (s : State) :
    Moves cfg m s (natout cfg env p s).1 := by
  have h := natLookup_moves cfg m s p.proto (outKey p)
  unfold natout
  rcases hl : s.nats.natLookup p.proto (outKey p) s.ctl.lastgen with ⟨nats, _ | n⟩ <;>
    rw [hl] at h
  · exact h
  · exact h.trans (natoutFound_moves env hm p (natLookup_known hl))

theorem naticmpout_moves (p : Pkt) (s : State) : Moves cfg m s (naticmpout p s).1 := by
  have h := natLookup_moves cfg m s p.proto (icmpOutKey p)
  unfold naticmpout
  rcases hl : s.nats.natLookup p.proto (icmpOutKey p) s.ctl.lastgen with ⟨nats, _ | n⟩ <;>
    rw [hl] at h <;> exact h

end

end WanStack.Aftr
