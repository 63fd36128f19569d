import WanStack.Aftr.Runs

set_option autoImplicit false

/-!
# What the functions change

Every function on packets, entries and tunnels is a sequence of single changes
of the state, each of them given exactly. An invariant of such functions is
proved by cases on one change.
-/
namespace WanStack.Aftr
open SearchTree Relation

/-- What a function may do besides looking up and adding standard tunnels:
    make dynamic entries, make entries for a session, take entries over as in a
    reload, delete. -/
structure Leave where
  packets : Bool := false
  session : Option ℕ := none
  takes : Bool := false
  deletes : Bool := false

/-- The flags of what a command makes; FTP data entries are wildcards too. -/
def Flags.static (f : Flags) : Bool := f.allDst && !f.ftpData

inductive Change (cfg : Conf) (l : Leave) : State → State → Prop where
  | lookup (s : State) (peer : Addr6) :
      Change cfg l s { s with tuns := (s.tuns.tunnelLookup peer).1 }
  | addStd {s : State} {env : NatEnv} {peer : Addr6} {tuns : Tunnels} {t : Tunnel}
      (h : s.tuns.addTunnel cfg env peer = (tuns, some t)) (i next : ℕ) :
      Change cfg l s { s with tuns := { tuns with
        srcidx := Function.update tuns.srcidx t.ptr i, nextSrc := next } }
  | addNonat {s : State} {env : NatEnv} {peer : Addr6} {tuns : Tunnels} {t : Tunnel}
      (hl : l.session.isSome = true) (h : s.tuns.addTunnel cfg env peer = (tuns, some t))
      (addr plen : ℕ) :
      Change cfg l s { s with tuns := { tuns with
        nonat := Function.update tuns.nonat t.ptr (some (addr, plen))
        ngeneration := Function.update tuns.ngeneration t.ptr s.ctl.curgen
        nonats := tuns.nonats ++ [t] } }
  | takeNonat {s : State} {t : Tunnel} (hl : l.takes = true) (ht : t ∈ s.tuns.nonats) :
      Change cfg l s { s with tuns := { s.tuns with
        ngeneration := Function.update s.tuns.ngeneration t.ptr s.ctl.curgen } }
  | setTunnel (s : State) (mtu : ℕ → ℕ) (tbdrop : ℕ → Bool) :
      Change cfg l s { s with tuns := { s.tuns with mtu := mtu, tbdrop := tbdrop } }
  | removeTunnel (s : State) (t : Tunnel) (hl : l.deletes = true) :
      Change cfg l s { s with tuns := s.tuns.removeTunnel t }
  | removeNonat (s : State) (t : Tunnel) (hl : l.deletes = true) :
      Change cfg l s { s with tuns := s.tuns.removeNonat t }
  | rate (s : State) (seconds t : ℕ) (pr : Pr) (hl : l.packets = true) :
      Change cfg l s { s with tuns := (natRate cfg seconds t pr s.tuns).1 }
  | rotate {s : State} {k : ℕ × Pr} {root : BinaryTree NatEntry}
      (h : toList root = s.nats.splay k) :
      Change cfg l s { s with nats := { s.nats with root := Function.update s.nats.root k root } }
  | cache {s : State} {pr : Pr} {key n : NatEntry} (h : s.nats.natTreeFindWild pr key = some n)
      (hgen : Nats.staleGen s.ctl.lastgen (s.nats.generation n.ptr) = false) :
      Change cfg l s { s with nats := { s.nats with
        hash := Function.update s.nats.hash n.ptr (s.nats.slot key)
        nathash := Function.update s.nats.nathash (s.nats.slot key) (some n) } }
  | alloc (s : State) : Change cfg l s { s with nats := s.nats.alloc }
  | ports (s : State) (p : Ports) : Change cfg l s { s with ports := p }
  | frags (s : State) (f : Frags) : Change cfg l s { s with frags := f }
  | resizeNat (s : State) (up : Bool) (rnd : UInt32) :
      Change cfg l s { s with nats := resizeNatHash up rnd s.nats }
  | resizeTun (s : State) (up : Bool) (rnd : UInt32) :
      Change cfg l s { s with tuns := resizeTunHash up rnd s.tuns }
  | unlinked {s : State} {n : NatEntry} {nats : Nats} (hp : n.ptr = s.nats.next)
      (h : s.nats.alloc.link n.proto n = (nats, false)) : Change cfg l s { s with nats := nats }
  | link {s : State} {n : NatEntry} {nats : Nats} (hl : l.packets = true)
      (hp : n.ptr = s.nats.next) (h : s.nats.alloc.link n.proto n = (nats, true))
      (hflags : n.flags.static = false) (p : Ports) :
      Change cfg l s { s with
        nats := (nats.heapInsert n).count n.tunnel n.proto
        ports := p }
  | xchain {s : State} {n : NatEntry} (n0 : NatEntry) (hl : l.packets = true)
      (hn : n ∈ s.nats.heap) :
      Change cfg l s { s with nats := s.nats.xchain n0 n }
  | static {s : State} {n : NatEntry} {nats : Nats} {sid : ℕ} (hl : l.session = some sid)
      (hp : n.ptr = s.nats.next) (h : s.nats.alloc.link n.proto n = (nats, true))
      (hflags : n.flags.static = true) :
      Change cfg l s { s with
        nats := { nats with
          generation := Function.update nats.generation n.ptr s.ctl.curgen }.count n.tunnel n.proto
        ctl := s.ctl.addSnat sid n }
  | take {s : State} {key n : NatEntry} (hl : l.takes = true) (hkey : key.flags.static = true)
      (hk : n ∈ s.nats.splay (key.tunnel, key.proto))
      (hall : natTreeCompareAll n key = true) :
      Change cfg l s { s with
        ctl := if s.nats.generation n.ptr ≤ FIRSTGEN then s.ctl.promote n else s.ctl
        nats := { s.nats with
          generation := Function.update s.nats.generation n.ptr s.ctl.curgen } }
  | del {s : State} {n : NatEntry} (hl : l.deletes = true) (hk : Known s n) (seconds : ℕ) :
      Change cfg l s (delNat cfg seconds n s)

def Changes (cfg : Conf) (l : Leave) : State → State → Prop := ReflTransGen (Change cfg l)

section
variable {cfg : Conf} {l : Leave} {s s' s'' : State}

theorem Change.changes (h : Change cfg l s s') : Changes cfg l s s' := .single h

theorem Changes.refl (s : State) : Changes cfg l s s := ReflTransGen.refl

theorem Changes.trans (h : Changes cfg l s s') (h' : Changes cfg l s' s'') :
    Changes cfg l s s'' := ReflTransGen.trans h h'

/-- The state of a result that was taken apart. -/
theorem Changes.fst {α : Type} {r : State × α} {a : α} (h : Changes cfg l s r.1)
    (hr : r = (s', a)) : Changes cfg l s s' := by
  rw [hr] at h
  exact h

/-- What every change keeps, a sequence keeps. -/
theorem Changes.keep {P : State → Prop} (h : Changes cfg l s s') (h0 : P s)
    (hstep : ∀ a b, Change cfg l a b → P a → P b) : P s' := by
  induction h with
  | refl => exact h0
  | tail _ hab ih => exact hstep _ _ hab ih

/-! ### Tunnels -/

theorem Changes.lookup {peer : Addr6} {tuns : Tunnels} {t : Option Tunnel}
    (h : s.tuns.tunnelLookup peer = (tuns, t)) : Changes cfg l s { s with tuns := tuns } := by
  have hfst : tuns = (s.tuns.tunnelLookup peer).1 := by rw [h]
  rw [hfst]
  exact (Change.lookup s peer).changes

theorem Changes.addFailed {env : NatEnv} {peer : Addr6} {tuns : Tunnels}
    (h : s.tuns.addTunnel cfg env peer = (tuns, none)) :
    Changes cfg l s { s with tuns := tuns } := by
  rcases addTunnel_cases cfg env peer s.tuns with h' | ⟨t, tree, -, -, h'⟩ <;> rw [h] at h'
  · cases h'
    exact (Change.lookup s peer).changes
  · cases h'

theorem addStdtunnel_changes (cfg : Conf) (env : NatEnv) (peer : Addr6) (src : Option ℕ)
    (s : State) : Changes cfg l s (addStdtunnel cfg env peer src s).1 := by
  unfold addStdtunnel
  split
  · exact .refl s
  split
  · exact .refl s
  split <;> rename_i hr
  · exact .addFailed hr
  · split
    · exact (Change.addStd hr _ _).changes
    · exact (Change.addStd hr _ _).changes

theorem decap_changes (cfg : Conf) (env : NatEnv) (peer : Addr6) (auto : Bool) (s : State) :
    Changes cfg l s (decap cfg env peer auto s).1 := by
  unfold decap
  split <;> rename_i hr
  · exact .lookup hr
  · split
    · exact (Changes.lookup hr).trans (addStdtunnel_changes ..)
    · exact .lookup hr

theorem lookupOrAdd_changes (cfg : Conf) (env : NatEnv) (peer : Addr6) (src : Option ℕ)
    (s : State) : Changes cfg l s (lookupOrAdd cfg env peer src s).1 := by
  unfold lookupOrAdd
  split <;> rename_i hr
  · exact .lookup hr
  · exact (Changes.lookup hr).trans (addStdtunnel_changes ..)

/-! ### Searches -/

theorem natSplayFind_changes (s : State) (pr : Pr) (n : NatEntry) (gen lastgen : ℕ)
    (exact' stale : Bool) :
    Changes cfg l s { s with nats := (s.nats.natSplayFind pr n gen lastgen exact' stale).1 } :=
  (Change.rotate (Splay.toList_lookup ..)).changes

theorem natSplaySplay_changes (s : State) (pr : Pr) (n : NatEntry) :
    Changes cfg l s { s with nats := s.nats.natSplaySplay pr n } :=
  (Change.rotate (Splay.toList_splay ..)).changes

theorem Changes.natLookup {pr : Pr} {key : NatEntry} {nats : Nats} {n : Option NatEntry}
    (h : s.nats.natLookup pr key s.ctl.lastgen = (nats, n)) :
    Changes cfg l s { s with nats := nats } := by
  rcases natLookup_cases s.nats pr key s.ctl.lastgen with
    ⟨n, -, -, h'⟩ | h' | ⟨n, hf, hgen, h'⟩ <;> rw [h] at h' <;> cases h'
  · exact .refl s
  · exact .refl s
  · exact (Change.cache hf hgen).changes

theorem splayFindExact_changes (key : NatEntry) (s : State) :
    Changes cfg l s (splayFindExact key s).1 :=
  natSplayFind_changes s key.proto key 0 s.ctl.lastgen true true

/-! ### Dynamic entries -/

/-- `link` changes the trees only. -/
theorem link_chains {pr : Pr} {n : NatEntry} {nats nats' : Nats} {ok : Bool}
    (h : nats.link pr n = (nats', ok)) : nats'.heap = nats.heap ∧ nats'.xlist = nats.xlist ∧
      nats'.generation = nats.generation := by
  simp only [Nats.link, Nats.natTreeInsert, Nats.natSplayInsert] at h
  rcases ht : RedBlack.insert (natTreeCompareAbs n) n (nats.tree pr) with ⟨t, _ | e⟩
  · rcases hr : Splay.insert (natSplayCompareAbs n) n (nats.root (n.tunnel, pr)) with ⟨u, _ | e⟩ <;>
      simp only [ht, hr, Prod.mk.injEq] at h <;> obtain ⟨rfl, -⟩ := h <;> exact ⟨rfl, rfl, rfl⟩
  · simp only [ht, Prod.mk.injEq] at h
    obtain ⟨rfl, -⟩ := h
    exact ⟨rfl, rfl, rfl⟩

theorem newNat_made {env : NatEnv} {n : NatEntry} {r : Option NatEntry}
    (h : newNat cfg env n s = (s', r)) :
    s'.tuns = s.tuns ∧ s'.nats.xlist = s.nats.xlist ∧
      (r = none ∧ s'.nats.heap = s.nats.heap ∨
        ∃ port, r = some { n with nport := port } ∧
          s'.nats.heap = { n with nport := port } :: s.nats.heap) := by
  unfold newNat at h
  dsimp only at h
  split at h
  · cases h
    exact ⟨rfl, rfl, .inl ⟨rfl, rfl⟩⟩
  split at h
  · cases h
    exact ⟨rfl, rfl, .inl ⟨rfl, rfl⟩⟩
  split at h <;> rename_i hl <;> obtain ⟨hheap, hx, -⟩ := link_chains hl <;> cases h
  · exact ⟨rfl, hx, .inl ⟨rfl, hheap⟩⟩
  · exact ⟨rfl, hx, .inr ⟨_, rfl, congrArg _ hheap⟩⟩

/-- `new_nat` for an entry that has its address already. -/
theorem newNat_changes (hl : l.packets = true) (env : NatEnv) {n : NatEntry}
    (hp : n.ptr = s.nats.next) (hflags : n.flags.static = false) :
    Changes cfg l s (newNat cfg env n { s with nats := s.nats.alloc }).1 := by
  have hports (p : Ports) : Changes cfg l s { s with nats := s.nats.alloc, ports := p } :=
    (Change.alloc s).changes.trans (Change.ports _ p).changes
  unfold newNat
  dsimp only
  split
  · exact hports _
  rename_i port _
  set n' : NatEntry := { n with nport := port }
  split
  · exact hports _
  split <;> rename_i hlink
  · exact (Change.unlinked (n := n') hp hlink).changes.trans (Change.ports _ _).changes
  · exact (Change.link (n := n') hl hp hlink hflags _).changes

theorem getFtptempdata_changes (hl : l.packets = true) (env : NatEnv) (n0 : NatEntry) (np : ℕ)
    (s : State) : Changes cfg l s (getFtptempdata cfg env n0 np s).1 := by
  unfold getFtptempdata
  split
  · exact .refl s
  split
  · exact .refl s
  apply (Change.rate s env.seconds n0.tunnel .tcp hl).changes.trans
  dsimp only
  split
  · exact .refl _
  have hnew := @newNat_changes cfg l { s with
    tuns := (natRate cfg env.seconds n0.tunnel .tcp s.tuns).1 } hl (env.after 1)
    (ftpDataEntry n0 s.nats.next np) rfl rfl
  split <;> rename_i hr
  · exact hnew.fst hr
  · obtain ⟨-, -, ⟨hn, -⟩ | ⟨port, hn, hheap⟩⟩ := newNat_made hr
    · cases hn
    · cases hn
      refine (hnew.fst hr).trans (Change.xchain n0 hl ?_).changes
      rw [hheap]
      exact List.mem_cons_self ..

theorem patchFtpin_changes (hl : l.packets = true) (env : NatEnv) (server : Bool) (p : Pkt)
    (n0 : NatEntry) (s : State) : Changes cfg l s (patchFtpin cfg env server p n0 s).1 := by
  unfold patchFtpin
  dsimp only
  split
  · exact .refl s
  split
  · exact .refl s
  split <;> rename_i hr <;> exact (getFtptempdata_changes hl ..).fst hr

theorem natinGot_changes (hl : l.packets = true) (env : NatEnv) (p : Pkt) (n : NatEntry)
    (s : State) : Changes cfg l s (natinGot cfg env p n s).1 := by
  unfold natinGot
  dsimp only
  split_ifs
  · exact patchFtpin_changes hl ..
  · exact patchFtpin_changes hl ..
  · exact .refl s
  · exact .refl s

theorem natin_changes (hl : l.packets = true) (env : NatEnv) (t : ℕ) (p : Pkt) (s : State) :
    Changes cfg l s (natin cfg env t p s).1 := by
  apply (natSplayFind_changes s p.proto (inKey t p) 0 s.ctl.lastgen false false).trans
  unfold natin
  dsimp only
  split
  · exact natinGot_changes hl ..
  split
  · exact .refl _
  apply (Change.rate _ env.seconds t p.proto hl).changes.trans
  dsimp only
  split
  · exact .refl _
  have hflags : (portFlags p.proto).static = false := by cases p.proto <;> rfl
  split <;> rename_i hr
  · exact (newNat_changes hl (s := { s with nats := _, tuns := _ }) _ rfl hflags).fst hr
  · exact ((newNat_changes hl (s := { s with nats := _, tuns := _ }) _ rfl hflags).fst hr).trans
      (natinGot_changes hl ..)

theorem getFtptempsrv_changes (hl : l.packets = true) (env : NatEnv) (p : Pkt) {n0 : NatEntry}
    (htcp : n0.proto = .tcp) (s : State) : Changes cfg l s (getFtptempsrv cfg env p n0 s).1 := by
  unfold getFtptempsrv
  split
  · exact .refl s
  apply (Change.rate s env.seconds n0.tunnel .tcp hl).changes.trans
  dsimp only
  set s₁ : State := { s with tuns := (natRate cfg env.seconds n0.tunnel .tcp s.tuns).1 }
  split
  · exact .refl s₁
  split
  · exact (Change.alloc s₁).changes
  have hproto : (ftpSrvEntry n0 s.nats.next p).proto = .tcp := htcp
  split <;> rename_i hlink <;> rw [← hproto] at hlink
  · exact (Change.unlinked (s := s₁) rfl hlink).changes
  · have h : Changes cfg l s₁ _ := (Change.link (s := s₁) hl rfl hlink rfl s.ports).changes.trans
      (Change.xchain n0 hl (List.mem_cons_self ..)).changes
    rw [hproto] at h
    exact h

theorem patchFtpout_changes (hl : l.packets = true) (env : NatEnv) (server : Bool) (p : Pkt)
    {n0 : NatEntry} (htcp : n0.proto = .tcp) (s : State) :
    Changes cfg l s (patchFtpout cfg env server p n0 s).1 := by
  unfold patchFtpout
  split
  · split
    · exact .refl s
    · exact getFtptempsrv_changes hl env p htcp s
  · exact .refl s

/-- What both FTP branches end with: the entry goes to the root of its tree. -/
def ftpSplayed (p : Pkt) (f : NatEntry → ℕ × Pkt) (r : State × Option NatEntry) :
    State × Option (ℕ × Pkt) :=
  match r with
  | (s, nn) =>
    match nn with
    | none => (s, none)
    | some n => ({ s with nats := s.nats.natSplaySplay p.proto n }, some (f n))

theorem natoutFound_changes (hl : l.packets = true) (env : NatEnv) (p : Pkt) (n : NatEntry)
    (s : State) : Changes cfg l s (natoutFound cfg env p n s).1 := by
  have hftp (r : State × Option NatEntry) (f : NatEntry → ℕ × Pkt) (h : Changes cfg l s r.1) :
      Changes cfg l s (ftpSplayed p f r).1 := by
    rcases r with ⟨s', _ | n'⟩
    · exact h
    · exact h.trans (natSplaySplay_changes s' p.proto n')
  unfold natoutFound
  generalize ({ p with
    dst := n.src, dport := if n.flags.matchAny then n.sport else p.dport } : Pkt) = p'
  split_ifs with hdst hbig hprr htcp h21 hs21
  · exact .refl s
  · exact .refl s
  · exact natSplaySplay_changes s p.proto n
  · exact hftp _ (fun n' => (n'.tunnel, p')) (patchFtpout_changes hl env false p htcp s)
  · exact hftp _ (fun n' => (n'.tunnel, p')) (patchFtpout_changes hl env true p htcp s)
  · exact natSplaySplay_changes s p.proto n
  · exact natSplaySplay_changes s p.proto n

theorem natout_changes (hl : l.packets = true) (env : NatEnv) (p : Pkt) (s : State) :
    Changes cfg l s (natout cfg env p s).1 := by
  unfold natout
  split <;> rename_i hr
  · exact .natLookup hr
  · exact (Changes.natLookup hr).trans (natoutFound_changes hl ..)

theorem naticmpout_changes (p : Pkt) (s : State) : Changes cfg l s (naticmpout p s).1 := by
  unfold naticmpout
  split <;> rename_i hr <;> exact .natLookup hr

theorem filterin_changes (hl : l.packets = true) (env : NatEnv) (t : Tunnel) (acl4 : Bool)
    (p : Pkt) (s : State) : Changes cfg l s (filterin cfg env t acl4 p s).1 := by
  unfold filterin
  split
  · exact .refl s
  split
  · exact natin_changes hl ..
  · exact natSplayFind_changes s p.proto (prrinKey t.ptr p) 0 s.ctl.lastgen true false

/-! ### Static entries -/

theorem linkStatic_changes {sid : ℕ} (hl : l.session = some sid) {n : NatEntry}
    (hflags : n.flags.static = true) (s : State) : Changes cfg l s (linkStatic sid n s).1 := by
  unfold linkStatic
  dsimp only
  split <;> rename_i hlink
  · exact (Change.unlinked (n := { n with ptr := s.nats.next }) rfl hlink).changes
  · exact (Change.static (n := { n with ptr := s.nats.next }) hl rfl hlink hflags).changes

theorem addStatic_changes {sid : ℕ} (hl : l.session = some sid) (env : NatEnv) (peer : Addr6)
    (on : Option ℕ) {key : NatEntry} (hflags : key.flags.static = true) (s : State) :
    Changes cfg l s (addStatic cfg env sid peer on key s).1 := by
  have h := @lookupOrAdd_changes l cfg env peer on s
  unfold addStatic
  split
  · exact .refl s
  split
  · exact .refl s
  split <;> rename_i hr
  · exact h.fst hr
  · split
    · exact h.fst hr
    · exact (h.fst hr).trans (linkStatic_changes hl (by exact hflags) _)

theorem trySnat_changes {sid : ℕ} (hl : l.session = some sid) (env : NatEnv) (peer : Addr6)
    (tcp : Bool) (src sport nsrc nport : ℕ) (acl : Bool) (s : State) :
    Changes cfg l s (trySnat cfg env sid peer tcp src sport nsrc nport acl s).1 := by
  unfold trySnat
  split
  · exact .refl s
  split <;> rename_i hr <;> apply (Changes.lookup hr).trans
  · exact .refl _
  dsimp only
  split
  · exact .refl _
  split <;> rename_i hfind <;> apply ((splayFindExact_changes _ _).fst hfind).trans
  · exact addStatic_changes hl _ _ _ rfl _
  · exact .refl _

theorem splayFindExact_mem {key n : NatEntry} (h : splayFindExact key s = (s', some n)) :
    n ∈ s'.nats.splay (key.tunnel, key.proto) := by
  have hs : s' = (splayFindExact key s).1 := by rw [h]
  have hmem := (@splayFindExact_some s key n (by rw [h])).1
  rw [hs, (splayFindExact_quiet key s).nats.splay]
  exact hmem

theorem reloadStatic_changes (hl : l.takes = true) {peer : Addr6} {key : NatEntry}
    (hkey : key.flags.static = true)
    {add : State → State × Option NatEntry} (hadd : ∀ s, Changes cfg l s (add s).1)
    (s : State) : Changes cfg l s (reloadStatic peer key add s).1 := by
  unfold reloadStatic
  split <;> rename_i hr <;> apply (Changes.lookup hr).trans
  · exact hadd _
  dsimp only
  split
  · exact .refl _
  split <;> rename_i hfind
  · exact ((splayFindExact_changes _ _).fst hfind).trans (hadd _)
  · have hmem := splayFindExact_mem hfind
    apply ((splayFindExact_changes _ _).fst hfind).trans
    split
    · exact .refl _
    · rename_i hall
      exact (Change.take hl (by exact hkey) hmem (by simpa using hall)).changes

theorem delStatic_changes (hl : l.deletes = true) (seconds : ℕ) (peer : Addr6) (key : NatEntry)
    (ok : NatEntry → Bool) (s : State) : Changes cfg l s (delStatic cfg seconds peer key ok s).1 := by
  unfold delStatic
  split <;> rename_i hr <;> apply (Changes.lookup hr).trans
  · exact .refl _
  dsimp only
  split
  · exact .refl _
  split <;> rename_i hfind
  · exact (splayFindExact_changes _ _).fst hfind
  · have hmem := splayFindExact_mem hfind
    apply ((splayFindExact_changes _ _).fst hfind).trans
    split
    · exact (Change.del hl (.of_splay hmem) seconds).changes
    · exact .refl _

/-! ### Tunnels of commands -/

theorem delRoots_changes (hl : l.deletes = true) (seconds t : ℕ) (pr : Pr) (k : ℕ) (s : State) :
    Changes cfg l s (delRoots cfg seconds t pr k s) := by
  induction k generalizing s with
  | zero => exact .refl s
  | succ k ih =>
    unfold delRoots
    split
    · exact .refl s
    · rename_i n _ _ hroot
      have hmem : n ∈ s.nats.splay (t, pr) := by
        rw [Nats.splay, hroot]
        simp [toList]
      exact (Change.del hl (.of_splay hmem) seconds).changes.trans (ih _)

theorem clearTunnel_changes (hl : l.deletes = true) (seconds t : ℕ) (s : State) (pr : Pr) :
    Changes cfg l s (clearTunnel cfg seconds t s pr) :=
  (delRoots_changes hl seconds t pr _ s).trans (Change.ports _ _).changes

theorem delTunnel_changes (hl : l.deletes = true) (seconds : ℕ) (peer : Addr6) (s : State) :
    Changes cfg l s (delTunnel cfg seconds peer s).1 := by
  unfold delTunnel
  split <;> rename_i hr <;> apply (Changes.lookup hr).trans
  · exact .refl _
  dsimp only
  split
  · exact .refl _
  · exact (clearTunnel_changes hl ..).trans ((clearTunnel_changes hl ..).trans
      ((clearTunnel_changes hl ..).trans (Change.removeTunnel _ _ hl).changes))

theorem tryTunnel_changes (env : NatEnv) (peer : Addr6) (src : Option ℕ) (acl : Bool)
    (s : State) : Changes cfg l s (tryTunnel cfg env peer src acl s).1 := by
  unfold tryTunnel
  split <;> rename_i hr <;> apply (Changes.lookup hr).trans
  · split
    · exact addStdtunnel_changes ..
    · exact .refl _
  · exact .refl _

theorem reloadTunnel_changes (env : NatEnv) (peer : Addr6) (src : Option ℕ)
    (s : State) : Changes cfg l s (reloadTunnel cfg env peer src s).1 := by
  unfold reloadTunnel
  split <;> rename_i hr <;> apply (Changes.lookup hr).trans
  · exact addStdtunnel_changes ..
  · exact .refl _

theorem addNonat_changes (hl : l.session.isSome = true) (env : NatEnv) (peer : Addr6)
    (addr plen : ℕ) (s : State) : Changes cfg l s (addNonat cfg env peer addr plen s).1 := by
  unfold addNonat
  split
  · exact .refl s
  split <;> rename_i hr
  · exact .addFailed hr
  · exact (Change.addNonat hl hr addr plen).changes

theorem reloadNonat_changes (hl : l.session.isSome = true) (ht : l.takes = true) (env : NatEnv)
    (peer : Addr6) (addr plen : ℕ) (s : State) :
    Changes cfg l s (reloadNonat cfg env peer addr plen s).1 := by
  unfold reloadNonat
  split <;> rename_i hr <;> apply (Changes.lookup hr).trans
  · exact addNonat_changes hl ..
  · split <;> rename_i hmem
    · exact (Change.takeNonat (s := { s with tuns := _ }) ht hmem).changes
    · exact .refl _

theorem delNonat_changes (hl : l.deletes = true) (peer : Addr6) (s : State) :
    Changes cfg l s (delNonat peer s).1 := by
  unfold delNonat
  split <;> rename_i hr <;> apply (Changes.lookup hr).trans
  · exact .refl _
  · split
    · exact (Change.removeNonat _ _ hl).changes
    · exact .refl _

theorem setTunnel_changes (peer : Addr6) (set' : Tunnel → Tunnels → Tunnels)
    (hset : ∀ t x, ∃ mtu tb, set' t x = { x with mtu := mtu, tbdrop := tb }) (s : State) :
    Changes cfg l s (setTunnel peer set' s).1 := by
  unfold setTunnel
  split <;> rename_i hr <;> apply (Changes.lookup hr).trans
  · exact .refl _
  · rename_i tuns t
    obtain ⟨mtu, tb, h⟩ := hset t tuns
    dsimp only
    rw [h]
    exact (Change.setTunnel { s with tuns := tuns } mtu tb).changes

theorem gcNonats_changes (hl : l.deletes = true) (old : ℕ → Bool) (s : State) :
    Changes cfg l s { s with tuns := gcNonats old s.tuns } := by
  unfold gcNonats
  generalize s.tuns.nonats = ts
  induction ts generalizing s with
  | nil => exact .refl s
  | cons t ts ih =>
    rw [List.foldl_cons]
    split
    · exact (Change.removeNonat s t hl).changes.trans (ih { s with tuns := s.tuns.removeNonat t })
    · exact ih s

/-! ### Commands -/

/-- The commands that work on entries and tunnels, not on sessions or the file. -/
def Cmd.plain : Cmd → Bool
  | .reload _ | .sessionConfig _ | .sessionClose _ => false
  | _ => true

/-- What a command may do: a reload takes over what is there. -/
def Cmd.leave (sid : ℕ) (reloading : Bool) : Cmd → Leave
  | .nat .. | .prr .. | .nonat .. => { session := some sid, takes := reloading }
  | .tryNat .. => { session := some sid }
  | .deleteNat .. | .deletePrr .. | .deleteNonat .. | .deleteTunnel .. => { deletes := true }
  | _ => {}

theorem execute_changes (env : NatEnv) (sid : ℕ) (s : State) {cmd : Cmd}
    (hc : cmd.plain = true) :
    Changes cfg (cmd.leave sid s.ctl.reloading) s (execute cfg env sid s cmd).1 := by
  cases cmd with
  | nat peer tcp src sport nsrc nport =>
    simp only [execute, Cmd.leave]
    split <;> rename_i hr
    · exact reloadStatic_changes hr rfl (addStatic_changes rfl env peer _ rfl) s
    · exact addStatic_changes rfl env peer _ rfl s
  | prr peer tcp src sport =>
    simp only [execute, Cmd.leave]
    split <;> rename_i hr
    · exact reloadStatic_changes hr rfl (addStatic_changes rfl env peer _ rfl) s
    · exact addStatic_changes rfl env peer _ rfl s
  | nonat peer addr plen =>
    simp only [execute, Cmd.leave]
    split <;> rename_i hr
    · exact reloadNonat_changes rfl hr ..
    · exact addNonat_changes rfl ..
  | tunnel peer src =>
    simp only [execute]
    split
    · exact reloadTunnel_changes ..
    · exact addStdtunnel_changes ..
  | tryTunnel peer src acl => exact tryTunnel_changes ..
  | tryNat peer tcp src sport nsrc nport acl => exact trySnat_changes rfl ..
  | deleteNat peer tcp src sport => exact delStatic_changes rfl ..
  | deletePrr peer tcp src sport => exact delStatic_changes rfl ..
  | deleteNonat peer => exact delNonat_changes rfl ..
  | deleteTunnel peer => exact delTunnel_changes rfl ..
  | mtu peer mtu => exact setTunnel_changes peer (setTunnelMtu mtu) (fun _ _ => ⟨_, _, rfl⟩) s
  | toobig peer drop => exact setTunnel_changes peer (setTunnelFlag drop) (fun _ _ => ⟨_, _, rfl⟩) s
  | pool => exact .refl s
  | other sec => exact .refl s
  | bad => exact .refl s
  | reload opened => cases hc
  | sessionConfig on => cases hc
  | sessionClose sid => cases hc

/-! ### Events -/

/-- What an event that is no command and no work of the control channel may do. -/
def Event.leave : Event → Option Leave
  | .natin .. | .natout .. => some { packets := true }
  | .expireNat .. => some { deletes := true }
  | .naticmpin .. | .naticmpout _ | .defrag6 .. | .defragIn .. | .defragOut .. => some {}
  | .everySecond _ | .resizeFragHash .. | .resizeNatHash .. | .resizeTunHash .. => some {}
  | _ => none

theorem act_changes {e : Event} (he : e.leave = some l) (s : State) :
    Changes cfg l s (act cfg s e) := by
  cases e <;> cases he
  case natin env peer auto acl4 p =>
    have hd := @decap_changes { packets := true } cfg env peer auto s
    simp only [act]
    split <;> rename_i hr
    · exact hd.fst hr
    · exact (hd.fst hr).trans (filterin_changes rfl ..)
  case naticmpin env peer auto proto src sport =>
    have hd := @decap_changes {} cfg env peer auto s
    simp only [act]
    split <;> rename_i hr
    · exact hd.fst hr
    · split
      · exact hd.fst hr
      · apply (hd.fst hr).trans
        exact (Change.rotate (Splay.toList_lookup ..)).changes
  case natout env p => exact natout_changes rfl env p s
  case naticmpout p => exact naticmpout_changes p s
  case defrag6 env peer auto buf6 =>
    have hd := @decap_changes {} cfg env peer auto s
    simp only [act]
    split <;> rename_i hr
    · exact hd.fst hr
    · exact (hd.fst hr).trans (Change.frags _ _).changes
  case defragIn env peer auto buf4 =>
    have hd := @decap_changes {} cfg env peer auto s
    simp only [act]
    split <;> rename_i hr
    · exact hd.fst hr
    · exact (hd.fst hr).trans (Change.frags _ _).changes
  case defragOut env buf4 => exact (Change.frags s _).changes
  case expireNat seconds ptr =>
    simp only [act]
    split <;> rename_i hn
    · exact .refl s
    · exact (Change.del rfl (.of_heap (List.mem_of_find?_eq_some hn)) seconds).changes
  case everySecond seconds =>
    apply (Change.ports s (s.ports.freeHeldnats seconds)).changes.trans
    exact (Change.frags _ _).changes
  case resizeFragHash up rnd => exact (Change.frags s _).changes
  case resizeNatHash up rnd => exact (Change.resizeNat s up rnd).changes
  case resizeTunHash up rnd => exact (Change.resizeTun s up rnd).changes

end

end WanStack.Aftr
