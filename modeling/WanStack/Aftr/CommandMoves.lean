import WanStack.Aftr.PacketMoves

set_option autoImplicit false

/-!
# Commands and steps as moves

Which tunnels a step takes away is said by `Event.removes`, from the state
before the step alone.
-/
namespace WanStack.Aftr
open SearchTree Relation

/-! ### What a step takes away -/

/-- The no-NAT tunnels whose generation a collector wants to go. -/
def Tunnels.oldNonats (old : ℕ → Bool) (s : Tunnels) : List ℕ :=
  (s.nonats.filter fun t => (s.nonat t.ptr).isSome && old (s.ngeneration t.ptr)).map Tunnel.ptr

def Control.closes (c : Control) (tuns : Tunnels) (sid : ℕ) : List ℕ :=
  match c.session sid with
  | none => []
  | some ss => if ss.locked then [] else tuns.oldNonats (· = ss.generation)

def Cmd.removes (s : State) : Cmd → List ℕ
  | .deleteTunnel peer =>
    ((s.tuns.tunnelTreeFind peer).filter fun t => (s.tuns.nonat t.ptr).isNone).toList.map
      Tunnel.ptr
  | .deleteNonat peer =>
    ((s.tuns.tunnelTreeFind peer).filter fun t => (s.tuns.nonat t.ptr).isSome).toList.map
      Tunnel.ptr
  | .sessionClose sid => s.ctl.closes s.tuns sid
  | _ => []

/-- A line of a session, when the section of the session lets it run. -/
def lineRemoves (s : State) (sid : ℕ) (cmd : Cmd) : List ℕ :=
  match s.ctl.session sid with
  | none => []
  | some ss =>
    match dispatch s.ctl.reloading cmd.sections ss.sec with
    | .run _ => cmd.removes s
    | _ => []

def Event.removes (s : State) (e : Event) : List ℕ :=
  if e.boots ≠ s.ctl.booting then [] else
  match e with
  | .boot _ cmd => lineRemoves s 0 cmd
  | .bootDone true =>
    match s.ctl.session 0 with
    | none => []
    | some ss => s.tuns.oldNonats (· = ss.generation)
  | .line _ inFile cmd =>
    match s.ctl.batch with
    | none => []
    | some (sid, _) =>
      if s.ctl.reloading && s.ctl.reloadSession = some sid && !inFile then []
      else lineRemoves s sid cmd
  | .reloadLine _ cmd =>
    match s.ctl.reloadSession with
    | none => []
    | some sid => if s.ctl.reloading then lineRemoves s sid cmd else []
  | .reloadEof =>
    if s.ctl.reloading then s.tuns.oldNonats fun g => FIRSTGEN ≤ g && g < s.ctl.lastgen else []
  | .sessionEof sid => s.ctl.closes s.tuns sid
  | _ => []

def Cmd.grows : Cmd → Bool
  | .deleteNat .. | .deletePrr .. | .deleteNonat .. | .deleteTunnel .. | .sessionClose _ => false
  | _ => true

/-- Whether a step may add entries; if not it may delete some. -/
def Event.grows : Event → Bool
  | .boot _ cmd | .line _ _ cmd | .reloadLine _ cmd => cmd.grows
  | .bootDone _ | .sessionEof _ | .reloadEof | .expireNat .. | .gcIncr .. => false
  | _ => true

section
variable {cfg : Conf} {m : Mode} {s : State}

/-! ### Static entries -/

theorem mem_chains {c : Control} {l : List NatEntry} : l ∈ c.chains ↔
    l = c.confnats ∨ (∃ ss ∈ c.sslist, ss.snats = l) ∨ ∃ ss ∈ c.orphans, ss.snats = l := by
  simp [Control.chains]

theorem chains_cons {c : Control} {n x : NatEntry} {l : List NatEntry}
    (hl : l ∈ ({ c with confnats := n :: c.confnats } : Control).chains) (hx : x ∈ l) :
    x = n ∨ ∃ l' ∈ c.chains, x ∈ l' := by
  rcases mem_chains.mp hl with rfl | h
  · rcases List.mem_cons.mp hx with h | h
    · exact .inl h
    · exact .inr ⟨_, mem_chains.mpr (.inl rfl), h⟩
  · exact .inr ⟨l, mem_chains.mpr (.inr h), hx⟩

theorem chains_addSnat {c : Control} {sid : ℕ} {n x : NatEntry} {l : List NatEntry}
    (hl : l ∈ (c.addSnat sid n).chains) (hx : x ∈ l) : x = n ∨ ∃ l' ∈ c.chains, x ∈ l' := by
  unfold Control.addSnat at hl
  split at hl
  · rcases mem_chains.mp hl with rfl | ⟨ss, hss, rfl⟩ | ⟨ss, hss, rfl⟩
    · exact .inr ⟨_, mem_chains.mpr (.inl rfl), hx⟩
    · obtain ⟨ss', hss', rfl⟩ := List.mem_map.mp hss
      split at hx
      · rcases List.mem_cons.mp hx with h | h
        · exact .inl h
        · exact .inr ⟨_, mem_chains.mpr (.inr (.inl ⟨ss', hss', rfl⟩)), h⟩
      · exact .inr ⟨_, mem_chains.mpr (.inr (.inl ⟨ss', hss', rfl⟩)), hx⟩
    · exact .inr ⟨_, mem_chains.mpr (.inr (.inr ⟨ss, hss, rfl⟩)), hx⟩
  · exact chains_cons hl hx

theorem chains_promote {c : Control} {n x : NatEntry} {l : List NatEntry}
    (hl : l ∈ (c.promote n).chains) (hx : x ∈ l) : x = n ∨ ∃ l' ∈ c.chains, x ∈ l' := by
  rcases chains_cons hl hx with h | ⟨l', hl', h⟩
  · exact .inl h
  · split at hl'
    · exact .inr (chains_listRemove hl' h).2
    · exact .inr ⟨l', hl', h⟩

/-- What `add_snat0` and `add_prr` give a new entry. -/
structure StaticKey (key : NatEntry) : Prop where
  flags : key.flags = { allDst := true, matchPort := true } ∨
    key.flags = { allDst := true, prrNull := true, matchPort := true } ∧
      key.nsrc = key.src ∧ key.nport = key.sport
  peer : key.dst = 0 ∧ key.dport = 0

theorem linkStatic_moves (sid : ℕ) {key : NatEntry} (hm : m.grow = true) (hkey : StaticKey key)
    {i : ℕ} (hpool : s.ports.findPool key.nsrc = some i)
    (hport : Ports.inRange (s.ports.pool i) key.proto key.nport = false)
    (ht : ∃ u ∈ s.tuns.live, u.ptr = key.tunnel ∧ s.tuns.nonat key.tunnel = none) :
    Moves cfg m s (linkStatic sid key s).1 := by
  unfold linkStatic
  dsimp only
  set n : NatEntry := { key with ptr := s.nats.next }
  rcases hl : s.nats.alloc.link n.proto n with ⟨nats, _ | _⟩
  · exact unlinked_moves (n := n) rfl hl
  · obtain ⟨hlinks, hheap, hx, -⟩ := link_true (n := n) rfl hl
    have hcopy := hlinks.copy
      (b := { nats with generation := Function.update nats.generation n.ptr s.ctl.curgen }.count
        n.tunnel n.proto) rfl rfl rfl rfl rfl rfl rfl
    refine .single (.link hm hcopy (hcopy.known ?_ ?_ ?_) rfl rfl
      (.static i hpool hport hkey.flags hkey.peer ht))
    · intro x hx'
      exact .inr (.of_heap (hheap ▸ hx'))
    · intro p x hx'
      exact .inr (.of_xlist (p := p) (hx ▸ hx'))
    · intro l hl x hx'
      exact (chains_addSnat hl hx').imp id fun ⟨l', hl', h⟩ => .of_chain hl' h

theorem lookupOrAdd_found (cfg : Conf) (env : NatEnv) (peer : Addr6) (src : Option ℕ)
    (s : State) : Found s (lookupOrAdd cfg env peer src s).1
      (lookupOrAdd cfg env peer src s).2 := by
  have h := lookup_found s peer
  unfold lookupOrAdd
  rcases hlk : s.tuns.tunnelLookup peer with ⟨tuns, _ | t⟩ <;> rw [hlk] at h
  · exact ((addStdtunnel_found cfg env peer src { s with tuns := tuns }).after h.1).found
  · exact h

theorem addStatic_moves (hok : s.tuns.Ok) (env : NatEnv) (sid : ℕ) (peer : Addr6)
    (on : Option ℕ) {key : NatEntry} (hm : m.grow = true) (hkey : StaticKey key) :
    Moves cfg m s (addStatic cfg env sid peer on key s).1 := by
  unfold addStatic
  split
  · exact .refl s
  rename_i i hpool
  split
  · exact .refl s
  rename_i hport
  rw [Bool.not_eq_true] at hport
  have h := lookupOrAdd_found cfg env peer on s
  rcases hr : lookupOrAdd cfg env peer on s with ⟨s', _ | t⟩ <;> rw [hr] at h
  · exact h.1.moves
  obtain ⟨hq, hlive⟩ := h
  dsimp only at hq hlive ⊢
  split
  · exact hq.moves
  rename_i hn
  have hnonat : s'.tuns.nonat t.ptr = none := by
    cases hc : s'.tuns.nonat t.ptr with
    | none => rfl
    | some a => simp [hc] at hn
  refine hq.moves.trans (linkStatic_moves sid hm ⟨hkey.flags, hkey.peer⟩ (i := i) ?_ ?_
    ⟨t, hlive t rfl hok, rfl, hnonat⟩)
  · rw [hq.ports]
    exact hpool
  · rw [hq.ports]
    exact hport

theorem snatKey_static (tcp : Bool) (src sport nsrc nport : ℕ) :
    StaticKey (snatKey tcp src sport nsrc nport) := ⟨.inl rfl, rfl, rfl⟩

theorem prrKey_static (tcp : Bool) (src sport : ℕ) : StaticKey (prrKey tcp src sport) :=
  ⟨.inr ⟨rfl, rfl, rfl⟩, rfl, rfl⟩

theorem splayFindExact_quiet (key : NatEntry) (s : State) : Quiet s (splayFindExact key s).1 :=
  natSplayFind_quiet s key.proto key 0 s.ctl.lastgen true true

theorem splayFindExact_some {key n : NatEntry} (h : (splayFindExact key s).2 = some n) :
    n ∈ s.nats.splay (key.tunnel, key.proto) ∧ natSplayCompareAbs key n = 0 :=
  find_some (natSplayFind_snd h)

theorem splayFindExact_known {key n : NatEntry} (h : (splayFindExact key s).2 = some n) :
    Known (splayFindExact key s).1 n := by
  refine .of_splay (k := (key.tunnel, key.proto)) ?_
  rw [(splayFindExact_quiet key s).nats.splay]
  exact (splayFindExact_some h).1

theorem trySnat_moves (hok : s.tuns.Ok) (env : NatEnv) (sid : ℕ) (peer : Addr6) (tcp : Bool)
    (src sport nsrc nport : ℕ) (acl : Bool) (hm : m.grow = true) :
    Moves cfg m s (trySnat cfg env sid peer tcp src sport nsrc nport acl s).1 := by
  unfold trySnat
  split
  · exact .refl s
  have h := lookup_quiet s peer
  rcases hlk : s.tuns.tunnelLookup peer with ⟨tuns, _ | t⟩ <;> rw [hlk] at h
  · exact h.moves
  dsimp only at h ⊢
  split
  · exact h.moves
  refine h.moves.trans ?_
  have hs := splayFindExact_quiet { snatKey tcp src sport nsrc nport with tunnel := t.ptr }
    { s with tuns := tuns }
  rcases hr : splayFindExact { snatKey tcp src sport nsrc nport with tunnel := t.ptr }
    { s with tuns := tuns } with ⟨s', _ | n⟩ <;> rw [hr] at hs
  · exact hs.moves.trans (addStatic_moves ((hok.grows h.tuns).grows hs.tuns) env sid peer _ hm
      (snatKey_static ..))
  · exact hs.moves

theorem promote_quiet {n : NatEntry} (hk : Known s n) :
    Quiet s { s with ctl := s.ctl.promote n } :=
  .of_ctl fun _ hl _ hx => (chains_promote hl hx).elim (fun h => h ▸ hk)
    fun ⟨_, hl', h⟩ => .of_chain hl' h

/-- What is known depends on neither generations nor tunnels. -/
theorem Known.of_generation {n : NatEntry} (h : Known s n) (gen : ℕ → ℕ) (tuns : Tunnels) :
    Known { s with tuns := tuns, nats := { s.nats with generation := gen } } n := h

theorem generation_quiet (s : State) (gen : ℕ → ℕ) :
    Quiet s { s with nats := { s.nats with generation := gen } } :=
  .of_nats ⟨fun _ => rfl, fun _ => rfl, rfl, rfl, rfl, rfl, Nat.le_refl _⟩
    (fun _ hn => .of_heap hn) fun _ _ hn => .of_xlist hn

theorem reloadStatic_moves (hok : s.tuns.Ok) (peer : Addr6) (key : NatEntry)
    (add : State → State × Option NatEntry)
    (hadd : ∀ s' : State, s'.tuns.Ok → Moves cfg m s' (add s').1) :
    Moves cfg m s (reloadStatic peer key add s).1 := by
  unfold reloadStatic
  have h := lookup_quiet s peer
  rcases hlk : s.tuns.tunnelLookup peer with ⟨tuns, _ | t⟩ <;> rw [hlk] at h
  · exact h.moves.trans (hadd _ (hok.grows h.tuns))
  dsimp only at h ⊢
  split
  · exact h.moves
  refine h.moves.trans ?_
  have hs := splayFindExact_quiet { key with tunnel := t.ptr } { s with tuns := tuns }
  have hk := @splayFindExact_known { s with tuns := tuns } { key with tunnel := t.ptr }
  rcases hr : splayFindExact { key with tunnel := t.ptr } { s with tuns := tuns } with
    ⟨s', _ | n⟩ <;> rw [hr] at hs hk
  · exact hs.moves.trans (hadd _ ((hok.grows h.tuns).grows hs.tuns))
  dsimp only at hs hk ⊢
  refine hs.moves.trans ?_
  split
  · exact .refl s'
  split
  · exact (promote_quiet (hk rfl)).moves.trans (generation_quiet _ _).moves
  · exact (generation_quiet _ _).moves

theorem delStatic_moves (seconds : ℕ) (peer : Addr6) (key : NatEntry) (ok : NatEntry → Bool)
    (hm : m.grow = false) (s : State) :
    Moves cfg m s (delStatic cfg seconds peer key ok s).1 := by
  unfold delStatic
  have h := lookup_quiet s peer
  rcases hlk : s.tuns.tunnelLookup peer with ⟨tuns, _ | t⟩ <;> rw [hlk] at h
  · exact h.moves
  dsimp only at h ⊢
  split
  · exact h.moves
  refine h.moves.trans ?_
  have hs := splayFindExact_quiet { key with tunnel := t.ptr } { s with tuns := tuns }
  have hk := @splayFindExact_known { s with tuns := tuns } { key with tunnel := t.ptr }
  rcases hr : splayFindExact { key with tunnel := t.ptr } { s with tuns := tuns } with
    ⟨s', _ | n⟩ <;> rw [hr] at hs hk
  · exact hs.moves
  dsimp only at hs hk ⊢
  refine hs.moves.trans ?_
  split
  · exact .single (.del (c := s'.ctl) hm seconds (hk rfl) fun l hl x hx => .of_chain hl hx)
  · exact .refl s'

/-! ### Deletion of a tunnel -/

theorem del_moves (hm : m.grow = false) (seconds : ℕ) {n : NatEntry} (hk : Known s n) :
    Moves cfg m s (delNat cfg seconds n s) :=
  .single (.del (c := s.ctl) hm seconds hk fun _ hl _ hx => .of_chain hl hx)

variable (cfg) in
theorem delRoots_moves (hm : m.grow = false) (seconds t : ℕ) (pr : Pr) (k : ℕ) (s : State) :
    Moves cfg m s (delRoots cfg seconds t pr k s) := by
  induction k generalizing s with
  | zero => exact .refl s
  | succ k ih =>
    unfold delRoots
    split
    · exact .refl s
    · rename_i n l r hroot
      have hk : Known s n := .of_splay (k := (t, pr)) (by simp [Nats.splay, hroot])
      exact (del_moves hm seconds hk).trans (ih _)

theorem delRoots_same (cfg : Conf) (seconds t : ℕ) (pr : Pr) (k : ℕ) (s : State) :
    (delRoots cfg seconds t pr k s).tuns = s.tuns ∧
      (delRoots cfg seconds t pr k s).ports.avail = s.ports.avail := by
  induction k generalizing s with
  | zero => exact ⟨rfl, rfl⟩
  | succ k ih =>
    unfold delRoots
    split
    · exact ⟨rfl, rfl⟩
    · rename_i n l r hroot
      obtain ⟨h1, h2⟩ := ih (delNat cfg seconds n s)
      refine ⟨h1, h2.trans ?_⟩
      change (s.ports.release _ _ _).avail = _
      unfold Ports.release
      split
      · rfl
      · split <;> rfl

/-- Deleting the roots empties a sorted tree. -/
theorem delRoots_empty (hl : Linked s) (ho : s.Ordered) (seconds t : ℕ) (pr : Pr) {k : ℕ}
    (hk : (s.nats.splay (t, pr)).length ≤ k) :
    (delRoots cfg seconds t pr k s).nats.splay (t, pr) = [] := by
  induction k generalizing s with
  | zero => exact List.eq_nil_of_length_eq_zero (Nat.le_zero.mp hk)
  | succ k ih =>
    unfold delRoots
    split
    · rename_i hroot
      simp [Nats.splay, hroot]
    · rename_i n l r hroot
      have hn : n ∈ s.nats.splay (t, pr) := by simp [Nats.splay, hroot]
      have hkn : Known s n := .of_splay hn
      have hplace := hl.place _ _ hn
      have hmono : (delNat cfg seconds n s).nats.live ⊆ s.nats.live :=
        fun x hx => (delNat_list_sublist x.proto).mem hx
      refine ih (hl.delNat ho hkn seconds) (ho.mono hmono) ?_
      rw [delNat_splay, if_pos hplace, ← hplace]
      have hlen := (hl.removed ho (hl.live n hkn)).2.perm.length_eq
      rw [← hplace, List.length_cons] at hlen
      omega

/-- A sequence that adds nothing leaves an empty tree empty. -/
theorem Base.moves_empty {s' : State} (hb : Base s) (h : Moves cfg m s s') (hm : m.grow = false)
    {k : ℕ × Pr} (h0 : s.nats.splay k = []) : s'.nats.splay k = [] := by
  induction h with
  | refl => exact h0
  | tail h hmove ih =>
    rcases (hb.moves h).effect hmove with he | ⟨n, hm', -⟩ | ⟨n, c, seconds, -, -, -, rfl⟩
    · rw [he.splay, ih]
    · simp [hm] at hm'
    · exact List.sublist_nil.mp (ih ▸ delNat_splay_sublist k)

theorem emptyBucket_avail (t i : ℕ) (pr : Pr) (k : ℕ) (p : Ports) :
    (p.emptyBucket t i pr k).avail = Function.update p.avail (t, pr) 0 := by
  induction k generalizing p with
  | zero => rfl
  | succ k ih =>
    unfold Ports.emptyBucket
    rw [ih]
    unfold Ports.setFree
    split <;> rfl

variable (cfg) in
theorem clearTunnel_moves (hm : m.grow = false) (seconds : ℕ) {t : ℕ} (pr : Pr)
    (ht : ∃ u ∈ s.tuns.live, u.ptr = t ∧ s.tuns.nonat t = none) :
    Moves cfg m s (clearTunnel cfg seconds t s pr) ∧
      (clearTunnel cfg seconds t s pr).tuns = s.tuns ∧
      (clearTunnel cfg seconds t s pr).ports.avail =
        Function.update s.ports.avail (t, pr) 0 := by
  unfold clearTunnel
  dsimp only
  have hmoves := delRoots_moves cfg hm seconds t pr
    (toList (s.nats.root (t, pr))).length s
  obtain ⟨htuns, havail⟩ := delRoots_same cfg seconds t pr (toList (s.nats.root (t, pr))).length s
  generalize delRoots cfg seconds t pr _ s = s' at hmoves htuns havail ⊢
  refine ⟨hmoves.trans (.single (.ports (.empty t pr (.inl ?_)))), htuns, ?_⟩
  · rw [htuns]
    exact ht
  · rw [emptyBucket_avail, havail]

variable (cfg) in
theorem clearTunnel_empty (hl : Linked s) (ho : s.Ordered) (seconds t : ℕ) (pr : Pr) :
    (clearTunnel cfg seconds t s pr).nats.splay (t, pr) = [] :=
  delRoots_empty hl ho seconds t pr (Nat.le_refl _)

theorem delTunnel_moves (hm : m.grow = false) (hok : s.tuns.Ok) (seconds : ℕ) (peer : Addr6)
    (hg : ∀ p ∈ (Cmd.deleteTunnel peer).removes s, m.gone p)
    (hc : m.clean → Linked s ∧ s.Ordered) :
    Moves cfg m s (delTunnel cfg seconds peer s).1 := by
  unfold delTunnel
  have h := lookup_found s peer
  have hfind := hok.tunnelLookup peer
  have hnonat := (tunnelLookup_rest s.tuns peer).1
  rcases hlk : s.tuns.tunnelLookup peer with ⟨tuns, _ | t⟩ <;> rw [hlk] at h hfind hnonat
  · exact h.1.moves
  obtain ⟨hq, hlive⟩ := h
  dsimp only at hq hlive hfind hnonat ⊢
  split
  · exact hq.moves
  rename_i hsome
  have hnone : tuns.nonat t.ptr = none := by
    cases hx : tuns.nonat t.ptr with
    | none => rfl
    | some a => simp [hx] at hsome
  set s₀ : State := { s with tuns := tuns }
  have hstd : ∀ s' : State, s'.tuns = tuns →
      ∃ u ∈ s'.tuns.live, u.ptr = t.ptr ∧ s'.tuns.nonat t.ptr = none := by
    intro s' hs'
    rw [hs']
    exact ⟨t, hlive t rfl hok, rfl, hnone⟩
  obtain ⟨hm₁, ht₁, ha₁⟩ := clearTunnel_moves cfg hm seconds .tcp (hstd s₀ rfl)
  set s₁ := clearTunnel cfg seconds t.ptr s₀ .tcp with hs₁
  obtain ⟨hm₂, ht₂, ha₂⟩ := clearTunnel_moves cfg hm seconds .udp (hstd s₁ ht₁)
  set s₂ := clearTunnel cfg seconds t.ptr s₁ .udp with hs₂
  obtain ⟨hm₃, ht₃, ha₃⟩ := clearTunnel_moves cfg hm seconds .icmp
    (hstd s₂ (ht₂.trans ht₁))
  set s₃ := clearTunnel cfg seconds t.ptr s₂ .icmp with hs₃
  have htuns : s₃.tuns = tuns := ht₃.trans (ht₂.trans ht₁)
  have hgone : m.gone t.ptr := by
    refine hg t.ptr ?_
    simp [Cmd.removes, ← hfind, ← hnonat, hnone]
  refine hq.moves.trans (hm₁.trans (hm₂.trans (hm₃.trans (.single (.removeTunnel (s := s₃) hm
    hgone ?_ ?_ ?_ ?_)))))
  · rw [htuns]
    exact hlive t rfl hok
  · rw [htuns]
    exact hnone
  · intro hclean pr
    obtain ⟨hl, ho⟩ := hc hclean
    -- each tree is emptied while the state is linked, and stays empty
    have hmono : ∀ s', Moves cfg m s s' → s'.Ordered :=
      fun s' h => ho.mono (hl.toBase.moves_shrink h hm)
    have hlinked : ∀ s', Moves cfg m s s' → Linked s' :=
      fun s' h => hl.moves h hclean ho (hmono s' h)
    have h₀ : Moves cfg m s s₀ := hq.moves
    have h₁ := h₀.trans hm₁
    have h₂ := h₁.trans hm₂
    have e₁ := clearTunnel_empty cfg (hlinked s₀ h₀) (hmono s₀ h₀) seconds t.ptr .tcp
    have e₂ := clearTunnel_empty cfg (hlinked s₁ h₁) (hmono s₁ h₁) seconds t.ptr .udp
    have e₃ := clearTunnel_empty cfg (hlinked s₂ h₂) (hmono s₂ h₂) seconds t.ptr .icmp
    rw [← hs₁] at e₁
    rw [← hs₂] at e₂
    rw [← hs₃] at e₃
    cases pr with
    | tcp => exact (hlinked s₁ h₁).toBase.moves_empty (hm₂.trans hm₃) hm e₁
    | udp => exact (hlinked s₂ h₂).toBase.moves_empty hm₃ hm e₂
    | icmp => exact e₃
  · intro pr
    rw [ha₃, ha₂, ha₁]
    cases pr <;> simp

/-! ### No-NAT entries, sessions, collectors -/

theorem addNonat_quiet (env : NatEnv) (peer : Addr6) (addr plen : ℕ) (s : State) :
    Quiet s (addNonat cfg env peer addr plen s).1 := by
  unfold addNonat
  split
  · exact .refl s
  rcases addTunnel_cases cfg (env.after 1) peer s.tuns with h | ⟨t, tree, hp, hins, h⟩
  · rw [h]
    exact lookup_quiet s peer
  · rw [h]
    refine (?_ : Found s _ (some t)).1
    exact added_found ⟨hins, hp, rfl, rfl, rfl, rfl, rfl, .inr ⟨⟨_, rfl⟩, rfl, rfl⟩⟩

theorem ngeneration_core (s : Tunnels) (gen : ℕ → ℕ) :
    Tunnels.SameCore s { s with ngeneration := gen } :=
  ⟨rfl, rfl, rfl, rfl, rfl, rfl, rfl, rfl, rfl⟩

theorem reloadNonat_quiet (env : NatEnv) (peer : Addr6) (addr plen : ℕ) (s : State) :
    Quiet s (reloadNonat cfg env peer addr plen s).1 := by
  unfold reloadNonat
  have h := lookup_quiet s peer
  rcases hlk : s.tuns.tunnelLookup peer with ⟨tuns, _ | t⟩ <;> rw [hlk] at h
  · exact h.trans (addNonat_quiet env peer addr plen _)
  dsimp only at h ⊢
  split
  · exact h.trans (.of_core (ngeneration_core tuns _))
  · exact h

theorem delNonat_moves (hm : m.grow = false) (hok : s.tuns.Ok) (peer : Addr6)
    (hg : ∀ p ∈ (Cmd.deleteNonat peer).removes s, m.gone p) :
    Moves cfg m s (delNonat peer s).1 := by
  unfold delNonat
  have h := lookup_quiet s peer
  have hfind := hok.tunnelLookup peer
  have hnonat := (tunnelLookup_rest s.tuns peer).1
  rcases hlk : s.tuns.tunnelLookup peer with ⟨tuns, _ | t⟩ <;> rw [hlk] at h hfind hnonat
  · exact h.moves
  dsimp only at h hfind hnonat ⊢
  split
  · rename_i hc
    obtain ⟨hsome, hmem⟩ := Bool.and_eq_true_iff.mp hc
    have hgone : m.gone t.ptr := by
      refine hg t.ptr ?_
      rw [hnonat] at hsome
      simp [Cmd.removes, ← hfind, hsome]
    exact h.moves.trans (.single (.removeNonat (s := { s with tuns := tuns }) hm hgone
      (of_decide_eq_true hmem) hsome))
  · exact h.moves

theorem setTunnel_quiet (peer : Addr6) (set' : Tunnel → Tunnels → Tunnels)
    (hset : ∀ t tuns, Tunnels.SameCore tuns (set' t tuns)) (s : State) :
    Quiet s (setTunnel peer set' s).1 := by
  unfold setTunnel
  have h := lookup_quiet s peer
  rcases hlk : s.tuns.tunnelLookup peer with ⟨tuns, _ | t⟩ <;> rw [hlk] at h
  · exact h
  · exact h.trans (.of_core (hset t tuns))

/-- A collector removes the no-NAT tunnels of its generation and no others. -/
theorem gcNonats_moves (hm : m.grow = false) (old : ℕ → Bool)
    (hg : ∀ p ∈ s.tuns.oldNonats old, m.gone p)
    (hmem : ∀ t ∈ s.tuns.nonats, (s.tuns.nonat t.ptr).isSome = true) :
    Moves cfg m s { s with tuns := gcNonats old s.tuns } := by
  have hloop : ∀ (l : List Tunnel) (tuns : Tunnels), (∀ t ∈ l, t ∈ s.tuns.nonats) →
      tuns.ngeneration = s.tuns.ngeneration →
      (∀ t ∈ l, (tuns.nonat t.ptr).isSome = true → t ∈ tuns.nonats) →
      Moves cfg m { s with tuns := tuns } { s with
        tuns := l.foldl (fun tuns t =>
          if (tuns.nonat t.ptr).isSome && old (tuns.ngeneration t.ptr) then tuns.removeNonat t
          else tuns) tuns } := by
    intro l
    induction l with
    | nil => exact fun tuns _ _ _ => .refl _
    | cons t l ih =>
      intro tuns hl hgen hin
      rw [List.foldl_cons]
      have hrest := fun u hu => hl u (List.mem_cons_of_mem t hu)
      split
      · rename_i hc
        obtain ⟨hsome, hold⟩ := Bool.and_eq_true_iff.mp hc
        have htn := hl t (List.mem_cons_self ..)
        have hgone : m.gone t.ptr := by
          refine hg t.ptr (List.mem_map.mpr ⟨t, List.mem_filter.mpr ⟨htn, ?_⟩, rfl⟩)
          rw [hmem t htn, ← hgen, hold]
          rfl
        refine Moves.trans (.single (.removeNonat (s := { s with tuns := tuns }) hm hgone
          (hin t (List.mem_cons_self ..) hsome) hsome)) (ih _ hrest hgen ?_)
        intro u hu hus
        simp only [Tunnels.removeNonat, Tunnels.removeTunnel, Function.update_apply] at hus ⊢
        split at hus
        · simp at hus
        · rename_i hne
          exact List.mem_filter.mpr ⟨hin u (List.mem_cons_of_mem t hu) hus, decide_eq_true hne⟩
      · exact ih tuns hrest hgen fun u hu => hin u (List.mem_cons_of_mem t hu)
  exact hloop s.tuns.nonats s.tuns (fun t ht => ht) rfl fun t ht _ => ht

theorem Tunnels.Ok.nonat_some {s : Tunnels} (hok : s.Ok) :
    ∀ t ∈ s.nonats, (s.nonat t.ptr).isSome = true :=
  fun t ht => (hok.nonat_iff t (hok.nonats t ht)).mpr ht

/-- A session that is closed leaves the list and becomes an orphan. -/
theorem gcSession_moves (hm : m.grow = false) (hok : s.tuns.Ok) {ss : Sess} {c : Control}
    (hc : ∀ l ∈ c.chains, l ∈ s.ctl.chains) (hss : ss.snats ∈ s.ctl.chains)
    (hg : ∀ p ∈ s.tuns.oldNonats (· = ss.generation), m.gone p) :
    Moves cfg m s (gcSession ss { s with ctl := c }) := by
  unfold gcSession
  refine (gcNonats_moves hm _ hg hok.nonat_some).trans ((Quiet.trans (generation_quiet _ _)
    (.of_ctl ?_)).moves)
  intro l hl x hx
  have hchain : l ∈ s.ctl.chains := by
    rcases mem_chains.mp hl with rfl | ⟨ss', hss', rfl⟩ | ⟨ss', hss', rfl⟩
    · exact hc _ (mem_chains.mpr (.inl rfl))
    · exact hc _ (mem_chains.mpr (.inr (.inl ⟨ss', hss', rfl⟩)))
    · rcases List.mem_cons.mp hss' with rfl | hss'
      · exact hss
      · exact hc _ (mem_chains.mpr (.inr (.inr ⟨ss', hss', rfl⟩)))
  exact .of_chain hchain hx

/-- Sessions may change in all but their chains. -/
theorem ctl_quiet {c : Control} (h : ∀ l ∈ c.chains, l ∈ s.ctl.chains) :
    Quiet s { s with ctl := c } := .of_ctl fun l hl _ hx => .of_chain (h l hl) hx

theorem chains_setSess (c : Control) (sid : ℕ) (f : Sess → Sess)
    (hf : ∀ ss, (f ss).snats = ss.snats) : (c.setSess sid f).chains = c.chains := by
  simp only [Control.chains, Control.setSess, List.map_append, List.map_map]
  congr 3
  funext ss
  simp only [Function.comp_apply]
  split
  · exact hf ss
  · rfl

theorem session_mem {c : Control} {sid : ℕ} {ss : Sess} (h : c.session sid = some ss) :
    ss ∈ c.sslist := List.mem_of_find?_eq_some h

theorem chains_filter (c : Control) (keep : Sess → Bool) :
    ∀ l ∈ ({ c with sslist := c.sslist.filter keep } : Control).chains, l ∈ c.chains := by
  intro l hl
  rcases mem_chains.mp hl with rfl | ⟨ss, hss, rfl⟩ | h
  · exact mem_chains.mpr (.inl rfl)
  · exact mem_chains.mpr (.inr (.inl ⟨ss, (List.mem_filter.mp hss).1, rfl⟩))
  · exact mem_chains.mpr (.inr (.inr h))

theorem sessionClose_moves (hm : m.grow = false) (hok : s.tuns.Ok) (sid : ℕ)
    (hg : ∀ p ∈ s.ctl.closes s.tuns sid, m.gone p) :
    Moves cfg m s (sessionClose sid s).1 := by
  unfold sessionClose
  simp only [Control.closes] at hg
  cases hs : s.ctl.session sid with
  | none => exact .refl s
  | some ss =>
    rw [hs] at hg
    dsimp only at hg ⊢
    split
    · exact .refl s
    rename_i hlock
    rw [if_neg hlock] at hg
    exact gcSession_moves hm hok (chains_filter s.ctl _)
      (mem_chains.mpr (.inr (.inl ⟨ss, session_mem hs, rfl⟩))) hg

theorem gcReload_moves (hm : m.grow = false) (hok : s.tuns.Ok) {c : Control}
    (hc : ∀ l ∈ c.chains, l ∈ s.ctl.chains)
    (hg : ∀ p ∈ s.tuns.oldNonats (fun g => FIRSTGEN ≤ g && g < c.lastgen), m.gone p) :
    Moves cfg m s (gcReload { s with ctl := c }) := by
  unfold gcReload
  exact (gcNonats_moves hm _ hg hok.nonat_some).trans (Quiet.moves (.of_ctl
    fun l hl _ hx => .of_chain (hc l hl) hx))

theorem btReload_quiet {c : Control} (hc : ∀ l ∈ c.chains, l ∈ s.ctl.chains) :
    Quiet s (btReload { s with ctl := c }) := by
  unfold btReload
  exact (Quiet.of_core (ngeneration_core s.tuns _)).trans (.of_ctl
    fun l hl _ hx => .of_chain (hc l hl) hx)

theorem chains_elim (c : Control) (sid : Option ℕ) (f : Sess → Sess)
    (hf : ∀ ss, (f ss).snats = ss.snats) :
    (sid.elim c fun sid => c.setSess sid f).chains = c.chains := by
  cases sid with
  | none => rfl
  | some sid => exact chains_setSess c sid f hf

theorem reloadFinish_moves (backtrack : Bool) (hm : backtrack = false → m.grow = false)
    (hok : s.tuns.Ok) (hg : backtrack = false →
      ∀ p ∈ s.tuns.oldNonats (fun g => FIRSTGEN ≤ g && g < s.ctl.lastgen), m.gone p) :
    Moves cfg m s (reloadFinish backtrack s) := by
  unfold reloadFinish
  dsimp only
  set restore : Sess → Sess := fun ss =>
    { ss with sec := s.ctl.reloadSavedsec, locked := s.ctl.reloadSavedloc }
  have hchains := chains_elim s.ctl s.ctl.reloadSession restore fun _ => rfl
  have hlast : (s.ctl.reloadSession.elim s.ctl fun sid => s.ctl.setSess sid restore).lastgen
      = s.ctl.lastgen := by
    cases s.ctl.reloadSession <;> rfl
  generalize (s.ctl.reloadSession.elim s.ctl fun sid => s.ctl.setSess sid restore) = c at hchains hlast ⊢
  split
  · exact (btReload_quiet fun l hl => hchains ▸ hl).moves
  · rename_i hb
    rw [Bool.not_eq_true] at hb
    refine gcReload_moves (hm hb) hok (fun l hl => hchains ▸ hl) ?_
    dsimp only
    rw [hlast]
    exact hg hb

end

end WanStack.Aftr
