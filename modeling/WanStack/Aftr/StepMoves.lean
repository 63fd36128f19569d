import WanStack.Aftr.CommandMoves

set_option autoImplicit false

/-!
# Steps as moves

Every step of a run is a sequence of moves in the mode of its event.
-/
namespace WanStack.Aftr
open SearchTree Relation

section
variable {cfg : Conf} {m : Mode} {s : State}

theorem setSess_quiet {c : Control} (hc : c.chains = s.ctl.chains) (sid : ℕ) {f : Sess → Sess}
    (hf : ∀ ss, (f ss).snats = ss.snats) : Quiet s { s with ctl := c.setSess sid f } := by
  refine ctl_quiet fun l hl => ?_
  rw [chains_setSess c sid f hf, hc] at hl
  exact hl

theorem sessionNextgen_lists (k : ℕ) (c : Control) :
    (sessionNextgen k c).1.chains = c.chains := by
  induction k generalizing c with
  | zero => rfl
  | succ k ih =>
    unfold sessionNextgen
    dsimp only
    split
    · exact ih _
    · split
      · exact ih _
      · rfl

theorem sessionOpen_quiet (s : State) : Quiet s { s with ctl := sessionOpen s.ctl } := by
  refine .of_ctl fun l hl x hx => ?_
  have hchains := sessionNextgen_lists 20 s.ctl
  unfold sessionOpen at hl
  generalize sessionNextgen 20 s.ctl = r at hchains hl
  have hmem : l = [] ∨ l ∈ r.1.chains := by
    rcases mem_chains.mp hl with rfl | ⟨ss, hss, rfl⟩ | h
    · exact .inr (mem_chains.mpr (.inl rfl))
    · rcases List.mem_cons.mp hss with rfl | hss
      · exact .inl rfl
      · exact .inr (mem_chains.mpr (.inr (.inl ⟨ss, hss, rfl⟩)))
    · exact .inr (mem_chains.mpr (.inr (.inr h)))
  rcases hmem with rfl | h
  · simp at hx
  · exact .of_chain (hchains ▸ h) hx

theorem reloadConf_quiet (sid : ℕ) (s : State) : Quiet s (reloadConf sid s) := by
  unfold reloadConf
  refine setSess_quiet ?_ sid ?_
  · rfl
  · intro ss
    rfl

theorem execute_moves (hok : s.tuns.Ok) (env : NatEnv) (sid : ℕ) (cmd : Cmd)
    (hm : m.grow = cmd.grows) (hg : ∀ p ∈ cmd.removes s, m.gone p)
    (hc : m.clean → Linked s ∧ s.Ordered) :
    Moves cfg m s (execute cfg env sid s cmd).1 := by
  have hsnat : m.grow = true → ∀ peer tcp src sport nsrc nport, ∀ s' : State, s'.tuns.Ok →
      Moves cfg m s' (addSnat0 cfg env sid peer tcp src sport nsrc nport s').1 :=
    fun hm peer tcp src sport nsrc nport s' hok' =>
      addStatic_moves hok' env sid peer _ hm (snatKey_static tcp src sport nsrc nport)
  have hprr : m.grow = true → ∀ peer tcp src sport, ∀ s' : State, s'.tuns.Ok →
      Moves cfg m s' (addPrr cfg env sid peer tcp src sport s').1 :=
    fun hm peer tcp src sport s' hok' =>
      addStatic_moves hok' env sid peer _ hm (prrKey_static tcp src sport)
  cases cmd with
  | pool => exact .refl s
  | nat peer tcp src sport nsrc nport =>
    simp only [execute]
    split
    · exact reloadStatic_moves hok peer _ _ (hsnat hm peer tcp src sport nsrc nport)
    · exact hsnat hm peer tcp src sport nsrc nport s hok
  | prr peer tcp src sport =>
    simp only [execute]
    split
    · exact reloadStatic_moves hok peer _ _ (hprr hm peer tcp src sport)
    · exact hprr hm peer tcp src sport s hok
  | nonat peer addr plen =>
    simp only [execute]
    split
    · exact (reloadNonat_quiet env peer addr plen s).moves
    · exact (addNonat_quiet env peer addr plen s).moves
  | tunnel peer src =>
    simp only [execute]
    split
    · unfold reloadTunnel
      have h := lookup_quiet s peer
      rcases hlk : s.tuns.tunnelLookup peer with ⟨tuns, _ | t⟩ <;> rw [hlk] at h
      · exact (h.trans (addStdtunnel_found cfg env peer src { s with tuns := tuns }).1).moves
      · exact h.moves
    · exact (addStdtunnel_found cfg env peer src s).1.moves
  | tryTunnel peer src acl =>
    simp only [execute]
    unfold tryTunnel
    have h := lookup_quiet s peer
    rcases hlk : s.tuns.tunnelLookup peer with ⟨tuns, _ | t⟩ <;> rw [hlk] at h
    · dsimp only
      split
      · exact (h.trans (addStdtunnel_found cfg env peer src { s with tuns := tuns }).1).moves
      · exact h.moves
    · exact h.moves
  | tryNat peer tcp src sport nsrc nport acl =>
    exact trySnat_moves hok env sid peer tcp src sport nsrc nport acl hm
  | deleteNat peer tcp src sport => exact delStatic_moves env.seconds peer _ _ hm s
  | deletePrr peer tcp src sport => exact delStatic_moves env.seconds peer _ _ hm s
  | deleteNonat peer => exact delNonat_moves hm hok peer hg
  | deleteTunnel peer => exact delTunnel_moves hm hok env.seconds peer hg hc
  | mtu peer mtu =>
    exact (setTunnel_quiet peer (setTunnelMtu mtu)
      (fun _ _ => ⟨rfl, rfl, rfl, rfl, rfl, rfl, rfl, rfl, rfl⟩) s).moves
  | toobig peer drop =>
    exact (setTunnel_quiet peer (setTunnelFlag drop)
      (fun _ _ => ⟨rfl, rfl, rfl, rfl, rfl, rfl, rfl, rfl, rfl⟩) s).moves
  | reload opened =>
    simp only [execute]
    split
    · exact .refl s
    · exact (reloadConf_quiet sid s).moves
  | sessionConfig on =>
    refine (setSess_quiet (s := s) (c := s.ctl) rfl sid ?_).moves
    intro ss
    rfl
  | sessionClose sid' => exact sessionClose_moves hm hok sid' hg
  | other sec => exact .refl s
  | bad => exact .refl s

theorem Linked.quiet (hl : Linked s) {s' : State} (h : Quiet s s') (ho : s.Ordered) :
    Linked s' ∧ s'.Ordered := by
  have hsteady : Steady s s' := ⟨h.nats.list, h.nats.splay, h.nats.next, h.known,
    fun hs => h.nats.nathashsz ▸ hs⟩
  have ho' : s'.Ordered := by
    rw [State.Ordered, hsteady.live]
    exact ho
  have hmove : Move {} ⟨true, fun _ => True, True⟩ s s' := .quiet h
  exact ⟨hl.move hmove trivial ho ho', ho'⟩

theorem closes_setSess (c : Control) (tuns : Tunnels) (sid sid' sec : ℕ) :
    (c.setSess sid fun ss => { ss with sec := sec }).closes tuns sid' = c.closes tuns sid' := by
  have hfind : (c.setSess sid fun ss => { ss with sec := sec }).session sid' =
      (c.session sid').map fun ss => if ss.id = sid then { ss with sec := sec } else ss := by
    simp only [Control.session, Control.setSess, List.find?_map]
    congr 2
    funext ss
    simp only [Function.comp_apply]
    split <;> rfl
  simp only [Control.closes, hfind]
  cases c.session sid' with
  | none => rfl
  | some ss =>
    simp only [Option.map_some]
    split <;> rfl

theorem removes_setSess (s : State) (sid sec : ℕ) (cmd : Cmd) :
    cmd.removes { s with ctl := s.ctl.setSess sid fun ss => { ss with sec := sec } } =
      cmd.removes s := by
  cases cmd <;> first | rfl | exact closes_setSess ..

variable (cfg) in
theorem cmdline_moves (hok : s.tuns.Ok) (env : NatEnv) (sid : ℕ) (cmd : Cmd)
    (hm : m.grow = cmd.grows) (hg : ∀ p ∈ lineRemoves s sid cmd, m.gone p)
    (hc : m.clean → Linked s ∧ s.Ordered) :
    Moves cfg m s (cmdline cfg env sid cmd s).1 := by
  unfold cmdline
  simp only [lineRemoves] at hg
  cases hs : s.ctl.session sid with
  | none => exact .refl s
  | some ss =>
    rw [hs] at hg
    dsimp only at hg ⊢
    cases hd : dispatch s.ctl.reloading cmd.sections ss.sec with
    | run sec =>
      rw [hd] at hg
      dsimp only at hg ⊢
      have hq : Quiet s { s with ctl := s.ctl.setSess sid fun ss => { ss with sec := sec } } :=
        setSess_quiet rfl sid fun _ => rfl
      refine hq.moves.trans (execute_moves (hok.grows hq.tuns) env sid cmd hm ?_ ?_)
      · rw [removes_setSess]
        exact hg
      · intro hclean
        obtain ⟨hl, ho⟩ := hc hclean
        exact hl.quiet hq ho
    | ignore => exact .refl s
    | wrong => exact .refl s

/-! ### Collection -/

theorem freeOrphans_chains {c : Control} : ∀ l ∈ (freeOrphans c).chains, l ∈ c.chains := by
  intro l hl
  rcases mem_chains.mp hl with rfl | h | ⟨ss, hss, rfl⟩
  · exact mem_chains.mpr (.inl rfl)
  · exact mem_chains.mpr (.inr (.inl h))
  · exact mem_chains.mpr (.inr (.inr ⟨ss, (List.dropWhile_sublist _).mem hss, rfl⟩))

theorem gcSeek_mem {n : NatEntry} (h : gcSeek s = some n) : n ∈ s.ctl.confnats := by
  unfold gcSeek at h
  split at h
  · cases h
  · exact (List.dropWhile_sublist _).mem (List.mem_of_find?_eq_some h)

/-- An orphan in front has entries left. -/
theorem freeOrphans_nil {c : Control}
    (h : (freeOrphans c).orphans.head?.bind (·.snats.head?) = none) : (freeOrphans c).orphans = [] := by
  have hhead : ∀ ss ∈ (freeOrphans c).orphans.head?, ss.snats.isEmpty = false := by
    intro ss hss
    have := List.head?_dropWhile_not (fun ss : Sess => ss.snats.isEmpty) c.orphans
    simp only [freeOrphans] at hss
    rw [Option.mem_def.mp hss] at this
    simpa using this
  cases ho : (freeOrphans c).orphans with
  | nil => rfl
  | cons ss os =>
    rw [ho] at h hhead
    have hne := hhead ss rfl
    cases hsn : ss.snats with
    | nil =>
      rw [hsn] at hne
      cases hne
    | cons n ns =>
      simp [hsn] at h

/-- What the parts of the loop of `gc_incr` keep, the loop keeps. -/
theorem gcIncr_keep {P : State → Prop} (seconds k : ℕ) (h0 : P s)
    (hfree : ∀ s, P s → P { s with ctl := freeOrphans s.ctl })
    (horphan : ∀ s n, P s → s.ctl.orphans.head?.bind (·.snats.head?) = some n →
      P (delNat cfg seconds n { s with ctl := s.ctl.listRemove n }))
    (hstart : ∀ s, P s → s.ctl.orphans = [] → P { s with ctl := gcStart s.ctl })
    (hdone : ∀ s, P s → s.ctl.orphans = [] → s.ctl.needgc ≤ 1 → gcSeek s = none →
      P { s with ctl := { s.ctl with gcPtr := none, needgc := 0 } })
    (hfile : ∀ s n, P s → s.ctl.needgc ≤ 1 → gcSeek s = some n → P (delNat cfg seconds n { s with
      ctl := { s.ctl with gcPtr := listNext n s.ctl.confnats }.listRemove n })) :
    P (gcIncr cfg seconds k s) := by
  induction k generalizing s with
  | zero => exact h0
  | succ k ih =>
    unfold gcIncr
    dsimp only
    have h₁ := hfree s h0
    split
    · rename_i n hn
      exact ih (horphan _ n h₁ hn)
    · rename_i hnone
      have ho : (freeOrphans s.ctl).orphans = [] := freeOrphans_nil hnone
      have h₂ := hstart _ h₁ ho
      have hgc : (gcStart (freeOrphans s.ctl)).needgc ≤ 1 := by
        unfold gcStart
        split
        · exact Nat.le_refl 1
        · omega
      have ho₂ : (gcStart (freeOrphans s.ctl)).orphans = [] := by
        unfold gcStart
        split <;> exact ho
      split
      · rename_i hseek
        exact hdone _ h₂ ho₂ hgc hseek
      · rename_i n hseek
        exact ih (hfile _ n h₂ hgc hseek)

theorem gcIncr_moves (hm : m.grow = false) (seconds k : ℕ) (s : State) :
    Moves cfg m s (gcIncr cfg seconds k s) := by
  have hdel (a : State) (n : NatEntry) (c : Control) (hk : Known a n)
      (hc : ∀ l ∈ c.chains, ∀ x ∈ l, ∃ l' ∈ a.ctl.chains, x ∈ l') :
      Moves cfg m a (delNat cfg seconds n { a with ctl := c }) :=
    .single (.del hm seconds hk fun l hl x hx => let ⟨_, hl', hx'⟩ := hc l hl x hx
      .of_chain hl' hx')
  refine gcIncr_keep seconds k (.refl s) ?_ ?_ ?_ ?_ ?_
  · exact fun a ha => ha.trans (ctl_quiet fun l hl => freeOrphans_chains l hl).moves
  · intro a n ha hn
    obtain ⟨ss, hss, hhead⟩ := Option.bind_eq_some_iff.mp hn
    refine ha.trans (hdel a n _ ?_ fun l hl x hx => (chains_listRemove hl hx).2)
    exact .of_chain (mem_chains.mpr (.inr (.inr ⟨ss, List.mem_of_head? hss, rfl⟩)))
      (List.mem_of_head? hhead)
  · intro a ha _
    refine ha.trans (ctl_quiet fun l hl => ?_).moves
    unfold gcStart at hl
    split at hl <;> exact hl
  · intro a ha _ _ _
    have hq : Quiet a { a with ctl := { a.ctl with gcPtr := none, needgc := 0 } } :=
      ctl_quiet fun l hl => hl
    exact ha.trans hq.moves
  · intro a n ha _ hseek
    refine ha.trans (hdel a n _ ?_ fun l hl x hx => (chains_listRemove hl hx).2)
    exact .of_chain (mem_chains.mpr (.inl rfl)) (gcSeek_mem hseek)

theorem btIncr_quiet (quantum : ℕ) (s : State) : Quiet s (btIncr quantum s) := by
  have hloop : ∀ k s', Quiet s' (btLoop k s') := by
    intro k
    induction k with
    | zero => exact fun s' => .refl s'
    | succ k ih =>
      intro s'
      unfold btLoop
      split
      · exact ctl_quiet fun l hl => hl
      · refine Quiet.trans ?_ (ih _)
        exact (generation_quiet s' _).trans (ctl_quiet (s := { s' with nats := _ }) fun l hl => hl)
  unfold btIncr
  refine Quiet.trans (ctl_quiet fun l hl => ?_) (hloop _ _)
  unfold btStart at hl
  split at hl <;> exact hl

/-! ### Steps -/

theorem Moves.tuns {s' : State} (h : Moves cfg m s s') (hok : s.tuns.Ok) : s'.tuns.Ok := by
  induction h with
  | refl => exact hok
  | tail _ hmove ih => exact hmove.tuns ih

theorem commandsDone_quiet (s : State) : Quiet s (commandsDone s) := by
  unfold commandsDone
  split
  · exact .refl s
  · exact ctl_quiet fun l hl => hl

theorem lineRemoves_congr {c : Control} (sid : ℕ) (cmd : Cmd) (h : c.sslist = s.ctl.sslist)
    (hr : c.reloading = s.ctl.reloading) :
    lineRemoves { s with ctl := c } sid cmd = lineRemoves s sid cmd := by
  have hs : ∀ i, c.session i = s.ctl.session i := fun i => by
    rw [Control.session, Control.session, h]
  have hcmd : cmd.removes { s with ctl := c } = cmd.removes s := by
    cases cmd <;> first | rfl | simp only [Cmd.removes, Control.closes, hs]
  simp only [lineRemoves, hs, hr, hcmd]

theorem batchLine_moves (hok : s.tuns.Ok) (env : NatEnv) (inFile : Bool) (cmd : Cmd)
    (hm : m.grow = cmd.grows) (hc : m.clean → Linked s ∧ s.Ordered)
    (hg : ∀ sid g, s.ctl.batch = some (sid, g) →
      (s.ctl.reloading && s.ctl.reloadSession = some sid && !inFile) = false →
      ∀ p ∈ lineRemoves s sid cmd, m.gone p) :
    Moves cfg m s (batchLine cfg env inFile cmd s) := by
  unfold batchLine
  cases hb : s.ctl.batch with
  | none => exact .refl s
  | some b =>
    obtain ⟨sid, g⟩ := b
    dsimp only
    split
    · exact .refl s
    rename_i hrun
    rw [Bool.not_eq_true] at hrun
    have h := cmdline_moves cfg hok env sid cmd hm (hg sid g hb hrun) hc
    split
    · exact h.trans (commandsDone_quiet _).moves
    · exact h

theorem reloadLine_moves (hok : s.tuns.Ok) (env : NatEnv) (cmd : Cmd)
    (hm : m.grow = cmd.grows) (hc : m.clean → Linked s ∧ s.Ordered)
    (hg : ∀ sid, s.ctl.reloadSession = some sid → ∀ p ∈ lineRemoves s sid cmd, m.gone p) :
    Moves cfg m s (reloadLine cfg env cmd s) := by
  unfold reloadLine
  cases hr : s.ctl.reloadSession with
  | none => exact .refl s
  | some sid =>
    dsimp only
    set c : Control := { s.ctl with curgen := s.ctl.lastgen }
    have hq : Quiet s { s with ctl := c } := ctl_quiet fun l hl => hl
    have hsame := lineRemoves_congr (s := s) (c := c) sid cmd rfl rfl
    have h := cmdline_moves cfg (m := m) (s := { s with ctl := c }) (hok.grows hq.tuns)
      env sid cmd hm (fun p hp => hg sid hr p (hsame ▸ hp))
      (fun hclean => (hc hclean).1.quiet hq (hc hclean).2)
    generalize cmdline cfg env sid cmd { s with ctl := c } = r at h ⊢
    obtain ⟨s', ok⟩ := r
    have hq' : Quiet s' { s' with ctl := { s'.ctl with curgen := s.ctl.curgen } } :=
      ctl_quiet fun l hl => hl
    have hall := hq.moves.trans (h.trans hq'.moves)
    split
    · exact hall
    · exact hall.trans (reloadFinish_moves true (by simp) (hall.tuns hok) (by simp))

theorem openBatch_quiet (sid : ℕ) (s : State) : Quiet s (openBatch sid s) := by
  unfold openBatch
  split
  · exact .refl s
  · split
    · exact .refl s
    · exact ctl_quiet fun l hl => hl

theorem bootDone_moves (hm : m.grow = false) (hok : s.tuns.Ok) (daemonize : Bool)
    (hg : ∀ ss, daemonize = true → s.ctl.session 0 = some ss →
      ∀ p ∈ s.tuns.oldNonats (· = ss.generation), m.gone p) :
    Moves cfg m s (act cfg s (.bootDone daemonize)) := by
  simp only [act]
  set f : Sess → Sess := fun ss => { ss with sec := 8 }
  set c : Control := { s.ctl with booting := false, curgen := 0 }
  have hchains : (c.setSess 0 f).chains = s.ctl.chains := chains_setSess c 0 f fun _ => rfl
  have hq : Quiet s { s with ctl := c.setSess 0 f } := ctl_quiet fun l hl => hchains ▸ hl
  cases hd : daemonize with
  | false => exact hq.moves
  | true =>
    simp only [if_true]
    cases hs : (c.setSess 0 f).session 0 with
    | none => exact hq.moves
    | some ss =>
      dsimp only
      have hmem : ss.snats ∈ s.ctl.chains := by
        rw [← hchains]
        exact mem_chains.mpr (.inr (.inl ⟨ss, session_mem hs, rfl⟩))
      refine gcSession_moves hm hok (fun l hl => ?_) hmem ?_
      · rw [← hchains]
        exact chains_filter _ _ l hl
      · have hold : ∃ ss', s.ctl.session 0 = some ss' ∧ ss'.generation = ss.generation := by
          simp only [Control.session, Control.setSess, List.find?_map, Option.map_eq_some_iff] at hs
          obtain ⟨ss', hss', rfl⟩ := hs
          refine ⟨ss', ?_, by split <;> rfl⟩
          rw [Control.session, ← hss']
          congr 1
          funext x
          simp only [Function.comp_apply]
          split <;> rfl
        obtain ⟨ss', hss', heq⟩ := hold
        rw [← heq]
        exact hg ss' hd hss'

theorem act_moves (hok : s.tuns.Ok) (e : Event) (he : e.boots = s.ctl.booting)
    (hm : m.grow = e.grows) (hg : ∀ p ∈ e.removes s, m.gone p)
    (hc : m.clean → Linked s ∧ s.Ordered) : Moves cfg m s (act cfg s e) := by
  simp only [Event.removes, he, ne_eq, not_true_eq_false, if_false] at hg
  cases e with
  | boot env cmd => exact cmdline_moves cfg hok env 0 cmd hm hg hc
  | bootDone daemonize =>
    refine bootDone_moves hm hok daemonize fun ss hd hs => ?_
    subst hd
    simpa only [hs] using hg
  | sessionOpen => exact (sessionOpen_quiet s).moves
  | sessionEof sid => exact sessionClose_moves hm hok sid hg
  | commands sid => exact (openBatch_quiet sid s).moves
  | line env inFile cmd =>
    refine batchLine_moves hok env inFile cmd hm hc fun sid g hb hrun => ?_
    simpa only [hb, hrun, Bool.false_eq_true, if_false] using hg
  | commandsDone => exact (commandsDone_quiet s).moves
  | reloadLine env cmd =>
    simp only [act]
    split
    · rename_i hr
      refine reloadLine_moves hok env cmd hm hc fun sid hs => ?_
      simpa only [hs, hr, if_true] using hg
    · exact .refl s
  | reloadEof =>
    simp only [act]
    split
    · rename_i hr
      refine reloadFinish_moves false (fun _ => hm) hok fun _ => ?_
      simpa only [hr, if_true] using hg
    · exact .refl s
  | natin env peer auto acl4 p =>
    have h := decap_found cfg env peer auto s
    simp only [act]
    rcases hr : decap cfg env peer auto s with ⟨s', _ | t⟩ <;> rw [hr] at h
    · exact h.1.moves
    obtain ⟨hq, hlive⟩ := h
    refine hq.moves.trans ?_
    simp only [filterin]
    split
    · exact .refl s'
    rename_i hn
    split
    · refine natin_moves (env.after 3) hm p ⟨t, hlive t rfl hok, rfl, ?_⟩
      cases hx : s'.tuns.nonat t.ptr with
      | none => rfl
      | some a => simp [hx] at hn
    · exact (prrin_quiet t.ptr p s').moves
  | naticmpin env peer auto proto src sport =>
    have h := decap_found cfg env peer auto s
    simp only [act]
    rcases hr : decap cfg env peer auto s with ⟨s', _ | t⟩ <;> rw [hr] at h
    · exact h.1.moves
    refine h.1.moves.trans ?_
    dsimp only
    split
    · exact .refl s'
    · exact (naticmpin_quiet t.ptr proto src sport s').moves
  | natout env p => exact natout_moves env hm p s
  | naticmpout p => exact naticmpout_moves p s
  | defrag6 env peer auto buf6 =>
    have h := decap_found cfg env peer auto s
    simp only [act]
    rcases hr : decap cfg env peer auto s with ⟨s', _ | t⟩ <;> rw [hr] at h
    · exact h.1.moves
    refine h.1.moves.trans (.single (.frags (.defrag6 (env.after 3).toEnv t.ptr buf6) ?_))
    intro p hp
    obtain rfl := Option.some.inj hp
    exact ⟨hm, t, h.2 t rfl hok, rfl⟩
  | defragIn env peer auto buf4 =>
    have h := decap_found cfg env peer auto s
    simp only [act]
    rcases hr : decap cfg env peer auto s with ⟨s', _ | t⟩ <;> rw [hr] at h
    · exact h.1.moves
    refine h.1.moves.trans (.single (.frags (.defrag (env.after 3).toEnv (some t.ptr) buf4) ?_))
    intro p hp
    obtain rfl := Option.some.inj hp
    exact ⟨hm, t, h.2 t rfl hok, rfl⟩
  | defragOut env buf4 => exact .single (.frags (.defrag env.toEnv none buf4) (by simp [FragEvent.tunnel]))
  | expireNat seconds ptr =>
    simp only [act]
    split
    · exact .refl s
    · rename_i n hn
      exact del_moves hm seconds (.of_heap (List.mem_of_find?_eq_some hn))
  | everySecond seconds =>
    exact Moves.trans (.single (.ports (.free seconds)))
      (.single (.frags (s := { s with ports := _ }) (.expire seconds) (by simp [FragEvent.tunnel])))
  | gcIncr seconds quantum =>
    simp only [act]
    split
    · exact gcIncr_moves hm seconds quantum s
    · exact .refl s
  | btIncr quantum =>
    simp only [act]
    split
    · exact (btIncr_quiet quantum s).moves
    · exact .refl s
  | resizeFragHash up rnd =>
    exact .single (.frags (.resize up rnd) (by simp [FragEvent.tunnel]))
  | resizeNatHash up rnd => exact .single (.resize up rnd)
  | resizeTunHash up rnd => exact (Quiet.of_tuns (.single (.resize s.tuns up rnd))).moves

/-- The mode of a step. -/
def stepMode (s : State) (e : Event) : Mode where
  grow := e.grows
  gone p := p ∈ e.removes s
  clean := Linked s ∧ s.Ordered

variable (cfg) in
theorem step_moves (hok : s.tuns.Ok) (e : Event) : Moves cfg (stepMode s e) s (step cfg s e) := by
  unfold step
  split
  · exact .refl s
  rename_i he
  rw [ne_eq, not_not] at he
  have hq : Quiet s { s with ctl := { s.ctl with serving := s.ctl.serving && e.serves } } :=
    ctl_quiet fun l hl => hl
  refine hq.moves.trans (act_moves (hok.grows hq.tuns) e he rfl ?_ ?_)
  · intro p hp
    have hsame : e.removes { s with ctl := { s.ctl with
        serving := s.ctl.serving && e.serves } } = e.removes s := by
      cases e <;> simp only [Event.removes] <;> rfl
    rw [hsame] at hp
    exact hp
  · rintro ⟨hl, ho⟩
    exact hl.quiet hq ho

end

end WanStack.Aftr
