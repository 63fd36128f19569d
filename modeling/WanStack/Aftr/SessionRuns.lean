import WanStack.Aftr.Sessions

set_option autoImplicit false

/-!
# Entries of sessions along a run

A line of a batch tags what it makes with the generation of its session, unless
a reload has changed `curgen` in between; then the entry outlives the session.
-/
namespace WanStack.Aftr
open SearchTree Relation

section
variable {cfg : Conf} {l : Leave} {s s' s'' : State} {sid sid' : ℕ} {cmd : Cmd}

/-! ### Commands that find nothing -/

theorem Cmd.finds_ctl (s : State) (c : Control) (cmd : Cmd) :
    cmd.finds { s with ctl := c } = cmd.finds s := by
  cases cmd <;> rfl

theorem reloadStatic_fresh {peer : Addr6} {key : NatEntry}
    {add : State → State × Option NatEntry} (hadd : ∀ s, Changes cfg l s (add s).1)
    (hf : findsStatic peer key s = false) : Changes cfg l s (reloadStatic peer key add s).1 := by
  unfold reloadStatic
  split <;> rename_i hr
  · exact (Changes.lookup hr).trans (hadd _)
  rename_i tuns t
  apply (Changes.lookup hr).trans
  set s₁ : State := { s with tuns := tuns }
  dsimp only
  split
  · exact .refl _
  split <;> rename_i hfind
  · exact ((splayFindExact_changes _ _).fst hfind).trans (hadd _)
  · -- the exact search finds what the read-only one finds
    rename_i n
    have hfound : s.nats.natSplayRoFind key.proto { key with tunnel := t.ptr } true = some n :=
      (Splay.lookup_eq_find _ _).symm.trans (congrArg Prod.snd hfind)
    unfold findsStatic at hf
    rw [hr, Option.any_some, hfound] at hf
    cases hf

theorem reloadNonat_fresh (hl : l.session.isSome = true) (env : NatEnv) {peer : Addr6}
    {addr plen : ℕ} (hf : (Cmd.nonat peer addr plen).finds s = false) :
    Changes cfg l s (reloadNonat cfg env peer addr plen s).1 := by
  unfold reloadNonat
  split <;> rename_i hr <;> apply (Changes.lookup hr).trans
  · exact addNonat_changes hl ..
  rename_i tuns t
  have hnonats : tuns.nonats = s.tuns.nonats := by
    rw [← (tunnelLookup_nonats s.tuns peer).1, hr]
  split
  · rename_i hmem
    rw [hnonats] at hmem
    simp only [Cmd.finds] at hf
    rw [hr, Option.any_some, decide_eq_true hmem] at hf
    cases hf
  · exact .refl _

/-- A command that finds nothing to take over. -/
theorem execute_fresh (env : NatEnv) (sid : ℕ) (hc : cmd.plain = true)
    (hf : ¬ (s.ctl.reloading = true ∧ cmd.finds s = true)) :
    Changes cfg (cmd.leave sid false) s (execute cfg env sid s cmd).1 := by
  have h := @execute_changes cfg env sid s cmd hc
  rw [not_and, Bool.not_eq_true] at hf
  cases cmd with
  | nat peer tcp src sport nsrc nport =>
    simp only [execute]
    split <;> rename_i hr
    · exact reloadStatic_fresh (addStatic_changes rfl env peer _ rfl) (hf hr)
    · exact addStatic_changes rfl env peer _ rfl s
  | prr peer tcp src sport =>
    simp only [execute]
    split <;> rename_i hr
    · exact reloadStatic_fresh (addStatic_changes rfl env peer _ rfl) (hf hr)
    · exact addStatic_changes rfl env peer _ rfl s
  | nonat peer addr plen =>
    simp only [execute]
    split <;> rename_i hr
    · exact reloadNonat_fresh rfl env (hf hr)
    · exact addNonat_changes rfl ..
  | _ => exact h

theorem Cmd.finds_makes (h : cmd.finds s = true) : cmd.makes = true := by
  cases cmd <;> first | rfl | cases h

theorem Cmd.leave_takes (sid : ℕ) (cmd : Cmd) : (cmd.leave sid false).takes = false := by
  cases cmd <;> rfl

theorem Cmd.leave_session (h : (cmd.leave sid false).session = some sid') : sid' = sid := by
  cases cmd <;> cases h <;> rfl

theorem Cmd.leave_makes (h : (cmd.leave sid false).session.isSome = true) :
    cmd.makes = true := by
  cases cmd <;> first | rfl | cases h

/-! ### What outlasts a line -/

/-- The flags and the batch stay, and no session changes its generation. -/
structure Lasting (c c' : Control) : Prop where
  booting : c'.booting = c.booting
  batch : c'.batch = c.batch
  reloading : c.reloading = true → c'.reloading = true
  genOf : ∀ sid g, c'.genOf sid = some g → c.genOf sid = some g

theorem Lasting.refl (c : Control) : Lasting c c := ⟨rfl, rfl, fun h => h, fun _ _ h => h⟩

theorem Lasting.trans {c c' c'' : Control} (h : Lasting c c') (h' : Lasting c' c'') :
    Lasting c c'' where
  booting := h'.booting.trans h.booting
  batch := h'.batch.trans h.batch
  reloading hr := h'.reloading (h.reloading hr)
  genOf sid g hg := h.genOf sid g (h'.genOf sid g hg)

theorem Changes.lasting (h : Changes cfg l s s') : Lasting s.ctl s'.ctl := by
  refine h.keep (P := fun a => Lasting s.ctl a.ctl) (.refl _) fun a b hab ha => ha.trans ?_
  have hsame := hab.scalars
  exact ⟨hsame.booting, hsame.batch, fun hr => hsame.reloading.trans hr,
    fun sid g hg => (hab.genOf sid).symm.trans hg⟩

theorem setSess_lasting (c : Control) (sid : ℕ) {f : Sess → Sess} (hid : ∀ ss, (f ss).id = ss.id)
    (hgen : ∀ ss, (f ss).generation = ss.generation) : Lasting c (c.setSess sid f) :=
  ⟨rfl, rfl, fun h => h, fun sid' _ hg => (genOf_setSess sid hid hgen sid').symm.trans hg⟩

theorem execute_lasting (env : NatEnv) (sid : ℕ) (cmd : Cmd) (s : State) :
    Lasting s.ctl (execute cfg env sid s cmd).1.ctl := by
  by_cases hc : cmd.plain = true
  · exact (execute_changes env sid s hc).lasting
  · cases cmd with
    | reload opened =>
      simp only [execute]
      split
      · exact .refl _
      · unfold reloadConf
        have h : Lasting s.ctl { s.ctl with
            reloadSavedgen := s.ctl.lastgen
            lastgen := s.ctl.lastgen + 1
            curgen := s.ctl.lastgen + 1
            reloadSession := some sid
            reloadSavedsec := ((s.ctl.session sid).getD ⟨sid, 0, 0, false, []⟩).sec
            reloadSavedloc := ((s.ctl.session sid).getD ⟨sid, 0, 0, false, []⟩).locked
            reloading := true } := ⟨rfl, rfl, fun _ => rfl, fun _ _ h => h⟩
        exact h.trans (setSess_lasting _ sid (fun _ => rfl) fun _ => rfl)
    | sessionConfig on =>
      exact setSess_lasting s.ctl sid (f := fun ss => { ss with sec := if on then 12 else 8 })
        (fun _ => rfl) fun _ => rfl
    | sessionClose sid' =>
      simp only [execute]
      rcases sessionClose_cases sid' s with h | ⟨ss, hss, h⟩ <;> rw [h]
      · exact .refl _
      · obtain rfl := session_id hss
        refine ⟨rfl, rfl, fun h => h, fun sid g hg => ?_⟩
        unfold Control.genOf at hg
        rw [(gcSession_closed s ss).session] at hg
        split at hg
        · cases hg
        · exact hg
    | _ => exact absurd rfl hc

theorem cmdline_lasting (env : NatEnv) (sid : ℕ) (cmd : Cmd) (s : State) :
    Lasting s.ctl (cmdline cfg env sid cmd s).1.ctl := by
  unfold cmdline
  split
  · exact .refl _
  split
  · rename_i sec _
    exact (setSess_lasting s.ctl sid (f := fun ss => { ss with sec := sec }) (fun _ => rfl)
      fun _ => rfl).trans (execute_lasting env sid cmd
        { s with ctl := s.ctl.setSess sid fun ss => { ss with sec := sec } })
  · exact .refl _
  · exact .refl _

/-! ### A line of a batch -/

/-- What is new has the generation of the session. -/
structure Made (sid : ℕ) (s s' : State) : Prop where
  nats : ∀ x ∈ newStatics s s', NatTagged sid x s'
  nonats : ∀ t ∈ newNonats s s', NonatTagged sid t s'

theorem Made.of_none (hn : Names s) (hc : ∀ l ∈ s'.ctl.chains, ∀ x ∈ l, Known s x)
    (ht : ∀ t ∈ s'.tuns.nonats, t ∈ s.tuns.nonats) : Made sid s s' where
  nats x hx := by
    obtain ⟨hx, hp⟩ := List.mem_filter.mp hx
    obtain ⟨l, hl, hx⟩ := List.mem_flatten.mp hx
    have := hn.fresh x (hc l hl x hx)
    have := of_decide_eq_true hp
    omega
  nonats t hmem := by
    obtain ⟨hmem, hp⟩ := List.mem_filter.mp hmem
    have := hn.tuns t (ht t hmem)
    have := of_decide_eq_true hp
    omega

theorem Made.refl (hn : Names s) : Made sid s s :=
  .of_none hn (fun _ hl _ hx => .of_chain hl hx) fun _ h => h

/-- The rest of a line makes nothing. -/
theorem Made.kept (h : Made sid s s') (hk : Kept sid s' s'') (hc : s''.ctl.chains = s'.ctl.chains)
    (ht : s''.tuns.nonats = s'.tuns.nonats) : Made sid s s'' where
  nats x hx := by
    unfold newStatics at hx
    rw [hc] at hx
    exact hk.nats x (h.nats x hx)
  nonats t hmem := by
    unfold newNonats at hmem
    rw [ht] at hmem
    exact hk.nonats t (h.nonats t hmem)

theorem sessionClose_made (hn : Names s) (sid' : ℕ) : Made sid s (sessionClose sid' s).1 := by
  rcases sessionClose_cases sid' s with h | ⟨ss, hss, h⟩ <;> rw [h]
  · exact .refl hn
  · have hmem := session_mem hss
    obtain rfl := session_id hss
    have hclosed := gcSession_closed s ss
    apply Made.of_none hn
    · intro l hl x hx
      rcases mem_chains.mp hl with rfl | ⟨u, hu, rfl⟩ | ⟨u, hu, rfl⟩
      · exact .of_chain (mem_chains.mpr (.inl rfl)) hx
      · exact known_of_snats u (hclosed.sessions hmem u (List.mem_append_left _ hu)) hx
      · exact known_of_snats u (hclosed.sessions hmem u (List.mem_append_right _ hu)) hx
    · intro t ht
      exact ((gcNonats_left _ _).2.2 t ht).1

/-- A command of a batch. -/
theorem execute_made (hn : Names s) (hs : SessOk s.ctl) (hok : s.tuns.Ok) (env : NatEnv)
    (hf : ¬ (s.ctl.reloading = true ∧ cmd.finds s = true))
    (hcur : cmd.makes = true →
      s.ctl.genOf sid' = some s.ctl.curgen ∧ s.ctl.curgen < FIRSTGEN) :
    (∀ sid, Kept sid s (execute cfg env sid' s cmd).1) ∧
      Made sid' s (execute cfg env sid' s cmd).1 := by
  by_cases hc : cmd.plain = true
  · have h := @execute_fresh cfg s cmd env sid' hc hf
    refine ⟨fun sid => h.kept (Cmd.leave_takes ..) hn hs, ?_⟩
    obtain ⟨hnats, hnonats⟩ := h.made hn hs (Cmd.leave_takes ..) (fun _ => Cmd.leave_session)
      fun hl => hcur (Cmd.leave_makes hl)
    exact ⟨hnats, hnonats⟩
  · cases cmd with
    | reload opened =>
      simp only [execute]
      split
      · exact ⟨fun sid => .refl hn hs, .refl hn⟩
      · exact ⟨fun sid => reloadConf_kept hn hs sid', (Made.refl hn).kept
          (reloadConf_kept hn hs sid') (chains_setSess _ _ _ fun _ => rfl) rfl⟩
    | sessionConfig on =>
      have h (sid : ℕ) := @setSec_kept s sid hn hs sid' (if on then 12 else 8)
      exact ⟨h, (Made.refl hn).kept (h sid') (chains_setSess _ _ _ fun _ => rfl) rfl⟩
    | sessionClose sid'' =>
      exact ⟨fun sid => sessionClose_kept hn hs hok sid'', sessionClose_made hn sid''⟩
    | _ => exact absurd rfl hc

/-- A line of a batch leaves what a session made, and adds to it for its own. -/
theorem batchLine_made (hn : Names s) (hs : SessOk s.ctl) (hok : s.tuns.Ok)
    (hb : s.ctl.booting = false) (env : NatEnv) (inFile : Bool)
    (hin : InSession s (.line env inFile cmd)) :
    (∀ sid, Kept sid s (batchLine cfg env inFile cmd s)) ∧
      ∀ sid, s.ctl.batch.map Prod.fst = some sid → Made sid s (batchLine cfg env inFile cmd s) := by
  unfold batchLine
  unfold InSession lineSession at hin
  rcases hbatch : s.ctl.batch with _ | ⟨sid', savedgen⟩
  · exact ⟨fun sid => .refl hn hs, fun sid h => by cases h⟩
  rw [hbatch] at hin
  dsimp only at hin ⊢
  split
  · exact ⟨fun sid => .refl hn hs, fun sid _ => .refl hn⟩
  rename_i hown
  have hline : (∀ sid, Kept sid s (cmdline cfg env sid' cmd s).1) ∧
      Made sid' s (cmdline cfg env sid' cmd s).1 := by
    unfold cmdline
    rw [if_neg hown] at hin
    split
    · exact ⟨fun sid => .refl hn hs, .refl hn⟩
    rename_i ss hss
    rw [hss] at hin
    dsimp only at hin ⊢
    split
    · rename_i sec hrun
      rw [hrun] at hin
      have h₁ (sid : ℕ) := @setSec_kept s sid hn hs sid' sec
      have hsess := (h₁ sid').sess
      set s₁ : State := { s with ctl := s.ctl.setSess sid' fun ss => { ss with sec := sec } }
      have hfinds : cmd.finds s₁ = cmd.finds s := cmd.finds_ctl s _
      have hgen : s₁.ctl.genOf sid' = some ss.generation := by
        rw [← show s.ctl.genOf sid' = some ss.generation by unfold Control.genOf; rw [hss]; rfl]
        exact genOf_setSess sid' (f := fun ss => { ss with sec := sec }) (fun _ => rfl)
          (fun _ => rfl) sid'
      have hin := hin rfl
      obtain ⟨hkept, hmade⟩ := @execute_made cfg s₁ sid' cmd (h₁ sid').names hsess hok env
        (fun ⟨hr, hfind⟩ => by
          rw [hfinds] at hfind
          exact (hin (Cmd.finds_makes hfind)).2.2 ⟨hr, hfind⟩)
        (fun hm => by
          obtain ⟨hpos, hlt, -⟩ := hin hm
          refine ⟨?_, hlt⟩
          rw [hgen]
          rcases (hs.batch sid' savedgen hbatch).2 ss hss with hcur | hcur | hcur
          · exact congrArg some hcur.symm
          · omega
          · omega)
      exact ⟨fun sid => (h₁ sid).trans (hkept sid), hmade.nats, hmade.nonats⟩
    · exact ⟨fun sid => .refl hn hs, .refl hn⟩
    · exact ⟨fun sid => .refl hn hs, .refl hn⟩
  have hb' : (cmdline cfg env sid' cmd s).1.ctl.booting = false :=
    (cmdline_lasting ..).booting.trans hb
  split
  · have hdone (sid : ℕ) := @commandsDone_kept _ sid (hline.1 sid).names (hline.1 sid).sess hb'
    refine ⟨fun sid => (hline.1 sid).trans (hdone sid), fun sid hsid => ?_⟩
    cases hsid
    refine hline.2.kept (hdone sid') ?_ ?_ <;> unfold commandsDone <;> split <;> rfl
  · exact ⟨hline.1, fun sid hsid => by cases hsid; exact hline.2⟩

/-! ### A line of the file -/

/-- What a line with the generation of the file leaves to a session, and what
    it takes over. -/
structure Taken (sid : ℕ) (s s' : State) : Prop where
  names : Names s'
  sess : SessOk s'.ctl
  nats : ∀ x, NatTagged sid x s → s'.nats.generation x.ptr ≤ FIRSTGEN → NatTagged sid x s'
  nonats : ∀ t, NonatTagged sid t s → s'.tuns.ngeneration t.ptr ≤ FIRSTGEN → NonatTagged sid t s'

theorem Kept.taken (h : Kept sid s s') : Taken sid s s' :=
  ⟨h.names, h.sess, fun x hx _ => h.nats x hx, fun t ht _ => h.nonats t ht⟩

theorem Kept.andTaken (h : Kept sid s s') (h' : Taken sid s' s'') : Taken sid s s'' :=
  ⟨h'.names, h'.sess, fun x hx => h'.nats x (h.nats x hx), fun t ht => h'.nonats t (h.nonats t ht)⟩

theorem Changes.taken (h : Changes cfg l s s') (hn : Names s) (hs : SessOk s.ctl)
    (hcur : FIRSTGEN < s.ctl.curgen) : Taken sid s s' := by
  have hsince := h.since hn hs
  refine ⟨hsince.names, hsince.sess, fun x hx hle => ?_, fun t ht hle => ?_⟩
  · refine h.natTagged hn hs (fun _ => hcur) hx ?_
    rcases h.generation_file hn hs (fun _ => hcur) hx.1 with h | h
    · exact h
    · omega
  · refine h.nonatTagged hn hs (fun _ => hcur) ht ?_
    rcases h.ngeneration_file hn hs (fun _ => hcur) ht.1 with h | h
    · exact h
    · omega

theorem cmdline_taken (hn : Names s) (hs : SessOk s.ctl) (hok : s.tuns.Ok)
    (hcur : FIRSTGEN < s.ctl.curgen) (env : NatEnv) (sid' : ℕ) (cmd : Cmd) :
    Taken sid s (cmdline cfg env sid' cmd s).1 := by
  unfold cmdline
  split
  · exact (Kept.refl hn hs).taken
  split
  · rename_i sec _
    have h := @setSec_kept s sid hn hs sid' sec
    apply h.andTaken
    have hn₁ := h.names
    have hs₁ := h.sess
    set s₁ : State := { s with ctl := s.ctl.setSess sid' fun ss => { ss with sec := sec } }
    by_cases hc : cmd.plain = true
    · exact (execute_changes env sid' s₁ hc).taken hn₁ hs₁ hcur
    · cases cmd with
      | reload opened =>
        simp only [execute]
        split
        · exact (Kept.refl hn₁ hs₁).taken
        · exact (reloadConf_kept hn₁ hs₁ sid').taken
      | sessionConfig on =>
        exact (setSec_kept hn₁ hs₁ sid' (if on then 12 else 8)).taken
      | sessionClose sid'' => exact (sessionClose_kept hn₁ hs₁ hok sid'').taken
      | _ => exact absurd rfl hc
  · exact (Kept.refl hn hs).taken
  · exact (Kept.refl hn hs).taken

/-- A line of the file runs with the generation of the file. -/
theorem SessOk.fileLine {c : Control} (hs : SessOk c) : SessOk { c with curgen := c.lastgen } := by
  have hsame : SameSess c { c with curgen := c.lastgen } := .same rfl rfl rfl
  exact hs.same hsame rfl rfl hs.lastgen hs.saved (fun _ => hs.lastgen)
    (fun _ _ hb => ⟨(hs.batch_gen hb).1, fun _ _ => .inr (.inr hs.lastgen)⟩) hs.idle

/-- The generation from before the line comes back. -/
theorem SessOk.lineDone {c c' : Control} (hs : SessOk c) (hs' : SessOk c') (hlast : Lasting c c')
    (hb : c'.booting = false) : SessOk { c' with curgen := c.curgen } := by
  have hsame : SameSess c' { c' with curgen := c.curgen } := .same rfl rfl rfl
  refine hs'.same hsame rfl rfl hs'.lastgen hs'.saved (fun h => ?_) (fun sid g hbatch => ?_) hs'.idle
  · rw [show _ = c'.booting from rfl, hb] at h
    cases h
  · refine ⟨(hs'.batch_gen hbatch).1, fun gen hgen => ?_⟩
    -- the session of the batch has the generation it had before the line
    exact (hs.batch_gen (hlast.batch.symm.trans hbatch)).2 gen (hlast.genOf sid gen hgen)

/-- A line of the file, from the generation of the session that reloads it to
    that of the file and back. -/
theorem reloadLine_taken (hn : Names s) (hs : SessOk s.ctl) (hok : s.tuns.Ok)
    (hr : s.ctl.reloading = true) (hb : s.ctl.booting = false) (env : NatEnv) (cmd : Cmd) :
    Taken sid s (reloadLine cfg env cmd s) := by
  unfold reloadLine
  split
  · exact (Kept.refl hn hs).taken
  rename_i sid' _
  have hsame : SameSess s.ctl { s.ctl with curgen := s.ctl.lastgen } := .same rfl rfl rfl
  have h₁ := @SameSess.kept s sid _ hsame hn hs.fileLine
  set s₁ : State := { s with ctl := { s.ctl with curgen := s.ctl.lastgen } }
  have h₂ := @cmdline_taken cfg s₁ sid h₁.names h₁.sess hok hs.lastgen env sid' cmd
  have hlast : Lasting s₁.ctl (cmdline cfg env sid' cmd s₁).1.ctl := cmdline_lasting env sid' cmd s₁
  rcases hline : cmdline cfg env sid' cmd s₁ with ⟨s₂, ok⟩
  rw [hline] at h₂ hlast
  dsimp only at h₂ hlast ⊢
  have hb₂ : s₂.ctl.booting = false := hlast.booting.trans hb
  have hsame₂ : SameSess s₂.ctl { s₂.ctl with curgen := s.ctl.curgen } := .same rfl rfl rfl
  have hsess₂ : SessOk { s₂.ctl with curgen := s.ctl.curgen } :=
    hs.lineDone h₂.sess ⟨hlast.booting, hlast.batch, hlast.reloading, hlast.genOf⟩ hb₂
  have h₃ := @SameSess.kept s₂ sid _ hsame₂ h₂.names hsess₂
  set s₃ : State := { s₂ with ctl := { s₂.ctl with curgen := s.ctl.curgen } }
  have h₄ : Taken sid s s₃ :=
    ⟨h₃.names, h₃.sess, fun x hx hle => h₃.nats x (h₂.nats x (h₁.nats x hx) hle),
      fun t ht hle => h₃.nonats t (h₂.nonats t (h₁.nonats t ht) hle)⟩
  split
  · exact h₄
  -- a line that fails ends the reload
  have h₅ := @reloadFinish_kept s₃ sid true h₃.names h₃.sess (hlast.reloading hr) hb₂
  refine ⟨h₅.names, h₅.sess, fun x hx hle => h₅.nats x (h₄.nats x hx hle), fun t ht hle => ?_⟩
  refine h₅.nonats t (h₄.nonats t ht ?_)
  have hgen : (reloadFinish true s₃).tuns.ngeneration t.ptr =
      if s₃.tuns.nonats.any (·.ptr = t.ptr) && (s₃.tuns.nonat t.ptr).isSome &&
        s₃.tuns.ngeneration t.ptr > s₃.ctl.reloadSavedgen then s₃.ctl.reloadSavedgen
      else s₃.tuns.ngeneration t.ptr := rfl
  have hsaved := h₃.sess.saved (hlast.reloading hr)
  rw [hgen] at hle
  split at hle
  · omega
  · exact hle

/-! ### Runs -/

/-- The state of a run and what session `sid` owns there. -/
structure SessionInv (sid : ℕ) (o : Owned) (s : State) : Prop where
  base : Base s
  names : Names s
  sess : SessOk s.ctl
  nats : ∀ x ∈ o.nats, NatTagged sid x s
  nonats : ∀ t ∈ o.nonats, NonatTagged sid t s

theorem SessionInv.kept {o : Owned} (h : SessionInv sid o s) (hb : Base s') (hk : Kept sid s s') :
    SessionInv sid o s' :=
  ⟨hb, hk.names, hk.sess, fun x hx => hk.nats x (h.nats x hx), fun t ht => hk.nonats t (h.nonats t ht)⟩

theorem SessionInv.taken {o : Owned} (h : SessionInv sid o s) (hb : Base s') (hk : Taken sid s s') :
    SessionInv sid ⟨o.nats.filter fun n => s'.nats.generation n.ptr ≤ FIRSTGEN,
      o.nonats.filter fun t => s'.tuns.ngeneration t.ptr ≤ FIRSTGEN⟩ s' := by
  refine ⟨hb, hk.names, hk.sess, fun x hx => ?_, fun t ht => ?_⟩
  · obtain ⟨hx, hle⟩ := List.mem_filter.mp hx
    exact hk.nats x (h.nats x hx) (of_decide_eq_true hle)
  · obtain ⟨ht, hle⟩ := List.mem_filter.mp ht
    exact hk.nonats t (h.nonats t ht) (of_decide_eq_true hle)

theorem SessionInv.made {o : Owned} (h : SessionInv sid o s) (hb : Base s') (hk : Kept sid s s')
    (hm : Made sid s s') : SessionInv sid ⟨newStatics s s' ++ o.nats, newNonats s s' ++ o.nonats⟩ s' := by
  refine ⟨hb, hk.names, hk.sess, fun x hx => ?_, fun t ht => ?_⟩
  · rcases List.mem_append.mp hx with hx | hx
    · exact hm.nats x hx
    · exact hk.nats x (h.nats x hx)
  · rcases List.mem_append.mp ht with ht | ht
    · exact hm.nonats t ht
    · exact hk.nonats t (h.nonats t ht)

/-- The steps that are no lines. -/
theorem act_kept (hn : Names s) (hs : SessOk s.ctl) (hok : s.tuns.Ok) {e : Event}
    (hb : e.boots = s.ctl.booting)
    (he : ∀ env cmd, e ≠ .boot env cmd ∧ e ≠ .reloadLine env cmd ∧ ∀ inFile, e ≠ .line env inFile cmd) :
    Kept sid s (act cfg s e) := by
  cases hl : e.leave with
  | some l => exact (act_changes hl s).kept (by cases e <;> cases hl <;> rfl) hn hs
  | none =>
    cases e with
    | boot env cmd => exact absurd rfl (he env cmd).1
    | reloadLine env cmd => exact absurd rfl (he env cmd).2.1
    | line env inFile cmd => exact absurd rfl ((he env cmd).2.2 inFile)
    | bootDone daemonize => exact bootDone_kept hn hs hok daemonize
    | sessionOpen => exact sessionOpen_kept hn hs
    | sessionEof sid' => exact sessionClose_kept hn hs hok sid'
    | commands sid' => exact openBatch_kept hn hs hb.symm sid'
    | commandsDone => exact commandsDone_kept hn hs hb.symm
    | reloadEof =>
      simp only [act]
      split
      · rename_i hr
        exact reloadFinish_kept false hn hs hr hb.symm
      · exact .refl hn hs
    | gcIncr seconds quantum =>
      simp only [act]
      split
      · exact gcIncr_kept seconds quantum hn hs
      · exact .refl hn hs
    | btIncr quantum =>
      simp only [act]
      split
      · exact btIncr_kept quantum hn hs
      · exact .refl hn hs
    | _ => cases hl

theorem step_sessions {o : Owned} (h : SessionInv sid o s) (e : Event) (hin : InSession s e) :
    SessionInv sid (o.after cfg sid s e) (step cfg s e) := by
  have hb' : Base (step cfg s e) := step_base h.base e
  by_cases hb : e.boots = s.ctl.booting
  swap
  · -- nothing happens
    have hstep : step cfg s e = s := if_pos hb
    unfold Owned.after
    rw [hstep]
    have hrefl := @Kept.refl s sid h.names h.sess
    cases e with
    | line env inFile cmd =>
      dsimp only
      split
      · exact h.made h.base hrefl (.refl h.names)
      · exact h
    | boot env cmd => exact h.taken h.base hrefl.taken
    | reloadLine env cmd => exact h.taken h.base hrefl.taken
    | _ => exact h
  set s₁ : State := { s with ctl := { s.ctl with serving := s.ctl.serving && e.serves } } with hs₁
  have hstep : step cfg s e = act cfg s₁ e := if_neg (not_not.mpr hb)
  have hsame : SameSess s.ctl s₁.ctl := .same rfl rfl rfl
  have h₁ : Kept sid s s₁ := hsame.kept h.names (h.sess.same hsame rfl rfl h.sess.lastgen
    h.sess.saved h.sess.booting (fun _ _ hb => h.sess.batch_gen hb) h.sess.idle)
  have hok : s₁.tuns.Ok := h.base.tuns
  unfold Owned.after
  rw [hstep] at hb' ⊢
  cases e with
  | line env inFile cmd =>
    obtain ⟨hk, hm⟩ := @batchLine_made cfg s₁ cmd h₁.names h₁.sess hok hb.symm env inFile hin
    dsimp only
    split
    · rename_i hsid
      exact h.made hb' (h₁.trans (hk sid)) ⟨(hm sid hsid).nats, (hm sid hsid).nonats⟩
    · exact h.kept hb' (h₁.trans (hk sid))
  | boot env cmd =>
    exact h.taken hb' (h₁.andTaken
      (cmdline_taken h₁.names h₁.sess hok (h₁.sess.booting hb.symm) env 0 cmd))
  | reloadLine env cmd =>
    have ht : Taken sid s₁ (act cfg s₁ (.reloadLine env cmd)) := by
      simp only [act]
      split
      · rename_i hr
        exact reloadLine_taken h₁.names h₁.sess hok hr hb.symm env cmd
      · exact (Kept.refl h₁.names h₁.sess).taken
    exact h.taken hb' (h₁.andTaken ht)
  | _ =>
    exact h.kept hb' (h₁.trans (act_kept h₁.names h₁.sess hok hb
      fun _ _ => by simp))

theorem run_sessionInv {o : Owned} {es : List Event} (h : SessionInv sid o s)
    (hin : EachStep cfg InSession s es) : SessionInv sid (owned cfg sid s es o) (run cfg s es) := by
  induction es generalizing s o with
  | nil => exact h
  | cons e es ih => exact ih (step_sessions h e hin.1) hin.2

theorem sessOk_start : SessOk {} := by
  have hsess : ∀ ss ∈ ({} : Control).sessions, ss = ⟨0, 1, 4, true, []⟩ :=
    fun ss hss => List.mem_singleton.mp hss
  refine ⟨fun ss hss => ?_, fun ss hss => ?_, fun ss hss _ _ x hx => ?_, by decide, by decide,
    fun h => absurd h Bool.false_ne_true, fun _ => by decide, fun sid g hb => absurd hb nofun,
    fun _ => rfl⟩
  · rw [hsess ss hss]
    exact Nat.zero_lt_one
  · rw [hsess ss (List.mem_append_left _ hss)]
    decide
  · rw [hsess ss hss] at hx
    cases hx

theorem sessionInv_start (ports : Ports) (rnd₁ rnd₂ rnd₃ : UInt32) (sid : ℕ) :
    SessionInv sid {} (start ports rnd₁ rnd₂ rnd₃) := by
  have hbase := (linked_start ports rnd₁ rnd₂ rnd₃).toBase
  exact ⟨hbase, ⟨hbase.fresh, fun x y hx => absurd hx (start_known ports rnd₁ rnd₂ rnd₃ x),
    hbase.nodup, hbase.proto, fun t ht => absurd ht List.not_mem_nil⟩, sessOk_start,
    fun x hx => absurd hx List.not_mem_nil, fun t ht => absurd ht List.not_mem_nil⟩

end

/-- The entries and no-NAT tunnels that session `sid` owns carry its generation
    while it is open, and are gone when it is closed and the collection is
    over. -/
def SessionsClean (sid : ℕ) (o : Owned) (s : State) : Prop :=
  (∀ x ∈ o.nats, x ∈ s.nats.live →
    (∃ ss, s.ctl.session sid = some ss ∧ s.nats.generation x.ptr = ss.generation) ∨
      s.ctl.session sid = none ∧ s.ctl.needgc ≠ 0) ∧
  ∀ t ∈ o.nonats, t ∈ s.tuns.nonats →
    ∃ ss, s.ctl.session sid = some ss ∧ s.tuns.ngeneration t.ptr = ss.generation

/-- In a run whose batches make entries with the generation of their session,
    entries die with their session. -/
theorem run_sessionsClean (cfg : Conf) (ports : Ports) (rnd₁ rnd₂ rnd₃ : UInt32) (sid : ℕ)
    {es : List Event} (h : EachStep cfg InSession (start ports rnd₁ rnd₂ rnd₃) es) :
    SessionsClean sid (owned cfg sid (start ports rnd₁ rnd₂ rnd₃) es {})
      (run cfg (start ports rnd₁ rnd₂ rnd₃) es) := by
  have hinv := run_sessionInv (sessionInv_start ports rnd₁ rnd₂ rnd₃ sid) h
  refine ⟨fun x hx hlive => ?_, fun t ht hmem => (hinv.nonats t ht).2 hmem⟩
  rcases (hinv.nats x hx).2 hlive with ⟨ss, hss, -, hgen⟩ | ⟨hnone, ss, hss, -⟩
  · exact .inl ⟨ss, hss, hgen⟩
  · refine .inr ⟨hnone, fun h0 => ?_⟩
    rw [hinv.sess.idle h0] at hss
    cases hss

/-- A session that makes a no-NAT tunnel and a static entry. -/
def sessionRun : List Event :=
  [.bootDone false, .sessionOpen, .commands 1, .line plainEnv false (.sessionConfig true),
    .line plainEnv false (.nonat 5 0 24), .commandsDone]

theorem run_sessionsClean_two : EachStep {} InSession (start {} 0 0 0) sessionRun ∧
    (owned {} 1 (start {} 0 0 0) sessionRun {}).nonats.length = 1 ∧
    SessionsClean 1 (owned {} 1 (start {} 0 0 0) sessionRun {})
      (run {} (start {} 0 0 0) sessionRun) := by
  have h : EachStep {} InSession (start {} 0 0 0) sessionRun := by decide +kernel
  exact ⟨h, by decide +kernel, run_sessionsClean {} {} 0 0 0 1 h⟩

/-- A file read to its end within the batch that asks for it, and the next
    command of the batch. -/
def reloadRun : List Event :=
  [.bootDone false, .sessionOpen, .commands 1, .line plainEnv false (.sessionConfig true),
    .line plainEnv false (.reload true), .reloadEof, .line plainEnv false (.nonat 5 0 24),
    .commandsDone, .sessionEof 1, .gcIncr 0 10]

/-- `reload_finish` leaves generation 0 for the rest of the batch, so that a
    no-NAT tunnel made there is still there when its session is closed and the
    collection is over. -/
theorem reload_outlives : (run {} (start {} 0 0 0) reloadRun).ctl.needgc = 0 ∧
    ¬ SessionsClean 1 (owned {} 1 (start {} 0 0 0) reloadRun {})
      (run {} (start {} 0 0 0) reloadRun) := by
  refine ⟨by decide +kernel, fun h => ?_⟩
  have hmem : (⟨1, 5⟩ : Tunnel) ∈ (owned {} 1 (start {} 0 0 0) reloadRun {}).nonats := by
    decide +kernel
  obtain ⟨ss, hss, -⟩ := h.2 ⟨1, 5⟩ hmem (by decide +kernel)
  have hnone : ((run {} (start {} 0 0 0) reloadRun).ctl.session 1).isNone = true := by
    decide +kernel
  rw [hss] at hnone
  cases hnone

end WanStack.Aftr
