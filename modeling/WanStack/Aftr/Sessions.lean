import Mathlib.Data.List.TakeWhile
import WanStack.Aftr.Generations

set_option autoImplicit false

/-!
# Closing a session

What the steps of a run do to the entries of a session: the control channel,
the collections and the reload keep them tagged until the session is closed,
and then until they are gone.
-/
namespace WanStack.Aftr
open SearchTree Relation

/-- What a step does that takes nothing over from session `sid`. -/
structure Kept (sid : ℕ) (s s' : State) : Prop where
  names : Names s'
  sess : SessOk s'.ctl
  nats : ∀ x, NatTagged sid x s → NatTagged sid x s'
  nonats : ∀ t, NonatTagged sid t s → NonatTagged sid t s'

/-- Sessions that differ in their sections and locks. -/
structure SameSess (c c' : Control) : Prop where
  sslist : ∃ f : Sess → Sess, (∀ ss, (f ss).id = ss.id) ∧
    (∀ ss, (f ss).generation = ss.generation) ∧ (∀ ss, (f ss).snats = ss.snats) ∧
    c'.sslist = c.sslist.map f
  orphans : c'.orphans = c.orphans
  confnats : c'.confnats = c.confnats

section
variable {cfg : Conf} {l : Leave} {s s' s'' : State} {sid : ℕ} {c c' c'' : Control} {ss : Sess}

theorem Kept.refl (hn : Names s) (hs : SessOk s.ctl) : Kept sid s s :=
  ⟨hn, hs, fun _ h => h, fun _ h => h⟩

theorem Kept.trans (h : Kept sid s s') (h' : Kept sid s' s'') : Kept sid s s'' where
  names := h'.names
  sess := h'.sess
  nats x hx := h'.nats x (h.nats x hx)
  nonats t ht := h'.nonats t (h.nonats t ht)

/-- Changes that take nothing over. -/
theorem Changes.kept (h : Changes cfg l s s') (hl : l.takes = false) (hn : Names s)
    (hs : SessOk s.ctl) : Kept sid s s' := by
  have ht : l.takes = true → FIRSTGEN < s.ctl.curgen := by
    intro ht
    rw [hl] at ht
    cases ht
  have hsince := h.since hn hs
  refine ⟨hsince.names, hsince.sess, fun x hx => ?_, fun t htag => ?_⟩
  · exact h.natTagged hn hs ht hx (h.generation hl hn hs hx.1)
  · exact h.nonatTagged hn hs ht htag (h.ngeneration hl hn hs htag.1)

/-! ### The control channel -/

theorem SameSess.same (hss : c'.sslist = c.sslist) (ho : c'.orphans = c.orphans)
    (hc : c'.confnats = c.confnats) : SameSess c c' :=
  ⟨⟨id, fun _ => rfl, fun _ => rfl, fun _ => rfl, by rw [hss, List.map_id]⟩, ho, hc⟩

theorem SameSess.setSess (c : Control) (sid : ℕ) {f : Sess → Sess}
    (hid : ∀ ss, (f ss).id = ss.id) (hgen : ∀ ss, (f ss).generation = ss.generation)
    (hsn : ∀ ss, (f ss).snats = ss.snats) : SameSess c (c.setSess sid f) := by
  refine ⟨⟨fun ss => if ss.id = sid then f ss else ss, ?_, ?_, ?_, rfl⟩, rfl, rfl⟩
  · intro ss
    dsimp only
    split
    · exact hid ss
    · rfl
  · intro ss
    dsimp only
    split
    · exact hgen ss
    · rfl
  · intro ss
    dsimp only
    split
    · exact hsn ss
    · rfl

theorem SameSess.trans (h : SameSess c c') (h' : SameSess c' c'') : SameSess c c'' := by
  obtain ⟨f, hid, hgen, hsn, hf⟩ := h.sslist
  obtain ⟨g, hid', hgen', hsn', hg⟩ := h'.sslist
  refine ⟨⟨g ∘ f, fun ss => (hid' _).trans (hid ss), fun ss => (hgen' _).trans (hgen ss),
    fun ss => (hsn' _).trans (hsn ss), ?_⟩, h'.orphans.trans h.orphans,
    h'.confnats.trans h.confnats⟩
  rw [hg, hf, List.map_map]

theorem SameSess.genOf (h : SameSess c c') (sid : ℕ) : c'.genOf sid = c.genOf sid := by
  obtain ⟨f, hid, hgen, -, hf⟩ := h.sslist
  exact genOf_map hid hgen hf sid

theorem SameSess.slim (h : SameSess c c') : Slim c c' := by
  obtain ⟨f, hid, hgen, hsn, hf⟩ := h.sslist
  refine .map (f := f) (g := id) hid hgen (fun ss => ?_) (fun _ => rfl)
    (fun _ => List.Subset.refl _) hf (by rw [h.orphans, List.map_id])
  rw [hsn]
  exact List.Subset.refl _

theorem SameSess.staysOn (h : SameSess c c') (x : NatEntry) : StaysOn x c c' := by
  obtain ⟨f, hid, hgen, hsn, hf⟩ := h.sslist
  refine .map (f := f) (g := id) hid hgen (fun ss hx => ?_) (fun _ => rfl) (fun _ hx => hx) hf
    (by rw [h.orphans, List.map_id])
  rw [hsn]
  exact hx

theorem SameSess.chains (h : SameSess c c') : c'.chains = c.chains := by
  obtain ⟨f, hid, hgen, hsn, hf⟩ := h.sslist
  unfold Control.chains
  rw [h.confnats, h.orphans, hf, List.map_append, List.map_append, List.map_map]
  congr 2
  apply List.map_congr_left
  intro ss _
  exact hsn ss

/-- The counters and flags may change within their bounds. -/
theorem SessOk.same (h : SessOk c) (hs : SameSess c c') (hnext : c'.nextSess = c.nextSess)
    (hses : c'.sesgen = c.sesgen) (hlast : FIRSTGEN < c'.lastgen)
    (hsaved : c'.reloading = true → FIRSTGEN < c'.reloadSavedgen)
    (hboot : c'.booting = true → FIRSTGEN < c'.curgen)
    (hbatch : ∀ sid g, c'.batch = some (sid, g) → sid < c.nextSess ∧
      ∀ gen, c.genOf sid = some gen →
        c'.curgen = gen ∨ c'.curgen = 0 ∨ FIRSTGEN < c'.curgen)
    (hidle : c'.needgc = 0 → c.orphans = []) : SessOk c' where
  ids ss hss := by
    obtain ⟨u, hu, hid, -⟩ := hs.slim.sessions ss hss
    rw [hnext, ← hid]
    exact h.ids u hu
  gens ss hss := by
    obtain ⟨u, hu, -, hgen, -⟩ := hs.slim.sslist ss hss
    rw [← hgen]
    exact h.gens u hu
  apart := hs.slim.apart h
  sesgen := hses ▸ h.sesgen
  lastgen := hlast
  saved := hsaved
  booting := hboot
  batch sid g hb := by
    rw [hnext]
    refine ⟨(hbatch sid g hb).1, fun ss hss => (hbatch sid g hb).2 _ ?_⟩
    rw [← hs.genOf]
    unfold Control.genOf
    rw [hss]
    rfl
  idle h0 := by
    rw [hs.orphans]
    exact hidle h0

/-- The batch goes on as it was. -/
theorem SessOk.batch_gen (h : SessOk c) {sid g : ℕ} (hb : c.batch = some (sid, g)) :
    sid < c.nextSess ∧ ∀ gen, c.genOf sid = some gen →
      c.curgen = gen ∨ c.curgen = 0 ∨ FIRSTGEN < c.curgen := by
  refine ⟨(h.batch sid g hb).1, fun gen hgen => ?_⟩
  obtain ⟨ss, hss, rfl⟩ := Option.map_eq_some_iff.mp hgen
  exact (h.batch sid g hb).2 ss hss

theorem Names.same (hn : Names s) (h : SameSess s.ctl c) : Names { s with ctl := c } := by
  apply hn.ctl
  intro l hl x hx
  rw [h.chains] at hl
  exact .of_chain hl hx

/-- Work on the sessions that leaves their entries. -/
theorem SameSess.kept (h : SameSess s.ctl c) (hn : Names s) (hc : SessOk c) :
    Kept sid s { s with ctl := c } := by
  refine ⟨hn.same h, hc, fun x hx => ?_, fun t ht => ?_⟩
  · exact hx.stay (Nat.le_refl _) (fun hx => hx) (fun _ => rfl) fun _ => h.staysOn x
  · rw [nonatTagged_iff] at ht ⊢
    refine ⟨ht.1, fun hmem => ?_⟩
    rw [h.genOf]
    exact ht.2 hmem

theorem setSec_kept (hn : Names s) (hs : SessOk s.ctl) (sid' sec : ℕ) :
    Kept sid s { s with ctl := s.ctl.setSess sid' fun ss => { ss with sec := sec } } := by
  have h : SameSess s.ctl (s.ctl.setSess sid' fun ss => { ss with sec := sec }) :=
    .setSess s.ctl sid' (fun _ => rfl) (fun _ => rfl) fun _ => rfl
  exact h.kept hn (hs.same h rfl rfl hs.lastgen hs.saved hs.booting
    (fun _ _ hb => hs.batch_gen hb) hs.idle)

theorem commandsDone_kept (hn : Names s) (hs : SessOk s.ctl) (hb : s.ctl.booting = false) :
    Kept sid s (commandsDone s) := by
  unfold commandsDone
  split
  · exact .refl hn hs
  · rename_i sid' savedgen hbatch
    have h : SameSess s.ctl { s.ctl with batch := none, curgen := savedgen } :=
      .same rfl rfl rfl
    refine h.kept hn (hs.same h rfl rfl hs.lastgen hs.saved (fun ht => ?_) (fun _ _ hb => ?_)
      hs.idle)
    · have ht : s.ctl.booting = true := ht
      rw [hb] at ht
      cases ht
    · cases hb

theorem openBatch_kept (hn : Names s) (hs : SessOk s.ctl) (hb : s.ctl.booting = false)
    (sid' : ℕ) : Kept sid s (openBatch sid' s) := by
  unfold openBatch
  split
  · exact .refl hn hs
  rename_i ss hss
  split
  · exact .refl hn hs
  have h : SameSess s.ctl { s.ctl with
      batch := some (sid', s.ctl.curgen), curgen := ss.generation, serving := true } :=
    .same rfl rfl rfl
  refine h.kept hn (hs.same h rfl rfl hs.lastgen hs.saved (fun ht => ?_) (fun sid'' g hb' => ?_)
    hs.idle)
  · have ht : s.ctl.booting = true := ht
    rw [hb] at ht
    cases ht
  · cases hb'
    refine ⟨?_, fun gen hgen => .inl ?_⟩
    · have := hs.ids ss (List.mem_append_left _ (session_mem hss))
      rw [session_id hss] at this
      exact this
    · have hgen' : some ss.generation = some gen := by
        rw [← hgen]
        unfold Control.genOf
        rw [hss]
        rfl
      exact Option.some.inj hgen'

theorem reloadConf_kept (hn : Names s) (hs : SessOk s.ctl) (sid' : ℕ) :
    Kept sid s (reloadConf sid' s) := by
  unfold reloadConf
  have h : SameSess s.ctl { s.ctl with
      reloadSavedgen := s.ctl.lastgen
      lastgen := s.ctl.lastgen + 1
      curgen := s.ctl.lastgen + 1
      reloadSession := some sid'
      reloadSavedsec := ((s.ctl.session sid').getD ⟨sid', 0, 0, false, []⟩).sec
      reloadSavedloc := ((s.ctl.session sid').getD ⟨sid', 0, 0, false, []⟩).locked
      reloading := true } := .same rfl rfl rfl
  have h' := h.trans (.setSess _ sid' (f := fun ss => { ss with sec := 4, locked := true })
    (fun _ => rfl) (fun _ => rfl) fun _ => rfl)
  have hlast := Nat.lt_succ_of_lt hs.lastgen
  refine h'.kept hn (hs.same h' rfl rfl hlast (fun _ => hs.lastgen) (fun _ => hlast)
    (fun sid'' g hb => ⟨(hs.batch_gen hb).1, fun _ _ => .inr (.inr hlast)⟩) hs.idle)

/-- Work of a collector on generations and chains. -/
theorem Fresh.of_generation {gen : ℕ → ℕ} (hnats : s'.nats = { s.nats with generation := gen })
    (hc : ∀ l ∈ s'.ctl.chains, ∀ x ∈ l, Known s x) : Fresh s s' := by
  have hquiet : SameNats s.nats s'.nats := by
    rw [hnats]
    exact ⟨fun _ => rfl, fun _ => rfl, rfl, rfl, rfl, rfl, Nat.le_refl _⟩
  apply Fresh.of_quiet hquiet
  rintro x (⟨pr, h⟩ | ⟨k, h⟩ | h | ⟨p, h⟩ | ⟨k, h⟩ | ⟨l, hl, h⟩)
  · exact .of_list (hquiet.list pr ▸ h)
  · exact .of_splay (hquiet.splay k ▸ h)
  · rw [hnats] at h
    exact .of_heap h
  · rw [hnats] at h
    exact .of_xlist h
  · exact .of_nathash (hquiet.nathash ▸ h)
  · exact hc l hl x h

/-! ### Closing -/

/-- The collector of the no-NAT tunnels leaves none of the generation. -/
theorem gcNonats_left (old : ℕ → Bool) (tuns : Tunnels) :
    (gcNonats old tuns).ngeneration = tuns.ngeneration ∧
      (gcNonats old tuns).next = tuns.next ∧ ∀ t ∈ (gcNonats old tuns).nonats, t ∈ tuns.nonats ∧
        ((tuns.nonat t.ptr).isSome = true → old (tuns.ngeneration t.ptr) = false) := by
  have hloop : ∀ (ts : List Tunnel) (tuns : Tunnels),
      (ts.foldl (fun tuns t =>
        if (tuns.nonat t.ptr).isSome && old (tuns.ngeneration t.ptr) then tuns.removeNonat t
        else tuns) tuns).ngeneration = tuns.ngeneration ∧
      (ts.foldl (fun tuns t =>
        if (tuns.nonat t.ptr).isSome && old (tuns.ngeneration t.ptr) then tuns.removeNonat t
        else tuns) tuns).next = tuns.next ∧
      ∀ t ∈ (ts.foldl (fun tuns t =>
        if (tuns.nonat t.ptr).isSome && old (tuns.ngeneration t.ptr) then tuns.removeNonat t
        else tuns) tuns).nonats, t ∈ tuns.nonats ∧
          (t ∈ ts → (tuns.nonat t.ptr).isSome = true → old (tuns.ngeneration t.ptr) = false) := by
    intro ts
    induction ts with
    | nil => exact fun tuns => ⟨rfl, rfl, fun t ht => ⟨ht, fun h => absurd h List.not_mem_nil⟩⟩
    | cons u ts ih =>
      intro tuns
      rw [List.foldl_cons]
      split
      · obtain ⟨hgen, hnext, hleft⟩ := ih (tuns.removeNonat u)
        refine ⟨hgen, hnext, fun t ht => ?_⟩
        obtain ⟨hmem, hold⟩ := hleft t ht
        obtain ⟨hmem, hne⟩ := List.mem_filter.mp hmem
        have hne := of_decide_eq_true hne
        refine ⟨hmem, fun hts hsome => ?_⟩
        rcases List.mem_cons.mp hts with rfl | hts
        · exact absurd rfl hne
        · refine hold hts ?_
          simp only [Tunnels.removeNonat, Tunnels.removeTunnel, Function.update_of_ne hne]
          exact hsome
      · rename_i hc
        obtain ⟨hgen, hnext, hleft⟩ := ih tuns
        refine ⟨hgen, hnext, fun t ht => ⟨(hleft t ht).1, fun hts hsome => ?_⟩⟩
        rcases List.mem_cons.mp hts with rfl | hts
        · rw [hsome, Bool.true_and, Bool.not_eq_true] at hc
          exact hc
        · exact (hleft t ht).2 hts hsome
  obtain ⟨hgen, hnext, hleft⟩ := hloop tuns.nonats tuns
  exact ⟨hgen, hnext, fun t ht => ⟨(hleft t ht).1, (hleft t ht).2 (hleft t ht).1⟩⟩

theorem session_filter (c : Control) (sid sid' : ℕ) :
    ({ c with sslist := c.sslist.filter (·.id ≠ sid) } : Control).session sid' =
      if sid' = sid then none else c.session sid' := by
  unfold Control.session
  rw [List.find?_filter]
  split
  · rename_i hsid
    subst hsid
    apply List.find?_eq_none.mpr
    intro ss _
    simp
  · rename_i hne
    congr 1
    funext ss
    by_cases hid : ss.id = sid' <;> simp [hid, hne]

/-- The list of sessions and the orphans after session `ss` is closed. -/
structure Closed (ss : Sess) (c c' : Control) : Prop where
  sslist : c'.sslist = c.sslist.filter (·.id ≠ ss.id)
  orphans : c'.orphans = ss :: c.orphans
  confnats : c'.confnats = c.confnats
  nextSess : c'.nextSess = c.nextSess
  needgc : c'.needgc ≠ 0

theorem Closed.session (h : Closed ss c c') (sid : ℕ) :
    c'.session sid = if sid = ss.id then none else c.session sid := by
  rw [← session_filter]
  unfold Control.session
  rw [h.sslist]

theorem Closed.sessions (h : Closed ss c c') (hss : ss ∈ c.sslist) :
    ∀ u ∈ c'.sessions, u ∈ c.sessions := by
  intro u hu
  rcases List.mem_append.mp hu with hu | hu
  · rw [h.sslist] at hu
    exact List.mem_append_left _ (List.mem_filter.mp hu).1
  · rw [h.orphans] at hu
    rcases List.mem_cons.mp hu with rfl | hu
    · exact List.mem_append_left _ hss
    · exact List.mem_append_right _ hu

theorem Closed.sessOk (h : Closed ss c c') (hs : SessOk c) (hss : ss ∈ c.sslist)
    (hses : c'.sesgen = c.sesgen) (hlast : c'.lastgen = c.lastgen)
    (hsaved : c'.reloading = true → FIRSTGEN < c'.reloadSavedgen)
    (hboot : c'.booting = true → FIRSTGEN < c'.curgen)
    (hbatch : c'.batch = c.batch) (hcur : c'.curgen = c.curgen) : SessOk c' where
  ids u hu := by
    rw [h.nextSess]
    exact hs.ids u (h.sessions hss u hu)
  gens u hu := by
    rw [h.sslist] at hu
    exact hs.gens u (List.mem_filter.mp hu).1
  apart u hu u' hu' := hs.apart u (h.sessions hss u hu) u' (h.sessions hss u' hu')
  sesgen := hses ▸ hs.sesgen
  lastgen := hlast ▸ hs.lastgen
  saved := hsaved
  booting := hboot
  batch sid g hb := by
    rw [hbatch] at hb
    rw [h.nextSess]
    refine ⟨(hs.batch sid g hb).1, fun u hu => ?_⟩
    rw [h.session] at hu
    split at hu
    · cases hu
    · rw [hcur]
      exact (hs.batch sid g hb).2 u hu
  idle h0 := absurd h0 h.needgc

/-- A session that is closed takes its entries with it. -/
theorem Closed.kept (h : Closed ss s.ctl s'.ctl) (hn : Names s) (hs : SessOk s.ctl)
    (hs' : SessOk s'.ctl) (hss : s.ctl.session ss.id = some ss) (hok : s.tuns.Ok)
    (htuns : s'.tuns = gcNonats (· = ss.generation) s.tuns)
    (hnats : s'.nats = { s.nats with
      generation := fun p =>
        if ss.snats.any (·.ptr = p) && s.nats.generation p = ss.generation then FIRSTGEN
        else s.nats.generation p }) : Kept sid s s' := by
  have hmem : ss ∈ s.ctl.sessions := List.mem_append_left _ (session_mem hss)
  obtain ⟨hgen, hnext, hleft⟩ := gcNonats_left (· = ss.generation) s.tuns
  rw [← htuns] at hgen hnext hleft
  have hlive : s'.nats.live = s.nats.live := by
    rw [hnats]
    rfl
  have hfresh : Fresh s s' := by
    apply Fresh.of_generation hnats
    intro l hl x hx
    rcases mem_chains.mp hl with rfl | ⟨u, hu, rfl⟩ | ⟨u, hu, rfl⟩
    · rw [h.confnats] at hx
      exact .of_chain (mem_chains.mpr (.inl rfl)) hx
    · exact known_of_snats u (h.sessions (session_mem hss) u (List.mem_append_left _ hu)) hx
    · exact known_of_snats u (h.sessions (session_mem hss) u (List.mem_append_right _ hu)) hx
  refine ⟨hfresh.names hn fun t ht => ?_, hs', fun x hx => ⟨?_, fun hl => ?_⟩, fun t ht => ?_⟩
  · rw [hnext]
    exact hn.tuns t (hleft t ht).1
  · rw [hnats]
    exact hx.1
  · rw [hlive] at hl
    have hgenx : s'.nats.generation x.ptr =
        if ss.snats.any (·.ptr = x.ptr) && s.nats.generation x.ptr = ss.generation then FIRSTGEN
        else s.nats.generation x.ptr := by rw [hnats]
    rcases hx.2 hl with ⟨u, hu, hxu, hg⟩ | ⟨hnone, u, hu, hid, hxu, hg⟩
    · by_cases hsid : sid = ss.id
      · subst hsid
        obtain rfl : ss = u := Option.some.inj (hss.symm.trans hu)
        refine .inr ⟨by rw [h.session, if_pos rfl], ss, ?_, rfl, hxu, ?_⟩
        · rw [h.orphans]
          exact List.mem_cons_self ..
        · have hany : ss.snats.any (·.ptr = x.ptr) = true :=
            List.any_eq_true.mpr ⟨x, hxu, decide_eq_true rfl⟩
          rw [hgenx, hany, hg, Bool.true_and, decide_eq_true rfl, if_pos rfl]
      · refine .inl ⟨u, by rw [h.session, if_neg hsid, hu], hxu, ?_⟩
        -- the chains of two sessions share no entry
        have hany : ss.snats.any (·.ptr = x.ptr) = false := by
          rw [List.any_eq_false]
          intro y hy hyx
          have hid := hs.apart ss hmem u (List.mem_append_left _ (session_mem hu)) y hy x hxu
            (of_decide_eq_true hyx)
          rw [session_id hu] at hid
          exact hsid hid.symm
        rw [hgenx, hany, Bool.false_and, if_neg Bool.false_ne_true, hg]
    · refine .inr ⟨?_, u, ?_, hid, hxu, ?_⟩
      · rw [h.session, hnone]
        split <;> rfl
      · rw [h.orphans]
        exact List.mem_cons_of_mem _ hu
      · rw [hgenx, hg]
        split <;> rfl
  · rw [nonatTagged_iff] at ht ⊢
    rw [hnext, hgen]
    refine ⟨ht.1, fun hmem' => ?_⟩
    obtain ⟨hold, hne⟩ := hleft t hmem'
    have hne := of_decide_eq_false (hne (hok.nonat_some t hold))
    rw [← ht.2 hold]
    unfold Control.genOf
    rw [h.session, if_neg]
    -- what is left is of another session
    rintro rfl
    have hgen' := ht.2 hold
    unfold Control.genOf at hgen'
    rw [hss] at hgen'
    exact hne (Option.some.inj hgen').symm

theorem gcSession_closed (s : State) (ss : Sess) : Closed ss s.ctl (gcSession ss { s with
    ctl := { s.ctl with sslist := s.ctl.sslist.filter (·.id ≠ ss.id) } }).ctl := by
  refine ⟨rfl, rfl, rfl, rfl, ?_⟩
  simp only [gcSession]
  split
  · exact Nat.one_ne_zero
  · assumption

theorem sessionClose_cases (sid : ℕ) (s : State) : (sessionClose sid s).1 = s ∨
    ∃ ss, s.ctl.session sid = some ss ∧ (sessionClose sid s).1 = gcSession ss { s with
      ctl := { s.ctl with sslist := s.ctl.sslist.filter (·.id ≠ sid) } } := by
  unfold sessionClose
  split
  · exact .inl rfl
  rename_i ss hss
  split
  · exact .inl rfl
  · exact .inr ⟨ss, hss, rfl⟩

theorem gcSession_kept (hn : Names s) (hs : SessOk s.ctl) (hok : s.tuns.Ok)
    (hss : s.ctl.session ss.id = some ss) : Kept sid s (gcSession ss { s with
      ctl := { s.ctl with sslist := s.ctl.sslist.filter (·.id ≠ ss.id) } }) := by
  have h := gcSession_closed s ss
  exact h.kept hn hs (h.sessOk hs (session_mem hss) rfl rfl hs.saved hs.booting rfl rfl) hss
    hok rfl rfl

theorem sessionClose_kept (hn : Names s) (hs : SessOk s.ctl) (hok : s.tuns.Ok) (sid' : ℕ) :
    Kept sid s (sessionClose sid' s).1 := by
  rcases sessionClose_cases sid' s with h | ⟨ss, hss, h⟩ <;> rw [h]
  · exact .refl hn hs
  · obtain rfl := session_id hss
    exact gcSession_kept hn hs hok hss

/-- The end of the start-up files, with the session of the terminal. -/
theorem act_bootDone (cfg : Conf) (s : State) (daemonize : Bool) (c : Control)
    (hc : c = ({ s.ctl with booting := false, curgen := 0 } : Control).setSess 0
      fun ss => { ss with sec := 8 }) :
    act cfg s (.bootDone daemonize) =
      if daemonize then
        match c.session 0 with
        | none => { s with ctl := c }
        | some ss => gcSession ss { s with
            ctl := { c with sslist := c.sslist.filter (·.id ≠ 0) } }
      else { s with ctl := c } := by
  subst hc
  rfl

theorem bootDone_kept (hn : Names s) (hs : SessOk s.ctl) (hok : s.tuns.Ok) (daemonize : Bool) :
    Kept sid s (act cfg s (.bootDone daemonize)) := by
  set c₀ : Control := { s.ctl with booting := false, curgen := 0 } with hc₀
  set c : Control := c₀.setSess 0 fun ss => { ss with sec := 8 } with hc
  have hsame : SameSess s.ctl c :=
    (SameSess.same rfl rfl rfl : SameSess s.ctl c₀).trans
      (.setSess c₀ 0 (f := fun ss => { ss with sec := 8 }) (fun _ => rfl) (fun _ => rfl)
        fun _ => rfl)
  have hsess : SessOk c := by
    refine hs.same hsame rfl rfl hs.lastgen hs.saved (fun h => ?_) (fun _ _ hb => ?_) hs.idle
    · cases h
    · exact ⟨(hs.batch_gen hb).1, fun _ _ => .inr (.inl rfl)⟩
  have hkept : Kept sid s { s with ctl := c } := hsame.kept hn hsess
  rw [act_bootDone cfg s daemonize c rfl]
  split
  swap
  · exact hkept
  split
  · exact hkept
  rename_i ss hss
  have hid := session_id hss
  rw [← hid] at hss
  have hclosed := @gcSession_kept { s with ctl := c } sid ss hkept.names hsess hok hss
  rw [hid] at hclosed
  exact hkept.trans hclosed

/-! ### Opening -/

theorem sessionNextgen_spec (k : ℕ) (c : Control) (h : c.sesgen < FIRSTGEN) :
    (sessionNextgen k c).2 < FIRSTGEN ∧
      ∃ g < FIRSTGEN, (sessionNextgen k c).1 = { c with sesgen := g } := by
  have hone : 1 < FIRSTGEN := by decide
  induction k generalizing c with
  | zero => exact ⟨hone, c.sesgen, h, rfl⟩
  | succ k ih =>
    unfold sessionNextgen
    dsimp only
    split
    · exact ih { c with sesgen := 0 } (Nat.lt_trans Nat.zero_lt_one hone)
    · rename_i hne
      have hlt : c.sesgen + 1 < FIRSTGEN := by omega
      split
      · exact ih { c with sesgen := c.sesgen + 1 } hlt
      · exact ⟨hlt, c.sesgen + 1, hlt, rfl⟩

theorem sessionOpen_kept (hn : Names s) (hs : SessOk s.ctl) :
    Kept sid s { s with ctl := sessionOpen s.ctl } := by
  obtain ⟨hg, g, hlt, hc⟩ := sessionNextgen_spec 20 s.ctl hs.sesgen
  unfold sessionOpen
  dsimp only
  rw [hc]
  set ss : Sess := ⟨s.ctl.nextSess, (sessionNextgen 20 s.ctl).2, 8, false, []⟩
  set c : Control := { s.ctl with
    sesgen := g, sslist := ss :: s.ctl.sslist, nextSess := s.ctl.nextSess + 1 }
  have hsess (u : Sess) (hu : u ∈ c.sessions) : u = ss ∨ u ∈ s.ctl.sessions := by
    rcases List.mem_append.mp hu with hu | hu
    · exact (List.mem_cons.mp hu).imp id fun h => List.mem_append_left _ h
    · exact .inr (List.mem_append_right _ hu)
  have hold {sid' : ℕ} (h : sid' < s.ctl.nextSess) : c.session sid' = s.ctl.session sid' := by
    unfold Control.session
    rw [List.find?_cons_of_neg]
    rw [decide_eq_true_iff]
    exact Nat.ne_of_gt h
  have hopen {sid' : ℕ} {u : Sess} (hu : s.ctl.session sid' = some u) :
      sid' < s.ctl.nextSess := by
    rw [← session_id hu]
    exact hs.ids u (List.mem_append_left _ (session_mem hu))
  have hc' : SessOk c := by
    refine ⟨fun u hu => ?_, fun u hu => ?_, fun u hu u' hu' x hx y hy hxy => ?_, hlt, hs.lastgen,
      hs.saved, hs.booting, fun sid' g' hb => ?_, hs.idle⟩
    · rcases hsess u hu with rfl | hu
      · exact Nat.lt_succ_self _
      · exact Nat.lt_succ_of_lt (hs.ids u hu)
    · rcases List.mem_cons.mp hu with rfl | hu
      · exact hg
      · exact hs.gens u hu
    · rcases hsess u hu with rfl | hu
      · cases hx
      · rcases hsess u' hu' with rfl | hu'
        · cases hy
        · exact hs.apart u hu u' hu' x hx y hy hxy
    · obtain ⟨hid, hgen⟩ := hs.batch sid' g' hb
      refine ⟨Nat.lt_succ_of_lt hid, fun u hu => hgen u ?_⟩
      rw [← hold hid]
      exact hu
  refine ⟨hn.ctl fun l hl x hx => ?_, hc', fun x hx => ⟨hx.1, fun hl => ?_⟩, fun t ht =>
    ⟨ht.1, fun hmem => ?_⟩⟩
  · rcases mem_chains.mp hl with rfl | ⟨u, hu, rfl⟩ | ⟨u, hu, rfl⟩
    · exact .of_chain (mem_chains.mpr (.inl rfl)) hx
    · rcases List.mem_cons.mp hu with rfl | hu
      · cases hx
      · exact known_of_snats u (List.mem_append_left _ hu) hx
    · exact known_of_snats u (List.mem_append_right _ hu) hx
  · rcases hx.2 hl with ⟨u, hu, hmem, hgen⟩ | ⟨hnone, u, hu, hid, hmem, hgen⟩
    · exact .inl ⟨u, by rw [← hu]; exact hold (hopen hu), hmem, hgen⟩
    · refine .inr ⟨?_, u, hu, hid, hmem, hgen⟩
      rw [← hnone]
      apply hold
      rw [← hid]
      exact hs.ids u (List.mem_append_right _ hu)
  · obtain ⟨u, hu, hgen⟩ := ht.2 hmem
    exact ⟨u, by rw [← hu]; exact hold (hopen hu), hgen⟩

/-! ### Collecting -/

/-- An entry leaves its chain and is deleted. -/
theorem delNat_kept (hn : Names s) (hs : SessOk s.ctl) {n : NatEntry} (hk : Known s n)
    (seconds : ℕ) (hslim : Slim s.ctl c) (hsame : SameGens s.ctl c)
    (hchains : ∀ l ∈ c.chains, ∀ x ∈ l, Known s x) (hgen : ∀ sid, c.genOf sid = s.ctl.genOf sid)
    (hstay : ∀ x : NatEntry, x.ptr ≠ n.ptr → StaysOn x s.ctl c) :
    Kept sid s (delNat cfg seconds n { s with ctl := c }) := by
  have hctl : (delNat cfg seconds n { s with ctl := c }).ctl = c.unchain n := rfl
  have hgens : SameGens c (c.unchain n) := by
    unfold Control.unchain
    split <;> exact ⟨rfl, rfl, rfl, rfl, rfl, rfl, rfl, rfl, rfl⟩
  have hnats : (delNat cfg seconds n { s with ctl := c }).nats = (delNat cfg seconds n s).nats := rfl
  have hnext : (delNat cfg seconds n s).nats.next = s.nats.next := (delNat_rest ..).2.2.2.1
  refine ⟨?_, ?_, fun x hx => ?_, fun t ht => ?_⟩
  · apply (delNat_fresh cfg seconds n { s with ctl := c }).names (hn.ctl hchains)
    exact hn.tuns
  · rw [hctl]
    exact hs.slim (hslim.trans (.unchain n)) (hsame.trans hgens)
  · apply hx.stay (by rw [hnats, hnext]) <;> rw [hnats]
    · exact fun hl => (hn.delNat_live hk hl).1
    · intro _
      rw [delNat_generation]
    · intro hl
      have hne := (hn.delNat_live hk hl).2
      exact (hstay x hne).trans (.unchain hne c)
  · rw [nonatTagged_iff] at ht ⊢
    refine ⟨ht.1, fun hmem => ?_⟩
    rw [hctl, genOf_unchain, hgen]
    exact ht.2 hmem

theorem freeOrphans_slim (c : Control) : Slim c (freeOrphans c) where
  sslist ss hss := ⟨ss, hss, rfl, rfl, List.Subset.refl _⟩
  orphans ss hss := ⟨ss, List.dropWhile_sublist _ |>.mem hss, rfl, List.Subset.refl _⟩
  session _ ss hss := ⟨ss, hss, rfl⟩

theorem freeOrphans_staysOn (x : NatEntry) (c : Control) : StaysOn x c (freeOrphans c) where
  some sid ss h hx := ⟨ss, h, rfl, hx⟩
  none sid h := h
  orphans ss h hx := by
    refine ⟨ss, ?_, rfl, hx⟩
    -- what is dropped in front has no entries
    have hdrop := List.takeWhile_append_dropWhile (p := fun ss => ss.snats.isEmpty) (l := c.orphans)
    rw [← hdrop] at h
    rcases List.mem_append.mp h with h | h
    · have hempty := List.mem_takeWhile_imp h
      rw [List.isEmpty_iff] at hempty
      rw [hempty] at hx
      cases hx
    · exact h

theorem freeOrphans_kept (hn : Names s) (hs : SessOk s.ctl) :
    Kept sid s { s with ctl := freeOrphans s.ctl } := by
  refine ⟨hn.ctl fun l hl x hx => .of_chain (freeOrphans_chains l hl) hx,
    hs.slim (freeOrphans_slim _) ⟨rfl, rfl, rfl, rfl, rfl, rfl, rfl, rfl, rfl⟩, fun x hx => ?_,
    fun t ht => ht⟩
  · exact hx.stay (Nat.le_refl _) (fun hx => hx) (fun _ => rfl) fun _ => freeOrphans_staysOn x _

theorem listRemove_genOf (n : NatEntry) (c : Control) (sid : ℕ) :
    (c.listRemove n).genOf sid = c.genOf sid :=
  genOf_map (f := Control.dropSnat n) (fun _ => rfl) (fun _ => rfl) rfl sid

theorem gcStart_same (c : Control) : SameSess c (gcStart c) := by
  unfold gcStart
  split <;> exact .same rfl rfl rfl

theorem gcStart_sessOk (hs : SessOk c) (ho : c.orphans = []) : SessOk (gcStart c) := by
  have hsame := gcStart_same c
  unfold gcStart at hsame ⊢
  split at hsame
  · rename_i hgc
    rw [if_pos hgc]
    exact hs.same hsame rfl rfl hs.lastgen hs.saved hs.booting (fun _ _ hb => hs.batch_gen hb)
      fun _ => ho
  · rename_i hgc
    rw [if_neg hgc]
    exact hs

theorem gcIncr_kept (seconds k : ℕ) (hn : Names s) (hs : SessOk s.ctl) :
    Kept sid s (gcIncr cfg seconds k s) := by
  refine gcIncr_keep seconds k (.refl hn hs) ?_ ?_ ?_ ?_ ?_
  · exact fun a ha => ha.trans (freeOrphans_kept ha.names ha.sess)
  · intro a n ha hhead
    obtain ⟨ss, hss, hmem⟩ := Option.bind_eq_some_iff.mp hhead
    have hk : Known a n := known_of_snats ss (List.mem_append_right _ (List.mem_of_head? hss))
      (List.mem_of_head? hmem)
    exact ha.trans (delNat_kept ha.names ha.sess hk seconds (.listRemove n)
      ⟨rfl, rfl, rfl, rfl, rfl, rfl, rfl, rfl, rfl⟩
      (fun l hl x hx => let ⟨_, _, hl', hx'⟩ := chains_listRemove hl hx
        .of_chain hl' hx') (listRemove_genOf n _) fun x hne => .listRemove hne _)
  · intro a ha ho
    exact ha.trans ((gcStart_same a.ctl).kept ha.names (gcStart_sessOk ha.sess ho))
  · intro a ha ho _ _
    have hdone : SameSess a.ctl { a.ctl with gcPtr := none, needgc := 0 } := .same rfl rfl rfl
    exact ha.trans (hdone.kept ha.names (ha.sess.same hdone rfl rfl ha.sess.lastgen ha.sess.saved
      ha.sess.booting (fun _ _ hb => ha.sess.batch_gen hb) fun _ => ho))
  · intro a n ha _ hseek
    have hk : Known a n := .of_chain (mem_chains.mpr (.inl rfl)) (gcSeek_mem hseek)
    have hsame : Slim a.ctl { a.ctl with gcPtr := listNext n a.ctl.confnats } := .same rfl rfl
    exact ha.trans (delNat_kept ha.names ha.sess hk seconds (hsame.trans (.listRemove n))
      ⟨rfl, rfl, rfl, rfl, rfl, rfl, rfl, rfl, rfl⟩
      (fun l hl x hx => let ⟨_, _, hl', hx'⟩ := chains_listRemove hl hx
        .of_chain hl' hx') (listRemove_genOf n _)
      fun x hne => (StaysOn.same rfl rfl : StaysOn x a.ctl { a.ctl with
        gcPtr := listNext n a.ctl.confnats }).trans (.listRemove hne _))

/-- Work on the generations of the file. -/
theorem generation_kept (hn : Names s) (hs : SessOk s.ctl) (hsame : SameSess s.ctl c)
    (hc : SessOk c) {gen : ℕ → ℕ}
    (hgen : ∀ p, s.nats.generation p ≤ FIRSTGEN → gen p = s.nats.generation p) :
    Kept sid s { s with ctl := c, nats := { s.nats with generation := gen } } := by
  set s₁ : State := { s with ctl := c, nats := { s.nats with generation := gen } }
  have hfresh : Fresh s s₁ :=
    .of_generation rfl fun l hl x hx => .of_chain (hsame.chains ▸ hl) hx
  refine ⟨hfresh.names hn hn.tuns, hc, fun x hx => ?_, fun t ht => ?_⟩
  · have hnext : s.nats.next ≤ s₁.nats.next := Nat.le_refl _
    exact hx.stay hnext (fun hx => hx) (fun hl => hgen _ (hx.old hs hl)) fun _ => hsame.staysOn x
  · rw [nonatTagged_iff] at ht ⊢
    refine ⟨ht.1, fun hmem => ?_⟩
    rw [← ht.2 hmem]
    exact hsame.genOf sid

theorem btLoop_kept (k : ℕ) (hn : Names s) (hs : SessOk s.ctl) : Kept sid s (btLoop k s) := by
  induction k generalizing s with
  | zero => exact .refl hn hs
  | succ k ih =>
    unfold btLoop
    split
    · have h : SameSess s.ctl { s.ctl with needbt := 0 } := .same rfl rfl rfl
      exact h.kept hn (hs.same h rfl rfl hs.lastgen hs.saved hs.booting
        (fun _ _ hb => hs.batch_gen hb) hs.idle)
    · rename_i n _
      have hsame : SameSess s.ctl { s.ctl with btPtr := listNext n s.ctl.confnats } :=
        .same rfl rfl rfl
      have hsess := hs.same hsame rfl rfl hs.lastgen hs.saved hs.booting
        (fun _ _ hb => hs.batch_gen hb) hs.idle
      have h := @generation_kept s sid _ hn hs hsame hsess (Function.update s.nats.generation n.ptr
        (min (s.nats.generation n.ptr) s.ctl.lastgen)) fun p hp => by
          have hlast := hs.lastgen
          simp only [Function.update_apply]
          split
          · rename_i hpn
            rw [hpn] at hp ⊢
            exact Nat.min_eq_left (by omega)
          · rfl
      exact h.trans (ih h.names h.sess)

theorem btIncr_kept (quantum : ℕ) (hn : Names s) (hs : SessOk s.ctl) :
    Kept sid s (btIncr quantum s) := by
  have hsame : SameSess s.ctl (btStart s.ctl) := by
    unfold btStart
    split <;> exact .same rfl rfl rfl
  have hsess : SessOk (btStart s.ctl) := by
    unfold btStart at hsame ⊢
    split at hsame
    · rename_i hbt
      rw [if_pos hbt]
      exact hs.same hsame rfl rfl hs.lastgen hs.saved hs.booting (fun _ _ hb => hs.batch_gen hb)
        hs.idle
    · rename_i hbt
      rw [if_neg hbt]
      exact hs
  have h := @SameSess.kept s sid _ hsame hn hsess
  exact h.trans (btLoop_kept _ h.names h.sess)

/-! ### The end of a reload -/

theorem gcReload_kept (hn : Names s) (hs : SessOk s.ctl) : Kept sid s (gcReload s) := by
  have hgc : Changes {} { deletes := true } s _ :=
    gcNonats_changes rfl (fun g => FIRSTGEN ≤ g && g < s.ctl.lastgen) s
  have h := @Changes.kept _ _ _ _ sid hgc rfl hn hs
  apply h.trans
  have hsame : SameSess s.ctl { s.ctl with needgc := 2, gcPtr := none } := .same rfl rfl rfl
  exact SameSess.kept (s := { s with
    tuns := gcNonats (fun g => FIRSTGEN ≤ g && g < s.ctl.lastgen) s.tuns }) hsame h.names
    (hs.same hsame rfl rfl hs.lastgen hs.saved hs.booting (fun _ _ hb => hs.batch_gen hb)
      fun h0 => absurd h0 (Nat.succ_ne_zero 1))

theorem btReload_kept (hn : Names s) (hs : SessOk s.ctl) : Kept sid s (btReload s) := by
  have hsame : SameSess s.ctl { s.ctl with needbt := 2, btPtr := none } := .same rfl rfl rfl
  have hsess := hs.same hsame rfl rfl hs.lastgen hs.saved hs.booting
    (fun _ _ hb => hs.batch_gen hb) hs.idle
  have hfresh : Fresh s (btReload s) :=
    .of_generation (show _ = { s.nats with generation := s.nats.generation } from rfl)
      fun l hl x hx => .of_chain (hsame.chains ▸ hl) hx
  refine ⟨hfresh.names hn hn.tuns, hsess, fun x hx => ?_, fun t ht => ?_⟩
  · exact hx.stay (Nat.le_refl _) (fun hx => hx) (fun _ => rfl) fun _ => hsame.staysOn x
  · have htag := ht
    rw [nonatTagged_iff] at ht ⊢
    refine ⟨ht.1, fun hmem => ?_⟩
    have hold := htag.old hs hmem
    have hlast := hs.lastgen
    have hle : ¬ s.tuns.ngeneration t.ptr > s.ctl.lastgen := by omega
    rw [show (btReload s).ctl.genOf sid = s.ctl.genOf sid from rfl, ht.2 hmem]
    simp only [btReload, decide_eq_false hle, Bool.and_false, Bool.false_eq_true, if_false]

theorem reloadFinish_kept (backtrack : Bool) (hn : Names s) (hs : SessOk s.ctl)
    (hr : s.ctl.reloading = true) (hb : s.ctl.booting = false) :
    Kept sid s (reloadFinish backtrack s) := by
  unfold reloadFinish
  dsimp only
  set restore : Sess → Sess := fun ss =>
    { ss with sec := s.ctl.reloadSavedsec, locked := s.ctl.reloadSavedloc }
  set c : Control := s.ctl.reloadSession.elim s.ctl fun sid => s.ctl.setSess sid restore with hc
  have hsame : SameSess s.ctl c ∧ c.nextSess = s.ctl.nextSess ∧ c.sesgen = s.ctl.sesgen ∧
      c.lastgen = s.ctl.lastgen ∧ c.booting = s.ctl.booting ∧ c.batch = s.ctl.batch ∧
      c.needgc = s.ctl.needgc := by
    rw [hc]
    cases s.ctl.reloadSession with
    | none => exact ⟨.same rfl rfl rfl, rfl, rfl, rfl, rfl, rfl, rfl⟩
    | some sid' =>
      refine ⟨.setSess _ sid' ?_ ?_ ?_, rfl, rfl, rfl, rfl, rfl, rfl⟩ <;> exact fun _ => rfl
  obtain ⟨hsame, hnext, hses, hlast, hboot, hbatch, hgc⟩ := hsame
  have hdone (g : ℕ) (hg : FIRSTGEN < g) :
      SameSess s.ctl { c with lastgen := g, reloading := false, curgen := 0, reloadSession := none } ∧
      SessOk { c with lastgen := g, reloading := false, curgen := 0, reloadSession := none } := by
    have h := hsame.trans (.same rfl rfl rfl : SameSess c
      { c with lastgen := g, reloading := false, curgen := 0, reloadSession := none })
    refine ⟨h, hs.same h hnext hses hg (fun h => ?_) (fun h => ?_) (fun sid g hb => ?_) fun h => ?_⟩
    · cases h
    · rw [show _ = c.booting from rfl, hboot, hb] at h
      cases h
    · rw [show _ = c.batch from rfl, hbatch] at hb
      exact ⟨(hs.batch_gen hb).1, fun _ _ => .inr (.inl rfl)⟩
    · exact hs.idle (hgc.symm.trans h)
  cases backtrack with
  | true =>
    obtain ⟨h, hsess⟩ := hdone _ (hs.saved hr)
    have hkept : Kept sid s { s with ctl := _ } := h.kept hn hsess
    exact hkept.trans (btReload_kept hkept.names hkept.sess)
  | false =>
    obtain ⟨h, hsess⟩ := hdone _ (hlast ▸ hs.lastgen)
    have hkept : Kept sid s { s with ctl := _ } := h.kept hn hsess
    exact hkept.trans (gcReload_kept hkept.names hkept.sess)

end

end WanStack.Aftr
