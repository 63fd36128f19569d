import WanStack.Aftr.FileEntries
import WanStack.Aftr.SessionRuns

set_option autoImplicit false

/-!
# Entries of the file along a run

The control channel, the reload and the collectors keep `FileInv`, so that it
holds in every state of a run. Between two reloads, with nothing left to
collect, every entry of the file has the generation of the last load.
-/
namespace WanStack.Aftr
open SearchTree Relation

section
variable {cfg : Conf} {s s' : State} {c : Control} {gen : ℕ → ℕ} {n x : NatEntry}

/-! ### Sessions and batches -/

/-- Work on the control part that leaves the entries on their chains. -/
theorem FileInv.ctl (hi : FileInv s) (hs : SameSess s.ctl c) (hok : SessOk c) (hp : Phases c)
    (hf : Filed s.nats.generation c) : FileInv { s with ctl := c } where
  names := hi.names.same hs
  sess := hok
  phases := hp
  filed := hf
  heap := hi.heap
  chains l hl := hi.chains l (hs.chains ▸ hl)

theorem FileInv.setSess (hi : FileInv s) (sid : ℕ) {f : Sess → Sess} (hid : ∀ ss, (f ss).id = ss.id)
    (hgen : ∀ ss, (f ss).generation = ss.generation) (hsn : ∀ ss, (f ss).snats = ss.snats) :
    FileInv { s with ctl := s.ctl.setSess sid f } := by
  have h : SameSess s.ctl (s.ctl.setSess sid f) := .setSess s.ctl sid hid hgen hsn
  have hp := hi.phases
  exact hi.ctl h (hi.sess.same h rfl rfl hi.sess.lastgen hi.sess.saved hi.sess.booting
    (fun _ _ hb => hi.sess.batch_gen hb) hi.sess.idle)
    ⟨hp.cur, hp.batch, hp.busy, hp.saved, hp.gc, hp.bt, hp.gcStart, hp.btStart, hp.apart⟩
    (hi.filed.same h ⟨rfl, rfl, rfl, rfl, rfl⟩ rfl rfl)

/-- Outside a batch commands do not run with the generation of the file. -/
def Between (c : Control) : Prop := c.booting = false → c.batch = none → c.curgen < FIRSTGEN

theorem commandsDone_fileInv (hi : FileInv s) (hb : s.ctl.booting = false) :
    FileInv (commandsDone s) ∧ (Between s.ctl → Between (commandsDone s).ctl) := by
  have hsess := (@commandsDone_kept s 0 hi.names hi.sess hb).sess
  unfold commandsDone at hsess ⊢
  split
  · exact ⟨hi, id⟩
  · rename_i sid savedgen hbatch
    rw [hbatch] at hsess
    have hp := hi.phases
    have hlt := hp.batch sid savedgen hbatch
    have h : SameSess s.ctl { s.ctl with batch := none, curgen := savedgen } := .same rfl rfl rfl
    refine ⟨hi.ctl h hsess ⟨.inl hlt, fun _ _ hb => absurd hb nofun, hp.busy, hp.saved, hp.gc, hp.bt,
      hp.gcStart, hp.btStart, hp.apart⟩ (hi.filed.same h ⟨rfl, rfl, rfl, rfl, rfl⟩ rfl rfl),
      fun _ _ _ => hlt⟩

theorem openBatch_fileInv (hi : FileInv s) (hb : s.ctl.booting = false) (hbetween : Between s.ctl)
    (sid : ℕ) : FileInv (openBatch sid s) ∧ Between (openBatch sid s).ctl := by
  have hsess := (@openBatch_kept s 0 hi.names hi.sess hb sid).sess
  unfold openBatch at hsess ⊢
  split
  · exact ⟨hi, hbetween⟩
  rename_i ss hss
  rw [hss] at hsess
  dsimp only at hsess
  split
  · exact ⟨hi, hbetween⟩
  rename_i hno
  rw [if_neg hno] at hsess
  simp only [Bool.or_eq_true, not_or, Bool.not_eq_true, Option.isSome_eq_false_iff,
    Option.isNone_iff_eq_none] at hno
  have hp := hi.phases
  have h : SameSess s.ctl { s.ctl with
      batch := some (sid, s.ctl.curgen), curgen := ss.generation, serving := true } :=
    .same rfl rfl rfl
  have hgen := hi.sess.gens ss (session_mem hss)
  refine ⟨hi.ctl h hsess ⟨.inl hgen, fun _ _ heq => ?_, hp.busy, hp.saved, hp.gc, hp.bt,
    hp.gcStart, hp.btStart, hp.apart⟩ (hi.filed.same h ⟨rfl, rfl, rfl, rfl, rfl⟩ rfl rfl),
    fun _ heq => by cases heq⟩
  cases heq
  exact hbetween hb hno.1

theorem sessionOpen_fileInv (hi : FileInv s) : FileInv { s with ctl := sessionOpen s.ctl } := by
  have hkept := @sessionOpen_kept s 0 hi.names hi.sess
  refine ⟨hkept.names, hkept.sess, ?_, ?_, hi.heap, ?_⟩
  all_goals
    obtain ⟨-, g, -, hc⟩ := sessionNextgen_spec 20 s.ctl hi.sess.sesgen
    unfold sessionOpen
    dsimp only
    rw [hc]
  · have hp := hi.phases
    exact ⟨hp.cur, hp.batch, hp.busy, hp.saved, hp.gc, hp.bt, hp.gcStart, hp.btStart, hp.apart⟩
  · have hf := hi.filed
    refine ⟨hf.nodup, fun x hx ss hss y hy => ?_, fun ss hss ss' hss' => ?_, fun ss hss x hx => ?_,
      hf.file, hf.gcPtr, hf.btPtr⟩
    · rcases List.mem_cons.mp hss with rfl | hss
      · cases hy
      · exact hf.apart x hx ss hss y hy
    · rcases List.mem_cons.mp hss with rfl | hss
      · exact Nat.ne_of_gt (hi.sess.ids ss' (List.mem_append_right _ hss'))
      · exact hf.orphans ss hss ss' hss'
    · rcases List.mem_cons.mp hss with rfl | hss
      · cases hx
      · exact hf.snats ss hss x hx
  · intro l hl x hx
    rcases mem_chains.mp hl with rfl | ⟨ss, hss, rfl⟩ | ⟨ss, hss, rfl⟩
    · exact hi.chains _ (mem_chains.mpr (.inl rfl)) x hx
    · rcases List.mem_cons.mp hss with rfl | hss
      · cases hx
      · exact hi.chains _ (mem_chains.mpr (.inr (.inl ⟨ss, hss, rfl⟩))) x hx
    · exact hi.chains _ (mem_chains.mpr (.inr (.inr ⟨ss, hss, rfl⟩))) x hx

/-- A session that is closed leaves its entries to the collector. -/
theorem gcSession_fileInv (hi : FileInv s) (hok : s.tuns.Ok) {ss : Sess}
    (hss : s.ctl.session ss.id = some ss) : FileInv (gcSession ss { s with
      ctl := { s.ctl with sslist := s.ctl.sslist.filter (·.id ≠ ss.id) } }) := by
  have hkept := @gcSession_kept s 0 ss hi.names hi.sess hok hss
  have hclosed := gcSession_closed s ss
  have hmem := session_mem hss
  have hp := hi.phases
  have hf := hi.filed
  have hptr : (if s.ctl.needgc = 0 then none else s.ctl.gcPtr) = s.ctl.gcPtr := by
    split
    · rename_i h0
      rw [hp.gc h0]
    · rfl
  -- the generations that change are those of the entries of the session
  have hgen (x : NatEntry) (hx : ∀ y ∈ ss.snats, x.ptr ≠ y.ptr) :
      (gcSession ss { s with
        ctl := { s.ctl with sslist := s.ctl.sslist.filter (·.id ≠ ss.id) } }).nats.generation x.ptr =
        s.nats.generation x.ptr := by
    have hany : ss.snats.any (·.ptr = x.ptr) = false := by
      rw [List.any_eq_false]
      intro y hy hyx
      exact hx y hy (of_decide_eq_true hyx).symm
    simp only [gcSession, hany, Bool.false_and, Bool.false_eq_true, if_false]
  have hneed : 1 < (if s.ctl.needgc = 0 then 1 else s.ctl.needgc) ↔ 1 < s.ctl.needgc := by
    split
    · omega
    · rfl
  refine ⟨hkept.names, hkept.sess, ?_, ?_, hi.heap, fun l hl x hx => ?_⟩
  · refine ⟨hp.cur, hp.batch, fun hb => ?_, hp.saved, fun h0 => absurd h0 hclosed.needgc, hp.bt,
      fun h1 => hptr.trans (hp.gcStart (hneed.mp h1)), hp.btStart, fun h0 => ?_⟩
    · obtain ⟨hgc, hnone, hbt⟩ := hp.busy hb
      refine ⟨?_, hptr.trans hnone, hbt⟩
      have := mt hneed.mp (Nat.not_lt.mpr hgc)
      exact Nat.not_lt.mp this
    · obtain ⟨hgc, hnone⟩ := hp.apart h0
      refine ⟨?_, hptr.trans hnone⟩
      have := mt hneed.mp (Nat.not_lt.mpr hgc)
      exact Nat.not_lt.mp this
  · refine ⟨hf.nodup, fun x hx u hu => ?_, fun u hu u' hu' => ?_, fun u hu x hx => ?_,
      fun x hx => ?_, fun g hg => hf.gcPtr g (hptr ▸ hg), hf.btPtr⟩
    · exact hf.apart x hx u (hclosed.sessions hmem u hu)
    · obtain ⟨hu, hne⟩ := List.mem_filter.mp hu
      rcases List.mem_cons.mp hu' with rfl | hu'
      · exact of_decide_eq_true hne
      · exact hf.orphans u hu u' hu'
    · obtain ⟨hu, hne⟩ := List.mem_filter.mp hu
      rw [hgen x fun y hy hxy => of_decide_eq_true hne (hi.sess.apart u
        (List.mem_append_left _ hu) ss (List.mem_append_left _ hmem) x hx y hy hxy)]
      exact hf.snats u hu x hx
    · have h := hf.file x hx
      have hold := hgen x (hf.apart x hx ss (List.mem_append_left _ hmem))
      unfold FileGen
      rw [hold]
      rcases h with h | h | h | ⟨h, hc⟩ | h
      · exact .inl h
      · exact .inr (.inl h)
      · exact .inr (.inr (.inl h))
      · refine .inr (.inr (.inr (.inl ⟨h, hc.imp hneed.mpr fun hx => ?_⟩)))
        exact Eq.mpr (congrArg (x ∈ Cursor.ahead NatEntry.ptr · s.ctl.confnats) hptr) hx
      · exact .inr (.inr (.inr (.inr h)))
  · rcases mem_chains.mp hl with rfl | ⟨u, hu, rfl⟩ | ⟨u, hu, rfl⟩
    · exact hi.chains _ (mem_chains.mpr (.inl rfl)) x hx
    · exact mem_sessions hi.chains u (hclosed.sessions hmem u (List.mem_append_left _ hu)) x hx
    · exact mem_sessions hi.chains u (hclosed.sessions hmem u (List.mem_append_right _ hu)) x hx

theorem sessionClose_fileInv (hi : FileInv s) (hok : s.tuns.Ok) (sid : ℕ) :
    FileInv (sessionClose sid s).1 := by
  rcases sessionClose_cases sid s with h | ⟨ss, hss, h⟩ <;> rw [h]
  · exact hi
  · obtain rfl := session_id hss
    exact gcSession_fileInv hi hok hss

theorem bootDone_fileInv (hi : FileInv s) (hok : s.tuns.Ok) (daemonize : Bool) :
    FileInv (act cfg s (.bootDone daemonize)) ∧ Between (act cfg s (.bootDone daemonize)).ctl := by
  set c₀ : Control := { s.ctl with booting := false, curgen := 0 } with hc₀
  have hpos : 0 < FIRSTGEN := by decide
  have hp := hi.phases
  have h₀ : FileInv { s with ctl := c₀ } := by
    have hsame : SameSess s.ctl c₀ := .same rfl rfl rfl
    refine hi.ctl hsame (hi.sess.same hsame rfl rfl hi.sess.lastgen hi.sess.saved (fun h => ?_)
      (fun _ _ hb => ⟨(hi.sess.batch_gen hb).1, fun _ _ => .inr (.inl rfl)⟩) hi.sess.idle)
      ⟨.inl hpos, hp.batch, fun hb => hp.busy (.inr (hb.resolve_left Bool.false_ne_true)), hp.saved,
        hp.gc, hp.bt, hp.gcStart, hp.btStart, hp.apart⟩
      (hi.filed.same hsame ⟨rfl, rfl, rfl, rfl, rfl⟩ rfl rfl)
    cases h
  set c : Control := c₀.setSess 0 fun ss => { ss with sec := 8 } with hc
  have h₁ : FileInv { s with ctl := c } :=
    h₀.setSess 0 (f := fun ss => { ss with sec := 8 }) (fun _ => rfl) (fun _ => rfl) fun _ => rfl
  rw [act_bootDone cfg s daemonize c rfl]
  split
  swap
  · exact ⟨h₁, fun _ _ => hpos⟩
  split
  · exact ⟨h₁, fun _ _ => hpos⟩
  rename_i ss hss
  have hid := session_id hss
  rw [← hid] at hss
  have hclosed := @gcSession_fileInv { s with ctl := c } h₁ hok ss hss
  rw [hid] at hclosed
  exact ⟨hclosed, fun _ _ => hpos⟩

/-! ### Reloads -/

/-- With the collectors at rest every entry of the file is up to date. -/
theorem FileGen.rest (h : FileGen gen c x) (hp : Phases c) (hgc : c.needgc = 0)
    (hbt : c.needbt = 0) :
    gen x.ptr < FIRSTGEN ∨ gen x.ptr = c.lastgen ∨
      c.reloading = true ∧ gen x.ptr = c.reloadSavedgen := by
  rcases h with h | h | h | ⟨-, hc | hx⟩ | ⟨-, hc | hx⟩
  · exact .inl h
  · exact .inr (.inl h)
  · exact .inr (.inr h)
  · omega
  · rw [Control.gcAhead, hp.gc hgc] at hx
    cases hx
  · omega
  · rw [Control.btAhead, hp.bt hbt] at hx
    cases hx

theorem reloadConf_fileInv (hi : FileInv s) (sid : ℕ) (hr : s.ctl.reloading = false)
    (hgc : s.ctl.needgc = 0) (hbt : s.ctl.needbt = 0) : FileInv (reloadConf sid s) := by
  have hkept := @reloadConf_kept s 0 hi.names hi.sess sid
  unfold reloadConf at hkept ⊢
  dsimp only at hkept ⊢
  set c : Control := { s.ctl with
    reloadSavedgen := s.ctl.lastgen
    lastgen := s.ctl.lastgen + 1
    curgen := s.ctl.lastgen + 1
    reloadSession := some sid
    reloadSavedsec := ((s.ctl.session sid).getD ⟨sid, 0, 0, false, []⟩).sec
    reloadSavedloc := ((s.ctl.session sid).getD ⟨sid, 0, 0, false, []⟩).locked
    reloading := true } with hc
  have hsame : SameSess s.ctl (c.setSess sid fun ss => { ss with sec := 4, locked := true }) :=
    (SameSess.same rfl rfl rfl : SameSess s.ctl c).trans
      (.setSess c sid (fun _ => rfl) (fun _ => rfl) fun _ => rfl)
  have hp := hi.phases
  refine hi.ctl hsame hkept.sess ?_ ?_
  · refine ⟨.inr ⟨.inr rfl, rfl⟩, hp.batch, fun _ => ⟨?_, hp.gc hgc, hbt⟩, fun _ => rfl, hp.gc, hp.bt,
      hp.gcStart, hp.btStart, hp.apart⟩
    change s.ctl.needgc ≤ 1
    omega
  · refine hi.filed.slim hsame.slim (by rw [hsame.confnats]) (fun _ _ _ _ => rfl) (fun x hx => ?_)
      hi.filed.gcPtr hi.filed.btPtr
    rcases (hi.filed.file x hx).rest hp hgc hbt with h | h | ⟨h, -⟩
    · exact .inl h
    · exact .inr (.inr (.inl ⟨rfl, h⟩))
    · rw [hr] at h
      cases h

/-- The end of a reload turns what it has not read into work for one of the
    collectors. -/
theorem reloadFinish_fileInv (backtrack : Bool) (hi : FileInv s) (hr : s.ctl.reloading = true)
    (hb : s.ctl.booting = false) : FileInv (reloadFinish backtrack s) := by
  have hkept := @reloadFinish_kept s 0 backtrack hi.names hi.sess hr hb
  have hp := hi.phases
  obtain ⟨hgc, hnone, hbt⟩ := hp.busy (.inr hr)
  have hsaved := hp.saved hr
  have hpos : 0 < FIRSTGEN := by decide
  unfold reloadFinish at hkept ⊢
  dsimp only at hkept ⊢
  set restore : Sess → Sess := fun ss =>
    { ss with sec := s.ctl.reloadSavedsec, locked := s.ctl.reloadSavedloc }
  set c : Control := s.ctl.reloadSession.elim s.ctl fun sid => s.ctl.setSess sid restore with hc
  have hsame : SameSess s.ctl c ∧ c.batch = s.ctl.batch ∧ c.booting = s.ctl.booting ∧
      c.needgc = s.ctl.needgc ∧ c.needbt = s.ctl.needbt ∧ c.lastgen = s.ctl.lastgen ∧
      c.gcPtr = s.ctl.gcPtr ∧ c.btPtr = s.ctl.btPtr := by
    rw [hc]
    cases s.ctl.reloadSession with
    | none => exact ⟨.same rfl rfl rfl, rfl, rfl, rfl, rfl, rfl, rfl, rfl⟩
    | some sid =>
      refine ⟨.setSess _ sid ?_ ?_ ?_, rfl, rfl, rfl, rfl, rfl, rfl, rfl⟩ <;> exact fun _ => rfl
  obtain ⟨hsame, hbatch, hboot, hgc', hbt', hlast, hgcPtr, hbtPtr⟩ := hsame
  have hchains : ∀ l ∈ c.chains, ∀ x ∈ l, x.flags.static = true :=
    fun l hl => hi.chains l (hsame.chains ▸ hl)
  have hidle {b : Bool} (h : b = true ∨ false = true) (hb' : b = false) : False := by
    rw [hb'] at h
    simp at h
  cases backtrack with
  | true =>
    refine ⟨hkept.names, hkept.sess, ?_, ?_, hi.heap, hchains⟩
    · refine ⟨.inl hpos, fun sid g h => hp.batch sid g (hbatch ▸ h), fun h => ?_, fun h => ?_,
        fun _ => hgcPtr.trans hnone, fun h => ?_, fun _ => hgcPtr.trans hnone, fun _ => rfl,
        fun _ => ⟨Nat.le_trans (Nat.le_of_eq hgc') hgc, hgcPtr.trans hnone⟩⟩
      · exact (hidle h (hboot.trans hb)).elim
      · cases h
      · exact absurd h (Nat.succ_ne_zero 1)
    · refine hi.filed.slim (hsame.slim.trans (.same rfl rfl)) (by rw [← hsame.confnats]; exact .refl _)
        (fun _ _ _ _ => rfl) (fun x hx => ?_) (fun g hg => ?_) fun g hg => by cases hg
      · have hx' : x ∈ s.ctl.confnats := hsame.confnats ▸ hx
        rcases hi.filed.file x hx' with h | h | ⟨-, h⟩ | ⟨-, h | h⟩ | ⟨-, h | h⟩
        · exact .inl h
        · exact .inr (.inr (.inr (.inr ⟨h.trans hsaved, .inl Nat.one_lt_two⟩)))
        · exact .inr (.inl h)
        · omega
        · rw [Control.gcAhead, hnone] at h
          cases h
        · omega
        · rw [Control.btAhead, hp.bt hbt] at h
          cases h
      · have hg : c.gcPtr = some g := hg
        rw [hgcPtr, hnone] at hg
        cases hg
  | false =>
    refine ⟨hkept.names, hkept.sess, ?_, ?_, hi.heap, hchains⟩
    · refine ⟨.inl hpos, fun sid g h => hp.batch sid g (hbatch ▸ h), fun h => ?_, fun h => ?_,
        fun _ => rfl, fun _ => hbtPtr.trans (hp.bt hbt), fun _ => rfl,
        fun _ => hbtPtr.trans (hp.bt hbt), fun h => absurd (hbt'.trans hbt) h⟩
      · exact (hidle h (hboot.trans hb)).elim
      · cases h
    · refine hi.filed.slim (hsame.slim.trans (.same rfl rfl)) (by rw [← hsame.confnats]; exact .refl _)
        (fun _ _ _ _ => rfl) (fun x hx => ?_) (fun g hg => by cases hg) fun g hg => ?_
      · have hx' : x ∈ s.ctl.confnats := hsame.confnats ▸ hx
        rcases hi.filed.file x hx' with h | h | ⟨-, h⟩ | ⟨h, -⟩ | ⟨-, h | h⟩
        · exact .inl h
        · exact .inr (.inl (h.trans hlast.symm))
        · have hlt : s.nats.generation x.ptr < c.lastgen := by omega
          exact .inr (.inr (.inr (.inl ⟨hlt, .inl Nat.one_lt_two⟩)))
        · have hlt : s.nats.generation x.ptr < c.lastgen := by omega
          exact .inr (.inr (.inr (.inl ⟨hlt, .inl Nat.one_lt_two⟩)))
        · omega
        · rw [Control.btAhead, hp.bt hbt] at h
          cases h
      · have hg : c.btPtr = some g := hg
        rw [hbtPtr, hp.bt hbt] at hg
        cases hg

/-! ### Collectors -/

theorem unchain_off (h : c.onChain n = false) : c.unchain n = c := by
  unfold Control.unchain
  rw [h]
  rfl

theorem onChain_listRemove (n : NatEntry) (c : Control) : (c.listRemove n).onChain n = false := by
  unfold Control.onChain
  rw [List.any_eq_false]
  intro l hl hany
  obtain ⟨x, hx, hxn⟩ := List.any_eq_true.mp hany
  exact (chains_listRemove hl hx).1 (of_decide_eq_true hxn)

/-- A collector deletes an entry it has taken off its chain. -/
theorem FileInv.delete (hi : FileInv s) (hk : Known s n) (seconds : ℕ) (p : Option NatEntry)
    (hp : Phases ({ s.ctl with gcPtr := p }.listRemove n))
    (hf : Filed s.nats.generation ({ s.ctl with gcPtr := p }.listRemove n)) :
    FileInv (delNat cfg seconds n { s with ctl := { s.ctl with gcPtr := p }.listRemove n }) := by
  set c : Control := { s.ctl with gcPtr := p }.listRemove n
  have hslim : Slim s.ctl c := (Slim.same rfl rfl : Slim s.ctl { s.ctl with gcPtr := p }).trans
    (.listRemove n)
  have hchains : ∀ l ∈ c.chains, ∀ x ∈ l, ∃ l' ∈ s.ctl.chains, x ∈ l' :=
    fun l hl x hx => (chains_listRemove (c := { s.ctl with gcPtr := p }) hl hx).2
  have hkept := @delNat_kept cfg s 0 c hi.names hi.sess n hk seconds hslim
    ⟨rfl, rfl, rfl, rfl, rfl, rfl, rfl, rfl, rfl⟩
    (fun l hl x hx => let ⟨_, hl', hx'⟩ := hchains l hl x hx
      .of_chain hl' hx') (listRemove_genOf n _) fun x hne =>
      (StaysOn.same rfl rfl : StaysOn x s.ctl { s.ctl with gcPtr := p }).trans (.listRemove hne _)
  have hctl : (delNat cfg seconds n { s with ctl := c }).ctl = c :=
    unchain_off (onChain_listRemove n _)
  refine ⟨hkept.names, hkept.sess, by rw [hctl]; exact hp, ?_, fun x hx => ?_, fun l hl x hx => ?_⟩
  · rw [hctl, delNat_generation]
    exact hf
  · rw [(delNat_rest ..).2.2.2.2.1] at hx
    exact hi.heap x (List.mem_filter.mp hx).1
  · rw [hctl] at hl
    obtain ⟨l', hl', hx⟩ := hchains l hl x hx
    exact hi.chains l' hl' x hx

theorem gcStart_fileInv (hi : FileInv s) (ho : s.ctl.orphans = []) :
    FileInv { s with ctl := gcStart s.ctl } := by
  have hsess := gcStart_sessOk hi.sess ho
  have hsame := gcStart_same s.ctl
  have hp := hi.phases
  have hf := hi.filed
  unfold gcStart at hsess hsame ⊢
  split
  swap
  · exact hi
  rename_i hgc
  rw [if_pos hgc] at hsess hsame
  have hhead : (if s.ctl.gcPtr.isSome then s.ctl.gcPtr else s.ctl.confnats.head?) =
      s.ctl.confnats.head? := by
    rw [hp.gcStart hgc]
    rfl
  have hbusy : ¬ (s.ctl.booting = true ∨ s.ctl.reloading = true) := fun hb => by
    have := (hp.busy hb).1
    omega
  refine hi.ctl hsame hsess ⟨hp.cur, hp.batch, fun hb => absurd hb hbusy, hp.saved, nofun, hp.bt,
    fun h => absurd h (Nat.lt_irrefl 1), hp.btStart, fun h0 => ?_⟩ ?_
  · have := (hp.apart h0).1
    omega
  · refine hf.slim (.same rfl rfl) (.refl _) (fun _ _ _ _ => rfl) (fun x hx => ?_) (fun g hg => ?_)
      hf.btPtr
    · rcases hf.file x hx with h | h | h | ⟨h, -⟩ | h
      · exact .inl h
      · exact .inr (.inl h)
      · exact .inr (.inr (.inl h))
      · refine .inr (.inr (.inr (.inl ⟨h, .inr ?_⟩)))
        rw [Control.gcAhead, hhead, Cursor.ahead_head hf.nodup]
        exact hx
      · exact .inr (.inr (.inr (.inr h)))
    · rw [show _ = s.ctl.confnats.head? from hhead] at hg
      exact List.mem_of_head? hg

theorem gcIncr_fileInv (hi : FileInv s) (seconds k : ℕ) : FileInv (gcIncr cfg seconds k s) := by
  refine gcIncr_keep seconds k hi (fun a ha => ?_) (fun a n ha hhead => ?_)
    (fun a ha ho => gcStart_fileInv ha ho) (fun a ha ho hgc hseek => ?_) (fun a n ha hgc hseek => ?_)
  · have hkept := @freeOrphans_kept a 0 ha.names ha.sess
    have hp := ha.phases
    exact ⟨hkept.names, hkept.sess,
      ⟨hp.cur, hp.batch, hp.busy, hp.saved, hp.gc, hp.bt, hp.gcStart, hp.btStart, hp.apart⟩,
      ha.filed.slim (freeOrphans_slim _) (.refl _) (fun _ _ _ _ => rfl) ha.filed.file
        ha.filed.gcPtr ha.filed.btPtr, ha.heap, fun l hl => ha.chains l (freeOrphans_chains l hl)⟩
  · -- an orphan is not on the chain of the configuration
    obtain ⟨ss, hss, hmem⟩ := Option.bind_eq_some_iff.mp hhead
    have hss : ss ∈ a.ctl.sessions := List.mem_append_right _ (List.mem_of_head? hss)
    have hmem := List.mem_of_head? hmem
    have hk : Known a n := known_of_snats ss hss hmem
    have hp := ha.phases
    have hf := ha.filed
    have hconf : (a.ctl.listRemove n).confnats = a.ctl.confnats :=
      List.filter_eq_self.mpr fun x hx => decide_eq_true (hf.apart x hx ss hss n hmem)
    refine ha.delete hk seconds a.ctl.gcPtr
      ⟨hp.cur, hp.batch, hp.busy, hp.saved, hp.gc, hp.bt, hp.gcStart, hp.btStart, hp.apart⟩ ?_
    refine hf.slim (.listRemove n) List.filter_sublist (fun _ _ _ _ => rfl) (fun x hx => ?_)
      (fun g hg => ?_) fun g hg => ?_
    · change x ∈ (a.ctl.listRemove n).confnats at hx
      rw [hconf] at hx
      refine (hf.file x hx).same ⟨rfl, rfl, rfl, rfl, rfl⟩ rfl (fun hx => ?_) fun hx => ?_
      · change x ∈ Cursor.ahead NatEntry.ptr a.ctl.gcPtr (a.ctl.listRemove n).confnats
        rw [hconf]
        exact hx
      · change x ∈ Cursor.ahead NatEntry.ptr a.ctl.btPtr (a.ctl.listRemove n).confnats
        rw [hconf]
        exact hx
    · change g ∈ (a.ctl.listRemove n).confnats
      rw [hconf]
      exact hf.gcPtr g hg
    · change g ∈ (a.ctl.listRemove n).confnats
      rw [hconf]
      exact hf.btPtr g hg
  · have hdone : SameSess a.ctl { a.ctl with gcPtr := none, needgc := 0 } := .same rfl rfl rfl
    have hp := ha.phases
    have hf := ha.filed
    refine ha.ctl hdone (ha.sess.same hdone rfl rfl ha.sess.lastgen ha.sess.saved
      ha.sess.booting (fun _ _ hb => ha.sess.batch_gen hb) fun _ => ho)
      ⟨hp.cur, hp.batch, fun hb => ⟨Nat.zero_le 1, rfl, (hp.busy hb).2.2⟩, hp.saved, fun _ => rfl,
        hp.bt, fun _ => rfl, hp.btStart, fun _ => ⟨Nat.zero_le 1, rfl⟩⟩ ?_
    refine hf.slim (.same rfl rfl) (.refl _) (fun _ _ _ _ => rfl) (fun x hx => ?_) nofun hf.btPtr
    rcases hf.file x hx with h | h | h | ⟨h, hc | hx⟩ | h
    · exact .inl h
    · exact .inr (.inl h)
    · exact .inr (.inr (.inl h))
    · omega
    · -- nothing ahead of the collector is stale
      rw [gcSeek_eq, List.find?_eq_none] at hseek
      have hstale := hseek x hx
      simp only [Nats.staleGen, Bool.and_eq_true, decide_eq_true_eq, not_and] at hstale
      refine .inl (Nat.lt_of_not_le fun hge => hstale hge h)
    · exact .inr (.inr (.inr (.inr h)))
  · have hmem := gcSeek_mem hseek
    have hk : Known a n := .of_chain (mem_chains.mpr (.inl rfl)) hmem
    have hp := ha.phases
    have hf := ha.filed
    have hsome : a.ctl.gcPtr ≠ none := fun hnone => by
      unfold gcSeek at hseek
      rw [hnone] at hseek
      cases hseek
    have hbt : a.ctl.needbt = 0 := by
      by_contra h0
      exact hsome (hp.apart h0).2
    have hbtPtr := hp.bt hbt
    have hbusy : ¬ (a.ctl.booting = true ∨ a.ctl.reloading = true) :=
      fun hb => hsome (hp.busy hb).2.1
    refine ha.delete hk seconds (listNext n a.ctl.confnats)
      ⟨hp.cur, hp.batch, fun hb => absurd hb hbusy, hp.saved, fun h0 => absurd (hp.gc h0) hsome,
        fun _ => hbtPtr, fun h1 => absurd (hp.gcStart h1) hsome, fun _ => hbtPtr,
        fun h0 => absurd hbt h0⟩ ?_
    refine hf.slim ((Slim.same rfl rfl : Slim a.ctl { a.ctl with
      gcPtr := listNext n a.ctl.confnats }).trans (.listRemove n)) List.filter_sublist
      (fun _ _ _ _ => rfl) (fun x hx => ?_) (fun g hg => ?_) fun g hg => ?_
    · obtain ⟨hx, hne⟩ := without_mem hx
      rcases hf.file x hx with h | h | h | ⟨h, hc | hahead⟩ | ⟨-, hc | hahead⟩
      · exact .inl h
      · exact .inr (.inl h)
      · exact .inr (.inr (.inl h))
      · omega
      · -- the entry found is the first stale one
        by_cases hold : a.nats.generation x.ptr < FIRSTGEN
        · exact .inl hold
        rw [gcSeek_eq] at hseek
        have hstale : Nats.staleGen a.ctl.lastgen (a.nats.generation x.ptr) = true := by
          simp only [Nats.staleGen, Bool.and_eq_true, decide_eq_true_eq]
          exact ⟨Nat.le_of_not_lt hold, h⟩
        have hlater := Cursor.ahead_find hf.nodup hseek hahead hstale
        exact .inr (.inr (.inr (.inl ⟨h, .inr (Cursor.ahead_next hf.nodup hlater hne).2⟩)))
      · omega
      · rw [Control.btAhead, hbtPtr] at hahead
        cases hahead
    · exact Cursor.next_mem hf.nodup hg
    · have hg : a.ctl.btPtr = some g := hg
      rw [hbtPtr] at hg
      cases hg

theorem btStart_fileInv (hi : FileInv s) : FileInv { s with ctl := btStart s.ctl } := by
  have hp := hi.phases
  have hf := hi.filed
  unfold btStart
  split
  swap
  · exact hi
  rename_i hbt
  have hsame : SameSess s.ctl { s.ctl with
      btPtr := if s.ctl.btPtr.isSome then s.ctl.btPtr else s.ctl.confnats.head?, needbt := 1 } :=
    .same rfl rfl rfl
  have hhead : (if s.ctl.btPtr.isSome then s.ctl.btPtr else s.ctl.confnats.head?) =
      s.ctl.confnats.head? := by
    rw [hp.btStart hbt]
    rfl
  have hne : s.ctl.needbt ≠ 0 := by omega
  have hbusy : ¬ (s.ctl.booting = true ∨ s.ctl.reloading = true) :=
    fun hb => hne (hp.busy hb).2.2
  refine hi.ctl hsame (hi.sess.same hsame rfl rfl hi.sess.lastgen hi.sess.saved hi.sess.booting
    (fun _ _ hb => hi.sess.batch_gen hb) hi.sess.idle) ⟨hp.cur, hp.batch, fun hb => absurd hb hbusy,
      hp.saved, hp.gc, nofun, hp.gcStart, fun h => absurd h (Nat.lt_irrefl 1),
      fun _ => hp.apart hne⟩ ?_
  refine hf.slim (.same rfl rfl) (.refl _) (fun _ _ _ _ => rfl) (fun x hx => ?_) hf.gcPtr
    fun g hg => ?_
  · rcases hf.file x hx with h | h | h | h | ⟨h, -⟩
    · exact .inl h
    · exact .inr (.inl h)
    · exact .inr (.inr (.inl h))
    · exact .inr (.inr (.inr (.inl h)))
    · refine .inr (.inr (.inr (.inr ⟨h, .inr ?_⟩)))
      rw [Control.btAhead, hhead, Cursor.ahead_head hf.nodup]
      exact hx
  · rw [show _ = s.ctl.confnats.head? from hhead] at hg
    exact List.mem_of_head? hg

/-- An entry that is visited has the generation of the last load, if it had the
    one of the reload that failed. -/
theorem btVisit_fileInv (hi : FileInv s) (hbt : s.ctl.needbt = 1) (hn : s.ctl.btPtr = some n) :
    FileInv { s with
      ctl := { s.ctl with btPtr := listNext n s.ctl.confnats }
      nats := { s.nats with
        generation := Function.update s.nats.generation n.ptr
          (min (s.nats.generation n.ptr) s.ctl.lastgen) } } := by
  have hp := hi.phases
  have hf := hi.filed
  have hlast := hi.sess.lastgen
  have hsame : SameSess s.ctl { s.ctl with btPtr := listNext n s.ctl.confnats } := .same rfl rfl rfl
  have hsess := hi.sess.same hsame rfl rfl hlast hi.sess.saved hi.sess.booting
    (fun _ _ hb => hi.sess.batch_gen hb) hi.sess.idle
  set gen : ℕ → ℕ := Function.update s.nats.generation n.ptr
    (min (s.nats.generation n.ptr) s.ctl.lastgen) with hgen
  have hsmall (p : ℕ) (hp : s.nats.generation p ≤ s.ctl.lastgen) :
      gen p = s.nats.generation p := by
    rw [hgen, Function.update_apply]
    split
    · rename_i hpn
      rw [hpn] at hp ⊢
      exact Nat.min_eq_left hp
    · rfl
  have hkept := @generation_kept s 0 _ hi.names hi.sess hsame hsess gen
    fun p hp => hsmall p (by omega)
  have hr : s.ctl.reloading = false := by
    by_contra h
    rw [Bool.not_eq_false] at h
    have := (hp.busy (.inr h)).2.2
    omega
  have hbusy : ¬ (s.ctl.booting = true ∨ s.ctl.reloading = true) := fun hb => by
    have := (hp.busy hb).2.2
    omega
  refine ⟨hkept.names, hsess, ⟨hp.cur, hp.batch, fun hb => absurd hb hbusy, hp.saved, hp.gc, fun h0 => ?_,
    hp.gcStart, fun h1 => ?_, hp.apart⟩, ?_, hi.heap, hi.chains⟩
  · have h0 : s.ctl.needbt = 0 := h0
    omega
  · have h1 : 1 < s.ctl.needbt := h1
    omega
  refine hf.slim (.same rfl rfl) (.refl _) (fun ss hss x hx => ?_) (fun x hx => ?_) hf.gcPtr
    fun g hg => ?_
  · have := hf.snats ss hss x hx
    exact hsmall x.ptr (by omega)
  · rcases hf.file x hx with h | h | ⟨h, -⟩ | ⟨h, hc⟩ | ⟨h, hc | hahead⟩
    · exact .inl ((hsmall x.ptr (by omega)).trans_lt h)
    · exact .inr (.inl ((hsmall x.ptr (Nat.le_of_eq h)).trans h))
    · rw [hr] at h
      cases h
    · exact .inr (.inr (.inr (.inl ⟨(hsmall x.ptr (Nat.le_of_lt h)).trans_lt h, hc⟩)))
    · omega
    · rw [Control.btAhead, hn] at hahead
      by_cases hxn : x.ptr = n.ptr
      · refine .inr (.inl ?_)
        rw [hxn] at h ⊢
        change gen n.ptr = s.ctl.lastgen
        rw [hgen, Function.update_self]
        exact Nat.min_eq_right (by omega)
      · refine .inr (.inr (.inr (.inr ⟨?_, .inr (Cursor.ahead_next hf.nodup hahead hxn).1⟩)))
        exact (Function.update_of_ne hxn _ _).trans h
  · exact (List.mem_filter.mp (Cursor.next_mem hf.nodup hg)).1

theorem btLoop_fileInv (k : ℕ) (hi : FileInv s) (hbt : s.ctl.needbt = 1) : FileInv (btLoop k s) := by
  induction k generalizing s with
  | zero => exact hi
  | succ k ih =>
    unfold btLoop
    split
    · rename_i hnone
      have hp := hi.phases
      have hf := hi.filed
      have hsame : SameSess s.ctl { s.ctl with needbt := 0 } := .same rfl rfl rfl
      refine hi.ctl hsame (hi.sess.same hsame rfl rfl hi.sess.lastgen hi.sess.saved
        hi.sess.booting (fun _ _ hb => hi.sess.batch_gen hb) hi.sess.idle)
        ⟨hp.cur, hp.batch, fun hb => ⟨(hp.busy hb).1, (hp.busy hb).2.1, rfl⟩, hp.saved, hp.gc,
          fun _ => hnone, hp.gcStart, fun _ => hnone, fun h => absurd rfl h⟩ ?_
      refine hf.slim (.same rfl rfl) (.refl _) (fun _ _ _ _ => rfl) (fun x hx => ?_) hf.gcPtr
        hf.btPtr
      rcases hf.file x hx with h | h | h | h | ⟨-, hc | hahead⟩
      · exact .inl h
      · exact .inr (.inl h)
      · exact .inr (.inr (.inl h))
      · exact .inr (.inr (.inr (.inl h)))
      · omega
      · rw [Control.btAhead, hnone] at hahead
        cases hahead
    · rename_i n hn
      exact ih (btVisit_fileInv hi hbt hn) hbt

theorem btIncr_fileInv (hi : FileInv s) (hbt : s.ctl.needbt ≠ 0) (quantum : ℕ) :
    FileInv (btIncr quantum s) := by
  refine btLoop_fileInv _ (btStart_fileInv hi) ?_
  unfold btStart
  split
  · rfl
  · change s.ctl.needbt = 1
    omega

/-! ### Lines -/

theorem Cmd.takes_reloading {sid : ℕ} {reloading : Bool} {cmd : Cmd}
    (h : (cmd.leave sid reloading).takes = true) : reloading = true := by
  cases cmd <;> first | exact h | cases h

theorem execute_fileInv (hi : FileInv s) (hok : s.tuns.Ok) (env : NatEnv) (sid : ℕ) (cmd : Cmd) :
    FileInv (execute cfg env sid s cmd).1 := by
  by_cases hc : cmd.plain = true
  · exact (execute_changes env sid s hc).fileInv hi Cmd.takes_reloading
  · cases cmd with
    | reload opened =>
      simp only [execute]
      split
      · exact hi
      · rename_i hgo
        simp only [Bool.or_eq_true, decide_eq_true_eq, not_or, Bool.not_eq_true, not_not] at hgo
        exact reloadConf_fileInv hi sid hgo.1.1.1 hgo.1.1.2 hgo.1.2
    | sessionConfig on =>
      exact hi.setSess sid (f := fun ss => { ss with sec := if on then 12 else 8 }) (fun _ => rfl)
        (fun _ => rfl) fun _ => rfl
    | sessionClose sid' => exact sessionClose_fileInv hi hok sid'
    | _ => exact absurd rfl hc

theorem cmdline_fileInv (hi : FileInv s) (hok : s.tuns.Ok) (env : NatEnv) (sid : ℕ) (cmd : Cmd) :
    FileInv (cmdline cfg env sid cmd s).1 := by
  unfold cmdline
  split
  · exact hi
  split
  · rename_i sec _
    exact execute_fileInv (hi.setSess sid (f := fun ss => { ss with sec := sec }) (fun _ => rfl)
      (fun _ => rfl) fun _ => rfl) hok env sid cmd
  · exact hi
  · exact hi

/-- What a line does not change while a reload goes on. -/
theorem cmdline_loading (hn : Names s) (hs : SessOk s.ctl) (hr : s.ctl.reloading = true)
    (env : NatEnv) (sid : ℕ) (cmd : Cmd) :
    let s' := (cmdline cfg env sid cmd s).1
    s'.ctl.reloading = true ∧ s'.ctl.lastgen = s.ctl.lastgen ∧ s'.ctl.curgen = s.ctl.curgen ∧
      s'.ctl.reloadSavedgen = s.ctl.reloadSavedgen ∧ s'.ctl.booting = s.ctl.booting ∧
      s'.ctl.batch = s.ctl.batch := by
  unfold cmdline
  split
  · exact ⟨hr, rfl, rfl, rfl, rfl, rfl⟩
  split
  · rename_i sec _
    have hk := @setSec_kept s 0 hn hs sid sec
    set s₁ : State := { s with ctl := s.ctl.setSess sid fun ss => { ss with sec := sec } }
    by_cases hc : cmd.plain = true
    · have h := ((@execute_changes cfg env sid s₁ cmd hc).since hk.names hk.sess).scalars
      exact ⟨h.reloading.trans hr, h.lastgen, h.curgen, h.savedgen, h.booting, h.batch⟩
    · cases cmd with
      | reload opened =>
        simp only [execute]
        rw [if_pos (by rw [show s₁.ctl.reloading = true from hr]; rfl)]
        exact ⟨hr, rfl, rfl, rfl, rfl, rfl⟩
      | sessionConfig on => exact ⟨hr, rfl, rfl, rfl, rfl, rfl⟩
      | sessionClose sid' =>
        simp only [execute]
        rcases sessionClose_cases sid' s₁ with h | ⟨ss, hss, h⟩ <;> rw [h] <;>
          exact ⟨hr, rfl, rfl, rfl, rfl, rfl⟩
      | _ => exact absurd rfl hc
  · exact ⟨hr, rfl, rfl, rfl, rfl, rfl⟩
  · exact ⟨hr, rfl, rfl, rfl, rfl, rfl⟩

theorem batchLine_fileInv (hi : FileInv s) (hok : s.tuns.Ok) (hb : s.ctl.booting = false)
    (env : NatEnv) (inFile : Bool) (cmd : Cmd) (hbetween : Between s.ctl) :
    FileInv (batchLine cfg env inFile cmd s) ∧ Between (batchLine cfg env inFile cmd s).ctl := by
  unfold batchLine
  rcases hbatch : s.ctl.batch with _ | ⟨sid, savedgen⟩
  · exact ⟨hi, hbetween⟩
  dsimp only
  split
  · exact ⟨hi, hbetween⟩
  have hline := @cmdline_fileInv cfg s hi hok env sid cmd
  have hlast := @cmdline_lasting cfg env sid cmd s
  have hin : Between (cmdline cfg env sid cmd s).1.ctl := fun _ hnone => by
    rw [hlast.batch, hbatch] at hnone
    cases hnone
  split
  · obtain ⟨h, hdone⟩ := commandsDone_fileInv hline (hlast.booting.trans hb)
    exact ⟨h, hdone hin⟩
  · exact ⟨hline, hin⟩

theorem reloadLine_fileInv (hi : FileInv s) (hok : s.tuns.Ok) (hr : s.ctl.reloading = true)
    (hb : s.ctl.booting = false) (env : NatEnv) (cmd : Cmd) (hbetween : Between s.ctl) :
    FileInv (reloadLine cfg env cmd s) ∧ Between (reloadLine cfg env cmd s).ctl := by
  unfold reloadLine
  split
  · exact ⟨hi, hbetween⟩
  rename_i sid _
  have hp := hi.phases
  have hsame : SameSess s.ctl { s.ctl with curgen := s.ctl.lastgen } := .same rfl rfl rfl
  have h₁ : FileInv { s with ctl := { s.ctl with curgen := s.ctl.lastgen } } :=
    hi.ctl hsame hi.sess.fileLine ⟨.inr ⟨.inr hr, rfl⟩, hp.batch, hp.busy, hp.saved, hp.gc, hp.bt,
      hp.gcStart, hp.btStart, hp.apart⟩ (hi.filed.same hsame ⟨rfl, rfl, rfl, rfl, rfl⟩ rfl rfl)
  set s₁ : State := { s with ctl := { s.ctl with curgen := s.ctl.lastgen } }
  have h₂ := @cmdline_fileInv cfg s₁ h₁ hok env sid cmd
  have hload := @cmdline_loading cfg s₁ h₁.names h₁.sess hr env sid cmd
  have hlast : Lasting s₁.ctl (cmdline cfg env sid cmd s₁).1.ctl := cmdline_lasting env sid cmd s₁
  rcases hline : cmdline cfg env sid cmd s₁ with ⟨s₂, ok⟩
  rw [hline] at h₂ hload hlast
  dsimp only at h₂ hload hlast ⊢
  obtain ⟨hr₂, hlastgen, -, -, hboot, hbatch⟩ := hload
  have hb₂ : s₂.ctl.booting = false := hboot.trans hb
  have hsame₂ : SameSess s₂.ctl { s₂.ctl with curgen := s.ctl.curgen } := .same rfl rfl rfl
  have hp₂ := h₂.phases
  have h₃ : FileInv { s₂ with ctl := { s₂.ctl with curgen := s.ctl.curgen } } := by
    refine h₂.ctl hsame₂ (hi.sess.lineDone h₂.sess
      ⟨hlast.booting, hlast.batch, hlast.reloading, hlast.genOf⟩ hb₂) ⟨?_, hp₂.batch, hp₂.busy,
        hp₂.saved, hp₂.gc, hp₂.bt, hp₂.gcStart, hp₂.btStart, hp₂.apart⟩
      (h₂.filed.same hsame₂ ⟨rfl, rfl, rfl, rfl, rfl⟩ rfl rfl)
    rcases hp.cur with h | ⟨-, h⟩
    · exact .inl h
    · exact .inr ⟨.inr hr₂, h.trans hlastgen.symm⟩
  split
  · exact ⟨h₃, fun _ hnone => hbetween hb (hbatch.symm.trans hnone)⟩
  · exact ⟨reloadFinish_fileInv true h₃ hr₂ hb₂, fun _ _ => (by decide : 0 < FIRSTGEN)⟩

/-- The collectors are no commands. -/
theorem gcIncr_gens (cfg : Conf) (seconds k : ℕ) (s : State) :
    (gcIncr cfg seconds k s).ctl.booting = s.ctl.booting ∧
      (gcIncr cfg seconds k s).ctl.batch = s.ctl.batch ∧
      (gcIncr cfg seconds k s).ctl.curgen = s.ctl.curgen := by
  have hdel (c : Control) (n : NatEntry) : (c.unchain n).booting = c.booting ∧
      (c.unchain n).batch = c.batch ∧ (c.unchain n).curgen = c.curgen := by
    unfold Control.unchain
    split <;> exact ⟨rfl, rfl, rfl⟩
  refine gcIncr_keep (P := fun a => a.ctl.booting = s.ctl.booting ∧ a.ctl.batch = s.ctl.batch ∧
    a.ctl.curgen = s.ctl.curgen) seconds k ⟨rfl, rfl, rfl⟩ (fun a ha => ha) (fun a n ha _ => ?_)
    (fun a ha _ => ?_) (fun a ha _ _ _ => ha) (fun a n ha _ _ => ?_)
  · have h := hdel (a.ctl.listRemove n) n
    exact ⟨h.1.trans ha.1, h.2.1.trans ha.2.1, h.2.2.trans ha.2.2⟩
  · unfold gcStart
    split <;> exact ha
  · have h := hdel ({ a.ctl with gcPtr := listNext n a.ctl.confnats }.listRemove n) n
    exact ⟨h.1.trans ha.1, h.2.1.trans ha.2.1, h.2.2.trans ha.2.2⟩

theorem btIncr_gens (quantum : ℕ) (s : State) : (btIncr quantum s).ctl.booting = s.ctl.booting ∧
    (btIncr quantum s).ctl.batch = s.ctl.batch ∧ (btIncr quantum s).ctl.curgen = s.ctl.curgen := by
  have hloop (k : ℕ) : ∀ a : State, (btLoop k a).ctl.booting = a.ctl.booting ∧
      (btLoop k a).ctl.batch = a.ctl.batch ∧ (btLoop k a).ctl.curgen = a.ctl.curgen := by
    induction k with
    | zero => exact fun a => ⟨rfl, rfl, rfl⟩
    | succ k ih =>
      intro a
      unfold btLoop
      split
      · exact ⟨rfl, rfl, rfl⟩
      · exact ih _
  have hstart : (btStart s.ctl).booting = s.ctl.booting ∧ (btStart s.ctl).batch = s.ctl.batch ∧
      (btStart s.ctl).curgen = s.ctl.curgen := by
    unfold btStart
    split <;> exact ⟨rfl, rfl, rfl⟩
  obtain ⟨h1, h2, h3⟩ := hloop (5 * quantum) { s with ctl := btStart s.ctl }
  exact ⟨h1.trans hstart.1, h2.trans hstart.2.1, h3.trans hstart.2.2⟩

/-! ### Runs -/

theorem act_fileInv (hi : FileInv s) (hok : s.tuns.Ok) (hbetween : Between s.ctl) {e : Event}
    (hb : e.boots = s.ctl.booting) : FileInv (act cfg s e) ∧ Between (act cfg s e).ctl := by
  cases hl : e.leave with
  | some l =>
    have h := @act_changes cfg l e hl s
    have hnone : l.takes = false := by cases e <;> cases hl <;> rfl
    have hsame := (h.since hi.names hi.sess).scalars
    refine ⟨h.fileInv hi fun ht => ?_, fun hboot hbatch => ?_⟩
    · rw [hnone] at ht
      cases ht
    · rw [hsame.curgen]
      exact hbetween (hsame.booting.symm.trans hboot) (hsame.batch.symm.trans hbatch)
  | none =>
    have hsid (sid : ℕ) : Between s.ctl → Between (sessionClose sid s).1.ctl := by
      rcases sessionClose_cases sid s with h | ⟨ss, -, h⟩ <;> rw [h] <;> exact id
    cases e with
    | boot env cmd =>
      refine ⟨cmdline_fileInv hi hok env 0 cmd, fun hboot _ => ?_⟩
      have hlast := @cmdline_lasting cfg env 0 cmd s
      have hboot : (cmdline cfg env 0 cmd s).1.ctl.booting = false := hboot
      rw [hlast.booting, ← hb] at hboot
      cases hboot
    | bootDone daemonize => exact bootDone_fileInv hi hok daemonize
    | sessionOpen =>
      refine ⟨sessionOpen_fileInv hi, ?_⟩
      obtain ⟨-, g, -, hc⟩ := sessionNextgen_spec 20 s.ctl hi.sess.sesgen
      simp only [act, sessionOpen, hc]
      exact hbetween
    | sessionEof sid => exact ⟨sessionClose_fileInv hi hok sid, hsid sid hbetween⟩
    | commands sid => exact openBatch_fileInv hi hb.symm hbetween sid
    | line env inFile cmd => exact batchLine_fileInv hi hok hb.symm env inFile cmd hbetween
    | commandsDone =>
      obtain ⟨h, hdone⟩ := commandsDone_fileInv hi hb.symm
      exact ⟨h, hdone hbetween⟩
    | reloadLine env cmd =>
      simp only [act]
      split
      · rename_i hr
        exact reloadLine_fileInv hi hok hr hb.symm env cmd hbetween
      · exact ⟨hi, hbetween⟩
    | reloadEof =>
      simp only [act]
      split
      · rename_i hr
        exact ⟨reloadFinish_fileInv false hi hr hb.symm, fun _ _ => (by decide : 0 < FIRSTGEN)⟩
      · exact ⟨hi, hbetween⟩
    | gcIncr seconds quantum =>
      simp only [act]
      split
      · have hsame := gcIncr_gens cfg seconds quantum s
        refine ⟨gcIncr_fileInv hi seconds quantum, fun hboot hbatch => ?_⟩
        rw [hsame.2.2]
        exact hbetween (hsame.1.symm.trans hboot) (hsame.2.1.symm.trans hbatch)
      · exact ⟨hi, hbetween⟩
    | btIncr quantum =>
      simp only [act]
      split
      · rename_i hbt
        have hsame := btIncr_gens quantum s
        refine ⟨btIncr_fileInv hi hbt quantum, fun hboot hbatch => ?_⟩
        rw [hsame.2.2]
        exact hbetween (hsame.1.symm.trans hboot) (hsame.2.1.symm.trans hbatch)
      · exact ⟨hi, hbetween⟩
    | _ => cases hl

/-- `FileInv` with what the tunnel tables keep. -/
structure FileRun (s : State) : Prop where
  base : Base s
  inv : FileInv s
  between : Between s.ctl

theorem step_fileRun (h : FileRun s) (e : Event) : FileRun (step cfg s e) := by
  have hbase : Base (step cfg s e) := step_base h.base e
  by_cases hb : e.boots = s.ctl.booting
  swap
  · have hstep : step cfg s e = s := if_pos hb
    rw [hstep]
    exact h
  set s₁ : State := { s with ctl := { s.ctl with serving := s.ctl.serving && e.serves } }
  have hstep : step cfg s e = act cfg s₁ e := if_neg (not_not.mpr hb)
  have hsame : SameSess s.ctl s₁.ctl := .same rfl rfl rfl
  have hp := h.inv.phases
  have hs := h.inv.sess
  have h₁ : FileInv s₁ := h.inv.ctl hsame (hs.same hsame rfl rfl hs.lastgen hs.saved hs.booting
    (fun _ _ hb => hs.batch_gen hb) hs.idle)
    ⟨hp.cur, hp.batch, hp.busy, hp.saved, hp.gc, hp.bt, hp.gcStart, hp.btStart, hp.apart⟩
    (h.inv.filed.same hsame ⟨rfl, rfl, rfl, rfl, rfl⟩ rfl rfl)
  rw [hstep] at hbase ⊢
  obtain ⟨hi, hbetween⟩ := @act_fileInv cfg s₁ h₁ h.base.tuns h.between e hb
  exact ⟨hbase, hi, hbetween⟩

theorem run_fileRun (h : FileRun s) (es : List Event) : FileRun (run cfg s es) := by
  induction es generalizing s with
  | nil => exact h
  | cons e es ih => exact ih (step_fileRun h e)

theorem fileRun_start (ports : Ports) (rnd₁ rnd₂ rnd₃ : UInt32) :
    FileRun (start ports rnd₁ rnd₂ rnd₃) := by
  have h := sessionInv_start ports rnd₁ rnd₂ rnd₃ 0
  have hnone (l : List NatEntry) (hl : l ∈ (start ports rnd₁ rnd₂ rnd₃).ctl.chains) (x : NatEntry)
      (hx : x ∈ l) : False := start_known ports rnd₁ rnd₂ rnd₃ x (.of_chain hl hx)
  have hsess : ∀ ss ∈ (start ports rnd₁ rnd₂ rnd₃).ctl.sslist, ss = ⟨0, 1, 4, true, []⟩ :=
    fun ss hss => List.mem_singleton.mp hss
  refine ⟨h.base, ⟨h.names, h.sess, ?_, ?_, fun x hx => absurd hx List.not_mem_nil,
    fun l hl x hx => (hnone l hl x hx).elim⟩, fun hb => by cases hb⟩
  · exact ⟨.inr ⟨.inl rfl, rfl⟩, nofun, fun _ => ⟨Nat.zero_le 1, rfl, rfl⟩, nofun, fun _ => rfl,
      fun _ => rfl, fun _ => rfl, fun _ => rfl, fun h => absurd rfl h⟩
  · refine ⟨List.nodup_nil, fun x hx => absurd hx List.not_mem_nil, fun ss _ ss' hss' =>
      absurd hss' List.not_mem_nil, fun ss hss x hx => ?_, fun x hx => absurd hx List.not_mem_nil,
      nofun, nofun⟩
    rw [hsess ss hss] at hx
    cases hx

end

end WanStack.Aftr
