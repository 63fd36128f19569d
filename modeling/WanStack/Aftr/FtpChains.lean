import WanStack.Aftr.RateLimit
import WanStack.Aftr.Runs

set_option autoImplicit false

/-!
# The chains of FTP

An address names one entry in every state of a run, and the chain of an entry holds entries
of its tunnel only, so a packet for a server never changes the tunnel on the way.
-/
namespace WanStack.Aftr

/-- An entry made for another one: the same host behind the same tunnel. -/
structure Kin (x n : NatEntry) : Prop where
  tunnel : x.tunnel = n.tunnel
  proto : x.proto = n.proto
  src : x.src = n.src
  nsrc : x.nsrc = n.nsrc

structure Chained (s : State) : Prop extends Base s where
  inj : ∀ x y, Known s x → Known s y → x.ptr = y.ptr → x = y
  empty : ∀ p, s.nats.next ≤ p → s.nats.xlist p = []
  kin : ∀ n, Known s n → ∀ x ∈ s.nats.xlist n.ptr, Kin x n

/-- No entry that was there before comes under another address. -/
structure Later (s s' : State) : Prop where
  next : s.nats.next ≤ s'.nats.next
  known : ∀ x, Known s' x → Known s x ∨ s.nats.next ≤ x.ptr

/-- What a chain may have after a step: an entry for `n0`. -/
def Extends (n0 : NatEntry) (s s' : State) : Prop :=
  ∀ p, ∀ x ∈ s'.nats.xlist p, x ∈ s.nats.xlist p ∨ p = n0.ptr ∧ Kin x n0

section Moved

variable {cfg : Conf} {m : Mode} {s s' s'' : State} {n n0 : NatEntry}

theorem Later.refl (s : State) : Later s s := ⟨Nat.le_refl _, fun _ h => .inl h⟩

theorem Later.trans (h : Later s s') (h' : Later s' s'') : Later s s'' where
  next := Nat.le_trans h.next h'.next
  known x hx := by
    rcases h'.known x hx with hx | hx
    · exact h.known x hx
    · exact .inr (Nat.le_trans h.next hx)

/-- One move: nothing new, one entry with the next address, or entries that go. -/
theorem Base.move_known (hb : Base s) (h : Move cfg m s s') : s.nats.next ≤ s'.nats.next ∧
    ((∀ x, Known s' x → Known s x) ∨
      ∃ n : NatEntry, n.ptr = s.nats.next ∧ ∀ x, Known s' x → x = n ∨ Known s x) := by
  rcases hb.effect h with hs | ⟨n, -, hl, hk, -, -⟩ | ⟨n, c, seconds, -, hn, hc, rfl⟩
  · exact ⟨hs.next, .inl hs.known⟩
  · have hnext := hl.next
    exact ⟨by omega, .inr ⟨n, hl.ptr, hk⟩⟩
  · refine ⟨Nat.le_of_eq (delNat_rest cfg seconds n { s with ctl := c }).2.2.2.1.symm, .inl ?_⟩
    intro x hx
    exact (Quiet.of_ctl hc).known x (delNat_known hx)

theorem Base.moves_later (hb : Base s) (h : Moves cfg m s s') : Later s s' := by
  induction h with
  | refl => exact .refl s
  | @tail a b hab hmove ih =>
    obtain ⟨hnext, hknown⟩ := (hb.moves hab).move_known hmove
    apply ih.trans
    refine ⟨hnext, ?_⟩
    intro x hx
    rcases hknown with hold | ⟨n, hptr, hnew⟩
    · exact .inl (hold x hx)
    · rcases hnew x hx with rfl | hx
      · exact .inr (Nat.le_of_eq hptr.symm)
      · exact .inl hx

theorem Base.moves_inj (hb : Base s) (hinj : ∀ x y, Known s x → Known s y → x.ptr = y.ptr → x = y)
    (h : Moves cfg m s s') : ∀ x y, Known s' x → Known s' y → x.ptr = y.ptr → x = y := by
  induction h with
  | refl => exact hinj
  | @tail a b hab hmove ih =>
    have hfresh := (hb.moves hab).fresh
    obtain ⟨-, hknown⟩ := (hb.moves hab).move_known hmove
    intro x y hx hy hxy
    rcases hknown with hold | ⟨n, hptr, hnew⟩
    · exact ih x y (hold x hx) (hold y hy) hxy
    · rcases hnew x hx with rfl | hx
      · rcases hnew y hy with rfl | hy
        · rfl
        · have hlt := hfresh y hy
          omega
      · rcases hnew y hy with rfl | hy
        · have hlt := hfresh x hx
          omega
        · exact ih x y hx hy hxy

/-- Moves after which only the chain of one known entry is longer. -/
theorem Chained.extended (h : Chained s) (hm : Moves cfg m s s') (hk : Known s n0)
    (hx : Extends n0 s s') : Chained s' := by
  have hlater := h.moves_later hm
  have hlt := h.fresh n0 hk
  refine ⟨h.moves hm, h.moves_inj h.inj hm, ?_, ?_⟩
  · intro p hp
    rw [List.eq_nil_iff_forall_not_mem]
    intro x hmem
    have hnext := hlater.next
    rcases hx p x hmem with hold | ⟨rfl, -⟩
    · rw [h.empty p (by omega)] at hold
      cases hold
    · omega
  · intro n hn x hmem
    rcases hlater.known n hn with hknown | hnew
    · rcases hx n.ptr x hmem with hold | ⟨hptr, hkin⟩
      · exact h.kin n hknown x hold
      · rw [h.inj n n0 hknown hk hptr]
        exact hkin
    · rcases hx n.ptr x hmem with hold | ⟨hptr, -⟩
      · rw [h.empty n.ptr hnew] at hold
        cases hold
      · omega

/-- Moves after which no chain is longer. -/
theorem Chained.moved (h : Chained s) (hm : Moves cfg m s s')
    (hx : ∀ p, s'.nats.xlist p ⊆ s.nats.xlist p) : Chained s' := by
  have hlater := h.moves_later hm
  refine ⟨h.moves hm, h.moves_inj h.inj hm, ?_, ?_⟩
  · intro p hp
    have hnext := hlater.next
    have hsub := hx p
    rw [h.empty p (by omega)] at hsub
    exact List.eq_nil_of_subset_nil hsub
  · intro n hn x hmem
    rcases hlater.known n hn with hknown | hnew
    · exact h.kin n hknown x (hx n.ptr hmem)
    · have hold := hx n.ptr hmem
      rw [h.empty n.ptr hnew] at hold
      cases hold

theorem Chained.quiet (h : Chained s) (hq : Quiet s s')
    (hx : s'.nats.xlist = s.nats.xlist) : Chained s' := by
  have hmoves : Moves {} ⟨true, fun _ => False, True⟩ s s' := hq.moves
  apply h.moved hmoves
  intro p
  rw [hx]
  exact List.Subset.refl _

end Moved

/-! ### The FTP gateway -/

section Gateway

variable {cfg : Conf} {m : Mode} {s : State} {n0 : NatEntry} {env : NatEnv}

theorem Extends.same {s' : State} (h : s'.nats.xlist = s.nats.xlist) : Extends n0 s s' := by
  intro p x hx
  rw [h] at hx
  exact .inl hx

/-- An entry that is put on the chain of `n0`. -/
theorem mem_xchain {nats : Nats} {n x : NatEntry} {p : ℕ} (hn : Kin n n0)
    (h : x ∈ (nats.xchain n0 n).xlist p) : x ∈ nats.xlist p ∨ p = n0.ptr ∧ Kin x n0 := by
  simp only [Nats.xchain, Function.update_apply] at h
  split at h
  · rename_i hp
    rcases List.mem_cons.mp h with rfl | hold
    · exact .inr ⟨hp, hn⟩
    · exact .inl (hp ▸ hold)
  · exact .inl h

theorem getFtptempdata_extends (np : ℕ) :
    Extends n0 s (getFtptempdata cfg env n0 np s).1 := by
  unfold getFtptempdata
  split
  · exact .same rfl
  split
  · exact .same rfl
  rcases natRate cfg env.seconds n0.tunnel .tcp s.tuns with ⟨tuns, ok⟩
  dsimp only
  split
  · exact .same rfl
  split
  · rename_i hnew
    exact .same (newNat_made hnew).2.1
  · rename_i hnew
    obtain ⟨-, hx, hmade⟩ := newNat_made hnew
    rcases hmade with ⟨hnone, -⟩ | ⟨port, hsome, -⟩
    · cases hnone
    · cases hsome
      intro p x hmem
      have hput : Kin { ftpDataEntry n0 s.nats.next np with nport := port } n0 := ⟨rfl, rfl, rfl, rfl⟩
      rcases mem_xchain (p := p) hput hmem with hold | hkin
      · rw [hx] at hold
        exact .inl hold
      · exact .inr hkin

theorem getFtptempsrv_extends (p : Pkt) : Extends n0 s (getFtptempsrv cfg env p n0 s).1 := by
  unfold getFtptempsrv
  split
  · exact .same rfl
  rcases natRate cfg env.seconds n0.tunnel .tcp s.tuns with ⟨tuns, ok⟩
  dsimp only
  split
  · exact .same rfl
  split
  · exact .same rfl
  split <;> rename_i hlink <;> obtain ⟨-, hx, -⟩ := link_chains hlink
  · exact .same hx
  · intro q x hmem
    have hput : Kin (ftpSrvEntry n0 s.nats.next p) n0 := ⟨rfl, rfl, rfl, rfl⟩
    rcases mem_xchain (p := q) hput hmem with hold | hkin
    · simp only [Nats.heapInsert, hx] at hold
      exact .inl hold
    · exact .inr hkin

theorem getFtptempdata_chained (hm : m.grow = true) (h : Chained s) (hk : Known s n0) (np : ℕ) :
    Chained (getFtptempdata cfg env n0 np s).1 :=
  h.extended (getFtptempdata_moves cfg env hm hk np).1 hk (getFtptempdata_extends np)

/-- The entry a server's packet from the Internet goes on with. -/
theorem patchFtpout_kin {server : Bool} {p : Pkt} {n : NatEntry} (h : Chained s) (hk : Known s n0)
    (hn : (patchFtpout cfg env server p n0 s).2 = some n) : Kin n n0 := by
  unfold patchFtpout at hn
  split at hn
  · split at hn
    · rename_i x hfind
      cases hn
      exact h.kin n0 hk _ (List.mem_of_find?_eq_some hfind)
    · unfold getFtptempsrv at hn
      split at hn
      · cases hn
      rcases natRate cfg env.seconds n0.tunnel .tcp s.tuns with ⟨tuns, ok⟩
      dsimp only at hn
      split at hn
      · cases hn
      split at hn
      · cases hn
      split at hn
      · cases hn
      · cases hn
        exact ⟨rfl, rfl, rfl, rfl⟩
  · cases hn
    exact ⟨rfl, rfl, rfl, rfl⟩

theorem patchFtpout_extends {server : Bool} (p : Pkt) :
    Extends n0 s (patchFtpout cfg env server p n0 s).1 := by
  unfold patchFtpout
  split
  · split
    · exact .same rfl
    · exact getFtptempsrv_extends p
  · exact .same rfl

theorem patchFtpout_chained (hm : m.grow = true) {server : Bool} {p : Pkt} (h : Chained s)
    (hk : Known s n0) (hprr : n0.flags.prrNull = false) (hsport : server = true → n0.sport = PORTFTP)
    (hproto : n0.proto = .tcp) : Chained (patchFtpout cfg env server p n0 s).1 := by
  exact h.extended (patchFtpout_moves env hm server p hk hprr hsport hproto) hk (patchFtpout_extends p)

theorem patchFtpin_chained (hm : m.grow = true) {server : Bool} {p : Pkt} (h : Chained s)
    (hk : Known s n0) : Chained (patchFtpin cfg env server p n0 s).1 := by
  unfold patchFtpin
  dsimp only
  split
  · exact h
  · rename_i n hn
    have hkn : Known s n := by
      split at hn
      · exact .of_xlist (List.mem_of_find?_eq_some hn)
      · cases hn
        exact hk
    split
    · exact h
    · rename_i np _
      have hc : Chained (getFtptempdata cfg env n np s).1 := getFtptempdata_chained hm h hkn np
      rcases hr : getFtptempdata cfg env n np s with ⟨s', _ | x⟩ <;> rw [hr] at hc <;> exact hc

theorem natinGot_chained (hm : m.grow = true) {p : Pkt} (h : Chained s) (hk : Known s n0) :
    Chained (natinGot cfg env p n0 s).1 := by
  unfold natinGot
  dsimp only
  split_ifs
  · exact patchFtpin_chained hm h hk
  · exact patchFtpin_chained hm h hk
  · exact h
  · exact h

theorem natin_chained (hm : m.grow = true) {t : ℕ} {p : Pkt} (h : Chained s)
    (ht : ∃ u ∈ s.tuns.live, u.ptr = t ∧ s.tuns.nonat t = none) :
    Chained (natin cfg env t p s).1 := by
  have hq := natSplayFind_quiet s p.proto (inKey t p) 0 s.ctl.lastgen false false
  have hfind := @natSplayFind_snd s.nats p.proto (inKey t p) 0 s.ctl.lastgen false false
  have hsplay : Chained { s with
      nats := (s.nats.natSplayFind p.proto (inKey t p) 0 s.ctl.lastgen false false).1 } :=
    h.quiet hq rfl
  unfold natin
  rcases hr : s.nats.natSplayFind p.proto (inKey t p) 0 s.ctl.lastgen false false with
    ⟨nats, _ | n⟩ <;> rw [hr] at hq hfind hsplay
  · dsimp only at hq hsplay ⊢
    split
    · exact hsplay
    have hcore := natRate_core cfg env.seconds t p.proto s.tuns
    rcases hr : natRate cfg env.seconds t p.proto s.tuns with ⟨tuns, ok⟩
    rw [hr] at hcore
    have hrate : Chained { s with nats := nats, tuns := tuns } :=
      hsplay.quiet (.of_core hcore) rfl
    dsimp only
    split
    · exact hrate
    have hsrc : tuns.srcidx = s.tuns.srcidx := hcore.srcidx
    have howner : ∃ u ∈ tuns.live, u.ptr = t ∧ tuns.nonat t = none := by
      obtain ⟨u, hu, hp, hn⟩ := ht
      refine ⟨u, ?_, hp, ?_⟩
      · rw [Tunnels.live, hcore.tree]
        exact hu
      · rw [hcore.nonat]
        exact hn
    obtain ⟨hmoves, hknown⟩ := newNat_moves cfg
      (s := { s with nats := nats, tuns := tuns }) (env.after 1)
      (n := inEntry t (s.ports.pool (s.tuns.srcidx t)).addr nats.next p) hm rfl (.inl howner)
      fun q hq hb => .dynamic hb rfl (by
        simp only [inEntry, inKey, pool_congr hq, hsrc]) rfl howner
    split
    · rename_i s' hnew
      rw [hnew] at hmoves
      apply hrate.moved hmoves
      intro q
      rw [(newNat_made hnew).2.1]
      exact List.Subset.refl _
    · rename_i s' n hnew
      rw [hnew] at hmoves hknown
      have hnext : Chained s' := by
        apply hrate.moved hmoves
        intro q
        rw [(newNat_made hnew).2.1]
        exact List.Subset.refl _
      exact natinGot_chained hm hnext (hknown n rfl)
  · apply natinGot_chained hm hsplay
    apply Known.of_splay (k := ((inKey t p).tunnel, p.proto))
    rw [hq.nats.splay]
    exact natSplayRoFind_mem (hfind rfl)

theorem natoutFound_chained (hm : m.grow = true) {p : Pkt} (h : Chained s) (hk : Known s n0) :
    Chained (natoutFound cfg env p n0 s).1 := by
  have hsplay : ∀ (s' : State) (n : NatEntry), Chained s' →
      Chained { s' with nats := s'.nats.natSplaySplay p.proto n } :=
    fun s' n hs' => hs'.quiet (natSplaySplay_quiet s' p.proto n) rfl
  unfold natoutFound
  split
  · exact h
  split
  · exact h
  split
  · exact hsplay s n0 h
  rename_i hprr
  rw [Bool.not_eq_true] at hprr
  have hpatch : Chained (if n0.proto = .tcp then
        if p.sport = PORTFTP then patchFtpout cfg env false p n0 s
        else if n0.sport = PORTFTP then patchFtpout cfg env true p n0 s
        else (s, some n0)
      else (s, some n0)).1 := by
    split_ifs with htcp h21 hs21
    · exact patchFtpout_chained hm h hk hprr (by simp) htcp
    · exact patchFtpout_chained hm h hk hprr (fun _ => hs21) htcp
    · exact h
    · exact h
  dsimp only
  generalize (if n0.proto = .tcp then
        if p.sport = PORTFTP then patchFtpout cfg env false p n0 s
        else if n0.sport = PORTFTP then patchFtpout cfg env true p n0 s
        else (s, some n0)
      else (s, some n0)) = r at hpatch ⊢
  rcases r with ⟨s', _ | n⟩
  · exact hpatch
  · exact hsplay s' n hpatch

theorem natLookup_chained {pr : Pr} {key : NatEntry} {nats : Nats} {r : Option NatEntry}
    (h : Chained s) (hl : s.nats.natLookup pr key s.ctl.lastgen = (nats, r)) :
    Chained { s with nats := nats } := by
  have hmoves := natLookup_moves {} ⟨true, fun _ => False, True⟩ s pr key
  rw [hl] at hmoves
  exact h.moved hmoves (natLookup_calm hl).xlist

theorem natout_chained (hm : m.grow = true) {p : Pkt} (h : Chained s) :
    Chained (natout cfg env p s).1 := by
  unfold natout
  rcases hl : s.nats.natLookup p.proto (outKey p) s.ctl.lastgen with ⟨nats, _ | n⟩
  · exact natLookup_chained h hl
  · exact natoutFound_chained hm (natLookup_chained h hl) (natLookup_known hl)

end Gateway

/-! ### Runs -/

section Runs

variable {cfg : Conf} {s : State}

theorem decap_chained (h : Chained s) (env : NatEnv) (peer : Addr6) (auto : Bool) :
    Chained (decap cfg env peer auto s).1 := by
  have hmoves : Moves cfg ⟨true, fun _ => False, True⟩ s (decap cfg env peer auto s).1 :=
    (decap_found cfg env peer auto s).1.moves
  exact h.moved hmoves (decap_calm cfg env peer auto s).xlist

theorem act_chained (h : Chained s) (hx : FtpTcp s) (e : Event) (he : e.boots = s.ctl.booting) :
    Chained (act cfg s e) := by
  have hcalm : ∀ sec, e.atSecond sec = true → e.charge cfg s = none → Chained (act cfg s e) := by
    intro sec hsec hc
    have hcharged := @act_charged cfg s sec e hsec hx
    rw [hc] at hcharged
    have hmoves : Moves cfg (stepMode s e) s (act cfg s e) :=
      act_moves h.tuns e he rfl (fun p hp => hp) fun hc => hc
    rcases hcharged with hcalm | ⟨k, s₁, c', hnone, -⟩
    · exact h.moved hmoves hcalm.xlist
    · cases hnone
  cases e with
  | natin env peer auto acl4 p =>
    have hd : Chained (decap cfg env peer auto s).1 := decap_chained h env peer auto
    have hfound := decap_found cfg env peer auto s
    simp only [act]
    rcases hr : decap cfg env peer auto s with ⟨s', _ | t⟩ <;> rw [hr] at hd hfound
    · exact hd
    · simp only [filterin]
      by_cases hnonat : (s'.tuns.nonat t.ptr).isSome = true
      · rw [if_pos hnonat]
        exact hd
      · rw [if_neg hnonat]
        rw [Option.not_isSome_iff_eq_none] at hnonat
        cases acl4 with
        | true =>
          exact natin_chained (m := ⟨true, fun _ => False, True⟩) rfl hd
            ⟨t, hfound.2 t rfl h.tuns, rfl, hnonat⟩
        | false => exact hd.quiet (prrin_quiet t.ptr p s') rfl
  | natout env p => exact natout_chained (m := ⟨true, fun _ => False, True⟩) rfl h
  | _ => exact hcalm 0 rfl rfl

theorem step_chained (h : Chained s) (hx : FtpTcp s) (e : Event) : Chained (step cfg s e) := by
  unfold step
  split
  · exact h
  rename_i he
  rw [ne_eq, not_not] at he
  have hctl : Chained { s with ctl := { s.ctl with serving := s.ctl.serving && e.serves } } :=
    h.quiet (ctl_quiet fun l hl => hl) rfl
  exact act_chained hctl (hx.calm (.ctl _)) e he

/-- The chains of a run hold, whatever its events are. -/
theorem run_chained (h : Chained s) (hx : FtpTcp s) (es : List Event) : Chained (run cfg s es) := by
  induction es generalizing s with
  | nil => exact h
  | cons e es ih => exact ih (step_chained h hx e) (step_ftpTcp hx e)

theorem start_chained (ports : Ports) (rnd₁ rnd₂ rnd₃ : UInt32) :
    Chained (start ports rnd₁ rnd₂ rnd₃) where
  toBase := (linked_start ports rnd₁ rnd₂ rnd₃).toBase
  inj x _ hx := absurd hx (start_known ports rnd₁ rnd₂ rnd₃ x)
  empty _ _ := rfl
  kin n hn := absurd hn (start_known ports rnd₁ rnd₂ rnd₃ n)

/-- In every run an address names one entry, and the chain of an entry holds entries of its
    tunnel, its protocol and its addresses only. -/
theorem ftp_chains (ports : Ports) (rnd₁ rnd₂ rnd₃ : UInt32) (es : List Event) :
    Chained (run cfg (start ports rnd₁ rnd₂ rnd₃) es) :=
  run_chained (start_chained ports rnd₁ rnd₂ rnd₃) (start_ftpTcp ports rnd₁ rnd₂ rnd₃) es

end Runs

end WanStack.Aftr
