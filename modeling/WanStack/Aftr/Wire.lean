import WanStack.Aftr.Departure

set_option autoImplicit false

/-!
# Packets on the wire

The chains hold in every run in which control events and packets are read in any order, so
what is known of the packets written holds there too.
-/
namespace WanStack.Aftr.Datapath
open Filter Ftp Tried Again SearchTree Relation

variable {cfg : Conf} {dv : Device} {dr : Drawn} {a a' : Tables} {b b' buf : Buf} {n n0 : NatEntry}
  {t : ℕ} {s s' : State}

/-- Chains as they have to be, of TCP entries. -/
structure Wired (s : State) : Prop extends Chained s where
  tcp : FtpTcp s

/-- Moves in which entries are made. -/
def growing : Mode := ⟨true, fun _ => False, True⟩

theorem Wired.extended (h : Wired s) (hm : Moves cfg growing s s') (hk : Known s n0)
    (htcp : n0.proto = .tcp) (hx : Extends n0 s s') : Wired s' := by
  refine ⟨h.toChained.extended hm hk hx, ?_⟩
  intro p x hmem
  rcases hx p x hmem with hold | ⟨-, hkin⟩
  · exact h.tcp p x hold
  · exact hkin.proto.trans htcp

theorem Wired.moved (h : Wired s) (hm : Moves cfg growing s s')
    (hx : ∀ p, s'.nats.xlist p ⊆ s.nats.xlist p) : Wired s' :=
  ⟨h.toChained.moved hm hx, fun p x hmem => h.tcp p x (hx p hmem)⟩

theorem Wired.quiet (h : Wired s) (hq : Quiet s s') (hx : s'.nats.xlist = s.nats.xlist) : Wired s' := by
  refine ⟨h.toChained.quiet hq hx, ?_⟩
  intro p x hmem
  rw [hx] at hmem
  exact h.tcp p x hmem

/-! ### From a tunnel -/

/-- The queues and the tunnels have no part in the chains. -/
theorem decapPass_chains {acls : Acls} {auto : Bool} (p : Packet6)
    (h : ∀ q, p.st.nats.xlist q ⊆ s.nats.xlist q) :
    (decapPass cfg acls auto p).Meets (fun p' => ∀ q, p'.st.nats.xlist q ⊆ s.nats.xlist q)
      (fun r => ∀ q, r.1.nats.xlist q ⊆ s.nats.xlist q) := by
  have hhere : ∀ st r, WanStack.Aftr.decap cfg p.env (addr6At p.buf6 IP6SRC)
      (auto && acl6 acls (p.buf6.drop IP6SRC)) p.st = (st, r) → ∀ q, st.nats.xlist q ⊆ s.nats.xlist q := by
    intro st r hr q
    have hcalm := (decap_calm cfg p.env (addr6At p.buf6 IP6SRC)
      (auto && acl6 acls (p.buf6.drop IP6SRC)) p.st).xlist q
    rw [hr] at hcalm
    exact List.Subset.trans hcalm (h q)
  unfold decapPass
  split
  · exact h
  split
  · exact h
  split
  · exact h
  split
  · rename_i st heq
    split at heq
    · cases heq
    · exact hhere st none heq
  rename_i st t heq
  have hst : ∀ q, st.nats.xlist q ⊆ s.nats.xlist q := by
    split at heq
    · cases heq
      exact h
    · exact hhere st (some t) heq
  simp only
  split
  · exact hst
  split
  · exact hst
  split
  · split
    · split
      · exact hst
      · exact hst
    · split
      · exact hst
      · exact hst
  · exact hst

theorem filterDecap_wired {acls : Acls} {auto : Bool} {k : ℕ} {env : NatEnv}
    {r : State × Option (Tunnel × Buf)} (h : Wired s)
    (hr : Filter.decap cfg acls auto k ⟨env, s, none, buf⟩ = some r) : Wired r.1 := by
  have hmoves := (@filterDecap_moves cfg growing s acls auto k env buf r rfl h.tuns hr).moves
  apply h.moved hmoves
  exact loop_post (fun p hp => decapPass_chains p hp)
    (I := fun p : Packet6 => ∀ q, p.st.nats.xlist q ⊆ s.nats.xlist q) (fun q => List.Subset.refl _) hr

theorem natinEntry_wired {env : NatEnv} {p : Pkt} {r : Option (NatEntry × NatEnv)} (h : Wired s)
    (ht : ∃ u ∈ s.tuns.live, u.ptr = t ∧ s.tuns.nonat t = none)
    (hr : natinEntry cfg env t p s = (s', r)) : Wired s' ∧ ∀ n e, r = some (n, e) → Known s' n := by
  have hq := natSplayFind_quiet s p.proto (inKey t p) 0 s.ctl.lastgen false false
  have hfind := @natSplayFind_snd s.nats p.proto (inKey t p) 0 s.ctl.lastgen false false
  have hsplay : Wired { s with
      nats := (s.nats.natSplayFind p.proto (inKey t p) 0 s.ctl.lastgen false false).1 } := h.quiet hq rfl
  unfold natinEntry at hr
  rcases hf : s.nats.natSplayFind p.proto (inKey t p) 0 s.ctl.lastgen false false with ⟨nats, _ | n⟩ <;>
    rw [hf] at hr hq hfind hsplay
  · dsimp only at hr hq hsplay
    split at hr
    · cases hr
      exact ⟨hsplay, fun n e hn => by cases hn⟩
    have hcore := natRate_core cfg env.seconds t p.proto s.tuns
    rcases hrate : natRate cfg env.seconds t p.proto s.tuns with ⟨tuns, ok⟩
    rw [hrate] at hcore hr
    have hrated : Wired { s with nats := nats, tuns := tuns } := hsplay.quiet (.of_core hcore) rfl
    dsimp only at hr
    split at hr
    · cases hr
      exact ⟨hrated, fun n e hn => by cases hn⟩
    have hsrc : tuns.srcidx = s.tuns.srcidx := hcore.srcidx
    have howner : ∃ u ∈ tuns.live, u.ptr = t ∧ tuns.nonat t = none := by
      obtain ⟨u, hu, hp, hn⟩ := ht
      refine ⟨u, ?_, hp, ?_⟩
      · rw [Tunnels.live, hcore.tree]
        exact hu
      · rw [hcore.nonat]
        exact hn
    obtain ⟨hmoves, hknown⟩ := newNat_moves cfg (m := growing)
      (s := { s with nats := nats, tuns := tuns }) (env.after 1)
      (n := inEntry t (s.ports.pool (s.tuns.srcidx t)).addr nats.next p) rfl rfl (.inl howner)
      fun q hq hb => .dynamic hb rfl (by
        simp only [inEntry, inKey, pool_congr hq, hsrc]) rfl howner
    split at hr <;> rename_i hnew <;> rw [hnew] at hmoves hknown <;> cases hr
    · refine ⟨hrated.moved hmoves ?_, fun n e hn => by cases hn⟩
      intro q
      rw [(newNat_made hnew).2.1]
      exact List.Subset.refl _
    · refine ⟨hrated.moved hmoves ?_, ?_⟩
      · intro q
        rw [(newNat_made hnew).2.1]
        exact List.Subset.refl _
      · intro n e hn
        cases hn
        exact hknown _ rfl
  · cases hr
    refine ⟨hsplay, ?_⟩
    intro m e hm
    cases hm
    apply Known.of_splay (k := ((inKey t p).tunnel, p.proto))
    rw [hq.nats.splay]
    exact natSplayRoFind_mem (hfind rfl)

theorem getFtptempdata_wired {env : NatEnv} (h : Wired s) (hk : Known s n0) (htcp : n0.proto = .tcp)
    (np : ℕ) : Wired (getFtptempdata cfg env n0 np s).1 := by
  have hmoves : Moves cfg growing s (getFtptempdata cfg env n0 np s).1 :=
    (getFtptempdata_moves cfg env rfl hk np).1
  exact h.extended hmoves hk htcp (getFtptempdata_extends np)

theorem patchFtpin_wired {env : NatEnv} {server : Bool} {junk : UInt8 × UInt8} (h : Wired a.st)
    (hk : Known a.st n0) (htcp : n0.proto = .tcp) :
    Wired (patchFtpin cfg env server junk b n0 a).1.st := by
  unfold patchFtpin
  dsimp only
  split
  · exact h
  · rename_i n hn
    have hkn : Known a.st n ∧ n.proto = .tcp := by
      split at hn
      · have hmem := List.mem_of_find?_eq_some hn
        exact ⟨.of_xlist hmem, h.tcp _ n hmem⟩
      · cases hn
        exact ⟨hk, htcp⟩
    obtain ⟨c, hc⟩ : ∃ c, c = payload (fixFtpsacksum b TCPSEQ false (a.ftpseq n.ptr)) := ⟨_, rfl⟩
    rw [← hc]
    have hline : Wired (patchFtpline cfg env server junk n c a.st).1 := by
      unfold patchFtpline
      split
      · exact h
      · split
        · exact h
        · rename_i k p _
          have hw : Wired (getFtptempdata cfg env n (p.1.toNat * 256 + p.2.toNat) a.st).1 :=
            getFtptempdata_wired h hkn.1 hkn.2 _
          rcases hr : getFtptempdata cfg env n (p.1.toNat * 256 + p.2.toNat) a.st with ⟨s', _ | x⟩ <;>
            rw [hr] at hw <;> exact hw
    rcases hr : patchFtpline cfg env server junk n c a.st with ⟨s', _ | _ | x⟩ <;> rw [hr] at hline <;>
      exact hline

theorem natin_wired {r : Option Buf} (h : Wired a.st)
    (ht : ∃ u ∈ a.st.tuns.live, u.ptr = t ∧ a.st.tuns.nonat t = none)
    (hr : natin cfg dv dr t b a = .through (a', r)) : Wired a'.st := by
  unfold natin at hr
  split at hr
  · rename_i s hentry
    cases hr
    exact (natinEntry_wired h ht hentry).1
  · rename_i s n env hentry
    obtain ⟨hw, hknown⟩ := natinEntry_wired h ht hentry
    have hk := hknown n env rfl
    dsimp only at hr
    split at hr
    · cases hr
      exact hw
    · rename_i hpr
      rw [ne_eq, not_not] at hpr
      split at hr
      · cases hr
      · obtain ⟨c, -, hrest⟩ := bind_through_iff.mp hr
        have hout : _ = a' := congrArg Prod.fst (Result.through.inj hrest)
        rw [← hout]
        split
        · exact @patchFtpin_wired cfg { a with st := s } c n env false dr.junk hw hk hpr
        · split
          · exact @patchFtpin_wired cfg { a with st := s } c n env true dr.junk hw hk hpr
          · exact hw

theorem prrin_wired {r : Option Buf} (h : Wired a.st) (hr : prrin dv t b a = .through (a', r)) :
    Wired a'.st := by
  have hw : Wired (WanStack.Aftr.prrin t (inPkt b) a.st).1 := h.quiet (prrin_quiet t (inPkt b) a.st) rfl
  unfold prrin at hr
  rcases hp : WanStack.Aftr.prrin t (inPkt b) a.st with ⟨s, _ | p⟩ <;> rw [hp] at hr hw
  · cases hr
    exact hw
  · dsimp only at hr
    split at hr
    · obtain ⟨c, -, hrest⟩ := bind_through_iff.mp hr
      cases hrest
      exact hw
    · cases hr
      exact hw

theorem naticmpin_wired (h : Wired a.st) : Wired (naticmpin dv dr t b a).1.st := by
  unfold naticmpin
  split
  · exact h
  · split
    · exact h
    · rename_i q _
      obtain ⟨pr, hpr⟩ : ∃ pr, pr = if byteAt q IPPROTO = IPTCP then Pr.tcp else Pr.udp := ⟨_, rfl⟩
      dsimp only
      rw [← hpr]
      have hw : Wired (WanStack.Aftr.naticmpin t pr (addrAt q IPDST) (shortAt q IPDPORT) a.st).1 :=
        h.quiet (naticmpin_quiet t pr _ _ a.st) rfl
      rcases hn : WanStack.Aftr.naticmpin t pr (addrAt q IPDST) (shortAt q IPDPORT) a.st with ⟨s, _ | n⟩ <;>
        rw [hn] at hw <;> exact hw

theorem fromTunnel_wired {u : Tunnel} {f : Filtered} {r : Option Buf} {acls : Acls} (h : Wired a.st)
    (hu : u ∈ a.st.tuns.live)
    (hf : (f.ret = 0 ∧ f.icmp = false) ∨
      (f.ret, f.icmp) = inKind acls (a.st.tuns.nonat u.ptr).isSome f.buf4)
    (hr : fromTunnel cfg dv dr u f a = .through (a', r)) : Wired a'.st := by
  unfold fromTunnel at hr
  split at hr
  · have hout : _ = a' := congrArg Prod.fst (Result.through.inj hr)
    rw [← hout]
    exact naticmpin_wired h
  split at hr
  · rename_i hone
    -- no packet of a tunnel without NAT has this kind
    have hnonat : a.st.tuns.nonat u.ptr = none := by
      rcases hf with ⟨hzero, -⟩ | hkind
      · rw [hone] at hzero
        cases hzero
      · by_contra hne
        rw [← ne_eq, Option.ne_none_iff_isSome] at hne
        rw [hone, hne] at hkind
        unfold inKind at hkind
        split at hkind
        · cases hkind
        · rw [if_pos rfl] at hkind
          cases hkind
    exact natin_wired h ⟨u, hu, rfl, hnonat⟩ hr
  split at hr
  · exact prrin_wired h hr
  split at hr
  · obtain ⟨o, -, hrest⟩ := bind_through_iff.mp hr
    cases hrest
    exact h
  · cases hr
    exact h

/-! ### From the Internet -/

theorem natSplaySplay_wired (h : Wired s) (pr : Pr) (n : NatEntry) :
    Wired { s with nats := s.nats.natSplaySplay pr n } :=
  h.quiet (natSplaySplay_quiet s pr n) rfl

theorem natLookup_wired {pr : Pr} {key : NatEntry} {nats : Nats} {r : Option NatEntry} (h : Wired s)
    (hl : s.nats.natLookup pr key s.ctl.lastgen = (nats, r)) : Wired { s with nats := nats } := by
  have hmoves := natLookup_moves {} growing s pr key
  rw [hl] at hmoves
  exact h.moved hmoves (natLookup_calm hl).xlist

theorem natoutRest_wired {env : NatEnv} {c : TunnelConf} {out : Option (ℕ × Buf)} (h : Wired a.st)
    (hk : Known a.st n) (hprr : n.flags.prrNull = false)
    (hr : natoutRest cfg env c b n a = .through (a', out)) : Wired a'.st := by
  unfold natoutRest at hr
  dsimp only at hr
  split at hr
  · cases hr
    exact natSplaySplay_wired h _ n
  · rename_i hpr
    rw [ne_eq, not_not] at hpr
    obtain ⟨d, -, hrest⟩ := bind_through_iff.mp hr
    have hw : Wired (if (outPkt b).sport = PORTFTP ∨ n.sport = PORTFTP then
        patchFtpout cfg env ((outPkt b).sport ≠ PORTFTP) (outPkt b) n a.st else (a.st, some n)).1 := by
      split
      · rename_i hftp
        have hserver : decide ((outPkt b).sport ≠ PORTFTP) = true → n.sport = PORTFTP :=
          fun hs => hftp.resolve_left (of_decide_eq_true hs)
        have hmoves : Moves cfg growing a.st (patchFtpout cfg env ((outPkt b).sport ≠ PORTFTP) (outPkt b) n
          a.st).1 := patchFtpout_moves env rfl _ (outPkt b) hk hprr hserver hpr
        exact h.extended hmoves hk hpr (patchFtpout_extends (outPkt b))
      · exact h
    split at hrest
    · cases hrest
      exact hw
    · rename_i m _
      cases hrest
      exact natSplaySplay_wired hw _ m

theorem natoutFound_wired {errors : List Buf} {out : Option (ℕ × Buf)} (h : Wired a.st)
    (hk : Known a.st n) (hr : natoutFound cfg dv dr b n a = .through (a', errors, out)) :
    Wired a'.st := by
  unfold natoutFound at hr
  split at hr
  · cases hr
    exact h
  · obtain ⟨⟨errs, c⟩, -, hrest⟩ := bind_through_iff.mp hr
    cases c with
    | none =>
      cases hrest
      exact h
    | some c =>
      dsimp only at hrest
      split at hrest
      · split at hrest
        · obtain ⟨d, -, hout⟩ := bind_through_iff.mp hrest
          cases hout
          exact natSplaySplay_wired h _ n
        · cases hrest
          exact natSplaySplay_wired h _ n
      · rename_i hprr
        rw [Bool.not_eq_true] at hprr
        obtain ⟨⟨a₁, o⟩, hrestof, hout⟩ := bind_through_iff.mp hrest
        cases hout
        exact natoutRest_wired h hk hprr hrestof

theorem natout_wired {errors : List Buf} {out : Option (ℕ × Buf)} (h : Wired a.st)
    (hr : natout cfg dv dr b a = .through (a', errors, out)) : Wired a'.st := by
  unfold natout at hr
  rcases hl : a.st.nats.natLookup (protoAt b) (outKey (outPkt b)) a.st.ctl.lastgen with ⟨nats, _ | n⟩ <;>
    rw [hl] at hr
  · cases hr
    exact natLookup_wired h hl
  · exact @natoutFound_wired cfg dv dr { a with st.nats := nats } a' b n errors out (natLookup_wired h hl)
      (natLookup_known hl) hr

theorem naticmpout_wired (h : Wired a.st) : Wired (naticmpout dv b a).1.st := by
  unfold naticmpout
  dsimp only
  rcases hl : a.st.nats.natLookup (quotedPkt b).proto (icmpOutKey (quotedPkt b)) a.st.ctl.lastgen with
    ⟨nats, _ | n⟩
  · exact natLookup_wired h hl
  · exact natLookup_wired h hl

theorem fromInternet_wired {f : Filtered} {errors : List Buf} {out : Option (ℕ × Buf)} (h : Wired a.st)
    (hr : fromInternet cfg dv dr f a = .through (a', errors, out)) : Wired a'.st := by
  unfold fromInternet at hr
  split at hr
  · exact natout_wired h hr
  split at hr
  · have hw := @naticmpout_wired dv a f.buf4 h
    rcases hi : naticmpout dv f.buf4 a with ⟨a₁, o⟩
    rw [hi] at hr hw
    cases hr
    exact hw
  split at hr
  · obtain ⟨o, -, hrest⟩ := bind_through_iff.mp hr
    cases hrest
    exact h
  · cases hr
    exact h

/-! ### Runs -/

/-- One packet that is read. -/
theorem loop1_wired {ws : List Written} (h : Wired a.st)
    (hr : loop1 cfg dv dr buf a = .through (a', ws)) : Wired a'.st := by
  unfold loop1 at hr
  split at hr
  · split at hr
    · cases hr
      exact h
    obtain ⟨⟨st, r⟩, hdecap, hrest⟩ := bind_through_iff.mp hr
    have hsome := finished_through hdecap
    have hw : Wired st := filterDecap_wired h hsome
    have hfound := @filterDecap_moves cfg growing _ _ _ _ _ _ _ rfl h.tuns hsome
    cases r with
    | none =>
      cases hrest
      exact hw
    | some o =>
      obtain ⟨t, b₄⟩ := o
      obtain ⟨hlive, -⟩ := hfound.found t b₄ rfl
      obtain ⟨f, hfilter, hrest⟩ := bind_through_iff.mp hrest
      have hleft := @filterin_moves cfg growing st _ _ _ _ _ _ _ rfl ⟨t, hlive, rfl⟩
        (finished_through hfilter)
      obtain ⟨⟨a₁, out⟩, htunnel, hout⟩ := bind_through_iff.mp hrest
      cases hout
      exact @fromTunnel_wired cfg dv dr (liftFrags f.frags { a with st := st }) a' t f out dv.acls
        (hw.moved hleft.moves fun p => List.Subset.refl _) hlive (hleft.kind.imp_right And.right) htunnel
  · split at hr
    · split at hr
      · cases hr
        exact h
      obtain ⟨f, hfilter, hrest⟩ := bind_through_iff.mp hr
      have hleft := @filterout_moves cfg growing _ _ _ _ _ _ rfl (finished_through hfilter)
      obtain ⟨⟨a₁, errors, out⟩, hinternet, hout⟩ := bind_through_iff.mp hrest
      cases hout
      exact @fromInternet_wired cfg dv dr (liftFrags f.frags a) a' f errors out
        (h.moved hleft.moves fun p => List.Subset.refl _) hinternet
    · cases hr
      exact h

/-- No packet for `icmp6in`. -/
def NoIcmp6 (buf : Buf) : Prop :=
  byteAt buf 0 &&& IPVERMSK = IP6V → byteAt buf IP6PROTO ≠ IP6ICMP

/-- The tables after control events and packets, in the order they come. -/
inductive Reached (cfg : Conf) (ports : Ports) (rnd₁ rnd₂ rnd₃ : UInt32) : Tables → Prop where
  | start (ftpseq : ℕ → List FtpSeq) : Reached cfg ports rnd₁ rnd₂ rnd₃ ⟨start ports rnd₁ rnd₂ rnd₃, ftpseq⟩
  | control {a : Tables} (e : Event) (h : Reached cfg ports rnd₁ rnd₂ rnd₃ a) :
      Reached cfg ports rnd₁ rnd₂ rnd₃ { a with st := step cfg a.st e }
  | packet {dv : Device} {dr : Drawn} {buf : Buf} {a a' : Tables} {ws : List Written}
      (h : Reached cfg ports rnd₁ rnd₂ rnd₃ a) (hb : NoIcmp6 buf)
      (hl : loop1 cfg dv dr buf a = .through (a', ws)) : Reached cfg ports rnd₁ rnd₂ rnd₃ a'

variable {ports : Ports} {rnd₁ rnd₂ rnd₃ : UInt32}

/-- The chains hold in every run with packets in it. -/
theorem Reached.wired (h : Reached cfg ports rnd₁ rnd₂ rnd₃ a) : Wired a.st := by
  induction h with
  | start ftpseq => exact ⟨start_chained ports rnd₁ rnd₂ rnd₃, start_ftpTcp ports rnd₁ rnd₂ rnd₃⟩
  | control e _ ih => exact ⟨step_chained ih.toChained ih.tcp e, step_ftpTcp ih.tcp e⟩
  | packet _ _ hl ih => exact loop1_wired ih hl

theorem Reached.run (h : Reached cfg ports rnd₁ rnd₂ rnd₃ a) (es : List Event) :
    Reached cfg ports rnd₁ rnd₂ rnd₃ { a with st := run cfg a.st es } := by
  induction es generalizing a with
  | nil => exact h
  | cons e es ih => exact ih (h.control e)

/-- What is written for a packet, after any control events and packets: nothing, a packet for a
    tunnel or an error, each with its reason, or one packet of a tunnel. -/
theorem wire_accounted {ws : List Written} (h : Reached cfg ports rnd₁ rnd₂ rnd₃ a)
    (hb : NoIcmp6 buf) (hl : loop1 cfg dv dr buf a = .through (a', ws)) : ws = [] ∨
      (∃ f, Filter.filterout cfg.frag a.st (a.st.frags.frags4.length + 1)
          { env := dr.filter, frags := a.st.frags, buf4 := buf } = some f ∧
        ∀ w ∈ ws, Accounted dv dr a.st a'.st f.buf4 w) ∨
      ∃ st t b₄ f b', Sent cfg dv dr a.st buf st t b₄ f b' ∧ ws = [Written.v4 b'] := by
  have hw := h.wired
  by_cases h6 : byteAt buf 0 &&& IPVERMSK = IP6V
  · exact (loop1_departs hw.tuns ⟨h6, hb h6⟩ hl).imp_right .inr
  · by_cases h4 : byteAt buf 0 &&& IPVERMSK = IP4V
    · exact (loop1_routed hw.toChained h4 hl).imp_right .inl
    · unfold loop1 at hl
      rw [if_neg h6, if_neg h4] at hl
      cases hl
      exact .inl rfl

theorem wire_accounted_client : ∃ a' ws, ws ≠ [] ∧
    loop1 defaultConf onDevice plainDrawn clientSyn serverTables = .through (a', ws) ∧ (ws = [] ∨
      (∃ f, Filter.filterout defaultConf.frag serverTables.st (serverTables.st.frags.frags4.length + 1)
          { env := plainDrawn.filter, frags := serverTables.st.frags, buf4 := clientSyn } = some f ∧
        ∀ w ∈ ws, Accounted onDevice plainDrawn serverTables.st (Tables.st a') f.buf4 w) ∨
      ∃ st t b₄ f b', Sent defaultConf onDevice plainDrawn serverTables.st clientSyn st t b₄ f b' ∧
        ws = [Written.v4 b']) := by
  have hsome : writtenBy (loop1 defaultConf onDevice plainDrawn clientSyn serverTables) ≠ [] := by
    decide +kernel
  obtain ⟨a', h⟩ := through_written hsome
  have hstart : Reached defaultConf (bootPools defaultConf [.addPool 7]) 0 0 0 serverTables :=
    (Reached.start fun _ => []).run serverBoot
  have hb : NoIcmp6 clientSyn := by
    unfold NoIcmp6
    decide +kernel
  exact ⟨a', _, hsome, h, wire_accounted hstart hb h⟩

end WanStack.Aftr.Datapath
