import WanStack.Aftr.PacketShape
import WanStack.Aftr.Runs

set_option autoImplicit false

/-!
# Runs with packets

What the loop does with the bytes of a packet is a growing sequence of the moves a run is
made of, so the invariants of a run hold with packets in it.
-/
namespace WanStack.Aftr.Datapath
open Filter Ftp Tried Again Relation

variable {cfg : Conf} {m : Mode}

/-! ### The filters -/

section Filters

variable {s s₀ : State} {dv : Device}

/-- The fragment queues after one call for a tunnel in use. -/
theorem defrag_moves (hm : m.grow = true) {t : Option ℕ} (ht : ∀ p, t = some p → ∃ u ∈ s.tuns.live, u.ptr = p)
    (env : Env) (buf4 : Buf) (h : Moves cfg m s₀ s) :
    Moves cfg m s₀ { s with frags := (defrag cfg.frag env t buf4 s.frags).1 } := by
  apply h.trans
  apply ReflTransGen.single
  have hmove : Move cfg m s _ := .frags (.defrag env t buf4) fun p hp => ⟨hm, ht p hp⟩
  exact hmove

theorem defrag6_moves (hm : m.grow = true) {t : ℕ} (ht : ∃ u ∈ s.tuns.live, u.ptr = t)
    (env : Env) (buf6 : Buf) (h : Moves cfg m s₀ s) :
    Moves cfg m s₀ { s with frags := (defrag6 cfg.frag env t buf6 s.frags).1 } := by
  apply h.trans
  apply ReflTransGen.single
  have hmove : Move cfg m s _ := .frags (.defrag6 env t buf6) fun p hp => by
    cases hp
    exact ⟨hm, ht⟩
  exact hmove

/-- What a filter leaves: the queues, and a packet that is sound if it goes on. -/
structure Left (cfg : Conf) (m : Mode) (s : State) (kind : Buf → ℕ × Bool → Prop) (f : Filtered) :
    Prop where
  moves : Moves cfg m s { s with frags := f.frags }
  kind : (f.ret = 0 ∧ f.icmp = false) ∨ Sound f.buf4 ∧ kind f.buf4 (f.ret, f.icmp)

/-- The queues at the label. -/
def AtLabel (cfg : Conf) (m : Mode) (s : State) (p : Packet) : Prop :=
  Moves cfg m s { s with frags := p.frags }

theorem reassemble_moves {σ : Type} {t : Option ℕ} {p : Packet} {buf4 : Buf} {again : Packet → σ}
    {kind : Buf → ℕ × Bool → Prop} {Back : σ → Prop} (hm : m.grow = true)
    (ht : ∀ q, t = some q → ∃ u ∈ s.tuns.live, u.ptr = q) (h : AtLabel cfg m s p)
    (hback : ∀ p', AtLabel cfg m s p' → Back (again p')) :
    (reassemble cfg.frag t p buf4 again).Meets Back (Left cfg m s kind) := by
  have hmoves : Moves cfg m s { s with frags := (defrag cfg.frag p.env t buf4 p.frags).1 } :=
    defrag_moves (s := { s with frags := p.frags }) hm ht p.env buf4 h
  unfold reassemble
  rcases hd : defrag cfg.frag p.env t buf4 p.frags with ⟨frags, _ | out⟩ <;> rw [hd] at hmoves
  · exact ⟨hmoves, .inl ⟨rfl, rfl⟩⟩
  · exact hback _ hmoves

/-- The filter of a tunnel. -/
theorem filterinPass_moves {a : Acls} {t : ℕ} {nonat : Bool} (hm : m.grow = true)
    (ht : ∃ u ∈ s.tuns.live, u.ptr = t) (p : Packet) (h : AtLabel cfg m s p) :
    (filterinPass cfg.frag a t nonat p).Meets (AtLabel cfg m s)
      (Left cfg m s fun b r => r = inKind a nonat b) := by
  have hdrop : ∀ b, Left cfg m s (fun b r => r = inKind a nonat b) ⟨p.frags, b, 0, false⟩ :=
    fun b => ⟨h, .inl ⟨rfl, rfl⟩⟩
  unfold filterinPass
  split
  · exact hdrop _
  split
  · exact hdrop _
  rename_i h0
  split
  · exact hdrop _
  rename_i hl
  split
  · exact hdrop _
  rename_i hmc
  split
  · exact hdrop _
  rename_i hp
  extract_lets l buf4
  split
  · exact hdrop _
  rename_i hlen
  split
  · exact hdrop _
  rename_i hc
  split
  · apply reassemble_moves hm _ h
    · intro p' hp'
      exact hp'
    · intro q hq
      cases hq
      exact ht
  rename_i hf
  exact ⟨h, .inr ⟨sound_take h0 hl hmc hlen hp hc hf, rfl⟩⟩

/-- What the destination control knows of a packet. -/
def Controlled (r : Option ℕ) : Prop := ∀ ret, r = some ret → ret = 0 ∨ ret = 3

theorem destination_controlled {st : State} {r : Option ℕ} {b : Buf} (h : Controlled r) :
    Controlled (destination st r b) := by
  intro ret hret
  unfold destination at hret
  split at hret
  · cases hret
    exact h _ rfl
  · split at hret
    · cases hret
      exact .inr rfl
    · split at hret
      · cases hret
        exact .inl rfl
      · cases hret

/-- The queues at the label of the filter of the Internet, and what is known there. -/
def AtOutLabel (cfg : Conf) (m : Mode) (s : State) (p : OutPacket) : Prop :=
  AtLabel cfg m s p.toPacket ∧ Controlled p.ret

/-- The filter of the Internet. -/
theorem filteroutPass_moves {st : State} (hm : m.grow = true) (p : OutPacket)
    (h : AtOutLabel cfg m s p) :
    (filteroutPass cfg.frag st p).Meets (AtOutLabel cfg m s)
      (Left cfg m s fun b r => ∃ ret, (ret = 0 ∨ ret = 3) ∧ r = (outKind st.ports ret b, false)) := by
  obtain ⟨h, hcontrol⟩ := h
  have hdrop : ∀ b, Left cfg m s
      (fun b r => ∃ ret, (ret = 0 ∨ ret = 3) ∧ r = (outKind st.ports ret b, false))
      ⟨p.frags, b, 0, false⟩ := fun b => ⟨h, .inl ⟨rfl, rfl⟩⟩
  unfold filteroutPass
  simp only
  split
  · exact hdrop _
  split
  · exact hdrop _
  rename_i h0
  split
  · exact hdrop _
  rename_i hl
  split
  · exact hdrop _
  rename_i hmc
  split
  · exact hdrop _
  rename_i hlen
  split
  · exact hdrop _
  rename_i hc
  split
  · exact hdrop _
  rename_i ret hret
  have hkind : ret = 0 ∨ ret = 3 := destination_controlled hcontrol ret hret
  split
  · exact hdrop _
  rename_i hp
  split
  · apply reassemble_moves hm _ h
    · intro p' hp'
      refine ⟨hp', ?_⟩
      intro r hr
      cases hr
      exact hkind
    · intro q hq
      cases hq
  rename_i hf
  have hproto : knownProto (p.buf4.take (shortAt p.buf4 IPLENH)) = knownProto p.buf4 := by
    simp only [knownProto]
    rw [byteAt_take (by simp only [IPMINLEN, IPPROTO] at *; omega)]
  rw [hproto] at hp
  exact ⟨h, .inr ⟨sound_take h0 hl hmc hlen hp hc hf, ret, hkind, rfl⟩⟩

theorem filterin_moves {a : Acls} {t : ℕ} {nonat : Bool} {k : ℕ} {env : Env} {buf4 : Buf} {f : Filtered}
    (hm : m.grow = true) (ht : ∃ u ∈ s.tuns.live, u.ptr = t)
    (h : Filter.filterin cfg.frag a t nonat k ⟨env, s.frags, buf4⟩ = some f) :
    Left cfg m s (fun b r => r = inKind a nonat b) f := by
  have hstart : AtLabel cfg m s ⟨env, s.frags, buf4⟩ := ReflTransGen.refl
  exact loop_post (fun p hp => filterinPass_moves hm ht p hp) hstart h

theorem filterout_moves {st : State} {k : ℕ} {env : Env} {buf4 : Buf} {f : Filtered}
    (hm : m.grow = true)
    (h : Filter.filterout cfg.frag st k { env := env, frags := s.frags, buf4 := buf4 } = some f) :
    Left cfg m s (fun b r => ∃ ret, (ret = 0 ∨ ret = 3) ∧ r = (outKind st.ports ret b, false)) f := by
  have hstart : AtOutLabel cfg m s { env := env, frags := s.frags, buf4 := buf4 } :=
    ⟨ReflTransGen.refl, fun ret hret => by cases hret⟩
  exact loop_post (fun p hp => filteroutPass_moves hm p hp) hstart h

/-! ### The tunnel -/

theorem tunnelLookup_remote {tuns : Tunnels} {peer : Addr6} {t : Tunnel} (hok : tuns.Ok)
    (h : (tuns.tunnelLookup peer).2 = some t) : t.remote = peer := by
  rw [hok.tunnelLookup] at h
  exact (hok.find_eq_some.mp h).2

theorem addStdtunnel_remote {env : NatEnv} {peer : Addr6} {src : Option ℕ} {t : Tunnel}
    (h : (addStdtunnel cfg env peer src s).2 = some t) : t.remote = peer := by
  have hadd : ∀ e, (s.tuns.addTunnel cfg e peer).2 = some t → t.remote = peer := by
    intro e he
    unfold Tunnels.addTunnel at he
    split at he
    · cases he
    · split at he
      · cases he
      · dsimp only at he
        split at he
        · cases he
        · split at he
          · cases he
          · cases he
            rfl
  unfold addStdtunnel at h
  split at h
  · cases h
  · split at h
    · cases h
    · split at h
      · cases h
      · rename_i tuns u hu
        apply hadd (env.after 1)
        rw [hu]
        split at h <;> exact h

theorem decap_remote {env : NatEnv} {peer : Addr6} {auto : Bool} {t : Tunnel} (hok : s.tuns.Ok)
    (h : (WanStack.Aftr.decap cfg env peer auto s).2 = some t) : t.remote = peer := by
  unfold WanStack.Aftr.decap at h
  split at h
  · rename_i tuns u hu
    cases h
    exact tunnelLookup_remote hok (by rw [hu])
  · split at h
    · exact addStdtunnel_remote h
    · cases h

/-- A packet at the label of `decap`: its tunnel, once found, is the one of its source. -/
structure AtDecap (cfg : Conf) (m : Mode) (s : State) (peer : Addr6) (p : Packet6) : Prop where
  moves : Moves cfg m s p.st
  first : p.t = none → p.st = s ∧ addr6At p.buf6 IP6SRC = peer
  found : ∀ t, p.t = some t → t ∈ p.st.tuns.live ∧ t.remote = peer

/-- What `decap` leaves. -/
structure Decapped (cfg : Conf) (m : Mode) (s : State) (peer : Addr6)
    (r : State × Option (Tunnel × Buf)) : Prop where
  moves : Moves cfg m s r.1
  found : ∀ t b, r.2 = some (t, b) → t ∈ r.1.tuns.live ∧ t.remote = peer

theorem decapPass_moves {a : Acls} {auto : Bool} {peer : Addr6} (hm : m.grow = true) (hok : s.tuns.Ok)
    (p : Packet6) (h : AtDecap cfg m s peer p) :
    (decapPass cfg a auto p).Meets (AtDecap cfg m s peer) (Decapped cfg m s peer) := by
  have hdrop : ∀ st, Moves cfg m s st → Decapped cfg m s peer (st, none) :=
    fun st hst => ⟨hst, fun t b hr => by cases hr⟩
  -- the tunnel that is found here
  have hhere : ∀ st r, p.t = none → WanStack.Aftr.decap cfg p.env (addr6At p.buf6 IP6SRC)
      (auto && acl6 a (p.buf6.drop IP6SRC)) p.st = (st, r) →
      Moves cfg m s st ∧ ∀ t, r = some t → t ∈ st.tuns.live ∧ t.remote = peer := by
    intro st r ht hr
    obtain ⟨hst, hpeer⟩ := h.first ht
    rw [hst, hpeer] at hr
    have hfound := decap_found cfg p.env peer (auto && acl6 a (p.buf6.drop IP6SRC)) s
    have hremote : ∀ u, (WanStack.Aftr.decap cfg p.env peer (auto && acl6 a (p.buf6.drop IP6SRC)) s).2 =
        some u → u.remote = peer := fun u hu => decap_remote hok hu
    rw [hr] at hfound hremote
    exact ⟨hfound.1.moves, fun u hu => ⟨hfound.2 u hu hok, hremote u hu⟩⟩
  unfold decapPass
  split
  · exact hdrop _ h.moves
  split
  · exact hdrop _ h.moves
  split
  · exact hdrop _ h.moves
  split
  · rename_i st heq
    split at heq
    · cases heq
    · rename_i ht
      exact hdrop _ (hhere st none ht heq).1
  rename_i st t heq
  have hboth : Moves cfg m s st ∧ t ∈ st.tuns.live ∧ t.remote = peer := by
    split at heq
    · rename_i u ht
      cases heq
      exact ⟨h.moves, h.found t ht⟩
    · rename_i ht
      obtain ⟨hst, hlive⟩ := hhere st (some t) ht heq
      exact ⟨hst, hlive t rfl⟩
  obtain ⟨hst, hlive⟩ := hboth
  simp only
  split
  · exact hdrop _ hst
  split
  · exact hdrop _ hst
  split
  · split
    · have hdefrag := defrag6_moves hm ⟨t, hlive.1, rfl⟩ (p.env.after 3).toEnv
        (p.buf6.take (IP6HDRLEN + shortAt p.buf6 IP6LENH)) hst
      split
      · rename_i frags out hd
        rw [hd] at hdefrag
        refine ⟨hdefrag, ?_, ?_⟩
        · intro hn
          cases hn
        intro u hu
        cases hu
        exact hlive
      · rename_i frags hd
        rw [hd] at hdefrag
        exact hdrop _ hdefrag
    · split
      · refine ⟨hst, ?_, ?_⟩
        · intro hn
          cases hn
        intro u hu
        cases hu
        exact hlive
      · exact hdrop _ hst
  · refine ⟨hst, ?_⟩
    intro u b hu
    cases hu
    exact hlive

theorem filterDecap_moves {a : Acls} {auto : Bool} {k : ℕ} {env : NatEnv} {buf : Buf}
    {r : State × Option (Tunnel × Buf)} (hm : m.grow = true) (hok : s.tuns.Ok)
    (h : Filter.decap cfg a auto k ⟨env, s, none, buf⟩ = some r) :
    Decapped cfg m s (addr6At buf IP6SRC) r := by
  apply loop_post (fun p hp => decapPass_moves hm hok p hp) (I := AtDecap cfg m s (addr6At buf IP6SRC)) _ h
  exact ⟨.refl s, fun _ => ⟨rfl, rfl⟩, fun t ht => by cases ht⟩

end Filters

end WanStack.Aftr.Datapath
