import WanStack.Aftr.FragInv
import WanStack.Aftr.Runs

set_option autoImplicit false

/-!
# Fragments and their tunnels

Nothing drops the fragments of a tunnel that goes away, so a queued head has a
live tunnel as long as no step removes a tunnel with fragments queued.
-/
namespace WanStack.Aftr
open Relation

/-- The heads that have a tunnel. -/
def Frags.heads (st : Frags) : List Frag := st.frags6 ++ st.fragsin

/-! ### The queues -/

theorem fragHead4_frags6 {cfg : FragConf} {env : Env} {t : Option ℕ} {buf4 : Buf}
    {x : Reassembly.Piece UInt8} {st st' : Frags} {f : Frag}
    (h : fragHead4 cfg env t buf4 x st = some (st', f)) : st'.frags6 = st.frags6 := by
  unfold fragHead4 at h
  dsimp only at h
  split at h
  · simp only [Option.some.injEq, Prod.mk.injEq] at h
    rw [h.1]
  · split at h
    · simp only [Frags.rehash, Option.some.injEq, Prod.mk.injEq] at h
      rw [← h.1]
      rfl
    · split at h
      · simp only [Frags.rehash, Option.some.injEq, Prod.mk.injEq] at h
        rw [← h.1]
        simp only [Frags.setFrag, newFrag4]
        cases t <;> rfl
      · simp at h

theorem addFrag4_frags6 (env : Env) (buf4 : Buf) (x : Reassembly.Piece UInt8) (st : Frags)
    (f : Frag) : (addFrag4 env buf4 x st f).1.frags6 = st.frags6 := by
  have hdel : ∀ (st : Frags) (g : Frag), (delFrag4 g st).frags6 = st.frags6 := by
    intro st g
    unfold delFrag4
    cases g.tunnel <;> rfl
  unfold addFrag4
  split
  · rfl
  split
  · rfl
  unfold whole4
  dsimp only
  split
  · rfl
  split
  · rfl
  split <;> rw [hdel] <;> rfl

theorem defrag_frags6 (cfg : FragConf) (env : Env) (t : Option ℕ) (buf4 : Buf) (st : Frags) :
    (defrag cfg env t buf4 st).1.frags6 = st.frags6 := by
  unfold defrag
  split
  · rfl
  dsimp only
  split
  · rfl
  split
  · rfl
  · rename_i st' f h
    rw [addFrag4_frags6, fragHead4_frags6 h]

theorem addFrag6_tunnel {env : Env} {buf6 : Buf} {x : Reassembly.Piece UInt8} {st : Frags}
    {f g : Frag} (h : g ∈ (addFrag6 env buf6 x st f).1.frags6) :
    g ∈ st.frags6 ∨ g.tunnel = f.tunnel := by
  unfold addFrag6 at h
  split at h
  · exact .inl h
  rename_i fraglist _
  split at h
  · exact .inl h
  have hset : ∀ g ∈ (st.setFrag6 (f.add (buf6.take IP6FLEN) x fraglist)).frags6,
      g ∈ st.frags6 ∨ g.tunnel = f.tunnel := by
    intro g hg
    obtain ⟨g', hg', rfl⟩ := List.mem_map.mp hg
    split
    · exact .inr (Frag.add_tunnel ..)
    · exact .inl hg'
  unfold whole6 at h
  dsimp only at h
  split at h
  · exact hset g h
  split at h
  · exact hset g h
  split at h <;> exact hset g (List.mem_filter.mp h).1

/-- A head of `frags6` after a fragment is an old one or has its tunnel. -/
theorem defrag6_tunnel {cfg : FragConf} {env : Env} {t : ℕ} {buf6 : Buf} {st : Frags} {g : Frag}
    (h : g ∈ (defrag6 cfg env t buf6 st).1.frags6) : g ∈ st.frags6 ∨ g.tunnel = some t := by
  unfold defrag6 at h
  split at h
  · exact .inl h
  dsimp only at h
  split at h
  · exact .inl h
  split at h
  · exact .inl h
  rename_i st' f hf
  unfold fragHead6 at hf
  split at hf
  · rename_i f' hfind
    simp only [Option.some.injEq, Prod.mk.injEq] at hf
    obtain ⟨rfl, rfl⟩ := hf
    have ht : f'.tunnel = some t := by
      have := List.find?_some hfind
      simp only [sameDatagram6, Bool.and_eq_true, decide_eq_true_eq] at this
      exact this.1.1
    exact (addFrag6_tunnel h).imp id fun h => h.trans ht
  · split at hf
    · simp only [newFrag6, Option.some.injEq, Prod.mk.injEq] at hf
      obtain ⟨rfl, rfl⟩ := hf
      rcases addFrag6_tunnel h with h | h
      · rcases List.mem_cons.mp h with rfl | h
        · exact .inr rfl
        · exact .inl h
      · exact .inr h
    · simp at hf

theorem fragsin_of_frags4 {st : Frags} (hok : FragsOk st) {f : Frag} (hf : f ∈ st.frags4)
    (ht : f.tunnel ≠ none) : f ∈ st.fragsin := by
  rcases List.mem_append.mp hf with h | h
  · exact h
  · exact absurd (hok.out f h) ht

/-- No call puts a head into a queue except for the tunnel of its fragment. -/
theorem fragStep_tunnel (cfg : FragConf) {st : Frags} (hok : FragsOk st) (e : FragEvent)
    {f : Frag} (hf : f ∈ (fragStep cfg st e).heads) :
    f ∈ st.heads ∨ f.tunnel = e.tunnel ∧ (e.tunnel).isSome = true := by
  have hok' := fragStep_ok cfg hok e
  cases e with
  | defrag env t buf4 =>
    obtain ⟨-, hsame⟩ := defrag_ok hok cfg env t buf4
    rcases List.mem_append.mp hf with h | h
    · exact .inl (List.mem_append_left _ (defrag_frags6 cfg env t buf4 st ▸ h))
    · have hne := hok'.inn f h
      by_cases hkey : f.key = fragKey t buf4
      · have ht : f.tunnel = t := congrArg Prod.fst hkey
        refine .inr ⟨ht, ?_⟩
        rw [ht] at hne
        exact Option.isSome_iff_ne_none.mpr hne
      · have hold := (hsame f hkey).mp (List.mem_append_left _ h)
        exact .inl (List.mem_append_right _ (fragsin_of_frags4 hok hold hne))
  | defrag6 env t buf6 =>
    rcases List.mem_append.mp hf with h | h
    · exact (defrag6_tunnel h).imp (List.mem_append_left _) fun h => ⟨h, rfl⟩
    · exact .inl (List.mem_append_right _ ((defrag6_same4 cfg env t buf6 st).inn ▸ h))
  | expire seconds =>
    refine .inl (expireFrags_induct (fun st' => ∀ g ∈ st'.heads, g ∈ st.heads) ?_ ?_ st
      (fun g hg => hg) f hf)
    · intro g st' hst x hx
      refine hst x ?_
      rcases List.mem_append.mp hx with h | h
      · exact List.mem_append_left _ (List.mem_filter.mp h).1
      · exact List.mem_append_right _ h
    · intro g st' hst _ _ x hx
      refine hst x ?_
      unfold delFrag4 at hx
      cases hg : g.tunnel <;> rw [hg] at hx <;> rcases List.mem_append.mp hx with h | h
      · exact List.mem_append_left _ h
      · exact List.mem_append_right _ (List.mem_filter.mp h).1
      · exact List.mem_append_left _ h
      · exact List.mem_append_right _ (List.mem_filter.mp h).1
  | resize up rnd =>
    simp only [fragStep, resizeFragHash] at hf
    generalize (if up = true then st.fraghashsz * 2 else st.fraghashsz / 2) = newhashsz at hf
    split at hf <;> exact .inl hf

/-! ### Runs -/

/-- Every queued head has a tunnel of the tree. -/
def HeadsLive (s : State) : Prop :=
  ∀ f ∈ s.frags.heads, ∃ t ∈ s.tuns.live, f.tunnel = some t.ptr

/-- The step takes away no tunnel with fragments queued. -/
def SparesFragments (s : State) (e : Event) : Prop :=
  ∀ f ∈ s.frags.heads, ∀ p ∈ e.removes s, f.tunnel ≠ some p

instance (s : State) (e : Event) : Decidable (SparesFragments s e) :=
  inferInstanceAs (Decidable (∀ f ∈ s.frags.heads, ∀ p ∈ e.removes s, f.tunnel ≠ some p))

section
variable {cfg : Conf} {m : Mode} {s s' : State}

theorem Move.frags_ok (h : Move cfg m s s') (hok : FragsOk s.frags) : FragsOk s'.frags := by
  cases h with
  | frags e ht => exact fragStep_ok cfg.frag hok e
  | quiet h => exact h.frags ▸ hok
  | link hm hl hk ht hf ho => exact hf ▸ hok
  | _ => exact hok

/-- A growing sequence queues fragments for live tunnels only. -/
theorem Move.heads_grow (h : Move cfg m s s') (hm : m.grow = true) (htuns : s.tuns.Ok)
    (hok : FragsOk s.frags) (hl : HeadsLive s) : HeadsLive s' := by
  cases h with
  | frags e ht =>
    intro f hf
    rcases fragStep_tunnel cfg.frag hok e hf with h | ⟨h, hsome⟩
    · exact hl f h
    · obtain ⟨p, hp⟩ := Option.isSome_iff_exists.mp hsome
      obtain ⟨-, u, hu, rfl⟩ := ht p hp
      exact ⟨u, hu, h.trans hp⟩
  | quiet h =>
    intro f hf
    rw [h.frags] at hf
    obtain ⟨t, ht, hft⟩ := hl f hf
    exact ⟨t, (Tunnels.Grow.keeps h.tuns htuns ht).1, hft⟩
  | link hm' hl' hk ht hf ho =>
    intro f hf'
    rw [hf] at hf'
    rw [ht]
    exact hl f hf'
  | ports h => exact hl
  | cache hf => exact hl
  | resize up rnd => exact hl
  | unlinked hp hf => exact hl
  | del hm' => simp [hm] at hm'
  | removeTunnel hm' => simp [hm] at hm'
  | removeNonat hm' => simp [hm] at hm'

/-- A shrinking one takes heads away at most, and tunnels of its mode. -/
theorem Move.heads_shrink (h : Move cfg m s s') (hm : m.grow = false) (htuns : s.tuns.Ok)
    (hok : FragsOk s.frags) (hg : ∀ f ∈ s.frags.heads, ∀ p, m.gone p → f.tunnel ≠ some p)
    (hl : HeadsLive s) : HeadsLive s' ∧ ∀ f ∈ s'.frags.heads, f ∈ s.frags.heads := by
  -- a removal filters the tunnels by address
  have hremove : ∀ {tuns : Tunnels} {p : ℕ}, m.gone p →
      tuns.live = s.tuns.live.filter (·.ptr ≠ p) → HeadsLive { s with tuns := tuns } := by
    intro tuns p hp hlive f hf
    obtain ⟨u, hu, hfu⟩ := hl f hf
    refine ⟨u, ?_, hfu⟩
    change u ∈ tuns.live
    rw [hlive]
    refine List.mem_filter.mpr ⟨hu, decide_eq_true fun hup => hg f hf p hp ?_⟩
    rw [hfu, hup]
  cases h with
  | frags e ht =>
    have hsub : ∀ f ∈ (fragStep cfg.frag s.frags e).heads, f ∈ s.frags.heads := by
      intro f hf
      rcases fragStep_tunnel cfg.frag hok e hf with h | ⟨h, hsome⟩
      · exact h
      · obtain ⟨p, hp⟩ := Option.isSome_iff_exists.mp hsome
        simp [hm] at ht
        exact absurd hp (ht p)
    exact ⟨fun f hf => hl f (hsub f hf), hsub⟩
  | quiet h =>
    refine ⟨fun f hf => ?_, fun f hf => h.frags ▸ hf⟩
    rw [h.frags] at hf
    obtain ⟨t, ht, hft⟩ := hl f hf
    exact ⟨t, (Tunnels.Grow.keeps h.tuns htuns ht).1, hft⟩
  | link hm' => simp [hm] at hm'
  | ports h => exact ⟨hl, fun f hf => hf⟩
  | cache hf => exact ⟨hl, fun f hf => hf⟩
  | resize up rnd => exact ⟨hl, fun f hf => hf⟩
  | unlinked hp hf => exact ⟨hl, fun f hf => hf⟩
  | del hm' => exact ⟨hl, fun f hf => hf⟩
  | removeTunnel hm' hgone =>
    exact ⟨hremove hgone (Tunnels.live_removeTunnel ..), fun f hf => hf⟩
  | removeNonat hm' hgone =>
    exact ⟨hremove hgone (Tunnels.live_removeNonat ..), fun f hf => hf⟩

theorem Moves.frags_ok (h : Moves cfg m s s') (hok : FragsOk s.frags) : FragsOk s'.frags := by
  induction h with
  | refl => exact hok
  | tail _ hmove ih => exact hmove.frags_ok ih

theorem step_frags_ok (htuns : s.tuns.Ok) (hok : FragsOk s.frags) (e : Event) :
    FragsOk (step cfg s e).frags := (step_moves cfg htuns e).frags_ok hok

theorem step_tuns_ok (htuns : s.tuns.Ok) (e : Event) : (step cfg s e).tuns.Ok :=
  (step_moves cfg htuns e).tuns htuns

theorem Moves.heads_grow (h : Moves cfg m s s') (hm : m.grow = true) (htuns : s.tuns.Ok)
    (hok : FragsOk s.frags) (hl : HeadsLive s) : HeadsLive s' := by
  induction h with
  | refl => exact hl
  | tail h hmove ih => exact hmove.heads_grow hm (Moves.tuns h htuns) (Moves.frags_ok h hok) ih

theorem Moves.heads_shrink (h : Moves cfg m s s') (hm : m.grow = false) (htuns : s.tuns.Ok)
    (hok : FragsOk s.frags) (hg : ∀ f ∈ s.frags.heads, ∀ p, m.gone p → f.tunnel ≠ some p)
    (hl : HeadsLive s) : HeadsLive s' ∧ ∀ f ∈ s'.frags.heads, f ∈ s.frags.heads := by
  induction h with
  | refl => exact ⟨hl, fun f hf => hf⟩
  | tail h hmove ih =>
    obtain ⟨hl', hsub⟩ := ih
    obtain ⟨hl'', hsub'⟩ := hmove.heads_shrink hm (Moves.tuns h htuns) (Moves.frags_ok h hok)
      (fun f hf => hg f (hsub f hf)) hl'
    exact ⟨hl'', fun f hf => hsub f (hsub' f hf)⟩

theorem step_heads (htuns : s.tuns.Ok) (hok : FragsOk s.frags) (hl : HeadsLive s) (e : Event)
    (hs : SparesFragments s e) : HeadsLive (step cfg s e) := by
  have hmoves := step_moves cfg htuns e
  cases hm : (stepMode s e).grow with
  | true => exact hmoves.heads_grow hm htuns hok hl
  | false => exact (hmoves.heads_shrink hm htuns hok (fun f hf p hp => hs f hf p hp) hl).1

end

/-- In a run that takes away no tunnel with fragments queued, the tunnel of a
    queued fragment is in the tree all the time. -/
theorem run_heads_live (cfg : Conf) (ports : Ports) (rnd₁ rnd₂ rnd₃ : UInt32) (es : List Event)
    (h : EachStep cfg SparesFragments (start ports rnd₁ rnd₂ rnd₃) es) :
    Always cfg HeadsLive (start ports rnd₁ rnd₂ rnd₃) es := by
  have hinit : HeadsLive (start ports rnd₁ rnd₂ rnd₃) := by simp [HeadsLive, Frags.heads, start]
  refine (h.always (I := fun s => s.tuns.Ok ∧ FragsOk s.frags ∧ HeadsLive s)
    ⟨Tunnels.ok_start rnd₂, frags_init_ok rnd₃, hinit⟩ ?_).imp fun s h => h.2.2
  rintro s e ⟨htuns, hok, hl⟩ hs
  exact ⟨step_tuns_ok htuns e, step_frags_ok htuns hok e, step_heads htuns hok hl e hs⟩

/-- The first of several fragments. -/
def firstFragment : Buf := (List.replicate 56 0).set IP6FOFFL IP6FMF

/-- A fragment of a tunnel waits for the others when `delete` runs, before or
    after the time of the fragment is over. -/
def fragmentThenDelete (between : List Event) : List Event :=
  [.bootDone false, .defrag6 plainEnv 5 true firstFragment] ++ between ++
    [.commands 0, .line plainEnv false (.sessionConfig true),
      .line plainEnv false (.deleteTunnel 5)]

theorem run_heads_live_expired :
    Always {} HeadsLive (start (bootPools {} [.addPool 7]) 0 0 0)
      (fragmentThenDelete [.everySecond 31]) :=
  run_heads_live {} _ 0 0 0 _ (by decide +kernel)

/-- The head of a deleted tunnel stays in the queue. -/
theorem delete_leaves_head :
    ¬ Always {} HeadsLive (start (bootPools {} [.addPool 7]) 0 0 0) (fragmentThenDelete []) := by
  intro h
  have hlast := h.last
  revert hlast
  unfold HeadsLive
  decide +kernel

end WanStack.Aftr
