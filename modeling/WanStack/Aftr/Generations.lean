import WanStack.Aftr.Names

set_option autoImplicit false

/-!
# Entries of sessions

What a session makes carries the generation of the session and goes when the
session is closed, unless a reload of the file takes it over.
-/
namespace WanStack.Aftr
open SearchTree Relation

/-! ### What a session owns -/

/-- What a session made and no line of the file took over. -/
structure Owned where
  nats : List NatEntry := []
  nonats : List Tunnel := []

/-- The static entries a step puts on a chain. -/
def newStatics (s s' : State) : List NatEntry :=
  s'.ctl.chains.flatten.filter fun n => s.nats.next ≤ n.ptr

def newNonats (s s' : State) : List Tunnel :=
  s'.tuns.nonats.filter fun t => s.tuns.next ≤ t.ptr

/-- A line of the session adds what it makes, a line of the file drops what it
    gives the generation of the file. -/
def Owned.after (cfg : Conf) (sid : ℕ) (s : State) (e : Event) (o : Owned) : Owned :=
  let s' := step cfg s e
  match e with
  | .line .. =>
    if s.ctl.batch.map Prod.fst = some sid then
      ⟨newStatics s s' ++ o.nats, newNonats s s' ++ o.nonats⟩
    else o
  | .boot .. | .reloadLine .. =>
    ⟨o.nats.filter fun n => s'.nats.generation n.ptr ≤ FIRSTGEN,
      o.nonats.filter fun t => s'.tuns.ngeneration t.ptr ≤ FIRSTGEN⟩
  | _ => o

/-- What the session owns at the end of a run. -/
def owned (cfg : Conf) (sid : ℕ) : State → List Event → Owned → Owned
  | _, [], o => o
  | s, e :: es, o => owned cfg sid (step cfg s e) es (o.after cfg sid s e)

/-! ### Lines that tag an entry wrongly -/

/-- The session a line of a batch is carried out for. -/
def lineSession (s : State) (inFile : Bool) (cmd : Cmd) : Option ℕ :=
  match s.ctl.batch with
  | none => none
  | some (sid, _) =>
    if s.ctl.reloading && s.ctl.reloadSession = some sid && !inFile then none else
    match s.ctl.session sid with
    | none => none
    | some ss =>
      match dispatch s.ctl.reloading cmd.sections ss.sec with
      | .run _ => some sid
      | _ => none

/-- The commands that make an entry or a no-NAT tunnel. -/
def Cmd.makes : Cmd → Bool
  | .nat .. | .prr .. | .nonat .. | .tryNat .. => true
  | _ => false

/-- The tunnel of `peer` has the entry `key` already. -/
def findsStatic (peer : Addr6) (key : NatEntry) (s : State) : Bool :=
  (s.tuns.tunnelLookup peer).2.any fun t =>
    (s.nats.natSplayRoFind key.proto { key with tunnel := t.ptr } true).isSome

/-- The command names what is there, which it takes over during a reload. -/
def Cmd.finds (s : State) : Cmd → Bool
  | .nat peer tcp src sport nsrc nport => findsStatic peer (snatKey tcp src sport nsrc nport) s
  | .prr peer tcp src sport => findsStatic peer (prrKey tcp src sport) s
  | .nonat peer _ _ => (s.tuns.tunnelLookup peer).2.any fun t => decide (t ∈ s.tuns.nonats)
  | _ => false

/-- When a line of a session makes an entry, `curgen` is the generation of a
    session, not the zero a reload leaves at its end or the generation of the
    file, and nothing is taken over. -/
def InSession (s : State) : Event → Prop
  | .line _ inFile cmd =>
    (lineSession s inFile cmd).isSome = true → cmd.makes = true →
      0 < s.ctl.curgen ∧ s.ctl.curgen < FIRSTGEN ∧ ¬ (s.ctl.reloading = true ∧ cmd.finds s = true)
  | _ => True

instance (s : State) (e : Event) : Decidable (InSession s e) := by
  cases e <;> unfold InSession <;> infer_instance

/-! ### Invariants -/

/-- The static entry `x` is on the chain of its session with the generation of
    the session or, after the session was closed, marked to go. -/
def NatTagged (sid : ℕ) (x : NatEntry) (s : State) : Prop :=
  x.ptr < s.nats.next ∧ (x ∈ s.nats.live →
    (∃ ss, s.ctl.session sid = some ss ∧ x ∈ ss.snats ∧
      s.nats.generation x.ptr = ss.generation) ∨
    s.ctl.session sid = none ∧ ∃ ss ∈ s.ctl.orphans, ss.id = sid ∧ x ∈ ss.snats ∧
      s.nats.generation x.ptr = FIRSTGEN)

def NonatTagged (sid : ℕ) (t : Tunnel) (s : State) : Prop :=
  t.ptr < s.tuns.next ∧ (t ∈ s.tuns.nonats →
    ∃ ss, s.ctl.session sid = some ss ∧ s.tuns.ngeneration t.ptr = ss.generation)

def Control.sessions (c : Control) : List Sess := c.sslist ++ c.orphans

/-- The sessions and the generations of the control part. -/
structure SessOk (c : Control) : Prop where
  ids : ∀ ss ∈ c.sessions, ss.id < c.nextSess
  gens : ∀ ss ∈ c.sslist, ss.generation < FIRSTGEN
  apart : ∀ ss ∈ c.sessions, ∀ ss' ∈ c.sessions, ∀ x ∈ ss.snats, ∀ y ∈ ss'.snats,
    x.ptr = y.ptr → ss.id = ss'.id
  sesgen : c.sesgen < FIRSTGEN
  lastgen : FIRSTGEN < c.lastgen
  saved : c.reloading = true → FIRSTGEN < c.reloadSavedgen
  booting : c.booting = true → FIRSTGEN < c.curgen
  batch : ∀ sid g, c.batch = some (sid, g) → sid < c.nextSess ∧
    ∀ ss, c.session sid = some ss →
      c.curgen = ss.generation ∨ c.curgen = 0 ∨ FIRSTGEN < c.curgen
  idle : c.needgc = 0 → c.orphans = []

/-! ### The control part -/

section
variable {c c' : Control} {sid : ℕ}

theorem session_id {ss : Sess} (h : c.session sid = some ss) : ss.id = sid := by
  have hid := List.find?_some h
  exact of_decide_eq_true hid

theorem session_map (f : Sess → Sess) (hid : ∀ ss, (f ss).id = ss.id) :
    ({ c with sslist := c.sslist.map f } : Control).session sid = (c.session sid).map f := by
  unfold Control.session
  rw [List.find?_map]
  congr 2
  funext ss
  simp only [Function.comp_apply, hid]

theorem session_setSess (sid' : ℕ) {f : Sess → Sess} (hid : ∀ ss, (f ss).id = ss.id) :
    (c.setSess sid' f).session sid =
      (c.session sid).map fun ss => if ss.id = sid' then f ss else ss := by
  apply session_map
  intro ss
  split
  · exact hid ss
  · rfl

/-- `c'` has the sessions of `c`, without chain entries of its own. -/
structure Slim (c c' : Control) : Prop where
  sslist : ∀ ss' ∈ c'.sslist, ∃ ss ∈ c.sslist, ss.id = ss'.id ∧
    ss.generation = ss'.generation ∧ ss'.snats ⊆ ss.snats
  orphans : ∀ ss' ∈ c'.orphans, ∃ ss ∈ c.orphans, ss.id = ss'.id ∧ ss'.snats ⊆ ss.snats
  session : ∀ sid ss', c'.session sid = some ss' → ∃ ss, c.session sid = some ss ∧
    ss.generation = ss'.generation

/-- What a control step leaves as it is. -/
structure SameGens (c c' : Control) : Prop where
  nextSess : c'.nextSess = c.nextSess
  sesgen : c'.sesgen = c.sesgen
  lastgen : c'.lastgen = c.lastgen
  reloading : c'.reloading = c.reloading
  savedgen : c'.reloadSavedgen = c.reloadSavedgen
  booting : c'.booting = c.booting
  batch : c'.batch = c.batch
  curgen : c'.curgen = c.curgen
  needgc : c'.needgc = c.needgc

theorem Slim.sessions (h : Slim c c') : ∀ ss' ∈ c'.sessions, ∃ ss ∈ c.sessions,
    ss.id = ss'.id ∧ ss'.snats ⊆ ss.snats := by
  intro ss' hss'
  rcases List.mem_append.mp hss' with h' | h'
  · obtain ⟨ss, hss, hid, -, hsub⟩ := h.sslist ss' h'
    exact ⟨ss, List.mem_append_left _ hss, hid, hsub⟩
  · obtain ⟨ss, hss, hid, hsub⟩ := h.orphans ss' h'
    exact ⟨ss, List.mem_append_right _ hss, hid, hsub⟩

theorem Slim.apart (h : Slim c c') (ha : SessOk c) :
    ∀ ss ∈ c'.sessions, ∀ ss' ∈ c'.sessions, ∀ x ∈ ss.snats, ∀ y ∈ ss'.snats,
      x.ptr = y.ptr → ss.id = ss'.id := by
  intro ss hss ss' hss' x hx y hy hxy
  obtain ⟨u, hu, hid, hsub⟩ := h.sessions ss hss
  obtain ⟨u', hu', hid', hsub'⟩ := h.sessions ss' hss'
  rw [← hid, ← hid']
  exact ha.apart u hu u' hu' x (hsub hx) y (hsub' hy) hxy

theorem Slim.orphans_nil (h : Slim c c') (h0 : c.orphans = []) : c'.orphans = [] := by
  apply List.eq_nil_iff_forall_not_mem.mpr
  intro ss hss
  obtain ⟨u, hu, -⟩ := h.orphans ss hss
  rw [h0] at hu
  cases hu

theorem SessOk.slim (h : SessOk c) (hs : Slim c c') (hg : SameGens c c') : SessOk c' where
  ids ss hss := by
    obtain ⟨u, hu, hid, -⟩ := hs.sessions ss hss
    rw [hg.nextSess, ← hid]
    exact h.ids u hu
  gens ss hss := by
    obtain ⟨u, hu, -, hgen, -⟩ := hs.sslist ss hss
    rw [← hgen]
    exact h.gens u hu
  apart := hs.apart h
  sesgen := hg.sesgen ▸ h.sesgen
  lastgen := hg.lastgen ▸ h.lastgen
  saved := by
    rw [hg.reloading, hg.savedgen]
    exact h.saved
  booting := by
    rw [hg.booting, hg.curgen]
    exact h.booting
  batch sid g hb := by
    rw [hg.batch] at hb
    rw [hg.nextSess, hg.curgen]
    refine ⟨(h.batch sid g hb).1, fun ss hss => ?_⟩
    obtain ⟨u, hu, hgen⟩ := hs.session sid ss hss
    rw [← hgen]
    exact (h.batch sid g hb).2 u hu
  idle h0 := hs.orphans_nil (h.idle (hg.needgc ▸ h0))

/-- Sessions changed one by one. -/
theorem Slim.map {f g : Sess → Sess} (hid : ∀ ss, (f ss).id = ss.id)
    (hgen : ∀ ss, (f ss).generation = ss.generation) (hsub : ∀ ss, (f ss).snats ⊆ ss.snats)
    (hid' : ∀ ss, (g ss).id = ss.id) (hsub' : ∀ ss, (g ss).snats ⊆ ss.snats)
    (hss : c'.sslist = c.sslist.map f) (ho : c'.orphans = c.orphans.map g) : Slim c c' where
  sslist ss' h := by
    rw [hss] at h
    obtain ⟨ss, hmem, rfl⟩ := List.mem_map.mp h
    exact ⟨ss, hmem, (hid ss).symm, (hgen ss).symm, hsub ss⟩
  orphans ss' h := by
    rw [ho] at h
    obtain ⟨ss, hmem, rfl⟩ := List.mem_map.mp h
    exact ⟨ss, hmem, (hid' ss).symm, hsub' ss⟩
  session sid ss' h := by
    have hmap : c'.session sid = (c.session sid).map f := by
      rw [← session_map f hid]
      unfold Control.session
      rw [hss]
    rw [hmap] at h
    obtain ⟨ss, hss, rfl⟩ := Option.map_eq_some_iff.mp h
    exact ⟨ss, hss, (hgen ss).symm⟩

/-- The chains as they are. -/
theorem Slim.same (hss : c'.sslist = c.sslist) (ho : c'.orphans = c.orphans) : Slim c c' :=
  .map (f := id) (g := id) (fun _ => rfl) (fun _ => rfl) (fun _ => List.Subset.refl _)
    (fun _ => rfl) (fun _ => List.Subset.refl _) (by rw [hss, List.map_id])
    (by rw [ho, List.map_id])

theorem dropSnat_subset (n : NatEntry) (ss : Sess) :
    (Control.dropSnat n ss).snats ⊆ ss.snats := List.filter_subset_self _

theorem Slim.listRemove (n : NatEntry) : Slim c (c.listRemove n) :=
  .map (f := Control.dropSnat n) (g := Control.dropSnat n) (fun _ => rfl) (fun _ => rfl)
    (dropSnat_subset n) (fun _ => rfl) (dropSnat_subset n) rfl rfl

theorem Slim.unchain (n : NatEntry) : Slim c (c.unchain n) := by
  unfold Control.unchain
  split
  · exact .map (f := Control.dropSnat n) (g := Control.dropSnat n) (fun _ => rfl) (fun _ => rfl)
      (dropSnat_subset n) (fun _ => rfl) (dropSnat_subset n) rfl rfl
  · exact .same rfl rfl

theorem Slim.promote (n : NatEntry) : Slim c (c.promote n) := by
  unfold Control.promote
  split
  · exact .map (f := Control.dropSnat n) (g := Control.dropSnat n) (fun _ => rfl) (fun _ => rfl)
      (dropSnat_subset n) (fun _ => rfl) (dropSnat_subset n) rfl rfl
  · exact .same rfl rfl

theorem Slim.setSess (sid : ℕ) {f : Sess → Sess} (hid : ∀ ss, (f ss).id = ss.id)
    (hgen : ∀ ss, (f ss).generation = ss.generation) (hsn : ∀ ss, (f ss).snats = ss.snats) :
    Slim c (c.setSess sid f) := by
  refine .map (f := fun ss => if ss.id = sid then f ss else ss) (g := id) ?_ ?_ ?_
    (fun _ => rfl) (fun _ => List.Subset.refl _) rfl (List.map_id _).symm
  · intro ss
    split
    · exact hid ss
    · rfl
  · intro ss
    split
    · exact hgen ss
    · rfl
  · intro ss
    split
    · rw [hsn]
      exact List.Subset.refl _
    · exact List.Subset.refl _

theorem Slim.trans {c'' : Control} (h : Slim c c') (h' : Slim c' c'') : Slim c c'' where
  sslist ss hss := by
    obtain ⟨u, hu, hid, hgen, hsub⟩ := h'.sslist ss hss
    obtain ⟨v, hv, hid', hgen', hsub'⟩ := h.sslist u hu
    exact ⟨v, hv, hid'.trans hid, hgen'.trans hgen, List.Subset.trans hsub hsub'⟩
  orphans ss hss := by
    obtain ⟨u, hu, hid, hsub⟩ := h'.orphans ss hss
    obtain ⟨v, hv, hid', hsub'⟩ := h.orphans u hu
    exact ⟨v, hv, hid'.trans hid, List.Subset.trans hsub hsub'⟩
  session sid ss hss := by
    obtain ⟨u, hu, hgen⟩ := h'.session sid ss hss
    obtain ⟨v, hv, hgen'⟩ := h.session sid u hu
    exact ⟨v, hv, hgen'.trans hgen⟩

/-- Where `addSnat` puts an entry. -/
def putSnat (sid : ℕ) (n : NatEntry) (ss : Sess) : Sess :=
  if ss.id = sid then { ss with snats := n :: ss.snats } else ss

theorem addSnat_session (h : c.curgen < FIRSTGEN) (n : NatEntry) :
    c.addSnat sid n = { c with sslist := c.sslist.map (putSnat sid n) } := by
  unfold Control.addSnat
  rw [if_pos h]
  rfl

theorem addSnat_file (h : ¬ c.curgen < FIRSTGEN) (n : NatEntry) :
    c.addSnat sid n = { c with confnats := n :: c.confnats } := by
  unfold Control.addSnat
  rw [if_neg h]

theorem putSnat_id (n : NatEntry) (ss : Sess) : (putSnat sid n ss).id = ss.id := by
  unfold putSnat
  split <;> rfl

theorem putSnat_generation (n : NatEntry) (ss : Sess) :
    (putSnat sid n ss).generation = ss.generation := by
  unfold putSnat
  split <;> rfl

theorem mem_putSnat {n x : NatEntry} {ss : Sess} (h : x ∈ (putSnat sid n ss).snats) :
    x = n ∧ ss.id = sid ∨ x ∈ ss.snats := by
  unfold putSnat at h
  split at h
  · rename_i hid
    exact (List.mem_cons.mp h).imp_left fun hx => ⟨hx, hid⟩
  · exact .inr h

theorem subset_putSnat (n : NatEntry) (ss : Sess) : ss.snats ⊆ (putSnat sid n ss).snats := by
  unfold putSnat
  split
  · exact List.subset_cons_self _ _
  · exact List.Subset.refl _

/-- A new entry on the chain of its session. -/
theorem SessOk.addSnat (h : SessOk c) {n : NatEntry}
    (hfresh : ∀ ss ∈ c.sessions, ∀ x ∈ ss.snats, x.ptr ≠ n.ptr) : SessOk (c.addSnat sid n) := by
  by_cases hgen : c.curgen < FIRSTGEN
  swap
  · rw [addSnat_file hgen]
    exact h.slim (.same rfl rfl) ⟨rfl, rfl, rfl, rfl, rfl, rfl, rfl, rfl, rfl⟩
  rw [addSnat_session hgen]
  -- every session is an old one, with `n` on its chain at most when it is `sid`
  have hold : ∀ ss' ∈ ({ c with sslist := c.sslist.map (putSnat sid n) } : Control).sessions,
      ∃ ss ∈ c.sessions, ss.id = ss'.id ∧ ∀ x ∈ ss'.snats, x = n ∧ ss.id = sid ∨ x ∈ ss.snats := by
    intro ss' hss'
    rcases List.mem_append.mp hss' with hmem | hmem
    · obtain ⟨ss, hss, rfl⟩ := List.mem_map.mp hmem
      exact ⟨ss, List.mem_append_left _ hss, (putSnat_id n ss).symm, fun x hx => mem_putSnat hx⟩
    · exact ⟨ss', List.mem_append_right _ hmem, rfl, fun x hx => .inr hx⟩
  refine ⟨?_, ?_, ?_, h.sesgen, h.lastgen, h.saved, h.booting, ?_, h.idle⟩
  · intro ss hss
    obtain ⟨u, hu, hid, -⟩ := hold ss hss
    rw [← hid]
    exact h.ids u hu
  · intro ss hss
    obtain ⟨u, hu, rfl⟩ := List.mem_map.mp hss
    rw [putSnat_generation]
    exact h.gens u hu
  · intro ss hss ss' hss' x hx y hy hxy
    obtain ⟨u, hu, hid, hmem⟩ := hold ss hss
    obtain ⟨u', hu', hid', hmem'⟩ := hold ss' hss'
    rw [← hid, ← hid']
    rcases hmem x hx with ⟨rfl, hs⟩ | hx <;> rcases hmem' y hy with ⟨rfl, hs'⟩ | hy
    · rw [hs, hs']
    · exact absurd hxy.symm (hfresh u' hu' y hy)
    · exact absurd hxy (hfresh u hu x hx)
    · exact h.apart u hu u' hu' x hx y hy hxy
  · intro sid' g hb
    refine ⟨(h.batch sid' g hb).1, fun ss hss => ?_⟩
    rw [session_map _ (putSnat_id n)] at hss
    obtain ⟨u, hu, rfl⟩ := Option.map_eq_some_iff.mp hss
    rw [putSnat_generation]
    exact (h.batch sid' g hb).2 u hu

end

/-! ### Entries and tunnels under a change -/

section
variable {cfg : Conf} {l : Leave} {s s' : State} {sid : ℕ}

theorem known_of_snats (ss : Sess) (hss : ss ∈ s.ctl.sessions) {x : NatEntry}
    (hx : x ∈ ss.snats) : Known s x := by
  rcases List.mem_append.mp hss with h | h
  · exact .of_chain (mem_chains.mpr (.inr (.inl ⟨ss, h, rfl⟩))) hx
  · exact .of_chain (mem_chains.mpr (.inr (.inr ⟨ss, h, rfl⟩))) hx

theorem Change.sessOk (h : Change cfg l s s') (hn : Names s) (hs : SessOk s.ctl) :
    SessOk s'.ctl := by
  rcases h.ctl with h | ⟨sid, n, -, hp, h, -⟩ | ⟨n, -, -, -, h, -⟩ | ⟨n, seconds, -, -, h⟩
  · rw [h]
    exact hs
  · rw [h]
    apply hs.addSnat
    intro ss hss x hx
    have := hn.fresh x (known_of_snats ss hss hx)
    omega
  · rw [h]
    apply hs.slim (.promote n)
    unfold Control.promote
    split <;> exact ⟨rfl, rfl, rfl, rfl, rfl, rfl, rfl, rfl, rfl⟩
  · rw [h]
    apply hs.slim (.unchain n)
    unfold Control.unchain
    split <;> exact ⟨rfl, rfl, rfl, rfl, rfl, rfl, rfl, rfl, rfl⟩

/-- The chains keep `x` where it is. -/
structure StaysOn (x : NatEntry) (c c' : Control) : Prop where
  some : ∀ sid ss, c.session sid = some ss → x ∈ ss.snats → ∃ ss', c'.session sid = some ss' ∧
    ss'.generation = ss.generation ∧ x ∈ ss'.snats
  none : ∀ sid, c.session sid = none → c'.session sid = none
  orphans : ∀ ss ∈ c.orphans, x ∈ ss.snats → ∃ ss' ∈ c'.orphans, ss'.id = ss.id ∧ x ∈ ss'.snats

/-- An entry that stays live stays tagged while its chain and generation stay. -/
theorem NatTagged.stay {x : NatEntry} (h : NatTagged sid x s)
    (hnext : s.nats.next ≤ s'.nats.next) (hlive : x ∈ s'.nats.live → x ∈ s.nats.live)
    (hgen : x ∈ s'.nats.live → s'.nats.generation x.ptr = s.nats.generation x.ptr)
    (hc : x ∈ s'.nats.live → StaysOn x s.ctl s'.ctl) : NatTagged sid x s' := by
  refine ⟨Nat.lt_of_lt_of_le h.1 hnext, fun hx => ?_⟩
  have hc := hc hx
  rcases h.2 (hlive hx) with ⟨ss, hss, hmem, hg⟩ | ⟨hnone, ss, hss, hid, hmem, hg⟩
  · obtain ⟨ss', hss', hg', hmem'⟩ := hc.some sid ss hss hmem
    exact .inl ⟨ss', hss', hmem', by rw [hgen hx, hg, hg']⟩
  · obtain ⟨ss', hss', hid', hmem'⟩ := hc.orphans ss hss hmem
    exact .inr ⟨hc.none sid hnone, ss', hss', hid'.trans hid, hmem', by rw [hgen hx, hg]⟩

theorem StaysOn.refl (x : NatEntry) (c : Control) : StaysOn x c c where
  some _ ss h hx := ⟨ss, h, rfl, hx⟩
  none _ h := h
  orphans ss h hx := ⟨ss, h, rfl, hx⟩

theorem StaysOn.trans {x : NatEntry} {c c' c'' : Control} (h : StaysOn x c c')
    (h' : StaysOn x c' c'') : StaysOn x c c'' where
  some sid ss hss hx := by
    obtain ⟨u, hu, hg, hx⟩ := h.some sid ss hss hx
    obtain ⟨v, hv, hg', hx⟩ := h'.some sid u hu hx
    exact ⟨v, hv, hg'.trans hg, hx⟩
  none sid hnone := h'.none sid (h.none sid hnone)
  orphans ss hss hx := by
    obtain ⟨u, hu, hid, hx⟩ := h.orphans ss hss hx
    obtain ⟨v, hv, hid', hx⟩ := h'.orphans u hu hx
    exact ⟨v, hv, hid'.trans hid, hx⟩

theorem StaysOn.map {x : NatEntry} {c c' : Control} {f g : Sess → Sess}
    (hid : ∀ ss, (f ss).id = ss.id) (hgen : ∀ ss, (f ss).generation = ss.generation)
    (hx : ∀ ss : Sess, x ∈ ss.snats → x ∈ (f ss).snats) (hid' : ∀ ss, (g ss).id = ss.id)
    (hx' : ∀ ss : Sess, x ∈ ss.snats → x ∈ (g ss).snats)
    (hss : c'.sslist = c.sslist.map f) (ho : c'.orphans = c.orphans.map g) : StaysOn x c c' := by
  have hmap (sid : ℕ) : c'.session sid = (c.session sid).map f := by
    rw [← session_map f hid]
    unfold Control.session
    rw [hss]
  refine ⟨fun sid ss h hmem => ?_, fun sid h => ?_, fun ss h hmem => ?_⟩
  · exact ⟨f ss, by rw [hmap, h]; rfl, hgen ss, hx ss hmem⟩
  · rw [hmap, h]
    rfl
  · exact ⟨g ss, by rw [ho]; exact List.mem_map_of_mem h, hid' ss, hx' ss hmem⟩

theorem StaysOn.same {x : NatEntry} {c c' : Control} (hss : c'.sslist = c.sslist)
    (ho : c'.orphans = c.orphans) : StaysOn x c c' :=
  .map (f := id) (g := id) (fun _ => rfl) (fun _ => rfl) (fun _ h => h) (fun _ => rfl)
    (fun _ h => h) (by rw [hss, List.map_id]) (by rw [ho, List.map_id])

theorem mem_dropSnat {x n : NatEntry} (hne : x.ptr ≠ n.ptr) (ss : Sess) (hx : x ∈ ss.snats) :
    x ∈ (Control.dropSnat n ss).snats :=
  List.mem_filter.mpr ⟨hx, decide_eq_true hne⟩

theorem StaysOn.listRemove {x n : NatEntry} (hne : x.ptr ≠ n.ptr) (c : Control) :
    StaysOn x c (c.listRemove n) :=
  .map (f := Control.dropSnat n) (g := Control.dropSnat n) (fun _ => rfl) (fun _ => rfl)
    (mem_dropSnat hne) (fun _ => rfl) (mem_dropSnat hne) rfl rfl

theorem StaysOn.unchain {x n : NatEntry} (hne : x.ptr ≠ n.ptr) (c : Control) :
    StaysOn x c (c.unchain n) := by
  unfold Control.unchain
  split
  · exact .map (f := Control.dropSnat n) (g := Control.dropSnat n) (fun _ => rfl) (fun _ => rfl)
      (mem_dropSnat hne) (fun _ => rfl) (mem_dropSnat hne) rfl rfl
  · exact .refl x c

theorem StaysOn.promote {x n : NatEntry} (hne : x.ptr ≠ n.ptr) (c : Control) :
    StaysOn x c (c.promote n) := by
  unfold Control.promote
  split
  · exact .map (f := Control.dropSnat n) (g := Control.dropSnat n) (fun _ => rfl) (fun _ => rfl)
      (mem_dropSnat hne) (fun _ => rfl) (mem_dropSnat hne) rfl rfl
  · exact .same rfl rfl

theorem StaysOn.addSnat (x n : NatEntry) (c : Control) (sid : ℕ) : StaysOn x c (c.addSnat sid n) := by
  by_cases hgen : c.curgen < FIRSTGEN
  · rw [addSnat_session hgen]
    exact .map (f := putSnat sid n) (g := id) (putSnat_id n) (putSnat_generation n)
      (fun ss hx => subset_putSnat n ss hx) (fun _ => rfl) (fun _ h => h) rfl
      (List.map_id _).symm
  · rw [addSnat_file hgen]
    exact .same rfl rfl

/-- A change that leaves the generation of an owned entry leaves it tagged. -/
theorem Change.natTagged {x : NatEntry} (h : Change cfg l s s') (hn : Names s)
    (hs : SessOk s.ctl) (ht : l.takes = true → FIRSTGEN < s.ctl.curgen)
    (hx : NatTagged sid x s)
    (hgen : s'.nats.generation x.ptr = s.nats.generation x.ptr) : NatTagged sid x s' := by
  have hfresh := h.fresh hn
  apply hx.stay hfresh.next (hfresh.live hx.1) fun _ => hgen
  intro hlive
  rcases h.ctl with h | ⟨sid, n, -, hp, h, -⟩ | ⟨n, hl, -, -, h, hg⟩ | ⟨n, seconds, -, hk, h⟩
  · rw [h]
    exact .refl x _
  · rw [h]
    exact .addSnat ..
  · rw [h]
    apply StaysOn.promote
    intro hp
    -- the entry taken over has the generation of the file, `x` one of a session
    have hfile := ht hl
    rw [← hp, hgen] at hg
    rcases hx.2 (hfresh.live hx.1 hlive) with ⟨ss, hss, -, hg'⟩ | ⟨-, ss, -, -, -, hg'⟩
    · have := hs.gens ss (session_mem hss)
      omega
    · omega
  · subst h
    exact .unchain (hn.delNat_live hk hlive).2 _

/-- The generation of a session. -/
def Control.genOf (c : Control) (sid : ℕ) : Option ℕ := (c.session sid).map Sess.generation

theorem genOf_map {c c' : Control} {f : Sess → Sess} (hid : ∀ ss, (f ss).id = ss.id)
    (hgen : ∀ ss, (f ss).generation = ss.generation) (hss : c'.sslist = c.sslist.map f)
    (sid : ℕ) : c'.genOf sid = c.genOf sid := by
  have hmap : c'.session sid = (c.session sid).map f := by
    rw [← session_map f hid]
    unfold Control.session
    rw [hss]
  unfold Control.genOf
  rw [hmap, Option.map_map]
  congr 1
  funext ss
  exact hgen ss

theorem genOf_same {c c' : Control} (hss : c'.sslist = c.sslist) (sid : ℕ) :
    c'.genOf sid = c.genOf sid := by
  unfold Control.genOf Control.session
  rw [hss]

theorem genOf_setSess {c : Control} (sid' : ℕ) {f : Sess → Sess} (hid : ∀ ss, (f ss).id = ss.id)
    (hgen : ∀ ss, (f ss).generation = ss.generation) (sid : ℕ) :
    (c.setSess sid' f).genOf sid = c.genOf sid := by
  refine genOf_map (f := fun ss => if ss.id = sid' then f ss else ss) ?_ ?_ rfl sid
  · intro ss
    split
    · exact hid ss
    · rfl
  · intro ss
    split
    · exact hgen ss
    · rfl

theorem genOf_unchain (n : NatEntry) (c : Control) (sid : ℕ) :
    (c.unchain n).genOf sid = c.genOf sid := by
  unfold Control.unchain
  split
  · exact genOf_map (f := Control.dropSnat n) (fun _ => rfl) (fun _ => rfl) rfl sid
  · rfl

theorem Change.genOf (h : Change cfg l s s') (sid : ℕ) : s'.ctl.genOf sid = s.ctl.genOf sid := by
  rcases h.ctl with h | ⟨sid', n, -, -, h, -⟩ | ⟨n, -, -, -, h, -⟩ | ⟨n, seconds, -, -, h⟩
  · rw [h]
  · rw [h]
    by_cases hgen : s.ctl.curgen < FIRSTGEN
    · rw [addSnat_session hgen]
      exact genOf_map (putSnat_id n) (putSnat_generation n) rfl sid
    · rw [addSnat_file hgen]
      exact genOf_same rfl sid
  · rw [h]
    unfold Control.promote
    split
    · exact genOf_map (f := Control.dropSnat n) (fun _ => rfl) (fun _ => rfl) rfl sid
    · exact genOf_same rfl sid
  · rw [h]
    exact genOf_unchain n s.ctl sid

theorem nonatTagged_iff {t : Tunnel} : NonatTagged sid t s ↔ t.ptr < s.tuns.next ∧
    (t ∈ s.tuns.nonats → s.ctl.genOf sid = some (s.tuns.ngeneration t.ptr)) := by
  unfold NonatTagged Control.genOf
  refine and_congr_right fun _ => imp_congr_right fun _ => ?_
  rw [Option.map_eq_some_iff]
  exact exists_congr fun ss => and_congr_right fun _ => eq_comm

theorem Change.nonatTagged {t : Tunnel} (h : Change cfg l s s') (hx : NonatTagged sid t s)
    (hgen : s'.tuns.ngeneration t.ptr = s.tuns.ngeneration t.ptr) : NonatTagged sid t s' := by
  rw [nonatTagged_iff] at hx ⊢
  have ho := h.oldTuns
  refine ⟨Nat.lt_of_lt_of_le hx.1 ho.next, fun ht => ?_⟩
  rw [h.genOf, hgen]
  rcases ho.nonats t ht with ht | ⟨-, hp, -⟩
  · exact hx.2 ht
  · have := hx.1
    omega

/-- The generation commands run with, and the batch they belong to. -/
theorem Change.scalars (h : Change cfg l s s') : SameGens s.ctl s'.ctl := by
  rcases h.ctl with h | ⟨sid', n, -, -, h, -⟩ | ⟨n, -, -, -, h, -⟩ | ⟨n, seconds, -, -, h⟩
  · rw [h]
    exact ⟨rfl, rfl, rfl, rfl, rfl, rfl, rfl, rfl, rfl⟩
  · rw [h]
    unfold Control.addSnat
    split <;> exact ⟨rfl, rfl, rfl, rfl, rfl, rfl, rfl, rfl, rfl⟩
  · rw [h]
    unfold Control.promote
    split <;> exact ⟨rfl, rfl, rfl, rfl, rfl, rfl, rfl, rfl, rfl⟩
  · rw [h]
    simp only [delNat]
    unfold Control.unchain
    split <;> exact ⟨rfl, rfl, rfl, rfl, rfl, rfl, rfl, rfl, rfl⟩

theorem SameGens.refl (c : Control) : SameGens c c :=
  ⟨rfl, rfl, rfl, rfl, rfl, rfl, rfl, rfl, rfl⟩

theorem SameGens.trans {c c' c'' : Control} (h : SameGens c c') (h' : SameGens c' c'') :
    SameGens c c'' where
  nextSess := h'.nextSess.trans h.nextSess
  sesgen := h'.sesgen.trans h.sesgen
  lastgen := h'.lastgen.trans h.lastgen
  reloading := h'.reloading.trans h.reloading
  savedgen := h'.savedgen.trans h.savedgen
  booting := h'.booting.trans h.booting
  batch := h'.batch.trans h.batch
  curgen := h'.curgen.trans h.curgen
  needgc := h'.needgc.trans h.needgc

/-! ### Sequences of changes -/

/-- The invariants of a state, and what changes since `s` keep. -/
structure Since (s s' : State) : Prop where
  names : Names s'
  sess : SessOk s'.ctl
  scalars : SameGens s.ctl s'.ctl
  genOf : ∀ sid, s'.ctl.genOf sid = s.ctl.genOf sid
  next : s.nats.next ≤ s'.nats.next
  live : ∀ x : NatEntry, x.ptr < s.nats.next → x ∈ s'.nats.live → x ∈ s.nats.live
  tnext : s.tuns.next ≤ s'.tuns.next
  nonats : ∀ t : Tunnel, t.ptr < s.tuns.next → t ∈ s'.tuns.nonats → t ∈ s.tuns.nonats

theorem Since.refl (hn : Names s) (hs : SessOk s.ctl) : Since s s :=
  ⟨hn, hs, .refl _, fun _ => rfl, Nat.le_refl _, fun _ _ h => h, Nat.le_refl _, fun _ _ h => h⟩

theorem Since.step {a b : State} (ha : Since s a) (hab : Change cfg l a b) : Since s b := by
  have hfresh := hab.fresh ha.names
  have ho := hab.oldTuns
  refine ⟨hab.names ha.names, hab.sessOk ha.names ha.sess, ha.scalars.trans hab.scalars,
    fun sid => (hab.genOf sid).trans (ha.genOf sid), Nat.le_trans ha.next hfresh.next,
    fun x hx hl => ?_, Nat.le_trans ha.tnext ho.next, fun t ht hmem => ?_⟩
  · exact ha.live x hx (hfresh.live (Nat.lt_of_lt_of_le hx ha.next) hl)
  · rcases ho.nonats t hmem with hmem | ⟨-, hp, -⟩
    · exact ha.nonats t ht hmem
    · have := ha.tnext
      omega

/-- What holds between the start of a sequence and its states. -/
theorem Changes.keepSince {P : State → Prop} (h : Changes cfg l s s') (hn : Names s)
    (hs : SessOk s.ctl) (h0 : P s)
    (hstep : ∀ a b, Since s a → Change cfg l a b → P a → P b) : Since s s' ∧ P s' :=
  h.keep (P := fun a => Since s a ∧ P a) ⟨.refl hn hs, h0⟩ fun a b hab ha =>
    ⟨ha.1.step hab, hstep a b ha.1 hab ha.2⟩

theorem Changes.since (h : Changes cfg l s s') (hn : Names s) (hs : SessOk s.ctl) : Since s s' :=
  (h.keepSince (P := fun _ => True) hn hs trivial fun _ _ _ _ _ => trivial).1

/-- Changes that take nothing over leave the generations of what is there. -/
theorem Changes.generation (h : Changes cfg l s s') (hl : l.takes = false) (hn : Names s)
    (hs : SessOk s.ctl) {p : ℕ} (hp : p < s.nats.next) :
    s'.nats.generation p = s.nats.generation p := by
  refine (h.keepSince (P := fun a => a.nats.generation p = s.nats.generation p) hn hs rfl
    fun a b ha hab hg => ?_).2
  rcases hab.generation (Nat.lt_of_lt_of_le hp ha.next) with h | ⟨ht, -⟩
  · exact h.trans hg
  · rw [hl] at ht
    cases ht

theorem Changes.ngeneration (h : Changes cfg l s s') (hl : l.takes = false) (hn : Names s)
    (hs : SessOk s.ctl) {p : ℕ} (hp : p < s.tuns.next) :
    s'.tuns.ngeneration p = s.tuns.ngeneration p := by
  refine (h.keepSince (P := fun a => a.tuns.ngeneration p = s.tuns.ngeneration p) hn hs rfl
    fun a b ha hab hg => ?_).2
  rcases hab.oldTuns.ngeneration p (Nat.lt_of_lt_of_le hp ha.tnext) with h | ⟨ht, -⟩
  · exact h.trans hg
  · rw [hl] at ht
    cases ht

/-- A file that takes an entry over gives it its own generation. -/
theorem Changes.generation_file (h : Changes cfg l s s') (hn : Names s) (hs : SessOk s.ctl)
    (ht : l.takes = true → FIRSTGEN < s.ctl.curgen) {p : ℕ} (hp : p < s.nats.next) :
    s'.nats.generation p = s.nats.generation p ∨ FIRSTGEN < s'.nats.generation p := by
  refine (h.keepSince (P := fun a => a.nats.generation p = s.nats.generation p ∨
    FIRSTGEN < a.nats.generation p) hn hs (.inl rfl) fun a b ha hab hg => ?_).2
  rcases hab.generation (Nat.lt_of_lt_of_le hp ha.next) with h | ⟨hl, h⟩ <;> rw [h]
  · exact hg
  · rw [ha.scalars.curgen]
    exact .inr (ht hl)

theorem Changes.ngeneration_file (h : Changes cfg l s s') (hn : Names s) (hs : SessOk s.ctl)
    (ht : l.takes = true → FIRSTGEN < s.ctl.curgen) {p : ℕ} (hp : p < s.tuns.next) :
    s'.tuns.ngeneration p = s.tuns.ngeneration p ∨ FIRSTGEN < s'.tuns.ngeneration p := by
  refine (h.keepSince (P := fun a => a.tuns.ngeneration p = s.tuns.ngeneration p ∨
    FIRSTGEN < a.tuns.ngeneration p) hn hs (.inl rfl) fun a b ha hab hg => ?_).2
  rcases hab.oldTuns.ngeneration p (Nat.lt_of_lt_of_le hp ha.tnext) with h | ⟨hl, h⟩ <;> rw [h]
  · exact hg
  · rw [ha.scalars.curgen]
    exact .inr (ht hl)

/-- The generation of what a session owns is none of the file. -/
theorem NatTagged.old {x : NatEntry} (h : NatTagged sid x s) (hs : SessOk s.ctl)
    (hx : x ∈ s.nats.live) : s.nats.generation x.ptr ≤ FIRSTGEN := by
  rcases h.2 hx with ⟨ss, hss, -, hg⟩ | ⟨-, ss, -, -, -, hg⟩
  · rw [hg]
    exact Nat.le_of_lt (hs.gens ss (session_mem hss))
  · exact Nat.le_of_eq hg

theorem NonatTagged.old {t : Tunnel} (h : NonatTagged sid t s) (hs : SessOk s.ctl)
    (ht : t ∈ s.tuns.nonats) : s.tuns.ngeneration t.ptr < FIRSTGEN := by
  obtain ⟨ss, hss, hg⟩ := h.2 ht
  rw [hg]
  exact hs.gens ss (session_mem hss)

/-- What is owned stays tagged when the changes leave its generation: a file
    gives another one, and does not give it back. -/
theorem Changes.natTagged {x : NatEntry} (h : Changes cfg l s s') (hn : Names s)
    (hs : SessOk s.ctl) (ht : l.takes = true → FIRSTGEN < s.ctl.curgen)
    (hx : NatTagged sid x s)
    (hgen : s'.nats.generation x.ptr = s.nats.generation x.ptr) : NatTagged sid x s' := by
  refine (h.keepSince (P := fun a => a.nats.generation x.ptr = s.nats.generation x.ptr →
    NatTagged sid x a) hn hs (fun _ => hx) fun a b ha hab htag hb => ?_).2 hgen
  have hcur : l.takes = true → FIRSTGEN < a.ctl.curgen := by
    rw [ha.scalars.curgen]
    exact ht
  by_cases hg : a.nats.generation x.ptr = s.nats.generation x.ptr
  · exact hab.natTagged ha.names ha.sess hcur (htag hg) (hb.trans hg.symm)
  · refine ⟨Nat.lt_of_lt_of_le hx.1 (ha.step hab).next, fun hlive => absurd ?_ hg⟩
    have hold := hx.old hs ((ha.step hab).live x hx.1 hlive)
    rcases hab.generation (Nat.lt_of_lt_of_le hx.1 ha.next) with h | ⟨hl, h⟩
    · exact h.symm.trans hb
    · have := hcur hl
      omega

theorem Changes.nonatTagged {t : Tunnel} (h : Changes cfg l s s') (hn : Names s)
    (hs : SessOk s.ctl) (ht : l.takes = true → FIRSTGEN < s.ctl.curgen)
    (hx : NonatTagged sid t s)
    (hgen : s'.tuns.ngeneration t.ptr = s.tuns.ngeneration t.ptr) : NonatTagged sid t s' := by
  refine (h.keepSince (P := fun a => a.tuns.ngeneration t.ptr = s.tuns.ngeneration t.ptr →
    NonatTagged sid t a) hn hs (fun _ => hx) fun a b ha hab htag hb => ?_).2 hgen
  have hcur : l.takes = true → FIRSTGEN < a.ctl.curgen := by
    rw [ha.scalars.curgen]
    exact ht
  by_cases hg : a.tuns.ngeneration t.ptr = s.tuns.ngeneration t.ptr
  · exact hab.nonatTagged (htag hg) (hb.trans hg.symm)
  · refine ⟨Nat.lt_of_lt_of_le hx.1 (ha.step hab).tnext, fun hmem => absurd ?_ hg⟩
    have hold := hx.old hs ((ha.step hab).nonats t hx.1 hmem)
    rcases hab.oldTuns.ngeneration t.ptr (Nat.lt_of_lt_of_le hx.1 ha.tnext) with h | ⟨hl, h⟩
    · exact h.symm.trans hb
    · have := hcur hl
      omega

/-! ### What a line makes -/

/-- The entry `n` on the chain of its session. -/
theorem addSnat_tagged {n : NatEntry} (hcur : s.ctl.genOf sid = some s.ctl.curgen)
    (hlt : s.ctl.curgen < FIRSTGEN) (hptr : n.ptr < s'.nats.next)
    (hc : s'.ctl = s.ctl.addSnat sid n) (hgen : s'.nats.generation n.ptr = s.ctl.curgen) :
    NatTagged sid n s' := by
  refine ⟨hptr, fun _ => .inl ?_⟩
  obtain ⟨ss, hss, hg⟩ := Option.map_eq_some_iff.mp hcur
  refine ⟨putSnat sid n ss, ?_, ?_, ?_⟩
  · rw [hc, addSnat_session hlt, session_map _ (putSnat_id n), hss]
    rfl
  · unfold putSnat
    rw [if_pos (session_id hss)]
    exact List.mem_cons_self ..
  · rw [putSnat_generation, hgen, hg]

/-- A change that takes nothing over tags a new chain entry for the session. -/
theorem Change.madeNat (h : Change cfg l s s') (hn : Names s) (hs : SessOk s.ctl)
    (hl : l.takes = false) (hsid : ∀ sid', l.session = some sid' → sid' = sid)
    (hcur : l.session.isSome = true →
      s.ctl.genOf sid = some s.ctl.curgen ∧ s.ctl.curgen < FIRSTGEN) {x : NatEntry}
    (hx : ∃ c ∈ s'.ctl.chains, x ∈ c) :
    NatTagged sid x s' ∨ (∃ c ∈ s.ctl.chains, x ∈ c) ∧ (NatTagged sid x s → NatTagged sid x s') := by
  -- an entry that was on a chain keeps its generation
  have hold (hc : ∃ c ∈ s.ctl.chains, x ∈ c) :
      (∃ c ∈ s.ctl.chains, x ∈ c) ∧ (NatTagged sid x s → NatTagged sid x s') := by
    refine ⟨hc, fun htag => h.natTagged hn hs (fun ht => ?_) htag ?_⟩
    · rw [hl] at ht
      cases ht
    · obtain ⟨c, hc, hxc⟩ := hc
      rcases h.generation (hn.fresh x (.of_chain hc hxc)) with hg | ⟨ht, -⟩
      · exact hg
      · rw [hl] at ht
        cases ht
  obtain ⟨c, hc, hxc⟩ := hx
  rcases h.ctl with h' | ⟨sid', n, hs', hp, h', hg⟩ | ⟨n, ht, -⟩ | ⟨n, seconds, -, -, h'⟩
  · rw [h'] at hc
    exact .inr (hold ⟨c, hc, hxc⟩)
  · obtain rfl := hsid sid' hs'
    have hk := (h.names hn).fresh x (.of_chain hc hxc)
    rw [h'] at hc
    rcases chains_addSnat hc hxc with rfl | hold'
    · obtain ⟨hcur, hlt⟩ := hcur (by rw [hs']; rfl)
      exact .inl (addSnat_tagged hcur hlt hk h' hg)
    · exact .inr (hold hold')
  · rw [hl] at ht
    cases ht
  · rw [h'] at hc
    obtain ⟨-, c', hc', hx'⟩ := chains_unchain hc hxc
    exact .inr (hold ⟨c', hc', hx'⟩)

theorem Change.madeNonat (h : Change cfg l s s') (hl : l.takes = false)
    (hcur : l.session.isSome = true →
      s.ctl.genOf sid = some s.ctl.curgen ∧ s.ctl.curgen < FIRSTGEN) {t : Tunnel} (ht : t ∈ s'.tuns.nonats)
    (hlt : t ∈ s.tuns.nonats → t.ptr < s.tuns.next) :
    NonatTagged sid t s' ∨ t ∈ s.tuns.nonats ∧ (NonatTagged sid t s → NonatTagged sid t s') := by
  have ho := h.oldTuns
  rcases ho.nonats t ht with hmem | ⟨hsome, -, hp, hg⟩
  · refine .inr ⟨hmem, fun htag => h.nonatTagged htag ?_⟩
    rcases ho.ngeneration t.ptr (hlt hmem) with hg | ⟨ht', -⟩
    · exact hg
    · rw [hl] at ht'
      cases ht'
  · refine .inl (nonatTagged_iff.mpr ⟨hp, fun _ => ?_⟩)
    rw [h.genOf, hg, (hcur hsome).1]

/-- What a line of a session makes has the generation of the session. -/
theorem Changes.made (h : Changes cfg l s s') (hn : Names s) (hs : SessOk s.ctl)
    (hl : l.takes = false) (hsid : ∀ sid', l.session = some sid' → sid' = sid)
    (hcur : l.session.isSome = true →
      s.ctl.genOf sid = some s.ctl.curgen ∧ s.ctl.curgen < FIRSTGEN) :
    (∀ x ∈ newStatics s s', NatTagged sid x s') ∧ ∀ t ∈ newNonats s s', NonatTagged sid t s' := by
  have hmade := (h.keepSince (P := fun a =>
      (∀ x : NatEntry, s.nats.next ≤ x.ptr → (∃ c ∈ a.ctl.chains, x ∈ c) → NatTagged sid x a) ∧
      ∀ t ∈ a.tuns.nonats, s.tuns.next ≤ t.ptr → NonatTagged sid t a) hn hs ?_ ?_).2
  · refine ⟨fun x hx => ?_, fun t ht => ?_⟩
    · obtain ⟨hx, hp⟩ := List.mem_filter.mp hx
      exact hmade.1 x (of_decide_eq_true hp) (List.mem_flatten.mp hx)
    · obtain ⟨ht, hp⟩ := List.mem_filter.mp ht
      exact hmade.2 t ht (of_decide_eq_true hp)
  · refine ⟨fun x hp ⟨c, hc, hx⟩ => ?_, fun t ht hp => ?_⟩
    · have := hn.fresh x (.of_chain hc hx)
      omega
    · have := hn.tuns t ht
      omega
  · intro a b ha hab ⟨hnats, hnonats⟩
    have hcur' : l.session.isSome = true →
        a.ctl.genOf sid = some a.ctl.curgen ∧ a.ctl.curgen < FIRSTGEN := by
      rw [ha.genOf, ha.scalars.curgen]
      exact hcur
    refine ⟨fun x hp hx => ?_, fun t ht hp => ?_⟩
    · rcases hab.madeNat ha.names ha.sess hl hsid hcur' hx with h | ⟨hc, h⟩
      · exact h
      · exact h (hnats x hp hc)
    · rcases hab.madeNonat hl hcur' ht (ha.names.tuns t) with h | ⟨hmem, h⟩
      · exact h
      · exact h (hnonats t hmem hp)

end

end WanStack.Aftr
