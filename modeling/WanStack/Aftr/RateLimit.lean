import WanStack.Aftr.Changes

set_option autoImplicit false

/-!
# The limit on new entries

How many dynamic entries a tunnel gets in one second. The counter of a
protocol has eight bits and counts refused packets too.
-/
namespace WanStack.Aftr

/-! ### What leaves the counters and the dynamic entries alone -/

/-- No counter moves, and no entry is new on the heap or on a chain. -/
structure Calm (s s' : State) : Prop where
  lastnat : s'.tuns.lastnat = s.tuns.lastnat
  tnatrt : s'.tuns.tnatrt = s.tuns.tnatrt
  heap : s'.nats.heap.Sublist s.nats.heap
  xlist : ∀ p, s'.nats.xlist p ⊆ s.nats.xlist p

section
variable {cfg : Conf} {s s' s'' : State}

theorem Calm.of_eq (hl : s'.tuns.lastnat = s.tuns.lastnat) (ht : s'.tuns.tnatrt = s.tuns.tnatrt)
    (hh : s'.nats.heap = s.nats.heap) (hx : s'.nats.xlist = s.nats.xlist) : Calm s s' where
  lastnat := hl
  tnatrt := ht
  heap := by
    rw [hh]
  xlist p := by
    rw [hx]
    exact List.Subset.refl _

theorem Calm.refl (s : State) : Calm s s := .of_eq rfl rfl rfl rfl

theorem Calm.trans (h : Calm s s') (h' : Calm s' s'') : Calm s s'' where
  lastnat := h'.lastnat.trans h.lastnat
  tnatrt := h'.tnatrt.trans h.tnatrt
  heap := h'.heap.trans h.heap
  xlist p := List.Subset.trans (h'.xlist p) (h.xlist p)

theorem Calm.ctl (c : Control) : Calm s { s with ctl := c } := .of_eq rfl rfl rfl rfl

/-- The state of a result that was taken apart. -/
theorem Calm.fst {α : Type} {r : State × α} {a : α} (h : Calm s r.1) (hr : r = (s', a)) :
    Calm s s' := by
  rw [hr] at h
  exact h

/-- A new tunnel starts with the counters its address had. -/
theorem addTunnel_rates {env : NatEnv} {peer : Addr6} {a tuns : Tunnels} {t : Option Tunnel}
    (h : a.addTunnel cfg env peer = (tuns, t)) :
    tuns.lastnat = a.lastnat ∧ tuns.tnatrt = a.tnatrt := by
  have hlook : (a.tunnelLookup peer).1.lastnat = a.lastnat ∧
      (a.tunnelLookup peer).1.tnatrt = a.tnatrt := by
    rcases a.tunnelLookup_fst peer with h | ⟨t, -, h⟩ <;> rw [h] <;> exact ⟨rfl, rfl⟩
  rcases addTunnel_cases cfg env peer a with h' | ⟨t, tree, -, -, h'⟩ <;> rw [h] at h' <;>
    cases h' <;> exact hlook

theorem unhash_chains (n : NatEntry) (s : Nats) :
    (s.unhash n).heap = s.heap ∧ (s.unhash n).xlist = s.xlist := by
  unfold Nats.unhash
  split <;> exact ⟨rfl, rfl⟩

theorem delNat_calm (cfg : Conf) (seconds : ℕ) (n : NatEntry) (s : State) :
    Calm s (delNat cfg seconds n s) := by
  refine ⟨rfl, rfl, ?_, fun p => ?_⟩
  · simp only [delNat, unhash_chains]
    exact List.filter_sublist
  · simp only [delNat, unhash_chains]
    change (if p = n.ptr then [] else (s.nats.xlist p).filter _) ⊆ _
    split
    · exact List.nil_subset _
    · exact List.filter_subset_self _

/-- What is no packet leaves counters and dynamic entries alone. -/
theorem Change.calm {l : Leave} (hl : l.packets = false) (h : Change cfg l s s') : Calm s s' := by
  cases h with
  | lookup peer =>
    rcases s.tuns.tunnelLookup_fst peer with h | ⟨t, -, h⟩ <;> rw [h] <;> exact .of_eq rfl rfl rfl rfl
  | addStd h => exact .of_eq (addTunnel_rates h).1 (addTunnel_rates h).2 rfl rfl
  | addNonat _ h => exact .of_eq (addTunnel_rates h).1 (addTunnel_rates h).2 rfl rfl
  | unlinked hp h => exact .of_eq rfl rfl (link_chains h).1 (link_chains h).2.1
  | static hs hp h => exact .of_eq rfl rfl (link_chains h).1 (link_chains h).2.1
  | del hd hk seconds => exact delNat_calm ..
  | rate _ _ _ hp => rw [hp] at hl; cases hl
  | link hp => rw [hp] at hl; cases hl
  | xchain _ hp => rw [hp] at hl; cases hl
  | resizeNat up rnd =>
    rcases resizeNatHash_cases up rnd s.nats with h | ⟨sz, -, h⟩ <;> rw [h] <;>
      exact .of_eq rfl rfl rfl rfl
  | resizeTun up rnd =>
    refine .of_eq ?_ ?_ rfl rfl <;> simp only [resizeTunHash] <;> split <;> rfl
  | _ => exact .of_eq rfl rfl rfl rfl

theorem Changes.calm {l : Leave} (hl : l.packets = false) (h : Changes cfg l s s') :
    Calm s s' := h.keep (.refl s) fun _ _ hab hcalm => hcalm.trans (hab.calm hl)

theorem decap_calm (cfg : Conf) (env : NatEnv) (peer : Addr6) (auto : Bool) (s : State) :
    Calm s (decap cfg env peer auto s).1 :=
  (@decap_changes {} cfg env peer auto s).calm rfl

theorem natLookup_calm {pr : Pr} {key : NatEntry} {nats : Nats} {n : Option NatEntry}
    (h : s.nats.natLookup pr key s.ctl.lastgen = (nats, n)) : Calm s { s with nats := nats } := by
  have hc : Changes {} {} s { s with nats := nats } := .natLookup h
  exact hc.calm rfl

/-! ### Sessions, reload and collection -/

theorem gcSession_calm (ss : Sess) (s : State) : Calm s (gcSession ss s) :=
  ((@gcNonats_changes {} { deletes := true } rfl _ s).calm rfl).trans
    (.of_eq rfl rfl rfl rfl)

theorem sessionClose_calm (sid : ℕ) (s : State) : Calm s (sessionClose sid s).1 := by
  unfold sessionClose
  split
  · exact .refl s
  · split
    · exact .refl s
    · exact (Calm.ctl _).trans (gcSession_calm ..)

theorem reloadFinish_calm (backtrack : Bool) (s : State) : Calm s (reloadFinish backtrack s) := by
  unfold reloadFinish
  dsimp only
  split
  · exact .of_eq rfl rfl rfl rfl
  · exact ((@gcNonats_changes {} { deletes := true } rfl _ s).calm rfl).trans
      (.of_eq rfl rfl rfl rfl)

theorem execute_calm (cfg : Conf) (env : NatEnv) (sid : ℕ) (s : State) (cmd : Cmd) :
    Calm s (execute cfg env sid s cmd).1 := by
  have hplain : cmd.plain = true → Calm s (execute cfg env sid s cmd).1 := by
    intro hc
    apply (execute_changes env sid s hc).calm
    cases cmd <;> rfl
  cases cmd with
  | reload opened =>
    simp only [execute]
    split <;> exact .of_eq rfl rfl rfl rfl
  | sessionClose sid => exact sessionClose_calm ..
  | sessionConfig on => exact .of_eq rfl rfl rfl rfl
  | _ => exact hplain rfl

theorem cmdline_calm (cfg : Conf) (env : NatEnv) (sid : ℕ) (cmd : Cmd) (s : State) :
    Calm s (cmdline cfg env sid cmd s).1 := by
  unfold cmdline
  split
  · exact .refl s
  split
  · exact (Calm.ctl _).trans (execute_calm ..)
  · exact .refl s
  · exact .refl s

theorem gcIncr_calm (cfg : Conf) (seconds k : ℕ) (s : State) : Calm s (gcIncr cfg seconds k s) := by
  induction k generalizing s with
  | zero => exact .refl s
  | succ k ih =>
    unfold gcIncr
    dsimp only
    split
    · exact (Calm.ctl _).trans ((delNat_calm ..).trans (ih _))
    · split
      · exact .of_eq rfl rfl rfl rfl
      · exact (Calm.ctl _).trans ((delNat_calm ..).trans (ih _))

theorem btLoop_calm (k : ℕ) (s : State) : Calm s (btLoop k s) := by
  induction k generalizing s with
  | zero => exact .refl s
  | succ k ih =>
    unfold btLoop
    split
    · exact .of_eq rfl rfl rfl rfl
    · refine Calm.trans ?_ (ih _)
      exact .of_eq rfl rfl rfl rfl

theorem commandsDone_calm (s : State) : Calm s (commandsDone s) := by
  unfold commandsDone
  split
  · exact .refl s
  · exact .of_eq rfl rfl rfl rfl

theorem batchLine_calm (cfg : Conf) (env : NatEnv) (inFile : Bool) (cmd : Cmd) (s : State) :
    Calm s (batchLine cfg env inFile cmd s) := by
  unfold batchLine
  split
  · exact .refl s
  dsimp only
  split
  · exact .refl s
  · split
    · exact (cmdline_calm ..).trans (commandsDone_calm _)
    · exact cmdline_calm ..

theorem reloadLine_calm (cfg : Conf) (env : NatEnv) (cmd : Cmd) (s : State) :
    Calm s (reloadLine cfg env cmd s) := by
  unfold reloadLine
  split
  · exact .refl s
  dsimp only
  split
  · exact (Calm.ctl _).trans ((cmdline_calm ..).trans (.ctl _))
  · exact (Calm.ctl _).trans ((cmdline_calm ..).trans ((Calm.ctl _).trans (reloadFinish_calm ..)))

/-! ### Charges -/

/-- The chains of FTP hold TCP entries. -/
def FtpTcp (s : State) : Prop := ∀ p, ∀ n ∈ s.nats.xlist p, n.proto = .tcp

/-- A request for a new entry was charged to the counter `k`; `ok` says that it
    passed the limit, and only then an entry of `k` was made. -/
structure Rate (cfg : Conf) (sec : ℕ) (k : ℕ × Pr) (ok : Bool) (s s' : State) : Prop where
  lastnat : s'.tuns.lastnat = Function.update s.tuns.lastnat k.1 sec
  tnatrt : s'.tuns.tnatrt =
    if s.tuns.lastnat k.1 = sec then
      Function.update s.tuns.tnatrt k ((s.tuns.tnatrt k + 1) % 256)
    else fun j => if j.1 = k.1 then if j.2 = k.2 then 1 else 0 else s.tuns.tnatrt j
  limit : ok = true → s.tuns.lastnat k.1 = sec → (s.tuns.tnatrt k + 1) % 256 < cfg.maxtnatrt k.2
  heap : s'.nats.heap.Sublist s.nats.heap ∨
    ok = true ∧ ∃ n : NatEntry, (n.tunnel, n.proto) = k ∧ s'.nats.heap.Sublist (n :: s.nats.heap)
  xlist : ∀ p, ∀ n ∈ s'.nats.xlist p, n ∈ s.nats.xlist p ∨ n.proto = .tcp

/-- A function that charges `c`, or nothing. -/
def Charged (cfg : Conf) (sec : ℕ) (c : Option (ℕ × Pr)) (s s' : State) : Prop :=
  match c with
  | none => Calm s s'
  | some k => ∃ ok, Rate cfg sec k ok s s'

variable {sec : ℕ} {k : ℕ × Pr} {ok : Bool} {c : Option (ℕ × Pr)}

theorem Calm.rate (h : Calm s s') (h' : Rate cfg sec k ok s' s'') : Rate cfg sec k ok s s'' where
  lastnat := by rw [h'.lastnat, h.lastnat]
  tnatrt := by rw [h'.tnatrt, h.lastnat, h.tnatrt]
  limit := by
    rw [← h.lastnat, ← h.tnatrt]
    exact h'.limit
  heap := by
    rcases h'.heap with hh | ⟨hok, n, hn, hh⟩
    · exact .inl (hh.trans h.heap)
    · exact .inr ⟨hok, n, hn, hh.trans (h.heap.cons_cons n)⟩
  xlist p n hn := (h'.xlist p n hn).imp_left fun hn => h.xlist p hn

theorem Rate.calm (h : Rate cfg sec k ok s s') (h' : Calm s' s'') : Rate cfg sec k ok s s'' where
  lastnat := h'.lastnat.trans h.lastnat
  tnatrt := h'.tnatrt.trans h.tnatrt
  limit := h.limit
  heap := by
    rcases h.heap with hh | ⟨hok, n, hn, hh⟩
    · exact .inl (h'.heap.trans hh)
    · exact .inr ⟨hok, n, hn, h'.heap.trans hh⟩
  xlist p n hn := h.xlist p n (h'.xlist p hn)

theorem Calm.charged (h : Calm s s') (h' : Charged cfg sec c s' s'') :
    Charged cfg sec c s s'' := by
  cases c with
  | none => exact h.trans h'
  | some k => exact h'.imp fun ok hr => h.rate hr

theorem Charged.calm (h : Charged cfg sec c s s') (h' : Calm s' s'') :
    Charged cfg sec c s s'' := by
  cases c with
  | none => exact Calm.trans h h'
  | some k => exact h.imp fun ok hr => hr.calm h'

/-- `natRate` and an entry it let in, if one was made. -/
theorem rate_of_natRate {tuns : Tunnels} (hr : natRate cfg sec k.1 k.2 s.tuns = (tuns, ok))
    (ht : s'.tuns = tuns)
    (hh : s'.nats.heap = s.nats.heap ∨
      ok = true ∧ ∃ n : NatEntry, (n.tunnel, n.proto) = k ∧ s'.nats.heap = n :: s.nats.heap)
    (hx : ∀ p, ∀ n ∈ s'.nats.xlist p, n ∈ s.nats.xlist p ∨ n.proto = .tcp) :
    Rate cfg sec k ok s s' := by
  have hheap : s'.nats.heap.Sublist s.nats.heap ∨ ok = true ∧ ∃ n : NatEntry,
      (n.tunnel, n.proto) = k ∧ s'.nats.heap.Sublist (n :: s.nats.heap) := by
    rcases hh with hh | ⟨hok, n, hn, hh⟩
    · exact .inl (hh ▸ List.Sublist.refl _)
    · exact .inr ⟨hok, n, hn, hh ▸ List.Sublist.refl _⟩
  unfold natRate at hr
  split at hr <;> rename_i hsec <;> cases hr
  · refine ⟨by rw [ht], ?_, fun _ hsec' => absurd hsec' hsec, hheap, hx⟩
    rw [ht, if_neg hsec]
  · rw [ne_eq, not_not] at hsec
    refine ⟨?_, ?_, fun hok _ => of_decide_eq_true hok, hheap, hx⟩
    · rw [ht, ← hsec, Function.update_eq_self]
    · rw [ht, if_pos hsec]

end

/-- The counter `get_ftptempdata` charges. -/
def getFtptempdataCharge (cfg : Conf) (n0 : NatEntry) (np : ℕ) (s : State) : Option (ℕ × Pr) :=
  match (s.nats.xlist n0.ptr).find? (·.sport = np) with
  | some _ => none
  | none =>
    if s.nats.tnatcnt (n0.tunnel, .tcp) ≥ cfg.maxtnatcnt .tcp then none
    else some (n0.tunnel, .tcp)

/-- The counter `patch_ftpin` charges. -/
def patchFtpinCharge (cfg : Conf) (server : Bool) (p : Pkt) (n0 : NatEntry) (s : State) :
    Option (ℕ × Pr) :=
  let n? := if server && n0.flags.allDst then
      (s.nats.xlist n0.ptr).find? fun f => p.dst = f.dst && p.dport = f.dport
    else some n0
  match n? with
  | none => none
  | some n =>
    match p.scan with
    | none => none
    | some np => getFtptempdataCharge cfg n np s

/-- The counter `natin` charges for an entry that is there. -/
def natinGotCharge (cfg : Conf) (p : Pkt) (n : NatEntry) (s : State) : Option (ℕ × Pr) :=
  if n.proto = .tcp then
    if p.dport = PORTFTP then patchFtpinCharge cfg false p n s
    else if n.sport = PORTFTP then patchFtpinCharge cfg true p n s
    else none
  else none

/-- The first counter `natin` charges. -/
def natinCharge (cfg : Conf) (t : ℕ) (p : Pkt) (s : State) : Option (ℕ × Pr) :=
  match (s.nats.natSplayFind p.proto (inKey t p) 0 s.ctl.lastgen false false).2 with
  | some n => natinGotCharge cfg p n s
  | none =>
    if s.nats.tnatcnt (t, p.proto) ≥ cfg.maxtnatcnt p.proto then none else some (t, p.proto)

/-- The counter `patch_ftpout` charges. -/
def patchFtpoutCharge (cfg : Conf) (server : Bool) (p : Pkt) (n0 : NatEntry) (s : State) :
    Option (ℕ × Pr) :=
  if server && n0.flags.allDst then
    match (s.nats.xlist n0.ptr).find? fun f => p.src = f.dst && p.sport = f.dport with
    | some _ => none
    | none =>
      if s.nats.tnatcnt (n0.tunnel, .tcp) ≥ cfg.maxtnatcnt .tcp then none
      else some (n0.tunnel, .tcp)
  else none

/-- The counter `natout` charges for an entry that was found. -/
def natoutFoundCharge (cfg : Conf) (p : Pkt) (n : NatEntry) (s : State) : Option (ℕ × Pr) :=
  if n.flags.ftpData && n.dst ≠ p.src then none
  else if p.df && p.proto ≠ .icmp && p.len + IP6HDRLEN > s.tuns.mtu n.tunnel &&
      s.tuns.tbdrop n.tunnel then none
  else if n.flags.prrNull then none
  else if n.proto = .tcp then
    if p.sport = PORTFTP then patchFtpoutCharge cfg false p n s
    else if n.sport = PORTFTP then patchFtpoutCharge cfg true p n s
    else none
  else none

def natoutCharge (cfg : Conf) (p : Pkt) (s : State) : Option (ℕ × Pr) :=
  (s.nats.natLookup p.proto (outKey p) s.ctl.lastgen).2.bind fun n => natoutFoundCharge cfg p n s

/-- The clock of a packet that can make entries. -/
def Event.atSecond (sec : ℕ) : Event → Bool
  | .natin env .. | .natout env _ => env.seconds = sec
  | _ => true

/-- The first counter a packet charges: whether it asks for a new entry is
    decided by the state before it. -/
def Event.charge (cfg : Conf) (s : State) : Event → Option (ℕ × Pr)
  | .natin env peer auto acl4 p =>
    match decap cfg env peer auto s with
    | (_, none) => none
    | (s, some t) =>
      if (s.tuns.nonat t.ptr).isSome || !acl4 then none else natinCharge cfg t.ptr p s
  | .natout _ p => natoutCharge cfg p s
  | _ => none

section
variable {cfg : Conf} {s : State}

theorem getFtptempdata_charged (env : NatEnv) {n0 : NatEntry} (htcp : n0.proto = .tcp) (np : ℕ) :
    Charged cfg env.seconds (getFtptempdataCharge cfg n0 np s) s
      (getFtptempdata cfg env n0 np s).1 := by
  unfold getFtptempdata getFtptempdataCharge
  cases (s.nats.xlist n0.ptr).find? (·.sport = np) with
  | some n => exact .refl s
  | none =>
  dsimp only
  by_cases hcnt : s.nats.tnatcnt (n0.tunnel, .tcp) ≥ cfg.maxtnatcnt .tcp
  · rw [if_pos hcnt, if_pos hcnt]
    exact .refl s
  rw [if_neg hcnt, if_neg hcnt]
  rcases hr : natRate cfg env.seconds n0.tunnel .tcp s.tuns with ⟨tuns, ok⟩
  refine ⟨ok, ?_⟩
  dsimp only
  cases ok with
  | false => exact rate_of_natRate hr rfl (.inl rfl) fun p n hn => .inl hn
  | true =>
    split
    · exact rate_of_natRate hr rfl (.inl rfl) fun p n hn => .inl hn
    split <;> rename_i hnew <;> obtain ⟨ht, hx, hheap⟩ := newNat_made hnew
    · refine rate_of_natRate hr ht (.inl ?_) fun p n hn => .inl (hx ▸ hn)
      rcases hheap with ⟨-, hh⟩ | ⟨port, hn', -⟩
      · exact hh
      · cases hn'
    · rcases hheap with ⟨hn', -⟩ | ⟨port, hn', hh⟩
      · cases hn'
      cases hn'
      refine rate_of_natRate hr ht (.inr ⟨rfl, _, ?_, hh⟩) fun p n hn => ?_
      · exact congrArg (Prod.mk n0.tunnel) htcp
      · simp only [Nats.xchain, Function.update_apply] at hn
        split at hn
        · rename_i hp
          rcases List.mem_cons.mp hn with rfl | hn
          · exact .inr htcp
          · rw [hp]
            exact .inl (hx ▸ hn)
        · exact .inl (hx ▸ hn)

theorem patchFtpin_charged (env : NatEnv) (server : Bool) (p : Pkt) {n0 : NatEntry}
    (htcp : n0.proto = .tcp) (hx : FtpTcp s) :
    Charged cfg env.seconds (patchFtpinCharge cfg server p n0 s) s
      (patchFtpin cfg env server p n0 s).1 := by
  unfold patchFtpin patchFtpinCharge
  dsimp only
  cases hn : (if server && n0.flags.allDst then
      (s.nats.xlist n0.ptr).find? fun f => p.dst = f.dst && p.dport = f.dport
    else some n0) with
  | none => exact .refl s
  | some n =>
  have hproto : n.proto = .tcp := by
    split at hn
    · exact hx n0.ptr n (List.mem_of_find?_eq_some hn)
    · cases hn
      exact htcp
  cases p.scan with
  | none => exact .refl s
  | some np =>
    have h := @getFtptempdata_charged cfg s env n hproto np
    dsimp only
    split <;> rename_i hr <;> rw [hr] at h <;> exact h

theorem natinGot_charged (env : NatEnv) (p : Pkt) (n : NatEntry) (hx : FtpTcp s) :
    Charged cfg env.seconds (natinGotCharge cfg p n s) s (natinGot cfg env p n s).1 := by
  unfold natinGot natinGotCharge
  dsimp only
  split_ifs with htcp
  · exact patchFtpin_charged env false p htcp hx
  · exact patchFtpin_charged env true p htcp hx
  · exact .refl s
  · exact .refl s

theorem getFtptempsrv_charged (env : NatEnv) (p : Pkt) {n0 : NatEntry}
    (htcp : n0.proto = .tcp) :
    Charged cfg env.seconds
      (if s.nats.tnatcnt (n0.tunnel, .tcp) ≥ cfg.maxtnatcnt .tcp then none
        else some (n0.tunnel, .tcp)) s (getFtptempsrv cfg env p n0 s).1 := by
  unfold getFtptempsrv
  by_cases hcnt : s.nats.tnatcnt (n0.tunnel, .tcp) ≥ cfg.maxtnatcnt .tcp
  · rw [if_pos hcnt, if_pos hcnt]
    exact .refl s
  rw [if_neg hcnt, if_neg hcnt]
  rcases hr : natRate cfg env.seconds n0.tunnel .tcp s.tuns with ⟨tuns, ok⟩
  refine ⟨ok, ?_⟩
  dsimp only
  cases ok with
  | false => exact rate_of_natRate hr rfl (.inl rfl) fun p n hn => .inl hn
  | true =>
    split
    · exact rate_of_natRate hr rfl (.inl rfl) fun p n hn => .inl hn
    split
    · exact rate_of_natRate hr rfl (.inl rfl) fun p n hn => .inl hn
    split <;> rename_i hl <;> obtain ⟨hheap, hx, -⟩ := link_chains hl
    · exact rate_of_natRate hr rfl (.inl hheap) fun p n hn => .inl (hx ▸ hn)
    · refine rate_of_natRate hr rfl (.inr ⟨rfl, ftpSrvEntry n0 s.nats.next p, ?_,
        congrArg _ hheap⟩) fun q n hn => ?_
      · exact congrArg (Prod.mk n0.tunnel) htcp
      · simp only [Nats.count, Nats.xchain, Nats.heapInsert, Function.update_apply] at hn
        split at hn
        · rename_i hp
          rcases List.mem_cons.mp hn with rfl | hn
          · exact .inr htcp
          · rw [hp]
            exact .inl (hx ▸ hn)
        · exact .inl (hx ▸ hn)

theorem patchFtpout_charged (env : NatEnv) (server : Bool) (p : Pkt) {n0 : NatEntry}
    (htcp : n0.proto = .tcp) :
    Charged cfg env.seconds (patchFtpoutCharge cfg server p n0 s) s
      (patchFtpout cfg env server p n0 s).1 := by
  unfold patchFtpout patchFtpoutCharge
  by_cases hs : (server && n0.flags.allDst) = true
  · rw [if_pos hs, if_pos hs]
    cases (s.nats.xlist n0.ptr).find? fun f => p.src = f.dst && p.sport = f.dport with
    | some n => exact .refl s
    | none => exact getFtptempsrv_charged env p htcp
  · rw [if_neg hs, if_neg hs]
    exact .refl s

/-- Two charges of one packet: the second one comes after a first that passed. -/
def ChargedTwice (cfg : Conf) (sec : ℕ) (c : Option (ℕ × Pr)) (s s' : State) : Prop :=
  Charged cfg sec c s s' ∨
    ∃ k s₁ c', c = some k ∧ Rate cfg sec k true s s₁ ∧ (c' = none ∨ c' = some k) ∧
      Charged cfg sec c' s₁ s'

/-- A new entry has no chain, so its FTP data is charged to its own counter. -/
theorem natinGotCharge_new (p : Pkt) {n : NatEntry} (hflags : n.flags.allDst = false) :
    natinGotCharge cfg p n s = none ∨ natinGotCharge cfg p n s = some (n.tunnel, n.proto) := by
  have hdata (np : ℕ) : n.proto = .tcp → getFtptempdataCharge cfg n np s = none ∨
      getFtptempdataCharge cfg n np s = some (n.tunnel, n.proto) := by
    intro htcp
    unfold getFtptempdataCharge
    split
    · exact .inl rfl
    · split
      · exact .inl rfl
      · exact .inr (by rw [htcp])
  have hpatch (server : Bool) : n.proto = .tcp → patchFtpinCharge cfg server p n s = none ∨
      patchFtpinCharge cfg server p n s = some (n.tunnel, n.proto) := by
    intro htcp
    simp only [patchFtpinCharge, hflags, Bool.and_false, Bool.false_eq_true, if_false]
    cases p.scan with
    | none => exact .inl rfl
    | some np => exact hdata np htcp
  unfold natinGotCharge
  split_ifs with htcp
  · exact hpatch false htcp
  · exact hpatch true htcp
  · exact .inl rfl
  · exact .inl rfl

theorem natSplayFind_root {pr : Pr} {n : NatEntry} {gen lastgen : ℕ} {exact' stale : Bool}
    {nats nats' : Nats} {r : Option NatEntry}
    (h : nats.natSplayFind pr n gen lastgen exact' stale = (nats', r)) :
    ∃ root, nats' = { nats with root := root } := by
  have hfst := congrArg Prod.fst h
  exact ⟨_, hfst.symm⟩

/-- `natin` charges for its own entry, and for one of FTP after it. -/
theorem natin_charged (env : NatEnv) (t : ℕ) (p : Pkt) (hx : FtpTcp s) :
    ChargedTwice cfg env.seconds (natinCharge cfg t p s) s (natin cfg env t p s).1 := by
  unfold natin natinCharge
  rcases hr : s.nats.natSplayFind p.proto (inKey t p) 0 s.ctl.lastgen false false with
    ⟨nats, _ | n⟩ <;> obtain ⟨root, rfl⟩ := natSplayFind_root hr
  · have hcalm : Calm s { s with nats := { s.nats with root := root } } := .of_eq rfl rfl rfl rfl
    dsimp only
    by_cases hcnt : s.nats.tnatcnt (t, p.proto) ≥ cfg.maxtnatcnt p.proto
    · rw [if_pos hcnt, if_pos hcnt]
      exact .inl hcalm
    rw [if_neg hcnt, if_neg hcnt]
    rcases hr : natRate cfg env.seconds t p.proto s.tuns with ⟨tuns, ok⟩
    dsimp only
    cases ok with
    | false => exact .inl ⟨false, rate_of_natRate hr rfl (.inl rfl) fun p n hn => .inl hn⟩
    | true =>
      split
      · exact .inl ⟨true, rate_of_natRate hr rfl (.inl rfl) fun p n hn => .inl hn⟩
      split <;> rename_i hnew <;> obtain ⟨ht, hx', hheap⟩ := newNat_made hnew
      · refine .inl ⟨true, rate_of_natRate hr ht (.inl ?_) fun p n hn => .inl (hx' ▸ hn)⟩
        rcases hheap with ⟨-, hh⟩ | ⟨port, hn', -⟩
        · exact hh
        · cases hn'
      · rcases hheap with ⟨hn', -⟩ | ⟨port, hn', hh⟩
        · cases hn'
        cases hn'
        have hflags : (portFlags p.proto).allDst = false := by cases p.proto <;> rfl
        refine .inr ⟨(t, p.proto), _, _, rfl, rate_of_natRate hr ht (.inr ⟨rfl, _, rfl, hh⟩)
          fun p n hn => .inl (hx' ▸ hn), natinGotCharge_new p hflags,
          natinGot_charged (env.after 3) p _ ?_⟩
        intro q n hn
        exact hx q n (hx' ▸ hn)
  · have hcalm : Calm s { s with nats := { s.nats with root := root } } := .of_eq rfl rfl rfl rfl
    have hgot := @natinGot_charged cfg { s with nats := { s.nats with root := root } } env p n hx
    exact .inl (hcalm.charged hgot)

theorem natoutFound_charged (env : NatEnv) (p : Pkt) (n : NatEntry) :
    Charged cfg env.seconds (natoutFoundCharge cfg p n s) s (natoutFound cfg env p n s).1 := by
  have hsplay (s : State) (n : NatEntry) : Calm s { s with nats := s.nats.natSplaySplay p.proto n } :=
    .of_eq rfl rfl rfl rfl
  have hftp (r : State × Option NatEntry) (f : NatEntry → ℕ × Pkt) (c : Option (ℕ × Pr))
      (h : Charged cfg env.seconds c s r.1) :
      Charged cfg env.seconds c s (ftpSplayed p f r).1 := by
    rcases r with ⟨s', _ | n'⟩
    · exact h
    · exact h.calm (hsplay s' n')
  unfold natoutFound natoutFoundCharge
  generalize ({ p with
    dst := n.src, dport := if n.flags.matchAny then n.sport else p.dport } : Pkt) = p'
  split_ifs with hdst hbig hprr htcp h21 hs21
  · exact Calm.refl s
  · exact Calm.refl s
  · exact hsplay s n
  · exact hftp _ (fun n' => (n'.tunnel, p')) _ (patchFtpout_charged env false p htcp)
  · exact hftp _ (fun n' => (n'.tunnel, p')) _ (patchFtpout_charged env true p htcp)
  · exact hsplay s n
  · exact hsplay s n

theorem natout_charged (env : NatEnv) (p : Pkt) :
    Charged cfg env.seconds (natoutCharge cfg p s) s (natout cfg env p s).1 := by
  unfold natout natoutCharge
  rcases hr : s.nats.natLookup p.proto (outKey p) s.ctl.lastgen with ⟨nats, _ | n⟩
  · exact natLookup_calm hr
  · have hcalm := natLookup_calm hr
    have hfound := @natoutFound_charged cfg { s with nats := nats } env p n
    have heq : natoutFoundCharge cfg p n { s with nats := nats } = natoutFoundCharge cfg p n s := by
      rcases natLookup_cases s.nats p.proto (outKey p) s.ctl.lastgen with
        ⟨n, -, -, h⟩ | h | ⟨n, -, -, h⟩ <;> rw [hr] at h <;> cases h <;> rfl
    rw [heq] at hfound
    exact hcalm.charged hfound

theorem Calm.twice {sec : ℕ} {c : Option (ℕ × Pr)} {a b : State} (h : Calm s a)
    (h' : ChargedTwice cfg sec c a b) : ChargedTwice cfg sec c s b := by
  rcases h' with h' | ⟨k, s₁, c', hc, hr, h'⟩
  · exact .inl (h.charged h')
  · exact .inr ⟨k, s₁, c', hc, h.rate hr, h'⟩

theorem filterin_charged (env : NatEnv) (t : Tunnel) (acl4 : Bool) (p : Pkt) (hx : FtpTcp s) :
    ChargedTwice cfg env.seconds
      (if (s.tuns.nonat t.ptr).isSome || !acl4 then none else natinCharge cfg t.ptr p s) s
      (filterin cfg env t acl4 p s).1 := by
  unfold filterin
  cases (s.tuns.nonat t.ptr).isSome with
  | true => exact .inl (Calm.refl s)
  | false =>
    cases acl4 with
    | true => exact natin_charged env t.ptr p hx
    | false =>
      have hprr : Calm s (prrin t.ptr p s).1 := .of_eq rfl rfl rfl rfl
      exact .inl hprr

theorem FtpTcp.calm {s' : State} (hx : FtpTcp s) (h : Calm s s') : FtpTcp s' :=
  fun p n hn => hx p n (h.xlist p hn)

/-- What a step charges: one packet asks at most twice. -/
theorem act_charged {sec : ℕ} (e : Event) (hsec : e.atSecond sec = true) (hx : FtpTcp s) :
    ChargedTwice cfg sec (e.charge cfg s) s (act cfg s e) := by
  cases e with
  | natin env peer auto acl4 p =>
    obtain rfl := of_decide_eq_true hsec
    have hd := decap_calm cfg env peer auto s
    simp only [act, Event.charge]
    rcases hr : decap cfg env peer auto s with ⟨s', _ | t⟩ <;> rw [hr] at hd
    · exact .inl hd
    · exact hd.twice (filterin_charged (env.after 3) t acl4 p (hx.calm hd))
  | natout env p =>
    obtain rfl := of_decide_eq_true hsec
    exact .inl (natout_charged env p)
  | boot env cmd => exact .inl (cmdline_calm ..)
  | bootDone daemonize =>
    refine .inl ?_
    have hb (c : Control) : Calm s { s with ctl := c } := .ctl c
    simp only [act]
    split
    · split
      · exact hb _
      · exact (hb _).trans (gcSession_calm ..)
    · exact hb _
  | sessionOpen => exact .inl (Calm.ctl _)
  | sessionEof sid => exact .inl (sessionClose_calm ..)
  | commands sid =>
    refine .inl ?_
    simp only [act, openBatch]
    split
    · exact Calm.refl s
    · split
      · exact Calm.refl s
      · exact Calm.ctl _
  | line env inFile cmd => exact .inl (batchLine_calm ..)
  | commandsDone => exact .inl (commandsDone_calm s)
  | reloadLine env cmd =>
    refine .inl ?_
    simp only [act]
    split
    · exact reloadLine_calm ..
    · exact Calm.refl s
  | reloadEof =>
    refine .inl ?_
    simp only [act]
    split
    · exact reloadFinish_calm ..
    · exact Calm.refl s
  | gcIncr seconds quantum =>
    refine .inl ?_
    simp only [act]
    split
    · exact gcIncr_calm ..
    · exact Calm.refl s
  | btIncr quantum =>
    refine .inl ?_
    simp only [act]
    split
    · exact (Calm.ctl _).trans (btLoop_calm ..)
    · exact Calm.refl s
  | naticmpin | naticmpout | defrag6 | defragIn | defragOut | expireNat | everySecond
  | resizeFragHash | resizeNatHash | resizeTunHash =>
    exact .inl ((act_changes rfl s).calm rfl)

end

/-! ### Counting -/

/-- What the counter `k` stands at in the second. -/
def Tunnels.spent (sec : ℕ) (k : ℕ × Pr) (s : Tunnels) : ℕ :=
  if s.lastnat k.1 = sec then s.tnatrt k else 0

/-- The dynamic entries of a tunnel and protocol that a step made. -/
def newNats (k : ℕ × Pr) (s s' : State) : List NatEntry :=
  s'.nats.heap.filter fun n => (n.tunnel, n.proto) = k && !s.nats.heap.contains n

/-- How many of them a run makes. -/
def made (cfg : Conf) (k : ℕ × Pr) : State → List Event → ℕ
  | _, [] => 0
  | s, e :: es => (newNats k s (step cfg s e)).length + made cfg k (step cfg s e) es

/-- The new entries of `k` are paid for by its counter, within the limit. -/
def Pays (cfg : Conf) (sec : ℕ) (k : ℕ × Pr) (s s' : State) : Prop :=
  ∃ l : List NatEntry, s'.nats.heap.Sublist (l ++ s.nats.heap) ∧
    ∀ m ≤ s.tuns.spent sec k, m ≤ cfg.maxtnatrt k.2 →
      m + l.countP (fun n => (n.tunnel, n.proto) = k) ≤ s'.tuns.spent sec k ∧
      m + l.countP (fun n => (n.tunnel, n.proto) = k) ≤ cfg.maxtnatrt k.2

section
variable {cfg : Conf} {sec : ℕ} {k : ℕ × Pr} {s s' s'' : State}

theorem Pays.trans (h : Pays cfg sec k s s') (h' : Pays cfg sec k s' s'') :
    Pays cfg sec k s s'' := by
  obtain ⟨l, hsub, hpay⟩ := h
  obtain ⟨l', hsub', hpay'⟩ := h'
  refine ⟨l' ++ l, ?_, fun m hm hmax => ?_⟩
  · rw [List.append_assoc]
    exact hsub'.trans (hsub.append_left l')
  · obtain ⟨h₁, h₂⟩ := hpay m hm hmax
    have h := hpay' _ h₁ h₂
    rw [List.countP_append]
    omega

theorem Calm.pays (h : Calm s s') : Pays cfg sec k s s' := by
  refine ⟨[], h.heap, fun m hm hmax => ⟨?_, hmax⟩⟩
  simp only [Tunnels.spent, h.lastnat, h.tnatrt]
  exact hm

/-- A charge leaves the other counters where they stand. -/
theorem Rate.spent_ne {j : ℕ × Pr} {ok : Bool} (h : Rate cfg sec j ok s s') (hne : j ≠ k) :
    s'.tuns.spent sec k = s.tuns.spent sec k := by
  simp only [Tunnels.spent, h.lastnat, h.tnatrt]
  by_cases ht : k.1 = j.1
  · have hp : ¬ k.2 = j.2 := fun hp => hne (Prod.ext ht hp).symm
    rw [ht, Function.update_self, if_pos rfl]
    split
    · exact Function.update_of_ne (Ne.symm hne) ..
    · exact (if_pos ht).trans (if_neg hp)
  · rw [Function.update_of_ne ht]
    split
    · split
      · exact Function.update_of_ne (Ne.symm hne) ..
      · exact if_neg ht
    · rfl

/-- A charge below the end of the counter adds one to it. -/
theorem Rate.spent_self {ok : Bool} (h : Rate cfg sec k ok s s')
    (hroom : s.tuns.spent sec k < 255) : s'.tuns.spent sec k = s.tuns.spent sec k + 1 := by
  simp only [Tunnels.spent] at hroom
  simp only [Tunnels.spent, h.lastnat, h.tnatrt, Function.update_self, if_true]
  split <;> rename_i hsec
  · rw [if_pos hsec] at hroom
    rw [Function.update_self, Nat.mod_eq_of_lt (by omega)]
  · exact (if_pos rfl).trans (if_pos rfl)

/-- One that passes the limit ends below it, or is the first in its second. -/
theorem Rate.spent_limit (h : Rate cfg sec k true s s') :
    s'.tuns.spent sec k = 1 ∨ s'.tuns.spent sec k < cfg.maxtnatrt k.2 := by
  have hlim := h.limit rfl
  simp only [Tunnels.spent, h.lastnat, h.tnatrt, Function.update_self, if_true]
  split <;> rename_i hsec
  · rw [Function.update_self]
    exact .inr (hlim hsec)
  · exact .inl ((if_pos rfl).trans (if_pos rfl))

theorem Rate.pays {j : ℕ × Pr} {ok : Bool} (h : Rate cfg sec j ok s s')
    (hmax : 1 ≤ cfg.maxtnatrt k.2) (hroom : j = k → s.tuns.spent sec k < 255) :
    Pays cfg sec k s s' := by
  by_cases hj : j = k
  · subst hj
    have hself := h.spent_self (hroom rfl)
    rcases h.heap with hh | ⟨rfl, n, hn, hh⟩
    · refine ⟨[], hh, fun m hm hm' => ?_⟩
      rw [List.countP_nil]
      omega
    · have hlim := h.spent_limit
      have hone : [n].countP (fun n => (n.tunnel, n.proto) = j) = 1 := by
        rw [List.countP_singleton, if_pos (decide_eq_true hn)]
      refine ⟨[n], hh, fun m hm hm' => ?_⟩
      rw [hone]
      omega
  · have hsame := h.spent_ne hj
    rcases h.heap with hh | ⟨-, n, hn, hh⟩
    · refine ⟨[], hh, fun m hm hm' => ?_⟩
      rw [List.countP_nil]
      omega
    · have hzero : [n].countP (fun n => (n.tunnel, n.proto) = k) = 0 := by
        rw [List.countP_singleton, if_neg]
        rw [hn]
        simpa using hj
      refine ⟨[n], hh, fun m hm hm' => ?_⟩
      rw [hzero]
      omega

theorem Charged.pays {c : Option (ℕ × Pr)} (h : Charged cfg sec c s s')
    (hmax : 1 ≤ cfg.maxtnatrt k.2) (hroom : c = some k → s.tuns.spent sec k < 255) :
    Pays cfg sec k s s' := by
  cases c with
  | none => exact Calm.pays h
  | some j =>
    obtain ⟨ok, hr⟩ := h
    exact hr.pays hmax fun hj => hroom (by rw [hj])

/-- A packet that charges twice has room for the second charge, as its first
    one passed the limit. -/
theorem ChargedTwice.pays {c : Option (ℕ × Pr)} (h : ChargedTwice cfg sec c s s')
    (hmax : 1 ≤ cfg.maxtnatrt k.2) (hmax' : cfg.maxtnatrt k.2 ≤ 255)
    (hroom : c = some k → s.tuns.spent sec k < 255) : Pays cfg sec k s s' := by
  rcases h with h | ⟨j, s₁, c', hc, hr, hc', h⟩
  · exact h.pays hmax hroom
  · have hfirst := hr.pays hmax fun hj => hroom (by rw [hc, hj])
    apply hfirst.trans
    apply h.pays hmax
    intro hk
    have hjk : j = k := by
      rcases hc' with hc' | hc' <;> rw [hc'] at hk <;> cases hk
      rfl
    subst hjk
    have hlim := hr.spent_limit
    omega

theorem Pays.newNats_le (h : Pays cfg sec k s s') {m : ℕ} (hm : m ≤ s.tuns.spent sec k)
    (hmax : m ≤ cfg.maxtnatrt k.2) : m + (newNats k s s').length ≤ s'.tuns.spent sec k ∧
      m + (newNats k s s').length ≤ cfg.maxtnatrt k.2 := by
  obtain ⟨l, hsub, hpay⟩ := h
  have hpay := hpay m hm hmax
  have hle : (newNats k s s').length ≤ l.countP (fun n => (n.tunnel, n.proto) = k) := by
    have hold : s.nats.heap.countP
        (fun n => (n.tunnel, n.proto) = k && !s.nats.heap.contains n) = 0 := by
      rw [List.countP_eq_zero]
      intro n hn
      simp [hn]
    calc (newNats k s s').length
        = s'.nats.heap.countP (fun n => (n.tunnel, n.proto) = k && !s.nats.heap.contains n) :=
          List.countP_eq_length_filter.symm
      _ ≤ (l ++ s.nats.heap).countP
            (fun n => (n.tunnel, n.proto) = k && !s.nats.heap.contains n) := hsub.countP_le
      _ = l.countP (fun n => (n.tunnel, n.proto) = k && !s.nats.heap.contains n) := by
          rw [List.countP_append, hold, Nat.add_zero]
      _ ≤ l.countP (fun n => (n.tunnel, n.proto) = k) := by
          apply List.countP_mono_left
          intro n _ hn
          exact (Bool.and_eq_true_iff.mp hn).1
  omega

end

/-! ### Runs -/

section
variable {cfg : Conf} {sec : ℕ} {k : ℕ × Pr} {s : State} {es : List Event}

theorem ftpTcp_of_charged {c : Option (ℕ × Pr)} {s' : State} (hx : FtpTcp s)
    (h : Charged cfg sec c s s') : FtpTcp s' := by
  cases c with
  | none => exact hx.calm h
  | some k =>
    obtain ⟨ok, hr⟩ := h
    intro p n hn
    exact (hr.xlist p n hn).elim (hx p n) id

/-- The chains of FTP hold TCP entries in every run. -/
theorem step_ftpTcp (hx : FtpTcp s) (e : Event) : FtpTcp (step cfg s e) := by
  have hsec : ∃ sec, e.atSecond sec = true := by
    cases e with
    | natin env => exact ⟨env.seconds, decide_eq_true rfl⟩
    | natout env => exact ⟨env.seconds, decide_eq_true rfl⟩
    | _ => exact ⟨0, rfl⟩
  obtain ⟨sec, hsec⟩ := hsec
  unfold step
  split
  · exact hx
  rcases @act_charged cfg _ sec e hsec (hx.calm (.ctl _)) with h | ⟨k, s₁, c', -, hr, -, h⟩
  · exact ftpTcp_of_charged (hx.calm (.ctl _)) h
  · exact ftpTcp_of_charged (ftpTcp_of_charged (c := some k) (hx.calm (.ctl _)) ⟨true, hr⟩) h

theorem run_ftpTcp (hx : FtpTcp s) (es : List Event) : FtpTcp (run cfg s es) := by
  induction es generalizing s with
  | nil => exact hx
  | cons e es ih => exact ih (step_ftpTcp hx e)

theorem start_ftpTcp (ports : Ports) (rnd₁ rnd₂ rnd₃ : UInt32) :
    FtpTcp (start ports rnd₁ rnd₂ rnd₃) := by
  intro p n hn
  cases hn

theorem addStdtunnel_ctl (env : NatEnv) (peer : Addr6) (src : Option ℕ) (c : Control) :
    addStdtunnel cfg env peer src { s with ctl := c } =
      ({ (addStdtunnel cfg env peer src s).1 with ctl := c },
        (addStdtunnel cfg env peer src s).2) := by
  unfold addStdtunnel
  dsimp only
  rcases src.map s.ports.findPool with _ | _ | i
  · cases env.mem 0 with
    | false => rfl
    | true => rcases s.tuns.addTunnel cfg (env.after 1) peer with ⟨tuns, _ | t⟩ <;> rfl
  · rfl
  · cases env.mem 0 with
    | false => rfl
    | true => rcases s.tuns.addTunnel cfg (env.after 1) peer with ⟨tuns, _ | t⟩ <;> rfl

theorem decap_ctl (env : NatEnv) (peer : Addr6) (auto : Bool) (c : Control) :
    decap cfg env peer auto { s with ctl := c } =
      ({ (decap cfg env peer auto s).1 with ctl := c }, (decap cfg env peer auto s).2) := by
  unfold decap
  dsimp only
  rcases s.tuns.tunnelLookup peer with ⟨tuns, _ | t⟩
  · cases auto with
    | true => exact addStdtunnel_ctl (s := { s with tuns := tuns }) env peer none c
    | false => rfl
  · rfl

/-- A step in its second pays, while its counter has room. -/
theorem step_pays (hmax : 1 ≤ cfg.maxtnatrt k.2) (hmax' : cfg.maxtnatrt k.2 ≤ 255) (hx : FtpTcp s)
    {e : Event} (hsec : e.atSecond sec = true)
    (hroom : e.charge cfg s = some k → s.tuns.spent sec k < 255) :
    Pays cfg sec k s (step cfg s e) := by
  unfold step
  split
  · exact Calm.pays (.refl s)
  · have hcharge : e.charge cfg { s with ctl := { s.ctl with
        serving := s.ctl.serving && e.serves } } = e.charge cfg s := by
      cases e with
      | natin env peer auto acl4 p =>
        simp only [Event.charge, decap_ctl]
        rcases decap cfg env peer auto s with ⟨s', _ | t⟩ <;> rfl
      | natout env p => rfl
      | _ => rfl
    have h := @act_charged cfg _ sec e hsec (hx.calm (.ctl { s.ctl with
      serving := s.ctl.serving && e.serves }))
    rw [hcharge] at h
    exact (Calm.ctl _).pays.trans (h.pays hmax hmax' hroom)

theorem made_le_of_spent (hmax : 1 ≤ cfg.maxtnatrt k.2) (hmax' : cfg.maxtnatrt k.2 ≤ 255)
    (hx : FtpTcp s) (hsec : ∀ e ∈ es, e.atSecond sec = true)
    (h : EachStep cfg (fun s e => e.charge cfg s = some k → s.tuns.spent sec k < 255) s es)
    {m : ℕ} (hm : m ≤ s.tuns.spent sec k) (hm' : m ≤ cfg.maxtnatrt k.2) :
    m + made cfg k s es ≤ cfg.maxtnatrt k.2 := by
  induction es generalizing s m with
  | nil => exact hm'
  | cons e es ih =>
    have hpay := (step_pays hmax hmax' hx (hsec e (List.mem_cons_self ..)) h.1).newNats_le hm hm'
    have hrest := ih (step_ftpTcp hx e) (fun e he => hsec e (List.mem_cons_of_mem _ he)) h.2
      hpay.1 hpay.2
    rw [made, ← Nat.add_assoc]
    exact hrest

/-- The limit of a second: a tunnel gets at most `maxtnatrt` new entries of a
    protocol while no packet is charged at the end of the counter. -/
theorem made_le (ports : Ports) (rnd₁ rnd₂ rnd₃ : UInt32) (es₀ : List Event)
    (hmax : 1 ≤ cfg.maxtnatrt k.2) (hmax' : cfg.maxtnatrt k.2 ≤ 255)
    (hsec : ∀ e ∈ es, e.atSecond sec = true)
    (h : EachStep cfg (fun s e => e.charge cfg s = some k → s.tuns.spent sec k < 255)
      (run cfg (start ports rnd₁ rnd₂ rnd₃) es₀) es) :
    made cfg k (run cfg (start ports rnd₁ rnd₂ rnd₃) es₀) es ≤ cfg.maxtnatrt k.2 := by
  have hrun := made_le_of_spent hmax hmax' (run_ftpTcp (start_ftpTcp ports rnd₁ rnd₂ rnd₃) es₀) hsec h
    (Nat.zero_le _) (Nat.zero_le _)
  rwa [Nat.zero_add] at hrun

end

/-- One new TCP entry in a second. -/
def oneRate : Conf := { defaultConf with maxtnatrt := fun _ => 1 }

def onePool : State := start (bootPools oneRate [.addPool 9]) 0 0 0

/-- A packet of a flow of its own for each `sport`, all in one second. -/
def newFlow (sport : ℕ) : Event :=
  .natin { plainEnv with seconds := 1 } 7 true true
    { proto := .tcp, src := 1, dst := 2, sport := sport, dport := 80 }

theorem made_le_three : 1 ≤ oneRate.maxtnatrt .tcp ∧
    made oneRate (1, .tcp) (run oneRate onePool [.bootDone false])
      [newFlow 10, newFlow 11, newFlow 12] ≤ oneRate.maxtnatrt .tcp :=
  ⟨by decide, @made_le oneRate 1 (1, .tcp) [newFlow 10, newFlow 11, newFlow 12]
    (bootPools oneRate [.addPool 9]) 0 0 0 [.bootDone false] (by decide) (by decide) (by decide)
    (by decide +kernel)⟩

/-- The flow that was refused 254 times gets its entry when the counter comes
    round to zero. -/
theorem retries_pass_limit : ¬ made oneRate (1, .tcp) (run oneRate onePool [.bootDone false])
    (newFlow 10 :: List.replicate 255 (newFlow 11)) ≤ oneRate.maxtnatrt .tcp := by
  decide +kernel

end WanStack.Aftr
