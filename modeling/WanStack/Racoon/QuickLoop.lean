import WanStack.Racoon.Deletion
import WanStack.Racoon.Quick

set_option autoImplicit false

/-!
# The loop over the payloads of a quick mode message

What the loop keeps of the payloads it gets past, where it stops, and which
notifications leave everything as it is.
-/
namespace WanStack.Racoon.Quick
open Aftr (Buf)
open Proposal (IsakmpParse)
open Handles (SadbSa State notifyType connects initialcontactSa isakmpInfoRecvInitialcontact
  getph2bysaidx getph2bysaidx_mem deleteSa deleteSa_loses Round foldl_shrinks foldl_reaches
  pfkey2ipsecdoiProto ISAKMP_NPTYPE_N ISAKMP_NTYPE_INITIAL_CONTACT)

variable {env : Env} {q : Exchange} {rules : Rules} {pa : IsakmpParse} {pays pre post : List IsakmpParse}
  {p : Progress} {e : Effects}

/-! ### Notifications -/

/-- Where every step stays or rises, a walk that comes back has stayed all along. -/
theorem foldl_eq_self_iff {σ α : Type} {f : σ → α → σ} {m : σ → ℤ}
    (hf : ∀ s a, f s a = s ∨ m s < m (f s a)) {l : List α} {s : σ} :
    l.foldl f s = s ↔ ∀ a ∈ l, f s a = s := by
  have hle : ∀ (l : List α) (s : σ), m s ≤ m (l.foldl f s) := by
    intro l
    induction l with
    | nil => exact fun s => le_refl _
    | cons a l ih =>
      intro s
      rw [List.foldl_cons]
      rcases hf s a with h | h
      · rw [h]
        exact ih s
      · exact (le_of_lt h).trans (ih _)
  induction l with
  | nil => exact ⟨fun _ a ha => absurd ha List.not_mem_nil, fun _ => rfl⟩
  | cons a l ih =>
    rw [List.foldl_cons, List.forall_mem_cons]
    rcases hf s a with h | h
    · rw [h]
      exact ih.trans ⟨fun hl => ⟨rfl, hl⟩, fun hl => hl.2⟩
    · constructor
      · intro hback
        have hup := hle l (f s a)
        rw [hback] at hup
        omega
      · intro hl
        rw [hl.1] at h
        exact absurd h (lt_irrefl _)

/-- The associations that an INITIAL-CONTACT is about. -/
def Contacted (iph1 : Handles.Ph1handle) (sa : SadbSa) : Prop :=
  (sa.state = .MATURE ∨ sa.state = .DYING) ∧ connects iph1 sa ∧ ∀ n, sa.satype ≠ .other n

theorem initialcontactSa_of_not {iph1 : Handles.Ph1handle} {prot : Option ℕ} {s : State}
    {sa : SadbSa} (h : ¬Contacted iph1 sa) : initialcontactSa iph1 prot s sa = s := by
  unfold initialcontactSa
  split_ifs with hstate hconnects
  · rfl
  · split
    · rfl
    · next hother =>
      have hconnects' : connects iph1 sa := by simpa using hconnects
      exact absurd ⟨hstate, hconnects', hother⟩ h
  · rfl

theorem initialcontactSa_of {iph1 : Handles.Ph1handle} {prot : Option ℕ} (s : State)
    {sa : SadbSa} (h : Contacted iph1 sa) :
    initialcontactSa iph1 prot s sa =
      deleteSa sa ((getph2bysaidx s (pfkey2ipsecdoiProto sa.satype) sa.spi).filter fun iph2 =>
        some iph2.addr ≠ prot) s := by
  have hconnects : ¬((!connects iph1 sa) = true) := by
    rw [h.2.1]
    decide
  unfold initialcontactSa
  rw [if_neg (not_not.mpr h.1), if_neg hconnects]
  split
  · next n hn => exact absurd hn (h.2.2 n)
  · rfl

theorem initialcontactSa_round (iph1 : Handles.Ph1handle) (prot : Option ℕ) :
    Round (Contacted iph1) (initialcontactSa iph1 prot) := by
  intro s sa
  by_cases h : Contacted iph1 sa
  · rw [initialcontactSa_of s h]
    refine .inr ⟨h, deleteSa_loses fun p hp => ?_⟩
    exact getph2bysaidx_mem (Option.mem_filter_iff.mp hp).1
  · exact .inl (initialcontactSa_of_not h)

theorem initialcontactSa_sent (iph1 : Handles.Ph1handle) (prot : Option ℕ) (s : State)
    (sa : SadbSa) : (initialcontactSa iph1 prot s sa).sent = s.sent := by
  by_cases h : Contacted iph1 sa
  · rw [initialcontactSa_of s h]
    unfold deleteSa
    split <;> rfl
  · rw [initialcontactSa_of_not h]

/-- An INITIAL-CONTACT takes associations, and sends nothing. -/
theorem initialcontact_cases (dump : Bool) (iph1 : Handles.Ph1handle) (prot : Option ℕ)
    (s : State) :
    (dump → ∀ sa ∈ s.sadb.entries, ¬Contacted iph1 sa) ∧
        isakmpInfoRecvInitialcontact dump iph1 prot s = s ∨
      ¬(dump → ∀ sa ∈ s.sadb.entries, ¬Contacted iph1 sa) ∧
        (isakmpInfoRecvInitialcontact dump iph1 prot s).sent = s.sent ∧
        (isakmpInfoRecvInitialcontact dump iph1 prot s).sadb.entries.length <
          s.sadb.entries.length := by
  have hround := initialcontactSa_round iph1 prot
  cases dump with
  | false => exact .inl ⟨fun h => (Bool.false_ne_true h).elim, rfl⟩
  | true =>
    have hrun : isakmpInfoRecvInitialcontact true iph1 prot s =
        s.sadb.entries.foldl (initialcontactSa iph1 prot) s := rfl
    rw [hrun]
    by_cases hnone : ∀ sa ∈ s.sadb.entries, ¬Contacted iph1 sa
    · left
      refine ⟨fun _ => hnone, ?_⟩
      have hstay : ∀ l : List SadbSa, (∀ sa ∈ l, ¬Contacted iph1 sa) →
          l.foldl (initialcontactSa iph1 prot) s = s := by
        intro l
        induction l with
        | nil => exact fun _ => rfl
        | cons sa l ih =>
          intro hl
          rw [List.foldl_cons, initialcontactSa_of_not (hl sa List.mem_cons_self)]
          exact ih fun e he => hl e (List.mem_cons_of_mem _ he)
      exact hstay _ hnone
    · right
      refine ⟨fun h => hnone (h rfl), ?_, ?_⟩
      · have hsent : ∀ (l : List SadbSa) (s : State),
            (l.foldl (initialcontactSa iph1 prot) s).sent = s.sent := by
          intro l
          induction l with
          | nil => exact fun _ => rfl
          | cons sa l ih =>
            intro s
            rw [List.foldl_cons, ih, initialcontactSa_sent]
        exact hsent _ s
      · push Not at hnone
        obtain ⟨sa, hsa, hcontacted⟩ := hnone
        have hsub := (foldl_shrinks hround s.sadb.distinct fun _ h => h).sadb
        have hgone : sa ∉ (s.sadb.entries.foldl (initialcontactSa iph1 prot) s).sadb.entries := by
          apply foldl_reaches (I := fun _ => True) (D := fun s => sa ∉ s.sadb.entries)
            (fun _ _ _ => trivial) (fun s b h hmem => h ((hround.sublist s b).1.subset hmem)) _
            hsa trivial
          intro s _
          rw [initialcontactSa_of s hcontacted]
          exact Handles.deleteSa_not_mem _
        apply lt_of_le_of_ne hsub.length_le
        intro hlen
        rw [hsub.eq_of_length hlen] at hgone
        exact hgone hsa

/-- What the notifications of a list leave. -/
def notified (env : Env) (q : Exchange) (e : Effects) (pays : List IsakmpParse) : Effects :=
  pays.foldl (fun e pa => if kind pa = some .n then ph2RecvN env q pa.ptr e else e) e

/-- The notifications that are answered, where there is an approval. -/
def Answered (type : ℕ) : Prop :=
  type ≠ ISAKMP_NTYPE_CONNECTED ∧ type ≠ ISAKMP_NTYPE_INITIAL_CONTACT ∧
    type ≠ ISAKMP_NTYPE_RESPONDER_LIFETIME

/-- A payload that leaves everything outside of the handle as it is. -/
def Harmless (env : Env) (q : Exchange) (s : State) (pa : IsakmpParse) : Prop :=
  kind pa = some .n →
    (notifyType pa.ptr = ISAKMP_NTYPE_INITIAL_CONTACT → ¬env.fLocal → env.dump →
      ∀ sa ∈ s.sadb.entries, ¬Contacted env.iph1 sa) ∧
    (Answered (notifyType pa.ptr) → ¬q.approval)

def isLifetime (pa : IsakmpParse) : Bool :=
  kind pa = some .n && notifyType pa.ptr = ISAKMP_NTYPE_RESPONDER_LIFETIME

/-- Payloads that leave the lifetimes of the handle as well. -/
structure Quiet (env : Env) (q : Exchange) (e : Effects) (pays : List IsakmpParse) : Prop where
  harmless : ∀ pa ∈ pays, Harmless env q e.state pa
  lifetimes : (pays.filter isLifetime).foldl (fun lifetimes pa =>
    responderLifetime env q pa.ptr lifetimes) (e.secs, e.kb) = (e.secs, e.kb)

/-- What a payload does to everything outside of the handle. -/
def stateStep (env : Env) (q : Exchange) (s : State) (pa : IsakmpParse) : State :=
  if kind pa = some .n then
    if notifyType pa.ptr = ISAKMP_NTYPE_CONNECTED then s
    else if notifyType pa.ptr = ISAKMP_NTYPE_INITIAL_CONTACT then
      if env.fLocal then s else isakmpInfoRecvInitialcontact env.dump env.iph1 (some q.addr) s
    else if notifyType pa.ptr = ISAKMP_NTYPE_RESPONDER_LIFETIME then s
    else isakmpInfoSendN2 q ISAKMP_NTYPE_INVALID_PAYLOAD_TYPE s
  else s

theorem ph2RecvN_state (h : kind pa = some .n) :
    (ph2RecvN env q pa.ptr e).state = stateStep env q e.state pa := by
  unfold ph2RecvN stateStep
  rw [if_pos h]
  dsimp only
  split_ifs <;> rfl

theorem ph2RecvN_lifetimes (notify : Buf) :
    ((ph2RecvN env q notify e).secs, (ph2RecvN env q notify e).kb) =
      if notifyType notify = ISAKMP_NTYPE_RESPONDER_LIFETIME then
        responderLifetime env q notify (e.secs, e.kb)
      else (e.secs, e.kb) := by
  unfold ph2RecvN
  dsimp only
  by_cases hlife : notifyType notify = ISAKMP_NTYPE_RESPONDER_LIFETIME
  · rw [if_pos hlife, if_neg (by rw [hlife]; decide), if_neg (by rw [hlife]; decide), if_pos hlife]
  · rw [if_neg hlife]
    split_ifs <;> rfl

theorem notified_state : (notified env q e pays).state = pays.foldl (stateStep env q) e.state := by
  unfold notified
  induction pays generalizing e with
  | nil => rfl
  | cons pa pays ih =>
    rw [List.foldl_cons, List.foldl_cons, ih]
    by_cases h : kind pa = some .n
    · rw [if_pos h, ph2RecvN_state h]
    · rw [if_neg h, stateStep, if_neg h]

theorem notified_lifetimes : ((notified env q e pays).secs, (notified env q e pays).kb) =
    (pays.filter isLifetime).foldl (fun lifetimes pa =>
      responderLifetime env q pa.ptr lifetimes) (e.secs, e.kb) := by
  unfold notified
  induction pays generalizing e with
  | nil => rfl
  | cons pa pays ih =>
    rw [List.foldl_cons, ih]
    by_cases h : kind pa = some .n
    · rw [if_pos h, ph2RecvN_lifetimes]
      by_cases hlife : notifyType pa.ptr = ISAKMP_NTYPE_RESPONDER_LIFETIME
      · rw [if_pos hlife, List.filter_cons_of_pos (by simp [isLifetime, h, hlife]), List.foldl_cons]
      · rw [if_neg hlife, List.filter_cons_of_neg (by simp [isLifetime, hlife])]
    · rw [if_neg h, List.filter_cons_of_neg (by simp [isLifetime, h])]

/-- What only rises: the messages sent, less the associations. -/
def activity (s : State) : ℤ := s.sent.length - s.sadb.entries.length

/-- A step does nothing to a state exactly where it is harmless, and rises elsewhere. -/
theorem stateStep_cases (s : State) (pa : IsakmpParse) :
    Harmless env q s pa ∧ stateStep env q s pa = s ∨
      ¬Harmless env q s pa ∧ activity s < activity (stateStep env q s pa) := by
  unfold stateStep
  by_cases hn : kind pa = some .n
  · rw [if_pos hn]
    by_cases hconnected : notifyType pa.ptr = ISAKMP_NTYPE_CONNECTED
    · rw [if_pos hconnected]
      refine .inl ⟨fun _ => ⟨fun hc => ?_, fun ha => absurd hconnected ha.1⟩, rfl⟩
      rw [hconnected] at hc
      exact absurd hc (by decide)
    rw [if_neg hconnected]
    by_cases hcontact : notifyType pa.ptr = ISAKMP_NTYPE_INITIAL_CONTACT
    · rw [if_pos hcontact]
      have hanswered : ¬Answered (notifyType pa.ptr) := fun ha => ha.2.1 hcontact
      by_cases hlocal : env.fLocal
      · rw [if_pos hlocal]
        exact .inl ⟨fun _ => ⟨fun _ hl => absurd hlocal hl, fun ha => absurd ha hanswered⟩, rfl⟩
      · rw [if_neg hlocal]
        rcases initialcontact_cases env.dump env.iph1 (some q.addr) s with ⟨hnone, heq⟩ | ⟨hsome, hrise⟩
        · exact .inl ⟨fun _ => ⟨fun _ _ => hnone, fun ha => absurd ha hanswered⟩, heq⟩
        · right
          refine ⟨fun hharm => hsome ((hharm hn).1 hcontact hlocal), ?_⟩
          rw [activity, activity, hrise.1]
          omega
    rw [if_neg hcontact]
    by_cases hlife : notifyType pa.ptr = ISAKMP_NTYPE_RESPONDER_LIFETIME
    · rw [if_pos hlife]
      exact .inl ⟨fun _ => ⟨fun hc => absurd hc hcontact, fun ha => absurd hlife ha.2.2⟩, rfl⟩
    · rw [if_neg hlife, isakmpInfoSendN2]
      by_cases happroval : q.approval
      · rw [if_pos happroval]
        right
        refine ⟨fun hharm => (hharm hn).2 ⟨hconnected, hcontact, hlife⟩ happroval, ?_⟩
        simp only [activity, List.length_append, List.length_singleton]
        omega
      · rw [if_neg happroval]
        exact .inl ⟨fun _ => ⟨fun hc => absurd hc hcontact, fun _ => happroval⟩, rfl⟩
  · rw [if_neg hn]
    exact .inl ⟨fun h => absurd h hn, rfl⟩

/-- Notifications leave everything as it is exactly where they are quiet. -/
theorem notified_eq_iff : notified env q e pays = e ↔ Quiet env q e pays := by
  have hstep : ∀ pa, stateStep env q e.state pa = e.state ↔ Harmless env q e.state pa := by
    intro pa
    rcases @stateStep_cases env q e.state pa with ⟨hharm, heq⟩ | ⟨hnot, hrise⟩
    · exact ⟨fun _ => hharm, fun _ => heq⟩
    · refine ⟨fun heq => ?_, fun hharm => absurd hharm hnot⟩
      rw [heq] at hrise
      exact absurd hrise (lt_irrefl _)
  have hstate : (notified env q e pays).state = e.state ↔
      ∀ pa ∈ pays, Harmless env q e.state pa := by
    rw [notified_state, foldl_eq_self_iff (m := activity)]
    · exact forall₂_congr fun pa _ => hstep pa
    · exact fun s pa => (@stateStep_cases env q s pa).imp And.right And.right
  constructor
  · intro heq
    constructor
    · exact hstate.mp (congrArg Effects.state heq)
    · rw [← notified_lifetimes, heq]
  · intro hquiet
    have hlife := hquiet.lifetimes
    rw [← notified_lifetimes, Prod.mk.injEq] at hlife
    have hs := hstate.mpr hquiet.harmless
    cases hn : notified env q e pays
    rw [hn] at hlife hs
    cases e
    exact congr (congrArg₂ Effects.mk hlife.1 hlife.2) hs

/-! ### What the loop gets past -/

def count (k : Kind) (pays : List IsakmpParse) : ℕ := pays.countP fun pa => kind pa = some k

def slots {α : Type} (o : Option α) : ℕ := if o.isSome then 0 else 1

/-- How many payloads of a kind there is still room for, nothing where any number. -/
def room (rules : Rules) (p : Progress) : Kind → Option ℕ
  | .sa => if rules.multiSa then none else some (slots p.sa)
  | .nonce => some (slots p.nonceP)
  | .ke => some (slots p.dhpubP)
  | .id => some (2 - p.ids.length)
  | .n => none
  | .natoa => some (slots p.natoa1 + slots p.natoa2)

/-- Whether the address of a NAT-OA is read. -/
def Readable (env : Env) (pa : IsakmpParse) : Prop :=
  ∃ saddr plen ulProto, ipsecdoiId2sockaddr env.heap (some (body pa)) = .addr saddr plen ulProto

/-- Payloads that there is room for, each of a kind of its own. -/
structure Fits (env : Env) (rules : Rules) (p : Progress) (pays : List IsakmpParse) : Prop where
  known : ∀ pa ∈ pays, kind pa ≠ none
  readable : ∀ pa ∈ pays, kind pa = some .natoa → Readable env pa
  room : ∀ k n, room rules p k = some n → count k pays ≤ n

/-- What is kept of a payload there is room for. -/
def keep (env : Env) (q : Exchange) (p : Progress) (pa : IsakmpParse) : Progress :=
  match kind pa with
  | some .sa => { p with sa := p.sa.or (some (body pa)) }
  | some .nonce => { p with nonceP := p.nonceP.or (some (body pa)) }
  | some .ke => { p with dhpubP := p.dhpubP.or (some (body pa)) }
  | some .id => { p with ids := p.ids ++ [body pa] }
  | some .n => { p with effects := ph2RecvN env q pa.ptr p.effects }
  | some .natoa =>
    match ipsecdoiId2sockaddr env.heap (some (body pa)) with
    | .addr saddr _ _ =>
      if p.natoa1.isNone then
        { p with
          error := 0
          natoa1 := some saddr }
      else
        { p with
          error := 0
          natoa2 := some saddr }
    | _ => p
  | none => p

/-- What is kept of payloads. -/
def kept (env : Env) (q : Exchange) (p : Progress) (pays : List IsakmpParse) : Progress :=
  pays.foldl (keep env q) p

/-- A payload takes one place of its kind. -/
theorem room_keep (h : kind pa = some .natoa → Readable env pa) (k : Kind) :
    room rules (keep env q p pa) k =
      (room rules p k).map fun n => n - if kind pa = some k then 1 else 0 := by
  unfold keep
  cases hk : kind pa with
  | none => cases k <;> simp [room]
  | some k' =>
    cases k' with
    | sa => cases k <;> cases ho : p.sa <;> cases hm : rules.multiSa <;> simp [room, slots, ho, hm]
    | nonce => cases k <;> cases ho : p.nonceP <;> simp [room, slots, ho]
    | ke => cases k <;> cases ho : p.dhpubP <;> simp [room, slots, ho]
    | id =>
      cases k <;> simp [room]
      omega
    | n => cases k <;> simp [room]
    | natoa =>
      obtain ⟨saddr, plen, ulProto, haddr⟩ := h hk
      rw [haddr]
      cases h1 : p.natoa1 <;> cases h2 : p.natoa2 <;> cases k <;> simp [room, slots, h1, h2]

theorem count_cons (k : Kind) (pa : IsakmpParse) (pays : List IsakmpParse) :
    count k (pa :: pays) = (if kind pa = some k then 1 else 0) + count k pays := by
  rw [count, List.countP_cons, count, Nat.add_comm]
  simp only [decide_eq_true_eq]

theorem fits_nil : Fits env rules p [] where
  known := fun _ hpa => absurd hpa List.not_mem_nil
  readable := fun _ hpa => absurd hpa List.not_mem_nil
  room := fun _ _ _ => Nat.zero_le _

/-- Payloads fit where the first one does, and the others where it has been kept. -/
theorem fits_cons : Fits env rules p (pa :: pays) ↔
    Fits env rules p [pa] ∧ Fits env rules (keep env q p pa) pays := by
  constructor
  · intro h
    have hread := h.readable pa List.mem_cons_self
    constructor
    · constructor
      · rintro pa' hpa'
        rw [List.mem_singleton.mp hpa']
        exact h.known pa List.mem_cons_self
      · rintro pa' hpa'
        rw [List.mem_singleton.mp hpa']
        exact hread
      · intro k n hn
        have hle := h.room k n hn
        rw [count_cons] at hle ⊢
        exact (Nat.add_le_add_left (Nat.zero_le _) _).trans hle
    · constructor
      · exact fun pa' hpa' => h.known pa' (List.mem_cons_of_mem _ hpa')
      · exact fun pa' hpa' => h.readable pa' (List.mem_cons_of_mem _ hpa')
      · intro k n hn
        rw [room_keep hread, Option.map_eq_some_iff] at hn
        obtain ⟨m, hm, rfl⟩ := hn
        have hle := h.room k m hm
        rw [count_cons] at hle
        omega
  · rintro ⟨hone, hrest⟩
    have hread := hone.readable pa List.mem_cons_self
    constructor
    · exact List.forall_mem_cons.mpr ⟨hone.known pa List.mem_cons_self, hrest.known⟩
    · exact List.forall_mem_cons.mpr ⟨hread, hrest.readable⟩
    · intro k n hn
      have hle := hone.room k n hn
      have hle' := hrest.room k (n - if kind pa = some k then 1 else 0) (by
        rw [room_keep hread, hn]
        rfl)
      rw [count_cons] at hle ⊢
      have hnil : count k [] = 0 := rfl
      omega

/-- What follows payloads that fit has to fit where they have been kept. -/
theorem fits_append : Fits env rules p (pre ++ post) ↔
    Fits env rules p pre ∧ Fits env rules (kept env q p pre) post := by
  induction pre generalizing p with
  | nil => exact ⟨fun h => ⟨fits_nil, h⟩, fun h => h.2⟩
  | cons pa pre ih =>
    rw [List.cons_append, @fits_cons env q, @fits_cons env q rules pa pre, ih, and_assoc]
    rfl

/-- One payload fits where it is of a kind there is room for. -/
theorem fits_singleton : Fits env rules p [pa] ↔
    ∃ k, kind pa = some k ∧ (k = .natoa → Readable env pa) ∧
      ∀ n, room rules p k = some n → 0 < n := by
  constructor
  · intro h
    cases hk : kind pa with
    | none => exact absurd hk (h.known pa List.mem_cons_self)
    | some k =>
      refine ⟨k, rfl, fun hn => h.readable pa List.mem_cons_self (hn ▸ hk), ?_⟩
      intro n hn
      have hle := h.room k n hn
      rw [count_cons, if_pos hk] at hle
      omega
  · rintro ⟨k, hk, hread, hroom⟩
    constructor
    · intro pa' hpa'
      rw [List.mem_singleton.mp hpa', hk]
      exact Option.some_ne_none k
    · intro pa' hpa' hnatoa
      rw [List.mem_singleton.mp hpa'] at hnatoa ⊢
      exact hread (Option.some.inj (hk.symm.trans hnatoa))
    · intro k' n hn
      have hnil : count k' [] = 0 := rfl
      rw [count_cons, hnil, hk]
      by_cases heq : k = k'
      · rw [if_pos (congrArg some heq)]
        exact hroom n (heq ▸ hn)
      · rw [if_neg fun h => heq (Option.some.inj h)]
        exact Nat.zero_le _

theorem payload_keep (h : Fits env rules p [pa]) :
    payload env q rules pa p = .next (keep env q p pa) := by
  obtain ⟨k, hk, hread, hroom⟩ := fits_singleton.mp h
  unfold payload keep
  rw [hk]
  cases k with
  | sa =>
    cases hsa : p.sa with
    | none => rfl
    | some sa =>
      cases hmulti : rules.multiSa with
      | true =>
        cases p
        cases hsa
        rfl
      | false =>
        have hpos := hroom 0 (by simp [room, hmulti, slots, hsa])
        omega
  | nonce =>
    cases hnonce : p.nonceP with
    | none => rfl
    | some nonce =>
      have hpos := hroom 0 (by simp [room, slots, hnonce])
      omega
  | ke =>
    cases hke : p.dhpubP with
    | none => rfl
    | some ke =>
      have hpos := hroom 0 (by simp [room, slots, hke])
      omega
  | id =>
    have hpos := hroom _ rfl
    exact if_pos (by omega)
  | n => rfl
  | natoa =>
    obtain ⟨saddr, plen, ulProto, haddr⟩ := hread rfl
    have hpos := hroom _ rfl
    simp only [haddr]
    cases h1 : p.natoa1 with
    | none => rfl
    | some natoa1 =>
      cases h2 : p.natoa2 with
      | none => rfl
      | some natoa2 => simp [slots, h1, h2] at hpos

/-- The loop gets past payloads that fit. -/
theorem payloads_append (h : Fits env rules p pre) :
    payloads env q rules (pre ++ post) p = payloads env q rules post (kept env q p pre) := by
  induction pre generalizing p with
  | nil => rfl
  | cons pa pre ih =>
    rw [@fits_cons env q] at h
    rw [List.cons_append, payloads, payload_keep h.1]
    exact ih h.2

/-! ### Where the loop stops -/

/-- Whether a NAT-OA was read, which sets `error` to 0. -/
def Addressed (pays : List IsakmpParse) : Prop := ∃ pa ∈ pays, kind pa = some .natoa

theorem keep_error (h : kind pa = some .natoa → Readable env pa) :
    (keep env q p pa).error = 0 ↔ p.error = 0 ∨ kind pa = some .natoa := by
  unfold keep
  cases hk : kind pa with
  | none => simp
  | some k =>
    cases k with
    | natoa =>
      obtain ⟨saddr, plen, ulProto, haddr⟩ := h hk
      rw [haddr]
      cases p.natoa1 <;> simp
    | _ => simp

theorem kept_error (h : Fits env rules p pays) :
    (kept env q p pays).error = 0 ↔ p.error = 0 ∨ Addressed pays := by
  induction pays generalizing p with
  | nil => simp [kept, Addressed]
  | cons pa pays ih =>
    have hread := h.readable pa List.mem_cons_self
    have hrest := ih ((@fits_cons env q).mp h).2
    rw [kept, List.foldl_cons, ← kept, hrest, keep_error hread, or_assoc]
    simp only [Addressed, List.mem_cons, exists_eq_or_imp]

theorem keep_effects : (keep env q p pa).effects =
    if kind pa = some .n then ph2RecvN env q pa.ptr p.effects else p.effects := by
  unfold keep
  cases hk : kind pa with
  | none => rfl
  | some k =>
    cases k with
    | natoa => cases ipsecdoiId2sockaddr env.heap (some (body pa)) <;> cases p.natoa1 <;> rfl
    | _ => rfl

theorem kept_effects : (kept env q p pays).effects = notified env q p.effects pays := by
  unfold kept notified
  induction pays generalizing p with
  | nil => rfl
  | cons pa pays ih => rw [List.foldl_cons, ih, keep_effects, List.foldl_cons]

theorem keep_sa : (keep env q p pa).sa.isNone ↔ p.sa.isNone ∧ kind pa ≠ some .sa := by
  unfold keep
  cases hk : kind pa with
  | none => simp
  | some k =>
    cases k with
    | sa => cases p.sa <;> simp
    | natoa => cases ipsecdoiId2sockaddr env.heap (some (body pa)) <;> cases p.natoa1 <;> simp
    | _ => simp

theorem keep_nonceP : (keep env q p pa).nonceP.isNone ↔ p.nonceP.isNone ∧ kind pa ≠ some .nonce := by
  unfold keep
  cases hk : kind pa with
  | none => simp
  | some k =>
    cases k with
    | nonce => cases p.nonceP <;> simp
    | natoa => cases ipsecdoiId2sockaddr env.heap (some (body pa)) <;> cases p.natoa1 <;> simp
    | _ => simp

theorem kept_sa : (kept env q p pays).sa.isNone ↔
    p.sa.isNone ∧ ∀ pa ∈ pays, kind pa ≠ some .sa := by
  unfold kept
  induction pays generalizing p with
  | nil => simp
  | cons pa pays ih => rw [List.foldl_cons, ih, keep_sa, List.forall_mem_cons, and_assoc]

theorem kept_nonceP : (kept env q p pays).nonceP.isNone ↔
    p.nonceP.isNone ∧ ∀ pa ∈ pays, kind pa ≠ some .nonce := by
  unfold kept
  induction pays generalizing p with
  | nil => simp
  | cons pa pays ih => rw [List.foldl_cons, ih, keep_nonceP, List.forall_mem_cons, and_assoc]

/-- The errors set are errors. -/
def Rules.Errors (rules : Rules) : Prop :=
  rules.idError ≠ some 0 ∧ rules.natoaError ≠ some 0 ∧ rules.typeError ≠ some 0

/-- Whether a loop that stops at a payload it does not get past leaves `error` at 0,
    or reads through a NULL pointer. -/
def EndsWrong (env : Env) (rules : Rules) (pre : List IsakmpParse) (pa : IsakmpParse) : Prop :=
  match kind pa with
  | some .natoa => body pa = [] ∨ rules.natoaError = none ∧ Readable env pa
  | some .id => rules.idError = none ∧ Addressed pre
  | none => rules.typeError = none ∧ Addressed pre
  | _ => Addressed pre

/-- A loop that ends the daemon, or success. -/
def Step.Wrong (step : Step) : Prop := step = .null ∨ ∃ p, step = .stop p ∧ p.error = 0

/-- A loop that stops with an error. -/
def Step.Refused (step : Step) (e : Effects) : Prop :=
  ∃ p, step = .stop p ∧ p.error ≠ 0 ∧ p.effects = e

theorem ipsecdoiId2sockaddr_error {heap : Buf} {buf : Option Buf} {e : ℤ}
    (h : ipsecdoiId2sockaddr heap buf = .error e) : e ≠ 0 := by
  unfold ipsecdoiId2sockaddr at h
  cases buf with
  | none =>
    cases h
    decide
  | some buf =>
    dsimp only at h
    split_ifs at h <;> cases h <;> decide

theorem fail_zero (o : Option ℤ) (ho : o ≠ some 0) (h : p.error = 0 ↔ Addressed pre) :
    (p.fail o).error = 0 ↔ o = none ∧ Addressed pre := by
  cases o with
  | none => exact ⟨fun h0 => ⟨rfl, h.mp h0⟩, fun h0 => h.mpr h0.2⟩
  | some e => exact ⟨fun h0 => absurd (congrArg some h0) ho, fun h0 => absurd h0.1 (Option.some_ne_none e)⟩

/-- The step at a payload that there is no room for. -/
theorem payload_blocked (hrules : rules.Errors) (herror : p.error = 0 ↔ Addressed pre)
    (h : ¬Fits env rules p [pa]) :
    (EndsWrong env rules pre pa → (payload env q rules pa p).Wrong) ∧
      (¬EndsWrong env rules pre pa → (payload env q rules pa p).Refused p.effects) := by
  have hstop : ∀ p' : Progress, p'.effects = p.effects → ∀ wrong : Prop,
      (p'.error = 0 ↔ wrong) →
        (wrong → (Step.stop p').Wrong) ∧ (¬wrong → (Step.stop p').Refused p.effects) :=
    fun p' heff wrong hw => ⟨fun h => .inr ⟨p', rfl, hw.mpr h⟩,
      fun h => ⟨p', rfl, fun h0 => h (hw.mp h0), heff⟩⟩
  rw [fits_singleton] at h
  push Not at h
  unfold payload EndsWrong
  cases hk : kind pa with
  | none => exact hstop (p.fail rules.typeError) rfl _ (fail_zero _ hrules.2.2 herror)
  | some k =>
    cases k with
    | sa =>
      cases hsa : p.sa with
      | none =>
        obtain ⟨n, hn, hle⟩ := h .sa hk (fun h => absurd h (by decide))
        cases hmulti : rules.multiSa <;> simp [room, hmulti, slots, hsa] at hn
        omega
      | some sa =>
        cases hmulti : rules.multiSa with
        | true =>
          obtain ⟨n, hn, hle⟩ := h .sa hk (fun h => absurd h (by decide))
          simp [room, hmulti] at hn
        | false => exact hstop p rfl _ herror
    | nonce =>
      cases hnonce : p.nonceP with
      | none =>
        obtain ⟨n, hn, hle⟩ := h .nonce hk (fun h => absurd h (by decide))
        simp [room, slots, hnonce] at hn
        omega
      | some nonce => exact hstop p rfl _ herror
    | ke =>
      cases hke : p.dhpubP with
      | none =>
        obtain ⟨n, hn, hle⟩ := h .ke hk (fun h => absurd h (by decide))
        simp [room, slots, hke] at hn
        omega
      | some ke => exact hstop p rfl _ herror
    | id =>
      obtain ⟨n, hn, hle⟩ := h .id hk (fun h => absurd h (by decide))
      simp only [room, Option.some.injEq] at hn
      have hfull : ¬p.ids.length < 2 := by omega
      simp only [if_neg hfull]
      exact hstop (p.fail rules.idError) rfl _ (fail_zero _ hrules.1 herror)
    | n =>
      obtain ⟨n, hn, hle⟩ := h .n hk (fun h => absurd h (by decide))
      cases hn
    | natoa =>
      cases haddr : ipsecdoiId2sockaddr env.heap (some (body pa)) with
      | null =>
        have hbody : body pa = [] := by
          by_contra hne
          simp only [ipsecdoiId2sockaddr, if_neg hne] at haddr
          split_ifs at haddr
        exact ⟨fun _ => .inl rfl, fun hnot => absurd (.inl hbody) hnot⟩
      | error e =>
        have hbody : body pa ≠ [] := by
          intro hnil
          rw [hnil] at haddr
          cases haddr
        have hread : ¬Readable env pa := by
          rintro ⟨saddr, plen, ulProto, heq⟩
          rw [haddr] at heq
          cases heq
        refine hstop { p with error := e } rfl _ ⟨?_, ?_⟩
        · exact fun h0 => absurd h0 (ipsecdoiId2sockaddr_error haddr)
        · rintro (hnil | ⟨-, hr⟩)
          · exact absurd hnil hbody
          · exact absurd hr hread
      | addr saddr plen ulProto =>
        have hbody : body pa ≠ [] := by
          intro hnil
          rw [hnil] at haddr
          cases haddr
        have hread : Readable env pa := ⟨saddr, plen, ulProto, haddr⟩
        obtain ⟨n, hn, hle⟩ := h .natoa hk (fun _ => hread)
        simp only [room, Option.some.injEq] at hn
        cases h1 : p.natoa1 with
        | none =>
          simp [slots, h1] at hn
          omega
        | some natoa1 =>
          cases h2 : p.natoa2 with
          | none =>
            simp [slots, h1, h2] at hn
            omega
          | some natoa2 =>
            simp only [Option.isNone_some, Bool.false_eq_true, if_false]
            refine hstop
              (Progress.fail
                { p with
                  error := 0
                  natoa1 := some natoa1
                  natoa2 := some natoa2 } rules.natoaError) rfl _ ?_
            cases hnatoa : rules.natoaError with
            | none => exact ⟨fun _ => .inr ⟨rfl, hread⟩, fun _ => rfl⟩
            | some e =>
              constructor
              · exact fun h0 => absurd (hnatoa.trans (congrArg some h0)) hrules.2.1
              · rintro (hnil | ⟨hnone, -⟩)
                · exact absurd hnil hbody
                · cases hnone

/-- Every list starts with payloads that fit, up to one that does not. -/
theorem exists_split (env : Env) (q : Exchange) (rules : Rules) (p : Progress)
    (pays : List IsakmpParse) : ∃ pre post, pays = pre ++ post ∧ Fits env rules p pre ∧
      ∀ pa ∈ post.head?, ¬Fits env rules p (pre ++ [pa]) := by
  induction pays generalizing p with
  | nil => exact ⟨[], [], rfl, fits_nil, fun pa hpa => absurd hpa (Option.not_mem_none pa)⟩
  | cons pa pays ih =>
    by_cases hpa : Fits env rules p [pa]
    · obtain ⟨pre, post, rfl, hpre, hpost⟩ := ih (keep env q p pa)
      refine ⟨pa :: pre, post, rfl, fits_cons.mpr ⟨hpa, hpre⟩, ?_⟩
      intro pa' hpa' hfits
      exact hpost pa' hpa' (fits_cons.mp hfits).2
    · refine ⟨[], pa :: pays, rfl, fits_nil, ?_⟩
      intro pa' hpa' hfits
      obtain rfl : pa = pa' := Option.some.inj hpa'
      exact hpa hfits

end WanStack.Racoon.Quick
