import Mathlib.Data.List.TakeWhile
import WanStack.Racoon.QuickLoop

set_option autoImplicit false

/-!
# What quick mode does with a message that is not authentic

Each of the four functions refuses a message whose hash is missing or wrong, and
leaves everything but the exchange as it is, exactly where the loop it runs before
the hash is looked at does no more than keep payloads.
-/
namespace WanStack.Racoon.Quick
open Aftr (Buf)
open Proposal (IsakmpParse memcpy GEN_LEN)
open Handles (State encrypted ISAKMP_NPTYPE_HASH ISAKMP_NPTYPE_N)

variable {env : Env} {q : Exchange} {s : State} {msg0 : Buf} {rules : Rules} {hash : IsakmpParse}
  {pays pre post : List IsakmpParse} {p : Progress} {e : Effects}

/-! ### What is asked of a function -/

/-- What a function leaves outside of the fields of the exchange. -/
def Received.effects (r : Received) : Effects :=
  { secs := r.exchange.lifetimeSecs
    kb := r.exchange.lifetimeKb
    state := r.state }

def Unchanged (q : Exchange) (s : State) (r : Received) : Prop := r.effects = q.effects s

/-- Whether an error is returned. -/
def Received.Fails (r : Received) : Prop := ∃ error, r.error = some error ∧ error ≠ 0

def Refuses (q : Exchange) (s : State) (r : Received) : Prop := r.Fails ∧ Unchanged q s r

/-- A message is accepted only where it is authentic, and refused without a trace
    where it is not. -/
def Sound (verified : Prop) (q : Exchange) (s : State) (r : Received) : Prop :=
  (r.error = some 0 → verified) ∧ (¬verified → Refuses q s r)

theorem Received.Fails.ne_zero {r : Received} (h : r.Fails) : r.error ≠ some 0 := by
  obtain ⟨error, herror, hne⟩ := h
  rw [herror]
  exact fun h0 => hne (Option.some.inj h0)

theorem sound_iff {verified : Prop} {r : Received} :
    Sound verified q s r ↔ verified ∨ Refuses q s r := by
  constructor
  · rintro ⟨-, hrefuses⟩
    by_cases h : verified
    · exact .inl h
    · exact .inr (hrefuses h)
  · rintro (h | h)
    · exact ⟨fun _ => h, fun hnot => absurd h hnot⟩
    · exact ⟨fun h0 => absurd h0 h.1.ne_zero, fun _ => h⟩

/-- A HASH payload of the full length, with the hash computed. -/
def FullHash (hash : IsakmpParse) (myHash : Buf) : Prop :=
  hash.len = GEN_LEN + myHash.length ∧ hashMatches hash myHash

/-! ### The loop over the payloads -/

/-- The payloads that the loop gets past, and the others. -/
structure Splits (env : Env) (rules : Rules) (p : Progress) (pays pre post : List IsakmpParse) :
    Prop where
  eq : pays = pre ++ post
  fits : Fits env rules p pre
  blocked : ∀ pa ∈ post.head?, ¬Fits env rules p (pre ++ [pa])

theorem payloads_whole (h : Splits env rules p pays pre []) :
    payloads env q rules pays p = .next (kept env q p pre) := by
  rw [h.eq, payloads_append h.fits]
  rfl

/-- The loop stops at the first payload that does not fit. -/
theorem payloads_blocked {pa : IsakmpParse} {rest : List IsakmpParse} (hrules : rules.Errors)
    (herror : p.error ≠ 0) (h : Splits env rules p pays pre (pa :: rest)) :
    (EndsWrong env rules pre pa → (payloads env q rules pays p).Wrong) ∧
      (¬EndsWrong env rules pre pa →
        (payloads env q rules pays p).Refused (notified env q p.effects pre)) := by
  have hblocked : ¬Fits env rules (kept env q p pre) [pa] := fun hfits =>
    h.blocked pa rfl (fits_append.mpr ⟨h.fits, hfits⟩)
  have hzero : (kept env q p pre).error = 0 ↔ Addressed pre := by
    rw [kept_error h.fits]
    exact or_iff_right herror
  obtain ⟨hwrong, hrefused⟩ := @payload_blocked env q rules pa pre _ hrules hzero hblocked
  rw [h.eq, payloads_append h.fits, ← kept_effects, payloads]
  constructor
  · intro hends
    rcases hwrong hends with heq | ⟨p', heq, h0⟩
    · rw [heq]
      exact .inl rfl
    · rw [heq]
      exact .inr ⟨p', rfl, h0⟩
  · intro hends
    obtain ⟨p', heq, hp'⟩ := hrefused hends
    rw [heq]
    exact ⟨p', rfl, hp'⟩

/-- Where a function refuses a message after the loop: the payloads the loop gets past
    are quiet, it stops as it should, and if it gets to the end `last` holds. -/
def LoopRefuses (env : Env) (q : Exchange) (rules : Rules) (p : Progress) (pays : List IsakmpParse)
    (last : Progress → Prop) : Prop :=
  ∃ pre post, Splits env rules p pays pre post ∧ Quiet env q p.effects pre ∧
    (∀ pa ∈ post.head?, ¬EndsWrong env rules pre pa) ∧
    (post = [] → last (kept env q p pays))

/-- A function that does after the loop what its three ends call for. -/
structure AfterLoop (env : Env) (q : Exchange) (rules : Rules) (p : Progress)
    (pays : List IsakmpParse) (r : Received) (last : Progress → Prop) : Prop where
  null : payloads env q rules pays p = .null → ¬r.Fails
  stop : ∀ p', payloads env q rules pays p = .stop p' →
    r.effects = p'.effects ∧ (r.Fails ↔ p'.error ≠ 0)
  next : Fits env rules p pays → payloads env q rules pays p = .next (kept env q p pays) →
    r.effects = (kept env q p pays).effects ∧ (r.Fails ↔ last (kept env q p pays))

theorem refuses_iff_loop {r : Received} {last : Progress → Prop} (hrules : rules.Errors)
    (herror : p.error ≠ 0) (hstart : p.effects = q.effects s)
    (h : AfterLoop env q rules p pays r last) :
    Refuses q s r ↔ LoopRefuses env q rules p pays last := by
  have hat : ∀ pre post, Splits env rules p pays pre post → (Refuses q s r ↔
      Quiet env q p.effects pre ∧ (∀ pa ∈ post.head?, ¬EndsWrong env rules pre pa) ∧
        (post = [] → last (kept env q p pays))) := by
    intro pre post hsplit
    cases post with
    | nil =>
      obtain rfl : pays = pre := hsplit.eq.trans (List.append_nil pre)
      obtain ⟨heffects, hfails⟩ := h.next hsplit.fits (payloads_whole hsplit)
      rw [Refuses, Unchanged, heffects, hfails, kept_effects, ← hstart, notified_eq_iff]
      constructor
      · intro hr
        exact ⟨hr.2, fun pa hpa => absurd hpa (Option.not_mem_none pa), fun _ => hr.1⟩
      · exact fun hr => ⟨hr.2.2 rfl, hr.1⟩
    | cons pa rest =>
      obtain ⟨hwrong, hrefused⟩ := @payloads_blocked env q rules pays pre p pa rest hrules herror hsplit
      by_cases hends : EndsWrong env rules pre pa
      · constructor
        · intro hr
          rcases hwrong hends with heq | ⟨p', heq, h0⟩
          · exact absurd hr.1 (h.null heq)
          · exact absurd h0 ((h.stop p' heq).2.mp hr.1)
        · exact fun hall => absurd hends (hall.2.1 pa rfl)
      · obtain ⟨p', heq, hne, heff⟩ := hrefused hends
        obtain ⟨heffects, hfails⟩ := h.stop p' heq
        rw [Refuses, Unchanged, heffects, hfails, heff, ← hstart, notified_eq_iff]
        constructor
        · intro hr
          refine ⟨hr.2, ?_, fun hnil => absurd hnil (List.cons_ne_nil _ _)⟩
          intro pa' hpa'
          obtain rfl : pa = pa' := Option.some.inj hpa'
          exact hends
        · exact fun hr => ⟨hne, hr.1⟩
  constructor
  · intro hr
    obtain ⟨pre, post, heq, hfits, hblocked⟩ := exists_split env q rules p pays
    have hsplit : Splits env rules p pays pre post := ⟨heq, hfits, hblocked⟩
    exact ⟨pre, post, hsplit, (hat pre post hsplit).mp hr⟩
  · rintro ⟨pre, post, hsplit, hr⟩
    exact (hat pre post hsplit).mpr hr

/-! ### quick_r1recv -/

def R1Verified (env : Env) (q : Exchange) (msg0 : Buf) : Prop :=
  ∃ hash pays, plainPayloads env msg0 = some (hash :: pays) ∧ hash.type = ISAKMP_NPTYPE_HASH ∧
    FullHash hash (env.computeHash1 q.msgid (hashed pays))

/-- With an SA and a nonce, `memcmp` finds a difference or no proposal is chosen. -/
def R1Last (env : Env) (q : Exchange) (hash : IsakmpParse) (pays : List IsakmpParse) (p : Progress) :
    Prop :=
  p.sa.isSome → p.nonceP.isSome → hashMatches hash (env.computeHash1 q.msgid (hashed pays)) →
    r1Select env (r1Kept q p) ≠ 0

theorem r1Rules_errors : r1Rules.Errors := by
  unfold Rules.Errors
  decide

theorem r1Start_error : (r1Start q s pays).error ≠ 0 := by
  unfold r1Start
  dsimp only
  split_ifs <;> decide

theorem r1End_effects (error : ℤ) (p : Progress) :
    (r1End error (r1Kept q p) p.effects.state).effects = p.effects := by
  unfold r1End
  split_ifs <;> rfl

theorem r1End_fails (error : ℤ) (q : Exchange) (s : State) :
    (r1End error q s).Fails ↔ error ≠ 0 := by
  constructor
  · rintro ⟨e, he, hne⟩
    rw [Option.some.inj he]
    exact hne
  · exact fun h => ⟨error, rfl, h⟩

theorem isSome_of_not {α β : Type} {o : Option α} {o' : Option β}
    (h : ¬(o.isNone ∨ o'.isNone)) : o.isSome ∧ o'.isSome := by
  cases o <;> cases o' <;> simp at h ⊢

theorem r1Body_afterLoop (msg0 : Buf) :
    AfterLoop env q r1Rules (r1Start q s pays) pays (r1Body env q s msg0 hash pays)
      (R1Last env q hash pays) := by
  constructor
  · intro heq
    unfold r1Body
    rw [heq]
    rintro ⟨e, he, -⟩
    cases he
  · intro p heq
    unfold r1Body
    rw [heq]
    exact ⟨r1End_effects _ p, r1End_fails _ _ _⟩
  · intro _ heq
    generalize kept env q (r1Start q s pays) pays = p at heq ⊢
    have hmsgid : (r1Kept q p).msgid = q.msgid := rfl
    unfold r1Body
    rw [heq]
    dsimp only
    rw [hmsgid]
    split_ifs with hmissing hhash hselect
    · refine ⟨r1End_effects _ p, ?_⟩
      rw [r1End_fails]
      refine ⟨fun _ hsa hnonce => ?_, fun _ => by decide⟩
      rcases hmissing with hnone | hnone
      · rw [Option.isNone_iff_eq_none.mp hnone] at hsa
        cases hsa
      · rw [Option.isNone_iff_eq_none.mp hnone] at hnonce
        cases hnonce
    · refine ⟨r1End_effects _ p, ?_⟩
      rw [r1End_fails]
      refine ⟨fun _ _ _ hm => ?_, fun _ => by decide⟩
      rw [hm] at hhash
      exact absurd hhash (by decide)
    · refine ⟨r1End_effects _ p, ?_⟩
      rw [r1End_fails]
      exact ⟨fun hs _ _ _ => hs, fun _ => hselect⟩
    · refine ⟨rfl, ?_⟩
      constructor
      · rintro ⟨e, he, hne⟩
        exact absurd (Option.some.inj he).symm hne
      · intro hall
        obtain ⟨hsa, hnonce⟩ := isSome_of_not hmissing
        exact absurd (not_not.mp hselect) (hall hsa hnonce (by simpa using hhash))

/-- Where a message is not authentic and the function refuses it all the same. -/
def R1Refusable (env : Env) (q : Exchange) (s : State) (msg0 : Buf) : Prop :=
  q.status = PHASE2ST_START → encrypted msg0 →
    ∀ hash pays, plainPayloads env msg0 = some (hash :: pays) → hash.type = ISAKMP_NPTYPE_HASH →
      LoopRefuses env q r1Rules (r1Start q s pays) pays (R1Last env q hash pays)

theorem r1End_refuses {error : ℤ} (h : error ≠ 0) : Refuses q s (r1End error q s) := by
  refine ⟨(r1End_fails error q s).mpr h, ?_⟩
  unfold Unchanged r1End
  split_ifs
  rfl

theorem quickR1recv_refuses_iff :
    Refuses q s (quickR1recv env q s msg0) ↔ R1Refusable env q s msg0 := by
  unfold quickR1recv R1Refusable
  dsimp only
  split_ifs with hstatus hencrypted
  · exact ⟨fun _ h => absurd h hstatus, fun _ => r1End_refuses (by decide)⟩
  · refine ⟨fun _ _ h => ?_, fun _ => r1End_refuses (by decide)⟩
    rw [h] at hencrypted
    exact absurd hencrypted (by decide)
  · have hin : q.status = PHASE2ST_START ∧ encrypted msg0 := ⟨not_not.mp hstatus, by
      simpa using hencrypted⟩
    cases hplain : plainPayloads env msg0 with
    | none => exact ⟨fun _ _ _ hash pays h => absurd h (by simp), fun _ => r1End_refuses (by decide)⟩
    | some all =>
      cases all with
      | nil => exact ⟨fun _ _ _ hash pays h => absurd h (by simp), fun _ => r1End_refuses (by decide)⟩
      | cons hash pays =>
        dsimp only
        split_ifs with htype
        · refine ⟨fun _ _ _ hash' pays' h htype' => ?_, fun _ => r1End_refuses (by decide)⟩
          obtain ⟨rfl, rfl⟩ := List.cons.inj (Option.some.inj h)
          exact absurd htype' htype
        · rw [refuses_iff_loop r1Rules_errors r1Start_error rfl (r1Body_afterLoop msg0)]
          constructor
          · intro hloop _ _ hash' pays' h _
            obtain ⟨rfl, rfl⟩ := List.cons.inj (Option.some.inj h)
            exact hloop
          · exact fun hall => hall hin.1 hin.2 hash pays rfl (not_not.mp htype)

/-! ### quick_i2recv -/

def I2Verified (env : Env) (q : Exchange) (msg0 : Buf) : Prop :=
  ∃ hash pays, plainPayloads env msg0 = some (hash :: pays) ∧ hash.type = ISAKMP_NPTYPE_HASH ∧
    FullHash hash (env.computeHash1 q.msgid (q.nonce ++ hashed pays))

/-- Without an SA or a nonce there is no NAT-OA, which would have set `error` to 0. With
    both, the identities are read, and if they match, `memcmp` finds a difference or
    the proposal is rejected. -/
def I2Last (env : Env) (q : Exchange) (hash : IsakmpParse) (pays : List IsakmpParse) (p : Progress) :
    Prop :=
  (p.sa.isNone ∨ p.nonceP.isNone → ¬Addressed pays) ∧
    (p.sa.isSome → p.nonceP.isSome → checkIds env.heap (i2Kept q p) p.ids ≠ .null ∧
      ∀ q', checkIds env.heap (i2Kept q p) p.ids = .matched q' →
        hashMatches hash (env.computeHash1 q.msgid (q.nonce ++ hashed pays)) →
        env.checkph2proposal q' < 0)

theorem i2Rules_errors : i2Rules.Errors := by
  unfold Rules.Errors
  decide

theorem i2End_effects {q' : Exchange} (error : ℤ) (e : Effects)
    (h : q'.effects e.state = e) : (i2End error q' e.state).effects = e := by
  unfold i2End
  split_ifs <;> exact h

theorem i2End_fails (error : ℤ) (q : Exchange) (s : State) :
    (i2End error q s).Fails ↔ error ≠ 0 := by
  constructor
  · rintro ⟨e, he, hne⟩
    rw [Option.some.inj he]
    exact hne
  · exact fun h => ⟨error, rfl, h⟩

theorem checkIdOf_failed {heap : Buf} {own got : Option Buf} {natoa : Option Sockaddr} {error : ℤ}
    (h : checkIdOf heap own got natoa = .failed error) : error ≠ 0 := by
  cases got with
  | none => cases h
  | some got =>
    rw [checkIdOf, checkId] at h
    cases hown : ipsecdoiId2sockaddr heap own with
    | null =>
      rw [hown] at h
      cases h
    | error e =>
      rw [hown] at h
      cases h
      exact ipsecdoiId2sockaddr_error hown
    | addr saddr plen ulProto =>
      rw [hown] at h
      cases hgot : ipsecdoiId2sockaddr heap (some got) with
      | null =>
        rw [hgot] at h
        cases h
      | error e =>
        rw [hgot] at h
        cases h
        exact ipsecdoiId2sockaddr_error hgot
      | addr saddr' plen' ulProto' =>
        rw [hgot] at h
        dsimp only at h
        split_ifs at h <;> cases h <;> decide

theorem checkIds_failed {heap : Buf} {ids : List Buf} {error : ℤ}
    (h : checkIds heap q ids = .failed error) : error ≠ 0 := by
  unfold checkIds at h
  cases hci : checkIdOf heap q.id ids[0]? q.natoaSrc with
  | null =>
    rw [hci] at h
    cases h
  | failed e =>
    rw [hci] at h
    cases h
    exact checkIdOf_failed hci
  | matched natoaSrc =>
    rw [hci] at h
    cases hcr : checkIdOf heap q.idP ids[1]? q.natoaDst with
    | null =>
      rw [hcr] at h
      cases h
    | failed e =>
      rw [hcr] at h
      cases h
      exact checkIdOf_failed hcr
    | matched natoaDst =>
      rw [hcr] at h
      cases h

/-- The check of the identities changes no more than the ports of the NAT-OAs. -/
theorem checkIds_matched {heap : Buf} {ids : List Buf} {q' : Exchange}
    (h : checkIds heap q ids = .matched q') :
    q'.msgid = q.msgid ∧ q'.nonce = q.nonce ∧ ∀ s, q'.effects s = q.effects s := by
  unfold checkIds at h
  cases hci : checkIdOf heap q.id ids[0]? q.natoaSrc with
  | null =>
    rw [hci] at h
    cases h
  | failed e =>
    rw [hci] at h
    cases h
  | matched natoaSrc =>
    rw [hci] at h
    cases hcr : checkIdOf heap q.idP ids[1]? q.natoaDst with
    | null =>
      rw [hcr] at h
      cases h
    | failed e =>
      rw [hcr] at h
      cases h
    | matched natoaDst =>
      rw [hcr] at h
      cases h
      exact ⟨rfl, rfl, fun _ => rfl⟩

/-- From the check of the hash on. -/
theorem i2Hash_cases {q' : Exchange} (h : q'.effects e.state = e) :
    (i2Hash env q' e.state hash pays).effects = e ∧
      ((i2Hash env q' e.state hash pays).Fails ↔
        (hashMatches hash (env.computeHash1 q'.msgid (q'.nonce ++ hashed pays)) →
          env.checkph2proposal q' < 0)) := by
  unfold i2Hash
  split_ifs with hhash hproposal
  · refine ⟨i2End_effects _ e h, ?_⟩
    rw [i2End_fails]
    refine ⟨fun _ hm => ?_, fun _ => by decide⟩
    rw [hm] at hhash
    exact absurd hhash (by decide)
  · refine ⟨i2End_effects _ e h, ?_⟩
    rw [i2End_fails]
    exact ⟨fun _ _ => hproposal, fun _ => by decide⟩
  · refine ⟨h, ?_⟩
    constructor
    · rintro ⟨error, herror, hne⟩
      exact absurd (Option.some.inj herror).symm hne
    · exact fun hall => absurd (hall (by simpa using hhash)) hproposal

theorem i2Body_afterLoop :
    AfterLoop env q i2Rules (i2Start q s) pays (i2Body env q s hash pays) (I2Last env q hash pays) := by
  have hkept : ∀ p : Progress, (i2Kept q p).effects p.effects.state = p.effects := fun _ => rfl
  constructor
  · intro heq
    unfold i2Body
    rw [heq]
    rintro ⟨e, he, -⟩
    cases he
  · intro p heq
    unfold i2Body
    rw [heq]
    exact ⟨i2End_effects _ _ (hkept p), i2End_fails _ _ _⟩
  · intro hfits heq
    have hzero : (kept env q (i2Start q s) pays).error = 0 ↔ Addressed pays := by
      rw [kept_error hfits]
      exact or_iff_right (show ISAKMP_INTERNAL_ERROR ≠ 0 by decide)
    generalize kept env q (i2Start q s) pays = p at heq hzero ⊢
    unfold i2Body
    rw [heq]
    dsimp only
    split_ifs with hmissing
    · refine ⟨i2End_effects _ _ (hkept p), ?_⟩
      rw [i2End_fails, Ne, hzero]
      refine ⟨fun hno => ⟨fun _ => hno, fun hsa hnonce => ?_⟩, fun hall => hall.1 hmissing⟩
      rcases hmissing with hnone | hnone
      · rw [Option.isNone_iff_eq_none.mp hnone] at hsa
        cases hsa
      · rw [Option.isNone_iff_eq_none.mp hnone] at hnonce
        cases hnonce
    · obtain ⟨hsa, hnonce⟩ := isSome_of_not hmissing
      have hlast : I2Last env q hash pays p ↔ checkIds env.heap (i2Kept q p) p.ids ≠ .null ∧
          ∀ q', checkIds env.heap (i2Kept q p) p.ids = .matched q' →
            hashMatches hash (env.computeHash1 q.msgid (q.nonce ++ hashed pays)) →
            env.checkph2proposal q' < 0 :=
        ⟨fun h => h.2 hsa hnonce, fun h => ⟨fun h' => absurd h' hmissing, fun _ _ => h⟩⟩
      rw [hlast]
      cases hids : checkIds env.heap (i2Kept q p) p.ids with
      | null =>
        refine ⟨hkept p, ?_⟩
        constructor
        · rintro ⟨e, he, -⟩
          cases he
        · exact fun h => absurd rfl h.1
      | failed error =>
        refine ⟨i2End_effects _ _ (hkept p), ?_⟩
        rw [i2End_fails]
        constructor
        · exact fun _ => ⟨IdsCheck.noConfusion, fun _ h => IdsCheck.noConfusion h⟩
        · exact fun _ => checkIds_failed hids
      | matched q' =>
        obtain ⟨hmsgid, hnonce', heff⟩ := checkIds_matched hids
        have hq : q'.effects p.effects.state = p.effects := (heff _).trans (hkept p)
        obtain ⟨heffects, hfails⟩ := @i2Hash_cases env hash pays p.effects q' hq
        refine ⟨heffects, ?_⟩
        rw [hfails, hmsgid, hnonce']
        constructor
        · intro h
          refine ⟨IdsCheck.noConfusion, fun q'' heq' hm => ?_⟩
          cases heq'
          exact h hm
        · exact fun h hm => h.2 q' rfl hm

def I2Refusable (env : Env) (q : Exchange) (s : State) (msg0 : Buf) : Prop :=
  q.status = PHASE2ST_MSG1SENT → encrypted msg0 →
    ∀ hash pays, plainPayloads env msg0 = some (hash :: pays) → hash.type = ISAKMP_NPTYPE_HASH →
      LoopRefuses env q i2Rules (i2Start q s) pays (I2Last env q hash pays)

theorem i2End_refuses {error : ℤ} (h : error ≠ 0) : Refuses q s (i2End error q s) :=
  ⟨(i2End_fails error q s).mpr h, i2End_effects error (q.effects s) rfl⟩

theorem quickI2recv_refuses_iff :
    Refuses q s (quickI2recv env q s msg0) ↔ I2Refusable env q s msg0 := by
  unfold quickI2recv I2Refusable
  dsimp only
  split_ifs with hstatus hencrypted
  · exact ⟨fun _ h => absurd h hstatus, fun _ => i2End_refuses (by decide)⟩
  · refine ⟨fun _ _ h => ?_, fun _ => i2End_refuses (by decide)⟩
    rw [h] at hencrypted
    exact absurd hencrypted (by decide)
  · have hin : q.status = PHASE2ST_MSG1SENT ∧ encrypted msg0 := ⟨not_not.mp hstatus, by
      simpa using hencrypted⟩
    cases hplain : plainPayloads env msg0 with
    | none => exact ⟨fun _ _ _ hash pays h => absurd h (by simp), fun _ => i2End_refuses (by decide)⟩
    | some all =>
      cases all with
      | nil => exact ⟨fun _ _ _ hash pays h => absurd h (by simp), fun _ => i2End_refuses (by decide)⟩
      | cons hash pays =>
        dsimp only
        split_ifs with htype
        · refine ⟨fun _ _ _ hash' pays' h htype' => ?_, fun _ => i2End_refuses (by decide)⟩
          obtain ⟨rfl, rfl⟩ := List.cons.inj (Option.some.inj h)
          exact absurd htype' htype
        · rw [refuses_iff_loop i2Rules_errors (show ISAKMP_INTERNAL_ERROR ≠ 0 by decide) rfl
            i2Body_afterLoop]
          constructor
          · intro hloop _ _ hash' pays' h _
            obtain ⟨rfl, rfl⟩ := List.cons.inj (Option.some.inj h)
            exact hloop
          · exact fun hall => hall hin.1 hin.2 hash pays rfl (not_not.mp htype)

/-! ### The loop of the messages with a hash alone -/

def ofHashOrN (pa : IsakmpParse) : Bool :=
  pa.type = ISAKMP_NPTYPE_HASH || pa.type = ISAKMP_NPTYPE_N

/-- The payloads before the first one of another type. -/
def carried (pays : List IsakmpParse) : List IsakmpParse := pays.takeWhile ofHashOrN

def lastHash (pays : List IsakmpParse) : Option IsakmpParse :=
  (pays.filter fun pa => pa.type = ISAKMP_NPTYPE_HASH).getLast?

def firstNotify (pays : List IsakmpParse) : Option IsakmpParse :=
  pays.find? fun pa => pa.type = ISAKMP_NPTYPE_N

theorem kind_n_iff {pa : IsakmpParse} : kind pa = some .n ↔ pa.type = ISAKMP_NPTYPE_N := by
  unfold kind
  split_ifs with h1 h2 h3 h4 h5 h6 <;> simp_all <;> decide

theorem kind_hash {pa : IsakmpParse} (h : pa.type = ISAKMP_NPTYPE_HASH) : kind pa ≠ some .n := by
  rw [Ne, kind_n_iff, h]
  decide

variable {one : Bool} {f : Found}

theorem hashLoop_whole : (hashLoop env q one pays f).1 = pays.all ofHashOrN := by
  induction pays generalizing f with
  | nil => rfl
  | cons pa pays ih =>
    rw [hashLoop, List.all_cons, ofHashOrN]
    split_ifs with hhash hn hone
    · rw [ih, decide_eq_true hhash]
      rfl
    · rw [ih, decide_eq_true hn, Bool.or_true]
      rfl
    · rw [ih, decide_eq_true hn, Bool.or_true]
      rfl
    · rw [decide_eq_false hhash, decide_eq_false hn]
      rfl

theorem carried_cons_pos {pa : IsakmpParse} (h : ofHashOrN pa) :
    carried (pa :: pays) = pa :: carried pays := List.takeWhile_cons_of_pos h

theorem carried_cons_neg {pa : IsakmpParse} (h : ¬ofHashOrN pa) : carried (pa :: pays) = [] :=
  List.takeWhile_cons_of_neg h

theorem carried_whole (h : pays.all ofHashOrN) : carried pays = pays :=
  List.takeWhile_eq_self_iff.mpr (List.all_eq_true.mp h)

theorem ofHashOrN_hash {pa : IsakmpParse} (h : pa.type = ISAKMP_NPTYPE_HASH) : ofHashOrN pa := by
  rw [ofHashOrN, decide_eq_true h]
  rfl

theorem ofHashOrN_n {pa : IsakmpParse} (h : pa.type = ISAKMP_NPTYPE_N) : ofHashOrN pa := by
  rw [ofHashOrN, decide_eq_true h, Bool.or_true]

theorem ofHashOrN_other {pa : IsakmpParse} (hhash : ¬pa.type = ISAKMP_NPTYPE_HASH)
    (hn : ¬pa.type = ISAKMP_NPTYPE_N) : ¬ofHashOrN pa := by
  rw [ofHashOrN, decide_eq_false hhash, decide_eq_false hn]
  decide

theorem lastHash_cons_pos {pa : IsakmpParse} (h : pa.type = ISAKMP_NPTYPE_HASH) :
    lastHash (pa :: pays) = (lastHash pays).or (some pa) := by
  rw [lastHash, List.filter_cons_of_pos (by simpa using h), List.getLast?_cons, lastHash]
  cases (pays.filter fun pa => pa.type = ISAKMP_NPTYPE_HASH).getLast? <;> rfl

theorem lastHash_cons_neg {pa : IsakmpParse} (h : ¬pa.type = ISAKMP_NPTYPE_HASH) :
    lastHash (pa :: pays) = lastHash pays := by
  rw [lastHash, List.filter_cons_of_neg (by simpa using h), lastHash]

theorem hashLoop_hash :
    (hashLoop env q one pays f).2.hash = (lastHash (carried pays)).or f.hash := by
  induction pays generalizing f with
  | nil => rfl
  | cons pa pays ih =>
    rw [hashLoop]
    split_ifs with hhash hn hone
    · rw [ih, carried_cons_pos (ofHashOrN_hash hhash), lastHash_cons_pos hhash, Option.or_assoc]
      rfl
    · rw [ih, carried_cons_pos (ofHashOrN_n hn), lastHash_cons_neg hhash]
    · rw [ih, carried_cons_pos (ofHashOrN_n hn), lastHash_cons_neg hhash]
    · rw [carried_cons_neg (ofHashOrN_other hhash hn)]
      rfl

theorem notified_cons_n {pa : IsakmpParse} (h : pa.type = ISAKMP_NPTYPE_N) :
    notified env q e (pa :: pays) = notified env q (ph2RecvN env q pa.ptr e) pays := by
  rw [notified, List.foldl_cons, if_pos (kind_n_iff.mpr h), notified]

theorem notified_cons_hash {pa : IsakmpParse} (h : pa.type = ISAKMP_NPTYPE_HASH) :
    notified env q e (pa :: pays) = notified env q e pays := by
  rw [notified, List.foldl_cons, if_neg (kind_hash h), notified]

/-- `quick_r3recv` acts on all notifications. -/
theorem hashLoop_effects : (hashLoop env q false pays f).2.effects =
    notified env q f.effects (carried pays) := by
  induction pays generalizing f with
  | nil => rfl
  | cons pa pays ih =>
    rw [hashLoop]
    split_ifs with hhash hn hone
    · rw [ih, carried_cons_pos (ofHashOrN_hash hhash), notified_cons_hash hhash]
    · exact absurd hone.1 (by decide)
    · rw [ih, carried_cons_pos (ofHashOrN_n hn), notified_cons_n hn]
    · rw [carried_cons_neg (ofHashOrN_other hhash hn)]
      rfl

theorem firstNotify_cons_hash {pa : IsakmpParse} (h : pa.type = ISAKMP_NPTYPE_HASH) :
    firstNotify (pa :: pays) = firstNotify pays := by
  rw [firstNotify, List.find?_cons_of_neg (by rw [h]; decide), firstNotify]

theorem firstNotify_cons_n {pa : IsakmpParse} (h : pa.type = ISAKMP_NPTYPE_N) :
    firstNotify (pa :: pays) = some pa := by
  rw [firstNotify, List.find?_cons_of_pos (by simpa using h)]

/-- `quick_i3recv` keeps the first notification, and acts on that one. -/
theorem hashLoop_first : (hashLoop env q true pays f).2.notify =
      f.notify.or (firstNotify (carried pays)) ∧
    (hashLoop env q true pays f).2.effects =
      if f.notify.isSome then f.effects
      else notified env q f.effects (firstNotify (carried pays)).toList := by
  induction pays generalizing f with
  | nil =>
    constructor
    · exact (Option.or_none).symm
    · split_ifs <;> rfl
  | cons pa pays ih =>
    rw [hashLoop]
    by_cases hhash : pa.type = ISAKMP_NPTYPE_HASH
    · rw [if_pos hhash, carried_cons_pos (ofHashOrN_hash hhash), firstNotify_cons_hash hhash]
      exact @ih { f with hash := some pa }
    rw [if_neg hhash]
    by_cases hn : pa.type = ISAKMP_NPTYPE_N
    · rw [if_pos hn, carried_cons_pos (ofHashOrN_n hn), firstNotify_cons_n hn]
      cases hnotify : f.notify with
      | some n =>
        obtain ⟨hn', heff⟩ := @ih f
        rw [hnotify] at hn' heff
        rw [if_pos ⟨rfl, rfl⟩]
        exact ⟨hn', heff⟩
      | none =>
        obtain ⟨hn', heff⟩ :=
          @ih { f with
            notify := some pa
            effects := ph2RecvN env q pa.ptr f.effects }
        rw [if_neg fun h => absurd h.2 (by decide), if_neg (by decide), hn', heff]
        exact ⟨rfl, (@notified_cons_n env q [] f.effects pa hn).symm⟩
    · rw [if_neg hn, carried_cons_neg (ofHashOrN_other hhash hn)]
      constructor
      · exact (Option.or_none).symm
      · split_ifs <;> rfl

theorem returns_effects {q' : Exchange} (error : ℤ) : (f.returns q' error).effects = f.effects := rfl

theorem returns_fails {q' : Exchange} (error : ℤ) : (f.returns q' error).Fails ↔ error ≠ 0 := by
  constructor
  · rintro ⟨e, he, hne⟩
    rw [Option.some.inj he]
    exact hne
  · exact fun h => ⟨error, rfl, h⟩

theorem returns_refuses_iff {error : ℤ} (h : error ≠ 0) :
    Refuses q s (f.returns q error) ↔ f.effects = q.effects s := by
  rw [Refuses, Unchanged, returns_effects, returns_fails]
  exact and_iff_right h

/-! ### quick_i3recv -/

def I3Verified (env : Env) (q : Exchange) (msg0 : Buf) : Prop :=
  ∃ pays hash notify, plainPayloads env msg0 = some pays ∧ lastHash pays = some hash ∧
    firstNotify pays = some notify ∧
    FullHash hash (env.computeHash1 q.msgid (memcpy notify.ptr notify.len))

/-- Where the kernel takes the associations. -/
def Installs (env : Env) : Prop := env.fLocal ∨ 0 ≤ env.pkSendupdate ∧ 0 ≤ env.pkSendadd

/-- The first notification is quiet. With a hash there is one, and `memcmp` finds a
    difference or the kernel does not take the associations. -/
structure I3Quiet (env : Env) (q : Exchange) (s : State) (pays : List IsakmpParse) : Prop where
  quiet : Quiet env q (q.effects s) (firstNotify (carried pays)).toList
  last : pays.all ofHashOrN → ∀ hash, lastHash pays = some hash →
    ∃ notify, firstNotify pays = some notify ∧
      (hashMatches hash (env.computeHash1 q.msgid (memcpy notify.ptr notify.len)) → ¬Installs env)

theorem i3Hash_cases {notify : IsakmpParse} : (i3Hash env q f hash notify).effects = f.effects ∧
    ((i3Hash env q f hash notify).Fails ↔
      (hashMatches hash (env.computeHash1 q.msgid (memcpy notify.ptr notify.len)) →
        ¬Installs env)) := by
  unfold i3Hash Installs
  dsimp only
  split_ifs with hhash hlocal hupdate hadd
  · rw [returns_fails]
    refine ⟨rfl, fun _ hm => ?_, fun _ => by decide⟩
    rw [hm] at hhash
    exact absurd hhash (by decide)
  · rw [returns_fails]
    exact ⟨rfl, fun h => absurd rfl h, fun h => absurd (.inl hlocal) (h (by simpa using hhash))⟩
  · rw [returns_fails]
    refine ⟨rfl, fun _ _ hi => ?_, fun _ => by decide⟩
    rcases hi with hl | hi
    · exact hlocal hl
    · omega
  · rw [returns_fails]
    refine ⟨rfl, fun _ _ hi => ?_, fun _ => by decide⟩
    rcases hi with hl | hi
    · exact hlocal hl
    · omega
  · rw [returns_fails]
    refine ⟨rfl, fun h => absurd rfl h, fun h => ?_⟩
    exact absurd (.inr ⟨by omega, by omega⟩) (h (by simpa using hhash))

theorem i3Body_refuses_iff : Refuses q s (i3Body env q s pays) ↔ I3Quiet env q s pays := by
  obtain ⟨hnotify, heffects⟩ := @hashLoop_first env q pays (noneFound q s)
  have hwhole := @hashLoop_whole env q pays true (noneFound q s)
  have hhash := @hashLoop_hash env q pays true (noneFound q s)
  rw [show (noneFound q s).notify = none from rfl, Option.none_or] at hnotify
  rw [show (noneFound q s).notify = none from rfl, if_neg (by decide)] at heffects
  rw [show (noneFound q s).hash = none from rfl, Option.or_none] at hhash
  have hquiet : (hashLoop env q true pays (noneFound q s)).2.effects = q.effects s ↔
      Quiet env q (q.effects s) (firstNotify (carried pays)).toList := by
    rw [heffects]
    exact notified_eq_iff
  unfold i3Body
  generalize hashLoop env q true pays (noneFound q s) = found at *
  obtain ⟨whole, f⟩ := found
  dsimp only at *
  split_ifs with hnot
  · rw [returns_refuses_iff (by decide), hquiet]
    refine ⟨fun h => ⟨h, fun hall => ?_⟩, fun h => h.quiet⟩
    rw [hwhole, hall] at hnot
    exact absurd hnot (by decide)
  · have hall : pays.all ofHashOrN := by
      rw [← hwhole]
      simpa using hnot
    rw [carried_whole hall] at hnotify hhash hquiet
    have hcarried := carried_whole hall
    cases hh : f.hash with
    | none =>
      rw [returns_refuses_iff (by decide), hquiet]
      refine ⟨fun h => ⟨by rw [hcarried]; exact h, fun _ hash hlast => ?_⟩, fun h => hcarried ▸ h.quiet⟩
      rw [← hhash, hh] at hlast
      cases hlast
    | some hash =>
      cases hf : f.notify with
      | none =>
        constructor
        · rintro ⟨⟨e, he, -⟩, -⟩
          cases he
        · intro h
          obtain ⟨notify, hsome, -⟩ := h.last hall hash (hhash.symm.trans hh)
          rw [← hnotify, hf] at hsome
          cases hsome
      | some notify =>
        obtain ⟨heff, hfails⟩ := @i3Hash_cases env q hash f notify
        dsimp only
        rw [Refuses, Unchanged, heff, hfails, hquiet]
        constructor
        · rintro ⟨hlast, hq⟩
          refine ⟨by rw [hcarried]; exact hq, fun _ hash' hlast' => ?_⟩
          refine ⟨notify, hnotify.symm.trans hf, ?_⟩
          obtain rfl : hash = hash' := Option.some.inj (hh.symm.trans (hhash.trans hlast'))
          exact hlast
        · intro h
          obtain ⟨notify', hsome, hm⟩ := h.last hall hash (hhash.symm.trans hh)
          obtain rfl : notify = notify' := Option.some.inj (hf.symm.trans (hnotify.trans hsome))
          exact ⟨hm, hcarried ▸ h.quiet⟩

def I3Refusable (env : Env) (q : Exchange) (s : State) (msg0 : Buf) : Prop :=
  q.status = PHASE2ST_COMMIT → encrypted msg0 →
    ∀ pays, plainPayloads env msg0 = some pays → I3Quiet env q s pays

theorem fail_refuses : Refuses q s
    { error := some ISAKMP_INTERNAL_ERROR
      exchange := q
      state := s } :=
  ⟨⟨ISAKMP_INTERNAL_ERROR, rfl, by decide⟩, rfl⟩

theorem quickI3recv_refuses_iff :
    Refuses q s (quickI3recv env q s msg0) ↔ I3Refusable env q s msg0 := by
  unfold quickI3recv I3Refusable
  dsimp only
  split_ifs with hstatus hencrypted
  · exact ⟨fun _ h => absurd h hstatus, fun _ => fail_refuses⟩
  · refine ⟨fun _ _ h => ?_, fun _ => fail_refuses⟩
    rw [h] at hencrypted
    exact absurd hencrypted (by decide)
  · cases hplain : plainPayloads env msg0 with
    | none => exact ⟨fun _ _ _ pays h => absurd h (by simp), fun _ => fail_refuses⟩
    | some pays =>
      dsimp only
      rw [i3Body_refuses_iff]
      constructor
      · intro h _ _ pays' heq
        rw [← Option.some.inj heq]
        exact h
      · exact fun h => h (not_not.mp hstatus) (by simpa using hencrypted) pays rfl

/-! ### quick_r3recv -/

def R3Verified (env : Env) (q : Exchange) (msg0 : Buf) : Prop :=
  ∃ pays hash nonceP, plainPayloads env msg0 = some pays ∧ lastHash pays = some hash ∧
    q.nonceP = some nonceP ∧ FullHash hash (env.computeHash3 q.msgid (nonceP ++ q.nonce))

/-- All notifications are quiet. With a hash there is a nonce of the initiator, and
    `memcmp` finds a difference. -/
structure R3Quiet (env : Env) (q : Exchange) (s : State) (pays : List IsakmpParse) : Prop where
  quiet : Quiet env q (q.effects s) (carried pays)
  last : pays.all ofHashOrN → ∀ hash, lastHash pays = some hash →
    ∃ nonceP, q.nonceP = some nonceP ∧
      ¬hashMatches hash (env.computeHash3 q.msgid (nonceP ++ q.nonce))

theorem r3Hash_cases {nonceP : Buf} : (r3Hash env q f hash nonceP).effects = f.effects ∧
    ((r3Hash env q f hash nonceP).Fails ↔
      ¬hashMatches hash (env.computeHash3 q.msgid (nonceP ++ q.nonce))) ∧
    ((r3Hash env q f hash nonceP).error = some 0 ↔
      hashMatches hash (env.computeHash3 q.msgid (nonceP ++ q.nonce))) := by
  unfold r3Hash
  by_cases hm : hashMatches hash (env.computeHash3 q.msgid (nonceP ++ q.nonce))
  · rw [hm, if_neg (by decide), returns_fails]
    exact ⟨rfl, ⟨fun h => absurd rfl h, fun h => absurd rfl h⟩, fun _ => rfl, fun _ => rfl⟩
  · rw [if_pos (by simpa using hm), returns_fails]
    refine ⟨rfl, ⟨fun _ => hm, fun _ => by decide⟩, fun h => ?_, fun h => absurd h hm⟩
    exact absurd (Option.some.inj h) (by decide)

/-- The payloads, the hash and the nonce with which `quick_r3recv` returns 0. -/
def R3Accepts (env : Env) (q : Exchange) (pays : List IsakmpParse) : Prop :=
  pays.all ofHashOrN ∧ ∃ hash nonceP, lastHash pays = some hash ∧ q.nonceP = some nonceP ∧
    hashMatches hash (env.computeHash3 q.msgid (nonceP ++ q.nonce))

theorem r3Accepts_iff {nonceP : Buf} (hall : pays.all ofHashOrN) (hlast : lastHash pays = some hash)
    (hnonce : q.nonceP = some nonceP) : R3Accepts env q pays ↔
      hashMatches hash (env.computeHash3 q.msgid (nonceP ++ q.nonce)) := by
  constructor
  · rintro ⟨-, hash', nonceP', hlast', hnonce', hm⟩
    rw [hlast] at hlast'
    rw [hnonce] at hnonce'
    cases hlast'
    cases hnonce'
    exact hm
  · exact fun hm => ⟨hall, hash, nonceP, hlast, hnonce, hm⟩

theorem r3Quiet_iff {nonceP : Buf} (hall : pays.all ofHashOrN) (hlast : lastHash pays = some hash)
    (hnonce : q.nonceP = some nonceP) : R3Quiet env q s pays ↔
      Quiet env q (q.effects s) (carried pays) ∧
        ¬hashMatches hash (env.computeHash3 q.msgid (nonceP ++ q.nonce)) := by
  constructor
  · intro h
    obtain ⟨nonceP', hnonce', hm⟩ := h.last hall hash hlast
    rw [hnonce] at hnonce'
    cases hnonce'
    exact ⟨h.quiet, hm⟩
  · rintro ⟨hq, hm⟩
    refine ⟨hq, fun _ hash' hlast' => ⟨nonceP, hnonce, ?_⟩⟩
    rw [hlast] at hlast'
    cases hlast'
    exact hm

/-- Where nothing is found to check, the function returns an error or reads through a
    NULL pointer. -/
theorem r3Body_unchecked {r : Received} (hr : r.error ≠ some 0)
    (hno : ¬(pays.all ofHashOrN ∧ ∃ hash nonceP, lastHash pays = some hash ∧
      q.nonceP = some nonceP)) :
    (r.error = some 0 ↔ R3Accepts env q pays) ∧
      (r.error = some 0 → r.effects = notified env q (q.effects s) (carried pays)) := by
  refine ⟨⟨fun h => absurd h hr, ?_⟩, fun h => absurd h hr⟩
  rintro ⟨hall, hash, nonceP, hlast, hnonce, -⟩
  exact absurd ⟨hall, hash, nonceP, hlast, hnonce⟩ hno

/-- The ways through `quick_r3recv` after the loop. -/
theorem r3Body_cases (env : Env) (q : Exchange) (s : State) (pays : List IsakmpParse) :
    (Refuses q s (r3Body env q s pays) ↔ R3Quiet env q s pays) ∧
      ((r3Body env q s pays).error = some 0 ↔ R3Accepts env q pays) ∧
      ((r3Body env q s pays).error = some 0 →
        (r3Body env q s pays).effects = notified env q (q.effects s) (carried pays)) := by
  have heffects := @hashLoop_effects env q pays (noneFound q s)
  have hwhole := @hashLoop_whole env q pays false (noneFound q s)
  have hhash := @hashLoop_hash env q pays false (noneFound q s)
  rw [show (noneFound q s).hash = none from rfl, Option.or_none] at hhash
  rw [show (noneFound q s).effects = q.effects s from rfl] at heffects
  unfold r3Body
  generalize hashLoop env q false pays (noneFound q s) = found at *
  obtain ⟨whole, f⟩ := found
  dsimp only at *
  have hquiet : f.effects = q.effects s ↔ Quiet env q (q.effects s) (carried pays) := by
    rw [heffects]
    exact notified_eq_iff
  have hinternal : (f.returns q ISAKMP_INTERNAL_ERROR).error ≠ some 0 := fun h =>
    absurd (Option.some.inj h) (by decide)
  split_ifs with hnot
  · have hall : ¬pays.all ofHashOrN := by
      rw [← hwhole]
      simpa using hnot
    refine ⟨?_, r3Body_unchecked hinternal fun h => hall h.1⟩
    rw [returns_refuses_iff (by decide), hquiet]
    exact ⟨fun h => ⟨h, fun h' => absurd h' hall⟩, fun h => h.quiet⟩
  · have hall : pays.all ofHashOrN := by
      rw [← hwhole]
      simpa using hnot
    rw [carried_whole hall] at hhash
    cases hh : f.hash with
    | none =>
      rw [hh] at hhash
      have hno : ∀ hash, lastHash pays ≠ some hash := by
        intro hash h
        rw [← hhash] at h
        cases h
      refine ⟨?_, r3Body_unchecked hinternal ?_⟩
      · rw [returns_refuses_iff (by decide), hquiet]
        exact ⟨fun h => ⟨h, fun _ hash hlast => absurd hlast (hno hash)⟩, fun h => h.quiet⟩
      · rintro ⟨-, hash, -, hlast, -⟩
        exact hno hash hlast
    | some hash =>
      rw [hh] at hhash
      cases hn : q.nonceP with
      | none =>
        refine ⟨⟨?_, fun h => ?_⟩, r3Body_unchecked (Option.some_ne_none 0).symm ?_⟩
        · rintro ⟨⟨e, he, -⟩, -⟩
          cases he
        · obtain ⟨nonceP, hsome, -⟩ := h.last hall hash hhash.symm
          rw [hn] at hsome
          cases hsome
        · rintro ⟨-, -, nonceP, -, hsome⟩
          rw [hn] at hsome
          cases hsome
      | some nonceP =>
        obtain ⟨heff, hfails, hzero⟩ := @r3Hash_cases env q hash f nonceP
        dsimp only
        rw [r3Accepts_iff hall hhash.symm hn, r3Quiet_iff hall hhash.symm hn, Refuses, Unchanged,
          heff, hfails, hquiet]
        exact ⟨and_comm, hzero, fun _ => heffects⟩

def R3Refusable (env : Env) (q : Exchange) (s : State) (msg0 : Buf) : Prop :=
  q.status = PHASE2ST_MSG1SENT → encrypted msg0 →
    ∀ pays, plainPayloads env msg0 = some pays → R3Quiet env q s pays

theorem quickR3recv_refuses_iff :
    Refuses q s (quickR3recv env q s msg0) ↔ R3Refusable env q s msg0 := by
  unfold quickR3recv R3Refusable
  dsimp only
  split_ifs with hstatus hencrypted
  · exact ⟨fun _ h => absurd h hstatus, fun _ => fail_refuses⟩
  · refine ⟨fun _ _ h => ?_, fun _ => fail_refuses⟩
    rw [h] at hencrypted
    exact absurd hencrypted (by decide)
  · cases hplain : plainPayloads env msg0 with
    | none => exact ⟨fun _ _ _ pays h => absurd h (by simp), fun _ => fail_refuses⟩
    | some pays =>
      dsimp only
      rw [(r3Body_cases env q s pays).1]
      constructor
      · intro h _ _ pays' heq
        rw [← Option.some.inj heq]
        exact h
      · exact fun h => h (not_not.mp hstatus) (by simpa using hencrypted) pays rfl

/-- HASH(3) is over the nonces. A message it is right for leaves everything as it is
    where its notifications are quiet. -/
def R3Alone (env : Env) (q : Exchange) (s : State) (msg0 : Buf) : Prop :=
  q.status = PHASE2ST_MSG1SENT → encrypted msg0 →
    ∀ pays, plainPayloads env msg0 = some pays → R3Accepts env q pays →
      Quiet env q (q.effects s) pays

theorem quickR3recv_unchanged_iff :
    ((quickR3recv env q s msg0).error = some 0 → Unchanged q s (quickR3recv env q s msg0)) ↔
      R3Alone env q s msg0 := by
  unfold quickR3recv R3Alone
  dsimp only
  split_ifs with hstatus hencrypted
  · exact ⟨fun _ h => absurd h hstatus, fun _ h => absurd (Option.some.inj h) (by decide)⟩
  · refine ⟨fun _ _ h => ?_, fun _ h => absurd (Option.some.inj h) (by decide)⟩
    rw [h] at hencrypted
    exact absurd hencrypted (by decide)
  · cases hplain : plainPayloads env msg0 with
    | none =>
      refine ⟨fun _ _ _ pays h => absurd h (by simp), fun _ h => ?_⟩
      exact absurd (Option.some.inj h) (by decide)
    | some pays =>
      dsimp only
      obtain ⟨-, hzero, heffects⟩ := r3Body_cases env q s pays
      constructor
      · intro h _ _ pays' heq haccepts
        obtain rfl : pays = pays' := Option.some.inj heq
        have h0 := hzero.mpr haccepts
        have hun := h h0
        rw [Unchanged, heffects h0, carried_whole haccepts.1] at hun
        exact notified_eq_iff.mp hun
      · intro h h0
        have haccepts := hzero.mp h0
        rw [Unchanged, heffects h0, carried_whole haccepts.1]
        exact notified_eq_iff.mpr
          (h (not_not.mp hstatus) (by simpa using hencrypted) pays rfl haccepts)

/-! ### All four -/

/-- Each function accepts only an authentic message, and refuses another one without
    a trace, exactly where the message is authentic or its payloads let the function
    refuse it so. In `quick_r3recv` the notifications are in no hash. -/
theorem quickRecv_sound_iff (env : Env) (q : Exchange) (s : State) (msg0 : Buf) :
    (Sound (R1Verified env q msg0) q s (quickR1recv env q s msg0) ↔
      R1Verified env q msg0 ∨ R1Refusable env q s msg0) ∧
    (Sound (I2Verified env q msg0) q s (quickI2recv env q s msg0) ↔
      I2Verified env q msg0 ∨ I2Refusable env q s msg0) ∧
    (Sound (I3Verified env q msg0) q s (quickI3recv env q s msg0) ↔
      I3Verified env q msg0 ∨ I3Refusable env q s msg0) ∧
    (Sound (R3Verified env q msg0) q s (quickR3recv env q s msg0) ∧
        ((quickR3recv env q s msg0).error = some 0 →
          Unchanged q s (quickR3recv env q s msg0)) ↔
      (R3Verified env q msg0 ∨ R3Refusable env q s msg0) ∧ R3Alone env q s msg0) := by
  refine ⟨?_, ?_, ?_, ?_⟩
  · rw [sound_iff, quickR1recv_refuses_iff]
  · rw [sound_iff, quickI2recv_refuses_iff]
  · rw [sound_iff, quickI3recv_refuses_iff]
  · rw [sound_iff, quickR3recv_refuses_iff, quickR3recv_unchanged_iff]

/-! ### A repeated nonce behind a NAT-OA -/

/-- A responder before its first message, and what it meets. -/
def responder : Exchange :=
  { addr := 2
    status := PHASE2ST_START
    msgid := [0, 0, 0, 9]
    nonce := []
    sa := none
    saRet := none
    nonceP := none
    dhpubP := none
    id := none
    idP := none
    natoaSrc := none
    natoaDst := none
    msg1 := none
    commit := false
    approval := false
    sainfoLifetime := none
    lifetimeSecs := 0
    lifetimeKb := 0 }

def responderEnv : Env :=
  { iph1 := Handles.gateway
    pcheckLevel := some .EXACT
    decrypt := some
    computeHash1 := fun _ _ => List.replicate 16 7
    computeHash3 := fun _ _ => List.replicate 16 7
    heap := []
    dump := true
    fLocal := false
    getSainfoR := fun _ => 0
    getProposalR := fun _ => 0
    setProposalFromProposal := fun _ => 0
    selectph2proposal := fun _ => 0
    pfsGroup := fun _ => 0
    checkph2proposal := fun _ => 0
    pkSendupdate := 0
    pkSendadd := 0 }

/-- A HASH payload that does not hold the hash. -/
def wrongHash : Buf := [1, 0] ++ short 20 ++ List.replicate 16 8

/-- An SA, a NAT-OA and two nonces. -/
def repeatedNonce : Buf :=
  Handles.gateway.index ++ [8, 0x10, 32, 1, 0, 0, 0, 9] ++ short 0 ++ short 84 ++ wrongHash ++
    [21, 0] ++ short 8 ++ [0, 0, 0, 1] ++
    [10, 0] ++ short 12 ++ [1, 0, 0, 0, 10, 0, 0, 1] ++
    [10, 0] ++ short 8 ++ [1, 2, 3, 4] ++ [0, 0] ++ short 8 ++ [5, 6, 7, 8]

theorem repeatedNonce_accepted :
    (quickR1recv responderEnv responder Handles.gatewayState repeatedNonce).error = some 0 ∧
      ¬Sound (R1Verified responderEnv responder repeatedNonce) responder Handles.gatewayState
        (quickR1recv responderEnv responder Handles.gatewayState repeatedNonce) := by
  have hzero : (quickR1recv responderEnv responder Handles.gatewayState repeatedNonce).error =
      some 0 := by decide +kernel
  refine ⟨hzero, fun hsound => ?_⟩
  obtain ⟨hash, pays, hplain, -, hfull⟩ := hsound.1 hzero
  have hhead : (plainPayloads responderEnv repeatedNonce).bind List.head? =
      some ⟨8, wrongHash ++ repeatedNonce.drop 48, 20⟩ := by decide +kernel
  rw [hplain] at hhead
  obtain rfl := Option.some.inj hhead
  have hno : hashMatches ⟨8, wrongHash ++ repeatedNonce.drop 48, 20⟩ (List.replicate 16 7) =
      false := by decide +kernel
  exact Bool.false_ne_true (hno.symm.trans hfull.2)

end WanStack.Racoon.Quick
