import WanStack.Aftr.FilterLoops
import WanStack.Aftr.Names
import WanStack.Lib.BitPrefix

set_option autoImplicit false

/-!
# Prefix entries

The commands `acl6`, `default private` and `nonat`, and what the entries they make
match: the access lists, and the no-NAT prefixes in both directions.
-/
namespace WanStack.Aftr.Filter
open BitPrefix

/-! ### The commands -/

/-- Some bit of the address is outside the mask. -/
def badPrefix (n : ℕ) (addr mask : Buf) : Bool :=
  (List.range n).any fun i => byteAt addr i &&& ~~~byteAt mask i != 0

/-- `add_acl6` and `add_private`: nothing to do when the entry is there. -/
def addAcl (mem : Bool) (e : Acl) (l : List Acl) : List Acl × Bool :=
  if e ∈ l then (l, true)
  else if !mem then (l, false)
  else (l ++ [e], true)

def cmdAcl6 (mem : Bool) (addr : Vector UInt8 16) (plen : ℤ) (l : List Acl) : List Acl × Bool :=
  if plen < 0 ∨ plen > 128 then (l, false)
  else if badPrefix 16 addr.toList (mask6Bytes plen.toNat) then (l, false)
  else addAcl mem ⟨addr.toList, mask6Bytes plen.toNat⟩ l

def cmdDefaultPrivate (mem : Bool) (addr : Addr4) (plen : ℤ) (l : List Acl) : List Acl × Bool :=
  if plen < 0 ∨ plen > 32 then (l, false)
  else if badPrefix 4 addr.toList (mask4Bytes plen.toNat) then (l, false)
  else addAcl mem ⟨addr.toList, mask4Bytes plen.toNat⟩ l

def addrNat (a : Addr4) : ℕ :=
  (byteAt a.toList 0).toNat * 0x1000000 + (byteAt a.toList 1).toNat * 0x10000 +
    (byteAt a.toList 2).toNat * 0x100 + (byteAt a.toList 3).toNat

/-- This command does not look at the bits outside the mask. -/
def cmdNonat (cfg : Conf) (env : NatEnv) (peer : Addr6) (addr : Addr4) (plen : ℤ) (s : State) :
    State × Bool :=
  if plen < 0 ∨ plen > 32 then (s, false)
  else if s.ctl.reloading then reloadNonat cfg env peer (addrNat addr) plen.toNat s
  else addNonat cfg env peer (addrNat addr) plen.toNat s

structure Site where
  st : State
  acls : Acls

inductive PrefixCmd where
  | acl6 (addr : Vector UInt8 16) (plen : ℤ)
  | defaultPrivate (addr : Addr4) (plen : ℤ)
  | nonat (peer : Addr6) (addr : Addr4) (plen : ℤ)

/-- The site after a command, and whether it was accepted. -/
def PrefixCmd.exec (cfg : Conf) (env : NatEnv) (s : Site) : PrefixCmd → Site × Bool
  | .acl6 addr plen =>
    let r := cmdAcl6 (env.mem 0) addr plen s.acls.acl6s
    ({ s with acls := { s.acls with acl6s := r.1 } }, r.2)
  | .defaultPrivate addr plen =>
    let r := cmdDefaultPrivate (env.mem 0) addr plen s.acls.acl4s
    ({ s with acls := { s.acls with acl4s := r.1 } }, r.2)
  | .nonat peer addr plen =>
    let r := cmdNonat cfg env peer addr plen s.st
    ({ s with st := r.1 }, r.2)

/-! ### Masks -/

def addrBit (b : Buf) (i : ℕ) : Bool := (byteAt b (i / 8)).toNat.testBit (7 - i % 8)

theorem byte_ext {x y : UInt8} (h : ∀ k < 8, x.toNat.testBit k = y.toNat.testBit k) : x = y := by
  apply UInt8.toNat_inj.mp
  apply Nat.eq_of_testBit_eq
  intro k
  rcases Nat.lt_or_ge k 8 with hk | hk
  · exact h k hk
  · have hx : x.toNat < 2 ^ k := x.toNat_lt.trans_le (Nat.pow_le_pow_right (by decide) hk)
    have hy : y.toNat < 2 ^ k := y.toNat_lt.trans_le (Nat.pow_le_pow_right (by decide) hk)
    rw [Nat.testBit_lt_two_pow hx, Nat.testBit_lt_two_pow hy]

/-- The bytes of a buffer by their bits. -/
theorem forall_bytes_iff {n : ℕ} {f g : ℕ → UInt8} :
    (∀ i < n, f i = g i) ↔ ∀ i < 8 * n,
      (f (i / 8)).toNat.testBit (7 - i % 8) = (g (i / 8)).toNat.testBit (7 - i % 8) := by
  constructor
  · intro h i hi
    rw [h (i / 8) (by omega)]
  · intro h i hi
    apply byte_ext
    intro k hk
    have := h (8 * i + (7 - k)) (by omega)
    rw [show (8 * i + (7 - k)) / 8 = i by omega,
      show 7 - (8 * i + (7 - k)) % 8 = k by omega] at this
    exact this

/-- The byte loop of the matchers is the mask on the bits. -/
theorem masked_iff {n l : ℕ} {src mask addr : Buf}
    (hmask : ∀ i < 8 * n, addrBit mask i = decide (i < l)) :
    masked n src mask addr = true ↔ Covers addrBit (8 * n) l addr src := by
  have hall : masked n src mask addr = true ↔
      ∀ i < n, byteAt src i &&& byteAt mask i = byteAt addr i := by
    simp [masked]
  rw [hall, forall_bytes_iff]
  have hand : ∀ i, (byteAt src (i / 8) &&& byteAt mask (i / 8)).toNat.testBit (7 - i % 8) =
      (addrBit src i && addrBit mask i) := by
    intro i
    rw [UInt8.toNat_and, Nat.testBit_and]
    rfl
  constructor
  · intro h i hi
    rw [← hmask i hi, ← hand i]
    exact h i hi
  · intro h i hi
    rw [hand i, hmask i hi]
    exact h i hi

theorem badPrefix_iff {n l : ℕ} {addr mask : Buf}
    (hmask : ∀ i < 8 * n, addrBit mask i = decide (i < l)) :
    badPrefix n addr mask = false ↔ Clear addrBit (8 * n) l addr := by
  have hall : badPrefix n addr mask = false ↔
      ∀ i < n, byteAt addr i &&& byteAt mask i = byteAt addr i := by
    have hbyte : ∀ x m : UInt8, x &&& ~~~m = 0 ↔ x &&& m = x := by
      intro x m
      rw [← UInt8.toBitVec_inj, ← UInt8.toBitVec_inj]
      simp only [UInt8.toBitVec_and, UInt8.toBitVec_not]
      constructor
      · intro h
        ext i hi
        have := congrArg (fun v => v[i]) h
        simp at this ⊢
        exact this
      · intro h
        ext i hi
        have := congrArg (fun v => v[i]) h
        simp at this ⊢
        exact this
    simp [badPrefix, hbyte]
  have hself : masked n addr mask addr = true ↔ Covers addrBit (8 * n) l addr addr :=
    masked_iff hmask
  have hall' : masked n addr mask addr = true ↔
      ∀ i < n, byteAt addr i &&& byteAt mask i = byteAt addr i := by
    simp [masked]
  rw [hall, ← hall', hself]
  constructor
  · intro h i hli hiw
    have := h i hiw
    simpa [Nat.not_lt.mpr hli] using this.symm
  · intro h i hi
    by_cases hil : i < l
    · simp [hil]
    · have := h i (Nat.not_lt.mp hil) hi
      simp [hil, this]

theorem mask4_bit (l : ℕ) (hl : l ≤ 32) :
    ∀ i < 8 * 4, addrBit (mask4Bytes l) i = decide (i < l) := by
  have h : ∀ l : Fin 33, ∀ i : Fin 32, addrBit (mask4Bytes l) i = decide (i.val < l.val) := by
    decide +kernel
  intro i hi
  exact h ⟨l, by omega⟩ ⟨i, hi⟩

theorem mask6_bit (l : ℕ) : ∀ i < 8 * 16, addrBit (mask6Bytes l) i = decide (i < l) := by
  have hbyte : ∀ m : Fin 9, ∀ k : Fin 8,
      (UInt8.ofNat (0xff00 >>> m.val)).toNat.testBit k = decide (8 ≤ k.val + m.val) := by
    decide +kernel
  intro i hi
  have hat : byteAt (mask6Bytes l) (i / 8) = mask6Byte l (i / 8) := by
    simp [byteAt, mask6Bytes, List.getD_eq_getElem?_getD, show i / 8 < 16 by omega]
  rw [addrBit, hat, mask6Byte]
  have := hbyte ⟨min 8 (l - 8 * (i / 8)), by omega⟩ ⟨7 - i % 8, by omega⟩
  rw [this]
  apply decide_eq_decide.mpr
  simp only
  omega

/-- Any single bit of an address can be turned over. -/
theorem flip_bit {n : ℕ} {a : Buf} (ha : a.length = n) :
    ∀ i < 8 * n, ∃ y, ∀ j < 8 * n, addrBit y j = if j = i then !addrBit a j else addrBit a j := by
  intro i hi
  have hxor : ∀ x : UInt8, ∀ k < 8, ∀ m < 8, (x ^^^ UInt8.ofNat (2 ^ k)).toNat.testBit m =
      if m = k then !x.toNat.testBit m else x.toNat.testBit m := by
    intro x k hk m hm
    have hpow : (UInt8.ofNat (2 ^ k)).toNat = 2 ^ k := by
      rw [UInt8.toNat_ofNat']
      exact Nat.mod_eq_of_lt (Nat.pow_lt_pow_right (by decide) hk)
    rw [UInt8.toNat_xor, Nat.testBit_xor, hpow, Nat.testBit_two_pow]
    by_cases hmk : m = k
    · simp [hmk]
    · simp [hmk, Ne.symm hmk]
  refine ⟨a.set (i / 8) (byteAt a (i / 8) ^^^ UInt8.ofNat (2 ^ (7 - i % 8))), fun j hj => ?_⟩
  rw [addrBit, byteAt_set]
  by_cases hbyte : i / 8 = j / 8
  · rw [if_pos ⟨hbyte, by omega⟩, hxor _ _ (by omega) _ (by omega), hbyte]
    by_cases hij : j = i
    · rw [if_pos (by omega), if_pos hij]
      rfl
    · rw [if_neg (by omega), if_neg hij]
      rfl
  · rw [if_neg (fun h => hbyte h.1), if_neg (by omega)]
    rfl

theorem addr4Bytes_addrNat (a : Addr4) : addr4Bytes (addrNat a) = a.toList := by
  obtain ⟨⟨l⟩, hl⟩ := a
  match l, hl with
  | [x, y, z, w], _ =>
    have hx := x.toNat_lt
    have hy := y.toNat_lt
    have hz := z.toNat_lt
    have hw := w.toNat_lt
    simp only [addr4Bytes, addrNat, Vector.toList, byteAt, List.getD_cons_zero,
      List.getD_cons_succ, List.cons.injEq, and_true]
    refine ⟨?_, ?_, ?_, ?_⟩ <;> apply UInt8.toNat_inj.mp <;> rw [UInt8.toNat_ofNat'] <;> omega

/-! ### What the entries match -/

/-- A no-NAT tunnel matches the prefix of `a` in both directions. -/
structure NonatExact (s : Tunnels) (t : Tunnel) (l : ℕ) (a : Buf) : Prop where
  into : ∀ (tc : TunnelConf) (buf4 : Buf),
    nonatin tc s t buf4 = pure none ↔ ¬Agree addrBit l a (buf4.drop IPSRC)
  classified : ∀ buf4 : Buf,
    inNonat s (buf4.drop IPDST) t = true ↔ Agree addrBit l a (buf4.drop IPDST)
  refound : ∀ buf4 : Buf, ((s.nonat t.ptr).isSome && inNonat s (buf4.drop IPDST) t) = true ↔
    Agree addrBit l a (buf4.drop IPDST)

/-- The entry of an accepted command matches the addresses of its prefix and no others. -/
def PrefixCmd.Exact (s : Site) : PrefixCmd → Prop
  | .acl6 addr plen => ∃ e ∈ s.acls.acl6s, e.addr = addr.toList ∧
      ∀ src, masked 16 src e.mask e.addr = true ↔ Agree addrBit plen.toNat addr.toList src
  | .defaultPrivate addr plen => ∃ e ∈ s.acls.acl4s, e.addr = addr.toList ∧
      ∀ src, masked 4 src e.mask e.addr = true ↔ Agree addrBit plen.toNat addr.toList src
  | .nonat peer addr plen => ∃ t ∈ s.st.tuns.nonats, t.remote = peer ∧
      NonatExact s.st.tuns t plen.toNat addr.toList

/-- The address has no bits outside its mask. An entry that a reload keeps must stand for
    the prefix of the command. -/
def PrefixCmd.HoldsWhen (s : Site) : PrefixCmd → Prop
  | .acl6 .. | .defaultPrivate .. => True
  | .nonat peer addr plen =>
    match if s.st.ctl.reloading then s.st.tuns.tunnelTreeFind peer else none with
    | none => badPrefix 4 addr.toList (mask4Bytes plen.toNat) = false
    | some t =>
      mask4Bytes (nndata s.st.tuns t).2 = mask4Bytes plen.toNat ∧
      badPrefix 4 (addr4Bytes (nndata s.st.tuns t).1) (mask4Bytes plen.toNat) = false ∧
      Agree addrBit plen.toNat addr.toList (addr4Bytes (nndata s.st.tuns t).1)

theorem addAcl_mem {mem : Bool} {e : Acl} {l : List Acl} (h : (addAcl mem e l).2 = true) :
    e ∈ (addAcl mem e l).1 := by
  unfold addAcl at h ⊢
  split at h
  · rename_i hin
    rw [if_pos hin]
    exact hin
  · rename_i hin
    split at h
    · simp at h
    · rename_i hmem
      rw [if_neg hin, if_neg hmem]
      exact List.mem_append_right _ (List.mem_singleton.mpr rfl)

theorem cmdAcl6_exact {mem : Bool} {addr : Vector UInt8 16} {plen : ℤ} {l : List Acl}
    (h : (cmdAcl6 mem addr plen l).2 = true) :
    ⟨addr.toList, mask6Bytes plen.toNat⟩ ∈ (cmdAcl6 mem addr plen l).1 ∧
      ∀ src, masked 16 src (mask6Bytes plen.toNat) addr.toList = true ↔
        Agree addrBit plen.toNat addr.toList src := by
  unfold cmdAcl6 at h ⊢
  split at h
  · simp at h
  rename_i hrange
  split at h
  · simp at h
  rename_i hbad
  rw [if_neg hrange, if_neg hbad]
  refine ⟨addAcl_mem h, fun src => ?_⟩
  rw [Bool.not_eq_true, badPrefix_iff (mask6_bit plen.toNat)] at hbad
  rw [masked_iff (mask6_bit plen.toNat)]
  exact covers_iff_agree (by omega) hbad

theorem cmdDefaultPrivate_exact {mem : Bool} {addr : Addr4} {plen : ℤ} {l : List Acl}
    (h : (cmdDefaultPrivate mem addr plen l).2 = true) :
    ⟨addr.toList, mask4Bytes plen.toNat⟩ ∈ (cmdDefaultPrivate mem addr plen l).1 ∧
      ∀ src, masked 4 src (mask4Bytes plen.toNat) addr.toList = true ↔
        Agree addrBit plen.toNat addr.toList src := by
  unfold cmdDefaultPrivate at h ⊢
  split at h
  · simp at h
  rename_i hrange
  split at h
  · simp at h
  rename_i hbad
  rw [if_neg hrange, if_neg hbad]
  refine ⟨addAcl_mem h, fun src => ?_⟩
  have hbit := mask4_bit plen.toNat (by omega)
  rw [Bool.not_eq_true, badPrefix_iff hbit] at hbad
  rw [masked_iff hbit]
  exact covers_iff_agree (by omega) hbad

/-- Past the end of the table the model has the empty mask. -/
theorem mask4Bytes_short (l : ℕ) : ∃ m ≤ 32, mask4Bytes l = mask4Bytes m := by
  rcases Nat.lt_or_ge 32 l with h | h
  · refine ⟨0, by decide, ?_⟩
    have hl : mask4.length ≤ l := h
    rw [mask4Bytes, List.getD_eq_getElem?_getD, List.getElem?_eq_none hl]
    rfl
  · exact ⟨l, h, rfl⟩

theorem mask4Bytes_inj {l m : ℕ} (hl : l ≤ 32) (hm : m ≤ 32)
    (h : mask4Bytes l = mask4Bytes m) : l = m := by
  by_contra hne
  rcases Nat.lt_or_gt_of_ne hne with hlt | hlt
  · have h1 := mask4_bit l hl l (by omega)
    rw [h, mask4_bit m hm l (by omega)] at h1
    simp [hlt] at h1
  · have h1 := mask4_bit m hm m (by omega)
    rw [← h, mask4_bit l hl m (by omega)] at h1
    simp [hlt] at h1

theorem inNonat_exact_iff {s : Tunnels} {t : Tunnel} {l : ℕ} {a : Addr4} (hl : l ≤ 32) :
    (∀ src, inNonat s src t = true ↔ Agree addrBit l a.toList src) ↔
      mask4Bytes (nndata s t).2 = mask4Bytes l ∧
      badPrefix 4 (addr4Bytes (nndata s t).1) (mask4Bytes l) = false ∧
      Agree addrBit l a.toList (addr4Bytes (nndata s t).1) := by
  obtain ⟨m, hm, heq⟩ := mask4Bytes_short (nndata s t).2
  have hcov : ∀ src, inNonat s src t = true ↔
      Covers addrBit (8 * 4) m (addr4Bytes (nndata s t).1) src := by
    intro src
    rw [inNonat, heq]
    exact masked_iff (mask4_bit m hm)
  have hexact :
      (∀ x, Covers addrBit (8 * 4) m (addr4Bytes (nndata s t).1) x ↔
        Agree addrBit l a.toList x) ↔
      m = l ∧ Clear addrBit (8 * 4) m (addr4Bytes (nndata s t).1) ∧
        Agree addrBit l a.toList (addr4Bytes (nndata s t).1) :=
    exact_iff hl hm (flip_bit (by simp))
  have hsame : mask4Bytes (nndata s t).2 = mask4Bytes l ↔ m = l := by
    rw [heq]
    constructor
    · exact mask4Bytes_inj hm hl
    · intro h
      rw [h]
  rw [hsame, badPrefix_iff (mask4_bit l hl)]
  constructor
  · intro h
    obtain ⟨hml, hclear, hagree⟩ := hexact.mp fun src => (hcov src).symm.trans (h src)
    subst hml
    exact ⟨rfl, hclear, hagree⟩
  · intro ⟨hml, hclear, hagree⟩ src
    subst hml
    exact (hcov src).trans (hexact.mpr ⟨rfl, hclear, hagree⟩ src)

theorem nonatin_none {tc : TunnelConf} {s : Tunnels} {t : Tunnel} {buf4 : Buf} :
    nonatin tc s t buf4 = pure none ↔ inNonat s (buf4.drop IPSRC) t = false := by
  unfold nonatin
  cases h : inNonat s (buf4.drop IPSRC) t with
  | false => simp
  | true =>
    simp only [Bool.not_true, Bool.false_eq_true, if_false, reduceCtorEq, iff_false]
    split
    · cases patchTcpmss tc buf4 with
      | through b => simp [bind, Tried.Result.andThen, pure]
      | outside => simp [bind, Tried.Result.andThen, pure]
      | unfinished => simp [bind, Tried.Result.andThen, pure]
    · simp [pure]

theorem nonatExact_iff {s : Tunnels} {t : Tunnel} {l : ℕ} {a : Buf}
    (ht : (s.nonat t.ptr).isSome = true) :
    NonatExact s t l a ↔ ∀ src, inNonat s src t = true ↔ Agree addrBit l a src := by
  constructor
  · intro h src
    have hdrop : (List.replicate IPDST 0 ++ src).drop IPDST = src := by simp
    have := h.classified (List.replicate IPDST 0 ++ src)
    rw [hdrop] at this
    exact this
  · intro h
    refine ⟨?_, fun buf4 => h _, ?_⟩
    · intro tc buf4
      rw [nonatin_none, ← h, Bool.not_eq_true]
    · intro buf4
      rw [ht, Bool.true_and]
      exact h _

/-! ### The entry of a no-NAT command -/

/-- The no-NAT tunnel of a peer. -/
structure Entry (s : Tunnels) (peer : Addr6) (t : Tunnel) : Prop where
  mem : t ∈ s.nonats
  remote : t.remote = peer
  nndata : (s.nonat t.ptr).isSome = true
  only : ∀ u ∈ s.nonats, u.remote = peer → u = t

theorem addTunnel_new {cfg : Conf} {env : NatEnv} {peer : Addr6} {s tuns : Tunnels} {t : Tunnel}
    (h : s.addTunnel cfg env peer = (tuns, some t)) :
    (s.tunnelLookup peer).2 = none ∧ t.remote = peer ∧ tuns.nonats = s.nonats := by
  have hsame := (tunnelLookup_nonats s peer).1
  unfold Tunnels.addTunnel at h
  rcases hl : s.tunnelLookup peer with ⟨l, _ | u⟩
  · rw [hl] at h hsame
    dsimp only at h hsame
    split at h
    · simp at h
    split at h
    · simp at h
    split at h
    · simp at h
    obtain ⟨rfl, rfl⟩ : _ = tuns ∧ _ = t := by simpa [Prod.ext_iff] using h
    exact ⟨rfl, rfl, hsame⟩
  · rw [hl] at h
    simp at h

theorem addNonat_accepted {cfg : Conf} {env : NatEnv} {peer : Addr6} {addr plen : ℕ} {s : State}
    (hok : s.tuns.Ok) (h : (addNonat cfg env peer addr plen s).2 = true) :
    s.tuns.tunnelTreeFind peer = none ∧ ∃ t,
      Entry (addNonat cfg env peer addr plen s).1.tuns peer t ∧
      nndata (addNonat cfg env peer addr plen s).1.tuns t = (addr, plen) := by
  unfold addNonat at h ⊢
  split at h
  · simp at h
  rename_i hmem
  rw [if_neg hmem]
  rcases hadd : s.tuns.addTunnel cfg (env.after 1) peer with ⟨tuns, _ | t⟩
  · rw [hadd] at h
    simp at h
  obtain ⟨hnone, hremote, hnonats⟩ := addTunnel_new hadd
  have hfind : s.tuns.tunnelTreeFind peer = none := by
    rw [← hok.tunnelLookup peer]
    exact hnone
  refine ⟨hfind, t, ⟨?_, hremote, ?_, ?_⟩, ?_⟩
  · exact List.mem_append_right _ (List.mem_singleton.mpr rfl)
  · simp
  · intro u hu hur
    rcases List.mem_append.mp hu with hu | hu
    · -- an older tunnel of the peer would have been found
      rw [hnonats] at hu
      have := hok.find_eq_some.mpr ⟨hok.nonats u hu, hur⟩
      rw [hfind] at this
      cases this
    · exact List.mem_singleton.mp hu
  · simp [nndata]

/-- An accepted command leaves one entry for its peer: the new one, or the one that a
    reload found. -/
theorem cmdNonat_accepted {cfg : Conf} {env : NatEnv} {peer : Addr6} {addr : Addr4} {plen : ℤ}
    {s : State} (hok : s.tuns.Ok) (h : (cmdNonat cfg env peer addr plen s).2 = true) :
    (0 ≤ plen ∧ plen ≤ 32) ∧ ∃ t, Entry (cmdNonat cfg env peer addr plen s).1.tuns peer t ∧
      nndata (cmdNonat cfg env peer addr plen s).1.tuns t =
        match if s.ctl.reloading then s.tuns.tunnelTreeFind peer else none with
        | none => (addrNat addr, plen.toNat)
        | some u => nndata s.tuns u := by
  unfold cmdNonat at h ⊢
  split at h
  · simp at h
  rename_i hrange
  refine ⟨by omega, ?_⟩
  rw [if_neg hrange]
  split at h
  · rename_i hr
    rw [if_pos hr, if_pos hr]
    unfold reloadNonat at h ⊢
    have hfound := hok.tunnelLookup peer
    have hsame := (tunnelLookup_nonats s.tuns peer).1
    have hdata := (tunnelLookup_rest s.tuns peer).1
    have hok' := hok.lookup peer
    rcases hl : s.tuns.tunnelLookup peer with ⟨tuns, _ | t⟩
    · rw [hl] at h hfound hok'
      obtain ⟨-, t, hentry, hnn⟩ :=
        addNonat_accepted (s := { s with tuns := tuns }) hok' h
      rw [← hfound]
      exact ⟨t, hentry, hnn⟩
    · rw [hl] at h hfound hsame hdata hok'
      dsimp only at h hfound hsame hdata hok' ⊢
      split at h
      · rename_i hin
        rw [if_pos hin, ← hfound]
        rw [hsame] at hin
        have hlive := (hok.find_eq_some.mp hfound.symm).2
        refine ⟨t, ⟨hsame ▸ hin, hlive, ?_, ?_⟩, ?_⟩
        · rw [hdata]
          exact (hok.nonat_iff t (hok.nonats t hin)).mpr hin
        · intro u hu hur
          rw [hsame] at hu
          have := hok.find_eq_some.mpr ⟨hok.nonats u hu, hur⟩
          rw [← hfound] at this
          exact (Option.some.inj this).symm
        · simp [nndata, hdata]
      · simp at h
  · rename_i hr
    rw [if_neg hr, if_neg hr]
    obtain ⟨-, t, hentry, hnn⟩ := addNonat_accepted hok h
    exact ⟨t, hentry, hnn⟩

theorem cmdNonat_exact_iff {cfg : Conf} {env : NatEnv} {peer : Addr6} {addr : Addr4} {plen : ℤ}
    {s : Site} (hok : s.st.tuns.Ok)
    (h : ((PrefixCmd.nonat peer addr plen).exec cfg env s).2 = true) :
    (PrefixCmd.nonat peer addr plen).Exact ((PrefixCmd.nonat peer addr plen).exec cfg env s).1 ↔
      (PrefixCmd.nonat peer addr plen).HoldsWhen s := by
  obtain ⟨hrange, t, hentry, hnn⟩ := cmdNonat_accepted hok h
  change (∃ u ∈ (cmdNonat cfg env peer addr plen s.st).1.tuns.nonats, u.remote = peer ∧
    NonatExact (cmdNonat cfg env peer addr plen s.st).1.tuns u plen.toNat addr.toList) ↔ _
  generalize (cmdNonat cfg env peer addr plen s.st).1.tuns = s' at hentry hnn ⊢
  have hone : (∃ u ∈ s'.nonats, u.remote = peer ∧ NonatExact s' u plen.toNat addr.toList) ↔
      NonatExact s' t plen.toNat addr.toList := by
    constructor
    · intro ⟨u, hu, hur, hexact⟩
      rw [← hentry.only u hu hur]
      exact hexact
    · intro hexact
      exact ⟨t, hentry.mem, hentry.remote, hexact⟩
  rw [hone, nonatExact_iff hentry.nndata, inNonat_exact_iff (by omega), hnn]
  unfold PrefixCmd.HoldsWhen
  dsimp only
  generalize (if s.st.ctl.reloading = true then s.st.tuns.tunnelTreeFind peer else none) = found
  cases found with
  | none =>
    simp only [addr4Bytes_addrNat, true_and]
    exact and_iff_left (.refl _)
  | some u => rfl

/-! ### No-NAT packets are found again -/

theorem masked_congr {n : ℕ} {x y mask addr : Buf} (h : ∀ i < n, byteAt x i = byteAt y i) :
    masked n x mask addr = masked n y mask addr := by
  have hall : ∀ z : Buf, masked n z mask addr = true ↔
      ∀ i < n, byteAt z i &&& byteAt mask i = byteAt addr i := by
    intro z
    simp [masked]
  rw [Bool.eq_iff_iff, hall, hall]
  constructor
  · intro hx i hi
    rw [← h i hi]
    exact hx i hi
  · intro hy i hi
    rw [h i hi]
    exact hy i hi

theorem destination_byte (b : Buf) {i : ℕ} (hi : i < 4) :
    byteAt (b.drop IPDST) i = byteAt (bytesAt b IPSRC 8) (4 + i) := by
  rw [byteAt_drop_add, byteAt_bytesAt (by omega)]
  simp only [IPDST, IPSRC]
  congr 1
  omega

/-- The destination is that of some no-NAT tunnel. -/
def NonatDst (s : Tunnels) (buf4 : Buf) : Prop :=
  ∃ t ∈ s.nonats, inNonat s (buf4.drop IPDST) t = true

theorem NonatDst.congr {s : Tunnels} {x y : Buf} (h : NonatDst s x)
    (hxy : bytesAt x IPSRC 8 = bytesAt y IPSRC 8) : NonatDst s y := by
  obtain ⟨t, ht, hin⟩ := h
  refine ⟨t, ht, ?_⟩
  rw [← hin, inNonat, inNonat]
  apply masked_congr
  intro i hi
  rw [destination_byte x hi, destination_byte y hi, hxy]

theorem outKind_nonat {p : Ports} {ret : ℕ} {buf4 : Buf} (h : outKind p ret buf4 = 3) :
    ret = 3 := by
  unfold outKind at h
  split_ifs at h <;> first | assumption | omega

/-- A pass of `filterout` that has found a no-NAT destination keeps it, through a
    reassembly too. -/
theorem filteroutPass_nonat (cfg : FragConf) (st : State) (s : OutPacket)
    (hs : s.ret = some 3 → NonatDst st.tuns s.buf4) : (filteroutPass cfg st s).Meets
    (fun s' => s'.ret = some 3 → NonatDst st.tuns s'.buf4)
    (fun r => r.ret = 3 → NonatDst st.tuns r.buf4) := by
  have hzero : ∀ P : Prop, (0 : ℕ) = 3 → P := fun P hz => absurd hz (by decide)
  unfold filteroutPass
  simp only
  split
  · exact hzero _
  split
  · exact hzero _
  split
  · exact hzero _
  split
  · exact hzero _
  split
  · exact hzero _
  rename_i hlen
  split
  · exact hzero _
  have htake : bytesAt (s.buf4.take (shortAt s.buf4 IPLENH)) IPSRC 8 = bytesAt s.buf4 IPSRC 8 :=
    bytesAt_take (by simp only [IPMINLEN, IPSRC] at *; omega)
  have hlong : IPSRC + 8 ≤ (s.buf4.take (shortAt s.buf4 IPLENH)).length := by
    rw [List.length_take]
    simp only [IPMINLEN, IPSRC] at *
    omega
  generalize s.buf4.take (shortAt s.buf4 IPLENH) = buf4 at htake hlong ⊢
  split
  · exact hzero _
  rename_i ret hret
  have hdst : ret = 3 → NonatDst st.tuns buf4 := by
    intro heq
    unfold destination at hret
    split at hret
    · rename_i r hr
      obtain rfl : r = ret := Option.some.inj hret
      exact (hs (heq ▸ hr)).congr htake.symm
    · split at hret
      · rename_i hany
        obtain ⟨t, ht, hin⟩ := List.any_eq_true.mp hany
        exact ⟨t, ht, hin⟩
      · split at hret
        · simp at hret
          omega
        · simp at hret
  split
  · exact hzero _
  split
  · rename_i hfrag
    apply reassemble_meets hfrag hlong
    · intro p _ hsame hthree
      exact (hdst (Option.some.inj hthree)).congr hsame.symm
    · intro r hr hthree
      omega
  · intro hthree
    exact hdst (outKind_nonat hthree)

/-- In a state in order the second search finds a tunnel wherever the first one did. -/
theorem refindNonat_isSome {s : Tunnels} (hok : s.Ok) {buf4 : Buf} (h : NonatDst s buf4) :
    ∃ t, refindNonat s (buf4.drop IPDST) = some t := by
  obtain ⟨t, ht, hin⟩ := h
  apply Option.isSome_iff_exists.mp
  apply List.find?_isSome.mpr
  exact ⟨t, ht, by rw [(hok.nonat_iff t (hok.nonats t ht)).mpr ht, hin]; rfl⟩

theorem base_run (cfg : Conf) (ports : Ports) (rnd₁ rnd₂ rnd₃ : UInt32) (es : List Event) :
    Base (run cfg (start ports rnd₁ rnd₂ rnd₃) es) := by
  induction es using List.reverseRecOn with
  | nil => exact (linked_start ports rnd₁ rnd₂ rnd₃).toBase
  | append_singleton es e ih =>
    unfold run at ih ⊢
    rw [List.foldl_append]
    exact step_base ih e

/-- In every state of every run: an accepted command makes an entry for exactly its prefix
    if and only if its address has no bits outside the mask, which the no-NAT command alone
    does not check; and `nonatout` finds a tunnel for what `filterout` classified. -/
theorem prefix_entries (cfg : Conf) (ports : Ports) (rnd₁ rnd₂ rnd₃ : UInt32)
    (es : List Event) (acls : Acls) (env : NatEnv) (c : PrefixCmd)
    (h : (c.exec cfg env ⟨run cfg (start ports rnd₁ rnd₂ rnd₃) es, acls⟩).2 = true) :
    (c.Exact (c.exec cfg env ⟨run cfg (start ports rnd₁ rnd₂ rnd₃) es, acls⟩).1 ↔
      c.HoldsWhen ⟨run cfg (start ports rnd₁ rnd₂ rnd₃) es, acls⟩) ∧
    ∀ (k : ℕ) (p : Packet) (r : Filtered),
      filterout cfg.frag (run cfg (start ports rnd₁ rnd₂ rnd₃) es) k ⟨p, none⟩ = some r →
      r.ret = 3 →
      ∃ t, refindNonat (run cfg (start ports rnd₁ rnd₂ rnd₃) es).tuns (r.buf4.drop IPDST) =
        some t := by
  have hbase := base_run cfg ports rnd₁ rnd₂ rnd₃ es
  generalize run cfg (start ports rnd₁ rnd₂ rnd₃) es = st at h hbase ⊢
  constructor
  · cases c with
    | acl6 addr plen =>
      obtain ⟨hmem, hexact⟩ := cmdAcl6_exact h
      exact iff_of_true ⟨_, hmem, rfl, hexact⟩ trivial
    | defaultPrivate addr plen =>
      obtain ⟨hmem, hexact⟩ := cmdDefaultPrivate_exact h
      exact iff_of_true ⟨_, hmem, rfl, hexact⟩ trivial
    | nonat peer addr plen => exact cmdNonat_exact_iff hbase.tuns h
  · intro k p r hr hthree
    have hdst := Again.loop_post (I := fun s : OutPacket => s.ret = some 3 →
      NonatDst st.tuns s.buf4) (Q := fun r : Filtered => r.ret = 3 → NonatDst st.tuns r.buf4)
      (filteroutPass_nonat cfg.frag st) (by intro hno; cases hno) hr
    exact refindNonat_isSome hbase.tuns (hdst hthree)

/-- `nonat ::1 10.0.0.0/8` as the first command. -/
theorem prefix_entries_ten :
    (PrefixCmd.nonat 1 #v[10, 0, 0, 0] 8).Exact ((PrefixCmd.nonat 1 #v[10, 0, 0, 0] 8).exec
      defaultConf plainEnv ⟨run defaultConf (start {} 0 0 0) [], {}⟩).1 :=
  (prefix_entries defaultConf {} 0 0 0 [] {} plainEnv (.nonat 1 #v[10, 0, 0, 0] 8)
    (by decide +kernel)).1.mpr (by
      change badPrefix 4 [10, 0, 0, 0] (mask4Bytes 8) = false
      decide +kernel)

/-- `nonat ::1 10.0.0.1/8` is accepted, and its entry matches no address. -/
theorem nonat_host_bits :
    ((PrefixCmd.nonat 1 #v[10, 0, 0, 1] 8).exec defaultConf plainEnv
      ⟨run defaultConf (start {} 0 0 0) [], {}⟩).2 = true ∧
    ¬(PrefixCmd.nonat 1 #v[10, 0, 0, 1] 8).Exact ((PrefixCmd.nonat 1 #v[10, 0, 0, 1] 8).exec
      defaultConf plainEnv ⟨run defaultConf (start {} 0 0 0) [], {}⟩).1 := by
  have haccepted : ((PrefixCmd.nonat 1 #v[10, 0, 0, 1] 8).exec defaultConf plainEnv
      ⟨run defaultConf (start {} 0 0 0) [], {}⟩).2 = true := by decide +kernel
  refine ⟨haccepted, fun hexact => ?_⟩
  have hbase := base_run defaultConf {} 0 0 0 []
  have hclear := (cmdNonat_exact_iff hbase.tuns haccepted).mp hexact
  change badPrefix 4 [10, 0, 0, 1] (mask4Bytes 8) = false at hclear
  exact absurd hclear (by decide +kernel)

end WanStack.Aftr.Filter
