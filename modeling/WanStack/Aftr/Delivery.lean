import WanStack.Aftr.FtpChains
import WanStack.Aftr.PacketRuns
import WanStack.Aftr.TooBig
import WanStack.Aftr.Wildcards

set_option autoImplicit false

/-!
# Who gets a packet

A packet of the Internet goes to the tunnel whose entry or prefix has its destination, in
every state of a run; the errors written for it go back to its sender.
-/
namespace WanStack.Aftr.Datapath
open Filter Ftp OnesComplement Tried SearchTree FieldOrder

variable {cfg : Conf} {dv : Device} {dr : Drawn} {a a' : Tables} {b b' buf : Buf} {n : NatEntry}
  {t : ℕ}

/-! ### The front of a packet -/

/-- The addresses and ports of a packet, and its protocol. -/
def SameEnds (b b' : Buf) : Prop := ∀ j < 24, byteAt b' j = byteAt b j

theorem SameFront.ends (h : SameFront b b') : SameEnds b b' := h.front

theorem SameEnds.trans {b'' : Buf} (h : SameEnds b b') (h' : SameEnds b' b'') : SameEnds b b'' :=
  fun j hj => (h' j hj).trans (h j hj)

theorem bytesAt_congr {i k : ℕ} (hb : i + k ≤ b.length) (hb' : i + k ≤ b'.length)
    (h : ∀ j, i ≤ j → j < i + k → byteAt b' j = byteAt b j) : bytesAt b' i k = bytesAt b i k := by
  rw [bytesAt, bytesAt]
  apply buf_ext
  · simp only [List.length_take, List.length_drop]
    omega
  · intro j hj
    rw [List.length_take] at hj
    rw [byteAt_take (by omega), byteAt_take (by omega), byteAt_drop_add, byteAt_drop_add]
    exact h _ (by omega) (by omega)

theorem SameEnds.bytesAt (h : SameEnds b b') (hb : 24 ≤ b.length) (hb' : 24 ≤ b'.length) {i k : ℕ}
    (hik : i + k ≤ 24) : bytesAt b' i k = bytesAt b i k := by
  apply bytesAt_congr (by omega) (by omega)
  intro j _ hj
  exact h j (by omega)

/-- A packet too short for options stays as it is, when the flags are inside. -/
theorem patchTcpmss_short {c : TunnelConf} (hlen : b.length < IPHDRLEN + TCPHDRLEN)
    (h : patchTcpmss c b = .through b') : b' = b := by
  change b.length < 40 at hlen
  unfold patchTcpmss at h
  split at h
  · cases h
    rfl
  · obtain ⟨-, hrest⟩ := read_bind_through_iff.mp h
    split at hrest
    · cases hrest
      rfl
    · obtain ⟨-, hrest⟩ := read_bind_through_iff.mp hrest
      split at hrest
      · cases hrest
        rfl
      · rename_i hhl
        rw [ne_eq, not_not] at hhl
        split at hrest
        · cases hrest
          rfl
        · rename_i hlong
          change ¬_ ≤ 20 at hlong
          change _ + 20 = _ at hhl
          omega

theorem patchTcpmss_kept {c : TunnelConf} (hmost : b.length ≤ IPMAXLEN)
    (h : patchTcpmss c b = .through b') : SameFront b b' := by
  by_cases hlen : IPHDRLEN + TCPHDRLEN ≤ b.length
  · exact patchTcpmss_front hlen hmost h
  · rw [patchTcpmss_short (by omega) h]
    exact .refl b

/-! ### Entries that are found -/

/-- The outside endpoint of an entry is that of the key it was found for. -/
theorem natLookup_outside {s : State} {key : NatEntry} {pr : Pr} {nats : Nats}
    (h : s.nats.natLookup pr key s.ctl.lastgen = (nats, some n)) :
    Known s n ∧ key.outside = n.outside := by
  have hzero : natTreeCompareWild key n = 0 → key.outside = n.outside :=
    fun h0 => ((compareWild_eq_zero outside_length).mp h0).1
  rcases natLookup_cases s.nats pr key s.ctl.lastgen with ⟨x, hx, h0, h'⟩ | h' | ⟨x, hf, -, h'⟩ <;>
    rw [h] at h' <;> cases h'
  · exact ⟨.of_nathash hx, hzero h0⟩
  · obtain ⟨hmem, h0⟩ := natTreeFindWild_mem hf
    exact ⟨.of_list hmem, hzero h0⟩

/-! ### Packets for an entry -/

/-- The packet `b'` for the host of `n`, from the packet `b` to its outside endpoint. -/
structure Delivered (n : NatEntry) (b b' : Buf) : Prop where
  proto : n.proto = protoAt b
  outside : n.nsrc = addrAt b IPDST ∧ n.nport = (outPkt b).dport
  src : bytesAt b' IPSRC 4 = bytesAt b IPSRC 4
  shared : n.flags.prrNull = true → SameEnds b b'
  dst : n.flags.prrNull = false → bytesAt b' IPDST 4 = (addrOf n.src).toList
  port : n.flags.prrNull = false →
    bytesAt b' (if n.proto = .icmp then ICMPID else IPDPORT) 2 = (portOf n.sport).toList

/-- What `natoutRest` does to a packet that is long enough. -/
structure Inward (n : NatEntry) (b b' : Buf) : Prop where
  src : bytesAt b' IPSRC 4 = bytesAt b IPSRC 4
  dst : bytesAt b' IPDST 4 = (addrOf n.src).toList
  port : bytesAt b' (if n.proto = .icmp then ICMPID else IPDPORT) 2 = (portOf n.sport).toList

theorem natoutRewrite_inward (hlen : IPMINLEN ≤ b.length)
    (htcp : n.proto = .tcp → IPHDRLEN + TCPHDRLEN ≤ b.length) :
    Inward n b (natoutRewrite (binding n) b) ∧ (natoutRewrite (binding n) b).length = b.length := by
  have hr := rewrite_rewritten (placed_out (binding n)) hlen htcp
  unfold IPMINLEN at hlen
  have hlen' : 24 ≤ (natoutRewrite (binding n) b).length := by
    rw [natoutRewrite, hr.length]
    omega
  refine ⟨⟨?_, hr.addr (placed_out (binding n)) hlen, hr.port⟩, hr.length⟩
  apply bytesAt_congr
  · change 12 + 4 ≤ _
    omega
  · change 12 + 4 ≤ _
    omega
  · intro j hj hj'
    change 12 ≤ j at hj
    change j < 12 + 4 at hj'
    apply hr.others j (by omega) (.inl hj') (.inr hj)

/-- Only bytes behind the ports change after the rewriting. -/
theorem Inward.front (h : Inward n b b') {b'' : Buf} (hf : SameFront b' b'') (hlen : 24 ≤ b'.length)
    (hicmp : n.proto ≠ .icmp) : Inward n b b'' := by
  have hlen' : 24 ≤ b''.length := by
    rw [hf.length]
    exact hlen
  have hsame : ∀ i, i + 4 ≤ 24 → bytesAt b'' i 4 = bytesAt b' i 4 :=
    fun i hi => hf.ends.bytesAt hlen hlen' hi
  refine ⟨(hsame IPSRC (by decide)).trans h.src, (hsame IPDST (by decide)).trans h.dst, ?_⟩
  have hport := h.port
  rw [if_neg hicmp] at hport ⊢
  rw [hf.ends.bytesAt hlen hlen' (by decide)]
  exact hport

/-- The tunnel and the packet of `natoutRest`. -/
theorem natoutRest_inward {env : NatEnv} {c : TunnelConf} (hch : Chained a.st) (hk : Known a.st n)
    (hlen : IPMINLEN ≤ b.length) (hmost : b.length ≤ IPMAXLEN)
    (htcp : n.proto = .tcp → IPHDRLEN + TCPHDRLEN ≤ b.length)
    (h : natoutRest cfg env c b n a = .through (a', some (t, b'))) :
    t = n.tunnel ∧ Inward n b b' := by
  obtain ⟨hin, hsame⟩ := natoutRewrite_inward hlen htcp
  unfold natoutRest at h
  dsimp only at h
  by_cases hpr : n.proto ≠ .tcp
  · rw [if_pos hpr] at h
    cases h
    exact ⟨rfl, hin⟩
  · rw [if_neg hpr] at h
    rw [ne_eq, not_not] at hpr
    have hlong := htcp hpr
    change 40 ≤ _ at hlong
    obtain ⟨b₁, hpatch, hrest⟩ := bind_through_iff.mp h
    have hfront := patchTcpmss_kept (hsame ▸ hmost) hpatch
    have hicmp : n.proto ≠ .icmp := by
      rw [hpr]
      decide
    have hin₁ : Inward n b b₁ := hin.front hfront (by omega) hicmp
    have hlen₁ : b₁.length = b.length := hfront.length.trans hsame
    have hkin : ∀ m, (if (outPkt b).sport = PORTFTP ∨ n.sport = PORTFTP then
        patchFtpout cfg env ((outPkt b).sport ≠ PORTFTP) (outPkt b) n a.st else (a.st, some n)).2 =
        some m → m.tunnel = n.tunnel := by
      intro m hm
      split at hm
      · exact (patchFtpout_kin hch hk hm).tunnel
      · cases hm
        rfl
    split at hrest
    · cases hrest
    · rename_i m hm
      cases hrest
      refine ⟨hkin m hm, ?_⟩
      split
      · apply hin₁.front _ (by omega) hicmp
        exact fixFtpsacksum_front (.inr rfl) (by change 40 ≤ _; omega)
      · exact hin₁

/-- What `tooBig` lets through, and the errors it writes. -/
theorem tooBig_cases {c : TunnelConf} {icmpsrc : Addr4} {id : PortNo} {errors : List Buf}
    {r : Option Buf} (hlen : IPMINLEN ≤ b.length)
    (h : tooBig c icmpsrc id b = .through (errors, r)) :
    (∀ e ∈ errors, isTooBig c.mtu b = true ∧
      ErrorPacket icmpsrc (bytesAt b IPSRC 4) 3 4 (b.take ICMPMAXLEN) e ∧
      bytesAt e ICMPID 4 = [0, 0] ++ twoBytes (c.mtu - IP6HDRLEN)) ∧
    ∀ b₁, r = some b₁ → b₁ = b ∨ 1240 < b.length ∧ b₁ = b.take 228 := by
  have herror := @toobigout_error icmpsrc id c.mtu b hlen
  unfold tooBig at h
  dsimp only at h
  by_cases hbig : isTooBig c.mtu b = true
  · have hlong := isTooBig_length hbig
    rw [hbig, Bool.not_true, if_neg (by decide)] at h
    split at h
    · split at h
      · cases h
      · cases h
        refine ⟨?_, ?_⟩
        · intro e he
          rw [List.mem_singleton] at he
          subst he
          exact ⟨hbig, herror⟩
        · intro b₁ hb₁
          cases hb₁
          rw [toobigout_length (by change 200 ≤ _; omega)]
          exact .inr ⟨hlong, rfl⟩
    · cases h
      refine ⟨?_, ?_⟩
      · intro e he
        split at he
        · rw [List.mem_singleton] at he
          subst he
          exact ⟨hbig, herror⟩
        · cases he
      · intro b₁ hb₁
        split at hb₁
        · cases hb₁
        · cases hb₁
          exact .inl rfl
  · rw [Bool.not_eq_true] at hbig
    rw [hbig, Bool.not_false, if_pos rfl] at h
    cases h
    refine ⟨?_, ?_⟩
    · intro e he
      cases he
    · intro b₁ hb₁
      cases hb₁
      exact .inl rfl

/-- An ICMP error for a packet that may not be fragmented, to its sender. -/
structure Reported (c : TunnelConf) (icmpsrc : Addr4) (b e : Buf) : Prop where
  big : isTooBig c.mtu b = true
  error : ErrorPacket icmpsrc (bytesAt b IPSRC 4) 3 4 (b.take ICMPMAXLEN) e
  mtu : bytesAt e ICMPID 4 = [0, 0] ++ twoBytes (c.mtu - IP6HDRLEN)

/-- What `natout` asks of a packet, as `filterout` leaves it. -/
structure Fit (b : Buf) : Prop where
  least : IPMINLEN ≤ b.length
  most : b.length ≤ IPMAXLEN
  tcp : protoAt b = .tcp → IPHDRLEN + TCPHDRLEN ≤ b.length

theorem protoAt_ends (h : SameEnds b b') : protoAt b' = protoAt b := by
  unfold protoAt
  rw [h IPPROTO (by decide)]

/-- The packet itself, or its first bytes. -/
theorem cut_fit {b₁ : Buf} (hb : Fit b) (h : b₁ = b ∨ 1240 < b.length ∧ b₁ = b.take 228) :
    Fit b₁ ∧ SameEnds b b₁ := by
  rcases h with rfl | ⟨hlong, rfl⟩
  · exact ⟨hb, fun _ _ => rfl⟩
  · have hlen : (b.take 228).length = 228 := List.length_take_of_le (by omega)
    refine ⟨⟨?_, ?_, ?_⟩, fun j hj => byteAt_take (by omega)⟩
    · rw [hlen]
      decide
    · rw [hlen]
      decide
    · intro _
      rw [hlen]
      decide

theorem natoutFound_delivered {errors : List Buf} {out : Option (ℕ × Buf)} (hch : Chained a.st)
    (hk : Known a.st n) (hproto : n.proto = protoAt b)
    (houtside : n.nsrc = addrAt b IPDST ∧ n.nport = (outPkt b).dport) (hb : Fit b)
    (h : natoutFound cfg dv dr b n a = .through (a', errors, out)) :
    (∀ e ∈ errors, Reported (dv.conf n.tunnel) dv.icmpsrc b e) ∧
      ∀ t b', out = some (t, b') → t = n.tunnel ∧ Delivered n b b' := by
  unfold natoutFound at h
  by_cases hpeer : n.flags.ftpData && n.dst ≠ addrAt b IPSRC
  · rw [if_pos hpeer] at h
    cases h
    refine ⟨?_, ?_⟩
    · intro e he
      cases he
    · intro t b' hout
      cases hout
  · rw [if_neg hpeer] at h
    obtain ⟨⟨errs, r⟩, hbig, hrest⟩ := bind_through_iff.mp h
    obtain ⟨herrors, hcut⟩ := tooBig_cases hb.least hbig
    have hreported : ∀ e ∈ errs, Reported (dv.conf n.tunnel) dv.icmpsrc b e :=
      fun e he => ⟨(herrors e he).1, (herrors e he).2.1, (herrors e he).2.2⟩
    cases r with
    | none =>
      cases hrest
      refine ⟨hreported, ?_⟩
      intro t b' hout
      cases hout
    | some b₁ =>
      obtain ⟨hfit, hends⟩ := cut_fit hb (hcut b₁ rfl)
      have hleast := hb.least
      have hleast₁ := hfit.least
      unfold IPMINLEN at hleast hleast₁
      have hsrc : bytesAt b₁ IPSRC 4 = bytesAt b IPSRC 4 :=
        hends.bytesAt (by omega) (by omega) (by decide)
      dsimp only at hrest
      by_cases hprr : n.flags.prrNull = true
      · rw [if_pos hprr] at hrest
        have hshared : ∃ b₂, SameFront b₁ b₂ ∧ errs = errors ∧ some (n.tunnel, b₂) = out := by
          by_cases htcp : protoAt b₁ = .tcp
          · rw [if_pos htcp] at hrest
            obtain ⟨b₂, hpatch, hout⟩ := bind_through_iff.mp hrest
            cases hout
            exact ⟨b₂, patchTcpmss_kept hfit.most hpatch, rfl, rfl⟩
          · rw [if_neg htcp] at hrest
            cases hrest
            exact ⟨b₁, .refl b₁, rfl, rfl⟩
        obtain ⟨b₂, hfront, rfl, rfl⟩ := hshared
        refine ⟨hreported, ?_⟩
        intro t b' hout
        cases hout
        have hall := hends.trans hfront.ends
        refine ⟨rfl, hproto, houtside, ?_, fun _ => hall, ?_, ?_⟩
        · apply hall.bytesAt (by omega) _ (by decide)
          rw [hfront.length]
          omega
        · intro hnot
          rw [hprr] at hnot
          cases hnot
        · intro hnot
          rw [hprr] at hnot
          cases hnot
      · rw [if_neg hprr] at hrest
        obtain ⟨⟨a₁, o⟩, hrun, hout⟩ := bind_through_iff.mp hrest
        cases hout
        refine ⟨hreported, ?_⟩
        intro t b' hout
        subst hout
        have htcp : n.proto = .tcp → IPHDRLEN + TCPHDRLEN ≤ b₁.length := by
          intro hpr
          apply hfit.tcp
          rw [protoAt_ends hends, ← hproto]
          exact hpr
        obtain ⟨htunnel, hin⟩ := natoutRest_inward hch hk hfit.least hfit.most htcp hrun
        refine ⟨htunnel, hproto, houtside, hin.src.trans hsrc, ?_, fun _ => hin.dst, fun _ => hin.port⟩
        intro hyes
        exact absurd hyes hprr

/-- The packets of an entry, and of no other. -/
theorem natout_delivered {errors : List Buf} {out : Option (ℕ × Buf)} (hch : Chained a.st)
    (hb : Fit b) (h : natout cfg dv dr b a = .through (a', errors, out)) :
    (∀ e ∈ errors, ∃ n, Known a.st n ∧ Reported (dv.conf n.tunnel) dv.icmpsrc b e) ∧
      ∀ t b', out = some (t, b') → ∃ n, Known a.st n ∧ t = n.tunnel ∧ Delivered n b b' := by
  unfold natout at h
  split at h
  · cases h
    refine ⟨?_, ?_⟩
    · intro e he
      cases he
    · intro t b' hout
      cases hout
  · rename_i nats n hl
    obtain ⟨hknown, houtside⟩ := natLookup_outside hl
    obtain ⟨hproto, hnsrc, hnport⟩ := outside_eq.mp houtside
    have hfound := @natoutFound_delivered cfg dv dr { a with st.nats := nats } a' b n errors out
      (natLookup_chained hch hl) (natLookup_known hl) hproto.symm ⟨hnsrc.symm, hnport.symm⟩ hb h
    refine ⟨?_, ?_⟩
    · intro e he
      exact ⟨n, hknown, hfound.1 e he⟩
    · intro t b' hout
      exact ⟨n, hknown, hfound.2 t b' hout⟩

/-! ### ICMP errors of the Internet -/

/-- The error `b'` for the host of `n`, from the error `b` that quotes a packet from its
    outside endpoint. -/
structure Returned (n : NatEntry) (b b' : Buf) : Prop where
  outside : n.proto = (quotedPkt b).proto ∧ n.nsrc = addrAt b IPDST ∧
    n.nport = shortAt b (IP2 + IPSPORT)
  shared : n.flags.prrNull = true → b' = b
  dst : n.flags.prrNull = false → bytesAt b' IPDST 4 = (addrOf n.src).toList
  quoted : n.flags.prrNull = false → bytesAt b' (IP2 + IPSRC) 4 = (addrOf n.src).toList ∧
    bytesAt b' (IP2 + IPSPORT) 2 = (portOf n.sport).toList

/-- The addresses and the port of an error that was rewritten. -/
theorem icmpoutError_bytes {n : Binding} (hlen : IP2 + IPMINLEN ≤ b.length) :
    bytesAt (icmpoutError n b) IPDST 4 = n.src.toList ∧
      bytesAt (icmpoutError n b) (IP2 + IPSRC) 4 = n.src.toList ∧
      bytesAt (icmpoutError n b) (IP2 + IPSPORT) 2 = n.sport.toList := by
  change 56 ≤ _ at hlen
  obtain ⟨c₁, hc₁⟩ : ∃ c, c = twoBytes (fixCksum (shortAt (copyAt b IPDST n.src.toList) IPCKSUMH)
    (some (n.nsrc, n.src)) none) := ⟨_, rfl⟩
  obtain ⟨x₁, hx₁⟩ : ∃ x, x = copyAt b IPDST n.src.toList := ⟨_, rfl⟩
  obtain ⟨x₂, hx₂⟩ : ∃ x, x = copyAt x₁ IPCKSUMH c₁ := ⟨_, rfl⟩
  obtain ⟨x₃, hx₃⟩ : ∃ x, x = copyAt x₂ (IP2 + IPSRC) n.src.toList := ⟨_, rfl⟩
  obtain ⟨x₄, hx₄⟩ : ∃ x, x = copyAt x₃ (IP2 + IPSPORT) n.sport.toList := ⟨_, rfl⟩
  obtain ⟨c₂, hc₂⟩ : ∃ c, c = twoBytes (fixCksum (shortAt x₄ (IP2 + IPCKSUMH)) (some (n.nsrc, n.src))
    none) := ⟨_, rfl⟩
  obtain ⟨x₅, hx₅⟩ : ∃ x, x = copyAt x₄ (IP2 + IPCKSUMH) c₂ := ⟨_, rfl⟩
  obtain ⟨x₆, hx₆⟩ : ∃ x, x = copyAt x₅ ICMPCKSUMH (twoBytes 0) := ⟨_, rfl⟩
  obtain ⟨c₃, hc₃⟩ : ∃ c, c = twoBytes (inCksum (x₆.drop IPHDRLEN)) := ⟨_, rfl⟩
  have heq : icmpoutError n b = copyAt x₆ ICMPCKSUMH c₃ := by
    rw [hc₃, hx₆, hx₅, hc₂, hx₄, hx₃, hx₂, hc₁, hx₁]
    rfl
  have hsrc : n.src.toList.length = 4 := Vector.length_toList
  have hsport : n.sport.toList.length = 2 := Vector.length_toList
  have h1 : IPDST + n.src.toList.length ≤ b.length := by
    rw [hsrc]
    change 16 + 4 ≤ _
    omega
  have hl1 : x₁.length = b.length := hx₁ ▸ copyAt_length h1
  have h2 : IPCKSUMH + c₁.length ≤ x₁.length := by
    rw [hc₁, twoBytes_length, hl1]
    change 10 + 2 ≤ _
    omega
  have hl2 : x₂.length = b.length := hx₂ ▸ (copyAt_length h2).trans hl1
  have h3 : IP2 + IPSRC + n.src.toList.length ≤ x₂.length := by
    rw [hsrc, hl2]
    change 28 + 12 + 4 ≤ _
    omega
  have hl3 : x₃.length = b.length := hx₃ ▸ (copyAt_length h3).trans hl2
  have h4 : IP2 + IPSPORT + n.sport.toList.length ≤ x₃.length := by
    rw [hsport, hl3]
    change 28 + 20 + 2 ≤ _
    omega
  have hl4 : x₄.length = b.length := hx₄ ▸ (copyAt_length h4).trans hl3
  have h5 : IP2 + IPCKSUMH + c₂.length ≤ x₄.length := by
    rw [hc₂, twoBytes_length, hl4]
    change 28 + 10 + 2 ≤ _
    omega
  have hl5 : x₅.length = b.length := hx₅ ▸ (copyAt_length h5).trans hl4
  have h6 : ICMPCKSUMH + (twoBytes 0).length ≤ x₅.length := by
    rw [twoBytes_length, hl5]
    change 22 + 2 ≤ _
    omega
  have hl6 : x₆.length = b.length := hx₆ ▸ (copyAt_length h6).trans hl5
  have h7 : ICMPCKSUMH + c₃.length ≤ x₆.length := by
    rw [hc₃, twoBytes_length, hl6]
    change 22 + 2 ≤ _
    omega
  have hc₁' : c₁.length = 2 := by rw [hc₁, twoBytes_length]
  have hc₂' : c₂.length = 2 := by rw [hc₂, twoBytes_length]
  have hc₃' : c₃.length = 2 := by rw [hc₃, twoBytes_length]
  have hself1 := bytesAt_copyAt_self h1
  have hself3 := bytesAt_copyAt_self h3
  have hself4 := bytesAt_copyAt_self h4
  rw [hsrc, ← hx₁] at hself1
  rw [hsrc, ← hx₃] at hself3
  rw [hsport, ← hx₄] at hself4
  have hlast : ∀ i k, (i + k ≤ 22 ∨ 24 ≤ i) → (i + k ≤ 38 ∨ 40 ≤ i) →
      bytesAt (copyAt x₆ ICMPCKSUMH c₃) i k = bytesAt x₄ i k := by
    intro i k hout hin
    rw [bytesAt_copyAt_other h7 (by rw [hc₃']; exact hout), hx₆,
      bytesAt_copyAt_other h6 (by rw [twoBytes_length]; exact hout), hx₅,
      bytesAt_copyAt_other h5 (by rw [hc₂']; exact hin)]
  rw [heq]
  refine ⟨?_, ?_, ?_⟩
  · rw [hlast _ _ (.inl (by decide)) (.inl (by decide)), hx₄,
      bytesAt_copyAt_other h4 (.inl (by decide)), hx₃, bytesAt_copyAt_other h3 (.inl (by decide)), hx₂,
      bytesAt_copyAt_other h2 (by rw [hc₁']; right; decide)]
    exact hself1
  · rw [hlast _ _ (.inr (by decide)) (.inr (by decide)), hx₄, bytesAt_copyAt_other h4 (.inl (by decide))]
    exact hself3
  · rw [hlast _ _ (.inr (by decide)) (.inr (by decide))]
    exact hself4

theorem naticmpout_returned (hlen : IP2 + IPMINLEN ≤ b.length)
    (h : naticmpout dv b a = (a', some (t, b'))) : ∃ n, Known a.st n ∧ t = n.tunnel ∧ Returned n b b' := by
  unfold naticmpout at h
  dsimp only at h
  split at h
  · cases h
  · rename_i nats n hl
    obtain ⟨hknown, houtside⟩ := natLookup_outside hl
    obtain ⟨hproto, hnsrc, hnport⟩ := outside_eq.mp houtside
    have hout := (Prod.mk.injEq _ _ _ _).mp h
    have hsecond := hout.2
    split at hsecond
    · cases hsecond
    · have hpair := Option.some.inj hsecond
      have htunnel : n.tunnel = t := congrArg Prod.fst hpair
      have hpacket : (if n.flags.prrNull then b else icmpoutError (binding n) b) = b' :=
        congrArg Prod.snd hpair
      refine ⟨n, hknown, htunnel.symm, ⟨hproto.symm, hnsrc.symm, hnport.symm⟩, ?_, ?_, ?_⟩
      · intro hprr
        rw [if_pos hprr] at hpacket
        exact hpacket.symm
      · intro hprr
        rw [if_neg (by rw [hprr]; decide)] at hpacket
        rw [← hpacket]
        exact (icmpoutError_bytes hlen).1
      · intro hprr
        rw [if_neg (by rw [hprr]; decide)] at hpacket
        rw [← hpacket]
        exact (icmpoutError_bytes hlen).2

/-! ### The loop -/

/-- Why a packet goes to a tunnel: an entry has its destination, or a prefix has. -/
inductive Routed (s : State) (b : Buf) : ℕ → Buf → Prop where
  | session {n : NatEntry} {b' : Buf} (hk : Known s n) (h : Delivered n b b') : Routed s b n.tunnel b'
  | error {n : NatEntry} {b' : Buf} (hk : Known s n) (h : Returned n b b') : Routed s b n.tunnel b'
  | routed {u : Tunnel} {b' : Buf} (hu : u ∈ s.tuns.nonats)
      (hin : inNonat s.tuns (b.drop IPDST) u = true) (h : SameFront b b') : Routed s b u.ptr b'

theorem nonatout_routed {s : State} {tc : Tunnel → TunnelConf} {u : Tunnel} (hmost : b.length ≤ IPMAXLEN)
    (h : nonatout tc s.tuns b = .through (some (u, b'))) : Routed s b u.ptr b' := by
  unfold nonatout at h
  split at h
  · cases h
  · rename_i x hfind
    have hin := List.find?_some hfind
    rw [Bool.and_eq_true] at hin
    split at h
    · cases h
    · split at h
      · obtain ⟨b₁, hpatch, hout⟩ := bind_through_iff.mp h
        cases hout
        exact .routed (List.mem_of_find?_eq_some hfind) hin.2 (patchTcpmss_kept hmost hpatch)
      · cases h
        exact .routed (List.mem_of_find?_eq_some hfind) hin.2 (.refl _)

/-- A whole packet the filter let through. -/
theorem sound_most (h : Sound b) : b.length ≤ IPMAXLEN := by
  have hshort := short_lt b IPLENH
  rw [h.total] at hshort
  change _ ≤ 65535
  omega

/-- The kinds of packets of `filterout`. -/
theorem outKind_fit {p : Ports} {ret : ℕ} (hb : Sound b) (h : outKind p ret b = 1) : Fit b := by
  refine ⟨hb.length, sound_most hb, ?_⟩
  intro hpr
  have htcp : byteAt b IPPROTO = IPTCP := by
    unfold protoAt at hpr
    by_contra hne
    rw [if_neg hne] at hpr
    split at hpr <;> cases hpr
  unfold outKind at h
  rw [if_pos htcp] at h
  split at h
  · cases h
  · rename_i hlong
    change ¬_ < 20 + 20 at hlong
    change 20 + 20 ≤ _
    omega

theorem outKind_quoted {p : Ports} {ret : ℕ} (hret : ret = 0 ∨ ret = 3) (h : outKind p ret b = 2) :
    IP2 + IPMINLEN ≤ b.length := by
  unfold outKind at h
  split at h
  · split at h
    · cases h
    · split at h
      · cases h
      · omega
  · split at h
    · split at h
      · cases h
      · omega
    · split at h
      · omega
      · split at h
        · cases h
        · split at h
          · rename_i hquoted
            unfold filtericmpout at hquoted
            by_contra hshort
            rw [if_pos (by omega)] at hquoted
            cases hquoted
          · omega

/-- Why something is written after a packet `b` of the Internet. -/
inductive Accounted (dv : Device) (dr : Drawn) (s s' : State) (b : Buf) : Written → Prop where
  | report {n : NatEntry} {e : Buf} (hk : Known s n)
      (h : Reported (dv.conf n.tunnel) dv.icmpsrc b e) : Accounted dv dr s s' b (.v4 e)
  | tunnelled {u : Tunnel} {b' x : Buf} (h : Routed s b u.ptr b') (hu : u ∈ s'.tuns.live)
      (hx : x ∈ encap ⟨dv.local6, remoteBytes u.remote, dr.fragid⟩ dv.eqfrag (dv.conf u.ptr).mtu b') :
      Accounted dv dr s s' b (.v6 x)

theorem encapTo_accounted {s s' : State} {w : Written} (h : Routed s b t b')
    (hw : w ∈ encapTo dv dr s' t b') : Accounted dv dr s s' b w := by
  unfold encapTo at hw
  split at hw
  · cases hw
  · rename_i remote hremote
    obtain ⟨u, hfind, hu⟩ := Option.map_eq_some_iff.mp hremote
    obtain ⟨x, hx, rfl⟩ := List.mem_map.mp hw
    have hptr : u.ptr = t := by simpa using List.find?_some hfind
    subst hptr
    rw [← hu] at hx
    exact .tunnelled h (List.mem_of_find?_eq_some hfind) hx

/-- The kinds behind the filter of the Internet. -/
theorem fromInternet_routed {f : Filtered} {errors : List Buf} {out : Option (ℕ × Buf)}
    (hch : Chained a.st)
    (hf : (f.ret = 0 ∧ f.icmp = false) ∨ Sound f.buf4 ∧
      ∃ ret, (ret = 0 ∨ ret = 3) ∧ (f.ret, f.icmp) = (outKind a.st.ports ret f.buf4, false))
    (h : fromInternet cfg dv dr f a = .through (a', errors, out)) :
    (∀ e ∈ errors, ∃ n, Known a.st n ∧ Reported (dv.conf n.tunnel) dv.icmpsrc f.buf4 e) ∧
      ∀ t b', out = some (t, b') → Routed a.st f.buf4 t b' := by
  unfold fromInternet at h
  rcases hf with ⟨hzero, -⟩ | ⟨hsound, ret, hret, hkind⟩
  · rw [hzero, if_neg (by decide), if_neg (by decide), if_neg (by decide)] at h
    cases h
    refine ⟨?_, ?_⟩
    · intro e he
      cases he
    · intro t b' hout
      cases hout
  · have hk : f.ret = outKind a.st.ports ret f.buf4 := congrArg Prod.fst hkind
    split at h
    · rename_i hone
      have hout := natout_delivered hch (outKind_fit hsound (hk.symm.trans hone)) h
      refine ⟨hout.1, ?_⟩
      intro t b' ho
      obtain ⟨n, hn, rfl, hdelivered⟩ := hout.2 t b' ho
      exact .session hn hdelivered
    · split at h
      · rename_i htwo
        have hlen := outKind_quoted hret (hk.symm.trans htwo)
        rcases hi : naticmpout dv f.buf4 a with ⟨a₁, o⟩
        rw [hi] at h
        cases h
        refine ⟨?_, ?_⟩
        · intro e he
          cases he
        · intro t b' ho
          cases ho
          obtain ⟨n, hn, rfl, hreturned⟩ := naticmpout_returned hlen hi
          exact .error hn hreturned
      · split at h
        · obtain ⟨o, hnonat, hrest⟩ := bind_through_iff.mp h
          cases hrest
          refine ⟨?_, ?_⟩
          · intro e he
            cases he
          · intro t b' ho
            obtain ⟨⟨u, b₁⟩, rfl, hu⟩ := Option.map_eq_some_iff.mp ho
            cases hu
            exact nonatout_routed (sound_most hsound) hnonat
        · cases h
          refine ⟨?_, ?_⟩
          · intro e he
            cases he
          · intro t b' hout
            cases hout

theorem finished_through {α : Type} {o : Option α} {x : α} (h : finished o = .through x) : o = some x := by
  unfold finished at h
  split at h
  · cases h
  · cases h
    rfl

/-- A packet of the Internet in a state whose chains hold. -/
theorem loop1_routed {ws : List Written} (hch : Chained a.st) (hv : byteAt buf 0 &&& IPVERMSK = IP4V)
    (h : loop1 cfg dv dr buf a = .through (a', ws)) : ws = [] ∨
      ∃ f, Filter.filterout cfg.frag a.st (a.st.frags.frags4.length + 1)
          { env := dr.filter, frags := a.st.frags, buf4 := buf } = some f ∧
        ∀ w ∈ ws, Accounted dv dr a.st a'.st f.buf4 w := by
  have hnot6 : ¬byteAt buf 0 &&& IPVERMSK = IP6V := by
    rw [hv]
    decide
  unfold loop1 at h
  rw [if_neg hnot6, if_pos hv] at h
  split at h
  · cases h
    exact .inl rfl
  · obtain ⟨f, hfilter, hrest⟩ := bind_through_iff.mp h
    have hsome := finished_through hfilter
    obtain ⟨⟨a₁, errors, out⟩, hinternet, hout⟩ := bind_through_iff.mp hrest
    have hleft := @filterout_moves cfg ⟨true, fun _ => False, True⟩ _ _ _ _ _ _ rfl hsome
    have hch' : Chained (liftFrags f.frags a).st :=
      hch.moved hleft.moves fun p => List.Subset.refl _
    obtain ⟨herrors, hrouted⟩ := @fromInternet_routed cfg dv dr (liftFrags f.frags a) a₁ f errors out
      hch' hleft.kind hinternet
    have hsame : ∀ n, Known (liftFrags f.frags a).st n → Known a.st n :=
      fun n hn => hn.congr rfl rfl
    have hroute : ∀ t b', Routed (liftFrags f.frags a).st f.buf4 t b' → Routed a.st f.buf4 t b' := by
      intro t b' hr
      cases hr with
      | session hk h => exact .session (hsame _ hk) h
      | error hk h => exact .error (hsame _ hk) h
      | routed hu hin h => exact .routed hu hin h
    cases hout
    refine .inr ⟨f, hsome, ?_⟩
    intro w hw
    rcases List.mem_append.mp hw with hw | hw
    · obtain ⟨e, he, rfl⟩ := List.mem_map.mp hw
      obtain ⟨n, hn, hreported⟩ := herrors e he
      exact .report (hsame n hn) hreported
    · cases out with
      | none => cases hw
      | some o =>
        exact encapTo_accounted (hroute o.1 o.2 (hrouted o.1 o.2 rfl)) hw

/-- What a packet makes the loop write. -/
def writtenBy : Result (Tables × List Written) → List Written
  | .through (_, ws) => ws
  | _ => []

theorem through_written {r : Result (Tables × List Written)} (h : writtenBy r ≠ []) :
    ∃ a', r = .through (a', writtenBy r) := by
  cases r with
  | through x => exact ⟨x.1, rfl⟩
  | outside => exact absurd rfl h
  | unfinished => exact absurd rfl h

def clientSyn : Buf :=
  [69, 0, 0, 40, 0, 1, 0, 0, 64, 6, 80, 144, 198, 51, 100, 5, 0, 0, 0, 7, 3, 232, 0, 21, 0, 0, 0,
    1, 0, 0, 0, 0, 80, 2, 16, 0, 113, 165, 0, 0]

def serverTables : Tables where
  st := run defaultConf serverState serverBoot
  ftpseq := fun _ => []

end WanStack.Aftr.Datapath
