import WanStack.Aftr.PacketShape

set_option autoImplicit false

/-!
# Packets too big for a tunnel

The ICMP error `toobigout` sends, and what `natout` goes on with after it.
-/
namespace WanStack.Aftr.Datapath
open Filter Ftp OnesComplement Tried

/-! ### Checksums that are filled in -/

section Fill

variable {b : Buf}

theorem fillHeader_length (h : IPMINLEN ≤ b.length) : (fillHeader b).length = b.length := by
  unfold IPMINLEN at h
  apply copyAt_length
  rw [twoBytes_length]
  change 10 + 2 ≤ _
  omega

theorem fillHeader_drop (h : IPMINLEN ≤ b.length) {k : ℕ} (hk : IPHDRLEN ≤ k) :
    (fillHeader b).drop k = b.drop k := by
  unfold IPMINLEN at h
  unfold IPHDRLEN at hk
  apply copyAt_drop_after
  · rw [twoBytes_length]
    change 10 + 2 ≤ _
    omega
  · rw [twoBytes_length]
    change 10 + 2 ≤ _
    omega

theorem fillHeader_byte (h : IPMINLEN ≤ b.length) {k : ℕ} (hk : k < 10 ∨ 12 ≤ k) :
    byteAt (fillHeader b) k = byteAt b k := by
  unfold IPMINLEN at h
  apply byteAt_copyAt_other
  · rw [twoBytes_length]
    change 10 + 2 ≤ _
    omega
  · rw [twoBytes_length]
    exact hk

/-- The header with the checksum `in_cksum` gave for it. -/
theorem fillHeader_header (h : IPMINLEN ≤ b.length) (h0 : byteAt b 0 = IP4VNOOP)
    (htotal : shortAt b IPLENH = b.length) (hzero : shortAt b IPCKSUMH = 0) : Header (fillHeader b) := by
  have hlen := fillHeader_length h
  have h20 : (b.take IPHDRLEN).length = 20 := by
    unfold IPMINLEN at h
    exact List.length_take_of_le (by change 20 ≤ _; omega)
  refine ⟨hlen ▸ h, ?_, ?_, ?_⟩
  · rw [fillHeader_byte h (.inl (by decide))]
    exact h0
  · rw [hlen, ← htotal, shortAt, shortAt, fillHeader_byte h (.inl (by decide)),
      fillHeader_byte h (.inl (by decide))]
  · have hword : shortAt (b.take IPHDRLEN) IPCKSUMH = 0 := by
      rw [← hzero, shortAt, shortAt, byteAt_take (by decide), byteAt_take (by decide)]
    unfold IPMINLEN at h
    rw [fillHeader, copyAt_take]
    · apply inCksum_filled
      · rw [h20]
        decide
      · decide
      · exact hword
      · omega
    · rw [twoBytes_length]
      decide
    · change 20 ≤ _
      omega

theorem fillIcmp_length (h : IPMINLEN ≤ b.length) : (fillIcmp b).length = b.length := by
  unfold IPMINLEN at h
  apply copyAt_length
  rw [twoBytes_length]
  change 22 + 2 ≤ _
  omega

theorem fillIcmp_take (h : IPMINLEN ≤ b.length) {k : ℕ} (hk : k ≤ 22) :
    (fillIcmp b).take k = b.take k := by
  unfold IPMINLEN at h
  apply copyAt_take_before hk
  omega

theorem fillIcmp_drop (h : IPMINLEN ≤ b.length) {k : ℕ} (hk : 24 ≤ k) :
    (fillIcmp b).drop k = b.drop k := by
  unfold IPMINLEN at h
  apply copyAt_drop_after
  · rw [twoBytes_length]
    change 22 + 2 ≤ _
    omega
  · rw [twoBytes_length]
    exact hk

theorem fillIcmp_summed (h : IPMINLEN ≤ b.length) (hmost : b.length ≤ IPMAXLEN)
    (hzero : shortAt b ICMPCKSUMH = 0) : inCksum ((fillIcmp b).drop IPHDRLEN) = 0 := by
  unfold IPMINLEN at h
  unfold IPMAXLEN at hmost
  have hlen : (b.drop IPHDRLEN).length = b.length - 20 := List.length_drop
  have hin : ICMPCKSUMH + (twoBytes (inCksum (b.drop IPHDRLEN))).length ≤ b.length := by
    rw [twoBytes_length]
    change 22 + 2 ≤ _
    omega
  rw [fillIcmp, copyAt_drop hin (by decide)]
  apply inCksum_filled
  · rw [hlen]
    change 2 + 2 ≤ _
    omega
  · decide
  · rw [← hzero, shortAt, shortAt, byteAt_drop_add, byteAt_drop_add]
    rfl
  · rw [hlen]
    omega

/-- The header before the ICMP part. -/
theorem fillIcmp_header (hb : Header b) : Header (fillIcmp b) := by
  have hbyte : ∀ j < 22, byteAt (fillIcmp b) j = byteAt b j := by
    intro j hj
    rw [← byteAt_take hj, fillIcmp_take hb.least (Nat.le_refl 22), byteAt_take hj]
  refine ⟨fillIcmp_length hb.least ▸ hb.least, ?_, ?_, ?_⟩
  · rw [hbyte 0 (by decide)]
    exact hb.byte0
  · rw [fillIcmp_length hb.least, ← hb.total, shortAt, shortAt, hbyte _ (by decide), hbyte _ (by decide)]
  · rw [fillIcmp_take hb.least (by decide)]
    exact hb.cksum

end Fill

/-! ### The error -/

/-- An ICMP error of the AFTR for the packet of which it quotes `q`. -/
structure ErrorPacket (src : Addr4) (dst : Buf) (type4 code4 : UInt8) (q e : Buf) : Prop where
  header : Header e
  proto : byteAt e IPPROTO = IPICMP
  src : bytesAt e IPSRC 4 = src.toList
  dst : bytesAt e IPDST 4 = dst
  kind : byteAt e ICMPTYPE = type4 ∧ byteAt e ICMPCODE = code4
  summed : inCksum (e.drop IPHDRLEN) = 0
  quoted : e.drop IP2 = q

section Headers

variable {icmpsrc : Addr4} {id : PortNo} {dst rest q : Buf} {len : ℕ} {type4 code4 : UInt8}

/-- The headers with their bytes. -/
theorem icmpHeaders_bytes (hdst : dst.length = 4) (hrest : rest.length = 4) :
    ∃ i0 i1 s0 s1 s2 s3 d0 d1 d2 d3 r0 r1 r2 r3, icmpsrc.toList = [s0, s1, s2, s3] ∧
      dst = [d0, d1, d2, d3] ∧ rest = [r0, r1, r2, r3] ∧
      icmpHeaders icmpsrc id dst len type4 code4 rest =
        [IP4VNOOP, 0, hi len, lo len, i0, i1, 0, 0, 64, IPICMP, 0, 0, s0, s1, s2, s3, d0, d1, d2, d3,
          type4, code4, 0, 0, r0, r1, r2, r3] := by
  rcases id with ⟨⟨id⟩, hid⟩
  rcases icmpsrc with ⟨⟨src⟩, hsrc⟩
  obtain ⟨i0, id, rfl⟩ := List.exists_cons_of_length_eq_add_one hid
  obtain ⟨i1, rfl⟩ := List.length_eq_one_iff.mp (Nat.succ.inj hid)
  obtain ⟨s0, src, rfl⟩ := List.exists_cons_of_length_eq_add_one hsrc
  obtain ⟨s1, s2, s3, rfl⟩ := List.length_eq_three.mp (Nat.succ.inj hsrc)
  obtain ⟨d0, dst, rfl⟩ := List.exists_cons_of_length_eq_add_one hdst
  obtain ⟨d1, d2, d3, rfl⟩ := List.length_eq_three.mp (Nat.succ.inj hdst)
  obtain ⟨r0, rest, rfl⟩ := List.exists_cons_of_length_eq_add_one hrest
  obtain ⟨r1, r2, r3, rfl⟩ := List.length_eq_three.mp (Nat.succ.inj hrest)
  exact ⟨i0, i1, s0, s1, s2, s3, d0, d1, d2, d3, r0, r1, r2, r3, rfl, rfl, rfl, rfl⟩

theorem icmpHeaders_length (hdst : dst.length = 4) (hrest : rest.length = 4) :
    (icmpHeaders icmpsrc id dst len type4 code4 rest).length = 28 := by
  obtain ⟨i0, i1, s0, s1, s2, s3, d0, d1, d2, d3, r0, r1, r2, r3, -, -, -, h⟩ :=
    @icmpHeaders_bytes icmpsrc id dst rest len type4 code4 hdst hrest
  rw [h]
  rfl

/-- The headers with the checksum of the first one. -/
theorem icmpHeaders_header (hdst : dst.length = 4) (hrest : rest.length = 4)
    (hmost : q.length + IP2 ≤ IPMAXLEN) (hleast : 8 ≤ q.length) :
    Header (fillHeader (icmpHeaders icmpsrc id dst (q.length + IP2) type4 code4 rest ++ q)) := by
  have hlen := @icmpHeaders_length icmpsrc id dst rest (q.length + IP2) type4 code4 hdst hrest
  have hall : (icmpHeaders icmpsrc id dst (q.length + IP2) type4 code4 rest ++ q).length =
      q.length + IP2 := by
    rw [List.length_append, hlen, Nat.add_comm]
    rfl
  obtain ⟨i0, i1, s0, s1, s2, s3, d0, d1, d2, d3, r0, r1, r2, r3, -, -, -, h⟩ :=
    @icmpHeaders_bytes icmpsrc id dst rest (q.length + IP2) type4 code4 hdst hrest
  unfold IPMAXLEN at hmost
  apply fillHeader_header
  · rw [hall]
    change 28 ≤ _ + 28
    omega
  · rw [h]
    rfl
  · rw [hall, h]
    change (hi (q.length + IP2)).toNat * 256 + (lo (q.length + IP2)).toNat = _
    rw [hi_toNat (by omega), lo_toNat]
    omega
  · rw [h]
    change (0 : UInt8).toNat * 256 + (0 : UInt8).toNat = 0
    decide

/-- The error with both checksums. -/
theorem icmpHeaders_error (hdst : dst.length = 4) (hrest : rest.length = 4)
    (hmost : q.length + IP2 ≤ IPMAXLEN) (hleast : 8 ≤ q.length) :
    ErrorPacket icmpsrc dst type4 code4 q
      (fillIcmp (fillHeader (icmpHeaders icmpsrc id dst (q.length + IP2) type4 code4 rest ++ q))) ∧
    bytesAt (fillIcmp (fillHeader (icmpHeaders icmpsrc id dst (q.length + IP2) type4 code4 rest ++ q)))
      ICMPID 4 = rest := by
  have hheader := @icmpHeaders_header icmpsrc id dst rest q type4 code4 hdst hrest hmost hleast
  have hlen := @icmpHeaders_length icmpsrc id dst rest (q.length + IP2) type4 code4 hdst hrest
  obtain ⟨i0, i1, s0, s1, s2, s3, d0, d1, d2, d3, r0, r1, r2, r3, hs, hd, hr, h⟩ :=
    @icmpHeaders_bytes icmpsrc id dst rest (q.length + IP2) type4 code4 hdst hrest
  obtain ⟨b, hb⟩ : ∃ b, b = icmpHeaders icmpsrc id dst (q.length + IP2) type4 code4 rest ++ q := ⟨_, rfl⟩
  rw [← hb] at hheader ⊢
  have hall : b.length = q.length + IP2 := by
    rw [hb, List.length_append, hlen, Nat.add_comm]
    rfl
  have hleast' : IPMINLEN ≤ b.length := by
    rw [hall]
    change 28 ≤ _ + 28
    omega
  have hbytes : ∀ j < 22, (j < 10 ∨ 12 ≤ j) → byteAt (fillIcmp (fillHeader b)) j = byteAt b j := by
    intro j hj hout
    rw [← byteAt_take hj, fillIcmp_take hheader.least (Nat.le_refl 22), byteAt_take hj,
      fillHeader_byte hleast' hout]
  have hrange : ∀ i n, 12 ≤ i → i + n ≤ 22 → bytesAt (fillIcmp (fillHeader b)) i n = bytesAt b i n := by
    intro i n hi hn
    rw [← bytesAt_take hn, fillIcmp_take hheader.least (Nat.le_refl 22), bytesAt_take hn, bytesAt,
      bytesAt, fillHeader, copyAt_drop_after]
    · unfold IPMINLEN at hleast'
      rw [twoBytes_length]
      change 10 + 2 ≤ _
      omega
    · rw [twoBytes_length]
      exact hi
  have hdrop : ∀ k, 24 ≤ k → (fillIcmp (fillHeader b)).drop k = b.drop k := by
    intro k hk
    rw [fillIcmp_drop hheader.least hk, fillHeader_drop hleast']
    change 20 ≤ k
    omega
  refine ⟨⟨fillIcmp_header hheader, ?_, ?_, ?_, ⟨?_, ?_⟩, ?_, ?_⟩, ?_⟩
  · rw [hbytes _ (by decide) (.inl (by decide)), hb, h]
    rfl
  · rw [hrange _ _ (by decide) (by decide), hb, h, hs]
    rfl
  · rw [hrange _ _ (by decide) (by decide), hb, h, hd]
    rfl
  · rw [hbytes _ (by decide) (.inr (by decide)), hb, h]
    rfl
  · rw [hbytes _ (by decide) (.inr (by decide)), hb, h]
    rfl
  · apply fillIcmp_summed hheader.least
    · rw [fillHeader_length hleast', hall]
      exact hmost
    · rw [shortAt, fillHeader_byte hleast' (.inr (by decide)), fillHeader_byte hleast' (.inr (by decide)),
        hb, h]
      change (0 : UInt8).toNat * 256 + (0 : UInt8).toNat = 0
      decide
  · rw [hdrop _ (by decide), hb, h]
    rfl
  · rw [bytesAt, hdrop _ (by decide), hb, h, hr]
    rfl

end Headers

section Reported

variable {c : TunnelConf} {icmpsrc : Addr4} {id : PortNo} {mtu : ℕ} {b : Buf}

theorem quoted_length (hlen : ICMPMAXLEN ≤ b.length) : (b.take ICMPMAXLEN).length = 200 :=
  List.length_take_of_le hlen

/-- What `toobigout` reports. -/
theorem toobigout_error (hlen : IPMINLEN ≤ b.length) :
    ErrorPacket icmpsrc (bytesAt b IPSRC 4) 3 4 (b.take ICMPMAXLEN) (toobigout icmpsrc id mtu b) ∧
      bytesAt (toobigout icmpsrc id mtu b) ICMPID 4 = [0, 0] ++ twoBytes (mtu - IP6HDRLEN) := by
  unfold IPMINLEN at hlen
  have hq : (b.take ICMPMAXLEN).length = min 200 b.length := List.length_take
  have hsrc : bytesAt (b.take ICMPMAXLEN) IPSRC 4 = bytesAt b IPSRC 4 := bytesAt_take (by decide)
  have herror := @icmpHeaders_error icmpsrc id (bytesAt b IPSRC 4) ([0, 0] ++ twoBytes (mtu - IP6HDRLEN))
    (b.take ICMPMAXLEN) 3 4 (bytesAt_length (by change 12 + 4 ≤ _; omega)) rfl
    (by rw [hq]; change _ + 28 ≤ 65535; omega) (by rw [hq]; omega)
  rw [← hsrc] at herror ⊢
  exact herror

theorem toobigout_length (hlen : ICMPMAXLEN ≤ b.length) : (toobigout icmpsrc id mtu b).length = 228 := by
  have hleast : IPMINLEN ≤ b.length := Nat.le_trans (by decide) hlen
  have herror := (@toobigout_error icmpsrc id mtu b hleast).1
  have hdrop := congrArg List.length herror.quoted
  have hmin := herror.header.least
  unfold IPMINLEN at hmin
  rw [List.length_drop, quoted_length hlen] at hdrop
  change _ - 28 = 200 at hdrop
  omega

theorem isTooBig_length (hbig : isTooBig c.mtu b = true) : 1240 < b.length := by
  have hmtu := c.mtuMin
  unfold TUNMINMTU at hmtu
  unfold isTooBig at hbig
  simp only [Bool.and_eq_true, decide_eq_true_eq] at hbig
  have hlong := hbig.2
  unfold IP6HDRLEN at hlong
  omega

/-- The policy "on": the error, and as many bytes as it has. -/
theorem tooBig_on (hon : c.tbicmp = true) (hdrop : c.tbdrop = false) (hbig : isTooBig c.mtu b = true) :
    tooBig c icmpsrc id b =
      if b.length > 1500 then .outside
      else .through ([toobigout icmpsrc id c.mtu b], some (b.take 228)) := by
  have hlen := isTooBig_length hbig
  have herror : (toobigout icmpsrc id c.mtu b).length = 228 :=
    toobigout_length (by change 200 ≤ _; omega)
  unfold tooBig
  dsimp only
  rw [hbig, hon, hdrop, herror]
  rfl

end Reported

/-! ### The packet that is sent on -/

section Forward

variable {cfg : Conf} {dv : Device} {dr : Drawn} {env : NatEnv} {c : TunnelConf} {b b' : Buf}
  {n : NatEntry} {a a' : Tables} {t : ℕ} {errors : List Buf}

theorem natoutRest_length (hlen : IPHDRLEN + TCPHDRLEN ≤ b.length) (hmost : b.length ≤ IPMAXLEN)
    (h : natoutRest cfg env c b n a = .through (a', some (t, b'))) : b'.length = b.length := by
  have hleast : IPMINLEN ≤ b.length := Nat.le_trans (by decide) hlen
  have hrewrite : (natoutRewrite (binding n) b).length = b.length :=
    (rewrite_rewritten (placed_out (binding n)) hleast fun _ => hlen).length
  unfold natoutRest at h
  dsimp only at h
  by_cases htcp : n.proto ≠ .tcp
  · rw [if_pos htcp] at h
    cases h
    exact hrewrite
  · rw [if_neg htcp] at h
    obtain ⟨b₁, hpatch, hrest⟩ := bind_through_iff.mp h
    have hfront := patchTcpmss_front (hrewrite ▸ hlen) (hrewrite ▸ hmost) hpatch
    have hlen₁ : b₁.length = b.length := hfront.length.trans hrewrite
    have hfix : ∀ l, (Ftp.fromInternet b₁ l).length = b.length := fun l =>
      (fixFtpsacksum_front (.inr rfl) (hlen₁ ▸ hlen)).length.trans hlen₁
    split at hrest
    · cases hrest
    · cases hrest
      split
      · exact hfix _
      · exact hlen₁

theorem natoutFound_on (hon : (dv.conf n.tunnel).tbicmp = true)
    (hdrop : (dv.conf n.tunnel).tbdrop = false) (hbig : isTooBig (dv.conf n.tunnel).mtu b = true)
    (h : natoutFound cfg dv dr b n a = .through (a', errors, some (t, b'))) :
    errors = [toobigout dv.icmpsrc dr.id (dv.conf n.tunnel).mtu b] ∧ b'.length = 228 := by
  have hlong := isTooBig_length hbig
  have hcut : (b.take 228).length = 228 := List.length_take_of_le (by omega)
  have hleast : IPHDRLEN + TCPHDRLEN ≤ (b.take 228).length := by
    rw [hcut]
    decide
  have hmost : (b.take 228).length ≤ IPMAXLEN := by
    rw [hcut]
    decide
  unfold natoutFound at h
  by_cases hpeer : n.flags.ftpData && n.dst ≠ addrAt b IPSRC
  · rw [if_pos hpeer] at h
    cases h
  · rw [if_neg hpeer, tooBig_on hon hdrop hbig] at h
    by_cases hbuf : b.length > 1500
    · rw [if_pos hbuf] at h
      cases h
    · rw [if_neg hbuf] at h
      obtain ⟨r, hr, hrest⟩ := bind_through_iff.mp h
      cases hr
      dsimp only at hrest
      by_cases hprr : n.flags.prrNull = true
      · rw [if_pos hprr] at hrest
        by_cases htcp : protoAt (b.take 228) = .tcp
        · rw [if_pos htcp] at hrest
          obtain ⟨b₁, hpatch, hout⟩ := bind_through_iff.mp hrest
          cases hout
          exact ⟨rfl, (patchTcpmss_front hleast hmost hpatch).length.trans hcut⟩
        · rw [if_neg htcp] at hrest
          cases hrest
          exact ⟨rfl, hcut⟩
      · rw [if_neg hprr] at hrest
        obtain ⟨⟨a₁, out⟩, hrun, hout⟩ := bind_through_iff.mp hrest
        cases hout
        exact ⟨rfl, (natoutRest_length hleast hmost hrun).trans hcut⟩

/-- A packet too big for a tunnel with the policy "on": the error goes out, and the first 228
    bytes go on. -/
theorem natout_on
    (hfound : (a.st.nats.natLookup (protoAt b) (outKey (outPkt b)) a.st.ctl.lastgen).2 = some n)
    (hon : (dv.conf n.tunnel).tbicmp = true) (hdrop : (dv.conf n.tunnel).tbdrop = false)
    (hbig : isTooBig (dv.conf n.tunnel).mtu b = true)
    (h : natout cfg dv dr b a = .through (a', errors, some (t, b'))) :
    errors = [toobigout dv.icmpsrc dr.id (dv.conf n.tunnel).mtu b] ∧ b'.length = 228 := by
  unfold natout at h
  split at h
  · cases h
  · rename_i nats m hm
    rw [hm] at hfound
    cases hfound
    exact natoutFound_on hon hdrop hbig h

/-- The bytes of IPv4 an IPv6 packet carries. -/
def carriedBy : Written → Buf
  | .v4 _ => []
  | .v6 b => b.drop (if byteAt b IP6PROTO = IP6FRAG then IP6HDRLEN + 8 else IP6HDRLEN)

def carried (ws : List Written) : Buf := ws.flatMap carriedBy

/-- One IPv6 packet is enough. -/
theorem carried_encapTo {s : State} (h : b.length + IP6HDRLEN ≤ (dv.conf t).mtu) :
    (carried (encapTo dv dr s t b)).length ≤ b.length := by
  unfold encapTo
  split
  · exact Nat.zero_le _
  · rename_i remote hremote
    obtain ⟨o, ho⟩ : ∃ o : Outer, o = ⟨dv.local6, remoteBytes remote, dr.fragid⟩ := ⟨_, rfl⟩
    have hproto : byteAt (ip6Header o b.length ++ b) IP6PROTO ≠ IP6FRAG := by
      rw [byteAt_append_left (by rw [ip6Header_length]; decide)]
      change IP6IP4 ≠ IP6FRAG
      decide
    have hlen : (ip6Header o b.length ++ b).length = IP6HDRLEN + b.length := by
      rw [List.length_append, ip6Header_length]
    rw [← ho, encap, if_pos h]
    change (carriedBy (.v6 (ip6Header o b.length ++ b)) ++ []).length ≤ _
    rw [List.append_nil, carriedBy, if_neg hproto, List.length_drop, hlen]
    omega

/-- `natout` and `encap`: the error, and then all the bytes of the packet to the tunnel. -/
def ForwardsWhole (cfg : Conf) (dv : Device) (dr : Drawn) (b : Buf) (n : NatEntry) (a : Tables) :
    Prop :=
  ∃ a' t b', natout cfg dv dr b a =
      .through (a', [toobigout dv.icmpsrc dr.id (dv.conf n.tunnel).mtu b], some (t, b')) ∧
    (carried (encapTo dv dr a'.st t b')).length = b.length

/-- The length of the error is also the length of what goes on. -/
theorem cut_short
    (hfound : (a.st.nats.natLookup (protoAt b) (outKey (outPkt b)) a.st.ctl.lastgen).2 = some n)
    (hon : (dv.conf n.tunnel).tbicmp = true) (hdrop : (dv.conf n.tunnel).tbdrop = false)
    (hbig : isTooBig (dv.conf n.tunnel).mtu b = true)
    (h : natout cfg dv dr b a = .through (a', errors, some (t, b'))) (s : State) :
    (carried (encapTo dv dr s t b')).length < b.length := by
  have hlong := isTooBig_length hbig
  have hmtu := (dv.conf t).mtuMin
  have hcut := (natout_on hfound hon hdrop hbig h).2
  have hcarried := @carried_encapTo dv dr b' t s (by unfold TUNMINMTU at hmtu; unfold IP6HDRLEN; omega)
  omega

theorem too_big_on
    (hfound : (a.st.nats.natLookup (protoAt b) (outKey (outPkt b)) a.st.ctl.lastgen).2 = some n)
    (hon : (dv.conf n.tunnel).tbicmp = true) (hdrop : (dv.conf n.tunnel).tbdrop = false)
    (hbig : isTooBig (dv.conf n.tunnel).mtu b = true) : ¬ForwardsWhole cfg dv dr b n a := by
  intro h
  obtain ⟨a', t, b', hout, hlen⟩ := h
  have hshort := cut_short hfound hon hdrop hbig hout a'.st
  omega

end Forward

/-! ### A datagram of 1400 bytes -/

/-- A datagram that may not be fragmented, for the entry below. -/
def bigDatagram : Buf :=
  [69, 0, 5, 120, 0, 1, 64, 0, 64, 17, 207, 49, 198, 51, 100, 5, 203, 0, 113, 9, 0, 53, 15, 160, 5, 100,
    0, 0] ++ List.replicate 1372 7

def bigEntry : NatEntry :=
  { ptr := 1, tunnel := 1, proto := .udp, flags := { matchPort := true }, src := 0x0a000001,
    nsrc := 0xcb007109, dst := 0xc6336405, sport := 1024, nport := 4000, dport := 53 }

def onTunnel : TunnelConf where
  mtu := 1280
  mssflg := false
  tbdrop := false
  tbicmp := true
  mtuMin := patching.mtuMin
  mtuMax := patching.mtuMax

def onDevice : Device where
  local6 := Vector.replicate 16 1
  icmpsrc := #v[192, 0, 0, 1]
  acls := {}
  conf := fun _ => onTunnel
  eqfrag := true
  autotunnel := false

def plainDrawn : Drawn where
  outer := plainEnv
  filter := plainEnv.toEnv
  env := plainEnv
  id := #v[0, 2]
  fragid := #v[0, 0, 0, 3]
  junk := (0, 0)
  stale := List.replicate 66 0
  room := by decide

/-- One tunnel, and the entry of a client behind it. -/
def oneEntry : Tables where
  st :=
    { nats := (Nats.link .udp bigEntry {}).1
      tuns := { tree := (Radix.insert Tunnel.remote bitAt MAXTUNBIT ⟨1, 9⟩ none).1 } }
  ftpseq := fun _ => []

theorem oneEntry_found : (oneEntry.st.nats.natLookup (protoAt bigDatagram) (outKey (outPkt bigDatagram))
    oneEntry.st.ctl.lastgen).2 = some bigEntry := by
  decide +kernel

theorem bigDatagram_big : isTooBig (onDevice.conf bigEntry.tunnel).mtu bigDatagram = true := by
  decide +kernel

theorem bigDatagram_sound : Sound bigDatagram where
  length := by decide +kernel
  total := by decide +kernel
  byte0 := by decide +kernel
  whole := by decide +kernel
  cksum := by decide +kernel
  proto := by decide +kernel
  loopback := by decide +kernel
  unicast := by decide +kernel

theorem too_big_on_cut : Sound bigDatagram ∧ remoteOf oneEntry.st bigEntry.tunnel = some 9 ∧
    (oneEntry.st.nats.natLookup (protoAt bigDatagram) (outKey (outPkt bigDatagram))
      oneEntry.st.ctl.lastgen).2 = some bigEntry ∧
    (onDevice.conf bigEntry.tunnel).tbicmp = true ∧ (onDevice.conf bigEntry.tunnel).tbdrop = false ∧
    isTooBig (onDevice.conf bigEntry.tunnel).mtu bigDatagram = true ∧
    ¬ForwardsWhole {} onDevice plainDrawn bigDatagram bigEntry oneEntry := by
  refine ⟨bigDatagram_sound, by decide +kernel, oneEntry_found, rfl, rfl, bigDatagram_big, ?_⟩
  intro h
  obtain ⟨a', t, b', hout, hlen⟩ := h
  have hshort := cut_short oneEntry_found rfl rfl bigDatagram_big hout a'.st
  omega

theorem too_big_on_datagram : ¬ForwardsWhole {} onDevice plainDrawn bigDatagram bigEntry oneEntry :=
  too_big_on oneEntry_found rfl rfl bigDatagram_big

end WanStack.Aftr.Datapath
