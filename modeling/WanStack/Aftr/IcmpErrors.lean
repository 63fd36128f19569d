import WanStack.Aftr.TooBig
import WanStack.Aftr.Wildcards

set_option autoImplicit false

/-!
# ICMP errors

`naticmpin` and `naticmpout` look up the entry of the packet an error quotes and rewrite
the error and the quoted packet.
-/
namespace WanStack.Aftr.Datapath
open Filter Ftp OnesComplement Tried BinaryTree SearchTree FieldOrder

/-! ### Bytes behind the headers -/

section Behind

variable {heads q s v : Buf} {i : ℕ} {pr : Pr} {r : Rewriting}

theorem copyAt_behind (h : heads.length = IP2) : copyAt (heads ++ q) (IP2 + i) v = heads ++ copyAt q i v := by
  have htake : (heads ++ q).take (IP2 + i) = heads ++ q.take i := by
    rw [← h]
    exact List.take_length_add_append i
  have hdrop : (heads ++ q).drop (IP2 + i + v.length) = q.drop (i + v.length) := by
    rw [← h, Nat.add_assoc]
    exact List.drop_length_add_append _
  rw [copyAt, htake, hdrop, copyAt]
  simp only [List.append_assoc]

theorem byteAt_behind (h : heads.length = IP2) : byteAt (heads ++ q) (IP2 + i) = byteAt q i := by
  rw [byteAt_append_right (by omega), h, Nat.add_sub_cancel_left]

theorem shortAt_behind (h : heads.length = IP2) : shortAt (heads ++ q) (IP2 + i) = shortAt q i := by
  unfold shortAt
  rw [Nat.add_assoc, byteAt_behind h, byteAt_behind h]

theorem fixCksumAt_behind {addr : Option (Addr4 × Addr4)} {port : Option (PortNo × PortNo)}
    (h : heads.length = IP2) :
    fixCksumAt (heads ++ q) (IP2 + i) addr port = heads ++ fixCksumAt q i addr port := by
  unfold fixCksumAt
  rw [shortAt_behind h, copyAt_behind h]

/-- A write that ends before what is appended. -/
theorem copyAt_append (h : i + v.length ≤ q.length) : copyAt (q ++ s) i v = copyAt q i v ++ s := by
  rw [copyAt, copyAt, List.take_append_of_le_length (by omega), List.drop_append_of_le_length h]
  simp only [List.append_assoc]

theorem shortAt_append (h : i + 2 ≤ q.length) : shortAt (q ++ s) i = shortAt q i := by
  unfold shortAt
  rw [byteAt_append_left (by omega), byteAt_append_left (by omega)]

theorem fixCksumAt_append {addr : Option (Addr4 × Addr4)} {port : Option (PortNo × PortNo)}
    (h : i + 2 ≤ q.length) : fixCksumAt (q ++ s) i addr port = fixCksumAt q i addr port ++ s := by
  unfold fixCksumAt
  rw [shortAt_append h, copyAt_append (by rw [twoBytes_length]; exact h)]

/-- A packet long enough for what is rewritten. -/
theorem rewrite_append (h : Placed pr r) (hlen : IPMINLEN ≤ q.length)
    (htcp : pr = .tcp → IPHDRLEN + TCPHDRLEN ≤ q.length) :
    rewrite pr r (q ++ s) = rewrite pr r q ++ s := by
  have ha := placed_addrAt h
  have hp := placed_portAt h
  obtain ⟨hfrom, hto⟩ := cksumAt_le hlen htcp
  unfold IPMINLEN at hlen
  have h1 : (copyAt q r.addrAt r.naddr.toList).length = q.length :=
    copyAt_length (by rw [Vector.length_toList]; omega)
  have h2 : (fixCksumAt (copyAt q r.addrAt r.naddr.toList) IPCKSUMH (some (r.oaddr, r.naddr))
      none).length = q.length := by
    rw [fixCksumAt, copyAt_length, h1]
    rw [h1, twoBytes_length]
    change 10 + 2 ≤ _
    omega
  have h3 : (copyAt (fixCksumAt (copyAt q r.addrAt r.naddr.toList) IPCKSUMH
      (some (r.oaddr, r.naddr)) none) r.portAt r.nport.toList).length = q.length := by
    rw [copyAt_length, h2]
    rw [h2, Vector.length_toList]
    omega
  simp only [rewrite]
  rw [copyAt_append, fixCksumAt_append, copyAt_append, shortAt_append, fixCksumAt_append]
  · split <;> rfl
  · rw [h3]
    exact hto
  · rw [h3]
    change 26 + 2 ≤ _
    omega
  · rw [h2, Vector.length_toList]
    omega
  · rw [h1]
    change 10 + 2 ≤ _
    omega
  · rw [Vector.length_toList]
    omega

end Behind

/-! ### The quoted packet -/

/-- The destination of the quoted packet, as it is before `natout`. -/
def requoting (n : Binding) : Rewriting where
  addrAt := IPDST
  portAt := IPDPORT
  oaddr := n.src
  naddr := n.nsrc
  oport := n.sport
  nport := n.nport

section Quoted

variable {n : Binding} {heads q stale b : Buf}

theorem placed_quoted (hpr : n.proto ≠ .icmp) : Placed n.proto (requoting n) where
  addrAt := .inr rfl
  icmp h := absurd h hpr
  ports _ := .inr rfl

/-- `requote` is the rewriting of the quoted packet behind the headers. -/
theorem requote_behind (h : heads.length = IP2) (hpr : n.proto ≠ .icmp) :
    requote n (heads ++ q) = heads ++ rewrite n.proto (requoting n) q := by
  simp only [requote]
  rw [copyAt_behind h, fixCksumAt_behind h, copyAt_behind h, shortAt_behind h, fixCksumAt_behind h,
    fixCksumAt_behind h]
  cases hn : n.proto with
  | icmp => exact absurd hn hpr
  | tcp =>
    simp only [rewrite, covered, cksumAt]
    rfl
  | udp =>
    simp only [rewrite, covered, cksumAt]
    by_cases h0 : shortAt (copyAt (fixCksumAt (copyAt q IPDST n.nsrc.toList) IPCKSUMH
        (some (n.src, n.nsrc)) none) IPDPORT n.nport.toList) UDPCKSUMH = 0
    · rw [if_neg (by decide), if_neg (fun hne => hne h0)]
      simp only [requoting, h0]
      rfl
    · rw [if_neg (by decide), if_pos h0]
      simp only [requoting, h0]
      rfl

/-- The quoted packet after it, in a buffer with room behind it. -/
def requoted (n : Binding) (stale q : Buf) : Buf :=
  (rewrite n.proto (requoting n) (q ++ stale)).take q.length

theorem behind_requote (h : heads.length = IP2) (hpr : n.proto ≠ .icmp) :
    behind stale (requote n) (heads ++ q) = heads ++ requoted n stale q := by
  have hlen : (heads ++ q).length = IP2 + q.length := by rw [List.length_append, h]
  rw [behind, List.append_assoc, requote_behind h hpr, hlen, ← h, requoted]
  exact List.take_length_add_append _

theorem requoted_rewritten (hpr : n.proto ≠ .icmp) (hq : IPMINLEN ≤ q.length)
    (hstale : IP2 + TCPCKSUMH + 2 ≤ stale.length) :
    Rewritten (requoting n) (q ++ stale) (rewrite n.proto (requoting n) (q ++ stale)) := by
  have hlen : (q ++ stale).length = q.length + stale.length := List.length_append
  change 28 + 36 + 2 ≤ _ at hstale
  apply rewrite_rewritten (placed_quoted hpr)
  · rw [hlen]
    omega
  · intro _
    rw [hlen]
    change 20 + 20 ≤ _
    omega

theorem requoted_length (hpr : n.proto ≠ .icmp) (hq : IPMINLEN ≤ q.length)
    (hstale : IP2 + TCPCKSUMH + 2 ≤ stale.length) : (requoted n stale q).length = q.length := by
  have hr := requoted_rewritten hpr hq hstale
  apply List.length_take_of_le
  rw [hr.length, List.length_append]
  omega

/-- The destination of the quoted packet, and its header. -/
theorem requoted_header (hpr : n.proto ≠ .icmp) (hq : IPMINLEN ≤ q.length)
    (hstale : IP2 + TCPCKSUMH + 2 ≤ stale.length) (h0 : byteAt q 0 = IP4VNOOP)
    (hdst : bytesAt q IPDST 4 = n.src.toList) (hsum : inCksum (q.take IPHDRLEN) = 0) :
    bytesAt (requoted n stale q) IPDST 4 = n.nsrc.toList ∧
      bytesAt (requoted n stale q) IPDPORT 2 = n.nport.toList ∧
      inCksum ((requoted n stale q).take IPHDRLEN) = 0 := by
  have hr := requoted_rewritten hpr hq hstale
  have hall : IPMINLEN ≤ (q ++ stale).length := by
    rw [List.length_append]
    omega
  unfold IPMINLEN at hq
  have hhead : (q ++ stale).take IPHDRLEN = q.take IPHDRLEN :=
    List.take_append_of_le_length (by change 20 ≤ _; omega)
  have h20 : (q.take IPHDRLEN).length = 20 := List.length_take_of_le (by change 20 ≤ _; omega)
  refine ⟨?_, ?_, ?_⟩
  · rw [requoted, bytesAt_take (by change 16 + 4 ≤ _; omega)]
    exact hr.addr (placed_quoted hpr) hall
  · rw [requoted, bytesAt_take (by change 22 + 2 ≤ _; omega)]
    exact hr.port
  · have htake : (requoted n stale q).take IPHDRLEN =
        (rewrite n.proto (requoting n) (q ++ stale)).take IPHDRLEN := by
      rw [requoted, List.take_take, Nat.min_eq_left (by change 20 ≤ _; omega)]
    have hword : shortAt (q ++ stale) IPCKSUMH = shortAt (q.take IPHDRLEN) IPCKSUMH := by
      rw [← hhead, shortAt, shortAt, byteAt_take (by decide), byteAt_take (by decide)]
    rw [htake, hr.head, hhead, hword]
    apply readdressed_summed h20 (.inr rfl)
    · rw [bytesAt_take (by decide)]
      exact hdst
    · rw [byteAt_take (by decide)]
      exact h0
    · exact hsum

end Quoted

/-! ### The checksum of the message -/

section Message

variable {b : Buf}

/-- The sum over the message with a checksum that was there before. -/
theorem fillIcmp_summed_iff (h : IPMINLEN ≤ b.length) (hmost : b.length ≤ IPMAXLEN)
    (hkind : byteAt b ICMPTYPE ≠ 0) :
    inCksum ((fillIcmp b).drop IPHDRLEN) = 0 ↔
      shortAt b ICMPCKSUMH = 0 ∨ shortAt b ICMPCKSUMH = 65535 := by
  unfold IPMINLEN at h
  unfold IPMAXLEN at hmost
  have hlen : (b.drop IPHDRLEN).length = b.length - 20 := List.length_drop
  have hin : ICMPCKSUMH + (twoBytes (inCksum (b.drop IPHDRLEN))).length ≤ b.length := by
    rw [twoBytes_length]
    change 22 + 2 ≤ _
    omega
  have hin' : ICMPCKSUMH - IPHDRLEN + (twoBytes (inCksum (b.drop IPHDRLEN))).length ≤
      (b.drop IPHDRLEN).length := by
    rw [hlen, twoBytes_length]
    change 2 + 2 ≤ _
    omega
  have hle := cksumSum_le (b.drop IPHDRLEN)
  have hfold : inCksum (b.drop IPHDRLEN) = cksum 65535 (cksumSum (b.drop IPHDRLEN)) :=
    cksumFold_eq (by omega)
  have hdvd := @cksum_dvd 65535 (cksumSum (b.drop IPHDRLEN)) (by omega)
  have hlt : inCksum (b.drop IPHDRLEN) < 65536 := cksumFold_lt _
  -- the word that was there goes out, the new one comes in
  have hsum := cksumSum_copyAt (v := twoBytes (inCksum (b.drop IPHDRLEN))) hin' (by decide)
    (by rw [twoBytes_length])
  have hword : cksumSum (bytesAt (b.drop IPHDRLEN) (ICMPCKSUMH - IPHDRLEN) 2) = shortAt b ICMPCKSUMH := by
    rw [cksumSum_two (by rw [hlen]; change 2 + 2 ≤ _; omega), shortAt, shortAt, byteAt_drop_add,
      byteAt_drop_add]
    rfl
  rw [twoBytes_length, hword, twoBytes_sum hlt] at hsum
  have hpos : 0 < cksumSum (copyAt (b.drop IPHDRLEN) (ICMPCKSUMH - IPHDRLEN)
      (twoBytes (inCksum (b.drop IPHDRLEN)))) := by
    apply cksumSum_pos 0
    rw [byteAt_copyAt_other hin' (.inl (by decide)), byteAt_drop_add]
    exact hkind
  have hshort := short_lt b ICMPCKSUMH
  rw [fillIcmp, copyAt_drop hin (by decide), inCksum_eq_zero (by rw [copyAt_length hin']; omega)]
  rw [← hfold] at hdvd
  constructor
  · intro hzero
    obtain ⟨x, hx⟩ := hzero.1
    obtain ⟨y, hy⟩ := hdvd
    omega
  · intro hzero
    refine ⟨?_, hpos⟩
    obtain ⟨y, hy⟩ := hdvd
    rcases hzero with hzero | hzero
    · exact ⟨y, by omega⟩
    · exact ⟨y - 1, by omega⟩

end Message

/-! ### The error that is sent -/

section Sent

variable {icmpsrc : Addr4} {id : PortNo} {n : Binding} {heads q stale : Buf}

/-- The headers of an error from the host itself. -/
theorem endToEnd_heads (h : heads.length = IP2) (h0 : byteAt heads 0 = IP4VNOOP)
    (hsrc : bytesAt heads IPSRC 4 = n.src.toList) (hsum : inCksum (heads.take IPHDRLEN) = 0) :
    ∃ heads', heads'.length = IP2 ∧ inCksum (heads'.take IPHDRLEN) = 0 ∧
      byteAt heads' ICMPTYPE = byteAt heads ICMPTYPE ∧
      shortAt heads' ICMPCKSUMH = shortAt heads ICMPCKSUMH ∧
      fixCksumAt (copyAt (heads ++ q) IPSRC n.nsrc.toList) IPCKSUMH (some (n.src, n.nsrc)) none =
        heads' ++ q := by
  change _ = 28 at h
  have hin : IPSRC + n.nsrc.toList.length ≤ heads.length := by
    rw [Vector.length_toList, h]
    decide
  have h1 : (copyAt heads IPSRC n.nsrc.toList).length = 28 := (copyAt_length hin).trans h
  have hword : shortAt (copyAt heads IPSRC n.nsrc.toList) IPCKSUMH =
      shortAt (heads.take IPHDRLEN) IPCKSUMH := by
    rw [shortAt_copyAt_other hin (by rw [h]; decide) (.inl (by decide)), shortAt, shortAt,
      byteAt_take (by decide), byteAt_take (by decide)]
  obtain ⟨c, hc⟩ : ∃ c, c = fixCksum (shortAt (heads.take IPHDRLEN) IPCKSUMH) (some (n.src, n.nsrc))
    none := ⟨_, rfl⟩
  have hfill : IPCKSUMH + (twoBytes c).length ≤ (copyAt heads IPSRC n.nsrc.toList).length := by
    rw [h1, twoBytes_length]
    decide
  refine ⟨copyAt (copyAt heads IPSRC n.nsrc.toList) IPCKSUMH (twoBytes c), ?_, ?_, ?_, ?_, ?_⟩
  · rw [copyAt_length hfill, h1]
    rfl
  · have htake : (heads.take IPHDRLEN).length = 20 := by
      rw [List.length_take, h]
      rfl
    rw [copyAt_take, copyAt_take, hc]
    · apply readdressed_summed htake (.inl rfl)
      · rw [bytesAt_take (by decide)]
        exact hsrc
      · rw [byteAt_take (by decide)]
        exact h0
      · exact hsum
    · rw [Vector.length_toList]
      decide
    · rw [h]
      decide
    · rw [twoBytes_length]
      decide
    · rw [h1]
      decide
  · rw [byteAt_copyAt_other hfill, byteAt_copyAt_other hin]
    · rw [Vector.length_toList]
      right
      decide
    · rw [twoBytes_length]
      right
      decide
  · rw [shortAt_copyAt_other hfill, shortAt_copyAt_other hin]
    · rw [h]
      decide
    · rw [Vector.length_toList]
      right
      decide
    · rw [h1]
      decide
    · rw [twoBytes_length]
      right
      decide
  · rw [copyAt_append hin, fixCksumAt_append (by rw [h1]; decide), fixCksumAt, hword, ← hc]

/-- The headers of an error from a router. -/
theorem transit_heads {len : ℕ} {dst rest : Buf} {type4 code4 : UInt8} (hdst : dst.length = 4)
    (hrest : rest.length = 4) (hlen : len = q.length + IP2) (hmost : q.length + IP2 ≤ IPMAXLEN)
    (hleast : 8 ≤ q.length) :
    ∃ heads', heads'.length = IP2 ∧ inCksum (heads'.take IPHDRLEN) = 0 ∧
      byteAt heads' ICMPTYPE = type4 ∧ shortAt heads' ICMPCKSUMH = 0 ∧
      fillHeader (icmpHeaders icmpsrc id dst len type4 code4 rest ++ q) = heads' ++ q := by
  subst hlen
  have hheader := @icmpHeaders_header icmpsrc id dst rest q type4 code4 hdst hrest hmost hleast
  have hh := @icmpHeaders_length icmpsrc id dst rest (q.length + IP2) type4 code4 hdst hrest
  obtain ⟨i0, i1, s0, s1, s2, s3, d0, d1, d2, d3, r0, r1, r2, r3, -, -, -, hbytes⟩ :=
    @icmpHeaders_bytes icmpsrc id dst rest (q.length + IP2) type4 code4 hdst hrest
  obtain ⟨h, hhd⟩ : ∃ h, h = icmpHeaders icmpsrc id dst (q.length + IP2) type4 code4 rest := ⟨_, rfl⟩
  rw [← hhd] at hheader hh hbytes ⊢
  obtain ⟨c, hc⟩ : ∃ c, c = inCksum ((h ++ q).take IPHDRLEN) := ⟨_, rfl⟩
  have hin : IPCKSUMH + (twoBytes c).length ≤ h.length := by
    rw [hh, twoBytes_length]
    decide
  have heq : fillHeader (h ++ q) = copyAt h IPCKSUMH (twoBytes c) ++ q := by
    rw [fillHeader, ← hc, copyAt_append hin]
  have hlen' := copyAt_length hin
  refine ⟨copyAt h IPCKSUMH (twoBytes c), ?_, ?_, ?_, ?_, heq⟩
  · rw [hlen', hh]
    rfl
  · have hcksum := hheader.cksum
    rw [heq, List.take_append_of_le_length (by rw [hlen', hh]; decide)] at hcksum
    exact hcksum
  · rw [byteAt_copyAt_other hin (.inr (by rw [twoBytes_length]; decide)), hbytes]
    rfl
  · rw [shortAt_copyAt_other hin (by rw [hh]; decide) (.inr (by rw [twoBytes_length]; decide)), hbytes]
    change (0 : UInt8).toNat * 256 + (0 : UInt8).toNat = 0
    decide

/-- The error is its headers, with a sum that is filled in, and the quoted packet. -/
theorem icmpinError_eq (h : heads.length = IP2) (h0 : byteAt heads 0 = IP4VNOOP)
    (hsum : inCksum (heads.take IPHDRLEN) = 0) (hpr : n.proto ≠ .icmp) (hq : IPMINLEN ≤ q.length)
    (hmost : q.length ≤ ICMPMAXLEN) :
    ∃ heads', heads'.length = IP2 ∧ inCksum (heads'.take IPHDRLEN) = 0 ∧
      byteAt heads' ICMPTYPE = byteAt heads ICMPTYPE ∧
      shortAt heads' ICMPCKSUMH =
        (if bytesAt heads IPSRC 4 = n.src.toList then shortAt heads ICMPCKSUMH else 0) ∧
      icmpinError icmpsrc id stale heads q n = fillIcmp (heads' ++ requoted n stale q) := by
  unfold IPMINLEN at hq
  unfold ICMPMAXLEN at hmost
  simp only [icmpinError]
  by_cases hsrc : bytesAt heads IPSRC 4 = n.src.toList
  · obtain ⟨heads', hlen, hsum', htype, hck, heq⟩ := @endToEnd_heads n heads q h h0 hsrc hsum
    rw [if_pos hsrc, if_pos hsrc, heq, behind_requote hlen hpr]
    exact ⟨heads', hlen, hsum', htype, hck, rfl⟩
  · have hrest : (if byteAt heads ICMPTYPE = 3 ∧ byteAt heads ICMPCODE = 4 then
        [0, 0] ++ bytesAt heads (ICMPID + 2) 2 else [0, 0, 0, 0]).length = 4 := by
      split
      · rw [List.length_append, bytesAt_length (by rw [h]; decide)]
        rfl
      · rfl
    obtain ⟨heads', hlen, hsum', htype, hck, heq⟩ := @transit_heads icmpsrc id q (q.length + IP2)
      (bytesAt q IPSRC 4) _ (byteAt heads ICMPTYPE) (byteAt heads ICMPCODE)
      (bytesAt_length (by change 12 + 4 ≤ _; omega)) hrest rfl
      (by change _ + 28 ≤ 65535; omega) (by omega)
    rw [if_neg hsrc, if_neg hsrc, heq, behind_requote hlen hpr]
    exact ⟨heads', hlen, hsum', htype, hck, rfl⟩

end Sent

/-! ### The entry -/

section Found

variable {n : NatEntry} {t : ℕ} {pr : Pr} {src sport : ℕ} {s : State} {tree : BinaryTree NatEntry}

/-- The key of `naticmpin`: no flags, and the destination 0.0.0.0. -/
def icmpKey (t : ℕ) (pr : Pr) (src sport : ℕ) : NatEntry :=
  { tunnel := t, proto := pr, flags := {}, src := src, sport := sport }

theorem icmpKey_match {x : NatEntry} : natSplayCompareWild (icmpKey t pr src sport) x = 0 ↔
    (icmpKey t pr src sport).inside = x.inside ∧ (x.flags.allDst = true ∨ x.dst = 0) := by
  rw [natSplayCompareWild, compareWild_eq_zero inside_length]
  apply and_congr_right
  intro _
  constructor
  · rintro (hall | hall | ⟨hdst, -⟩)
    · cases hall
    · exact .inl hall
    · exact .inr hdst.symm
  · rintro (hall | hdst)
    · exact .inr (.inl hall)
    · exact .inr (.inr ⟨hdst.symm, fun hany => by cases hany⟩)

theorem naticmpin_find : (WanStack.Aftr.naticmpin t pr src sport s).2 =
    find (natSplayCompareWild (icmpKey t pr src sport)) (s.nats.root (t, pr)) :=
  natSplayFind_wild s.nats pr (icmpKey t pr src sport) s.ctl.lastgen false

/-- An entry of a session is found only if its peer is 0.0.0.0. -/
theorem naticmpin_found (h : (WanStack.Aftr.naticmpin t pr src sport s).2 = some n)
    (hdyn : n.flags.allDst = false) : n.dst = 0 := by
  rw [naticmpin_find] at h
  rcases (icmpKey_match.mp (find_some h).2).2 with hall | hdst
  · rw [hdyn] at hall
    cases hall
  · exact hdst

/-- Along a tree the key comes before the entries with a peer. -/
theorem icmpKey_probe (h : InOrder NatEntry.inside tree) :
    Probe (natSplayCompareWild (icmpKey t pr src sport)) (toList tree) := by
  obtain ⟨k, hk⟩ : ∃ k, k = icmpKey t pr src sport := ⟨_, rfl⟩
  rw [← hk]
  have hvalue : ∀ x, lexDiff k.inside x.inside = 0 →
      natSplayCompareWild k x = if x.flags.allDst then 0 else -(x.dst : ℤ) := by
    intro x hx
    rw [natSplayCompareWild, compareWild, hx, orElse_zero_left, hk]
    cases hall : x.flags.allDst with
    | true => rfl
    | false =>
      simp only [icmpKey, comparePeer, Flags.matchAny, orElse]
      split_ifs <;> simp_all
  apply ((h.probe inside_length k).and h.sorted).imp_of_mem
  intro x y hx hy hboth
  obtain ⟨hsign, hlt⟩ := hboth
  dsimp only at hsign
  by_cases hdx : lexDiff k.inside x.inside = 0
  · rw [hdx, Int.sign_zero, Int.sign_nonpos_iff] at hsign
    by_cases hdy : lexDiff k.inside y.inside = 0
    · have hpre : x.inside = y.inside := ((lexDiff_eq_zero (inside_length k x)).mp hdx).symm.trans
        ((lexDiff_eq_zero (inside_length k y)).mp hdy)
      rw [hvalue x hdx, hvalue y hdy]
      cases hxa : x.flags.allDst with
      | true =>
        apply sign_le_of
        · intro h0
          cases h0
        · intro _
          split_ifs <;> omega
      | false =>
        -- `y` is after it, so it is no wildcard and its peer is not before that of `x`
        have hpeer := InOrder.peer_lt inside_length hpre hxa (h.flags x hx) hlt
        have hya : y.flags.allDst = false := by
          by_contra hall
          rw [Bool.not_eq_false] at hall
          have horder := h.peers y hy x hx hpre.symm hall hxa
          omega
        rw [hya]
        apply sign_le_of
        · intro h0
          simp only [Bool.false_eq_true, if_false] at h0 ⊢
          omega
        · intro h0
          simp only [Bool.false_eq_true, if_false] at h0 ⊢
          omega
    · have hneg : lexDiff k.inside y.inside < 0 := by omega
      rw [natSplayCompareWild, refines_compareWild k _ y hy hdy, Int.sign_eq_neg_one_of_neg hneg]
      rcases Int.sign_trichotomy (compareWild NatEntry.inside k x) with hs | hs | hs <;> omega
  · rw [natSplayCompareWild, refines_compareWild k _ x hx hdx]
    by_cases hdy : lexDiff k.inside y.inside = 0
    · have hpos : 0 < lexDiff k.inside x.inside := by
        rw [hdy, Int.sign_zero] at hsign
        have hnonneg := Int.sign_nonneg_iff.mp hsign
        omega
      rw [Int.sign_eq_one_of_pos hpos]
      rcases Int.sign_trichotomy (compareWild NatEntry.inside k y) with hs | hs | hs <;> omega
    · rw [refines_compareWild k _ y hy hdy]
      exact hsign

/-- The uppermost of the entries of an inside endpoint that are static or without a peer. -/
def uppermost (n : NatEntry) (tree : BinaryTree NatEntry) : Option NatEntry :=
  top (fun x => decide (n.inside = x.inside ∧ (x.flags.allDst = true ∨ x.dst = 0))) tree

theorem naticmpin_uppermost (ht : n.tunnel = t) (h : InOrder NatEntry.inside (s.nats.root (t, n.proto))) :
    (WanStack.Aftr.naticmpin t n.proto n.src n.sport s).2 =
      uppermost n (s.nats.root (t, n.proto)) := by
  have hkey : (icmpKey t n.proto n.src n.sport).inside = n.inside :=
    inside_eq.mpr ⟨ht.symm, rfl, rfl, rfl⟩
  rw [naticmpin_find, find_eq_top (icmpKey_probe h), uppermost]
  congr 1
  funext x
  apply decide_eq_decide.mpr
  rw [icmpKey_match, hkey]

end Found

/-! ### Errors from a tunnel -/

/-- An ICMP error that quotes the first bytes of the packet `p`, as it was delivered for `n`. -/
structure Quotes (n : NatEntry) (p b : Buf) : Prop where
  error : Sound b
  icmp : byteAt b IPPROTO = IPICMP
  kind : byteAt b ICMPTYPE = 3 ∨ byteAt b ICMPTYPE = 11 ∨ byteAt b ICMPTYPE = 12
  summed : inCksum (b.drop IPHDRLEN) = 0
  back : bytesAt b IPDST 4 = bytesAt p IPSRC 4
  quote : ∃ k, IPMINLEN ≤ k ∧ k ≤ p.length ∧ b.drop IP2 = p.take k
  packet : Sound p
  proto : protoAt p = n.proto ∧ n.proto ≠ .icmp
  tcp : n.proto = .tcp → IPHDRLEN + TCPHDRLEN ≤ p.length
  peer : addrAt p IPSRC = n.dst ∧ shortAt p IPSPORT = n.dport
  inner : addrAt p IPDST = n.src ∧ shortAt p IPDPORT = n.sport

/-- An error for the packet `p` as the Internet knows it. -/
structure Follows (n : NatEntry) (p e : Buf) : Prop where
  dst : bytesAt (e.drop IP2) IPDST 4 = (addrOf n.nsrc).toList
  port : bytesAt (e.drop IP2) IPDPORT 2 = (portOf n.nport).toList
  header : inCksum (e.take IPHDRLEN) = 0
  quoted : inCksum ((e.drop IP2).take IPHDRLEN) = 0
  transport : ∀ pl : Buf, pl.length = 2 → e.length = IP2 + p.length →
    (n.proto = .udp → shortAt p UDPCKSUMH ≠ 0) → pseudoCksum p pl = 0 → pseudoCksum (e.drop IP2) pl = 0
  summed : inCksum (e.drop IPHDRLEN) = 0

/-- `naticmpin` finds `n` and sends an error that follows it. -/
def Followed (dv : Device) (dr : Drawn) (t : ℕ) (n : NatEntry) (p b : Buf) (a : Tables) : Prop :=
  (WanStack.Aftr.naticmpin t n.proto n.src n.sport a.st).2 = some n ∧
    ∃ a' e, naticmpin dv dr t b a = (a', some e) ∧ Follows n p e

/-- The error comes from a router, or its checksum adds nothing. -/
def Unsummed (n : NatEntry) (b : Buf) : Prop :=
  bytesAt b IPSRC 4 ≠ (addrOf n.src).toList ∨ shortAt b ICMPCKSUMH = 0 ∨ shortAt b ICMPCKSUMH = 65535

section Followed

variable {dv : Device} {dr : Drawn} {t : ℕ} {n : NatEntry} {p b q : Buf} {a : Tables}

theorem ofNat_div (x : UInt8) (k : ℕ) (h : k % 256 = x.toNat) : UInt8.ofNat k = x := by
  apply UInt8.toNat_inj.mp
  rw [UInt8.toNat_ofNat']
  exact h

/-- The bytes of an address that was read. -/
theorem addrOf_addrAt {i : ℕ} (h : i + 4 ≤ b.length) : (addrOf (addrAt b i)).toList = bytesAt b i 4 := by
  have h0 := (byteAt b i).toNat_lt
  have h1 := (byteAt b (i + 1)).toNat_lt
  have h2 := (byteAt b (i + 2)).toNat_lt
  have h3 := (byteAt b (i + 3)).toNat_lt
  have hbytes : bytesAt b i 4 = [byteAt b i, byteAt b (i + 1), byteAt b (i + 2), byteAt b (i + 3)] := by
    rw [bytesAt, byteAt_drop (by omega), byteAt_drop (by omega), byteAt_drop (by omega),
      byteAt_drop (by omega)]
    rfl
  have hvalue : addrAt b i = (byteAt b i).toNat * 0x1000000 + (byteAt b (i + 1)).toNat * 0x10000 +
      (byteAt b (i + 2)).toNat * 0x100 + (byteAt b (i + 3)).toNat := by
    unfold addrAt shortAt
    rw [Nat.add_assoc i 2 1]
    omega
  rw [hbytes]
  change [_, _, _, _] = _
  rw [ofNat_div (byteAt b i) _ (by omega), ofNat_div (byteAt b (i + 1)) _ (by omega),
    ofNat_div (byteAt b (i + 2)) _ (by omega), ofNat_div (byteAt b (i + 3)) _ (by omega)]

/-- The quoted packet passes `filtericmpin`. -/
theorem Quotes.filtered (h : Quotes n p b) :
    filtericmpin (byteAt b ICMPTYPE) (b.drop IP2) = some ((b.drop IP2).take ICMPMAXLEN) := by
  obtain ⟨k, hk, hkp, hquote⟩ := h.quote
  unfold IPMINLEN at hk
  have hlen : (b.drop IP2).length = k := by
    rw [hquote]
    exact List.length_take_of_le hkp
  have htake : (b.drop IP2).take ICMPMAXLEN = p.take (min ICMPMAXLEN k) := by
    rw [hquote, List.take_take]
  have hbyte : ∀ j < 28, byteAt ((b.drop IP2).take ICMPMAXLEN) j = byteAt p j := by
    intro j hj
    rw [htake, byteAt_take (by unfold ICMPMAXLEN; omega)]
  have hhead : ((b.drop IP2).take ICMPMAXLEN).take IPHDRLEN = p.take IPHDRLEN := by
    rw [htake, List.take_take, Nat.min_eq_left (by unfold ICMPMAXLEN IPHDRLEN; omega)]
  have hword : shortAt ((b.drop IP2).take ICMPMAXLEN) IPLENH = p.length := by
    rw [shortAt, hbyte _ (by decide), hbyte _ (by decide)]
    exact h.packet.total
  have hproto : ¬(byteAt p IPPROTO ≠ IPTCP ∧ byteAt p IPPROTO ≠ IPUDP) := by
    rintro ⟨htcp, hudp⟩
    have hicmp : protoAt p = .icmp := by rw [protoAt, if_neg htcp, if_neg hudp]
    exact h.proto.2 (h.proto.1.symm.trans hicmp)
  have hoff : byteAt p IPOFFH &&& IPOFFMSK = 0 := by
    have hmask : (byteAt p IPOFFH &&& (IPMF ||| IPOFFMSK)) &&& IPOFFMSK = byteAt p IPOFFH &&& IPOFFMSK := by
      rw [UInt8.and_assoc]
      rfl
    rw [← hmask, h.packet.whole.1, UInt8.zero_and]
  have hleast := h.packet.length
  obtain ⟨hsrc, hdst⟩ := h.packet.unicast
  rw [filtericmpin]
  rw [if_neg, if_neg, if_neg, if_neg, if_neg, if_neg, if_neg, if_neg]
  · rw [hhead]
    exact fun hne => hne h.packet.cksum
  · rw [hword]
    omega
  · rw [hbyte _ (by decide)]
    exact hproto
  · rw [hbyte _ (by decide), hbyte _ (by decide), hoff]
    rintro (hne | hne)
    · exact hne rfl
    · exact hne h.packet.whole.2
  · simp only [localnet, multicast, hbyte IPSRC (by decide), hbyte IPDST (by decide), Bool.or_eq_true,
      decide_eq_true_eq, not_or, ge_iff_le, UInt8.not_le]
    exact ⟨⟨h.packet.loopback.1, h.packet.loopback.2⟩, hsrc, hdst⟩
  · rw [hbyte 0 (by decide)]
    exact fun hne => hne h.packet.byte0
  · rcases h.kind with hk | hk | hk <;> rw [hk] <;> decide
  · rw [hlen]
    change ¬k < 28
    omega

/-- The bytes of a port that was read. -/
theorem portOf_shortAt {i : ℕ} (h : i + 2 ≤ b.length) : (portOf (shortAt b i)).toList = bytesAt b i 2 := by
  have h0 := (byteAt b i).toNat_lt
  have h1 := (byteAt b (i + 1)).toNat_lt
  rw [bytesAt_two h]
  change [hi (shortAt b i), lo (shortAt b i)] = _
  unfold hi lo shortAt
  rw [ofNat_div (byteAt b i) _ (by omega), ofNat_div (byteAt b (i + 1)) _ (by omega)]

theorem Quotes.matches (h : Quotes n p b) : Matches n.proto (requoting (binding n)) p := by
  have hleast := h.packet.length
  have htotal := h.packet.total
  have hshort := short_lt p IPLENH
  unfold IPMINLEN at hleast
  refine ⟨h.packet.length, ?_, h.tcp, h.packet.byte0, ?_, ?_, ?_⟩
  · change _ ≤ 65535
    omega
  · have hpr := h.proto.1
    unfold protoAt at hpr
    split_ifs at hpr with htcp hudp
    · rw [htcp, ← hpr]
      rfl
    · rw [hudp, ← hpr]
      rfl
    · exact absurd hpr.symm h.proto.2
  · change _ = (addrOf n.src).toList
    rw [← h.inner.1, addrOf_addrAt (by change 16 + 4 ≤ _; omega)]
    rfl
  · change _ = (portOf n.sport).toList
    rw [← h.inner.2, portOf_shortAt (by change 22 + 2 ≤ _; omega)]
    rfl

theorem Quotes.naticmpin_eq (h : Quotes n p b) {m : NatEntry}
    (hfound : (WanStack.Aftr.naticmpin t n.proto n.src n.sport a.st).2 = some m) :
    ∃ a', naticmpin dv dr t b a = (a', some (icmpinError dv.icmpsrc dr.id dr.stale (b.take IP2)
      ((b.drop IP2).take ICMPMAXLEN) (binding m))) := by
  obtain ⟨k, hk, hkp, hquote⟩ := h.quote
  unfold IPMINLEN at hk
  have hlen : (b.drop IP2).length = k := by
    rw [hquote]
    exact List.length_take_of_le hkp
  have hall : b.length = IP2 + k := by
    rw [List.length_drop] at hlen
    have hleast := h.error.length
    unfold IPMINLEN at hleast
    change b.length - 28 = k at hlen
    change b.length = 28 + k
    omega
  have hbyte : ∀ j < 28, byteAt ((b.drop IP2).take ICMPMAXLEN) j = byteAt p j := by
    intro j hj
    rw [hquote, List.take_take, byteAt_take (by unfold ICMPMAXLEN; omega)]
  have hback : bytesAt b IPDST 4 = bytesAt b (IP2 + IPSRC) 4 := by
    rw [h.back, ← bytesAt_drop, hquote, bytesAt_take (by change 12 + 4 ≤ _; omega)]
  have hpr : (if byteAt ((b.drop IP2).take ICMPMAXLEN) IPPROTO = IPTCP then Pr.tcp else Pr.udp) =
      n.proto := by
    have hproto := h.proto.1
    have hne := h.proto.2
    unfold protoAt at hproto
    rw [hbyte _ (by decide)]
    split_ifs at hproto ⊢ with htcp hudp
    · exact hproto
    · exact hproto
    · exact absurd hproto.symm hne
  have hsrc : addrAt ((b.drop IP2).take ICMPMAXLEN) IPDST = n.src := by
    rw [← h.inner.1]
    unfold addrAt shortAt
    rw [hbyte _ (by decide), hbyte _ (by decide), hbyte _ (by decide), hbyte _ (by decide)]
  have hsport : shortAt ((b.drop IP2).take ICMPMAXLEN) IPDPORT = n.sport := by
    rw [← h.inner.2]
    unfold shortAt
    rw [hbyte _ (by decide), hbyte _ (by decide)]
  have hguard : ¬(b.length < IP2 + IPMINLEN ∨ bytesAt b IPDST 4 ≠ bytesAt b (IP2 + IPSRC) 4) := by
    rintro (hshort | hne)
    · change b.length < 28 + 28 at hshort
      change b.length = 28 + k at hall
      omega
    · exact hne hback
  rw [naticmpin, if_neg hguard, h.filtered]
  dsimp only
  rw [hpr, hsrc, hsport]
  rcases hr : WanStack.Aftr.naticmpin t n.proto n.src n.sport a.st with ⟨s, r⟩
  rw [hr] at hfound
  cases hfound
  exact ⟨_, rfl⟩

/-- The transport checksum of a packet that is quoted as a whole. -/
theorem Quotes.transport (h : Quotes n p b) {stale pl : Buf} (hpl : pl.length = 2)
    (hudp : n.proto = .udp → shortAt p UDPCKSUMH ≠ 0) (hsum : pseudoCksum p pl = 0) :
    pseudoCksum (requoted (binding n) stale p) pl = 0 := by
  have hplaced := placed_quoted (n := binding n) h.proto.2
  have hm := h.matches
  have hlen : (rewrite n.proto (requoting (binding n)) p).length = p.length :=
    (rewrite_rewritten hplaced hm.least hm.tcp).length
  have hwhole : requoted (binding n) stale p = rewrite n.proto (requoting (binding n)) p := by
    have happend : rewrite n.proto (requoting (binding n)) (p ++ stale) =
        rewrite n.proto (requoting (binding n)) p ++ stale := rewrite_append hplaced hm.least hm.tcp
    rw [requoted]
    change (rewrite n.proto (requoting (binding n)) (p ++ stale)).take p.length = _
    rw [happend, ← hlen]
    exact List.take_left
  rw [hwhole]
  exact segment_summed hplaced hm h.proto.2 hudp hpl hsum

/-- The error that is sent follows the entry unless its own checksum is summed over the one
    that was there. -/
theorem Quotes.follows_iff (h : Quotes n p b) (icmpsrc : Addr4) (id : PortNo) {stale : Buf}
    (hstale : IP2 + TCPCKSUMH + 2 ≤ stale.length) :
    Follows n p (icmpinError icmpsrc id stale (b.take IP2) ((b.drop IP2).take ICMPMAXLEN) (binding n)) ↔
      Unsummed n b := by
  obtain ⟨k, hk, hkp, hquote⟩ := h.quote
  obtain ⟨q, hq⟩ : ∃ q, q = (b.drop IP2).take ICMPMAXLEN := ⟨_, rfl⟩
  have hqp : q = p.take (min ICMPMAXLEN k) := by rw [hq, hquote, List.take_take]
  have hleast := h.error.length
  unfold IPMINLEN at hk hleast
  have hqlen : q.length = min 200 k := by
    rw [hqp]
    apply List.length_take_of_le
    unfold ICMPMAXLEN
    omega
  have hqmin : IPMINLEN ≤ q.length := by
    rw [hqlen]
    unfold IPMINLEN
    omega
  have hheads : (b.take IP2).length = IP2 := List.length_take_of_le (by change 28 ≤ _; omega)
  have hhead : (b.take IP2).take IPHDRLEN = b.take IPHDRLEN := by
    rw [List.take_take]
    rfl
  have hbyte : ∀ j < 28, byteAt q j = byteAt p j := by
    intro j hj
    rw [hqp, byteAt_take (by unfold ICMPMAXLEN; omega)]
  obtain ⟨heads', hlen', hsum', htype, hck, heq⟩ := @icmpinError_eq icmpsrc id (binding n) (b.take IP2) q
    stale hheads (by rw [byteAt_take (by decide)]; exact h.error.byte0) (by rw [hhead]; exact h.error.cksum)
    h.proto.2 hqmin (by rw [hqlen]; unfold ICMPMAXLEN; omega)
  have hqdst : bytesAt q IPDST 4 = (binding n).src.toList := by
    rw [hqp, bytesAt_take (by unfold ICMPMAXLEN; change 16 + 4 ≤ _; omega)]
    exact h.matches.addr
  obtain ⟨hdst, hport, hquoted⟩ := @requoted_header (binding n) q stale h.proto.2 hqmin hstale
    (by rw [hbyte 0 (by decide)]; exact h.packet.byte0) hqdst
    (by rw [hqp, List.take_take, Nat.min_eq_left (by unfold ICMPMAXLEN IPHDRLEN; omega)]; exact h.packet.cksum)
  have hrlen := @requoted_length (binding n) q stale h.proto.2 hqmin hstale
  have hblen : (heads' ++ requoted (binding n) stale q).length = 28 + q.length := by
    rw [List.length_append, hlen', hrlen]
    rfl
  have hbleast : IPMINLEN ≤ (heads' ++ requoted (binding n) stale q).length := by
    rw [hblen]
    unfold IPMINLEN
    omega
  have hdrop : (fillIcmp (heads' ++ requoted (binding n) stale q)).drop IP2 =
      requoted (binding n) stale q := by
    rw [fillIcmp_drop hbleast (by decide), ← hlen']
    exact List.drop_left
  have hkind : byteAt (heads' ++ requoted (binding n) stale q) ICMPTYPE ≠ 0 := by
    rw [byteAt_append_left (by rw [hlen']; decide), htype, byteAt_take (by decide)]
    rcases h.kind with hk | hk | hk <;> rw [hk] <;> decide
  have hword : shortAt (heads' ++ requoted (binding n) stale q) ICMPCKSUMH =
      if bytesAt b IPSRC 4 = (addrOf n.src).toList then shortAt b ICMPCKSUMH else 0 := by
    have hb : bytesAt (b.take IP2) IPSRC 4 = bytesAt b IPSRC 4 := bytesAt_take (by decide)
    have hs : shortAt (b.take IP2) ICMPCKSUMH = shortAt b ICMPCKSUMH := by
      rw [shortAt, shortAt, byteAt_take (by decide), byteAt_take (by decide)]
    rw [shortAt_append (by rw [hlen']; decide), hck, hb, hs]
    rfl
  have hiff := fillIcmp_summed_iff hbleast (by rw [hblen, hqlen]; unfold IPMAXLEN; omega) hkind
  rw [hword] at hiff
  rw [← hq, heq]
  constructor
  · intro hf
    have hzero := hiff.mp hf.summed
    unfold Unsummed
    by_cases hsrc : bytesAt b IPSRC 4 = (addrOf n.src).toList
    · rw [if_pos hsrc] at hzero
      exact .inr hzero
    · exact .inl hsrc
  · intro hu
    refine ⟨?_, ?_, ?_, ?_, ?_, ?_⟩
    · rw [hdrop]
      exact hdst
    · rw [hdrop]
      exact hport
    · rw [fillIcmp_take hbleast (by decide), List.take_append_of_le_length (by rw [hlen']; decide)]
      exact hsum'
    · rw [hdrop]
      exact hquoted
    · intro pl hpl hwhole hudp hsum
      rw [hdrop]
      -- the quote is the packet itself
      rw [fillIcmp_length hbleast, hblen] at hwhole
      have hall : q = p := by
        rw [hqp]
        apply List.take_of_length_le
        change 28 + q.length = 28 + p.length at hwhole
        unfold ICMPMAXLEN
        omega
      rw [hall]
      exact h.transport hpl hudp hsum
    · apply hiff.mpr
      rcases hu with hsrc | hzero
      · rw [if_neg hsrc]
        exact .inl rfl
      · by_cases hsrc : bytesAt b IPSRC 4 = (addrOf n.src).toList
        · rw [if_pos hsrc]
          exact hzero
        · rw [if_neg hsrc]
          exact .inl rfl

theorem Quotes.followed_iff (h : Quotes n p b) : Followed dv dr t n p b a ↔
    (WanStack.Aftr.naticmpin t n.proto n.src n.sport a.st).2 = some n ∧ Unsummed n b := by
  unfold Followed
  apply and_congr_right
  intro hfound
  obtain ⟨a', ha'⟩ := @Quotes.naticmpin_eq dv dr t n p b a h n hfound
  rw [ha', ← h.follows_iff dv.icmpsrc dr.id dr.room]
  constructor
  · rintro ⟨a'', e, heq, hf⟩
    cases heq
    exact hf
  · intro hf
    exact ⟨a', _, rfl, hf⟩

/-- The entry of a session whose peer has an address is not found, and where it is found the
    error of the host itself is sent with a wrong checksum. -/
theorem icmp_errors_followed (hdyn : n.flags.allDst = false) (h : Quotes n p b) :
    (Followed dv dr n.tunnel n p b a → n.dst = 0 ∧ Unsummed n b) ∧
    (Linked a.st → a.st.PeersInOrder → (Followed dv dr n.tunnel n p b a ↔
      (uppermost n (a.st.nats.root (n.tunnel, n.proto)) = some n ∧ n.dst = 0) ∧ Unsummed n b)) := by
  constructor
  · intro hf
    obtain ⟨hfound, hu⟩ := h.followed_iff.mp hf
    exact ⟨naticmpin_found hfound hdyn, hu⟩
  · intro hl ho
    have hup := naticmpin_uppermost (n := n) rfl (hl.inOrder_splay ho (n.tunnel, n.proto))
    rw [h.followed_iff, hup]
    apply and_congr_left
    intro _
    constructor
    · intro hfound
      rw [← hup] at hfound
      exact ⟨hup ▸ hfound, naticmpin_found hfound hdyn⟩
    · intro hfound
      exact hfound.1

end Followed

/-- A datagram from 198.51.100.5 as it is delivered to 10.0.0.1, and the error of the host that
    quotes it. -/
def deliveredDatagram : Buf :=
  [69, 0, 0, 32, 0, 1, 0, 0, 64, 17, 70, 147, 198, 51, 100, 5, 10, 0, 0, 1, 0, 53, 4, 0, 0, 12, 195, 97,
    1, 2, 3, 4]

def hostError : Buf :=
  [69, 0, 0, 60, 0, 1, 0, 0, 64, 1, 70, 135, 10, 0, 0, 1, 198, 51, 100, 5, 3, 3, 49, 84, 0, 0, 0, 0] ++
    deliveredDatagram

theorem hostError_quotes : Quotes bigEntry deliveredDatagram hostError where
  error :=
    { length := by decide +kernel
      total := by decide +kernel
      byte0 := by decide +kernel
      whole := by decide +kernel
      cksum := by decide +kernel
      proto := by decide +kernel
      loopback := by decide +kernel
      unicast := by decide +kernel }
  icmp := by decide +kernel
  kind := by decide +kernel
  summed := by decide +kernel
  back := by decide +kernel
  quote := ⟨32, by decide +kernel, by decide +kernel, by decide +kernel⟩
  packet :=
    { length := by decide +kernel
      total := by decide +kernel
      byte0 := by decide +kernel
      whole := by decide +kernel
      cksum := by decide +kernel
      proto := by decide +kernel
      loopback := by decide +kernel
      unicast := by decide +kernel }
  proto := by decide +kernel
  tcp := by decide +kernel
  peer := by decide +kernel
  inner := by decide +kernel

theorem icmp_errors_followed_host : ¬Followed onDevice plainDrawn bigEntry.tunnel bigEntry
    deliveredDatagram hostError oneEntry := by
  intro h
  have hdst := ((icmp_errors_followed rfl hostError_quotes).1 h).1
  exact absurd hdst (by decide)

theorem host_error_dropped : bigEntry ∈ toList (oneEntry.st.nats.root (bigEntry.tunnel, bigEntry.proto)) ∧
    bigEntry.flags.allDst = false ∧ Quotes bigEntry deliveredDatagram hostError ∧
    ¬Followed onDevice plainDrawn bigEntry.tunnel bigEntry deliveredDatagram hostError oneEntry := by
  refine ⟨by decide +kernel, rfl, hostError_quotes, ?_⟩
  intro h
  have hdst := naticmpin_found h.1 rfl
  exact absurd hdst (by decide)

end WanStack.Aftr.Datapath
