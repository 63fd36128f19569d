import WanStack.Aftr.Cksum
import WanStack.Aftr.Nat

set_option autoImplicit false

/-!
# Rewriting a packet

The part of `natin` and of `natout` that puts the addresses and ports of a NAT entry
into the packet in `buf4`, and its checksums. A packet is its bytes; `len` is their
number.
-/
namespace WanStack.Aftr
open OnesComplement

def IP4VNOOP : UInt8 := 0x45
def IPSPORT : ℕ := 20
def IPDPORT : ℕ := 22
def IPMINLEN : ℕ := 28
def TCPHDRLEN : ℕ := 20

/-- The fields of `struct nat` that the packet routines read. TCP and UDP entries have
    `MATCH_PORT`, ICMP entries have `MATCH_ICMP`. -/
structure Binding where
  proto : Pr
  src : Addr4
  nsrc : Addr4
  dst : Addr4
  sport : PortNo
  nport : PortNo
  dport : PortNo
  allDst : Bool
  prrNull : Bool
  ftpData : Bool
deriving DecidableEq

/-- Where one direction writes, and what takes the place of what. -/
structure Rewriting where
  addrAt : ℕ
  portAt : ℕ
  oaddr : Addr4
  naddr : Addr4
  oport : PortNo
  nport : PortNo
deriving DecidableEq

def Binding.into (n : Binding) : Rewriting where
  addrAt := IPSRC
  portAt := if n.proto = .icmp then ICMPID else IPSPORT
  oaddr := n.src
  naddr := n.nsrc
  oport := n.sport
  nport := n.nport

def Binding.out (n : Binding) : Rewriting where
  addrAt := IPDST
  portAt := if n.proto = .icmp then ICMPID else IPDPORT
  oaddr := n.nsrc
  naddr := n.src
  oport := n.nport
  nport := n.sport

def cksumAt : Pr → ℕ
  | .tcp => TCPCKSUMH
  | .udp => UDPCKSUMH
  | .icmp => ICMPCKSUMH

/-- The changes of address and port that the checksum of a protocol covers. -/
def covered (pr : Pr) (r : Rewriting) : Option (Addr4 × Addr4) × Option (PortNo × PortNo) :=
  (if pr = .icmp then none else some (r.oaddr, r.naddr), some (r.oport, r.nport))

def rewrite (pr : Pr) (r : Rewriting) (b : Buf) : Buf :=
  let b := copyAt b r.addrAt r.naddr.toList
  let b := fixCksumAt b IPCKSUMH (some (r.oaddr, r.naddr)) none
  let b := copyAt b r.portAt r.nport.toList
  if pr = .udp ∧ shortAt b UDPCKSUMH = 0 then b
  else fixCksumAt b (cksumAt pr) (covered pr r).1 (covered pr r).2

/-- From the label `got` of `natin` on. -/
def natinRewrite (n : Binding) (b : Buf) : Buf := rewrite n.proto n.into b

def natoutRewrite (n : Binding) (b : Buf) : Buf := rewrite n.proto n.out b

/-! ### Packets of a binding -/

/-- A packet the filters let through, which the entry was found for. -/
structure Matches (pr : Pr) (r : Rewriting) (b : Buf) : Prop where
  least : IPMINLEN ≤ b.length
  most : b.length ≤ IPMAXLEN
  tcp : pr = .tcp → IPHDRLEN + TCPHDRLEN ≤ b.length
  byte0 : byteAt b 0 = IP4VNOOP
  proto : (byteAt b IPPROTO).toNat = pr.proto
  addr : bytesAt b r.addrAt 4 = r.oaddr.toList
  port : bytesAt b r.portAt 2 = r.oport.toList

/-- Both checksums are right, and one of UDP is there. -/
def Summed (pr : Pr) (b : Buf) : Prop :=
  inCksum (b.take IPHDRLEN) = 0 ∧
    match pr with
    | .tcp => pseudoCksum b (twoBytes (b.length - IPHDRLEN)) = 0
    | .udp => shortAt b UDPCKSUMH ≠ 0 ∧ pseudoCksum b (bytesAt b UDPLEN 2) = 0
    | .icmp => inCksum (b.drop IPHDRLEN) = 0

/-- No UDP checksum comes to zero, and an ICMP message keeps a byte outside its checksum
    that is not zero, unless nothing is added to the complement. -/
def Representable (pr : Pr) (r : Rewriting) (b : Buf) : Prop :=
  match pr with
  | .tcp => True
  | .udp =>
    ¬addrSum r.naddr + portSum r.nport ≡
        shortAt b UDPCKSUMH + (addrSum r.oaddr + portSum r.oport) [MOD 65535] ∨
      Unmoved (shortAt b UDPCKSUMH) (some (r.oaddr, r.naddr)) (some (r.oport, r.nport))
  | .icmp =>
    (∃ x ∈ bytesAt b ICMPTYPE 2 ++ b.drop (ICMPID + 2), x ≠ 0) ∨ portSum r.nport ≠ 0 ∨
      Unmoved (shortAt b ICMPCKSUMH) none (some (r.oport, r.nport))

/-! ### The bytes of a rewritten packet -/

section Bytes

variable {pr : Pr} {r : Rewriting} {b : Buf}

theorem cksumSum_copyAt_two {x v u : Buf} {i j : ℕ} (hi : i % 2 = 0) (hj : j % 2 = 0)
    (hv : v.length % 2 = 0) (hu : u.length % 2 = 0) (hiv : i + v.length ≤ x.length)
    (hju : j + u.length ≤ x.length) (hdis : j + u.length ≤ i ∨ i + v.length ≤ j) :
    cksumSum (copyAt (copyAt x i v) j u) + cksumSum (bytesAt x i v.length) +
        cksumSum (bytesAt x j u.length) =
      cksumSum x + cksumSum v + cksumSum u := by
  have hfirst := cksumSum_copyAt hiv hi hv
  have hlen := copyAt_length hiv
  have hsecond := cksumSum_copyAt (b := copyAt x i v) (by omega) hj hu
  rw [bytesAt_copyAt_other hiv hdis] at hsecond
  omega

/-- The two directions, as the positions they write at. -/
structure Placed (pr : Pr) (r : Rewriting) : Prop where
  addrAt : r.addrAt = IPSRC ∨ r.addrAt = IPDST
  icmp : pr = .icmp → r.portAt = ICMPID
  ports : pr ≠ .icmp → r.portAt = IPSPORT ∨ r.portAt = IPDPORT

theorem placed_into (n : Binding) : Placed n.proto n.into := by
  refine ⟨.inl rfl, ?_, ?_⟩
  · intro h
    exact if_pos h
  · intro h
    exact .inl (if_neg h)

theorem placed_out (n : Binding) : Placed n.proto n.out := by
  refine ⟨.inr rfl, ?_, ?_⟩
  · intro h
    exact if_pos h
  · intro h
    exact .inr (if_neg h)

theorem placed_addrAt (h : Placed pr r) : r.addrAt = 12 ∨ r.addrAt = 16 := h.addrAt

theorem placed_portAt (h : Placed pr r) : r.portAt = 20 ∨ r.portAt = 22 ∨ r.portAt = 24 := by
  by_cases hpr : pr = .icmp
  · exact .inr (.inr (h.icmp hpr))
  · rcases h.ports hpr with hs | hd
    · exact .inl hs
    · exact .inr (.inl hd)

/-- The checksum of the protocol and the ports lie apart. -/
theorem placed_cksumAt (h : Placed pr r) : cksumAt pr + 2 ≤ r.portAt ∨ r.portAt + 2 ≤ cksumAt pr := by
  cases pr with
  | tcp =>
    have := placed_portAt h
    right
    change _ ≤ 36
    omega
  | udp =>
    have := h.ports (by decide)
    right
    change _ ≤ 26
    change r.portAt = 20 ∨ r.portAt = 22 at this
    omega
  | icmp =>
    have := h.icmp rfl
    left
    change 24 ≤ _
    change r.portAt = 24 at this
    omega

theorem shortAt_copyAt_other {x v : Buf} {i j : ℕ} (h : i + v.length ≤ x.length)
    (hj : j + 2 ≤ x.length) (hout : j + 2 ≤ i ∨ i + v.length ≤ j) :
    shortAt (copyAt x i v) j = shortAt x j := by
  have hlen := copyAt_length h
  rw [← cksumSum_two (b := copyAt x i v) (by omega), bytesAt_copyAt_other h hout,
    cksumSum_two hj]

/-- The packet with its address and the checksum of the header. -/
def headed (r : Rewriting) (b : Buf) : Buf :=
  copyAt (copyAt b r.addrAt r.naddr.toList) IPCKSUMH
    (twoBytes (fixCksum (shortAt b IPCKSUMH) (some (r.oaddr, r.naddr)) none))

/-- And with its port. -/
def moved (r : Rewriting) (b : Buf) : Buf := copyAt (headed r b) r.portAt r.nport.toList

theorem addressed_length (h : Placed pr r) (hlen : IPMINLEN ≤ b.length) :
    (copyAt b r.addrAt r.naddr.toList).length = b.length := by
  have ha := placed_addrAt h
  unfold IPMINLEN at hlen
  exact copyAt_length (by rw [Vector.length_toList]; omega)

theorem headed_length (h : Placed pr r) (hlen : IPMINLEN ≤ b.length) :
    (headed r b).length = b.length := by
  have h1 := addressed_length h hlen
  unfold IPMINLEN at hlen
  rw [headed, copyAt_length, h1]
  rw [h1]
  change 10 + 2 ≤ _
  omega

theorem moved_length (h : Placed pr r) (hlen : IPMINLEN ≤ b.length) :
    (moved r b).length = b.length := by
  have h2 := headed_length h hlen
  have hp := placed_portAt h
  unfold IPMINLEN at hlen
  rw [moved, copyAt_length, h2]
  rw [h2, Vector.length_toList]
  omega

theorem bytesAt_headed {j n : ℕ} (h : Placed pr r) (hlen : IPMINLEN ≤ b.length) (hj : 20 ≤ j) :
    bytesAt (headed r b) j n = bytesAt b j n := by
  have ha := placed_addrAt h
  have h1 := addressed_length h hlen
  unfold IPMINLEN at hlen
  rw [headed, bytesAt_copyAt_other, bytesAt_copyAt_other]
  · rw [Vector.length_toList]
    omega
  · rw [Vector.length_toList]
    omega
  · rw [h1]
    change 10 + 2 ≤ _
    omega
  · right
    change 10 + 2 ≤ _
    omega

/-- A field that is neither an address, the checksum of the header nor a port. -/
theorem bytesAt_moved {j n : ℕ} (h : Placed pr r) (hlen : IPMINLEN ≤ b.length) (hj : 20 ≤ j)
    (hport : j + n ≤ r.portAt ∨ r.portAt + 2 ≤ j) :
    bytesAt (moved r b) j n = bytesAt b j n := by
  have hp := placed_portAt h
  have h2 := headed_length h hlen
  unfold IPMINLEN at hlen
  rw [moved, bytesAt_copyAt_other, bytesAt_headed h hlen hj]
  · rw [h2, Vector.length_toList]
    omega
  · rw [Vector.length_toList]
    exact hport

theorem shortAt_moved {j : ℕ} (h : Placed pr r) (hlen : IPMINLEN ≤ b.length) (hj : 20 ≤ j)
    (hend : j + 2 ≤ b.length) (hport : j + 2 ≤ r.portAt ∨ r.portAt + 2 ≤ j) :
    shortAt (moved r b) j = shortAt b j := by
  have h3 := moved_length h hlen
  rw [← cksumSum_two (b := moved r b) (by omega), bytesAt_moved h hlen hj hport,
    cksumSum_two hend]

theorem cksumAt_le (hlen : IPMINLEN ≤ b.length)
    (htcp : pr = .tcp → IPHDRLEN + TCPHDRLEN ≤ b.length) :
    20 ≤ cksumAt pr ∧ cksumAt pr + 2 ≤ b.length := by
  unfold IPMINLEN at hlen
  cases pr with
  | tcp =>
    have h40 : 40 ≤ b.length := htcp rfl
    change 20 ≤ 36 ∧ 36 + 2 ≤ b.length
    omega
  | udp =>
    change 20 ≤ 26 ∧ 26 + 2 ≤ b.length
    omega
  | icmp =>
    change 20 ≤ 22 ∧ 22 + 2 ≤ b.length
    omega

theorem rewrite_eq (h : Placed pr r) (hlen : IPMINLEN ≤ b.length)
    (htcp : pr = .tcp → IPHDRLEN + TCPHDRLEN ≤ b.length)
    (hudp : pr = .udp → shortAt b UDPCKSUMH ≠ 0) :
    rewrite pr r b = copyAt (moved r b) (cksumAt pr)
      (twoBytes (fixCksum (shortAt b (cksumAt pr)) (covered pr r).1 (covered pr r).2)) := by
  obtain ⟨hfrom, hto⟩ := cksumAt_le hlen htcp
  have hsame := shortAt_moved h hlen hfrom hto (placed_cksumAt h)
  have hhead : fixCksumAt (copyAt b r.addrAt r.naddr.toList) IPCKSUMH
      (some (r.oaddr, r.naddr)) none = headed r b := by
    have ha := placed_addrAt h
    unfold IPMINLEN at hlen
    rw [fixCksumAt, shortAt_copyAt_other, headed]
    · rw [Vector.length_toList]
      omega
    · change 10 + 2 ≤ _
      omega
    · left
      change 10 + 2 ≤ _
      omega
  have hthere : ¬(pr = .udp ∧ shortAt (moved r b) UDPCKSUMH = 0) := by
    rintro ⟨rfl, hzero⟩
    exact hudp rfl (hsame.symm.trans hzero)
  simp only [rewrite, hhead]
  change (if pr = .udp ∧ shortAt (moved r b) UDPCKSUMH = 0 then moved r b
    else fixCksumAt (moved r b) (cksumAt pr) _ _) = _
  rw [if_neg hthere, fixCksumAt, hsame]

theorem rewrite_head (h : Placed pr r) (hlen : IPMINLEN ≤ b.length)
    (htcp : pr = .tcp → IPHDRLEN + TCPHDRLEN ≤ b.length)
    (hudp : pr = .udp → shortAt b UDPCKSUMH ≠ 0) :
    (rewrite pr r b).take IPHDRLEN =
      copyAt (copyAt (b.take IPHDRLEN) r.addrAt r.naddr.toList) IPCKSUMH
        (twoBytes (fixCksum (shortAt b IPCKSUMH) (some (r.oaddr, r.naddr)) none)) := by
  have ha := placed_addrAt h
  have hp := placed_portAt h
  have h1 := addressed_length h hlen
  have h2 := headed_length h hlen
  have h3 := moved_length h hlen
  obtain ⟨hfrom, hto⟩ := cksumAt_le hlen htcp
  have hcksum : IPHDRLEN ≤ cksumAt pr := hfrom
  have hport : IPHDRLEN ≤ r.portAt := by
    change 20 ≤ _
    omega
  rw [rewrite_eq h hlen htcp hudp]
  unfold IPMINLEN at hlen
  rw [copyAt_take_before hcksum (by omega), moved, copyAt_take_before hport (by omega), headed,
    copyAt_take, copyAt_take]
  · rw [Vector.length_toList]
    change _ ≤ 20
    omega
  · change 20 ≤ _
    omega
  · change 10 + 2 ≤ 20
    omega
  · rw [h1]
    change 20 ≤ _
    omega

/-- Everything behind the checksum of the header, from an even offset on. -/
theorem rewrite_tail {k : ℕ} (h : Placed pr r) (hlen : IPMINLEN ≤ b.length)
    (htcp : pr = .tcp → IPHDRLEN + TCPHDRLEN ≤ b.length)
    (hudp : pr = .udp → shortAt b UDPCKSUMH ≠ 0) (hk : 12 ≤ k) (hk' : k ≤ 20) :
    (rewrite pr r b).drop k =
      copyAt (copyAt ((copyAt b r.addrAt r.naddr.toList).drop k) (r.portAt - k) r.nport.toList)
        (cksumAt pr - k)
        (twoBytes (fixCksum (shortAt b (cksumAt pr)) (covered pr r).1 (covered pr r).2)) := by
  have hp := placed_portAt h
  have h1 := addressed_length h hlen
  have h2 := headed_length h hlen
  have h3 := moved_length h hlen
  obtain ⟨hfrom, hto⟩ := cksumAt_le hlen htcp
  have hwhole := rewrite_eq h hlen htcp hudp
  unfold IPMINLEN at hlen
  have hhead : (headed r b).drop k = (copyAt b r.addrAt r.naddr.toList).drop k := by
    rw [headed, copyAt_drop_after]
    · rw [h1]
      change 10 + 2 ≤ _
      omega
    · exact hk
  rw [hwhole, copyAt_drop, moved, copyAt_drop, hhead]
  · rw [h2, Vector.length_toList]
    omega
  · omega
  · rw [h3]
    exact hto
  · omega

theorem head_sum (h : Placed pr r) (hm : Matches pr r b)
    (hudp : pr = .udp → shortAt b UDPCKSUMH ≠ 0) :
    cksumSum ((rewrite pr r b).take IPHDRLEN) +
        (shortAt b IPCKSUMH + oldSum (some (r.oaddr, r.naddr)) none) =
      cksumSum (b.take IPHDRLEN) + (newSum (some (r.oaddr, r.naddr)) none +
        fixCksum (shortAt b IPCKSUMH) (some (r.oaddr, r.naddr)) none) := by
  have ha := placed_addrAt h
  have hlen := hm.least
  have h20 : (b.take IPHDRLEN).length = 20 :=
    List.length_take_of_le (by unfold IPMINLEN at hlen; change 20 ≤ _; omega)
  have hnew := r.naddr.length_toList
  rw [rewrite_head h hlen hm.tcp hudp]
  have hsum := cksumSum_copyAt_two (x := b.take IPHDRLEN) (v := r.naddr.toList)
    (u := twoBytes (fixCksum (shortAt b IPCKSUMH) (some (r.oaddr, r.naddr)) none))
    (i := r.addrAt) (j := IPCKSUMH) (by omega) rfl (by omega) (by rw [twoBytes_length]) (by omega)
    (by rw [h20, twoBytes_length]; decide) (by left; change 10 + 2 ≤ _; omega)
  have hold : bytesAt (b.take IPHDRLEN) r.addrAt r.naddr.toList.length = r.oaddr.toList := by
    rw [hnew, bytesAt_take (by change _ ≤ 20; omega), hm.addr]
  have hcksum : bytesAt (b.take IPHDRLEN) IPCKSUMH 2 = bytesAt b IPCKSUMH 2 :=
    bytesAt_take (by decide)
  have hfix := fixCksum_le (shortAt b IPCKSUMH) (some (r.oaddr, r.naddr)) none
  rw [hold, twoBytes_sum (by omega), addrSum_eq, addrSum_eq] at hsum
  change _ + _ + cksumSum (bytesAt (b.take IPHDRLEN) IPCKSUMH 2) = _ at hsum
  rw [hcksum, cksumSum_two (by unfold IPMINLEN at hlen; change 10 + 2 ≤ _; omega)] at hsum
  simp only [oldSum, newSum, Option.elim_some, Option.elim_none, Nat.add_zero]
  omega

theorem tail_sum {k : ℕ} (h : Placed pr r) (hm : Matches pr r b)
    (hudp : pr = .udp → shortAt b UDPCKSUMH ≠ 0) (hk : 12 ≤ k) (hk' : k ≤ 20) (heven : k % 2 = 0) :
    cksumSum ((rewrite pr r b).drop k) + (portSum r.oport + shortAt b (cksumAt pr)) =
      cksumSum ((copyAt b r.addrAt r.naddr.toList).drop k) +
        (portSum r.nport + fixCksum (shortAt b (cksumAt pr)) (covered pr r).1 (covered pr r).2) := by
  have ha := placed_addrAt h
  have hp := placed_portAt h
  have hapart := placed_cksumAt h
  have hlen := hm.least
  have h1 := addressed_length h hlen
  obtain ⟨hfrom, hto⟩ := cksumAt_le hlen hm.tcp
  have hnew := r.nport.length_toList
  have hrest : ((copyAt b r.addrAt r.naddr.toList).drop k).length = b.length - k := by
    rw [List.length_drop, h1]
  have hcksumEven : cksumAt pr % 2 = 0 := by cases pr <;> rfl
  have hfix := fixCksum_le (shortAt b (cksumAt pr)) (covered pr r).1 (covered pr r).2
  rw [rewrite_tail h hlen hm.tcp hudp hk hk']
  unfold IPMINLEN at hlen
  have hsum := cksumSum_copyAt_two (x := (copyAt b r.addrAt r.naddr.toList).drop k)
    (v := r.nport.toList)
    (u := twoBytes (fixCksum (shortAt b (cksumAt pr)) (covered pr r).1 (covered pr r).2))
    (i := r.portAt - k) (j := cksumAt pr - k) (by omega) (by omega) (by omega)
    (by rw [twoBytes_length]) (by omega) (by rw [hrest, twoBytes_length]; omega)
    (by rw [twoBytes_length]; omega)
  have hoport : bytesAt ((copyAt b r.addrAt r.naddr.toList).drop k) (r.portAt - k) 2 =
      r.oport.toList := by
    rw [bytesAt_drop, bytesAt_copyAt_other, ← hm.port]
    · congr 1
      omega
    · rw [Vector.length_toList]
      omega
    · rw [Vector.length_toList]
      omega
  have hcksum : bytesAt ((copyAt b r.addrAt r.naddr.toList).drop k) (cksumAt pr - k) 2 =
      bytesAt b (cksumAt pr) 2 := by
    rw [bytesAt_drop, bytesAt_copyAt_other]
    · congr 1
      omega
    · rw [Vector.length_toList]
      omega
    · rw [Vector.length_toList]
      omega
  rw [hnew, twoBytes_length, hoport, hcksum, twoBytes_sum (by omega), portSum_eq, portSum_eq,
    cksumSum_two hto] at hsum
  omega

/-- The pseudo header takes the addresses in. -/
theorem addressed_sum (h : Placed pr r) (hm : Matches pr r b) :
    cksumSum ((copyAt b r.addrAt r.naddr.toList).drop IPSRC) + addrSum r.oaddr =
      cksumSum (b.drop IPSRC) + addrSum r.naddr := by
  have ha := placed_addrAt h
  have hlen := hm.least
  have hnew := r.naddr.length_toList
  have h12 : (b.drop IPSRC).length = b.length - 12 := List.length_drop
  unfold IPMINLEN at hlen
  rw [copyAt_drop (by omega) (by change 12 ≤ _; omega)]
  have hsum := cksumSum_copyAt (b := b.drop IPSRC) (v := r.naddr.toList) (i := r.addrAt - IPSRC)
    (by rw [h12, hnew]; change _ - 12 + _ ≤ _; omega) (by change (_ - 12) % 2 = 0; omega) (by omega)
  have hold : bytesAt (b.drop IPSRC) (r.addrAt - IPSRC) r.naddr.toList.length =
      r.oaddr.toList := by
    rw [hnew, bytesAt_drop, ← hm.addr]
    congr 1
    change 12 + (_ - 12) = _
    omega
  rw [hold, addrSum_eq, addrSum_eq] at hsum
  exact hsum

theorem addressed_message (h : Placed pr r) (hm : Matches pr r b) :
    (copyAt b r.addrAt r.naddr.toList).drop IPHDRLEN = b.drop IPHDRLEN := by
  have ha := placed_addrAt h
  have hlen := hm.least
  have hnew := r.naddr.length_toList
  unfold IPMINLEN at hlen
  exact copyAt_drop_after (by omega) (by change _ ≤ 20; omega)

theorem rewrite_length (h : Placed pr r) (hm : Matches pr r b)
    (hudp : pr = .udp → shortAt b UDPCKSUMH ≠ 0) : (rewrite pr r b).length = b.length := by
  have h3 := moved_length h hm.least
  obtain ⟨-, hto⟩ := cksumAt_le hm.least hm.tcp
  rw [rewrite_eq h hm.least hm.tcp hudp, copyAt_length, h3]
  rw [h3]
  exact hto

/-- The first bytes of the header stay. -/
theorem rewrite_byteAt {i : ℕ} (h : Placed pr r) (hm : Matches pr r b)
    (hudp : pr = .udp → shortAt b UDPCKSUMH ≠ 0) (hi : i < 10) :
    byteAt (rewrite pr r b) i = byteAt b i := by
  have ha := placed_addrAt h
  have hlen := hm.least
  have hhead := rewrite_head h hlen hm.tcp hudp
  unfold IPMINLEN at hlen
  have h20 : (b.take IPHDRLEN).length = 20 := List.length_take_of_le (by change 20 ≤ _; omega)
  have hten : ((rewrite pr r b).take IPHDRLEN).take 10 = (b.take IPHDRLEN).take 10 := by
    have haddr : (copyAt (b.take IPHDRLEN) r.addrAt r.naddr.toList).length = 20 := by
      rw [copyAt_length, h20]
      rw [h20, Vector.length_toList]
      omega
    rw [hhead, copyAt_take_before (by decide) (by rw [haddr]; decide), copyAt_take_before]
    · omega
    · omega
  have h20' : i < IPHDRLEN := by
    change i < 20
    omega
  have hsame := congrArg (fun l => byteAt l i) hten
  simp only [byteAt_take hi, byteAt_take h20'] at hsame
  exact hsame

/-- What is left of an ICMP message without its checksum and its identification. -/
theorem message_sum (hlen : IPMINLEN ≤ b.length) :
    cksumSum (b.drop IPHDRLEN) = cksumSum (bytesAt b ICMPTYPE 2 ++ b.drop (ICMPID + 2)) +
      shortAt b ICMPCKSUMH + shortAt b ICMPID := by
  unfold IPMINLEN at hlen
  have htype : (bytesAt b ICMPTYPE 2).length % 2 = 0 := by
    rw [bytesAt_length (by change 20 + 2 ≤ _; omega)]
  have h20 : cksumSum (b.drop 20) = shortAt b 20 + cksumSum (b.drop 22) :=
    cksumSum_drop (by omega)
  have h22 : cksumSum (b.drop 22) = shortAt b 22 + cksumSum (b.drop 24) :=
    cksumSum_drop (by omega)
  have h24 : cksumSum (b.drop 24) = shortAt b 24 + cksumSum (b.drop 26) :=
    cksumSum_drop (by omega)
  rw [cksumSum_append htype, cksumSum_two (by change 20 + 2 ≤ _; omega)]
  change cksumSum (b.drop 20) = shortAt b 20 + cksumSum (b.drop 26) + shortAt b 22 + shortAt b 24
  omega

theorem rewrite_shortAt (h : Placed pr r) (hm : Matches pr r b)
    (hudp : pr = .udp → shortAt b UDPCKSUMH ≠ 0) :
    shortAt (rewrite pr r b) (cksumAt pr) =
      fixCksum (shortAt b (cksumAt pr)) (covered pr r).1 (covered pr r).2 := by
  have h3 := moved_length h hm.least
  have hw := rewrite_length h hm hudp
  obtain ⟨-, hto⟩ := cksumAt_le hm.least hm.tcp
  have hfix := fixCksum_le (shortAt b (cksumAt pr)) (covered pr r).1 (covered pr r).2
  rw [← cksumSum_two (by omega), rewrite_eq h hm.least hm.tcp hudp]
  have hself := bytesAt_copyAt_self (b := moved r b) (i := cksumAt pr)
    (v := twoBytes (fixCksum (shortAt b (cksumAt pr)) (covered pr r).1 (covered pr r).2))
    (by rw [h3, twoBytes_length]; exact hto)
  rw [twoBytes_length] at hself
  rw [hself, twoBytes_sum (by omega)]

end Bytes

/-! ### The checksums of a rewritten packet -/

section Checksums

variable {pr : Pr} {r : Rewriting} {b : Buf}

theorem short_lt (b : Buf) (i : ℕ) : shortAt b i < 65536 := by
  have h0 := (byteAt b i).toNat_lt
  have h1 := (byteAt b (i + 1)).toNat_lt
  unfold shortAt
  omega

/-- The header starts with its version, so it is never all zero. -/
theorem header_summed (h : Placed pr r) (hm : Matches pr r b)
    (hudp : pr = .udp → shortAt b UDPCKSUMH ≠ 0) (hsum : inCksum (b.take IPHDRLEN) = 0) :
    inCksum ((rewrite pr r b).take IPHDRLEN) = 0 := by
  have hshort : ∀ p : Buf, (p.take IPHDRLEN).length < 131072 := by
    intro p
    have := List.length_take_le IPHDRLEN p
    change _ ≤ 20 at this
    omega
  rw [inCksum_eq_zero (hshort _)] at hsum ⊢
  refine ⟨fixCksum_sum (short_lt b IPCKSUMH) hsum.1 (head_sum h hm hudp), cksumSum_pos 0 ?_⟩
  rw [byteAt_take (by decide), rewrite_byteAt h hm hudp (by decide), hm.byte0]
  decide

theorem pseudo_length {p pl : Buf} (h : pl.length = 2) (hlen : p.length ≤ IPMAXLEN) :
    (pseudo p pl).length < 131072 := by
  unfold IPMAXLEN at hlen
  simp only [pseudo, List.length_append, List.length_drop, h, List.length_cons, List.length_nil]
  omega

/-- The segment of TCP and of UDP. -/
theorem segment_summed {pl : Buf} (h : Placed pr r) (hm : Matches pr r b) (hpr : pr ≠ .icmp)
    (hudp : pr = .udp → shortAt b UDPCKSUMH ≠ 0) (hpl : pl.length = 2)
    (hsum : pseudoCksum b pl = 0) : pseudoCksum (rewrite pr r b) pl = 0 := by
  have hlen := rewrite_length h hm hudp
  have hproto := rewrite_byteAt (i := IPPROTO) h hm hudp (by decide)
  have htail := tail_sum (k := IPSRC) h hm hudp (by decide) (by decide) (by decide)
  have haddr := addressed_sum h hm
  have hold : oldSum (covered pr r).1 (covered pr r).2 = addrSum r.oaddr + portSum r.oport := by
    simp [covered, hpr, oldSum]
  have hnew : newSum (covered pr r).1 (covered pr r).2 = addrSum r.naddr + portSum r.nport := by
    simp [covered, hpr, newSum]
  unfold pseudoCksum at hsum ⊢
  rw [inCksum_eq_zero (pseudo_length hpl hm.most), pseudo_sum hpl] at hsum
  rw [inCksum_eq_zero (pseudo_length hpl (by rw [hlen]; exact hm.most)), pseudo_sum hpl, hproto]
  constructor
  · apply fixCksum_sum (short_lt b (cksumAt pr)) hsum.1
    rw [hold, hnew]
    omega
  · have hpos : 0 < (byteAt b IPPROTO).toNat := by
      rw [hm.proto]
      cases pr <;> decide
    omega

/-- The message of ICMP, whose checksum covers no address. -/
theorem message_summed_iff (h : Placed .icmp r) (hm : Matches .icmp r b)
    (hsum : inCksum (b.drop IPHDRLEN) = 0) :
    inCksum ((rewrite .icmp r b).drop IPHDRLEN) = 0 ↔ Representable .icmp r b := by
  have hudp : Pr.icmp = .udp → shortAt b UDPCKSUMH ≠ 0 := by
    intro hpr
    cases hpr
  have hlen := rewrite_length h hm hudp
  have hmost := hm.most
  have hleast := hm.least
  have htail := tail_sum (k := IPHDRLEN) h hm hudp (by decide) (by decide) (by decide)
  have hport : shortAt b ICMPID = portSum r.oport := by
    have hat : r.portAt = ICMPID := h.icmp rfl
    have := hm.port
    rw [hat] at this
    rw [← cksumSum_two (by unfold IPMINLEN at hleast; change 24 + 2 ≤ _; omega), this, portSum_eq]
  have hmessage := message_sum hleast
  have hcovered : covered .icmp r = (none, some (r.oport, r.nport)) := rfl
  have hshort : ∀ p : Buf, p.length = b.length → (p.drop IPHDRLEN).length < 131072 := by
    intro p hp
    unfold IPMAXLEN at hmost
    rw [List.length_drop]
    omega
  have hzero : (∃ x ∈ bytesAt b ICMPTYPE 2 ++ b.drop (ICMPID + 2), x ≠ 0) ↔
      cksumSum (bytesAt b ICMPTYPE 2 ++ b.drop (ICMPID + 2)) ≠ 0 := by
    rw [Ne, cksumSum_eq_zero]
    push Not
    rfl
  have hfix := fixCksum_eq_zero none (some (r.oport, r.nport)) (short_lt b ICMPCKSUMH)
  rw [inCksum_eq_zero (hshort b rfl)] at hsum
  rw [inCksum_eq_zero (hshort _ hlen)]
  rw [addressed_message h hm, hcovered] at htail
  simp only [cksumAt] at htail
  have hdvd : 65535 ∣ cksumSum ((rewrite .icmp r b).drop IPHDRLEN) := by
    apply @fixCksum_sum _ _ _ none (some (r.oport, r.nport)) (short_lt b ICMPCKSUMH) hsum.1
    simp only [oldSum, newSum, Option.elim_none, Option.elim_some]
    omega
  simp only [oldSum, newSum, Option.elim_none, Option.elim_some, Nat.zero_add] at hfix
  have hrest : cksumSum ((rewrite .icmp r b).drop IPHDRLEN) =
      cksumSum (bytesAt b ICMPTYPE 2 ++ b.drop (ICMPID + 2)) + portSum r.nport +
        fixCksum (shortAt b ICMPCKSUMH) none (some (r.oport, r.nport)) := by omega
  unfold Representable
  rw [hzero, and_iff_right hdvd]
  by_cases hbytes : cksumSum (bytesAt b ICMPTYPE 2 ++ b.drop (ICMPID + 2)) = 0
  · by_cases hnport : portSum r.nport = 0
    · -- A message that is zero but for its checksum: the checksum has to be there.
      have hmod : portSum r.nport ≡ shortAt b ICMPCKSUMH + portSum r.oport [MOD 65535] := by
        rw [hnport]
        apply Nat.ModEq.symm
        rw [Nat.modEq_zero_iff_dvd]
        have := hsum.1
        rwa [hmessage, hbytes, hport, Nat.zero_add] at this
      rw [hrest, hbytes, hnport, Nat.add_zero, Nat.zero_add, Nat.pos_iff_ne_zero, Ne, hfix,
        and_iff_right hmod, not_not]
      simp
    · exact iff_of_true (by omega) (.inr (.inl hnport))
  · exact iff_of_true (by omega) (.inl hbytes)

/-- What `fix_cksum` leaves is what a sum over the rewritten packet asks for, unless a
    checksum of UDP comes to zero or nothing is left of an ICMP message. -/
theorem rewrite_summed_iff (h : Placed pr r) (hm : Matches pr r b) (hsum : Summed pr b) :
    Summed pr (rewrite pr r b) ↔ Representable pr r b := by
  obtain ⟨hhead, hrest⟩ := hsum
  cases pr with
  | tcp =>
    have hudp : Pr.tcp = .udp → shortAt b UDPCKSUMH ≠ 0 := by
      intro hpr
      cases hpr
    refine iff_of_true ⟨header_summed h hm hudp hhead, ?_⟩ trivial
    change pseudoCksum _ (twoBytes ((rewrite .tcp r b).length - IPHDRLEN)) = 0
    rw [rewrite_length h hm hudp]
    exact segment_summed h hm (by decide) hudp rfl hrest
  | udp =>
    have hudp : Pr.udp = .udp → shortAt b UDPCKSUMH ≠ 0 := fun _ => hrest.1
    have hcksum := rewrite_shortAt h hm hudp
    have hat := h.ports (by decide)
    have hlen := hm.least
    have hmoved := moved_length h hlen
    have hpl : bytesAt (rewrite .udp r b) UDPLEN 2 = bytesAt b UDPLEN 2 := by
      rw [rewrite_eq h hlen hm.tcp hudp]
      unfold IPMINLEN at hlen
      rw [bytesAt_copyAt_other, bytesAt_moved h hm.least (by decide)]
      · right
        change r.portAt = 20 ∨ r.portAt = 22 at hat
        change _ ≤ 24
        omega
      · rw [hmoved, twoBytes_length]
        change 26 + 2 ≤ _
        omega
      · left
        decide
    have hpl2 : (bytesAt b UDPLEN 2).length = 2 := by
      unfold IPMINLEN at hlen
      apply bytesAt_length
      change 24 + 2 ≤ _
      omega
    have hsegment := segment_summed h hm (by decide) hudp hpl2 hrest.2
    have hfix := fixCksum_eq_zero (covered .udp r).1 (covered .udp r).2 (short_lt b UDPCKSUMH)
    change shortAt (rewrite .udp r b) UDPCKSUMH = fixCksum (shortAt b UDPCKSUMH) _ _ at hcksum
    unfold Summed
    rw [and_iff_right (header_summed h hm hudp hhead), hpl, and_iff_left hsegment, hcksum, Ne, hfix,
      not_and, not_not]
    exact Decidable.imp_iff_not_or
  | icmp =>
    have hudp : Pr.icmp = .udp → shortAt b UDPCKSUMH ≠ 0 := by
      intro hpr
      cases hpr
    rw [← message_summed_iff h hm hrest]
    exact and_iff_right (header_summed h hm hudp hhead)

end Checksums

theorem translated_summed_iff (n : Binding) (b : Buf) :
    (Matches n.proto n.into b → Summed n.proto b →
      (Summed n.proto (natinRewrite n b) ↔ Representable n.proto n.into b)) ∧
    (Matches n.proto n.out b → Summed n.proto b →
      (Summed n.proto (natoutRewrite n b) ↔ Representable n.proto n.out b)) := by
  constructor
  · intro hm hsum
    exact rewrite_summed_iff (placed_into n) hm hsum
  · intro hm hsum
    exact rewrite_summed_iff (placed_out n) hm hsum

/-- An entry with the outside port `nport`. -/
def bindingTo (proto : Pr) (nport : PortNo) : Binding where
  proto := proto
  src := #v[10, 0, 0, 1]
  nsrc := #v[198, 51, 100, 7]
  dst := #v[192, 0, 2, 9]
  sport := #v[4, 0]
  nport := nport
  dport := #v[0, 53]
  allDst := false
  prrNull := false
  ftpData := false

/-- A datagram without data, from 10.0.0.1. -/
def datagram : Buf :=
  [0x45, 0, 0, 28, 0, 0, 0, 0, 64, 17, 174, 199, 10, 0, 0, 1, 192, 0, 2, 9, 4, 0, 0, 53, 0, 8, 47,
    159]

theorem datagram_matches (nport : PortNo) : Matches .udp (bindingTo .udp nport).into datagram :=
  { least := by decide
    most := by decide
    tcp := by decide
    byte0 := by decide
    proto := by decide
    addr := rfl
    port := rfl }

theorem datagram_summed : Summed .udp datagram := by
  unfold Summed
  decide +kernel

theorem translated_summed_datagram :
    Summed .udp (natinRewrite (bindingTo .udp #v[19, 100]) datagram) ↔
      Representable .udp (bindingTo .udp #v[19, 100]).into datagram :=
  (translated_summed_iff (bindingTo .udp #v[19, 100]) datagram).1 (datagram_matches _)
    datagram_summed

/-- With the outside port 4965 the words add up to the word of ones. -/
theorem translated_not_summed_zero :
    ¬∀ (n : Binding) (b : Buf), Matches n.proto n.into b → Summed n.proto b →
      Summed n.proto (natinRewrite n b) := by
  intro hall
  have hsum := hall (bindingTo .udp #v[19, 101]) datagram (datagram_matches _) datagram_summed
  have hzero : shortAt (natinRewrite (bindingTo .udp #v[19, 101]) datagram) UDPCKSUMH = 0 := by
    decide +kernel
  exact hsum.2.1 hzero

end WanStack.Aftr
