import WanStack.Aftr.Datapath
import WanStack.Aftr.FilterLoops

set_option autoImplicit false

/-!
# The shape of a packet

What the routines of the datapath leave of a packet: its length, its first bytes and the
checksum of its header.
-/
namespace WanStack.Aftr.Datapath
open Filter Ftp OnesComplement Tried

/-- The length, and the bytes before the sequence number or the data. -/
structure SameFront (b b' : Buf) : Prop where
  length : b'.length = b.length
  front : ∀ j < 24, byteAt b' j = byteAt b j

section Front

variable {b b' b'' : Buf} {t : TunnelConf}

theorem SameFront.refl (b : Buf) : SameFront b b := ⟨rfl, fun _ _ => rfl⟩

theorem SameFront.trans (h : SameFront b b') (h' : SameFront b' b'') : SameFront b b'' where
  length := h'.length.trans h.length
  front j hj := (h'.front j hj).trans (h.front j hj)

theorem SameFront.shortAt (h : SameFront b b') {j : ℕ} (hj : j + 2 ≤ 24) :
    shortAt b' j = shortAt b j := by
  unfold WanStack.Aftr.shortAt
  rw [h.front j (by omega), h.front (j + 1) (by omega)]

theorem SameFront.addrAt (h : SameFront b b') {j : ℕ} (hj : j + 4 ≤ 24) : addrAt b' j = addrAt b j := by
  unfold Datapath.addrAt
  rw [h.shortAt (by omega), h.shortAt (by omega)]

/-- Buffers of one length with the same bytes. -/
theorem buf_ext (hlen : b'.length = b.length) (h : ∀ j < b.length, byteAt b' j = byteAt b j) :
    b' = b := by
  apply List.ext_getElem hlen
  intro j hj hj'
  have hbyte := h j hj'
  unfold byteAt at hbyte
  rw [List.getD_eq_getElem?_getD, List.getD_eq_getElem?_getD, List.getElem?_eq_getElem hj,
    List.getElem?_eq_getElem hj'] at hbyte
  exact hbyte

theorem SameFront.take (h : SameFront b b') {k : ℕ} (hk : k ≤ 24) : b'.take k = b.take k := by
  apply buf_ext
  · rw [List.length_take, List.length_take, h.length]
  · intro j hj
    rw [List.length_take] at hj
    rw [byteAt_take (by omega), byteAt_take (by omega), h.front j (by omega)]

theorem patchTcpmss_front (hlen : IPHDRLEN + TCPHDRLEN ≤ b.length) (hmost : b.length ≤ IPMAXLEN)
    (h : patchTcpmss t b = .through b') : SameFront b b' := by
  obtain ⟨p, hp, hclamps, hno⟩ := patchTcpmss_clamps t hlen hmost
  rw [hp] at h
  cases h
  by_cases hex : ∃ l i v, Clamps t b l i v
  · obtain ⟨l, i, v, hc⟩ := hex
    have hclamped := (hclamps l i v hc).1
    have hfrom := (clamps_found hc hlen).2.1
    refine ⟨hclamped.length, fun j hj => ?_⟩
    apply hclamped.others j
    · omega
    · omega
    · change j ≠ 36
      omega
    · change j ≠ 37
      omega
  · rw [hno fun l i v hc => hex ⟨l, i, v, hc⟩]
    exact SameFront.refl b

/-- A segment long enough for the fields. -/
theorem fixFtpsacksum_front {psa : ℕ} {ack : Bool} {l : List FtpSeq}
    (hpsa : psa = TCPSEQ ∨ psa = TCPACK) (hlen : IPHDRLEN + TCPHDRLEN ≤ b.length) :
    SameFront b (fixFtpsacksum b psa ack l) := by
  change 40 ≤ b.length at hlen
  have hpsa' : psa = 24 ∨ psa = 28 := hpsa
  rcases fixFtpsacksum_eq b psa ack l with ⟨heq, -⟩ | heq
  · rw [heq]
    exact SameFront.refl b
  · rw [heq]
    generalize (if ack then longAt b psa - BitVec.ofInt 32 (recordedShift ack (longAt b psa) l)
      else longAt b psa + BitVec.ofInt 32 (recordedShift ack (longAt b psa) l)) = s
    have hfirst : (copyAt b psa (fourBytes s)).length = b.length :=
      copyAt_length (by rw [fourBytes_length]; omega)
    constructor
    · rw [fixedSeq, copyAt_length, hfirst]
      rw [hfirst, twoBytes_length]
      change 36 + 2 ≤ _
      omega
    · intro j hj
      rw [fixedSeq, byteAt_copyAt_other, byteAt_copyAt_other]
      · rw [fourBytes_length]
        omega
      · left
        omega
      · rw [hfirst, twoBytes_length]
        change 36 + 2 ≤ _
        omega
      · left
        change j < 36
        omega

end Front

/-! ### Addresses that change in a header -/

section Header

variable {b : Buf} {pr : Pr} {r : Rewriting}

/-- A header whose address changes, with its checksum carried over. -/
theorem readdressed_summed {i : ℕ} {oaddr naddr : Addr4} (hlen : b.length = 20)
    (hi : i = 12 ∨ i = 16) (hold : bytesAt b i 4 = oaddr.toList) (h0 : byteAt b 0 = IP4VNOOP)
    (hsum : inCksum b = 0) :
    inCksum (copyAt (copyAt b i naddr.toList) IPCKSUMH
      (twoBytes (fixCksum (shortAt b IPCKSUMH) (some (oaddr, naddr)) none))) = 0 := by
  obtain ⟨c, hc⟩ : ∃ c, c = fixCksum (shortAt b IPCKSUMH) (some (oaddr, naddr)) none := ⟨_, rfl⟩
  have hle : c < 65536 := hc ▸ Nat.lt_succ_of_le (fixCksum_le _ _ _)
  have hfirst : (copyAt b i naddr.toList).length = b.length :=
    copyAt_length (by rw [Vector.length_toList]; omega)
  have hlen' : (copyAt (copyAt b i naddr.toList) IPCKSUMH (twoBytes c)).length = 20 := by
    rw [copyAt_length, hfirst, hlen]
    rw [hfirst, hlen, twoBytes_length]
    decide
  rw [inCksum_eq_zero (by omega)] at hsum
  rw [← hc, inCksum_eq_zero (by omega)]
  constructor
  · have htwo := cksumSum_copyAt_two (x := b) (v := naddr.toList) (u := twoBytes c) (i := i) (j := 10)
      (by omega) rfl (by rw [Vector.length_toList]) (by rw [twoBytes_length])
      (by rw [Vector.length_toList]; omega) (by rw [twoBytes_length]; omega)
      (by rw [twoBytes_length]; omega)
    rw [Vector.length_toList, twoBytes_length, hold, cksumSum_two (by omega), addrSum_eq, addrSum_eq,
      twoBytes_sum hle] at htwo
    apply @fixCksum_sum _ _ (shortAt b IPCKSUMH) (some (oaddr, naddr)) none (short_lt b IPCKSUMH)
      hsum.1
    rw [← hc]
    change _ + (shortAt b 10 + (addrSum oaddr + 0)) = _ + (addrSum naddr + 0 + c)
    change cksumSum (copyAt (copyAt b i naddr.toList) 10 (twoBytes c)) + _ = _
    omega
  · apply cksumSum_pos 0
    rw [byteAt_copyAt_other, byteAt_copyAt_other, h0]
    · decide
    · rw [Vector.length_toList]
      omega
    · left
      omega
    · rw [hfirst, hlen, twoBytes_length]
      decide
    · left
      decide

/-- What a router sees of a packet. -/
structure Header (b : Buf) : Prop where
  least : IPMINLEN ≤ b.length
  byte0 : byteAt b 0 = IP4VNOOP
  total : shortAt b IPLENH = b.length
  cksum : inCksum (b.take IPHDRLEN) = 0

theorem SameFront.header {b' : Buf} (h : SameFront b b') (hb : Header b) : Header b' where
  least := h.length ▸ hb.least
  byte0 := (h.front 0 (by decide)).trans hb.byte0
  total := (h.shortAt (by decide)).trans (hb.total.trans h.length.symm)
  cksum := by
    rw [h.take (by decide)]
    exact hb.cksum

theorem sound_header (h : Filter.Sound b) : Header b := ⟨h.length, h.byte0, h.total, h.cksum⟩

/-- A packet with its address and port, and its checksum unless it has none. -/
theorem rewrite_as (h : Placed pr r) (hlen : IPMINLEN ≤ b.length) :
    rewrite pr r b = moved r b ∨
      ∃ v, rewrite pr r b = copyAt (moved r b) (cksumAt pr) (twoBytes v) := by
  have hhead : fixCksumAt (copyAt b r.addrAt r.naddr.toList) IPCKSUMH
      (some (r.oaddr, r.naddr)) none = headed r b := by
    have ha := placed_addrAt h
    unfold IPMINLEN at hlen
    rw [fixCksumAt, shortAt_copyAt_other, headed]
    · rw [Vector.length_toList]
      omega
    · change 10 + 2 ≤ _
      omega
    · left
      change 10 + 2 ≤ _
      omega
  simp only [rewrite, hhead]
  change ((if pr = .udp ∧ shortAt (moved r b) UDPCKSUMH = 0 then moved r b
    else fixCksumAt (moved r b) (cksumAt pr) _ _) = moved r b) ∨ _
  by_cases hudp : pr = .udp ∧ shortAt (moved r b) UDPCKSUMH = 0
  · rw [if_pos hudp]
    exact .inl rfl
  · right
    change ∃ v, (if pr = .udp ∧ shortAt (moved r b) UDPCKSUMH = 0 then moved r b
      else fixCksumAt (moved r b) (cksumAt pr) _ _) = _
    rw [if_neg hudp]
    exact ⟨_, rfl⟩

/-- What a rewriting leaves of a packet. -/
structure Rewritten (r : Rewriting) (b b' : Buf) : Prop where
  length : b'.length = b.length
  head : b'.take IPHDRLEN = copyAt (copyAt (b.take IPHDRLEN) r.addrAt r.naddr.toList) IPCKSUMH
    (twoBytes (fixCksum (shortAt b IPCKSUMH) (some (r.oaddr, r.naddr)) none))
  port : bytesAt b' r.portAt 2 = r.nport.toList
  others : ∀ j < 20, (j < r.addrAt ∨ r.addrAt + 4 ≤ j) → (j < 10 ∨ 12 ≤ j) →
    byteAt b' j = byteAt b j
  ports : ∀ j, 20 ≤ j → j < 24 → (j < r.portAt ∨ r.portAt + 2 ≤ j) → r.portAt ≠ ICMPID →
    byteAt b' j = byteAt b j

theorem headed_take (h : Placed pr r) (hlen : IPMINLEN ≤ b.length) :
    (headed r b).take IPHDRLEN = copyAt (copyAt (b.take IPHDRLEN) r.addrAt r.naddr.toList) IPCKSUMH
      (twoBytes (fixCksum (shortAt b IPCKSUMH) (some (r.oaddr, r.naddr)) none)) := by
  have ha := placed_addrAt h
  have h1 := addressed_length h hlen
  unfold IPMINLEN at hlen
  rw [headed, copyAt_take, copyAt_take]
  · rw [Vector.length_toList]
    change _ ≤ 20
    omega
  · change 20 ≤ _
    omega
  · rw [twoBytes_length]
    decide
  · rw [h1]
    change 20 ≤ _
    omega

theorem moved_rewritten (h : Placed pr r) (hlen : IPMINLEN ≤ b.length) : Rewritten r b (moved r b) := by
  have ha := placed_addrAt h
  have hp := placed_portAt h
  have h1 := addressed_length h hlen
  have h2 := headed_length h hlen
  have h3 := moved_length h hlen
  have hport : IPHDRLEN ≤ r.portAt := by
    change 20 ≤ _
    omega
  have hend : r.portAt + r.nport.toList.length ≤ (headed r b).length := by
    rw [h2, Vector.length_toList]
    unfold IPMINLEN at hlen
    omega
  refine ⟨h3, ?_, ?_, ?_, ?_⟩
  · rw [moved, copyAt_take_before hport (by omega)]
    exact headed_take h hlen
  · have hself := bytesAt_copyAt_self hend
    rw [Vector.length_toList] at hself
    exact hself
  · intro j hj haddr hck
    unfold IPMINLEN at hlen
    rw [moved, byteAt_copyAt_other hend (.inl (by omega)), headed, byteAt_copyAt_other,
      byteAt_copyAt_other]
    · rw [Vector.length_toList]
      omega
    · rw [Vector.length_toList]
      exact haddr
    · rw [h1, twoBytes_length]
      change 10 + 2 ≤ _
      omega
    · rw [twoBytes_length]
      exact hck
  · intro j hj hj' hout hne
    unfold IPMINLEN at hlen
    rw [moved, byteAt_copyAt_other hend (by rw [Vector.length_toList]; exact hout), headed,
      byteAt_copyAt_other, byteAt_copyAt_other]
    · rw [Vector.length_toList]
      omega
    · rw [Vector.length_toList]
      right
      omega
    · rw [h1, twoBytes_length]
      change 10 + 2 ≤ _
      omega
    · rw [twoBytes_length]
      right
      change 12 ≤ j
      omega

theorem rewrite_rewritten (h : Placed pr r) (hlen : IPMINLEN ≤ b.length)
    (htcp : pr = .tcp → IPHDRLEN + TCPHDRLEN ≤ b.length) : Rewritten r b (rewrite pr r b) := by
  have hm := moved_rewritten h hlen
  have hapart := placed_cksumAt h
  obtain ⟨hfrom, hto⟩ := cksumAt_le hlen htcp
  rcases rewrite_as h hlen with heq | ⟨v, heq⟩
  · rw [heq]
    exact hm
  · have hend : cksumAt pr + (twoBytes v).length ≤ (moved r b).length := by
      rw [hm.length, twoBytes_length]
      exact hto
    have hfrom' : IPHDRLEN ≤ cksumAt pr := hfrom
    have hwithin : cksumAt pr ≤ (moved r b).length := by omega
    rw [heq]
    refine ⟨?_, ?_, ?_, ?_, ?_⟩
    · rw [copyAt_length hend]
      exact hm.length
    · rw [copyAt_take_before hfrom' hwithin]
      exact hm.head
    · rw [bytesAt_copyAt_other hend (by rw [twoBytes_length]; omega)]
      exact hm.port
    · intro j hj haddr hck
      rw [byteAt_copyAt_other hend (.inl (by omega))]
      exact hm.others j hj haddr hck
    · intro j hj hj' hout hne
      rw [byteAt_copyAt_other hend]
      · exact hm.ports j hj hj' hout hne
      · left
        have hicmp : pr ≠ .icmp := fun hpr => hne (h.icmp hpr)
        cases pr with
        | tcp => exact Nat.lt_of_lt_of_le hj' (by decide)
        | udp => exact Nat.lt_of_lt_of_le hj' (by decide)
        | icmp => exact absurd rfl hicmp

/-- The header of a rewritten packet. -/
theorem Rewritten.header {b' : Buf} (h : Rewritten r b b') (hp : Placed pr r) (hb : Header b)
    (haddr : bytesAt b r.addrAt 4 = r.oaddr.toList) : Header b' := by
  have ha := placed_addrAt hp
  have hleast := hb.least
  unfold IPMINLEN at hleast
  have h20 : (b.take IPHDRLEN).length = 20 :=
    List.length_take_of_le (by change 20 ≤ _; omega)
  refine ⟨h.length ▸ hb.least, ?_, ?_, ?_⟩
  · rw [h.others 0 (by decide) (.inl (by omega)) (.inl (by decide))]
    exact hb.byte0
  · have h2 := h.others 2 (by decide) (.inl (by omega)) (.inl (by decide))
    have h3 := h.others 3 (by decide) (.inl (by omega)) (.inl (by decide))
    have hsame : shortAt b' IPLENH = shortAt b IPLENH := by
      unfold shortAt
      rw [show IPLENH = 2 from rfl, h2, h3]
    rw [hsame, hb.total, h.length]
  · have hword : shortAt b IPCKSUMH = shortAt (b.take IPHDRLEN) IPCKSUMH := by
      unfold shortAt
      rw [byteAt_take (by decide), byteAt_take (by decide)]
    rw [h.head, hword]
    apply readdressed_summed h20 ha
    · rw [bytesAt_take (by change _ ≤ 20; omega)]
      exact haddr
    · rw [byteAt_take (by decide)]
      exact hb.byte0
    · exact hb.cksum

/-- The address that was put in. -/
theorem Rewritten.addr {b' : Buf} (h : Rewritten r b b') (hp : Placed pr r)
    (hlen : IPMINLEN ≤ b.length) : bytesAt b' r.addrAt 4 = r.naddr.toList := by
  have ha := placed_addrAt hp
  unfold IPMINLEN at hlen
  have h20 : (b.take IPHDRLEN).length = 20 :=
    List.length_take_of_le (by change 20 ≤ _; omega)
  have hin : r.addrAt + r.naddr.toList.length ≤ (b.take IPHDRLEN).length := by
    rw [h20, Vector.length_toList]
    omega
  have hself := bytesAt_copyAt_self hin
  rw [Vector.length_toList] at hself
  have htake : bytesAt b' r.addrAt 4 = bytesAt (b'.take IPHDRLEN) r.addrAt 4 :=
    (bytesAt_take (by change _ ≤ 20; omega)).symm
  rw [htake, h.head, bytesAt_copyAt_other]
  · exact hself
  · rw [copyAt_length hin, h20, twoBytes_length]
    decide
  · rw [twoBytes_length]
    right
    change 10 + 2 ≤ _
    omega

end Header

end WanStack.Aftr.Datapath
