import WanStack.Aftr.Delivery
import WanStack.Aftr.IcmpErrors

set_option autoImplicit false

/-!
# What a tunnel sends

A packet of a tunnel leaves for the Internet from the outside endpoint of its own entry, in
every state of a run; the other packets leave from the prefix of the tunnel.
The ICMPv6 packets `decap` hands to `icmp6in` are left out.
-/
namespace WanStack.Aftr.Datapath
open Filter Ftp OnesComplement Tried SearchTree FieldOrder

variable {cfg : Conf} {dv : Device} {dr : Drawn} {a a' : Tables} {b b' buf : Buf} {n : NatEntry}
  {t : ℕ} {s s' : State}

/-! ### The headers on the way -/

theorem byteAt_copyAt_before {v : Buf} {i j : ℕ} (h : j < i) (hj : j < b.length) :
    byteAt (copyAt b i v) j = byteAt b j := by
  rw [copyAt, List.append_assoc, byteAt_append_left, byteAt_take h]
  rw [List.length_take]
  omega

/-- The bytes a host chose, and the place of its text. -/
structure SameHead (b b' : Buf) : Prop where
  front : SameFront b b'
  text : tcpHl b' = tcpHl b

theorem tcpHl_congr (h : byteAt b' TCPOFF = byteAt b TCPOFF) : tcpHl b' = tcpHl b := by
  unfold tcpHl
  rw [h]

theorem patchTcpmss_head {c : TunnelConf} (hlen : IPHDRLEN + TCPHDRLEN ≤ b.length)
    (hmost : b.length ≤ IPMAXLEN) (h : patchTcpmss c b = .through b') : SameHead b b' := by
  refine ⟨patchTcpmss_front hlen hmost h, tcpHl_congr ?_⟩
  obtain ⟨p, hp, hclamps, hno⟩ := patchTcpmss_clamps c hlen hmost
  rw [hp] at h
  cases h
  by_cases hex : ∃ l i v, Clamps c b l i v
  · obtain ⟨l, i, v, hc⟩ := hex
    have hfrom := (clamps_found hc hlen).2.1
    apply (hclamps l i v hc).1.others
    · change 32 ≠ _
      omega
    · change 32 ≠ _
      omega
    · decide
    · decide
  · rw [hno fun l i v hc => hex ⟨l, i, v, hc⟩]

theorem fixFtpsacksum_head {l : List FtpSeq} (hlen : IPHDRLEN + TCPHDRLEN ≤ b.length) :
    SameHead b (fixFtpsacksum b TCPSEQ false l) := by
  refine ⟨fixFtpsacksum_front (.inl rfl) hlen, tcpHl_congr ?_⟩
  change 40 ≤ b.length at hlen
  rcases fixFtpsacksum_eq b TCPSEQ false l with ⟨heq, -⟩ | heq
  · rw [heq]
  · rw [heq]
    generalize (if false then longAt b TCPSEQ - BitVec.ofInt 32 (recordedShift false (longAt b TCPSEQ) l)
      else longAt b TCPSEQ + BitVec.ofInt 32 (recordedShift false (longAt b TCPSEQ) l)) = s
    have hfirst : TCPSEQ + (fourBytes s).length ≤ b.length := by
      rw [fourBytes_length]
      change 24 + 4 ≤ _
      omega
    rw [fixedSeq, byteAt_copyAt_before (by decide), byteAt_copyAt_other hfirst]
    · right
      rw [fourBytes_length]
      decide
    · rw [copyAt_length hfirst]
      change 32 < _
      omega

theorem natinRewrite_hl {n : Binding} (hlen : IPHDRLEN + TCPHDRLEN ≤ b.length) :
    tcpHl (natinRewrite n b) = tcpHl b := by
  change 40 ≤ b.length at hlen
  have hp := placed_into n
  have hleast : IPMINLEN ≤ b.length := by
    unfold IPMINLEN
    omega
  have hm := moved_length hp hleast
  have ha := placed_addrAt hp
  have hport := placed_portAt hp
  have h1 := addressed_length hp hleast
  have h2 := headed_length hp hleast
  have hmoved : byteAt (moved n.into b) TCPOFF = byteAt b TCPOFF := by
    rw [moved, byteAt_copyAt_other, headed, byteAt_copyAt_other, byteAt_copyAt_other]
    · rw [Vector.length_toList]
      omega
    · right
      rw [Vector.length_toList]
      change _ ≤ 32
      omega
    · rw [h1, twoBytes_length]
      change 10 + 2 ≤ _
      omega
    · right
      rw [twoBytes_length]
      decide
    · rw [h2, Vector.length_toList]
      omega
    · right
      rw [Vector.length_toList]
      change _ ≤ 32
      omega
  apply tcpHl_congr
  rcases rewrite_as hp hleast with heq | ⟨v, heq⟩
  · rw [natinRewrite, heq, hmoved]
  · rw [natinRewrite, heq, ← hmoved]
    cases hpr : n.proto with
    | tcp => exact byteAt_copyAt_before (by decide) (by rw [hm]; change 32 < _; omega)
    | udp =>
      apply byteAt_copyAt_other
      · rw [hm, twoBytes_length]
        change 26 + 2 ≤ _
        omega
      · right
        rw [twoBytes_length]
        decide
    | icmp =>
      apply byteAt_copyAt_other
      · rw [hm, twoBytes_length]
        change 22 + 2 ≤ _
        omega
      · right
        rw [twoBytes_length]
        decide

/-- The addresses, and the port unless the text of a command begins before it. -/
structure SameSender (b b' : Buf) : Prop where
  addrs : ∀ j, 12 ≤ j → j < 20 → byteAt b' j = byteAt b j
  ports : tcpHl b ≠ 0 → ∀ j, 20 ≤ j → j < 24 → byteAt b' j = byteAt b j
  least : 20 ≤ b'.length ∧ (tcpHl b ≠ 0 → 24 ≤ b'.length)

theorem SameFront.sender (h : SameFront b b') (hlen : 24 ≤ b.length) : SameSender b b' where
  addrs j _ hj := h.front j (by omega)
  ports _ j _ hj := h.front j hj
  least := by
    rw [h.length]
    exact ⟨by omega, fun _ => hlen⟩

/-- The bytes before a command. -/
theorem putFtpcmd_bytes {cmd : Buf} {off : ℕ} (hlen : 40 ≤ b.length) (hoff : 20 ≤ off) :
    min off b.length ≤ (putFtpcmd b cmd off).length ∧
      ∀ j, 12 ≤ j → j < 24 → j < off → byteAt (putFtpcmd b cmd off) j = byteAt b j := by
  obtain ⟨w, hw⟩ : ∃ w, w = b.take off ++ cmd := ⟨_, rfl⟩
  obtain ⟨x, y, z, hx, hy, hz, hput⟩ := putFtpcmd_eq b cmd off
  rw [hput]
  have htake : (b.take off).length = min off b.length := List.length_take
  have hwlen : min off b.length ≤ w.length := by
    rw [hw, List.length_append, htake]
    omega
  rw [← hw] at hx
  have hw1 : IPLENH + (twoBytes w.length).length ≤ w.length := by
    rw [twoBytes_length]
    change 2 + 2 ≤ _
    omega
  have hl1 := copyAt_length hw1
  have hw2 : IPCKSUMH + (twoBytes 0).length ≤ (copyAt w IPLENH (twoBytes w.length)).length := by
    rw [hl1, twoBytes_length]
    change 10 + 2 ≤ _
    omega
  have hlx : x.length = w.length := by
    rw [hx, copyAt_length hw2, hl1]
  have hw3 : IPCKSUMH + (twoBytes (inCksum (x.take IPHDRLEN))).length ≤ x.length := by
    rw [hlx, twoBytes_length]
    change 10 + 2 ≤ _
    omega
  have hly : y.length = w.length := by
    rw [hy, copyAt_length hw3, hlx]
  have hcopy : ∀ {v u : Buf}, u.length ≤ (copyAt u TCPCKSUMH v).length := by
    intro v u
    simp only [copyAt, List.length_append, List.length_take, List.length_drop]
    omega
  have hlz : w.length ≤ z.length := by
    rw [hz, ← hly]
    exact hcopy
  refine ⟨hwlen.trans (hlz.trans hcopy), ?_⟩
  intro j hj hj' hjoff
  have hin : j < w.length := by omega
  rw [byteAt_copyAt_before (by change j < 36; omega) (by omega), hz,
    byteAt_copyAt_before (by change j < 36; omega) (by omega), hy, byteAt_copyAt_other hw3, hx,
    byteAt_copyAt_other hw2, byteAt_copyAt_other hw1, hw, byteAt_append_left (by omega), byteAt_take hjoff]
  · right
    rw [twoBytes_length]
    change 2 + 2 ≤ j
    omega
  · right
    rw [twoBytes_length]
    exact hj
  · right
    rw [twoBytes_length]
    exact hj

theorem putFtpcmd_sender {cmd : Buf} (hlen : 40 ≤ b.length) :
    SameSender b (putFtpcmd b cmd (IPHDRLEN + tcpHl b)) := by
  obtain ⟨off, hoff⟩ : ∃ off, off = IPHDRLEN + tcpHl b := ⟨_, rfl⟩
  rw [← hoff]
  have hoff20 : 20 ≤ off := by
    change off = 20 + _ at hoff
    omega
  have hfour : tcpHl b ≠ 0 → 24 ≤ off := by
    intro hne
    unfold tcpHl at hne hoff
    change off = 20 + _ at hoff
    omega
  obtain ⟨hend, hbyte⟩ := @putFtpcmd_bytes b cmd off hlen hoff20
  refine ⟨fun j hj hj' => hbyte j hj (by omega) (by omega), ?_, by omega, ?_⟩
  · intro hne j hj hj'
    have hoff24 := hfour hne
    exact hbyte j (by omega) hj' (by omega)
  · intro hne
    have hoff24 := hfour hne
    omega

/-- The packet with a command in it. -/
theorem patchFtpin_sender {env : NatEnv} {server : Bool} {junk : UInt8 × UInt8}
    (hlen : IPHDRLEN + TCPHDRLEN ≤ b.length)
    (h : patchFtpin cfg env server junk b n a = (a', some b')) : SameSender b b' := by
  change 40 ≤ b.length at hlen
  unfold patchFtpin at h
  dsimp only at h
  split at h
  · cases h
  · rename_i m hm
    obtain ⟨c, hc⟩ : ∃ c, c = fixFtpsacksum b TCPSEQ false (a.ftpseq m.ptr) := ⟨_, rfl⟩
    have hhead : SameHead b c := hc ▸ fixFtpsacksum_head hlen
    have hclen := hhead.front.length
    have hsame : SameSender b c := hhead.front.sender (by omega)
    rw [← hc] at h
    split at h
    · cases h
    · cases h
      exact hsame
    · rename_i s k td line hline
      unfold patchFtpcmd at h
      dsimp only at h
      split at h
      · cases h
      · split at h
        · have hout := Option.some.inj (congrArg Prod.snd h)
          have hput := @putFtpcmd_sender c (textBytes line) (by omega)
          rw [hout] at hput
          refine ⟨?_, ?_, hput.least.1, ?_⟩
          · intro j hj hj'
            exact (hput.addrs j hj hj').trans (hsame.addrs j hj hj')
          · intro hne j hj hj'
            exact (hput.ports (hhead.text ▸ hne) j hj hj').trans (hsame.ports hne j hj hj')
          · intro hne
            exact hput.least.2 (hhead.text ▸ hne)
        · cases h

/-! ### Packets of an entry -/

/-- The entry of a packet is there, or is made with an address of the tunnel's pool. -/
def Own (s : State) (t : ℕ) (n : NatEntry) : Prop :=
  Known s n ∨ n.ptr = s.nats.next ∧ n.nsrc = (s.ports.pool (s.tuns.srcidx t)).addr

/-- What a search of a splay tree finds has the endpoint of the key. -/
theorem natSplayRoFind_inside {pr : Pr} {key : NatEntry}
    (h : s.nats.natSplayRoFind pr key false = some n) : Known s n ∧ key.inside = n.inside :=
  ⟨.of_splay (natSplayRoFind_mem h), ((compareWild_eq_zero inside_length).mp (find_some h).2).1⟩

theorem natinEntry_own {env env' : NatEnv} {p : Pkt}
    (h : natinEntry cfg env t p s = (s', some (n, env'))) :
    Own s t n ∧ n.tunnel = t ∧ n.proto = p.proto ∧ n.src = p.src ∧ n.sport = p.sport := by
  have hfind := @natSplayFind_snd s.nats p.proto (inKey t p) 0 s.ctl.lastgen false false
  unfold natinEntry at h
  rcases hr : s.nats.natSplayFind p.proto (inKey t p) 0 s.ctl.lastgen false false with ⟨nats, _ | m⟩ <;>
    rw [hr] at h hfind <;> obtain ⟨root, rfl⟩ := natSplayFind_root hr
  · dsimp only at h
    split at h
    · cases h
    · rcases hrate : natRate cfg env.seconds t p.proto s.tuns with ⟨tuns, ok⟩
      rw [hrate] at h
      dsimp only at h
      split at h
      · cases h
      · split at h
        · cases h
        · rename_i hnew
          obtain ⟨-, -, hmade⟩ := newNat_made hnew
          cases h
          rcases hmade with ⟨hnone, -⟩ | ⟨port, hsome, -⟩
          · cases hnone
          · cases hsome
            exact ⟨.inr ⟨rfl, rfl⟩, rfl, rfl, rfl, rfl⟩
  · cases h
    obtain ⟨hknown, hinside⟩ := natSplayRoFind_inside (hfind rfl)
    obtain ⟨htunnel, hproto, hsrc, hsport⟩ := inside_eq.mp hinside
    exact ⟨.inl hknown, htunnel.symm, hproto.symm, hsrc.symm, hsport.symm⟩

/-- The endpoint of the entry `n` in a packet for the Internet. -/
structure Outward (n : NatEntry) (b b' : Buf) : Prop where
  src : bytesAt b' IPSRC 4 = (addrOf n.nsrc).toList
  dst : bytesAt b' IPDST 4 = bytesAt b IPDST 4
  port : n.proto ≠ .tcp ∨ tcpHl b ≠ 0 →
    bytesAt b' (if n.proto = .icmp then ICMPID else IPSPORT) 2 = (portOf n.nport).toList

/-- The packet `b'` of the entry `n`, from the packet `b` of its host. -/
structure Departed (n : NatEntry) (t : ℕ) (b b' : Buf) : Prop extends Outward n b b' where
  tunnel : n.tunnel = t
  proto : n.proto = protoAt b
  inside : n.src = addrAt b IPSRC ∧ n.sport = (inPkt b).sport

theorem natinRewrite_outward (hlen : IPMINLEN ≤ b.length)
    (htcp : n.proto = .tcp → IPHDRLEN + TCPHDRLEN ≤ b.length) :
    Outward n b (natinRewrite (binding n) b) ∧ (natinRewrite (binding n) b).length = b.length := by
  have hp := placed_into (binding n)
  have hr := rewrite_rewritten hp hlen htcp
  unfold IPMINLEN at hlen
  have hlen' : (natinRewrite (binding n) b).length = b.length := hr.length
  refine ⟨⟨hr.addr hp hlen, ?_, fun _ => hr.port⟩, hlen'⟩
  apply bytesAt_congr
  · change 16 + 4 ≤ _
    omega
  · rw [hlen']
    change 16 + 4 ≤ _
    omega
  · intro j hj hj'
    change 16 ≤ j at hj
    change j < 16 + 4 at hj'
    apply hr.others j (by omega) (.inr hj) (.inr (by omega))

/-- A packet that is too short for its header stays so. -/
theorem natinRewrite_le {n : Binding} (hlen : IPMINLEN ≤ b.length) :
    (natinRewrite n b).length ≤ max b.length 38 := by
  have hm := moved_length (placed_into n) hlen
  have hck : cksumAt n.proto ≤ 36 := by
    cases n.proto <;> decide
  rcases rewrite_as (placed_into n) hlen with heq | ⟨v, heq⟩
  · rw [natinRewrite, heq, hm]
    omega
  · rw [natinRewrite, heq]
    simp only [copyAt, List.length_append, List.length_take, List.length_drop, twoBytes_length, hm]
    omega

/-- Only a TCP packet changes behind the rewriting. -/
theorem Outward.sender {c : Buf} (h : Outward n b c) (htcp : n.proto = .tcp) (hlen : 24 ≤ c.length)
    (htext : tcpHl c = tcpHl b) (hs : SameSender c b') : Outward n b b' := by
  have hleast := hs.least
  have haddr : ∀ i, 12 ≤ i → i + 4 ≤ 20 → bytesAt b' i 4 = bytesAt c i 4 := by
    intro i hi hi'
    apply bytesAt_congr (by omega) (by omega)
    intro j hj hj'
    exact hs.addrs j (by omega) (by omega)
  refine ⟨(haddr IPSRC (by decide) (by decide)).trans h.src,
    (haddr IPDST (by decide) (by decide)).trans h.dst, ?_⟩
  intro hhl
  have hport := h.port hhl
  have hne : tcpHl c ≠ 0 := by
    rcases hhl with hnot | hne
    · exact absurd htcp hnot
    · rw [htext]
      exact hne
  have hicmp : n.proto ≠ .icmp := by
    rw [htcp]
    decide
  rw [if_neg hicmp] at hport ⊢
  rw [← hport]
  apply bytesAt_congr
  · change 20 + 2 ≤ _
    omega
  · have hleast' := hleast.2 hne
    change 20 + 2 ≤ _
    omega
  · intro j hj hj'
    change 20 ≤ j at hj
    change j < 20 + 2 at hj'
    exact hs.ports hne j hj (by omega)

theorem natin_departed (hlen : IPMINLEN ≤ b.length) (hmost : b.length ≤ IPMAXLEN)
    (h : natin cfg dv dr t b a = .through (a', some b')) :
    ∃ n, Own a.st t n ∧ Departed n t b b' := by
  unfold natin at h
  split at h
  · cases h
  · rename_i s n env hentry
    obtain ⟨hown, htunnel, hproto, hsrc, hsport⟩ := natinEntry_own hentry
    refine ⟨n, hown, ?_⟩
    have hdeparted : ∀ {c}, Outward n b c → Departed n t b c :=
      fun ho => ⟨ho, htunnel, hproto, hsrc, hsport⟩
    dsimp only at h
    by_cases hpr : n.proto ≠ .tcp
    · rw [if_pos hpr] at h
      cases h
      exact hdeparted (natinRewrite_outward hlen fun htcp => absurd htcp hpr).1
    · rw [if_neg hpr] at h
      rw [ne_eq, not_not] at hpr
      split at h
      · cases h
      · rename_i hlong
        have hle := @natinRewrite_le b (binding n) hlen
        replace hlong : IPHDRLEN + TCPHDRLEN ≤ b.length := by
          change ¬_ < 40 at hlong
          change 40 ≤ _
          omega
        obtain ⟨hout, hsame⟩ := natinRewrite_outward (n := n) hlen fun _ => hlong
        have htext : tcpHl (natinRewrite (binding n) b) = tcpHl b := natinRewrite_hl hlong
        obtain ⟨c, hpatch, hrest⟩ := bind_through_iff.mp h
        have hhead := patchTcpmss_head (hsame ▸ hlong) (hsame ▸ hmost) hpatch
        change 40 ≤ _ at hlong
        have hclen := hhead.front.length
        have hout' := hout.sender hpr (by omega) htext (hhead.front.sender (by omega))
        have htext' := hhead.text.trans htext
        have hlong' : IPHDRLEN + TCPHDRLEN ≤ c.length := by
          change 40 ≤ _
          omega
        have hresult := Result.through.inj hrest
        split at hresult
        · exact hdeparted (hout'.sender hpr (by omega) htext' (patchFtpin_sender hlong' hresult))
        · split at hresult
          · exact hdeparted (hout'.sender hpr (by omega) htext' (patchFtpin_sender hlong' hresult))
          · cases hresult
            exact hdeparted hout'

/-! ### A+P packets and errors -/

/-- The packet of a shared port goes on as it is. -/
structure Shared (n : NatEntry) (t : ℕ) (b b' : Buf) : Prop where
  prr : n.flags.prrNull = true
  tunnel : n.tunnel = t
  proto : n.proto = protoAt b
  inside : n.src = addrAt b IPSRC ∧ n.sport = (inPkt b).sport
  same : SameFront b b'

theorem prrinKey_match {p : Pkt} (h : natSplayCompareAbs (prrinKey t p) n = 0) :
    (prrinKey t p).inside = n.inside ∧ n.flags.prrNull = true := by
  rw [natSplayCompareAbs, compareAbs, orElse_eq_zero, lexDiff_eq_zero (inside_length _ _)] at h
  obtain ⟨hinside, hflags⟩ := h
  refine ⟨hinside, ?_⟩
  by_contra hprr
  rw [Bool.not_eq_true] at hprr
  cases hall : n.flags.allDst <;> simp [prrinKey, hprr, hall] at hflags

theorem prrin_shared (hmost : b.length ≤ IPMAXLEN)
    (h : prrin dv t b a = .through (a', some b')) : ∃ n, Known a.st n ∧ Shared n t b b' := by
  have hfind := @natSplayFind_snd a.st.nats (protoAt b) (prrinKey t (inPkt b)) 0 a.st.ctl.lastgen true false
  unfold prrin WanStack.Aftr.prrin at h
  rcases hr : a.st.nats.natSplayFind (protoAt b) (prrinKey t (inPkt b)) 0 a.st.ctl.lastgen true false with
    ⟨nats, _ | n⟩
  · rw [show (inPkt b).proto = protoAt b from rfl, hr] at h
    cases h
  · rw [show (inPkt b).proto = protoAt b from rfl, hr] at h
    rw [hr] at hfind
    have hro := hfind rfl
    obtain ⟨hinside, hprr⟩ := prrinKey_match (find_some hro).2
    obtain ⟨htunnel, hproto, hsrc, hsport⟩ := inside_eq.mp hinside
    refine ⟨n, .of_splay (natSplayRoFind_mem hro), hprr, htunnel.symm, hproto.symm,
      ⟨hsrc.symm, hsport.symm⟩, ?_⟩
    dsimp only [Option.map_some] at h
    split at h
    · obtain ⟨c, hpatch, hrest⟩ := bind_through_iff.mp h
      cases hrest
      exact patchTcpmss_kept hmost hpatch
    · cases h
      exact .refl b

/-- What `filtericmpin` lets through. -/
theorem filtericmpin_some {type4 : UInt8} {q : Buf} (h : filtericmpin type4 b = some q) :
    q = b.take ICMPMAXLEN ∧ IPMINLEN ≤ q.length ∧ inCksum (q.take IPHDRLEN) = 0 ∧
      byteAt q 0 = IP4VNOOP := by
  unfold filtericmpin at h
  dsimp only at h
  split at h
  · cases h
  rename_i hlen
  split at h
  · cases h
  split at h
  · cases h
  rename_i h0
  split at h
  · cases h
  split at h
  · cases h
  split at h
  · cases h
  split at h
  · cases h
  split at h
  · cases h
  rename_i hsum
  cases h
  refine ⟨rfl, ?_, not_not.mp hsum, not_not.mp h0⟩
  rw [List.length_take]
  unfold IPMINLEN at hlen ⊢
  unfold ICMPMAXLEN
  omega

/-- An error of a tunnel: the packet it quotes has the outside endpoint of the entry. -/
structure Announced (n : NatEntry) (t : ℕ) (b b' : Buf) : Prop where
  tunnel : n.tunnel = t
  inside : n.src = addrAt b (IP2 + IPDST) ∧ n.sport = shortAt b (IP2 + IPDPORT)
  dst : bytesAt b' (IP2 + IPDST) 4 = (addrOf n.nsrc).toList
  port : bytesAt b' (IP2 + IPDPORT) 2 = (portOf n.nport).toList

theorem bytesAt_behind {heads q : Buf} {i k : ℕ} (h : heads.length = IP2) :
    bytesAt (heads ++ q) (IP2 + i) k = bytesAt q i k := by
  rw [bytesAt, bytesAt, ← h, List.drop_length_add_append]

/-- The quoted destination of an error, rewritten. -/
theorem icmpinError_quoted {icmpsrc : Addr4} {id : PortNo} {n : Binding} {heads q stale : Buf}
    (h : heads.length = IP2) (h0 : byteAt heads 0 = IP4VNOOP) (hsum : inCksum (heads.take IPHDRLEN) = 0)
    (hpr : n.proto ≠ .icmp) (hq : IPMINLEN ≤ q.length) (hmost : q.length ≤ ICMPMAXLEN)
    (hstale : IP2 + TCPCKSUMH + 2 ≤ stale.length) (hq0 : byteAt q 0 = IP4VNOOP)
    (hdst : bytesAt q IPDST 4 = n.src.toList) (hqsum : inCksum (q.take IPHDRLEN) = 0) :
    bytesAt (icmpinError icmpsrc id stale heads q n) (IP2 + IPDST) 4 = n.nsrc.toList ∧
      bytesAt (icmpinError icmpsrc id stale heads q n) (IP2 + IPDPORT) 2 = n.nport.toList := by
  obtain ⟨heads', hlen', -, -, -, heq⟩ := @icmpinError_eq icmpsrc id n heads q stale h h0 hsum hpr hq hmost
  obtain ⟨hqdst, hqport, -⟩ := requoted_header hpr hq hstale hq0 hdst hqsum
  have hfill : ∀ i k, bytesAt (icmpinError icmpsrc id stale heads q n) (IP2 + i) k =
      bytesAt (requoted n stale q) i k := by
    intro i k
    rw [heq, fillIcmp, bytesAt_copyAt_other, bytesAt_behind hlen']
    · rw [twoBytes_length, List.length_append, hlen']
      change 22 + 2 ≤ 28 + _
      omega
    · right
      rw [twoBytes_length]
      change 22 + 2 ≤ 28 + i
      omega
  rw [hfill, hfill]
  exact ⟨hqdst, hqport⟩

theorem naticmpin_announced (hb : Sound b) (h : naticmpin dv dr t b a = (a', some b')) :
    ∃ n, Known a.st n ∧ Announced n t b b' := by
  unfold naticmpin at h
  split at h
  · cases h
  rename_i hguard
  rw [not_or, not_lt] at hguard
  have hlen := hguard.1
  change 28 + 28 ≤ b.length at hlen
  split at h
  · cases h
  rename_i q hq
  obtain ⟨hqeq, hqlen, hqsum, hq0⟩ := filtericmpin_some hq
  obtain ⟨pr, hpr⟩ : ∃ pr, pr = if byteAt q IPPROTO = IPTCP then Pr.tcp else Pr.udp := ⟨_, rfl⟩
  have hfind := @naticmpin_find t pr (addrAt q IPDST) (shortAt q IPDPORT) a.st
  dsimp only at h
  rw [← hpr] at h
  rcases hr : WanStack.Aftr.naticmpin t pr (addrAt q IPDST) (shortAt q IPDPORT) a.st with ⟨s, _ | n⟩
  · rw [hr] at h
    cases h
  · rw [hr] at h hfind
    obtain ⟨hmem, hzero⟩ := find_some hfind.symm
    obtain ⟨htunnel, hproto, hsrc, hsport⟩ := inside_eq.mp (icmpKey_match.mp hzero).1
    change t = n.tunnel at htunnel
    change pr = n.proto at hproto
    change addrAt q IPDST = n.src at hsrc
    change shortAt q IPDPORT = n.sport at hsport
    have hicmp : (binding n).proto ≠ .icmp := by
      change n.proto ≠ .icmp
      rw [← hproto, hpr]
      split <;> decide
    have hheads : (b.take IP2).length = IP2 := List.length_take_of_le (by change 28 ≤ _; omega)
    have hqlen' := hqlen
    change 28 ≤ q.length at hqlen'
    have hqmost : q.length ≤ ICMPMAXLEN := by
      rw [hqeq, List.length_take]
      omega
    have hdst : bytesAt q IPDST 4 = (binding n).src.toList := by
      change _ = (addrOf n.src).toList
      rw [← hsrc, addrOf_addrAt (by change 16 + 4 ≤ _; omega)]
    obtain ⟨hqdst, hqport⟩ := @icmpinError_quoted dv.icmpsrc dr.id (binding n) (b.take IP2) q dr.stale hheads
      (by rw [byteAt_take (by decide)]; exact hb.byte0) (by rw [List.take_take]; exact hb.cksum) hicmp hqlen
      hqmost dr.room hq0 hdst hqsum
    have hout := Option.some.inj (congrArg Prod.snd h)
    have hback : ∀ i < 24, byteAt q i = byteAt b (IP2 + i) := by
      intro i hi
      rw [hqeq, byteAt_take (by unfold ICMPMAXLEN; omega), byteAt_drop_add]
    refine ⟨n, .of_splay (k := (t, pr)) hmem, htunnel.symm, ⟨?_, ?_⟩, ?_, ?_⟩
    · rw [← hsrc]
      unfold addrAt shortAt
      rw [hback _ (by decide), hback _ (by decide), hback _ (by decide), hback _ (by decide)]
      rfl
    · rw [← hsport]
      unfold shortAt
      rw [hback _ (by decide), hback _ (by decide)]
      rfl
    · rw [← hout]
      exact hqdst
    · rw [← hout]
      exact hqport

/-! ### The loop -/

/-- Why a tunnel may send a packet: an entry of it has the source, or its prefix has. -/
inductive Departs (s : State) (t : Tunnel) (b : Buf) : Buf → Prop where
  | session {n : NatEntry} {b' : Buf} (hn : Own s t.ptr n) (h : Departed n t.ptr b b') : Departs s t b b'
  | shared {n : NatEntry} {b' : Buf} (hk : Known s n) (h : Shared n t.ptr b b') : Departs s t b b'
  | error {n : NatEntry} {b' : Buf} (hk : Known s n) (h : Announced n t.ptr b b') : Departs s t b b'
  | routed {b' : Buf} (hin : inNonat s.tuns (b.drop IPSRC) t = true) (h : SameFront b b') :
      Departs s t b b'

theorem nonatin_routed {c : TunnelConf} {u : Tunnel} (hmost : b.length ≤ IPMAXLEN)
    (h : nonatin c s.tuns u b = .through (some b')) : Departs s u b b' := by
  unfold nonatin at h
  split at h
  · cases h
  · rename_i hin
    rw [Bool.not_eq_true, Bool.not_eq_false'] at hin
    split at h
    · obtain ⟨c, hpatch, hout⟩ := bind_through_iff.mp h
      cases hout
      exact .routed hin (patchTcpmss_kept hmost hpatch)
    · cases h
      exact .routed hin (.refl b)

/-- The kinds behind the filter of a tunnel. -/
theorem fromTunnel_departs {u : Tunnel} {f : Filtered}
    (hf : (f.ret = 0 ∧ f.icmp = false) ∨ Sound f.buf4)
    (h : fromTunnel cfg dv dr u f a = .through (a', some b')) : Departs a.st u f.buf4 b' := by
  unfold fromTunnel at h
  rcases hf with ⟨hzero, hicmp⟩ | hsound
  · rw [hzero, hicmp, if_neg (by decide), if_neg (by decide), if_neg (by decide), if_neg (by decide)] at h
    cases h
  · have hmost := sound_most hsound
    split at h
    · obtain ⟨n, hn, hannounced⟩ := naticmpin_announced hsound (Result.through.inj h)
      exact .error hn hannounced
    · split at h
      · obtain ⟨n, hn, hdeparted⟩ := natin_departed hsound.length hmost h
        exact .session hn hdeparted
      · split at h
        · obtain ⟨n, hn, hshared⟩ := prrin_shared hmost h
          exact .shared hn hshared
        · split at h
          · obtain ⟨o, hnonat, hrest⟩ := bind_through_iff.mp h
            cases hrest
            exact nonatin_routed hmost hnonat
          · cases h

/-- A packet `b'` for the Internet from a packet that was read: its tunnel `t`, the packet `b₄`
    in it, and what the filter left of that. -/
structure Sent (cfg : Conf) (dv : Device) (dr : Drawn) (s : State) (buf : Buf) (st : State)
    (t : Tunnel) (b₄ : Buf) (f : Filtered) (b' : Buf) : Prop where
  decap : Filter.decap cfg dv.acls dv.autotunnel 2 ⟨dr.outer, s, none, buf⟩ = some (st, some (t, b₄))
  live : t ∈ st.tuns.live
  remote : t.remote = addr6At buf IP6SRC
  filter : Filter.filterin cfg.frag dv.acls t.ptr (st.tuns.nonat t.ptr).isSome
    (st.frags.frags4.length + 1) ⟨dr.filter, st.frags, b₄⟩ = some f
  departs : Departs st t f.buf4 b'

/-- A packet of a tunnel in a state whose tunnels are in order. -/
theorem loop1_departs {ws : List Written} (hok : a.st.tuns.Ok)
    (hv : byteAt buf 0 &&& IPVERMSK = IP6V ∧ byteAt buf IP6PROTO ≠ IP6ICMP)
    (h : loop1 cfg dv dr buf a = .through (a', ws)) : ws = [] ∨
      ∃ st t b₄ f b', Sent cfg dv dr a.st buf st t b₄ f b' ∧ ws = [.v4 b'] := by
  unfold loop1 at h
  rw [if_pos hv.1] at h
  split at h
  · cases h
    exact .inl rfl
  obtain ⟨⟨st, r⟩, hdecap, hrest⟩ := bind_through_iff.mp h
  have hsome := finished_through hdecap
  have hfound := @filterDecap_moves cfg ⟨true, fun _ => False, True⟩ _ _ _ _ _ _ _ rfl hok hsome
  cases r with
  | none =>
    cases hrest
    exact .inl rfl
  | some o =>
    obtain ⟨t, b₄⟩ := o
    obtain ⟨hlive, hremote⟩ := hfound.found t b₄ rfl
    obtain ⟨f, hfilter, hrest⟩ := bind_through_iff.mp hrest
    have hf := finished_through hfilter
    have hleft := @filterin_moves cfg ⟨true, fun _ => False, True⟩ st _ _ _ _ _ _ _ rfl
      ⟨t, hlive, rfl⟩ hf
    obtain ⟨⟨a₁, out⟩, htunnel, hout⟩ := bind_through_iff.mp hrest
    cases hout
    cases out with
    | none => exact .inl rfl
    | some b' =>
      have hdeparts := fromTunnel_departs (hleft.kind.imp_right And.left) htunnel
      have hsame : ∀ n, Known (liftFrags f.frags { a with st := st }).st n → Known st n :=
        fun n hn => hn.congr rfl rfl
      refine .inr ⟨st, t, b₄, f, b', ⟨hsome, hlive, hremote, hf, ?_⟩, rfl⟩
      cases hdeparts with
      | session hn h => exact .session (hn.imp_left (hsame _)) h
      | shared hk h => exact .shared (hsame _ hk) h
      | error hk h => exact .error (hsame _ hk) h
      | routed hin h => exact .routed hin h

/-- The answer to `clientSyn`, in the tunnel. -/
def serverSynAck : Buf :=
  [96, 0, 0, 0, 0, 40, 4, 64] ++ List.replicate 15 0 ++ [5] ++ List.replicate 16 1 ++
    [69, 0, 0, 40, 0, 1, 0, 0, 64, 6, 80, 141, 0, 0, 0, 10, 198, 51, 100, 5, 0, 21, 3, 232, 0, 0,
      0, 1, 0, 0, 0, 2, 80, 18, 16, 0, 113, 144, 0, 0]

/-- The server after the packet of the client. -/
def answering : Tables where
  st := run defaultConf serverState (serverBoot ++ [client 0xc6336405])
  ftpseq := fun _ => []

def serverDevice : Device :=
  { onDevice with acls := { acl4s := [⟨[0, 0, 0, 10], mask4Bytes 32⟩] } }

end WanStack.Aftr.Datapath
