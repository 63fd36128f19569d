import WanStack.Aftr.Filters
import WanStack.Aftr.Defrag6
import WanStack.Aftr.Runs

set_option autoImplicit false

/-!
# The loops of the input filters

A pass that goes back to its label has taken a datagram out of the queues, or an
extension header off the packet; what a filter lets through has passed every check
of its last pass.
-/
namespace WanStack.Aftr.Filter
open Again Reassembly

/-! ### A reassembled packet -/

theorem frags4_length (st : Frags) :
    st.frags4.length = st.fragsin.length + st.fragsout.length := List.length_append

@[simp] theorem setFrag_length (st : Frags) (f : Frag) :
    (st.setFrag f).frags4.length = st.frags4.length := by
  simp [Frags.frags4, Frags.setFrag]

theorem delFrag4_length {st : Frags} {f g : Frag} (hg : g ∈ st.frags4) (hp : g.ptr = f.ptr) :
    (delFrag4 f st).frags4.length < st.frags4.length := by
  have heq : (delFrag4 f st).frags4 = st.frags4.filter (·.ptr ≠ f.ptr) := by
    unfold delFrag4
    cases f.tunnel with
    | none => simp [Frags.frags4]
    | some t => simp [Frags.frags4]
  rw [heq]
  apply List.length_filter_lt_length_iff_exists.mpr
  exact ⟨g, hg, by simp [hp]⟩

theorem mem_setFrag_ptr {st : Frags} {f g : Frag} (hg : g ∈ st.frags4) (hp : g.ptr = f.ptr) :
    f ∈ (st.setFrag f).frags4 :=
  (mem_setFrag st f f).mpr ⟨g, hg, by simp [hp]⟩

theorem newFrag4_head (cfg : FragConf) (env : Env) (t : Option ℕ) (buf4 : Buf)
    (x : Piece UInt8) (st : Frags) : (newFrag4 cfg env t buf4 x st).2.key = fragKey t buf4 ∧
      (newFrag4 cfg env t buf4 x st).2.fraglist = [] ∧
      (newFrag4 cfg env t buf4 x st).2.off = x.off := by
  cases t with
  | none => exact ⟨fragKey_take none buf4, rfl, rfl⟩
  | some t => exact ⟨fragKey_take (some t) buf4, rfl, rfl⟩

/-- A head is one of the queues, or a new one without fragments. -/
theorem fragHead4_cases {cfg : FragConf} {env : Env} {t : Option ℕ} {buf4 : Buf}
    {x : Piece UInt8} {st st' : Frags} {f : Frag}
    (h : fragHead4 cfg env t buf4 x st = some (st', f)) :
    f.key = fragKey t buf4 ∧
      ((st'.frags4.length = st.frags4.length ∧ f ∈ st'.frags4) ∨
        (f.fraglist = [] ∧ f.off = x.off)) := by
  unfold fragHead4 at h
  simp only at h
  obtain ⟨hash, hhash⟩ : ∃ hash, hash = fragSlot st buf4 := ⟨_, rfl⟩
  rw [← fragSlot, ← hhash] at h
  split at h
  · rename_i g hg
    obtain ⟨rfl, rfl⟩ : st = st' ∧ g = f := by simpa using h
    obtain ⟨hc, hsame⟩ := Option.filter_eq_some_iff.mp hg
    obtain ⟨p, -, hfind⟩ := Option.bind_eq_some_iff.mp hc
    exact ⟨(sameDatagram_iff _ _ _).mp hsame, .inl ⟨rfl, List.mem_of_find?_eq_some hfind⟩⟩
  · split at h
    · rename_i g hfind
      have hst : (st.rehash g hash).1 = st' := congrArg Prod.fst (Option.some.inj h)
      have hf : (st.rehash g hash).2 = f := congrArg Prod.snd (Option.some.inj h)
      rw [← hst, ← hf]
      have hq : g ∈ st.frags4 := by
        have hmem := List.mem_of_find?_eq_some hfind
        cases t with
        | none => exact List.mem_append_right _ hmem
        | some t => exact List.mem_append_left _ hmem
      have hkey : g.key = fragKey t buf4 := (sameDatagram_iff t buf4 g).mp (List.find?_some hfind)
      refine ⟨hkey, .inl ⟨?_, ?_⟩⟩
      · exact setFrag_length st _
      · exact mem_setFrag_ptr (f := { g with hash := hash }) hq rfl
    · split at h
      · have hnew := newFrag4_head cfg env t buf4 x st
        rcases hn : newFrag4 cfg env t buf4 x st with ⟨st₁, f₁⟩
        rw [hn] at hnew h
        have hf : (st₁.rehash f₁ hash).2 = f := congrArg Prod.snd (Option.some.inj h)
        rw [← hf]
        exact ⟨hnew.1, .inr hnew.2⟩
      · simp at h

/-- A chain of one fragment that is not a whole packet does not join. -/
theorem isFragment_piece {buf4 : Buf} (h : isFragment buf4 = true) :
    (piece4 buf4).off ≠ 0 ∨ (piece4 buf4).more = true := by
  by_contra hno
  rw [not_or, not_not, Bool.not_eq_true] at hno
  obtain ⟨hoff, hmore⟩ := hno
  have hlow : byteAt buf4 IPOFFL = 0 :=
    UInt8.toNat_inj.mp (by simp only [piece4] at hoff; simp only [UInt8.toNat_zero]; omega)
  have hmsk : byteAt buf4 IPOFFH &&& IPOFFMSK = 0 :=
    UInt8.toNat_inj.mp (by simp only [piece4] at hoff; simp only [UInt8.toNat_zero]; omega)
  have hmf : byteAt buf4 IPOFFH &&& IPMF = 0 := by simpa [piece4] using hmore
  have hboth : byteAt buf4 IPOFFH &&& (IPMF ||| IPOFFMSK) = 0 := by
    rw [UInt8.and_comm, or_and_distrib, UInt8.and_comm IPMF, hmf, UInt8.and_comm IPOFFMSK, hmsk]
    rfl
  simp [isFragment, hboth, hlow] at h

theorem bytesAt_set_before {b : Buf} {i j n : ℕ} (v : UInt8) (h : j < i) :
    bytesAt (b.set j v) i n = bytesAt b i n := by
  simp only [bytesAt]
  rw [List.drop_set_of_lt h]

/-- The addresses of the packet are those of the saved header. -/
theorem rebuild4_addresses {hdr : Buf} (l : List (Piece UInt8)) (off : ℕ)
    (h : IPSRC + 8 ≤ hdr.length) : bytesAt (rebuild4 hdr l off) IPSRC 8 = bytesAt hdr IPSRC 8 := by
  have happ : ∀ b d : Buf, IPSRC + 8 ≤ b.length → bytesAt (b ++ d) IPSRC 8 = bytesAt b IPSRC 8 := by
    intro b d hb
    simp only [bytesAt]
    rw [List.drop_append_of_le_length (by omega), List.take_append_of_le_length]
    rw [List.length_drop]
    omega
  unfold rebuild4
  simp only
  rw [happ _ _ (by simpa using h)]
  repeat rw [bytesAt_set_before _ (by decide)]

/-- A fragment that completes its datagram takes the head off its queue. -/
theorem defrag_whole {cfg : FragConf} {env : Env} {t : Option ℕ} {buf4 out : Buf}
    {st st' : Frags} (hfrag : isFragment buf4 = true) (hlen : IPSRC + 8 ≤ buf4.length)
    (h : defrag cfg env t buf4 st = (st', some out)) :
    st'.frags4.length < st.frags4.length ∧ bytesAt out IPSRC 8 = bytesAt buf4 IPSRC 8 := by
  unfold defrag at h
  split at h
  · simp at h
  simp only at h
  split at h
  · simp at h
  split at h
  · simp at h
  rename_i st₁ f hf
  obtain ⟨hkey, hcases⟩ := fragHead4_cases hf
  unfold addFrag4 at h
  split at h
  · simp at h
  rename_i l hl
  split at h
  · simp at h
  simp only at h
  obtain ⟨f', hf'⟩ : ∃ f', f' = f.add (buf4.take IPHDRLEN) (piece4 buf4) l := ⟨_, rfl⟩
  rw [← hf'] at h
  have hptr : f'.ptr = f.ptr := by simp [hf']
  have hkey' : f'.key = fragKey t buf4 := by
    rw [hf']
    exact Frag.add_key hkey (piece4 buf4) l
  unfold whole4 at h
  split at h
  · simp at h
  rename_i hoff
  split at h
  · simp at h
  rename_i off hjoin
  split at h
  · simp at h
  obtain ⟨rfl, rfl⟩ : _ = st' ∧ _ = out := by simpa [Prod.ext_iff] using h
  constructor
  · rcases hcases with ⟨hcount, hmem⟩ | ⟨hempty, hfoff⟩
    · have hin := mem_setFrag_ptr (f := f') hmem hptr.symm
      have hless := delFrag4_length (f := f') hin rfl
      rw [setFrag_length, hcount] at hless
      exact hless
    · -- a new head holds this fragment only
      exfalso
      rw [hempty] at hl
      obtain rfl : [piece4 buf4] = l := by simpa [place] using hl
      have hlist : f'.fraglist = [piece4 buf4] := by simp [hf']
      rw [hlist] at hjoin
      rcases isFragment_piece hfrag with hx | hx
      · simp [joined, hx] at hjoin
      · by_cases hz : (piece4 buf4).off = 0
        · simp [joined, hz, hx] at hjoin
        · simp [joined, hz] at hjoin
  · have hsrc : bytesAt f'.buf IPSRC 8 = bytesAt buf4 IPSRC 8 :=
      congrArg (fun k => k.2.2.2) hkey'
    have hflen := congrArg List.length hsrc
    simp only [bytesAt, List.length_take, List.length_drop] at hflen
    rw [rebuild4_addresses _ _ (by omega), hsrc]

/-! ### IPv4 -/

/-- An unfragmented IPv4 packet without options that may be translated. -/
structure Sound (buf4 : Buf) : Prop where
  length : IPMINLEN ≤ buf4.length
  total : shortAt buf4 IPLENH = buf4.length
  byte0 : byteAt buf4 0 = IP4VNOOP
  whole : byteAt buf4 IPOFFH &&& (IPMF ||| IPOFFMSK) = 0 ∧ byteAt buf4 IPOFFL = 0
  cksum : inCksum (buf4.take IPHDRLEN) = 0
  proto : byteAt buf4 IPPROTO = IPTCP ∨ byteAt buf4 IPPROTO = IPUDP ∨ byteAt buf4 IPPROTO = IPICMP
  loopback : byteAt buf4 IPSRC ≠ 127 ∧ byteAt buf4 IPDST ≠ 127
  unicast : byteAt buf4 IPSRC < 224 ∧ byteAt buf4 IPDST < 224

/-- The checks of one pass, made on the packet before it is cut to its length. -/
theorem sound_take {b : Buf} (h0 : ¬byteAt b 0 ≠ IP4VNOOP) (hl : ¬localnet b = true)
    (hm : ¬multicast b = true)
    (hlen : ¬(shortAt b IPLENH < IPMINLEN ∨ shortAt b IPLENH > b.length))
    (hp : ¬(!knownProto b) = true)
    (hc : ¬inCksum ((b.take (shortAt b IPLENH)).take IPHDRLEN) ≠ 0)
    (hf : ¬isFragment (b.take (shortAt b IPLENH)) = true) : Sound (b.take (shortAt b IPLENH)) := by
  have hmin : IPMINLEN ≤ shortAt b IPLENH := by omega
  have hbyte : ∀ i, i < IPMINLEN → byteAt (b.take (shortAt b IPLENH)) i = byteAt b i :=
    fun i hi => byteAt_take (by omega)
  have hsrc := hbyte IPSRC (by decide)
  have hdst := hbyte IPDST (by decide)
  have hprot := hbyte IPPROTO (by decide)
  have hlength : (b.take (shortAt b IPLENH)).length = shortAt b IPLENH := by
    rw [List.length_take]
    omega
  simp only [localnet, multicast, knownProto, isFragment, Bool.or_eq_true, decide_eq_true_eq,
    not_or, ge_iff_le, Bool.not_eq_true', Bool.not_eq_false, bne_iff_ne, ne_eq,
    not_not] at h0 hl hm hp hc hf
  refine ⟨?_, ?_, ?_, hf, hc, ?_, ?_, ?_⟩
  · rw [hlength]
    exact hmin
  · rw [hlength]
    change (byteAt (b.take _) IPLENH).toNat * 256 + (byteAt (b.take _) (IPLENH + 1)).toNat = _
    rw [hbyte _ (by decide), hbyte _ (by decide)]
    rfl
  · rw [hbyte 0 (by decide)]
    exact h0
  · rw [hprot]
    tauto
  · rw [hsrc, hdst]
    exact hl
  · rw [hsrc, hdst]
    exact ⟨UInt8.not_le.mp hm.1, UInt8.not_le.mp hm.2⟩

theorem reassemble_meets {σ : Type} {cfg : FragConf} {t : Option ℕ} {s : Packet} {buf4 : Buf}
    {f : Packet → σ} {Back : σ → Prop} {End : Filtered → Prop} (hfrag : isFragment buf4 = true)
    (hlen : IPSRC + 8 ≤ buf4.length)
    (hback : ∀ p : Packet, p.frags.frags4.length < s.frags.frags4.length →
      bytesAt p.buf4 IPSRC 8 = bytesAt buf4 IPSRC 8 → Back (f p))
    (hend : ∀ r : Filtered, r.ret = 0 → End r) :
    (reassemble cfg t s buf4 f).Meets Back End := by
  unfold reassemble
  split
  · rename_i frags out hd
    obtain ⟨hless, hsame⟩ := defrag_whole hfrag hlen hd
    exact hback _ hless hsame
  · exact hend _ rfl

section In

variable (cfg : FragConf) (a : Acls) (t : ℕ) (nonat : Bool) (s : Packet)

/-- A pass of `filterin` goes back with a packet taken off the queues, and lets a packet
    through that has passed its checks. -/
theorem filterinPass_meets : (filterinPass cfg a t nonat s).Meets
    (fun s' => True ∧ s'.frags.frags4.length < s.frags.frags4.length)
    (fun r => r.ret ≠ 0 → Sound r.buf4) := by
  unfold filterinPass
  split
  · exact fun hr => absurd rfl hr
  split
  · exact fun hr => absurd rfl hr
  rename_i h0
  split
  · exact fun hr => absurd rfl hr
  rename_i hl
  split
  · exact fun hr => absurd rfl hr
  rename_i hm
  split
  · exact fun hr => absurd rfl hr
  rename_i hp
  extract_lets l buf4
  split
  · exact fun hr => absurd rfl hr
  rename_i hlen
  split
  · exact fun hr => absurd rfl hr
  rename_i hc
  split
  · rename_i hfrag
    apply reassemble_meets hfrag
    · rw [List.length_take]
      simp only [IPMINLEN, IPSRC] at *
      omega
    · exact fun p hless _ => ⟨trivial, hless⟩
    · exact fun r hr hne => absurd hr hne
  rename_i hf
  exact fun _ => sound_take h0 hl hm hlen hp hc hf

end In

section Out

variable (cfg : FragConf) (st : State) (s : OutPacket)

/-- The same of `filterout`. -/
theorem filteroutPass_meets : (filteroutPass cfg st s).Meets
    (fun s' => True ∧ s'.frags.frags4.length < s.frags.frags4.length)
    (fun r => r.ret ≠ 0 → Sound r.buf4) := by
  unfold filteroutPass
  simp only
  split
  · exact fun hr => absurd rfl hr
  split
  · exact fun hr => absurd rfl hr
  rename_i h0
  split
  · exact fun hr => absurd rfl hr
  rename_i hl
  split
  · exact fun hr => absurd rfl hr
  rename_i hm
  split
  · exact fun hr => absurd rfl hr
  rename_i hlen
  split
  · exact fun hr => absurd rfl hr
  rename_i hc
  split
  · exact fun hr => absurd rfl hr
  split
  · exact fun hr => absurd rfl hr
  rename_i hp
  split
  · rename_i hfrag
    apply reassemble_meets hfrag
    · rw [List.length_take]
      simp only [IPMINLEN, IPSRC] at *
      omega
    · exact fun p hless _ => ⟨trivial, hless⟩
    · exact fun r hr hne => absurd hr hne
  rename_i hf
  have hproto : knownProto (s.buf4.take (shortAt s.buf4 IPLENH)) = knownProto s.buf4 := by
    simp only [knownProto]
    rw [byteAt_take (by simp only [IPMINLEN, IPPROTO] at *; omega)]
  rw [hproto] at hp
  exact fun _ => sound_take h0 hl hm hlen hp hc hf

end Out

/-! ### IPv6 -/

/-- The protocol of a reassembled packet is the one its fragments carry. -/
theorem defrag6_proto {cfg : FragConf} {env : Env} {t : ℕ} {buf6 out : Buf} {st st' : Frags}
    (hproto : byteAt buf6 IP6FPROTO = IP6IP4)
    (h : defrag6 cfg env t buf6 st = (st', some out)) : byteAt out IP6PROTO = IP6IP4 := by
  unfold defrag6 at h
  split at h
  · simp at h
  simp only at h
  split at h
  · simp at h
  split at h
  · simp at h
  rename_i st₁ f hf
  have hkey : f.key6 = fragKey6 (some t) buf6 := by
    unfold fragHead6 at hf
    split at hf
    · rename_i g hfind
      obtain ⟨-, rfl⟩ : _ = st₁ ∧ g = f := by simpa using hf
      exact (sameDatagram6_iff _ _ _).mp (List.find?_some hfind)
    · split at hf
      · obtain rfl : (newFrag6 cfg env t buf6 (piece6 buf6) st).2 = f :=
          congrArg Prod.snd (Option.some.inj hf)
        exact fragKey6_take _ _
      · simp at hf
  unfold addFrag6 at h
  split at h
  · simp at h
  rename_i l hl
  split at h
  · simp at h
  simp only at h
  have hkey' : (f.add (buf6.take IP6FLEN) (piece6 buf6) l).key6 = fragKey6 (some t) buf6 :=
    Frag.add_key6 hkey (piece6 buf6) l
  generalize f.add (buf6.take IP6FLEN) (piece6 buf6) l = f' at h hkey'
  unfold whole6 at h
  split at h
  · simp at h
  split at h
  · simp at h
  split at h
  · simp at h
  obtain ⟨-, rfl⟩ : _ = st' ∧ _ = out := by simpa [Prod.ext_iff] using h
  have hfp : byteAt f'.buf IP6FPROTO = IP6IP4 := (congrArg (fun k => k.2.1) hkey').trans hproto
  have hlong : IP6FPROTO < f'.buf.length := by
    by_contra hno
    have hz : byteAt f'.buf IP6FPROTO = 0 := by
      rw [byteAt, List.getD_eq_getElem?_getD, List.getElem?_eq_none (by omega)]
      rfl
    rw [hz] at hfp
    exact absurd hfp (by decide)
  have hpos : IP6PROTO < (f'.buf.take IP6HDRLEN).length := by
    rw [List.length_take]
    simp only [IP6PROTO, IP6HDRLEN, IP6FPROTO] at *
    omega
  unfold rebuild6
  simp only
  rw [byteAt_append_left (by simpa using hpos), byteAt_set, if_pos ⟨rfl, by simpa using hpos⟩, hfp]

theorem stripDstop_proto {buf6 : Buf} (hlen : IP6HDRLEN ≤ buf6.length)
    (hproto : byteAt buf6 IP6FPROTO = IP6IP4) : byteAt (stripDstop buf6) IP6PROTO = IP6IP4 := by
  have hpos : IP6PROTO < (buf6.take IP6HDRLEN).length := by
    rw [List.length_take]
    simp only [IP6PROTO, IP6HDRLEN] at *
    omega
  unfold stripDstop
  simp only
  rw [byteAt_append_left (by simpa using hpos), byteAt_set, if_pos ⟨rfl, by simpa using hpos⟩,
    hproto]

/-- The passes left for a packet: it is IPv4 behind the header after one. -/
def headersLeft (s : Packet6) : ℕ := if byteAt s.buf6 IP6PROTO = IP6IP4 then 0 else 1

theorem decapPass_meets (cfg : Conf) (a : Acls) (autotunnel : Bool) (s : Packet6) :
    (decapPass cfg a autotunnel s).Meets (fun s' => True ∧ headersLeft s' < headersLeft s)
      (fun _ => True) := by
  unfold decapPass
  split
  · trivial
  split
  · trivial
  rename_i hshort
  split
  · trivial
  split
  · trivial
  simp only
  split
  · trivial
  rename_i hl
  split
  · trivial
  rename_i hmin
  have hcut : IP6FLEN ≤ (s.buf6.take (IP6HDRLEN + shortAt s.buf6 IP6LENH)).length := by
    rw [List.length_take]
    simp only [IP6HDRLEN, IP6FLEN] at *
    omega
  have hsame : byteAt (s.buf6.take (IP6HDRLEN + shortAt s.buf6 IP6LENH)) IP6PROTO =
      byteAt s.buf6 IP6PROTO := byteAt_take (by simp only [IP6HDRLEN, IP6PROTO]; omega)
  split
  · rename_i hne
    rw [hsame] at hne
    have hleft : headersLeft s = 1 := if_neg hne
    split
    · rename_i hfrag
      split
      · rename_i frags out hd
        refine ⟨trivial, ?_⟩
        rw [hleft, headersLeft, if_pos (defrag6_proto hfrag.2 hd)]
        exact Nat.zero_lt_one
      · trivial
    · split
      · rename_i hopt
        refine ⟨trivial, ?_⟩
        have hstrip : byteAt (stripDstop (s.buf6.take (IP6HDRLEN + shortAt s.buf6 IP6LENH)))
            IP6PROTO = IP6IP4 :=
          stripDstop_proto (by simp only [IP6HDRLEN, IP6FLEN] at *; omega) hopt.2.1
        rw [hleft, headersLeft, if_pos hstrip]
        exact Nat.zero_lt_one
      · trivial
  · trivial

/-- Whatever the bytes of a packet and the state of the queues, the loops behind the labels
    end, and what the filters let through is a whole packet with all checks made. -/
theorem input_filters (cfg : Conf) (a : Acls) (st : State) :
    (∀ (autotunnel : Bool) (s : Packet6) (k : ℕ), 2 ≤ k →
      ∃ r, decap cfg a autotunnel k s = some r) ∧
    (∀ (t : ℕ) (nonat : Bool) (s : Packet) (k : ℕ), s.frags.frags4.length < k →
      ∃ r, filterin cfg.frag a t nonat k s = some r ∧ (r.ret ≠ 0 → Sound r.buf4)) ∧
    (∀ (s : OutPacket) (k : ℕ), s.frags.frags4.length < k →
      ∃ r, filterout cfg.frag st k s = some r ∧ (r.ret ≠ 0 → Sound r.buf4)) := by
  refine ⟨?_, ?_, ?_⟩
  · intro autotunnel s k hk
    have hleft : headersLeft s < k := by
      have : headersLeft s ≤ 1 := by
        unfold headersLeft
        split <;> omega
      omega
    obtain ⟨r, hr, -⟩ := loop_ends headersLeft
      (fun s _ => decapPass_meets cfg a autotunnel s) (I := fun _ => True) trivial hleft
    exact ⟨r, hr⟩
  · intro t nonat s k hk
    exact loop_ends (fun s => s.frags.frags4.length)
      (fun s _ => filterinPass_meets cfg.frag a t nonat s) (I := fun _ => True) trivial hk
  · intro s k hk
    exact loop_ends (fun s => s.frags.frags4.length)
      (fun s _ => filteroutPass_meets cfg.frag st s) (I := fun _ => True) trivial hk

/-- A datagram of 10.0.0.1. -/
def privateDatagram : Buf :=
  [69, 0, 0, 28, 0, 1, 0, 0, 64, 17, 96, 192, 10, 0, 0, 1, 8, 8, 8, 8, 48, 57, 0, 53, 0, 8, 0, 0]

theorem input_filters_privateDatagram :
    ∃ r, filterin {} {} 0 false 1 ⟨plainEnv.toEnv, {}, privateDatagram⟩ = some r ∧ r.ret = 1 ∧
      Sound r.buf4 := by
  obtain ⟨r, hr, hsound⟩ := (input_filters defaultConf {} {}).2.1 0 false
    ⟨plainEnv.toEnv, {}, privateDatagram⟩ 1 Nat.zero_lt_one
  have hret : (filterin {} {} 0 false 1 ⟨plainEnv.toEnv, {}, privateDatagram⟩).map Filtered.ret =
      some 1 := by decide +kernel
  have heq : some r.ret = some 1 := by
    rw [← hret]
    exact (congrArg (Option.map Filtered.ret) hr).symm
  have hone : r.ret = 1 := Option.some.inj heq
  exact ⟨r, hr, hone, hsound (by rw [hone]; decide)⟩

end WanStack.Aftr.Filter
