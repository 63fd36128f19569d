import WanStack.Aftr.Collect

set_option autoImplicit false

/-!
# IPv4 reassembly in every arrival order

`defrag_reassembles` follows one IPv4 datagram through any run of the queues.
-/
namespace WanStack.Aftr
open Reassembly

/-- An IPv4 datagram as its fragments. -/
structure Datagram4 extends Fragments piece4 IPHDRLEN where
  tunnel : Option ℕ
  same : ∀ b ∈ first :: rest, fragKey tunnel b = fragKey tunnel first
  total : IPHDRLEN + ((first :: rest).map (List.drop IPHDRLEN)).flatten.length ≤ IPMAXLEN

namespace Datagram4

def key (d : Datagram4) : Option ℕ × UInt8 × Buf × Buf := fragKey d.tunnel d.first

/-- The fragments received since the datagram was last complete. -/
def receive (d : Datagram4) (got : List Buf) : FragEvent → List Buf
  | .defrag _ t buf =>
    if t = d.tunnel ∧ buf ∈ d.frags then
      if ∀ b ∈ d.frags, b ∈ buf :: got then [] else buf :: got
    else got
  | _ => got

def received (d : Datagram4) (es : List FragEvent) : List Buf := es.foldl d.receive []

/-- A fragment of this datagram finds room and memory, any other fragment is of
    another datagram, and the time of this datagram is not over. -/
def Undisturbed (d : Datagram4) (cfg : FragConf) (st : Frags) : FragEvent → Prop
  | .defrag env t buf =>
    (t = d.tunnel ∧ buf ∈ d.frags ∧ tooMany4 cfg st t = false ∧ ∀ k, env.mem k = true) ∨
      fragKey t buf ≠ d.key
  | .expire seconds => ∀ f ∈ st.frags4, f.key = d.key → seconds ≤ f.expire
  | _ => True

/-- Neither a queue nor the hash table knows the datagram. -/
def NoTrace (d : Datagram4) (st : Frags) : Prop :=
  (∀ f ∈ st.frags4, f.key ≠ d.key) ∧
    ∀ h p, st.fraghash h = some p → ∃ f ∈ st.frags4, f.ptr = p ∧ f.key ≠ d.key

end Datagram4

/-- The packet `out` is `payload` behind the header `hdr` of its first fragment. -/
structure Rebuilt4 (hdr payload out : Buf) : Prop where
  data : out.drop IPHDRLEN = payload
  length : out.length = IPHDRLEN + payload.length
  total : shortAt out IPLENH = out.length
  flags : byteAt out IPOFFH &&& (IPDF ||| IPMF ||| IPOFFMSK) = 0
  off : byteAt out IPOFFL = 0
  cksum : inCksum (out.take IPHDRLEN) = 0
  rest : ∀ i, i < IPHDRLEN → i ∉ [IPLENH, IPLENL, IPOFFH, IPOFFL, IPCKSUMH, IPCKSUML] →
    byteAt out i = byteAt hdr i

theorem rebuild4_spec {hdr payload : Buf} {l : List (Piece UInt8)}
    (hlen : hdr.length = IPHDRLEN) (hoff : (piece4 hdr).off = 0)
    (hdata : l.flatMap Piece.data = payload) (htot : IPHDRLEN + payload.length ≤ IPMAXLEN) :
    Rebuilt4 hdr payload (rebuild4 hdr l payload.length) := by
  have hmsk : byteAt hdr IPOFFH &&& IPOFFMSK = 0 :=
    UInt8.toNat_inj.mp (by simp only [piece4] at hoff; simp only [UInt8.toNat_zero]; omega)
  have hlow : byteAt hdr IPOFFL = 0 :=
    UInt8.toNat_inj.mp (by simp only [piece4] at hoff; simp only [UInt8.toNat_zero]; omega)
  -- the header before and after the checksum is filled in
  obtain ⟨h, hh⟩ : ∃ h, h = ((((hdr.set IPOFFH (byteAt hdr IPOFFH &&& ~~~(IPDF ||| IPMF))).set
    IPLENH (hi (payload.length + IPHDRLEN))).set IPLENL (lo (payload.length + IPHDRLEN))).set
    IPCKSUMH 0).set IPCKSUML 0 := ⟨_, rfl⟩
  obtain ⟨g, hg⟩ : ∃ g, g = (h.set IPCKSUMH (hi (inCksum h))).set IPCKSUML (lo (inCksum h)) :=
    ⟨_, rfl⟩
  have hout : rebuild4 hdr l payload.length = g ++ payload := by
    rw [hg, hh, ← hdata]
    rfl
  have hhlen : h.length = IPHDRLEN := by simp [hh, hlen]
  have hglen : g.length = IPHDRLEN := by simp [hg, hhlen]
  have hbyte : ∀ i, i < IPHDRLEN → byteAt (g ++ payload) i = byteAt g i :=
    fun i hi => byteAt_append_left (hglen ▸ hi)
  rw [hout]
  refine ⟨?_, by simp [hglen], ?_, ?_, ?_, ?_, ?_⟩
  · rw [List.drop_left' hglen]
  · have hbig : payload.length + IPHDRLEN < 65536 := by simp only [IPHDRLEN, IPMAXLEN] at *; omega
    simp only [shortAt, List.length_append, hglen]
    rw [hbyte _ (by decide), hbyte _ (by decide)]
    simp only [hg, hh, byteAt_set, List.length_set, hlen]
    simp only [IPLENH, IPLENL, IPCKSUMH, IPCKSUML, IPHDRLEN, IPOFFH] at hbig ⊢
    simp only [Nat.reduceEqDiff, Nat.reduceAdd, Nat.reduceLT, and_true, if_false, if_true]
    rw [hi_lo hbig, Nat.add_comm]
  · rw [hbyte _ (by decide)]
    simp only [hg, hh, byteAt_set, List.length_set, hlen]
    have hmask : ~~~(IPDF ||| IPMF) &&& (IPDF ||| IPMF ||| IPOFFMSK) = IPOFFMSK := by decide
    simp only [IPLENH, IPLENL, IPCKSUMH, IPCKSUML, IPHDRLEN, IPOFFH, Nat.reduceEqDiff,
      Nat.reduceLT, and_true, if_false, if_true]
    rw [UInt8.and_assoc, hmask]
    exact hmsk
  · rw [hbyte _ (by decide)]
    simp only [hg, hh, byteAt_set, List.length_set, hlen]
    exact hlow
  · rw [List.take_left' hglen, hg]
    refine inCksum_fill hhlen ?_
    simp [hh, shortAt, byteAt_set, hlen, IPCKSUMH, IPCKSUML, IPHDRLEN]
  · intro i hi hni
    rw [hbyte i hi]
    simp only [List.mem_cons, List.not_mem_nil, or_false, not_or] at hni
    simp only [hg, hh, byteAt_set, Ne.symm hni.1, Ne.symm hni.2.1, Ne.symm hni.2.2.1,
      Ne.symm hni.2.2.2.2.1, Ne.symm hni.2.2.2.2.2, false_and, if_false]

/-- The IPv4 queues hold `got` of the datagram. -/
structure Holds (d : Datagram4) (st : Frags) (got : List Buf) : Prop where
  ok : FragsOk st
  tracks : Tracks d.toFragments (·.key = d.key) st.frags4 got

theorem Datagram4.whole4_spec {d : Datagram4} {st : Frags} (hok : FragsOk st) {g : Frag}
    (hg : g ∈ st.frags4) (hk : g.key = d.key) {got : List Buf} (hgot : ∀ b ∈ got, b ∈ d.frags)
    (hne : got ≠ []) (hc : Collects d.blocks (d.first.take IPHDRLEN) g (got.map piece4)) :
    Holds d (whole4 st g).1 (if ∀ b ∈ d.frags, b ∈ got then [] else got) ∧
    ((whole4 st g).2.isSome = true ↔ ∀ b ∈ d.frags, b ∈ got) ∧
    ∀ out, (whole4 st g).2 = some out → Rebuilt4 (d.first.take IPHDRLEN) d.payload out := by
  have hblocks : d.blocks ≠ [] := by simp [Fragments.blocks, Fragments.frags]
  by_cases hall : ∀ b ∈ d.frags, b ∈ got
  · obtain ⟨hoff, hbuf, hjoin, hdata⟩ :=
      hc.whole d.blocks_ne hblocks ((d.all_iff hgot).mpr hall)
    have htot : IPHDRLEN + d.blocks.flatten.length ≤ IPMAXLEN := d.total
    have hlen : ¬ d.blocks.flatten.length + IPHDRLEN > IPMAXLEN := by omega
    obtain ⟨hok3, hno, -⟩ := delFrag4_ok hok hg
    rw [hk] at hno
    have hres : whole4 st g =
        (delFrag4 g st, some (rebuild4 g.buf g.fraglist d.blocks.flatten.length)) := by
      simp only [whole4, hoff, hjoin, hlen, ne_eq, not_true_eq_false, if_false]
    rw [hres, if_pos hall]
    refine ⟨⟨hok3, Tracks.empty hno⟩, by simpa using hall, fun out hout => ?_⟩
    obtain rfl := Option.some.inj hout
    rw [hbuf]
    refine rebuild4_spec ?_ ?_ hdata htot
    · have := d.header d.first (List.mem_cons_self ..)
      rw [List.length_take]
      omega
    · have := d.first_off
      simp only [piece4] at this ⊢
      rw [byteAt_take (by decide), byteAt_take (by decide)]
      exact this
  · have hjoin := hc.missing d.blocks_ne hblocks fun hy => hall ((d.all_iff hgot).mp hy)
    have hres : whole4 st g = (st, none) := by simp only [whole4, hjoin, ite_self]
    rw [hres, if_neg hall]
    exact ⟨⟨hok, Tracks.of_head hall hgot hne
      (fun f hf hfk => hok.keys f hf g hg (hfk.trans hk.symm)) ⟨hg, hk⟩ hc⟩,
      by simpa using hall, by simp⟩

/-- One fragment of the datagram: the packet comes back when nothing is missing
    any more, and then the queues hold nothing of it. -/
theorem Holds.defrag_ours {d : Datagram4} {st : Frags} {got : List Buf} (h : Holds d st got)
    (cfg : FragConf) {env : Env} {buf : Buf} (hb : buf ∈ d.frags)
    (hroom : tooMany4 cfg st d.tunnel = false) (hmem : ∀ k, env.mem k = true) :
    Holds d (defrag cfg env d.tunnel buf st).1
      (if ∀ b ∈ d.frags, b ∈ buf :: got then [] else buf :: got) ∧
    ((defrag cfg env d.tunnel buf st).2.isSome = true ↔ ∀ b ∈ d.frags, b ∈ buf :: got) ∧
    ∀ out, (defrag cfg env d.tunnel buf st).2 = some out →
      Rebuilt4 (d.first.take IPHDRLEN) d.payload out := by
  have hkey : fragKey d.tunnel buf = d.key := d.same buf hb
  obtain ⟨⟨st', f⟩, hf⟩ := fragHead4_isSome st cfg (hmem 0) (hmem 1) d.tunnel buf (piece4 buf)
  have height := d.more_eight (fun b => Nat.mul_mod_left ..) hb
  have hdef : defrag cfg env d.tunnel buf st = addFrag4 env buf (piece4 buf) st' f := by
    simp only [defrag, hroom, height, hf]
    simp
  obtain ⟨hok', hfm, hfk, -, hhead⟩ := fragHead4_spec h.ok cfg env d.tunnel buf _ hf
  rw [hkey] at hfk hhead
  have hfrags : ∀ b ∈ buf :: got, b ∈ d.frags := by
    intro b hbm
    rcases List.mem_cons.mp hbm with rfl | hbm
    · exact hb
    · exact h.tracks.frags b hbm
  rw [hdef]
  rcases h.tracks.place hb hhead with ⟨hin, hpl, hc⟩ | ⟨hin, l, hpl, hc⟩
  · -- a duplicate changes nothing
    have hres : addFrag4 env buf (piece4 buf) st' f = (st', none) := by simp only [addFrag4, hpl]
    have hmiss := h.tracks.not_all hin
    rw [hres, if_neg hmiss]
    exact ⟨⟨hok', Tracks.of_head hmiss hfrags (by simp)
      (fun g hg hgk => hok'.keys g hg f hfm (hgk.trans hfk.symm)) ⟨hfm, hfk⟩ hc⟩,
      by simpa using hmiss, by simp⟩
  · have hk := Frag.add_key (hfk.trans hkey.symm) (piece4 buf) l
    obtain ⟨hok2, hmem2, -⟩ := @setFrag_ok st' hok' f (f.add (buf.take IPHDRLEN) (piece4 buf) l)
      hfm (by simp) (by simp) (hk.trans (hfk.trans hkey.symm).symm) (by simp)
    have hres : addFrag4 env buf (piece4 buf) st' f =
        whole4 (st'.setFrag (f.add (buf.take IPHDRLEN) (piece4 buf) l))
          (f.add (buf.take IPHDRLEN) (piece4 buf) l) := by
      simp only [addFrag4, hpl, hmem]
      simp
    rw [hres]
    exact d.whole4_spec hok2 hmem2 (hk.trans hkey) hfrags (by simp) hc

/-- The clock does not touch a head whose time is not over. -/
theorem expireFrags_keeps {d : Datagram4} {st : Frags} (hok : FragsOk st) {seconds : ℕ}
    (htime : ∀ f ∈ st.frags4, f.key = d.key → seconds ≤ f.expire) (f : Frag)
    (hk : f.key = d.key) : f ∈ (expireFrags seconds st).frags4 ↔ f ∈ st.frags4 := by
  refine (expireFrags_induct (fun st' => FragsOk st' ∧
    ∀ f : Frag, f.key = d.key → (f ∈ st'.frags4 ↔ f ∈ st.frags4)) ?_ ?_ st
    ⟨hok, fun _ _ => Iff.rfl⟩).2 f hk
  · intro g st' ⟨hok', hsame⟩
    exact ⟨(delFrag6_same4 g st').ok hok', hsame⟩
  · intro g st' ⟨hok', hsame⟩ hg hexp
    obtain ⟨hok2, -, hbut⟩ := delFrag4_ok hok' hg
    refine ⟨hok2, fun f hf => (hbut f fun hfg => ?_).trans (hsame f hf)⟩
    have hgk : g.key = d.key := hfg.symm.trans hf
    have := htime g ((hsame g hgk).mp hg) hgk
    omega

theorem Holds.step {d : Datagram4} {cfg : FragConf} {st : Frags} {got : List Buf}
    (h : Holds d st got) {e : FragEvent} (he : d.Undisturbed cfg st e) :
    Holds d (fragStep cfg st e) (d.receive got e) := by
  cases e with
  | defrag env t buf =>
    by_cases hours : t = d.tunnel ∧ buf ∈ d.frags
    · obtain ⟨rfl, hb⟩ := hours
      rcases he with ⟨-, -, hroom, hmem⟩ | hk
      · simp only [Datagram4.receive, hb, and_self, if_true]
        exact (h.defrag_ours cfg hb hroom hmem).1
      · exact absurd (d.same buf hb) hk
    · simp only [Datagram4.receive, hours, if_false]
      rcases he with ⟨ht, hb, -, -⟩ | hk
      · exact absurd ⟨ht, hb⟩ hours
      · obtain ⟨hok, hsame⟩ := defrag_ok h.ok cfg env t buf
        exact ⟨hok, h.tracks.same fun f hf => hsame f (hf ▸ hk.symm)⟩
  | defrag6 env t buf6 =>
    have hsame := defrag6_same4 cfg env t buf6 st
    refine ⟨hsame.ok h.ok, h.tracks.same fun f _ => ?_⟩
    change f ∈ (defrag6 cfg env t buf6 st).1.frags4 ↔ _
    rw [hsame.frags4]
  | expire seconds =>
    exact ⟨fragStep_ok cfg h.ok (.expire seconds), h.tracks.same (expireFrags_keeps h.ok he)⟩
  | resize up rnd =>
    refine ⟨resizeFragHash_ok h.ok up rnd, h.tracks.same fun f _ => ?_⟩
    change f ∈ (resizeFragHash up rnd st).frags4 ↔ _
    rw [resizeFragHash_frags4]

theorem Holds.run {d : Datagram4} {cfg : FragConf} {st : Frags} (h : Holds d st [])
    (es : List FragEvent)
    (hes : ∀ pre e post, es = pre ++ e :: post → d.Undisturbed cfg (fragRun cfg st pre) e) :
    Holds d (fragRun cfg st es) (d.received es) := by
  induction es using List.reverseRecOn with
  | nil => exact h
  | append_singleton es e ih =>
    have hpre := ih fun pre e' post heq => hes pre e' (post ++ [e]) (by simp [heq])
    simp only [fragRun, Datagram4.received, List.foldl_append]
    exact hpre.step (hes es e [] rfl)

/-- Whatever the order of arrival, `defrag` gives the packet back exactly when
    the last missing fragment comes, and forgets the datagram. -/
theorem defrag_reassembles (d : Datagram4) (cfg : FragConf) {st : Frags}
    (hreach : FragReachable cfg st) (hfresh : ∀ f ∈ st.frags4, f.key ≠ d.key)
    (es : List FragEvent)
    (hes : ∀ pre e post, es = pre ++ e :: post → d.Undisturbed cfg (fragRun cfg st pre) e)
    (pre post : List FragEvent) (env : Env) (buf : Buf)
    (hev : es = pre ++ .defrag env d.tunnel buf :: post) (hb : buf ∈ d.frags) :
    ((defrag cfg env d.tunnel buf (fragRun cfg st pre)).2.isSome = true ↔
      ∀ b ∈ d.frags, b ∈ buf :: d.received pre) ∧
    ∀ out, (defrag cfg env d.tunnel buf (fragRun cfg st pre)).2 = some out →
      Rebuilt4 (d.first.take IPHDRLEN) d.payload out ∧
      d.NoTrace (defrag cfg env d.tunnel buf (fragRun cfg st pre)).1 := by
  have hstart : Holds d st [] := ⟨hreach.ok, Tracks.empty hfresh⟩
  have hpre := hstart.run pre fun pre' e post' heq =>
    hes pre' e (post' ++ .defrag env d.tunnel buf :: post) (by simp [hev, heq])
  rcases hes pre _ post hev with ⟨-, -, hroom, hmem⟩ | hk
  · obtain ⟨hnext, hiff, hout⟩ := hpre.defrag_ours cfg hb hroom hmem
    refine ⟨hiff, fun out heq => ⟨hout out heq, ?_⟩⟩
    rw [if_pos (hiff.mp (by rw [heq]; rfl))] at hnext
    have hno := hnext.tracks.none_iff.mpr rfl
    refine ⟨hno, fun h p hp => ?_⟩
    obtain ⟨f, hf, hfp, -⟩ := hnext.ok.slot h p hp
    exact ⟨f, hf, hfp, hno f hf⟩
  · exact absurd (d.same buf hb) hk

/-- A datagram of twelve bytes in two fragments, from the Internet. -/
def twoFragments : Datagram4 where
  first := [69, 0, 0, 28, 0, 1, 32, 0, 64, 17, 0, 0, 192, 0, 2, 1, 198, 51, 100, 1,
    1, 2, 3, 4, 5, 6, 7, 8]
  rest := [[69, 0, 0, 24, 0, 1, 0, 1, 64, 17, 0, 0, 192, 0, 2, 1, 198, 51, 100, 1,
    9, 10, 11, 12]]
  header := by decide
  pieces := by decide
  tunnel := none
  same := by decide
  total := by decide

theorem defrag_reassembles_two :
    (defrag {} ⟨0, fun _ => true⟩ none twoFragments.first
      (fragRun {} {} (twoFragments.rest.map (.defrag ⟨0, fun _ => true⟩ none)))).2.isSome =
        true := by
  refine (@defrag_reassembles twoFragments {} {} ⟨0, [], rfl⟩ (by simp [Frags.frags4])
    (twoFragments.frags.reverse.map (.defrag ⟨0, fun _ => true⟩ none)) ?_ _ [] _ _ rfl
    (by decide)).1.mpr (by decide)
  intro pre e post heq
  have hlen := congrArg List.length heq
  rcases pre with _ | ⟨a, _ | ⟨b, pre⟩⟩
  · obtain ⟨rfl, -⟩ := List.cons.inj heq
    exact .inl ⟨rfl, by decide, by decide, fun _ => rfl⟩
  · obtain ⟨rfl, h⟩ := List.cons.inj heq
    obtain ⟨rfl, -⟩ := List.cons.inj h
    exact .inl ⟨rfl, by decide, by decide, fun _ => rfl⟩
  · simp [Fragments.frags, twoFragments] at hlen

end WanStack.Aftr
