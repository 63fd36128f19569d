import WanStack.Aftr.Frag

set_option autoImplicit false

/-!
# The IPv4 fragment queues between two calls

`FragsOk` holds of every reachable state of the queues. The lemmas say what
each operation does to the heads, named by the key of their datagram.
-/
namespace WanStack.Aftr
open Reassembly

/-- What tells two datagrams apart: tunnel, protocol, identification, addresses. -/
def fragKey (t : Option ℕ) (buf : Buf) : Option ℕ × UInt8 × Buf × Buf :=
  (t, byteAt buf IPPROTO, bytesAt buf IPID 2, bytesAt buf IPSRC 8)

def Frag.key (f : Frag) : Option ℕ × UInt8 × Buf × Buf := fragKey f.tunnel f.buf

def fragSlot (st : Frags) (buf : Buf) : ℕ := jhashFrag st.fraghashrnd buf &&& (st.fraghashsz - 1)

structure FragsOk (st : Frags) : Prop where
  size : 0 < st.fraghashsz
  inn : ∀ f ∈ st.fragsin, f.tunnel ≠ none
  out : ∀ f ∈ st.fragsout, f.tunnel = none
  fresh : ∀ f ∈ st.frags4, f.ptr < st.next
  ptrs : ∀ f ∈ st.frags4, ∀ g ∈ st.frags4, f.ptr = g.ptr → f = g
  keys : ∀ f ∈ st.frags4, ∀ g ∈ st.frags4, f.key = g.key → f = g
  slot : ∀ h p, st.fraghash h = some p →
    ∃ f ∈ st.frags4, f.ptr = p ∧ f.hash = h ∧ h = fragSlot st f.buf ∧ h < st.fraghashsz

theorem sameDatagram_iff (t : Option ℕ) (buf4 : Buf) (f : Frag) :
    sameDatagram t buf4 f = true ↔ f.key = fragKey t buf4 := by
  simp [sameDatagram, Frag.key, fragKey, and_assoc]

theorem fragKey_take (t : Option ℕ) (b : Buf) : fragKey t (b.take IPHDRLEN) = fragKey t b := by
  simp only [fragKey]
  rw [byteAt_take (by decide), bytesAt_take (by decide), bytesAt_take (by decide)]

/-- The hash is a function of the key, so one datagram uses one slot. -/
theorem jhashFrag_congr {a b : Buf} {t u : Option ℕ} (h : fragKey t a = fragKey u b)
    (rnd : UInt32) : jhashFrag rnd a = jhashFrag rnd b := by
  simp only [fragKey, Prod.mk.injEq] at h
  obtain ⟨_, _, hid, haddr⟩ := h
  have hb : ∀ k, k < 8 → byteAt a (IPSRC + k) = byteAt b (IPSRC + k) := by
    intro k hk
    rw [← byteAt_bytesAt hk, haddr, byteAt_bytesAt hk]
  have hs : word32 a IPSRC = word32 b IPSRC := by
    have h0 := hb 0 (by decide)
    have h1 := hb 1 (by decide)
    have h2 := hb 2 (by decide)
    have h3 := hb 3 (by decide)
    simp only [Nat.add_zero] at h0
    simp only [word32, h0, h1, h2, h3]
  have hd : word32 a IPDST = word32 b IPDST := by
    have h0 := hb 4 (by decide)
    have h1 := hb 5 (by decide)
    have h2 := hb 6 (by decide)
    have h3 := hb 7 (by decide)
    simp only [IPSRC, Nat.reduceAdd] at h0 h1 h2 h3
    simp only [word32, IPDST, Nat.reduceAdd, h0, h1, h2, h3]
  simp only [jhashFrag, hs, hd, hid]

theorem fragSlot_congr {st st' : Frags} {a b : Buf} {t u : Option ℕ}
    (hr : st'.fraghashrnd = st.fraghashrnd) (hsz : st'.fraghashsz = st.fraghashsz)
    (h : fragKey t a = fragKey u b) : fragSlot st' a = fragSlot st b := by
  rw [fragSlot, fragSlot, hr, hsz, jhashFrag_congr h]

/-- Heads of other datagrams are the same in both states. -/
def SameBut (k : Option ℕ × UInt8 × Buf × Buf) (st st' : Frags) : Prop :=
  ∀ g : Frag, g.key ≠ k → (g ∈ st'.frags4 ↔ g ∈ st.frags4)

theorem SameBut.trans {k : Option ℕ × UInt8 × Buf × Buf} {a b c : Frags}
    (h : SameBut k a b) (h' : SameBut k b c) : SameBut k a c :=
  fun g hg => (h' g hg).trans (h g hg)

theorem mem_setFrag (st : Frags) (f g : Frag) :
    g ∈ (st.setFrag f).frags4 ↔
      ∃ g' ∈ st.frags4, (if g'.ptr = f.ptr then f else g') = g := by
  simp only [Frags.frags4, Frags.setFrag, List.mem_append, List.mem_map]
  constructor
  · rintro (⟨g', h, rfl⟩ | ⟨g', h, rfl⟩)
    exacts [⟨g', .inl h, rfl⟩, ⟨g', .inr h, rfl⟩]
  · rintro ⟨g', h | h, rfl⟩
    exacts [.inl ⟨g', h, rfl⟩, .inr ⟨g', h, rfl⟩]

/-- A head may be rewritten as long as it keeps its address, tunnel and key. -/
theorem setFrag_ok {st : Frags} (hok : FragsOk st) {f f' : Frag} (hf : f ∈ st.frags4)
    (hptr : f'.ptr = f.ptr) (htun : f'.tunnel = f.tunnel) (hkey : f'.key = f.key)
    (hhash : f'.hash = f.hash ∨ f'.hash = fragSlot st f.buf) :
    FragsOk (st.setFrag f') ∧ f' ∈ (st.setFrag f').frags4 ∧ SameBut f.key st (st.setFrag f') := by
  have hput : ∀ g ∈ st.frags4, (if g.ptr = f'.ptr then f' else g).key = g.key ∧
      (if g.ptr = f'.ptr then f' else g).ptr = g.ptr := by
    intro g hg
    by_cases h : g.ptr = f'.ptr
    · have : g = f := hok.ptrs g hg f hf (h.trans hptr)
      subst this
      simp [hptr, hkey]
    · simp [h]
  have hbuf : fragSlot st f'.buf = fragSlot st f.buf := fragSlot_congr rfl rfl hkey
  refine ⟨⟨hok.size, ?_, ?_, ?_, ?_, ?_, ?_⟩, ?_, ?_⟩
  · intro g hg
    obtain ⟨g', hg', rfl⟩ := List.mem_map.mp hg
    by_cases h : g'.ptr = f'.ptr
    · have : g' = f := hok.ptrs g' (List.mem_append_left _ hg') f hf (h.trans hptr)
      subst this
      simpa [h, htun] using hok.inn g' hg'
    · simpa [h] using hok.inn g' hg'
  · intro g hg
    obtain ⟨g', hg', rfl⟩ := List.mem_map.mp hg
    by_cases h : g'.ptr = f'.ptr
    · have : g' = f := hok.ptrs g' (List.mem_append_right _ hg') f hf (h.trans hptr)
      subst this
      simpa [h, htun] using hok.out g' hg'
    · simpa [h] using hok.out g' hg'
  · intro g hg
    obtain ⟨g', hg', rfl⟩ := (mem_setFrag _ _ _).mp hg
    rw [(hput g' hg').2]
    exact hok.fresh g' hg'
  · intro g hg h hh heq
    obtain ⟨g', hg', rfl⟩ := (mem_setFrag _ _ _).mp hg
    obtain ⟨h', hh', rfl⟩ := (mem_setFrag _ _ _).mp hh
    rw [(hput g' hg').2, (hput h' hh').2] at heq
    rw [hok.ptrs g' hg' h' hh' heq]
  · intro g hg h hh heq
    obtain ⟨g', hg', rfl⟩ := (mem_setFrag _ _ _).mp hg
    obtain ⟨h', hh', rfl⟩ := (mem_setFrag _ _ _).mp hh
    rw [(hput g' hg').1, (hput h' hh').1] at heq
    rw [hok.keys g' hg' h' hh' heq]
  · intro h p hp
    obtain ⟨g, hg, rfl, hh, hs, hl⟩ := hok.slot h p hp
    refine ⟨_, (mem_setFrag _ _ _).mpr ⟨g, hg, rfl⟩, (hput g hg).2, ?_, ?_, hl⟩
    · by_cases hgf : g.ptr = f'.ptr
      · have : g = f := hok.ptrs g hg f hf (hgf.trans hptr)
        subst this
        simp only [hgf, if_true]
        exact hhash.elim (·.trans hh) (·.trans hs.symm)
      · simpa [hgf] using hh
    · by_cases hgf : g.ptr = f'.ptr
      · have : g = f := hok.ptrs g hg f hf (hgf.trans hptr)
        subst this
        simp only [hgf, if_true]
        exact hs.trans hbuf.symm
      · simp only [hgf, if_false]
        exact hs
  · exact (mem_setFrag _ _ _).mpr ⟨f, hf, by simp [hptr]⟩
  · intro g hg
    rw [mem_setFrag]
    constructor
    · rintro ⟨g', hg', rfl⟩
      by_cases h : g'.ptr = f'.ptr
      · simp only [h, if_true] at hg
        exact absurd hkey hg
      · simpa [h] using hg'
    · intro hgm
      refine ⟨g, hgm, ?_⟩
      have : g.ptr ≠ f'.ptr := by
        intro h
        exact hg (by rw [hok.ptrs g hgm f hf (h.trans hptr)])
      simp [this]

theorem rehash_ok {st : Frags} (hok : FragsOk st) {f : Frag} (hf : f ∈ st.frags4) {hash : ℕ}
    (hh : hash = fragSlot st f.buf) :
    FragsOk (st.rehash f hash).1 ∧ (st.rehash f hash).2 ∈ (st.rehash f hash).1.frags4 ∧
      SameBut f.key st (st.rehash f hash).1 := by
  obtain ⟨hok', hmem, hsame⟩ := @setFrag_ok st hok f { f with hash := hash } hf rfl rfl rfl
    (.inr hh)
  refine ⟨⟨hok'.size, hok'.inn, hok'.out, hok'.fresh, hok'.ptrs, hok'.keys, ?_⟩, hmem, hsame⟩
  intro h p hp
  by_cases heq : h = hash
  · subst heq
    obtain rfl : f.ptr = p := by simpa [Frags.rehash] using hp
    refine ⟨_, hmem, rfl, rfl, hh, ?_⟩
    have := Nat.and_le_right (n := jhashFrag st.fraghashrnd f.buf) (m := st.fraghashsz - 1)
    have hpos := hok.size
    change h < st.fraghashsz
    rw [hh, fragSlot]
    omega
  · refine hok'.slot h p ?_
    change st.fraghash h = some p
    simpa only [Frags.rehash, Function.update_of_ne heq] using hp

theorem newFrag4_ok {st : Frags} (hok : FragsOk st) (cfg : FragConf) (env : Env) (t : Option ℕ)
    (buf4 : Buf) (x : Piece UInt8) (hnew : ∀ f ∈ st.frags4, f.key ≠ fragKey t buf4) :
    FragsOk (newFrag4 cfg env t buf4 x st).1 ∧
      (newFrag4 cfg env t buf4 x st).2 ∈ (newFrag4 cfg env t buf4 x st).1.frags4 ∧
      SameBut (fragKey t buf4) st (newFrag4 cfg env t buf4 x st).1 ∧
      (newFrag4 cfg env t buf4 x st).2.key = fragKey t buf4 := by
  obtain ⟨f, hf⟩ : ∃ f, f = (newFrag4 cfg env t buf4 x st).2 := ⟨_, rfl⟩
  have hkey : f.key = fragKey t buf4 := by
    rw [hf]
    cases t <;> exact fragKey_take _ _
  have hptr : f.ptr = st.next := by
    rw [hf]
    cases t <;> rfl
  have htun : f.tunnel = t := by
    rw [hf]
    cases t <;> rfl
  have hmem : ∀ g, g ∈ (newFrag4 cfg env t buf4 x st).1.frags4 ↔ g = f ∨ g ∈ st.frags4 := by
    intro g
    rw [hf]
    cases t with
    | none => simp [newFrag4, Frags.frags4, or_left_comm]
    | some t => simp [newFrag4, Frags.frags4]
  rw [← hf]
  refine ⟨⟨?_, ?_, ?_, ?_, ?_, ?_, ?_⟩, (hmem f).mpr (.inl rfl), ?_, hkey⟩
  · cases t <;> exact hok.size
  · intro g hg
    cases t with
    | none => exact hok.inn g hg
    | some t =>
      rcases List.mem_cons.mp hg with rfl | hg
      · simp
      · exact hok.inn g hg
  · intro g hg
    cases t with
    | none =>
      rcases List.mem_cons.mp hg with rfl | hg
      · rfl
      · exact hok.out g hg
    | some t => exact hok.out g hg
  · intro g hg
    have hnext : (newFrag4 cfg env t buf4 x st).1.next = st.next + 1 := by cases t <;> rfl
    rw [hnext]
    rcases (hmem g).mp hg with rfl | hg
    · omega
    · have := hok.fresh g hg
      omega
  · intro g hg h hh heq
    rcases (hmem g).mp hg with rfl | hg <;> rcases (hmem h).mp hh with rfl | hh
    · rfl
    · have := hok.fresh h hh
      omega
    · have := hok.fresh g hg
      omega
    · exact hok.ptrs g hg h hh heq
  · intro g hg h hh heq
    rcases (hmem g).mp hg with rfl | hg <;> rcases (hmem h).mp hh with rfl | hh
    · rfl
    · exact absurd (heq.symm.trans hkey) (hnew h hh)
    · exact absurd (heq.trans hkey) (hnew g hg)
    · exact hok.keys g hg h hh heq
  · intro h p hp
    obtain ⟨g, hg, hgp, hgh, hgs, hgl⟩ := hok.slot h p (by cases t <;> exact hp)
    refine ⟨g, (hmem g).mpr (.inr hg), hgp, hgh, ?_, ?_⟩
    · cases t <;> exact hgs
    · cases t <;> exact hgl
  · intro g hg
    rw [hmem]
    exact ⟨fun h => h.resolve_left (fun h => hg (h ▸ hkey)), .inr⟩

theorem mem_delFrag4 (f g : Frag) (st : Frags) :
    g ∈ (delFrag4 f st).frags4 ↔ g ∈ st.frags4 ∧ g.ptr ≠ f.ptr := by
  cases h : f.tunnel <;> simp [delFrag4, h, Frags.frags4] <;> tauto

/-- Removing a head leaves no trace of its datagram, in the queue or in the hash. -/
theorem delFrag4_ok {st : Frags} (hok : FragsOk st) {f : Frag} (hf : f ∈ st.frags4) :
    FragsOk (delFrag4 f st) ∧ (∀ g ∈ (delFrag4 f st).frags4, g.key ≠ f.key) ∧
      SameBut f.key st (delFrag4 f st) := by
  have hsz : (delFrag4 f st).fraghashsz = st.fraghashsz := by
    cases h : f.tunnel <;> simp [delFrag4, h]
  have hrnd : (delFrag4 f st).fraghashrnd = st.fraghashrnd := by
    cases h : f.tunnel <;> simp [delFrag4, h]
  have hnext : (delFrag4 f st).next = st.next := by
    cases h : f.tunnel <;> simp [delFrag4, h]
  have hhash : (delFrag4 f st).fraghash =
      if f.hash < st.fraghashsz ∧ st.fraghash f.hash = some f.ptr
      then Function.update st.fraghash f.hash none else st.fraghash := by
    cases h : f.tunnel <;> simp [delFrag4, h]
  refine ⟨⟨?_, ?_, ?_, ?_, ?_, ?_, ?_⟩, ?_, ?_⟩
  · rw [hsz]
    exact hok.size
  · intro g hg
    refine hok.inn g ?_
    cases h : f.tunnel <;> simp only [delFrag4, h, List.mem_filter] at hg <;> exact hg.1
  · intro g hg
    refine hok.out g ?_
    cases h : f.tunnel <;> simp only [delFrag4, h, List.mem_filter] at hg <;> exact hg.1
  · intro g hg
    rw [hnext]
    exact hok.fresh g ((mem_delFrag4 f g st).mp hg).1
  · intro g hg h hh
    exact hok.ptrs g ((mem_delFrag4 f g st).mp hg).1 h ((mem_delFrag4 f h st).mp hh).1
  · intro g hg h hh
    exact hok.keys g ((mem_delFrag4 f g st).mp hg).1 h ((mem_delFrag4 f h st).mp hh).1
  · intro h p hp
    have hold : st.fraghash h = some p ∧ p ≠ f.ptr := by
      rw [hhash] at hp
      by_cases hc : f.hash < st.fraghashsz ∧ st.fraghash f.hash = some f.ptr
      · rw [if_pos hc] at hp
        by_cases hh : h = f.hash
        · simp [hh] at hp
        · rw [Function.update_of_ne hh] at hp
          refine ⟨hp, ?_⟩
          rintro rfl
          obtain ⟨g, hg, hgp, hgh, _, _⟩ := hok.slot h f.ptr hp
          exact hh (by rw [← hgh, hok.ptrs g hg f hf hgp])
      · rw [if_neg hc] at hp
        refine ⟨hp, ?_⟩
        rintro rfl
        obtain ⟨g, hg, hgp, hgh, _, hgl⟩ := hok.slot h f.ptr hp
        obtain rfl := hok.ptrs g hg f hf hgp
        subst hgh
        exact hc ⟨hgl, hp⟩
    obtain ⟨g, hg, rfl, hgh, hgs, hgl⟩ := hok.slot h p hold.1
    refine ⟨g, (mem_delFrag4 f g st).mpr ⟨hg, hold.2⟩, rfl, hgh, ?_, ?_⟩
    · simpa only [fragSlot, hsz, hrnd] using hgs
    · rw [hsz]
      exact hgl
  · intro g hg hk
    obtain ⟨hg, hne⟩ := (mem_delFrag4 f g st).mp hg
    exact hne (by rw [hok.keys g hg f hf hk])
  · intro g hg
    rw [mem_delFrag4]
    refine ⟨And.left, fun hgm => ⟨hgm, fun hp => hg ?_⟩⟩
    rw [hok.ptrs g hgm f hf hp]

/-- The head `defrag` works on: the one the queues hold for the datagram, or a
    new one when they hold none. -/
theorem fragHead4_spec {st : Frags} (hok : FragsOk st) (cfg : FragConf) (env : Env)
    (t : Option ℕ) (buf4 : Buf) (x : Piece UInt8) {st' : Frags} {f' : Frag}
    (h : fragHead4 cfg env t buf4 x st = some (st', f')) :
    FragsOk st' ∧ f' ∈ st'.frags4 ∧ f'.key = fragKey t buf4 ∧ SameBut (fragKey t buf4) st st' ∧
      ((∃ f ∈ st.frags4, f.key = fragKey t buf4 ∧
          f'.fraglist = f.fraglist ∧ f'.off = f.off ∧ f'.buf = f.buf) ∨
        ((∀ f ∈ st.frags4, f.key ≠ fragKey t buf4) ∧
          f'.fraglist = [] ∧ f'.off = x.off ∧ f'.buf = buf4.take IPHDRLEN)) := by
  unfold fragHead4 at h
  simp only at h
  obtain ⟨hash, hhash⟩ : ∃ hash, hash = fragSlot st buf4 := ⟨_, rfl⟩
  rw [← fragSlot, ← hhash] at h
  split at h
  · rename_i f hc
    obtain ⟨rfl, rfl⟩ : st = st' ∧ f = f' := by simpa using h
    obtain ⟨hb, hs⟩ := Option.filter_eq_some_iff.mp hc
    obtain ⟨p, -, hfind⟩ := Option.bind_eq_some_iff.mp hb
    have hkey := (sameDatagram_iff _ _ _).mp hs
    have hmem := List.mem_of_find?_eq_some hfind
    exact ⟨hok, hmem, hkey, fun _ _ => Iff.rfl, .inl ⟨f, hmem, hkey, rfl, rfl, rfl⟩⟩
  · split at h
    · rename_i f hfind
      have hmem : f ∈ st.frags4 := by
        have := List.mem_of_find?_eq_some hfind
        cases t with
        | none => exact List.mem_append_right _ this
        | some t => exact List.mem_append_left _ this
      have hkey := (sameDatagram_iff _ _ _).mp (List.find?_some hfind)
      have hslot : hash = fragSlot st f.buf :=
        hhash.trans (fragSlot_congr rfl rfl hkey).symm
      obtain ⟨hok', hmem', hsame⟩ := rehash_ok hok hmem hslot
      simp only [Option.some.injEq] at h
      rw [h, hkey] at hsame
      rw [h] at hok' hmem'
      obtain rfl : { f with hash := _ } = f' := congrArg Prod.snd h
      exact ⟨hok', hmem', hkey, hsame, .inl ⟨f, hmem, hkey, rfl, rfl, rfl⟩⟩
    · rename_i hnone
      split at h
      · have hnew : ∀ f ∈ st.frags4, f.key ≠ fragKey t buf4 := by
          intro f hf hk
          have hs := (sameDatagram_iff t buf4 f).mpr hk
          have htun : f.tunnel = t := congrArg Prod.fst hk
          rw [List.find?_eq_none] at hnone
          refine hnone f ?_ hs
          rcases List.mem_append.mp hf with hin | hout
          · have := hok.inn f hin
            cases t with
            | none => exact absurd htun this
            | some t => exact hin
          · have := hok.out f hout
            rw [this] at htun
            subst htun
            exact hout
        obtain ⟨hok1, hmem1, hsame1, hkey1⟩ := newFrag4_ok hok cfg env t buf4 x hnew
        have hrnd : (newFrag4 cfg env t buf4 x st).1.fraghashrnd = st.fraghashrnd := by
          cases t <;> rfl
        have hsz : (newFrag4 cfg env t buf4 x st).1.fraghashsz = st.fraghashsz := by
          cases t <;> rfl
        have hslot : hash = fragSlot (newFrag4 cfg env t buf4 x st).1
            (newFrag4 cfg env t buf4 x st).2.buf :=
          hhash.trans (fragSlot_congr hrnd hsz hkey1).symm
        obtain ⟨hok2, hmem2, hsame2⟩ := rehash_ok hok1 hmem1 hslot
        simp only [Option.some.injEq] at h
        rw [h, hkey1] at hsame2
        rw [h] at hok2 hmem2
        have hf' : f' = { (newFrag4 cfg env t buf4 x st).2 with hash := hash } :=
          (congrArg Prod.snd h).symm
        refine ⟨hok2, hmem2, hf' ▸ hkey1, hsame1.trans hsame2, .inr ⟨hnew, ?_, ?_, ?_⟩⟩
        all_goals rw [hf']; cases t <;> rfl
      · simp at h

theorem fragHead4_isSome (st : Frags) (cfg : FragConf) {env : Env} (h0 : env.mem 0 = true)
    (h1 : env.mem 1 = true) (t : Option ℕ) (buf4 : Buf) (x : Piece UInt8) :
    ∃ r, fragHead4 cfg env t buf4 x st = some r := by
  unfold fragHead4
  simp only [h0, h1]
  split
  · exact ⟨_, rfl⟩
  · split
    · exact ⟨_, rfl⟩
    · exact ⟨_, rfl⟩

@[simp] theorem Frag.add_ptr (f : Frag) (hdr : Buf) (x : Piece UInt8) (l : List (Piece UInt8)) :
    (f.add hdr x l).ptr = f.ptr := by
  unfold Frag.add
  split <;> rfl

@[simp] theorem Frag.add_tunnel (f : Frag) (hdr : Buf) (x : Piece UInt8) (l : List (Piece UInt8)) :
    (f.add hdr x l).tunnel = f.tunnel := by
  unfold Frag.add
  split <;> rfl

@[simp] theorem Frag.add_hash (f : Frag) (hdr : Buf) (x : Piece UInt8) (l : List (Piece UInt8)) :
    (f.add hdr x l).hash = f.hash := by
  unfold Frag.add
  split <;> rfl

@[simp] theorem Frag.add_fraglist (f : Frag) (hdr : Buf) (x : Piece UInt8)
    (l : List (Piece UInt8)) : (f.add hdr x l).fraglist = l := by
  unfold Frag.add
  split <;> rfl

theorem Frag.add_key {f : Frag} {t : Option ℕ} {buf4 : Buf} (h : f.key = fragKey t buf4)
    (x : Piece UInt8) (l : List (Piece UInt8)) :
    (f.add (buf4.take IPHDRLEN) x l).key = fragKey t buf4 := by
  unfold Frag.add
  split
  · have htun : f.tunnel = t := congrArg Prod.fst h
    change fragKey f.tunnel (buf4.take IPHDRLEN) = fragKey t buf4
    rw [fragKey_take, htun]
  · exact h

/-- Adding a fragment to its head touches no other datagram and keeps `FragsOk`. -/
theorem addFrag4_ok {st : Frags} (hok : FragsOk st) (env : Env) {t : Option ℕ} {buf4 : Buf}
    (x : Piece UInt8) {f : Frag} (hf : f ∈ st.frags4) (hkey : f.key = fragKey t buf4) :
    FragsOk (addFrag4 env buf4 x st f).1 ∧
      SameBut (fragKey t buf4) st (addFrag4 env buf4 x st f).1 := by
  unfold addFrag4
  split
  · exact ⟨hok, fun _ _ => Iff.rfl⟩
  · rename_i l _
    have hk := Frag.add_key hkey x l
    obtain ⟨hok', hmem, hsame⟩ := @setFrag_ok st hok f (f.add (buf4.take IPHDRLEN) x l) hf
      (by simp) (by simp) (hk.trans hkey.symm) (by simp)
    rw [hkey] at hsame
    split
    · exact ⟨hok, fun _ _ => Iff.rfl⟩
    · obtain ⟨hok2, -, hsame2⟩ := delFrag4_ok hok' hmem
      rw [hk] at hsame2
      simp only [whole4]
      split
      · exact ⟨hok', hsame⟩
      · split
        · exact ⟨hok', hsame⟩
        · split
          · exact ⟨hok2, hsame.trans hsame2⟩
          · exact ⟨hok2, hsame.trans hsame2⟩

theorem defrag_ok {st : Frags} (hok : FragsOk st) (cfg : FragConf) (env : Env) (t : Option ℕ)
    (buf4 : Buf) : FragsOk (defrag cfg env t buf4 st).1 ∧
      SameBut (fragKey t buf4) st (defrag cfg env t buf4 st).1 := by
  unfold defrag
  split
  · exact ⟨hok, fun _ _ => Iff.rfl⟩
  · simp only
    split
    · exact ⟨hok, fun _ _ => Iff.rfl⟩
    · split
      · exact ⟨hok, fun _ _ => Iff.rfl⟩
      · rename_i st' f' h
        obtain ⟨hok', hmem, hkey, hsame, -⟩ := fragHead4_spec hok cfg env t buf4 _ h
        obtain ⟨hok2, hsame2⟩ := addFrag4_ok hok' env (piece4 buf4) hmem hkey
        exact ⟨hok2, hsame.trans hsame2⟩

/-- The IPv6 queue shares only the supply of addresses with the IPv4 queues. -/
structure Same4 (st st' : Frags) : Prop where
  inn : st'.fragsin = st.fragsin
  out : st'.fragsout = st.fragsout
  hash : st'.fraghash = st.fraghash
  size : st'.fraghashsz = st.fraghashsz
  rnd : st'.fraghashrnd = st.fraghashrnd
  next : st.next ≤ st'.next

theorem Same4.frags4 {st st' : Frags} (h : Same4 st st') : st'.frags4 = st.frags4 := by
  simp only [Frags.frags4, h.inn, h.out]

theorem Same4.ok {st st' : Frags} (h : Same4 st st') (hok : FragsOk st) : FragsOk st' := by
  refine ⟨h.size ▸ hok.size, h.inn ▸ hok.inn, h.out ▸ hok.out, fun f hf => ?_, ?_, ?_, ?_⟩
  · exact (hok.fresh f (h.frags4 ▸ hf)).trans_le h.next
  · rw [h.frags4]
    exact hok.ptrs
  · rw [h.frags4]
    exact hok.keys
  · intro k p hp
    rw [h.hash] at hp
    rw [h.frags4]
    obtain ⟨f, hf, hfp, hfh, hfs, hfl⟩ := hok.slot k p hp
    exact ⟨f, hf, hfp, hfh, by rw [hfs, fragSlot, fragSlot, h.rnd, h.size], h.size ▸ hfl⟩

theorem whole6_same4 (st : Frags) (f : Frag) : Same4 st (whole6 st f).1 := by
  unfold whole6
  split
  · exact ⟨rfl, rfl, rfl, rfl, rfl, le_refl _⟩
  · split
    · exact ⟨rfl, rfl, rfl, rfl, rfl, le_refl _⟩
    · split
      · exact ⟨rfl, rfl, rfl, rfl, rfl, le_refl _⟩
      · exact ⟨rfl, rfl, rfl, rfl, rfl, le_refl _⟩

theorem defrag6_same4 (cfg : FragConf) (env : Env) (t : ℕ) (buf6 : Buf) (st : Frags) :
    Same4 st (defrag6 cfg env t buf6 st).1 := by
  have hadd : ∀ (st : Frags) (f : Frag), Same4 st (addFrag6 env buf6 (piece6 buf6) st f).1 := by
    intro st f
    unfold addFrag6
    split
    · exact ⟨rfl, rfl, rfl, rfl, rfl, le_refl _⟩
    · split
      · exact ⟨rfl, rfl, rfl, rfl, rfl, le_refl _⟩
      · have h := whole6_same4 (st.setFrag6 (f.add (buf6.take IP6FLEN) (piece6 buf6) ‹_›))
          (f.add (buf6.take IP6FLEN) (piece6 buf6) ‹_›)
        exact ⟨h.inn, h.out, h.hash, h.size, h.rnd, h.next⟩
  unfold defrag6
  split
  · exact ⟨rfl, rfl, rfl, rfl, rfl, le_refl _⟩
  · simp only
    split
    · exact ⟨rfl, rfl, rfl, rfl, rfl, le_refl _⟩
    · split
      · exact ⟨rfl, rfl, rfl, rfl, rfl, le_refl _⟩
      · rename_i st' f hf
        have h := hadd st' f
        unfold fragHead6 at hf
        split at hf
        · obtain ⟨rfl, rfl⟩ : st = st' ∧ _ = f := by simpa using hf
          exact h
        · split at hf
          · obtain rfl : (newFrag6 cfg env t buf6 (piece6 buf6) st).1 = st' :=
              congrArg Prod.fst (Option.some.inj hf)
            exact ⟨h.inn, h.out, h.hash, h.size, h.rnd, (Nat.le_succ _).trans h.next⟩
          · simp at hf

theorem delFrag6_same4 (f : Frag) (st : Frags) : Same4 st (delFrag6 f st) :=
  ⟨rfl, rfl, rfl, rfl, rfl, le_refl _⟩

/-- Whatever each deletion keeps, the expiry loop keeps. A head is deleted only
    from its queue and only when its time is over. -/
theorem expireTail_induct (P : Frags → Prop) {del : Frag → Frags → Frags}
    {queue : Frags → List Frag} {seconds : ℕ}
    (hdel : ∀ f st, P st → f ∈ queue st → f.expire < seconds → P (del f st))
    (k : ℕ) (st : Frags) (h : P st) : P (expireTail del queue seconds k st) := by
  induction k generalizing st with
  | zero => exact h
  | succ k ih =>
    unfold expireTail
    split
    · exact h
    · rename_i f hf
      split
      · exact h
      · exact ih _ (hdel f st h (List.mem_of_getLast? hf) (by omega))

theorem expireFrags_induct (P : Frags → Prop) {seconds : ℕ}
    (h6 : ∀ f st, P st → P (delFrag6 f st))
    (h4 : ∀ f st, P st → f ∈ st.frags4 → f.expire < seconds → P (delFrag4 f st))
    (st : Frags) (h : P st) : P (expireFrags seconds st) := by
  unfold expireFrags
  refine expireTail_induct P (fun f st hP hf he => h4 f st hP (List.mem_append_right _ hf) he) _ _ ?_
  refine expireTail_induct P (fun f st hP hf he => h4 f st hP (List.mem_append_left _ hf) he) _ _ ?_
  exact expireTail_induct P (fun f st hP _ _ => h6 f st hP) _ _ h

theorem resizeFragHash_ok {st : Frags} (hok : FragsOk st) (up : Bool) (rnd : UInt32) :
    FragsOk (resizeFragHash up rnd st) := by
  unfold resizeFragHash
  simp only
  generalize (if up = true then st.fraghashsz * 2 else st.fraghashsz / 2) = newhashsz
  split
  · exact hok
  · rename_i hsz
    refine ⟨?_, hok.inn, hok.out, hok.fresh, hok.ptrs, hok.keys, fun h p hp => by simp at hp⟩
    change 0 < newhashsz
    simp only [MINFRAGHASH] at hsz
    omega

theorem resizeFragHash_frags4 (st : Frags) (up : Bool) (rnd : UInt32) :
    (resizeFragHash up rnd st).frags4 = st.frags4 := by
  unfold resizeFragHash
  simp only
  generalize (if up = true then st.fraghashsz * 2 else st.fraghashsz / 2) = newhashsz
  split
  · rfl
  · rfl

theorem fragStep_ok (cfg : FragConf) {st : Frags} (hok : FragsOk st) (e : FragEvent) :
    FragsOk (fragStep cfg st e) := by
  cases e with
  | defrag env t buf4 => exact (defrag_ok hok cfg env t buf4).1
  | defrag6 env t buf6 => exact (defrag6_same4 cfg env t buf6 st).ok hok
  | expire seconds =>
    exact expireFrags_induct FragsOk (fun f st h => (delFrag6_same4 f st).ok h)
      (fun f st h hf _ => (delFrag4_ok h hf).1) st hok
  | resize up rnd => exact resizeFragHash_ok hok up rnd

theorem frags_init_ok (rnd : UInt32) : FragsOk { fraghashrnd := rnd } := by
  refine ⟨Nat.succ_pos _, ?_, ?_, ?_, ?_, ?_, ?_⟩
  all_goals simp [Frags.frags4]

/-- The states of the queues that some run of the program reaches. -/
def FragReachable (cfg : FragConf) (st : Frags) : Prop :=
  ∃ rnd es, st = fragRun cfg { fraghashrnd := rnd } es

theorem FragReachable.ok {cfg : FragConf} {st : Frags} (h : FragReachable cfg st) :
    FragsOk st := by
  obtain ⟨rnd, es, rfl⟩ := h
  unfold fragRun
  induction es using List.reverseRecOn with
  | nil => exact frags_init_ok rnd
  | append_singleton es e ih =>
    rw [List.foldl_append]
    exact fragStep_ok cfg ih e

end WanStack.Aftr
