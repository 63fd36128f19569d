import WanStack.Aftr.Collect

set_option autoImplicit false

/-!
# IPv6 reassembly

The invariant of the IPv6 queue and what one fragment of a followed datagram
does to it.
-/
namespace WanStack.Aftr
open Reassembly

def fragKey6 (t : Option ℕ) (buf : Buf) : Option ℕ × UInt8 × Buf :=
  (t, byteAt buf IP6FPROTO, bytesAt buf IP6FID 4)

def Frag.key6 (f : Frag) : Option ℕ × UInt8 × Buf := fragKey6 f.tunnel f.buf

structure Frags6Ok (st : Frags) : Prop where
  fresh : ∀ f ∈ st.frags6, f.ptr < st.next
  ptrs : ∀ f ∈ st.frags6, ∀ g ∈ st.frags6, f.ptr = g.ptr → f = g
  keys : ∀ f ∈ st.frags6, ∀ g ∈ st.frags6, f.key6 = g.key6 → f = g

theorem sameDatagram6_iff (t : ℕ) (buf6 : Buf) (f : Frag) :
    sameDatagram6 t buf6 f = true ↔ f.key6 = fragKey6 (some t) buf6 := by
  simp [sameDatagram6, Frag.key6, fragKey6, and_assoc]

theorem fragKey6_take (t : Option ℕ) (b : Buf) : fragKey6 t (b.take IP6FLEN) = fragKey6 t b := by
  simp only [fragKey6]
  rw [byteAt_take (by decide), bytesAt_take (by decide)]

theorem mem_setFrag6 (st : Frags) (f g : Frag) :
    g ∈ (st.setFrag6 f).frags6 ↔
      ∃ g' ∈ st.frags6, (if g'.ptr = f.ptr then f else g') = g := List.mem_map

theorem setFrag6_ok {st : Frags} (hok : Frags6Ok st) {f f' : Frag} (hf : f ∈ st.frags6)
    (hptr : f'.ptr = f.ptr) (hkey : f'.key6 = f.key6) :
    Frags6Ok (st.setFrag6 f') ∧ f' ∈ (st.setFrag6 f').frags6 := by
  have hput : ∀ g ∈ st.frags6, (if g.ptr = f'.ptr then f' else g).key6 = g.key6 ∧
      (if g.ptr = f'.ptr then f' else g).ptr = g.ptr := by
    intro g hg
    by_cases h : g.ptr = f'.ptr
    · obtain rfl := hok.ptrs g hg f hf (h.trans hptr)
      simp [hptr, hkey]
    · simp [h]
  refine ⟨⟨?_, ?_, ?_⟩, (mem_setFrag6 _ _ _).mpr ⟨f, hf, by simp [hptr]⟩⟩
  · intro g hg
    obtain ⟨g', hg', rfl⟩ := (mem_setFrag6 _ _ _).mp hg
    rw [(hput g' hg').2]
    exact hok.fresh g' hg'
  · intro g hg h hh heq
    obtain ⟨g', hg', rfl⟩ := (mem_setFrag6 _ _ _).mp hg
    obtain ⟨h', hh', rfl⟩ := (mem_setFrag6 _ _ _).mp hh
    rw [(hput g' hg').2, (hput h' hh').2] at heq
    rw [hok.ptrs g' hg' h' hh' heq]
  · intro g hg h hh heq
    obtain ⟨g', hg', rfl⟩ := (mem_setFrag6 _ _ _).mp hg
    obtain ⟨h', hh', rfl⟩ := (mem_setFrag6 _ _ _).mp hh
    rw [(hput g' hg').1, (hput h' hh').1] at heq
    rw [hok.keys g' hg' h' hh' heq]

theorem newFrag6_ok {st : Frags} (hok : Frags6Ok st) (cfg : FragConf) (env : Env) (t : ℕ)
    (buf6 : Buf) (x : Piece UInt8) (hnew : ∀ f ∈ st.frags6, f.key6 ≠ fragKey6 (some t) buf6) :
    Frags6Ok (newFrag6 cfg env t buf6 x st).1 := by
  have hkey : (newFrag6 cfg env t buf6 x st).2.key6 = fragKey6 (some t) buf6 := fragKey6_take _ _
  have hmem : ∀ g, g ∈ (newFrag6 cfg env t buf6 x st).1.frags6 ↔
      g = (newFrag6 cfg env t buf6 x st).2 ∨ g ∈ st.frags6 := fun g => List.mem_cons
  have hptr : (newFrag6 cfg env t buf6 x st).2.ptr = st.next := rfl
  refine ⟨?_, ?_, ?_⟩
  · intro g hg
    change g.ptr < st.next + 1
    rcases (hmem g).mp hg with rfl | hg
    · omega
    · have := hok.fresh g hg
      omega
  · intro g hg h hh heq
    rcases (hmem g).mp hg with rfl | hg <;> rcases (hmem h).mp hh with rfl | hh
    · rfl
    · have := hok.fresh h hh
      omega
    · have := hok.fresh g hg
      omega
    · exact hok.ptrs g hg h hh heq
  · intro g hg h hh heq
    rcases (hmem g).mp hg with rfl | hg <;> rcases (hmem h).mp hh with rfl | hh
    · rfl
    · exact absurd (heq.symm.trans hkey) (hnew h hh)
    · exact absurd (heq.trans hkey) (hnew g hg)
    · exact hok.keys g hg h hh heq

theorem mem_delFrag6 (f g : Frag) (st : Frags) :
    g ∈ (delFrag6 f st).frags6 ↔ g ∈ st.frags6 ∧ g.ptr ≠ f.ptr := by
  simp [delFrag6]

theorem delFrag6_ok {st : Frags} (hok : Frags6Ok st) (f : Frag) : Frags6Ok (delFrag6 f st) := by
  refine ⟨fun g hg => hok.fresh g ((mem_delFrag6 f g st).mp hg).1, ?_, ?_⟩
  · intro g hg h hh
    exact hok.ptrs g ((mem_delFrag6 f g st).mp hg).1 h ((mem_delFrag6 f h st).mp hh).1
  · intro g hg h hh
    exact hok.keys g ((mem_delFrag6 f g st).mp hg).1 h ((mem_delFrag6 f h st).mp hh).1

theorem fragHead6_spec {st : Frags} (hok : Frags6Ok st) (cfg : FragConf) (env : Env)
    (t : ℕ) (buf6 : Buf) (x : Piece UInt8) {st' : Frags} {f' : Frag}
    (h : fragHead6 cfg env t buf6 x st = some (st', f')) :
    Frags6Ok st' ∧ f' ∈ st'.frags6 ∧ f'.key6 = fragKey6 (some t) buf6 ∧
      ((f' ∈ st.frags6 ∧ st' = st) ∨
        ((∀ f ∈ st.frags6, f.key6 ≠ fragKey6 (some t) buf6) ∧
          newFrag6 cfg env t buf6 x st = (st', f'))) := by
  unfold fragHead6 at h
  split at h
  · rename_i f hfind
    obtain ⟨rfl, rfl⟩ : st = st' ∧ f = f' := by simpa using h
    have hmem := List.mem_of_find?_eq_some hfind
    exact ⟨hok, hmem, (sameDatagram6_iff _ _ _).mp (List.find?_some hfind), .inl ⟨hmem, rfl⟩⟩
  · rename_i hnone
    split at h
    · have hnew : ∀ f ∈ st.frags6, f.key6 ≠ fragKey6 (some t) buf6 := by
        intro f hf hk
        rw [List.find?_eq_none] at hnone
        exact hnone f hf ((sameDatagram6_iff _ _ _).mpr hk)
      have heq := Option.some.inj h
      have hok' := newFrag6_ok hok cfg env t buf6 x hnew
      have hmem : (newFrag6 cfg env t buf6 x st).2 ∈ (newFrag6 cfg env t buf6 x st).1.frags6 :=
        List.mem_cons_self ..
      have hkey : (newFrag6 cfg env t buf6 x st).2.key6 = fragKey6 (some t) buf6 :=
        fragKey6_take _ _
      rw [heq] at hok' hmem hkey
      exact ⟨hok', hmem, hkey, .inr ⟨hnew, heq⟩⟩
    · simp at h

theorem Frag.add_key6 {f : Frag} {t : Option ℕ} {buf6 : Buf} (h : f.key6 = fragKey6 t buf6)
    (x : Piece UInt8) (l : List (Piece UInt8)) :
    (f.add (buf6.take IP6FLEN) x l).key6 = fragKey6 t buf6 := by
  unfold Frag.add
  split
  · have htun : f.tunnel = t := congrArg Prod.fst h
    change fragKey6 f.tunnel (buf6.take IP6FLEN) = fragKey6 t buf6
    rw [fragKey6_take, htun]
  · exact h

theorem whole6_ok {st : Frags} (hok : Frags6Ok st) (f : Frag) : Frags6Ok (whole6 st f).1 := by
  unfold whole6
  split
  · exact hok
  · split
    · exact hok
    · split
      · exact delFrag6_ok hok f
      · exact delFrag6_ok hok f

theorem defrag6_ok {st : Frags} (hok : Frags6Ok st) (cfg : FragConf) (env : Env) (t : ℕ)
    (buf6 : Buf) : Frags6Ok (defrag6 cfg env t buf6 st).1 := by
  unfold defrag6
  split
  · exact hok
  · simp only
    split
    · exact hok
    · split
      · exact hok
      · rename_i st' f hf
        obtain ⟨hok', hmem, hkey, -⟩ := fragHead6_spec hok cfg env t buf6 _ hf
        unfold addFrag6
        split
        · exact hok'
        · split
          · exact hok'
          · refine whole6_ok (setFrag6_ok hok' hmem (by simp) ?_).1 _
            exact (Frag.add_key6 hkey _ _).trans hkey.symm

/-- The IPv4 side leaves the IPv6 queue alone. -/
structure Same6 (st st' : Frags) : Prop where
  frags6 : st'.frags6 = st.frags6
  next : st.next ≤ st'.next

theorem Same6.trans {a b c : Frags} (h : Same6 a b) (h' : Same6 b c) : Same6 a c :=
  ⟨h'.frags6.trans h.frags6, h.next.trans h'.next⟩

theorem Same6.ok {st st' : Frags} (h : Same6 st st') (hok : Frags6Ok st) : Frags6Ok st' := by
  refine ⟨fun f hf => (hok.fresh f (h.frags6 ▸ hf)).trans_le h.next, ?_, ?_⟩
  · rw [h.frags6]
    exact hok.ptrs
  · rw [h.frags6]
    exact hok.keys

theorem delFrag4_same6 (f : Frag) (st : Frags) : Same6 st (delFrag4 f st) := by
  unfold delFrag4
  cases f.tunnel with
  | none => exact ⟨rfl, le_refl _⟩
  | some t => exact ⟨rfl, le_refl _⟩

theorem setFrag_same6 (f : Frag) (st : Frags) : Same6 st (st.setFrag f) := ⟨rfl, le_refl _⟩

theorem whole4_same6 (st : Frags) (f : Frag) : Same6 st (whole4 st f).1 := by
  unfold whole4
  split
  · exact ⟨rfl, le_refl _⟩
  · split
    · exact ⟨rfl, le_refl _⟩
    · split
      · exact delFrag4_same6 f st
      · exact delFrag4_same6 f st

theorem fragHead4_same6 {cfg : FragConf} {env : Env} {t : Option ℕ} {buf4 : Buf}
    {x : Piece UInt8} {st st' : Frags} {f : Frag}
    (h : fragHead4 cfg env t buf4 x st = some (st', f)) : Same6 st st' := by
  unfold fragHead4 at h
  simp only at h
  generalize jhashFrag st.fraghashrnd buf4 &&& (st.fraghashsz - 1) = hash at h
  split at h
  · obtain ⟨rfl, -⟩ : st = st' ∧ _ = f := by simpa using h
    exact ⟨rfl, le_refl _⟩
  · split at h
    · obtain rfl := congrArg Prod.fst (Option.some.inj h)
      exact ⟨rfl, le_refl _⟩
    · split at h
      · obtain rfl := congrArg Prod.fst (Option.some.inj h)
        cases t with
        | none => exact ⟨rfl, Nat.le_succ _⟩
        | some t => exact ⟨rfl, Nat.le_succ _⟩
      · simp at h

theorem defrag_same6 (cfg : FragConf) (env : Env) (t : Option ℕ) (buf4 : Buf) (st : Frags) :
    Same6 st (defrag cfg env t buf4 st).1 := by
  unfold defrag
  split
  · exact ⟨rfl, le_refl _⟩
  · simp only
    split
    · exact ⟨rfl, le_refl _⟩
    · split
      · exact ⟨rfl, le_refl _⟩
      · rename_i st' f hf
        refine (fragHead4_same6 hf).trans ?_
        unfold addFrag4
        split
        · exact ⟨rfl, le_refl _⟩
        · split
          · exact ⟨rfl, le_refl _⟩
          · exact (setFrag_same6 _ _).trans (whole4_same6 _ _)

theorem fragStep_ok6 (cfg : FragConf) {st : Frags} (hok : Frags6Ok st) (e : FragEvent) :
    Frags6Ok (fragStep cfg st e) := by
  cases e with
  | defrag env t buf4 => exact (defrag_same6 cfg env t buf4 st).ok hok
  | defrag6 env t buf6 => exact defrag6_ok hok cfg env t buf6
  | expire seconds =>
    exact expireFrags_induct Frags6Ok (fun f st h => delFrag6_ok h f)
      (fun f st h _ _ => (delFrag4_same6 f st).ok h) st hok
  | resize up rnd =>
    refine @Same6.ok st _ ?_ hok
    simp only [fragStep, resizeFragHash]
    generalize (if up = true then st.fraghashsz * 2 else st.fraghashsz / 2) = newhashsz
    split
    · exact ⟨rfl, le_refl _⟩
    · exact ⟨rfl, le_refl _⟩

theorem FragReachable.ok6 {cfg : FragConf} {st : Frags} (h : FragReachable cfg st) :
    Frags6Ok st := by
  obtain ⟨rnd, es, rfl⟩ := h
  unfold fragRun
  induction es using List.reverseRecOn with
  | nil => refine ⟨?_, ?_, ?_⟩ <;> simp
  | append_singleton es e ih =>
    rw [List.foldl_append]
    exact fragStep_ok6 cfg ih e

/-- An IPv6 packet in fragments from one tunnel. -/
structure Datagram6 extends Fragments piece6 IP6FLEN where
  tunnel : ℕ
  same : ∀ b ∈ first :: rest, fragKey6 (some tunnel) b = fragKey6 (some tunnel) first
  total : ((first :: rest).map (List.drop IP6FLEN)).flatten.length ≤ IPMAXLEN

def Datagram6.key (d : Datagram6) : Option ℕ × UInt8 × Buf := fragKey6 (some d.tunnel) d.first

/-- The IPv6 queue holds `got` of the datagram, in one head more than `base`. -/
structure Holds6 (d : Datagram6) (base st : Frags) (got : List Buf) : Prop where
  ok : Frags6Ok st
  tracks : Tracks d.toFragments (·.key6 = d.key) st.frags6 got
  cnt : st.frags6cnt = base.frags6cnt + if got = [] then 0 else 1
  tncnt : st.frg6cnt d.tunnel = base.frg6cnt d.tunnel + if got = [] then 0 else 1

theorem piece6_off (b : Buf) : (piece6 b).off % 8 = 0 := by
  simp only [piece6, IP6FMSK_toNat]
  omega

theorem Datagram6.whole6_spec {d : Datagram6} {base st : Frags} (hok : Frags6Ok st) {g : Frag}
    (hg : g ∈ st.frags6) (hk : g.key6 = d.key) {got : List Buf} (hgot : ∀ b ∈ got, b ∈ d.frags)
    (hne : got ≠ []) (hc : Collects d.blocks (d.first.take IP6FLEN) g (got.map piece6))
    (hcnt : st.frags6cnt = base.frags6cnt + 1)
    (htn : st.frg6cnt d.tunnel = base.frg6cnt d.tunnel + 1) :
    Holds6 d base (whole6 st g).1 (if ∀ b ∈ d.frags, b ∈ got then [] else got) ∧
    (whole6 st g).2 = if ∀ b ∈ d.frags, b ∈ got then
      some (rebuild6 (d.first.take IP6FLEN) (cut 0 d.blocks) d.payload.length) else none := by
  have hblocks : d.blocks ≠ [] := by simp [Fragments.blocks, Fragments.frags]
  by_cases hall : ∀ b ∈ d.frags, b ∈ got
  · obtain ⟨hoff, hbuf, hjoin, hdata⟩ :=
      hc.whole d.blocks_ne hblocks ((d.all_iff hgot).mpr hall)
    have htot : d.blocks.flatten.length ≤ IPMAXLEN := d.total
    have hlen : ¬ d.blocks.flatten.length > IPMAXLEN := by omega
    have hres : whole6 st g =
        (delFrag6 g st, some (rebuild6 g.buf g.fraglist d.blocks.flatten.length)) := by
      simp only [whole6, hoff, hjoin, hlen, ne_eq, not_true_eq_false, if_false]
    rw [hres, if_pos hall, if_pos hall]
    refine ⟨⟨delFrag6_ok hok g, Tracks.empty fun f hf hfk => ?_, ?_, ?_⟩, ?_⟩
    · obtain ⟨hf, hptr⟩ := (mem_delFrag6 g f st).mp hf
      exact hptr (by rw [hok.keys f hf g hg (hfk.trans hk.symm)])
    · simp [delFrag6, hcnt]
    · have htun : g.tunnel = some d.tunnel := congrArg Prod.fst hk
      simp [delFrag6, htun, htn]
    · simp only [hbuf, rebuild6, hdata, cut_data]
      rfl
  · have hjoin := hc.missing d.blocks_ne hblocks fun hy => hall ((d.all_iff hgot).mp hy)
    have hres : whole6 st g = (st, none) := by simp only [whole6, hjoin, ite_self]
    rw [hres, if_neg hall, if_neg hall]
    refine ⟨⟨hok, Tracks.of_head hall hgot hne
      (fun f hf hfk => hok.keys f hf g hg (hfk.trans hk.symm)) ⟨hg, hk⟩ hc, ?_, ?_⟩, rfl⟩
    · simp [hcnt, hne]
    · simp [htn, hne]

theorem Holds6.defrag6_ours {d : Datagram6} {base st : Frags} {got : List Buf}
    (h : Holds6 d base st got) (cfg : FragConf) {env : Env} {buf : Buf} (hb : buf ∈ d.frags)
    (hroom : base.frags6cnt + 1 < cfg.maxcnt6 ∧ base.frg6cnt d.tunnel + 1 < cfg.tnmaxcnt6)
    (hmem : ∀ k, env.mem k = true) :
    Holds6 d base (defrag6 cfg env d.tunnel buf st).1
      (if ∀ b ∈ d.frags, b ∈ buf :: got then [] else buf :: got) ∧
    (defrag6 cfg env d.tunnel buf st).2 = if ∀ b ∈ d.frags, b ∈ buf :: got then
      some (rebuild6 (d.first.take IP6FLEN) (cut 0 d.blocks) d.payload.length) else none := by
  have hkey : fragKey6 (some d.tunnel) buf = d.key := d.same buf hb
  have hfew : tooMany6 cfg st d.tunnel = false := by
    have h1 := h.cnt
    have h2 := h.tncnt
    have hle : (if got = [] then 0 else 1) ≤ 1 := by split <;> omega
    simp only [tooMany6, Bool.or_eq_false_iff, decide_eq_false_iff_not]
    omega
  obtain ⟨⟨st', f⟩, hf⟩ : ∃ r, fragHead6 cfg env d.tunnel buf (piece6 buf) st = some r := by
    unfold fragHead6
    simp only [hmem]
    split
    · exact ⟨_, rfl⟩
    · exact ⟨_, rfl⟩
  have height := d.more_eight piece6_off hb
  have hdef : defrag6 cfg env d.tunnel buf st = addFrag6 env buf (piece6 buf) st' f := by
    simp only [defrag6, hfew, height, hf]
    simp
  obtain ⟨hok', hfm, hfk, hcases⟩ := fragHead6_spec h.ok cfg env d.tunnel buf _ hf
  rw [hkey] at hfk hcases
  have hhead : (∃ g ∈ st.frags6, g.key6 = d.key ∧ f.fraglist = g.fraglist ∧ f.off = g.off ∧
        f.buf = g.buf) ∨
      ((∀ g ∈ st.frags6, ¬ g.key6 = d.key) ∧ f.fraglist = [] ∧ f.off = (piece6 buf).off ∧
        f.buf = buf.take IP6FLEN) := by
    rcases hcases with ⟨hold, -⟩ | ⟨hno, hnew⟩
    · exact .inl ⟨f, hold, hfk, rfl, rfl, rfl⟩
    · obtain rfl : _ = f := congrArg Prod.snd hnew
      exact .inr ⟨hno, rfl, rfl, rfl⟩
  have hcnt : st'.frags6cnt = base.frags6cnt + 1 ∧
      st'.frg6cnt d.tunnel = base.frg6cnt d.tunnel + 1 := by
    rcases hcases with ⟨hold, rfl⟩ | ⟨hno, hnew⟩
    · have hne : got ≠ [] := fun hnil => h.tracks.none_iff.mpr hnil f hold hfk
      have h1 := h.cnt
      have h2 := h.tncnt
      rw [if_neg hne] at h1 h2
      exact ⟨h1, h2⟩
    · have hnil : got = [] := h.tracks.none_iff.mp hno
      have h1 := h.cnt
      have h2 := h.tncnt
      rw [if_pos hnil] at h1 h2
      obtain rfl : _ = st' := congrArg Prod.fst hnew
      simp [newFrag6, h1, h2]
  have hfrags : ∀ b ∈ buf :: got, b ∈ d.frags := by
    intro b hbm
    rcases List.mem_cons.mp hbm with rfl | hbm
    · exact hb
    · exact h.tracks.frags b hbm
  rw [hdef]
  rcases h.tracks.place hb hhead with ⟨hin, hpl, hc⟩ | ⟨hin, l, hpl, hc⟩
  · have hres : addFrag6 env buf (piece6 buf) st' f = (st', none) := by simp only [addFrag6, hpl]
    have hmiss := h.tracks.not_all hin
    rw [hres, if_neg hmiss, if_neg hmiss]
    exact ⟨⟨hok', Tracks.of_head hmiss hfrags (by simp)
      (fun g hg hgk => hok'.keys g hg f hfm (hgk.trans hfk.symm)) ⟨hfm, hfk⟩ hc,
      by simp [hcnt.1], by simp [hcnt.2]⟩, rfl⟩
  · have hk := Frag.add_key6 (hfk.trans hkey.symm) (piece6 buf) l
    obtain ⟨hok2, hmem2⟩ := @setFrag6_ok st' hok' f (f.add (buf.take IP6FLEN) (piece6 buf) l)
      hfm (by simp) (hk.trans (hfk.trans hkey.symm).symm)
    have hres : addFrag6 env buf (piece6 buf) st' f =
        whole6 (st'.setFrag6 (f.add (buf.take IP6FLEN) (piece6 buf) l))
          (f.add (buf.take IP6FLEN) (piece6 buf) l) := by
      simp only [addFrag6, hpl, hmem]
      simp
    rw [hres]
    exact d.whole6_spec hok2 hmem2 (hk.trans hkey) hfrags (by simp) hc hcnt.1 hcnt.2

/-- Feed packets to `defrag6` one after the other. -/
def feed6 (cfg : FragConf) (t : ℕ) : Frags → List (Env × Buf) → Frags × List (Option Buf)
  | st, [] => (st, [])
  | st, (env, buf6) :: calls =>
    let (st, r) := defrag6 cfg env t buf6 st
    let (st, rs) := feed6 cfg t st calls
    (st, r :: rs)

/-- The fragments in any order: only the last call gives the packet back. -/
theorem Holds6.feed {d : Datagram6} {base st : Frags} {got : List Buf}
    (h : Holds6 d base st got) (cfg : FragConf) (calls : List (Env × Buf))
    (hperm : (got ++ calls.map Prod.snd).Perm d.frags) (hne : calls ≠ [])
    (hroom : base.frags6cnt + 1 < cfg.maxcnt6 ∧ base.frg6cnt d.tunnel + 1 < cfg.tnmaxcnt6)
    (hmem : ∀ c ∈ calls, ∀ k, c.1.mem k = true) :
    (feed6 cfg d.tunnel st calls).2 = List.replicate (calls.length - 1) none ++
      [some (rebuild6 (d.first.take IP6FLEN) (cut 0 d.blocks) d.payload.length)] ∧
    ∀ f ∈ (feed6 cfg d.tunnel st calls).1.frags6, f.key6 ≠ d.key := by
  induction calls generalizing st got with
  | nil => exact absurd rfl hne
  | cons c calls ih =>
    obtain ⟨env, buf⟩ := c
    have hb : buf ∈ d.frags := hperm.subset (by simp)
    obtain ⟨hnext, hres⟩ := h.defrag6_ours cfg hb hroom (hmem _ (List.mem_cons_self ..))
    have hnd : (got ++ buf :: calls.map Prod.snd).Nodup := by
      refine hperm.nodup_iff.mpr (List.Nodup.of_map piece6 ?_)
      rw [d.map_piece]
      exact cut_nodup d.blocks_ne
    simp only [feed6]
    cases calls with
    | nil =>
      have hall : ∀ b ∈ d.frags, b ∈ buf :: got := fun b hbm => by
        simpa [or_comm] using hperm.symm.subset hbm
      rw [if_pos hall] at hnext hres
      simp only [feed6, hres]
      exact ⟨rfl, hnext.tracks.none_iff.mpr rfl⟩
    | cons c' calls =>
      have hmiss : ¬ ∀ b ∈ d.frags, b ∈ buf :: got := by
        intro hall
        have hc' : c'.2 ∈ d.frags := hperm.subset (by simp)
        have := hall _ hc'
        simp only [List.map_cons, List.nodup_append, List.nodup_cons, List.mem_cons] at hnd
        rcases List.mem_cons.mp this with heq | hg
        · exact hnd.2.1.1 (.inl heq.symm)
        · exact hnd.2.2 _ hg _ (.inr (.inl rfl)) rfl
      rw [if_neg hmiss] at hnext hres
      have hperm' : ((buf :: got) ++ (c' :: calls).map Prod.snd).Perm d.frags :=
        List.perm_middle.symm.trans hperm
      obtain ⟨hrs, hno⟩ := ih hnext hperm' (by simp)
        fun c hc => hmem c (List.mem_cons_of_mem _ hc)
      simp only [hres, hrs]
      exact ⟨by simp [List.replicate_succ], hno⟩

end WanStack.Aftr
