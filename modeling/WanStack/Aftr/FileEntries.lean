import WanStack.Lib.Cursor
import WanStack.Aftr.Sessions

set_option autoImplicit false

/-!
# Entries of the file

The generations on the chain of the configuration, over reloads, sliced
collections and sliced backtracking. An entry whose generation is not that of
the last load is one that a reload has not read yet, or one a collector has
still ahead of it.
-/
namespace WanStack.Aftr
open SearchTree Relation

/-- The entries that `gc_incr` has still to pass. -/
def Control.gcAhead (c : Control) : List NatEntry := Cursor.ahead NatEntry.ptr c.gcPtr c.confnats

/-- The entries that `bt_incr` has still to pass. -/
def Control.btAhead (c : Control) : List NatEntry := Cursor.ahead NatEntry.ptr c.btPtr c.confnats

/-- How boot, batches, reloads and collections exclude each other. -/
structure Phases (c : Control) : Prop where
  cur : c.curgen < FIRSTGEN ∨ (c.booting = true ∨ c.reloading = true) ∧ c.curgen = c.lastgen
  batch : ∀ sid g, c.batch = some (sid, g) → g < FIRSTGEN
  busy : c.booting = true ∨ c.reloading = true → c.needgc ≤ 1 ∧ c.gcPtr = none ∧ c.needbt = 0
  saved : c.reloading = true → c.lastgen = c.reloadSavedgen + 1
  gc : c.needgc = 0 → c.gcPtr = none
  bt : c.needbt = 0 → c.btPtr = none
  gcStart : 1 < c.needgc → c.gcPtr = none
  btStart : 1 < c.needbt → c.btPtr = none
  apart : c.needbt ≠ 0 → c.needgc ≤ 1 ∧ c.gcPtr = none

/-- The generation of the last load, or of a reload that has not come to the
    entry, or one that a collector will come to; below `FIRSTGEN` the entry is
    in the hands of a session. -/
def FileGen (gen : ℕ → ℕ) (c : Control) (x : NatEntry) : Prop :=
  gen x.ptr < FIRSTGEN ∨ gen x.ptr = c.lastgen ∨
    (c.reloading = true ∧ gen x.ptr = c.reloadSavedgen) ∨
    (gen x.ptr < c.lastgen ∧ (1 < c.needgc ∨ x ∈ c.gcAhead)) ∨
    (gen x.ptr = c.lastgen + 1 ∧ (1 < c.needbt ∨ x ∈ c.btAhead))

structure Filed (gen : ℕ → ℕ) (c : Control) : Prop where
  nodup : (c.confnats.map NatEntry.ptr).Nodup
  apart : ∀ x ∈ c.confnats, ∀ ss ∈ c.sessions, ∀ y ∈ ss.snats, x.ptr ≠ y.ptr
  orphans : ∀ ss ∈ c.sslist, ∀ ss' ∈ c.orphans, ss.id ≠ ss'.id
  snats : ∀ ss ∈ c.sslist, ∀ x ∈ ss.snats, gen x.ptr < FIRSTGEN
  file : ∀ x ∈ c.confnats, FileGen gen c x
  gcPtr : ∀ g, c.gcPtr = some g → g ∈ c.confnats
  btPtr : ∀ g, c.btPtr = some g → g ∈ c.confnats

/-- What every state of a run has. -/
structure FileInv (s : State) : Prop where
  names : Names s
  sess : SessOk s.ctl
  phases : Phases s.ctl
  filed : Filed s.nats.generation s.ctl
  heap : ∀ x ∈ s.nats.heap, x.flags.static = false
  chains : ∀ l ∈ s.ctl.chains, ∀ x ∈ l, x.flags.static = true

section
variable {cfg : Conf} {l : Leave} {s s' : State} {c c' : Control} {gen gen' : ℕ → ℕ}
  {n x : NatEntry}

/-! ### Removal from the chains -/

theorem listNext_eq (n : NatEntry) (l : List NatEntry) :
    listNext n l = Cursor.next NatEntry.ptr n l := rfl

theorem listRemove_confnats (n : NatEntry) (c : Control) :
    (c.listRemove n).confnats = Cursor.without NatEntry.ptr n c.confnats := rfl

theorem gcSeek_eq (s : State) : gcSeek s =
    s.ctl.gcAhead.find? fun n => Nats.staleGen s.ctl.lastgen (s.nats.generation n.ptr) := by
  unfold gcSeek Control.gcAhead
  cases s.ctl.gcPtr <;> rfl

/-- The cursor of a collector when `n` is deleted. -/
def Control.pass (c : Control) (n : NatEntry) (p : Option NatEntry) : Option NatEntry :=
  if p = some n then c.gchainNext n else p

theorem gchainNext_confnats (h : n ∈ c.confnats) : c.gchainNext n = listNext n c.confnats := by
  unfold Control.gchainNext Control.chains
  rw [List.find?_cons_of_pos]
  · rfl
  · exact List.any_eq_true.mpr ⟨n, h, decide_eq_true rfl⟩

theorem pass_mem (h : Filed gen c) {p : Option NatEntry} (hp : ∀ g, p = some g → g ∈ c.confnats)
    (hn : ∀ g ∈ c.confnats, g.ptr = n.ptr → g = n) :
    ∀ g, c.pass n p = some g → g ∈ Cursor.without NatEntry.ptr n c.confnats := by
  intro g hg
  unfold Control.pass at hg
  split at hg
  · rename_i hpn
    rw [gchainNext_confnats (hp n hpn)] at hg
    exact Cursor.next_mem h.nodup hg
  · rename_i hpn
    refine List.mem_filter.mpr ⟨hp g hg, decide_eq_true fun hgn => hpn ?_⟩
    rw [hg, hn g (hp g hg) hgn]

theorem ahead_pass (h : Filed gen c) {p : Option NatEntry} (hp : ∀ g, p = some g → g ∈ c.confnats)
    (hn : ∀ g ∈ c.confnats, g.ptr = n.ptr → g = n) (hx : x.ptr ≠ n.ptr)
    (hmem : x ∈ Cursor.ahead NatEntry.ptr p c.confnats) :
    x ∈ Cursor.ahead NatEntry.ptr (c.pass n p) (Cursor.without NatEntry.ptr n c.confnats) := by
  unfold Control.pass
  split
  · rename_i hpn
    rw [gchainNext_confnats (hp n hpn)]
    rw [hpn] at hmem
    exact (Cursor.ahead_next h.nodup hmem hx).2
  · rename_i hpn
    cases p with
    | none => cases hmem
    | some g =>
      refine Cursor.ahead_without hmem hx fun hgn => hpn ?_
      rw [hn g (hp g rfl) hgn]

/-- The sessions lose entries at most, and the chain of the configuration too. -/
theorem Filed.slim (h : Filed gen c) (hs : Slim c c') (hconf : c'.confnats.Sublist c.confnats)
    (hgen : ∀ ss ∈ c.sslist, ∀ x ∈ ss.snats, gen' x.ptr = gen x.ptr)
    (hfile : ∀ x ∈ c'.confnats, FileGen gen' c' x)
    (hgc : ∀ g, c'.gcPtr = some g → g ∈ c'.confnats)
    (hbt : ∀ g, c'.btPtr = some g → g ∈ c'.confnats) : Filed gen' c' where
  nodup := h.nodup.sublist (List.Sublist.map _ hconf)
  apart x hx ss hss y hy := by
    obtain ⟨u, hu, -, hsub⟩ := hs.sessions ss hss
    exact h.apart x (hconf.mem hx) u hu y (hsub hy)
  orphans ss hss ss' hss' := by
    obtain ⟨u, hu, hid, -⟩ := hs.sslist ss hss
    obtain ⟨u', hu', hid', -⟩ := hs.orphans ss' hss'
    rw [← hid, ← hid']
    exact h.orphans u hu u' hu'
  snats ss hss x hx := by
    obtain ⟨u, hu, -, -, hsub⟩ := hs.sslist ss hss
    rw [hgen u hu x (hsub hx)]
    exact h.snats u hu x (hsub hx)
  file := hfile
  gcPtr := hgc
  btPtr := hbt

/-- Nothing that bears on the generations changes but the cursors. -/
structure SameLoad (c c' : Control) : Prop where
  lastgen : c'.lastgen = c.lastgen
  reloading : c'.reloading = c.reloading
  saved : c'.reloadSavedgen = c.reloadSavedgen
  needgc : c'.needgc = c.needgc
  needbt : c'.needbt = c.needbt

theorem FileGen.same (h : FileGen gen c x) (hl : SameLoad c c') (hgen : gen' x.ptr = gen x.ptr)
    (hgc : x ∈ c.gcAhead → x ∈ c'.gcAhead) (hbt : x ∈ c.btAhead → x ∈ c'.btAhead) :
    FileGen gen' c' x := by
  unfold FileGen
  rw [hgen, hl.lastgen, hl.reloading, hl.saved, hl.needgc, hl.needbt]
  rcases h with h | h | h | ⟨h, hc⟩ | ⟨h, hc⟩
  · exact .inl h
  · exact .inr (.inl h)
  · exact .inr (.inr (.inl h))
  · exact .inr (.inr (.inr (.inl ⟨h, hc.imp_right hgc⟩)))
  · exact .inr (.inr (.inr (.inr ⟨h, hc.imp_right hbt⟩)))

/-- Work on the sessions and the batch. -/
theorem Filed.same (h : Filed gen c) (hs : SameSess c c') (hl : SameLoad c c')
    (hgc : c'.gcPtr = c.gcPtr) (hbt : c'.btPtr = c.btPtr) : Filed gen c' := by
  refine h.slim hs.slim (by rw [hs.confnats]) (fun _ _ _ _ => rfl) (fun x hx => ?_)
    (fun g hg => ?_) fun g hg => ?_
  · rw [hs.confnats] at hx
    refine (h.file x hx).same hl rfl (fun hx => ?_) fun hx => ?_
    · unfold Control.gcAhead
      rw [hgc, hs.confnats]
      exact hx
    · unfold Control.btAhead
      rw [hbt, hs.confnats]
      exact hx
  · rw [hs.confnats]
    exact h.gcPtr g (hgc ▸ hg)
  · rw [hs.confnats]
    exact h.btPtr g (hbt ▸ hg)

theorem Filed.generation (h : Filed gen c) (hgen : ∀ l ∈ c.chains, ∀ x ∈ l, gen' x.ptr = gen x.ptr) :
    Filed gen' c := by
  refine h.slim (.same rfl rfl) (.refl _) (fun ss hss x hx => ?_) (fun x hx => ?_) h.gcPtr h.btPtr
  · exact hgen _ (mem_chains.mpr (.inr (.inl ⟨ss, hss, rfl⟩))) x hx
  · exact (h.file x hx).same ⟨rfl, rfl, rfl, rfl, rfl⟩
      (hgen _ (mem_chains.mpr (.inl rfl)) x hx) id id

theorem without_mem {l : List NatEntry} (h : x ∈ Cursor.without NatEntry.ptr n l) :
    x ∈ l ∧ x.ptr ≠ n.ptr :=
  ⟨(List.mem_filter.mp h).1, of_decide_eq_true (List.mem_filter.mp h).2⟩

/-- An entry leaves its chain; the cursors on it move on. -/
theorem Filed.unchain (h : Filed gen c) (hn : ∀ g ∈ c.confnats, g.ptr = n.ptr → g = n) :
    Filed gen (c.unchain n) := by
  unfold Control.unchain
  split
  swap
  · exact h
  have hslim : Slim c ({ c with
      gcPtr := c.pass n c.gcPtr
      btPtr := c.pass n c.btPtr }.listRemove n) :=
    (Slim.same rfl rfl : Slim c { c with
      gcPtr := c.pass n c.gcPtr, btPtr := c.pass n c.btPtr }).trans (.listRemove n)
  refine h.slim hslim List.filter_sublist (fun _ _ _ _ => rfl) (fun x hx => ?_)
    (pass_mem h h.gcPtr hn) (pass_mem h h.btPtr hn)
  obtain ⟨hx, hne⟩ := without_mem hx
  exact (h.file x hx).same ⟨rfl, rfl, rfl, rfl, rfl⟩ rfl (ahead_pass h h.gcPtr hn hne)
    (ahead_pass h h.btPtr hn hne)

theorem mem_sessions {P : NatEntry → Prop} (h : ∀ l ∈ c.chains, ∀ x ∈ l, P x) :
    ∀ ss ∈ c.sessions, ∀ x ∈ ss.snats, P x := by
  intro ss hss
  rcases List.mem_append.mp hss with hss | hss
  · exact h _ (mem_chains.mpr (.inr (.inl ⟨ss, hss, rfl⟩)))
  · exact h _ (mem_chains.mpr (.inr (.inr ⟨ss, hss, rfl⟩)))

/-- An entry is put on the chain of the configuration while no collector is at
    work there. -/
theorem Filed.cons (h : Filed gen c) (hgc : c.gcPtr = none) (hbt : c.btPtr = none)
    (hoff : ∀ l ∈ c.chains, ∀ x ∈ l, x.ptr ≠ n.ptr)
    (hn : gen n.ptr < FIRSTGEN ∨ gen n.ptr = c.lastgen) :
    Filed gen { c with confnats := n :: c.confnats } where
  nodup := by
    refine List.nodup_cons.mpr ⟨fun hmem => ?_, h.nodup⟩
    obtain ⟨x, hx, hxn⟩ := List.mem_map.mp hmem
    exact hoff _ (mem_chains.mpr (.inl rfl)) x hx hxn
  apart x hx ss hss y hy := by
    rcases List.mem_cons.mp hx with rfl | hx
    · exact (mem_sessions hoff ss hss y hy).symm
    · exact h.apart x hx ss hss y hy
  orphans := h.orphans
  snats := h.snats
  file x hx := by
    rcases List.mem_cons.mp hx with rfl | hx
    · exact hn.imp_right .inl
    · refine (h.file x hx).same ⟨rfl, rfl, rfl, rfl, rfl⟩ rfl (fun hx => ?_) fun hx => ?_
      · rw [Control.gcAhead, hgc] at hx
        cases hx
      · rw [Control.btAhead, hbt] at hx
        cases hx
  gcPtr g hg := by
    rw [show _ = c.gcPtr from rfl, hgc] at hg
    cases hg
  btPtr g hg := by
    rw [show _ = c.btPtr from rfl, hbt] at hg
    cases hg

theorem Phases.idle (h : Phases c) (hb : c.booting = true ∨ c.reloading = true) :
    c.gcPtr = none ∧ c.btPtr = none := by
  obtain ⟨-, hgc, hbt⟩ := h.busy hb
  exact ⟨hgc, h.bt hbt⟩

/-- A new entry of a session, or of the file while the cursors are unused. -/
theorem Filed.addSnat (h : Filed gen c) (hp : Phases c) {sid : ℕ}
    (hoff : ∀ l ∈ c.chains, ∀ x ∈ l, x.ptr ≠ n.ptr) :
    Filed (Function.update gen n.ptr c.curgen) (c.addSnat sid n) := by
  have hold : Filed (Function.update gen n.ptr c.curgen) c :=
    h.generation fun l hl x hx => Function.update_of_ne (hoff l hl x hx) _ _
  by_cases hgen : c.curgen < FIRSTGEN
  · rw [addSnat_session hgen]
    refine ⟨hold.nodup, fun x hx ss hss y hy => ?_, fun ss hss ss' hss' => ?_, fun ss hss x hx => ?_,
      hold.file, hold.gcPtr, hold.btPtr⟩
    · rcases List.mem_append.mp hss with hss | hss
      · obtain ⟨u, hu, rfl⟩ := List.mem_map.mp hss
        rcases mem_putSnat hy with ⟨rfl, -⟩ | hy
        · exact hoff _ (mem_chains.mpr (.inl rfl)) x hx
        · exact h.apart x hx u (List.mem_append_left _ hu) y hy
      · exact h.apart x hx ss (List.mem_append_right _ hss) y hy
    · obtain ⟨u, hu, rfl⟩ := List.mem_map.mp hss
      rw [putSnat_id]
      exact h.orphans u hu ss' hss'
    · obtain ⟨u, hu, rfl⟩ := List.mem_map.mp hss
      rcases mem_putSnat hx with ⟨rfl, -⟩ | hx
      · rw [Function.update_self]
        exact hgen
      · exact hold.snats u hu x hx
  · rw [addSnat_file hgen]
    obtain ⟨hbusy, hcur⟩ := hp.cur.resolve_left hgen
    obtain ⟨hgc, hbt⟩ := hp.idle hbusy
    refine hold.cons hgc hbt hoff (.inr ?_)
    rw [Function.update_self]
    exact hcur

/-- A line takes the entry `n` over, from a session or from the last load. -/
theorem Filed.take (h : Filed gen c) (hp : Phases c) (hr : c.reloading = true) (n : NatEntry) :
    Filed (Function.update gen n.ptr c.curgen)
      (if gen n.ptr ≤ FIRSTGEN then c.promote n else c) := by
  obtain ⟨hgc, hbt⟩ := hp.idle (.inr hr)
  have hcur : c.curgen < FIRSTGEN ∨ c.curgen = c.lastgen := hp.cur.imp_right And.right
  split
  · -- off its chain, and on that of the configuration
    set c₁ : Control := if c.onChain n then c.listRemove n else c with hc₁
    have hprom : c.promote n = { c₁ with confnats := n :: c₁.confnats } := rfl
    have hslim : Slim c c₁ := by
      rw [hc₁]
      split
      · exact .listRemove n
      · exact .same rfl rfl
    have hsub : c₁.confnats.Sublist c.confnats := by
      rw [hc₁]
      split
      · exact List.filter_sublist
      · exact .refl _
    have hoff : ∀ l ∈ c₁.chains, ∀ x ∈ l, x.ptr ≠ n.ptr := by
      rw [hc₁]
      split
      · exact fun l hl x hx => (chains_listRemove hl hx).1
      · rename_i hoff
        exact fun l hl x hx hxn => hoff
          (List.any_eq_true.mpr ⟨l, hl, List.any_eq_true.mpr ⟨x, hx, decide_eq_true hxn⟩⟩)
    have hload : SameLoad c c₁ ∧ c₁.gcPtr = c.gcPtr ∧ c₁.btPtr = c.btPtr := by
      rw [hc₁]
      split <;> exact ⟨⟨rfl, rfl, rfl, rfl, rfl⟩, rfl, rfl⟩
    obtain ⟨hload, hgc', hbt'⟩ := hload
    rw [← hgc'] at hgc
    rw [← hbt'] at hbt
    have h₁ : Filed gen c₁ := by
      refine h.slim hslim hsub (fun _ _ _ _ => rfl) (fun x hx => ?_) (fun g hg => ?_) fun g hg => ?_
      · refine (h.file x (hsub.mem hx)).same hload rfl (fun hx => ?_) fun hx => ?_
        · rw [Control.gcAhead, ← hgc', hgc] at hx
          cases hx
        · rw [Control.btAhead, ← hbt', hbt] at hx
          cases hx
      · rw [hgc] at hg
        cases hg
      · rw [hbt] at hg
        cases hg
    have h₂ : Filed (Function.update gen n.ptr c.curgen) c₁ :=
      h₁.generation fun l hl x hx => Function.update_of_ne (hoff l hl x hx) _ _
    rw [hprom]
    refine h₂.cons hgc hbt hoff ?_
    rw [Function.update_self, hload.lastgen]
    exact hcur
  · rename_i hfile
    refine h.slim (.same rfl rfl) (.refl _) (fun ss hss x hx => ?_) (fun x hx => ?_) h.gcPtr h.btPtr
    · refine Function.update_of_ne (fun hxn => hfile ?_) _ _
      have := h.snats ss hss x hx
      rw [hxn] at this
      omega
    · by_cases hxn : x.ptr = n.ptr
      · unfold FileGen
        rw [hxn, Function.update_self]
        exact hcur.imp_right .inl
      · exact (h.file x hx).same ⟨rfl, rfl, rfl, rfl, rfl⟩ (Function.update_of_ne hxn _ _) id id

/-! ### Changes -/

/-- What a change does to the static entries. -/
theorem Change.filing (h : Change cfg l s s') :
    s'.ctl = s.ctl ∧ (∀ p < s.nats.next, s'.nats.generation p = s.nats.generation p) ∧
        (∀ x ∈ s'.nats.heap, x ∈ s.nats.heap ∨ x.flags.static = false) ∨
    (∃ sid n, n.ptr = s.nats.next ∧ n.flags.static = true ∧ s'.nats.heap = s.nats.heap ∧
      s'.ctl = s.ctl.addSnat sid n ∧
      s'.nats.generation = Function.update s.nats.generation n.ptr s.ctl.curgen) ∨
    (∃ n, l.takes = true ∧ Known s n ∧ n.flags.static = true ∧ s'.nats.heap = s.nats.heap ∧
      s'.ctl = (if s.nats.generation n.ptr ≤ FIRSTGEN then s.ctl.promote n else s.ctl) ∧
      s'.nats.generation = Function.update s.nats.generation n.ptr s.ctl.curgen) ∨
    ∃ n seconds, l.deletes = true ∧ Known s n ∧ s' = delNat cfg seconds n s := by
  have hsame (h : s'.ctl = s.ctl) (hg : s'.nats.generation = s.nats.generation)
      (hh : s'.nats.heap = s.nats.heap) : s'.ctl = s.ctl ∧
        (∀ p < s.nats.next, s'.nats.generation p = s.nats.generation p) ∧
        (∀ x ∈ s'.nats.heap, x ∈ s.nats.heap ∨ x.flags.static = false) :=
    ⟨h, fun p _ => by rw [hg], fun x hx => .inl (hh ▸ hx)⟩
  cases h with
  | @unlinked n nats hp h =>
    obtain ⟨hheap, -, hg⟩ := link_chains h
    exact .inl (hsame rfl hg hheap)
  | @link n nats hl hp h hflags p =>
    obtain ⟨hheap, -, hg⟩ := link_chains h
    refine .inl ⟨rfl, fun p _ => congrFun hg p, fun x hx => ?_⟩
    rcases List.mem_cons.mp hx with rfl | hx
    · exact .inr hflags
    · exact .inl (hheap ▸ hx)
  | @static n nats sid hl hp h hflags =>
    obtain ⟨hheap, -, hg⟩ := link_chains h
    exact .inr (.inl ⟨sid, n, hp, hflags, hheap, rfl, congrArg (Function.update · n.ptr _) hg⟩)
  | @take key n hl hkey hk hall =>
    refine .inr (.inr (.inl ⟨n, hl, .of_splay hk, ?_, rfl, rfl, rfl⟩))
    simp only [natTreeCompareAll, Bool.and_eq_true, decide_eq_true_eq] at hall
    rw [hall.1.1.1.1.1.1.2]
    exact hkey
  | @del n hl hk seconds => exact .inr (.inr (.inr ⟨n, seconds, hl, hk, rfl⟩))
  | resizeNat up rnd =>
    have h : (resizeNatHash up rnd s.nats).generation = s.nats.generation ∧
        (resizeNatHash up rnd s.nats).heap = s.nats.heap := by
      rcases resizeNatHash_cases up rnd s.nats with h | ⟨sz, -, h⟩ <;> rw [h] <;> exact ⟨rfl, rfl⟩
    exact .inl (hsame rfl h.1 h.2)
  | _ => exact .inl (hsame rfl rfl rfl)

theorem SameGens.phases {c c' : Control} (h : SameGens c c') (hp : Phases c)
    (hbt : c'.needbt = c.needbt) (hgcPtr : c.gcPtr = none → c'.gcPtr = none)
    (hbtPtr : c.btPtr = none → c'.btPtr = none) : Phases c' where
  cur := by
    rw [h.curgen, h.booting, h.reloading, h.lastgen]
    exact hp.cur
  batch sid g hb := hp.batch sid g (h.batch ▸ hb)
  busy hb := by
    rw [h.booting, h.reloading] at hb
    obtain ⟨hgc, hptr, hbt'⟩ := hp.busy hb
    exact ⟨h.needgc ▸ hgc, hgcPtr hptr, hbt ▸ hbt'⟩
  saved hr := by
    rw [h.reloading] at hr
    rw [h.lastgen, h.savedgen]
    exact hp.saved hr
  gc h0 := hgcPtr (hp.gc (h.needgc ▸ h0))
  bt h0 := hbtPtr (hp.bt (hbt ▸ h0))
  gcStart h1 := hgcPtr (hp.gcStart (h.needgc ▸ h1))
  btStart h1 := hbtPtr (hp.btStart (hbt ▸ h1))
  apart h0 := by
    obtain ⟨hgc, hptr⟩ := hp.apart (hbt ▸ h0)
    exact ⟨h.needgc ▸ hgc, hgcPtr hptr⟩

/-- A cursor that is not in use stays so. -/
theorem Change.cursors (h : Change cfg l s s') : s'.ctl.needbt = s.ctl.needbt ∧
    (s.ctl.gcPtr = none → s'.ctl.gcPtr = none) ∧ (s.ctl.btPtr = none → s'.ctl.btPtr = none) := by
  rcases h.filing with ⟨h, -⟩ | ⟨sid, n, -, -, -, h, -⟩ | ⟨n, -, -, -, -, h, -⟩ | ⟨n, seconds, -, -, h⟩
  · rw [h]
    exact ⟨rfl, id, id⟩
  · rw [h]
    unfold Control.addSnat
    split <;> exact ⟨rfl, id, id⟩
  · rw [h]
    split
    · unfold Control.promote
      split <;> exact ⟨rfl, id, id⟩
    · exact ⟨rfl, id, id⟩
  · have hctl : s'.ctl = s.ctl.unchain n := by rw [h]; rfl
    rw [hctl]
    unfold Control.unchain
    split
    · refine ⟨rfl, fun h0 => ?_, fun h0 => ?_⟩
      · simp only [Control.listRemove, h0, reduceCtorEq, if_false]
      · simp only [Control.listRemove, h0, reduceCtorEq, if_false]
    · exact ⟨rfl, id, id⟩

theorem Change.phases (h : Change cfg l s s') (hp : Phases s.ctl) : Phases s'.ctl := by
  obtain ⟨hbt, hgcPtr, hbtPtr⟩ := h.cursors
  exact h.scalars.phases hp hbt hgcPtr hbtPtr

/-- Only a reload takes entries over. -/
theorem Change.fileInv (h : Change cfg l s s') (hi : FileInv s)
    (ht : l.takes = true → s.ctl.reloading = true) : FileInv s' := by
  have hn := h.names hi.names
  have hs := h.sessOk hi.names hi.sess
  have hp := h.phases hi.phases
  have hlt : ∀ l ∈ s.ctl.chains, ∀ x ∈ l, x.ptr < s.nats.next :=
    fun l hl x hx => hi.names.fresh x (.of_chain hl hx)
  rcases h.filing with ⟨h, hg, hh⟩ | ⟨sid, n, hptr, hst, hh, h, hg⟩ |
    ⟨n, hl, hk, hst, hh, h, hg⟩ | ⟨n, seconds, -, hk, h⟩
  · refine ⟨hn, hs, hp, ?_, fun x hx => ?_, ?_⟩
    · rw [h]
      exact hi.filed.generation fun l hl x hx => hg _ (hlt l hl x hx)
    · rcases hh x hx with hx | hx
      · exact hi.heap x hx
      · exact hx
    · rw [h]
      exact hi.chains
  · have hoff : ∀ l ∈ s.ctl.chains, ∀ x ∈ l, x.ptr ≠ n.ptr := by
      intro l hl x hx
      have := hlt l hl x hx
      omega
    refine ⟨hn, hs, hp, ?_, fun x hx => hi.heap x (hh ▸ hx), ?_⟩
    · rw [h, hg]
      exact hi.filed.addSnat hi.phases hoff
    · rw [h]
      intro l hl x hx
      rcases chains_addSnat hl hx with rfl | ⟨l', hl', hx⟩
      · exact hst
      · exact hi.chains l' hl' x hx
  · refine ⟨hn, hs, hp, ?_, fun x hx => hi.heap x (hh ▸ hx), ?_⟩
    · rw [h, hg]
      exact hi.filed.take hi.phases (ht hl) n
    · rw [h]
      intro l hl x hx
      split at hl
      · rcases chains_promote hl hx with rfl | ⟨l', hl', hx⟩
        · exact hst
        · exact hi.chains l' hl' x hx
      · exact hi.chains l hl x hx
  · subst h
    have hctl : (delNat cfg seconds n s).ctl = s.ctl.unchain n := rfl
    refine ⟨hn, hs, hp, ?_, fun x hx => ?_, ?_⟩
    · rw [delNat_generation, hctl]
      refine hi.filed.unchain fun g hg hgn => ?_
      exact hi.names.inj g n (.of_chain (mem_chains.mpr (.inl rfl)) hg) hk hgn
    · rw [(delNat_rest ..).2.2.2.2.1] at hx
      exact hi.heap x (List.mem_filter.mp hx).1
    · intro l hl x hx
      obtain ⟨-, l', hl', hx⟩ := chains_unchain hl hx
      exact hi.chains l' hl' x hx

theorem Changes.fileInv (h : Changes cfg l s s') (hi : FileInv s)
    (ht : l.takes = true → s.ctl.reloading = true) : FileInv s' := by
  refine (h.keep (P := fun a => FileInv a ∧ a.ctl.reloading = s.ctl.reloading) ⟨hi, rfl⟩
    fun a b hab ha => ⟨hab.fileInv ha.1 fun hl => ha.2.trans (ht hl), ?_⟩).1
  exact hab.scalars.reloading.trans ha.2

end

end WanStack.Aftr
