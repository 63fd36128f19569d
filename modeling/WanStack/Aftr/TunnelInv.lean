import WanStack.Aftr.System

set_option autoImplicit false

/-!
# Invariants of the tunnel tables

The radix tree, its one entry hash slots and the list of no-NAT tunnels, over
everything that is done to them.
-/
namespace WanStack.Aftr
open Radix

namespace Tunnels

/-- The tunnels of the tree. -/
def live (s : Tunnels) : List Tunnel := values s.tree

structure Ok (s : Tunnels) : Prop where
  wf : ∀ u ∈ s.tree, WellFormed Tunnel.remote bitAt MAXTUNBIT 0 u
  nodup : (s.live.map Tunnel.ptr).Nodup
  lt : ∀ t ∈ s.live, t.ptr < s.next
  size : 0 < s.tunhashsz
  cached : ∀ h t, s.tunhash h = some t → t ∈ s.live ∧ s.hash t.ptr = h ∧ h = s.slot t.remote
  nonats : ∀ t ∈ s.nonats, t ∈ s.live
  nonat_iff : ∀ t ∈ s.live, (s.nonat t.ptr).isSome = true ↔ t ∈ s.nonats
  nonat_lt : ∀ p, (s.nonat p).isSome = true → p < s.next

/-- What the fields outside the tables do not change. -/
structure SameCore (s s' : Tunnels) : Prop where
  tree : s'.tree = s.tree
  tunhash : s'.tunhash = s.tunhash
  tunhashsz : s'.tunhashsz = s.tunhashsz
  tunhashrnd : s'.tunhashrnd = s.tunhashrnd
  hash : s'.hash = s.hash
  srcidx : s'.srcidx = s.srcidx
  nonat : s'.nonat = s.nonat
  nonats : s'.nonats = s.nonats
  next : s'.next = s.next

/-- A tunnel that was added, standard or no-NAT. -/
structure Added (s s' : Tunnels) (t : Tunnel) : Prop where
  insert : insert Tunnel.remote bitAt MAXTUNBIT t s.tree = (s'.tree, none)
  ptr : t.ptr = s.next
  tunhash : s'.tunhash = s.tunhash
  tunhashsz : s'.tunhashsz = s.tunhashsz
  tunhashrnd : s'.tunhashrnd = s.tunhashrnd
  hash : s'.hash = s.hash
  next : s'.next = s.next + 1
  kind : s'.nonat = s.nonat ∧ s'.nonats = s.nonats ∧
      (∃ i, s'.srcidx = Function.update s.srcidx t.ptr i) ∨
    (∃ a, s'.nonat = Function.update s.nonat t.ptr (some a)) ∧ s'.nonats = s.nonats ++ [t] ∧
      s'.srcidx = s.srcidx

inductive Grow : Tunnels → Tunnels → Prop where
  | field {s s' : Tunnels} (h : SameCore s s') : Grow s s'
  | lookup (s : Tunnels) (peer : Addr6) : Grow s (s.tunnelLookup peer).1
  | add {s s' : Tunnels} {t : Tunnel} (h : Added s s' t) : Grow s s'
  | resize (s : Tunnels) (up : Bool) (rnd : UInt32) : Grow s (resizeTunHash up rnd s)

theorem bitAt_inj (a b : Addr6) (h : ∀ i < MAXTUNBIT, bitAt a i = bitAt b i) : a = b :=
  BitVec.eq_of_getMsbD_eq fun i hi => h i hi

theorem slot_lt {s : Tunnels} (h : 0 < s.tunhashsz) (peer : Addr6) :
    s.slot peer < s.tunhashsz := by
  have : s.slot peer ≤ s.tunhashsz - 1 := Nat.and_le_right
  omega

theorem Ok.find_eq_some {s : Tunnels} (h : s.Ok) {peer : Addr6} {t : Tunnel} :
    s.tunnelTreeFind peer = some t ↔ t ∈ s.live ∧ t.remote = peer :=
  Radix.find_eq_some h.wf

theorem Ok.ptr_inj {s : Tunnels} (h : s.Ok) {t u : Tunnel} (ht : t ∈ s.live) (hu : u ∈ s.live)
    (heq : t.ptr = u.ptr) : t = u :=
  List.inj_on_of_nodup_map h.nodup ht hu heq

theorem tunnelLookup_cases (s : Tunnels) (peer : Addr6) :
    (∃ t, s.tunhash (s.slot peer) = some t ∧ t.remote = peer ∧
      s.tunnelLookup peer = (s, some t)) ∨
    (s.tunnelTreeFind peer = none ∧ s.tunnelLookup peer = (s, none)) ∨
    ∃ t, s.tunnelTreeFind peer = some t ∧ s.tunnelLookup peer = ({ s with
      hash := Function.update s.hash t.ptr (s.slot peer)
      tunhash := Function.update s.tunhash (s.slot peer) (some t) }, some t) := by
  simp only [tunnelLookup]
  cases hc : (s.tunhash (s.slot peer)).filter fun t => decide (peer = t.remote) with
  | some t =>
    obtain ⟨hslot, hp⟩ := Option.filter_eq_some_iff.mp hc
    exact .inl ⟨t, hslot, (of_decide_eq_true hp).symm, rfl⟩
  | none =>
    cases hf : s.tunnelTreeFind peer with
    | none => exact .inr (.inl ⟨rfl, rfl⟩)
    | some t => exact .inr (.inr ⟨t, rfl, rfl⟩)

/-- The hash slot never changes the answer of a lookup. -/
theorem Ok.tunnelLookup {s : Tunnels} (h : s.Ok) (peer : Addr6) :
    (s.tunnelLookup peer).2 = s.tunnelTreeFind peer := by
  rcases s.tunnelLookup_cases peer with ⟨t, hslot, hr, heq⟩ | ⟨hf, heq⟩ | ⟨t, hf, heq⟩
  · obtain ⟨hlive, -, -⟩ := h.cached _ _ hslot
    rw [heq, h.find_eq_some.mpr ⟨hlive, hr⟩]
  · rw [heq, hf]
  · rw [heq, hf]

theorem tunnelLookup_fst (s : Tunnels) (peer : Addr6) :
    (s.tunnelLookup peer).1 = s ∨ ∃ t, s.tunnelTreeFind peer = some t ∧
      (s.tunnelLookup peer).1 = { s with
        hash := Function.update s.hash t.ptr (s.slot peer)
        tunhash := Function.update s.tunhash (s.slot peer) (some t) } := by
  rcases s.tunnelLookup_cases peer with ⟨t, -, -, heq⟩ | ⟨-, heq⟩ | ⟨t, hf, heq⟩
  · exact .inl (by rw [heq])
  · exact .inl (by rw [heq])
  · exact .inr ⟨t, hf, by rw [heq]⟩

theorem Added.perm {s s' : Tunnels} {t : Tunnel} (h : Added s s' t) :
    s'.live.Perm (t :: s.live) := by
  have hins := h.insert
  have hfst : s'.tree = (Radix.insert Tunnel.remote bitAt MAXTUNBIT t s.tree).1 := by rw [hins]
  have hsnd : (Radix.insert Tunnel.remote bitAt MAXTUNBIT t s.tree).2 = none := by rw [hins]
  unfold live
  rw [hfst]
  cases htree : s.tree with
  | none => exact List.Perm.refl _
  | some u =>
    simp only [Radix.insert, htree] at hsnd ⊢
    cases hd : differ bitAt MAXTUNBIT t.remote (follow (bitAt t.remote) u).remote with
    | none => simp [hd] at hsnd
    | some d => exact perm_place _ d t u

theorem Ok.field {s s' : Tunnels} (hok : s.Ok) (h : SameCore s s') : s'.Ok where
  wf := by
    rw [h.tree]
    exact hok.wf
  nodup := by
    rw [live, h.tree]
    exact hok.nodup
  lt := by
    rw [live, h.tree, h.next]
    exact hok.lt
  size := by
    rw [h.tunhashsz]
    exact hok.size
  cached := by
    simp only [live, slot, h.tunhash, h.tree, h.hash, h.tunhashrnd, h.tunhashsz]
    exact hok.cached
  nonats := by
    simp only [live, h.tree, h.nonats]
    exact hok.nonats
  nonat_iff := by
    simp only [live, h.tree, h.nonats, h.nonat]
    exact hok.nonat_iff
  nonat_lt := by
    rw [h.nonat, h.next]
    exact hok.nonat_lt

theorem Ok.lookup {s : Tunnels} (hok : s.Ok) (peer : Addr6) : (s.tunnelLookup peer).1.Ok := by
  rcases tunnelLookup_fst s peer with heq | ⟨t, hf, heq⟩
  · rw [heq]
    exact hok
  obtain ⟨hlive, rfl⟩ := hok.find_eq_some.mp hf
  rw [heq]
  refine ⟨hok.wf, hok.nodup, hok.lt, hok.size, ?_, hok.nonats, hok.nonat_iff, hok.nonat_lt⟩
  intro k u hu
  simp only [Function.update_apply] at hu ⊢
  split at hu
  · rename_i hk
    obtain rfl := Option.some.inj hu
    exact ⟨hlive, by simp [hk], hk⟩
  · rename_i hk
    obtain ⟨hul, hhash, hslot⟩ := hok.cached k u hu
    refine ⟨hul, ?_, hslot⟩
    rw [if_neg]
    · exact hhash
    · -- the same tunnel would be in the same slot
      intro hptr
      obtain rfl := hok.ptr_inj hul hlive hptr
      exact hk hslot

theorem Ok.add {s s' : Tunnels} {t : Tunnel} (hok : s.Ok) (h : Added s s' t) : s'.Ok := by
  have hperm := h.perm
  have hwf : ∀ u ∈ s'.tree, WellFormed Tunnel.remote bitAt MAXTUNBIT 0 u := by
    rcases insert_spec bitAt_inj hok.wf t with ⟨-, -, -, hwf⟩ | ⟨y, hy, -⟩
    · rw [h.insert] at hwf
      exact hwf
    · rw [h.insert] at hy
      simp at hy
  have hnew : t ∉ s.live := by
    intro ht
    have := hok.lt t ht
    have := h.ptr
    omega
  refine ⟨hwf, ?_, ?_, by rw [h.tunhashsz]; exact hok.size, ?_, ?_, ?_, ?_⟩
  · rw [(hperm.map Tunnel.ptr).nodup_iff, List.map_cons, List.nodup_cons]
    refine ⟨?_, hok.nodup⟩
    rintro hmem
    obtain ⟨u, hu, hptr⟩ := List.mem_map.mp hmem
    have := hok.lt u hu
    have := h.ptr
    omega
  · intro u hu
    rw [h.next]
    rcases List.mem_cons.mp (hperm.mem_iff.mp hu) with rfl | hu
    · have := h.ptr
      omega
    · have := hok.lt u hu
      omega
  · intro k u hu
    rw [h.tunhash] at hu
    obtain ⟨hul, hhash, hslot⟩ := hok.cached k u hu
    refine ⟨hperm.mem_iff.mpr (List.mem_cons_of_mem _ hul), by rw [h.hash]; exact hhash, ?_⟩
    rw [hslot, slot, slot, h.tunhashrnd, h.tunhashsz]
  · intro u hu
    rw [hperm.mem_iff]
    rcases h.kind with ⟨-, hn, -⟩ | ⟨-, hn, -⟩ <;> rw [hn] at hu
    · exact List.mem_cons_of_mem _ (hok.nonats u hu)
    · rcases List.mem_append.mp hu with hu | hu
      · exact List.mem_cons_of_mem _ (hok.nonats u hu)
      · simp [List.mem_singleton.mp hu]
  · intro u hu
    have hold : u ∈ s.live → u.ptr ≠ t.ptr := by
      intro hul
      have := hok.lt u hul
      have := h.ptr
      omega
    have hnone : ¬(s.nonat t.ptr).isSome = true := by
      intro hsome
      have := hok.nonat_lt _ hsome
      have := h.ptr
      omega
    have hnot : t ∉ s.nonats := fun ht => hnew (hok.nonats t ht)
    rcases h.kind with ⟨hna, hn, -⟩ | ⟨⟨a, hna⟩, hn, -⟩ <;> rw [hna, hn] <;>
      rcases List.mem_cons.mp (hperm.mem_iff.mp hu) with rfl | hul
    · exact iff_of_false hnone hnot
    · exact hok.nonat_iff u hul
    · simp
    · have hne : u ≠ t := fun heq => hold hul (by rw [heq])
      simp [hold hul, hok.nonat_iff u hul, hne]
  · intro p hp
    rw [h.next]
    rcases h.kind with ⟨hna, -, -⟩ | ⟨⟨a, hna⟩, -, -⟩ <;> rw [hna] at hp
    · have := hok.nonat_lt p hp
      omega
    · by_cases hpt : p = t.ptr
      · have := h.ptr
        omega
      · rw [Function.update_of_ne hpt] at hp
        have := hok.nonat_lt p hp
        omega

theorem Ok.resize {s : Tunnels} (hok : s.Ok) (up : Bool) (rnd : UInt32) :
    (resizeTunHash up rnd s).Ok := by
  unfold resizeTunHash
  simp only
  split
  · exact hok
  · refine ⟨hok.wf, hok.nodup, hok.lt, ?_, by simp, hok.nonats, hok.nonat_iff, hok.nonat_lt⟩
    simp only [MAXTUNHASH, MINTUNHASH] at *
    omega

theorem Ok.grow {s s' : Tunnels} (hok : s.Ok) (h : Grow s s') : s'.Ok := by
  cases h with
  | field h => exact hok.field h
  | lookup peer => exact hok.lookup peer
  | add h => exact hok.add h
  | resize up rnd => exact hok.resize up rnd

/-- Growth keeps the tunnels that are there, their kind and their pool. -/
theorem Grow.keep {s s' : Tunnels} (hok : s.Ok) (h : Grow s s') {t : Tunnel} (ht : t ∈ s.live) :
    t ∈ s'.live ∧ s'.nonat t.ptr = s.nonat t.ptr ∧ s'.srcidx t.ptr = s.srcidx t.ptr := by
  cases h with
  | field h => exact ⟨by rw [live, h.tree]; exact ht, by rw [h.nonat], by rw [h.srcidx]⟩
  | lookup peer =>
    rcases tunnelLookup_fst s peer with heq | ⟨u, -, heq⟩ <;> rw [heq] <;>
      exact ⟨ht, rfl, rfl⟩
  | add h =>
    rename_i u
    have hne : t.ptr ≠ u.ptr := by
      have := hok.lt t ht
      have := h.ptr
      omega
    refine ⟨h.perm.mem_iff.mpr (List.mem_cons_of_mem _ ht), ?_⟩
    rcases h.kind with ⟨hna, -, i, hi⟩ | ⟨⟨a, hna⟩, -, hi⟩ <;> rw [hna, hi] <;>
      simp [Function.update_of_ne hne]
  | resize up rnd =>
    unfold resizeTunHash
    simp only
    split <;> exact ⟨ht, rfl, rfl⟩

theorem live_removeTunnel (s : Tunnels) (t : Tunnel) :
    (s.removeTunnel t).live = s.live.filter (·.ptr ≠ t.ptr) := by
  unfold live removeTunnel
  cases s.tree with
  | none => rfl
  | some u => simp [values_prune]

theorem live_removeNonat (s : Tunnels) (t : Tunnel) :
    (s.removeNonat t).live = s.live.filter (·.ptr ≠ t.ptr) := by
  rw [removeNonat, live_removeTunnel]
  rfl

/-- A removal in which the flag and the list of no-NAT tunnels fit. -/
theorem Ok.remove {s s' : Tunnels} (hok : s.Ok) {t : Tunnel} (ht : t ∈ s.live)
    (hs' : s'.tree = s.tree ∧ s'.tunhash = s.tunhash ∧ s'.tunhashsz = s.tunhashsz ∧
      s'.tunhashrnd = s.tunhashrnd ∧ s'.hash = s.hash ∧ s'.next = s.next)
    (hn : ∀ u ∈ s'.nonats, u ∈ s.nonats ∧ u.ptr ≠ t.ptr)
    (hiff : ∀ u ∈ s.live, u.ptr ≠ t.ptr → ((s'.nonat u.ptr).isSome = true ↔ u ∈ s'.nonats))
    (hlt : ∀ p, (s'.nonat p).isSome = true → p < s.next) : (s'.removeTunnel t).Ok := by
  obtain ⟨htree, hth, hsz, hrnd, hhash, hnext⟩ := hs'
  have hlive : (s'.removeTunnel t).live = s.live.filter (·.ptr ≠ t.ptr) := by
    rw [live_removeTunnel, live, htree]
    rfl
  have hmem : ∀ u, u ∈ (s'.removeTunnel t).live ↔ u ∈ s.live ∧ u.ptr ≠ t.ptr := by
    intro u
    simp [hlive]
  refine ⟨?_, ?_, ?_, ?_, ?_, ?_, ?_, ?_⟩
  · intro u hu
    simp only [removeTunnel, htree, Option.mem_def, Option.bind_eq_some_iff] at hu
    obtain ⟨v, hv, hu⟩ := hu
    exact wellFormed_prune _ (hok.wf v hv) u hu
  · rw [hlive]
    exact hok.nodup.sublist (List.filter_sublist.map _)
  · intro u hu
    simp only [removeTunnel, hnext]
    exact hok.lt u ((hmem u).mp hu).1
  · simpa [removeTunnel, hsz] using hok.size
  · intro k u hu
    have hold : s.tunhash k = some u ∧ u.ptr ≠ t.ptr := by
      simp only [removeTunnel, hth, hsz, hhash] at hu
      split at hu
      · rename_i hc
        by_cases hk : k = s.hash t.ptr
        · simp [hk] at hu
        · rw [Function.update_of_ne hk] at hu
          refine ⟨hu, fun hptr => ?_⟩
          obtain ⟨hul, hh, -⟩ := hok.cached k u hu
          exact hk (by rw [← hh, hptr])
      · rename_i hc
        refine ⟨hu, fun hptr => hc ?_⟩
        obtain ⟨hul, hh, hslot⟩ := hok.cached k u hu
        obtain rfl := hok.ptr_inj hul ht hptr
        rw [hh]
        exact ⟨by rw [hslot]; exact slot_lt hok.size _, hu⟩
    obtain ⟨hul, hh, hslot⟩ := hok.cached k u hold.1
    refine ⟨(hmem u).mpr ⟨hul, hold.2⟩, by simpa [removeTunnel, hhash] using hh, ?_⟩
    rw [hslot]
    simp [slot, removeTunnel, hrnd, hsz]
  · intro u hu
    obtain ⟨hun, hne⟩ := hn u hu
    exact (hmem u).mpr ⟨hok.nonats u hun, hne⟩
  · intro u hu
    obtain ⟨hul, hne⟩ := (hmem u).mp hu
    exact hiff u hul hne
  · intro p hp
    simpa [removeTunnel, hnext] using hlt p hp

theorem Ok.removeTunnel {s : Tunnels} (hok : s.Ok) {t : Tunnel} (ht : t ∈ s.live)
    (hstd : s.nonat t.ptr = none) : (s.removeTunnel t).Ok := by
  refine hok.remove ht ⟨rfl, rfl, rfl, rfl, rfl, rfl⟩ ?_ (fun u hu _ => hok.nonat_iff u hu)
    hok.nonat_lt
  intro u hu
  refine ⟨hu, fun hptr => ?_⟩
  obtain rfl := hok.ptr_inj (hok.nonats u hu) ht hptr
  have := (hok.nonat_iff u ht).mpr hu
  simp [hstd] at this

theorem Ok.removeNonat {s : Tunnels} (hok : s.Ok) {t : Tunnel} (ht : t ∈ s.live) :
    (s.removeNonat t).Ok := by
  refine hok.remove ht ⟨rfl, rfl, rfl, rfl, rfl, rfl⟩ ?_ ?_ ?_
  · intro u hu
    simpa using hu
  · intro u hu hne
    simp [hok.nonat_iff u hu, hne]
  · intro p hp
    by_cases hpt : p = t.ptr
    · simp [hpt] at hp
    · simp only [Function.update_of_ne hpt] at hp
      exact hok.nonat_lt p hp

theorem ok_start (rnd : UInt32) : Ok { tunhashrnd := rnd } where
  wf := by simp
  nodup := by simp [live]
  lt := by simp [live]
  size := by simp [MINTUNHASH]
  cached := by simp
  nonats := by simp
  nonat_iff := by simp [live]
  nonat_lt := by simp

end Tunnels

end WanStack.Aftr
