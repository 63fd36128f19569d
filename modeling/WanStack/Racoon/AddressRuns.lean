import WanStack.Racoon.AddressPool

set_option autoImplicit false

/-!
# Runs of the address pool

The table of slots and the addresses that the handles hold stay in step as long
as no resize cuts a slot in use or leaves no slot. A release never clears the
flag of its handle.
-/
namespace WanStack.Racoon.AddressPool
open Lib.Slots PartialRun

section Flags
variable (f g : Flags)

theorem or_allocated : (f ||| ISAKMP_CFG_PORT_ALLOCATED) &&& ISAKMP_CFG_PORT_ALLOCATED ≠ 0 := by
  have h : (f ||| ISAKMP_CFG_PORT_ALLOCATED) &&& ISAKMP_CFG_PORT_ALLOCATED =
      ISAKMP_CFG_PORT_ALLOCATED := by
    apply BitVec.eq_of_getLsbD_eq
    intro i hi
    simp only [BitVec.getLsbD_and, BitVec.getLsbD_or]
    cases f.getLsbD i <;> simp
  rw [h]
  decide

theorem and_allocated : (f &&& ISAKMP_CFG_PORT_ALLOCATED) &&& ISAKMP_CFG_PORT_ALLOCATED =
    f &&& ISAKMP_CFG_PORT_ALLOCATED := by
  rw [BitVec.and_assoc, BitVec.and_self]

theorem mark_allocated :
    (f ||| g &&& ~~~ISAKMP_CFG_PORT_ALLOCATED) &&& ISAKMP_CFG_PORT_ALLOCATED =
      f &&& ISAKMP_CFG_PORT_ALLOCATED := by
  apply BitVec.eq_of_getLsbD_eq
  intro i hi
  simp only [BitVec.getLsbD_and, BitVec.getLsbD_or, BitVec.getLsbD_not, hi, decide_true,
    Bool.true_and]
  cases f.getLsbD i <;> cases g.getLsbD i <;> cases ISAKMP_CFG_PORT_ALLOCATED.getLsbD i <;> rfl

theorem clear_allocated :
    (f &&& ~~~ISAKMP_CFG_PORT_ALLOCATED) &&& ISAKMP_CFG_PORT_ALLOCATED = 0 := by
  apply BitVec.eq_of_getLsbD_eq
  intro i hi
  simp only [BitVec.getLsbD_and, BitVec.getLsbD_not, hi, decide_true, Bool.true_and]
  cases f.getLsbD i <;> cases ISAKMP_CFG_PORT_ALLOCATED.getLsbD i <;> simp

end Flags

section Pool
variable {pool pool' : PortPool} {used : List Bool} {iph1 : Ph1handle}

theorem slots_length (h : pool.slots = some used) : used.length = pool.poolSize := by
  cases pool with
  | null =>
    obtain rfl := Option.some.inj h
    rfl
  | live us =>
    obtain rfl := Option.some.inj h
    rfl
  | freed n => exact absurd h (by simp [PortPool.slots])

/-- A slot that can be read lies in a pool. -/
theorem live_of_slot {i : ℕ} {u : Bool} (h : pool.slots = some used) (hi : used[i]? = some u) :
    pool = .live used := by
  cases pool with
  | null =>
    obtain rfl := Option.some.inj h
    exact absurd hi (by simp)
  | live us =>
    obtain rfl := Option.some.inj h
    rfl
  | freed n => exact absurd h (by simp [PortPool.slots])

theorem getport_cases {r : PortPool × Ph1handle × Option ℕ}
    (h : isakmpCfgGetport pool iph1 = some r) :
    r = (pool, iph1, some iph1.port) ∧ iph1.Allocated ∨
      r = (pool, iph1, none) ∧ (¬ ∃ us, pool = .live us ∧ false ∈ us) ∨
      ¬ iph1.Allocated ∧ ∃ us i, pool = .live us ∧ us[i]? = some false ∧
        r = (.live (us.set i true),
          { iph1 with
            flags := iph1.flags ||| ISAKMP_CFG_PORT_ALLOCATED
            port := i }, some i) := by
  unfold isakmpCfgGetport at h
  split at h
  · exact Or.inl ⟨(Option.some.inj h).symm, ‹_›⟩
  · split at h
    · exact Or.inr (Or.inl ⟨(Option.some.inj h).symm, by simp⟩)
    · exact absurd h (by simp)
    · rename_i us
      split at h
      · rename_i hfind
        refine Or.inr (Or.inl ⟨(Option.some.inj h).symm, ?_⟩)
        rintro ⟨us', hus', hfree⟩
        obtain rfl := PortPool.live.inj hus'
        have hall := List.findIdx?_eq_none_iff.mp hfind false hfree
        simp at hall
      · rename_i i hfind
        obtain ⟨hi, hfree, -⟩ := List.findIdx?_eq_some_iff_getElem.mp hfind
        refine Or.inr (Or.inr ⟨‹_›, us, i, rfl, ?_, (Option.some.inj h).symm⟩)
        rw [List.getElem?_eq_getElem hi]
        simpa using hfree

theorem getport_defined (iph1 : Ph1handle) (h : pool.slots = some used) :
    ∃ r, isakmpCfgGetport pool iph1 = some r := by
  unfold isakmpCfgGetport
  split
  · exact ⟨_, rfl⟩
  · cases pool with
    | null => exact ⟨_, rfl⟩
    | live us =>
      simp only
      split
      · exact ⟨_, rfl⟩
      · exact ⟨_, rfl⟩
    | freed n => exact absurd h (by simp [PortPool.slots])

theorem putport_used (iph1 : Ph1handle) {i : ℕ} (h : pool.slots = some used) (hi : used[i]? = some true) :
    isakmpCfgPutport pool iph1 i = some (.live (used.set i false),
      { iph1 with flags := iph1.flags &&& ISAKMP_CFG_PORT_ALLOCATED }) := by
  rw [live_of_slot h hi]
  simp only [isakmpCfgPutport, hi]

theorem putport_free (iph1 : Ph1handle) {i : ℕ} (h : pool.slots = some used) (hi : used[i]? = some false) :
    isakmpCfgPutport pool iph1 i = some (pool, iph1) := by
  rw [live_of_slot h hi]
  simp only [isakmpCfgPutport, hi]

/-- A release clears nothing: the mask keeps the flag. -/
theorem putport_allocated {i : ℕ} {r : PortPool × Ph1handle}
    (h : isakmpCfgPutport pool iph1 i = some r) : r.2.Allocated ↔ iph1.Allocated := by
  unfold isakmpCfgPutport at h
  split at h
  · rw [← Option.some.inj h]
  · exact absurd h (by simp)
  · split at h
    · exact absurd h (by simp)
    · rw [← Option.some.inj h]
    · rw [← Option.some.inj h]
      unfold Ph1handle.Allocated
      rw [and_allocated]

theorem putport_index {i : ℕ} {r : PortPool × Ph1handle}
    (h : isakmpCfgPutport pool iph1 i = some r) :
    r.2.index = iph1.index ∧ r.2.port = iph1.port := by
  unfold isakmpCfgPutport at h
  split at h
  · rw [← Option.some.inj h]
    exact ⟨rfl, rfl⟩
  · exact absurd h (by simp)
  · split at h
    · exact absurd h (by simp)
    · rw [← Option.some.inj h]
      exact ⟨rfl, rfl⟩
    · rw [← Option.some.inj h]
      exact ⟨rfl, rfl⟩

theorem shrinkTo_cases (used : List Bool) (size k : ℕ) (hk : size ≤ k) :
    (shrinkTo used size k = size ∧ ∀ i, size ≤ i → i < k → used[i]? ≠ some true) ∨
      size ≤ shrinkTo used size k ∧ shrinkTo used size k < k ∧
        used[shrinkTo used size k]? = some true := by
  induction k with
  | zero => exact Or.inl ⟨rfl, fun i _ hi => absurd hi (Nat.not_lt_zero i)⟩
  | succ k ih =>
    unfold shrinkTo
    split_ifs with hlt hused
    · exact Or.inl ⟨rfl, fun i hle hi => by omega⟩
    · exact Or.inr ⟨by omega, by omega, hused⟩
    · rcases ih (by omega) with ⟨heq, hfree⟩ | ⟨hle, hltk, htrue⟩
      · refine Or.inl ⟨heq, fun i hle hi => ?_⟩
        by_cases hik : i = k
        · rw [hik]
          exact hused
        · exact hfree i hle (by omega)
      · exact Or.inr ⟨hle, by omega, htrue⟩

end Pool

theorem poolOk_iff {s : State} : PoolOk s ↔
    ∃ used, s.pool.slots = some used ∧ Marks used (heldBy s.handles) := by
  constructor
  · intro h
    obtain ⟨used, hslots, hmarked⟩ := h.marked
    exact ⟨used, hslots, h.unique, hmarked⟩
  · rintro ⟨used, hslots, hmarks⟩
    refine ⟨hmarks.nodup, ?_, used, hslots, hmarks.marked⟩
    intro i hi
    rw [← slots_length hslots]
    exact hmarks.lt_length hi

/-- The table after a resize is in step with the same holders exactly when the
    resize fits. -/
theorem resize_marks_iff {s : State} {used : List Bool} {held : List ℕ}
    (hslots : s.pool.slots = some used) (hmarks : Marks used held) (size : ℤ) :
    Fits s (.resize size) ↔ ∃ pool', isakmpCfgResizePool s.pool size = some pool' ∧
      ∃ used', pool'.slots = some used' ∧ Marks used' held := by
  have hlength := slots_length hslots
  unfold Fits isakmpCfgResizePool
  by_cases hsame : size = s.pool.poolSize
  · simp only [hsame, if_true]
    exact ⟨fun _ => ⟨_, rfl, used, hslots, hmarks⟩, fun _ => by omega⟩
  · rw [if_neg hsame]
    cases hpool : s.pool with
    | freed n => simp [hpool, PortPool.slots] at hslots
    | null =>
      rw [hpool] at hslots hlength
      obtain rfl := Option.some.inj hslots
      constructor
      · intro _
        dsimp only
        split_ifs
        · exact ⟨.null, rfl, [], rfl, hmarks⟩
        · exact ⟨_, rfl, _, rfl, hmarks.grow size.toNat⟩
      · intro _
        simp only [PortPool.poolSize]
        omega
    | live us =>
      rw [hpool] at hslots hlength hsame
      obtain rfl := Option.some.inj hslots
      change size ≠ us.length at hsame
      have hfits : (size < 0 ∨ ((PortPool.live us).poolSize : ℤ) ≤ size ∨
          0 < size ∧ ∀ used, (PortPool.live us).slots = some used →
            ∀ i : ℕ, used[i]? = some true → i < size) ↔
          size < 0 ∨ (us.length : ℤ) ≤ size ∨
            0 < size ∧ ∀ i : ℕ, us[i]? = some true → i < size := by
        simp [PortPool.poolSize, PortPool.slots]
      dsimp only
      rw [hfits]
      by_cases hneg : size < 0
      · rw [if_pos hneg]
        exact ⟨fun _ => ⟨_, rfl, us, rfl, hmarks⟩, fun _ => Or.inl hneg⟩
      · rw [if_neg hneg]
        obtain ⟨n, rfl⟩ := Int.eq_ofNat_of_zero_le (Int.not_lt.mp hneg)
        simp only [Int.toNat_natCast]
        by_cases hless : n < us.length
        · rw [if_pos hless]
          rcases shrinkTo_cases us n us.length (Nat.le_of_lt hless) with ⟨heq, hfree⟩ | ⟨hle, hlt, hused⟩
          · rw [heq]
            have hcut : ∀ i, us[i]? = some true → i < n := fun i hi => by
              by_contra hge
              have hi' := (List.getElem?_eq_some_iff.mp hi).1
              exact hfree i (by omega) hi' hi
            by_cases hzero : n = 0
            · simp only [hzero, if_true, Option.some.injEq, exists_eq_left']
              constructor
              · intro hfits
                omega
              · rintro ⟨used', hused', -⟩
                exact absurd hused' (by simp [PortPool.slots])
            · rw [if_neg hzero, if_neg (by omega)]
              constructor
              · intro _
                exact ⟨_, rfl, _, rfl, (hmarks.shrink_iff n).mpr hcut⟩
              · intro _
                refine Or.inr (Or.inr ⟨by omega, fun i hi => ?_⟩)
                exact_mod_cast hcut i hi
          · constructor
            · intro hfits
              have hbad : (shrinkTo us n us.length : ℤ) < n := by
                rcases hfits with h | h | h
                · omega
                · omega
                · exact h.2 _ hused
              omega
            · rintro ⟨pool', hpool', used', hslots', hmarks'⟩
              exfalso
              by_cases hzero : shrinkTo us n us.length = 0
              · rw [if_pos hzero] at hpool'
                obtain rfl := Option.some.inj hpool'
                exact absurd hslots' (by simp [PortPool.slots])
              · rw [if_neg hzero, if_neg (by omega)] at hpool'
                obtain rfl := Option.some.inj hpool'
                obtain rfl := Option.some.inj hslots'
                have hlost := (hmarks.shrink_iff _).mp hmarks' _ hused
                omega
        · rw [if_neg hless, if_neg (by omega), if_pos (by omega)]
          exact ⟨fun _ => ⟨_, rfl, _, rfl, hmarks.grow _⟩, fun _ => by omega⟩

/-- Cookies are not used twice, and a reply names the port its handle holds. -/
structure Side (s : State) : Prop where
  nodup : (s.handles.map Ph1handle.index).Nodup
  below : ∀ h ∈ s.handles, h.index < s.next
  repliesBelow : ∀ r ∈ s.replies, r.1 < s.next
  replies : ∀ r ∈ s.replies, ∀ p, r.2 = some p → ∀ h ∈ s.handles, h.index = r.1 →
    h.Allocated ∧ h.port = p

section Handles
variable {s : State} {iph1 h' : Ph1handle} {index : ℕ}

theorem getph1byindex_some (h : s.getph1byindex index = some iph1) :
    iph1 ∈ s.handles ∧ iph1.index = index := by
  have hindex := List.find?_some h
  exact ⟨List.mem_of_find?_eq_some h, by simpa using hindex⟩

theorem Side.eq_of_index (hs : Side s) {g : Ph1handle} (hg : g ∈ s.handles)
    (hh : iph1 ∈ s.handles) (hindex : g.index = iph1.index) : g = iph1 :=
  List.inj_on_of_nodup_map hs.nodup hg hh hindex

theorem setHandle_index (s : State) (h' : Ph1handle) :
    (s.setHandle h').handles.map Ph1handle.index = s.handles.map Ph1handle.index := by
  simp only [State.setHandle, List.map_map]
  apply List.map_congr_left
  intro g _
  simp only [Function.comp_apply]
  split
  · exact ‹g.index = h'.index›.symm
  · rfl

theorem Side.setHandle (hs : Side s) (hh : iph1 ∈ s.handles) (hindex : h'.index = iph1.index)
    (hkeeps : iph1.Allocated → h'.Allocated ∧ h'.port = iph1.port) : Side (s.setHandle h') where
  nodup := by
    rw [setHandle_index]
    exact hs.nodup
  below := by
    intro g hg
    have hmem : g.index ∈ (s.setHandle h').handles.map Ph1handle.index := List.mem_map_of_mem hg
    rw [setHandle_index] at hmem
    obtain ⟨g0, hg0, heq⟩ := List.mem_map.mp hmem
    rw [← heq]
    exact hs.below g0 hg0
  repliesBelow := hs.repliesBelow
  replies := by
    intro r hr p hp g hg hgr
    obtain ⟨g0, hg0, rfl⟩ := List.mem_map.mp hg
    by_cases heq : g0.index = h'.index
    · rw [if_pos heq] at hgr ⊢
      obtain ⟨halloc, hport⟩ := hs.replies r hr p hp iph1 hh (hindex.symm.trans hgr)
      obtain ⟨halloc', hport'⟩ := hkeeps halloc
      exact ⟨halloc', hport'.trans hport⟩
    · rw [if_neg heq] at hgr ⊢
      exact hs.replies r hr p hp g0 hg0 hgr

theorem Side.withPool (hs : Side s) (pool : PortPool) : Side { s with pool } :=
  ⟨hs.nodup, hs.below, hs.repliesBelow, hs.replies⟩

theorem Side.onReplies (hs : Side s) {replies : List (ℕ × Option ℕ)}
    (hsub : ∀ r ∈ replies, r ∈ s.replies) : Side { s with replies } where
  nodup := hs.nodup
  below := hs.below
  repliesBelow r hr := hs.repliesBelow r (hsub r hr)
  replies r hr := hs.replies r (hsub r hr)

theorem Side.delph1 (hs : Side s) {s' : State} (h : delph1 s iph1 = some s') : Side s' := by
  obtain ⟨pool, -, rfl⟩ := Option.map_eq_some_iff.mp h
  have hmem : ∀ g ∈ s.handles.filter (fun h => h.index ≠ iph1.index), g ∈ s.handles :=
    fun g hg => List.mem_of_mem_filter hg
  constructor
  · exact hs.nodup.sublist (List.filter_sublist.map _)
  · intro g hg
    exact hs.below g (hmem g hg)
  · exact hs.repliesBelow
  · intro r hr p hp g hg
    exact hs.replies r hr p hp g (hmem g hg)

theorem Side.getportOf (hs : Side s) (hh : iph1 ∈ s.handles) {r : State × Option ℕ}
    (h : getportOf s iph1 = some r) :
    Side r.1 ∧ (∀ p, r.2 = some p → ∀ g ∈ r.1.handles, g.index = iph1.index →
      g.Allocated ∧ g.port = p) ∧ r.1.next = s.next ∧ r.1.replies = s.replies := by
  obtain ⟨⟨pool, h', port⟩, hget, rfl⟩ := Option.map_eq_some_iff.mp h
  have hset : h'.index = iph1.index ∧ (iph1.Allocated → h'.Allocated ∧ h'.port = iph1.port) ∧
      ∀ p, port = some p → h'.Allocated ∧ h'.port = p := by
    rcases getport_cases hget with ⟨heq, halloc⟩ | ⟨heq, -⟩ | ⟨hnot, us, i, -, -, heq⟩
    · simp only [Prod.mk.injEq] at heq
      obtain ⟨rfl, rfl, rfl⟩ := heq
      exact ⟨rfl, fun ha => ⟨ha, rfl⟩, fun p hp => ⟨halloc, Option.some.inj hp⟩⟩
    · simp only [Prod.mk.injEq] at heq
      obtain ⟨rfl, rfl, rfl⟩ := heq
      exact ⟨rfl, fun ha => ⟨ha, rfl⟩, fun p hp => absurd hp (by simp)⟩
    · simp only [Prod.mk.injEq] at heq
      obtain ⟨rfl, rfl, rfl⟩ := heq
      exact ⟨rfl, fun ha => absurd ha hnot,
        fun p hp => ⟨or_allocated iph1.flags, Option.some.inj hp⟩⟩
  obtain ⟨hindex, hkeeps, hport⟩ := hset
  refine ⟨(hs.withPool pool).setHandle hh hindex hkeeps, ?_, rfl, rfl⟩
  intro p hp g hg hgi
  obtain ⟨g0, -, rfl⟩ := List.mem_map.mp hg
  by_cases heq : g0.index = h'.index
  · rw [if_pos heq]
    exact hport p hp
  · rw [if_neg heq] at hgi
    exact absurd (hgi.trans hindex.symm) heq

theorem Side.xauthReply (hs : Side s) (hh : iph1 ∈ s.handles) {port : Option ℕ} {res : Bool}
    {s' : State} (h : xauthReply s iph1 port res = some s') : Side s' := by
  unfold AddressPool.xauthReply at h
  split at h
  · rw [← Option.some.inj h]
    exact hs
  · split at h
    · exact hs.delph1 h
    · obtain ⟨r, hput, hdel⟩ := Option.bind_eq_some_iff.mp h
      obtain ⟨hindex, hport⟩ := putport_index hput
      have hset := (hs.withPool r.1).setHandle hh hindex fun ha =>
        ⟨(putport_allocated hput).mpr ha, hport⟩
      exact hset.delph1 hdel

end Handles

theorem Side.step {s s' : State} {e : Event} (hs : Side s) (h : step s e = some s') : Side s' := by
  have honHandle : ∀ {t : State} {index : ℕ} {f : Ph1handle → Option State}, Side t →
      t.onHandle index f = some s' →
      (∀ iph1 ∈ t.handles, iph1.index = index → f iph1 = some s' → Side s') → Side s' := by
    intro t index f ht hon hf
    unfold State.onHandle at hon
    split at hon
    · rw [← Option.some.inj hon]
      exact ht
    · obtain ⟨hmem, hindex⟩ := getph1byindex_some ‹_›
      exact hf _ hmem hindex hon
  cases e with
  | begin =>
    obtain rfl := Option.some.inj h
    constructor
    · refine List.nodup_cons.mpr ⟨?_, hs.nodup⟩
      intro hmem
      obtain ⟨g, hg, hgi⟩ := List.mem_map.mp hmem
      exact absurd hgi (Nat.ne_of_lt (hs.below g hg))
    · intro g hg
      rcases List.mem_cons.mp hg with rfl | hg
      · exact Nat.lt_succ_self _
      · exact Nat.lt_succ_of_lt (hs.below g hg)
    · intro r hr
      exact Nat.lt_succ_of_lt (hs.repliesBelow r hr)
    · intro r hr p hp g hg hgi
      have hlt := hs.repliesBelow r hr
      rcases List.mem_cons.mp hg with rfl | hg
      · exact absurd hgi (Nat.ne_of_gt hlt)
      · exact hs.replies r hr p hp g hg hgi
  | mark index flags =>
    refine honHandle hs h fun iph1 hmem _ hset => ?_
    rw [← Option.some.inj hset]
    refine hs.setHandle hmem rfl fun ha => ⟨?_, rfl⟩
    unfold Ph1handle.Allocated
    rw [mark_allocated]
    exact ha
  | request index =>
    refine honHandle hs h fun iph1 hmem _ hget => ?_
    obtain ⟨r, hr, rfl⟩ := Option.map_eq_some_iff.mp hget
    exact (hs.getportOf hmem hr).1
  | login index =>
    refine honHandle hs h fun iph1 hmem hindex hget => ?_
    obtain ⟨r, hr, rfl⟩ := Option.map_eq_some_iff.mp hget
    obtain ⟨hside, hport, hnext, -⟩ := hs.getportOf hmem hr
    refine ⟨hside.nodup, hside.below, ?_, ?_⟩
    · intro q hq
      rcases List.mem_append.mp hq with hq | hq
      · exact hside.repliesBelow q hq
      · rw [List.mem_singleton.mp hq]
        change index < r.1.next
        rw [hnext, ← hindex]
        exact hs.below iph1 hmem
    · intro q hq p hp
      rcases List.mem_append.mp hq with hq | hq
      · exact hside.replies q hq p hp
      · rw [List.mem_singleton.mp hq] at hp ⊢
        intro g hg hgi
        exact hport p hp g hg (hgi.trans hindex.symm)
  | reply k res =>
    cases hr : s.replies[k]? with
    | none =>
      simp only [AddressPool.step, hr] at h
      rw [← Option.some.inj h]
      exact hs
    | some r =>
      simp only [AddressPool.step, hr] at h
      have herased : Side { s with replies := s.replies.eraseIdx k } :=
        hs.onReplies fun q hq => List.mem_of_mem_eraseIdx hq
      exact honHandle herased h fun iph1 hmem _ hreply => herased.xauthReply hmem hreply
  | delete index =>
    exact honHandle hs h fun iph1 _ _ hdel => hs.delph1 hdel
  | resize size =>
    obtain ⟨pool, -, rfl⟩ := Option.map_eq_some_iff.mp h
    exact hs.withPool pool

section InStep
variable {s : State} {iph1 : Ph1handle}

theorem heldBy_split (l₁ l₂ : List Ph1handle) (h : Ph1handle) :
    (heldBy (l₁ ++ h :: l₂)).Perm
      ((if h.Allocated then [h.port] else []) ++ heldBy (l₁ ++ l₂)) := by
  have hmiddle : ((l₁ ++ h :: l₂).filter fun g => decide g.Allocated).Perm
      ((h :: (l₁ ++ l₂)).filter fun g => decide g.Allocated) :=
    List.perm_middle.filter _
  apply (hmiddle.map Ph1handle.port).trans
  rw [List.filter_cons]
  split <;> simp_all [heldBy]

theorem Side.split (hs : Side s) (hh : iph1 ∈ s.handles) :
    ∃ l₁ l₂, s.handles = l₁ ++ iph1 :: l₂ ∧ ∀ g ∈ l₁ ++ l₂, g.index ≠ iph1.index := by
  obtain ⟨l₁, l₂, hsplit⟩ := List.append_of_mem hh
  refine ⟨l₁, l₂, hsplit, ?_⟩
  have hnodup := hs.nodup
  rw [hsplit, List.map_append, List.map_cons, List.nodup_middle, ← List.map_append] at hnodup
  intro g hg heq
  exact (List.nodup_cons.mp hnodup).1 (heq ▸ List.mem_map_of_mem hg)

theorem setHandle_split {l₁ l₂ : List Ph1handle} {h' : Ph1handle}
    (hsplit : s.handles = l₁ ++ iph1 :: l₂) (hother : ∀ g ∈ l₁ ++ l₂, g.index ≠ iph1.index)
    (hindex : h'.index = iph1.index) : (s.setHandle h').handles = l₁ ++ h' :: l₂ := by
  have hkeep : ∀ l : List Ph1handle, (∀ g ∈ l, g.index ≠ iph1.index) →
      l.map (fun g => if g.index = h'.index then h' else g) = l := by
    intro l hl
    conv_rhs => rw [← List.map_id l]
    apply List.map_congr_left
    intro g hg
    rw [hindex, if_neg (hl g hg)]
    rfl
  simp only [State.setHandle, hsplit, List.map_append, List.map_cons, hindex, if_true]
  have h₁ := hkeep l₁ fun g hg => hother g (List.mem_append_left _ hg)
  have h₂ := hkeep l₂ fun g hg => hother g (List.mem_append_right _ hg)
  rw [hindex] at h₁ h₂
  rw [h₁, h₂]

theorem filter_split {l₁ l₂ : List Ph1handle} {index : ℕ} {h' : Ph1handle}
    (hindex : h'.index = index) (hother : ∀ g ∈ l₁ ++ l₂, g.index ≠ index) :
    (l₁ ++ h' :: l₂).filter (fun g => g.index ≠ index) = l₁ ++ l₂ := by
  rw [List.filter_append, List.filter_cons, if_neg (by simp [hindex]), ← List.filter_append]
  apply List.filter_eq_self.mpr
  intro g hg
  simpa using hother g hg

theorem getportOf_poolOk (hs : Side s) (hok : PoolOk s) (hh : iph1 ∈ s.handles) :
    ∃ r, getportOf s iph1 = some r ∧ PoolOk r.1 := by
  obtain ⟨used, hslots, hmarks⟩ := poolOk_iff.mp hok
  obtain ⟨l₁, l₂, hsplit, hother⟩ := hs.split hh
  obtain ⟨⟨pool, h', port⟩, hget⟩ := getport_defined iph1 hslots
  refine ⟨_, by rw [getportOf, hget]; rfl, poolOk_iff.mpr ?_⟩
  rw [hsplit] at hmarks
  rcases getport_cases hget with ⟨heq, -⟩ | ⟨heq, -⟩ | ⟨hnot, us, i, hus, hi, heq⟩
  · simp only [Prod.mk.injEq] at heq
    obtain ⟨rfl, rfl, rfl⟩ := heq
    refine ⟨used, hslots, ?_⟩
    rw [setHandle_split hsplit hother rfl]
    exact hmarks
  · simp only [Prod.mk.injEq] at heq
    obtain ⟨rfl, rfl, rfl⟩ := heq
    refine ⟨used, hslots, ?_⟩
    rw [setHandle_split hsplit hother rfl]
    exact hmarks
  · simp only [Prod.mk.injEq] at heq
    obtain ⟨rfl, rfl, rfl⟩ := heq
    rw [hus] at hslots
    obtain rfl := Option.some.inj hslots
    let h' : Ph1handle :=
      { iph1 with
        flags := iph1.flags ||| ISAKMP_CFG_PORT_ALLOCATED
        port := i }
    have hset : ({ s with pool := .live (us.set i true) }.setHandle h').handles =
        l₁ ++ h' :: l₂ := setHandle_split hsplit hother rfl
    refine ⟨_, rfl, ?_⟩
    change Marks _ (heldBy ({ s with pool := .live (us.set i true) }.setHandle h').handles)
    rw [hset]
    apply hmarks.take hi
    have hold := heldBy_split l₁ l₂ iph1
    rw [if_neg hnot] at hold
    have hnew := heldBy_split l₁ l₂ h'
    have halloc' : h'.Allocated := or_allocated iph1.flags
    rw [if_pos halloc'] at hnew
    exact hnew.trans (List.Perm.cons i hold.symm)

/-- What a handle holds is given back with it. -/
theorem rmstate_marks {pool : PortPool} {used : List Bool} {l₁ l₂ : List Ph1handle}
    (hslots : pool.slots = some used) (hmarks : Marks used (heldBy (l₁ ++ iph1 :: l₂))) :
    ∃ pool', isakmpCfgRmstate pool iph1 = some pool' ∧
      ∃ used', pool'.slots = some used' ∧ Marks used' (heldBy (l₁ ++ l₂)) := by
  have hperm := heldBy_split l₁ l₂ iph1
  unfold isakmpCfgRmstate
  by_cases halloc : iph1.Allocated
  · rw [if_pos halloc] at hperm ⊢
    have hused : used[iph1.port]? = some true :=
      (hmarks.marked _).mpr (hperm.mem_iff.mpr List.mem_cons_self)
    rw [putport_used iph1 hslots hused]
    exact ⟨_, rfl, _, rfl, hmarks.release hperm⟩
  · rw [if_neg halloc] at hperm ⊢
    exact ⟨_, rfl, _, hslots, hmarks.perm hperm.symm⟩

theorem delph1_poolOk (hs : Side s) (hok : PoolOk s) (hh : iph1 ∈ s.handles) :
    ∃ s', delph1 s iph1 = some s' ∧ PoolOk s' := by
  obtain ⟨used, hslots, hmarks⟩ := poolOk_iff.mp hok
  obtain ⟨l₁, l₂, hsplit, hother⟩ := hs.split hh
  rw [hsplit] at hmarks
  obtain ⟨pool', hrm, used', hslots', hmarks'⟩ := rmstate_marks hslots hmarks
  refine ⟨_, by rw [delph1, hrm]; rfl, poolOk_iff.mpr ⟨used', hslots', ?_⟩⟩
  simp only [hsplit]
  rw [filter_split rfl hother]
  exact hmarks'

/-- The slot that a failed login gives back twice is free the second time. -/
theorem xauthReply_poolOk (hs : Side s) (hok : PoolOk s) (hh : iph1 ∈ s.handles)
    {port : Option ℕ} (hport : ∀ p, port = some p → iph1.Allocated ∧ iph1.port = p) (res : Bool) :
    ∃ s', xauthReply s iph1 port res = some s' ∧ PoolOk s' := by
  unfold xauthReply
  split_ifs
  · exact ⟨s, rfl, hok⟩
  · cases port with
    | none => exact delph1_poolOk hs hok hh
    | some p =>
      obtain ⟨halloc, rfl⟩ := hport p rfl
      obtain ⟨used, hslots, hmarks⟩ := poolOk_iff.mp hok
      obtain ⟨l₁, l₂, hsplit, hother⟩ := hs.split hh
      rw [hsplit] at hmarks
      have hperm := heldBy_split l₁ l₂ iph1
      rw [if_pos halloc] at hperm
      have hused : used[iph1.port]? = some true :=
        (hmarks.marked _).mpr (hperm.mem_iff.mpr List.mem_cons_self)
      have hput := putport_used iph1 hslots hused
      have hfree : (used.set iph1.port false)[iph1.port]? = some false := by
        have hlt := (List.getElem?_eq_some_iff.mp hused).1
        simp [hlt]
      let h' : Ph1handle := { iph1 with flags := iph1.flags &&& ISAKMP_CFG_PORT_ALLOCATED }
      have halloc' : h'.Allocated := (putport_allocated hput).mpr halloc
      have hrm : isakmpCfgRmstate (.live (used.set iph1.port false)) h' =
          some (.live (used.set iph1.port false)) := by
        rw [isakmpCfgRmstate, if_pos halloc', putport_free h' rfl hfree]
        rfl
      refine ⟨_, by simp only [hput, Option.bind_some, delph1]; exact congrArg _ hrm, ?_⟩
      refine poolOk_iff.mpr ⟨_, rfl, ?_⟩
      have hset : ({ s with pool := .live (used.set iph1.port false) }.setHandle h').handles =
          l₁ ++ h' :: l₂ := setHandle_split hsplit hother rfl
      change Marks _ (heldBy ((({ s with pool := .live (used.set iph1.port false) }.setHandle
        h').handles).filter fun g => g.index ≠ iph1.index))
      have hindex : h'.index = iph1.index := rfl
      rw [hset, filter_split hindex hother]
      exact hmarks.release hperm

end InStep

theorem new_free (index : ℕ) : ¬ Ph1handle.Allocated { index, flags := 0, port := 0 } := by
  change ¬ (0 &&& ISAKMP_CFG_PORT_ALLOCATED ≠ 0)
  decide

theorem PoolOk.onReplies {s : State} (hok : PoolOk s) (replies : List (ℕ × Option ℕ)) :
    PoolOk { s with replies } :=
  ⟨hok.unique, hok.inside, hok.marked⟩

/-- One event keeps the pool in step exactly when it is no resize that does not
    fit. -/
theorem step_poolOk_iff (s : State) (e : Event) (hs : Side s) (hok : PoolOk s) :
    Fits s e ↔ ∃ s', step s e = some s' ∧ PoolOk s' := by
  have honHandle : ∀ {t : State} (index : ℕ) {f : Ph1handle → Option State}, PoolOk t →
      (∀ iph1 ∈ t.handles, iph1.index = index → ∃ s', f iph1 = some s' ∧ PoolOk s') →
      ∃ s', t.onHandle index f = some s' ∧ PoolOk s' := by
    intro t index f ht hf
    unfold State.onHandle
    split
    · exact ⟨t, rfl, ht⟩
    · obtain ⟨hmem, hindex⟩ := getph1byindex_some ‹_›
      exact hf _ hmem hindex
  cases e with
  | resize size =>
    obtain ⟨used, hslots, hmarks⟩ := poolOk_iff.mp hok
    rw [resize_marks_iff hslots hmarks]
    constructor
    · rintro ⟨pool', hresize, hmarks'⟩
      exact ⟨_, by rw [step, hresize]; rfl, poolOk_iff.mpr hmarks'⟩
    · rintro ⟨s', hstep, hok'⟩
      obtain ⟨pool', hresize, rfl⟩ := Option.map_eq_some_iff.mp hstep
      exact ⟨pool', hresize, poolOk_iff.mp hok'⟩
  | begin =>
    refine iff_of_true trivial ⟨_, rfl, ?_⟩
    have hheld : heldBy ({ index := s.next, flags := 0, port := 0 } :: s.handles) =
        heldBy s.handles := by
      unfold heldBy
      rw [List.filter_cons, if_neg (by simpa using new_free s.next)]
    obtain ⟨used, hslots, hmarks⟩ := poolOk_iff.mp hok
    refine poolOk_iff.mpr ⟨used, hslots, ?_⟩
    rw [hheld]
    exact hmarks
  | mark index flags =>
    refine iff_of_true trivial (honHandle index hok fun iph1 hmem _ => ⟨_, rfl, ?_⟩)
    obtain ⟨used, hslots, hmarks⟩ := poolOk_iff.mp hok
    obtain ⟨l₁, l₂, hsplit, hother⟩ := hs.split hmem
    let h' : Ph1handle :=
      { iph1 with flags := iph1.flags ||| flags &&& ~~~ISAKMP_CFG_PORT_ALLOCATED }
    have hset : (s.setHandle h').handles = l₁ ++ h' :: l₂ := setHandle_split hsplit hother rfl
    have halloc : h'.Allocated ↔ iph1.Allocated := by
      unfold Ph1handle.Allocated
      rw [mark_allocated]
    refine poolOk_iff.mpr ⟨used, hslots, ?_⟩
    rw [hset]
    rw [hsplit] at hmarks
    apply hmarks.perm
    have hold := heldBy_split l₁ l₂ iph1
    have hnew := heldBy_split l₁ l₂ h'
    simp only [halloc] at hnew
    exact hnew.trans hold.symm
  | request index =>
    refine iff_of_true trivial (honHandle index hok fun iph1 hmem _ => ?_)
    obtain ⟨r, hget, hok'⟩ := getportOf_poolOk hs hok hmem
    exact ⟨r.1, by rw [hget]; rfl, hok'⟩
  | login index =>
    refine iff_of_true trivial (honHandle index hok fun iph1 hmem _ => ?_)
    obtain ⟨r, hget, hok'⟩ := getportOf_poolOk hs hok hmem
    rw [hget]
    exact ⟨_, rfl, hok'.onReplies _⟩
  | reply k res =>
    refine iff_of_true trivial ?_
    cases hr : s.replies[k]? with
    | none => exact ⟨s, by simp only [step, hr], hok⟩
    | some r =>
      simp only [step, hr]
      have herased : Side { s with replies := s.replies.eraseIdx k } :=
        hs.onReplies fun q hq => List.mem_of_mem_eraseIdx hq
      refine honHandle r.1 (hok.onReplies _) fun iph1 hmem hindex => ?_
      refine xauthReply_poolOk herased (hok.onReplies _) hmem (fun p hp => ?_) res
      exact hs.replies r (List.mem_of_getElem? hr) p hp iph1 hmem hindex
  | delete index =>
    exact iff_of_true trivial (honHandle index hok fun iph1 hmem _ => delph1_poolOk hs hok hmem)

def NoneHeld (s : State) : Prop := ∀ h ∈ s.handles, ¬ h.Allocated

/-- A release never clears the flag. -/
theorem releaseClears_iff (s : State) : ReleaseClears s ↔ NoneHeld s := by
  constructor
  · intro hclears h hh halloc
    obtain ⟨r, hput, hflags⟩ := hclears h hh halloc
    have hstill := (putport_allocated hput).mpr halloc
    unfold Ph1handle.Allocated at hstill
    rw [hflags, clear_allocated] at hstill
    exact hstill rfl
  · intro hnone h hh halloc
    exact absurd halloc (hnone h hh)

theorem noneHeld_setHandle {s : State} {h' : Ph1handle} (hnone : NoneHeld s)
    (hh' : ¬ h'.Allocated) : NoneHeld (s.setHandle h') := by
  intro g hg
  obtain ⟨g0, hg0, rfl⟩ := List.mem_map.mp hg
  split
  · exact hh'
  · exact hnone g0 hg0

theorem noneHeld_delph1 {s s' : State} {iph1 : Ph1handle} (hnone : NoneHeld s)
    (h : delph1 s iph1 = some s') : NoneHeld s' := by
  obtain ⟨pool, -, rfl⟩ := Option.map_eq_some_iff.mp h
  intro g hg
  exact hnone g (List.mem_of_mem_filter hg)

theorem getportOf_noneHeld_iff {s : State} {iph1 : Ph1handle} {r : State × Option ℕ}
    (hnone : NoneHeld s) (hmem : iph1 ∈ s.handles) (h : getportOf s iph1 = some r) :
    NoneHeld r.1 ↔ ¬ ∃ used, s.pool = .live used ∧ false ∈ used := by
  have hfree := hnone iph1 hmem
  obtain ⟨⟨pool, h', port⟩, hget, rfl⟩ := Option.map_eq_some_iff.mp h
  rcases getport_cases hget with ⟨heq, halloc⟩ | ⟨heq, hfull⟩ | ⟨-, us, i, hus, hi, heq⟩
  · exact absurd halloc hfree
  · simp only [Prod.mk.injEq] at heq
    obtain ⟨rfl, rfl, rfl⟩ := heq
    exact iff_of_true (noneHeld_setHandle hnone hfree) hfull
  · simp only [Prod.mk.injEq] at heq
    obtain ⟨rfl, rfl, rfl⟩ := heq
    refine iff_of_false ?_ (fun hno => hno ⟨us, hus, List.mem_of_getElem? hi⟩)
    intro hall
    have hin : { iph1 with
        flags := iph1.flags ||| ISAKMP_CFG_PORT_ALLOCATED
        port := i } ∈ (s.setHandle
          { iph1 with
            flags := iph1.flags ||| ISAKMP_CFG_PORT_ALLOCATED
            port := i }).handles :=
      List.mem_map.mpr ⟨iph1, hmem, if_pos rfl⟩
    exact hall _ hin (or_allocated iph1.flags)

/-- Where no handle holds an address, none does after an event that grants none. -/
theorem step_noneHeld_iff {s s' : State} {e : Event} (hnone : NoneHeld s)
    (h : step s e = some s') : NoneHeld s' ↔ ¬ Grants s e := by
  have honHandle : ∀ {t : State} {index : ℕ} {f : Ph1handle → Option State}, NoneHeld t →
      t.onHandle index f = some s' →
      (∀ iph1 ∈ t.handles, f iph1 = some s' → NoneHeld s') → NoneHeld s' := by
    intro t index f ht hon hf
    unfold State.onHandle at hon
    split at hon
    · rw [← Option.some.inj hon]
      exact ht
    · exact hf _ (getph1byindex_some ‹_›).1 hon
  have hget : ∀ {index : ℕ} {f : Ph1handle → Option State},
      (∀ iph1, f iph1 = some s' → ∃ r, getportOf s iph1 = some r ∧ s'.handles = r.1.handles) →
      s.onHandle index f = some s' →
      (NoneHeld s' ↔ ¬ ∃ iph1, s.getph1byindex index = some iph1 ∧ ¬ iph1.Allocated ∧
        ∃ used, s.pool = .live used ∧ false ∈ used) := by
    intro index f hf hon
    unfold State.onHandle at hon
    cases hfind : s.getph1byindex index with
    | none =>
      simp only [hfind] at hon
      rw [← Option.some.inj hon]
      exact iff_of_true hnone (by simp)
    | some iph1 =>
      simp only [hfind] at hon
      obtain ⟨r, hr, hhandles⟩ := hf iph1 hon
      have hmem := (getph1byindex_some hfind).1
      have hsame : NoneHeld s' ↔ NoneHeld r.1 := by rw [NoneHeld, hhandles, NoneHeld]
      rw [hsame, getportOf_noneHeld_iff hnone hmem hr]
      simp only [Option.some.injEq, exists_eq_left', hnone iph1 hmem, not_false_iff, true_and]
  cases e with
  | begin =>
    obtain rfl := Option.some.inj h
    refine iff_of_true ?_ id
    intro g hg
    rcases List.mem_cons.mp hg with rfl | hg
    · exact new_free s.next
    · exact hnone g hg
  | mark index flags =>
    refine iff_of_true (honHandle hnone h fun iph1 hmem hset => ?_) id
    rw [← Option.some.inj hset]
    apply noneHeld_setHandle hnone
    unfold Ph1handle.Allocated
    rw [mark_allocated]
    exact hnone iph1 hmem
  | request index =>
    refine hget (fun iph1 hf => ?_) h
    obtain ⟨r, hr, hr'⟩ := Option.map_eq_some_iff.mp hf
    exact ⟨r, hr, by rw [hr']⟩
  | login index =>
    refine hget (fun iph1 hf => ?_) h
    obtain ⟨r, hr, rfl⟩ := Option.map_eq_some_iff.mp hf
    exact ⟨r, hr, rfl⟩
  | reply k res =>
    refine iff_of_true ?_ id
    cases hr : s.replies[k]? with
    | none =>
      simp only [step, hr] at h
      rw [← Option.some.inj h]
      exact hnone
    | some r =>
      simp only [step, hr] at h
      have herased : NoneHeld { s with replies := s.replies.eraseIdx k } := hnone
      refine honHandle herased h fun iph1 hmem hreply => ?_
      unfold xauthReply at hreply
      split at hreply
      · rw [← Option.some.inj hreply]
        exact herased
      · split at hreply
        · exact noneHeld_delph1 herased hreply
        · obtain ⟨q, hput, hdel⟩ := Option.bind_eq_some_iff.mp hreply
          refine noneHeld_delph1 (noneHeld_setHandle ?_ ?_) hdel
          · exact herased
          · exact fun ha => hnone iph1 hmem ((putport_allocated hput).mp ha)
  | delete index =>
    refine iff_of_true (honHandle hnone h fun iph1 _ hdel => ?_) id
    exact noneHeld_delph1 hnone hdel
  | resize size =>
    obtain ⟨pool, -, rfl⟩ := Option.map_eq_some_iff.mp h
    exact iff_of_true hnone id

theorem cold_side : Side State.cold where
  nodup := List.nodup_nil
  below := by simp [State.cold]
  repliesBelow := by simp [State.cold]
  replies := by simp [State.cold]

theorem cold_poolOk : PoolOk State.cold where
  unique := List.nodup_nil
  inside := by simp [State.cold, heldBy]
  marked := ⟨[], rfl, by simp [State.cold, heldBy]⟩

/-- From a cold start the pool stays in step with the handles exactly when every
    resize fits; that releases clear the flag as well holds only of the runs in
    which no address is ever granted. -/
theorem pool_kept_iff (es : List Event) :
    (Kept step PoolOk .cold es ↔ Along step Fits .cold es) ∧
      (Kept step (fun s => PoolOk s ∧ ReleaseClears s) .cold es ↔
        Along step (fun s e => Fits s e ∧ ¬ Grants s e) .cold es) := by
  constructor
  · exact kept_iff_along (fun s e s' => Side.step) step_poolOk_iff cold_side cold_poolOk
  · refine kept_iff_along (fun s e s' => Side.step) ?_ cold_side
      ⟨cold_poolOk, (releaseClears_iff _).mpr (by simp [NoneHeld, State.cold])⟩
    intro s e hs hinv
    obtain ⟨hok, hclears⟩ := hinv
    have hnone := (releaseClears_iff s).mp hclears
    rw [step_poolOk_iff s e hs hok]
    constructor
    · rintro ⟨⟨s', hstep, hok'⟩, hgrants⟩
      have hnone' := (step_noneHeld_iff hnone hstep).mpr hgrants
      exact ⟨s', hstep, hok', (releaseClears_iff s').mpr hnone'⟩
    · rintro ⟨s', hstep, hok', hclears'⟩
      have hnone' := (releaseClears_iff s').mp hclears'
      exact ⟨⟨s', hstep, hok'⟩, (step_noneHeld_iff hnone hstep).mp hnone'⟩

/-- A pool of four, two addresses in use, and a reload that asks for one. -/
def reload : List Event :=
  [.resize 4, .begin, .request 0, .begin, .request 1, .resize 1]

/-- The reload cuts the second address: its holder's index is the new size. -/
theorem reload_cuts :
    ((run step .cold reload).map fun s => (s.pool, heldBy s.handles)) =
        some (.live [true], [1, 0]) ∧
      ¬ Kept step PoolOk .cold reload := by
  constructor
  · decide
  · intro hkept
    simp only [reload, Kept] at hkept
    obtain ⟨-, s₁, h₁, -, s₂, h₂, -, s₃, h₃, -, s₄, h₄, -, s₅, h₅, -, s₆, h₆, hok⟩ := hkept
    obtain rfl := Option.some.inj h₁
    obtain rfl := Option.some.inj h₂
    obtain rfl := Option.some.inj h₃
    obtain rfl := Option.some.inj h₄
    obtain rfl := Option.some.inj h₅
    obtain rfl := Option.some.inj h₆
    exact absurd (hok.inside 1 (by decide)) (by decide)

end WanStack.Racoon.AddressPool
