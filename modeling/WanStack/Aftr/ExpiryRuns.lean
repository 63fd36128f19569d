import WanStack.Aftr.ExpiryHeap

set_option autoImplicit false

/-!
# Runs of the expiry heap

Entries come and go and their timeouts move both ways. The heap has the live entries with a
timeout, each in the slot its index names, so that the expiry in `loop` misses none.
-/
namespace WanStack.Aftr
open BinaryHeap

namespace NatHeap

variable {s s' : NatHeap} {f : ℕ → ℕ} {i j n m v : ℕ}

/-- `m` is in one of the slots. -/
def OnHeap (s : NatHeap) (m : ℕ) : Prop := ∃ j, 0 < j ∧ j ≤ s.last ∧ s.slot j = m

/-- The array has the slots, and a timeout can be renewed. -/
structure Entries (s : NatHeap) : Prop where
  room : s.last < s.size ∨ s.last = 0
  nodup : s.live.Nodup
  null : 0 ∉ s.live
  lifetime : ∀ n ∈ s.live, s.timeout n ≠ 0 → 0 < s.lifetime n

structure Arranged (s : NatHeap) : Prop where
  ordered : Ordered (s.keys s.slot) s.last
  index : ∀ j, 0 < j → j ≤ s.last → s.heapIndex (s.slot j) = j

structure Ok (s : NatHeap) : Prop extends Arranged s where
  entries : s.Entries
  mem : ∀ m, s.OnHeap m ↔ m ∈ s.live ∧ s.timeout m ≠ 0
  static : ∀ n ∈ s.live, s.timeout n = 0 → s.heapIndex n = 0

theorem Ok.inHeap (h : s.Ok) (hn : n ∈ s.live) (ht : s.timeout n ≠ 0) :
    0 < s.heapIndex n ∧ s.heapIndex n ≤ s.last ∧ s.slot (s.heapIndex n) = n := by
  obtain ⟨j, hj, hjl, hslot⟩ := (h.mem n).mpr ⟨hn, ht⟩
  have hidx := h.index j hj hjl
  rw [hslot] at hidx
  rw [hidx]
  exact ⟨hj, hjl, hslot⟩

theorem Arranged.slot_inj (h : s.Arranged) (hi : 0 < i) (hil : i ≤ s.last) (hj : 0 < j) (hjl : j ≤ s.last)
    (heq : s.slot i = s.slot j) : i = j := by
  rw [← h.index i hi hil, heq, h.index j hj hjl]

/-- The heap is in order again when its entries are the live ones with a timeout. -/
theorem Settled.ok (h : Settled s' s f) (hent : s.Entries)
    (hmem : ∀ m, (∃ j, 0 < j ∧ j ≤ s.last ∧ f j = m) ↔ m ∈ s.live ∧ s.timeout m ≠ 0)
    (hstatic : ∀ n ∈ s.live, s.timeout n = 0 → s.heapIndex n = 0) : s'.Ok := by
  have hrest := h.rest
  have hlast : s'.last = s.last := by rw [hrest]
  have hlive : s'.live = s.live := by rw [hrest]
  have htimeout : s'.timeout = s.timeout := by rw [hrest]
  have hlifetime : s'.lifetime = s.lifetime := by rw [hrest]
  have hsize : s'.size = s.size := by rw [hrest]
  refine ⟨⟨?_, ?_⟩, ⟨?_, ?_, ?_, ?_⟩, ?_, ?_⟩
  · have hordered := h.ordered
    unfold keys at hordered ⊢
    rwa [htimeout, hlast]
  · rw [hlast]
    exact h.index
  · rw [hlast, hsize]
    exact hent.room
  · rw [hlive]
    exact hent.nodup
  · rw [hlive]
    exact hent.null
  · rw [hlive, htimeout, hlifetime]
    exact hent.lifetime
  · intro m
    unfold OnHeap
    rw [hlast, hlive, htimeout, h.mem m]
    exact hmem m
  · rw [hlive, htimeout]
    intro n hn ht
    rw [h.away n, hstatic n hn ht]
    intro j hj hjl hfj
    exact ((hmem n).mp ⟨j, hj, hjl, hfj⟩).2 ht

/-! ### What a move leaves alone -/

/-- The entries are the same, only their places may differ. -/
structure SameEntries (s' s : NatHeap) : Prop where
  timeout : s'.timeout = s.timeout
  lifetime : s'.lifetime = s.lifetime
  live : s'.live = s.live

theorem SameEntries.refl (s : NatHeap) : SameEntries s s := ⟨rfl, rfl, rfl⟩

theorem natHeapFloatUp_same (i n : ℕ) (s : NatHeap) : SameEntries (natHeapFloatUp i n s) s := by
  induction i using Nat.strongRecOn generalizing s with
  | ind i ih =>
    unfold natHeapFloatUp
    split
    · rename_i hcond
      have hlt : i >>> 1 < i := by
        rw [Nat.shiftRight_eq_div_pow]
        omega
      have hrec := ih (i >>> 1) hlt (s.put i (s.slot (i >>> 1)))
      exact ⟨hrec.timeout, hrec.lifetime, hrec.live⟩
    · exact ⟨rfl, rfl, rfl⟩

theorem natHeapSinkDown_same (i n : ℕ) (hi : 0 < i) (s : NatHeap) :
    SameEntries (natHeapSinkDown i n hi s) s := by
  induction hk : s.last - i using Nat.strongRecOn generalizing s i with
  | ind d ih =>
    have hcases := s.smallest_cases i
    unfold natHeapSinkDown
    split
    · split
      · exact ⟨rfl, rfl, rfl⟩
      · have hlast : (s.put i (s.slot (s.smallest i))).last = s.last := rfl
        have hrec := ih (s.last - s.smallest i) (by omega) (s.smallest i) (by omega)
          (s.put i (s.slot (s.smallest i))) (by rw [hlast])
        exact ⟨hrec.timeout, hrec.lifetime, hrec.live⟩
    · exact ⟨rfl, rfl, rfl⟩

theorem natHeapIncreased_same (i : ℕ) (s : NatHeap) :
    SameEntries (natHeapIncreased i s) s := by
  unfold natHeapIncreased
  split
  · exact .refl s
  · exact natHeapFloatUp_same _ _ _

theorem natHeapDecreased_same (i : ℕ) (s : NatHeap) :
    SameEntries (natHeapDecreased i s) s := by
  unfold natHeapDecreased
  split
  · exact .refl s
  · exact natHeapSinkDown_same _ _ _ _

theorem natHeapDelete_same (i : ℕ) (s : NatHeap) : SameEntries (natHeapDelete i s) s := by
  unfold natHeapDelete
  split
  · exact .refl s
  · extract_lets m s₁
    split
    · exact ⟨rfl, rfl, rfl⟩
    · split
      · have hsame := natHeapFloatUp_same i m { s₁ with slot := Function.update s₁.slot i m }
        exact ⟨hsame.timeout, hsame.lifetime, hsame.live⟩
      · have hsame := natHeapSinkDown_same i m (by omega)
          { s₁ with slot := Function.update s₁.slot i m }
        exact ⟨hsame.timeout, hsame.lifetime, hsame.live⟩

/-! ### Timeouts -/

/-- The slots with a new timeout for the entry of slot `i`. -/
theorem keys_setTimeout (h : s.Ok) (hi : 0 < i) (hil : i ≤ s.last) (hj : 0 < j)
    (hjl : j ≤ s.last) : (s.setTimeout (s.slot i) v).keys s.slot j =
      Function.update (s.keys s.slot) i v j := by
  change Function.update s.timeout (s.slot i) v (s.slot j) = _
  by_cases hji : j = i
  · rw [hji, Function.update_self, Function.update_self]
  · rw [Function.update_of_ne hji, Function.update_of_ne]
    · rfl
    · exact fun heq => hji (h.slot_inj hj hjl hi hil heq)

theorem filled_self (s : NatHeap) (i : ℕ) : s.filled i (s.slot i) = s.slot :=
  Function.update_eq_self i s.slot

theorem Ok.hole (h : s.Ok) (hi : 0 < i) (hil : i ≤ s.last) : s.Hole i (s.slot i) :=
  ⟨fun j hj hjl _ => h.index j hj hjl,
    fun _ hj hjl hji heq => hji (h.slot_inj hj hjl hi hil heq)⟩

theorem setTimeout_entries (h : s.Ok) (hn : n ∈ s.live) (ht : s.timeout n ≠ 0) :
    (s.setTimeout n v).Entries := by
  refine ⟨h.entries.room, h.entries.nodup, h.entries.null, ?_⟩
  intro m hm hmt
  by_cases hmn : m = n
  · rw [hmn]
    exact h.entries.lifetime n hn ht
  · apply h.entries.lifetime m hm
    have hsame : (s.setTimeout n v).timeout m = s.timeout m := Function.update_of_ne hmn _ _
    rwa [hsame] at hmt

theorem setTimeout_mem (h : s.Ok) (ht : s.timeout n ≠ 0) (hv : v ≠ 0) (m : ℕ) :
    s.OnHeap m ↔ m ∈ s.live ∧ (s.setTimeout n v).timeout m ≠ 0 := by
  rw [h.mem m]
  change _ ↔ m ∈ s.live ∧ Function.update s.timeout n v m ≠ 0
  by_cases hmn : m = n
  · rw [hmn, Function.update_self]
    exact and_congr_right fun _ => ⟨fun _ => hv, fun _ => ht⟩
  · rw [Function.update_of_ne hmn]

theorem setTimeout_static (h : s.Ok) (hv : v ≠ 0) : ∀ m ∈ s.live,
    (s.setTimeout n v).timeout m = 0 → s.heapIndex m = 0 := by
  intro m hm hmt
  by_cases hmn : m = n
  · rw [hmn] at hmt
    have hself : (s.setTimeout n v).timeout n = v := Function.update_self _ _ _
    exact absurd (hself.symm.trans hmt) hv
  · have hsame : (s.setTimeout n v).timeout m = s.timeout m := Function.update_of_ne hmn _ _
    exact h.static m hm (hsame.symm.trans hmt)

theorem setTimeout_hole (h : s.Ok) (hn : n ∈ s.live) (ht : s.timeout n ≠ 0) :
    (s.setTimeout n v).Hole (s.heapIndex n) n ∧
      (s.setTimeout n v).filled (s.heapIndex n) n = s.slot := by
  obtain ⟨hi, hil, hslot⟩ := h.inHeap hn ht
  have hole := h.hole hi hil
  have hself := s.filled_self (s.heapIndex n)
  rw [hslot] at hole hself
  exact ⟨⟨hole.index, hole.other⟩, hself⟩

theorem later_ok (h : s.Ok) (hn : n ∈ s.live) (ht : s.timeout n ≠ 0) (hv : s.timeout n ≤ v) :
    ((s.setTimeout n v).natHeapDecreased (s.heapIndex n)).Ok := by
  obtain ⟨hi, hil, hslot⟩ := h.inHeap hn ht
  have hv0 : v ≠ 0 := by omega
  have hkeys := fun j hj hjl => keys_setTimeout (j := j) (v := v) h hi hil hj hjl
  obtain ⟨hole, hfilled⟩ := setTimeout_hole (v := v) h hn ht
  have hord : DownOrdered ((s.setTimeout n v).keys s.slot) s.last (s.heapIndex n) := by
    apply DownOrdered.congr (h.ordered.larger (i := s.heapIndex n) (b := v) ?_)
    · intro j hj hjl
      rw [← hkeys j hj hjl, hslot]
    · unfold keys
      rwa [hslot]
  unfold natHeapDecreased
  rw [dif_neg (by change ¬ (s.heapIndex n < 1 ∨ s.last < s.heapIndex n); omega)]
  have hsettled := natHeapSinkDown_settled hole (by rw [hfilled]; exact hord) hi hil
  have hslot' : (s.setTimeout n v).slot (s.heapIndex n) = n := hslot
  rw [hfilled] at hsettled
  simp only [hslot']
  exact hsettled.ok (setTimeout_entries h hn ht) (setTimeout_mem h ht hv0)
    (setTimeout_static h hv0)

theorem sooner_ok (h : s.Ok) (hn : n ∈ s.live) (ht : s.timeout n ≠ 0) (hv0 : v ≠ 0)
    (hv : v ≤ s.timeout n) : ((s.setTimeout n v).natHeapIncreased (s.heapIndex n)).Ok := by
  obtain ⟨hi, hil, hslot⟩ := h.inHeap hn ht
  have hkeys := fun j hj hjl => keys_setTimeout (j := j) (v := v) h hi hil hj hjl
  obtain ⟨hole, hfilled⟩ := setTimeout_hole (v := v) h hn ht
  have hord : UpOrdered ((s.setTimeout n v).keys s.slot) s.last (s.heapIndex n) := by
    apply UpOrdered.congr (h.ordered.smaller (i := s.heapIndex n) (b := v) ?_)
    · intro j hj hjl
      rw [← hkeys j hj hjl, hslot]
    · unfold keys
      rwa [hslot]
  unfold natHeapIncreased
  rw [if_neg (by change ¬ (s.heapIndex n < 1 ∨ s.last < s.heapIndex n); omega)]
  have hsettled := natHeapFloatUp_settled hole (by rw [hfilled]; exact hord) hi hil
  have hslot' : (s.setTimeout n v).slot (s.heapIndex n) = n := hslot
  rw [hfilled] at hsettled
  rw [hslot']
  exact hsettled.ok (setTimeout_entries h hn ht) (setTimeout_mem h ht hv0)
    (setTimeout_static h hv0)

theorem extend_ok (h : s.Ok) (hn : n ∈ s.live) : (s.extend n v).Ok := by
  unfold extend
  split
  · rename_i hcond
    exact later_ok h hn hcond.1 hcond.2.le
  · exact h

theorem setTcpst_ok (h : s.Ok) : (s.setTcpst n v).Ok :=
  ⟨⟨h.ordered, h.index⟩,
    ⟨h.entries.room, h.entries.nodup, h.entries.null, h.entries.lifetime⟩, h.mem, h.static⟩

theorem setLifetime_ok (h : s.Ok) (hv : 0 < v) : (s.setLifetime n v).Ok := by
  refine ⟨⟨h.ordered, h.index⟩, ⟨h.entries.room, h.entries.nodup, h.entries.null, ?_⟩, h.mem,
    h.static⟩
  intro m hm hmt
  change 0 < Function.update s.lifetime n v m
  by_cases hmn : m = n
  · rwa [hmn, Function.update_self]
  · rw [Function.update_of_ne hmn]
    exact h.entries.lifetime m hm hmt

/-- A segment that closes a connection only shortens its timeout. -/
theorem tcpstate_ok (here there : ℕ) (c : NatLifetime) (seconds flags : ℕ) (h : s.Ok)
    (hn : n ∈ s.live) : (s.tcpstate here there c seconds n flags).1.Ok ∧
      (s.tcpstate here there c seconds n flags).1.live = s.live := by
  unfold tcpstate
  split
  · exact ⟨h, rfl⟩
  · rename_i ht
    extract_lets s₁ s₂ s₃
    have h₁ : s₁.Ok ∧ s₁.live = s.live ∧ s₁.timeout = s.timeout := by
      unfold s₁
      split
      · exact ⟨setTcpst_ok h, rfl, rfl⟩
      · exact ⟨h, rfl, rfl⟩
    obtain ⟨hok₁, hlive₁, htimeout₁⟩ := h₁
    have hok₂ : s₂.Ok := setTcpst_ok hok₁
    have hlife : 0 < s₃.lifetime n := by
      change 0 < Function.update s₂.lifetime n _ n
      rw [Function.update_self]
      split
      · split
        · exact c.pos 3
        · exact c.pos 4
      · exact c.pos 1
    have hok₃ : s₃.Ok := by
      apply setLifetime_ok hok₂
      have hself : s₃.lifetime n = _ := Function.update_self n _ s₂.lifetime
      rwa [← hself]
    split
    · exact ⟨hok₁, hlive₁⟩
    · split
      · exact ⟨hok₁, hlive₁⟩
      · split
        · exact ⟨hok₂, hlive₁⟩
        · split
          · exact ⟨hok₃, hlive₁⟩
          · rename_i hlt
            have hn₃ : n ∈ s₃.live := by
              change n ∈ s₁.live
              rwa [hlive₁]
            have ht₃ : s₃.timeout n ≠ 0 := by
              change s₁.timeout n ≠ 0
              rwa [htimeout₁]
            refine ⟨sooner_ok hok₃ hn₃ ht₃ (by omega) (by omega), ?_⟩
            exact (natHeapIncreased_same _ _).live.trans hlive₁

/-! ### Deletion -/

/-- The entry of slot `i` is gone from the heap. -/
structure Removed (s' s : NatHeap) (i : ℕ) : Prop where
  same : SameEntries s' s
  size : s'.size = s.size
  last : s'.last = s.last - 1
  ordered : Ordered (s.keys s'.slot) (s.last - 1)
  index : ∀ j, 0 < j → j ≤ s.last - 1 → s'.heapIndex (s'.slot j) = j
  mem : ∀ m, s'.OnHeap m ↔ s.OnHeap m ∧ m ≠ s.slot i
  away : ∀ m, ¬s.OnHeap m → s'.heapIndex m = s.heapIndex m

theorem removed_last (h : s.Arranged) (hpos : 0 < s.last) :
    Removed { s with slot := Function.update s.slot s.last 0, last := s.last - 1 } s s.last := by
  have hslot : ∀ j, j ≤ s.last - 1 → Function.update s.slot s.last 0 j = s.slot j :=
    fun j hj => Function.update_of_ne (by omega) _ _
  refine ⟨⟨rfl, rfl, rfl⟩, rfl, rfl, ?_, ?_, ?_, fun m _ => rfl⟩
  · apply h.ordered.pop.congr
    intro j hj hjl
    exact congrArg s.timeout (hslot j hjl)
  · intro j hj hjl
    change s.heapIndex (Function.update s.slot s.last 0 j) = j
    rw [hslot j hjl]
    exact h.index j hj (by omega)
  · intro m
    constructor
    · rintro ⟨j, hj, hjl, hm⟩
      change j ≤ s.last - 1 at hjl
      change Function.update s.slot s.last 0 j = m at hm
      rw [hslot j hjl] at hm
      refine ⟨⟨j, hj, by omega, hm⟩, ?_⟩
      rintro rfl
      have hj' := h.slot_inj hj (by omega) hpos (Nat.le_refl _) hm
      omega
    · rintro ⟨⟨j, hj, hjl, rfl⟩, hne⟩
      have hj' : j ≠ s.last := fun e => hne (by rw [e])
      have hjl' : j ≤ s.last - 1 := by omega
      exact ⟨j, hj, hjl', hslot j hjl'⟩

/-- The last entry takes slot `i`. -/
def refilled (s : NatHeap) (i : ℕ) : NatHeap :=
  { s with
    slot := Function.update (Function.update s.slot s.last 0) i (s.slot s.last)
    last := s.last - 1 }

theorem refilled_other (hji : j ≠ i) (hjl : j ≤ s.last - 1) (hj : 0 < j) :
    (s.refilled i).slot j = s.slot j := by
  change Function.update (Function.update s.slot s.last 0) i (s.slot s.last) j = s.slot j
  rw [Function.update_of_ne hji, Function.update_of_ne (by omega)]

theorem refilled_self : (s.refilled i).slot i = s.slot s.last := Function.update_self _ _ _

theorem refilled_hole (h : s.Arranged) (hi : 0 < i) (hil : i < s.last) :
    (s.refilled i).Hole i (s.slot s.last) := by
  constructor
  · intro j hj hjl hji
    change j ≤ s.last - 1 at hjl
    rw [refilled_other hji hjl hj]
    exact h.index j hj (by omega)
  · intro j hj hjl hji heq
    change j ≤ s.last - 1 at hjl
    rw [refilled_other hji hjl hj] at heq
    have hj' := h.slot_inj hj (by omega) (by omega) (Nat.le_refl _) heq
    omega

theorem refilled_keys (hj : 0 < j) (hjl : j ≤ s.last - 1) :
    s.keys (s.refilled i).slot j =
      Function.update (s.keys s.slot) i (s.timeout (s.slot s.last)) j := by
  unfold keys
  by_cases hji : j = i
  · rw [hji, refilled_self, Function.update_self]
  · rw [refilled_other hji hjl hj, Function.update_of_ne hji]

theorem refilled_mem (h : s.Arranged) (hi : 0 < i) (hil : i < s.last) (m : ℕ) :
    (∃ j, 0 < j ∧ j ≤ s.last - 1 ∧ (s.refilled i).slot j = m) ↔
      s.OnHeap m ∧ m ≠ s.slot i := by
  constructor
  · rintro ⟨j, hj, hjl, rfl⟩
    by_cases hji : j = i
    · rw [hji, refilled_self]
      refine ⟨⟨s.last, by omega, Nat.le_refl _, rfl⟩, fun heq => ?_⟩
      have hj' := h.slot_inj (by omega) (Nat.le_refl _) hi hil.le heq
      omega
    · rw [refilled_other hji hjl hj]
      refine ⟨⟨j, hj, by omega, rfl⟩, fun heq => ?_⟩
      exact hji (h.slot_inj hj (by omega) hi hil.le heq)
  · rintro ⟨⟨j, hj, hjl, rfl⟩, hne⟩
    by_cases hlast : j = s.last
    · exact ⟨i, hi, by omega, by rw [refilled_self, hlast]⟩
    · have hji : j ≠ i := fun e => hne (by rw [e])
      exact ⟨j, hj, by omega, refilled_other hji (by omega) hj⟩

/-- Settling the last entry in slot `i` removes what was there. -/
theorem Settled.removed (hset : Settled s' (s.refilled i) (s.refilled i).slot) (h : s.Arranged)
    (hi : 0 < i) (hil : i < s.last) : Removed s' s i := by
  have hrest := hset.rest
  have hlast : s'.last = s.last - 1 := by
    rw [hrest]
    rfl
  refine ⟨⟨?_, ?_, ?_⟩, ?_, hlast, hset.ordered, hset.index, ?_, ?_⟩
  · rw [hrest]
    rfl
  · rw [hrest]
    rfl
  · rw [hrest]
    rfl
  · rw [hrest]
    rfl
  · intro m
    unfold OnHeap
    rw [hlast]
    exact (hset.mem m).trans (refilled_mem h hi hil m)
  · intro m hm
    refine hset.away m ?_
    intro j hj hjl heq
    exact hm ((refilled_mem h hi hil m).mp ⟨j, hj, hjl, heq⟩).1

theorem natHeapDelete_removed (h : s.Arranged) (hi : 0 < i) (hil : i ≤ s.last) :
    Removed (natHeapDelete i s) s i := by
  unfold natHeapDelete
  rw [dif_neg (by omega)]
  extract_lets m s₁
  by_cases hlast : i = s.last
  · rw [if_pos hlast, hlast]
    exact removed_last h (by omega)
  · have hlt : i < s.last := by omega
    have hslot : s₁.slot i = s.slot i := Function.update_of_ne hlast _ _
    have hfilled : (s.refilled i).filled i m = (s.refilled i).slot := by
      change Function.update (Function.update (Function.update s.slot s.last 0) i m) i m = _
      rw [Function.update_idem]
      rfl
    have hkeys := fun j hj hjl => refilled_keys (i := i) (j := j) (s := s) hj hjl
    rw [if_neg hlast, hslot]
    split
    · rename_i hless
      have hup : UpOrdered (s.keys (s.refilled i).slot) (s.last - 1) i :=
        (h.ordered.pop.smaller (i := i) hless.le).congr hkeys
      have hset := natHeapFloatUp_settled (refilled_hole h hi hlt) (by rw [hfilled]; exact hup)
        hi (show i ≤ s.last - 1 by omega)
      rw [hfilled] at hset
      exact hset.removed h hi hlt
    · rename_i hless
      have hdown : DownOrdered (s.keys (s.refilled i).slot) (s.last - 1) i :=
        (h.ordered.pop.larger (i := i) (Nat.le_of_not_lt hless)).congr hkeys
      have hset := natHeapSinkDown_settled (refilled_hole h hi hlt)
        (by rw [hfilled]; exact hdown) hi (show i ≤ s.last - 1 by omega)
      rw [hfilled] at hset
      exact hset.removed h hi hlt

/-- The fields of an entry that is not live do not count. -/
theorem Ok.outside (h : s.Ok) (hn : n ∉ s.live) (hlive : s'.live = s.live)
    (hslot : s'.slot = s.slot) (hlast : s'.last = s.last) (hsize : s'.size = s.size)
    (hfields : ∀ m, m ≠ n → s'.timeout m = s.timeout m ∧ s'.lifetime m = s.lifetime m ∧
      s'.heapIndex m = s.heapIndex m) : s'.Ok := by
  have hne : ∀ m ∈ s.live, m ≠ n := by
    rintro m hm rfl
    exact hn hm
  have hin : ∀ j, 0 < j → j ≤ s.last → s.slot j ∈ s.live :=
    fun j hj hjl => ((h.mem _).mp ⟨j, hj, hjl, rfl⟩).1
  refine ⟨⟨?_, ?_⟩, ⟨?_, ?_, ?_, ?_⟩, ?_, ?_⟩
  · rw [hlast, hslot]
    apply h.ordered.congr
    intro j hj hjl
    exact (hfields _ (hne _ (hin j hj hjl))).1
  · rw [hlast, hslot]
    intro j hj hjl
    rw [(hfields _ (hne _ (hin j hj hjl))).2.2]
    exact h.index j hj hjl
  · rw [hlast, hsize]
    exact h.entries.room
  · rw [hlive]
    exact h.entries.nodup
  · rw [hlive]
    exact h.entries.null
  · rw [hlive]
    intro m hm
    obtain ⟨htm, hlm, -⟩ := hfields m (hne m hm)
    rw [htm, hlm]
    exact h.entries.lifetime m hm
  · intro m
    unfold OnHeap
    rw [hlast, hslot, hlive]
    refine (h.mem m).trans (and_congr_right fun hm => ?_)
    rw [(hfields m (hne m hm)).1]
  · rw [hlive]
    intro m hm htm
    obtain ⟨htm', -, him⟩ := hfields m (hne m hm)
    rw [him]
    exact h.static m hm (htm'.symm.trans htm)

/-- `del_nat` of an entry of slot `i`. -/
theorem Removed.ok (hr : Removed s' s i) (h : s.Ok) (hn : s.slot i = n) :
    NatHeap.Ok { s' with
      heapIndex := Function.update s'.heapIndex n 0
      live := s'.live.erase n } := by
  have hlive : ∀ m, m ∈ s.live.erase n ↔ m ≠ n ∧ m ∈ s.live :=
    fun m => h.entries.nodup.mem_erase_iff
  have hgone : ∀ j, 0 < j → j ≤ s.last - 1 → s'.slot j ≠ n := by
    intro j hj hjl heq
    have hmem := (hr.mem n).mp ⟨j, hj, by rw [hr.last]; exact hjl, heq⟩
    exact hmem.2 hn.symm
  refine ⟨⟨?_, ?_⟩, ⟨?_, ?_, ?_, ?_⟩, ?_, ?_⟩
  · change Ordered (fun j => s'.timeout (s'.slot j)) s'.last
    rw [hr.last, hr.same.timeout]
    exact hr.ordered
  · change ∀ j, 0 < j → j ≤ s'.last → Function.update s'.heapIndex n 0 (s'.slot j) = j
    rw [hr.last]
    intro j hj hjl
    rw [Function.update_of_ne (hgone j hj hjl)]
    exact hr.index j hj hjl
  · change s'.last < s'.size ∨ s'.last = 0
    have hroom := h.entries.room
    rw [hr.last, hr.size]
    omega
  · change (s'.live.erase n).Nodup
    rw [hr.same.live]
    exact h.entries.nodup.erase n
  · change 0 ∉ s'.live.erase n
    rw [hr.same.live, hlive]
    exact fun hm => h.entries.null hm.2
  · change ∀ m ∈ s'.live.erase n, s'.timeout m ≠ 0 → 0 < s'.lifetime m
    rw [hr.same.live, hr.same.timeout, hr.same.lifetime]
    exact fun m hm => h.entries.lifetime m ((hlive m).mp hm).2
  · intro m
    change s'.OnHeap m ↔ m ∈ s'.live.erase n ∧ s'.timeout m ≠ 0
    rw [hr.same.live, hr.same.timeout, hr.mem m, h.mem m, hlive, hn]
    tauto
  · change ∀ m ∈ s'.live.erase n, s'.timeout m = 0 → Function.update s'.heapIndex n 0 m = 0
    rw [hr.same.live, hr.same.timeout]
    intro m hm htm
    obtain ⟨hmn, hm⟩ := (hlive m).mp hm
    rw [Function.update_of_ne hmn, hr.away m fun hon => ((h.mem m).mp hon).2 htm]
    exact h.static m hm htm

theorem delNat_ok (h : s.Ok) (hn : n ∈ s.live) : (s.delNat n).Ok ∧
    (s.delNat n).timeout = s.timeout ∧ (s.delNat n).live = s.live.erase n ∧
    (s.timeout n ≠ 0 → (s.delNat n).last = s.last - 1) := by
  unfold delNat
  by_cases ht : s.timeout n = 0
  · have hidx := h.static n hn ht
    rw [if_neg fun hne => hne hidx]
    refine ⟨?_, rfl, rfl, fun hne => absurd ht hne⟩
    have hlive : ∀ m, m ∈ s.live.erase n ↔ m ≠ n ∧ m ∈ s.live :=
      fun m => h.entries.nodup.mem_erase_iff
    have hsame : Function.update s.heapIndex n 0 = s.heapIndex := by
      rw [← hidx]
      exact Function.update_eq_self n s.heapIndex
    change NatHeap.Ok { s with
      heapIndex := Function.update s.heapIndex n 0
      live := s.live.erase n }
    rw [hsame]
    refine ⟨⟨h.ordered, h.index⟩, ⟨h.entries.room, h.entries.nodup.erase n, ?_, ?_⟩, ?_, ?_⟩
    · exact fun hm => h.entries.null ((hlive 0).mp hm).2
    · exact fun m hm => h.entries.lifetime m ((hlive m).mp hm).2
    · intro m
      change s.OnHeap m ↔ m ∈ s.live.erase n ∧ s.timeout m ≠ 0
      rw [h.mem m, hlive]
      constructor
      · rintro ⟨hm, htm⟩
        exact ⟨⟨fun e => htm (e ▸ ht), hm⟩, htm⟩
      · rintro ⟨⟨-, hm⟩, htm⟩
        exact ⟨hm, htm⟩
    · exact fun m hm => h.static m ((hlive m).mp hm).2
  · obtain ⟨hi, hil, hslot⟩ := h.inHeap hn ht
    have hr := natHeapDelete_removed h.toArranged hi hil
    rw [if_pos (by omega)]
    refine ⟨hr.ok h hslot, hr.same.timeout, ?_, fun _ => hr.last⟩
    change (natHeapDelete (s.heapIndex n) s).live.erase n = _
    rw [hr.same.live]

/-! ### Insertion -/

theorem allocNat_ok (h : s.Ok) (hn : n ∉ s.live) (t l : ℕ) : (s.allocNat n t l).Ok := by
  apply Ok.outside h hn
  · rfl
  · rfl
  · rfl
  · rfl
  · intro m hm
    exact ⟨Function.update_of_ne hm _ _, Function.update_of_ne hm _ _,
      Function.update_of_ne hm _ _⟩

/-- With one more slot for a new entry. -/
def grown (s : NatHeap) (size : ℕ) : NatHeap := { s with size := size, last := s.last + 1 }

theorem grown_settled (h : s.Ok) (hn : n ∉ s.live) (size : ℕ) :
    Settled (natHeapFloatUp (s.last + 1) n (s.grown size)) (s.grown size)
      (Function.update s.slot (s.last + 1) n) := by
  have hne : ∀ j, 0 < j → j ≤ s.last → s.slot j ≠ n := by
    rintro j hj hjl rfl
    exact hn ((h.mem _).mp ⟨j, hj, hjl, rfl⟩).1
  have hole : (s.grown size).Hole (s.last + 1) n := by
    constructor
    · intro j hj hjl hji
      change j ≤ s.last + 1 at hjl
      exact h.index j hj (by omega)
    · intro j hj hjl hji
      change j ≤ s.last + 1 at hjl
      exact hne j hj (by omega)
  have hup : UpOrdered ((s.grown size).keys ((s.grown size).filled (s.last + 1) n))
      (s.last + 1) (s.last + 1) := by
    apply (h.ordered.push (s.timeout n)).congr
    intro j hj hjl
    change s.timeout (Function.update s.slot (s.last + 1) n j) = _
    by_cases hji : j = s.last + 1
    · rw [hji, Function.update_self, Function.update_self]
    · rw [Function.update_of_ne hji, Function.update_of_ne hji]
      rfl
  exact natHeapFloatUp_settled hole hup (by omega) (Nat.le_refl _)

/-- The new entry is live. -/
theorem grown_ok (h : s.Ok) (hn : n ∉ 0 :: s.live) (ht : s.timeout n ≠ 0)
    (hl : 0 < s.lifetime n) {size : ℕ} (hsize : s.last + 1 < size) :
    NatHeap.Ok { natHeapFloatUp (s.last + 1) n (s.grown size) with live := n :: s.live } := by
  rw [List.mem_cons, not_or] at hn
  obtain ⟨hn0, hn⟩ := hn
  have hset := grown_settled h hn size
  have hset' : Settled { natHeapFloatUp (s.last + 1) n (s.grown size) with live := n :: s.live }
      { s.grown size with live := n :: s.live } (Function.update s.slot (s.last + 1) n) := by
    refine ⟨hset.ordered, hset.index, hset.mem, hset.away, ?_⟩
    rw [hset.rest]
  apply hset'.ok
  · refine ⟨.inl hsize, List.nodup_cons.mpr ⟨hn, h.entries.nodup⟩, ?_, ?_⟩
    · exact fun hm => (List.mem_cons.mp hm).elim (fun e => hn0 e.symm) h.entries.null
    · intro m hm hmt
      rcases List.mem_cons.mp hm with rfl | hm
      · exact hl
      · exact h.entries.lifetime m hm hmt
  · intro m
    change (∃ j, 0 < j ∧ j ≤ s.last + 1 ∧ Function.update s.slot (s.last + 1) n j = m) ↔
      m ∈ n :: s.live ∧ s.timeout m ≠ 0
    rw [List.mem_cons]
    constructor
    · rintro ⟨j, hj, hjl, rfl⟩
      by_cases hji : j = s.last + 1
      · rw [hji, Function.update_self]
        exact ⟨.inl rfl, ht⟩
      · rw [Function.update_of_ne hji]
        have hmem := (h.mem _).mp ⟨j, hj, by omega, rfl⟩
        exact ⟨.inr hmem.1, hmem.2⟩
    · rintro ⟨rfl | hm, hmt⟩
      · exact ⟨s.last + 1, by omega, Nat.le_refl _, Function.update_self _ _ _⟩
      · obtain ⟨j, hj, hjl, hslot⟩ := (h.mem m).mpr ⟨hm, hmt⟩
        exact ⟨j, hj, by omega, (Function.update_of_ne (by omega) _ _).trans hslot⟩
  · intro m hm hmt
    rcases List.mem_cons.mp hm with rfl | hm
    · exact absurd hmt ht
    · exact h.static m hm hmt

theorem natHeapInsert_cases (mem : Bool) (n : ℕ) (h : s.Entries) :
    s.natHeapInsert mem n = (s, false) ∨ ∃ size, s.last + 1 < size ∧
      s.natHeapInsert mem n = (natHeapFloatUp (s.last + 1) n (s.grown size), true) := by
  have hroom := h.room
  unfold natHeapInsert
  split
  · split
    · exact .inr ⟨s.size + 1024, by omega, rfl⟩
    · exact .inl rfl
  · exact .inr ⟨s.size, by omega, rfl⟩

/-- `new_nat` of an entry with a timeout. -/
theorem newNat_ok (mem link : Bool) (h : s.Ok) (hn : n ∉ 0 :: s.live) (ht : s.timeout n ≠ 0)
    (hl : 0 < s.lifetime n) : (s.newNat mem link n).Ok := by
  have hlive : n ∉ s.live := fun hm => hn (List.mem_cons_of_mem 0 hm)
  unfold newNat
  obtain hfail | ⟨size, hsize, hinsert⟩ := natHeapInsert_cases mem n h.entries
  · rw [hfail]
    exact h
  · have hok := grown_ok h hn ht hl hsize
    have hset := grown_settled h hlive size
    rw [hinsert]
    revert hok hset
    generalize natHeapFloatUp (s.last + 1) n (s.grown size) = r
    intro hok hset
    have hrlive : r.live = s.live := by
      rw [hset.rest]
      rfl
    have hrt : r.timeout = s.timeout := by
      rw [hset.rest]
      rfl
    cases link with
    | true =>
      change NatHeap.Ok { r with live := n :: r.live }
      rw [hrlive]
      exact hok
    | false =>
      change (natHeapDelete (r.heapIndex n) r).Ok
      obtain ⟨hi, hil, hslot⟩ := hok.inHeap List.mem_cons_self (by
        change r.timeout n ≠ 0
        rwa [hrt])
      have harr : r.Arranged := ⟨hok.ordered, hok.index⟩
      have hr := natHeapDelete_removed harr hi hil
      have hr' : Removed { natHeapDelete (r.heapIndex n) r with live := n :: s.live }
          { r with live := n :: s.live } (r.heapIndex n) :=
        ⟨⟨hr.same.timeout, hr.same.lifetime, rfl⟩, hr.size, hr.last, hr.ordered, hr.index, hr.mem,
          hr.away⟩
      have hgone := hr'.ok hok hslot
      apply Ok.outside hgone
      · rw [List.erase_cons_head]
        exact hlive
      · rw [List.erase_cons_head]
        exact hr.same.live.trans hrlive
      · rfl
      · rfl
      · rfl
      · intro m hm
        exact ⟨rfl, rfl, (Function.update_of_ne hm _ _).symm⟩

/-! ### Runs -/

theorem natin_ok (c : NatLifetime) (seconds : ℕ) (flags : Option ℕ) (h : s.Ok) (hn : n ∈ s.live) :
    (s.natin c seconds n flags).Ok := by
  cases flags with
  | none => exact extend_ok h hn
  | some flags =>
    obtain ⟨hok, hlive⟩ := tcpstate_ok TCP_CLOSED_IN TCP_CLOSED_OUT c seconds flags h hn
    change NatHeap.Ok (if (s.tcpstateIn c seconds n flags).2 then _ else _)
    split
    · exact hok
    · exact extend_ok hok (hlive.symm ▸ hn)

theorem natout_ok (c : NatLifetime) (seconds : ℕ) (flags : Option ℕ) (h : s.Ok)
    (hn : n ∈ s.live) : (s.natout c seconds n flags).Ok := by
  cases flags with
  | none => exact extend_ok h hn
  | some flags =>
    obtain ⟨hok, hlive⟩ := tcpstate_ok TCP_CLOSED_OUT TCP_CLOSED_IN c seconds flags h hn
    change NatHeap.Ok (if (s.tcpstateOut c seconds n flags).2 then _ else _)
    split
    · exact hok
    · exact extend_ok hok (hlive.symm ▸ hn)

theorem addStatic_ok (h : s.Ok) (hn : n ∉ 0 :: s.live) : (s.addStatic n).Ok := by
  rw [List.mem_cons, not_or] at hn
  obtain ⟨hn0, hn⟩ := hn
  have halloc := allocNat_ok h hn 0 0
  have hzero : (s.allocNat n 0 0).timeout n = 0 := Function.update_self _ _ _
  refine ⟨⟨halloc.ordered, halloc.index⟩, ⟨h.entries.room, ?_, ?_, ?_⟩, ?_, ?_⟩
  · exact List.nodup_cons.mpr ⟨hn, h.entries.nodup⟩
  · exact fun hm => (List.mem_cons.mp hm).elim (fun e => hn0 e.symm) h.entries.null
  · intro m hm hmt
    rcases List.mem_cons.mp hm with rfl | hm
    · exact absurd hzero hmt
    · exact halloc.entries.lifetime m hm hmt
  · intro m
    refine (halloc.mem m).trans ?_
    change _ ↔ m ∈ n :: s.live ∧ _
    rw [List.mem_cons]
    constructor
    · rintro ⟨hm, hmt⟩
      exact ⟨.inr hm, hmt⟩
    · rintro ⟨rfl | hm, hmt⟩
      · exact absurd hzero hmt
      · exact ⟨hm, hmt⟩
  · intro m hm hmt
    rcases List.mem_cons.mp hm with rfl | hm
    · exact Function.update_self _ _ _
    · exact halloc.static m hm hmt

/-- The expiry ends, and exactly the entries that expired are gone. -/
theorem expire_ok {fuel : ℕ} (seconds : ℕ) (h : s.Ok) (hfuel : s.last < fuel) :
    ∃ s', expire fuel seconds s = some s' ∧ s'.Ok ∧ s'.timeout = s.timeout ∧
      ∀ m, m ∈ s'.live ↔ m ∈ s.live ∧ (s.timeout m = 0 ∨ seconds ≤ s.timeout m) := by
  induction fuel generalizing s with
  | zero => omega
  | succ fuel ih =>
    unfold expire
    by_cases hend : s.natHeapElement 1 = 0 ∨ seconds ≤ s.timeout (s.natHeapElement 1)
    · rw [if_pos hend]
      refine ⟨s, rfl, h, rfl, fun m => ⟨fun hm => ⟨hm, ?_⟩, And.left⟩⟩
      by_cases ht : s.timeout m = 0
      · exact .inl ht
      · obtain ⟨hi, hil, hslot⟩ := h.inHeap hm ht
        have hone : s.natHeapElement 1 = s.slot 1 := by
          unfold natHeapElement
          rw [if_neg (by omega), if_pos (by omega)]
        have hfirst := (h.mem (s.slot 1)).mp ⟨1, by omega, by omega, rfl⟩
        have hroot := h.ordered.root_le hi hil
        unfold keys at hroot
        rw [hslot] at hroot
        rw [hone] at hend
        rcases hend with hnull | hle
        · exact absurd (hnull ▸ hfirst.1) h.entries.null
        · exact .inr (hle.trans hroot)
    · rw [if_neg hend]
      rw [not_or] at hend
      obtain ⟨hne, hlt⟩ := hend
      have hpos : 1 ≤ s.last := by
        by_contra hzero
        apply hne
        unfold natHeapElement
        rw [if_neg (by omega), if_neg hzero]
      have hone : s.natHeapElement 1 = s.slot 1 := by
        unfold natHeapElement
        rw [if_neg (by omega), if_pos hpos]
      rw [hone] at hlt ⊢
      obtain ⟨hmem, ht⟩ := (h.mem (s.slot 1)).mp ⟨1, by omega, hpos, rfl⟩
      obtain ⟨hok, htimeout, hlive, hlast⟩ := delNat_ok h hmem
      obtain ⟨s', hexpire, hok', htimeout', hlive'⟩ := ih hok (by rw [hlast ht]; omega)
      refine ⟨s', hexpire, hok', htimeout'.trans htimeout, fun m => ?_⟩
      rw [hlive' m, htimeout, hlive, h.entries.nodup.mem_erase_iff]
      constructor
      · rintro ⟨⟨-, hm⟩, hexp⟩
        exact ⟨hm, hexp⟩
      · rintro ⟨hm, hexp⟩
        refine ⟨⟨?_, hm⟩, hexp⟩
        rintro rfl
        rcases hexp with hzero | hle
        · exact ht hzero
        · exact hlt hle

/-- The heap over a sequence of configuration changes, new entries, packets, deletions and
    passes of `loop`, at any time of the clock. -/
inductive HeapRun : NatHeap → NatLifetime → Prop
  | start : HeapRun {} defaultLifetime
  | config {s : NatHeap} {c : NatLifetime} (h : HeapRun s c) (i : Fin 5) (l : ℤ) :
      HeapRun s (cmdDefaultNat i l c)
  | static {s : NatHeap} {c : NatLifetime} {n : ℕ} (h : HeapRun s c) (hn : n ∉ 0 :: s.live) :
      HeapRun (s.addStatic n) c
  | create {s : NatHeap} {c : NatLifetime} {n : ℕ} (h : HeapRun s c) (hn : n ∉ 0 :: s.live)
      (seconds : ℕ) (i j : Fin 5) (mem link : Bool) :
      HeapRun ((s.allocNat n (seconds + c.val i) (c.val j)).newNat mem link n) c
  | natin {s : NatHeap} {c : NatLifetime} {n : ℕ} (h : HeapRun s c) (hn : n ∈ s.live)
      (seconds : ℕ) (flags : Option ℕ) : HeapRun (s.natin c seconds n flags) c
  | natout {s : NatHeap} {c : NatLifetime} {n : ℕ} (h : HeapRun s c) (hn : n ∈ s.live)
      (seconds : ℕ) (flags : Option ℕ) : HeapRun (s.natout c seconds n flags) c
  | naticmpout {s : NatHeap} {c : NatLifetime} {n : ℕ} (h : HeapRun s c) (hn : n ∈ s.live)
      (seconds : ℕ) : HeapRun (s.naticmpout c seconds n) c
  | toobigout {s : NatHeap} {c : NatLifetime} {n : ℕ} (h : HeapRun s c) (hn : n ∈ s.live)
      (seconds : ℕ) : HeapRun (s.toobigout seconds n) c
  | delete {s : NatHeap} {c : NatLifetime} {n : ℕ} (h : HeapRun s c) (hn : n ∈ s.live) :
      HeapRun (s.delNat n) c
  | expire {s s' : NatHeap} {c : NatLifetime} {fuel : ℕ} (h : HeapRun s c) (seconds : ℕ)
      (hfuel : s.last < fuel) (hexpire : s.expire fuel seconds = some s') : HeapRun s' c

theorem HeapRun.ok {c : NatLifetime} (h : HeapRun s c) : s.Ok := by
  induction h with
  | start =>
    refine ⟨⟨?_, ?_⟩, ⟨.inr rfl, List.nodup_nil, List.not_mem_nil, ?_⟩, ?_, ?_⟩
    · exact fun j hj hjl => absurd hjl (by change ¬ j ≤ 0; omega)
    · exact fun j hj hjl => absurd hjl (by change ¬ j ≤ 0; omega)
    · exact fun n hn => absurd hn List.not_mem_nil
    · intro m
      constructor
      · rintro ⟨j, hj, hjl, -⟩
        change j ≤ 0 at hjl
        omega
      · exact fun hm => absurd hm.1 List.not_mem_nil
    · exact fun n hn => absurd hn List.not_mem_nil
  | config h i l ih => exact ih
  | static h hn ih => exact addStatic_ok ih hn
  | @create s c n h hn seconds i j mem link ih =>
    have hlive : n ∉ s.live := fun hm => hn (List.mem_cons_of_mem 0 hm)
    apply newNat_ok mem link (allocNat_ok ih hlive _ _) hn
    · have hself : (s.allocNat n (seconds + c.val i) (c.val j)).timeout n = seconds + c.val i :=
        Function.update_self _ _ _
      have hpos := c.pos i
      omega
    · have hself : (s.allocNat n (seconds + c.val i) (c.val j)).lifetime n = c.val j :=
        Function.update_self _ _ _
      rw [hself]
      exact c.pos j
  | natin h hn seconds flags ih => exact natin_ok _ seconds flags ih hn
  | natout h hn seconds flags ih => exact natout_ok _ seconds flags ih hn
  | naticmpout h hn seconds ih => exact extend_ok ih hn
  | toobigout h hn seconds ih => exact extend_ok ih hn
  | delete h hn ih => exact (delNat_ok ih hn).1
  | expire h seconds hfuel hexpire ih =>
    obtain ⟨s', hexpire', hok, -⟩ := expire_ok seconds ih hfuel
    obtain rfl := Option.some.inj (hexpire'.symm.trans hexpire)
    exact hok

/-- In every run the heap has the live entries with a timeout, each in the slot its index names
    and in order, and the pass of `loop` removes exactly the entries that expired. -/
theorem expiry_heap {c : NatLifetime} (h : HeapRun s c) :
    (∀ n, (∃ j, 0 < j ∧ j ≤ s.last ∧ s.slot j = n) ↔ n ∈ s.live ∧ s.timeout n ≠ 0) ∧
    (∀ j, 0 < j → j ≤ s.last → s.heapIndex (s.slot j) = j) ∧
    (∀ n ∈ s.live, s.timeout n = 0 → s.heapIndex n = 0) ∧
    (∀ j, 1 < j → j ≤ s.last → s.timeout (s.slot (j / 2)) ≤ s.timeout (s.slot j)) ∧
    ∀ fuel seconds, s.last < fuel → ∃ s', s.expire fuel seconds = some s' ∧ HeapRun s' c ∧
      s'.timeout = s.timeout ∧ (∀ n ∈ s'.live, ¬(0 < s'.timeout n ∧ s'.timeout n < seconds)) ∧
      ∀ n, n ∈ s'.live ↔ n ∈ s.live ∧ (s.timeout n = 0 ∨ seconds ≤ s.timeout n) := by
  have hok := h.ok
  refine ⟨hok.mem, hok.index, hok.static, hok.ordered, fun fuel seconds hfuel => ?_⟩
  obtain ⟨s', hexpire, -, htimeout, hlive⟩ := expire_ok seconds hok hfuel
  refine ⟨s', hexpire, h.expire seconds hfuel hexpire, htimeout, ?_, hlive⟩
  intro n hn
  have hexp := ((hlive n).mp hn).2
  rw [htimeout]
  omega

/-- Two entries, and the second expires. -/
theorem expiry_heap_two : ∃ s s', HeapRun s defaultLifetime ∧ s.live = [2, 1] ∧
    s.expire 3 150 = some s' ∧ ∀ n, n ∈ s'.live ↔ n = 1 := by
  have hone := (HeapRun.start.create (n := 1) (by decide) 100 2 2 true true)
  have hlive : (({} : NatHeap).allocNat 1 (100 + defaultLifetime.val 2) (defaultLifetime.val 2)
      |>.newNat true true 1).live = [1] := by
    simp [newNat, natHeapInsert, natHeapFloatUp, put, allocNat]
  have htwo := hone.create (n := 2) (by rw [hlive]; decide) 100 4 2 true true
  revert htwo
  generalize hs : NatHeap.newNat true true 2 _ = s
  intro htwo
  have hs' : s.live = [2, 1] ∧ s.last = 2 ∧ s.timeout 1 = 400 ∧ s.timeout 2 = 110 := by
    rw [← hs]
    simp [newNat, natHeapInsert, natHeapFloatUp, put, allocNat, defaultLifetime]
  obtain ⟨hlive', hlast, ht₁, ht₂⟩ := hs'
  obtain ⟨-, -, -, -, hexpire⟩ := expiry_heap htwo
  obtain ⟨s', hrun, -, -, -, hmem⟩ := hexpire 3 150 (by omega)
  refine ⟨s, s', htwo, hlive', hrun, fun n => ?_⟩
  rw [hmem n, hlive']
  constructor
  · rintro ⟨hn, ht⟩
    rcases List.mem_cons.mp hn with rfl | hn
    · omega
    · exact List.mem_singleton.mp hn
  · rintro rfl
    exact ⟨by decide, .inr (by omega)⟩

end NatHeap

end WanStack.Aftr
