import Mathlib.Data.Fin.VecNotation
import Mathlib.Order.Nat
import WanStack.Lib.BinaryHeap

set_option autoImplicit false

/-!
# The expiry heap

The array `nat_heap` of the dynamic entries, the entry that expires first in slot 1, and
everything that changes the timeout of an entry. Entries are addresses; 0 is `NULL`.
-/
namespace WanStack.Aftr

/-- The heap, the fields of the entries, and the entries in the NAT trees. -/
structure NatHeap where
  timeout : ℕ → ℕ := fun _ => 0
  lifetime : ℕ → ℕ := fun _ => 0
  heapIndex : ℕ → ℕ := fun _ => 0
  tcpst : ℕ → ℕ := fun _ => 0
  slot : ℕ → ℕ := fun _ => 0
  last : ℕ := 0
  size : ℕ := 0
  live : List ℕ := []

/-- `nat_lifetime`; a lifetime is from 1 to 36000. -/
structure NatLifetime where
  val : Fin 5 → ℕ
  pos : ∀ i, 0 < val i

def defaultLifetime : NatLifetime := ⟨![600, 120, 300, 30, 10], by decide⟩

/-- `default nat ... lifetime`. -/
def cmdDefaultNat (i : Fin 5) (l : ℤ) (c : NatLifetime) : NatLifetime :=
  if h : l ≤ 0 ∨ 36000 < l then c
  else
    { val := Function.update c.val i l.toNat
      pos := fun j => by
        by_cases hj : j = i
        · rw [hj, Function.update_self]
          omega
        · rw [Function.update_of_ne hj]
          exact c.pos j }

def TCP_DEFAULT : ℕ := 0
def TCP_ACKED : ℕ := 1
def TCP_CLOSED_IN : ℕ := 2
def TCP_CLOSED_OUT : ℕ := 4
def TCP_CLOSED_BOTH : ℕ := 6

def TCPFFIN : ℕ := 1
def TCPFRST : ℕ := 4
def TCPFACK : ℕ := 16

namespace NatHeap

/-- `nat_heap[i] = n` and `nat_heap[i]->heap_index = i`. -/
def put (s : NatHeap) (i n : ℕ) : NatHeap :=
  { s with slot := Function.update s.slot i n, heapIndex := Function.update s.heapIndex n i }

def natHeapFloatUp (i n : ℕ) (s : NatHeap) : NatHeap :=
  if 1 < i ∧ s.timeout n < s.timeout (s.slot (i >>> 1)) then
    natHeapFloatUp (i >>> 1) n (s.put i (s.slot (i >>> 1)))
  else s.put i n
termination_by i
decreasing_by
  rw [Nat.shiftRight_eq_div_pow]
  omega

/-- The child of slot `i` that expires first. -/
def smallest (s : NatHeap) (i : ℕ) : ℕ :=
  let j := i <<< 1
  if j < s.last ∧ s.timeout (s.slot (j + 1)) < s.timeout (s.slot j) then j + 1 else j

theorem smallest_cases (s : NatHeap) (i : ℕ) :
    s.smallest i = 2 * i ∨ s.smallest i = 2 * i + 1 ∧ 2 * i < s.last := by
  have hshift : i <<< 1 = 2 * i := by rw [Nat.shiftLeft_eq]; omega
  simp only [smallest, hshift]
  split
  · rename_i h
    exact .inr ⟨rfl, h.1⟩
  · exact .inl rfl

def natHeapSinkDown (i n : ℕ) (hi : 0 < i) (s : NatHeap) : NatHeap :=
  if i ≤ s.last / 2 then
    if s.timeout n < s.timeout (s.slot (s.smallest i)) then s.put i n
    else natHeapSinkDown (s.smallest i) n
      (by rcases s.smallest_cases i with h | h <;> omega) (s.put i (s.slot (s.smallest i)))
  else s.put i n
termination_by s.last - i
decreasing_by
  have hlast : (s.put i (s.slot (s.smallest i))).last = s.last := rfl
  rcases s.smallest_cases i with h | h <;> omega

/-- `mem` is the success of `malloc` for a longer array. -/
def natHeapInsert (mem : Bool) (n : ℕ) (s : NatHeap) : NatHeap × Bool :=
  if s.size ≤ s.last + 1 then
    if mem then
      (natHeapFloatUp (s.last + 1) n { s with size := s.size + 1024, last := s.last + 1 }, true)
    else (s, false)
  else (natHeapFloatUp (s.last + 1) n { s with last := s.last + 1 }, true)

def natHeapDelete (i : ℕ) (s : NatHeap) : NatHeap :=
  if h : i < 1 ∨ s.last < i then s
  else
    let n := s.slot s.last
    let s' := { s with slot := Function.update s.slot s.last 0, last := s.last - 1 }
    if i = s.last then s'
    else if s.timeout n < s'.timeout (s'.slot i) then
      natHeapFloatUp i n { s' with slot := Function.update s'.slot i n }
    else natHeapSinkDown i n (by omega) { s' with slot := Function.update s'.slot i n }

/-- The timeout of slot `i` became smaller. -/
def natHeapIncreased (i : ℕ) (s : NatHeap) : NatHeap :=
  if i < 1 ∨ s.last < i then s else natHeapFloatUp i (s.slot i) s

/-- The timeout of slot `i` became larger. -/
def natHeapDecreased (i : ℕ) (s : NatHeap) : NatHeap :=
  if h : i < 1 ∨ s.last < i then s else natHeapSinkDown i (s.slot i) (by omega) s

def natHeapElement (i : ℕ) (s : NatHeap) : ℕ :=
  if i < 1 then 0 else if i ≤ s.last then s.slot i else 0

def setTimeout (s : NatHeap) (n v : ℕ) : NatHeap :=
  { s with timeout := Function.update s.timeout n v }

def setTcpst (s : NatHeap) (n v : ℕ) : NatHeap :=
  { s with tcpst := Function.update s.tcpst n v }

def setLifetime (s : NatHeap) (n v : ℕ) : NatHeap :=
  { s with lifetime := Function.update s.lifetime n v }

/-- A later timeout, for an entry that has one. -/
def extend (n v : ℕ) (s : NatHeap) : NatHeap :=
  if s.timeout n ≠ 0 ∧ s.timeout n < v then
    (s.setTimeout n v).natHeapDecreased (s.heapIndex n)
  else s

/-- `tcpstate_in` and `tcpstate_out`: `here` is the side the packet comes from, `there` the
    other one. The result is whether the timeout changed. -/
def tcpstate (here there : ℕ) (c : NatLifetime) (seconds n flags : ℕ) (s : NatHeap) :
    NatHeap × Bool :=
  if s.timeout n = 0 then (s, false)
  else
    let s := if s.tcpst n = TCP_DEFAULT ∧ flags &&& TCPFACK ≠ 0 then s.setTcpst n TCP_ACKED
      else s
    if flags &&& (TCPFFIN ||| TCPFRST) = 0 then (s, false)
    else if flags &&& TCPFRST = 0 ∧ s.tcpst n &&& here ≠ 0 then (s, false)
    else
      let s := s.setTcpst n (s.tcpst n ||| if flags &&& TCPFRST ≠ 0 then TCP_CLOSED_BOTH else here)
      if s.tcpst n &&& there = 0 then (s, false)
      else
        let s := s.setLifetime n
          (if flags &&& TCPFRST ≠ 0 then
            if s.tcpst n &&& TCP_ACKED ≠ 0 then c.val 3 else c.val 4
          else c.val 1)
        if s.timeout n ≤ seconds + s.lifetime n then (s, false)
        else
          ((s.setTimeout n (seconds + s.lifetime n)).natHeapIncreased (s.heapIndex n), true)

def tcpstateIn : NatLifetime → ℕ → ℕ → ℕ → NatHeap → NatHeap × Bool :=
  tcpstate TCP_CLOSED_IN TCP_CLOSED_OUT

def tcpstateOut : NatLifetime → ℕ → ℕ → ℕ → NatHeap → NatHeap × Bool :=
  tcpstate TCP_CLOSED_OUT TCP_CLOSED_IN

/-- The end of `natin` for the entry `n`; `flags` is there for a TCP packet. -/
def natin (c : NatLifetime) (seconds n : ℕ) (flags : Option ℕ) (s : NatHeap) : NatHeap :=
  let r := match flags with
    | some flags => s.tcpstateIn c seconds n flags
    | none => (s, false)
  if r.2 then r.1 else r.1.extend n (seconds + c.val 4)

/-- The end of `natout` for the entry `n`. -/
def natout (c : NatLifetime) (seconds n : ℕ) (flags : Option ℕ) (s : NatHeap) : NatHeap :=
  let r := match flags with
    | some flags => s.tcpstateOut c seconds n flags
    | none => (s, false)
  if r.2 then r.1 else r.1.extend n (seconds + r.1.lifetime n)

def naticmpout (c : NatLifetime) (seconds n : ℕ) (s : NatHeap) : NatHeap :=
  s.extend n (seconds + c.val 3)

def toobigout (seconds n : ℕ) (s : NatHeap) : NatHeap := s.extend n (seconds + s.lifetime n)

/-- A new entry, as `memset` leaves it, with a timeout and a lifetime. -/
def allocNat (n timeout lifetime : ℕ) (s : NatHeap) : NatHeap :=
  { s with
    timeout := Function.update s.timeout n timeout
    lifetime := Function.update s.lifetime n lifetime
    heapIndex := Function.update s.heapIndex n 0
    tcpst := Function.update s.tcpst n TCP_DEFAULT }

/-- `new_nat` behind the port, and `get_ftptempsrv`; `link` is the success of the trees. -/
def newNat (mem link : Bool) (n : ℕ) (s : NatHeap) : NatHeap :=
  let r := s.natHeapInsert mem n
  if !r.2 then r.1
  else if !link then r.1.natHeapDelete (r.1.heapIndex n)
  else { r.1 with live := n :: r.1.live }

/-- A static entry has no timeout and is not on the heap. -/
def addStatic (n : ℕ) (s : NatHeap) : NatHeap :=
  { s.allocNat n 0 0 with live := n :: s.live }

def delNat (n : ℕ) (s : NatHeap) : NatHeap :=
  let s := if s.heapIndex n ≠ 0 then s.natHeapDelete (s.heapIndex n) else s
  { s with heapIndex := Function.update s.heapIndex n 0, live := s.live.erase n }

/-- The entries that expire in `loop`. -/
def expire : ℕ → ℕ → NatHeap → Option NatHeap
  | 0, _, _ => none
  | fuel + 1, seconds, s =>
    let n := s.natHeapElement 1
    if n = 0 ∨ seconds ≤ s.timeout n then some s else expire fuel seconds (s.delNat n)

/-! ### The order after a move -/

open BinaryHeap

variable {s s' : NatHeap} {f : ℕ → ℕ} {i j n m : ℕ}

/-- The slots with `n` in slot `i`. -/
def filled (s : NatHeap) (i n : ℕ) : ℕ → ℕ := Function.update s.slot i n

/-- The keys of an array of entries. -/
def keys (s : NatHeap) (f : ℕ → ℕ) : ℕ → ℕ := fun j => s.timeout (f j)

/-- Slot `i` is free for `n`. -/
structure Hole (s : NatHeap) (i n : ℕ) : Prop where
  index : ∀ j, 0 < j → j ≤ s.last → j ≠ i → s.heapIndex (s.slot j) = j
  other : ∀ j, 0 < j → j ≤ s.last → j ≠ i → s.slot j ≠ n

/-- The entries of `f` are on the heap again. -/
structure Settled (s' s : NatHeap) (f : ℕ → ℕ) : Prop where
  ordered : Ordered (s.keys s'.slot) s.last
  index : ∀ j, 0 < j → j ≤ s.last → s'.heapIndex (s'.slot j) = j
  mem : ∀ m, (∃ j, 0 < j ∧ j ≤ s.last ∧ s'.slot j = m) ↔ ∃ j, 0 < j ∧ j ≤ s.last ∧ f j = m
  away : ∀ m, (∀ j, 0 < j → j ≤ s.last → f j ≠ m) → s'.heapIndex m = s.heapIndex m
  rest : s' = { s with slot := s'.slot, heapIndex := s'.heapIndex }

theorem put_settled (h : s.Hole i n) (hord : Ordered (s.keys (s.filled i n)) s.last)
    (hi : 0 < i) (hlast : i ≤ s.last) : Settled (s.put i n) s (s.filled i n) := by
  refine ⟨hord, ?_, fun m => Iff.rfl, ?_, rfl⟩
  · intro j hj hjl
    change Function.update s.heapIndex n i (Function.update s.slot i n j) = j
    by_cases hji : j = i
    · rw [hji, Function.update_self, Function.update_self]
    · rw [Function.update_of_ne hji, Function.update_of_ne (h.other j hj hjl hji)]
      exact h.index j hj hjl hji
  · intro m hm
    have hnm : n ≠ m := by
      have hfill := hm i hi hlast
      unfold filled at hfill
      rwa [Function.update_self] at hfill
    exact Function.update_of_ne hnm.symm _ _

/-- The entry of slot `p` moves to the free slot `i`, and `p` is free. -/
theorem Hole.move {p : ℕ} (h : s.Hole i n) (hp : 0 < p) (hpl : p ≤ s.last) (hpi : p ≠ i) :
    (s.put i (s.slot p)).Hole p n := by
  have hne : ∀ j, 0 < j → j ≤ s.last → j ≠ i → j ≠ p → s.slot j ≠ s.slot p := by
    intro j hj hjl hji hjp heq
    have hidx := h.index j hj hjl hji
    rw [heq, h.index p hp hpl hpi] at hidx
    exact hjp hidx.symm
  constructor
  · intro j hj hjl hjp
    change Function.update s.heapIndex (s.slot p) i (Function.update s.slot i (s.slot p) j) = j
    by_cases hji : j = i
    · rw [hji, Function.update_self, Function.update_self]
    · rw [Function.update_of_ne hji, Function.update_of_ne (hne j hj hjl hji hjp)]
      exact h.index j hj hjl hji
  · intro j hj hjl hjp
    change Function.update s.slot i (s.slot p) j ≠ n
    by_cases hji : j = i
    · rw [hji, Function.update_self]
      exact h.other p hp hpl hpi
    · rw [Function.update_of_ne hji]
      exact h.other j hj hjl hji

theorem filled_move {p : ℕ} (hpi : p ≠ i) :
    (s.put i (s.slot p)).filled p n = swap (s.filled i n) i p := by
  unfold filled swap put
  simp only [Function.update_of_ne hpi, Function.update_self, Function.update_idem]

theorem keys_swap (f : ℕ → ℕ) (i j : ℕ) : s.keys (swap f i j) = swap (s.keys f) i j := by
  funext k
  unfold keys swap
  by_cases hj : k = j
  · rw [hj, Function.update_self, Function.update_self]
  · rw [Function.update_of_ne hj, Function.update_of_ne hj]
    by_cases hi : k = i
    · rw [hi, Function.update_self, Function.update_self]
    · rw [Function.update_of_ne hi, Function.update_of_ne hi]

theorem mem_swap {last : ℕ} (hi : 0 < i) (hil : i ≤ last) (hj : 0 < j) (hjl : j ≤ last)
    (hij : i ≠ j) (m : ℕ) : (∃ k, 0 < k ∧ k ≤ last ∧ swap f i j k = m) ↔
      ∃ k, 0 < k ∧ k ≤ last ∧ f k = m := by
  constructor
  · rintro ⟨k, hk, hkl, rfl⟩
    by_cases hki : k = i
    · exact ⟨j, hj, hjl, by rw [hki, swap_left hij]⟩
    · by_cases hkj : k = j
      · exact ⟨i, hi, hil, by rw [hkj, swap_right]⟩
      · exact ⟨k, hk, hkl, (swap_other hki hkj).symm⟩
  · rintro ⟨k, hk, hkl, rfl⟩
    by_cases hki : k = i
    · exact ⟨j, hj, hjl, by rw [hki, swap_right]⟩
    · by_cases hkj : k = j
      · exact ⟨i, hi, hil, by rw [hkj, swap_left hij]⟩
      · exact ⟨k, hk, hkl, swap_other hki hkj⟩

/-- What comes after a move settles what was before. -/
theorem Settled.move {p : ℕ} (h : Settled s' (s.put i (s.slot p)) ((s.put i (s.slot p)).filled p n))
    (hi : 0 < i) (hil : i ≤ s.last) (hp : 0 < p) (hpl : p ≤ s.last) (hpi : p ≠ i) :
    Settled s' s (s.filled i n) := by
  have hmem := h.mem
  have haway := h.away
  rw [filled_move hpi] at hmem haway
  refine ⟨h.ordered, h.index, fun m => (hmem m).trans (mem_swap hi hil hp hpl hpi.symm m), ?_, ?_⟩
  · intro m hm
    have hswap : ∀ j, 0 < j → j ≤ s.last → swap (s.filled i n) i p j ≠ m := by
      intro j hj hjl heq
      obtain ⟨k, hk, hkl, hkm⟩ := (mem_swap hi hil hp hpl hpi.symm m).mp ⟨j, hj, hjl, heq⟩
      exact hm k hk hkl hkm
    rw [haway m hswap]
    refine Function.update_of_ne ?_ _ _
    rintro rfl
    refine hm p hp hpl ?_
    exact Function.update_of_ne hpi _ _
  · rw [h.rest]
    rfl

theorem natHeapFloatUp_settled (h : s.Hole i n) (hord : UpOrdered (s.keys (s.filled i n)) s.last i)
    (hi : 0 < i) (hlast : i ≤ s.last) : Settled (natHeapFloatUp i n s) s (s.filled i n) := by
  induction i using Nat.strongRecOn generalizing s with
  | ind i ih =>
    have hshift : i >>> 1 = i / 2 := Nat.shiftRight_eq_div_pow i 1
    have hself : s.keys (s.filled i n) i = s.timeout n := by
      unfold keys filled
      rw [Function.update_self]
    have hparent : 1 < i → s.keys (s.filled i n) (i / 2) = s.timeout (s.slot (i / 2)) := by
      intro h1
      unfold keys filled
      rw [Function.update_of_ne (by omega)]
    unfold natHeapFloatUp
    rw [hshift]
    split
    · rename_i hcond
      obtain ⟨h1, hlt⟩ := hcond
      have hpi : i / 2 ≠ i := by omega
      have hstep := hord.step h1 (by rwa [hself, hparent h1]) hlast
      rw [← keys_swap, ← filled_move hpi] at hstep
      have hmove := ih (i / 2) (by omega) (h.move (by omega) (by omega) hpi) hstep (by omega)
        (show i / 2 ≤ s.last by omega)
      exact hmove.move hi hlast (by omega) (by omega) hpi
    · rename_i hcond
      apply put_settled h _ hi hlast
      apply hord.ordered
      intro h1
      rw [hself, hparent h1]
      exact Nat.le_of_not_lt fun hlt => hcond ⟨h1, hlt⟩

theorem smallest_le (s : NatHeap) {k : ℕ} (hk : k / 2 = i) (hkl : k ≤ s.last) :
    s.timeout (s.slot (s.smallest i)) ≤ s.timeout (s.slot k) := by
  have hshift : i <<< 1 = 2 * i := by rw [Nat.shiftLeft_eq]; omega
  have hkcases : k = 2 * i ∨ k = 2 * i + 1 := by omega
  simp only [smallest, hshift]
  split
  · rename_i h
    rcases hkcases with rfl | rfl
    · exact h.2.le
    · exact Nat.le_refl _
  · rename_i h
    rcases hkcases with rfl | rfl
    · exact Nat.le_refl _
    · exact Nat.le_of_not_lt fun hlt => h ⟨hkl, hlt⟩

theorem natHeapSinkDown_settled (h : s.Hole i n)
    (hord : DownOrdered (s.keys (s.filled i n)) s.last i) (hi : 0 < i) (hlast : i ≤ s.last) :
    Settled (natHeapSinkDown i n hi s) s (s.filled i n) := by
  induction hk : s.last - i using Nat.strongRecOn generalizing s i with
  | ind d ih =>
    have hself : s.keys (s.filled i n) i = s.timeout n := by
      unfold keys filled
      rw [Function.update_self]
    have hother : ∀ j, j ≠ i → s.keys (s.filled i n) j = s.timeout (s.slot j) := by
      intro j hj
      unfold keys filled
      rw [Function.update_of_ne hj]
    unfold natHeapSinkDown
    split
    · rename_i hhalf
      have hcases := s.smallest_cases i
      have hj2 : s.smallest i / 2 = i := by omega
      have hjl : s.smallest i ≤ s.last := by omega
      have hji : s.smallest i ≠ i := by omega
      split
      · rename_i hlt
        apply put_settled h _ hi hlast
        apply hord.ordered
        intro k hk1 hkl hki
        rw [hself, hother k (by omega)]
        exact hlt.le.trans (s.smallest_le hki hkl)
      · rename_i hge
        have hmin : ∀ k, k ≤ s.last → k / 2 = i →
            s.keys (s.filled i n) (s.smallest i) ≤ s.keys (s.filled i n) k := by
          intro k hkl hki
          rw [hother _ hji, hother k (by omega)]
          exact s.smallest_le hki hkl
        have hle : s.keys (s.filled i n) (s.smallest i) ≤ s.keys (s.filled i n) i := by
          rw [hother _ hji, hself]
          exact Nat.le_of_not_lt hge
        have hstep := hord.step hi hj2 hmin hle hjl
        rw [← keys_swap, ← filled_move hji] at hstep
        have hmove := ih (s.last - s.smallest i) (by omega)
          (h.move (by omega) hjl hji) hstep (by omega) hjl rfl
        exact hmove.move hi hlast (by omega) hjl hji
    · apply put_settled h _ hi hlast
      apply hord.ordered
      intro k hk1 hkl hki
      omega

end NatHeap

end WanStack.Aftr
