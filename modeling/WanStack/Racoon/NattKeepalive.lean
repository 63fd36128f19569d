import Mathlib.Data.List.Perm.Basic
import WanStack.Lib.PartialRun
import WanStack.Racoon.RecvdPkt

set_option autoImplicit false

/-!
# NAT keep-alives

The keep-alive list of `nattraversal.c`, and `delph1` of `handler.c` as far as it
is about that list. An event names a phase 1 handle by its place in the tree.
-/
namespace WanStack.Racoon.NattKeepalive
open PartialRun

structure NattKaAddrs where
  src : Sockaddr
  dst : Sockaddr
  inUse : UInt32
deriving DecidableEq, Repr

/-- The flags `NAT_DETECTED_ME`, `NAT_DETECTED_PEER` and `NAT_KA_QUEUED`. The two
    addresses are those of packets the daemon has received or sent. -/
structure Ph1handle where
  localAddr : Sockaddr
  remote : Sockaddr
  detectedMe : Bool
  detectedPeer : Bool
  kaQueued : Bool
  localKnown : localAddr ≠ .other
  remoteKnown : remote ≠ .other
deriving DecidableEq

structure Myaddr where
  addr : Sockaddr
  fd : ℤ
deriving DecidableEq, Repr

/-- `sent` lists the keep-alive packets, the first of them first. -/
structure State where
  ph1tree : List Ph1handle
  kaTree : List NattKaAddrs
  sent : List (Sockaddr × Sockaddr)
deriving DecidableEq

def matched (ka : NattKaAddrs) (src dst : Sockaddr) : Bool :=
  cmpsaddr ka.src src = .MATCH && cmpsaddr ka.dst dst = .MATCH

def myaddrGetfd (addr : Sockaddr) : List Myaddr → ℤ
  | [] => -1
  | my :: rest =>
    if cmpsaddr my.addr addr = .MATCH ∨ cmpsaddr my.addr addr = .WILDPORT_MATCH then my.fd
    else myaddrGetfd addr rest

/-- An address no socket is open for any more drops the entry. -/
def nattKeepaliveSend (opened : List Myaddr) : List NattKaAddrs →
    List NattKaAddrs × List (Sockaddr × Sockaddr)
  | [] => ([], [])
  | ka :: rest =>
    let r := nattKeepaliveSend opened rest
    if myaddrGetfd ka.src opened = -1 then r
    else (ka :: r.1, (ka.src, ka.dst) :: r.2)

/-- The search of `natt_keepalive_add`. -/
def countUp (src dst : Sockaddr) : List NattKaAddrs → Option (List NattKaAddrs)
  | [] => none
  | ka :: rest =>
    if matched ka src dst then some ({ ka with inUse := ka.inUse + 1 } :: rest)
    else (countUp src dst rest).map (ka :: ·)

/-- `mem` says whether there is memory for a new entry. -/
def nattKeepaliveAdd (mem : Bool) (src dst : Sockaddr) (kaTree : List NattKaAddrs) :
    Option (List NattKaAddrs) :=
  match countUp src dst kaTree with
  | some kaTree => some kaTree
  | none =>
    if mem then
      some (kaTree ++
        [{ src := src
           dst := dst
           inUse := 1 }])
    else none

def Ph1handle.queues (iph1 : Ph1handle) : Bool :=
  (iph1.detectedMe || iph1.detectedPeer) && !iph1.kaQueued

/-- The handle and the list after `natt_keepalive_add_ph1`. -/
def nattKeepaliveAddPh1 (mem : Bool) (iph1 : Ph1handle) (kaTree : List NattKaAddrs) :
    Ph1handle × List NattKaAddrs :=
  if iph1.queues then
    match nattKeepaliveAdd mem iph1.localAddr iph1.remote kaTree with
    | some kaTree => ({ iph1 with kaQueued := true }, kaTree)
    | none => (iph1, kaTree)
  else (iph1, kaTree)

/-- The whole list is gone through, as the comment in the loop has it. -/
def nattKeepaliveRemove (src dst : Sockaddr) : List NattKaAddrs → List NattKaAddrs
  | [] => []
  | ka :: rest =>
    if matched ka src dst then
      let inUse := ka.inUse - 1
      if inUse ≤ 0 then nattKeepaliveRemove src dst rest
      else { ka with inUse := inUse } :: nattKeepaliveRemove src dst rest
    else ka :: nattKeepaliveRemove src dst rest

def delph1 (iph1 : Ph1handle) (kaTree : List NattKaAddrs) : List NattKaAddrs :=
  if iph1.kaQueued then nattKeepaliveRemove iph1.localAddr iph1.remote kaTree else kaTree

/-! ### Runs -/

/-- `opened` are the sockets at the time of a timer run. -/
inductive Event where
  | addPh1 (i : ℕ) (mem : Bool)
  | timer (opened : List Myaddr)
  | delph1 (i : ℕ)
deriving DecidableEq

def step (s : State) : Event → Option State
  | .addPh1 i mem =>
    s.ph1tree[i]?.map fun iph1 =>
      let r := nattKeepaliveAddPh1 mem iph1 s.kaTree
      { s with
        ph1tree := s.ph1tree.set i r.1
        kaTree := r.2 }
  | .timer opened =>
    let r := nattKeepaliveSend opened s.kaTree
    some
      { s with
        kaTree := r.1
        sent := s.sent ++ r.2 }
  | .delph1 i =>
    s.ph1tree[i]?.map fun iph1 =>
      { s with
        ph1tree := s.ph1tree.eraseIdx i
        kaTree := delph1 iph1 s.kaTree }

/-! ### Counting -/

abbrev Pair : Type := Sockaddr × Sockaddr

def NattKaAddrs.pair (ka : NattKaAddrs) : Pair := (ka.src, ka.dst)

def Ph1handle.pair (iph1 : Ph1handle) : Pair := (iph1.localAddr, iph1.remote)

/-- Whether a handle is marked and uses the pair. -/
def uses (pair : Pair) (iph1 : Ph1handle) : Bool := iph1.kaQueued && iph1.pair = pair

def users (s : State) (pair : Pair) : ℕ := s.ph1tree.countP (uses pair)

/-- One entry for each pair a marked handle uses, with the number of these handles. -/
structure Counted (s : State) : Prop where
  once : (s.kaTree.map NattKaAddrs.pair).Nodup
  listed : ∀ pair, pair ∈ s.kaTree.map NattKaAddrs.pair ↔ ∃ iph1 ∈ s.ph1tree, uses pair iph1
  inUse : ∀ ka ∈ s.kaTree, ka.inUse.toNat = users s ka.pair

/-- The entries that go are those whose last user is deleted. -/
def LastUse (s : State) (e : Event) (s' : State) : Prop :=
  ∀ pair, (pair ∈ s.kaTree.map NattKaAddrs.pair ∧ pair ∉ s'.kaTree.map NattKaAddrs.pair) ↔
    ∃ i iph1, e = .delph1 i ∧ s.ph1tree[i]? = some iph1 ∧ uses pair iph1 ∧ users s pair = 1

/-- No handle is marked yet. -/
def Unused (s : State) : Prop := s.kaTree = [] ∧ ∀ iph1 ∈ s.ph1tree, iph1.kaQueued = false

/-- The handle of an event lives, a timer run finds a socket for every entry, and no count
    goes beyond its range. -/
def Sound (s : State) : Event → Prop
  | .addPh1 i _ => ∃ iph1, s.ph1tree[i]? = some iph1 ∧
    (iph1.queues → users s iph1.pair + 1 < 2 ^ 32)
  | .timer opened => ∀ ka ∈ s.kaTree, myaddrGetfd ka.src opened ≠ -1
  | .delph1 i => i < s.ph1tree.length

/-! ### The counts of a pair -/

def held (kaTree : List NattKaAddrs) (pair : Pair) : List ℕ :=
  (kaTree.filter fun ka => ka.pair = pair).map fun ka => ka.inUse.toNat

theorem held_cons (ka : NattKaAddrs) (rest : List NattKaAddrs) (pair : Pair) :
    held (ka :: rest) pair =
      if ka.pair = pair then ka.inUse.toNat :: held rest pair else held rest pair := by
  unfold held
  by_cases h : ka.pair = pair <;> simp [h]

theorem cmpPorts_match {port1 port2 : ℕ} : cmpPorts port1 port2 = .MATCH ↔ port1 = port2 := by
  unfold cmpPorts
  split_ifs <;> simp [*]

theorem cmpsaddr_match {a b : Sockaddr} (h : b ≠ .other) : cmpsaddr a b = .MATCH ↔ a = b := by
  cases a <;> cases b <;> simp_all [cmpsaddr, cmpPorts_match]
  all_goals split_ifs <;> simp_all [cmpPorts_match]

theorem matched_iff {src dst : Sockaddr} (hsrc : src ≠ .other) (hdst : dst ≠ .other)
    (ka : NattKaAddrs) : matched ka src dst = true ↔ ka.pair = (src, dst) := by
  unfold matched NattKaAddrs.pair
  rw [Bool.and_eq_true, decide_eq_true_iff, decide_eq_true_iff, cmpsaddr_match hsrc,
    cmpsaddr_match hdst, Prod.mk.injEq]

theorem pair_mem_iff (kaTree : List NattKaAddrs) (pair : Pair) :
    pair ∈ kaTree.map NattKaAddrs.pair ↔ held kaTree pair ≠ [] := by
  induction kaTree with
  | nil => simp [held]
  | cons ka rest ih =>
    rw [List.map_cons, List.mem_cons, ih, held_cons]
    by_cases h : ka.pair = pair
    · simp [h]
    · have hother : pair ≠ ka.pair := Ne.symm h
      simp [h, hother]

theorem held_length (kaTree : List NattKaAddrs) (pair : Pair) :
    (held kaTree pair).length = (kaTree.map NattKaAddrs.pair).count pair := by
  induction kaTree with
  | nil => rfl
  | cons ka rest ih =>
    rw [held_cons, List.map_cons, List.count_cons]
    by_cases h : ka.pair = pair <;> simp [h, ih]

theorem mem_held {kaTree : List NattKaAddrs} {ka : NattKaAddrs} (h : ka ∈ kaTree) :
    ka.inUse.toNat ∈ held kaTree ka.pair :=
  List.mem_map_of_mem (List.mem_filter.mpr ⟨h, decide_eq_true rfl⟩)

theorem users_pos (s : State) (pair : Pair) :
    0 < users s pair ↔ ∃ iph1 ∈ s.ph1tree, uses pair iph1 := List.countP_pos_iff

/-- What `Counted` says, pair by pair. -/
theorem counted_iff (s : State) :
    Counted s ↔ ∀ pair, held s.kaTree pair = if users s pair = 0 then [] else [users s pair] := by
  constructor
  · intro h pair
    split_ifs with hzero
    · by_contra hne
      have hmem := (pair_mem_iff _ _).mpr hne
      have hpos := (users_pos s pair).mpr ((h.listed pair).mp hmem)
      omega
    · have hmem := (h.listed pair).mpr ((users_pos s pair).mp (Nat.pos_of_ne_zero hzero))
      have hlen := held_length s.kaTree pair
      rw [List.count_eq_one_of_mem h.once hmem] at hlen
      obtain ⟨n, hn⟩ := List.length_eq_one_iff.mp hlen
      have hfirst : n ∈ held s.kaTree pair := hn ▸ List.mem_singleton_self n
      obtain ⟨ka, hka, rfl⟩ := List.mem_map.mp hfirst
      obtain ⟨hka, hpair⟩ := List.mem_filter.mp hka
      rw [hn, h.inUse ka hka, of_decide_eq_true hpair]
  · intro h
    refine ⟨?_, ?_, ?_⟩
    · rw [List.nodup_iff_count_le_one]
      intro pair
      rw [← held_length, h pair]
      split_ifs <;> simp
    · intro pair
      rw [pair_mem_iff, h pair, ← users_pos]
      split_ifs with hzero
      · simp [hzero]
      · simp [Nat.pos_of_ne_zero hzero]
    · intro ka hka
      have hmem := mem_held hka
      rw [h ka.pair] at hmem
      split_ifs at hmem
      · cases hmem
      · exact List.mem_singleton.mp hmem

/-! ### One operation -/

section Operations

variable {src dst : Sockaddr} (hsrc : src ≠ .other) (hdst : dst ≠ .other)
include hsrc hdst

theorem countUp_none {kaTree : List NattKaAddrs} (h : countUp src dst kaTree = none) :
    held kaTree (src, dst) = [] := by
  induction kaTree with
  | nil => rfl
  | cons ka rest ih =>
    rw [countUp] at h
    split_ifs at h with hka
    have hrest : countUp src dst rest = none := Option.map_eq_none_iff.mp h
    have hpair : ka.pair ≠ (src, dst) := fun e => hka ((matched_iff hsrc hdst ka).mpr e)
    rw [held_cons, if_neg hpair, ih hrest]

theorem countUp_some {kaTree kaTree' : List NattKaAddrs}
    (h : countUp src dst kaTree = some kaTree') :
    ∃ n more, held kaTree (src, dst) = n :: more ∧
      held kaTree' (src, dst) = (n + 1) % 2 ^ 32 :: more ∧
      ∀ pair, pair ≠ (src, dst) → held kaTree' pair = held kaTree pair := by
  induction kaTree generalizing kaTree' with
  | nil => cases h
  | cons ka rest ih =>
    rw [countUp] at h
    split_ifs at h with hka
    · cases h
      have hpair := (matched_iff hsrc hdst ka).mp hka
      refine ⟨ka.inUse.toNat, held rest (src, dst), ?_, ?_, ?_⟩
      · rw [held_cons, if_pos hpair]
      · have hup : ({ ka with inUse := ka.inUse + 1 } : NattKaAddrs).pair = (src, dst) := hpair
        rw [held_cons, if_pos hup, UInt32.toNat_add]
        rfl
      · intro pair hother
        have hne : ka.pair ≠ pair := fun e => hother (e.symm.trans hpair)
        rw [held_cons, held_cons, if_neg hne]
        exact if_neg hne
    · obtain ⟨rest', hrest, rfl⟩ := Option.map_eq_some_iff.mp h
      have hpair : ka.pair ≠ (src, dst) := fun e => hka ((matched_iff hsrc hdst ka).mpr e)
      obtain ⟨n, more, hn, hn', hothers⟩ := ih hrest
      refine ⟨n, more, ?_, ?_, ?_⟩
      · rw [held_cons, if_neg hpair, hn]
      · rw [held_cons, if_neg hpair, hn']
      · intro pair hother
        rw [held_cons, held_cons, hothers pair hother]

/-- The count of the pair goes up, or it starts at one. -/
theorem nattKeepaliveAdd_held {mem : Bool} {kaTree kaTree' : List NattKaAddrs}
    (h : nattKeepaliveAdd mem src dst kaTree = some kaTree') (pair : Pair) :
    held kaTree' pair =
      if pair = (src, dst) then
        match held kaTree pair with
        | [] => [1]
        | n :: more => (n + 1) % 2 ^ 32 :: more
      else held kaTree pair := by
  unfold nattKeepaliveAdd at h
  cases hup : countUp src dst kaTree with
  | some up =>
    rw [hup] at h
    cases h
    obtain ⟨n, more, hn, hn', hothers⟩ := countUp_some hsrc hdst hup
    split_ifs with hpair
    · rw [hpair, hn, hn']
    · exact hothers pair hpair
  | none =>
    rw [hup] at h
    simp only [Option.ite_none_right_eq_some, Option.some.injEq] at h
    obtain ⟨-, rfl⟩ := h
    have happend : held (kaTree ++ [{ src := src, dst := dst, inUse := 1 }]) pair =
        held kaTree pair ++ held [{ src := src, dst := dst, inUse := 1 }] pair := by
      unfold held
      rw [List.filter_append, List.map_append]
    rw [happend, held_cons]
    change _ ++ (if (src, dst) = pair then [1] else []) = _
    split_ifs with hpair hpair' hpair'
    · rw [hpair', countUp_none hsrc hdst hup, List.nil_append]
    · exact absurd hpair.symm hpair'
    · exact absurd hpair'.symm hpair
    · rw [List.append_nil]

/-- A count that has come down to one goes. -/
def down (n : ℕ) : Option ℕ := if n = 1 then none else some ((n + (2 ^ 32 - 1)) % 2 ^ 32)

omit hsrc hdst in
theorem filterMap_down {n : ℕ} (h : n + 1 < 2 ^ 32) :
    [n + 1].filterMap down = if n = 0 then [] else [n] := by
  by_cases hzero : n = 0
  · simp [hzero, down]
  · have hdown : (n + 1 + (2 ^ 32 - 1)) % 2 ^ 32 = n := by omega
    rw [List.filterMap_cons, down, if_neg (by omega), hdown, if_neg hzero]
    rfl

theorem nattKeepaliveRemove_held (kaTree : List NattKaAddrs) (pair : Pair) :
    held (nattKeepaliveRemove src dst kaTree) pair =
      if pair = (src, dst) then (held kaTree pair).filterMap down else held kaTree pair := by
  induction kaTree with
  | nil => simp [nattKeepaliveRemove, held]
  | cons ka rest ih =>
    have hlt := ka.inUse.toNat_lt
    have hsub : (ka.inUse - 1).toNat = (ka.inUse.toNat + (2 ^ 32 - 1)) % 2 ^ 32 := by
      rw [UInt32.toNat_sub]
      change (2 ^ 32 - 1 + ka.inUse.toNat) % 2 ^ 32 = _
      rw [Nat.add_comm]
    have hlast : ka.inUse - 1 ≤ 0 ↔ ka.inUse.toNat = 1 := by
      rw [UInt32.le_iff_toNat_le, hsub]
      change _ ≤ 0 ↔ _
      omega
    rw [nattKeepaliveRemove, held_cons]
    by_cases hka : matched ka src dst = true
    · have hpair := (matched_iff hsrc hdst ka).mp hka
      rw [if_pos hka]
      by_cases hone : ka.inUse.toNat = 1
      · rw [if_pos (hlast.mpr hone), ih, hpair]
        split_ifs with h h' h'
        · rw [List.filterMap_cons, down, if_pos hone]
        · exact absurd h.symm h'
        · exact absurd h'.symm h
        · rfl
      · rw [if_neg (fun e => hone (hlast.mp e)), held_cons, ih]
        change (if ka.pair = pair then (ka.inUse - 1).toNat :: _ else _) = _
        rw [hpair]
        split_ifs with h h' h'
        · rw [List.filterMap_cons, down, if_neg hone, hsub]
        · exact absurd h.symm h'
        · exact absurd h'.symm h
        · rfl
    · have hpair : ka.pair ≠ (src, dst) := fun e => hka ((matched_iff hsrc hdst ka).mpr e)
      rw [if_neg hka, held_cons, ih]
      split_ifs with h h'
      · exact absurd (h.trans h') hpair
      · rfl
      · rfl
      · rfl

end Operations

theorem nattKeepaliveSend_kept (opened : List Myaddr) (kaTree : List NattKaAddrs) :
    (nattKeepaliveSend opened kaTree).1 =
      kaTree.filter fun ka => myaddrGetfd ka.src opened ≠ -1 := by
  induction kaTree with
  | nil => rfl
  | cons ka rest ih =>
    rw [nattKeepaliveSend, List.filter_cons]
    by_cases h : myaddrGetfd ka.src opened = -1 <;> simp [h, ih]

/-! ### One step -/

theorem set_perm {α : Type} {l : List α} {i : ℕ} {old : α} (h : l[i]? = some old) (new : α) :
    l.Perm (old :: l.eraseIdx i) ∧ (l.set i new).Perm (new :: l.eraseIdx i) := by
  obtain ⟨hi, rfl⟩ := List.getElem?_eq_some_iff.mp h
  exact ⟨(List.getElem_cons_eraseIdx_perm hi).symm, List.set_perm_cons_eraseIdx hi new⟩

/-- The others keep their handles. -/
theorem users_others {s : State} {i : ℕ} {iph1 : Ph1handle} (h : s.ph1tree[i]? = some iph1)
    (pair : Pair) :
    users s pair = (s.ph1tree.eraseIdx i).countP (uses pair) + if uses pair iph1 then 1 else 0 := by
  have := (set_perm h iph1).1.countP_eq (uses pair)
  rwa [List.countP_cons] at this

theorem countP_marked {s : State} {i : ℕ} {iph1 : Ph1handle} (h : s.ph1tree[i]? = some iph1)
    (new : Ph1handle) (pair : Pair) :
    (s.ph1tree.set i new).countP (uses pair) =
      (s.ph1tree.eraseIdx i).countP (uses pair) + if uses pair new then 1 else 0 := by
  have := (set_perm h new).2.countP_eq (uses pair)
  rwa [List.countP_cons] at this

theorem set_same {α : Type} {l : List α} {i : ℕ} {x : α} (h : l[i]? = some x) : l.set i x = l := by
  obtain ⟨hi, rfl⟩ := List.getElem?_eq_some_iff.mp h
  exact List.set_getElem_self hi

theorem held_lt {kaTree : List NattKaAddrs} {pair : Pair} {n : ℕ} (h : n ∈ held kaTree pair) :
    n < 2 ^ 32 := by
  obtain ⟨ka, -, rfl⟩ := List.mem_map.mp h
  exact ka.inUse.toNat_lt

theorem uses_iff (pair : Pair) (iph1 : Ph1handle) :
    uses pair iph1 = true ↔ iph1.kaQueued = true ∧ iph1.pair = pair := by
  unfold uses
  rw [Bool.and_eq_true, decide_eq_true_iff]

theorem step_addPh1 {s : State} {i : ℕ} {iph1 : Ph1handle} (mem : Bool)
    (hi : s.ph1tree[i]? = some iph1) :
    step s (.addPh1 i mem) = some
      { s with
        ph1tree := s.ph1tree.set i (nattKeepaliveAddPh1 mem iph1 s.kaTree).1
        kaTree := (nattKeepaliveAddPh1 mem iph1 s.kaTree).2 } := by
  rw [step, hi]
  rfl

/-- The count of the pair after one more handle, as the code keeps it. -/
theorem held_added {s : State} {iph1 : Ph1handle} {mem : Bool} {kaTree : List NattKaAddrs}
    (h : Counted s)
    (hadd : nattKeepaliveAdd mem iph1.localAddr iph1.remote s.kaTree = some kaTree) (pair : Pair) :
    held kaTree pair =
      if pair = iph1.pair then [(users s pair + 1) % 2 ^ 32] else held s.kaTree pair := by
  rw [nattKeepaliveAdd_held iph1.localKnown iph1.remoteKnown hadd, (counted_iff s).mp h]
  change (if pair = iph1.pair then _ else _) = _
  by_cases hzero : users s pair = 0 <;> simp [hzero]

theorem users_marked {s : State} {i : ℕ} {iph1 : Ph1handle} (hi : s.ph1tree[i]? = some iph1)
    (hqueues : iph1.queues = true) (kaTree : List NattKaAddrs) (pair : Pair) :
    users { s with
        ph1tree := s.ph1tree.set i { iph1 with kaQueued := true }
        kaTree := kaTree } pair = users s pair + if pair = iph1.pair then 1 else 0 := by
  have hunmarked : iph1.kaQueued = false := by
    unfold Ph1handle.queues at hqueues
    simp_all
  have hold : uses pair iph1 = false := by simp [uses, hunmarked]
  have hnew : uses pair { iph1 with kaQueued := true } = decide (pair = iph1.pair) := by
    simp only [uses, Bool.true_and, eq_comm (a := pair)]
    rfl
  change (s.ph1tree.set i _).countP (uses pair) = _
  rw [countP_marked hi, users_others hi, hold, hnew]
  simp

/-- A handle that is marked counts once more, unless the count comes to its end. -/
theorem counted_marked {s : State} {i : ℕ} {iph1 : Ph1handle} {mem : Bool}
    {kaTree : List NattKaAddrs} (h : Counted s) (hi : s.ph1tree[i]? = some iph1)
    (hqueues : iph1.queues = true)
    (hadd : nattKeepaliveAdd mem iph1.localAddr iph1.remote s.kaTree = some kaTree) :
    Counted { s with
        ph1tree := s.ph1tree.set i { iph1 with kaQueued := true }
        kaTree := kaTree } ↔ users s iph1.pair + 1 < 2 ^ 32 := by
  rw [counted_iff]
  constructor
  · intro hcounted
    have hpair := hcounted iph1.pair
    rw [users_marked hi hqueues, held_added h hadd, if_pos rfl, if_pos rfl,
      if_neg (Nat.succ_ne_zero _)] at hpair
    have hsame : (users s iph1.pair + 1) % 2 ^ 32 = users s iph1.pair + 1 :=
      List.singleton_inj.mp hpair
    omega
  · intro hlt pair
    rw [users_marked hi hqueues, held_added h hadd]
    by_cases hpair : pair = iph1.pair
    · rw [if_pos hpair, if_pos hpair, if_neg (Nat.succ_ne_zero _), hpair, Nat.mod_eq_of_lt hlt]
    · rw [if_neg hpair, if_neg hpair, Nat.add_zero]
      exact (counted_iff s).mp h pair

theorem counted_addPh1 {s : State} {i : ℕ} {iph1 : Ph1handle} (mem : Bool) (h : Counted s)
    (hi : s.ph1tree[i]? = some iph1) :
    (iph1.queues → users s iph1.pair + 1 < 2 ^ 32) ↔
      Counted { s with
        ph1tree := s.ph1tree.set i (nattKeepaliveAddPh1 mem iph1 s.kaTree).1
        kaTree := (nattKeepaliveAddPh1 mem iph1 s.kaTree).2 } := by
  unfold nattKeepaliveAddPh1
  by_cases hqueues : iph1.queues = true
  · rw [if_pos hqueues]
    cases hadd : nattKeepaliveAdd mem iph1.localAddr iph1.remote s.kaTree with
    | some kaTree =>
      rw [← counted_marked h hi hqueues hadd]
      exact ⟨fun hcounted => hcounted hqueues, fun hcounted _ => hcounted⟩
    | none =>
      -- Without memory the pair has no entry, and nothing changes.
      have hfree : users s iph1.pair = 0 := by
        unfold nattKeepaliveAdd at hadd
        cases hup : countUp iph1.localAddr iph1.remote s.kaTree with
        | some kaTree =>
          rw [hup] at hadd
          cases hadd
        | none =>
          have hheld := countUp_none iph1.localKnown iph1.remoteKnown hup
          have hpair := (counted_iff s).mp h iph1.pair
          by_contra hne
          rw [if_neg hne] at hpair
          cases hpair.symm.trans hheld
      rw [set_same hi]
      refine iff_of_true (fun _ => ?_) h
      omega
  · rw [if_neg hqueues, set_same hi]
    exact iff_of_true (fun hq => absurd hq hqueues) h

theorem counted_timer {s : State} (opened : List Myaddr) (h : Counted s)
    (sent : List (Sockaddr × Sockaddr)) :
    (∀ ka ∈ s.kaTree, myaddrGetfd ka.src opened ≠ -1) ↔
      Counted { s with
        kaTree := (nattKeepaliveSend opened s.kaTree).1
        sent := sent } := by
  rw [nattKeepaliveSend_kept]
  constructor
  · intro hopen
    have hkeep : (s.kaTree.filter fun ka => myaddrGetfd ka.src opened ≠ -1) = s.kaTree := by
      rw [List.filter_eq_self]
      intro ka hka
      exact decide_eq_true (hopen ka hka)
    rw [hkeep]
    exact ⟨h.once, h.listed, h.inUse⟩
  · intro hcounted ka hka
    have huser := (h.listed ka.pair).mp (List.mem_map_of_mem hka)
    obtain ⟨other, hother, hpair⟩ := List.mem_map.mp ((hcounted.listed ka.pair).mpr huser)
    have hopen := of_decide_eq_true (List.mem_filter.mp hother).2
    have hsrc : other.src = ka.src := congrArg Prod.fst hpair
    rw [← hsrc]
    exact hopen

theorem users_deleted {s : State} {i : ℕ} {iph1 : Ph1handle} (hi : s.ph1tree[i]? = some iph1)
    (kaTree : List NattKaAddrs) (pair : Pair) :
    users s pair = users { s with
        ph1tree := s.ph1tree.eraseIdx i
        kaTree := kaTree } pair + if uses pair iph1 then 1 else 0 := users_others hi pair

theorem counted_delph1 {s : State} {i : ℕ} {iph1 : Ph1handle} (h : Counted s)
    (hi : s.ph1tree[i]? = some iph1) :
    Counted { s with
        ph1tree := s.ph1tree.eraseIdx i
        kaTree := delph1 iph1 s.kaTree } := by
  rw [counted_iff]
  intro pair
  have hold := (counted_iff s).mp h pair
  have husers := users_deleted hi (delph1 iph1 s.kaTree) pair
  change held (delph1 iph1 s.kaTree) pair = _
  by_cases huse : uses pair iph1 = true
  · obtain ⟨hqueued, hpair⟩ := (uses_iff _ _).mp huse
    rw [if_pos huse] at husers
    rw [husers, if_neg (Nat.succ_ne_zero _)] at hold
    have hlt : users _ pair + 1 < 2 ^ 32 := held_lt (hold ▸ List.mem_singleton_self _)
    have hremoved : held (delph1 iph1 s.kaTree) pair = (held s.kaTree pair).filterMap down := by
      rw [delph1, if_pos hqueued, nattKeepaliveRemove_held iph1.localKnown iph1.remoteKnown]
      exact if_pos hpair.symm
    rw [hremoved, hold]
    exact filterMap_down hlt
  · rw [if_neg huse, Nat.add_zero] at husers
    rw [← husers, ← hold, delph1]
    split_ifs with hqueued
    · rw [nattKeepaliveRemove_held iph1.localKnown iph1.remoteKnown, if_neg]
      intro hpair
      exact huse ((uses_iff _ _).mpr ⟨hqueued, hpair.symm⟩)
    · rfl

/-! ### Runs -/

theorem step_counted_iff (s : State) (e : Event) (h : Counted s) :
    Sound s e ↔ ∃ s', step s e = some s' ∧ Counted s' := by
  cases e with
  | addPh1 i mem =>
    cases hi : s.ph1tree[i]? with
    | none => simp [Sound, step, hi]
    | some iph1 =>
      have := counted_addPh1 mem h hi
      simpa [Sound, step, hi] using this
  | timer opened =>
    have := counted_timer opened h (s.sent ++ (nattKeepaliveSend opened s.kaTree).2)
    simpa [Sound, step] using this
  | delph1 i =>
    cases hi : s.ph1tree[i]? with
    | none =>
      have hlen := List.getElem?_eq_none_iff.mp hi
      simp [Sound, step, hlen]
    | some iph1 =>
      have hlen := (List.getElem?_eq_some_iff.mp hi).1
      simp only [Sound, step, hi, Option.map_some, Option.some.injEq, hlen, true_iff]
      exact ⟨_, rfl, counted_delph1 h hi⟩

theorem listed_iff {s : State} (h : Counted s) (pair : Pair) :
    pair ∈ s.kaTree.map NattKaAddrs.pair ↔ 0 < users s pair := by
  rw [h.listed, users_pos]

/-- Only a deletion takes a user away, and one at most. -/
theorem users_step {s s' : State} {e : Event} (hstep : step s e = some s') (pair : Pair) :
    users s pair ≤ users s' pair ∨ ∃ i iph1, e = .delph1 i ∧ s.ph1tree[i]? = some iph1 ∧
      uses pair iph1 ∧ users s pair = users s' pair + 1 := by
  cases e with
  | addPh1 i mem =>
    obtain ⟨iph1, hi, rfl⟩ := Option.map_eq_some_iff.mp hstep
    left
    have hkept : uses pair iph1 = true →
        uses pair (nattKeepaliveAddPh1 mem iph1 s.kaTree).1 = true := by
      intro huse
      have hqueues : iph1.queues = false := by
        simp [Ph1handle.queues, ((uses_iff _ _).mp huse).1]
      simpa [nattKeepaliveAddPh1, hqueues] using huse
    change _ ≤ (s.ph1tree.set i _).countP (uses pair)
    rw [users_others hi, countP_marked hi]
    split_ifs with hold hnew
    · exact le_rfl
    · exact absurd (hkept hold) hnew
    · exact Nat.le_succ _
    · exact le_rfl
  | timer opened =>
    cases hstep
    exact .inl le_rfl
  | delph1 i =>
    obtain ⟨iph1, hi, rfl⟩ := Option.map_eq_some_iff.mp hstep
    have husers := users_deleted hi (delph1 iph1 s.kaTree) pair
    split_ifs at husers with huse
    · exact .inr ⟨i, iph1, rfl, hi, huse, husers⟩
    · exact .inl husers.le

theorem lastUse_step {s s' : State} {e : Event} (h : Counted s) (h' : Counted s')
    (hstep : step s e = some s') : LastUse s e s' := by
  intro pair
  rw [listed_iff h, listed_iff h']
  constructor
  · rintro ⟨hpos, hgone⟩
    rcases users_step hstep pair with hle | ⟨i, iph1, he, hi, huse, husers⟩
    · omega
    · exact ⟨i, iph1, he, hi, huse, by omega⟩
  · rintro ⟨i, iph1, rfl, hi, huse, hone⟩
    rw [step, hi, Option.map_some, Option.some.injEq] at hstep
    subst hstep
    have husers := users_deleted hi (delph1 iph1 s.kaTree) pair
    rw [if_pos huse] at husers
    omega

theorem counted_unused {s : State} (h : Unused s) : Counted s := by
  obtain ⟨hempty, hmarked⟩ := h
  have hnone : ∀ pair, ¬∃ iph1 ∈ s.ph1tree, uses pair iph1 = true := by
    rintro pair ⟨iph1, hmem, huse⟩
    rw [uses_iff, hmarked iph1 hmem] at huse
    cases huse.1
  refine ⟨?_, ?_, ?_⟩
  · simp [hempty]
  · intro pair
    rw [hempty]
    exact iff_of_false List.not_mem_nil (hnone pair)
  · intro ka hka
    rw [hempty] at hka
    cases hka

/-- The list counts the marked handles in every state of a run, and an entry goes with its
    last user, just where every timer run finds the sockets of all entries. -/
theorem keepalive_counted_iff {s : State} {es : List Event} (h : Unused s) :
    Kept step Counted s es ∧ Through step LastUse s es ↔ Along step Sound s es := by
  have hcounted := counted_unused h
  have hkept : Kept step Counted s es ↔ Along step Sound s es := by
    apply @kept_iff_along _ _ step Sound fun _ => True
    · intro s e s' _ _
      trivial
    · intro s e _ h
      exact step_counted_iff s e h
    · trivial
    · exact hcounted
  constructor
  · rintro ⟨hk, -⟩
    exact hkept.mp hk
  · intro halong
    refine ⟨hkept.mpr halong, ?_⟩
    apply @through_of_along _ _ step Sound Counted LastUse ?_ s es hcounted halong
    intro s e h hsound
    obtain ⟨s', hstep, h'⟩ := (step_counted_iff s e h).mp hsound
    exact ⟨s', hstep, lastUse_step h h' hstep, h'⟩

def behindNat : Ph1handle where
  localAddr := .inet 1 4500
  remote := .inet 2 4500
  detectedMe := true
  detectedPeer := false
  kaQueued := false
  localKnown := by decide
  remoteKnown := by decide

def twoHandles : State where
  ph1tree := [behindNat, behindNat]
  kaTree := []
  sent := []

/-- Both handles join, the timer finds the socket, and both go. -/
def shared : List Event :=
  [.addPh1 0 true, .addPh1 1 true, .timer [⟨.inet 1 4500, 7⟩], .delph1 0, .delph1 0]

theorem keepalive_counted_shared :
    Kept step Counted twoHandles shared ∧ Through step LastUse twoHandles shared ↔
      Along step Sound twoHandles shared :=
  keepalive_counted_iff ⟨rfl, by decide +kernel⟩

/-- A timer run without the socket drops the entry of a handle that stays marked. -/
theorem keepalive_not_counted_lost :
    ¬∀ (s : State) (es : List Event), Unused s → (PartialRun.run step s es).isSome →
      Kept step Counted s es := by
  intro hall
  have hkept := hall twoHandles [.addPh1 0 true, .timer []] ⟨rfl, by decide +kernel⟩ rfl
  obtain ⟨-, s₁, hs₁, -, s₂, hs₂, hcounted⟩ := hkept
  cases hs₁
  cases hs₂
  have hlisted := (hcounted.listed behindNat.pair).mpr (by decide +kernel)
  revert hlisted
  decide +kernel

end WanStack.Racoon.NattKeepalive
