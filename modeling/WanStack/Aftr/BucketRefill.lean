import WanStack.Aftr.Linked

set_option autoImplicit false

/-!
# A bucket that cannot be refilled

`fill_bucket` returns early without a bit map or memory, and then the pointer to the
bucket that is used up stays where `new_nat` looks for one.
-/
namespace WanStack.Aftr
open BinaryTree SearchTree FieldOrder

section

variable (cfg : Conf) (env : NatEnv) (n : NatEntry) (s : State)

/-- The return of `fill_bucket` before it touches the bucket. -/
def FillReturnsEarly : Prop :=
  s.ports.freebm (s.tuns.srcidx n.tunnel, n.proto) = none ∨ env.mem 0 = false

/-- No port found for the first slot, in ten draws. -/
def NothingDrawn : Prop :=
  ∃ bm, s.ports.freebm (s.tuns.srcidx n.tunnel, n.proto) = some bm ∧ env.mem 0 = true ∧
    Ports.findPort (s.ports.pool (s.tuns.srcidx n.tunnel)) n.proto (env.draw 0) bm = none

/-- Another entry has the outside port. -/
def PortUsed (port : ℕ) : Prop := ∃ x ∈ s.nats.list n.proto, x.nsrc = n.nsrc ∧ x.nport = port

/-- The entry `new_nat` would link with a port. -/
def withPort (port : ℕ) : NatEntry := { n with nport := port }

/-- No entry and no port comes of `new_nat`. -/
structure HandsOutNothing : Prop where
  result : (newNat cfg env n { s with nats := s.nats.alloc }).2 = none
  tree : ∀ pr, (newNat cfg env n { s with nats := s.nats.alloc }).1.nats.list pr = s.nats.list pr
  splay : ∀ k, (newNat cfg env n { s with nats := s.nats.alloc }).1.nats.splay k = s.nats.splay k
  heap : (newNat cfg env n { s with nats := s.nats.alloc }).1.nats.heap = s.nats.heap
  port : ∀ port ∈
    (s.ports.takePort cfg env n.tunnel (s.tuns.srcidx n.tunnel) n.proto).2, ¬PortUsed n s port

/-- `new_nat` stops behind the port: no memory for the heap, or an equal entry in the splay
    tree. -/
def Refused (port : ℕ) : Prop :=
  env.mem 1 = false ∨
    find (natSplayCompareAbs (withPort n port)) (s.nats.root (n.tunnel, n.proto)) ≠ none

end

variable {cfg : Conf} {env : NatEnv} {n : NatEntry} {s : State}

/-- After a refill without a port there is no bucket. -/
theorem takePort_nothingDrawn (h : NothingDrawn env n s)
    (havail : s.ports.avail (n.tunnel, n.proto) = 0) :
    (s.ports.takePort cfg env n.tunnel (s.tuns.srcidx n.tunnel) n.proto).2 = none := by
  obtain ⟨bm, hbm, hmem, hfind⟩ := h
  obtain ⟨k, hk⟩ := Nat.exists_eq_add_one_of_ne_zero (Nat.ne_of_gt (cfg.bucksize_pos n.proto))
  have hloop : Ports.fillLoop (s.ports.pool (s.tuns.srcidx n.tunnel)) n.proto env.draw
      (cfg.bucksize n.proto) 0 bm [] = (bm, []) := by
    rw [hk, Ports.fillLoop, hfind]
  have hbucket : (s.ports.fillBucket cfg env n.tunnel (s.tuns.srcidx n.tunnel) n.proto).bucket
      (n.tunnel, n.proto) = none := by
    rw [Ports.fillBucket, hbm, hmem]
    simp only [hloop]
    exact Function.update_self ..
  rw [Ports.takePort, if_pos havail]
  dsimp only
  rw [hbucket]

/-- An early return leaves the bucket that is used up, and its first port is taken. -/
theorem takePort_early (cfg : Conf) (h : FillReturnsEarly env n s)
    (havail : s.ports.avail (n.tunnel, n.proto) = 0) :
    (s.ports.takePort cfg env n.tunnel (s.tuns.srcidx n.tunnel) n.proto).2 =
      (s.ports.bucket (n.tunnel, n.proto)).map fun b => b.getD 0 0 := by
  have hfill : s.ports.fillBucket cfg env n.tunnel (s.tuns.srcidx n.tunnel) n.proto = s.ports := by
    unfold Ports.fillBucket
    obtain hbm | hmem := h
    · rw [hbm]
    · rw [hmem]
      cases s.ports.freebm (s.tuns.srcidx n.tunnel, n.proto) <;> rfl
  rw [Ports.takePort, if_pos havail, hfill]
  dsimp only
  cases s.ports.bucket (n.tunnel, n.proto) with
  | none => rfl
  | some b =>
    rw [havail]
    rfl

theorem newNat_noPort
    (h : (s.ports.takePort cfg env n.tunnel (s.tuns.srcidx n.tunnel) n.proto).2 = none) :
    HandsOutNothing cfg env n s := by
  obtain ⟨ports, hports⟩ : ∃ ports,
      s.ports.takePort cfg env n.tunnel (s.tuns.srcidx n.tunnel) n.proto = (ports, none) :=
    ⟨_, Prod.ext rfl h⟩
  have hnew : newNat cfg env n { s with nats := s.nats.alloc } =
      ({ s with nats := s.nats.alloc, ports := ports }, none) := by
    unfold newNat
    dsimp only
    rw [hports]
  exact
    { result := by rw [hnew]
      tree := fun _ => by rw [hnew]; rfl
      splay := fun _ => by rw [hnew]; rfl
      heap := by rw [hnew]; rfl
      port := fun port hport => by
        rw [h] at hport
        cases hport }

/-- A port that no entry has finds its place in the NAT tree. -/
theorem tree_insert_unused {port : ℕ} (h : ¬PortUsed n s port) :
    (RedBlack.insert (natTreeCompareAbs (withPort n port)) (withPort n port)
      (s.nats.tree n.proto)).2 = none := by
  obtain ⟨hnone, -, -⟩ | ⟨x, -, hfind, -⟩ :=
    RedBlack.insert_spec (natTreeCompareAbs (withPort n port)) (withPort n port)
      (s.nats.tree n.proto)
  · exact hnone
  · exfalso
    apply h
    obtain ⟨hmem, hzero⟩ := find_some hfind
    have heq : (withPort n port).outside = x.outside := by
      have hpre := (orElse_eq_zero.mp hzero).1
      exact (lexDiff_eq_zero (outside_length _ _)).mp hpre
    obtain ⟨-, hnsrc, hnport⟩ := outside_eq.mp heq
    exact ⟨x, hmem, hnsrc.symm, hnport.symm⟩

/-- With such a port the links fail exactly where the splay tree has an equal entry. -/
theorem link_unused {port : ℕ} (h : ¬PortUsed n s port) :
    (s.nats.alloc.link n.proto (withPort n port)).2 = false ↔
      find (natSplayCompareAbs (withPort n port)) (s.nats.root (n.tunnel, n.proto)) ≠ none := by
  have htree := tree_insert_unused h
  have hproto : (withPort n port).tunnel = n.tunnel := rfl
  simp only [Nats.link, Nats.natTreeInsert, Nats.natSplayInsert, Nats.alloc, htree, hproto]
  obtain ⟨hnone, hfind, -⟩ | ⟨x, hsome, hfind, -⟩ :=
    Splay.insert_spec (natSplayCompareAbs (withPort n port)) (withPort n port)
      (s.nats.root (n.tunnel, n.proto))
  · simp [hnone, hfind]
  · simp [hsome, hfind]

/-- What `new_nat` makes of a port. -/
theorem newNat_port {port : ℕ} (hp : n.ptr = s.nats.next)
    (hfresh : ∀ x ∈ s.nats.list n.proto, x.ptr < s.nats.next)
    (h : (s.ports.takePort cfg env n.tunnel (s.tuns.srcidx n.tunnel) n.proto).2 = some port) :
    HandsOutNothing cfg env n s ↔ ¬PortUsed n s port ∧ Refused env n s port := by
  obtain ⟨ports, hports⟩ : ∃ ports,
      s.ports.takePort cfg env n.tunnel (s.tuns.srcidx n.tunnel) n.proto = (ports, some port) :=
    ⟨_, Prod.ext rfl h⟩
  have hport : (∀ q ∈ (s.ports.takePort cfg env n.tunnel (s.tuns.srcidx n.tunnel) n.proto).2,
      ¬PortUsed n s q) ↔ ¬PortUsed n s port := by
    rw [h]
    simp
  by_cases hused : PortUsed n s port
  · apply iff_of_false
    · intro hnothing
      exact hport.mp hnothing.port hused
    · rintro ⟨hunused, -⟩
      exact hunused hused
  rw [and_iff_right hused]
  by_cases hmem : env.mem 1 = true
  · have hrefused : Refused env n s port ↔
        (s.nats.alloc.link n.proto (withPort n port)).2 = false := by
      rw [link_unused hused]
      simp [Refused, hmem]
    rw [hrefused]
    obtain ⟨nats, ok, hlink⟩ : ∃ nats ok,
        s.nats.alloc.link n.proto (withPort n port) = (nats, ok) := ⟨_, _, rfl⟩
    have hsame := @unlinked_same s.nats (withPort n port) hp hfresh
    change (s.nats.alloc.link n.proto (withPort n port)).2 = false → _ at hsame
    have hnew : newNat cfg env n { s with nats := s.nats.alloc } =
        match ok with
        | false =>
          ({ s with
            nats := nats
            ports := ports.hold (s.tuns.srcidx n.tunnel) n.proto
              ⟨port, env.seconds + cfg.holdLifetime⟩ }, none)
        | true =>
          ({ s with
            nats := (nats.heapInsert (withPort n port)).count n.tunnel n.proto
            ports := ports }, some (withPort n port)) := by
      change s.nats.alloc.link n.proto { n with nport := port } = _ at hlink
      unfold newNat
      dsimp only
      rw [hports]
      simp only [hmem, hlink]
      cases ok <;> rfl
    rw [hlink]
    cases ok with
    | false =>
      refine iff_of_true ?_ rfl
      change s.nats.alloc.link n.proto (withPort n port) = _ at hlink
      obtain ⟨hnats, hheap, -⟩ := hsame (by rw [hlink])
      change SameNats _ (s.nats.alloc.link n.proto (withPort n port)).1 at hnats
      change (s.nats.alloc.link n.proto (withPort n port)).1.heap = _ at hheap
      rw [hlink] at hnats hheap
      exact
        { result := by rw [hnew]
          tree := by rw [hnew]; exact hnats.list
          splay := by rw [hnew]; exact hnats.splay
          heap := by rw [hnew]; exact hheap
          port := hport.mpr hused }
    | true =>
      refine iff_of_false ?_ (by intro h; cases h)
      intro hnothing
      have := hnothing.result
      rw [hnew] at this
      cases this
  · have hno : env.mem 1 = false := Bool.eq_false_iff.mpr hmem
    have hnew : newNat cfg env n { s with nats := s.nats.alloc } =
        ({ s with
          nats := s.nats.alloc
          ports := ports.hold (s.tuns.srcidx n.tunnel) n.proto
            ⟨port, env.seconds + cfg.holdLifetime⟩ }, none) := by
      unfold newNat
      dsimp only
      rw [hports]
      simp only [hno]
      rfl
    refine iff_of_true ?_ (.inl hno)
    exact
      { result := by rw [hnew]
        tree := fun _ => by rw [hnew]; rfl
        splay := fun _ => by rw [hnew]; rfl
        heap := by rw [hnew]; rfl
        port := hport.mpr hused }

theorem refill_failed_iff (cfg : Conf) (env : NatEnv) (n : NatEntry) (s : State)
    (hp : n.ptr = s.nats.next) (hfresh : ∀ x ∈ s.nats.list n.proto, x.ptr < s.nats.next)
    (havail : s.ports.avail (n.tunnel, n.proto) = 0)
    (hfail : FillReturnsEarly env n s ∨ NothingDrawn env n s) :
    HandsOutNothing cfg env n s ↔
      NothingDrawn env n s ∨ s.ports.bucket (n.tunnel, n.proto) = none ∨
        ∃ b, s.ports.bucket (n.tunnel, n.proto) = some b ∧ ¬PortUsed n s (b.getD 0 0) ∧
          Refused env n s (b.getD 0 0) := by
  obtain hearly | hnothing := hfail
  · have htake := takePort_early cfg hearly havail
    have hnot : ¬NothingDrawn env n s := by
      rintro ⟨bm, hbm, hmem, -⟩
      obtain hnone | hfalse := hearly
      · rw [hbm] at hnone
        cases hnone
      · rw [hmem] at hfalse
        cases hfalse
    rw [or_iff_right hnot]
    cases hb : s.ports.bucket (n.tunnel, n.proto) with
    | none =>
      rw [hb] at htake
      exact iff_of_true (newNat_noPort htake) (.inl rfl)
    | some b =>
      rw [hb] at htake
      rw [newNat_port hp hfresh htake]
      simp
  · exact iff_of_true (newNat_noPort (takePort_nothingDrawn hnothing havail)) (.inl hnothing)

/-- A TCP entry of tunnel 0, as `natin` makes it. -/
def tcpEntry : NatEntry where
  ptr := 1
  tunnel := 0
  proto := .tcp
  flags := { allDst := true, matchPort := true }
  src := 10
  sport := 4000
  nsrc := 7
  nport := 0
  dst := 20
  dport := 80

/-- A bucket that is used up, whose first port has come free since. -/
def usedUp : State :=
  { ports :=
    { pools := [⟨7, fun _ => 5000, fun _ => 5009⟩]
      freebm := fun _ => some fun _ => true
      bucket := fun _ => some [5000] } }

/-- No memory for a bucket, and some for the heap. -/
def bucketless : NatEnv where
  seconds := 0
  mem := fun i => i ≠ 0
  draw := fun _ _ => 0

theorem refill_failed_initial : HandsOutNothing defaultConf bucketless tcpEntry {} :=
  (refill_failed_iff defaultConf bucketless tcpEntry {} rfl (by decide) rfl
    (.inl (.inl rfl))).mpr (.inr (.inl rfl))

theorem usedUp_handed_out :
    ¬∀ (cfg : Conf) (env : NatEnv) (n : NatEntry) (s : State), n.ptr = s.nats.next →
      (∀ x ∈ s.nats.list n.proto, x.ptr < s.nats.next) →
      s.ports.avail (n.tunnel, n.proto) = 0 → (FillReturnsEarly env n s ∨ NothingDrawn env n s) →
      HandsOutNothing cfg env n s := by
  intro hall
  have hnothing := hall defaultConf bucketless tcpEntry usedUp rfl (by decide) rfl (.inl (.inr rfl))
  have hsome : (newNat defaultConf bucketless tcpEntry
      { usedUp with nats := usedUp.nats.alloc }).2 = some (withPort tcpEntry 5000) := by
    decide +kernel
  have := hnothing.result
  rw [hsome] at this
  cases this

end WanStack.Aftr
