import Mathlib.Logic.Relation
import WanStack.Aftr.TunnelInv

set_option autoImplicit false

/-!
# What a step is made of

Every step of a run is a sequence of moves. A growing sequence links entries
and deletes none, a shrinking one deletes entries and links none; the
invariants are proved move by move.
-/
namespace WanStack.Aftr
open SearchTree Relation

/-- The entries of a NAT tree in order. -/
def Nats.list (s : Nats) (pr : Pr) : List NatEntry := RedBlack.list (s.tree pr)

/-- The entries of the splay tree of a tunnel in order. -/
def Nats.splay (s : Nats) (k : ℕ × Pr) : List NatEntry := toList (s.root k)

/-- The state holds a pointer to the entry somewhere. -/
def Known (s : State) (n : NatEntry) : Prop :=
  (∃ pr, n ∈ s.nats.list pr) ∨ (∃ k, n ∈ s.nats.splay k) ∨ n ∈ s.nats.heap ∨
    (∃ p, n ∈ s.nats.xlist p) ∨ (∃ h, s.nats.nathash h = some n) ∨ ∃ l ∈ s.ctl.chains, n ∈ l

/-- The address of a standard tunnel in use, or of one an entry points to. -/
def Owner (s : State) (t : ℕ) : Prop :=
  (∃ u ∈ s.tuns.live, u.ptr = t ∧ s.tuns.nonat t = none) ∨ ∃ n, Known s n ∧ n.tunnel = t

structure SameNats (s s' : Nats) : Prop where
  list : ∀ pr, s'.list pr = s.list pr
  splay : ∀ k, s'.splay k = s.splay k
  nathash : s'.nathash = s.nathash
  nathashsz : s'.nathashsz = s.nathashsz
  nathashrnd : s'.nathashrnd = s.nathashrnd
  hash : s'.hash = s.hash
  next : s.next ≤ s'.next

/-- Nothing but rotations, settings, counters, tunnels added and pointers
    dropped. -/
structure Quiet (s s' : State) : Prop where
  nats : SameNats s.nats s'.nats
  tuns : ReflTransGen Tunnels.Grow s.tuns s'.tuns
  ports : s'.ports = s.ports
  frags : s'.frags = s.frags
  known : ∀ n, Known s' n → Known s n

/-- The entry `n` was put into both trees. -/
structure Links (s s' : Nats) (n : NatEntry) : Prop where
  ptr : n.ptr = s.next
  next : s'.next = s.next + 1
  treeNone : find (natTreeCompareAbs n) (RedBlack.entries (s.tree n.proto)) = none
  tree : Inserted (natTreeCompareAbs n) n (s.list n.proto) (s'.list n.proto)
  treeOther : ∀ pr, pr ≠ n.proto → s'.list pr = s.list pr
  rootNone : find (natSplayCompareAbs n) (s.root (n.tunnel, n.proto)) = none
  root : Inserted (natSplayCompareAbs n) n (s.splay (n.tunnel, n.proto))
    (s'.splay (n.tunnel, n.proto))
  rootOther : ∀ k, k ≠ (n.tunnel, n.proto) → s'.splay k = s.splay k
  nathash : s'.nathash = s.nathash
  nathashsz : s'.nathashsz = s.nathashsz
  nathashrnd : s'.nathashrnd = s.nathashrnd
  hash : s'.hash = s.hash

/-- Take the port on top of a bucket. -/
def Ports.pop (p : Ports) (k : ℕ × Pr) : Ports :=
  { p with avail := Function.update p.avail k (p.avail k - 1) }

def Ports.topPort (p : Ports) (k : ℕ × Pr) : ℕ := ((p.bucket k).getD []).getD (p.avail k - 1) 0

/-- Where a linked entry comes from, with what it did to the ports. -/
inductive Origin (cfg : Conf) (s : State) (n : NatEntry) : Ports → Prop where
  | dynamic (hb : (s.ports.bucket (n.tunnel, n.proto)).isSome = true)
      (hport : n.nport = s.ports.topPort (n.tunnel, n.proto))
      (hsrc : n.nsrc = (s.ports.pool (s.tuns.srcidx n.tunnel)).addr)
      (hflags : n.flags = portFlags n.proto)
      (howner : ∃ u ∈ s.tuns.live, u.ptr = n.tunnel ∧ s.tuns.nonat n.tunnel = none) :
      Origin cfg s n (s.ports.pop (n.tunnel, n.proto))
  | ftpData (n0 : NatEntry) (hk : Known s n0)
      (hb : (s.ports.bucket (n.tunnel, n.proto)).isSome = true)
      (hport : n.nport = s.ports.topPort (n.tunnel, n.proto))
      (hn : n.tunnel = n0.tunnel ∧ n.proto = n0.proto ∧ n.src = n0.src ∧ n.nsrc = n0.nsrc ∧
        n.dst = n0.dst ∧ n.dport = 0)
      (hflags : n.flags = { allDst := true, matchPort := true, ftpData := true }) :
      Origin cfg s n (s.ports.pop (n.tunnel, n.proto))
  | static (i : ℕ) (hpool : s.ports.findPool n.nsrc = some i)
      (hport : Ports.inRange (s.ports.pool i) n.proto n.nport = false)
      (hflags : n.flags = { allDst := true, matchPort := true } ∨
        n.flags = { allDst := true, prrNull := true, matchPort := true } ∧
          n.nsrc = n.src ∧ n.nport = n.sport)
      (hdst : n.dst = 0 ∧ n.dport = 0)
      (howner : ∃ u ∈ s.tuns.live, u.ptr = n.tunnel ∧ s.tuns.nonat n.tunnel = none) :
      Origin cfg s n s.ports
  | clone (n0 : NatEntry) (hk : Known s n0) (h0 : n0.flags.allDst = true)
      (hprr : n0.flags.prrNull = false) (hsport : n0.sport = PORTFTP) (hproto : n0.proto = .tcp)
      (hn : ∃ dst dport, n = { n0 with
        ptr := n.ptr, flags := { matchPort := true }, dst := dst, dport := dport }) :
      Origin cfg s n s.ports

/-- The changes of the ports that leave the entries alone. -/
inductive PortMove (cfg : Conf) (s : State) : Ports → Prop where
  | fill (env : NatEnv) (t : ℕ) (pr : Pr) (ht : Owner s t) (ha : s.ports.avail (t, pr) = 0) :
      PortMove cfg s (s.ports.fillBucket cfg env t (s.tuns.srcidx t) pr)
  | hold (t : ℕ) (pr : Pr) (until' : ℕ) (ht : Owner s t)
      (hb : (s.ports.bucket (t, pr)).isSome = true) :
      PortMove cfg s ((s.ports.pop (t, pr)).hold (s.tuns.srcidx t) pr
        ⟨s.ports.topPort (t, pr), until'⟩)
  | free (seconds : ℕ) : PortMove cfg s (s.ports.freeHeldnats seconds)
  | empty (t : ℕ) (pr : Pr) (ht : Owner s t) :
      PortMove cfg s (s.ports.emptyBucket t (s.tuns.srcidx t) pr (s.ports.avail (t, pr)))

/-- What a sequence of moves may do: link entries or else delete them, remove
    the tunnels of `gone`, and leave a removed tunnel with entries unless the
    trees are `clean`. -/
structure Mode where
  grow : Bool
  gone : ℕ → Prop
  clean : Prop

def FragEvent.tunnel : FragEvent → Option ℕ
  | .defrag _ t _ => t
  | .defrag6 _ t _ => some t
  | _ => none

inductive Move (cfg : Conf) (m : Mode) : State → State → Prop where
  | quiet {s s' : State} (h : Quiet s s') : Move cfg m s s'
  | ports {s : State} {p : Ports} (h : PortMove cfg s p) : Move cfg m s { s with ports := p }
  | frags {s : State} (e : FragEvent) (ht : ∀ t, e.tunnel = some t →
      m.grow = true ∧ ∃ u ∈ s.tuns.live, u.ptr = t) :
      Move cfg m s { s with frags := fragStep cfg.frag s.frags e }
  | cache {s : State} {pr : Pr} {key n : NatEntry}
      (hf : s.nats.natTreeFindWild pr key = some n) :
      Move cfg m s { s with nats := { s.nats with
        hash := Function.update s.nats.hash n.ptr (s.nats.slot key)
        nathash := Function.update s.nats.nathash (s.nats.slot key) (some n) } }
  | resize {s : State} (up : Bool) (rnd : UInt32) :
      Move cfg m s { s with nats := resizeNatHash up rnd s.nats }
  | unlinked {s : State} {n : NatEntry} (hp : n.ptr = s.nats.next)
      (hf : (s.nats.alloc.link n.proto n).2 = false) :
      Move cfg m s { s with nats := (s.nats.alloc.link n.proto n).1 }
  | link {s s' : State} {n : NatEntry} (hm : m.grow = true) (hl : Links s.nats s'.nats n)
      (hk : ∀ x, Known s' x → x = n ∨ Known s x) (ht : s'.tuns = s.tuns)
      (hf : s'.frags = s.frags) (ho : Origin cfg s n s'.ports) : Move cfg m s s'
  | del {s : State} {n : NatEntry} {c : Control} (hm : m.grow = false) (seconds : ℕ)
      (hk : Known s n) (hc : ∀ l ∈ c.chains, ∀ x ∈ l, Known s x) :
      Move cfg m s (delNat cfg seconds n { s with ctl := c })
  | removeTunnel {s : State} {t : Tunnel} (hm : m.grow = false) (hg : m.gone t.ptr)
      (ht : t ∈ s.tuns.live) (hn : s.tuns.nonat t.ptr = none)
      (hroot : m.clean → ∀ pr, s.nats.splay (t.ptr, pr) = [])
      (havail : ∀ pr, s.ports.avail (t.ptr, pr) = 0) :
      Move cfg m s { s with tuns := s.tuns.removeTunnel t }
  | removeNonat {s : State} {t : Tunnel} (hm : m.grow = false) (hg : m.gone t.ptr)
      (ht : t ∈ s.tuns.nonats) (hn : (s.tuns.nonat t.ptr).isSome = true) :
      Move cfg m s { s with tuns := s.tuns.removeNonat t }

def Moves (cfg : Conf) (m : Mode) : State → State → Prop := ReflTransGen (Move cfg m)

theorem SameNats.refl (s : Nats) : SameNats s s :=
  ⟨fun _ => rfl, fun _ => rfl, rfl, rfl, rfl, rfl, Nat.le_refl _⟩

theorem Quiet.refl (s : State) : Quiet s s := ⟨SameNats.refl _, .refl, rfl, rfl, fun _ h => h⟩

theorem Quiet.moves {cfg : Conf} {m : Mode} {s s' : State} (h : Quiet s s') :
    Moves cfg m s s' := .single (.quiet h)

theorem Moves.refl {cfg : Conf} {m : Mode} (s : State) : Moves cfg m s s := ReflTransGen.refl

theorem Moves.trans {cfg : Conf} {m : Mode} {a b c : State} (h : Moves cfg m a b)
    (h' : Moves cfg m b c) : Moves cfg m a c := ReflTransGen.trans h h'

/-- A change of the tunnels that adds or looks up. -/
theorem Quiet.of_tuns {s : State} {tuns : Tunnels} (h : ReflTransGen Tunnels.Grow s.tuns tuns) :
    Quiet s { s with tuns := tuns } := ⟨SameNats.refl _, h, rfl, rfl, fun _ h => h⟩

theorem Quiet.of_core {s : State} {tuns : Tunnels} (h : Tunnels.SameCore s.tuns tuns) :
    Quiet s { s with tuns := tuns } := .of_tuns (.single (.field h))

/-- A change of the control part that forgets entries at most. -/
theorem Quiet.of_ctl {s : State} {c : Control} (h : ∀ l ∈ c.chains, ∀ m ∈ l, Known s m) :
    Quiet s { s with ctl := c } := by
  refine ⟨SameNats.refl _, .refl, rfl, rfl, ?_⟩
  rintro n (h1 | h1 | h1 | h1 | h1 | ⟨l, hl, hn⟩)
  · exact .inl h1
  · exact .inr (.inl h1)
  · exact .inr (.inr (.inl h1))
  · exact .inr (.inr (.inr (.inl h1)))
  · exact .inr (.inr (.inr (.inr (.inl h1))))
  · exact h l hl n hn

theorem Known.of_list {s : State} {n : NatEntry} {pr : Pr} (h : n ∈ s.nats.list pr) :
    Known s n := .inl ⟨pr, h⟩

theorem Known.of_splay {s : State} {n : NatEntry} {k : ℕ × Pr} (h : n ∈ s.nats.splay k) :
    Known s n := .inr (.inl ⟨k, h⟩)

theorem Known.of_heap {s : State} {n : NatEntry} (h : n ∈ s.nats.heap) : Known s n :=
  .inr (.inr (.inl h))

theorem Known.of_xlist {s : State} {n : NatEntry} {p : ℕ} (h : n ∈ s.nats.xlist p) :
    Known s n := .inr (.inr (.inr (.inl ⟨p, h⟩)))

theorem Known.of_nathash {s : State} {n : NatEntry} {h : ℕ} (hh : s.nats.nathash h = some n) :
    Known s n := .inr (.inr (.inr (.inr (.inl ⟨h, hh⟩))))

theorem Known.of_chain {s : State} {n : NatEntry} {l : List NatEntry} (hl : l ∈ s.ctl.chains)
    (h : n ∈ l) : Known s n := .inr (.inr (.inr (.inr (.inr ⟨l, hl, h⟩))))

/-- What is known does not depend on tunnels, ports and fragments. -/
theorem Known.congr {s s' : State} {n : NatEntry} (h : Known s n) (hn : s'.nats = s.nats)
    (hc : s'.ctl = s.ctl) : Known s' n := by
  unfold Known
  rw [hn, hc]
  exact h

/-- Pointers besides those of the trees and the hash table may be dropped. -/
theorem Quiet.of_nats {s : State} {nats : Nats} (h : SameNats s.nats nats)
    (hheap : ∀ n ∈ nats.heap, Known s n) (hx : ∀ p, ∀ n ∈ nats.xlist p, Known s n) :
    Quiet s { s with nats := nats } := by
  refine ⟨h, .refl, rfl, rfl, ?_⟩
  rintro n (⟨pr, h1⟩ | ⟨k, h1⟩ | h1 | ⟨p, h1⟩ | ⟨k, h1⟩ | ⟨l, hl, h1⟩)
  · exact .of_list ((h.list pr) ▸ h1)
  · exact .of_splay ((h.splay k) ▸ h1)
  · exact hheap n h1
  · exact hx p n h1
  · exact .of_nathash (h.nathash ▸ h1)
  · exact .of_chain hl h1

theorem Quiet.of_root {s : State} {k : ℕ × Pr} {t : BinaryTree NatEntry}
    (h : toList t = s.nats.splay k) :
    Quiet s { s with nats := { s.nats with root := Function.update s.nats.root k t } } := by
  refine Quiet.of_nats ⟨fun _ => rfl, fun k' => ?_, rfl, rfl, rfl, rfl, Nat.le_refl _⟩
    (fun n hn => .of_heap hn) fun p n hn => .of_xlist hn
  simp only [Nats.splay, Function.update_apply]
  split
  · rename_i hk
    rw [h, hk, Nats.splay]
  · rfl

theorem natSplaySplay_quiet (s : State) (pr : Pr) (n : NatEntry) :
    Quiet s { s with nats := s.nats.natSplaySplay pr n } :=
  Quiet.of_root (Splay.toList_splay ..)

theorem natSplayFind_quiet (s : State) (pr : Pr) (n : NatEntry) (gen lastgen : ℕ)
    (exact' stale : Bool) :
    Quiet s { s with nats := (s.nats.natSplayFind pr n gen lastgen exact' stale).1 } :=
  Quiet.of_root (Splay.toList_lookup ..)

/-- What a search of a splay tree finds is what the plain search finds. -/
theorem natSplayFind_snd {s : Nats} {pr : Pr} {n : NatEntry} {gen lastgen : ℕ}
    {exact' stale : Bool} {e : NatEntry}
    (h : (s.natSplayFind pr n gen lastgen exact' stale).2 = some e) :
    s.natSplayRoFind pr n exact' = some e := by
  simp only [Nats.natSplayFind] at h
  split at h
  · simp at h
  · rw [Splay.lookup_eq_find] at h
    exact h

theorem natSplayRoFind_mem {s : Nats} {pr : Pr} {n e : NatEntry} {exact' : Bool}
    (h : s.natSplayRoFind pr n exact' = some e) : e ∈ s.splay (n.tunnel, pr) :=
  (find_some h).1

theorem natTreeFindWild_mem {s : Nats} {pr : Pr} {n e : NatEntry}
    (h : s.natTreeFindWild pr n = some e) : e ∈ s.list pr ∧ natTreeCompareWild n e = 0 :=
  find_some h

theorem natLookup_cases (s : Nats) (pr : Pr) (key : NatEntry) (lastgen : ℕ) :
    (∃ n, s.nathash (s.slot key) = some n ∧ natTreeCompareWild key n = 0 ∧
      s.natLookup pr key lastgen = (s, some n)) ∨
    s.natLookup pr key lastgen = (s, none) ∨
    ∃ n, s.natTreeFindWild pr key = some n ∧ Nats.staleGen lastgen (s.generation n.ptr) = false ∧
      s.natLookup pr key lastgen = ({ s with
        hash := Function.update s.hash n.ptr (s.slot key)
        nathash := Function.update s.nathash (s.slot key) (some n) }, some n) := by
  simp only [Nats.natLookup]
  cases hc : (s.nathash (s.slot key)).filter fun n => decide (natTreeCompareWild key n = 0) with
  | some n =>
    obtain ⟨hslot, h0⟩ := Option.filter_eq_some_iff.mp hc
    exact .inl ⟨n, hslot, of_decide_eq_true h0, rfl⟩
  | none =>
    cases hf : s.natTreeFindWild pr key with
    | none => exact .inr (.inl (by simp))
    | some n =>
      cases hs : Nats.staleGen lastgen (s.generation n.ptr) with
      | true => exact .inr (.inl (by simp [hs]))
      | false => exact .inr (.inr ⟨n, rfl, hs, by simp [hs]⟩)

theorem natLookup_moves (cfg : Conf) (m : Mode) (s : State) (pr : Pr) (key : NatEntry) :
    Moves cfg m s { s with nats := (s.nats.natLookup pr key s.ctl.lastgen).1 } := by
  rcases natLookup_cases s.nats pr key s.ctl.lastgen with ⟨n, -, -, h⟩ | h | ⟨n, hf, -, h⟩
  · rw [h]
    exact .refl s
  · rw [h]
    exact .refl s
  · rw [h]
    exact .single (.cache hf)

theorem natLookup_known {s : State} {pr : Pr} {key n : NatEntry} {nats : Nats}
    (h : s.nats.natLookup pr key s.ctl.lastgen = (nats, some n)) :
    Known { s with nats := nats } n := by
  rcases natLookup_cases s.nats pr key s.ctl.lastgen with ⟨m, hm, -, h'⟩ | h' | ⟨m, -, -, h'⟩ <;>
    simp only [h', Prod.mk.injEq, Option.some.injEq, reduceCtorEq, and_false] at h
  · obtain ⟨rfl, rfl⟩ := h
    exact .of_nathash hm
  · obtain ⟨rfl, rfl⟩ := h
    exact .of_nathash (h := s.nats.slot key) (by simp)

/-- A link that worked, with heap, chains and counters still to come. -/
theorem link_true {s nats : Nats} {n : NatEntry} (hp : n.ptr = s.next)
    (h : s.alloc.link n.proto n = (nats, true)) :
    Links s nats n ∧ nats.heap = s.heap ∧ nats.xlist = s.xlist ∧ nats.generation = s.generation := by
  simp only [Nats.link, Nats.natTreeInsert, Nats.natSplayInsert] at h
  rcases RedBlack.insert_spec (natTreeCompareAbs n) n (s.tree n.proto) with
    ⟨htn, htf, hti⟩ | ⟨x, htn, -, -⟩
  · rcases Splay.insert_spec (natSplayCompareAbs n) n (s.root (n.tunnel, n.proto)) with
      ⟨hrn, hrf, hri⟩ | ⟨x, hrn, -, -⟩
    · simp only [Nats.alloc, htn, hrn, Prod.mk.injEq, and_true] at h
      subst h
      refine ⟨⟨hp, rfl, htf, ?_, ?_, hrf, ?_, ?_, rfl, rfl, rfl, rfl⟩, rfl, rfl, rfl⟩
      · simpa [Nats.list] using hti
      · intro pr hpr
        simp [Nats.list, Function.update_of_ne hpr]
      · simpa [Nats.splay] using hri
      · intro k hk
        simp [Nats.splay, Function.update_of_ne hk]
    · simp [Nats.alloc, htn, hrn] at h
  · simp [Nats.alloc, htn] at h

theorem Links.mem {s s' : Nats} {n : NatEntry} (h : Links s s' n) : n ∈ s'.list n.proto :=
  h.tree.mem.mpr (.inl rfl)

end WanStack.Aftr
