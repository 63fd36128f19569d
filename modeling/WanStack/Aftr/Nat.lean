import WanStack.Aftr.Bytes
import WanStack.Lib.FieldOrder

set_option autoImplicit false

/-!
# NAT entries and their comparisons

An entry is known by its address `ptr`; the fields here stay as they are from
the insertion of the entry to its deletion. IPv4 addresses and ports are
numbers: comparing them is comparing their bytes from the first on.
-/
namespace WanStack.Aftr
open SearchTree FieldOrder

/-- The protocols, `TCPPR`, `UDPPR` and `ICMPPR`. -/
inductive Pr where
  | tcp
  | udp
  | icmp
deriving DecidableEq, Repr

def Pr.proto : Pr → ℕ
  | .tcp => 6
  | .udp => 17
  | .icmp => 1

structure Flags where
  allDst : Bool := false
  prrNull : Bool := false
  matchPort : Bool := false
  matchIcmp : Bool := false
  ftpData : Bool := false
deriving DecidableEq, Repr

def Flags.matchAny (f : Flags) : Bool := f.matchPort || f.matchIcmp

structure NatEntry where
  ptr : ℕ := 0
  tunnel : ℕ := 0
  proto : Pr
  flags : Flags
  src : ℕ := 0
  nsrc : ℕ := 0
  dst : ℕ := 0
  sport : ℕ := 0
  nport : ℕ := 0
  dport : ℕ := 0
deriving DecidableEq, Repr

namespace NatEntry

/-- What `nat_tree` is ordered by first. -/
def outside (n : NatEntry) : List ℤ := [n.proto.proto, n.nsrc, n.nport]

/-- What a tunnel's splay tree is ordered by first. -/
def inside (n : NatEntry) : List ℤ := [n.tunnel, n.proto.proto, n.src, n.sport]

end NatEntry

def natTreeCompareAll (n1 n2 : NatEntry) : Bool :=
  n1.tunnel = n2.tunnel && n1.proto = n2.proto && n1.flags = n2.flags && n1.src = n2.src &&
    n1.sport = n2.sport && n1.nsrc = n2.nsrc && n1.nport = n2.nport && n1.dst = n2.dst &&
    n1.dport = n2.dport

/-- The destinations of two entries; only the flags of the first say whether
    its port counts. -/
def comparePeer (n1 n2 : NatEntry) : ℤ :=
  orElse (n1.dst - n2.dst) (if n1.flags.matchAny then n1.dport - n2.dport else 0)

def compareAbs (pre : NatEntry → List ℤ) (n1 n2 : NatEntry) : ℤ :=
  orElse (lexDiff (pre n1) (pre n2)) <|
    if n1.flags.allDst then
      if n2.flags.allDst then
        if n1.flags.prrNull then if n2.flags.prrNull then 0 else -1
        else if n2.flags.prrNull then 1 else 0
      else -1
    else comparePeer n1 n2

def compareWild (pre : NatEntry → List ℤ) (n1 n2 : NatEntry) : ℤ :=
  orElse (lexDiff (pre n1) (pre n2)) <|
    if n1.flags.allDst || n2.flags.allDst then 0 else comparePeer n1 n2

def natTreeCompareAbs : NatEntry → NatEntry → ℤ := compareAbs NatEntry.outside
def natTreeCompareWild : NatEntry → NatEntry → ℤ := compareWild NatEntry.outside
def natSplayCompareAbs : NatEntry → NatEntry → ℤ := compareAbs NatEntry.inside
def natSplayCompareWild : NatEntry → NatEntry → ℤ := compareWild NatEntry.inside

def portBytes (p : ℕ) : Buf := [hi p, lo p]

def addrBytes (a : ℕ) : Buf := portBytes (a / 65536) ++ portBytes a

/-- `jhash_nat`, of the protocol and the outside address and port. -/
def jhashNat (rnd : UInt32) (n : NatEntry) : ℕ :=
  let a := word32 (addrBytes n.nsrc) 0 + jhashGoldenRatio
  let b := word32 (portBytes n.nport ++ portBytes n.nport) 0 + jhashGoldenRatio
  let c := UInt32.ofNat n.proto.proto + rnd
  jhashShort (jhashMix a b c).2.2

theorem Pr.proto_inj {p q : Pr} : p.proto = q.proto ↔ p = q := by
  cases p <;> cases q <;> simp [Pr.proto]

theorem inside_eq {a b : NatEntry} : a.inside = b.inside ↔
    a.tunnel = b.tunnel ∧ a.proto = b.proto ∧ a.src = b.src ∧ a.sport = b.sport := by
  simp [NatEntry.inside, Pr.proto_inj]

theorem outside_eq {a b : NatEntry} : a.outside = b.outside ↔
    a.proto = b.proto ∧ a.nsrc = b.nsrc ∧ a.nport = b.nport := by
  simp [NatEntry.outside, Pr.proto_inj]

theorem jhashNat_congr {rnd : UInt32} {a b : NatEntry} (h : a.outside = b.outside) :
    jhashNat rnd a = jhashNat rnd b := by
  obtain ⟨hp, hs, hn⟩ := outside_eq.mp h
  simp only [jhashNat, hp, hs, hn]

/-- The order a set of entries has when the comparison is one: within the same
    endpoint the wildcards come first, A+P before the others, then the rest
    by destination. -/
def rank (pre : NatEntry → List ℤ) (n : NatEntry) : List ℤ :=
  pre n ++ if n.flags.allDst then [0, if n.flags.prrNull then 0 else 1, 0]
    else [1, (n.dst : ℤ), (n.dport : ℤ)]

/-- No wildcard entry has a destination that is not before that of another
    entry of its endpoint. -/
def PeersOrdered (pre : NatEntry → List ℤ) (S : Set NatEntry) : Prop :=
  ∀ w ∈ S, ∀ a ∈ S, pre w = pre a → w.flags.allDst = true → a.flags.allDst = false →
    w.dst < a.dst ∨ w.dst = a.dst ∧ w.dport < a.dport

section Compare
variable {pre : NatEntry → List ℤ} {S : Set NatEntry}

theorem orElse_sign {a b c : ℤ} (h : b.sign = c.sign) : (orElse a b).sign = (orElse a c).sign := by
  unfold orElse
  split
  · rfl
  · exact h

@[simp] theorem orElse_zero_left (b : ℤ) : orElse 0 b = b := by simp [orElse]

theorem orElse_of_ne {a : ℤ} (b : ℤ) (h : a ≠ 0) : orElse a b = a := by simp [orElse, h]

theorem orElse_eq_zero {a b : ℤ} : orElse a b = 0 ↔ a = 0 ∧ b = 0 := by
  unfold orElse
  split <;> simp_all

/-- With its port matched a destination is compared field by field. -/
theorem comparePeer_eq {a b : NatEntry} (h : a.flags.matchAny = true) :
    comparePeer a b = lexDiff [(a.dst : ℤ), a.dport] [(b.dst : ℤ), b.dport] := by
  simp only [comparePeer, h, if_true, lexDiff, orElse]
  split_ifs <;> omega

theorem comparePeer_pos {a b : NatEntry} (h : a.flags.matchAny = true)
    (hlt : b.dst < a.dst ∨ b.dst = a.dst ∧ b.dport < a.dport) : 0 < comparePeer a b := by
  simp only [comparePeer, h, if_true, orElse]
  split_ifs <;> omega

theorem compareAbs_sign (hlen : ∀ a b, (pre a).length = (pre b).length)
    (hS : PeersOrdered pre S) (hm : ∀ a ∈ S, a.flags.matchAny = true) :
    ∀ a ∈ S, ∀ b ∈ S,
      (compareAbs pre a b).sign = (lexDiff (rank pre a) (rank pre b)).sign := by
  intro a ha b hb
  unfold rank
  rw [lexDiff_append (hlen a b), compareAbs]
  by_cases hpre : pre a = pre b
  · rw [hpre, lexDiff_self, orElse_zero_left, orElse_zero_left]
    cases hwa : a.flags.allDst <;> cases hwb : b.flags.allDst
    · simp only [Bool.false_eq_true, if_false, comparePeer_eq (hm a ha)]
      simp [lexDiff]
    · -- a wildcard on the right is compared by its destination
      have hpos := comparePeer_pos (hm a ha) (hS b hb a ha hpre.symm hwb hwa)
      simp only [Bool.false_eq_true, if_false, if_true]
      rw [Int.sign_eq_one_of_pos hpos]
      simp [lexDiff]
    · simp [lexDiff]
    · simp only [if_true]
      cases a.flags.prrNull <;> cases b.flags.prrNull <;> simp [lexDiff]
  · have hne : lexDiff (pre a) (pre b) ≠ 0 := fun h => hpre ((lexDiff_eq_zero (hlen a b)).mp h)
    rw [orElse_of_ne _ hne, orElse_of_ne _ hne]

/-- Where the destinations are ordered, the comparison is an order. -/
theorem totalOn_compareAbs (hlen : ∀ a b, (pre a).length = (pre b).length)
    (hS : PeersOrdered pre S) (hm : ∀ a ∈ S, a.flags.matchAny = true) :
    TotalOn (compareAbs pre) S := by
  refine (totalOn_lexDiff (rank pre) S ?_).congr (compareAbs_sign hlen hS hm)
  intro a b
  unfold rank
  split_ifs <;> simp [hlen a b]

theorem PeersOrdered.mono {T : Set NatEntry} (h : PeersOrdered pre S) (hTS : T ⊆ S) :
    PeersOrdered pre T := fun w hw a ha => h w (hTS hw) a (hTS ha)

theorem refines_compareAbs (k : NatEntry) (l : List NatEntry) :
    Refines (compareAbs pre k) (fun x => lexDiff (pre k) (pre x)) l := by
  intro x _ hne
  rw [compareAbs, orElse_of_ne _ hne]

theorem refines_compareWild (k : NatEntry) (l : List NatEntry) :
    Refines (compareWild pre k) (fun x => lexDiff (pre k) (pre x)) l := by
  intro x _ hne
  rw [compareWild, orElse_of_ne _ hne]

theorem compareWild_eq_zero (hlen : ∀ a b, (pre a).length = (pre b).length) {k x : NatEntry} :
    compareWild pre k x = 0 ↔ pre k = pre x ∧ (k.flags.allDst = true ∨ x.flags.allDst = true ∨
      k.dst = x.dst ∧ (k.flags.matchAny = true → k.dport = x.dport)) := by
  rw [compareWild, orElse_eq_zero, lexDiff_eq_zero (hlen k x)]
  refine and_congr_right fun _ => ?_
  cases k.flags.allDst <;> cases x.flags.allDst <;>
    simp only [comparePeer, orElse_eq_zero, Bool.or_true, Bool.or_false, Bool.false_eq_true,
      if_true, if_false, true_or, or_true, false_or, iff_self]
  split_ifs <;> simp_all <;> omega

end Compare

theorem inside_length (a b : NatEntry) : a.inside.length = b.inside.length := rfl
theorem outside_length (a b : NatEntry) : a.outside.length = b.outside.length := rfl

end WanStack.Aftr
