import WanStack.Aftr.Frag
import WanStack.Aftr.Nat
import WanStack.Lib.RedBlack
import WanStack.Lib.Splay
import WanStack.Lib.Radix

set_option autoImplicit false

/-!
# The state of the AFTR

NAT tables, tunnels, port pools, control channel and fragment queues, each a
part of its own. What the program keeps in an entry or a tunnel and changes
later is a function of the address here. Addresses are never used twice.
-/
namespace WanStack.Aftr
open BinaryTree SearchTree

def FIRSTGEN : ℕ := 1024
def MAXNATHASH : ℕ := 65536
def MINNATHASH : ℕ := 1024
def MAXTUNHASH : ℕ := 16384
def MINTUNHASH : ℕ := 16
def MAXTUNBIT : ℕ := 128
def TUNDEFMTU : ℕ := 1500
def TUNMINMTU : ℕ := 1280
def PORTFTP : ℕ := 21

abbrev Addr6 := BitVec 128

/-- The settings, which only the first section of the configuration changes. -/
structure Conf where
  frag : FragConf := {}
  maxtnatcnt : Pr → ℕ := fun | .tcp => 2000 | .udp => 200 | .icmp => 50
  maxtnatrt : Pr → ℕ := fun | .tcp => 50 | .udp => 20 | .icmp => 5
  bucksize : Pr → ℕ := fun _ => 10
  bucksize_pos : ∀ pr, 0 < bucksize pr := by intro pr; cases pr <;> decide
  holdLifetime : ℕ := 120
  poolmin : Pr → ℕ := fun | .icmp => 0 | _ => 5000
  poolmax : Pr → ℕ := fun _ => 65535
  tundefmtu : ℕ := TUNDEFMTU
  defaultTbdrop : Bool := false

/-- The settings of a first section that changes none. -/
def defaultConf : Conf := {}

/-- The environment of a call, with the ports `arc4_getport` draws: the draw
    for each slot of a bucket and each attempt. -/
structure NatEnv extends Env where
  draw : ℕ → ℕ → ℕ

/-- The environment after `k` allocations. -/
def NatEnv.after (env : NatEnv) (k : ℕ) : NatEnv := { env with mem := fun i => env.mem (i + k) }

structure Tunnel where
  ptr : ℕ
  remote : Addr6
deriving DecidableEq, Repr

/-- The port ranges of a pool; its bit maps and hold queues are in `Ports`. -/
structure Pool where
  addr : ℕ
  minport : Pr → ℕ
  maxport : Pr → ℕ

structure Held where
  nport : ℕ
  timeout : ℕ
deriving DecidableEq, Repr

structure Nats where
  tree : Pr → RedBlack.Tree NatEntry := fun _ => nil
  root : ℕ × Pr → BinaryTree NatEntry := fun _ => nil
  nathash : ℕ → Option NatEntry := fun _ => none
  nathashsz : ℕ := MINNATHASH
  nathashrnd : UInt32 := 0
  hash : ℕ → ℕ := fun _ => 0
  generation : ℕ → ℕ := fun _ => 0
  xlist : ℕ → List NatEntry := fun _ => []
  heap : List NatEntry := []
  tnatcnt : ℕ × Pr → ℕ := fun _ => 0
  next : ℕ := 1

structure Tunnels where
  tree : Option (Radix.Tree Tunnel) := none
  tunhash : ℕ → Option Tunnel := fun _ => none
  tunhashsz : ℕ := MINTUNHASH
  tunhashrnd : UInt32 := 0
  hash : ℕ → ℕ := fun _ => 0
  srcidx : ℕ → ℕ := fun _ => 0
  nonat : ℕ → Option (ℕ × ℕ) := fun _ => none
  ngeneration : ℕ → ℕ := fun _ => 0
  nonats : List Tunnel := []
  mtu : ℕ → ℕ := fun _ => 0
  tbdrop : ℕ → Bool := fun _ => false
  lastnat : ℕ → ℕ := fun _ => 0
  tnatrt : ℕ × Pr → ℕ := fun _ => 0
  nextSrc : ℕ := 0
  next : ℕ := 1

structure Ports where
  pools : List Pool := []
  freebm : ℕ × Pr → Option (ℕ → Bool) := fun _ => none
  helds : ℕ × Pr → List Held := fun _ => []
  bucket : ℕ × Pr → Option (List ℕ) := fun _ => none
  avail : ℕ × Pr → ℕ := fun _ => 0

/-- A session: `id` stands for its address. -/
structure Sess where
  id : ℕ
  generation : ℕ
  sec : ℕ
  locked : Bool
  snats : List NatEntry

/-- `booting` lasts until the configuration is loaded. `batch` is the session
    whose commands are being read, with the generation to go back to, and
    `serving` the pass over the sessions it belongs to. -/
structure Control where
  booting : Bool := true
  serving : Bool := false
  batch : Option (ℕ × ℕ) := none
  sslist : List Sess := [⟨0, 1, 4, true, []⟩]
  orphans : List Sess := []
  confnats : List NatEntry := []
  gcPtr : Option NatEntry := none
  btPtr : Option NatEntry := none
  needgc : ℕ := 0
  needbt : ℕ := 0
  curgen : ℕ := FIRSTGEN + 1
  lastgen : ℕ := FIRSTGEN + 1
  sesgen : ℕ := 1
  reloading : Bool := false
  reloadSession : Option ℕ := none
  reloadSavedgen : ℕ := 0
  reloadSavedsec : ℕ := 0
  reloadSavedloc : Bool := false
  nextSess : ℕ := 1

structure State where
  nats : Nats := {}
  tuns : Tunnels := {}
  ports : Ports := {}
  ctl : Control := {}
  frags : Frags := {}

/-! ### NAT trees -/

namespace Nats

def natTreeInsert (pr : Pr) (n : NatEntry) (s : Nats) : Nats × Option NatEntry :=
  let (t, e) := RedBlack.insert (natTreeCompareAbs n) n (s.tree pr)
  ({ s with tree := Function.update s.tree pr t }, e)

def natTreeRemove (pr : Pr) (n : NatEntry) (s : Nats) : Nats :=
  { s with tree := Function.update s.tree pr (RedBlack.remove (·.ptr = n.ptr) (s.tree pr)) }

def natTreeFindWild (pr : Pr) (n : NatEntry) (s : Nats) : Option NatEntry :=
  find (natTreeCompareWild n) (RedBlack.entries (s.tree pr))

def natSplaySplay (pr : Pr) (n : NatEntry) (s : Nats) : Nats :=
  { s with
    root := Function.update s.root (n.tunnel, pr)
      (Splay.splay (natSplayCompareAbs n) (s.root (n.tunnel, pr))) }

def natSplayInsert (pr : Pr) (n : NatEntry) (s : Nats) : Nats × Option NatEntry :=
  let (t, e) := Splay.insert (natSplayCompareAbs n) n (s.root (n.tunnel, pr))
  ({ s with root := Function.update s.root (n.tunnel, pr) t }, e)

def natSplayRemove (pr : Pr) (n : NatEntry) (s : Nats) : Nats × Bool :=
  let (t, ok) := Splay.remove (natSplayCompareAbs n) (s.root (n.tunnel, pr))
  ({ s with root := Function.update s.root (n.tunnel, pr) t }, ok)

/-- The test for an entry of an older generation. -/
def staleGen (lastgen gen : ℕ) : Bool := gen ≥ FIRSTGEN && gen < lastgen

/-- The test for a stale entry looks at the key `n`, whose generation is `gen`. -/
def natSplayFind (pr : Pr) (n : NatEntry) (gen lastgen : ℕ) (exact stale : Bool) (s : Nats) :
    Nats × Option NatEntry :=
  let c := if exact then natSplayCompareAbs n else natSplayCompareWild n
  let (t, e) := Splay.lookup c (s.root (n.tunnel, pr))
  ({ s with root := Function.update s.root (n.tunnel, pr) t },
    if !stale && staleGen lastgen gen then none else e)

def natSplayRoFind (pr : Pr) (n : NatEntry) (exact : Bool) (s : Nats) : Option NatEntry :=
  find (if exact then natSplayCompareAbs n else natSplayCompareWild n) (s.root (n.tunnel, pr))

def slot (s : Nats) (n : NatEntry) : ℕ := jhashNat s.nathashrnd n &&& (s.nathashsz - 1)

/-- Lookup a matching NAT: the cached entry first, then the tree. -/
def natLookup (pr : Pr) (nat0 : NatEntry) (lastgen : ℕ) (s : Nats) : Nats × Option NatEntry :=
  let hash := s.slot nat0
  match (s.nathash hash).filter fun n => natTreeCompareWild nat0 n = 0 with
  | some n => (s, some n)
  | none =>
    match s.natTreeFindWild pr nat0 with
    | none => (s, none)
    | some n =>
      if staleGen lastgen (s.generation n.ptr) then (s, none)
      else ({ s with
        hash := Function.update s.hash n.ptr hash
        nathash := Function.update s.nathash hash (some n) }, some n)

/-- The part of `del_nat` before the trees: heap and FTP chains. -/
def unchainFtp (n : NatEntry) (s : Nats) : Nats :=
  { s with
    heap := s.heap.filter (·.ptr ≠ n.ptr)
    xlist := fun p => if p = n.ptr then [] else (s.xlist p).filter (·.ptr ≠ n.ptr) }

def unhash (n : NatEntry) (s : Nats) : Nats :=
  if s.hash n.ptr < s.nathashsz ∧ s.nathash (s.hash n.ptr) = some n then
    { s with nathash := Function.update s.nathash (s.hash n.ptr) none }
  else s

def count (t : ℕ) (pr : Pr) (s : Nats) : Nats :=
  { s with tnatcnt := Function.update s.tnatcnt (t, pr) ((s.tnatcnt (t, pr) + 1) % 65536) }

def uncount (t : ℕ) (pr : Pr) (s : Nats) : Nats :=
  { s with tnatcnt := Function.update s.tnatcnt (t, pr) (s.tnatcnt (t, pr) - 1) }

/-- The address of a new entry. -/
def alloc (s : Nats) : Nats := { s with next := s.next + 1 }

def heapInsert (n : NatEntry) (s : Nats) : Nats := { s with heap := n :: s.heap }

def heapDelete (n : NatEntry) (s : Nats) : Nats :=
  { s with heap := s.heap.filter (·.ptr ≠ n.ptr) }

/-- Put `n` into both trees; a collision in the second takes it out of the
    first again. -/
def link (pr : Pr) (n : NatEntry) (s : Nats) : Nats × Bool :=
  match s.natTreeInsert pr n with
  | (s, some _) => (s, false)
  | (s, none) =>
    match s.natSplayInsert pr n with
    | (s, some _) => (s.natTreeRemove pr n, false)
    | (s, none) => (s, true)

def xchain (n0 n : NatEntry) (s : Nats) : Nats :=
  { s with xlist := Function.update s.xlist n0.ptr (n :: s.xlist n0.ptr) }

end Nats

/-! ### Global chains -/

/-- The element after `n` on a chain. -/
def listNext (n : NatEntry) (l : List NatEntry) : Option NatEntry :=
  (l.dropWhile (·.ptr ≠ n.ptr)).tail.head?

namespace Control

def chains (c : Control) : List (List NatEntry) :=
  c.confnats :: (c.sslist ++ c.orphans).map Sess.snats

/-- `ISC_LIST_PREV(n, gchain) != NULL`. -/
def onChain (c : Control) (n : NatEntry) : Bool := c.chains.any fun l => l.any (·.ptr = n.ptr)

def gchainNext (c : Control) (n : NatEntry) : Option NatEntry :=
  (c.chains.find? fun l => l.any (·.ptr = n.ptr)).bind (listNext n)

def dropSnat (n : NatEntry) (ss : Sess) : Sess :=
  { ss with snats := ss.snats.filter (·.ptr ≠ n.ptr) }

def listRemove (n : NatEntry) (c : Control) : Control :=
  { c with
    confnats := c.confnats.filter (·.ptr ≠ n.ptr)
    sslist := c.sslist.map (dropSnat n)
    orphans := c.orphans.map (dropSnat n) }

/-- The part of `del_nat` for the global chains. -/
def unchain (n : NatEntry) (c : Control) : Control :=
  if c.onChain n then
    { c with
      gcPtr := if c.gcPtr = some n then c.gchainNext n else c.gcPtr
      btPtr := if c.btPtr = some n then c.gchainNext n else c.btPtr }.listRemove n
  else c

/-- A new static entry goes to its session, or to the configuration. -/
def addSnat (sid : ℕ) (n : NatEntry) (c : Control) : Control :=
  if c.curgen < FIRSTGEN then
    let put (ss : Sess) : Sess := if ss.id = sid then { ss with snats := n :: ss.snats } else ss
    { c with sslist := c.sslist.map put }
  else { c with confnats := n :: c.confnats }

/-- An entry of a session that the file has goes to the configuration. -/
def promote (n : NatEntry) (c : Control) : Control :=
  let c := if c.onChain n then c.listRemove n else c
  { c with confnats := n :: c.confnats }

end Control

/-! ### Ports -/

namespace Ports

def pool (p : Ports) (i : ℕ) : Pool := p.pools.getD i ⟨0, fun _ => 0, fun _ => 0⟩

def inRange (ns : Pool) (pr : Pr) (port : ℕ) : Bool :=
  ns.minport pr ≤ port && port ≤ ns.maxport pr

def findPool (p : Ports) (addr : ℕ) : Option ℕ := p.pools.findIdx? (·.addr = addr)

def hold (i : ℕ) (pr : Pr) (h : Held) (p : Ports) : Ports :=
  { p with helds := Function.update p.helds (i, pr) (p.helds (i, pr) ++ [h]) }

/-- Set the bit of a port that lies in the range. -/
def setFree (i : ℕ) (pr : Pr) (port : ℕ) (p : Ports) : Ports :=
  if inRange (p.pool i) pr port then
    { p with
      freebm := Function.update p.freebm (i, pr)
        ((p.freebm (i, pr)).map fun bm => Function.update bm port true) }
  else p

/-- Up to ten draws for one slot of a bucket. -/
def findPort (ns : Pool) (pr : Pr) (draw : ℕ → ℕ) (bm : ℕ → Bool) : Option ℕ :=
  ((List.range 10).map fun i =>
    ns.minport pr + draw i % (ns.maxport pr - ns.minport pr + 1)).find? bm

def fillLoop (ns : Pool) (pr : Pr) (draw : ℕ → ℕ → ℕ) :
    ℕ → ℕ → (ℕ → Bool) → List ℕ → (ℕ → Bool) × List ℕ
  | 0, _, bm, b => (bm, b)
  | k + 1, slot, bm, b =>
    match findPort ns pr (draw slot) bm with
    | none => (bm, b)
    | some port =>
      fillLoop ns pr draw k (slot + 1) (Function.update bm port false) (b ++ [port])

/-- Fill a bucket of tunnel `t` from pool `i`. Without a bit map or memory the
    old bucket stays. -/
def fillBucket (cfg : Conf) (env : NatEnv) (t i : ℕ) (pr : Pr) (p : Ports) : Ports :=
  match p.freebm (i, pr) with
  | none => p
  | some bm =>
    if !env.mem 0 then p else
    let (bm, b) := fillLoop (p.pool i) pr env.draw (cfg.bucksize pr) 0 bm []
    { p with
      freebm := Function.update p.freebm (i, pr) (some bm)
      bucket := Function.update p.bucket (t, pr) (if b = [] then none else some b)
      avail := Function.update p.avail (t, pr) b.length }

/-- The next port of the bucket, which is filled when it is used up. -/
def takePort (cfg : Conf) (env : NatEnv) (t i : ℕ) (pr : Pr) (p : Ports) : Ports × Option ℕ :=
  let p := if p.avail (t, pr) = 0 then p.fillBucket cfg env t i pr else p
  match p.bucket (t, pr) with
  | none => (p, none)
  | some b =>
    let a := p.avail (t, pr) - 1
    ({ p with avail := Function.update p.avail (t, pr) a }, some (b.getD a 0))

/-- The end of `del_nat`: the port of an entry goes on hold in the pool of its
    outside address, the tunnel's own pool first. -/
def release (i : ℕ) (n : NatEntry) (until' : ℕ) (p : Ports) : Ports :=
  match if (p.pool i).addr = n.nsrc then some i else p.findPool n.nsrc with
  | none => p
  | some i =>
    if inRange (p.pool i) n.proto n.nport then p.hold i n.proto ⟨n.nport, until'⟩ else p

/-- Free the ports of one queue whose time on hold is over. -/
def freeQueue (seconds i : ℕ) (pr : Pr) : List Held → Ports → Ports
  | [], p => { p with helds := Function.update p.helds (i, pr) [] }
  | h :: hs, p =>
    if h.timeout > seconds then { p with helds := Function.update p.helds (i, pr) (h :: hs) }
    else freeQueue seconds i pr hs (p.setFree i pr h.nport)

def freeHeldnats (seconds : ℕ) (p : Ports) : Ports :=
  (List.range p.pools.length).foldl (fun p i =>
    [Pr.tcp, .udp, .icmp].foldl (fun p pr => freeQueue seconds i pr (p.helds (i, pr)) p) p) p

/-- Give the unused ports of a bucket back. -/
def emptyBucket (t i : ℕ) (pr : Pr) : ℕ → Ports → Ports
  | 0, p => { p with
      bucket := Function.update p.bucket (t, pr) none
      avail := Function.update p.avail (t, pr) 0 }
  | k + 1, p =>
    emptyBucket t i pr k (p.setFree i pr (((p.bucket (t, pr)).getD []).getD k 0))

end Ports

/-! ### Deletion and creation of entries -/

/-- Delete a NAT entry. -/
def delNat (cfg : Conf) (seconds : ℕ) (n : NatEntry) (s : State) : State :=
  let nats := s.nats.unchainFtp n
  let nats := (nats.natTreeRemove n.proto n).natSplayRemove n.proto n |>.1
  { s with
    nats := (nats.uncount n.tunnel n.proto).unhash n
    ctl := s.ctl.unchain n
    ports := s.ports.release (s.tuns.srcidx n.tunnel) n (seconds + cfg.holdLifetime) }

/-- Give the entry `n` a port and link it. On failure the port goes on hold. -/
def newNat (cfg : Conf) (env : NatEnv) (n : NatEntry) (s : State) : State × Option NatEntry :=
  let i := s.tuns.srcidx n.tunnel
  match s.ports.takePort cfg env n.tunnel i n.proto with
  | (ports, none) => ({ s with ports := ports }, none)
  | (ports, some port) =>
    let n := { n with nport := port }
    let failed (nats : Nats) : State × Option NatEntry :=
      ({ s with
        nats := nats
        ports := ports.hold i n.proto ⟨port, env.seconds + cfg.holdLifetime⟩ }, none)
    if !env.mem 1 then failed s.nats else
    match s.nats.link n.proto n with
    | (nats, false) => failed nats
    | (nats, true) =>
      ({ s with nats := (nats.heapInsert n).count n.tunnel n.proto, ports := ports }, some n)

/-- The counters of entries created in the current second: whether one more
    may be created. `first` is the counter of the entry's protocol in a new
    second. -/
def natRate (cfg : Conf) (seconds t : ℕ) (pr : Pr) (s : Tunnels) : Tunnels × Bool :=
  if s.lastnat t ≠ seconds then
    ({ s with
      lastnat := Function.update s.lastnat t seconds
      tnatrt := fun k => if k.1 = t then if k.2 = pr then 1 else 0 else s.tnatrt k }, true)
  else
    let c := (s.tnatrt (t, pr) + 1) % 256
    ({ s with tnatrt := Function.update s.tnatrt (t, pr) c }, c < cfg.maxtnatrt pr)

/-! ### Tunnels -/

def bitAt (a : Addr6) (i : ℕ) : Bool := a.getMsbD i

def addr6Bytes (a : Addr6) : Buf := (List.range 16).map fun i => UInt8.ofNat (a.toNat >>> (8 * (15 - i)))

def jhashTunnel (rnd : UInt32) (peer : Addr6) : ℕ :=
  let addr := addr6Bytes peer
  let a := word32 addr 0 + jhashGoldenRatio
  let b := word32 addr 4 + jhashGoldenRatio
  let c := word32 addr 8 + rnd
  let (a, b, c) := jhashMix a b c
  jhashShort (jhashMix (a + word32 addr 12) b c).2.2

namespace Tunnels

def tunnelTreeFind (peer : Addr6) (s : Tunnels) : Option Tunnel :=
  Radix.find Tunnel.remote bitAt peer s.tree

def slot (s : Tunnels) (peer : Addr6) : ℕ := jhashTunnel s.tunhashrnd peer &&& (s.tunhashsz - 1)

/-- Lookup a matching tunnel: the cached one first, then the tree. -/
def tunnelLookup (peer : Addr6) (s : Tunnels) : Tunnels × Option Tunnel :=
  let hash := s.slot peer
  match (s.tunhash hash).filter fun t => peer = t.remote with
  | some t => (s, some t)
  | none =>
    match s.tunnelTreeFind peer with
    | none => (s, none)
    | some t => ({ s with
        hash := Function.update s.hash t.ptr hash
        tunhash := Function.update s.tunhash hash (some t) }, some t)

/-- `malloc` can fail for the tunnel and for a glue node. -/
def addTunnel (cfg : Conf) (env : NatEnv) (peer : Addr6) (s : Tunnels) :
    Tunnels × Option Tunnel :=
  match s.tunnelLookup peer with
  | (s, some _) => (s, none)
  | (s, none) =>
    if !env.mem 0 then (s, none) else
    let t : Tunnel := ⟨s.next, peer⟩
    match Radix.insert Tunnel.remote bitAt MAXTUNBIT t s.tree with
    | (_, some _) => (s, none)
    | (tree, none) =>
      if s.tree.isSome && !env.mem 1 then (s, none)
      else ({ s with
        tree := tree
        mtu := Function.update s.mtu t.ptr cfg.tundefmtu
        tbdrop := Function.update s.tbdrop t.ptr cfg.defaultTbdrop
        next := s.next + 1 }, some t)

/-- The common end of every removal of a tunnel. -/
def removeTunnel (t : Tunnel) (s : Tunnels) : Tunnels :=
  { s with
    tunhash := if s.hash t.ptr < s.tunhashsz ∧ s.tunhash (s.hash t.ptr) = some t
      then Function.update s.tunhash (s.hash t.ptr) none else s.tunhash
    tree := s.tree.bind (Radix.prune (·.ptr = t.ptr)) }

/-- `del_nonat` once the tunnel is found: also what the collectors do. -/
def removeNonat (t : Tunnel) (s : Tunnels) : Tunnels :=
  { s with
    nonats := s.nonats.filter (·.ptr ≠ t.ptr)
    nonat := Function.update s.nonat t.ptr none }.removeTunnel t

end Tunnels

/-- Add a standard tunnel, on the pool of `src` or on the next one in turn. -/
def addStdtunnel (cfg : Conf) (env : NatEnv) (peer : Addr6) (src : Option ℕ) (s : State) :
    State × Option Tunnel :=
  match src.map s.ports.findPool with
  | some none => (s, none)
  | found =>
    if !env.mem 0 then (s, none) else
    match s.tuns.addTunnel cfg (env.after 1) peer with
    | (tuns, none) => ({ s with tuns := tuns }, none)
    | (tuns, some t) =>
      match found.join with
      | some i => ({ s with
          tuns := { tuns with srcidx := Function.update tuns.srcidx t.ptr i } }, some t)
      | none =>
        let next := if tuns.nextSrc + 1 = s.ports.pools.length then 0 else tuns.nextSrc + 1
        ({ s with tuns := { tuns with
            srcidx := Function.update tuns.srcidx t.ptr tuns.nextSrc
            nextSrc := next } }, some t)

/-- Delete the root of a splay tree until none is left. -/
def delRoots (cfg : Conf) (seconds t : ℕ) (pr : Pr) : ℕ → State → State
  | 0, s => s
  | k + 1, s =>
    match s.nats.root (t, pr) with
    | nil => s
    | node n _ _ => delRoots cfg seconds t pr k (delNat cfg seconds n s)

/-- Delete the entries and the bucket of a tunnel for one protocol. -/
def clearTunnel (cfg : Conf) (seconds t : ℕ) (s : State) (pr : Pr) : State :=
  let s := delRoots cfg seconds t pr (toList (s.nats.root (t, pr))).length s
  { s with ports := s.ports.emptyBucket t (s.tuns.srcidx t) pr (s.ports.avail (t, pr)) }

def delTunnel (cfg : Conf) (seconds : ℕ) (peer : Addr6) (s : State) : State × Bool :=
  match s.tuns.tunnelLookup peer with
  | (tuns, none) => ({ s with tuns := tuns }, false)
  | (tuns, some t) =>
    let s := { s with tuns := tuns }
    if (s.tuns.nonat t.ptr).isSome then (s, false) else
    let s := [Pr.tcp, .udp, .icmp].foldl (clearTunnel cfg seconds t.ptr) s
    ({ s with tuns := s.tuns.removeTunnel t }, true)

end WanStack.Aftr
