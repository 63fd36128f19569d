import WanStack.Aftr.Translate

set_option autoImplicit false

/-!
# Configuration, sessions, reload and collection

The commands that change NAT entries and tunnels, the sections that gate them,
the incremental reload of the configuration file and the incremental garbage
collection behind it.
-/
namespace WanStack.Aftr
open BinaryTree SearchTree

/-- The commands; `tcp` stands for the protocol word, `acl` for the answer of
    the address list. The last two stand for commands of a section that leave
    this state alone, and for lines that cannot be read. -/
inductive Cmd where
  | pool
  | nat (peer : Addr6) (tcp : Bool) (src sport nsrc nport : ℕ)
  | prr (peer : Addr6) (tcp : Bool) (src sport : ℕ)
  | nonat (peer : Addr6) (addr plen : ℕ)
  | tunnel (peer : Addr6) (src : Option ℕ)
  | tryTunnel (peer : Addr6) (src : Option ℕ) (acl : Bool)
  | tryNat (peer : Addr6) (tcp : Bool) (src sport nsrc nport : ℕ) (acl : Bool)
  | deleteNat (peer : Addr6) (tcp : Bool) (src sport : ℕ)
  | deletePrr (peer : Addr6) (tcp : Bool) (src sport : ℕ)
  | deleteNonat (peer : Addr6)
  | deleteTunnel (peer : Addr6)
  | mtu (peer : Addr6) (mtu : ℕ)
  | toobig (peer : Addr6) (drop : Bool)
  | reload (opened : Bool)
  | sessionConfig (on : Bool)
  | sessionClose (sid : ℕ)
  | other (sec : ℕ)
  | bad
deriving DecidableEq

/-- The sections of a command, and those of its subcommand. -/
def Cmd.sections : Cmd → List ℕ
  | .pool => [2]
  | .nat .. | .prr .. | .nonat .. | .tunnel .. | .tryTunnel .. | .tryNat .. => [4]
  | .deleteNat .. | .deletePrr .. | .deleteNonat .. | .deleteTunnel .. => [15, 4]
  | .mtu .. | .toobig .. => [12]
  | .reload .. => [8]
  | .sessionConfig .. | .sessionClose .. => [8, 8]
  | .other sec => [sec]
  | .bad => []

inductive Verdict where
  | run (sec : ℕ)
  | ignore
  | wrong
deriving DecidableEq

/-- One level of `cmd_dispatch` for a command of section mask `m` in a session
    of section mask `sec`. -/
def cmdDispatch (reloading : Bool) (m sec : ℕ) : Verdict :=
  if m &&& sec ≠ 0 then .run sec
  else if m < sec then if reloading then .ignore else .wrong
  else if m &&& 2 ≠ 0 then .run 2
  else if m &&& 4 ≠ 0 then .run 4
  else .wrong

def dispatch (reloading : Bool) : List ℕ → ℕ → Verdict
  | [], sec => .run sec
  | m :: ms, sec =>
    match cmdDispatch reloading m sec with
    | .run sec => dispatch reloading ms sec
    | v => v

def natProto (tcp : Bool) : Pr := if tcp then .tcp else .udp

/-! ### Pools, in the second section of the configuration -/

inductive PoolCmd where
  | addPool (addr : ℕ)
  | limitPort (addr : ℕ) (pr : Pr) (minport maxport : ℕ)

def fullMap (ns : Pool) (pr : Pr) : ℕ → Bool := Ports.inRange ns pr

def addPool (cfg : Conf) (addr : ℕ) (p : Ports) : Ports :=
  let ns : Pool := ⟨addr, cfg.poolmin, cfg.poolmax⟩
  { p with
    pools := p.pools ++ [ns]
    freebm := fun k => if k.1 = p.pools.length then some (fullMap ns k.2) else p.freebm k }

/-- Limit port range in an IPv4 source for NAT; a new source is created. -/
def limitPort (cfg : Conf) (addr : ℕ) (pr : Pr) (minport maxport : ℕ) (p : Ports) : Ports :=
  let p := if (p.findPool addr).isSome then p else addPool cfg addr p
  match p.findPool addr with
  | none => p
  | some i =>
    let ns := p.pool i
    let ns : Pool :=
      { ns with
        minport := Function.update ns.minport pr minport
        maxport := Function.update ns.maxport pr maxport }
    { p with
      pools := p.pools.set i ns
      freebm := Function.update p.freebm (i, pr) (some (fullMap ns pr)) }

/-- `cmd_pool` checks the range. -/
def runPool (cfg : Conf) (p : Ports) : PoolCmd → Ports
  | .addPool addr => addPool cfg addr p
  | .limitPort addr pr minport maxport =>
    if maxport > 65535 ∨ minport > maxport ∨ (minport = 0 ∧ pr ≠ .icmp) then p
    else limitPort cfg addr pr minport maxport p

/-! ### Static entries -/

/-- `tunnel_lookup`, else a new tunnel on the pool of `src`. -/
def lookupOrAdd (cfg : Conf) (env : NatEnv) (peer : Addr6) (src : Option ℕ) (s : State) :
    State × Option Tunnel :=
  match s.tuns.tunnelLookup peer with
  | (tuns, some t) => ({ s with tuns := tuns }, some t)
  | (tuns, none) => addStdtunnel cfg env peer src { s with tuns := tuns }

/-- The common end of `add_snat0` and `add_prr`. -/
def linkStatic (sid : ℕ) (n : NatEntry) (s : State) : State × Option NatEntry :=
  let n := { n with ptr := s.nats.next }
  match s.nats.alloc.link n.proto n with
  | (nats, false) => ({ s with nats := nats }, none)
  | (nats, true) =>
    ({ s with
      nats := { nats with
        generation := Function.update nats.generation n.ptr s.ctl.curgen }.count n.tunnel n.proto
      ctl := s.ctl.addSnat sid n }, some n)

/-- What `add_snat0` and `add_prr` share: the pool of the outside address, the
    port outside its dynamic range, the tunnel, and the new entry `key`. -/
def addStatic (cfg : Conf) (env : NatEnv) (sid : ℕ) (peer : Addr6) (on : Option ℕ)
    (key : NatEntry) (s : State) : State × Option NatEntry :=
  match s.ports.findPool key.nsrc with
  | none => (s, none)
  | some i =>
    if Ports.inRange (s.ports.pool i) key.proto key.nport then (s, none) else
    match lookupOrAdd cfg env peer on s with
    | (s, none) => (s, none)
    | (s, some t) =>
      if (s.tuns.nonat t.ptr).isSome || !env.mem 3 then (s, none)
      else linkStatic sid { key with tunnel := t.ptr } s

def snatKey (tcp : Bool) (src sport nsrc nport : ℕ) : NatEntry :=
  { proto := natProto tcp, flags := { allDst := true, matchPort := true }, src := src,
    nsrc := nsrc, sport := sport, nport := nport }

def prrKey (tcp : Bool) (src sport : ℕ) : NatEntry :=
  { proto := natProto tcp, flags := { allDst := true, prrNull := true, matchPort := true },
    src := src, nsrc := src, sport := sport, nport := sport }

/-- Add a static NAT entry. -/
def addSnat0 (cfg : Conf) (env : NatEnv) (sid : ℕ) (peer : Addr6) (tcp : Bool)
    (src sport nsrc nport : ℕ) (s : State) : State × Option NatEntry :=
  addStatic cfg env sid peer (some nsrc) (snatKey tcp src sport nsrc nport) s

/-- Add a A+P/PRR null NAT entry. -/
def addPrr (cfg : Conf) (env : NatEnv) (sid : ℕ) (peer : Addr6) (tcp : Bool) (src sport : ℕ)
    (s : State) : State × Option NatEntry :=
  addStatic cfg env sid peer none (prrKey tcp src sport) s

/-- The exact search of a command in the splay tree of a tunnel. -/
def splayFindExact (key : NatEntry) (s : State) : State × Option NatEntry :=
  let (nats, n?) := s.nats.natSplayFind key.proto key 0 s.ctl.lastgen true true
  ({ s with nats := nats }, n?)

/-- Try a static NAT entry. -/
def trySnat (cfg : Conf) (env : NatEnv) (sid : ℕ) (peer : Addr6) (tcp : Bool)
    (src sport nsrc nport : ℕ) (acl : Bool) (s : State) : State × Option NatEntry :=
  if !acl then (s, none) else
  match s.tuns.tunnelLookup peer with
  | (tuns, none) => ({ s with tuns := tuns }, none)
  | (tuns, some t) =>
    let s := { s with tuns := tuns }
    if (s.tuns.nonat t.ptr).isSome ||
        nsrc ≠ (s.ports.pool (s.tuns.srcidx t.ptr)).addr then (s, none) else
    let nat0 := { snatKey tcp src sport nsrc nport with tunnel := t.ptr }
    match splayFindExact nat0 s with
    | (s, none) => addSnat0 cfg env sid peer tcp src sport nsrc nport s
    | (s, some n) => (s, if natTreeCompareAll n nat0 then some n else none)

/-- What `reload_snat` and `reload_prr` share: an entry that is there is taken
    over, `add` makes the others. -/
def reloadStatic (peer : Addr6) (key : NatEntry) (add : State → State × Option NatEntry)
    (s : State) : State × Bool :=
  match s.tuns.tunnelLookup peer with
  | (tuns, none) =>
    let r := add { s with tuns := tuns }
    (r.1, r.2.isSome)
  | (tuns, some t) =>
    let s := { s with tuns := tuns }
    if (s.tuns.nonat t.ptr).isSome then (s, false) else
    let nat0 := { key with tunnel := t.ptr }
    match splayFindExact nat0 s with
    | (s, none) =>
      let r := add s
      (r.1, r.2.isSome)
    | (s, some n) =>
      if !natTreeCompareAll n nat0 then (s, false) else
      ({ s with
        ctl := if s.nats.generation n.ptr ≤ FIRSTGEN then s.ctl.promote n else s.ctl
        nats := { s.nats with
          generation := Function.update s.nats.generation n.ptr s.ctl.curgen } }, true)

def reloadSnat (cfg : Conf) (env : NatEnv) (sid : ℕ) (peer : Addr6) (tcp : Bool)
    (src sport nsrc nport : ℕ) (s : State) : State × Bool :=
  reloadStatic peer (snatKey tcp src sport nsrc nport)
    (addSnat0 cfg env sid peer tcp src sport nsrc nport) s

def reloadPrr (cfg : Conf) (env : NatEnv) (sid : ℕ) (peer : Addr6) (tcp : Bool) (src sport : ℕ)
    (s : State) : State × Bool :=
  reloadStatic peer (prrKey tcp src sport) (addPrr cfg env sid peer tcp src sport) s

/-- What `del_snat` and `del_prr` share: the exact search with the given flags. -/
def delStatic (cfg : Conf) (seconds : ℕ) (peer : Addr6) (key : NatEntry)
    (ok : NatEntry → Bool) (s : State) : State × Bool :=
  match s.tuns.tunnelLookup peer with
  | (tuns, none) => ({ s with tuns := tuns }, false)
  | (tuns, some t) =>
    let s := { s with tuns := tuns }
    if (s.tuns.nonat t.ptr).isSome then (s, false) else
    match splayFindExact { key with tunnel := t.ptr } s with
    | (s, none) => (s, false)
    | (s, some n) => if ok n then (delNat cfg seconds n s, true) else (s, false)

/-- Delete static NAT entry. -/
def delSnat (cfg : Conf) (seconds : ℕ) (peer : Addr6) (tcp : Bool) (src sport : ℕ)
    (s : State) : State × Bool :=
  delStatic cfg seconds peer
    { proto := natProto tcp, flags := { allDst := true }, src := src, sport := sport }
    (fun _ => true) s

/-- Delete a A+P/PRR null NAT entry. -/
def delPrr (cfg : Conf) (seconds : ℕ) (peer : Addr6) (tcp : Bool) (src sport : ℕ)
    (s : State) : State × Bool :=
  delStatic cfg seconds peer
    { proto := natProto tcp, flags := { allDst := true, prrNull := true }, src := src,
      sport := sport } (fun n => n.flags.prrNull) s

/-! ### Tunnels and no-NAT entries -/

def tryTunnel (cfg : Conf) (env : NatEnv) (peer : Addr6) (src : Option ℕ) (acl : Bool)
    (s : State) : State × Bool :=
  match s.tuns.tunnelLookup peer with
  | (tuns, none) =>
    if acl then
      let r := addStdtunnel cfg env peer src { s with tuns := tuns }
      (r.1, r.2.isSome)
    else ({ s with tuns := tuns }, false)
  | (tuns, some t) =>
    ({ s with tuns := tuns }, (tuns.nonat t.ptr).isNone &&
      src.all (· = (s.ports.pool (tuns.srcidx t.ptr)).addr))

def reloadTunnel (cfg : Conf) (env : NatEnv) (peer : Addr6) (src : Option ℕ) (s : State) :
    State × Bool :=
  match s.tuns.tunnelLookup peer with
  | (tuns, none) =>
    let r := addStdtunnel cfg env peer src { s with tuns := tuns }
    (r.1, r.2.isSome)
  | (tuns, some t) =>
    ({ s with tuns := tuns }, (tuns.nonat t.ptr).isNone &&
      src.all (· = (s.ports.pool (tuns.srcidx t.ptr)).addr))

def addNonat (cfg : Conf) (env : NatEnv) (peer : Addr6) (addr plen : ℕ) (s : State) :
    State × Bool :=
  if !env.mem 0 then (s, false) else
  match s.tuns.addTunnel cfg (env.after 1) peer with
  | (tuns, none) => ({ s with tuns := tuns }, false)
  | (tuns, some t) =>
    ({ s with tuns := { tuns with
        nonat := Function.update tuns.nonat t.ptr (some (addr, plen))
        ngeneration := Function.update tuns.ngeneration t.ptr s.ctl.curgen
        nonats := tuns.nonats ++ [t] } }, true)

/-- Reload a no-nat entry: an entry that is there keeps its prefix. -/
def reloadNonat (cfg : Conf) (env : NatEnv) (peer : Addr6) (addr plen : ℕ) (s : State) :
    State × Bool :=
  match s.tuns.tunnelLookup peer with
  | (tuns, none) => addNonat cfg env peer addr plen { s with tuns := tuns }
  | (tuns, some t) =>
    if t ∈ tuns.nonats then
      ({ s with tuns := { tuns with
          ngeneration := Function.update tuns.ngeneration t.ptr s.ctl.curgen } }, true)
    else ({ s with tuns := tuns }, false)

def delNonat (peer : Addr6) (s : State) : State × Bool :=
  match s.tuns.tunnelLookup peer with
  | (tuns, none) => ({ s with tuns := tuns }, false)
  | (tuns, some t) =>
    if (tuns.nonat t.ptr).isSome && t ∈ tuns.nonats then
      ({ s with tuns := tuns.removeNonat t }, true)
    else ({ s with tuns := tuns }, false)

def setTunnel (peer : Addr6) (set : Tunnel → Tunnels → Tunnels) (s : State) : State × Bool :=
  match s.tuns.tunnelLookup peer with
  | (tuns, none) => ({ s with tuns := tuns }, false)
  | (tuns, some t) => ({ s with tuns := set t tuns }, true)

def setTunnelMtu (mtu : ℕ) (t : Tunnel) (s : Tunnels) : Tunnels :=
  { s with mtu := Function.update s.mtu t.ptr (max TUNMINMTU (min IPMAXLEN mtu)) }

def setTunnelFlag (drop : Bool) (t : Tunnel) (s : Tunnels) : Tunnels :=
  { s with tbdrop := Function.update s.tbdrop t.ptr drop }

/-! ### Sessions -/

def Control.session (c : Control) (sid : ℕ) : Option Sess := c.sslist.find? (·.id = sid)

def Control.setSess (sid : ℕ) (f : Sess → Sess) (c : Control) : Control :=
  { c with sslist := c.sslist.map fun ss => if ss.id = sid then f ss else ss }

/-- The next free generation, of twenty attempts. -/
def sessionNextgen : ℕ → Control → Control × ℕ
  | 0, c => (c, 1)
  | k + 1, c =>
    let g := c.sesgen + 1
    if g = FIRSTGEN then sessionNextgen k { c with sesgen := 0 }
    else if (c.sslist ++ c.orphans).any (·.generation = g) then
      sessionNextgen k { c with sesgen := g }
    else ({ c with sesgen := g }, g)

def sessionOpen (c : Control) : Control :=
  let (c, g) := sessionNextgen 20 c
  { c with
    sslist := ⟨c.nextSess, g, 8, false, []⟩ :: c.sslist
    nextSess := c.nextSess + 1 }

/-- Remove the no-NAT tunnels whose generation a collector wants to go. -/
def gcNonats (old : ℕ → Bool) (tuns : Tunnels) : Tunnels :=
  tuns.nonats.foldl (fun tuns t =>
    if (tuns.nonat t.ptr).isSome && old (tuns.ngeneration t.ptr) then tuns.removeNonat t
    else tuns) tuns

def gcSession (ss : Sess) (s : State) : State :=
  { s with
    tuns := gcNonats (· = ss.generation) s.tuns
    nats := { s.nats with
      generation := fun p =>
        if ss.snats.any (·.ptr = p) && s.nats.generation p = ss.generation then FIRSTGEN
        else s.nats.generation p }
    ctl := { s.ctl with
      orphans := ss :: s.ctl.orphans
      gcPtr := if s.ctl.needgc = 0 then none else s.ctl.gcPtr
      needgc := if s.ctl.needgc = 0 then 1 else s.ctl.needgc } }

def sessionClose (sid : ℕ) (s : State) : State × Bool :=
  match s.ctl.session sid with
  | none => (s, false)
  | some ss =>
    if ss.locked then (s, false)
    else (gcSession ss { s with
      ctl := { s.ctl with sslist := s.ctl.sslist.filter (·.id ≠ sid) } }, true)

/-! ### Reload -/

def gcReload (s : State) : State :=
  { s with
    tuns := gcNonats (fun g => FIRSTGEN ≤ g && g < s.ctl.lastgen) s.tuns
    ctl := { s.ctl with needgc := 2, gcPtr := none } }

def btReload (s : State) : State :=
  { s with
    tuns := { s.tuns with
      ngeneration := fun p =>
        if s.tuns.nonats.any (·.ptr = p) && (s.tuns.nonat p).isSome &&
            s.tuns.ngeneration p > s.ctl.lastgen then s.ctl.lastgen
        else s.tuns.ngeneration p }
    ctl := { s.ctl with needbt := 2, btPtr := none } }

def reloadFinish (backtrack : Bool) (s : State) : State :=
  let restore (ss : Sess) : Sess :=
    { ss with sec := s.ctl.reloadSavedsec, locked := s.ctl.reloadSavedloc }
  let c := s.ctl.reloadSession.elim s.ctl fun sid => s.ctl.setSess sid restore
  let c := { c with reloading := false, curgen := 0, reloadSession := none }
  if backtrack then btReload { s with ctl := { c with lastgen := s.ctl.reloadSavedgen } }
  else gcReload { s with ctl := c }

/-- The start of `reload_conf`; the lines of the file come one by one. -/
def reloadConf (sid : ℕ) (s : State) : State :=
  let c := s.ctl
  let ss := (c.session sid).getD ⟨sid, 0, 0, false, []⟩
  { s with ctl := { c with
      reloadSavedgen := c.lastgen
      lastgen := c.lastgen + 1
      curgen := c.lastgen + 1
      reloadSession := some sid
      reloadSavedsec := ss.sec
      reloadSavedloc := ss.locked
      reloading := true }.setSess sid fun ss => { ss with sec := 4, locked := true } }

/-! ### One command -/

def execute (cfg : Conf) (env : NatEnv) (sid : ℕ) (s : State) : Cmd → State × Bool
  | .pool => (s, false)
  | .nat peer tcp src sport nsrc nport =>
    if s.ctl.reloading then reloadSnat cfg env sid peer tcp src sport nsrc nport s
    else
      let r := addSnat0 cfg env sid peer tcp src sport nsrc nport s
      (r.1, r.2.isSome)
  | .prr peer tcp src sport =>
    if s.ctl.reloading then reloadPrr cfg env sid peer tcp src sport s
    else
      let r := addPrr cfg env sid peer tcp src sport s
      (r.1, r.2.isSome)
  | .nonat peer addr plen =>
    if s.ctl.reloading then reloadNonat cfg env peer addr plen s
    else addNonat cfg env peer addr plen s
  | .tunnel peer src =>
    if s.ctl.reloading then reloadTunnel cfg env peer src s
    else
      let r := addStdtunnel cfg env peer src s
      (r.1, r.2.isSome)
  | .tryTunnel peer src acl => tryTunnel cfg env peer src acl s
  | .tryNat peer tcp src sport nsrc nport acl =>
    let r := trySnat cfg env sid peer tcp src sport nsrc nport acl s
    (r.1, r.2.isSome)
  | .deleteNat peer tcp src sport => delSnat cfg env.seconds peer tcp src sport s
  | .deletePrr peer tcp src sport => delPrr cfg env.seconds peer tcp src sport s
  | .deleteNonat peer => delNonat peer s
  | .deleteTunnel peer => delTunnel cfg env.seconds peer s
  | .mtu peer mtu => setTunnel peer (setTunnelMtu mtu) s
  | .toobig peer drop => setTunnel peer (setTunnelFlag drop) s
  | .reload opened =>
    if s.ctl.reloading || s.ctl.needgc ≠ 0 || s.ctl.needbt ≠ 0 || !opened then (s, false)
    else (reloadConf sid s, true)
  | .sessionConfig on =>
    ({ s with ctl := s.ctl.setSess sid fun ss => { ss with sec := if on then 12 else 8 } }, true)
  | .sessionClose sid => sessionClose sid s
  | .other _ => (s, true)
  | .bad => (s, false)

/-- One line of a session. -/
def cmdline (cfg : Conf) (env : NatEnv) (sid : ℕ) (cmd : Cmd) (s : State) : State × Bool :=
  match s.ctl.session sid with
  | none => (s, false)
  | some ss =>
    match dispatch s.ctl.reloading cmd.sections ss.sec with
    | .run sec =>
      execute cfg env sid { s with ctl := s.ctl.setSess sid fun ss => { ss with sec := sec } } cmd
    | .ignore => (s, true)
    | .wrong => (s, false)

/-! ### Incremental collection -/

/-- Free the orphans in front whose entries are gone. -/
def freeOrphans (c : Control) : Control :=
  { c with orphans := c.orphans.dropWhile (·.snats.isEmpty) }

/-- The walk along the configuration from `gc_ptr` to the next entry to go. -/
def gcSeek (s : State) : Option NatEntry :=
  match s.ctl.gcPtr with
  | none => none
  | some g => (s.ctl.confnats.dropWhile (·.ptr ≠ g.ptr)).find? fun n =>
      Nats.staleGen s.ctl.lastgen (s.nats.generation n.ptr)

def gcStart (c : Control) : Control :=
  if c.needgc > 1 then
    { c with gcPtr := if c.gcPtr.isSome then c.gcPtr else c.confnats.head?, needgc := 1 }
  else c

/-- `gc_incr`, with the number of entries it may still delete. -/
def gcIncr (cfg : Conf) (seconds : ℕ) : ℕ → State → State
  | 0, s => s
  | k + 1, s =>
    let s := { s with ctl := freeOrphans s.ctl }
    match s.ctl.orphans.head?.bind (·.snats.head?) with
    | some n => gcIncr cfg seconds k (delNat cfg seconds n { s with ctl := s.ctl.listRemove n })
    | none =>
      let s := { s with ctl := gcStart s.ctl }
      match gcSeek s with
      | none => { s with ctl := { s.ctl with gcPtr := none, needgc := 0 } }
      | some n =>
        gcIncr cfg seconds k (delNat cfg seconds n { s with
          ctl := { s.ctl with gcPtr := listNext n s.ctl.confnats }.listRemove n })

def btStart (c : Control) : Control :=
  if c.needbt > 1 then
    { c with btPtr := if c.btPtr.isSome then c.btPtr else c.confnats.head?, needbt := 1 }
  else c

/-- The loop of `bt_incr`, with the number of entries it may still visit. -/
def btLoop : ℕ → State → State
  | 0, s => s
  | k + 1, s =>
    match s.ctl.btPtr with
    | none => { s with ctl := { s.ctl with needbt := 0 } }
    | some n =>
      btLoop k { s with
        ctl := { s.ctl with btPtr := listNext n s.ctl.confnats }
        nats := { s.nats with
          generation := Function.update s.nats.generation n.ptr
            (min (s.nats.generation n.ptr) s.ctl.lastgen) } }

def btIncr (quantum : ℕ) (s : State) : State :=
  btLoop (5 * quantum) { s with ctl := btStart s.ctl }

end WanStack.Aftr
