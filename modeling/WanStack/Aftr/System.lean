import WanStack.Aftr.Command

set_option autoImplicit false

/-!
# Runs of the AFTR

What `main` and `loop` do, one step for each line, packet, fragment, expired
entry or slice of an incremental activity. The loop takes them in a fixed
order; a run may take them in any order.
-/
namespace WanStack.Aftr

inductive Event where
  | boot (env : NatEnv) (cmd : Cmd)
  | bootDone (daemonize : Bool)
  | sessionOpen
  | sessionEof (sid : ℕ)
  | commands (sid : ℕ)
  | line (env : NatEnv) (inFile : Bool) (cmd : Cmd)
  | commandsDone
  | reloadLine (env : NatEnv) (cmd : Cmd)
  | reloadEof
  | natin (env : NatEnv) (peer : Addr6) (auto acl4 : Bool) (p : Pkt)
  | naticmpin (env : NatEnv) (peer : Addr6) (auto : Bool) (proto : Pr) (src sport : ℕ)
  | natout (env : NatEnv) (p : Pkt)
  | naticmpout (p : Pkt)
  | defrag6 (env : NatEnv) (peer : Addr6) (auto : Bool) (buf6 : Buf)
  | defragIn (env : NatEnv) (peer : Addr6) (auto : Bool) (buf4 : Buf)
  | defragOut (env : NatEnv) (buf4 : Buf)
  | expireNat (seconds : ℕ) (ptr : ℕ)
  | everySecond (seconds : ℕ)
  | gcIncr (seconds quantum : ℕ)
  | btIncr (quantum : ℕ)
  | resizeFragHash (up : Bool) (rnd : UInt32)
  | resizeNatHash (up : Bool) (rnd : UInt32)
  | resizeTunHash (up : Bool) (rnd : UInt32)

/-- The tunnel of a packet: `auto` says that one may be made for it. -/
def decap (cfg : Conf) (env : NatEnv) (peer : Addr6) (auto : Bool) (s : State) :
    State × Option Tunnel :=
  match s.tuns.tunnelLookup peer with
  | (tuns, some t) => ({ s with tuns := tuns }, some t)
  | (tuns, none) =>
    if auto then addStdtunnel cfg env peer none { s with tuns := tuns }
    else ({ s with tuns := tuns }, none)

/-- A packet of a tunnel: as it is (no-NAT), translated, or A+P. -/
def filterin (cfg : Conf) (env : NatEnv) (t : Tunnel) (acl4 : Bool) (p : Pkt) (s : State) :
    State × Option Pkt :=
  if (s.tuns.nonat t.ptr).isSome then (s, none)
  else if acl4 then natin cfg env t.ptr p s
  else prrin t.ptr p s

def newHashsz (up : Bool) (hashsz : ℕ) : ℕ := if up then hashsz * 2 else hashsz / 2

def resizeNatHash (up : Bool) (rnd : UInt32) (s : Nats) : Nats :=
  let newhashsz := newHashsz up s.nathashsz
  if newhashsz > MAXNATHASH ∨ newhashsz < MINNATHASH then s
  else { s with nathash := fun _ => none, nathashsz := newhashsz, nathashrnd := rnd }

def resizeTunHash (up : Bool) (rnd : UInt32) (s : Tunnels) : Tunnels :=
  let newhashsz := newHashsz up s.tunhashsz
  if newhashsz > MAXTUNHASH ∨ newhashsz < MINTUNHASH then s
  else { s with tunhash := fun _ => none, tunhashsz := newhashsz, tunhashrnd := rnd }

/-- The end of `commands`: back to the generation saved at its start. -/
def commandsDone (s : State) : State :=
  match s.ctl.batch with
  | none => s
  | some (_, savedgen) => { s with ctl := { s.ctl with batch := none, curgen := savedgen } }

/-- One line of a batch. While its own `reload` runs a session reads nothing,
    except that a file it loads goes on; any other session stops after the
    line when a reload is going on. -/
def batchLine (cfg : Conf) (env : NatEnv) (inFile : Bool) (cmd : Cmd) (s : State) : State :=
  match s.ctl.batch with
  | none => s
  | some (sid, _) =>
    let own := s.ctl.reloadSession = some sid
    if s.ctl.reloading && own && !inFile then s else
    let s := (cmdline cfg env sid cmd s).1
    if s.ctl.reloading && s.ctl.reloadSession ≠ some sid then commandsDone s else s

/-- A line of the file, with the generation of the reload. -/
def reloadLine (cfg : Conf) (env : NatEnv) (cmd : Cmd) (s : State) : State :=
  match s.ctl.reloadSession with
  | none => s
  | some sid =>
    let savedgen := s.ctl.curgen
    let (s, ok) := cmdline cfg env sid cmd
      { s with ctl := { s.ctl with curgen := s.ctl.lastgen } }
    let s := { s with ctl := { s.ctl with curgen := savedgen } }
    if ok then s else reloadFinish true s

def openBatch (sid : ℕ) (s : State) : State :=
  match s.ctl.session sid with
  | none => s
  | some ss =>
    if s.ctl.batch.isSome || (s.ctl.reloading && !s.ctl.serving) then s
    else { s with ctl := { s.ctl with
        batch := some (sid, s.ctl.curgen)
        curgen := ss.generation
        serving := true } }

/-- The steps that belong to the pass over the sessions. -/
def Event.serves : Event → Bool
  | .sessionOpen | .sessionEof _ | .commands _ | .line .. | .commandsDone => true
  | .reloadLine .. | .reloadEof => true
  | _ => false

def liftFrags (f : Frags → Frags) (s : State) : State := { s with frags := f s.frags }

def act (cfg : Conf) (s : State) : Event → State
  | .boot env cmd => (cmdline cfg env 0 cmd s).1
  | .bootDone daemonize =>
    let c := { s.ctl with booting := false, curgen := 0 }
    let s := { s with ctl := c.setSess 0 fun ss => { ss with sec := 8 } }
    if daemonize then
      match s.ctl.session 0 with
      | none => s
      | some ss => gcSession ss { s with
          ctl := { s.ctl with sslist := s.ctl.sslist.filter (·.id ≠ 0) } }
    else s
  | .sessionOpen => { s with ctl := sessionOpen s.ctl }
  | .sessionEof sid => (sessionClose sid s).1
  | .commands sid => openBatch sid s
  | .line env inFile cmd => batchLine cfg env inFile cmd s
  | .commandsDone => commandsDone s
  | .reloadLine env cmd => if s.ctl.reloading then reloadLine cfg env cmd s else s
  | .reloadEof => if s.ctl.reloading then reloadFinish false s else s
  | .natin env peer auto acl4 p =>
    match decap cfg env peer auto s with
    | (s, none) => s
    | (s, some t) => (filterin cfg (env.after 3) t acl4 p s).1
  | .naticmpin env peer auto proto src sport =>
    match decap cfg env peer auto s with
    | (s, none) => s
    | (s, some t) =>
      if (s.tuns.nonat t.ptr).isSome then s else (naticmpin t.ptr proto src sport s).1
  | .natout env p => (natout cfg env p s).1
  | .naticmpout p => (naticmpout p s).1
  | .defrag6 env peer auto buf6 =>
    match decap cfg env peer auto s with
    | (s, none) => s
    | (s, some t) => liftFrags (fun f => (defrag6 cfg.frag (env.after 3).toEnv t.ptr buf6 f).1) s
  | .defragIn env peer auto buf4 =>
    match decap cfg env peer auto s with
    | (s, none) => s
    | (s, some t) =>
      liftFrags (fun f => (defrag cfg.frag (env.after 3).toEnv (some t.ptr) buf4 f).1) s
  | .defragOut env buf4 => liftFrags (fun f => (defrag cfg.frag env.toEnv none buf4 f).1) s
  | .expireNat seconds ptr =>
    match s.nats.heap.find? (·.ptr = ptr) with
    | none => s
    | some n => delNat cfg seconds n s
  | .everySecond seconds =>
    { s with ports := s.ports.freeHeldnats seconds, frags := expireFrags seconds s.frags }
  | .gcIncr seconds quantum => if s.ctl.needgc ≠ 0 then gcIncr cfg seconds quantum s else s
  | .btIncr quantum => if s.ctl.needbt ≠ 0 then btIncr quantum s else s
  | .resizeFragHash up rnd => liftFrags (resizeFragHash up rnd) s
  | .resizeNatHash up rnd => { s with nats := resizeNatHash up rnd s.nats }
  | .resizeTunHash up rnd => { s with tuns := resizeTunHash up rnd s.tuns }

/-- Only the lines of the configuration file come before the end of the boot. -/
def Event.boots : Event → Bool
  | .boot .. | .bootDone _ => true
  | _ => false

def step (cfg : Conf) (s : State) (e : Event) : State :=
  if e.boots ≠ s.ctl.booting then s
  else act cfg { s with ctl := { s.ctl with serving := s.ctl.serving && e.serves } } e

def run (cfg : Conf) (s : State) (es : List Event) : State := es.foldl (step cfg) s

/-- The pools the second section of the configuration made. -/
def bootPools (cfg : Conf) (cmds : List PoolCmd) : Ports := cmds.foldl (runPool cfg) {}

def start (ports : Ports) (nathashrnd tunhashrnd fraghashrnd : UInt32) : State :=
  { nats := { nathashrnd := nathashrnd }
    tuns := { tunhashrnd := tunhashrnd }
    ports := ports
    frags := { fraghashrnd := fraghashrnd } }

end WanStack.Aftr
